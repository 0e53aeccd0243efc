import AgentOS.Plan.Attempts

/-!
# Artifacts across retries

A node publishes the artifacts of every run that ends, also of one that fails, and the plan
keeps them all in the order of their publication.  An input mapping names the node and the
artifact and gets the first one that fits.
-/

namespace AgentOS.Plan

open Kit State

variable {E : Host} {input : PlanWorkflowInput} {x : Execution} {p p' : Point} {w v : World}
  {refs : List ArtifactRef} {spec : RunPlanSpec}

/-! ## The lookup -/

def findArtifact (refs : List ArtifactRef) (nodeID name : String) : Option ArtifactRef :=
  refs.find? fun ref => ref.name = name ∧ (nodeID = "" ∨ ref.nodeID = nodeID)

structure PlanArtifactScope where
  (planID accountID projectID artifactID : String)

/-- `selectSourcePath`, with the lookup of a path in a document. -/
def selectSourcePath (lookup : Json → String → Option Json) (source : Json)
    (sourcePath : String) (required : Bool) : Except Err (Option Json) :=
  if sourcePath = "" then .ok (some source)
  else
    match lookup source sourcePath with
    | some value => .ok (some value)
    | none =>
        if required then
          errorf .invalidRunPlan ("required source path " ++ quoted sourcePath ++ " is missing")
        else .ok none

/-- `resolveArtifactMapping`, with the payloads that the artifact store holds. -/
def resolveArtifactMapping (store : Option (PlanArtifactScope → Except Err (Option Json)))
    (lookup : Json → String → Option Json) (spec : RunPlanSpec) (status : RunPlanStatus)
    (mapping : InputMapping) : Except Err (Option Json) :=
  match store with
  | none =>
      errorf .invalidArtifact ("artifact store is required for mapping " ++ quoted mapping.target)
  | some get =>
      match findArtifact status.artifacts mapping.sourceNodeID mapping.sourceArtifact with
      | none =>
          if mapping.required then
            errorf .artifactNotFound
              ("required artifact " ++ quoted mapping.sourceArtifact ++ " is missing")
          else .ok none
      | some ref =>
          if ref.planID ≠ "" ∧ ref.planID ≠ spec.planID then
            errorf .invalidArtifact
              ("artifact " ++ quoted mapping.sourceArtifact ++ " belongs to plan " ++
                quoted ref.planID)
          else if ref.artifactID = "" then
            errorf .invalidArtifact
              ("artifact " ++ quoted mapping.sourceArtifact ++ " has no artifact id")
          else do
            match ← get ⟨spec.planID, spec.accountID, spec.projectID, ref.artifactID⟩ with
            | none =>
                errorf .artifactNotFound
                  ("artifact " ++ quoted mapping.sourceArtifact ++ " has no payload")
            | some payload => selectSourcePath lookup payload mapping.sourcePath mapping.required

open List

theorem resolveArtifactMapping_ok {store : Option (PlanArtifactScope → Except Err (Option Json))}
    {lookup : Json → String → Option Json} {status : RunPlanStatus}
    {mapping : InputMapping} {value : Json}
    (h : resolveArtifactMapping store lookup spec status mapping = .ok (some value)) :
    ∃ get ref payload, store = some get ∧
      findArtifact status.artifacts mapping.sourceNodeID mapping.sourceArtifact = some ref ∧
      get ⟨spec.planID, spec.accountID, spec.projectID, ref.artifactID⟩ = .ok (some payload) ∧
      selectSourcePath lookup payload mapping.sourcePath mapping.required = .ok (some value) := by
  unfold resolveArtifactMapping at h
  split at h
  · cases h
  split at h <;> split_ifs at h
  · cases h
  · next get _ ref hfind _ _ =>
    obtain ⟨answer, hget, h⟩ := bind_ok h
    cases answer with
    | none => cases h
    | some payload => exact ⟨get, ref, payload, rfl, hfind, hget, h⟩

theorem findArtifact_some {nodeID name : String} {ref : ArtifactRef}
    (hnode : nodeID ≠ "") (h : findArtifact refs nodeID name = some ref) :
    ref ∈ refs ∧ ref.nodeID = nodeID ∧ ref.name = name := by
  have hfits : ref.name = name ∧ (nodeID = "" ∨ ref.nodeID = nodeID) := by
    simpa using find?_some h
  exact ⟨mem_of_find?_eq_some h, hfits.2.resolve_left hnode, hfits.1⟩

/-! ## Publications -/

/-- The event that publishes an artifact of a node that is at an attempt. -/
def publishes (nodeID : String) (attempt : Int) (ref : ArtifactRef) : Locals × Act → Bool
  | (l, .apply event) =>
      event.kind = .artifactsPublished && event.nodeID = nodeID && ref ∈ event.artifacts &&
        (l.state.nodeStatus nodeID).any fun status => status.attempts = attempt
  | _ => false

/-- The retry of a node that has published an artifact of this name. -/
def staleRetry (nodeID name : String) : Locals × Act → Bool
  | (l, .apply event) =>
      event.kind = .nodeRetryScheduled && event.nodeID = nodeID &&
        (l.state.nodeStatus nodeID).any fun status => status.artifacts.any fun ref => ref.name = name
  | _ => false

theorem normalizeRunArtifacts_owned {planID : String} {node : PlanNodeSpec} {status : RunStatus}
    (h : normalizeRunArtifacts planID node status = .ok refs) :
    ∀ ref ∈ refs, ref.nodeID = node.nodeID := by
  have hone : ∀ {ref normal : ArtifactRef}, normalizeArtifactRef planID node status ref = .ok normal →
      normal.nodeID = node.nodeID := by
    intro ref normal hnormal
    unfold normalizeArtifactRef at hnormal
    split_ifs at hnormal
    obtain ⟨⟨⟩, hvalid, hnormal⟩ := bind_ok hnormal
    cases hnormal
    unfold validateArtifactOwnership at hvalid
    split_ifs at hvalid with _ hforeign
    show (if ref.nodeID = "" then node.nodeID else ref.nodeID) = node.nodeID
    split_ifs with hblank
    · rfl
    · exact by_contra fun hne => hforeign ⟨hblank, hne⟩
  unfold normalizeRunArtifacts at h
  generalize status.artifacts = artifacts at h
  induction artifacts generalizing refs with
  | nil =>
    cases h
    nofun
  | cons artifact rest ih =>
    rw [mapM_cons] at h
    obtain ⟨normal, hnormal, h⟩ := bind_ok h
    obtain ⟨normals, hnormals, h⟩ := bind_ok h
    cases h
    intro ref hmem
    rcases mem_cons.mp hmem with rfl | hmem
    · exact hone hnormal
    · exact ih hnormals ref hmem

def Owned : Point → Prop
  | .node _ node (.publishing _ artifacts) => ∀ ref ∈ artifacts, ref.nodeID = node.nodeID
  | _ => True

theorem reachable_owned {c : Config} (hc : Reachable E input c) : Owned c.1.2 := by
  refine reach_always trivial (fun c d _ h _ => ?_) hc
  cases h with
  | skip h =>
    cases h with
    | node h | command h => cases h <;> trivial
    | _ => trivial
  | say h | saved h _ =>
    cases h with
    | node h => cases h <;> trivial
    | _ => trivial
  | ask h =>
    cases h with
    | node h =>
      cases h with
      | published _ hnormal => exact normalizeRunArtifacts_owned hnormal
      | _ => trivial
    | _ => trivial
  | unsaved h _ => cases h <;> trivial
  | begin | refuse => trivial

theorem Posts.publish_point {event : StateEvent} {ok : Point}
    {bad : Err → Point} (h : Posts E x w p spec event ok bad)
    (hkind : event.kind = .artifactsPublished) (hscheduled : Scheduled w.st.spec p) :
    ∃ site node status, p = .node site node (.publishing status event.artifacts) ∧
      event.nodeID = node.nodeID := by
  cases h with
  | ended hends => exact absurd hkind (hends.ne rfl)
  | terminalBefore | terminalAfter => exact absurd hkind (terminalPlanEvent_ne rfl)
  | node h =>
    cases h with
    | artifacts => exact ⟨_, _, _, rfl, rfl⟩
    | close =>
      have hcloses := hscheduled.2.2.closes.1
      simp [EventKind.closesNode, hkind] at hcloses
    | _ => cases hkind
  | _ => cases hkind

/-! ## Freshness -/

def Begun (status : PlanNodeStatus) : Prop :=
  ¬ (status.lifecycleState = .pending ∨ status.lifecycleState = .ready)

structure FreshRef (nodeID name : String) (log : List (Locals × Act)) (ref : ArtifactRef)
    (status : PlanNodeStatus) : Prop where
  begun : Begun status
  own : ∃ own ∈ status.artifacts, own.name = name
  published : ∃ e ∈ log, publishes nodeID status.attempts ref e = true

/-- Every artifact of the node with this name is fresh. -/
def Fresh (nodeID name : String) (w : World) : Prop :=
  ∀ ref ∈ w.st.state.status.artifacts, ref.nodeID = nodeID → ref.name = name →
    HasStatus w.st nodeID (FreshRef nodeID name w.log ref)

section Fresh

variable {nodeID name : String} {ref : ArtifactRef} {spec : RunPlanSpec} {event : StateEvent}
  {answer : Option Err} {ok : Point} {bad : Err → Point} {status : PlanNodeStatus}

theorem FreshRef.mono {log log' : List (Locals × Act)} (h : FreshRef nodeID name log ref status)
    (hlog : ∀ e ∈ log, e ∈ log') : FreshRef nodeID name log' ref status := by
  obtain ⟨e, he, hpublishes⟩ := h.published
  exact ⟨h.begun, h.own, e, hlog e he, hpublishes⟩

theorem Fresh.mono (h : Fresh nodeID name w) (hstate : v.st.state = w.st.state)
    (hlog : ∀ e ∈ w.log, e ∈ v.log) : Fresh nodeID name v := by
  intro ref hmem hnode hname
  rw [hstate] at hmem
  obtain ⟨status, hstatus, hfresh⟩ := h ref hmem hnode hname
  exact ⟨status, hstate ▸ hstatus, hfresh.mono hlog⟩

theorem Tallies.begun {l : Locals} {time now : Time} (h : Tallies l event)
    (hstatus : l.state.nodeStatus event.nodeID = some status) (hbegun : Begun status)
    (hretry : event.kind ≠ .nodeRetryScheduled) :
    Begun (changedNode (stamped l time event) now status) ∧
      (changedNode (stamped l time event) now status).attempts = status.attempts := by
  have hstarted : event.kind ≠ .nodeStarted := by
    intro hkind
    exact hbegun (.inr ((h.started hkind).1.holds hstatus).1)
  refine ⟨fun hafter => ?_, changedNode_attempts hstarted hretry⟩
  rw [changedNode_lifecycle] at hafter
  rcases lifecycleAfter_open hafter with hkind | hkind | hbefore
  · exact hbegun ((h.ready hkind).holds hstatus)
  · exact hretry hkind
  · exact hbegun hbefore

section

variable (hc : Reachable E input ((x, p), w)) (hrow : Posts E x w p spec event ok bad)
  (h : Posted E spec event w answer v) (hstale : LogMeets (staleRetry nodeID name · = false) v)
include hc hrow h hstale

theorem Posted.keeps_fresh (hI : HasStatus w.st nodeID (FreshRef nodeID name w.log ref)) :
    HasStatus v.st nodeID (FreshRef nodeID name v.log ref) := by
  obtain ⟨status, hstatus, hfresh⟩ := hI
  obtain ⟨time, _, tail, -, hlog, -⟩ := h.effect
  have hgrows : ∀ e ∈ w.log, e ∈ v.log := by
    intro e he
    rw [hlog]
    exact mem_append_right _ (mem_cons_of_mem _ he)
  rcases h.status_after hstatus with ⟨hsame, -⟩ | ⟨rfl, _, _, hchanged⟩
  · exact ⟨status, hsame, hfresh.mono hgrows⟩
  obtain ⟨own, hown, hownName⟩ := hfresh.own
  have hretry : event.kind ≠ .nodeRetryScheduled := by
    intro hkind
    have hentry : (w.st, .apply (stamped w.st time event)) ∈ v.log := by
      rw [hlog]
      exact mem_append_right _ mem_cons_self
    have hfalse := hstale _ hentry
    simp only [staleRetry, stamped_kind, stamped_nodeID, hkind, hstatus, Option.any_some,
      decide_true, Bool.true_and, any_eq_false, decide_eq_true_eq] at hfalse
    exact hfalse own hown hownName
  obtain ⟨hbegun, hattempts⟩ := (Posts.tallies hc hrow).begun hstatus hfresh.begun hretry
  refine ⟨_, hchanged, hbegun, ⟨own, changedNode_artifacts hown, hownName⟩, ?_⟩
  rw [hattempts]
  exact (hfresh.mono hgrows).published

theorem Posted.fresh (hnamed : nodeID ≠ "") (hI : Fresh nodeID name w) : Fresh nodeID name v := by
  intro ref hmem hnode hname
  obtain ⟨time, now, tail, -, hlog, -, happlied | ⟨-, hfailed⟩⟩ := h.effect
  swap
  · rw [hfailed.status] at hmem
    exact h.keeps_fresh hc hrow hstale (hI ref hmem hnode hname)
  rw [happlied.artifacts, artifactsAfter, stamped_kind] at hmem
  split_ifs at hmem with hkind
  swap
  · exact h.keeps_fresh hc hrow hstale (hI ref hmem hnode hname)
  rcases mem_append.mp hmem with hmem | hmem
  · exact h.keeps_fresh hc hrow hstale (hI ref hmem hnode hname)
  -- The artifact is new: the event publishes it for the running node at hand.
  obtain ⟨site, node, status, rfl, hid⟩ := hrow.publish_point hkind (reachable_scheduled hc)
  have howned : ∀ ref ∈ event.artifacts, ref.nodeID = node.nodeID := reachable_owned hc
  obtain rfl : nodeID = event.nodeID := (hnode.symm.trans (howned ref hmem)).trans hid.symm
  obtain ⟨current, hcurrent, hrunning⟩ : HasStatus w.st event.nodeID
      (fun status => status.lifecycleState = .running) := hid ▸ reachable_attended hc
  have hbegun : Begun current := by
    simp [Begun, hrunning]
  obtain ⟨hbegun', hattempts⟩ : Begun (changedNode (stamped w.st time event) now current) ∧
      (changedNode (stamped w.st time event) now current).attempts = current.attempts :=
    (Posts.tallies hc hrow).begun hcurrent hbegun (by simp [hkind])
  refine ⟨changedNode (stamped w.st time event) now current, ?_, hbegun', ⟨ref, ?_, hname⟩,
    (w.st, .apply (stamped w.st time event)), ?_, ?_⟩
  · rw [happlied.lookup, nodeAfter, if_neg (by simp [hkind]),
      stamped_nodeID, if_pos rfl, hcurrent, Option.map_some]
  · have hartifacts : (changedNode (stamped w.st time event) now current).artifacts =
        current.artifacts ++ event.artifacts := changedNode_published hkind hnamed
    rw [hartifacts]
    exact mem_append_right _ hmem
  · rw [hlog]
    exact mem_append_right _ mem_cons_self
  · rw [hattempts]
    simp only [publishes, stamped_kind, hkind, stamped_nodeID, hcurrent, Option.any_some,
      decide_true, Bool.true_and, Bool.and_true, decide_eq_true_eq]
    exact hmem

end

theorem reachable_fresh (hfresh : input.continued = false) (hnamed : nodeID ≠ "") {c : Config}
    (hc : Reachable E input c) (hstale : LogMeets (staleRetry nodeID name · = false) c.2) :
    Fresh nodeID name c.2 := by
  refine reach_inv (C := (staleRetry nodeID name · = false))
    nofun (fun c d hc h hstale hI => ?_) hc hstale
  cases h with
  | skip | refuse => exact hI
  | say h => exact hI.mono h.quiet.2 fun _ he => mem_cons_of_mem _ he
  | ask h =>
    exact hI.mono h.quiet.2 fun _ he => mem_cons_of_mem _ (mem_cons_of_mem _ he)
  | saved hrow hposted | unsaved hrow hposted => exact hposted.fresh hc hrow hstale hnamed hI
  | @begin _ _ _ _ state _ _ hstate =>
    intro ref (hmem : ref ∈ state.status.artifacts) hnode hname
    rcases reachable_begin hfresh hc hstate with ⟨rfl, rfl, rfl⟩ | ⟨-, hrestored, hlookup⟩
    · cases hmem
    rw [hrestored.artifacts] at hmem
    obtain ⟨status, hstatus, hfreshRef⟩ := hI ref hmem hnode hname
    exact ⟨status, (hlookup nodeID).trans hstatus,
      hfreshRef.mono fun _ he => mem_cons_of_mem _ he⟩

end Fresh

/-- Artifact freshness for a new plan.  When an attempt resolves its input, the artifact that a
mapping finds was published for the attempt that its source node is at, and the value that it
resolves to is one of its payload.  That the source node has succeeded is not needed, but that
it was not retried after it had published an artifact of that name. -/
theorem artifact_freshness (E : Host) (r : PlanRuntime) (spec : RunPlanSpec) (n : Nat)
    (mapping : InputMapping) (hsource : mapping.sourceNodeID ≠ "")
    (hstale : LogMeets (staleRetry mapping.sourceNodeID mapping.sourceArtifact · = false)
      (planRun E (r.newPlanInput spec) n).world) :
    ∀ l node answer earlier, (l, .resolveInput node answer) :: earlier <:+
      (planRun E (r.newPlanInput spec) n).world.log →
    ∀ status, l.state.nodeStatus mapping.sourceNodeID = some status →
    (∀ ref, findArtifact l.state.status.artifacts mapping.sourceNodeID mapping.sourceArtifact =
        some ref →
      ∃ e ∈ earlier, publishes mapping.sourceNodeID status.attempts ref e = true) ∧
    ∀ store lookup value,
      resolveArtifactMapping store lookup l.spec l.state.status mapping = .ok (some value) →
      ∃ get ref payload, store = some get ∧
        get ⟨l.spec.planID, l.spec.accountID, l.spec.projectID, ref.artifactID⟩ =
          .ok (some payload) ∧
        selectSourcePath lookup payload mapping.sourcePath mapping.required = .ok (some value) ∧
        ∃ e ∈ earlier, publishes mapping.sourceNodeID status.attempts ref e = true := by
  intro l node answer earlier hresolve status hstatus
  obtain ⟨c, hreach, hat⟩ := planRun_path E (r.newPlanInput spec) n
  rw [← hat.world] at hstale hresolve
  obtain ⟨x, p, hc⟩ : ∃ x p, Reachable E _ ((x, p), ⟨l, earlier⟩) := by
    cases (reachable_rowed hreach).of_suffix (w := ⟨l, earlier⟩) hresolve with
    | said hreach | asked hreach => exact ⟨_, _, hreach⟩
  have hfresh : Fresh mapping.sourceNodeID mapping.sourceArtifact ⟨l, earlier⟩ :=
    reachable_fresh rfl hsource hc fun e he =>
      hstale e (hresolve.subset (mem_cons_of_mem _ he))
  refine (and_iff_left_of_imp fun hfound store lookup value hvalue => ?_).mpr fun ref hfind => ?_
  · obtain ⟨get, ref, payload, hstore, hfind, hget, hselect⟩ := resolveArtifactMapping_ok hvalue
    exact ⟨get, ref, payload, hstore, hget, hselect, hfound ref hfind⟩
  · obtain ⟨hmem, hnode, hname⟩ := findArtifact_some hsource hfind
    exact ((hfresh ref hmem hnode hname).holds hstatus).published

/-- The first run of the node `s` fails and later ones succeed.  Each publishes an artifact
named `out`, or the first one does not when `quiet`. -/
def publishingHost (quiet : Bool) : Host :=
  { calmHost with
    statusNode := fun w =>
      if (w.st.state.nodeStatus "s").any fun status => status.attempts = 1 then
        .ok { runID := "r", lifecycleState := .failed
              artifacts := if quiet then []
                else [{ artifactID := "first", name := "out", kind := .object }] }
      else
        .ok { runID := "r-attempt-2", lifecycleState := .succeeded
              artifacts := [{ artifactID := "second", name := "out", kind := .object }] } }

/-- A mapping of the artifact of the node `s`. -/
def outMapping : InputMapping := { target := "x", sourceNodeID := "s", sourceArtifact := "out" }

/-- The input of the node `t` takes an artifact of the node `s`, which has two attempts. -/
def mappedPlan : PlanWorkflowInput :=
  planOf
    [{ nativeNode "s" "r" { maxAttempts := 2 } with outputs := [{ name := "out", kind := .object }] },
     nativeNode "t" "rt"]
    [{ edgeID := "e", source := "s", target := "t", inputMapping := [outMapping] }]

/-- An input is resolved when the node has succeeded at an attempt, and the lookup finds an
artifact for the mapping. -/
def selects (mapping : InputMapping) (attempt : Int) (ref : ArtifactRef) : Locals × Act → Bool
  | (l, .resolveInput ..) =>
      ((l.state.nodeStatus mapping.sourceNodeID).any fun status =>
        status.lifecycleState = .succeeded && status.attempts = attempt) &&
      findArtifact l.state.status.artifacts mapping.sourceNodeID mapping.sourceArtifact = some ref
  | _ => false

/-- The artifact that a run of the node `s` publishes. -/
def outRef (artifactID runID : String) : ArtifactRef :=
  { artifactID := artifactID, planID := "p", nodeID := "s", runID := runID, name := "out"
    kind := .object }

theorem artifact_freshness_quiet :
    let w := (planRun (publishingHost true) mappedPlan 9).world
    w.log.any (selects outMapping 2 (outRef "second" "r-attempt-2")) = true ∧
    ∀ l node answer earlier, (l, .resolveInput node answer) :: earlier <:+ w.log →
    ∀ status, l.state.nodeStatus "s" = some status →
    (∀ ref, findArtifact l.state.status.artifacts "s" "out" = some ref →
      ∃ e ∈ earlier, publishes "s" status.attempts ref e = true) ∧
    ∀ store lookup value,
      resolveArtifactMapping store lookup l.spec l.state.status outMapping = .ok (some value) →
      ∃ get ref payload, store = some get ∧
        get ⟨l.spec.planID, l.spec.accountID, l.spec.projectID, ref.artifactID⟩ =
          .ok (some payload) ∧
        selectSourcePath lookup payload "" false = .ok (some value) ∧
        ∃ e ∈ earlier, publishes "s" status.attempts ref e = true :=
  ⟨by decide +kernel, artifact_freshness (publishingHost true) calmRuntime mappedPlan.spec
    9 outMapping (by decide) (by decide +kernel)⟩

/-- The node has succeeded at its second attempt, but the lookup finds the artifact that its
first attempt published before it failed. -/
theorem artifact_stale :
    let w := (planRun (publishingHost false) mappedPlan 9).world
    w.log.any (selects outMapping 2 (outRef "first" "r")) = true ∧
      w.log.any (publishes "s" 1 (outRef "first" "r")) = true ∧
      w.log.any (publishes "s" 2 (outRef "first" "r")) = false := by
  decide +kernel

end AgentOS.Plan
