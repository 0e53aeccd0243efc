import AgentOS.Plan.Attempts
import AgentOS.Runtime.Delivery

/-!
# Events of external backends

`IngestExternalPlanEvent` of `agentos/temporal/plan_runtime.go` takes an event that a backend
reports for a node of a plan.  It looks the plan up in the plan tables, compares the run id of
the event with the run id of the node there, appends the event and publishes it.
-/

namespace AgentOS.Plan

open Kit List

variable {E : Host} {input : PlanWorkflowInput} {x : Execution} {p p' : Point} {w v : World}

/-! ## The saved spec -/

/-- The specs that can be in the tables: the one that was saved last, or one whose save was
answered with an error after that.  Before the first save it is the spec of the start. -/
def storableSpecs (submitted : RunPlanSpec) : List (Locals × Act) → List RunPlanSpec
  | [] => [submitted]
  | (_, .persist spec _ _ _ none) :: _ => [spec]
  | (_, .persist spec _ _ _ (some _)) :: earlier => spec :: storableSpecs submitted earlier
  | _ :: earlier => storableSpecs submitted earlier

def Act.unsaved : Act → Prop
  | .persist .. => False
  | _ => True

variable {act : Act}

variable {submitted stored : RunPlanSpec}

theorem Act.unsaved.storable (h : act.unsaved)
    (hstored : stored ∈ storableSpecs submitted (w.act Locals.step act).log) :
    stored ∈ storableSpecs submitted w.log := by
  cases act <;> first | exact hstored | exact h.elim

def heldSpec (w : World) : Point → RunPlanSpec
  | .node _ _ (.expanded _ expansion) => expansion.spec
  | _ => w.st.spec

theorem Says.unsaved (h : Says E x w p act p') : act.unsaved := by
  cases h with
  | node h => cases h <;> trivial
  | _ => trivial

theorem Asks.unsaved (h : Asks E x w p act p') : act.unsaved := by
  cases h with
  | node h => cases h <;> trivial
  | _ => trivial

variable {event : StateEvent} {spec : RunPlanSpec} {bad : Err → Point}

theorem Posts.spec_cases {ok : Point} (h : Posts E x w p spec event ok bad) :
    (spec = w.st.spec ∧ ∀ u : World, heldSpec u ok = u.st.spec) ∨
      ∃ site node status expansion, p = .node site node (.expanding status expansion) ∧
        spec = expansion.spec ∧ ok = .node site node (.expanded status expansion) := by
  cases h with
  | @node site node _ _ _ _ h =>
    cases h with
    | @expansion status expansion => exact .inr ⟨site, node, status, expansion, rfl, rfl, rfl⟩
    | _ => exact .inl ⟨rfl, fun _ => rfl⟩
  | _ => exact .inl ⟨rfl, fun _ => rfl⟩

theorem Posts.heldSpec_eq {ok : Point}
    (h : Posts E x w p spec event ok bad) (u : World) (err : Err) :
    heldSpec w p = w.st.spec ∧ heldSpec u (bad err) = u.st.spec := by
  cases h with
  | node h => cases h <;> exact ⟨rfl, rfl⟩
  | _ => exact ⟨rfl, rfl⟩

theorem Posted.storable_saved
    (h : Posted E spec event w none v) : storableSpecs submitted v.log = [spec] := by
  cases h with
  | answered => rfl

theorem Posted.storable_unsaved {err : Err}
    (h : Posted E spec event w (some err) v) (hstored : stored ∈ storableSpecs submitted v.log) :
    stored = spec ∨ stored ∈ storableSpecs submitted w.log := by
  cases h with
  | answered => exact mem_cons.mp hstored
  | refused | unscoped => exact .inr hstored

theorem Skips.heldSpec_eq (h : Skips E x w p p') : heldSpec w p' = heldSpec w p := by
  cases h with
  | node h => cases h <;> rfl
  | command h =>
    cases h with
    | guard hguard | guardRefused _ hguard => cases hguard <;> rfl
    | _ => rfl
  | _ => rfl

theorem Says.heldSpec_eq (h : Says E x w p act p') :
    heldSpec (w.act Locals.step act) p' = heldSpec w p := by
  cases h with
  | node h => cases h <;> rfl
  | _ => rfl

theorem Asks.heldSpec_eq {arrivals : Arrivals} (h : Asks E x w p act p') :
    heldSpec (asked w act arrivals) p' = heldSpec w p := by
  cases h with
  | node h => cases h <;> rfl
  | _ => rfl

theorem reachable_storable {c : Config} (hc : Reachable E input c) :
    ∀ stored ∈ storableSpecs input.spec c.2.log, Extends (heldSpec c.2 c.1.2) stored := by
  refine reach_always (fun stored hstored => ?_) (fun c d hc h hI stored hstored => ?_) hc
  · rw [mem_singleton.mp hstored]
    exact .refl _
  have hplanned := reachable_planned hc
  cases h with
  | skip h => exact h.heldSpec_eq ▸ hI stored hstored
  | say h | ask h => exact h.heldSpec_eq ▸ hI stored (h.unsaved.storable hstored)
  | saved h hposted =>
    rw [hposted.storable_saved, mem_singleton] at hstored
    subst hstored
    rcases h.spec_cases with ⟨rfl, hheld⟩ | ⟨site, node, status, expansion, rfl, rfl, rfl⟩
    · rw [hheld, hposted.framed.spec]
      exact .refl _
    · exact .refl _
  | @unsaved _ _ _ _ _ v _ _ err h hposted =>
    obtain ⟨hbefore, hafter⟩ := h.heldSpec_eq v err
    rw [hafter, hposted.framed.spec]
    rcases hposted.storable_unsaved hstored with rfl | hold
    · rcases h.spec_cases with ⟨rfl, -⟩ | ⟨site, node, status, expansion, rfl, rfl, -⟩
      · exact .refl _
      · exact hplanned.2.extends
    · exact hbefore ▸ hI stored hold
  | refuse => exact hI stored hstored
  | @begin _ next w =>
    have hspec : next.spec = w.st.spec := by
      rcases reachable_begins hc with ⟨rfl, rfl⟩ | ⟨rfl, -⟩
      · rfl
      · rfl
    show Extends next.spec stored
    rw [hspec]
    exact hI stored hstored

theorem reachable_stored {c : Config} (hc : Reachable E input c)
    (hstored : stored ∈ storableSpecs input.spec c.2.log) : Extends c.2.st.spec stored := by
  have hextends := reachable_storable hc stored hstored
  have hplanned := reachable_planned hc
  obtain ⟨⟨x, p⟩, w⟩ := c
  unfold heldSpec at hextends
  split at hextends
  · next site node status expansion hpoint =>
    obtain rfl : p = .node site node (.expanded status expansion) := hpoint
    exact hplanned.2.extends.trans hextends
  · exact hextends

end AgentOS.Plan

namespace AgentOS.Runtime

open Kit Store

variable {Text : Type} [DecidableEq Text]

/-! ## Ingestion -/

/-- `ExternalPlanEvent`.  Of the plan fields of `event` none is read. -/
structure ExternalPlanEvent where
  event : PlanEvent
  plan : PlanRef
  nodeID : String

def validateExternalPlanEvent : Option ExternalPlanEvent → Except Err Unit
  | none => errorf .invalidPlanEvent "external plan event is required"
  | some incoming => do
      validatePlanRef ⟨incoming.plan.planID, incoming.plan.accountID, incoming.plan.projectID, ""⟩
      if incoming.nodeID = "" then
        errorf .invalidPlanEvent "external plan event node id is required"
      else if incoming.event.eventID = "" then
        errorf .invalidPlanEvent "external plan event id is required"
      else if incoming.event.eventType = "" then
        errorf .invalidPlanEvent "external plan event type is required"
      else if incoming.event.runID = "" then
        errorf .invalidPlanEvent "external plan event run id is required"
      else if incoming.event.source = "" then
        errorf .invalidPlanEvent "external plan event source is required"
      else if incoming.event.timestamp.isZero then
        errorf .invalidPlanEvent "external plan event timestamp is required"
      else if incoming.event.sequence ≤ 0 then
        errorf .invalidPlanEvent "external plan event sequence must be positive"
      else .ok ()

def authorizePlan (t : PlanTables) (ref : PlanRef) :
    Except Err (RunPlanSpec × Plan.RunPlanStatus) := do
  validatePlanRef ⟨ref.planID, ref.accountID, ref.projectID, ""⟩
  match ← getPlanByRef t ref with
  | none => errorf .planRouteNotFound ref.planID
  | some plan => .ok plan

def validateNodeRun (incoming : ExternalPlanEvent) (planID : String) :
    List Plan.PlanNodeSpec → Except Err Unit
  | [] => errorf .invalidPlanEvent ("external event node " ++ quoted incoming.nodeID ++
      " is not in plan " ++ quoted planID)
  | node :: rest =>
      if node.nodeID ≠ incoming.nodeID then validateNodeRun incoming planID rest
      else if node.run.runID ≠ incoming.event.runID then
        errorf .invalidPlanEvent ("external event run " ++ quoted incoming.event.runID ++
          " does not match node " ++ quoted incoming.nodeID ++ " run " ++
          quoted node.run.runID)
      else .ok ()

def validateExternalPlanNode (spec : RunPlanSpec) (incoming : ExternalPlanEvent) :
    Except Err Unit :=
  validateNodeRun incoming spec.planID spec.nodes

def ExternalPlanEvent.planEvent (incoming : ExternalPlanEvent) : PlanEvent :=
  { incoming.event with
    planID := incoming.plan.planID
    accountID := incoming.plan.accountID
    projectID := incoming.plan.projectID
    nodeID := incoming.nodeID
    externalEventID := incoming.event.eventID
    eventID := ""
    sequence := 0 }

def admitExternalPlanEvent (t : PlanTables) (incoming : ExternalPlanEvent) : Except Err Unit := do
  validateExternalPlanEvent (some incoming)
  let (spec, _) ← authorizePlan t incoming.plan
  validateExternalPlanNode spec incoming

/-- `IngestExternalPlanEvent` of an event that is there.  `publish` is the answer of the
publisher; an event that it does not take stays appended. -/
def ingestExternalPlanEvent (m : Marshal Text) (now : Time) (publish : PlanEvent → Option Err)
    (incoming : ExternalPlanEvent) (t : PlanTables) : PlanTables × Except Err PlanEvent :=
  match admitExternalPlanEvent t incoming with
  | .error err => (t, .error err)
  | .ok () =>
      match t.appendPlanEvent m now incoming.planEvent incoming.event.eventID with
      | .error err => (t, .error err)
      | .ok (t', stored) =>
          match publish stored with
          | some err =>
              (t', .error (.within "agentos temporal plan runtime: publish ingested event" err))
          | none => (t', .ok stored)

theorem validateNodeRun_ok (incoming : ExternalPlanEvent) (planID : String)
    (nodes : List Plan.PlanNodeSpec) :
    validateNodeRun incoming planID nodes = .ok () ↔
      ∃ node, nodes.find? (fun node => node.nodeID = incoming.nodeID) = some node ∧
        node.run.runID = incoming.event.runID := by
  induction nodes with
  | nil => simp [validateNodeRun]
  | cons node rest ih =>
    rw [validateNodeRun]
    by_cases hid : node.nodeID = incoming.nodeID
    · rw [if_neg (not_not.mpr hid), List.find?_cons_of_pos (by simpa using hid)]
      by_cases hrun : node.run.runID = incoming.event.runID
      · simp [hrun]
      · simp [hrun]
    · rw [if_pos hid, ih, List.find?_cons_of_neg (by simpa using hid)]

/-- An event that is valid but for its node and its run, in a plan that is stored, which the
store and the publisher take. -/
structure Ingestible (m : Marshal Text) (now : Time) (publish : PlanEvent → Option Err)
    (t : PlanTables) (incoming : ExternalPlanEvent) (spec : RunPlanSpec) : Prop where
  valid : validateExternalPlanEvent (some incoming) = .ok ()
  plan : ∃ status, authorizePlan t incoming.plan = .ok (spec, status)
  taken : ∃ t' stored, t.appendPlanEvent m now incoming.planEvent incoming.event.eventID =
    .ok (t', stored) ∧ publish stored = none

theorem Ingestible.accepted_iff {m : Marshal Text} {now : Time} {publish : PlanEvent → Option Err}
    {t : PlanTables} {incoming : ExternalPlanEvent} {spec : RunPlanSpec}
    (h : Ingestible m now publish t incoming spec) :
    (∃ event, (ingestExternalPlanEvent m now publish incoming t).2 = .ok event) ↔
      ∃ node, Plan.declaredNode spec.toRunPlanSpec incoming.nodeID = some node ∧
        node.run.runID = incoming.event.runID := by
  obtain ⟨status, hplan⟩ := h.plan
  obtain ⟨t', stored, happended, hpublished⟩ := h.taken
  have hadmit : admitExternalPlanEvent t incoming = validateExternalPlanNode spec incoming := by
    simp only [admitExternalPlanEvent, h.valid, hplan]
    rfl
  rw [Plan.declaredNode, ← validateNodeRun_ok incoming spec.planID, ← validateExternalPlanNode,
    ingestExternalPlanEvent, hadmit]
  cases validateExternalPlanNode spec incoming with
  | error err => simp
  | ok admitted => simp [happended, hpublished]

/-- The attempts that the loop has started, by the log. -/
def startedRuns (w : Plan.World) : List Plan.RunStart := w.log.filterMap Plan.startOf

/-- A plan of a new execution whose tables hold what the loop saved last.  An event that is
otherwise valid is accepted exactly when its run id is the one of a started attempt of its node,
if the run id is not that of a later attempt, and if the first attempt of the node was started
or the run id is not that of the node in the plan. -/
theorem ingest_follows_starts (m : Marshal Text) (now : Time) (publish : PlanEvent → Option Err)
    (t : PlanTables) (incoming : ExternalPlanEvent) (stored : RunPlanSpec)
    (E : Plan.Host) (r : Plan.PlanRuntime) (spec : Plan.RunPlanSpec) (n : Nat)
    (hevent : Ingestible m now publish t incoming stored)
    (hstored : stored.toRunPlanSpec ∈ Plan.storableSpecs spec
      (Plan.planRun E (r.newPlanInput spec) n).world.log)
    (hlater : ∀ start ∈ startedRuns (Plan.planRun E (r.newPlanInput spec) n).world,
      start.nodeID = incoming.nodeID → start.runID = incoming.event.runID → start.attempt = 1)
    (hfirst : (∃ start ∈ startedRuns (Plan.planRun E (r.newPlanInput spec) n).world,
        start.nodeID = incoming.nodeID ∧ start.attempt = 1) ∨
      ∀ node ∈ Plan.declaredNode stored.toRunPlanSpec incoming.nodeID,
        node.run.runID ≠ incoming.event.runID) :
    (∃ event, (ingestExternalPlanEvent m now publish incoming t).2 = .ok event) ↔
      ∃ start ∈ startedRuns (Plan.planRun E (r.newPlanInput spec) n).world,
        start.nodeID = incoming.nodeID ∧ start.runID = incoming.event.runID := by
  obtain ⟨c, hreach, hat⟩ := Plan.planRun_path E (r.newPlanInput spec) n
  rw [← hat.world] at hstored hlater hfirst ⊢
  -- A first attempt of the node has the run id of the node in the stored plan.
  have hbase : ∀ start ∈ startedRuns c.2, start.nodeID = incoming.nodeID → start.attempt = 1 →
      ∃ node, Plan.declaredNode stored.toRunPlanSpec incoming.nodeID = some node ∧
        start.runID = node.run.runID := by
    intro start hmem hnode hone
    obtain ⟨e, he, hstart⟩ := List.mem_filterMap.mp hmem
    obtain ⟨-, node, hdeclared, hrun⟩ :=
      (Plan.reachable_identified rfl hreach he hstart).grows (Plan.reachable_stored hreach hstored)
    rw [hnode] at hdeclared
    rw [hone] at hrun
    exact ⟨node, hdeclared, hrun⟩
  rw [hevent.accepted_iff]
  constructor
  · rintro ⟨node, hdeclared, hrun⟩
    obtain ⟨start, hmem, hnode, hone⟩ :=
      hfirst.resolve_right fun hother => hother node hdeclared hrun
    obtain ⟨node', hdeclared', hrun'⟩ := hbase start hmem hnode hone
    obtain rfl : node = node' := Option.some.inj (hdeclared.symm.trans hdeclared')
    exact ⟨start, hmem, hnode, hrun'.trans hrun⟩
  · rintro ⟨start, hmem, hnode, hrun⟩
    obtain ⟨node, hdeclared, hrun'⟩ := hbase start hmem hnode (hlater start hmem hnode hrun)
    exact ⟨node, hdeclared, hrun'.symm.trans hrun⟩

/-- The stored plan of one node that may be tried twice. -/
def retriedSpec : RunPlanSpec := { Plan.retriedPlan.spec with }

/-- The tables with that plan. -/
def retriedTables : PlanTables where
  plans := [{ spec := retriedSpec, status := { planID := "p" }, nodes := [{ nodeID := "a" }] }]
  unique := List.pairwise_singleton _ _
  events := []

/-- An event of the node's backend for a run. -/
def backendEvent (runID : String) : ExternalPlanEvent where
  event :=
    { eventID := "e", eventType := "log", runID := runID, sequence := 1, timestamp := 1
      source := "backend" }
  plan := ⟨"p", "acc", "proj"⟩
  nodeID := "a"

/-- In its first attempt the event of the node's run is accepted. -/
theorem ingest_follows_starts_first :
    (∃ event, (ingestExternalPlanEvent plainMarshal 5 (fun _ => none) (backendEvent "r")
      retriedTables).2 = .ok event) ↔
    ∃ start ∈ startedRuns (Plan.planRun Plan.flakyHost Plan.retriedPlan 3).world,
      start.nodeID = "a" ∧ start.runID = "r" :=
  ingest_follows_starts plainMarshal 5 (fun _ => none) retriedTables (backendEvent "r") retriedSpec
    Plan.flakyHost Plan.calmRuntime Plan.retriedPlan.spec 3
    ⟨rfl, ⟨_, rfl⟩, ⟨_, _, rfl, rfl⟩⟩ (by decide +kernel) (by decide +kernel)
    (.inl (by decide +kernel))

/-- The second attempt of the node was started, and the event of its run is refused.  Before
the first attempt is started, the event of a run that nobody started is accepted. -/
theorem retried_run_refused :
    (⟨"a", 2, "r-attempt-2"⟩ ∈
        startedRuns (Plan.planRun Plan.flakyHost Plan.retriedPlan 6).world ∧
      retriedSpec.toRunPlanSpec ∈ Plan.storableSpecs Plan.retriedPlan.spec
        (Plan.planRun Plan.flakyHost Plan.retriedPlan 6).world.log ∧
      ingestExternalPlanEvent plainMarshal 5 (fun _ => none) (backendEvent "r-attempt-2")
          retriedTables =
        (retriedTables, errorf .invalidPlanEvent ("external event run " ++
          quoted "r-attempt-2" ++ " does not match node " ++ quoted "a" ++ " run " ++
          quoted "r"))) ∧
    startedRuns (Plan.planRun Plan.flakyHost Plan.retriedPlan 2).world = [] ∧
      ∃ event, (ingestExternalPlanEvent plainMarshal 5 (fun _ => none) (backendEvent "r")
        retriedTables).2 = .ok event :=
  ⟨⟨by decide +kernel, by decide +kernel, rfl⟩, by decide +kernel, _, rfl⟩

end AgentOS.Runtime
