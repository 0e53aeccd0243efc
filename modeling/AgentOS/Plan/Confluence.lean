import AgentOS.Kit.Settling
import AgentOS.Plan.Stall

/-!
# The order of a schedule does not matter

A plan without conditions, in which a node has the same outcome whenever it is run.  The
scheduler is asked again and again, as many of its ready nodes are started as there is room for,
and nodes that run end in any order.  An any-join starts a node while other parents of it still
run, so two schedules can differ a lot on the way.  They end alike.
-/

namespace AgentOS.Plan

open Kit Kit.Settling List State SortedMap Option

/-! ## What a join decides -/

def joinRuling (join : PlanJoinStrategy) (answers : List (Option Bool)) :
    Option (Ruling NodeLifecycle) :=
  match normalizeJoin join with
  | .any | .first =>
      if answers = [] ∨ some true ∈ answers then some .run
      else if none ∈ answers then none
      else some (.settle .skipped)
  | _ =>
      if some false ∈ answers then some (.settle .skipped)
      else if none ∈ answers then none
      else some .run

def edgeAnswers (ended : String → Option NodeLifecycle) (edges : List PlanEdgeSpec) :
    List (Option Bool) :=
  edges.map fun edge => (ended edge.source).map (edgeSatisfied (edgeTrigger edge.on))

def planRule (plan : ExecutablePlan) : Rule String NodeLifecycle := fun ended nodeID =>
  joinRuling ((plan.nodeByID.get? nodeID).getD {}).policy.join
    (edgeAnswers ended (edgesAt plan.edgesByTo nodeID))

section Rule

variable {join : PlanJoinStrategy} {answers answers' : List (Option Bool)}
  {ended ended' : String → Option NodeLifecycle} {edges : List PlanEdgeSpec}

theorem joinRuling_mono {ruling : Ruling NodeLifecycle}
    (hsome : ∀ answer, some answer ∈ answers → some answer ∈ answers')
    (hall : none ∉ answers → answers' = answers)
    (h : joinRuling join answers = some ruling) : joinRuling join answers' = some ruling := by
  by_cases hwaits : none ∈ answers
  · have hne : answers ≠ [] := ne_nil_of_mem hwaits
    unfold joinRuling at h ⊢
    split at h <;> rw [if_pos hwaits] at h <;> split_ifs at h with hready
    · rwa [if_pos (.inr (hsome true (hready.resolve_left hne)))]
    · rwa [if_pos (.inr (hsome true (hready.resolve_left hne)))]
    · rwa [if_pos (hsome false hready)]
  · rw [hall hwaits]
    exact h

theorem joinRuling_total (h : none ∉ answers) : (joinRuling join answers).isSome = true := by
  unfold joinRuling
  split <;> rw [if_neg h] <;> split_ifs <;> rfl

theorem none_mem_edgeAnswers :
    none ∈ edgeAnswers ended edges ↔ ∃ edge ∈ edges, ended edge.source = none := by
  simp [edgeAnswers]

theorem edgeAnswers_mono (hle : ∀ nodeID lifecycle, ended nodeID = some lifecycle →
      ended' nodeID = some lifecycle) :
    (∀ answer, some answer ∈ edgeAnswers ended edges → some answer ∈ edgeAnswers ended' edges) ∧
      (none ∉ edgeAnswers ended edges → edgeAnswers ended' edges = edgeAnswers ended edges) := by
  constructor
  · intro answer hmem
    obtain ⟨edge, hedge, hanswer⟩ := mem_map.mp hmem
    obtain ⟨lifecycle, hended, hsatisfied⟩ := map_eq_some_iff.mp hanswer
    refine mem_map.mpr ⟨edge, hedge, ?_⟩
    rw [hle _ _ hended, ← hsatisfied]
    rfl
  · intro hall
    refine map_congr_left fun edge hedge => ?_
    cases hended : ended edge.source with
    | none => exact absurd (none_mem_edgeAnswers.mpr ⟨edge, hedge, hended⟩) hall
    | some lifecycle => rw [hle _ _ hended]

theorem planRule_monotone (plan : ExecutablePlan) : (planRule plan).Monotone := by
  intro ended ended' nodeID ruling hle h
  obtain ⟨hsome, hall⟩ := edgeAnswers_mono hle
  exact joinRuling_mono hsome hall h

end Rule

def finalLifecycles (plan : ExecutablePlan) (outcome : String → NodeLifecycle) :
    String → Option NodeLifecycle :=
  (planRule plan).solve outcome plan.order

variable {plan : ExecutablePlan}

theorem finalLifecycles_solves (hplan : Validated plan) (outcome : String → NodeLifecycle) :
    (planRule plan).Solves outcome plan.order (finalLifecycles plan outcome) := by
  have hnodup : plan.order.Nodup := hplan.order.nodup_iff.mpr (keys_nodup _)
  refine Rule.solve_solves (planRule_monotone plan) hnodup ?_
  intro l nodeID r hsplit ended hbefore
  refine joinRuling_total fun hwaits => ?_
  obtain ⟨edge, hedge, hnone⟩ := none_mem_edgeAnswers.mp hwaits
  obtain ⟨hmem, htarget⟩ := (hplan.into nodeID edge).mp hedge
  have hsource := hbefore edge.source (hplan.ordered l nodeID r hsplit edge hmem htarget)
  rw [hnone] at hsource
  cases hsource

/-! ## The counts of the scheduler -/

namespace Scheduler

variable {s : Scheduler} {node : PlanNodeSpec} {statuses : SortedMap String PlanNodeStatus}
  {vars : Vars} {answers : List (Option Bool)} {edges : List PlanEdgeSpec}

def endedIn (statuses : SortedMap String PlanNodeStatus) (nodeID : String) : Option NodeLifecycle :=
  ((statuses.get? nodeID).map PlanNodeStatus.lifecycleState).filter NodeLifecycle.terminal

theorem Answered.plain
    (h : Answered statuses edges answers) (hplain : ∀ edge ∈ edges, edge.condition = "") :
    answers = edgeAnswers (endedIn statuses) edges := by
  induction h with
  | nil => rfl
  | waits hparent hopen _ ih =>
    rw [ih (forall_mem_cons.mp hplain).2]
    simp [edgeAnswers, endedIn, hparent, hopen]
  | inactive hcondition => exact absurd (hplain _ mem_cons_self) hcondition
  | answers hended _ ih =>
    obtain ⟨parent, hparent, hterminal, hanswer⟩ := hended
    rw [ih (forall_mem_cons.mp hplain).2]
    simp [edgeAnswers, endedIn, hparent, hterminal, hanswer]

def Meets (dependencies : DependencyEvaluation) (ruling : Option (Ruling NodeLifecycle)) : Prop :=
  (dependencies.ready = true → ruling = some .run) ∧
    (dependencies.impossible = true → ruling = some (.settle .skipped))

theorem exists_answer (hne : answers ≠ []) :
    none ∈ answers ∨ some true ∈ answers ∨ some false ∈ answers := by
  obtain ⟨answer, hmem⟩ := exists_mem_of_ne_nil _ hne
  rcases answer with _ | _ | _
  · exact .inl hmem
  · exact .inr (.inr hmem)
  · exact .inr (.inl hmem)

variable {dependencies : DependencyEvaluation}

theorem evaluateDependencies_meets (hplain : ∀ edge ∈ edges, edge.condition = "")
    (h : s.evaluateDependencies node edges statuses vars = .ok dependencies) :
    Meets dependencies (joinRuling node.policy.join (edgeAnswers (endedIn statuses) edges)) := by
  rcases evaluateDependencies_cases h with ⟨rfl, -, himpossible⟩ |
    ⟨hne, answers, hanswered, hdecides⟩
  · refine ⟨fun _ => ?_, fun h => by rw [h] at himpossible; cases himpossible⟩
    unfold joinRuling edgeAnswers
    split <;> rfl
  · obtain rfl := hanswered.plain hplain
    have hne : edgeAnswers (endedIn statuses) edges ≠ [] := by simpa [edgeAnswers] using hne
    have hanswer := exists_answer hne
    unfold Decides at hdecides
    unfold Meets joinRuling
    grind

end Scheduler

/-! ## Schedules -/

/-- How a run of a node ends. -/
inductive NodeOutcome where
  | succeeded
  | failed
  | canceled

def NodeOutcome.kind : NodeOutcome → EventKind
  | .succeeded => .nodeSucceeded
  | .failed => .nodeFailed
  | .canceled => .nodeCanceled

def NodeOutcome.lifecycle : NodeOutcome → NodeLifecycle
  | .succeeded => .succeeded
  | .failed => .failed
  | .canceled => .canceled

def skipNode (clock : Time) (st : State) (node : SkippedNode) : State :=
  (st.apply clock { kind := .nodeSkipped, nodeID := node.nodeID, reason := node.reason }).1

def startNode (clock : Time) (st : State) (node : PlanNodeSpec) : State :=
  let readied := (st.apply clock { kind := .nodeReady, nodeID := node.nodeID }).1
  (readied.apply clock { kind := .nodeStarted, nodeID := node.nodeID, runID := node.run.runID }).1

def completeNode (outcome : String → NodeOutcome) (clock : Time) (st : State)
    (node : PlanNodeStatus) : State :=
  (st.apply clock { kind := (outcome node.nodeID).kind, nodeID := node.nodeID }).1

/-- A step of a schedule.  A tick skips what the scheduler skips and starts the first of its ready
nodes, at most as many as there is room for; nodes that run end at any time.  A tick that does
nothing is not a step. -/
inductive ScheduleStep (scheduler : Scheduler) (plan : ExecutablePlan)
    (outcome : String → NodeOutcome) (maxParallel : Int) : State → State → Prop
  | tick {st} (clock : Time) {decision started}
      (hdecision : scheduler.decide plan st.status (planVariables plan.spec st.status) =
        .ok decision)
      (hstarted : started <+: decision.ready)
      (hroom : started = [] ∨ (started.length : Int) ≤ maxParallel - runningNodeCount st.status)
      (hacts : decision.skipped ≠ [] ∨ started ≠ []) :
      ScheduleStep scheduler plan outcome maxParallel st
        (started.foldl (startNode clock) (decision.skipped.foldl (skipNode clock) st))
  | complete {st} (clock : Time) {ended}
      (hrunning : ended ⊆ runningNodes st.status) (hne : ended ≠ []) :
      ScheduleStep scheduler plan outcome maxParallel st
        (ended.foldl (completeNode outcome clock) st)

/-! ## The lifecycles along a schedule -/

/-- The lifecycle of a node. -/
def State.nodeLifecycle (s : State) (nodeID : String) : Option NodeLifecycle :=
  (s.nodeStatus nodeID).map PlanNodeStatus.lifecycleState

structure Marks (nodeIDs : List String) (final : String → NodeLifecycle) (s s' : State) :
    Prop where
  lookup : ∀ nodeID, s'.nodeLifecycle nodeID =
    if nodeID ∈ nodeIDs then (s.nodeLifecycle nodeID).map fun _ => final nodeID
    else s.nodeLifecycle nodeID
  named : s.Named → s'.Named
  listed : s.status.nodes = sortedNodeStatuses s.nodes →
    s'.status.nodes = sortedNodeStatuses s'.nodes

namespace Marks

variable {nodeIDs nodeIDs' : List String} {final final' : String → NodeLifecycle} {s s' s'' : State}

/-- Where both lists have a node, the later mark counts. -/
theorem trans (h : Marks nodeIDs final s s') (h' : Marks nodeIDs' final' s' s'') :
    Marks (nodeIDs ++ nodeIDs')
      (fun nodeID => if nodeID ∈ nodeIDs' then final' nodeID else final nodeID) s s'' where
  lookup := by
    intro nodeID
    rw [h'.lookup, h.lookup]
    by_cases hfirst : nodeID ∈ nodeIDs <;> by_cases hlater : nodeID ∈ nodeIDs' <;>
      simp [hfirst, hlater, Function.comp_def]
  named := h'.named ∘ h.named
  listed := h'.listed ∘ h.listed

theorem apply (event : StateEvent)
    (hkind : reducerNodeLifecycleForEvent event.kind = some (final event.nodeID)) (clock : Time)
    (s : State) : Marks [event.nodeID] final s (s.apply clock event).1 := by
  have hexpanded : event.kind ≠ .planExpanded := by
    intro heq
    rw [heq] at hkind
    cases hkind
  cases herr : (s.apply clock event).2 with
  | none =>
    have happlied := apply_applied herr
    refine ⟨fun nodeID => ?_, happlied.named, fun _ => happlied.listed⟩
    rw [nodeLifecycle, happlied.lookup, nodeAfter, if_neg hexpanded]
    by_cases hid : nodeID = event.nodeID
    · subst hid
      rw [if_pos rfl, if_pos (mem_singleton_self _), nodeLifecycle, Option.map_map, Option.map_map]
      refine congrArg (fun f => Option.map f (s.nodeStatus event.nodeID)) (funext fun status => ?_)
      rw [Function.comp_apply, changedNode_lifecycle, lifecycleAfter_of_some hkind]
      rfl
    · rw [if_neg hid, if_neg (fun hmem => hid (mem_singleton.mp hmem))]
      rfl
  | some err =>
    have hfailed := apply_failed herr
    have hnodes := hfailed.nodes hexpanded
    have hunknown := hfailed.unknown (.inl (by rw [hkind]; rfl))
    have hsame : ∀ nodeID, (s.apply clock event).1.nodeLifecycle nodeID =
        s.nodeLifecycle nodeID := by
      intro nodeID
      rw [nodeLifecycle, nodeStatus, hnodes]
      rfl
    refine ⟨fun nodeID => ?_, hfailed.named, fun hlisted => ?_⟩
    · rw [hsame]
      by_cases hid : nodeID = event.nodeID
      · rw [if_pos (mem_singleton.mpr hid), hid, nodeLifecycle, hunknown]
        rfl
      · rw [if_neg (fun hmem => hid (mem_singleton.mp hmem))]
    · rw [hfailed.status, hnodes]
      exact hlisted

theorem foldl {α : Type} {f : State → α → State} {key : α → String}
    (hstep : ∀ s item, Marks [key item] final s (f s item)) (items : List α) (s : State) :
    Marks (items.map key) final s (items.foldl f s) := by
  induction items generalizing s with
  | nil => exact ⟨fun _ => by simp, id, id⟩
  | cons item rest ih => simpa using (hstep s item).trans (ih (f s item))

end Marks

variable {lifecycle : Option NodeLifecycle}

section Steps

variable {scheduler : Scheduler} {plan : ExecutablePlan} {outcome : String → NodeOutcome}
  {maxParallel : Int} {st st' : State} {final : String → NodeLifecycle} {status : PlanNodeStatus}
  {nodeIDs : List String}

theorem skipNode_marks (clock : Time) (st : State) (node : SkippedNode) :
    Marks [node.nodeID] (fun _ => .skipped) st (skipNode clock st node) :=
  Marks.apply { kind := .nodeSkipped, nodeID := node.nodeID, reason := node.reason } rfl clock st

theorem startNode_marks (clock : Time) (st : State) (node : PlanNodeSpec) :
    Marks [node.nodeID] (fun _ => .running) st (startNode clock st node) := by
  have hreadied : Marks [node.nodeID] (fun _ => .ready) st _ :=
    Marks.apply { kind := .nodeReady, nodeID := node.nodeID } rfl clock st
  have hstarted : Marks [node.nodeID] (fun _ => .running) _ (startNode clock st node) :=
    Marks.apply { kind := .nodeStarted, nodeID := node.nodeID, runID := node.run.runID } rfl clock _
  refine ⟨fun nodeID => ?_, hstarted.named ∘ hreadied.named, hstarted.listed ∘ hreadied.listed⟩
  rw [hstarted.lookup, hreadied.lookup]
  by_cases hid : nodeID ∈ [node.nodeID] <;> simp [hid, Function.comp_def]

theorem completeNode_marks (outcome : String → NodeOutcome) (clock : Time) (st : State)
    (node : PlanNodeStatus) :
    Marks [node.nodeID] (fun nodeID => (outcome nodeID).lifecycle) st
      (completeNode outcome clock st node) := by
  refine Marks.apply { kind := (outcome node.nodeID).kind, nodeID := node.nodeID } ?_ clock st
  cases outcome node.nodeID <;> rfl

structure Orderly (plan : ExecutablePlan) (st : State) : Prop where
  named : st.Named
  listed : st.status.nodes = sortedNodeStatuses st.nodes
  knows : Knows plan.spec st
  unblocked : ∀ nodeID, st.nodeLifecycle nodeID ≠ some .blocked

theorem orderly_newState (plan : ExecutablePlan) (now : Time) :
    Orderly plan (newState plan.spec now) where
  named := newState_named plan.spec now
  listed := rfl
  knows := newState_ids plan.spec now
  unblocked := by
    intro nodeID hblocked
    obtain ⟨status, hstatus, hlifecycle⟩ := map_eq_some_iff.mp hblocked
    obtain ⟨node, -, -, rfl⟩ := newState_lookup hstatus
    cases hlifecycle

namespace Orderly

theorem marks (h : Orderly plan st)
    (hmarks : Marks nodeIDs final st st') (hfinal : ∀ nodeID, final nodeID ≠ .blocked) :
    Orderly plan st' where
  named := hmarks.named h.named
  listed := hmarks.listed h.listed
  knows := by
    intro nodeID
    have hsome : (st'.nodeLifecycle nodeID).isSome = (st.nodeLifecycle nodeID).isSome := by
      rw [hmarks.lookup]
      split_ifs
      · exact isSome_map
      · rfl
    rw [← h.knows nodeID]
    simpa only [nodeLifecycle, isSome_map, Bool.coe_iff_coe] using hsome
  unblocked := by
    intro nodeID
    rw [hmarks.lookup]
    split_ifs
    · intro hblocked
      obtain ⟨_, -, heq⟩ := map_eq_some_iff.mp hblocked
      exact hfinal nodeID heq
    · exact h.unblocked nodeID

theorem statusByNode (hplan : Validated plan) (h : Orderly plan st) (nodeID : String) :
    (AgentOS.Plan.statusByNode st.status).get? nodeID = st.nodeStatus nodeID := by
  have hnodup := (listsNodes hplan h.named h.listed h.knows).nodup_iff.mpr hplan.nodup
  refine ext fun status => ?_
  rw [statusByNode_get hnodup, h.listed, sortedNodeStatuses, mem_values_iff]
  constructor
  · rintro ⟨⟨key, hkey⟩, rfl⟩
    rw [h.named key status hkey]
    exact hkey
  · intro hstatus
    exact ⟨⟨nodeID, hstatus⟩, h.named nodeID status hstatus⟩

end Orderly

/-! ## A schedule follows the rule -/

def nodePhase : Option NodeLifecycle → Phase NodeLifecycle
  | some .running => .running
  | some lifecycle => if lifecycle.terminal then .done lifecycle else .idle
  | none => .idle

def State.phases (st : State) (nodeID : String) : Phase NodeLifecycle :=
  nodePhase (st.nodeLifecycle nodeID)

theorem nodePhase_value (lifecycle : Option NodeLifecycle) :
    (nodePhase lifecycle).value = lifecycle.filter NodeLifecycle.terminal := by
  rcases lifecycle with _ | lifecycle
  · rfl
  · cases lifecycle <;> rfl

theorem nodePhase_open (h : Scheduler.openNode lifecycle) : nodePhase lifecycle = .idle := by
  rcases h with rfl | rfl <;> rfl

theorem nodePhase_outcome (outcome : NodeOutcome) :
    nodePhase (some outcome.lifecycle) = .done outcome.lifecycle := by
  cases outcome <;> rfl

/-- A plan without conditions. -/
structure Unconditional (spec : RunPlanSpec) : Prop where
  nodes : ∀ node ∈ spec.nodes, node.conditions = []
  edges : ∀ edge ∈ spec.edges, edge.condition = ""

structure Ruled (plan : ExecutablePlan) (st : State) (ruling : Ruling NodeLifecycle)
    (nodeID : String) : Prop where
  known : (st.nodeLifecycle nodeID).isSome = true
  idle : st.phases nodeID = .idle
  rule : planRule plan (fun nodeID => (st.phases nodeID).value) nodeID = some ruling

theorem isSome_of_open (h : Scheduler.openNode lifecycle) : lifecycle.isSome = true := by
  rcases h with rfl | rfl <;> rfl

namespace Orderly

variable {node : PlanNodeSpec} {dependencies : DependencyEvaluation} {nodeID : String}

theorem meets (hplan : Validated plan) (hplain : Unconditional plan.spec) (h : Orderly plan st)
    (hnode : node ∈ plan.spec.nodes) {vars : Vars}
    (hdependencies : scheduler.evaluateDependencies node (edgesAt plan.edgesByTo node.nodeID)
      (AgentOS.Plan.statusByNode st.status) vars = .ok dependencies) :
    Scheduler.Meets dependencies
      (planRule plan (fun nodeID => (st.phases nodeID).value) node.nodeID) := by
  have hedges : ∀ edge ∈ edgesAt plan.edgesByTo node.nodeID, edge.condition = "" :=
    fun edge hedge => hplain.edges edge ((hplan.into _ edge).mp hedge).1
  have hended : Scheduler.endedIn (AgentOS.Plan.statusByNode st.status) =
      fun nodeID => (st.phases nodeID).value := by
    funext nodeID
    rw [Scheduler.endedIn, h.statusByNode hplan, phases, nodePhase_value]
    rfl
  have hfound : plan.nodeByID.get? node.nodeID = some node := (hplan.nodes _ _).mpr ⟨hnode, rfl⟩
  rw [planRule, hfound, ← hended]
  exact Scheduler.evaluateDependencies_meets hedges hdependencies

theorem mem_order (hplan : Validated plan) (h : Orderly plan st)
    (hsome : (st.nodeLifecycle nodeID).isSome = true) : nodeID ∈ plan.order := by
  refine hplan.order.mem_iff.mpr ((hplan.mem_keys_iff nodeID).mpr ((h.knows nodeID).mp ?_))
  rw [nodeLifecycle, isSome_map] at hsome
  exact hsome

variable {vars : Vars} {decision : SchedulerDecision}

section

variable (hplan : Validated plan) (hplain : Unconditional plan.spec) (h : Orderly plan st)
  (hdecision : scheduler.decide plan st.status vars = .ok decision)
include hplan hplain h hdecision

theorem ready (hnode : node ∈ decision.ready) : Ruled plan st .run node.nodeID := by
  obtain ⟨hmem, hopen, dependencies, hdependencies, hready⟩ := decide_ready hplan hdecision hnode
  rw [h.statusByNode hplan] at hopen
  exact ⟨isSome_of_open hopen, nodePhase_open hopen,
    (h.meets hplan hplain hmem hdependencies).1 hready⟩

theorem skipped {skipped : SkippedNode}
    (hskipped : skipped ∈ decision.skipped) : Ruled plan st (.settle .skipped) skipped.nodeID := by
  obtain ⟨hopen, node, hmem, hid, himpossible⟩ := decide_skipped hplan hdecision hskipped
  obtain ⟨dependencies, hdependencies, himpossible⟩ := himpossible (hplain.nodes node hmem)
  rw [h.statusByNode hplan] at hopen
  refine ⟨isSome_of_open hopen, nodePhase_open hopen, ?_⟩
  rw [← hid]
  exact (h.meets hplan hplain hmem hdependencies).2 himpossible

end

theorem running (h : Orderly plan st) (hstatus : status ∈ runningNodes st.status) :
    st.nodeLifecycle status.nodeID = some .running := by
  obtain ⟨hmem, hrunning⟩ := mem_filter.mp hstatus
  rw [nodeLifecycle, nodeStatus_of_listed h.named h.listed hmem, map_some,
    of_decide_eq_true hrunning]

end Orderly

def endsWith (outcome : String → NodeOutcome) (nodeID : String) : NodeLifecycle :=
  (outcome nodeID).lifecycle

theorem Orderly.step (h : Orderly plan st)
    (hstep : ScheduleStep scheduler plan outcome maxParallel st st') : Orderly plan st' := by
  cases hstep with
  | @tick clock decision started _ _ _ _ =>
    have hskips := Marks.foldl (skipNode_marks clock) decision.skipped st
    exact (h.marks hskips fun _ => nofun).marks (Marks.foldl (startNode_marks clock) started _)
      fun _ => nofun
  | @complete clock ended _ _ =>
    refine h.marks (Marks.foldl (completeNode_marks outcome clock) ended st) fun nodeID => ?_
    cases outcome nodeID <;> nofun

section

variable (hplan : Validated plan) (hplain : Unconditional plan.spec)
include hplan hplain

omit hplain in
theorem Orderly.settles
    (h : Orderly plan st) (hmarks : Marks nodeIDs final st st') (hne : nodeIDs ≠ [])
    (hchanges : ∀ nodeID ∈ nodeIDs, (st.nodeLifecycle nodeID).isSome = true ∧
      Changes (planRule plan) (endsWith outcome) st.phases nodeID
        (nodePhase (some (final nodeID)))) :
    Step (planRule plan) (endsWith outcome) plan.order st.phases st'.phases := by
  have hmarked : ∀ nodeID ∈ nodeIDs, nodeID ∈ plan.order ∧
      Changes (planRule plan) (endsWith outcome) st.phases nodeID (st'.phases nodeID) := by
    intro nodeID hmem
    obtain ⟨hknown, hchange⟩ := hchanges nodeID hmem
    obtain ⟨lifecycle, hlifecycle⟩ := isSome_iff_exists.mp hknown
    refine ⟨h.mem_order hplan hknown, ?_⟩
    rwa [phases, hmarks.lookup, if_pos hmem, hlifecycle]
  constructor
  · intro nodeID
    by_cases hmem : nodeID ∈ nodeIDs
    · exact .inr (hmarked nodeID hmem)
    · refine .inl ?_
      rw [phases, hmarks.lookup, if_neg hmem]
      rfl
  · obtain ⟨nodeID, hmem⟩ := exists_mem_of_ne_nil _ hne
    exact ⟨nodeID, hmarked nodeID hmem⟩

theorem ScheduleStep.settles
    (h : Orderly plan st) (hstep : ScheduleStep scheduler plan outcome maxParallel st st') :
    Step (planRule plan) (endsWith outcome) plan.order st.phases st'.phases := by
  cases hstep with
  | @tick clock decision started hdecision hfirst _ hacts =>
    have hmarks := (Marks.foldl (skipNode_marks clock) decision.skipped st).trans
      (Marks.foldl (startNode_marks clock) started _)
    refine h.settles hplan hmarks ?_ fun nodeID hmem => ?_
    · simpa [or_iff_not_imp_left] using hacts
    by_cases hstart : nodeID ∈ started.map PlanNodeSpec.nodeID
    · rw [if_pos hstart]
      obtain ⟨node, hnode, rfl⟩ := mem_map.mp hstart
      have hruled := h.ready hplan hplain hdecision (hfirst.subset hnode)
      exact ⟨hruled.known, .run hruled.idle hruled.rule⟩
    · rw [if_neg hstart]
      obtain ⟨skipped, hskipped, rfl⟩ := mem_map.mp ((mem_append.mp hmem).resolve_right hstart)
      have hruled := h.skipped hplan hplain hdecision hskipped
      exact ⟨hruled.known, .settle hruled.idle hruled.rule⟩
  | @complete clock ended hrunning hne =>
    refine h.settles hplan (Marks.foldl (completeNode_marks outcome clock) ended st)
      (by simpa using hne) fun nodeID hmem => ?_
    obtain ⟨status, hin, rfl⟩ := mem_map.mp hmem
    have hsome := h.running (hrunning hin)
    rw [nodePhase_outcome]
    refine ⟨by rw [hsome]; rfl, .complete ?_⟩
    rw [phases, hsome]
    rfl

theorem terminal_of_maximal (h : Orderly plan st) (hroom : 1 ≤ maxParallel)
    (hmaximal : ∀ st', ¬ ScheduleStep scheduler plan outcome maxParallel st st')
    (hstatus : status ∈ st.status.nodes) : status.lifecycleState.terminal = true := by
  have hlists := listsNodes hplan h.named h.listed h.knows
  have hquiet : runningNodes st.status = [] := by
    by_contra hne
    exact hmaximal _ (.complete st.status.updatedAt (Subset.refl _) hne)
  have hidle : ∀ node ∈ st.status.nodes,
      node.lifecycleState ≠ .running ∧ node.lifecycleState ≠ .blocked := by
    intro node hnode
    refine ⟨fun hrunning => ?_, fun hblocked => ?_⟩
    · have hmem : node ∈ runningNodes st.status := mem_filter.mpr ⟨hnode, decide_eq_true hrunning⟩
      rw [hquiet] at hmem
      cases hmem
    · obtain ⟨key, hkey⟩ := (mem_listed h.listed).mp hnode
      exact h.unblocked key (map_eq_some_iff.mpr ⟨node, hkey, hblocked⟩)
  by_contra hopen
  have hleft : ∃ node ∈ st.status.nodes,
      node.lifecycleState = .pending ∨ node.lifecycleState = .ready := by
    obtain ⟨hrunning, hblocked⟩ := hidle status hstatus
    refine ⟨status, hstatus, ?_⟩
    cases hstate : status.lifecycleState <;> simp_all [NodeLifecycle.terminal]
  have hevaluate : ConditionsEvaluate scheduler plan (planVariables plan.spec st.status) := by
    constructor
    · intro node hnode
      rw [hplain.nodes node hnode]
      exact fun _ hmem => (not_mem_nil hmem).elim
    · intro edge hedge
      exact ⟨true, if_pos (hplain.edges edge hedge)⟩
  obtain ⟨decision, hdecision⟩ := decide_total hplan hlists hevaluate
  have hcount : runningNodeCount st.status = 0 := by
    rw [runningNodeCount, hquiet]
    rfl
  rcases acts_of_decide hplan hlists hleft hidle hdecision with hacts | hacts
  · refine hmaximal _ (.tick st.status.updatedAt hdecision
      ( take_prefix 1 decision.ready) (.inr ?_) (.inr ?_))
    · have hone : (decision.ready.take 1).length ≤ 1 := length_take_le _ _
      omega
    · rw [Ne]
      simpa using hacts
  · exact hmaximal _ (.tick st.status.updatedAt hdecision nil_prefix (.inl rfl) (.inl hacts))

theorem schedule_agrees {now : Time}
    (hrun : Relation.ReflTransGen (ScheduleStep scheduler plan outcome maxParallel)
      (newState plan.spec now) st) :
    Orderly plan st ∧
      Agrees (endsWith outcome) (finalLifecycles plan (endsWith outcome)) st.phases := by
  induction hrun with
  | refl =>
    refine ⟨orderly_newState plan now, fun nodeID => ?_⟩
    have hidle : (newState plan.spec now).phases nodeID = .idle := by
      rw [phases, nodeLifecycle]
      cases hstatus : (newState plan.spec now).nodeStatus nodeID with
      | none => rfl
      | some status =>
        obtain ⟨node, -, -, rfl⟩ := newState_lookup hstatus
        rfl
    rw [hidle]
    trivial
  | tail _ hstep ih =>
    obtain ⟨horderly, hagrees⟩ := ih
    exact ⟨horderly.step hstep, (hstep.settles hplan hplain horderly).agrees
      (planRule_monotone plan) (finalLifecycles_solves hplan _) hagrees⟩

theorem schedule_weight {states : Nat → State} {n : Nat} (hstart : Orderly plan (states 0))
    (hsteps : ∀ k < n, ScheduleStep scheduler plan outcome maxParallel (states k)
      (states (k + 1))) :
    Orderly plan (states n) ∧
      weight plan.order (states n).phases + n ≤ weight plan.order (states 0).phases := by
  induction n with
  | zero => exact ⟨hstart, le_rfl⟩
  | succ n ih =>
    obtain ⟨horderly, hweight⟩ := ih fun k hk => hsteps k (Nat.lt_succ_of_lt hk)
    have hstep := hsteps n (Nat.lt_succ_self n)
    have hless := (hstep.settles hplan hplain horderly).weight_lt
    exact ⟨horderly.step hstep, by omega⟩

end

end Steps

theorem Validated.order_length (hplan : Validated plan) :
    plan.order.length = plan.spec.nodes.length := by
  have hperm : plan.order.Perm (plan.spec.nodes.map PlanNodeSpec.nodeID) :=
    hplan.order.trans ((perm_ext_iff_of_nodup (keys_nodup _) hplan.nodup).mpr hplan.mem_keys_iff)
  rw [hperm.length_eq, length_map]

/-- Confluence of the schedules of a plan without conditions, for any outcomes of its nodes.  No
schedule has more than two steps for each node.  All that can not go on have ended every node, and
with the same lifecycles, whatever the room for nodes that run, the order in which nodes end, and
the nodes that a tick starts. -/
theorem schedules_confluent (v : Validator) (spec : RunPlanSpec) (plan : ExecutablePlan)
    (hvalid : v.validate spec = .ok plan) (hplain : Unconditional spec)
    (outcome : String → NodeOutcome) :
    (∀ (scheduler : Scheduler) (maxParallel : Int) (now : Time) (n : Nat) (states : Nat → State),
      states 0 = newState spec now →
      (∀ k < n, ScheduleStep scheduler plan outcome maxParallel (states k) (states (k + 1))) →
      n ≤ 2 * spec.nodes.length) ∧
    ∃ final : String → Option NodeLifecycle,
      ∀ (scheduler : Scheduler) (maxParallel : Int) (now : Time) (st : State), 1 ≤ maxParallel →
        Relation.ReflTransGen (ScheduleStep scheduler plan outcome maxParallel)
          (newState spec now) st →
        (∀ st', ¬ ScheduleStep scheduler plan outcome maxParallel st st') →
        (∀ nodeID, st.nodeLifecycle nodeID = final nodeID) ∧ ∀ node ∈ spec.nodes, ∃ lifecycle,
            st.nodeLifecycle node.nodeID = some lifecycle ∧ lifecycle.terminal = true := by
  obtain ⟨rfl, hplan⟩ := Validator.validate_ok hvalid
  refine ⟨?_, finalLifecycles plan (endsWith outcome), ?_⟩
  · intro scheduler maxParallel now n states hstart hsteps
    obtain ⟨-, hweight⟩ := schedule_weight hplan hplain (hstart ▸ orderly_newState plan now) hsteps
    have hbound := weight_le plan.order (states 0).phases
    rw [hplan.order_length] at hbound
    omega
  · intro scheduler maxParallel now st hroom hrun hmaximal
    obtain ⟨horderly, hagrees⟩ := schedule_agrees hplan hplain hrun
    have hended : ∀ nodeID status, st.nodeStatus nodeID = some status →
        status.lifecycleState.terminal = true := by
      intro nodeID status hstatus
      exact terminal_of_maximal hplan hplain horderly hroom hmaximal
        ((mem_listed horderly.listed).mpr ⟨nodeID, hstatus⟩)
    constructor
    · intro nodeID
      cases hstatus : st.nodeStatus nodeID with
      | none =>
        have hnot : nodeID ∉ plan.order := by
          intro hmem
          have hsome := (horderly.knows nodeID).mpr
            ((hplan.mem_keys_iff nodeID).mp (hplan.order.mem_iff.mp hmem))
          rw [hstatus] at hsome
          cases hsome
        rw [nodeLifecycle, hstatus, finalLifecycles, Rule.solve_of_notMem hnot]
        rfl
      | some status =>
        have hlifecycle : st.nodeLifecycle nodeID = some status.lifecycleState := by
          rw [nodeLifecycle, hstatus]
          rfl
        have hvalue : (st.phases nodeID).value = some status.lifecycleState := by
          rw [phases, nodePhase_value, hlifecycle, filter_some,
            if_pos (hended nodeID status hstatus)]
        rw [hlifecycle, hagrees.value hvalue]
    · intro node hnode
      obtain ⟨status, hstatus⟩ := isSome_iff_exists.mp
        ((horderly.knows node.nodeID).mpr (mem_map_of_mem hnode))
      exact ⟨status.lifecycleState, by rw [nodeLifecycle, hstatus]; rfl, hended _ status hstatus⟩

/-- Two nodes, of which the second starts when the first has failed. -/
def fallbackPlan : RunPlanSpec :=
  (planOf [nativeNode "a" "ra", nativeNode "b" "rb"]
    [{ edgeID := "e", source := "a", target := "b", on := .onError }]).spec

theorem schedules_confluent_fallback :
    ∃ plan, openValidator.validate fallbackPlan = .ok plan ∧
      ∃ final : String → Option NodeLifecycle,
        ∀ (scheduler : Scheduler) (maxParallel : Int) (now : Time) (st : State), 1 ≤ maxParallel →
          Relation.ReflTransGen (ScheduleStep scheduler plan (fun _ => .succeeded) maxParallel)
            (newState fallbackPlan now) st →
          (∀ st', ¬ ScheduleStep scheduler plan (fun _ => .succeeded) maxParallel st st') →
          (∀ nodeID, st.nodeLifecycle nodeID = final nodeID) ∧
            ∀ node ∈ fallbackPlan.nodes, ∃ lifecycle,
              st.nodeLifecycle node.nodeID = some lifecycle ∧ lifecycle.terminal = true := by
  obtain ⟨plan, hplan⟩ : ∃ plan, openValidator.validate fallbackPlan = .ok plan := ⟨_, rfl⟩
  have hplain : Unconditional fallbackPlan := by
    constructor <;> simp [fallbackPlan, planOf, PlanRuntime.newPlanInput, nativeNode]
  exact ⟨plan, hplan, (schedules_confluent openValidator fallbackPlan plan hplan hplain _).2⟩

end AgentOS.Plan
