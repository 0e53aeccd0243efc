import AgentOS.Plan.Validator

/-!
# The scheduler

`Scheduler.Decide` of `internal/usecase/agentosplan/scheduler.go`: the nodes
that can start and the nodes that can never start, from a validated plan and
the statuses of its nodes.  Both lists hold only nodes that are pending or ready.
-/

namespace AgentOS.Plan

open Kit List

/-- The fixed environment of an expression. -/
structure Vars where
  plan : RunPlanSpec
  inputs : List (String × Json)
  outputs : SortedMap String (List ArtifactRef)
  artifacts : SortedMap String (List ArtifactRef)
  metadata : List (String × String)
  status : RunPlanStatus

def artifactsByNode (artifacts : List ArtifactRef) : SortedMap String (List ArtifactRef) :=
  artifacts.foldl (fun m artifact =>
    if artifact.nodeID = "" then m
    else m.insert artifact.nodeID ((m.get? artifact.nodeID).getD [] ++ [artifact]))
    SortedMap.empty

/-- `Variables`.  The name of the source is a reserved word here. -/
def planVariables (spec : RunPlanSpec) (status : RunPlanStatus) : Vars where
  plan := spec
  inputs := spec.inputs
  outputs := artifactsByNode status.artifacts
  artifacts := artifactsByNode status.artifacts
  metadata := spec.metadata
  status := status

/-- `Scheduler`, with the compiler of expressions. -/
structure Scheduler where
  expressions : Option (String → Except Err (Vars → Except Err Bool))

structure SkippedNode where
  (nodeID reason : String)

structure SchedulerDecision where
  ready : List PlanNodeSpec := []
  skipped : List SkippedNode := []
  conditionTraces : List ConditionEvaluationTrace := []

/-- Whether the dependencies let a node start, or never will.  Neither holds while it waits. -/
structure DependencyEvaluation where
  (ready impossible : Bool := false)
  reason : String := ""
  traces : List ConditionEvaluationTrace := []

def edgeTrigger : EdgeTrigger → EdgeTrigger
  | .unset => .onSuccess
  | trigger => trigger

def edgeOnCompleteSatisfied : NodeLifecycle → Bool
  | .succeeded | .failed | .skipped | .canceled => true
  | _ => false

def edgeOnAlwaysSatisfied : NodeLifecycle → Bool
  | .pending | .ready | .running => false
  | _ => true

/-- Whether a parent that ended in this lifecycle fires the trigger. -/
def edgeSatisfied (trigger : EdgeTrigger) (lifecycle : NodeLifecycle) : Bool :=
  match trigger with
  | .onSuccess => lifecycle = .succeeded
  | .onError => lifecycle = .failed
  | .onComplete => edgeOnCompleteSatisfied lifecycle
  | .onAlways => edgeOnAlwaysSatisfied lifecycle
  | .unset | .other _ => false

def normalizeJoin : PlanJoinStrategy → PlanJoinStrategy
  | .unset => .all
  | join => join

/-- One edge that cannot be satisfied is enough for the node to be skipped. -/
def evaluateAllJoin (waiting satisfied impossible active : Nat)
    (traces : List ConditionEvaluationTrace) : DependencyEvaluation :=
  if impossible > 0 then
    { impossible := true
      reason := "required dependency edge cannot be satisfied"
      traces := traces }
  else if waiting > 0 then { traces := traces }
  else if active = 0 then
    { impossible := true
      reason := "no active incoming dependency edges"
      traces := traces }
  else { ready := satisfied = active, traces := traces }

/-- One satisfied edge is enough for the node to start. -/
def evaluateAnyJoin (waiting satisfied impossible active : Nat)
    (traces : List ConditionEvaluationTrace) : DependencyEvaluation :=
  if satisfied > 0 then { ready := true, traces := traces }
  else if waiting > 0 then { traces := traces }
  else if active = 0 then
    { impossible := true
      reason := "no active incoming dependency edges"
      traces := traces }
  else if impossible = active then
    { impossible := true
      reason := "no dependency edge can be satisfied"
      traces := traces }
  else { traces := traces }

/-- The counts that `evaluateEdges` returns. -/
structure EdgeCounts where
  waiting : Nat := 0
  satisfied : Nat := 0
  impossible : Nat := 0
  traces : List ConditionEvaluationTrace := []

def statusByNode (status : RunPlanStatus) : SortedMap String PlanNodeStatus :=
  status.nodes.foldl (fun m node => m.insert node.nodeID node) SortedMap.empty

namespace Scheduler

variable (s : Scheduler)

def evaluate (expression : String) (vars : Vars) : Except Err Bool :=
  if expression = "" then .ok true
  else
    match s.expressions with
    | none => errorf .invalidExpression "expression compiler is required"
    | some compile => do
        let compiled ← compile expression
        compiled vars

def nodeConditionsFrom (s : Scheduler) (nodeID : String) (vars : Vars) :
    List ConditionEvaluationTrace → List String → Except Err (Bool × List ConditionEvaluationTrace)
  | traces, [] => .ok (true, traces)
  | traces, condition :: rest => do
      let result ← s.evaluate condition vars
      let traces := traces ++
        [{ scope := "node", nodeID := nodeID, expression := condition, result := result }]
      if result then s.nodeConditionsFrom nodeID vars traces rest
      else .ok (false, traces)

def nodeConditionsTrue (node : PlanNodeSpec) (vars : Vars) :
    Except Err (Bool × List ConditionEvaluationTrace) :=
  s.nodeConditionsFrom node.nodeID vars [] node.conditions

def edgeTrace (node : PlanNodeSpec) (edge : PlanEdgeSpec) (active : Bool)
    (parent : NodeLifecycle) : List ConditionEvaluationTrace :=
  if edge.condition = "" then []
  else
    [{ scope := "edge"
       nodeID := node.nodeID
       edgeID := edge.edgeID
       source := edge.source
       target := edge.target
       expression := edge.condition
       result := active
       on := edgeTrigger edge.on
       parentState := some parent }]

/-- One edge: its parent is not done, its condition is false, or it counts as satisfied or
impossible. -/
def countEdge (node : PlanNodeSpec)
    (statuses : SortedMap String PlanNodeStatus) (vars : Vars) (counts : EdgeCounts)
    (edge : PlanEdgeSpec) : Except Err EdgeCounts :=
  match statuses.get? edge.source with
  | none =>
      errorf .invalidRunPlan
        ("edge " ++ quoted edge.edgeID ++ " from unknown node " ++ quoted edge.source)
  | some parent =>
      if !parent.lifecycleState.terminal then
        .ok { counts with waiting := counts.waiting + 1 }
      else
        match s.evaluate edge.condition vars with
        | .error err => .error (.within ("edge " ++ quoted edge.edgeID ++ " condition") err)
        | .ok active =>
            let traced := { counts with
              traces := counts.traces ++ edgeTrace node edge active parent.lifecycleState }
            if !active then .ok traced
            else if edgeSatisfied (edgeTrigger edge.on) parent.lifecycleState then
              .ok { traced with satisfied := traced.satisfied + 1 }
            else .ok { traced with impossible := traced.impossible + 1 }

def evaluateEdges (s : Scheduler) (node : PlanNodeSpec)
    (statuses : SortedMap String PlanNodeStatus) (vars : Vars) :
    EdgeCounts → List PlanEdgeSpec → Except Err EdgeCounts
  | counts, [] => .ok counts
  | counts, edge :: rest => do
      let next ← s.countEdge node statuses vars counts edge
      s.evaluateEdges node statuses vars next rest

def evaluateDependencies (node : PlanNodeSpec) (edges : List PlanEdgeSpec)
    (statuses : SortedMap String PlanNodeStatus) (vars : Vars) : Except Err DependencyEvaluation :=
  if edges.isEmpty then .ok { ready := true }
  else do
    let counts ← s.evaluateEdges node statuses vars {} edges
    let active := counts.satisfied + counts.impossible
    match normalizeJoin node.policy.join with
    | .all => .ok (evaluateAllJoin counts.waiting counts.satisfied counts.impossible active
        counts.traces)
    | .any | .first => .ok (evaluateAnyJoin counts.waiting counts.satisfied
        counts.impossible active counts.traces)
    | .unset | .other _ =>
        errorf .invalidRunPlan ("invalid join strategy " ++ quoted node.policy.join.text)

def decideOpenNode (plan : ExecutablePlan)
    (statuses : SortedMap String PlanNodeStatus) (vars : Vars) (nodeID : String) :
    Except Err SchedulerDecision := do
  let node := (plan.nodeByID.get? nodeID).getD {}
  let (holds, traces) ← s.nodeConditionsTrue node vars
  if !holds then
    .ok { skipped := [⟨node.nodeID, "node conditions evaluated false"⟩]
          conditionTraces := traces }
  else
    let dependencies ← s.evaluateDependencies node (edgesAt plan.edgesByTo nodeID) statuses vars
    .ok { ready := if dependencies.ready then [node] else []
          skipped := if dependencies.impossible then [⟨node.nodeID, dependencies.reason⟩] else []
          conditionTraces := traces ++ dependencies.traces }

/-- The decision on one node, empty unless it is pending or ready. -/
def decideNode (plan : ExecutablePlan)
    (statuses : SortedMap String PlanNodeStatus) (vars : Vars) (nodeID : String) :
    Except Err SchedulerDecision :=
  match (statuses.get? nodeID).map PlanNodeStatus.lifecycleState with
  | some .pending | some .ready => s.decideOpenNode plan statuses vars nodeID
  | _ => .ok {}

def decideFrom (s : Scheduler) (plan : ExecutablePlan)
    (statuses : SortedMap String PlanNodeStatus) (vars : Vars) :
    SchedulerDecision → List String → Except Err SchedulerDecision
  | decision, [] => .ok decision
  | decision, nodeID :: rest => do
      let added ← s.decideNode plan statuses vars nodeID
      s.decideFrom plan statuses vars
        { ready := decision.ready ++ added.ready
          skipped := decision.skipped ++ added.skipped
          conditionTraces := decision.conditionTraces ++ added.conditionTraces } rest

end Scheduler

def Scheduler.decide (s : Scheduler) (plan : ExecutablePlan) (status : RunPlanStatus)
    (vars : Vars) : Except Err SchedulerDecision := do
  let decision ← s.decideFrom plan (statusByNode status) vars {} plan.order
  .ok { decision with
    ready := decision.ready.insertionSort fun a b => a.nodeID ≤ b.nodeID
    skipped := decision.skipped.insertionSort fun a b => a.nodeID ≤ b.nodeID }

/-! ## What a decision says -/

namespace Scheduler

variable {s : Scheduler} {plan : ExecutablePlan} {statuses : SortedMap String PlanNodeStatus}
  {vars : Vars}

def openNode (lifecycle : Option NodeLifecycle) : Prop :=
  lifecycle = some .pending ∨ lifecycle = some .ready

variable {id : String} {added decision final : SchedulerDecision}

theorem mem_decideFrom {order : List String}
    (h : s.decideFrom plan statuses vars decision order = .ok final) :
    let adds id added := s.decideNode plan statuses vars id = .ok added
    (∀ id ∈ order, ∃ added, adds id added) ∧ (∀ node, node ∈ final.ready ↔
        node ∈ decision.ready ∨ ∃ id ∈ order, ∃ added, adds id added ∧ node ∈ added.ready) ∧
      ∀ node, node ∈ final.skipped ↔
        node ∈ decision.skipped ∨ ∃ id ∈ order, ∃ added, adds id added ∧ node ∈ added.skipped := by
  intro adds
  induction order generalizing decision with
  | nil =>
    cases h
    simp
  | cons id rest ih =>
    obtain ⟨added, hadded, hrest⟩ := bind_ok h
    obtain ⟨hok, hready, hskipped⟩ := ih hrest
    refine ⟨forall_mem_cons.mpr ⟨⟨added, hadded⟩, hok⟩, fun node => ?_, fun node => ?_⟩
    · rw [hready, mem_append, or_assoc]
      simp [adds, hadded]
    · rw [hskipped, mem_append, or_assoc]
      simp [adds, hadded]

theorem decideNode_open (h : s.decideNode plan statuses vars id = .ok added) (hne : added ≠ {}) :
    openNode ((statuses.get? id).map PlanNodeStatus.lifecycleState) ∧
      s.decideOpenNode plan statuses vars id = .ok added := by
  unfold decideNode at h
  split at h
  · exact ⟨.inl ‹_›, h⟩
  · exact ⟨.inr ‹_›, h⟩
  · cases h
    exact absurd rfl hne

/-- What is decided for a node that can be started: it is skipped by one of its conditions, or
its dependencies decide. -/
def Decided (s : Scheduler) (plan : ExecutablePlan) (statuses : SortedMap String PlanNodeStatus)
    (vars : Vars) (id : String) (added : SchedulerDecision) : Prop :=
  let node := (plan.nodeByID.get? id).getD {}
  (node.conditions ≠ [] ∧ added.ready = [] ∧ ∃ reason, added.skipped = [⟨node.nodeID, reason⟩]) ∨
    ∃ dependencies, s.evaluateDependencies node (edgesAt plan.edgesByTo id) statuses vars =
        .ok dependencies ∧
      added.ready = (if dependencies.ready then [node] else []) ∧
      added.skipped = if dependencies.impossible then [⟨node.nodeID, dependencies.reason⟩] else []

theorem decideOpenNode_decided (h : s.decideOpenNode plan statuses vars id = .ok added) :
    s.Decided plan statuses vars id added := by
  obtain ⟨⟨holds, traces⟩, hconditions, h⟩ := bind_ok h
  dsimp only at h
  split_ifs at h with hfalse
  · cases h
    refine .inl ⟨fun hnone => ?_, rfl, _, rfl⟩
    rw [nodeConditionsTrue, hnone] at hconditions
    cases hconditions
    cases hfalse
  · obtain ⟨dependencies, hdependencies, h⟩ := bind_ok h
    cases h
    exact .inr ⟨dependencies, hdependencies, rfl, rfl⟩

end Scheduler

variable {s : Scheduler} {plan : ExecutablePlan} {status : RunPlanStatus} {vars : Vars}
  {decision : SchedulerDecision}

theorem Validated.nodeByID_order (hplan : Validated plan) {id : String} (hid : id ∈ plan.order) :
    ∃ node, plan.nodeByID.get? id = some node ∧ node ∈ plan.spec.nodes ∧ node.nodeID = id := by
  obtain ⟨node, hnode⟩ := Option.isSome_iff_exists.mp
    ((SortedMap.mem_keys_iff plan.nodeByID id).mp (hplan.order.mem_iff.mp hid))
  exact ⟨node, hnode, (hplan.nodes id node).mp hnode⟩

theorem decide_parts (h : s.decide plan status vars = .ok decision) :
    let adds id added := s.decideNode plan (statusByNode status) vars id = .ok added
    (∀ id ∈ plan.order, ∃ added, adds id added) ∧ (∀ node, node ∈ decision.ready ↔
        ∃ id ∈ plan.order, ∃ added, adds id added ∧ node ∈ added.ready) ∧
      ∀ node, node ∈ decision.skipped ↔
        ∃ id ∈ plan.order, ∃ added, adds id added ∧ node ∈ added.skipped := by
  obtain ⟨final, hfinal, h⟩ := bind_ok h
  cases h
  obtain ⟨hok, hready, hskipped⟩ := Scheduler.mem_decideFrom hfinal
  exact ⟨hok, fun node => by simp [hready], fun node => by simp [hskipped]⟩

theorem decide_ready (hplan : Validated plan) (h : s.decide plan status vars = .ok decision)
    {node : PlanNodeSpec} (hmem : node ∈ decision.ready) :
    node ∈ plan.spec.nodes ∧ Scheduler.openNode
        (((statusByNode status).get? node.nodeID).map PlanNodeStatus.lifecycleState) ∧
      ∃ dependencies, s.evaluateDependencies node (edgesAt plan.edgesByTo node.nodeID)
        (statusByNode status) vars = .ok dependencies ∧ dependencies.ready = true := by
  obtain ⟨id, hid, added, hadded, hmem⟩ := ((decide_parts h).2.1 node).mp hmem
  obtain ⟨hopen, hdecided⟩ := Scheduler.decideNode_open hadded (by rintro rfl; cases hmem)
  obtain ⟨found, hfound, hdeclared, rfl⟩ := hplan.nodeByID_order hid
  rcases Scheduler.decideOpenNode_decided hdecided with ⟨-, hready, -⟩ | ⟨dependencies, h, hready, -⟩
  · rw [hready] at hmem
    cases hmem
  rw [hfound] at h hready
  rw [hready] at hmem
  split_ifs at hmem with hsettled
  · obtain rfl := mem_singleton.mp hmem
    exact ⟨hdeclared, hopen, dependencies, h, hsettled⟩
  · cases hmem

theorem decide_skipped (hplan : Validated plan) (h : s.decide plan status vars = .ok decision)
    {skipped : SkippedNode} (hmem : skipped ∈ decision.skipped) :
    Scheduler.openNode
      (((statusByNode status).get? skipped.nodeID).map PlanNodeStatus.lifecycleState) ∧
    ∃ node ∈ plan.spec.nodes, node.nodeID = skipped.nodeID ∧ (node.conditions = [] →
      ∃ dependencies, s.evaluateDependencies node (edgesAt plan.edgesByTo node.nodeID)
        (statusByNode status) vars = .ok dependencies ∧ dependencies.impossible = true) := by
  obtain ⟨id, hid, added, hadded, hmem⟩ := ((decide_parts h).2.2 skipped).mp hmem
  obtain ⟨hopen, hdecided⟩ := Scheduler.decideNode_open hadded (by rintro rfl; cases hmem)
  obtain ⟨found, hfound, hdeclared, rfl⟩ := hplan.nodeByID_order hid
  have hdecided := Scheduler.decideOpenNode_decided hdecided
  unfold Scheduler.Decided at hdecided
  rw [hfound] at hdecided
  rcases hdecided with ⟨hsome, -, reason, hskipped⟩ | ⟨dependencies, h, -, hskipped⟩
  · rw [hskipped] at hmem
    obtain rfl := mem_singleton.mp hmem
    exact ⟨hopen, found, hdeclared, rfl, fun hnone => absurd hnone hsome⟩
  · rw [hskipped] at hmem
    split_ifs at hmem with himpossible
    · obtain rfl := mem_singleton.mp hmem
      exact ⟨hopen, found, hdeclared, rfl, fun _ => ⟨dependencies, h, himpossible⟩⟩
    · cases hmem

end AgentOS.Plan
