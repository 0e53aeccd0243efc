import AgentOS.Plan.Scheduler

/-!
# The scheduler makes progress

A validated plan that has a node left to run and none running always has a
node that the scheduler can start or skip.
-/

namespace AgentOS.Plan

open Kit List SortedMap Scheduler

def ParentsKnown (statuses : SortedMap String PlanNodeStatus) (edges : List PlanEdgeSpec) : Prop :=
  ∀ edge ∈ edges, ∃ parent, statuses.get? edge.source = some parent

def ParentsTerminal (statuses : SortedMap String PlanNodeStatus)
    (edges : List PlanEdgeSpec) : Prop :=
  ∀ edge ∈ edges, ∀ parent, statuses.get? edge.source = some parent →
    parent.lifecycleState.terminal = true

namespace Scheduler

variable {s : Scheduler} {vars : Vars} {statuses : SortedMap String PlanNodeStatus}

def Evaluates (s : Scheduler) (vars : Vars) (conditions : List String) : Prop :=
  ∀ condition ∈ conditions, ∃ result, s.evaluate condition vars = .ok result

theorem nodeConditionsFrom_ok (nodeID : String) {conditions : List String}
    (h : s.Evaluates vars conditions) :
    ∀ traces, ∃ result, s.nodeConditionsFrom nodeID vars traces conditions = .ok result := by
  induction conditions with
  | nil => intro traces; exact ⟨_, rfl⟩
  | cons condition rest ih =>
    intro traces
    obtain ⟨result, hresult⟩ := h condition mem_cons_self
    rw [nodeConditionsFrom, hresult]
    cases result with
    | false => exact ⟨_, rfl⟩
    | true => exact ih (fun c hc => h c (mem_cons_of_mem _ hc)) _

theorem countEdge_ok (node : PlanNodeSpec) (counts : EdgeCounts) {edge : PlanEdgeSpec}
    {parent : PlanNodeStatus} (hparent : statuses.get? edge.source = some parent)
    (heval : ∃ result, s.evaluate edge.condition vars = .ok result) :
    ∃ next, s.countEdge node statuses vars counts edge = .ok next := by
  obtain ⟨result, hresult⟩ := heval
  rw [countEdge, hparent]
  simp only [hresult]
  split_ifs <;> exact ⟨_, rfl⟩

variable {node : PlanNodeSpec} {edges : List PlanEdgeSpec}

theorem evaluateEdges_ok (node : PlanNodeSpec) (hknown : ParentsKnown statuses edges)
    (heval : s.Evaluates vars (edges.map PlanEdgeSpec.condition)) :
    ∀ counts, ∃ next, s.evaluateEdges node statuses vars counts edges = .ok next := by
  induction edges with
  | nil => intro counts; exact ⟨counts, rfl⟩
  | cons edge rest ih =>
    intro counts
    obtain ⟨parent, hparent⟩ := hknown edge mem_cons_self
    obtain ⟨mid, hmid⟩ := countEdge_ok node counts hparent (heval edge.condition mem_cons_self)
    obtain ⟨next, hnext⟩ := ih (fun e he => hknown e (mem_cons_of_mem _ he))
      (fun c hc => heval c (mem_cons_of_mem _ hc)) mid
    refine ⟨next, ?_⟩
    rw [evaluateEdges, hmid]
    exact hnext

theorem evaluateDependencies_ok
    (hjoin : node.policy.join.known) (hknown : ParentsKnown statuses edges)
    (heval : s.Evaluates vars (edges.map PlanEdgeSpec.condition)) :
    ∃ result, s.evaluateDependencies node edges statuses vars = .ok result := by
  unfold evaluateDependencies
  split_ifs
  · exact ⟨_, rfl⟩
  obtain ⟨counts, hcounts⟩ := evaluateEdges_ok node hknown heval {}
  rw [hcounts]
  cases hj : node.policy.join with
  | other name => rw [hj] at hjoin; exact hjoin.elim
  | _ => exact ⟨_, rfl⟩

variable {answers : List (Option Bool)}

def SourceEnded (statuses : SortedMap String PlanNodeStatus) (edge : PlanEdgeSpec)
    (P : NodeLifecycle → Prop) : Prop :=
  ∃ parent, statuses.get? edge.source = some parent ∧ parent.lifecycleState.terminal = true ∧
    P parent.lifecycleState

/-- The answers that edges give: `none` while the source has not ended, then whether the edge is
satisfied.  An edge whose condition does not hold gives none. -/
inductive Answered (statuses : SortedMap String PlanNodeStatus) :
    List PlanEdgeSpec → List (Option Bool) → Prop
  | nil : Answered statuses [] []
  | waits {edge edges answers parent} (hparent : statuses.get? edge.source = some parent)
      (hopen : parent.lifecycleState.terminal = false) (h : Answered statuses edges answers) :
      Answered statuses (edge :: edges) (none :: answers)
  | inactive {edge edges answers}
      (hcondition : edge.condition ≠ "") (hended : SourceEnded statuses edge fun _ => True)
      (h : Answered statuses edges answers) : Answered statuses (edge :: edges) answers
  | answers {edge edges answers answer} (hended : SourceEnded statuses edge fun lifecycle =>
        edgeSatisfied (edgeTrigger edge.on) lifecycle = answer)
      (h : Answered statuses edges answers) :
      Answered statuses (edge :: edges) (some answer :: answers)

structure Counted (answers : List (Option Bool)) (counts next : EdgeCounts) : Prop where
  waiting : next.waiting = counts.waiting + answers.count none
  satisfied : next.satisfied = counts.satisfied + answers.count (some true)
  impossible : next.impossible = counts.impossible + answers.count (some false)

theorem evaluateEdges_answered {counts next : EdgeCounts}
    (h : s.evaluateEdges node statuses vars counts edges = .ok next) :
    ∃ answers, Answered statuses edges answers ∧ Counted answers counts next := by
  induction edges generalizing counts with
  | nil =>
    cases h
    exact ⟨[], .nil, rfl, rfl, rfl⟩
  | cons edge rest ih =>
    obtain ⟨mid, hmid, hrest⟩ := bind_ok h
    obtain ⟨answers, hanswered, hwaiting, hsatisfied, himpossible⟩ := ih hrest
    unfold countEdge at hmid
    split at hmid
    · cases hmid
    next parent hparent =>
    cases hended : parent.lifecycleState.terminal with
    | false =>
      simp only [hended] at hmid
      cases hmid
      exact ⟨none :: answers, .waits hparent hended hanswered, by grind, by grind, by grind⟩
    | true =>
      simp only [hended, Bool.not_true, Bool.false_eq_true, if_false] at hmid
      split at hmid
      · cases hmid
      next active hactive =>
      split_ifs at hmid with hinactive hsat <;> cases hmid
      · refine ⟨answers, .inactive (fun hplain => ?_) ⟨parent, hparent, hended, trivial⟩
          hanswered, hwaiting, hsatisfied, himpossible⟩
        simp [evaluate, hplain] at hactive
        simp [← hactive] at hinactive
      · exact ⟨some true :: answers, .answers ⟨parent, hparent, hended, hsat⟩ hanswered,
          by grind, by grind, by grind⟩
      · exact ⟨some false :: answers, .answers ⟨parent, hparent, hended,
          Bool.eq_false_iff.mpr hsat⟩ hanswered, by grind, by grind, by grind⟩

theorem Answered.settled (h : Answered statuses edges answers)
    (hterm : ParentsTerminal statuses edges) : none ∉ answers := by
  have hlater : ∀ {edge rest}, ParentsTerminal statuses (edge :: rest) →
      ParentsTerminal statuses rest := fun hterm e he => hterm e (mem_cons_of_mem _ he)
  induction h with
  | nil => exact not_mem_nil
  | waits hparent hopen =>
    rw [hterm _ mem_cons_self _ hparent] at hopen
    cases hopen
  | inactive _ _ _ ih => exact ih (hlater hterm)
  | answers _ _ ih => simpa using ih (hlater hterm)

/-- What a join makes of the answers of the edges. -/
def Decides (join : PlanJoinStrategy) (answers : List (Option Bool))
    (dependencies : DependencyEvaluation) : Prop :=
  match normalizeJoin join with
  | .all =>
      (dependencies.ready = true ↔ some false ∉ answers ∧ none ∉ answers ∧ some true ∈ answers) ∧
      (dependencies.impossible = true ↔ some false ∈ answers ∨ none ∉ answers ∧ some true ∉ answers)
  | .any | .first =>
      (dependencies.ready = true ↔ some true ∈ answers) ∧
      (dependencies.impossible = true ↔ none ∉ answers ∧ some true ∉ answers)
  | .unset | .other _ => False

theorem evaluateDependencies_cases {dependencies : DependencyEvaluation}
    (h : s.evaluateDependencies node edges statuses vars = .ok dependencies) :
    edges = [] ∧ dependencies.ready = true ∧ dependencies.impossible = false ∨
      edges ≠ [] ∧ ∃ answers, Answered statuses edges answers ∧
        Decides node.policy.join answers dependencies := by
  unfold evaluateDependencies at h
  split_ifs at h with hempty
  · cases h
    exact .inl ⟨isEmpty_iff.mp hempty, rfl, rfl⟩
  obtain ⟨counts, hcounts, h⟩ := bind_ok h
  obtain ⟨answers, hanswered, hwaiting, hsatisfied, himpossible⟩ := evaluateEdges_answered hcounts
  refine .inr ⟨fun hnil => hempty (isEmpty_iff.mpr hnil), answers, hanswered, ?_⟩
  simp only [Decides, ← count_pos_iff]
  cases hjoin : normalizeJoin node.policy.join <;> rw [hjoin] at h <;> cases h
  · unfold evaluateAllJoin
    grind
  · unfold evaluateAnyJoin
    grind
  · unfold evaluateAnyJoin
    grind

theorem evaluateDependencies_decided
    {result : DependencyEvaluation} (hterm : ParentsTerminal statuses edges)
    (h : s.evaluateDependencies node edges statuses vars = .ok result) :
    result.ready = true ∨ result.impossible = true := by
  rcases evaluateDependencies_cases h with ⟨-, hready, -⟩ | ⟨-, answers, hanswered, hdecides⟩
  · exact .inl hready
  · have hsettled := hanswered.settled hterm
    unfold Decides at hdecides
    split at hdecides <;> tauto

/-- Whether a decision does something. -/
def acts (decision : SchedulerDecision) : Prop := decision.ready ≠ [] ∨ decision.skipped ≠ []

variable {plan : ExecutablePlan}

theorem decideOpenNode_ok {nodeID : String}
    (hjoin : ((plan.nodeByID.get? nodeID).getD {}).policy.join.known)
    (hnode : s.Evaluates vars ((plan.nodeByID.get? nodeID).getD {}).conditions)
    (hknown : ParentsKnown statuses (edgesAt plan.edgesByTo nodeID)) (hedges : s.Evaluates vars
      ((edgesAt plan.edgesByTo nodeID).map PlanEdgeSpec.condition)) :
    ∃ decision, s.decideOpenNode plan statuses vars nodeID = .ok decision := by
  obtain ⟨⟨holds, traces⟩, hcond⟩ :=
    nodeConditionsFrom_ok ((plan.nodeByID.get? nodeID).getD {}).nodeID hnode []
  obtain ⟨result, hresult⟩ := evaluateDependencies_ok hjoin hknown hedges
  rw [decideOpenNode]
  simp only [nodeConditionsTrue, hcond]
  cases holds with
  | false => exact ⟨_, rfl⟩
  | true =>
    exact ⟨_, by
      show (s.evaluateDependencies _ _ _ _ >>= _) = _
      rw [hresult]
      rfl⟩

variable {decision : SchedulerDecision}

theorem Decided.acts {nodeID : String} (h : s.Decided plan statuses vars nodeID decision)
    (hterm : ParentsTerminal statuses (edgesAt plan.edgesByTo nodeID)) : acts decision := by
  rcases h with ⟨-, -, reason, hskipped⟩ | ⟨dependencies, hdependencies, hready, hskipped⟩
  · exact .inr (by simp [hskipped])
  · rcases evaluateDependencies_decided hterm hdependencies with hsettled | himpossible
    · exact .inl (by simp [hready, hsettled])
    · exact .inr (by simp [hskipped, himpossible])

theorem decideNode_cases (s : Scheduler) (plan : ExecutablePlan)
    (statuses : SortedMap String PlanNodeStatus) (vars : Vars) (nodeID : String) :
    let state := (statuses.get? nodeID).map PlanNodeStatus.lifecycleState
    openNode state ∧ s.decideNode plan statuses vars nodeID =
        s.decideOpenNode plan statuses vars nodeID ∨
      ¬ openNode state ∧ s.decideNode plan statuses vars nodeID = .ok {} := by
  simp only [decideNode, openNode]
  cases (statuses.get? nodeID).map PlanNodeStatus.lifecycleState with
  | none => simp
  | some lifecycle => cases lifecycle <;> simp

theorem decideFrom_ok {order : List String}
    (hok : ∀ id ∈ order, ∃ added, s.decideNode plan statuses vars id = .ok added) :
    ∀ decision, ∃ final, s.decideFrom plan statuses vars decision order = .ok final := by
  induction order with
  | nil => intro decision; exact ⟨decision, rfl⟩
  | cons head rest ih =>
    intro decision
    obtain ⟨added, hadded⟩ := hok head mem_cons_self
    obtain ⟨final, hfinal⟩ := ih (fun id hid => hok id (mem_cons_of_mem _ hid)) _
    refine ⟨final, ?_⟩
    rw [decideFrom, hadded]
    exact hfinal

end Scheduler

theorem statusByNode_get {status : RunPlanStatus}
    (hnodup : (status.nodes.map PlanNodeStatus.nodeID).Nodup) (id : String)
    (node : PlanNodeStatus) :
    (statusByNode status).get? id = some node ↔ node ∈ status.nodes ∧ node.nodeID = id := by
  rw [statusByNode, get?_foldl_insert, get?_empty, Option.or_none, Option.map_id']
  constructor
  · intro hfind
    exact ⟨mem_reverse.mp (mem_of_find?_eq_some hfind), by simpa using find?_some hfind⟩
  rintro ⟨hmem, rfl⟩
  refine find?_key _ ?_ (mem_reverse.mpr hmem)
  rw [map_reverse, nodup_reverse]
  exact hnodup

/-- The conditions of a plan's nodes and edges all evaluate. -/
structure ConditionsEvaluate (s : Scheduler) (plan : ExecutablePlan) (vars : Vars) : Prop where
  nodes : ∀ node ∈ plan.spec.nodes, s.Evaluates vars node.conditions
  edges : ∀ edge ∈ plan.spec.edges, ∃ result, s.evaluate edge.condition vars = .ok result

/-- A status lists every node of a plan once and no other node. -/
def ListsNodes (plan : ExecutablePlan) (status : RunPlanStatus) : Prop :=
  (status.nodes.map PlanNodeStatus.nodeID).Perm (plan.spec.nodes.map PlanNodeSpec.nodeID)

section Progress

variable {s : Scheduler} {plan : ExecutablePlan} {status : RunPlanStatus} {vars : Vars}

section

variable (hplan : Validated plan)
include hplan

theorem Validated.mem_keys_iff (id : String) :
    id ∈ plan.nodeByID.keys ↔ id ∈ plan.spec.nodes.map PlanNodeSpec.nodeID := by
  rw [SortedMap.mem_keys_iff, Option.isSome_iff_exists, mem_map]
  simp only [hplan.nodes]

section

variable (hlists : ListsNodes plan status)
include hlists

theorem exists_status {id : String}
    (hid : id ∈ plan.nodeByID.keys) : ∃ node, (statusByNode status).get? id = some node := by
  have hnodup := hlists.nodup_iff.mpr hplan.nodup
  have hmem := hlists.mem_iff.mpr ((hplan.mem_keys_iff id).mp hid)
  obtain ⟨node, hnode, rfl⟩ := mem_map.mp hmem
  exact ⟨node, (statusByNode_get hnodup _ node).mpr ⟨hnode, rfl⟩⟩

theorem decideOpenNode_total
    (hcond : ConditionsEvaluate s plan vars) {id : String} (hid : id ∈ plan.order) :
    ∃ decision, s.decideOpenNode plan (statusByNode status) vars id = .ok decision := by
  obtain ⟨node, hnode, hmem, -⟩ := hplan.nodeByID_order hid
  refine decideOpenNode_ok ?_ ?_ ?_ ?_
  · rw [hnode]
    exact hplan.joins node hmem
  · rw [hnode]
    exact hcond.nodes node hmem
  · intro edge hedge
    exact exists_status hplan hlists (hplan.ends edge ((hplan.into id edge).mp hedge).1).1
  · intro condition hcondition
    obtain ⟨edge, hedge, rfl⟩ := mem_map.mp hcondition
    exact hcond.edges edge ((hplan.into id edge).mp hedge).1

theorem decide_total (hcond : ConditionsEvaluate s plan vars) :
    ∃ decision, s.decide plan status vars = .ok decision := by
  have hok : ∀ id ∈ plan.order, ∃ added,
      s.decideNode plan (statusByNode status) vars id = .ok added := by
    intro id hid
    rcases decideNode_cases s plan (statusByNode status) vars id with
      ⟨_, heq⟩ | ⟨_, heq⟩
    · obtain ⟨decision, hdecision⟩ := decideOpenNode_total hplan hlists hcond hid
      exact ⟨decision, heq.trans hdecision⟩
    · exact ⟨_, heq⟩
  obtain ⟨final, hfinal⟩ := decideFrom_ok hok {}
  exact ⟨_, by rw [Scheduler.decide, hfinal]; rfl⟩

theorem exists_first_open
    (hopen : ∃ node ∈ status.nodes, node.lifecycleState = .pending ∨ node.lifecycleState = .ready) :
    ∃ id ∈ plan.order,
      openNode (((statusByNode status).get? id).map PlanNodeStatus.lifecycleState) ∧
      ∀ edge ∈ edgesAt plan.edgesByTo id, ¬ openNode
        (((statusByNode status).get? edge.source).map PlanNodeStatus.lifecycleState) := by
  classical
  obtain ⟨node, hnode, hstate⟩ := hopen
  have hlookup := (statusByNode_get (hlists.nodup_iff.mpr hplan.nodup) node.nodeID node).mpr
    ⟨hnode, rfl⟩
  have hin : node.nodeID ∈ plan.order := by
    refine hplan.order.mem_iff.mpr ((hplan.mem_keys_iff _).mpr (hlists.mem_iff.mp ?_))
    exact mem_map.mpr ⟨node, hnode, rfl⟩
  have hsome : (plan.order.find? fun id => openNode
      (((statusByNode status).get? id).map PlanNodeStatus.lifecycleState)).isSome := by
    rw [find?_isSome]
    refine ⟨node.nodeID, hin, ?_⟩
    rw [hlookup]
    simpa [openNode] using hstate
  obtain ⟨id, hfind⟩ := Option.isSome_iff_exists.mp hsome
  obtain ⟨hp, l, r, hsplit, hbefore⟩ := find?_eq_some_iff_append.mp hfind
  refine ⟨id, mem_of_find?_eq_some hfind, by simpa using hp, fun edge hedge => ?_⟩
  -- The parents come before the node in the order.
  obtain ⟨hmem, htarget⟩ := (hplan.into id edge).mp hedge
  simpa using hbefore edge.source (hplan.ordered l id r hsplit edge hmem htarget)

theorem acts_of_decide (hopen : ∃ node ∈ status.nodes,
      node.lifecycleState = .pending ∨ node.lifecycleState = .ready) (hidle : ∀ node ∈ status.nodes,
      node.lifecycleState ≠ .running ∧ node.lifecycleState ≠ .blocked)
    {decision : SchedulerDecision} (h : s.decide plan status vars = .ok decision) :
    acts decision := by
  obtain ⟨id, hid, hstate, hparents⟩ := exists_first_open hplan hlists hopen
  have hterm : ParentsTerminal (statusByNode status) (edgesAt plan.edgesByTo id) := by
    intro edge hedge parent hparent
    have hclosed := hparents edge hedge
    have hget := statusByNode_get (hlists.nodup_iff.mpr hplan.nodup) edge.source parent
    have hquiet := hidle parent (hget.mp hparent).1
    cases hlife : parent.lifecycleState <;> simp_all [openNode, NodeLifecycle.terminal]
  obtain ⟨hok, hready, hskipped⟩ := decide_parts h
  obtain ⟨added, hadded⟩ := hok id hid
  rcases decideNode_cases s plan (statusByNode status) vars id with
    ⟨_, heq⟩ | ⟨hnot, _⟩
  · rcases (decideOpenNode_decided (heq ▸ hadded)).acts hterm with hacts | hacts
    · obtain ⟨node, hnode⟩ := exists_mem_of_ne_nil _ hacts
      exact .inl (ne_nil_of_mem ((hready node).mpr ⟨id, hid, added, hadded, hnode⟩))
    · obtain ⟨node, hnode⟩ := exists_mem_of_ne_nil _ hacts
      exact .inr (ne_nil_of_mem ((hskipped node).mpr ⟨id, hid, added, hadded, hnode⟩))
  · exact absurd hstate hnot

end

end

end Progress

end AgentOS.Plan
