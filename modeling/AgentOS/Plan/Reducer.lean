import AgentOS.Plan.Nodes

/-!
# Runs of the plan reducer

What `State.apply` keeps over any sequence of events, from a new plan on.
-/

namespace AgentOS.Plan

open Kit List SortedMap

namespace State

variable {s s' : State} {clock now : Time} {event : StateEvent} {spec : RunPlanSpec}
  {events : List (Time × StateEvent)}

/-! ## Errors -/

/-- An event that fails changes nothing, if and only if it is not an expansion whose first node
the reducer takes and a later one not. -/
theorem apply_atomic {err : Err} (h : (s.apply clock event).2 = some err) :
    (s.apply clock event).1 = s ↔
      (event.kind = .planExpanded → event.expansion.nodes.length ≤ 1 ∨
        ∀ first ∈ event.expansion.nodes.head?,
          first.nodeID = "" ∨ (s.nodeStatus first.nodeID).isSome = true) := by
  by_cases hkind : event.kind = .planExpanded
  swap
  · exact iff_of_true (apply_refused h hkind).1 (absurd · hkind)
  unfold apply at h ⊢
  simp only [hkind, forall_const] at h ⊢
  unfold expand at h ⊢
  split_ifs at h ⊢ with hdelta
  · exact iff_of_true rfl (.inl (by simp_all))
  cases hnodes : event.expansion.nodes with
  | nil => simp [hnodes, expandNodes] at h
  | cons first rest =>
    rw [hnodes, expandNodes] at h
    rw [expandNodes]
    split_ifs at h ⊢ with hempty hthere
    · exact iff_of_true rfl (.inr (by simp [hempty]))
    · exact iff_of_true rfl (.inr (by simpa using .inr hthere))
    have hfresh : s.nodes.get? first.nodeID = none := by simpa [SortedMap.contains] using hthere
    cases hrest : expandNodes (eventTime clock event)
        (s.nodes.insert first.nodeID (pendingNodeStatus first (eventTime clock event))) rest with
    | mk nodes refused =>
    rw [hrest] at h
    cases refused with
    | none => cases h
    | some =>
      refine iff_of_false (fun hsame => ?_) ?_
      · -- The first node stays in the map.
        obtain rfl : nodes = s.nodes := congrArg State.nodes hsame
        rcases expandNodes_error hrest first.nodeID with hkept | ⟨hnone, -⟩
        · simp [hfresh] at hkept
        · simp at hnone
      · have hmore : rest ≠ [] := by
          rintro rfl
          cases hrest
        simp [nodeStatus, hempty, hfresh, hmore]

/-- The plan of the node `a`. -/
def onePlan (planID : String) : RunPlanSpec := { planID := planID, nodes := [{ nodeID := "a" }] }

def expandedBy (nodeIDs : List String) : StateEvent :=
  { kind := .planExpanded
    expansion := { nodes := nodeIDs.map fun nodeID => { nodeID := nodeID } }
    at_ := 2 }

theorem apply_atomic_known :
    ((newState (onePlan "p") 1).apply 0 (expandedBy ["a", "b"])).1 = newState (onePlan "p") 1 :=
  (apply_atomic (show _ = some (Err.wrap .invalidRunPlan
    ("expansion node " ++ quoted "a" ++ " already exists")) from rfl)).mpr (by decide +kernel)

/-- The reducer refuses the second node and keeps the first. -/
theorem apply_partial :
    ((newState (onePlan "p") 1).apply 0 (expandedBy ["b", "a"])).2.isSome = true ∧
      (((newState (onePlan "p") 1).apply 0 (expandedBy ["b", "a"])).1.nodeStatus "b").isSome =
        true ∧ ((newState (onePlan "p") 1).nodeStatus "b").isSome = false := by
  decide +kernel

/-! ## Runs -/

/-- The state after events that the reducer takes, each with the clock at its time. -/
def applyAll : State → List (Time × StateEvent) → Option State
  | s, [] => some s
  | s, (clock, event) :: rest =>
      match s.apply clock event with
      | (s', none) => applyAll s' rest
      | (_, some _) => none

theorem applyAll_cons {rest : List (Time × StateEvent)}
    (h : s.applyAll ((clock, event) :: rest) = some s') :
    (s.apply clock event).2 = none ∧ (s.apply clock event).1.applyAll rest = some s' := by
  rw [applyAll] at h
  generalize s.apply clock event = result at h ⊢
  obtain ⟨s₁, _ | err⟩ := result
  · exact ⟨rfl, h⟩
  · cases h

/-- What every event that the reducer takes preserves holds after all of them. -/
theorem applyAll_always {I : List (Time × StateEvent) → State → Prop}
    (hstep : ∀ done s clock event, (clock, event) ∈ events → (s.apply clock event).2 = none →
      I done s → I (done ++ [(clock, event)]) (s.apply clock event).1)
    (h : s.applyAll events = some s') (done : List (Time × StateEvent)) (hI : I done s) :
    I (done ++ events) s' := by
  induction events generalizing s done with
  | nil =>
    cases h
    simpa using hI
  | cons entry rest ih =>
    obtain ⟨clock, event⟩ := entry
    obtain ⟨hok, h⟩ := applyAll_cons h
    rw [append_cons]
    exact ih (fun done s clock event hmem => hstep done s clock event (mem_cons_of_mem _ hmem)) h _
      (hstep done s clock event mem_cons_self hok hI)

/-! ## The representation -/

/-- The status lists the nodes by their ids and the runs of the running ones, and a gate that is
pending blocks the plan. -/
structure Represents (s : State) : Prop where
  named : s.Named
  listed : s.Lists
  active : s.status.activeRunIDs = activeRuns s.status.nodes
  gate : ∀ approval, s.status.approval = some approval → approval.lifecycleState = .pending →
    s.status.lifecycleState = .blocked

theorem Applied.gate (h : Applied event now s s') (hI : s.Represents) (approval : PlanApprovalStatus)
    (happroval : s'.status.approval = some approval) (hpending : approval.lifecycleState = .pending) :
    s'.status.lifecycleState = .blocked := by
  rw [h.lifecycle]
  by_cases hkind : event.kind = .planBlocked
  · rw [hkind]
    rfl
  · rw [h.approval] at happroval
    obtain ⟨hbefore, hnone⟩ := approvalAfter_pending hkind happroval hpending
    rw [hnone]
    exact hI.gate approval hbefore hpending

theorem apply_represents (hok : (s.apply clock event).2 = none) (hI : s.Represents) :
    (s.apply clock event).1.Represents :=
  have happlied := apply_applied hok
  ⟨happlied.named hI.named, happlied.listed, happlied.active, happlied.gate hI⟩

theorem newState_represents (spec : RunPlanSpec) (now : Time) : (newState spec now).Represents := by
  exact ⟨newState_named spec now, rfl, newState_active spec now, nofun⟩

/-- The reducer keeps its representation: the list of the nodes and the list of the active runs
follow the node map, and the plan is blocked when it has a pending gate, or a time of its block. -/
theorem apply_keeps_representation (spec : RunPlanSpec) (now : Time)
    (events : List (Time × StateEvent)) (h : (newState spec now).applyAll events = some s) :
    s.status.nodes = s.nodes.values ∧ s.status.nodes.Pairwise (·.nodeID < ·.nodeID) ∧
    s.status.activeRunIDs = (s.status.nodes.filter fun node =>
      node.lifecycleState = .running && node.runID != "").map PlanNodeStatus.runID ∧
    ((∀ e ∈ events, e.2.at_.isZero = false) →
      (s.status.blockedAt.isZero = false ↔ s.status.lifecycleState = .blocked)) ∧
    ∀ approval, s.status.approval = some approval → approval.lifecycleState = .pending →
      s.status.lifecycleState = .blocked := by
  have hI : s.Represents := applyAll_always (I := fun _ s => s.Represents)
    (fun _ _ _ _ _ hok hI => apply_represents hok hI) h [] (newState_represents spec now)
  refine ⟨hI.listed, pairwise_map.mp ?_, hI.active, fun htimes => ?_, hI.gate⟩
  · rw [hI.listed, sortedNodeStatuses_ids hI.named]
    exact pairwise_map.mpr s.nodes.sorted
  · refine applyAll_always (I := fun _ s => s.status.blockedAt.isZero = false ↔
      s.status.lifecycleState = .blocked) (fun _ s clock event hmem hok hI => ?_) h []
      (by simp [newState, Time.isZero])
    have happlied := apply_applied hok
    rw [happlied.blockedAt, happlied.lifecycle, blockedAtAfter]
    cases hplan : reducerPlanLifecycleForEvent event.kind with
    | none => exact hI
    | some lifecycle =>
      have hzero := htimes _ hmem
      by_cases hblocked : lifecycle = .blocked
      · simp [hblocked, eventTime, hzero]
      · simp [hblocked, Time.isZero]

/-- The node `a` starts, and the plan is paused. -/
def pausedRun : List (Time × StateEvent) :=
  [(0, { kind := .nodeStarted, nodeID := "a", runID := "r", at_ := 2 }),
   (0, { kind := .planBlocked, approval := some {}, at_ := 3 })]

theorem apply_keeps_representation_paused :
    ∃ s, (newState (onePlan "p") 1).applyAll pausedRun = some s ∧ s.status.nodes = s.nodes.values ∧
      (s.status.blockedAt.isZero = false ↔ s.status.lifecycleState = .blocked) := by
  refine ⟨_, rfl, ?_⟩
  obtain ⟨hlisted, -, -, hblocked, -⟩ :=  apply_keeps_representation (onePlan "p") 1 pausedRun rfl
  exact ⟨hlisted, hblocked (by decide)⟩

/-! ## Spending -/

/-- The cents that the events report. -/
def reported (events : List (Time × StateEvent)) : Int :=
  (events.map fun e => if e.2.kind = .budgetReported then e.2.budgetDelta else 0).sum

theorem reportBudget_nonneg (hok : (s.apply clock event).2 = none) :
    0 ≤ if event.kind = .budgetReported then event.budgetDelta else 0 := by
  split_ifs with hkind
  · unfold apply at hok
    simp only [hkind] at hok
    unfold reportBudget at hok
    split_ifs at hok with hnegative
    omega
  · exact le_rfl

theorem reported_nonneg (h : s.applyAll events = some s') : 0 ≤ reported events := by
  induction events generalizing s with
  | nil => exact le_rfl
  | cons entry rest ih =>
    obtain ⟨hok, h⟩ := applyAll_cons h
    exact add_nonneg (reportBudget_nonneg hok) (ih h)

theorem changedNode_spent {node : PlanNodeStatus} :
    (changedNode event now node).spentCents =
      if event.kind = .budgetReported ∧ event.nodeID ≠ "" then
        int64 (node.spentCents + event.budgetDelta)
      else node.spentCents := by
  cases hkind : event.kind <;> simp [changedNode, hkind, reducerNodeLifecycleForEvent, retriedNode,
    transitionedNode]
  all_goals split_ifs <;> rfl

/-- The plan has spent what was reported, and no node has spent more. -/
def Spends (total : Int) (s : State) : Prop :=
  s.status.spentCents = total ∧
    ∀ nodeID node, s.nodeStatus nodeID = some node → 0 ≤ node.spentCents ∧ node.spentCents ≤ total

theorem Spends.applied {total delta : Int} (h : Applied event now s s') (hI : Spends total s)
    (hdelta : delta = if event.kind = .budgetReported then event.budgetDelta else 0)
    (hnonneg : 0 ≤ delta) (htotal : 0 ≤ total) (hbound : total + delta < 2 ^ 63) :
    Spends (total + delta) s' ∧ ∀ nodeID node, s.nodeStatus nodeID = some node →
      ∃ node', s'.nodeStatus nodeID = some node' ∧ node.spentCents ≤ node'.spentCents := by
  have hchanged : ∀ nodeID node, s.nodeStatus nodeID = some node →
      node.spentCents ≤ (changedNode event now node).spentCents ∧
        (changedNode event now node).spentCents ≤ total + delta := by
    intro nodeID node hnode
    obtain ⟨hlow, hhigh⟩ := hI.2 nodeID node hnode
    rw [changedNode_spent]
    split_ifs with hkind
    · rw [if_pos hkind.1] at hdelta
      rw [int64_eq_self] <;> omega
    · omega
  refine ⟨⟨?_, fun nodeID node hnode => ?_⟩, fun nodeID node hnode => ?_⟩
  · rw [h.spent, spentAfter, hI.1]
    split_ifs at hdelta ⊢
    · rw [int64_eq_self] <;> omega
    · omega
  · rw [h.lookup, nodeAfter] at hnode
    split_ifs at hnode
    · rcases Option.or_eq_some_iff.mp hnode with hold | ⟨-, hnew⟩
      · have := hI.2 nodeID node hold
        omega
      · obtain ⟨declared, -, rfl⟩ := Option.map_eq_some_iff.mp hnew
        exact ⟨le_rfl, add_nonneg htotal hnonneg⟩
    · obtain ⟨node, hold, rfl⟩ := Option.map_eq_some_iff.mp hnode
      have := hI.2 nodeID node hold
      have := hchanged nodeID node hold
      omega
    · have := hI.2 nodeID node hnode
      omega
  · rw [h.lookup, nodeAfter, hnode]
    split_ifs
    · exact ⟨node, rfl, le_rfl⟩
    · exact ⟨_, rfl, (hchanged nodeID node hnode).1⟩
    · exact ⟨node, rfl, le_rfl⟩

theorem Spends.run {total : Int} (h : s.applyAll events = some s') (hI : Spends total s)
    (htotal : 0 ≤ total) (hbound : total + reported events < 2 ^ 63) :
    Spends (total + reported events) s' ∧ ∀ nodeID node, s.nodeStatus nodeID = some node →
      ∃ node', s'.nodeStatus nodeID = some node' ∧ node.spentCents ≤ node'.spentCents := by
  induction events generalizing s total with
  | nil =>
    cases h
    simpa [reported] using ⟨hI, fun nodeID node hnode => ⟨node, hnode, le_rfl⟩⟩
  | cons entry rest ih =>
    obtain ⟨clock, event⟩ := entry
    obtain ⟨hok, h⟩ := applyAll_cons h
    have hnonneg := reportBudget_nonneg hok
    have hrest := reported_nonneg h
    rw [reported, map_cons, sum_cons, ← reported, ← add_assoc] at hbound ⊢
    dsimp only at hbound ⊢
    obtain ⟨hI', hgrows⟩ := hI.applied (apply_applied hok) rfl hnonneg htotal (by omega)
    obtain ⟨hspends, hlater⟩ := ih h hI' (by omega) hbound
    refine ⟨hspends, fun nodeID node hnode => ?_⟩
    obtain ⟨node₁, hnode₁, hle⟩ := hgrows nodeID node hnode
    obtain ⟨node', hnode', hle'⟩ := hlater nodeID node₁ hnode₁
    exact ⟨node', hnode', hle.trans hle'⟩

/-- As long as the reported cents fit in 64 bits, the plan has spent their sum, neither the plan nor
a node ever spends less than before, and a budget that is exceeded stays so. -/
theorem spend_monotone (spec : RunPlanSpec) (now : Time) (before after : List (Time × StateEvent))
    (hbefore : (newState spec now).applyAll before = some s) (hafter : s.applyAll after = some s')
    (hfits : reported (before ++ after) < 2 ^ 63) :
    s'.status.spentCents = reported (before ++ after) ∧ s.status.spentCents ≤ s'.status.spentCents ∧
      (∀ nodeID node, s.nodeStatus nodeID = some node →
        ∃ node', s'.nodeStatus nodeID = some node' ∧ node.spentCents ≤ node'.spentCents) ∧
      ∀ policy, budgetExceeded policy s.status.spentCents = true →
        budgetExceeded policy s'.status.spentCents = true := by
  have hnew : Spends 0 (newState spec now) := by
    refine ⟨rfl, fun nodeID node hnode => ?_⟩
    obtain ⟨declared, -, -, rfl⟩ := newState_lookup hnode
    exact ⟨le_rfl, le_rfl⟩
  have hsum : reported (before ++ after) = reported before + reported after := by simp [reported]
  rw [hsum] at hfits ⊢
  have hbefore' := reported_nonneg hbefore
  have hafter' := reported_nonneg hafter
  obtain ⟨hspends, -⟩ := hnew.run hbefore le_rfl (by omega)
  rw [zero_add] at hspends
  obtain ⟨hspends', hgrows⟩ := hspends.run hafter hbefore' hfits
  refine ⟨hspends'.1, ?_, hgrows, fun policy hexceeded => ?_⟩
  · rw [hspends.1, hspends'.1]
    omega
  · rw [budgetExceeded, decide_eq_true_eq, hspends.1] at hexceeded
    rw [budgetExceeded, decide_eq_true_eq, hspends'.1]
    omega

/-- The node `a` reports `spentCents`, and then one cent more. -/
def reports (spentCents : Int) : List (Time × StateEvent) :=
  [(0, { kind := .budgetReported, nodeID := "a", budgetDelta := spentCents, at_ := 2 }),
   (0, { kind := .budgetReported, nodeID := "a", budgetDelta := 1, at_ := 3 })]

theorem spend_monotone_two : ∃ s, (newState (onePlan "p") 1).applyAll (reports 5) = some s ∧
    s.status.spentCents = 6 := by
  refine ⟨_, rfl, ?_⟩
  exact (spend_monotone (onePlan "p") 1 [] (reports 5) rfl rfl (by decide)).1

/-- The sum of the cents is out of range, and the budget is no longer exceeded. -/
theorem spend_overflows :
    (((newState (onePlan "p") 1).applyAll (reports 9223372036854775807)).map fun s =>
      budgetExceeded { budgetCents := 100 } s.status.spentCents) = some false := by
  decide +kernel

end State

/-! ## Deadlines -/

/-- `passed` says of every time from `anchor` on whether the seconds have passed. -/
def ExactFrom (anchor : Time) (seconds : Int) (passed : Time → Bool) : Prop :=
  ∀ now : Time, anchor ≤ now → now.isZero = false →
    (passed now = true ↔ seconds * 1000000000 ≤ now - anchor)

section Deadlines

variable {seconds : Int} {anchor : Time} (hseconds : 0 < seconds)

include hseconds

theorem deadlinePassed_iff (hanchor : anchor.isZero = false) (now : Time) :
    deadlinePassed seconds anchor now = true ↔ anchor.addSeconds seconds ≤ now := by
  rw [deadlinePassed, if_neg (by simp [hanchor, hseconds]), decide_eq_true_eq]

/-- The nanoseconds of up to 9223372036 seconds, which are 292 years, fit in 64 bits.  The product
for more seconds wraps to a number that is too small, so that the deadline is early. -/
theorem exactFrom_iff (hanchor : anchor.isZero = false) :
    ExactFrom anchor seconds (deadlinePassed seconds anchor) ↔ seconds ≤ 9223372036 := by
  simp only [ExactFrom, deadlinePassed_iff hseconds hanchor, Time.addSeconds]
  unfold Time at *
  constructor
  · intro hexact
    by_contra hlong
    have hearly : int64 (seconds * 1000000000) < 2 ^ 63 := Int.bmod_lt (by decide)
    -- 2 ^ 63 nanoseconds after the anchor the wrapped deadline is over, and the true one is not
    obtain ⟨now, hnow, hzero⟩ :
        ∃ now : Int, (now = anchor + 2 ^ 63 ∨ now = anchor + 2 ^ 63 + 1) ∧ now ≠ 0 := by
      by_cases h : anchor + 2 ^ 63 = 0
      · exact ⟨_, .inr rfl, by omega⟩
      · exact ⟨_, .inl rfl, h⟩
    have hpassed := (hexact now (by omega) (by simpa [Time.isZero] using hzero)).mp (by omega)
    omega
  · intro hfits now _ _
    rw [int64_eq_self (by omega) (by omega)]
    exact le_sub_iff_add_le'.symm

end Deadlines

/-- The three timeouts are exact if and only if they are of up to 9223372036 seconds, and a gate of
any timeout expires at the first instant at which the plan has been blocked for too long. -/
theorem timeouts_exact (digest : Digest) (spec : RunPlanSpec) (status : RunPlanStatus)
    (node : PlanNodeSpec) (nodeStatus : PlanNodeStatus) (reason : String) (anchor : Time)
    (hanchor : anchor.isZero = false) :
    (0 < spec.policy.timeoutSeconds →
      (ExactFrom anchor spec.policy.timeoutSeconds (planTimedOut spec.policy anchor) ↔
        spec.policy.timeoutSeconds ≤ 9223372036)) ∧
    (0 < node.policy.timeoutSeconds → nodeStatus.lifecycleState = .running →
      nodeStatus.startedAt = anchor →
      (ExactFrom anchor node.policy.timeoutSeconds (nodeTimedOut · nodeStatus node) ↔
        node.policy.timeoutSeconds ≤ 9223372036)) ∧
    (0 < spec.policy.approvalTimeoutSeconds → (ExactFrom anchor spec.policy.approvalTimeoutSeconds
          (planBlockedTimedOut spec.policy anchor) ↔
        spec.policy.approvalTimeoutSeconds ≤ 9223372036) ∧
      ∀ now, planBlockedTimedOut spec.policy anchor now = true ↔
        (newPlanApprovalGate digest spec status reason anchor).expiresAt ≤ now) := by
  refine ⟨fun hseconds => exactFrom_iff hseconds hanchor, fun hseconds hrunning hstarted => ?_,
    fun hseconds => ⟨exactFrom_iff hseconds hanchor, fun now => ?_⟩⟩
  · simp only [nodeTimedOut, hrunning, hstarted]
    exact exactFrom_iff hseconds hanchor
  · have hexpires : (newPlanApprovalGate digest spec status reason anchor).expiresAt =
        anchor.addSeconds spec.policy.approvalTimeoutSeconds := if_pos hseconds
    rw [hexpires]
    exact deadlinePassed_iff hseconds hanchor now

theorem timeouts_exact_hour : planTimedOut { timeoutSeconds := 3600 } 1 3600000000001 = true :=
  (((timeouts_exact (fun _ => "") { policy := { timeoutSeconds := 3600 } } {} {} {} "" 1 rfl).1
    (by decide)).mpr (by decide) 3600000000001 (by decide) rfl).mpr (by decide)

/-- The nanoseconds of the timeout are out of range, and the plan has timed out at its start. -/
theorem timeout_overflows : planTimedOut { timeoutSeconds := 9223372037 } 1 1 = true := by
  decide

end AgentOS.Plan
