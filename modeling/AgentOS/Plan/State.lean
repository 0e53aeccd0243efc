import AgentOS.Kit.SortedMap
import AgentOS.Plan.Types

/-!
# The plan reducer

`State` of `internal/usecase/agentosplan/state.go` and its transition function
`State.apply`.  The workflow changes a plan's status through this function and
in no other way.

After the functions of the source, `Applied` says what an event that succeeds does
to each part of the state, and `Failed` what an event that fails leaves.  The proofs
about plans use these two and never unfold `apply`.
-/

namespace AgentOS.Plan

open Kit List SortedMap

abbrev NodeMap := SortedMap String PlanNodeStatus

/-- `State`: the status that readers see, the node map behind it, and the number of
events applied. -/
structure State where
  status : RunPlanStatus
  nodes : NodeMap
  transitions : Int := 0

def sortedNodeStatuses (nodes : NodeMap) : List PlanNodeStatus := nodes.values

def pendingNodeStatus (node : PlanNodeSpec) (now : Time) : PlanNodeStatus where
  nodeID := node.nodeID
  runID := node.run.runID
  backend := node.run.backend
  lifecycleState := .pending
  updatedAt := now

/-- `NewState`: every node of the spec is pending. -/
def newState (spec : RunPlanSpec) (now : Time) : State :=
  let nodes := spec.nodes.foldl
    (fun m node => m.insert node.nodeID (pendingNodeStatus node now)) empty
  { status :=
      { planID := spec.planID
        lifecycleState := .pending
        nodes := sortedNodeStatuses nodes
        metadata := spec.metadata
        updatedAt := now }
    nodes := nodes }

namespace State

/-- `refresh`, which writes the nodes and the active runs into the status again. -/
def refresh (s : State) (now : Time) : State :=
  let nodes := sortedNodeStatuses s.nodes
  let active := nodes.filter fun node =>
    node.lifecycleState = .running && node.runID != ""
  { s with status :=
      { s.status with
        nodes := nodes
        activeRunIDs := active.map PlanNodeStatus.runID
        updatedAt := now } }

def nodeStatus (s : State) (nodeID : String) : Option PlanNodeStatus := s.nodes.get? nodeID

def appliedTransitions (s : State) : Int := s.transitions

/-- Refresh after a change and count the transition, as every successful event
does. -/
def commit (s : State) (now : Time) : State :=
  { s.refresh now with transitions := int32 (s.transitions + 1) }

end State

/-! ## Restoring a snapshot -/

def expectedPlanNodeSet (spec : RunPlanSpec) : Except Err (List String) :=
  spec.nodes.foldlM (fun expected node =>
    if node.nodeID = "" then errorf .invalidRunPlan "node id is required"
    else if node.nodeID ∈ expected then
      errorf .invalidRunPlan ("duplicate node " ++ quoted node.nodeID)
    else .ok (expected ++ [node.nodeID])) []

/-- One node of the snapshot, which the spec must have and which must be new. -/
def restorePlanNodeStatus (nodes : NodeMap) (expected : List String)
    (node : PlanNodeStatus) : Except Err NodeMap :=
  if node.nodeID = "" then errorf .invalidRunPlan "snapshot node id is required"
  else if node.nodeID ∉ expected then
    errorf .invalidRunPlan ("snapshot contains unknown node " ++ quoted node.nodeID)
  else if nodes.contains node.nodeID then
    errorf .invalidRunPlan ("snapshot contains duplicate node " ++ quoted node.nodeID)
  else .ok (nodes.insert node.nodeID node)

/-- `restorePlanNodeStatuses`.  The source ranges over a Go map to find a
missing node, so which one it names is not fixed; here it is the first of the
spec. -/
def restorePlanNodeStatuses (status : RunPlanStatus) (expected : List String) :
    Except Err NodeMap := do
  let nodes ← status.nodes.foldlM
    (fun nodes node => restorePlanNodeStatus nodes expected node) empty
  match expected.find? fun nodeID => !nodes.contains nodeID with
  | some nodeID => errorf .invalidRunPlan ("snapshot missing node " ++ quoted nodeID)
  | none => .ok nodes

/-- `NewStateFromStatus`: the snapshot has the plan id of the spec and a status for each
of its nodes and for no other. -/
def newStateFromStatus (spec : RunPlanSpec) (status : RunPlanStatus) : Except Err State :=
  if spec.planID = "" then errorf .invalidRunPlan "plan id is required"
  else
    let restored := if status.planID = "" then { status with planID := spec.planID } else status
    if restored.planID ≠ spec.planID then
      errorf .invalidRunPlan ("snapshot plan id " ++ quoted restored.planID ++
        " does not match spec plan id " ++ quoted spec.planID)
    else do
      let expected ← expectedPlanNodeSet spec
      let nodes ← restorePlanNodeStatuses restored expected
      .ok (State.refresh { status := restored, nodes := nodes } restored.updatedAt)

/-! ## Transitions -/

def reducerPlanLifecycleForEvent : EventKind → Option PlanLifecycle
  | .planStarted => some .running
  | .planBlocked => some .blocked
  | .planApproved => some .running
  | .planRejected => some .failed
  | .planSucceeded => some .succeeded
  | .planFailed => some .failed
  | .planCanceled => some .canceled
  | _ => none

/-- The lifecycle that an event on a node gives it.  A retry is not among them. -/
def reducerNodeLifecycleForEvent : EventKind → Option NodeLifecycle
  | .nodeReady => some .ready
  | .nodeStarted => some .running
  | .nodeSucceeded => some .succeeded
  | .nodeFailed => some .failed
  | .nodeSkipped => some .skipped
  | .nodeCanceled => some .canceled
  | _ => none

def unknownNode (nodeID : String) : Err := .wrap .invalidRunPlan ("unknown node " ++ quoted nodeID)

namespace State

/-- Record the decision on the pending gate.  A gate that the event carries stands in for
one that the state does not have. -/
def recordPlanApprovalDecision (approval : Option PlanApprovalStatus) (approved : Bool)
    (event : StateEvent) (now : Time) : Option PlanApprovalStatus :=
  let opened : Option PlanApprovalStatus :=
    match approval, event.approval with
    | some current, _ => some current
    | none, none => none
    | none, some carried =>
        if carried.gate.policyVersion = "" then none
        else some { lifecycleState := .pending, gate := carried.gate }
  match opened with
  | none => none
  | some current =>
      if current.lifecycleState ≠ .pending then some current
      else
        let decision : PlanApprovalDecision :=
          match event.approval.bind StateEventApproval.decision with
          | some explicit => explicit
          -- A system decision, such as an approval timeout, has no actor.
          | none =>
              { approved := approved
                reason := event.reason
                policyVersion := current.gate.policyVersion
                decidedAt := now }
        some { current with
          lifecycleState := if approved then .approved else .rejected
          decision := some decision }

/-- What a plan event does to the gate: a block opens it, a decision closes it, and a
pending gate goes when the plan is no longer blocked. -/
def applyApprovalGateEvent (approval : Option PlanApprovalStatus) (event : StateEvent)
    (lifecycle : PlanLifecycle) (now : Time) : Option PlanApprovalStatus :=
  match event.kind with
  | .planBlocked =>
      match event.approval with
      | none => approval
      | some carried => some { lifecycleState := .pending, gate := carried.gate }
  | .planApproved => recordPlanApprovalDecision approval true event now
  | .planRejected => recordPlanApprovalDecision approval false event now
  | _ =>
      match approval with
      | some current =>
          if lifecycle ≠ .blocked ∧ current.lifecycleState = .pending then none
          else some current
      | none => none

variable (s : State)

def applyPlanEvent (lifecycle : PlanLifecycle) (event : StateEvent) (now : Time) : State :=
  { s with status :=
      { s.status with
        lifecycleState := lifecycle
        reason := event.reason
        startedAt := if event.kind = .planStarted ∧ s.status.startedAt.isZero then now
          else s.status.startedAt
        blockedAt := if lifecycle = .blocked then now else 0
        approval := applyApprovalGateEvent s.status.approval event lifecycle now } }

/-- The node after `transitionNode`.  Only a node that was not running begins an attempt. -/
def transitionedNode (node : PlanNodeStatus) (lifecycle : NodeLifecycle)
    (event : StateEvent) (now : Time) : PlanNodeStatus :=
  let moved : PlanNodeStatus :=
    { node with
      lifecycleState := lifecycle
      reason := event.reason
      runID := if event.runID ≠ "" then event.runID else node.runID
      artifacts := node.artifacts ++ event.artifacts
      updatedAt := now }
  match lifecycle with
  | .running =>
      if node.lifecycleState ≠ .running then
        { moved with
          attempts := if event.attempt > 0 then event.attempt else int32 (node.attempts + 1)
          startedAt := now
          completedAt := 0 }
      else moved
  | .succeeded | .failed | .skipped | .canceled => { moved with completedAt := now }
  | _ => moved

/-- The node after `retryNode`: ready again and without a run. -/
def retriedNode (node : PlanNodeStatus) (event : StateEvent) (now : Time) : PlanNodeStatus :=
  { node with
    attempts := if node.attempts = 0 ∧ event.attempt > 1 then int32 (event.attempt - 1)
      else node.attempts
    lifecycleState := .ready
    runID := ""
    reason := event.reason
    startedAt := 0
    completedAt := 0
    updatedAt := now }

/-- Change the status of one node and commit.  An unknown node is an error and
changes nothing. -/
def updateNode (nodeID : String) (now : Time)
    (change : PlanNodeStatus → PlanNodeStatus) : State × Option Err :=
  match s.nodes.get? nodeID with
  | none => (s, some (unknownNode nodeID))
  | some node =>
      (({ s with nodes := s.nodes.insert nodeID (change node) }).commit now, none)

def transitionNode (nodeID : String) (lifecycle : NodeLifecycle)
    (event : StateEvent) (now : Time) : State × Option Err :=
  s.updateNode nodeID now fun node => transitionedNode node lifecycle event now

def retryNode (nodeID : String) (event : StateEvent) (now : Time) : State × Option Err :=
  s.updateNode nodeID now fun node => retriedNode node event now

/-- Change a node that the event may leave unnamed, and the plan status, and
commit. -/
def updateNodeAndPlan (nodeID : String) (now : Time) (change : PlanNodeStatus → PlanNodeStatus)
    (plan : RunPlanStatus → RunPlanStatus) : State × Option Err :=
  if nodeID = "" then (({ s with status := plan s.status }).commit now, none)
  else
    match s.nodes.get? nodeID with
    | none => (s, some (unknownNode nodeID))
    | some node =>
        (({ s with
            status := plan s.status
            nodes := s.nodes.insert nodeID (change node) }).commit now, none)

def touchNode (nodeID : String) (now : Time) : State × Option Err :=
  s.updateNodeAndPlan nodeID now (fun node => { node with updatedAt := now }) id

def publishArtifacts (event : StateEvent) (now : Time) : State × Option Err :=
  s.updateNodeAndPlan event.nodeID now
    (fun node => { node with
      artifacts := node.artifacts ++ event.artifacts
      updatedAt := now })
    (fun status => { status with artifacts := status.artifacts ++ event.artifacts })

def reportBudget (event : StateEvent) (now : Time) : State × Option Err :=
  if event.budgetDelta < 0 then
    (s, some (.wrap .invalidRunPlan "budget delta cannot be negative"))
  else
    s.updateNodeAndPlan event.nodeID now
      (fun node => { node with
        spentCents := int64 (node.spentCents + event.budgetDelta)
        updatedAt := now })
      (fun status => { status with
        spentCents := int64 (status.spentCents + event.budgetDelta) })

/-- The loop of `expand`.  On an error the nodes added before it stay. -/
def expandNodes (now : Time) : NodeMap → List PlanNodeSpec → NodeMap × Option Err
  | nodes, [] => (nodes, none)
  | nodes, node :: rest =>
      if node.nodeID = "" then
        (nodes, some (.wrap .invalidRunPlan "expansion node id is required"))
      else if nodes.contains node.nodeID then
        (nodes, some (.wrap .invalidRunPlan
          ("expansion node " ++ quoted node.nodeID ++ " already exists")))
      else expandNodes now (nodes.insert node.nodeID (pendingNodeStatus node now)) rest

def staleApproval (current : PlanApprovalStatus) : PlanApprovalStatus :=
  { current with lifecycleState := .stale }

def expand (delta : PlanDelta) (now : Time) : State × Option Err :=
  if delta.nodes.isEmpty && delta.edges.isEmpty then
    (s, some (.wrap .invalidRunPlan "expansion delta is empty"))
  else
    match expandNodes now s.nodes delta.nodes with
    | (nodes, some err) => ({ s with nodes := nodes }, some err)
    | (nodes, none) =>
        -- A replan makes the gate's scope out of date, decided or not.
        (({ s with
            status := { s.status with
              approval := s.status.approval.map staleApproval }
            nodes := nodes }).commit now, none)

def eventTime (clock : Time) (event : StateEvent) : Time :=
  if event.at_.isZero then clock else event.at_

/-- `Apply`: the state after the event, and the error if it is refused. -/
def apply (clock : Time) (s : State) (event : StateEvent) : State × Option Err :=
  let now := eventTime clock event
  match event.kind with
  | .planExpanded => s.expand event.expansion now
  | .nodeRetryScheduled => s.retryNode event.nodeID event now
  | .nodeInputResolved | .capabilitySelected | .conditionsEvaluated =>
      s.touchNode event.nodeID now
  | .artifactsPublished => s.publishArtifacts event now
  | .budgetReported => s.reportBudget event now
  | kind =>
      match reducerPlanLifecycleForEvent kind, reducerNodeLifecycleForEvent kind with
      | some lifecycle, _ => ((s.applyPlanEvent lifecycle event now).commit now, none)
      | none, some lifecycle => s.transitionNode event.nodeID lifecycle event now
      | none, none => (s, some (.wrap .invalidRunPlan "unknown plan event"))

/-! ## What an event does -/

/-- The node that an event names, after the event. -/
def changedNode (event : StateEvent) (now : Time) (node : PlanNodeStatus) : PlanNodeStatus :=
  match event.kind with
  | .nodeRetryScheduled => retriedNode node event now
  | .nodeInputResolved | .capabilitySelected | .conditionsEvaluated =>
      if event.nodeID = "" then node else { node with updatedAt := now }
  | .artifactsPublished =>
      if event.nodeID = "" then node
      else { node with artifacts := node.artifacts ++ event.artifacts, updatedAt := now }
  | .budgetReported =>
      if event.nodeID = "" then node
      else { node with spentCents := int64 (node.spentCents + event.budgetDelta), updatedAt := now }
  | kind =>
      match reducerNodeLifecycleForEvent kind with
      | some lifecycle => transitionedNode node lifecycle event now
      | none => node

/-- A node after an event, from the node before it. -/
def nodeAfter (event : StateEvent) (now : Time) (nodeID : String) (before : Option PlanNodeStatus) :
    Option PlanNodeStatus :=
  if event.kind = .planExpanded then
    before.or ((event.expansion.nodes.find? fun node => node.nodeID = nodeID).map
      fun node => pendingNodeStatus node now)
  else if nodeID = event.nodeID then before.map (changedNode event now)
  else before

def spentAfter (event : StateEvent) (spentCents : Int) : Int :=
  if event.kind = .budgetReported then int64 (spentCents + event.budgetDelta) else spentCents

def artifactsAfter (event : StateEvent) (artifacts : List ArtifactRef) : List ArtifactRef :=
  if event.kind = .artifactsPublished then artifacts ++ event.artifacts else artifacts

def approvalAfter (event : StateEvent) (now : Time) (approval : Option PlanApprovalStatus) :
    Option PlanApprovalStatus :=
  match reducerPlanLifecycleForEvent event.kind with
  | some lifecycle => applyApprovalGateEvent approval event lifecycle now
  | none => if event.kind = .planExpanded then approval.map staleApproval else approval

def blockedAtAfter (event : StateEvent) (now blockedAt : Time) : Time :=
  match reducerPlanLifecycleForEvent event.kind with
  | some lifecycle => if lifecycle = .blocked then now else 0
  | none => blockedAt

def activeRuns (nodes : List PlanNodeStatus) : List String :=
  (nodes.filter fun node => node.lifecycleState = .running && node.runID != "").map
    PlanNodeStatus.runID

/-- The status lists the nodes. -/
abbrev Lists : Prop := s.status.nodes = sortedNodeStatuses s.nodes

/-- What an event that succeeds does, field by field. -/
structure Applied (event : StateEvent) (now : Time) (s s' : State) : Prop where
  lookup : ∀ nodeID, s'.nodeStatus nodeID = nodeAfter event now nodeID (s.nodeStatus nodeID)
  listed : s'.status.nodes = sortedNodeStatuses s'.nodes
  active : s'.status.activeRunIDs = activeRuns s'.status.nodes
  lifecycle : s'.status.lifecycleState =
    (reducerPlanLifecycleForEvent event.kind).getD s.status.lifecycleState
  spent : s'.status.spentCents = spentAfter event s.status.spentCents
  artifacts : s'.status.artifacts = artifactsAfter event s.status.artifacts
  approval : s'.status.approval = approvalAfter event now s.status.approval
  blockedAt : s'.status.blockedAt = blockedAtAfter event now s.status.blockedAt
  planID : s'.status.planID = s.status.planID
  known : (reducerNodeLifecycleForEvent event.kind).isSome ∨ event.kind = .nodeRetryScheduled →
    (s.nodeStatus event.nodeID).isSome
  fresh : event.kind = .planExpanded →
    ∀ node ∈ event.expansion.nodes, node.nodeID ≠ "" ∧ s.nodeStatus node.nodeID = none

/-- What an event that fails leaves: the status is as it was, and so are the nodes
that were there.  A failed expansion may have added nodes. -/
structure Failed (event : StateEvent) (now : Time) (s s' : State) : Prop where
  status : s'.status = s.status
  nodes : event.kind ≠ .planExpanded → s'.nodes = s.nodes
  lookup : ∀ nodeID, s'.nodeStatus nodeID = s.nodeStatus nodeID ∨
    s.nodeStatus nodeID = none ∧ ∃ node ∈ event.expansion.nodes, node.nodeID = nodeID ∧
      s'.nodeStatus nodeID = some (pendingNodeStatus node now)
  blank : s'.nodeStatus "" = s.nodeStatus ""
  unknown : (reducerNodeLifecycleForEvent event.kind).isSome ∨ event.kind = .nodeRetryScheduled →
    s.nodeStatus event.nodeID = none

variable {change : PlanNodeStatus → PlanNodeStatus} {lifecycle : NodeLifecycle} {kind : EventKind}
  {plan : RunPlanStatus → RunPlanStatus} {nodes nodes' : NodeMap} {nodeID : String} {s' : State}

section Transitions

variable {s : State} {event : StateEvent} {now clock : Time} {err : Err} {added : List PlanNodeSpec}

theorem expandNodes_ok (h : expandNodes now nodes added = (nodes', none)) :
    (∀ node ∈ added, node.nodeID ≠ "" ∧ nodes.get? node.nodeID = none) ∧
      ∀ nodeID, nodes'.get? nodeID = (nodes.get? nodeID).or
        ((added.find? fun node => node.nodeID = nodeID).map
          fun node => pendingNodeStatus node now) := by
  induction added generalizing nodes with
  | nil =>
    cases h
    exact ⟨by simp, fun _ => by simp⟩
  | cons node rest ih =>
    rw [expandNodes] at h
    split_ifs at h with hempty hthere
    · cases h
    · cases h
    have hnone : nodes.get? node.nodeID = none := by
      simpa [SortedMap.contains] using hthere
    obtain ⟨hfresh, hlookup⟩ := ih h
    -- A later node can not have the id of this one, which is in the map by then.
    have hfresh' : ∀ later ∈ rest, later.nodeID ≠ "" ∧ nodes.get? later.nodeID = none := by
      intro later hlater
      obtain ⟨hnamed, hget⟩ := hfresh later hlater
      rw [get?_insert] at hget
      split_ifs at hget
      exact ⟨hnamed, hget⟩
    constructor
    · intro later hlater
      rcases mem_cons.mp hlater with rfl | hlater
      · exact ⟨hempty, hnone⟩
      · exact hfresh' later hlater
    · intro nodeID
      rw [hlookup, get?_insert]
      by_cases hid : nodeID = node.nodeID
      · subst hid
        simp [hnone]
      · rw [if_neg hid, find?_cons_of_neg (by simpa using Ne.symm hid)]

theorem expandNodes_error (h : expandNodes now nodes added = (nodes', some err)) (nodeID : String) :
    nodes'.get? nodeID = nodes.get? nodeID ∨
      nodes.get? nodeID = none ∧ ∃ node ∈ added, node.nodeID = nodeID ∧
        nodes'.get? nodeID = some (pendingNodeStatus node now) := by
  induction added generalizing nodes with
  | nil => cases h
  | cons node rest ih =>
    rw [expandNodes] at h
    split_ifs at h with hempty hthere
    · cases h
      exact .inl rfl
    · cases h
      exact .inl rfl
    have hnone : nodes.get? node.nodeID = none := by
      simpa [SortedMap.contains] using hthere
    rcases ih h with hsame | ⟨hnew, later, hlater, hid, hget⟩
    · rw [get?_insert] at hsame
      split_ifs at hsame with hid
      · exact .inr ⟨hid ▸ hnone, node, mem_cons_self, hid.symm, hsame⟩
      · exact .inl hsame
    · rw [get?_insert] at hnew
      split_ifs at hnew
      exact .inr ⟨hnew, later, mem_cons_of_mem _ hlater, hid, hget⟩

theorem expandNodes_blank (nodes : NodeMap) (added : List PlanNodeSpec) :
    (expandNodes now nodes added).1.get? "" = nodes.get? "" := by
  induction added generalizing nodes with
  | nil => rfl
  | cons node rest ih =>
    rw [expandNodes]
    split_ifs with hempty hthere
    · rfl
    · rfl
    · rw [ih, get?_insert, if_neg (Ne.symm hempty)]

theorem updateNode_applied
    (hkind : event.kind ≠ .planExpanded) (hchange : changedNode event now = change)
    (hplan : reducerPlanLifecycleForEvent event.kind = none)
    (hspent : event.kind ≠ .budgetReported) (hpublished : event.kind ≠ .artifactsPublished)
    (h : (s.updateNode event.nodeID now change).2 = none) :
    Applied event now s (s.updateNode event.nodeID now change).1 := by
  unfold updateNode at h ⊢
  cases hget : s.nodes.get? event.nodeID with
  | none => rw [hget] at h; cases h
  | some node =>
    refine ⟨fun nodeID => ?_, rfl, rfl, by rw [hplan]; rfl, by rw [spentAfter, if_neg hspent]; rfl,
      by rw [artifactsAfter, if_neg hpublished]; rfl,
      by simp only [approvalAfter, hplan, if_neg hkind]; rfl,
      by simp only [blockedAtAfter, hplan]; rfl,
      rfl, fun _ => by unfold nodeStatus; rw [hget]; rfl, fun hexpanded => absurd hexpanded hkind⟩
    show (s.nodes.insert event.nodeID (change node)).get? nodeID = _
    rw [get?_insert, nodeAfter, hchange]
    split_ifs with hid
    · rw [nodeStatus, hid, hget, Option.map_some]
    · rfl

theorem updateNodeAndPlan_applied (hkind : event.kind ≠ .planExpanded)
    (hchange : changedNode event now = if event.nodeID = "" then id else change)
    (hplan : reducerPlanLifecycleForEvent event.kind = none)
    (hnode : reducerNodeLifecycleForEvent event.kind = none)
    (hretry : event.kind ≠ .nodeRetryScheduled) (hstatus : ∀ status, plan status =
      { status with
        spentCents := spentAfter event status.spentCents
        artifacts := artifactsAfter event status.artifacts })
    (h : (s.updateNodeAndPlan event.nodeID now change plan).2 = none) :
    Applied event now s (s.updateNodeAndPlan event.nodeID now change plan).1 := by
  have hgate : s.status.approval = approvalAfter event now s.status.approval ∧
      s.status.blockedAt = blockedAtAfter event now s.status.blockedAt := by
    simp [approvalAfter, blockedAtAfter, hplan, if_neg hkind]
  unfold updateNodeAndPlan at h ⊢
  rw [hstatus] at h ⊢
  by_cases hempty : event.nodeID = ""
  · rw [if_pos hempty]
    rw [if_pos hempty] at hchange
    refine ⟨fun nodeID => ?_, rfl, rfl, by rw [hplan]; rfl, rfl, rfl, hgate.1, hgate.2, rfl,
      fun hsome => ?_, fun hexpanded => absurd hexpanded hkind⟩
    · rw [nodeAfter, if_neg hkind, hchange, Option.map_id]
      exact (ite_self _).symm
    rcases hsome with hsome | hsome
    · rw [hnode] at hsome
      cases hsome
    · exact absurd hsome hretry
  · rw [if_neg hempty] at hchange h ⊢
    cases hget : s.nodes.get? event.nodeID with
    | none => rw [hget] at h; cases h
    | some node =>
      refine ⟨fun nodeID => ?_, rfl, rfl, by rw [hplan]; rfl, rfl, rfl, hgate.1, hgate.2, rfl,
        fun _ => by unfold nodeStatus; rw [hget]; rfl, fun hexpanded => absurd hexpanded hkind⟩
      show (s.nodes.insert event.nodeID (change node)).get? nodeID = _
      rw [get?_insert, nodeAfter, hchange]
      split_ifs with hid
      · rw [nodeStatus, hid, hget, Option.map_some]
      · rfl

theorem expand_applied (hkind : event.kind = .planExpanded)
    (h : (s.expand event.expansion now).2 = none) :
    Applied event now s (s.expand event.expansion now).1 := by
  unfold expand at h ⊢
  split_ifs at h ⊢ with hempty
  cases hexpand : expandNodes now s.nodes event.expansion.nodes with
  | mk nodes failed =>
    cases failed with
    | some err => rw [hexpand] at h; cases h
    | none =>
      obtain ⟨hfresh, hlookup⟩ := expandNodes_ok hexpand
      refine ⟨fun nodeID => ?_, rfl, rfl, by rw [hkind]; rfl, by rw [spentAfter, hkind]; rfl,
        by rw [artifactsAfter, hkind]; rfl, by rw [approvalAfter, hkind]; rfl,
        by rw [blockedAtAfter, hkind]; rfl, rfl, fun hsome => ?_, fun _ => hfresh⟩
      · rw [nodeAfter, if_pos hkind]
        exact hlookup nodeID
      · rw [hkind] at hsome
        rcases hsome with hsome | hsome <;> cases hsome

theorem applyPlanEvent_applied {lifecycle : PlanLifecycle}
    (hplan : reducerPlanLifecycleForEvent event.kind = some lifecycle) :
    Applied event now s ((s.applyPlanEvent lifecycle event now).commit now) := by
  have hnode : reducerNodeLifecycleForEvent event.kind = none ∧
      event.kind ≠ .nodeRetryScheduled ∧ event.kind ≠ .planExpanded ∧
      event.kind ≠ .budgetReported ∧ event.kind ≠ .artifactsPublished ∧
      changedNode event now = id := by
    cases hkind : event.kind <;> rw [hkind] at hplan <;> try cases hplan
    all_goals
      refine ⟨rfl, nofun, nofun, nofun, nofun, ?_⟩
      funext node
      simp [changedNode, hkind, reducerNodeLifecycleForEvent]
  obtain ⟨hnode, hretry, hexpanded, hbudget, hpublished, hchange⟩ := hnode
  refine ⟨fun nodeID => ?_, rfl, rfl, by rw [hplan]; rfl, by rw [spentAfter, if_neg hbudget]; rfl,
    by rw [artifactsAfter, if_neg hpublished]; rfl, by rw [approvalAfter, hplan]; rfl,
    by rw [blockedAtAfter, hplan]; rfl, rfl, fun hsome => ?_, fun hkind => absurd hkind hexpanded⟩
  · rw [nodeAfter, if_neg hexpanded, hchange, Option.map_id]
    exact (ite_self _).symm
  rcases hsome with hsome | hsome
  · rw [hnode] at hsome
    cases hsome
  · exact absurd hsome hretry

theorem apply_applied (h : (s.apply clock event).2 = none) :
    Applied event (eventTime clock event) s (s.apply clock event).1 := by
  unfold apply at h ⊢
  generalize eventTime clock event = now at h ⊢
  have htransition : ∀ lifecycle, reducerNodeLifecycleForEvent event.kind = some lifecycle →
      (s.transitionNode event.nodeID lifecycle event now).2 = none →
      Applied event now s (s.transitionNode event.nodeID lifecycle event now).1 := by
    intro lifecycle hnode hok
    have hkinds : event.kind ≠ .planExpanded ∧ event.kind ≠ .budgetReported ∧
        event.kind ≠ .artifactsPublished ∧ reducerPlanLifecycleForEvent event.kind = none ∧
        changedNode event now = fun node => transitionedNode node lifecycle event now := by
      cases hkind : event.kind <;> rw [hkind] at hnode <;> cases hnode
      all_goals
        refine ⟨nofun, nofun, nofun, rfl, ?_⟩
        funext node
        simp [changedNode, hkind, reducerNodeLifecycleForEvent]
    obtain ⟨hexpanded, hbudget, hpublished, hplan, hchange⟩ := hkinds
    exact updateNode_applied hexpanded hchange hplan hbudget hpublished hok
  cases hkind : event.kind with
  | planExpanded =>
    simp only [hkind] at h ⊢
    exact expand_applied hkind h
  | nodeRetryScheduled =>
    simp only [hkind] at h ⊢
    exact updateNode_applied (by simp [hkind]) (by funext node; simp [changedNode, hkind])
      (by rw [hkind]; rfl) (by simp [hkind]) (by simp [hkind]) h
  | nodeInputResolved | capabilitySelected | conditionsEvaluated | artifactsPublished
  | budgetReported =>
    simp only [hkind, reportBudget] at h ⊢
    try split_ifs at h ⊢
    refine updateNodeAndPlan_applied (by simp [hkind]) ?_ (by rw [hkind]; rfl)
      (by rw [hkind]; rfl) (by simp [hkind])
      (fun _ => by simp [spentAfter, artifactsAfter, hkind]) h
    funext node
    simp only [changedNode, hkind]
    split_ifs <;> rfl
  | planStarted | planBlocked | planApproved | planRejected | planSucceeded | planFailed
  | planCanceled =>
    exact applyPlanEvent_applied (by rw [hkind]; rfl)
  | nodeReady | nodeStarted | nodeSucceeded | nodeFailed | nodeSkipped | nodeCanceled =>
    simp only [hkind] at h ⊢
    exact htransition _ (by rw [hkind]; rfl) h

theorem Failed.same (hsame : s' = s) (hunknown : (reducerNodeLifecycleForEvent event.kind).isSome ∨
      event.kind = .nodeRetryScheduled → s.nodeStatus event.nodeID = none) :
    Failed event now s s' := by
  subst hsame
  exact ⟨rfl, fun _ => rfl, fun _ => .inl rfl, rfl, hunknown⟩

theorem updateNode_failed (h : (s.updateNode nodeID now change).2 = some err) :
    (s.updateNode nodeID now change).1 = s ∧ s.nodeStatus nodeID = none := by
  unfold updateNode at h ⊢
  split at h
  · next hget => exact ⟨rfl, hget⟩
  · cases h

theorem updateNodeAndPlan_failed (h : (s.updateNodeAndPlan nodeID now change plan).2 = some err) :
    (s.updateNodeAndPlan nodeID now change plan).1 = s := by
  unfold updateNodeAndPlan at h ⊢
  split_ifs at h ⊢
  cases hget : s.nodes.get? nodeID with
  | none => rfl
  | some node => rw [hget] at h; cases h

theorem expand_failed (hkind : event.kind = .planExpanded)
    (h : (s.expand event.expansion now).2 = some err) :
    Failed event now s (s.expand event.expansion now).1 := by
  unfold expand at h ⊢
  split_ifs at h ⊢ with hempty
  · exact .same rfl (by simp [hkind, reducerNodeLifecycleForEvent])
  cases hexpand : expandNodes now s.nodes event.expansion.nodes with
  | mk nodes failed =>
    cases failed with
    | none => rw [hexpand] at h; cases h
    | some err' =>
      refine ⟨rfl, fun hother => absurd hkind hother, expandNodes_error hexpand, ?_,
        by simp [hkind, reducerNodeLifecycleForEvent]⟩
      have hblank : (expandNodes now s.nodes event.expansion.nodes).1.get? "" = _ :=
        expandNodes_blank s.nodes event.expansion.nodes
      rw [hexpand] at hblank
      exact hblank

theorem apply_refused (h : (s.apply clock event).2 = some err) (hkind : event.kind ≠ .planExpanded) :
    (s.apply clock event).1 = s ∧ ((reducerNodeLifecycleForEvent event.kind).isSome ∨
      event.kind = .nodeRetryScheduled → s.nodeStatus event.nodeID = none) := by
  unfold apply at h ⊢
  generalize eventTime clock event = now at h ⊢
  cases hevent : event.kind with
  | planExpanded => exact absurd hevent hkind
  | nodeRetryScheduled | nodeReady | nodeStarted | nodeSucceeded | nodeFailed | nodeSkipped
  | nodeCanceled =>
    simp only [hevent] at h ⊢
    obtain ⟨hsame, hnone⟩ := updateNode_failed h
    exact ⟨hsame, fun _ => hnone⟩
  | nodeInputResolved | capabilitySelected | conditionsEvaluated | artifactsPublished =>
    simp only [hevent] at h ⊢
    exact ⟨updateNodeAndPlan_failed h, by simp [reducerNodeLifecycleForEvent]⟩
  | budgetReported =>
    simp only [hevent] at h ⊢
    refine ⟨?_, by simp [reducerNodeLifecycleForEvent]⟩
    unfold reportBudget at h ⊢
    split_ifs at h ⊢
    · rfl
    · exact updateNodeAndPlan_failed h
  | planStarted | planBlocked | planApproved | planRejected | planSucceeded | planFailed
  | planCanceled =>
    simp only [hevent] at h
    cases h

theorem apply_failed (h : (s.apply clock event).2 = some err) :
    Failed event (eventTime clock event) s (s.apply clock event).1 := by
  by_cases hkind : event.kind = .planExpanded
  · unfold apply at h ⊢
    simp only [hkind] at h ⊢
    exact expand_failed hkind h
  · obtain ⟨hsame, hunknown⟩ := apply_refused h hkind
    exact .same hsame hunknown

/-! ### What a change of a node keeps -/

variable {node : PlanNodeStatus}

def lifecycleAfter (kind : EventKind) (lifecycle : NodeLifecycle) : NodeLifecycle :=
  match kind with
  | .nodeRetryScheduled => .ready
  | _ => (reducerNodeLifecycleForEvent kind).getD lifecycle

theorem lifecycleAfter_eq (hnode : reducerNodeLifecycleForEvent kind = none)
    (hretry : kind ≠ .nodeRetryScheduled) (lifecycle : NodeLifecycle) :
    lifecycleAfter kind lifecycle = lifecycle := by
  cases kind with
  | nodeRetryScheduled => exact absurd rfl hretry
  | _ => first | rfl | cases hnode

theorem lifecycleAfter_of_some {next : NodeLifecycle}
    (hnode : reducerNodeLifecycleForEvent kind = some next) (lifecycle : NodeLifecycle) :
    lifecycleAfter kind lifecycle = next := by
  cases kind <;> cases hnode <;> rfl

theorem lifecycleAfter_running (h : lifecycleAfter kind lifecycle = .running) :
    kind = .nodeStarted ∨ lifecycle = .running := by
  cases kind <;> first | exact .inl rfl | exact .inr h | cases h

theorem lifecycleAfter_open
    (h : lifecycleAfter kind lifecycle = .pending ∨ lifecycleAfter kind lifecycle = .ready) :
    kind = .nodeReady ∨ kind = .nodeRetryScheduled ∨ lifecycle = .pending ∨ lifecycle = .ready := by
  cases kind <;> first
    | exact .inl rfl
    | exact .inr (.inl rfl)
    | exact .inr (.inr h)
    | rcases h with h | h <;> cases h

theorem lifecycleAfter_unblocked
    (h : lifecycle ≠ .blocked) : lifecycleAfter kind lifecycle ≠ .blocked := by
  cases kind <;> first | exact h | nofun

theorem transitionedNode_fields (lifecycle : NodeLifecycle) :
    (transitionedNode node lifecycle event now).lifecycleState = lifecycle ∧
      (transitionedNode node lifecycle event now).nodeID = node.nodeID ∧
      (transitionedNode node lifecycle event now).artifacts = node.artifacts ++ event.artifacts ∧
      (transitionedNode node lifecycle event now).runID =
        if event.runID ≠ "" then event.runID else node.runID := by
  cases lifecycle <;> simp [transitionedNode]
  split_ifs <;> exact ⟨rfl, rfl, rfl, rfl⟩

theorem transitionedNode_attempts (h : lifecycle ≠ .running) :
    (transitionedNode node lifecycle event now).attempts = node.attempts := by
  cases lifecycle <;> simp [transitionedNode]
  exact absurd rfl h

@[simp] theorem changedNode_nodeID : (changedNode event now node).nodeID = node.nodeID := by
  cases hkind : event.kind <;> simp [changedNode, hkind, reducerNodeLifecycleForEvent,
    transitionedNode_fields, retriedNode]
  all_goals split_ifs <;> rfl

theorem changedNode_lifecycle :
    (changedNode event now node).lifecycleState =
      lifecycleAfter event.kind node.lifecycleState := by
  cases hkind : event.kind <;> simp [changedNode, hkind, reducerNodeLifecycleForEvent,
    transitionedNode_fields, retriedNode, lifecycleAfter]
  all_goals split_ifs <;> rfl

theorem changedNode_attempts (hstarted : event.kind ≠ .nodeStarted)
    (hretry : event.kind ≠ .nodeRetryScheduled) :
    (changedNode event now node).attempts = node.attempts := by
  cases hkind : event.kind <;> simp [changedNode, hkind, reducerNodeLifecycleForEvent]
  all_goals first
    | exact absurd hkind hstarted
    | exact absurd hkind hretry
    | exact transitionedNode_attempts nofun
    | split_ifs <;> rfl

theorem changedNode_artifacts : node.artifacts ⊆ (changedNode event now node).artifacts := by
  cases hkind : event.kind <;> simp [changedNode, hkind, reducerNodeLifecycleForEvent,
    transitionedNode_fields]
  all_goals first
    | exact subset_append_left _ _
    | exact Subset.refl _
    | split_ifs <;> simp

theorem changedNode_published (hkind : event.kind = .artifactsPublished)
    (hnode : event.nodeID ≠ "") :
    (changedNode event now node).artifacts = node.artifacts ++ event.artifacts := by
  simp [changedNode, hkind, if_neg hnode]

theorem changedNode_plan (h : (reducerPlanLifecycleForEvent event.kind).isSome = true) :
    changedNode event now node = node := by
  obtain ⟨lifecycle, hplan⟩ := Option.isSome_iff_exists.mp h
  cases hkind : event.kind <;> rw [hkind] at hplan <;> try cases hplan
  all_goals simp [changedNode, hkind, reducerNodeLifecycleForEvent]

theorem changedNode_runID (hretry : event.kind ≠ .nodeRetryScheduled) :
    (changedNode event now node).runID =
      if (reducerNodeLifecycleForEvent event.kind).isSome = true ∧ event.runID ≠ "" then event.runID
      else node.runID := by
  cases hkind : event.kind <;> simp [changedNode, hkind, reducerNodeLifecycleForEvent,
    transitionedNode_fields]
  all_goals first
    | exact absurd hkind hretry
    | split_ifs <;> rfl

end Transitions

/-! ## Gates -/

section Gates

variable {event : StateEvent} {time : Time} {approval : Option PlanApprovalStatus}
  {current : PlanApprovalStatus} {approved : Bool}

theorem recordPlanApprovalDecision_decided
    (h : recordPlanApprovalDecision approval approved event time = some current) :
    current.lifecycleState ≠ .pending := by
  unfold recordPlanApprovalDecision at h
  dsimp only at h
  split at h
  · cases h
  split_ifs at h with hdecided <;> cases h
  · exact hdecided
  · exact nofun
  · exact nofun

theorem approvalAfter_pending (hkind : event.kind ≠ .planBlocked)
    (hafter : approvalAfter event time approval = some current)
    (hpending : current.lifecycleState = .pending) :
    approval = some current ∧ reducerPlanLifecycleForEvent event.kind = none := by
  unfold approvalAfter applyApprovalGateEvent at hafter
  cases hevent : event.kind with
  | planBlocked => exact absurd hevent hkind
  | planApproved | planRejected =>
    rw [hevent] at hafter
    exact absurd hpending (recordPlanApprovalDecision_decided hafter)
  | planExpanded =>
    rw [hevent] at hafter
    cases approval with
    | none => cases hafter
    | some current =>
      cases hafter
      cases hpending
  | planStarted | planSucceeded | planFailed | planCanceled =>
    rw [hevent] at hafter
    cases approval with
    | none => cases hafter
    | some current =>
      simp only [reducerPlanLifecycleForEvent] at hafter
      split_ifs at hafter with hopen
      cases hafter
      exact absurd ⟨by rintro ⟨⟩, hpending⟩ hopen
  | _ =>
    rw [hevent] at hafter
    exact ⟨hafter, rfl⟩

end Gates

/-! ## Names -/

def Named : Prop := ∀ nodeID status, s.nodeStatus nodeID = some status → status.nodeID = nodeID

variable {now : Time} {s : State} {event : StateEvent}

theorem Applied.named (h : Applied event now s s') (hnamed : s.Named) : s'.Named := by
  intro nodeID status hstatus
  rw [h.lookup, nodeAfter] at hstatus
  split_ifs at hstatus with hexpanded hid
  · rcases Option.or_eq_some_iff.mp hstatus with hold | ⟨-, hnew⟩
    · exact hnamed nodeID status hold
    · obtain ⟨node, hfind, rfl⟩ := Option.map_eq_some_iff.mp hnew
      have hid : node.nodeID = nodeID := by simpa using find?_some hfind
      exact hid
  · obtain ⟨before, hbefore, rfl⟩ := Option.map_eq_some_iff.mp hstatus
    rw [changedNode_nodeID]
    exact hnamed nodeID before hbefore
  · exact hnamed nodeID status hstatus

theorem Failed.named (h : Failed event now s s') (hnamed : s.Named) : s'.Named := by
  intro nodeID status hstatus
  rcases h.lookup nodeID with hsame | ⟨-, node, -, hid, hnew⟩
  · exact hnamed nodeID status (hsame ▸ hstatus)
  · rw [hnew] at hstatus
    cases hstatus
    exact hid

theorem find?_sortedNodeStatuses (hnamed : s.Named) (nodeID : String) :
    ((sortedNodeStatuses s.nodes).find? fun node => node.nodeID = nodeID) =
      s.nodeStatus nodeID := by
  cases hfind : (sortedNodeStatuses s.nodes).find? fun node => node.nodeID = nodeID with
  | some found =>
    obtain ⟨key, hkey⟩ := (mem_values_iff _ _).mp (mem_of_find?_eq_some hfind)
    have hid : found.nodeID = nodeID := by simpa using find?_some hfind
    rw [← hid, hnamed key found hkey]
    exact hkey.symm
  | none =>
    cases hget : s.nodeStatus nodeID with
    | none => rfl
    | some status =>
      have hne := find?_eq_none.mp hfind status ((mem_values_iff _ _).mpr ⟨nodeID, hget⟩)
      simp [hnamed nodeID status hget] at hne

theorem mem_listed {status : PlanNodeStatus} (hlisted : s.Lists) :
    status ∈ s.status.nodes ↔ ∃ nodeID, s.nodeStatus nodeID = some status := by
  rw [hlisted]
  exact mem_values_iff _ _

theorem nodeStatus_of_listed (hnamed : s.Named) (hlisted : s.Lists) {status : PlanNodeStatus}
    (hmem : status ∈ s.status.nodes) : s.nodeStatus status.nodeID = some status := by
  obtain ⟨key, hkey⟩ := (mem_listed hlisted).mp hmem
  rw [hnamed key status hkey]
  exact hkey

theorem sortedNodeStatuses_ids (hnamed : s.Named) :
    (sortedNodeStatuses s.nodes).map PlanNodeStatus.nodeID = s.nodes.keys := by
  rw [sortedNodeStatuses, values, map_map]
  refine map_congr_left fun entry hentry => ?_
  exact hnamed _ _ ((mem_entries_iff s.nodes entry.1 entry.2).mp hentry)

theorem nodup_listed (hnamed : s.Named) (hlisted : s.Lists) :
    (s.status.nodes.map PlanNodeStatus.nodeID).Nodup := by
  rw [hlisted, sortedNodeStatuses_ids hnamed]
  exact keys_nodup _

/-! ## Snapshots -/

variable {spec : RunPlanSpec} {listed : List PlanNodeStatus} {expected : List String}

theorem expectedPlanNodeSet_eq :
    (∀ expected, expectedPlanNodeSet spec = .ok expected →
        expected = spec.nodes.map PlanNodeSpec.nodeID) ∧
      ((∀ node ∈ spec.nodes, node.nodeID ≠ "") → (spec.nodes.map PlanNodeSpec.nodeID).Nodup →
        expectedPlanNodeSet spec = .ok (spec.nodes.map PlanNodeSpec.nodeID)) := by
  have hfold : ∀ (nodes : List PlanNodeSpec) (done : List String),
      let fold := nodes.foldlM (fun expected node =>
        if node.nodeID = "" then
          (errorf .invalidRunPlan "node id is required" : Except Err (List String))
        else if node.nodeID ∈ expected then
          errorf .invalidRunPlan ("duplicate node " ++ quoted node.nodeID)
        else .ok (expected ++ [node.nodeID])) done
      (∀ expected, fold = .ok expected → expected = done ++ nodes.map PlanNodeSpec.nodeID) ∧
        ((∀ node ∈ nodes, node.nodeID ≠ "") → (done ++ nodes.map PlanNodeSpec.nodeID).Nodup →
          fold = .ok (done ++ nodes.map PlanNodeSpec.nodeID)) := by
    intro nodes
    induction nodes with
    | nil =>
      intro done
      simp only [map_nil, append_nil]
      exact ⟨fun _ hdone => (Except.ok.inj hdone).symm, fun _ _ => rfl⟩
    | cons node rest ih =>
      intro done
      rw [map_cons, append_cons, foldlM_cons]
      constructor
      · intro expected hdone
        split_ifs at hdone
        · cases hdone
        · cases hdone
        · exact (ih _).1 expected hdone
      · intro hnamed hnodup
        obtain ⟨hfirst, hrest⟩ := forall_mem_cons.mp hnamed
        have hnew : node.nodeID ∉ done := fun hmem =>
          disjoint_of_nodup_append hnodup.of_append_left hmem (mem_singleton.mpr rfl)
        rw [if_neg hfirst, if_neg hnew]
        exact (ih _).2 hrest hnodup
  exact hfold spec.nodes []

theorem restoreLoop_ok
    (h : listed.foldlM (fun nodes node => restorePlanNodeStatus nodes expected node) nodes =
      .ok nodes') (nodeID : String) :
    nodes'.get? nodeID = (nodes.get? nodeID).or (listed.find? fun node => node.nodeID = nodeID) ∧
      ∀ status ∈ listed, status.nodeID ∈ expected := by
  induction listed generalizing nodes with
  | nil =>
    cases h
    exact ⟨by simp, by simp⟩
  | cons node rest ih =>
    rw [foldlM_cons] at h
    obtain ⟨middle, hfirst, hrest⟩ := bind_ok h
    unfold restorePlanNodeStatus at hfirst
    split_ifs at hfirst with hempty hunknown hthere
    cases hfirst
    have hnone : nodes.get? node.nodeID = none := by
      simpa [SortedMap.contains] using hthere
    obtain ⟨hlookup, hmem⟩ := ih hrest
    constructor
    · rw [hlookup, get?_insert]
      by_cases hid : nodeID = node.nodeID
      · subst hid
        simp [hnone]
      · rw [if_neg hid, find?_cons_of_neg (by simpa using Ne.symm hid)]
    · intro status hstatus
      rcases mem_cons.mp hstatus with rfl | hstatus
      · exact hunknown
      · exact hmem status hstatus

/-- What a restored state has: the statuses of the snapshot under their ids, and the
plan's own fields. -/
structure Restored (spec : RunPlanSpec) (status : RunPlanStatus) (s : State) : Prop where
  lookup : ∀ nodeID, s.nodeStatus nodeID = status.nodes.find? fun node => node.nodeID = nodeID
  listed : s.status.nodes = sortedNodeStatuses s.nodes
  active : s.status.activeRunIDs = activeRuns s.status.nodes
  lifecycle : s.status.lifecycleState = status.lifecycleState
  spent : s.status.spentCents = status.spentCents
  artifacts : s.status.artifacts = status.artifacts
  approval : s.status.approval = status.approval
  blockedAt : s.status.blockedAt = status.blockedAt
  planID : s.status.planID = spec.planID
  ids : ∀ nodeID, (s.nodeStatus nodeID).isSome = true ↔ nodeID ∈ spec.nodes.map PlanNodeSpec.nodeID

variable {status : RunPlanStatus}

theorem newStateFromStatus_restored
    (h : newStateFromStatus spec status = .ok s) : Restored spec status s := by
  unfold newStateFromStatus at h
  by_cases hplan : spec.planID = ""
  · rw [if_pos hplan] at h
    cases h
  dsimp only at h
  generalize hrestored : (if status.planID = "" then
    { status with planID := spec.planID } else status) = restored at h
  have hfields : restored.nodes = status.nodes ∧ restored.lifecycleState = status.lifecycleState ∧
      restored.spentCents = status.spentCents ∧ restored.artifacts = status.artifacts ∧
      restored.approval = status.approval ∧ restored.blockedAt = status.blockedAt := by
    rw [← hrestored]
    split_ifs <;> exact ⟨rfl, rfl, rfl, rfl, rfl, rfl⟩
  obtain ⟨hlisted, hlifecycle, hspent, hartifacts, happroval, hblocked⟩ := hfields
  split_ifs at h with hsame
  obtain ⟨expected, hexpected, h⟩ := bind_ok h
  obtain ⟨nodes, hnodes, h⟩ := bind_ok h
  cases h
  obtain ⟨restoredNodes, hloop, hnodes⟩ := bind_ok hnodes
  have hall : nodes = restoredNodes ∧ ∀ nodeID ∈ expected, nodes.contains nodeID = true := by
    split at hnodes
    · cases hnodes
    · rename_i hfind
      cases hnodes
      exact ⟨rfl, fun nodeID hmem => by simpa using find?_eq_none.mp hfind nodeID hmem⟩
  obtain ⟨rfl, hall⟩ := hall
  have hlookup : ∀ nodeID, nodes.get? nodeID =
      status.nodes.find? fun node => node.nodeID = nodeID := by
    intro nodeID
    rw [(restoreLoop_ok hloop nodeID).1, hlisted, get?_empty, Option.none_or]
  refine ⟨hlookup, rfl, rfl, hlifecycle, hspent, hartifacts, happroval, hblocked, not_not.mp hsame,
    fun nodeID => ?_⟩
  rw [← expectedPlanNodeSet_eq.1 expected hexpected]
  constructor
  · intro hsome
    obtain ⟨found, hfound⟩ := Option.isSome_iff_exists.mp hsome
    have hfind : (status.nodes.find? fun node => node.nodeID = nodeID) = some found :=
      (hlookup nodeID).symm.trans hfound
    have hid : found.nodeID = nodeID := by simpa using find?_some hfind
    rw [← hid]
    exact (restoreLoop_ok hloop nodeID).2 found (hlisted ▸ mem_of_find?_eq_some hfind)
  · exact fun hmem => hall nodeID hmem

theorem Restored.named (h : Restored spec status s) : s.Named := by
  intro nodeID found hfound
  rw [h.lookup] at hfound
  simpa using find?_some hfound

theorem restoreLoop_total
    (hlisted : ∀ status ∈ listed, status.nodeID ≠ "" ∧ status.nodeID ∈ expected ∧
      nodes.get? status.nodeID = none) (hnodup : (listed.map PlanNodeStatus.nodeID).Nodup) :
    ∃ nodes', listed.foldlM (fun nodes node => restorePlanNodeStatus nodes expected node) nodes =
      .ok nodes' := by
  induction listed generalizing nodes with
  | nil => exact ⟨nodes, rfl⟩
  | cons node rest ih =>
    obtain ⟨⟨hnamed, hexpected, hnone⟩, hrest⟩ := forall_mem_cons.mp hlisted
    obtain ⟨hnew, hnodup⟩ := nodup_cons.mp hnodup
    have hstep : restorePlanNodeStatus nodes expected node =
        .ok (nodes.insert node.nodeID node) := by
      rw [restorePlanNodeStatus, if_neg hnamed, if_neg (not_not.mpr hexpected),
        if_neg (by simp [SortedMap.contains, hnone])]
    rw [foldlM_cons, hstep]
    refine ih (fun status hmem => ?_) hnodup
    obtain ⟨hnamed', hexpected', hnone'⟩ := hrest status hmem
    refine ⟨hnamed', hexpected', ?_⟩
    rw [get?_insert_ne]
    · exact hnone'
    · intro hid
      exact hnew (hid ▸ mem_map_of_mem hmem)

theorem newStateFromStatus_total (hplan : spec.planID ≠ "")
    (hsame : status.planID = spec.planID) (hnamed : ∀ node ∈ spec.nodes, node.nodeID ≠ "")
    (hnodup : (spec.nodes.map PlanNodeSpec.nodeID).Nodup)
    (hlisted : (status.nodes.map PlanNodeStatus.nodeID).Nodup)
    (hids : ∀ nodeID, nodeID ∈ status.nodes.map PlanNodeStatus.nodeID ↔
      nodeID ∈ spec.nodes.map PlanNodeSpec.nodeID) :
    ∃ s, newStateFromStatus spec status = .ok s := by
  have hexpected : ∀ status' ∈ status.nodes, status'.nodeID ≠ "" ∧
      status'.nodeID ∈ spec.nodes.map PlanNodeSpec.nodeID ∧
      (empty : NodeMap).get? status'.nodeID = none := by
    intro status' hmem
    have hdeclared := (hids status'.nodeID).mp (mem_map_of_mem hmem)
    obtain ⟨node, hnode, hid⟩ := mem_map.mp hdeclared
    exact ⟨hid ▸ hnamed node hnode, hdeclared, get?_empty _⟩
  obtain ⟨nodes, hnodes⟩ := restoreLoop_total hexpected hlisted
  have hfound : (spec.nodes.map PlanNodeSpec.nodeID).find? (fun nodeID => !nodes.contains nodeID) =
      none := by
    refine find?_eq_none.mpr fun nodeID hmem => ?_
    obtain ⟨status', hmem', hid⟩ := mem_map.mp ((hids nodeID).mpr hmem)
    rw [SortedMap.contains, (restoreLoop_ok hnodes nodeID).1]
    have hsome : (status.nodes.find? fun node => node.nodeID = nodeID).isSome = true :=
      find?_isSome.mpr ⟨status', hmem', by simpa using hid⟩
    simp [hsome]
  have hkept : status.planID ≠ "" := fun hempty => hplan (hsame ▸ hempty)
  unfold newStateFromStatus
  simp only [if_neg hplan, if_neg hkept]
  rw [if_neg (not_not.mpr hsame), expectedPlanNodeSet_eq.2 hnamed hnodup]
  unfold restorePlanNodeStatuses
  simp only [bind, Except.bind, hnodes, hfound]
  exact ⟨_, rfl⟩

/-! ## A new plan -/

theorem newState_lookup
    {status : PlanNodeStatus} (h : (newState spec now).nodeStatus nodeID = some status) :
    ∃ node ∈ spec.nodes, node.nodeID = nodeID ∧ status = pendingNodeStatus node now := by
  rw [nodeStatus, newState, get?_foldl_insert, get?_empty, Option.or_none] at h
  obtain ⟨node, hfind, rfl⟩ := Option.map_eq_some_iff.mp h
  have hid : node.nodeID = nodeID := by simpa using find?_some hfind
  exact ⟨node, mem_reverse.mp (mem_of_find?_eq_some hfind), hid, rfl⟩

theorem newState_ids (spec : RunPlanSpec) (now : Time) (nodeID : String) :
    ((newState spec now).nodeStatus nodeID).isSome = true ↔
      nodeID ∈ spec.nodes.map PlanNodeSpec.nodeID := by
  rw [nodeStatus, newState, ← mem_keys_iff, mem_keys_foldl_insert]
  simp [SortedMap.keys, empty]

theorem newState_named (spec : RunPlanSpec) (now : Time) : (newState spec now).Named := by
  intro nodeID status hstatus
  obtain ⟨node, -, hid, rfl⟩ := newState_lookup hstatus
  exact hid

theorem newState_active (spec : RunPlanSpec) (now : Time) :
    (newState spec now).status.activeRunIDs = activeRuns (newState spec now).status.nodes := by
  refine (map_eq_nil_iff.mpr (filter_eq_nil_iff.mpr fun node hmem => ?_)).symm
  obtain ⟨nodeID, hget⟩ := (mem_values_iff _ _).mp hmem
  obtain ⟨declared, -, -, rfl⟩ := newState_lookup hget
  simp [pendingNodeStatus]

end State

end AgentOS.Plan
