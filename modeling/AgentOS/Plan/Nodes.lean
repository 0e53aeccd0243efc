import AgentOS.Plan.Machine

/-!
# Node runs of the plan workflow

The procedures of `agentos/temporal/plan_workflow.go` that start a node, follow
its run and record how it ends, bottom up, each under the name it has there.  A
Go function that returns an error is a `Workflow` that fails; `if err := f();
err != nil` with a branch of its own is `Prog.attempt`.
-/

namespace AgentOS.Plan

open Kit Prog

variable (E : Host)

/-! ## State events -/

def lifecycleForEvent (status : RunPlanStatus) (event : StateEvent) : EventLifecycle :=
  if event.nodeID = "" then .plan status.lifecycleState
  else
    match status.nodes.find? fun node => node.nodeID = event.nodeID with
    | some node => .node node.lifecycleState
    | none => .unknown

def stamped (l : Locals) (time : Time) (event : StateEvent) : StateEvent :=
  { event with
    at_ := if event.at_.isZero then time else event.at_
    previousLifecycleState := lifecycleForEvent l.state.status event }

/-- `applyPlanStateEvent`.  `spec` is the spec to persist, which is the current
one except in an expansion. -/
def applyPlanStateEvent (spec : RunPlanSpec) (event : StateEvent) : Workflow Unit := do
  let time ← now E
  let before ← state
  let event := stamped before time event
  emit (.apply event)
  orErr (before.state.apply event.at_ event).2
  let after ← state
  let event := { event with
    nextLifecycleState := lifecycleForEvent after.state.status event }
  -- `PlanEventFromStateEvent`; the time is set and every kind has an event type.
  ofExcept (validateRunPlanScope spec)
  let key ← ofExcept (stateEventIdempotencyKey E.digest spec.planID event)
  let answer ← ask E E.persist (.persist spec after.state.status event key)
  orErr answer

def applyEvent (event : StateEvent) : Workflow Unit := do
  let l ← state
  applyPlanStateEvent E l.spec event

/-! ## Node attempts -/

def maxNodeAttempts (policy : NodePolicy) : Int :=
  if int32 policy.maxAttempts ≤ 0 then 1 else int32 policy.maxAttempts

def nextNodeAttempt (state : State) (nodeID : String) : Int :=
  match state.nodeStatus nodeID with
  | none => 1
  | some status => int32 (status.attempts + 1)

def nodeRunIDForAttempt (baseRunID : String) (attempt : Int) : String :=
  if attempt ≤ 1 then baseRunID
  else baseRunID ++ "-attempt-" ++ toString attempt

def nodeForAttempt (planID : String) (node : PlanNodeSpec) (attempt : Int) :
    Except Err PlanNodeSpec :=
  if attempt ≤ 0 then errorf .invalidRunPlan "node start attempt must be positive"
  else do
    let key ← nodeStartIdempotencyKey E.digest planID node.nodeID attempt
    .ok { node with run := { node.run with
      runID := nodeRunIDForAttempt node.run.runID attempt
      idempotencyKey := key } }

def applyNodeAttemptFailure (node : PlanNodeSpec) (runID reason : String) : Workflow Unit := do
  let l ← state
  let reason := if reason = "" then "node attempt failed" else reason
  match l.state.nodeStatus node.nodeID with
  | none => fail (unknownNode node.nodeID)
  | some current =>
      let failedAttempt := if current.attempts ≤ 0 then 1 else current.attempts
      if failedAttempt < maxNodeAttempts node.policy then
        applyEvent E
          { kind := .nodeRetryScheduled
            nodeID := node.nodeID
            runID := runID
            reason := reason
            attempt := int32 (failedAttempt + 1) }
      else
        applyEvent E
          { kind := .nodeFailed, nodeID := node.nodeID, runID := runID, reason := reason }

/-! ## Terminal runs -/

def applyRunBudgetUsage (node : PlanNodeSpec) (status : RunStatus) : Workflow Unit :=
  if status.spentCents = 0 then pure ()
  else if status.spentCents < 0 then
    fail (.wrap .invalidRunPlan
      ("run " ++ quoted status.runID ++ " reported negative budget usage"))
  else
    applyEvent E
      { kind := .budgetReported
        nodeID := node.nodeID
        runID := status.runID
        budgetDelta := status.spentCents }

/-- The lookup of a node's capability in `controlsByNode` and
`capabilitiesByNode`.  A node without a capability has none. -/
def nodeCapability (v : Validator) (node : PlanNodeSpec) : Except Err (Option Capability) :=
  match v.capabilities with
  | none => .ok none
  | some catalog =>
      if node.capability = "" then .ok none
      else do
        match ← catalog node.run.backend node.capability with
        | some capability => .ok (some capability)
        | none => errorf .capabilityNotFound ("node " ++ quoted node.nodeID ++ " capability " ++
              node.run.backend.kind.text ++ "/" ++ node.run.backend.name ++ "/" ++
              node.capability)

def newCapabilitySelectionTrace (capability : Capability) : CapabilitySelectionTrace where
  backend := capability.backend
  capability := capability.name
  signals := capability.signals
  controls := capability.controls
  hasInputSchema := capability.inputSchema ≠ ""
  hasOutputSchema := capability.outputSchema ≠ ""

/-- The controls and capability traces of a plan's nodes: `controlsByNode` and
`capabilitiesByNode` of the plan activities. -/
def nodeTables (v : Validator) (plan : ExecutablePlan) : Except Err ValidatePlanOutput := do
  let found ← plan.spec.nodes.mapM fun node => do
    let capability ← nodeCapability v node
    pure (node.nodeID, capability)
  .ok
    { plan := plan
      controlsByNode := found.map fun e => (e.1, (e.2.map Capability.controls).getD [])
      capabilitiesByNode := found.filterMap fun e =>
        e.2.map fun capability => (e.1, newCapabilitySelectionTrace capability) }

def validatePlanActivity (v : Validator) (spec : RunPlanSpec) : Except Err ValidatePlanOutput := do
  let plan ← v.validate spec
  nodeTables v plan

def evaluatePlanExpansionActivity (v : Validator) (spec : RunPlanSpec)
    (expansionCount : Int) (delta : Except Err (Option PlanDelta)) :
    Except Err (Option PlanExpansion) := do
  match ← delta with
  | none => .ok none
  | some delta =>
      let (next, plan) ← applyDelta v spec delta expansionCount
      let validation ← nodeTables v plan
      .ok (some { delta := delta, spec := next, validation := validation })

def applyPlanExpansion (node : PlanNodeSpec) (artifacts : List ArtifactRef) : Workflow Unit :=
  if !hasPlanDeltaArtifact artifacts then pure ()
  else do
    let l ← state
    let answer ← ask E
      (fun w => evaluatePlanExpansionActivity (E.validator w) l.spec l.expansionCount
        (E.nextPlanDelta w))
      (.evaluateExpansion node)
    let expanded ← ofExcept answer
    match expanded with
    | none => pure ()
    | some expansion =>
        applyPlanStateEvent E expansion.spec { kind := .planExpanded, expansion := expansion.delta }
        emit (.adoptExpansion expansion)

def applyNodeRunOutcome (node : PlanNodeSpec) (status : RunStatus)
    (artifacts : List ArtifactRef) : Workflow Unit :=
  match status.lifecycleState with
  | .completed | .succeeded =>
      match validateRequiredArtifacts node.outputs artifacts with
      | .error err => applyNodeAttemptFailure E node status.runID err.text
      | .ok () => do
          applyPlanExpansion E node artifacts
          applyEvent E { kind := .nodeSucceeded, nodeID := node.nodeID, runID := status.runID }
  | .failed => applyNodeAttemptFailure E node status.runID status.reason
  | .canceled =>
      applyEvent E
        { kind := .nodeCanceled
          nodeID := node.nodeID
          runID := status.runID
          reason := status.reason }
  | .other _ => pure ()

/-- `PublishPlanArtifactsActivity`, with the answer of the store and of the checks of the
payloads.  The store answers with the refs that it was given, and the keys that it is asked
with exist because plan, node and artifact have names. -/
def publishPlanArtifactsActivity (planID : String) (node : PlanNodeSpec) (status : RunStatus)
    (stored : Option Err) : Except Err (List ArtifactRef) := do
  let refs ← normalizeRunArtifacts planID node status
  if runSucceeded status.lifecycleState then
    validateArtifactsAgainstSpecs node.nodeID node.outputs refs
  match stored with
  | some err => .error err
  | none => .ok refs

def applyNodeRunTerminal (node : PlanNodeSpec) (status : RunStatus) : Workflow Unit := do
  applyRunBudgetUsage E node status
  let l ← state
  let published ← ask E
    (fun w => publishPlanArtifactsActivity l.spec.planID node status (E.publish w))
    (.publish node status)
  match published with
  | .error err =>
      applyEvent E
        { kind := .nodeFailed
          nodeID := node.nodeID
          runID := status.runID
          reason := err.text }
  | .ok artifacts => do
      if !artifacts.isEmpty then
        applyEvent E
          { kind := .artifactsPublished
            nodeID := node.nodeID
            runID := status.runID
            artifacts := artifacts }
      applyNodeRunOutcome E node status artifacts

/-! ## Starting a node -/

def nexusEndpointFor (peers : List (String × String)) (localEndpoint peer : String) :
    Except Err String :=
  if peer = "" then .ok localEndpoint
  else
    match mapGet peers peer with
    | some endpoint => .ok endpoint
    | none =>
        errorf .invalidRunPlan
          ("peer " ++ quoted peer ++ " has no Nexus endpoint in this deployment")

def validatePlanNodePeers (spec : RunPlanSpec) (peers : List (String × String)) : Except Err Unit :=
  checkEach (fun node =>
    match nexusEndpointFor peers "" node.peer with
    | .ok _ => .ok ()
    | .error err =>
        errorf .invalidRunPlan ("node " ++ quoted node.nodeID ++ ": " ++ err.text)) spec.nodes

def startPlanNodeViaNexus (R : PlanWorkflowRuntime) (node attemptNode : PlanNodeSpec)
    (attempt : Int) : Workflow Unit := do
  let l ← state
  let key ←
    if attemptNode.run.idempotencyKey = "" then
      ofExcept (nodeStartIdempotencyKey E.digest l.spec.planID node.nodeID attempt)
    else pure attemptNode.run.idempotencyKey
  let endpoint ← ofExcept (nexusEndpointFor R.nexusPeers R.nexusEndpoint node.peer)
  emit (.startNexus node.nodeID
    { attemptNode.run with
      accountID := l.spec.accountID
      projectID := l.spec.projectID
      idempotencyKey := key } endpoint)

/-- `resolvePlanNodeAttempt`: the node as `nodeForAttempt` leaves it and the node
of the attempt, or nothing when the failure of the attempt is recorded. -/
def resolvePlanNodeAttempt (node : PlanNodeSpec) (attempt : Int) :
    Workflow (Option (PlanNodeSpec × PlanNodeSpec)) := do
  let l ← state
  let node ← ofExcept (nodeForAttempt E l.spec.planID node attempt)
  let resolved ← ask E E.resolveInput (.resolveInput node)
  match resolved with
  | .error err => do
      applyNodeAttemptFailure E node node.run.runID
        ("resolve input for attempt " ++ toString attempt ++ " failed: " ++ err.text)
      pure none
  | .ok (input, trace) => do
      applyEvent E
        { kind := .nodeInputResolved
          nodeID := node.nodeID
          runID := node.run.runID
          inputTrace := trace }
      applyEvent E
        { kind := .nodeStarted
          nodeID := node.nodeID
          runID := node.run.runID
          attempt := attempt }
      pure (some (node, { node with run := { node.run with input := input } }))

/-- `StartPlanNodeActivity` up to its call of the backend: the node with the key
and the tenant filled in. -/
def startPlanNodeRequest (spec : RunPlanSpec) (node : PlanNodeSpec) (attempt : Int) :
    Except Err PlanNodeSpec := do
  let key ←
    if node.run.idempotencyKey = "" then
      nodeStartIdempotencyKey E.digest spec.planID node.nodeID (if attempt ≤ 0 then 1 else attempt)
    else .ok node.run.idempotencyKey
  if spec.accountID = "" then errorf .invalidRunSpec "account id is required"
  else if spec.projectID = "" then errorf .invalidRunSpec "project id is required"
  else .ok { node with run := { node.run with
    accountID := spec.accountID
    projectID := spec.projectID
    idempotencyKey := key } }

/-- `StartPlanNodeActivity` after its call of the backend: the answer must name
the run that was asked for. -/
def startPlanNodeAnswer (node : PlanNodeSpec) (status : RunStatus) : Except Err RunStatus :=
  let named := if status.runID = "" then { status with runID := node.run.runID } else status
  if named.runID ≠ node.run.runID then
    errorf .invalidRunSpec
      ("backend returned run id " ++ quoted named.runID ++ " for requested run " ++
        quoted node.run.runID)
  else .ok named

def startPlanNodeActivity (node : PlanNodeSpec) (attempt : Int) : Workflow RunStatus := do
  let l ← state
  let request ← ofExcept (startPlanNodeRequest E l.spec node attempt)
  let answer ← ask E E.startNode (.startNode request attempt)
  let status ← ofExcept answer
  ofExcept (startPlanNodeAnswer request status)

/-- The part of `startPlanNode` after the attempt is resolved: the run is started
through Nexus or by the activity. -/
def startResolvedPlanNode (R : PlanWorkflowRuntime) (node attemptNode : PlanNodeSpec)
    (attempt : Int) : Workflow Unit :=
  if R.nexusNodeRuns then startPlanNodeViaNexus E R node attemptNode attempt
  else do
    match ← Prog.attempt (startPlanNodeActivity E attemptNode attempt) with
    | .error err =>
        applyNodeAttemptFailure E node attemptNode.run.runID
          ("start attempt " ++ toString attempt ++ " failed: " ++ err.text)
    | .ok status =>
        if status.lifecycleState.terminal then applyNodeRunTerminal E node status
        else pure ()

/-- The part of `startPlanNode` for a node that is ready.  The source passes the
incoming edges on to the input resolution; here the world reads them from
`validation`. -/
def startReadiedPlanNode (R : PlanWorkflowRuntime) (node : PlanNodeSpec) : Workflow Unit := do
  let l ← state
  let attempt := nextNodeAttempt l.state node.nodeID
  match ← resolvePlanNodeAttempt E node attempt with
  | none => pure ()
  | some (node, attemptNode) => startResolvedPlanNode E R node attemptNode attempt

def startPlanNode (R : PlanWorkflowRuntime) (node : PlanNodeSpec) : Workflow Unit := do
  let l ← state
  match mapGet l.validation.capabilitiesByNode node.nodeID with
  | some capability =>
      applyEvent E { kind := .capabilitySelected, nodeID := node.nodeID, capability := capability }
  | none => pure ()
  applyEvent E { kind := .nodeReady, nodeID := node.nodeID }
  startReadiedPlanNode E R node

/-! ## Settled promises and running nodes -/

/-- A loop `for i := range state.Status.Nodes` whose body may change the state: the
number of rounds is fixed at its start, and each round reads the slice of the
moment.  It tells whether a round progressed. -/
def overNodes (body : PlanNodeStatus → Workflow Bool) : Nat → Nat → Workflow Bool
  | 0, _ => pure false
  | rounds + 1, i => do
      let l ← state
      match l.state.status.nodes[i]? with
      -- The slice never gets shorter, so the index is in range.
      | none => pure false
      | some node => do
          let progressed ← body node
          let later ← overNodes body rounds (i + 1)
          pure (progressed || later)

def forNodes (body : PlanNodeStatus → Workflow Bool) : Workflow Bool := do
  let l ← state
  overNodes body l.state.status.nodes.length 0

def nodeByID (validation : ValidatePlanOutput) (nodeID : String) : Except Err PlanNodeSpec :=
  match validation.plan.nodeByID.get? nodeID with
  | some node => .ok node
  | none => .error (unknownNode nodeID)

def applyNexusNodePromise (node : PlanNodeStatus) (nodeSpec : PlanNodeSpec)
    (outcome : Except NexusFailure RunStatus) : Workflow Bool := do
  emit (.removePromise node.runID)
  match outcome with
  | .error failure => do
      applyEvent E
        { kind := .nodeFailed
          nodeID := node.nodeID
          runID := node.runID
          reason := failure.err.text }
      pure true
  | .ok status =>
      if status.lifecycleState.terminal then do
        applyNodeRunTerminal E nodeSpec status
        pure true
      else pure false

def applySettledNexusNodePromise (node : PlanNodeStatus) : Workflow Bool :=
  if node.lifecycleState ≠ .running ∨ node.runID = "" then pure false
  else do
    let l ← state
    match (l.nodeRuns.get? node.runID).bind PlanNodeRun.future with
    | none => pure false
    | some outcome => do
        let nodeSpec ← ofExcept (nodeByID l.validation node.nodeID)
        applyNexusNodePromise E node nodeSpec outcome

def applySettledNexusNodePromises : Workflow Bool :=
  forNodes (applySettledNexusNodePromise E)

def hasRunningPendingPromise (l : Locals) : Bool :=
  l.state.status.nodes.any fun node =>
    node.lifecycleState = .running && node.runID != "" &&
      (l.nodeRuns.get? node.runID).any fun run => run.future.isNone

/-- `settleNexusNodePromises`: whether a node progressed and whether the wait paced
the iteration. -/
def settleNexusNodePromises (R : PlanWorkflowRuntime) : Workflow (Bool × Bool) := do
  let l ← state
  if !R.nexusNodeRuns || !hasRunningPendingPromise l then pure (false, false)
  else do
    wait E
    let progressed ← applySettledNexusNodePromises E
    pure (progressed, true)

def nodeTimedOut (now : Time) (status : PlanNodeStatus) (node : PlanNodeSpec) : Bool :=
  status.lifecycleState = .running && deadlinePassed node.policy.timeoutSeconds status.startedAt now

def cancelTimedOutNode (node : PlanNodeStatus) : Workflow Unit := do
  let l ← state
  if node.runID = "" then
    fail (.wrap .invalidRunPlan
      ("timed out node " ++ quoted node.nodeID ++ " has no active run id"))
  else do
    let key ← ofExcept
      (nodeTimeoutControlIdempotencyKey E.digest l.spec.planID node.nodeID node.runID)
    let answer ← ask E E.controlNode
      (.controlNode node.runID { operation := .cancel, idempotencyKey := key })
    orErr answer

def handleTimedOutPlanNode (node : PlanNodeStatus) (nodeSpec : PlanNodeSpec) : Workflow Bool := do
  cancelTimedOutNode E node
  emit (.cancelPromise node.runID)
  applyNodeAttemptFailure E nodeSpec node.runID
    ("node timed out after " ++ toString nodeSpec.policy.timeoutSeconds ++ " seconds")
  pure true

/-- `refreshRunningPlanNode`.  A pending promise costs nothing; a node without a
promise is polled. -/
def refreshRunningPlanNode (node : PlanNodeStatus) (nodeSpec : PlanNodeSpec) : Workflow Bool := do
  let l ← state
  match l.nodeRuns.get? node.runID with
  | some run =>
      -- `refreshNexusBackedPlanNode`
      match run.future with
      | none => pure false
      | some outcome => applyNexusNodePromise E node nodeSpec outcome
  | none => do
      match ← ask E E.statusNode (.statusNode node.runID) with
      | .error err => do
          applyEvent E { kind := .nodeFailed, nodeID := node.nodeID, reason := err.text }
          pure true
      | .ok status =>
          if status.lifecycleState.terminal then do
            applyNodeRunTerminal E nodeSpec status
            pure true
          else pure false

def pollRunningPlanNode (now : Time) (node : PlanNodeStatus) : Workflow Bool :=
  if node.lifecycleState ≠ .running then pure false
  else do
    let l ← state
    let nodeSpec ← ofExcept (nodeByID l.validation node.nodeID)
    if nodeTimedOut now node nodeSpec then handleTimedOutPlanNode E node nodeSpec
    else if node.runID = "" then do
      -- `markRunningPlanNodeSucceeded`
      applyEvent E { kind := .nodeSucceeded, nodeID := node.nodeID }
      pure true
    else refreshRunningPlanNode E node nodeSpec

def pollRunningPlanNodes : Workflow Bool := do
  let time ← now E
  forNodes (pollRunningPlanNode E time)

/-! ## What the activities guarantee -/

variable {validation : ValidatePlanOutput}

section Guarantees

variable {v : Validator} {spec : RunPlanSpec}

theorem nodeTables_ok {plan : ExecutablePlan}
    (h : nodeTables v plan = .ok validation) : validation.plan = plan := by
  obtain ⟨found, -, h⟩ := bind_ok h
  cases h
  rfl

theorem validatePlanActivity_ok (h : validatePlanActivity v spec = .ok validation) :
    validation.plan.spec = spec ∧ Validated validation.plan := by
  obtain ⟨plan, hplan, htables⟩ := bind_ok h
  rw [nodeTables_ok htables]
  exact Validator.validate_ok hplan

/-- What is known of an expansion of `spec` after `expansionCount` earlier ones. -/
structure Expands (spec : RunPlanSpec) (expansionCount : Int) (expansion : PlanExpansion) :
    Prop where
  extended : expansion.spec =
    { spec with
      nodes := spec.nodes ++ expansion.delta.nodes
      edges := spec.edges ++ expansion.delta.edges }
  plan : expansion.validation.plan.spec = expansion.spec
  validated : Validated expansion.validation.plan
  count : expansionCount < (normalizePolicy spec.policy).maxExpansions

theorem evaluatePlanExpansionActivity_ok {expansionCount : Int}
    {delta : Except Err (Option PlanDelta)} {expansion : PlanExpansion}
    (h : evaluatePlanExpansionActivity v spec expansionCount delta = .ok (some expansion)) :
    Expands spec expansionCount expansion := by
  obtain ⟨answer, -, h⟩ := bind_ok h
  cases answer with
  | none => cases h
  | some delta =>
    obtain ⟨⟨next, plan⟩, hnext, h⟩ := bind_ok h
    obtain ⟨validation, htables, h⟩ := bind_ok h
    cases h
    unfold applyDelta at hnext
    simp only at hnext
    split_ifs at hnext with hcount _ _
    obtain ⟨plan', hvalid, hnext⟩ := bind_ok hnext
    cases hnext
    obtain ⟨hspec, hvalidated⟩ := Validator.validate_ok hvalid
    rw [← nodeTables_ok htables] at hspec hvalidated
    exact ⟨rfl, hspec, hvalidated, Int.not_le.mp hcount⟩

end Guarantees

end AgentOS.Plan
