import AgentOS.Plan.Nodes

/-!
# The loop of the plan workflow

`runPlanWorkflowIteration` and `PlanWorkflow` of
`agentos/temporal/plan_workflow.go`.
-/

namespace AgentOS.Plan

open Kit Prog

variable (E : Host)

/-!
## Guards, controls and signals of the plan workflow

The procedures of `agentos/temporal/plan_workflow.go` that act on the plan as a
whole: the budget and deadline guards, the control requests (pause, resume,
cancel) and the plan signals (approve, reject, node retry, and the signals that
are passed on to the running nodes).
-/

/-! ## Controls of the running nodes -/

def nodeSupportsControl (controlsByNode : List (String × List ControlOperation))
    (nodeID : String) (op : ControlOperation) : Bool :=
  ((mapGet controlsByNode nodeID).getD []).contains op

/-- `activePlanNodeControlInputs`: the run and the control request of each running
node. -/
def activePlanNodeControlInputs (digest : Digest) (planID : String)
    (control : ControlRequest) (controlsByNode : List (String × List ControlOperation)) :
    List PlanNodeStatus → Except Err (List (String × ControlRequest))
  | [] => .ok []
  | node :: rest =>
      if node.lifecycleState ≠ .running ∨ node.runID = "" then
        activePlanNodeControlInputs digest planID control controlsByNode rest
      else if control.operation ≠ .cancel ∧
          !nodeSupportsControl controlsByNode node.nodeID control.operation then
        errorf .invalidControlOperation
          ("node " ++ quoted node.nodeID ++ " does not declare support for " ++
            control.operation.text)
      else do
        let key ← nodeControlIdempotencyKey digest planID node.nodeID control.operation
          control.idempotencyKey
        let later ← activePlanNodeControlInputs digest planID control controlsByNode rest
        .ok ((node.runID, { control with idempotencyKey := key }) :: later)

def sendControls : List (String × ControlRequest) → Workflow Unit
  | [] => pure ()
  | (runID, control) :: rest => do
      let answer ← ask E E.controlNode (.controlNode runID control)
      orErr answer
      sendControls rest

def controlActivePlanNodes (control : ControlRequest) : Workflow Unit := do
  let l ← state
  let inputs ← ofExcept (activePlanNodeControlInputs E.digest l.spec.planID control
    l.validation.controlsByNode l.state.status.nodes)
  sendControls E inputs

/-- The nodes in lifecycle running. -/
def runningNodes (status : RunPlanStatus) : List PlanNodeStatus :=
  status.nodes.filter fun node => node.lifecycleState = .running

def markCanceled (reason : String) : List PlanNodeStatus → Workflow Unit
  | [] => pure ()
  | node :: rest => do
      applyEvent E
        { kind := .nodeCanceled
          nodeID := node.nodeID
          runID := node.runID
          reason := reason }
      markCanceled reason rest

def markActivePlanNodesCanceled (reason : String) : Workflow Unit := do
  let l ← state
  let reason := if reason = "" then "cancel requested" else reason
  markCanceled E reason (runningNodes l.state.status)

/-! ## Guards -/

def cancelActivePlanNodesAndFail (kind : EventKind) (idempotencyKey reason : String) :
    Workflow Unit := do
  controlActivePlanNodes E { operation := .cancel, idempotencyKey := idempotencyKey }
  markActivePlanNodesCanceled E reason
  applyEvent E { kind := kind, reason := reason }

def applyPlanBudgetGuard : Workflow Bool := do
  let l ← state
  let spent := l.state.status.spentCents
  if !budgetExceeded l.spec.policy spent then pure false
  else do
    let key ← ofExcept (budgetExceededControlIdempotencyKey E.digest l.spec.planID spent
      l.spec.policy.budgetCents)
    cancelActivePlanNodesAndFail E .planFailed key (budgetExceededReason l.spec.policy spent)
    pure true

structure PlanDeadlineGuardParams where
  expired : PlanPolicy → Time → Time → Bool
  anchor : RunPlanStatus → Time
  idempotencyKey : String → Time → Int → Except Err String
  seconds : PlanPolicy → Int
  reason : PlanPolicy → String
  eventKind : EventKind

def applyPlanDeadlineGuard (params : PlanDeadlineGuardParams) : Workflow Bool := do
  let l ← state
  let time ← now E
  let anchor := params.anchor l.state.status
  if !params.expired l.spec.policy anchor time then pure false
  else do
    let key ← ofExcept (params.idempotencyKey l.spec.planID anchor (params.seconds l.spec.policy))
    cancelActivePlanNodesAndFail E params.eventKind key (params.reason l.spec.policy)
    pure true

def planTimeoutGuard : PlanDeadlineGuardParams where
  expired := planTimedOut
  anchor := RunPlanStatus.startedAt
  idempotencyKey := planTimeoutControlIdempotencyKey E.digest
  seconds := PlanPolicy.timeoutSeconds
  reason := planTimeoutReason
  eventKind := .planFailed

def planBlockedGuard : PlanDeadlineGuardParams where
  expired := planBlockedTimedOut
  anchor := RunPlanStatus.blockedAt
  idempotencyKey := planBlockedTimeoutControlIdempotencyKey E.digest
  seconds := PlanPolicy.approvalTimeoutSeconds
  reason := planBlockedTimeoutReason
  eventKind := .planRejected

/-! ## Control requests -/

def cancelPlanFromControl (control : ControlRequest) : Workflow Unit := do
  controlActivePlanNodes E control
  markActivePlanNodesCanceled E "cancel requested"
  applyEvent E { kind := .planCanceled, reason := "cancel requested" }

def blockPlan (reason : String) : Workflow Unit := do
  let l ← state
  let time ← now E
  applyEvent E
    { kind := .planBlocked
      reason := reason
      approval := some { gate := newPlanApprovalGate E.digest l.spec l.state.status reason time } }
  emit (.setPaused true)

def blockPlanAfterControlFailure (controlErr : Err) : Workflow Unit := blockPlan E controlErr.text

def pausePlanFromControl (control : ControlRequest) : Workflow Unit := do
  match ← attempt (controlActivePlanNodes E control) with
  | .error err => blockPlanAfterControlFailure E err
  | .ok () => blockPlan E "pause requested"

def resumePlanFromControl (control : ControlRequest) : Workflow Unit := do
  match ← attempt (controlActivePlanNodes E control) with
  | .error err => blockPlanAfterControlFailure E err
  | .ok () => do
      applyEvent E { kind := .planStarted }
      emit (.setPaused false)

def applyPlanControl (control : ControlRequest) : Workflow Bool :=
  match control.operation with
  | .cancel => do
      cancelPlanFromControl E control
      pure true
  | .pause => do
      pausePlanFromControl E control
      pure false
  | .resume => do
      resumePlanFromControl E control
      pure false
  | .other _ => pure false

/-- One round of `drainPlanControl` on the message `msg`.  `control` is the variable
that the messages are decoded into; the result is its new value and whether the
plan is canceled. -/
def drainPlanControlRound (control : ControlRequest) (msg : ControlMessage) :
    Workflow (ControlRequest × Bool) := do
  let control := msg.decodeInto control
  emit (.receiveControl control)
  ofExcept (validateControlRequest control)
  if control.idempotencyKey = "" then
    fail (.wrap .invalidControlOperation "control idempotency key is required")
  else do
    let l ← state
    if l.processedControls.contains control.idempotencyKey then pure (control, false)
    else do
      emit (.markControl control)
      let canceled ← applyPlanControl E control
      pure (control, canceled)

/-! ## Plan signals -/

def manualRetryAlreadyScheduled (signal : Signal) (state : State) : Bool :=
  match planSignalNodeID signal with
  | .error _ => false
  | .ok nodeID =>
      (state.nodeStatus nodeID).any fun current =>
        current.lifecycleState = .ready && current.attempts > 0

def nextManualRetryAttempt (current : PlanNodeStatus) : Int :=
  int32 ((if current.attempts ≤ 0 then 1 else current.attempts) + 1)

def validateManualRetryAttempt (nodeID : String) (policy : NodePolicy)
    (current : PlanNodeStatus) (nextAttempt : Int) : Except Err Unit :=
  if current.lifecycleState ≠ .failed then
    errorf .invalidSignal
      ("node " ++ quoted nodeID ++ " is " ++ current.lifecycleState.text ++ ", not failed")
  else if nextAttempt > maxNodeAttempts policy then
    errorf .invalidSignal ("node " ++ quoted nodeID ++ " retry attempt " ++ toString nextAttempt ++
        " exceeds max attempts " ++ toString (maxNodeAttempts policy))
  else .ok ()

structure ManualRetryRequest where
  node : PlanNodeSpec
  current : PlanNodeStatus
  reason : String
  nextAttempt : Int

def manualNodeRetry (signal : Signal) (state : State) (validation : ValidatePlanOutput) :
    Except Err ManualRetryRequest := do
  let nodeID ← planSignalNodeID signal
  let node ← nodeByID validation nodeID
  match state.nodeStatus nodeID with
  | none => .error (unknownNode nodeID)
  | some current => do
      let reason := planSignalReason signal
      let nextAttempt := nextManualRetryAttempt current
      validateManualRetryAttempt nodeID node.policy current nextAttempt
      .ok
        { node := node
          current := current
          reason := if reason = "" then "manual retry requested" else reason
          nextAttempt := nextAttempt }

/-- `applyManualNodeRetry`.  A retry that is already scheduled is acknowledged and
changes nothing. -/
def applyManualNodeRetry (signal : Signal) : Workflow Unit := do
  let l ← state
  if manualRetryAlreadyScheduled signal l.state then pure ()
  else do
    let retry ← ofExcept (manualNodeRetry signal l.state l.validation)
    if l.state.status.lifecycleState = .blocked ∨ l.state.status.lifecycleState = .failed then
      applyEvent E { kind := .planApproved, reason := retry.reason }
    applyEvent E
      { kind := .nodeRetryScheduled
        nodeID := retry.node.nodeID
        runID := retry.current.runID
        reason := retry.reason
        attempt := retry.nextAttempt }

def retryPlanNodeFromSignal (signal : Signal) : Workflow Unit := do
  applyManualNodeRetry E signal
  emit (.setPaused false)

def approvePlanFromSignal (signal : Signal) : Workflow Unit := do
  let l ← state
  if l.state.status.lifecycleState ≠ .blocked then
    fail (.wrap .invalidSignal "approve requires blocked plan state")
  else do
    let decidedAt ← now E
    let decision ← ofExcept (planApprovalDecisionFromSignal E.digest l.spec l.state.status
      signal true decidedAt)
    let time ← now E
    applyEvent E
      { kind := .planApproved
        reason := decision.reason
        approval := some (approvalEventForSignal E.digest l.spec l.state.status
          decision.reason time decision) }
    emit (.setPaused false)

def rejectPlanFromSignal (signal : Signal) : Workflow Unit := do
  let l ← state
  let decidedAt ← now E
  let decision ← ofExcept (planApprovalDecisionFromSignal E.digest l.spec l.state.status
    signal false decidedAt)
  let reason := if decision.reason = "" then "plan rejected" else decision.reason
  let key ← ofExcept (planSignalCancelControlIdempotencyKey E.digest l.spec.planID signal)
  controlActivePlanNodes E { operation := .cancel, idempotencyKey := key }
  markActivePlanNodesCanceled E reason
  let l ← state
  let time ← now E
  applyEvent E
    { kind := .planRejected
      reason := reason
      approval := some (approvalEventForSignal E.digest l.spec l.state.status reason time
        decision) }

def sendSignal (signal : Signal) : List PlanNodeStatus → Workflow Unit
  | [] => pure ()
  | node :: rest =>
      if node.lifecycleState ≠ .running ∨ node.runID = "" then sendSignal signal rest
      else do
        let answer ← ask E E.signalNode (.signalNode node.runID signal)
        orErr answer
        sendSignal signal rest

def signalActivePlanNodes (signal : Signal) : Workflow Unit := do
  let l ← state
  sendSignal E signal l.state.status.nodes

/-- `planSignalDrainResult`, without the pause flag. -/
structure PlanSignalDrainResult where
  (rejected progressed : Bool := false)

def applyPlanSignal (signal : Signal) : Workflow PlanSignalDrainResult :=
  match signal.type with
  | .planNodeRetry => do
      retryPlanNodeFromSignal E signal
      pure { progressed := true }
  | .planApprove => do
      approvePlanFromSignal E signal
      pure { progressed := true }
  | .planReject => do
      rejectPlanFromSignal E signal
      pure { rejected := true, progressed := true }
  | .controlPause | .controlResume | .controlCancel => pure {}
  | .userMessage | .userApproval | .userReject | .toolResult | .humanFeedback
  | .configPatch | .stepModify | .externalEvent | .memoryPatch => do
      signalActivePlanNodes E signal
      pure {}
  | .other _ => pure {}

def drainPlanSignalsRound (signal : Signal) (msg : SignalMessage) :
    Workflow (Signal × PlanSignalDrainResult) := do
  let signal := msg.decodeInto signal
  emit (.receiveSignal signal)
  ofExcept (validatePlanSignal signal)
  let l ← state
  if l.processedSignals.contains signal.idempotencyKey then pure (signal, {})
  else do
    emit (.markSignal signal)
    let result ← applyPlanSignal E signal
    pure (signal, result)

/-! ## Ends of an iteration -/

def failPlanWorkflowIteration {α : Type} (cause : Err) : Workflow α := do
  match ← attempt (applyEvent E { kind := .planFailed, reason := cause.text }) with
  | .ok () => fail cause
  | .error err => fail (.join cause err)

def orFailPlan {α : Type} (part : Workflow α) : Workflow α := do
  match ← attempt part with
  | .ok a => pure a
  | .error cause => failPlanWorkflowIteration E cause

def applyPlanIterationGuard : Workflow Unit := do
  let l ← state
  match evaluateIterationPolicy l.spec.policy l.iterationCount with
  | none => pure ()
  | some _ => do
      let reason := "plan exceeded max iterations: " ++ toString l.iterationCount ++
        " exceeds max " ++ toString l.spec.policy.maxIterations
      match ← attempt (applyEvent E { kind := .planFailed, reason := reason }) with
      | .ok () => fail (.wrap .invalidRunPlan reason)
      | .error err => fail (.join (.wrap .invalidRunPlan reason) err)

def planNodesTerminal (status : RunPlanStatus) : Bool :=
  !status.nodes.isEmpty && status.nodes.all fun node => node.lifecycleState.terminal

def terminalPlanEvent : List PlanNodeStatus → StateEvent
  | [] => { kind := .planSucceeded }
  | node :: rest =>
      match node.lifecycleState with
      | .failed =>
          { kind := .planFailed
            reason := if node.reason = "" then "node failed: " ++ node.nodeID
              else node.reason }
      | .canceled =>
          { kind := .planCanceled
            reason := if node.reason = "" then "node canceled: " ++ node.nodeID
              else node.reason }
      | _ => terminalPlanEvent rest

def applyTerminalPlanState : Workflow Unit := do
  let l ← state
  applyEvent E (terminalPlanEvent l.state.status.nodes)

def sortedPlanWorkflowKeys (processed : List String) : List String :=
  ((processed.filter (· != "")).dedup).insertionSort (· ≤ ·)

def processedPlanWorkflowKeys (keys : List String) : List String := keys.filter (· != "")

def continuedPlanWorkflowInput (input : PlanWorkflowInput) (l : Locals) : PlanWorkflowInput :=
  { input with
    spec := l.spec
    status := l.state.status
    continued := true
    continuationCount := int32 (input.continuationCount + 1)
    iterationCount := l.iterationCount
    expansionCount := l.expansionCount
    processedControls := sortedPlanWorkflowKeys l.processedControls
    processedSignals := sortedPlanWorkflowKeys l.processedSignals }

/-- `continuePlanWorkflowIfNeeded`: the input of the next execution, if the workflow
continues as new. -/
def continuePlanWorkflowIfNeeded (input : PlanWorkflowInput) :
    Workflow (Option PlanWorkflowInput) := do
  let l ← state
  let history ← query E.historyLength
  if l.state.status.lifecycleState.terminal then pure none
  else
    match evaluateContinuationPolicy l.spec.policy
        { appliedTransitions := l.state.appliedTransitions, historyEvents := history } with
    | none => pure none
    | some _ => pure (some (continuedPlanWorkflowInput input l))

/-! ## Scheduling -/

def nodeSchedulable (state : State) (nodeID : String) : Bool :=
  (state.nodeStatus nodeID).any fun status =>
    status.lifecycleState = .pending || status.lifecycleState = .ready

def runningNodeCount (status : RunPlanStatus) : Int := (runningNodes status).length

def conditionTracesForDecision (decision : SchedulerDecision) : List ConditionEvaluationTrace :=
  let nodeIDs := decision.ready.map PlanNodeSpec.nodeID ++ decision.skipped.map SkippedNode.nodeID
  decision.conditionTraces.filter fun trace => nodeIDs.contains trace.nodeID

def applySkippedPlanNodes : List SkippedNode → Workflow Bool
  | [] => pure false
  | skipped :: rest => do
      let l ← state
      if !nodeSchedulable l.state skipped.nodeID then applySkippedPlanNodes rest
      else do
        applyEvent E { kind := .nodeSkipped, nodeID := skipped.nodeID, reason := skipped.reason }
        let _ ← applySkippedPlanNodes rest
        pure true

def startReadyPlanNode (R : PlanWorkflowRuntime) (node : PlanNodeSpec) : Workflow Unit := do
  match ← attempt (startPlanNode E R node) with
  | .ok () => pure ()
  | .error err =>
      match ← attempt
          (applyEvent E { kind := .nodeFailed, nodeID := node.nodeID, reason := err.text }) with
      | .ok () => pure ()
      | .error persistErr => fail (.join err persistErr)

def startReadyFrom (R : PlanWorkflowRuntime) : Int → List PlanNodeSpec → Workflow Bool
  | _, [] => pure false
  | capacity, node :: rest => do
      if capacity ≤ 0 then pure false
      else do
        let l ← state
        if !nodeSchedulable l.state node.nodeID then startReadyFrom R capacity rest
        else do
          startReadyPlanNode E R node
          -- A budget that is exceeded here ends the loop without an error.
          if ← applyPlanBudgetGuard E then pure true
          else do
            let _ ← startReadyFrom R (capacity - 1) rest
            pure true

def startReadyPlanNodes (R : PlanWorkflowRuntime) (decision : SchedulerDecision) :
    Workflow Bool := do
  let l ← state
  startReadyFrom E R (R.maxParallel - runningNodeCount l.state.status) decision.ready

def applyPlanSchedulerDecision (R : PlanWorkflowRuntime) (decision : SchedulerDecision) :
    Workflow Bool := do
  let traces := conditionTracesForDecision decision
  if !traces.isEmpty then
    applyEvent E { kind := .conditionsEvaluated, conditionTraces := traces }
  let skipped ← applySkippedPlanNodes E decision.skipped
  let started ← startReadyPlanNodes E R decision
  pure (skipped || started)

def closePlanSchedule : Workflow Bool := do
  if ← applyPlanBudgetGuard E then pure true
  else do
    let l ← state
    if planNodesTerminal l.state.status then do
      applyTerminalPlanState E
      pure true
    else pure false

/-- `schedulePlanWorkflowNodes`: whether a node progressed and whether the plan is
done. -/
def schedulePlanWorkflowNodes (R : PlanWorkflowRuntime) (progressed : Bool) :
    Workflow (Bool × Bool) := do
  emit (.enter .decide)
  let l ← state
  let decision ← orFailPlan E (ofExcept (E.scheduler.decide l.validation.plan
    l.state.status (planVariables l.spec l.state.status)))
  emit (.enter .start)
  let acted ← applyPlanSchedulerDecision E R decision
  emit (.enter .poll)
  let polled ← orFailPlan E (pollRunningPlanNodes E)
  let done ← closePlanSchedule E
  pure (progressed || acted || polled, done)

/-! ## An iteration -/

inductive Position where
  | top
  | controls (control : ControlRequest) (settled paced : Bool)
  | signals (signal : Signal) (progressed paced : Bool)

/-- How a segment ends: the loop goes on, the workflow is done, or it continues as
new. -/
inductive Verdict where
  | go (next : Position)
  | done
  | continued (next : PlanWorkflowInput)

/-- `planWorkflowPreScheduleResult`, with the input of the next execution. -/
inductive PreSchedule where
  | proceed
  | skipSchedule
  | done
  | continued (next : PlanWorkflowInput)

def pausedPreSchedule (input : PlanWorkflowInput) : Workflow PreSchedule := do
  if ← applyPlanDeadlineGuard E (planBlockedGuard E) then pure .done
  else do
    match ← continuePlanWorkflowIfNeeded E input with
    | some next => pure (.continued next)
    | none => do
        wait E
        pure .skipSchedule

def applyPlanWorkflowPreScheduleGuards (input : PlanWorkflowInput) : Workflow PreSchedule := do
  if ← applyPlanDeadlineGuard E (planTimeoutGuard E) then pure .done
  else do
    let l ← state
    if planNodesTerminal l.state.status then do
      applyTerminalPlanState E
      pure .done
    else if l.paused then pausedPreSchedule E input
    else pure .proceed

def stallReason : String := "plan has pending nodes but no runnable or active nodes"

def finishPlanWorkflowIteration (input : PlanWorkflowInput) (progressed : Bool) :
    Workflow Verdict := do
  emit (.enter .finish)
  let l ← state
  if !progressed && runningNodeCount l.state.status = 0 then do
    applyEvent E { kind := .planFailed, reason := stallReason }
    fail (.wrap .invalidRunPlan stallReason)
  else do
    match ← continuePlanWorkflowIfNeeded E input with
    | some next => pure (.continued next)
    | none =>
        if progressed then pure (.go .top)
        else do
          wait E
          pure (.go .top)

/-- The fixed data of an execution. -/
structure Execution where
  input : PlanWorkflowInput
  runtime : PlanWorkflowRuntime

def openIteration (x : Execution) : Workflow Verdict := do
  emit .nextIteration
  applyPlanIterationGuard E
  emit (.enter .settle)
  let (settled, paced) ← settleNexusNodePromises E x.runtime
  emit (.enter .controls)
  pure (.go (.controls {} settled paced))

def drainControls (control : ControlRequest) (settled paced : Bool) : Workflow Verdict := do
  let l ← state
  match l.controlCh with
  | [] => do
      emit (.enter .signals)
      pure (.go (.signals {} settled paced))
  | msg :: _ => do
      let (control, canceled) ← orFailPlan E (drainPlanControlRound E control msg)
      pure (if canceled then .done else .go (.controls control settled paced))

def closeIteration (x : Execution) (progressed paced : Bool) : Workflow Verdict := do
  emit (.enter .preSchedule)
  match ← applyPlanWorkflowPreScheduleGuards E x.input with
  | .done => pure .done
  | .continued next => pure (.continued next)
  | .skipSchedule => pure (.go .top)
  | .proceed => do
      let (progressed, done) ← schedulePlanWorkflowNodes E x.runtime progressed
      if done then pure .done
      -- The wait of the settle step paced the iteration already.
      else if paced then pure (.go .top)
      else finishPlanWorkflowIteration E x.input progressed

/-- A segment of `applyPlanWorkflowSignals`, or the end of the iteration when no
signal waits. -/
def drainSignals (x : Execution) (signal : Signal) (progressed paced : Bool) :
    Workflow Verdict := do
  let l ← state
  match l.signalCh with
  | [] => closeIteration E x progressed paced
  | msg :: _ => do
      let (signal, result) ← orFailPlan E (drainPlanSignalsRound E signal msg)
      pure (if result.rejected then .done
        else .go (.signals signal (progressed || result.progressed) paced))

/-- `runPlanWorkflowIteration`, one segment. -/
def advance (x : Execution) : Position → Workflow Verdict
  | .top => openIteration E x
  | .controls control settled paced => drainControls E control settled paced
  | .signals signal progressed paced => drainSignals E x signal progressed paced

/-! ## Executions -/

def normalizePlanParallelism (maxParallel : Int) : Int :=
  if maxParallel ≤ 0 then 32 else maxParallel

def newPlanWorkflowRuntime (input : PlanWorkflowInput) (nexusNodeRuns : Bool) :
    PlanWorkflowRuntime where
  maxParallel := normalizePlanParallelism input.spec.policy.maxParallelNodes
  nexusEndpoint := input.nexusEndpoint
  nexusPeers := input.nexusPeers
  nexusNodeRuns := nexusNodeRuns

def initialPlanWorkflowState (input : PlanWorkflowInput) (now : Time) : Except Err State :=
  if input.continued then newStateFromStatus input.spec input.status
  else .ok (newState input.spec now)

/-- `newPlanWorkflowSetup`.  The current version is the only one in the replay
window of `validatePlanWorkflowVersion`. -/
def newPlanWorkflowSetup (input : PlanWorkflowInput) (now : Time) : Except Err State :=
  if input.planActivity = "" then
    .error (.external "PlanWorkflow plan activity task queue is required")
  else if input.workflowVersion ≠ 1 then
    .error (.external ("agentos temporal workflow version: invalid: AgentOSPlanWorkflow got " ++
      toString input.workflowVersion ++
      " outside replay compatibility window for worker version 1"))
  else initialPlanWorkflowState input now

def noValidation : ValidatePlanOutput where
  plan :=
    { spec := {}
      nodeByID := SortedMap.empty
      edgesByTo := SortedMap.empty
      edgesByFrom := SortedMap.empty
      order := [] }
  controlsByNode := []
  capabilitiesByNode := []

def initialLocals (input : PlanWorkflowInput) (state : State) : Locals where
  spec := input.spec
  state := state
  validation := noValidation
  expansionCount := input.expansionCount
  iterationCount := input.iterationCount
  paused := false
  processedControls := processedPlanWorkflowKeys input.processedControls
  processedSignals := processedPlanWorkflowKeys input.processedSignals
  nodeRuns := SortedMap.empty
  controlCh := []
  signalCh := []
  stage := .setup

def failPlanWorkflowSetup {α : Type} (cause : Err) : Workflow α := failPlanWorkflowIteration E cause

def validatePlanAtStart (input : PlanWorkflowInput) : Workflow Unit := do
  let l ← state
  match ← ask E (fun w => validatePlanActivity (E.validator w) l.spec) .validate with
  | .error err => failPlanWorkflowSetup E err
  | .ok _ =>
      match validatePlanNodePeers l.spec input.nexusPeers with
      | .error err => failPlanWorkflowSetup E err
      | .ok () => pure ()

def setupPlanWorkflow (input : PlanWorkflowInput) : Workflow Unit := do
  let time ← now E
  let state ← ofExcept (newPlanWorkflowSetup input time)
  emit (.begin (initialLocals input state))
  if !input.continued then applyEvent E { kind := .planStarted }
  validatePlanAtStart E input
  let l ← Prog.state
  Prog.emit (.setPaused (l.state.status.lifecycleState = .blocked))

def cancelRuns : List String → Workflow Unit
  | [] => pure ()
  | runID :: rest => do
      emit (.cancelPromise runID)
      cancelRuns rest

def drainResolved : List (String × PlanNodeRun) → Workflow Unit
  | [] => pure ()
  | (runID, run) :: rest => do
      if run.future.isSome then emit (.removePromise runID)
      drainResolved rest

/-- `drainNexusNodeRuns`.  An error of the wait is only logged by the source. -/
def drainNexusNodeRuns (R : PlanWorkflowRuntime) : Workflow Unit := do
  emit (.enter .drain)
  let l ← state
  if !R.nexusNodeRuns || l.nodeRuns.entries.isEmpty then pure ()
  else do
    cancelRuns l.nodeRuns.keys
    let _ ← attempt (wait E)
    let l ← state
    drainResolved l.nodeRuns.entries

/-- A plan over all of its executions. -/
inductive Exec where
  | running (x : Execution) (position : Position) (w : World)
  /-- The loop of an execution returned. -/
  | returned (w : World) (outcome : Except Err Unit)
  /-- An execution returned an error before its loop. -/
  | refused (w : World) (err : Err)

/-- The variables and the log of a plan. -/
def Exec.world : Exec → World
  | .running _ _ w => w
  | .returned w _ => w
  | .refused w _ => w

/-- Begin an execution. -/
def beginExecution (input : PlanWorkflowInput) (w : World) : Exec :=
  match (setupPlanWorkflow E input).run w with
  | (.ok (), v) =>
      .running ⟨input, newPlanWorkflowRuntime input (E.nexusNodeRuns w)⟩ .top v
  | (.error err, v) => .refused v err

/-- One segment of a plan. -/
def Exec.step : Exec → Exec
  | .running x position w =>
      match (advance E x position).run w with
      | (.ok (.go next), v) => .running x next v
      | (.ok .done, v) => .returned ((drainNexusNodeRuns E x.runtime).run v).2 (.ok ())
      | (.ok (.continued next), v) =>
          beginExecution E next ((drainNexusNodeRuns E x.runtime).run v).2
      | (.error err, v) => .returned ((drainNexusNodeRuns E x.runtime).run v).2 (.error err)
  | stopped => stopped

def blankLocals (input : PlanWorkflowInput) : Locals :=
  initialLocals input { status := {}, nodes := SortedMap.empty }

/-- The plan after `n` segments. -/
def planRun (input : PlanWorkflowInput) : Nat → Exec
  | 0 => beginExecution E input ⟨blankLocals input, []⟩
  | n + 1 => (planRun input n).step E

/-- What the plan runtime knows of the queues and endpoints. -/
structure PlanRuntime where
  (planActivity nexusEndpoint : String)
  nexusPeers : List (String × String)

/-- The input of a new plan, as `executePlanWorkflow` builds it. -/
def PlanRuntime.newPlanInput (r : PlanRuntime) (spec : RunPlanSpec) : PlanWorkflowInput where
  spec := spec
  workflowVersion := 1
  planActivity := r.planActivity
  nexusEndpoint := r.nexusEndpoint
  nexusPeers := r.nexusPeers

/-! ## A calm world

A world in which every call succeeds, every run ends well on the first look and
nothing arrives.  Concrete runs change the answers that they are about. -/

def calmHost : Host where
  now := fun _ => ⟨1, by decide⟩
  persist := fun _ => none
  resolveInput := fun _ => .ok ([], {})
  startNode := fun _ => .ok {}
  statusNode := fun _ => .ok { lifecycleState := .succeeded }
  controlNode := fun _ => none
  signalNode := fun _ => none
  publish := fun _ => none
  nextPlanDelta := fun _ => .ok none
  validator := fun _ => openValidator
  wait := fun _ => none
  arrivals := fun _ => {}
  historyLength := fun _ => 0
  nexusNodeRuns := fun _ => false
  scheduler := { expressions := none }
  digest := fun _ => ""

def calmRuntime : PlanRuntime := ⟨"queue", "endpoint", []⟩

/-- A node that runs natively. -/
def nativeNode (nodeID runID : String) (policy : NodePolicy := {}) : PlanNodeSpec where
  nodeID := nodeID
  run := { runID := runID, backend := { kind := .native, name := "n" } }
  policy := policy

/-- A plan of the given nodes and edges. -/
def planOf (nodes : List PlanNodeSpec) (edges : List PlanEdgeSpec := [])
    (policy : PlanPolicy := {}) : PlanWorkflowInput :=
  calmRuntime.newPlanInput
    { planID := "p", accountID := "acc", projectID := "proj"
      nodes := nodes, edges := edges, policy := policy }

/-- The first start of the node `a` fails and later ones succeed; its run then goes on. -/
def flakyHost : Host :=
  { calmHost with
    startNode := fun w =>
      if (w.st.state.nodeStatus "a").any fun node => node.attempts = 1 then
        .error (.external "down")
      else .ok {}
    statusNode := fun _ => .ok { lifecycleState := .other "running" } }

/-- One node with two attempts. -/
def retriedPlan : PlanWorkflowInput := planOf [nativeNode "a" "r" { maxAttempts := 2 }]

end AgentOS.Plan
