import AgentOS.Agent.Basic

/-!
# The agent loops

`AgentWorkflow` and `StreamAgentWorkflow` of `internal/agentfw/orchestration` talk to a model in
rounds.  A round calls the model once and then runs the tool calls of the answer, one after the
other.  The tool `delegate_to_agent` starts an `AgentWorkflow` as a child, and the parent waits
for it.  So the executions of a delegation tree form a stack: one runs, and those below wait.
-/

namespace AgentOS.Agent

open Kit Prog

/-! ## Activities -/

structure LLMStepInput where
  (accountID runID : String)
  messages : List Message
  tools : List ToolDef
  config : LLMConfig

structure LLMStreamInput where
  (accountID sessionID runID : String)
  messages : List Message
  tools : List ToolDef
  config : LLMConfig

inductive LLMCall where
  | step (input : LLMStepInput)
  | stream (input : LLMStreamInput)

def LLMCall.tools : LLMCall → List ToolDef
  | .step input => input.tools
  | .stream input => input.tools

structure LLMStepOutput where
  content : String := ""
  toolCalls : List ToolCall := []
  usage : Usage := {}
  finishReason : String := ""

structure LLMStreamOutput where
  toolCalls : List ToolCall := []
  usage : Usage := {}
  finishReason : String := ""

structure ToolInput where
  (accountID projectID runID toolCallID toolName args : String)

structure ToolOutput where
  output : String := ""
  exitCode : Int := 0
  isError : Bool := false
  durationMs : Int := 0

/-- The events of `FinishStreamActivity`. -/
inductive FinishEvent where
  | finished (finishReason : String) (usage : Option Usage)
  | canceled

/-! ## Executions -/

inductive RunState where
  | running
  | completed
  | failed
  | canceled
  | paused
  | waitingInput

structure RunStatus where
  runID : String := ""
  lifecycleState : RunState := .running
  step : Int := 0
  reason : String := ""
  updatedAt : Time := 0
  output : String := ""

structure WorkflowResult where
  runID : String
  lifecycleState : RunState
  reason : String
  step : Int
  completedAt : Time
  output : String
  tokensSpent : Int

/-- The fields of `UserMessageSignal` that the loop reads. -/
structure UserMessageSignal where
  messageID : String := ""
  content : String

/-- The input of an execution, of either workflow. -/
inductive Start where
  | agent (input : AgentWorkflowInput)
  | stream (input : InitStreamInput)

def Start.delegate : Start → DelegateBudget
  | .agent input => input.delegate
  | .stream input => input.delegate

def Start.tools : Start → List ToolDef
  | .agent input => input.tools
  | .stream input => input.tools

structure Delegation where
  tc : ToolCall
  args : DelegateTaskInput
  input : AgentWorkflowInput

def delegateWorkflowID (toolCallID : String) : String := "delegate-" ++ toolCallID

/-- The variables of an execution.  `round` is the next round, once the execution is prepared, and
`pending` is the child that it waits for. -/
structure Frame where
  exec : Nat := 0
  start : Start := .agent {}
  budget : DelegateBudget := {}
  status : RunStatus := {}
  messages : List Message := []
  domainTools : List ToolDef := []
  allTools : List ToolDef := []
  baseRequestedAt : Time := 0
  round : Option Nat := none
  pending : Option Delegation := none
  commandCh : List Command := []
  userMessageCh : List UserMessageSignal := []

structure Arrivals where
  commands : List Command := []
  messages : List UserMessageSignal := []

def Frame.deliver (f : Frame) (arrivals : Arrivals) : Frame :=
  { f with
    commandCh := f.commandCh ++ arrivals.commands
    userMessageCh := f.userMessageCh ++ arrivals.messages }

/-! ## Workflow ids -/

inductive Owner where
  | tree
  | other
  deriving DecidableEq

inductive Phase where
  | running
  | completed
  | failed
  deriving DecidableEq

structure ChildExecution where
  workflowID : String
  owner : Owner
  phase : Phase

/-- Whether the platform refuses to start a workflow id.  The newest execution comes first.
`WORKFLOW_ID_REUSE_POLICY_ALLOW_DUPLICATE_FAILED_ONLY` accepts the id of a failed one. -/
def refuses (children : List ChildExecution) (workflowID : String) : Bool :=
  match children.find? (·.workflowID = workflowID) with
  | none => false
  | some child => child.phase ≠ .failed

def closeChild (children : List ChildExecution) (workflowID : String) (owner : Owner)
    (phase : Phase) : List ChildExecution :=
  children.map fun child =>
    if child.workflowID = workflowID ∧ child.owner = owner ∧ child.phase = .running then
      { child with phase }
    else child

/-- What a delegation of another run does. -/
inductive Foreign where
  | start (toolCallID : String)
  | close (toolCallID : String) (phase : Phase)

def Foreign.apply (children : List ChildExecution) : Foreign → List ChildExecution
  | .start toolCallID =>
      if refuses children (delegateWorkflowID toolCallID) then children
      else ⟨delegateWorkflowID toolCallID, .other, .running⟩ :: children
  | .close toolCallID phase =>
      closeChild children (delegateWorkflowID toolCallID) .other phase

/-! ## The machine -/

/-- The stack of executions, the number of executions so far, the workflow ids, and the stored
history snapshots. -/
structure Locals where
  frames : List Frame := []
  executions : Nat := 0
  children : List ChildExecution := []
  blobs : List (String × List Message) := []

/-- The execution that runs. -/
def Locals.top (l : Locals) : Frame := l.frames.headD {}

/-- What a delegation tree does. -/
inductive Act where
  /-- An execution starts, above the ones that wait. -/
  | begin (start : Start)
  | deliver (arrivals : List Arrivals) (others : List Foreign)
  | setStatus (status : RunStatus)
  | receive (reader : Reader) (command : Command)
  /-- A cancellation check ends. -/
  | checked (canceled : Bool)
  | receiveUser (signal : UserMessageSignal)
  /-- The preparation ends, with the tools that the MCP servers offer. -/
  | prepared (messages : List Message) (tools : List ToolDef) (mcp : PrepMCPOutput)
  | restored (messages : List Message)
  | requested (at_ : Time)
  | repair
  | say (message : Message)
  | startLLM (round : Nat) (call : LLMCall)
  | llmStep (output : LLMStepOutput)
  | llmStream (output : LLMStreamOutput)
  | startTool (input : ToolInput)
  /-- The budget of a delegation is checked. -/
  | decide
  | startChild (delegation : Delegation) (accepted : Bool)
  | endChild (outcome : Except Err WorkflowResult)
  | snapshot (uri : String) (messages : List Message)
  | continueAsNew (input : AgentWorkflowInput)
  | finish (event : FinishEvent)
  | recorded (event : FinishEvent)

def spentBy : Except Err WorkflowResult → Int
  | .ok result => result.tokensSpent
  | .error _ => 0

/-- A frame of an execution that starts. -/
def Frame.begin (exec : Nat) (start : Start) : Frame where
  exec
  start
  budget := start.delegate

def deliverTo : List Frame → List Arrivals → List Frame
  | f :: frames, arrivals :: rest => f.deliver arrivals :: deliverTo frames rest
  | frames, [] => frames
  | [], _ => []

def Locals.modifyTop (l : Locals) (g : Frame → Frame) : Locals :=
  { l with
    frames := match l.frames with
      | [] => []
      | f :: frames => g f :: frames }

/-- What an action does.  The answer of `AgentWorkflow`'s model is charged to its budget, and so
is what a child reports. -/
def Locals.step (l : Locals) : Act → Locals
  | .begin start =>
      { l with
        frames := Frame.begin l.executions start :: l.frames
        executions := l.executions + 1 }
  | .deliver arrivals others =>
      { l with
        frames := deliverTo l.frames arrivals
        children := others.foldl Foreign.apply l.children }
  | .setStatus status => l.modifyTop ({ · with status })
  | .receive _ _ => l.modifyTop fun f => { f with commandCh := f.commandCh.tail }
  | .checked _ => l
  | .receiveUser signal => l.modifyTop fun f =>
      { f with
        userMessageCh := f.userMessageCh.tail
        messages := f.messages ++ [{ role := .user, content := signal.content }] }
  | .prepared messages tools _ => l.modifyTop fun f =>
      { f with
        messages
        domainTools := tools
        allTools := toolsWithDelegate f.budget tools
        round := some 0 }
  | .restored messages => l.modifyTop ({ · with messages })
  | .requested at_ => l.modifyTop ({ · with baseRequestedAt := at_ })
  | .repair => l.modifyTop fun f => { f with messages := repairToolCallPairing f.messages }
  | .say message => l.modifyTop fun f => { f with messages := f.messages ++ [message] }
  | .startLLM round _ => l.modifyTop ({ · with round := some (round + 1) })
  | .llmStep output => l.modifyTop fun f =>
      { f with budget := f.budget.spend output.usage.totalTokens }
  | .llmStream _ => l
  | .startTool _ => l
  | .decide => l
  | .startChild _ false => l
  | .startChild d true =>
      { l.modifyTop ({ · with pending := some d }) with
        children := ⟨delegateWorkflowID d.tc.id, .tree, .running⟩ :: l.children }
  | .endChild outcome =>
      let below : Locals := { l with frames := l.frames.tail }
      { below.modifyTop fun f =>
          { f with pending := none, budget := f.budget.spend (spentBy outcome) } with
        children :=
          match below.top.pending with
          | none => l.children
          | some d =>
              closeChild l.children (delegateWorkflowID d.tc.id) .tree
                (if outcome.isOk then .completed else .failed) }
  | .snapshot uri messages => { l with blobs := mapSet l.blobs uri messages }
  | .continueAsNew input =>
      { l with
        frames := Frame.begin l.executions (.agent input) :: l.frames.tail
        executions := l.executions + 1 }
  | .finish _ => l
  | .recorded _ => l

abbrev World := Logged Locals Act

abbrev Workflow (α : Type) := Prog Locals.step Stop α

/-- What the selector of `waitForUserMessage` takes next. -/
inductive Choice where
  | userMessage
  | command
  | timer
  | canceledTimer

/-- `GetVersion` of the markers, as whether an execution has the change. -/
structure Versions where
  (awaitInputTimeout historyRef : Bool := true)

/-- The world of a delegation tree.  Every answer may depend on all that happened.  An activity
that is not answered leaves the execution blocked, and an error is one that the activity or the
platform reports after all retries. -/
structure Host where
  arrivals : World → List Arrivals := fun _ => []
  others : World → List Foreign := fun _ => []
  /-- The platform closes the execution that runs: a time-out or a termination.  An execution
  that waits for its child takes the child with it when it is closed, so that such a run is one
  in which the child is blocked for good. -/
  closes : World → Option Err := fun _ => none
  /-- The number of commands that are received in a pause, or of selections in a wait. -/
  patience : World → Nat := fun _ => 10
  activity : World → Option (Except Err AgentActivities) := fun _ => some (.ok {})
  llmStep : World → Option (Except Err LLMStepOutput)
  llmStream : World → Option (Except Err LLMStreamOutput)
  tool : World → Option (Except Err ToolOutput) := fun _ => some (.ok {})
  finish : World → Option (Except Err Unit) := fun _ => some (.ok ())
  select : World → Choice := fun _ => .userMessage
  now : World → Time := fun _ => 0
  versions : World → Versions := fun _ => {}
  workflowID : World → String := fun _ => ""
  /-- `estimateMessagesStateSizeBytes`. -/
  stateSize : List Message → Int := fun _ => 0
  /-- `ParseDelegateArgs`. -/
  parseDelegateArgs : String → Except Err DelegateTaskInput
  /-- The URI that `blobStore.Put` returns for a key. -/
  blobURI : String → String := id

/-! ## Waiting -/

section Loops

variable (E : Host)

def deliver : Workflow Unit := do
  let arrivals ← query E.arrivals
  let others ← query E.others
  emit (.deliver arrivals others)

def blocks : Workflow Unit := do
  deliver E
  match ← query E.closes with
  | none => pure ()
  | some err => fail (.closed err)

def await {α : Type} (answer : World → Option α) : Workflow α := do
  match ← query answer with
  | none => fail .blocked
  | some a => do
      blocks E
      pure a

def signalCh : CommandCh Locals.step where
  queue l := l.top.commandCh
  receive := .receive

def checkStreamSignal : Workflow Bool := do
  let canceled ← (do
    match ← signalCh.receiveAsync .poll with
    | none => pure false
    | some .cancel => pure true
    | some .pause => do
        let patience ← query E.patience
        waitForResume signalCh (blocks E) .pause patience
    | some .resume => pure false
    | some (.other _) => pure false)
  emit (.checked canceled)
  pure canceled

def updateStatus (f : RunStatus → RunStatus) : Workflow Unit := do
  let l ← state
  emit (.setStatus (f l.top.status))

def setLifecycle (state : RunState) : Workflow Unit :=
  updateStatus ({ · with lifecycleState := state })

def setLifecycleNow (state : RunState) : Workflow Unit := do
  let now ← query E.now
  updateStatus ({ · with lifecycleState := state, updatedAt := now })

/-! ## Delegation -/

variable (child : AgentWorkflowInput → Workflow WorkflowResult)

/-- Start a child workflow and wait for its result.  An error of the child or of the platform is
an answer to the parent. -/
def executeChildWorkflow (d : Delegation) : Workflow (Except Err WorkflowResult) := do
  let l ← state
  if refuses l.children (delegateWorkflowID d.tc.id) then do
    emit (.startChild d false)
    blocks E
    pure (.error (.external "child workflow execution already started"))
  else do
    emit (.startChild d true)
    emit (.begin (.agent d.input))
    deliver E
    match ← attempt (child d.input) with
    | .ok result => do
        emit (.endChild (.ok result))
        blocks E
        pure (.ok result)
    | .error (.failed err) => do
        emit (.endChild (.error err))
        blocks E
        pure (.error err)
    | .error (.closed err) => do
        emit (.endChild (.error err))
        blocks E
        pure (.error err)
    | .error .blocked => fail .blocked

def executeDelegateTool (tc : ToolCall)
    (parent : DelegateParent) : Workflow (Except Err WorkflowResult) := do
  match parent.taskQueues.validateNativeAgent with
  | .error err => pure (.error err)
  | .ok () => do
      emit .decide
      match parent.budget.check with
      | .error err => pure (.error err)
      | .ok () =>
          match E.parseDelegateArgs tc.arguments with
          | .error err => pure (.error (.within "failed to parse delegate_to_agent args" err))
          | .ok args =>
              executeChildWorkflow E child ⟨tc, args, delegateChildWorkflowInput tc.id args parent⟩

def handleDelegateToolCall (tc : ToolCall) (parent : DelegateParent) : Workflow Unit := do
  let content ← (do
    match ← executeDelegateTool E child tc parent with
    | .error err => pure ("Error delegating task: " ++ err.text)
    | .ok result => pure result.output)
  emit (.say { role := .tool, toolCallID := tc.id, content })

def toolInput (accountID projectID runID : String) (tc : ToolCall) : ToolInput where
  accountID := accountID
  projectID := projectID
  runID := runID
  toolCallID := tc.id
  toolName := tc.name
  args := tc.arguments

/-- The tool calls of a round.  The loops differ in what they do when a cancel was read and when
a tool fails. -/
def executeToolCalls {α : Type} (parent : Locals → DelegateParent) (tool : ToolCall → ToolInput)
    (done : α) (canceled : Workflow α) (failed : ToolCall → Err → Workflow α) :
    List ToolCall → Workflow α
  | [] => pure done
  | tc :: toolCalls => do
      if ← checkStreamSignal E then canceled
      else if isDelegateToolCall tc then do
        let l ← state
        handleDelegateToolCall E child tc (parent l)
        executeToolCalls parent tool done canceled failed toolCalls
      else do
        emit (.startTool (tool tc))
        match ← await E E.tool with
        | .error err => failed tc err
        | .ok result => do
            emit (.say { role := .tool, toolCallID := tc.id, content := result.output })
            executeToolCalls parent tool done canceled failed toolCalls

/-! ## AgentWorkflow -/

def maxToolRounds : Nat := 10

def reasonMaxRounds : String := "max_rounds"

def awaitingInputTimeoutReason : String := "awaiting_user_input_timed_out"

def defaultAwaitUserInputTimeout : Int := 24 * 3600 * 1000000000

def makeWorkflowResult : Workflow WorkflowResult := do
  let l ← state
  let now ← query E.now
  pure {
    runID := l.top.status.runID
    lifecycleState := l.top.status.lifecycleState
    reason := l.top.status.reason
    step := l.top.status.step
    completedAt := now
    output := l.top.status.output
    tokensSpent := l.top.budget.ownTokensSpent }

def PrepBillingOutput.text (billing : PrepBillingOutput) : String :=
  "&\x7b" ++ toString billing.approved ++ " " ++ toString billing.remaining ++ " " ++
    billing.currency ++ "\x7d"

def listText (items : List String) : String := "[" ++ " ".intercalate items ++ "]"

def prepChecksFailed (out : PrepareOutput) : Err :=
  .external ("agent workflow - prep checks failed: billing=" ++
    (match out.billing with
      | none => "<nil>"
      | some billing => billing.text) ++
    " warnings=" ++ listText out.warnings)

def loadHistoryActivity (a : AgentActivities) (blobs : List (String × List Message))
    (ref : String) : Except Err (List Message) :=
  if !a.blobStore then
    .error (.external ("LoadHistoryActivity - blob store is required to restore history snapshot: ref "
      ++ quoted ref))
  else
    match mapGet blobs ref with
    | none => .error (.external "LoadHistoryActivity - blobStore.Get: not found")
    | some messages => .ok messages

def failRun {α : Type} (err : Err) : Workflow α := do
  setLifecycle .failed
  fail (.failed err)

def restoreHistory (input : AgentWorkflowInput) (versions : Versions) : Workflow Unit := do
  if versions.historyRef && input.continuation.historyRef ≠ "" then do
    let l ← state
    match ← await E E.activity with
    | .error err => failRun (.within "agent workflow - restore history snapshot" err)
    | .ok a =>
        match loadHistoryActivity a l.blobs input.continuation.historyRef with
        | .error err => failRun (.within "agent workflow - restore history snapshot" err)
        | .ok messages => emit (.restored messages)
  else pure ()

def agentWorkflowInit (input : AgentWorkflowInput) (versions : Versions) : Workflow Unit := do
  match ← await E E.activity with
  | .error err => failRun err
  | .ok a => do
      let out := prepareActivity a {
        accountID := input.accountID
        systemPrompt := input.systemPrompt
        message := input.message
        history := input.history
        tools := input.tools
        config := input.config
        mcpServerConfigs := input.mcpServerConfigs }
      if !out.canProceed then failRun (prepChecksFailed out)
      else do
        emit (.prepared out.messages out.tools (prepMCP a input.mcpServerConfigs))
        restoreHistory E input versions
        let now ← query E.now
        emit (.requested (if input.continuation.initialRequestedAt.isZero then now
          else input.continuation.initialRequestedAt))

def callLLMAndTrackMessage (input : AgentWorkflowInput) (round : Nat) : Workflow LLMStepOutput := do
  let l ← state
  emit (.startLLM round (.step {
    accountID := input.accountID
    runID := input.runID
    messages := l.top.messages
    tools := l.top.allTools
    config := input.config }))
  match ← await E E.llmStep with
  | .error err => failRun (.within ("agent workflow - llm round " ++ toString round) err)
  | .ok output => do
      emit (.llmStep output)
      emit (.say { role := .assistant, content := output.content, toolCalls := output.toolCalls })
      let now ← query E.now
      updateStatus fun status => { status with step := int32 (status.step + 1), updatedAt := now }
      pure output

def agentParent (input : AgentWorkflowInput) (l : Locals) : DelegateParent where
  budget := l.top.budget
  accountID := input.accountID
  projectID := input.projectID
  config := input.config
  domainTools := l.top.domainTools
  mcpConfigs := input.mcpServerConfigs
  taskQueues := input.taskQueues

def executeAgentToolCalls (input : AgentWorkflowInput) : List ToolCall → Workflow Bool :=
  executeToolCalls E child (agentParent input)
    (toolInput input.accountID input.projectID input.runID) false
    (do
      setLifecycle .canceled
      pure true)
    fun tc err => failRun (.within ("agent workflow - tool exec " ++ tc.name) err)

def historySnapshotKey (runID : String) (round : Int) : String :=
  "agentfw-hist/" ++ runID ++ "/" ++ toString round

def snapshotHistory (round : Int) : Workflow String := do
  let l ← state
  match ← await E E.activity with
  | .error err =>
      fail (.failed (.within "agent workflow - snapshot history before continue-as-new" err))
  | .ok a =>
      if a.blobStore then do
        let uri := E.blobURI (historySnapshotKey l.top.status.runID round)
        emit (.snapshot uri l.top.messages)
        pure uri
      else pure ""

def continueSnapshot (input : AgentWorkflowInput) (f : Frame) (now : Time) :
    ContinueAsNewSnapshot where
  historyLength := f.messages.length
  stateSizeBytes := E.stateSize f.messages
  step := f.status.step
  elapsed := now - f.baseRequestedAt
  continuationCnt := input.continuation.continuationCount

def buildContinueAsNewInput (input : AgentWorkflowInput) (versions : Versions) :
    Workflow (Option AgentWorkflowInput) := do
  let l ← state
  let now ← query E.now
  if !(evaluateContinueAsNew input.continuePolicy (continueSnapshot E input l.top now)).shouldContinue
  then pure none
  else do
    let workflowID ← query E.workflowID
    let payload : ContinuationPayload := {
      runID := l.top.status.runID
      continuationCount := int32 (input.continuation.continuationCount + 1)
      previousWorkflowID := workflowID
      carriedStep := l.top.status.step
      carriedAt := now
      initialRequestedAt := l.top.baseRequestedAt }
    let historyRef ←
      if versions.historyRef then
        snapshotHistory E (int32 (input.continuation.continuationCount + 1))
      else pure ""
    pure (some { input with
      delegate := l.top.budget
      continuation := { payload with historyRef } })

inductive WaitOutcome where
  | received
  | canceled
  | timedOut

def handleNativeWaitControlSignal : Workflow Bool := do
  match ← signalCh.receiveBlocking (blocks E) .wait with
  | .cancel => pure true
  | .pause => do
      setLifecycleNow E .paused
      let patience ← query E.patience
      if ← waitForResume signalCh (blocks E) .waitPause patience then pure true
      else do
        setLifecycleNow E .waitingInput
        pure false
  | _ => pure false

def selectUserMessage (timer : Bool) : Nat → Workflow WaitOutcome
  | 0 => fail .blocked
  | n + 1 => do
      blocks E
      let l ← state
      match ← query E.select with
      | .userMessage =>
          match l.top.userMessageCh with
          | [] => fail .blocked
          | signal :: _ => do
              emit (.receiveUser signal)
              setLifecycleNow E .running
              pure .received
      | .command => do
          if ← handleNativeWaitControlSignal E then pure .canceled
          else selectUserMessage timer n
      | .timer =>
          if timer then do
            let now ← query E.now
            updateStatus ({ · with
              lifecycleState := .completed
              reason := awaitingInputTimeoutReason
              updatedAt := now })
            pure .timedOut
          else fail .blocked
      | .canceledTimer => selectUserMessage timer n

def waitForUserMessage (timeout : Int) (versions : Versions) : Workflow WaitOutcome := do
  setLifecycleNow E .waitingInput
  let patience ← query E.patience
  selectUserMessage E (versions.awaitInputTimeout && 0 < timeout) patience

inductive RoundEnd where
  | go
  | done
  | next (input : AgentWorkflowInput)

def finalizeRoundWithoutToolCalls (input : AgentWorkflowInput) (output : String)
    (versions : Versions) : Workflow RoundEnd := do
  updateStatus ({ · with output })
  if !input.awaitUserInput then do
    setLifecycle .completed
    pure .done
  else do
    let timeout := if input.awaitUserInputTimeout ≤ 0 then defaultAwaitUserInputTimeout
      else input.awaitUserInputTimeout
    match ← waitForUserMessage E timeout versions with
    | .received => pure .go
    | .canceled => do
        setLifecycle .canceled
        pure .done
    | .timedOut => pure .done

def agentWorkflowRound
    (input : AgentWorkflowInput) (versions : Versions) (round : Nat) : Workflow RoundEnd := do
  if ← checkStreamSignal E then do
    setLifecycle .canceled
    pure .done
  else do
    emit .repair
    let output ← callLLMAndTrackMessage E input round
    if output.toolCalls.isEmpty then
      finalizeRoundWithoutToolCalls E input output.content versions
    else if ← executeAgentToolCalls E child input output.toolCalls then pure .done
    else
      match ← buildContinueAsNewInput E input versions with
      | none => pure .go
      | some next => pure (.next next)

/-- How an execution of `AgentWorkflow` ends. -/
inductive Ending where
  | returned (result : WorkflowResult)
  | next (input : AgentWorkflowInput)

def agentRounds (child : AgentWorkflowInput → Workflow WorkflowResult) (input : AgentWorkflowInput)
    (versions : Versions) : (remaining : Nat) → (round : Nat) → Workflow Ending
  | 0, _ => do
      updateStatus ({ · with lifecycleState := .completed, reason := reasonMaxRounds })
      let result ← makeWorkflowResult E
      pure (.returned result)
  | remaining + 1, round => do
      match ← agentWorkflowRound E child input versions round with
      | .go => agentRounds child input versions remaining (round + 1)
      | .done => do
          let result ← makeWorkflowResult E
          pure (.returned result)
      | .next input => pure (.next input)

def agentWorkflow (input : AgentWorkflowInput) : Workflow Ending := do
  match input.taskQueues.validateNativeAgent with
  | .error err => fail (.failed err)
  | .ok () => do
      let versions ← query E.versions
      let now ← query E.now
      emit (.setStatus {
        runID := input.runID
        step := input.continuation.carriedStep
        updatedAt := now })
      agentWorkflowInit E input versions
      agentRounds E child input versions maxToolRounds 0

/-! ## StreamAgentWorkflow -/

def finishStream (event : FinishEvent) : Workflow (Except Err Unit) := do
  emit (.finish event)
  match ← await E E.finish with
  | .error err => pure (.error err)
  | .ok () => do
      emit (.recorded event)
      pure (.ok ())

def emitStreamCanceled : Workflow Unit := do
  let _ ← finishStream E .canceled
  pure ()

def finishStreamMaxRounds : Workflow Unit := do
  match ← finishStream E (.finished reasonMaxRounds none) with
  | .error err => fail (.failed err)
  | .ok () => pure ()

def finishStreamRound (output : LLMStreamOutput) : Workflow Bool := do
  let usage := if 0 < output.usage.totalTokens then some output.usage else none
  match ← finishStream E (.finished output.finishReason usage) with
  | .error _ => pure false
  | .ok () => pure true

def streamParent (input : InitStreamInput) (l : Locals) : DelegateParent where
  budget := l.top.budget
  accountID := input.accountID
  projectID := input.projectID
  config := input.config
  domainTools := l.top.domainTools
  mcpConfigs := input.mcpServerConfigs
  taskQueues := input.taskQueues

inductive StreamEnd where
  | go
  | done
  | canceled

def executeStreamToolCalls (input : InitStreamInput) : List ToolCall → Workflow StreamEnd :=
  executeToolCalls E child (streamParent input)
    (toolInput input.accountID input.projectID input.runID) .go (pure .canceled)
    fun tc err => fail (.failed (.within ("stream workflow - tool exec " ++ tc.name) err))

def processStreamRound (input : InitStreamInput) (round : Nat) : Workflow StreamEnd := do
  let l ← state
  emit (.startLLM round (.stream {
    accountID := input.accountID
    sessionID := input.sessionID
    runID := input.runID
    messages := l.top.messages
    tools := l.top.allTools
    config := input.config }))
  match ← await E E.llmStream with
  | .error err =>
      fail (.failed (.within ("stream workflow - llm round " ++ toString round) err))
  | .ok output => do
      emit (.llmStream output)
      emit (.say { role := .assistant, toolCalls := output.toolCalls })
      if output.toolCalls.isEmpty then do
        if ← finishStreamRound E output then pure .done else pure .go
      else executeStreamToolCalls E child input output.toolCalls

def streamRounds (child : AgentWorkflowInput → Workflow WorkflowResult) (input : InitStreamInput) :
    (remaining : Nat) → (round : Nat) → Workflow Unit
  | 0, _ => finishStreamMaxRounds E
  | remaining + 1, round => do
      if ← checkStreamSignal E then emitStreamCanceled E
      else do
        emit .repair
        match ← processStreamRound E child input round with
        | .go => streamRounds child input remaining (round + 1)
        | .done => pure ()
        | .canceled => emitStreamCanceled E

def streamAgentWorkflow (input : InitStreamInput) : Workflow Unit := do
  match input.taskQueues.validateStreamAgent with
  | .error err => fail (.failed err)
  | .ok () => do
      match ← await E E.activity with
      | .error err => fail (.failed (.within "stream workflow - init" err))
      | .ok a => do
          let out := initStreamActivity a input.systemPrompt input.message input.history
            input.tools input.mcpServerConfigs
          emit (.prepared out.messages out.tools (prepMCP a input.mcpServerConfigs))
          streamRounds E child input maxToolRounds 0

/-! ## Trees -/

def agentRun : Nat → AgentWorkflowInput → Workflow WorkflowResult
  | 0, _ => fail .blocked
  | n + 1, input => do
      match ← agentWorkflow E (agentRun n) input with
      | .returned result => pure result
      | .next input => do
          emit (.continueAsNew input)
          deliver E
          agentRun n input

def runTree (n : Nat) (root : Start) : Workflow Unit := do
  emit (.begin root)
  deliver E
  match root with
  | .agent input => do
      let _ ← agentRun E n input
      pure ()
  | .stream input => streamAgentWorkflow E (agentRun E n) input

/-- The world after a run of a delegation tree. -/
def treeRun (n : Nat) (root : Start) : World := ((runTree E n root).run ⟨{}, []⟩).2

end Loops

end AgentOS.Agent
