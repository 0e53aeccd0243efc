import AgentOS.Agent.Loops

/-!
# The step queue

`Workflow` of `orchestration.go` interprets a queue of steps.  A round looks for a command, applies
the signals that change the queue, and executes the first step that is ready.  A step may change
the queue with its result.
-/

namespace AgentOS.Agent.StepQueue

open Kit Prog

/-! ## Steps -/

/-- `StepType`.  `other` is a string outside the declared constants. -/
inductive StepType where
  | agent
  | tool
  | wait
  | split
  | join
  | eval
  | other (name : String)
  deriving DecidableEq

inductive StepStatus where
  | pending
  | running
  | completed
  | failed
  | waiting
  | blocked
  deriving DecidableEq

/-- A value of `Input`.  A decoded input has JSON values only. -/
inductive Value (Step : Type) where
  | json (value : Json)
  | steps (children : List Step)

/-- `StepMutation`. -/
structure MutationOf (Step : Type) where
  appendAfter : String := ""
  insertSteps : List Step := []
  modifyStep : String := ""
  deleteSteps : List String := []

structure WaitCondition where
  timeout : Option Int := none
  onTimeout : String := ""

structure Step where
  id : String
  type : StepType
  tool : String := ""
  input : Option (List (String × Value Step)) := some []
  dependsOn : List String := []
  waitFor : Option WaitCondition := none
  onResult : Option (MutationOf Step) := none
  status : StepStatus := .pending
  result : Option (List (String × Json)) := none
  error : String := ""

abbrev StepMutation := MutationOf Step

def Step.text (step : Step) (key : String) : Option String :=
  match mapGet (step.input.getD []) key with
  | some (.json (.str s)) => some s
  | _ => none

/-- `OrchestrationInput`, with whether it has a `TeamSpec`. -/
structure OrchestrationInput where
  (runID accountID projectID : String := "")
  teamSpec : Bool := false
  steps : List Step := []
  message : String := ""
  maxRounds : Int := 0

structure WorkflowInput where
  input : OrchestrationInput
  taskQueues : WorkflowTaskQueues

/-- `OrchestrationResult`, with the state of its summary. -/
structure OrchestrationResult where
  runID : String
  steps : List Step
  state : String
  totalSteps : Nat

def initSteps (input : OrchestrationInput) : Except Err (List Step) :=
  if input.steps.isEmpty && input.teamSpec then
    .error (.external "TeamSpec must be expanded before starting Workflow; use ExpandSteps")
  else
    let steps := if input.steps.isEmpty then
        [{ id := "default", type := .agent, input := some [("message", .json (.str input.message))] }]
      else input.steps
    .ok (steps.map ({ · with status := .pending, result := none, error := "" }))

/-! ## The queue -/

def splitGroupReady (steps : List Step) (i : Nat) (step : Step) : Bool :=
  match step.text "_split_group" with
  | none => true
  | some group => group = "" || (steps.take i).all fun earlier =>
      earlier.text "_split_group" ≠ some group || earlier.status = .completed ||
        earlier.status = .failed

def dependenciesMet (step : Step) (completed : List String) : Bool :=
  step.dependsOn.all (· ∈ completed)

def buildCompletedMap (steps : List Step) : List String :=
  (steps.filter (·.status = .completed)).map Step.id

def readyAt (steps : List Step) (i : Nat) (step : Step) : Bool :=
  step.status = .pending && splitGroupReady steps i step &&
    dependenciesMet step (buildCompletedMap steps)

def findReadyStep (steps : List Step) : Option (Step × Nat) :=
  steps.zipIdx.find? fun (step, i) => readyAt steps i step

def StepMutation.inserts (m : StepMutation) : List Step :=
  m.insertSteps.map ({ · with status := .pending })

def insertAfterStep (steps : List Step) (afterID : String) (inserts : List Step) : List Step :=
  steps.flatMap fun step => if step.id = afterID then step :: inserts else [step]

def applyStepMutation (steps : List Step) (m : StepMutation) : List Step :=
  let replaced := steps.flatMap fun step =>
    if step.id ∈ m.deleteSteps then []
    else if step.id = m.modifyStep ∧ m.insertSteps ≠ [] then m.inserts
    else [step]
  if m.appendAfter ≠ "" ∧ m.insertSteps ≠ [] then insertAfterStep replaced m.appendAfter m.inserts
  else replaced

def deliverEventToWaitingSteps (steps : List Step) (event : String) : List Step :=
  steps.map fun step =>
    if step.type = .wait ∧ step.status = .waiting then
      { step with
        status := .pending
        result := some (mapSet (step.result.getD []) "_external_event" (.str event)) }
    else step

def Step.open (step : Step) : Bool :=
  step.status = .pending || step.status = .running || step.status = .waiting

def hasPendingWork (steps : List Step) : Bool := steps.any Step.open

def allStepsTerminal (steps : List Step) : Bool := steps.all fun step => !step.open

/-! ## The machine -/

/-- The payload of the signal `external-event`: a string, or an object that does not decode into
one. -/
inductive ExternalEvent where
  | text (payload : String)
  | object

def ExternalEvent.isObject : ExternalEvent → Bool
  | .object => true
  | .text _ => false

structure Arrivals where
  commands : List Command := []
  mutations : List StepMutation := []
  events : List ExternalEvent := []

/-- The variables of the workflow, and its channels. -/
structure Locals where
  steps : List Step := []
  cmdCh : List Command := []
  modifyCh : List StepMutation := []
  eventCh : List ExternalEvent := []

structure StepExecResult where
  data : List (String × Json)
  mutation : Option StepMutation := none

/-- What an execution does. -/
inductive Act where
  | deliver (arrivals : Arrivals)
  | init (steps : List Step)
  | receive (reader : Reader) (command : Command)
  | modify (mutation : StepMutation)
  /-- The poll of `processSignals` finds an event. -/
  | pollEvent (event : String)
  /-- A wait step receives an event. -/
  | takeEvent (event : String)
  /-- A receive finds no string. -/
  | dropEvents
  | startStep (step : Step) (index : Nat)
  | startChild (input : AgentWorkflowInput)
  | startTool (input : ToolInput)
  | endStep (index : Nat) (outcome : Except Err StepExecResult)

def Step.ended (outcome : Except Err StepExecResult) (step : Step) : Step :=
  match outcome with
  | .error err => { step with status := .failed, error := err.text }
  | .ok result => { step with status := .completed, result := some result.data }

def endStep (steps : List Step) (index : Nat) (outcome : Except Err StepExecResult) : List Step :=
  let ended := steps.modify index (Step.ended outcome)
  match outcome with
  | .error _ => ended
  | .ok result => result.mutation.elim ended (applyStepMutation ended)

/-- What an action does.  A receive of an event drops the objects before it. -/
def Locals.step (l : Locals) : Act → Locals
  | .deliver arrivals =>
      { l with
        cmdCh := l.cmdCh ++ arrivals.commands
        modifyCh := l.modifyCh ++ arrivals.mutations
        eventCh := l.eventCh ++ arrivals.events }
  | .init steps => { l with steps }
  | .receive _ _ => { l with cmdCh := l.cmdCh.tail }
  | .modify mutation =>
      { l with modifyCh := l.modifyCh.tail, steps := applyStepMutation l.steps mutation }
  | .pollEvent event =>
      { l with
        eventCh := (l.eventCh.dropWhile ExternalEvent.isObject).tail
        steps := deliverEventToWaitingSteps l.steps event }
  | .takeEvent _ => { l with eventCh := (l.eventCh.dropWhile ExternalEvent.isObject).tail }
  | .dropEvents => { l with eventCh := [] }
  | .startStep _ _ => l
  | .startChild _ => l
  | .startTool _ => l
  | .endStep index outcome => { l with steps := endStep l.steps index outcome }

abbrev World := Logged Locals Act

abbrev Flow (α : Type) := Prog Locals.step Stop α

/-- The world of a step queue.  Every answer may depend on all that happened. -/
structure Host where
  arrivals : World → Arrivals := fun _ => {}
  closes : World → Option Err := fun _ => none
  patience : World → Nat := fun _ => 10
  child : World → Option (Except Err WorkflowResult) := fun _ => none
  tool : World → Option (Except Err ToolOutput) := fun _ => some (.ok {})
  sleep : World → Option (Except Err Unit) := fun _ => some (.ok ())
  /-- The timer of a wait step fires before an event. -/
  timesOut : World → Bool := fun _ => false
  /-- `json.Marshal` of an input. -/
  marshal : List (String × Value Step) → Except Err String := fun _ => .ok ""
  /-- The `%v` form of a duration. -/
  durationText : Int → String := fun d => toString d ++ "ns"

def stateText : RunState → String
  | .running => "running"
  | .completed => "completed"
  | .failed => "failed"
  | .canceled => "canceled"
  | .paused => "paused"
  | .waitingInput => "waiting_input"

section Flow

variable (E : Host)

def blocks : Flow Unit := do
  let arrivals ← query E.arrivals
  emit (.deliver arrivals)
  match ← query E.closes with
  | none => pure ()
  | some err => fail (.closed err)

def await {α : Type} (answer : World → Option α) : Flow α := do
  match ← query answer with
  | none => fail .blocked
  | some a => do
      blocks E
      pure a

def cmdCh : CommandCh Locals.step where
  queue := Locals.cmdCh
  receive := .receive

/-! ## Step execution -/

def executeAgentStep (input : WorkflowInput) (step : Step) : Flow (Except Err StepExecResult) := do
  emit (.startChild {
    runID := step.id
    accountID := input.input.accountID
    projectID := input.input.projectID
    message := (step.text "message").getD ""
    systemPrompt := (step.text "system_prompt").getD ""
    taskQueues := input.taskQueues })
  match ← await E E.child with
  | .error err => pure (.error (.within ("agent step " ++ quoted step.id) err))
  | .ok result =>
      pure (.ok {
        data := [("run_id", .str result.runID),
          ("lifecycle_state", .str (stateText result.lifecycleState)), ("step", .int result.step)]
        mutation := step.onResult })

def marshalToolArgs (step : Step) : Except Err String :=
  match step.input with
  | none => .ok ""
  | some args => (E.marshal args).mapError (.within "marshal tool arguments")

def executeToolStep (input : WorkflowInput) (step : Step) : Flow (Except Err StepExecResult) :=
  if step.tool = "" then
    pure (.error (.external ("tool step: tool name is required: " ++ quoted step.id)))
  else
    match marshalToolArgs E step with
    | .error err => pure (.error (.within ("tool step " ++ quoted step.id) err))
    | .ok args => do
        emit (.startTool {
          accountID := input.input.accountID
          projectID := input.input.projectID
          runID := step.id
          toolCallID := step.id
          toolName := step.tool
          args })
        match ← await E E.tool with
        | .error err => pure (.error (.within ("tool step " ++ quoted step.id) err))
        | .ok output =>
            pure (.ok {
              data := [("output", .str output.output), ("exit_code", .int output.exitCode),
                ("is_error", .bool output.isError), ("duration_ms", .int output.durationMs)]
              mutation := step.onResult })

def nextEvent (l : Locals) : Option String :=
  match l.eventCh.dropWhile ExternalEvent.isObject with
  | .text event :: _ => some event
  | _ => none

def receiveEvent : Flow String := do
  blocks E
  let l ← state
  match nextEvent l with
  | none => do
      emit .dropEvents
      fail .blocked
  | some event => do
      emit (.takeEvent event)
      pure event

def awaitEvent (wc : WaitCondition) : Flow (Option String) := do
  if ← query fun w => E.timesOut w && wc.timeout.any (0 < ·) then do
    blocks E
    pure none
  else do
    let event ← receiveEvent E
    pure (some event)

def executeWaitStep (step : Step) : Flow (Except Err StepExecResult) :=
  match step.waitFor with
  | none => pure (.error (.external ("wait step: WaitFor config is required: " ++ quoted step.id)))
  | some wc => do
      match ← awaitEvent E wc with
      | some event =>
          pure (.ok {
            data := [("signal", .str event), ("received", .bool true)], mutation := step.onResult })
      | none =>
          if wc.onTimeout = "fail" then
            pure (.error (.external ("wait step: timeout: " ++ quoted step.id ++
              ", timeout after " ++ E.durationText (wc.timeout.getD 0))))
          else
            let action := if wc.onTimeout = "skip" then "skip" else "timeout"
            pure (.ok { data := [("timeout", .bool true), ("action", .str action)] })

end Flow

def Step.inGroup (group : String) (child : Step) : Step :=
  { child with
    status := .pending
    input := some (mapSet (child.input.getD []) "_split_group" (.json (.str group))) }

def executeSplitStep (step : Step) : Except Err StepExecResult :=
  match mapGet (step.input.getD []) "children" with
  | none => .error (.external ("split step: 'children' in Input is required: " ++ quoted step.id))
  | some (.json _) => .error (.external ("split step: 'children' must be []Step: " ++ quoted step.id))
  | some (.steps children) =>
      .ok {
        data := [("split_group", .str step.id), ("count", .int children.length)]
        mutation := some
          { appendAfter := step.id, insertSteps := children.map (Step.inGroup step.id) } }

def executeJoinStep (step : Step) : Except Err StepExecResult :=
  let joinGroup := (step.text "_join_group").getD ""
  if joinGroup = "" then
    .error (.external ("join step: '_join_group' in Input is required: " ++ quoted step.id))
  else .ok { data := [("join_group", .str joinGroup)], mutation := step.onResult }

def executeEvalStep (step : Step) : StepExecResult where
  data := [("condition", .str ((step.text "condition").getD "")), ("evaluated", .bool true)]
  mutation := step.onResult

section Rounds

variable (E : Host)

def executeStep (input : WorkflowInput) (step : Step) : Flow (Except Err StepExecResult) :=
  match step.type with
  | .agent => executeAgentStep E input step
  | .tool => executeToolStep E input step
  | .wait => executeWaitStep E step
  | .split => pure (executeSplitStep step)
  | .join => pure (executeJoinStep step)
  | .eval => pure (.ok (executeEvalStep step))
  | .other name => pure (.error (.external ("unknown step type: " ++ name)))

/-! ## Rounds -/

def handleControlSignal : Flow Bool := do
  match ← cmdCh.receiveAsync .poll with
  | some .cancel => pure true
  | some .pause => do
      let patience ← query E.patience
      let _ ← waitForResume cmdCh (blocks E) .pause patience
      pure false
  | _ => pure false

def processMutation : Flow Unit := do
  let l ← state
  match l.modifyCh with
  | [] => pure ()
  | mutation :: _ => emit (.modify mutation)

def processEvent : Flow Unit := do
  let l ← state
  match nextEvent l with
  | none => emit .dropEvents
  | some event => emit (.pollEvent event)

def tryExecuteReadyStep (input : WorkflowInput) : Flow Bool := do
  let l ← state
  match findReadyStep l.steps with
  | none => pure false
  | some (step, index) => do
      emit (.startStep step index)
      let outcome ← executeStep E input step
      emit (.endStep index outcome)
      pure true

def processQueue (input : WorkflowInput) : Flow Bool := do
  processMutation
  processEvent
  let executed ← tryExecuteReadyStep E input
  let l ← state
  if executed then pure (!hasPendingWork l.steps)
  else if allStepsTerminal l.steps then pure true
  else
    match ← await E E.sleep with
    | .error err => fail (.failed err)
    | .ok () => pure false

inductive RoundEnd where
  | go
  | done
  | canceled

def processWorkflowRound (input : WorkflowInput) : Flow RoundEnd := do
  if ← handleControlSignal E then pure .canceled
  else do
    let done ← processQueue E input
    pure (if done then .done else .go)

def buildResult (input : WorkflowInput) (state : String) : Flow OrchestrationResult := do
  let l ← Prog.state
  pure { runID := input.input.runID, steps := l.steps, state, totalSteps := l.steps.length }

def rounds (input : WorkflowInput) : Nat → Flow OrchestrationResult
  | 0 => buildResult input reasonMaxRounds
  | n + 1 => do
      match ← processWorkflowRound E input with
      | .canceled => buildResult input "canceled"
      | .done => buildResult input reasonMaxRounds
      | .go => rounds input n

def OrchestrationInput.roundCap (input : OrchestrationInput) : Nat :=
  if 0 < input.maxRounds then input.maxRounds.toNat else 1000

def workflow (input : WorkflowInput) : Flow OrchestrationResult :=
  match input.taskQueues.validateNativeAgent with
  | .error err => fail (.failed err)
  | .ok () =>
      match initSteps input.input with
      | .error err => fail (.failed err)
      | .ok steps => do
          emit (.init steps)
          blocks E
          rounds E input input.input.roundCap

/-- The end of a run and its world. -/
def stepQueueRun (input : WorkflowInput) : Except Stop OrchestrationResult × World :=
  (workflow E input).run ⟨{}, []⟩

end Rounds

/-! ## Cancellation -/

def isCancel : Act → Bool
  | .receive _ .cancel => true
  | _ => false

/-- A cancel was received. -/
def canceled (log : List (Locals × Act)) : Bool := log.any fun e => isCancel e.2

def startsStep : Act → Bool
  | .startStep _ _ => true
  | _ => false

/-- If a cancel was received, the workflow returns the state canceled, and it started no step
after the cancel. -/
def Honoured (r : Except Stop OrchestrationResult × World) : Prop :=
  canceled r.2.log = true →
    r.1.toOption.map OrchestrationResult.state = some "canceled" ∧
      Taken (fun w a => startsStep a = true → canceled w.log = false) r.2.log

instance (r : Except Stop OrchestrationResult × World) : Decidable (Honoured r) :=
  have : ∀ (w : World) (a : Act), Decidable (startsStep a = true → canceled w.log = false) :=
    fun _ _ => inferInstance
  inferInstanceAs (Decidable (_ → _ ∧ _))

/-- The command is a cancel that a pause receives. -/
def pausedCancel : Act → Bool
  | .receive .pause .cancel => true
  | _ => false

def polledCancel : Act → Bool
  | .receive .pause _ => false
  | .receive _ .cancel => true
  | _ => false

/-! ## Invariants of a run -/

/-- The actions of a step that is executed, other than the receive of an event. -/
def Act.quiet : Act → Bool
  | .deliver _ | .startChild _ | .startTool _ => true
  | _ => false

/-- The event with which a wait step was completed. -/
def signalOf : Except Err StepExecResult → Option String
  | .error _ => none
  | .ok result =>
      match mapGet result.data "signal" with
      | some (.str event) => some event
      | _ => none

/-- What every action of a run keeps.  `P` holds after a cancel. -/
structure Invariant (I P : World → Prop) : Prop where
  quiet : ∀ {w a}, a.quiet = true → I w → I (w.act Locals.step a)
  cancel : ∀ {w}, I w → P (w.act Locals.step (.receive .poll .cancel))
  poll : ∀ {w c}, c ≠ .cancel → I w → I (w.act Locals.step (.receive .poll c))
  pause : ∀ {w c}, I w → I (w.act Locals.step (.receive .pause c))
  modify : ∀ {w m}, I w → I (w.act Locals.step (.modify m))
  drop : ∀ {w}, I w → I (w.act Locals.step .dropEvents)
  polled : ∀ {w event}, nextEvent w.st = some event → I w →
    I (w.act Locals.step (.pollEvent event))
  start : ∀ {w step index}, I w → I (w.act Locals.step (.startStep step index))
  ends : ∀ {w index outcome}, signalOf outcome = none → I w →
    I (w.act Locals.step (.endStep index outcome))
  signaled : ∀ {w index event mutation}, nextEvent w.st = some event → I w →
    I ((w.act Locals.step (.takeEvent event)).act Locals.step (.endStep index
      (.ok ⟨[("signal", .str event), ("received", .bool true)], mutation⟩)))

section Invariant

variable {E : Host} {input : WorkflowInput} {step : Step} {w : World} {α : Type}

theorem blocks_keeps {I : World → Prop}
    (hquiet : ∀ {w a}, Act.quiet a = true → I w → I (w.act Locals.step a)) :
    Keeps I (blocks E) := by
  refine .bind (.query _) fun _ => .bind (.emit fun _ h => hquiet rfl h) fun _ =>
    .bind (.query _) fun answer => ?_
  cases answer with
  | none => exact .ret _
  | some err => exact .fail _

theorem await_keeps {I : World → Prop} {answer : World → Option α}
    (hquiet : ∀ {w a}, Act.quiet a = true → I w → I (w.act Locals.step a)) :
    Keeps I (await E answer) := by
  refine .bind (.query _) fun a => ?_
  cases a with
  | none => exact .fail _
  | some a => exact .bind (blocks_keeps hquiet) fun _ => .ret _

def Ended (I : World → Prop) (index : Nat) (outcome : Except Err StepExecResult)
    (v : World) : Prop :=
  I (v.act Locals.step (.endStep index outcome))

variable {I P : World → Prop} {index : Nat}

section Steps

variable (h : Invariant I P) (hw : I w)
include h hw

theorem Invariant.ret {outcome : Except Err StepExecResult} (hsignal : signalOf outcome = none) :
    Yields (pure outcome : Flow _) w (Ended I index) (fun _ v => I v) :=
  .ret (h.ends hsignal hw)

theorem Invariant.executeWaitStep :
    Yields (executeWaitStep E step) w (Ended I index) (fun _ v => I v) := by
  unfold StepQueue.executeWaitStep
  split
  · exact h.ret hw rfl
  refine .bind (Q := fun event v => match event with
    | none => I v
    | some event => ∀ mutation, Ended I index
        (.ok ⟨[("signal", .str event), ("received", .bool true)], mutation⟩) v)
    (.asking ?_) fun event v hv => ?_
  · split_ifs
    · exact .bind (blocks_keeps h.quiet _ hw) fun _ _ hv => .ret hv
    refine .bind (.bind (blocks_keeps h.quiet _ hw) fun _ v hv => .read ?_) fun _ _ hu => .ret hu
    cases hnext : nextEvent v.st with
    | none => exact .acting (.fail (h.drop hv))
    | some event => exact .acting (.ret fun _ => h.signaled hnext hv)
  · cases event with
    | some event => exact .ret (hv _)
    | none =>
      split_ifs
      · exact h.ret hv rfl
      all_goals exact h.ret hv rfl

theorem Invariant.executeStep :
    Yields (executeStep E input step) w (Ended I index) (fun _ v => I v) := by
  unfold StepQueue.executeStep
  split
  · refine .acting (.bind (await_keeps h.quiet _ (h.quiet rfl hw)) fun answer v hv => ?_)
    cases answer <;> exact h.ret hv rfl
  · unfold executeToolStep
    split_ifs
    · exact h.ret hw rfl
    split
    · exact h.ret hw rfl
    · refine .acting (.bind (await_keeps h.quiet _ (h.quiet rfl hw)) fun answer v hv => ?_)
      cases answer <;> exact h.ret hv rfl
  · exact h.executeWaitStep hw
  · refine h.ret hw ?_
    unfold executeSplitStep
    split <;> rfl
  · refine h.ret hw ?_
    unfold executeJoinStep
    dsimp only
    split_ifs <;> rfl
  · exact h.ret hw rfl
  · exact h.ret hw rfl

end Steps

theorem Invariant.handleControlSignal (h : Invariant I P) (hw : I w) :
    Yields (handleControlSignal E) w (fun canceled v => if canceled then P v else I v)
      (fun _ v => I v) := by
  refine .bind (Q := fun answer v => match answer with
    | some .cancel => P v
    | _ => I v) (CommandCh.receiveAsync_yields (fun _ => hw) fun c rest _ => ?_) ?_
  · cases c with
    | cancel => exact h.cancel hw
    | pause | resume | other => exact h.poll nofun hw
  · intro answer v hv
    match answer, hv with
    | none, hv => exact .ret hv
    | some .cancel, hv => exact .ret hv
    | some .resume, hv => exact .ret hv
    | some (.other name), hv => exact .ret hv
    | some .pause, hv =>
      refine .asking (.bind (Q := fun _ u => I u) (waitForResume_yields (I := I)
        (blocks_keeps h.quiet) (fun _ hu => hu) ?_ _ hv)
        fun _ _ hu => .ret hu)
      intro u c rest hu _
      cases c <;> exact h.pause hu

theorem Invariant.processQueue (h : Invariant I P) (hw : I w) :
    Yields (processQueue E input) w (fun _ v => I v) (fun _ v => I v) := by
  have hmutation : Yields processMutation w (fun _ v => I v) (fun _ v => I v) := by
    refine .read ?_
    cases w.st.modifyCh with
    | nil => exact .ret hw
    | cons m rest => exact .emit (h.modify hw)
  refine .bind hmutation fun _ v hv => ?_
  have hevent : Yields processEvent v (fun _ u => I u) (fun _ v => I v) := by
    refine .read ?_
    cases hnext : nextEvent v.st with
    | none => exact .emit (h.drop hv)
    | some event => exact .emit (h.polled hnext hv)
  refine .bind hevent fun _ u hu => ?_
  have hstep : Yields (tryExecuteReadyStep E input) u (fun _ v => I v) (fun _ v => I v) := by
    refine .read ?_
    cases findReadyStep u.st.steps with
    | none => exact .ret hu
    | some found =>
      exact .acting (.bind (h.executeStep (h.start hu)) fun _ _ hv => .acting (.ret hv))
  refine .bind hstep fun executed t ht => .read ?_
  split_ifs
  · exact .ret ht
  · exact .ret ht
  · refine .bind (await_keeps h.quiet _ ht) fun answer v hv => ?_
    cases answer with
    | error err => exact .fail hv
    | ok _ => exact .ret hv

/-- A run was canceled, or it ended otherwise. -/
def Finished (I P : World → Prop) (result : OrchestrationResult) (v : World) : Prop :=
  (result.state = "canceled" ∧ P v) ∨ I v

theorem Invariant.rounds (h : Invariant I P) (n : Nat) (hw : I w) :
    Yields (rounds E input n) w (Finished I P) (fun _ v => I v) := by
  induction n generalizing w with
  | zero => exact .read (.ret (.inr hw))
  | succ n ih =>
    refine .bind (Q := fun ending v => match ending with
      | .canceled => P v
      | .done | .go => I v) (.bind (h.handleControlSignal hw) fun canceled v hv => ?_)
      fun ending v hv => ?_
    · cases canceled with
      | true => exact .ret hv
      | false =>
        refine .bind (h.processQueue hv) fun done u hu => ?_
        cases done <;> exact .ret hu
    · cases ending with
      | canceled => exact .read (.ret (.inl ⟨rfl, hv⟩))
      | done => exact .read (.ret (.inr hv))
      | go => exact ih hv

theorem Invariant.workflow (h : Invariant I P) (hempty : I ⟨{}, []⟩)
    (hstart : ∀ steps, I ((⟨{}, []⟩ : World).act Locals.step (.init steps))) :
    Yields (workflow E input) ⟨{}, []⟩ (Finished I P) (fun _ v => I v) := by
  unfold StepQueue.workflow
  split
  · exact .fail hempty
  split
  · exact .fail hempty
  exact .acting (.bind (blocks_keeps h.quiet _ (hstart _)) fun _ _ hv =>
    h.rounds _ hv)

theorem Invariant.run (h : Invariant I I) (hempty : I ⟨{}, []⟩)
    (hstart : ∀ steps, I ((⟨{}, []⟩ : World).act Locals.step (.init steps))) :
    I (stepQueueRun E input).2 :=
  (h.workflow hempty hstart).world (fun _ _ hfinished => hfinished.elim And.right id)
    fun _ _ hv => hv

end Invariant

def Going (w : World) : Prop := ∀ e ∈ w.log, polledCancel e.2 = false

theorem Going.act {w : World} {a : Act} (h : Going w) (ha : polledCancel a = false) :
    Going (w.act Locals.step a) :=
  List.forall_mem_cons.mpr ⟨ha, h⟩

def Polled (w : World) : Prop :=
  ∃ l earlier, w.log = (l, .receive .poll .cancel) :: earlier ∧ ∀ e ∈ earlier, polledCancel e.2 = false

theorem Going.quiet {w : World} {a : Act} (ha : a.quiet = true) (h : Going w) :
    Going (w.act Locals.step a) := by
  cases a with
  | deliver | startChild | startTool => exact h.act rfl
  | _ => cases ha

theorem going_invariant : Invariant Going Polled where
  quiet := Going.quiet
  cancel := fun {w} h => ⟨w.st, w.log, rfl, h⟩
  poll := by
    intro w c hc h
    cases c with
    | cancel => exact absurd rfl hc
    | pause | resume | other => exact h.act rfl
  pause h := h.act rfl
  modify h := h.act rfl
  drop h := h.act rfl
  polled _ h := h.act rfl
  start h := h.act rfl
  ends _ h := h.act rfl
  signaled _ h := (h.act rfl).act rfl

variable {log : List (Locals × Act)}

theorem canceled_eq_false (hgoing : ∀ e ∈ log, polledCancel e.2 = false)
    (hpaused : ∀ e ∈ log, pausedCancel e.2 = false) : canceled log = false := by
  refine List.any_eq_false.mpr fun e he => ?_
  have hpolled := hgoing e he
  have hpaused := hpaused e he
  obtain ⟨l, a⟩ := e
  cases a with
  | receive reader c =>
    cases c with
    | cancel => cases reader <;> simp_all [polledCancel, pausedCancel]
    | _ => simp [isCancel]
  | _ => simp [isCancel]

theorem taken_of_not_canceled (h : canceled log = false) :
    Taken (fun w a => startsStep a = true → canceled w.log = false) log := by
  induction log with
  | nil => trivial
  | cons entry earlier ih =>
    have hearlier : canceled earlier = false := (Bool.or_eq_false_iff.mp h).2
    exact ⟨fun _ => hearlier, ih hearlier⟩

/-- In every run in which no pause receives a cancel, a cancel is honoured. -/
theorem cancel_honoured (E : Host) (input : WorkflowInput)
    (h : LogMeets (fun e => pausedCancel e.2 = false) (stepQueueRun E input).2) :
    Honoured (stepQueueRun E input) := by
  have hempty : Going ⟨{}, []⟩ := List.forall_mem_nil _
  have hrun : Yields (workflow E input) ⟨{}, []⟩ _ _ :=
    going_invariant.workflow hempty fun _ => hempty.act rfl
  unfold Yields at hrun
  change LogMeets _ ((workflow E input).run ⟨{}, []⟩).2 at h
  change Honoured ((workflow E input).run ⟨{}, []⟩)
  generalize (workflow E input).run ⟨{}, []⟩ = r at hrun h
  obtain ⟨res, v⟩ := r
  intro hcanceled
  have hpolled : ¬ Going v := fun hgoing => by
    have := canceled_eq_false hgoing h
    rw [hcanceled] at this
    cases this
  cases res with
  | error e => exact absurd hrun hpolled
  | ok result =>
    rcases hrun with ⟨hstate, l, earlier, hlog, hearlier⟩ | hgoing
    · refine ⟨congrArg some hstate, ?_⟩
      unfold LogMeets at h
      rw [hlog] at h ⊢
      have hnone := canceled_eq_false hearlier fun e he => h e (List.mem_cons_of_mem _ he)
      exact ⟨nofun, taken_of_not_canceled hnone⟩
    · exact absurd hgoing hpolled

/-- A host with the given commands, which are there when the run starts. -/
def commandHost (commands : List Command) : Host where
  arrivals w := if w.log.length = 1 then { commands } else {}

/-- Two tool steps. -/
def searchQueue : WorkflowInput where
  input := { steps := [{ id := "a", type := .tool, tool := "search" },
    { id := "b", type := .tool, tool := "search" }] }
  taskQueues := { nativeControl := "control", nativeLLM := "llm", nativeTool := "tool" }

/-- A run that is paused, resumed and canceled.  It executes the first step only. -/
theorem cancel_honoured_resumed :
    LogMeets (fun e => pausedCancel e.2 = false)
        (stepQueueRun (commandHost [.pause, .resume, .cancel]) searchQueue).2 ∧
      Honoured (stepQueueRun (commandHost [.pause, .resume, .cancel]) searchQueue) := by
  have hpaused : LogMeets (fun e => pausedCancel e.2 = false)
      (stepQueueRun (commandHost [.pause, .resume, .cancel]) searchQueue).2 := by decide +kernel
  exact ⟨hpaused, cancel_honoured (commandHost [.pause, .resume, .cancel]) searchQueue hpaused⟩

/-- The run is paused, and then canceled.  The pause ends, and the tools are called. -/
theorem cancel_ignored : ¬ Honoured (stepQueueRun (commandHost [.pause, .cancel]) searchQueue) := by
  decide +kernel

/-! ## External events -/

open List

/-- `SignalExternalEvent` sends a map, which the channel holds as a JSON object.  The nil map is
sent as `null`, which leaves the string that it is decoded into empty. -/
def signalExternalEvent (event : Option (List (String × Json))) : ExternalEvent :=
  if event.isSome then .object else .text ""

def deliveredEvents : List (Locals × Act) → List ExternalEvent
  | [] => []
  | (_, .deliver arrivals) :: earlier => deliveredEvents earlier ++ arrivals.events
  | _ :: earlier => deliveredEvents earlier

/-- The events with which wait steps were completed. -/
def completions : List (Locals × Act) → List String
  | [] => []
  | (_, .endStep _ outcome) :: earlier => completions earlier ++ (signalOf outcome).toList
  | _ :: earlier => completions earlier

/-- The events that arrive are strings, and the poll of a round finds none. -/
def unpolled (e : Locals × Act) : Bool :=
  match e.2 with
  | .deliver arrivals => arrivals.events.all fun event => !event.isObject
  | .pollEvent _ | .dropEvents => e.1.eventCh.isEmpty
  | _ => true

/-- Every event that arrived completed a wait step with its content, or is in the channel. -/
def EventsKept (w : World) : Prop :=
  deliveredEvents w.log = (completions w.log).map .text ++ w.st.eventCh

/-- What the receives of a run account for.  When no poll found an event, `received` is what
completed wait steps. -/
def Accounted (w : World) : Prop :=
  ∃ received, deliveredEvents w.log = received ++ w.st.eventCh ∧
    (completions w.log).map .text <+ (received.filter fun event => !event.isObject) ∧
    (LogMeets (unpolled · = true) w → received = (completions w.log).map .text ∧
      ∀ event ∈ w.st.eventCh, event.isObject = false)

section Events

variable {w : World} {a : Act} {event : String}

theorem Accounted.act (h : Accounted w) (hch : (w.st.step a).eventCh = w.st.eventCh)
    (hdelivered : deliveredEvents ((w.st, a) :: w.log) = deliveredEvents w.log)
    (hcompletions : completions ((w.st, a) :: w.log) = completions w.log) :
    Accounted (w.act Locals.step a) := by
  obtain ⟨received, hevents, hsub, hkept⟩ := h
  rw [← hdelivered, ← hch] at hevents
  rw [← hcompletions] at hsub
  refine ⟨received, hevents, hsub, fun hmeets => ?_⟩
  have hearlier := hkept (forall_mem_cons.mp hmeets).2
  rwa [← hcompletions, ← hch] at hearlier

theorem Accounted.quiet (ha : a.quiet = true) (h : Accounted w) :
    Accounted (w.act Locals.step a) := by
  cases a with
  | startChild | startTool => exact h.act rfl rfl rfl
  | deliver arrivals =>
    obtain ⟨received, hevents, hsub, hkept⟩ := h
    refine ⟨received, ?_, hsub, fun hmeets => ?_⟩
    · simp [Logged.act, deliveredEvents, Locals.step, hevents]
    obtain ⟨hnew, hearlier⟩ := forall_mem_cons.mp hmeets
    obtain ⟨hreceived, htexts⟩ := hkept hearlier
    refine ⟨hreceived, fun event hevent => ?_⟩
    rcases mem_append.mp hevent with hold | hnew'
    · exact htexts event hold
    · simpa using all_eq_true.mp hnew event hnew'
  | _ => cases ha

theorem nextEvent_eq (h : nextEvent w.st = some event) :
    ∃ objects, (∀ found ∈ objects, ExternalEvent.isObject found = true) ∧
      w.st.eventCh = objects ++ [.text event] ++ (w.st.step (.takeEvent event)).eventCh := by
  refine ⟨w.st.eventCh.takeWhile ExternalEvent.isObject, all_eq_true.mp all_takeWhile, ?_⟩
  have hsplit := w.st.eventCh.takeWhile_append_dropWhile (p := ExternalEvent.isObject)
  unfold nextEvent at h
  split at h
  · next payload rest hrest =>
    cases h
    conv_lhs => rw [← hsplit, hrest]
    simp [Locals.step, hrest]
  · cases h

/-- A receive takes the first events of the channel, and `done` completes a wait step. -/
theorem Accounted.receive {v : World} (h : Accounted w) {taken : List ExternalEvent}
    (done : List String) (hch : w.st.eventCh = taken ++ v.st.eventCh)
    (hdelivered : deliveredEvents v.log = deliveredEvents w.log)
    (hcompletions : completions v.log = completions w.log ++ done)
    (hdone : done.map .text <+ taken.filter fun event => !event.isObject)
    (hunpolled : LogMeets (unpolled · = true) v → LogMeets (unpolled · = true) w ∧
      ((∀ event ∈ w.st.eventCh, event.isObject = false) → taken = done.map .text)) :
    Accounted v := by
  obtain ⟨received, hevents, hsub, hkept⟩ := h
  refine ⟨received ++ taken, ?_, ?_, fun hmeets => ?_⟩
  · rw [hdelivered, hevents, hch, append_assoc]
  · rw [hcompletions, map_append, filter_append]
    exact hsub.append hdone
  · obtain ⟨hearlier, htaken⟩ := hunpolled hmeets
    obtain ⟨rfl, htexts⟩ := hkept hearlier
    rw [htaken htexts, hcompletions, map_append]
    exact ⟨rfl, fun event hevent => htexts event (hch ▸ mem_append_right _ hevent)⟩

theorem Accounted.drop (h : Accounted w) : Accounted (w.act Locals.step .dropEvents) := by
  refine h.receive [] (append_nil _).symm rfl (append_nil _).symm (nil_sublist _) ?_
  intro hmeets
  obtain ⟨hempty, hearlier⟩ := forall_mem_cons.mp hmeets
  exact ⟨hearlier, fun _ => isEmpty_iff.mp hempty⟩

theorem accounted_invariant : Invariant Accounted Accounted where
  quiet := Accounted.quiet
  cancel h := h.act rfl rfl rfl
  poll _ h := h.act rfl rfl rfl
  pause h := h.act rfl rfl rfl
  modify h := h.act rfl rfl rfl
  drop := Accounted.drop
  polled := by
    intro w event hnext h
    obtain ⟨objects, -, hch⟩ := nextEvent_eq hnext
    refine h.receive [] hch rfl (append_nil _).symm (nil_sublist _) fun hmeets => ?_
    -- a poll that finds an event is excluded
    have hempty := (forall_mem_cons.mp hmeets).1
    simp [unpolled, hch] at hempty
  start h := h.act rfl rfl rfl
  ends hsignal h := h.act rfl rfl (by simp [completions, hsignal])
  signaled := by
    intro w index event mutation hnext h
    obtain ⟨objects, hobjects, hch⟩ := nextEvent_eq hnext
    refine h.receive [event] hch rfl rfl ?_ fun hmeets => ?_
    · simp [ExternalEvent.isObject]
    refine ⟨(forall_mem_cons.mp (forall_mem_cons.mp hmeets).2).2, fun htexts => ?_⟩
    have hnone : objects = [] := eq_nil_iff_forall_not_mem.mpr fun found hfound => by
      have htext := htexts found (by simp [hch, hfound])
      rw [hobjects found hfound] at htext
      cases htext
    rw [hnone]
    rfl

theorem run_accounted (E : Host) (input : WorkflowInput) : Accounted (stepQueueRun E input).2 :=
  accounted_invariant.run ⟨[], rfl, .slnil, fun _ => ⟨rfl, nofun⟩⟩
    fun _ => ⟨[], rfl, .slnil, fun _ => ⟨rfl, nofun⟩⟩

/-- In every run the events are received in the order in which they arrive, and wait steps are
completed with strings among them.  An object that is received is lost. -/
theorem objects_lost (E : Host) (input : WorkflowInput) :
    let w := (stepQueueRun E input).2
    ∃ received, deliveredEvents w.log = received ++ w.st.eventCh ∧
      (completions w.log).map .text <+ received.filter fun event => !event.isObject := by
  obtain ⟨received, hevents, hsub, -⟩ := run_accounted E input
  exact ⟨received, hevents, hsub⟩

/-- When the events are strings and no poll of a round finds one, every event completes a wait
step with its content or stays in the channel. -/
theorem events_complete_waits (E : Host) (input : WorkflowInput)
    (h : LogMeets (unpolled · = true) (stepQueueRun E input).2) :
    EventsKept (stepQueueRun E input).2 := by
  obtain ⟨received, hevents, -, hkept⟩ := run_accounted E input
  rw [EventsKept, hevents, (hkept h).1]

end Events

def waitHost (first later : List ExternalEvent) : Host where
  arrivals w := { events := if w.log.length = 1 then first else later }

/-- A wait step after a step that does not block. -/
def waitQueue (maxRounds : Int) : WorkflowInput where
  input := {
    steps := [{ id := "a", type := .eval },
      { id := "b", type := .wait, waitFor := some {}, dependsOn := ["a"] }]
    maxRounds }
  taskQueues := { nativeControl := "control", nativeLLM := "llm", nativeTool := "tool" }

/-- The event arrives when the wait step blocks. -/
theorem events_complete_waits_late :
    EventsKept (stepQueueRun (waitHost [] [.text "go"]) (waitQueue 2)).2 := by
  have hunpolled : LogMeets (unpolled · = true)
      (stepQueueRun (waitHost [] [.text "go"]) (waitQueue 2)).2 := by decide +kernel
  exact events_complete_waits (waitHost [] [.text "go"]) (waitQueue 2) hunpolled

/-- An event of `SignalExternalEvent` arrives before the wait step is reached, and is dropped. -/
theorem events_lost :
    ¬ EventsKept (stepQueueRun (waitHost [signalExternalEvent (some [])] []) (waitQueue 2)).2 := by
  refine ne_of_apply_ne length ?_
  decide +kernel

end AgentOS.Agent.StepQueue
