import AgentOS.Kit.Logged
import AgentOS.Plan.State
import AgentOS.Plan.Scheduler
import AgentOS.Plan.Policy

/-!
# The machine that the plan workflow runs on

`PlanWorkflow` of `agentos/temporal/plan_workflow.go` keeps its state in local
variables and talks to the world through activities, Nexus operations, timers
and signal channels.  This module gives the three parts of that setting.
-/

namespace AgentOS.Plan

open Kit

/-- `planWorkflowInput`.  `planActivity` is the one field of its `TaskQueues`. -/
structure PlanWorkflowInput where
  spec : RunPlanSpec
  status : RunPlanStatus := {}
  (planActivity nexusEndpoint : String := "")
  nexusPeers : List (String × String) := []
  workflowVersion : Int := 0
  continued : Bool := false
  (continuationCount iterationCount expansionCount : Int := 0)
  processedControls : List String := []
  processedSignals : List String := []

/-- `planWorkflowRuntime`, the fields that stay as they are during an execution.
The scheduler is part of `Host`. -/
structure PlanWorkflowRuntime where
  maxParallel : Int
  nexusEndpoint : String
  nexusPeers : List (String × String)
  nexusNodeRuns : Bool

structure ValidatePlanOutput where
  plan : ExecutablePlan
  controlsByNode : List (String × List ControlOperation)
  capabilitiesByNode : List (String × CapabilitySelectionTrace)

/-- `EvaluatePlanExpansionOutput` of an expansion that took place. -/
structure PlanExpansion where
  delta : PlanDelta
  spec : RunPlanSpec
  validation : ValidatePlanOutput

/-- The failure of a Nexus operation.  `started` tells whether the operation had
started the run before it failed; the workflow sees only the error. -/
structure NexusFailure where
  started : Bool
  err : Err

/-- `planNodeRun`: the promise of a run, `none` until it settles. -/
structure PlanNodeRun where
  future : Option (Except NexusFailure RunStatus) := none
  canceled : Bool := false

inductive Stage where
  | setup
  | guard
  | settle
  | controls
  | signals
  | preSchedule
  | decide
  | start
  | poll
  | finish
  /-- The loop is left and the operations are drained. -/
  | drain
  deriving DecidableEq

/-- The variables of one execution of the workflow. -/
structure Locals where
  spec : RunPlanSpec
  state : State
  validation : ValidatePlanOutput
  (expansionCount iterationCount : Int)
  paused : Bool
  processedControls : List String
  processedSignals : List String
  nodeRuns : SortedMap String PlanNodeRun
  controlCh : List ControlMessage
  signalCh : List SignalMessage
  stage : Stage

structure Arrivals where
  controls : List ControlMessage := []
  signals : List SignalMessage := []
  settled : List (String × Except NexusFailure RunStatus) := []

/-- What the workflow does. -/
inductive Act where
  /-- `state.Apply(event)`, whether it succeeds or not. -/
  | apply (event : StateEvent)
  | persist (spec : RunPlanSpec) (status : RunPlanStatus) (event : StateEvent)
      (key : String) (answer : Option Err)
  | resolveInput (node : PlanNodeSpec)
      (answer : Except Err (List (String × Json) × InputResolutionTrace))
  | startNode (node : PlanNodeSpec) (attempt : Int) (answer : Except Err RunStatus)
  | startNexus (nodeID : String) (run : RunSpec) (endpoint : String)
  | statusNode (runID : String) (answer : Except Err RunStatus)
  | controlNode (runID : String) (control : ControlRequest) (answer : Option Err)
  | signalNode (runID : String) (signal : Signal) (answer : Option Err)
  | publish (node : PlanNodeSpec) (status : RunStatus)
      (answer : Except Err (List ArtifactRef))
  | evaluateExpansion (node : PlanNodeSpec) (answer : Except Err (Option PlanExpansion))
  /-- The assignments of `applyPlanExpansion` after its event. -/
  | adoptExpansion (expansion : PlanExpansion)
  | setPaused (paused : Bool)
  /-- The next message, as it was decoded. -/
  | receiveControl (control : ControlRequest)
  | receiveSignal (signal : Signal)
  | markControl (control : ControlRequest)
  | markSignal (signal : Signal)
  | removePromise (runID : String)
  | cancelPromise (runID : String)
  /-- `workflow.Sleep` or `workflow.AwaitWithTimeout`. -/
  | wait (answer : Option Err)
  | deliver (arrivals : Arrivals)
  | nextIteration
  | enter (stage : Stage)
  | validate (answer : Except Err ValidatePlanOutput)
  /-- An execution begins with these variables. -/
  | begin (locals : Locals)

def settlePromise (runs : SortedMap String PlanNodeRun)
    (settled : String × Except NexusFailure RunStatus) : SortedMap String PlanNodeRun :=
  match runs.get? settled.1 with
  | some run =>
      if run.future.isNone then runs.insert settled.1 { run with future := some settled.2 }
      else runs
  | none => runs

def dropRun (runs : SortedMap String PlanNodeRun) (runID : String) : SortedMap String PlanNodeRun :=
  ⟨runs.entries.filter fun e => e.1 != runID, runs.sorted.filter _⟩

/-- Cancel the operation of a run, if it is registered. -/
def cancelRun (runs : SortedMap String PlanNodeRun) (runID : String) :
    SortedMap String PlanNodeRun :=
  match runs.get? runID with
  | some run => runs.insert runID { run with canceled := true }
  | none => runs

/-- The effect of an action on the variables. -/
def Locals.step (l : Locals) : Act → Locals
  | .apply event => { l with state := (l.state.apply event.at_ event).1 }
  | .startNexus _ run _ => { l with nodeRuns := l.nodeRuns.insert run.runID {} }
  | .adoptExpansion expansion =>
      { l with
        spec := expansion.spec
        validation := expansion.validation
        expansionCount := int32 (l.expansionCount + 1) }
  | .setPaused paused => { l with paused := paused }
  | .receiveControl _ => { l with controlCh := l.controlCh.tail }
  | .receiveSignal _ => { l with signalCh := l.signalCh.tail }
  | .markControl control =>
      { l with processedControls := control.idempotencyKey :: l.processedControls }
  | .markSignal signal =>
      { l with processedSignals := signal.idempotencyKey :: l.processedSignals }
  | .removePromise runID => { l with nodeRuns := dropRun l.nodeRuns runID }
  | .cancelPromise runID => { l with nodeRuns := cancelRun l.nodeRuns runID }
  | .deliver arrivals =>
      { l with
        controlCh := l.controlCh ++ arrivals.controls
        signalCh := l.signalCh ++ arrivals.signals
        nodeRuns := arrivals.settled.foldl settlePromise l.nodeRuns }
  | .nextIteration =>
      { l with iterationCount := int32 (l.iterationCount + 1), stage := .guard }
  | .enter stage => { l with stage := stage }
  | .validate (.ok validation) => { l with validation := validation }
  | .validate (.error _) => l
  | .begin locals => locals
  | .persist .. | .resolveInput .. | .startNode .. | .statusNode .. | .controlNode ..
  | .signalNode .. | .publish .. | .evaluateExpansion .. | .wait .. => l

/-- The variables with the log of what the workflow did. -/
abbrev World := Logged Locals Act

abbrev Workflow (α : Type) := Prog Locals.step Err α

/-- The world of a workflow.  Every answer may depend on all that happened. -/
structure Host where
  /-- `workflow.Now`, which is never the zero time. -/
  now : World → { t : Time // 0 < t }
  persist : World → Option Err
  resolveInput : World → Except Err (List (String × Json) × InputResolutionTrace)
  startNode : World → Except Err RunStatus
  statusNode : World → Except Err RunStatus
  controlNode : World → Option Err
  signalNode : World → Option Err
  /-- The artifact store and the checks of the payloads that it holds. -/
  publish : World → Option Err
  /-- `NextPlanDelta`: the delta that the published artifacts ask for. -/
  nextPlanDelta : World → Except Err (Option PlanDelta)
  /-- The validator with the catalogs as they are at the time. -/
  validator : World → Validator
  wait : World → Option Err
  arrivals : World → Arrivals
  historyLength : World → Int
  /-- Whether the execution starts nodes through Nexus operations: the version
  marker that `workflow.GetVersion` reads from the history. -/
  nexusNodeRuns : World → Bool
  scheduler : Scheduler
  digest : Digest

section Activities

variable (E : Host)

def arrive : Workflow Unit := do
  let arrivals ← Prog.query E.arrivals
  Prog.emit (.deliver arrivals)

def ask {α : Type} (answer : World → α) (act : α → Act) : Workflow α := do
  let reply ← Prog.query answer
  Prog.emit (act reply)
  arrive E
  pure reply

def orErr : Option Err → Workflow Unit
  | none => pure ()
  | some err => Prog.fail err

def ofExcept {α : Type} : Except Err α → Workflow α
  | .ok a => pure a
  | .error err => Prog.fail err

def now : Workflow Time := Prog.query fun w => (E.now w).val

def wait : Workflow Unit := do
  let answer ← ask E E.wait .wait
  orErr answer

end Activities

end AgentOS.Plan
