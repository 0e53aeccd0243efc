import AgentOS.Plan.Loop

/-!
# The plan loop as an automaton

An automaton over control points that says what the plan loop can do next, and
nothing of how it computes it.  `AgentOS.Plan.Refine` shows that every run of the
workflow is a path of this automaton, and the properties of the loop are
invariants of the automaton.
-/

namespace AgentOS.Plan

open Kit

/-! ## State events -/

def asked (w : World) (act : Act) (arrivals : Arrivals) : World :=
  (w.act Locals.step act).act Locals.step (.deliver arrivals)

def reduced (w : World) (time : Time) (event : StateEvent) : State × Option Err :=
  w.st.state.apply (stamped w.st time event).at_ (stamped w.st time event)

def applied (w : World) (time : Time) (event : StateEvent) : World :=
  w.act Locals.step (.apply (stamped w.st time event))

/-- The ends of `applyPlanStateEvent`: the event is saved, or an error comes back.
An event can be applied and still fail, when it is not saved. -/
inductive Posted (E : Host) (spec : RunPlanSpec) (event : StateEvent) (w : World) :
    Option Err → World → Prop
  | refused {time err} (htime : time = (E.now w).val)
      (hrefused : (reduced w time event).2 = some err) :
      Posted E spec event w (some err) (applied w time event)
  | unscoped {time err} (htime : time = (E.now w).val) (happlied : (reduced w time event).2 = none)
      (hscope : validateRunPlanScope spec = .error err) :
      Posted E spec event w (some err) (applied w time event)
  | answered {time final key answer arrivals} (htime : time = (E.now w).val)
      (happlied : (reduced w time event).2 = none)
      (hscope : validateRunPlanScope spec = .ok ()) (hfinal : final.kind = event.kind) :
      Posted E spec event w answer
        (asked (applied w time event)
          (.persist spec (reduced w time event).1.status final key answer) arrivals)

/-! ## The handling of a node -/

inductive Work where
  /-- `startPlanNode` begins. -/
  | opening
  | announced
  | readied
  | resolved (attempt : Int) (input : List (String × Json)) (trace : InputResolutionTrace)
  | accepted (attempt : Int) (input : List (String × Json))
  | started (attempt : Int) (input : List (String × Json))
  /-- A running node is looked at, by the poll step or by the settle step. -/
  | running (polled : Bool) (status : PlanNodeStatus)
  /-- The run of a node that timed out is canceled. -/
  | timedOut (status : PlanNodeStatus)
  /-- `applyNodeAttemptFailure` begins. -/
  | attemptFailed (runID reason : String)
  /-- `applyNodeRunTerminal` begins. -/
  | ended (status : RunStatus)
  | charged (status : RunStatus)
  | publishing (status : RunStatus) (artifacts : List ArtifactRef)
  | published (status : RunStatus) (artifacts : List ArtifactRef)
  | fulfilled (status : RunStatus) (artifacts : List ArtifactRef)
  | expanding (status : RunStatus) (expansion : PlanExpansion)
  | expanded (status : RunStatus) (expansion : PlanExpansion)
  /-- The last event of the handling is to be recorded. -/
  | closing (event : StateEvent)
  | over (progressed : Bool)
  | broken (err : Err)

def failedAttempt (current : PlanNodeStatus) : Int :=
  if current.attempts ≤ 0 then 1 else current.attempts

def succeededEvent (node : PlanNodeSpec) (status : RunStatus) : StateEvent :=
  { kind := .nodeSucceeded, nodeID := node.nodeID, runID := status.runID }

def retryEvent (node : PlanNodeSpec) (current : PlanNodeStatus) (runID reason : String) :
    StateEvent :=
  { kind := .nodeRetryScheduled
    nodeID := node.nodeID
    runID := runID
    reason := if reason = "" then "node attempt failed" else reason
    attempt := int32 (failedAttempt current + 1) }

def failedEvent (nodeID runID reason : String) : StateEvent :=
  { kind := .nodeFailed, nodeID := nodeID, runID := runID, reason := reason }

def canceledEvent (nodeID runID reason : String) : StateEvent :=
  { kind := .nodeCanceled, nodeID := nodeID, runID := runID, reason := reason }

/-- The events of the handling of `node`. -/
inductive NodePosts (node : PlanNodeSpec) (w : World) :
    Work → RunPlanSpec → StateEvent → Work → Prop
  | capability {capability}
      (hfound : mapGet w.st.validation.capabilitiesByNode node.nodeID = some capability) :
      NodePosts node w .opening w.st.spec
        { kind := .capabilitySelected, nodeID := node.nodeID, capability := capability }
        .announced
  | ready : NodePosts node w .announced w.st.spec
      { kind := .nodeReady, nodeID := node.nodeID } .readied
  | inputResolved {attempt input trace} :
      NodePosts node w (.resolved attempt input trace) w.st.spec
        { kind := .nodeInputResolved, nodeID := node.nodeID, runID := node.run.runID,
          inputTrace := trace } (.accepted attempt input)
  | started {attempt input} :
      NodePosts node w (.accepted attempt input) w.st.spec
        { kind := .nodeStarted, nodeID := node.nodeID, runID := node.run.runID,
          attempt := attempt } (.started attempt input)
  | budget {status} (hspent : 0 < status.spentCents) :
      NodePosts node w (.ended status) w.st.spec
        { kind := .budgetReported, nodeID := node.nodeID, runID := status.runID,
          budgetDelta := status.spentCents } (.charged status)
  | artifacts {status artifacts} :
      NodePosts node w (.publishing status artifacts) w.st.spec
        { kind := .artifactsPublished, nodeID := node.nodeID, runID := status.runID,
          artifacts := artifacts } (.published status artifacts)
  | expansion {status expansion} :
      NodePosts node w (.expanding status expansion) expansion.spec
        { kind := .planExpanded, expansion := expansion.delta } (.expanded status expansion)
  | close {event} :
      NodePosts node w (.closing event) w.st.spec event (.over true)

/-- The questions of the handling of `node`.  An attempt goes on with its own copy
of the node. -/
inductive NodeAsks (E : Host) (node : PlanNodeSpec) (w : World) :
    Work → Act → PlanNodeSpec → Work → Prop
  | unresolved {attemptNode err} (reason : String) (hnode : nodeForAttempt E w.st.spec.planID node
        (nextNodeAttempt w.st.state node.nodeID) = .ok attemptNode) :
      NodeAsks E node w .readied (.resolveInput attemptNode (.error err)) attemptNode
        (.attemptFailed attemptNode.run.runID reason)
  | resolved {attemptNode input trace} (hnode : nodeForAttempt E w.st.spec.planID node
        (nextNodeAttempt w.st.state node.nodeID) = .ok attemptNode) :
      NodeAsks E node w .readied (.resolveInput attemptNode (.ok (input, trace))) attemptNode
        (.resolved (nextNodeAttempt w.st.state node.nodeID) input trace)
  | startFailed {attempt input request err reason} (hrequest : startPlanNodeRequest E w.st.spec
        { node with run := { node.run with input := input } } attempt = .ok request) :
      NodeAsks E node w (.started attempt input) (.startNode request attempt (.error err))
        node (.attemptFailed node.run.runID reason)
  | startForeign {attempt input request status err} (reason : String)
      (hrequest : startPlanNodeRequest E w.st.spec
        { node with run := { node.run with input := input } } attempt = .ok request)
      (hanswer : startPlanNodeAnswer request status = .error err) :
      NodeAsks E node w (.started attempt input) (.startNode request attempt (.ok status))
        node (.attemptFailed node.run.runID reason)
  | startLive {attempt input request status named} (hrequest : startPlanNodeRequest E w.st.spec
        { node with run := { node.run with input := input } } attempt = .ok request)
      (hanswer : startPlanNodeAnswer request status = .ok named)
      (hlive : named.lifecycleState.terminal = false) :
      NodeAsks E node w (.started attempt input) (.startNode request attempt (.ok status))
        node (.over true)
  | startEnded {attempt input request status named} (hrequest : startPlanNodeRequest E w.st.spec
        { node with run := { node.run with input := input } } attempt = .ok request)
      (hanswer : startPlanNodeAnswer request status = .ok named)
      (hended : named.lifecycleState.terminal = true) :
      NodeAsks E node w (.started attempt input) (.startNode request attempt (.ok status))
        node (.ended named)
  | unpublished {status err reason} :
      NodeAsks E node w (.charged status) (.publish node status (.error err)) node
        (.closing (failedEvent node.nodeID status.runID reason))
  | publishedNone {status} :
      NodeAsks E node w (.charged status) (.publish node status (.ok [])) node
        (.published status [])
  | published {status artifacts} (hsome : artifacts ≠ [])
      (hnormal : normalizeRunArtifacts w.st.spec.planID node status = .ok artifacts) :
      NodeAsks E node w (.charged status) (.publish node status (.ok artifacts)) node
        (.publishing status artifacts)
  | expansionRefused {status artifacts err} :
      NodeAsks E node w (.fulfilled status artifacts) (.evaluateExpansion node (.error err))
        node (.broken err)
  | expansionNone {status artifacts} :
      NodeAsks E node w (.fulfilled status artifacts) (.evaluateExpansion node (.ok none))
        node (.closing (succeededEvent node status))
  | expansionSome {status artifacts expansion v}
      (hevaluated : evaluatePlanExpansionActivity v w.st.spec w.st.expansionCount
        (.ok (some expansion.delta)) = .ok (some expansion)) :
      NodeAsks E node w (.fulfilled status artifacts)
        (.evaluateExpansion node (.ok (some expansion))) node (.expanding status expansion)
  | cancelFailed {status control err} (hnamed : status.runID ≠ "") :
      NodeAsks E node w (.running true status) (.controlNode status.runID control (some err)) node
        (.broken err)
  | cancelSent {status key} (hnamed : status.runID ≠ "") :
      NodeAsks E node w (.running true status)
        (.controlNode status.runID { operation := .cancel, idempotencyKey := key } none) node
        (.timedOut status)
  | statusFailed {status err} (reason : String) (hnone : w.st.nodeRuns.get? status.runID = none) :
      NodeAsks E node w (.running true status) (.statusNode status.runID (.error err)) node
        (.closing (failedEvent status.nodeID "" reason))
  | statusLive {status current} (hnone : w.st.nodeRuns.get? status.runID = none)
      (hlive : current.lifecycleState.terminal = false) :
      NodeAsks E node w (.running true status) (.statusNode status.runID (.ok current)) node
        (.over false)
  | statusEnded {status current} (hnone : w.st.nodeRuns.get? status.runID = none)
      (hended : current.lifecycleState.terminal = true) :
      NodeAsks E node w (.running true status) (.statusNode status.runID (.ok current)) node
        (.ended current)

/-- The actions of the handling of `node` that ask nothing. -/
inductive NodeSays (x : Execution) (node : PlanNodeSpec) (w : World) :
    Work → Act → Work → Prop
  | launched {attempt input key endpoint} (hnexus : x.runtime.nexusNodeRuns = true) :
      NodeSays x node w (.started attempt input)
        (.startNexus node.nodeID
          { node.run with
            input := input
            accountID := w.st.spec.accountID
            projectID := w.st.spec.projectID
            idempotencyKey := key } endpoint) (.over true)
  | operationCanceled {status} (reason : String) :
      NodeSays x node w (.timedOut status) (.cancelPromise status.runID)
        (.attemptFailed status.runID reason)
  | promiseFailed {polled status failure}
      (hsettled : (w.st.nodeRuns.get? status.runID).bind PlanNodeRun.future =
        some (.error failure)) :
      NodeSays x node w (.running polled status) (.removePromise status.runID)
        (.closing (failedEvent status.nodeID status.runID failure.err.text))
  | promiseLive {polled status current}
      (hsettled : (w.st.nodeRuns.get? status.runID).bind PlanNodeRun.future = some (.ok current))
      (hlive : current.lifecycleState.terminal = false) :
      NodeSays x node w (.running polled status) (.removePromise status.runID) (.over false)
  | promiseEnded {polled status current}
      (hsettled : (w.st.nodeRuns.get? status.runID).bind PlanNodeRun.future = some (.ok current))
      (hended : current.lifecycleState.terminal = true) :
      NodeSays x node w (.running polled status) (.removePromise status.runID) (.ended current)
  | adopted {status expansion} :
      NodeSays x node w (.expanded status expansion) (.adoptExpansion expansion)
        (.closing (succeededEvent node status))

/-- The decisions of the handling of `node`. -/
inductive NodeSkips (E : Host) (x : Execution) (node : PlanNodeSpec) (w : World) :
    Work → Work → Prop
  | noCapability (hnone : mapGet w.st.validation.capabilitiesByNode node.nodeID = none) :
      NodeSkips E x node w .opening .announced
  | unprepared {err} (hnode : nodeForAttempt E w.st.spec.planID node
        (nextNodeAttempt w.st.state node.nodeID) = .error err) :
      NodeSkips E x node w .readied (.broken err)
  | unlaunched {attempt input err} (hnexus : x.runtime.nexusNodeRuns = true) :
      NodeSkips E x node w (.started attempt input) (.broken err)
  | unrequested {attempt input reason} :
      NodeSkips E x node w (.started attempt input)
        (.attemptFailed node.run.runID reason)
  | retried {runID reason current} (hstatus : w.st.state.nodeStatus node.nodeID = some current)
      (hleft : failedAttempt current < maxNodeAttempts node.policy) :
      NodeSkips E x node w (.attemptFailed runID reason)
        (.closing (retryEvent node current runID reason))
  | exhausted {runID reason current} (hstatus : w.st.state.nodeStatus node.nodeID = some current)
      (hleft : ¬ failedAttempt current < maxNodeAttempts node.policy) :
      NodeSkips E x node w (.attemptFailed runID reason)
        (.closing (failedEvent node.nodeID runID
          (if reason = "" then "node attempt failed" else reason)))
  | unknown {runID reason} (hstatus : w.st.state.nodeStatus node.nodeID = none) :
      NodeSkips E x node w (.attemptFailed runID reason) (.broken (unknownNode node.nodeID))
  | free {status} (hspent : status.spentCents = 0) :
      NodeSkips E x node w (.ended status) (.charged status)
  | overdrawn {status err} (hspent : status.spentCents < 0) :
      NodeSkips E x node w (.ended status) (.broken err)
  | incomplete {status artifacts reason} :
      NodeSkips E x node w (.published status artifacts)
        (.attemptFailed status.runID reason)
  | fulfilled {status artifacts}
      (hrequired : validateRequiredArtifacts node.outputs artifacts = .ok ()) :
      NodeSkips E x node w (.published status artifacts) (.fulfilled status artifacts)
  | canceled {status artifacts} :
      NodeSkips E x node w (.published status artifacts)
        (.closing (canceledEvent node.nodeID status.runID status.reason))
  | unfinished {status artifacts name} (hstate : status.lifecycleState = .other name) :
      NodeSkips E x node w (.published status artifacts) (.over true)
  | unexpanded {status artifacts} (hnone : hasPlanDeltaArtifact artifacts = false) :
      NodeSkips E x node w (.fulfilled status artifacts)
        (.closing (succeededEvent node status))
  | uncancelable {status err} (hunkeyed : status.runID = "" ∨
        nodeTimeoutControlIdempotencyKey E.digest w.st.spec.planID status.nodeID
          status.runID = .error err) :
      NodeSkips E x node w (.running true status) (.broken err)
  | unnamed {status} (hunnamed : status.runID = "") :
      NodeSkips E x node w (.running true status)
        (.closing { kind := .nodeSucceeded, nodeID := status.nodeID })
  | pending {polled status}
      (hpending : (w.st.nodeRuns.get? status.runID).bind PlanNodeRun.future = none) :
      NodeSkips E x node w (.running polled status) (.over false)

/-! ## The control points of the loop -/

inductive Site where
  | settle
  | start (capacity : Int) (rest : List PlanNodeSpec)
  | poll (acted : Bool)

inductive GuardSite where
  | deadline
  | start
  | close

inductive Purpose where
  | pause
  | resume
  | cancel
  | reject (reason : String) (decision : PlanApprovalDecision)
  | guard (site : GuardSite) (kind : EventKind) (reason : String)

inductive Outcome where
  | done
  | error (err : Err)
  | continued (next : PlanWorkflowInput)

inductive Point where
  /-- An execution is to begin. -/
  | begin (input : PlanWorkflowInput)
  | opened
  | validating
  | validated
  | checked
  /-- The setup failed and the plan is to be marked as failed. -/
  | unready (err : Err)
  | refused (err : Err)
  /-- The boundary between two iterations. -/
  | top
  | guarding
  | settling
  | settlingNodes
  | controls
  | receivedControl (control : ControlRequest)
  | handlingControl (control : ControlRequest)
  | controlling (inputs : List (String × ControlRequest)) (purpose : Purpose)
  | marking (nodes : List PlanNodeStatus) (purpose : Purpose)
  /-- The plan ended for a purpose. -/
  | ended (purpose : Purpose)
  /-- An error stopped what was done for a purpose. -/
  | stopped (purpose : Purpose) (err : Err)
  | blocking (reason : String)
  | blocked
  | resuming
  | resumed
  | signals
  | receivedSignal (signal : Signal)
  | handlingSignal (signal : Signal)
  | retrying (retry : ManualRetryRequest)
  /-- A signal let the plan go on. -/
  | unpausing
  | forwarding (nodes : List PlanNodeStatus) (signal : Signal)
  | preSchedule
  /-- The plan has not timed out. -/
  | timely
  /-- The plan is paused and its gate has not timed out. -/
  | waiting
  | deciding
  | decided (decision : SchedulerDecision)
  | skipping (rest : List SkippedNode) (ready : List PlanNodeSpec) (acted : Bool)
  | starting (capacity : Int) (rest : List PlanNodeSpec) (acted : Bool)
  | node (site : Site) (node : PlanNodeSpec) (work : Work)
  /-- A start is over and the budget is checked. -/
  | startGuard (capacity : Int) (rest : List PlanNodeSpec)
  | started (acted : Bool)
  | polling (acted : Bool)
  | closing (acted : Bool)
  /-- The plan goes on after the schedule. -/
  | unfinished (acted : Bool)
  | finishing (acted : Bool)
  /-- An error that fails the plan. -/
  | failing (err : Err)
  /-- The loop is left and the operations of the execution are drained. -/
  | leaving (outcome : Outcome)
  | returned (outcome : Except Err Unit)

def GuardSite.Ends (kind : EventKind) : GuardSite → Prop
  | .start | .close => kind = .planFailed
  | .deadline => kind = .planFailed ∨ kind = .planRejected

namespace Purpose

def Ends (event : StateEvent) : Purpose → Prop
  | .pause | .resume => False
  | .cancel => event = { kind := .planCanceled, reason := "cancel requested" }
  | .reject reason decision => ∃ approval : StateEventApproval, approval.decision = some decision ∧
        event = { kind := .planRejected, reason := reason, approval := some approval }
  | .guard site kind reason => event = { kind := kind, reason := reason } ∧ site.Ends kind

end Purpose

def Position.point : Position → Point
  | .top => .top
  | .controls .. => .controls
  | .signals .. => .signals

/-! ## The tables of the loop -/

def blockedEvent (reason : String) (gate : PlanApprovalGate) : StateEvent :=
  { kind := .planBlocked, reason := reason, approval := some { gate := gate } }

def approvedEvent (reason : String) (approval : StateEventApproval) : StateEvent :=
  { kind := .planApproved, reason := reason, approval := some approval }

/-- The state events: the point, the spec and the event, and where the loop goes on
when the event is saved and when it fails. -/
inductive Posts (E : Host) (x : Execution) (w : World) :
    Point → RunPlanSpec → StateEvent → Point → (Err → Point) → Prop
  | begun (hfresh : x.input.continued = false) :
      Posts E x w .opened w.st.spec { kind := .planStarted } .validating .refused
  | unready {err} :
      Posts E x w (.unready err) w.st.spec { kind := .planFailed, reason := err.text }
        (.refused err) (fun e => .refused (.join err e))
  | tripped {why reason}
      (htripped : evaluateIterationPolicy w.st.spec.policy w.st.iterationCount = some why) :
      Posts E x w .guarding w.st.spec { kind := .planFailed, reason := reason }
        (.leaving (.error (.wrap .invalidRunPlan reason)))
        (fun e => .leaving (.error (.join (.wrap .invalidRunPlan reason) e)))
  | blocked {reason time} (htime : time = (E.now w).val) :
      Posts E x w (.blocking reason) w.st.spec
        (blockedEvent reason
          (newPlanApprovalGate E.digest w.st.spec w.st.state.status reason time))
        .blocked .failing
  | resumed :
      Posts E x w .resuming w.st.spec { kind := .planStarted } .resumed .failing
  | retryApproved {signal retry} (htype : signal.type = .planNodeRetry)
      (hunscheduled : manualRetryAlreadyScheduled signal w.st.state = false)
      (hretry : manualNodeRetry signal w.st.state w.st.validation = .ok retry)
      (hstopped : w.st.state.status.lifecycleState = .blocked ∨
        w.st.state.status.lifecycleState = .failed) :
      Posts E x w (.handlingSignal signal) w.st.spec
        { kind := .planApproved, reason := retry.reason } (.retrying retry) .failing
  | retry {retry} :
      Posts E x w (.retrying retry) w.st.spec
        { kind := .nodeRetryScheduled, nodeID := retry.node.nodeID,
          runID := retry.current.runID, reason := retry.reason,
          attempt := retry.nextAttempt } .unpausing .failing
  | approved {signal decision decidedAt time} (htype : signal.type = .planApprove)
      (hblocked : w.st.state.status.lifecycleState = .blocked)
      (hdecided : decidedAt = (E.now w).val)
      (hdecision : planApprovalDecisionFromSignal E.digest w.st.spec w.st.state.status
        signal true decidedAt = .ok decision) :
      Posts E x w (.handlingSignal signal) w.st.spec
        (approvedEvent decision.reason
          (approvalEventForSignal E.digest w.st.spec w.st.state.status decision.reason time
            decision)) .unpausing .failing
  | marked {node rest purpose reason} :
      Posts E x w (.marking (node :: rest) purpose) w.st.spec
        (canceledEvent node.nodeID node.runID reason) (.marking rest purpose)
        (.stopped purpose)
  | ended {purpose event} (hends : purpose.Ends event) :
      Posts E x w (.marking [] purpose) w.st.spec event (.ended purpose) (.stopped purpose)
  | terminalBefore (hterminal : planNodesTerminal w.st.state.status = true) :
      Posts E x w .timely w.st.spec (terminalPlanEvent w.st.state.status.nodes)
        (.leaving .done) (fun e => .leaving (.error e))
  | terminalAfter {acted}
      (hbudget : budgetExceeded w.st.spec.policy w.st.state.status.spentCents = false)
      (hterminal : planNodesTerminal w.st.state.status = true) :
      Posts E x w (.closing acted) w.st.spec (terminalPlanEvent w.st.state.status.nodes)
        (.leaving .done) (fun e => .leaving (.error e))
  | conditions {decision traces} :
      Posts E x w (.decided decision) w.st.spec
        { kind := .conditionsEvaluated, conditionTraces := traces }
        (.skipping decision.skipped decision.ready false) (fun e => .leaving (.error e))
  | skipped {node rest ready acted} (hopen : nodeSchedulable w.st.state node.nodeID = true) :
      Posts E x w (.skipping (node :: rest) ready acted) w.st.spec
        { kind := .nodeSkipped, nodeID := node.nodeID, reason := node.reason }
        (.skipping rest ready true) (fun e => .leaving (.error e))
  | startFailed {capacity rest node err} :
      Posts E x w (.node (.start capacity rest) node (.broken err)) w.st.spec
        (failedEvent node.nodeID "" err.text) (.startGuard capacity rest)
        (fun e => .leaving (.error (.join err e)))
  | node {site node work work' spec event} (hnode : NodePosts node w work spec event work') :
      Posts E x w (.node site node work) spec event (.node site node work')
        (fun e => .node site node (.broken e))
  | failed {err} :
      Posts E x w (.failing err) w.st.spec { kind := .planFailed, reason := err.text }
        (.leaving (.error err)) (fun e => .leaving (.error (.join err e)))
  | stalled (hidle : runningNodeCount w.st.state.status = 0) :
      Posts E x w (.finishing false) w.st.spec
        { kind := .planFailed, reason := stallReason }
        (.leaving (.error (.wrap .invalidRunPlan stallReason)))
        (fun e => .leaving (.error e))

/-- The questions: the point, the question with its answer, and where the loop goes
on. -/
inductive Asks (E : Host) (x : Execution) (w : World) : Point → Act → Point → Prop
  | invalid {err} : Asks E x w .validating (.validate (.error err)) (.unready err)
  | valid {validation v} (hvalid : validatePlanActivity v w.st.spec = .ok validation) :
      Asks E x w .validating (.validate (.ok validation)) .validated
  | awaited (hnexus : x.runtime.nexusNodeRuns = true)
      (hpending : hasRunningPendingPromise w.st = true) :
      Asks E x w .settling (.wait none) .settlingNodes
  | awaitFailed {err} (hnexus : x.runtime.nexusNodeRuns = true)
      (hpending : hasRunningPendingPromise w.st = true) :
      Asks E x w .settling (.wait (some err)) (.leaving (.error err))
  | controlled {runID control rest purpose} :
      Asks E x w (.controlling ((runID, control) :: rest) purpose)
        (.controlNode runID control none) (.controlling rest purpose)
  | controlFailed {runID control err rest purpose} :
      Asks E x w (.controlling ((runID, control) :: rest) purpose)
        (.controlNode runID control (some err)) (.stopped purpose err)
  | forwarded {node rest signal} :
      Asks E x w (.forwarding (node :: rest) signal) (.signalNode node.runID signal none)
        (.forwarding rest signal)
  | forwardFailed {node rest signal err} :
      Asks E x w (.forwarding (node :: rest) signal)
        (.signalNode node.runID signal (some err)) (.failing err)
  | slept : Asks E x w .waiting (.wait none) .top
  | sleepFailed {err} : Asks E x w .waiting (.wait (some err)) (.leaving (.error err))
  | node {site node node' work work' act} (hnode : NodeAsks E node w work act node' work') :
      Asks E x w (.node site node work) act (.node site node' work')
  | finished {acted} : Asks E x w (.finishing acted) (.wait none) .top
  | finishFailed {acted err} :
      Asks E x w (.finishing acted) (.wait (some err)) (.leaving (.error err))
  | drained {outcome answer} :
      Asks E x w (.leaving outcome) (.wait answer) (.leaving outcome)

inductive Says (E : Host) (x : Execution) (w : World) : Point → Act → Point → Prop
  | checked : Says E x w .checked
      (.setPaused (decide (w.st.state.status.lifecycleState = .blocked))) .top
  | counted : Says E x w .top .nextIteration .guarding
  | settle (hpolicy : evaluateIterationPolicy w.st.spec.policy w.st.iterationCount = none) :
      Says E x w .guarding (.enter .settle) .settling
  | unsettled (hnone : x.runtime.nexusNodeRuns = false ∨
      hasRunningPendingPromise w.st = false) :
      Says E x w .settling (.enter .controls) .controls
  | settled : Says E x w .settlingNodes (.enter .controls) .controls
  | receivedControl {control into msg rest} (hchannel : w.st.controlCh = msg :: rest)
      (hdecoded : control = msg.decodeInto into) :
      Says E x w .controls (.receiveControl control) (.receivedControl control)
  | markedControl {control} (hvalid : validateControlRequest control = .ok ())
      (hkey : control.idempotencyKey ≠ "")
      (hnew : control.idempotencyKey ∉ w.st.processedControls) :
      Says E x w (.receivedControl control) (.markControl control) (.handlingControl control)
  | noControl (hchannel : w.st.controlCh = []) :
      Says E x w .controls (.enter .signals) .signals
  | blocked : Says E x w .blocked (.setPaused true) .controls
  | resumed : Says E x w .resumed (.setPaused false) .controls
  | receivedSignal {signal into msg rest}
      (hchannel : w.st.signalCh = msg :: rest) (hdecoded : signal = msg.decodeInto into) :
      Says E x w .signals (.receiveSignal signal) (.receivedSignal signal)
  | markedSignal {signal} (hvalid : validatePlanSignal signal = .ok ())
      (hnew : signal.idempotencyKey ∉ w.st.processedSignals) :
      Says E x w (.receivedSignal signal) (.markSignal signal) (.handlingSignal signal)
  | noSignal (hchannel : w.st.signalCh = []) :
      Says E x w .signals (.enter .preSchedule) .preSchedule
  | retryScheduled {signal} (htype : signal.type = .planNodeRetry)
      (hscheduled : manualRetryAlreadyScheduled signal w.st.state = true) :
      Says E x w (.handlingSignal signal) (.setPaused false) .signals
  | unpaused : Says E x w .unpausing (.setPaused false) .signals
  | decide (hopen : planNodesTerminal w.st.state.status = false)
      (hpaused : w.st.paused = false) : Says E x w .timely (.enter .decide) .deciding
  | start {decision} (hdecision : E.scheduler.decide w.st.validation.plan w.st.state.status
        (planVariables w.st.spec w.st.state.status) = .ok decision) :
      Says E x w .deciding (.enter .start) (.decided decision)
  | node {site node work work' act} (hnode : NodeSays x node w work act work') :
      Says E x w (.node site node work) act (.node site node work')
  | poll {acted} : Says E x w (.started acted) (.enter .poll) (.polling acted)
  | finish {acted} : Says E x w (.unfinished acted) (.enter .finish) (.finishing acted)
  | drain {outcome} :
      Says E x w (.leaving outcome) (.enter .drain) (.leaving outcome)
  | cancelOperation {outcome runID} :
      Says E x w (.leaving outcome) (.cancelPromise runID) (.leaving outcome)
  | dropOperation {outcome runID} :
      Says E x w (.leaving outcome) (.removePromise runID) (.leaving outcome)

inductive Guards (w : World) : Point → GuardSite → EventKind → String → Prop
  | budgetStart {capacity rest reason}
      (hbudget : budgetExceeded w.st.spec.policy w.st.state.status.spentCents = true) :
      Guards w (.startGuard capacity rest) .start .planFailed reason
  | budgetClose {acted reason}
      (hbudget : budgetExceeded w.st.spec.policy w.st.state.status.spentCents = true) :
      Guards w (.closing acted) .close .planFailed reason
  | timeout {time reason}
      (htime : planTimedOut w.st.spec.policy w.st.state.status.startedAt time = true) :
      Guards w .preSchedule .deadline .planFailed reason
  | expired {time reason}
      (hopen : planNodesTerminal w.st.state.status = false) (hpaused : w.st.paused = true)
      (hreason : reason = planBlockedTimeoutReason w.st.spec.policy)
      (htime : planBlockedTimedOut w.st.spec.policy w.st.state.status.blockedAt time = true) :
      Guards w .timely .deadline .planRejected reason

def controlInputs (E : Host) (l : Locals) (control : ControlRequest) :
    Except Err (List (String × ControlRequest)) :=
  activePlanNodeControlInputs E.digest l.spec.planID control l.validation.controlsByNode
    l.state.status.nodes

def ControlRequest.purpose (control : ControlRequest) : Option Purpose :=
  match control.operation with
  | .pause => some .pause
  | .resume => some .resume
  | .cancel => some .cancel
  | .other _ => none

def SignalRefused (E : Host) (l : Locals) (signal : Signal) : Prop :=
  match signal.type with
  | .planNodeRetry =>
      manualRetryAlreadyScheduled signal l.state = false ∧
        ∃ err, manualNodeRetry signal l.state l.validation = .error err
  | .planApprove =>
      l.state.status.lifecycleState ≠ .blocked ∨
        ∃ time err, planApprovalDecisionFromSignal E.digest l.spec l.state.status signal
          true time = .error err
  | .planReject =>
      (∃ time err, planApprovalDecisionFromSignal E.digest l.spec l.state.status signal
          false time = .error err) ∨
        (∃ err, planSignalCancelControlIdempotencyKey E.digest l.spec.planID signal = .error err) ∨
        ∃ key err, controlInputs E l { operation := .cancel, idempotencyKey := key } = .error err
  | _ => False

inductive CommandSkips (E : Host) (w : World) : Point → Point → Prop
  | controlInvalid {control err}
      (hinvalid : validateControlRequest control = .error err ∨ control.idempotencyKey = "") :
      CommandSkips E w (.receivedControl control) (.failing err)
  | controlSeen {control} (hseen : control.idempotencyKey ∈ w.st.processedControls) :
      CommandSkips E w (.receivedControl control) .controls
  | controlIgnored {control} :
      CommandSkips E w (.handlingControl control) .controls
  | control {control purpose inputs} (hpurpose : ControlRequest.purpose control = some purpose)
      (hinputs : controlInputs E w.st control = .ok inputs) :
      CommandSkips E w (.handlingControl control) (.controlling inputs purpose)
  | controlRefused {control purpose err} (hpurpose : ControlRequest.purpose control = some purpose)
      (hinputs : controlInputs E w.st control = .error err) :
      CommandSkips E w (.handlingControl control) (.stopped purpose err)
  | pause : CommandSkips E w (.controlling [] .pause) (.blocking "pause requested")
  | resume : CommandSkips E w (.controlling [] .resume) .resuming
  | mark {purpose} (hpause : purpose ≠ .pause) (hresume : purpose ≠ .resume) :
      CommandSkips E w (.controlling [] purpose)
        (.marking (runningNodes w.st.state.status) purpose)
  | endedGuardStart {kind reason} :
      CommandSkips E w (.ended (.guard .start kind reason)) (.started true)
  | ended {purpose} (hstart : ∀ kind reason, purpose ≠ .guard .start kind reason) :
      CommandSkips E w (.ended purpose) (.leaving .done)
  | stoppedPause {err} : CommandSkips E w (.stopped .pause err) (.blocking err.text)
  | stoppedResume {err} : CommandSkips E w (.stopped .resume err) (.blocking err.text)
  | stoppedCancel {err} : CommandSkips E w (.stopped .cancel err) (.failing err)
  | stoppedReject {reason decision err} :
      CommandSkips E w (.stopped (.reject reason decision) err) (.failing err)
  | stoppedGuard {site kind reason err} :
      CommandSkips E w (.stopped (.guard site kind reason) err) (.leaving (.error err))
  | signalInvalid {signal err} (hinvalid : validatePlanSignal signal = .error err) :
      CommandSkips E w (.receivedSignal signal) (.failing err)
  | signalSeen {signal} (hseen : signal.idempotencyKey ∈ w.st.processedSignals) :
      CommandSkips E w (.receivedSignal signal) .signals
  | signalRefused {signal err} (hrefused : SignalRefused E w.st signal) :
      CommandSkips E w (.handlingSignal signal) (.failing err)
  | retry {signal retry} (htype : signal.type = .planNodeRetry)
      (hunscheduled : manualRetryAlreadyScheduled signal w.st.state = false)
      (hretry : manualNodeRetry signal w.st.state w.st.validation = .ok retry)
      (hblocked : w.st.state.status.lifecycleState ≠ .blocked)
      (hfailed : w.st.state.status.lifecycleState ≠ .failed) :
      CommandSkips E w (.handlingSignal signal) (.retrying retry)
  | reject {signal key reason decision inputs} (htype : signal.type = .planReject)
      (hdecision : planApprovalDecisionFromSignal E.digest w.st.spec w.st.state.status
        signal false (E.now w).val = .ok decision)
      (hinputs : controlInputs E w.st { operation := .cancel, idempotencyKey := key } =
        .ok inputs) :
      CommandSkips E w (.handlingSignal signal) (.controlling inputs (.reject reason decision))
  | rejectRefused {signal key reason decision err} (htype : signal.type = .planReject)
      (hinputs : controlInputs E w.st { operation := .cancel, idempotencyKey := key } =
        .error err) :
      CommandSkips E w (.handlingSignal signal) (.stopped (.reject reason decision) err)
  | forward {signal} :
      CommandSkips E w (.handlingSignal signal)
        (.forwarding w.st.state.status.nodes signal)
  | forwardNot {node rest signal} :
      CommandSkips E w (.forwarding (node :: rest) signal) (.forwarding rest signal)
  | forwarded {signal} : CommandSkips E w (.forwarding [] signal) .signals
  | signalIgnored {signal} : CommandSkips E w (.handlingSignal signal) .signals
  | guard {point site kind reason key inputs} (hguard : Guards w point site kind reason)
      (hinputs : controlInputs E w.st { operation := .cancel, idempotencyKey := key } =
        .ok inputs) :
      CommandSkips E w point (.controlling inputs (.guard site kind reason))
  | guardRefused {point site kind reason err} (key : String)
      (hguard : Guards w point site kind reason)
      (hrefused : w.st.spec.planID = "" ∨
        controlInputs E w.st { operation := .cancel, idempotencyKey := key } = .error err) :
      CommandSkips E w point (.stopped (.guard site kind reason) err)

inductive Skips (E : Host) (x : Execution) (w : World) : Point → Point → Prop
  | continued (hcontinued : x.input.continued = true) : Skips E x w .opened .validating
  | peered : Skips E x w .validated .checked
  | unpeered {err} (hpeers : validatePlanNodePeers w.st.spec x.input.nexusPeers = .error err) :
      Skips E x w .validated (.unready err)
  | settleNode {status node}
      (hmem : status ∈ w.st.state.status.nodes) (hrunning : status.lifecycleState = .running)
      (hnamed : status.runID ≠ "") (hnode : nodeByID w.st.validation status.nodeID = .ok node) :
      Skips E x w .settlingNodes (.node .settle node (.running false status))
  | settleUnknown {status err}
      (hmem : status ∈ w.st.state.status.nodes) (hrunning : status.lifecycleState = .running)
      (hnode : nodeByID w.st.validation status.nodeID = .error err) :
      Skips E x w .settlingNodes (.leaving (.error err))
  | node {site node work work'} (hnode : NodeSkips E x node w work work') :
      Skips E x w (.node site node work) (.node site node work')
  | settleOver {node progressed} :
      Skips E x w (.node .settle node (.over progressed)) .settlingNodes
  | startOver {capacity rest node progressed} :
      Skips E x w (.node (.start capacity rest) node (.over progressed))
        (.startGuard capacity rest)
  | pollOver {acted progressed node} :
      Skips E x w (.node (.poll acted) node (.over progressed)) (.polling (acted || progressed))
  | settleBroken {node err} :
      Skips E x w (.node .settle node (.broken err)) (.leaving (.error err))
  | pollBroken {acted node err} :
      Skips E x w (.node (.poll acted) node (.broken err)) (.failing err)
  | command {point point'} (hcommand : CommandSkips E w point point') :
      Skips E x w point point'
  | timely : Skips E x w .preSchedule .timely
  | paused (hopen : planNodesTerminal w.st.state.status = false)
      (hpaused : w.st.paused = true) : Skips E x w .timely .waiting
  | pausedContinue (hterminal : w.st.state.status.lifecycleState.terminal = false) :
      Skips E x w .waiting (.leaving (.continued (continuedPlanWorkflowInput x.input w.st)))
  | undecided {err} (hdecision : E.scheduler.decide w.st.validation.plan w.st.state.status
        (planVariables w.st.spec w.st.state.status) = .error err) :
      Skips E x w .deciding (.failing err)
  | unconditioned {decision} :
      Skips E x w (.decided decision) (.skipping decision.skipped decision.ready false)
  | unskipped {node rest ready acted} (hopen : nodeSchedulable w.st.state node.nodeID = false) :
      Skips E x w (.skipping (node :: rest) ready acted) (.skipping rest ready acted)
  | skipped {ready acted} :
      Skips E x w (.skipping [] ready acted)
        (.starting (x.runtime.maxParallel - runningNodeCount w.st.state.status) ready acted)
  | full {capacity rest acted} (hfull : capacity ≤ 0) :
      Skips E x w (.starting capacity rest acted) (.started acted)
  | unstarted {capacity node rest acted} (hopen : nodeSchedulable w.st.state node.nodeID = false) :
      Skips E x w (.starting capacity (node :: rest) acted) (.starting capacity rest acted)
  | start {capacity node rest acted}
      (hfree : 0 < capacity) (hopen : nodeSchedulable w.st.state node.nodeID = true) :
      Skips E x w (.starting capacity (node :: rest) acted)
        (.node (.start capacity rest) node .opening)
  | started {capacity acted} :
      Skips E x w (.starting capacity [] acted) (.started acted)
  | startWithin {capacity rest}
      (hbudget : budgetExceeded w.st.spec.policy w.st.state.status.spentCents = false) :
      Skips E x w (.startGuard capacity rest) (.starting (capacity - 1) rest true)
  | pollNode {acted status node}
      (hmem : status ∈ w.st.state.status.nodes) (hrunning : status.lifecycleState = .running)
      (hnode : nodeByID w.st.validation status.nodeID = .ok node) :
      Skips E x w (.polling acted) (.node (.poll acted) node (.running true status))
  | pollUnknown {acted status err}
      (hmem : status ∈ w.st.state.status.nodes) (hrunning : status.lifecycleState = .running)
      (hnode : nodeByID w.st.validation status.nodeID = .error err) :
      Skips E x w (.polling acted) (.failing err)
  | polled {acted} : Skips E x w (.polling acted) (.closing acted)
  | unfinished {acted}
      (hbudget : budgetExceeded w.st.spec.policy w.st.state.status.spentCents = false)
      (hopen : planNodesTerminal w.st.state.status = false) :
      Skips E x w (.closing acted) (.unfinished acted)
  | paced {acted} : Skips E x w (.unfinished acted) .top
  | progressed {acted} : Skips E x w (.finishing acted) .top
  | finishContinue {acted} (hterminal : w.st.state.status.lifecycleState.terminal = false) :
      Skips E x w (.finishing acted)
        (.leaving (.continued (continuedPlanWorkflowInput x.input w.st)))
  | done : Skips E x w (.leaving .done) (.returned (.ok ()))
  | error {err} : Skips E x w (.leaving (.error err)) (.returned (.error err))
  | continue_ {next} :
      Skips E x w (.leaving (.continued next)) (.begin next)

abbrev Config := (Execution × Point) × World

inductive Move (E : Host) : Config → Config → Prop
  | skip {x p p' w} (h : Skips E x w p p') :
      Move E ((x, p), w) ((x, p'), w)
  | say {x p p' w a} (h : Says E x w p a p') :
      Move E ((x, p), w) ((x, p'), w.act Locals.step a)
  | ask {x p p' w a arrivals}
      (h : Asks E x w p a p') : Move E ((x, p), w) ((x, p'), asked w a arrivals)
  | saved {x p ok bad w v spec event} (h : Posts E x w p spec event ok bad)
      (hposted : Posted E spec event w none v) : Move E ((x, p), w) ((x, ok), v)
  | unsaved {x p ok bad w v spec event err} (h : Posts E x w p spec event ok bad)
      (hposted : Posted E spec event w (some err) v) : Move E ((x, p), w) ((x, bad err), v)
  | begin {x input w time state nexus} (htime : 0 < time)
      (hstate : newPlanWorkflowSetup input time = .ok state) :
      Move E ((x, .begin input), w)
        ((⟨input, newPlanWorkflowRuntime input nexus⟩, .opened),
          w.act Locals.step (.begin (initialLocals input state)))
  | refuse {x input w time err} (hstate : newPlanWorkflowSetup input time = .error err) :
      Move E ((x, .begin input), w) ((x, .refused err), w)

end AgentOS.Plan
