import AgentOS.Plan.Validator

/-!
# Policies, signals and the approval gate

The pure functions that the plan loop calls between its activities, from
`policy.go`, `signals.go`, `events.go`, `approval.go` and `artifact_contract.go` of
`internal/usecase/agentosplan`.
-/

namespace AgentOS.Plan

open Kit

/-! ## Policies -/

structure ContinuationSnapshot where
  (appliedTransitions historyEvents : Int)

/-- The reason to continue as new, if there is one. -/
def evaluateContinuationPolicy (policy : PlanPolicy) (snapshot : ContinuationSnapshot) :
    Option String :=
  if policy.continueAsNewEvents > 0 ∧ snapshot.appliedTransitions ≥ policy.continueAsNewEvents then
    some "continue_as_new_events"
  else if policy.maxHistoryEvents > 0 ∧ snapshot.historyEvents ≥ policy.maxHistoryEvents then
    some "max_history_events"
  else none

def evaluateIterationPolicy (policy : PlanPolicy) (iterations : Int) : Option String :=
  if policy.maxIterations > 0 ∧ iterations > policy.maxIterations then some "max_iterations"
  else none

/-- A budget that is not positive is no limit. -/
def budgetExceeded (policy : PlanPolicy) (spentCents : Int) : Bool :=
  policy.budgetCents > 0 ∧ spentCents > policy.budgetCents

def budgetExceededReason (policy : PlanPolicy) (spentCents : Int) : String :=
  "plan budget exceeded: spent " ++ toString spentCents ++ " cents exceeds budget " ++
    toString policy.budgetCents ++ " cents"

/-- Whether a deadline of `seconds` after `anchor` has passed.  No deadline is
set by a count that is not positive, or before the anchor is known. -/
def deadlinePassed (seconds : Int) (anchor now : Time) : Bool :=
  if seconds ≤ 0 ∨ anchor.isZero then false
  else anchor.addSeconds seconds ≤ now

def planTimedOut (policy : PlanPolicy) (startedAt now : Time) : Bool :=
  deadlinePassed policy.timeoutSeconds startedAt now

def planTimeoutReason (policy : PlanPolicy) : String :=
  "plan timed out after " ++ toString policy.timeoutSeconds ++ " seconds"

def planBlockedTimedOut (policy : PlanPolicy) (blockedAt now : Time) : Bool :=
  deadlinePassed policy.approvalTimeoutSeconds blockedAt now

def planBlockedTimeoutReason (policy : PlanPolicy) : String :=
  "plan approval timed out after " ++ toString policy.approvalTimeoutSeconds ++ " seconds"

/-! ## Signals -/

def planSignalNodeID (signal : Signal) : Except Err String :=
  match mapGet signal.payload "node_id" with
  | some (.str nodeID) =>
      if nodeID = "" then errorf .invalidSignal "payload.node_id is required"
      else .ok nodeID
  | _ => errorf .invalidSignal "payload.node_id is required"

def planSignalReason (signal : Signal) : String :=
  match mapGet signal.payload "reason" with
  | some (.str reason) => reason
  | _ => ""

/-- `ValidatePlanSignal`.  A retry has to name its node. -/
def validatePlanSignal (signal : Signal) : Except Err Unit :=
  if signal.type.text = "" then errorf .invalidSignal "type is required"
  else if signal.idempotencyKey = "" then errorf .invalidSignal "signal idempotency key is required"
  else if signal.actorID = "" then errorf .invalidSignal "signal actor id is required"
  else
    match signal.type with
    | .planNodeRetry => do
        let _ ← planSignalNodeID signal
        .ok ()
    | .planApprove | .planReject | .userMessage | .userApproval | .userReject
    | .toolResult | .humanFeedback | .configPatch | .memoryPatch => .ok ()
    | _ => errorf .invalidSignal ("unsupported plan signal " ++ quoted signal.type.text)

/-! ## Fingerprints -/

/-- The documents that the source hashes into a fingerprint.  The constructor
stands for the `operation` of the document. -/
inductive KeyDocument where
  | policyVersion (policy : PlanPolicy) (nodeIDs : List String)
  | stateEvent (event : StateEvent)
  | nodeStart (planID nodeID : String) (attempt : Int)
  | nodeControl (planID nodeID : String) (control : ControlOperation) (parentKey : String)
  | nodeTimeout (planID nodeID runID : String)
  | planTimeout (planID : String) (startedAt : Time) (timeoutSeconds : Int)
  | planBlockedTimeout (planID : String) (blockedAt : Time) (approvalTimeoutSeconds : Int)
  | planSignalCancel (planID : String) (signalType : SignalType)
      (idempotencyKey actorID : String)
  | budgetExceeded (planID : String) (spentCents budgetCents : Int)

/-- The hash of a document. -/
abbrev Digest := KeyDocument → String

variable (digest : Digest)

def idempotencyHash (planID : String) (document : KeyDocument) : String :=
  planID ++ ":" ++ digest document

def requirePlanID (planID : String) : Except Err Unit :=
  if planID = "" then errorf .invalidRunPlan "plan id is required" else .ok ()

def requireNodeID (nodeID : String) : Except Err Unit :=
  if nodeID = "" then errorf .invalidRunPlan "node id is required" else .ok ()

def stateEventIdempotencyKey (planID : String) (event : StateEvent) : Except Err String := do
  requirePlanID planID
  .ok (idempotencyHash digest planID (.stateEvent event))

def nodeStartIdempotencyKey (planID nodeID : String) (attempt : Int) : Except Err String := do
  requirePlanID planID
  requireNodeID nodeID
  if attempt ≤ 0 then errorf .invalidRunPlan "node start attempt must be positive"
  else .ok (idempotencyHash digest planID (.nodeStart planID nodeID attempt))

def nodeTimeoutControlIdempotencyKey (planID nodeID runID : String) : Except Err String := do
  requirePlanID planID
  requireNodeID nodeID
  if runID = "" then errorf .invalidRunSpec "run id is required"
  else .ok (idempotencyHash digest planID (.nodeTimeout planID nodeID runID))

def planTimeoutIdempotencyHash (planID : String) (anchor : Time)
    (seconds : Int) (anchorErr secondsErr : String) (document : KeyDocument) :
    Except Err String := do
  requirePlanID planID
  if anchor.isZero then errorf .invalidRunPlan anchorErr
  else if seconds ≤ 0 then errorf .invalidRunPlan secondsErr
  else .ok (idempotencyHash digest planID document)

def planTimeoutControlIdempotencyKey (planID : String) (startedAt : Time)
    (timeoutSeconds : Int) : Except Err String :=
  planTimeoutIdempotencyHash digest planID startedAt timeoutSeconds
    "plan started_at is required" "plan timeout seconds must be positive"
    (.planTimeout planID startedAt timeoutSeconds)

def planBlockedTimeoutControlIdempotencyKey (planID : String)
    (blockedAt : Time) (approvalTimeoutSeconds : Int) : Except Err String :=
  planTimeoutIdempotencyHash digest planID blockedAt approvalTimeoutSeconds
    "plan blocked_at is required" "plan approval timeout seconds must be positive"
    (.planBlockedTimeout planID blockedAt approvalTimeoutSeconds)

def budgetExceededControlIdempotencyKey (planID : String)
    (spentCents budgetCents : Int) : Except Err String := do
  requirePlanID planID
  .ok (idempotencyHash digest planID (.budgetExceeded planID spentCents budgetCents))

def planSignalCancelControlIdempotencyKey (planID : String)
    (signal : Signal) : Except Err String := do
  requirePlanID planID
  validatePlanSignal signal
  if signal.type ≠ .planReject then
    errorf .invalidSignal
      ("signal " ++ quoted signal.type.text ++ " does not cancel active plan nodes")
  else .ok (idempotencyHash digest planID
    (.planSignalCancel planID signal.type signal.idempotencyKey signal.actorID))

def nodeControlIdempotencyKey (planID nodeID : String)
    (operation : ControlOperation) (parentKey : String) : Except Err String := do
  requirePlanID planID
  requireNodeID nodeID
  validateControlRequest { operation := operation }
  .ok (idempotencyHash digest planID (.nodeControl planID nodeID operation parentKey))

/-! ## The approval gate -/

def planApprovalPolicyVersion (spec : RunPlanSpec) (status : RunPlanStatus) : String :=
  idempotencyHash digest spec.planID
    (.policyVersion spec.policy (status.nodes.map PlanNodeStatus.nodeID))

/-- The gate that a block opens, over the nodes that are not done. -/
def newPlanApprovalGate (spec : RunPlanSpec) (status : RunPlanStatus)
    (reason : String) (now : Time) : PlanApprovalGate :=
  -- `planNodeGatedByApproval`: the nodes that are not done yet.
  let gated := status.nodes.filter fun node => !node.lifecycleState.terminal
  { summary := "approve execution of " ++ toString gated.length ++
      " plan node(s) for plan " ++ quoted spec.planID
    nodeIDs := gated.map PlanNodeStatus.nodeID
    riskReason := reason
    policyVersion := planApprovalPolicyVersion digest spec status
    requestedAt := now
    expiresAt := if spec.policy.approvalTimeoutSeconds > 0 then
        now.addSeconds spec.policy.approvalTimeoutSeconds
      else 0 }

/-- `PlanApprovalDecisionFromSignal`.  A plan without a gate is decided against
its live topology. -/
def planApprovalDecisionFromSignal (spec : RunPlanSpec)
    (status : RunPlanStatus) (signal : Signal) (approved : Bool) (now : Time) :
    Except Err PlanApprovalDecision :=
  let liveVersion := planApprovalPolicyVersion digest spec status
  let decision : PlanApprovalDecision :=
    { approved := approved
      actorID := signal.actorID
      reason := planSignalReason signal
      policyVersion := liveVersion
      decidedAt := now }
  match status.approval with
  | none => .ok decision
  | some current =>
      if current.lifecycleState ≠ .pending then
        errorf .invalidSignal ("approval already decided (" ++ current.lifecycleState.text ++ ")")
      else if current.gate.policyVersion ≠ liveVersion then
        errorf .invalidSignal "approval gate is stale (topology changed after the gate was created)"
      else .ok decision

def approvalEventForSignal (spec : RunPlanSpec) (status : RunPlanStatus)
    (reason : String) (now : Time) (decision : PlanApprovalDecision) : StateEventApproval :=
  if status.approval = none ∧ status.lifecycleState = .blocked then
    { gate := newPlanApprovalGate digest spec status reason now, decision := some decision }
  else { decision := some decision }

/-! ## Published artifacts -/

def validatePublishedArtifacts (nodeID : String) :
    List String → List ArtifactRef → Except Err (List String)
  | seen, [] => .ok seen
  | seen, ref :: rest =>
      if ref.name = "" then
        .error (artifactContractError nodeID "published artifact without name")
      else if ref.kind.name = "" then
        .error (artifactContractError nodeID
          ("published artifact " ++ quoted ref.name ++ " kind is required"))
      else if ref.name ∈ seen then
        .error (artifactContractError nodeID ("duplicate published artifact " ++ quoted ref.name))
      else validatePublishedArtifacts nodeID (ref.name :: seen) rest

/-- A published artifact against the declaration of its name. -/
def matchRefAgainstSpecs (nodeID : String) (specs : List ArtifactSpec) (ref : ArtifactRef) :
    Except Err Unit :=
  match specs.find? fun spec => spec.name = ref.name with
  | none => .error (artifactContractError nodeID
      ("published undeclared artifact " ++ quoted ref.name))
  | some spec =>
      if ref.kind ≠ spec.kind then
        .error (artifactContractError nodeID
          ("artifact " ++ quoted ref.name ++ " kind " ++ quoted ref.kind.name ++
            " does not match declared kind " ++ quoted spec.kind.name))
      else if spec.mediaType ≠ "" ∧ ref.mediaType ≠ spec.mediaType then
        .error (artifactContractError nodeID
          ("artifact " ++ quoted ref.name ++ " media type " ++ quoted ref.mediaType ++
            " does not match declared media type " ++ quoted spec.mediaType))
      else .ok ()

/-- `ValidateArtifactsAgainstSpecs`.  The source ranges over a Go map to find a
required artifact that is missing, so which one it names is not fixed; here it
is the first declared. -/
def validateArtifactsAgainstSpecs (nodeID : String) (specs : List ArtifactSpec)
    (refs : List ArtifactRef) : Except Err Unit := do
  validateArtifactSpecs nodeID specs
  let seen ← validatePublishedArtifacts nodeID [] refs
  if specs.isEmpty then .ok ()
  else
    checkEach (matchRefAgainstSpecs nodeID specs) refs
    checkEach (fun spec =>
      if spec.required ∧ spec.name ∉ seen then
        .error (artifactContractError nodeID
          ("required output artifact " ++ quoted spec.name ++ " was not published"))
      else .ok ()) specs

def validateRequiredArtifacts (outputs : List ArtifactSpec) (refs : List ArtifactRef) :
    Except Err Unit :=
  validateArtifactsAgainstSpecs "" outputs refs

def runSucceeded : RunLifecycle → Bool
  | .completed | .succeeded => true
  | _ => false

def validateArtifactOwnership (planID : String) (node : PlanNodeSpec) (status : RunStatus)
    (ref : ArtifactRef) : Except Err Unit :=
  let named := "node " ++ quoted node.nodeID ++ " artifact " ++ quoted ref.name
  if ref.planID ≠ "" ∧ ref.planID ≠ planID then
    errorf .invalidArtifact (named ++ " belongs to plan " ++ quoted ref.planID)
  else if ref.nodeID ≠ "" ∧ ref.nodeID ≠ node.nodeID then
    errorf .invalidArtifact (named ++ " belongs to node " ++ quoted ref.nodeID)
  else if ref.runID ≠ "" ∧ status.runID ≠ "" ∧ ref.runID ≠ status.runID then
    errorf .invalidArtifact (named ++ " belongs to run " ++ quoted ref.runID)
  else .ok ()

def applyArtifactOwnership (planID : String) (node : PlanNodeSpec) (status : RunStatus)
    (ref : ArtifactRef) : ArtifactRef :=
  { ref with
    planID := if ref.planID = "" then planID else ref.planID
    nodeID := if ref.nodeID = "" then node.nodeID else ref.nodeID
    runID := if ref.runID = "" then status.runID else ref.runID }

def normalizeArtifactRef (planID : String) (node : PlanNodeSpec) (status : RunStatus)
    (ref : ArtifactRef) : Except Err ArtifactRef :=
  let named := "node " ++ quoted node.nodeID ++ " artifact " ++ quoted ref.name
  if ref.name = "" then
    errorf .invalidArtifact ("node " ++ quoted node.nodeID ++ " returned artifact without name")
  else if ref.kind.name = "" then errorf .invalidArtifact (named ++ " kind is required")
  else if ref.artifactID = "" then errorf .invalidArtifact (named ++ " requires artifact id")
  else do
    validateArtifactOwnership planID node status ref
    .ok (applyArtifactOwnership planID node status ref)

def normalizeRunArtifacts (planID : String) (node : PlanNodeSpec) (status : RunStatus) :
    Except Err (List ArtifactRef) :=
  status.artifacts.mapM (normalizeArtifactRef planID node status)

def hasPlanDeltaArtifact (artifacts : List ArtifactRef) : Bool :=
  artifacts.any fun artifact => artifact.kind = .planDelta

end AgentOS.Plan
