import AgentOS.Core.Basic

/-!
# The plan wire types

`RunPlanSpec`, `RunPlanStatus` and the types below them, from
`agentos/control/plan.go` and `agentos/control/types.go`, with the reducer's
`StateEvent` from `internal/usecase/agentosplan/state.go`.
-/

namespace AgentOS.Plan

/-! ## Lifecycles -/

/-- The lifecycle states of a plan. -/
inductive PlanLifecycle where
  | pending
  | running
  | blocked
  | succeeded
  | failed
  | canceled
  deriving DecidableEq

/-- The lifecycle states of a plan node. -/
inductive NodeLifecycle where
  | pending
  | ready
  | running
  | blocked
  | skipped
  | succeeded
  | failed
  | canceled
  deriving DecidableEq

/-- The lifecycle state a backend reports for a run.  Any string can come back;
the plan knows four of them. -/
inductive RunLifecycle where
  | completed
  | succeeded
  | failed
  | canceled
  | other (name : String)
  deriving DecidableEq

/-- The lifecycle states of an approval gate. -/
inductive ApprovalLifecycle where
  | pending
  | approved
  | rejected
  | stale
  deriving DecidableEq

def NodeLifecycle.text : NodeLifecycle → String
  | .pending => "pending"
  | .ready => "ready"
  | .running => "running"
  | .blocked => "blocked"
  | .skipped => "skipped"
  | .succeeded => "succeeded"
  | .failed => "failed"
  | .canceled => "canceled"

def ApprovalLifecycle.text : ApprovalLifecycle → String
  | .pending => "pending"
  | .approved => "approved"
  | .rejected => "rejected"
  | .stale => "stale"

/-- `planTerminal`. -/
def PlanLifecycle.terminal : PlanLifecycle → Bool
  | .succeeded | .failed | .canceled => true
  | _ => false

/-- `planNodeTerminal` of the workflow and `nodeTerminal` of the scheduler. -/
def NodeLifecycle.terminal : NodeLifecycle → Bool
  | .succeeded | .failed | .skipped | .canceled => true
  | _ => false

/-- `runTerminal`. -/
def RunLifecycle.terminal : RunLifecycle → Bool
  | .completed | .succeeded | .failed | .canceled => true
  | .other _ => false

/-! ## The spec -/

/-- `BackendKind`.  `other ""` is the unset kind. -/
inductive BackendKind where
  | native
  | temporalExternal
  | http
  | grpc
  | dsh
  | other (name : String)
  deriving DecidableEq

def BackendKind.text : BackendKind → String
  | .native => "native"
  | .temporalExternal => "temporal_external"
  | .http => "http"
  | .grpc => "grpc"
  | .dsh => "dsh"
  | .other name => name

structure BackendRef where
  kind : BackendKind := .other ""
  name : String := ""
  deriving DecidableEq

/-- `RunSpec`, the fields that the plan loop reads or sets. -/
structure RunSpec where
  (runID accountID projectID idempotencyKey : String := "")
  backend : BackendRef := {}
  input : List (String × Json) := []

structure InputMapping where
  (target sourceNodeID sourceArtifact sourcePath expression : String := "")
  required : Bool := false
  deriving DecidableEq

structure ArtifactSpec where
  name : String := ""
  kind : ArtifactKind := .other ""
  (mediaType schemaRef : String := "")
  required : Bool := false
  deriving DecidableEq

/-- `PlanJoinStrategy`.  `unset` is the empty string. -/
inductive PlanJoinStrategy where
  | unset
  | all
  | any
  | first
  | other (name : String)
  deriving DecidableEq

def PlanJoinStrategy.text : PlanJoinStrategy → String
  | .unset => ""
  | .all => "all"
  | .any => "any"
  | .first => "first"
  | .other name => name

/-- `EdgeTrigger`.  `unset` is the empty string. -/
inductive EdgeTrigger where
  | unset
  | onSuccess
  | onError
  | onComplete
  | onAlways
  | other (name : String)
  deriving DecidableEq

structure NodePolicy where
  (maxAttempts timeoutSeconds : Int := 0)
  join : PlanJoinStrategy := .unset
  deriving DecidableEq

structure PlanNodeSpec where
  (nodeID capability peer : String := "")
  run : RunSpec := {}
  inputs : List InputMapping := []
  outputs : List ArtifactSpec := []
  conditions : List String := []
  policy : NodePolicy := {}

instance : Inhabited PlanNodeSpec := ⟨{}⟩

/-- `PlanEdgeSpec`.  The source calls the fields `From` and `To`. -/
structure PlanEdgeSpec where
  (edgeID source target : String := "")
  on : EdgeTrigger := .unset
  condition : String := ""
  inputMapping : List InputMapping := []
  deriving DecidableEq

structure PlanPolicy where
  (maxNodes maxDepth maxExpansions maxIterations maxHistoryEvents continueAsNewEvents : Int := 0)
  (maxParallelNodes budgetCents timeoutSeconds approvalTimeoutSeconds : Int := 0)
  deriving DecidableEq

structure RunPlanSpec where
  (planID threadID accountID projectID idempotencyKey : String := "")
  inputs : List (String × Json) := []
  metadata : List (String × String) := []
  nodes : List PlanNodeSpec := []
  edges : List PlanEdgeSpec := []
  policy : PlanPolicy := {}

/-- `ValidateRunPlanScope`, which the stores call as well. -/
def validateRunPlanScope (spec : RunPlanSpec) : Except Err Unit :=
  if spec.planID = "" then errorf .invalidRunPlan "plan id is required"
  else if spec.accountID = "" then errorf .invalidRunPlan "account id is required"
  else if spec.projectID = "" then errorf .invalidRunPlan "project id is required"
  else .ok ()

/-- `PlanDeltaSpec`, the unit of a dynamic expansion. -/
structure PlanDelta where
  nodes : List PlanNodeSpec := []
  edges : List PlanEdgeSpec := []

/-- `CapabilityLimits`, the fields that the plan validator reads. -/
structure CapabilityLimits where
  maxBatchItems : Int := 0
  batchInputKey : String := ""

/-- `Capability`, the fields that a plan reads.  A schema is the raw JSON text;
the empty text is no schema. -/
structure Capability where
  backend : BackendRef := {}
  (name inputSchema outputSchema : String := "")
  signals : List SignalType := []
  controls : List ControlOperation := []
  limits : CapabilityLimits := {}

/-! ## The status -/

/-- `PlanNodeStatus`.  `spentCents` is the one field of its `BudgetUsage`. -/
structure PlanNodeStatus where
  (nodeID runID : String := "")
  backend : BackendRef := {}
  lifecycleState : NodeLifecycle := .pending
  (attempts spentCents : Int := 0)
  reason : String := ""
  artifacts : List ArtifactRef := []
  (startedAt completedAt updatedAt : Time := 0)
  deriving DecidableEq

structure PlanApprovalGate where
  summary : String := ""
  nodeIDs : List String := []
  (riskReason policyVersion : String := "")
  (requestedAt expiresAt : Time := 0)
  deriving DecidableEq

structure PlanApprovalDecision where
  approved : Bool := false
  (actorID reason policyVersion : String := "")
  decidedAt : Time := 0
  deriving DecidableEq

structure PlanApprovalStatus where
  lifecycleState : ApprovalLifecycle := .pending
  gate : PlanApprovalGate := {}
  decision : Option PlanApprovalDecision := none
  deriving DecidableEq

/-- `RunPlanStatus`.  `spentCents` is the one field of its `BudgetUsage`. -/
structure RunPlanStatus where
  planID : String := ""
  lifecycleState : PlanLifecycle := .pending
  nodes : List PlanNodeStatus := []
  activeRunIDs : List String := []
  artifacts : List ArtifactRef := []
  reason : String := ""
  spentCents : Int := 0
  metadata : List (String × String) := []
  (startedAt updatedAt blockedAt : Time := 0)
  approval : Option PlanApprovalStatus := none
  deriving DecidableEq

/-- `RunStatus`, the fields that the plan loop reads. -/
structure RunStatus where
  runID : String := ""
  lifecycleState : RunLifecycle := .other ""
  artifacts : List ArtifactRef := []
  spentCents : Int := 0
  reason : String := ""

/-! ## Reducer events -/

inductive EventKind where
  | planStarted
  | planBlocked
  | planExpanded
  | planApproved
  | planRejected
  | planSucceeded
  | planFailed
  | planCanceled
  | nodeReady
  | nodeStarted
  | nodeSucceeded
  | nodeFailed
  | nodeRetryScheduled
  | nodeSkipped
  | nodeCanceled
  | nodeInputResolved
  | capabilitySelected
  | conditionsEvaluated
  | artifactsPublished
  | budgetReported
  deriving DecidableEq

structure CapabilitySelectionTrace where
  backend : BackendRef := {}
  capability : String := ""
  signals : List SignalType := []
  controls : List ControlOperation := []
  (hasInputSchema hasOutputSchema : Bool := false)

structure ConditionEvaluationTrace where
  (scope nodeID edgeID source target expression : String := "")
  result : Bool := false
  on : EdgeTrigger := .unset
  parentState : Option NodeLifecycle := none

abbrev InputMappingTrace := InputMapping

structure InputResolutionTrace where
  inputDigest : String := ""
  inputKeys : List String := []
  mappingCount : Nat := 0
  mappings : List InputMappingTrace := []

structure StateEventApproval where
  gate : PlanApprovalGate := {}
  decision : Option PlanApprovalDecision := none

/-- A lifecycle as `lifecycleForEvent` reports it: of the plan, of a node, or
none for an unknown node. -/
inductive EventLifecycle where
  | unknown
  | plan (state : PlanLifecycle)
  | node (state : NodeLifecycle)
  deriving DecidableEq

structure StateEvent where
  kind : EventKind
  (nodeID runID reason : String := "")
  attempt : Int := 0
  expansion : PlanDelta := {}
  artifacts : List ArtifactRef := []
  budgetDelta : Int := 0
  inputTrace : InputResolutionTrace := {}
  capability : CapabilitySelectionTrace := {}
  conditionTraces : List ConditionEvaluationTrace := []
  previousLifecycleState : EventLifecycle := .unknown
  nextLifecycleState : EventLifecycle := .unknown
  at_ : Time := 0
  approval : Option StateEventApproval := none

end AgentOS.Plan
