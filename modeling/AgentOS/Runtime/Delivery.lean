import AgentOS.Plan.Policy
import AgentOS.Store.CommandLog
import AgentOS.Store.StartReplay

/-!
# Starting plans and delivering commands

`StartPlan` of `agentos/temporal/plan_runtime.go` and `Recover` of
`plan_command_reconciler.go`, over the plan tables, the command log, the audit log and the
executions of Temporal.  A request is kept as an audit record, the record is carried by a
command, and the reconciler goes the way back from a stored command to the request and to its
record.  Calls run at once, statement by statement, and each can fail or stop between any two of
its statements.
-/

namespace AgentOS.Runtime

open Kit Store List

/-! ## Requests -/

structure PlanRef where
  (planID accountID projectID : String)

/-- A `Signal` with its payload as the caller built it. -/
structure PlanSignal where
  type : SignalType := .other ""
  (idempotencyKey actorID : String := "")
  payload : Payload := none
  sentAt : Time := 0

/-- The signal that `ValidatePlanSignal` checks.  It reads strings of the payload only. -/
def PlanSignal.signal (signal : PlanSignal) : Signal where
  type := signal.type
  idempotencyKey := signal.idempotencyKey
  actorID := signal.actorID
  payload := (signal.payload.getD []).map fun (key, value) =>
    (key, match value with | .str s => .str s | _ => .null)
  sentAt := signal.sentAt

/-- A `ControlRequest` with its metadata as the caller built it.  `none` is the nil map. -/
structure PlanControl where
  operation : ControlOperation := .other ""
  idempotencyKey : String := ""
  requestedAt : Time := 0
  actorID : String := ""
  metadata : Option (List (String × String)) := none

/-- The control that `ValidateControlRequest` checks. -/
def PlanControl.control (control : PlanControl) : ControlRequest where
  operation := control.operation
  idempotencyKey := control.idempotencyKey
  requestedAt := control.requestedAt
  actorID := control.actorID
  metadata := control.metadata.getD []

/-- `time.RFC3339Nano`, in which a time is encoded and parsed. -/
structure Rfc3339 where
  format : Time → String
  parse : String → Option Time
  parse_format : ∀ t, parse (format t) = some t

/-! ## Audit records and commands -/

def planStartAuditRecord (spec : RunPlanSpec) : AuditRecord where
  planID := spec.planID
  accountID := spec.accountID
  projectID := spec.projectID
  action := .planStart
  idempotencyKey := spec.idempotencyKey
  payload := some [("account_id", .str spec.accountID), ("project_id", .str spec.projectID),
    ("thread_id", .str spec.threadID)]

def timeMember (rfc : Rfc3339) (key : String) (t : Time) : List (String × Document Number) :=
  if t.isZero then [] else [(key, .str (rfc.format t))]

def stringMapDocument (m : Option (List (String × String))) : Document Number :=
  m.elim .null fun entries => .obj (entries.map fun (key, value) => (key, .str value))

def planSignalAuditRecord (rfc : Rfc3339) (ref : PlanRef) (signal : PlanSignal) : AuditRecord where
  planID := ref.planID
  accountID := ref.accountID
  projectID := ref.projectID
  actorID := signal.actorID
  action := .planSignal
  idempotencyKey := signal.idempotencyKey
  payload := some (("payload", signal.payload.elim .null .obj) ::
    (timeMember rfc "sent_at" signal.sentAt ++ [("type", .str signal.type.text)]))

def planControlAuditRecord (rfc : Rfc3339) (ref : PlanRef) (control : PlanControl) :
    AuditRecord where
  planID := ref.planID
  accountID := ref.accountID
  projectID := ref.projectID
  actorID := control.actorID
  action := .planControl
  idempotencyKey := control.idempotencyKey
  payload := some (("metadata", stringMapDocument control.metadata) ::
    ("operation", .str control.operation.text) ::
    timeMember rfc "requested_at" control.requestedAt)

def planCommandFromAuditRecord (record : AuditRecord) : PlanCommandRecord where
  planID := record.planID
  accountID := record.accountID
  projectID := record.projectID
  actorID := record.actorID
  action := record.action
  idempotencyKey := record.idempotencyKey
  payload := record.payload
  status := .pending

/-! ## From a command to its request -/

def planRefFromCommand (command : PlanCommandRecord) : PlanRef where
  planID := command.planID
  accountID := command.accountID
  projectID := command.projectID

def payloadError {α : Type} (key text : String) : Except Err α :=
  errorf .invalidRunPlan ("command payload." ++ key ++ " " ++ text)

def textPayload (payload : Payload) (key : String) : Except Err String :=
  match mapGet (payload.getD []) key with
  | none => payloadError key "is required"
  | some (.str text) => .ok text
  | some _ => payloadError key "must be a string"

def signalTypePayload (payload : Payload) (key : String) : Except Err SignalType := do
  return .ofText (← textPayload payload key)

def controlOperationPayload (payload : Payload) (key : String) : Except Err ControlOperation := do
  return .ofText (← textPayload payload key)

def mapPayload (payload : Payload) (key : String) : Except Err (List (String × Document Number)) :=
  match mapGet (payload.getD []) key with
  | none | some .null => .ok []
  | some (.obj members) => .ok members
  | some _ => payloadError key "must be an object"

def stringEntry (entry : String × Document Number) : Except Err (String × String) :=
  match entry.2 with
  | .str value => .ok (entry.1, value)
  | _ => payloadError ("metadata." ++ entry.1) "must be a string"

def stringMapPayload (payload : Payload) (key : String) :
    Except Err (Option (List (String × String))) :=
  match mapGet (payload.getD []) key with
  | none | some .null => .ok none
  | some (.obj members) => do return some (← members.mapM stringEntry)
  | some _ => payloadError key "must be an object"

def optionalTimePayload (rfc : Rfc3339) (payload : Payload) (key : String) : Except Err Time :=
  match mapGet (payload.getD []) key with
  | none | some .null => .ok 0
  | some (.str text) =>
    match rfc.parse text with
    | some t => .ok t
    | none => payloadError key "must be RFC3339 time"
  | some _ => payloadError key "must be RFC3339 time"

def signalFromPlanCommand (rfc : Rfc3339) (command : PlanCommandRecord) :
    Except Err PlanSignal := do
  let type ← signalTypePayload command.payload "type"
  let payload ← mapPayload command.payload "payload"
  let sentAt ← optionalTimePayload rfc command.payload "sent_at"
  let signal : PlanSignal :=
    { type, idempotencyKey := command.idempotencyKey, actorID := command.actorID,
      payload := some payload, sentAt }
  Plan.validatePlanSignal signal.signal
  return signal

def controlFromPlanCommand (rfc : Rfc3339) (command : PlanCommandRecord) :
    Except Err PlanControl := do
  let operation ← controlOperationPayload command.payload "operation"
  let metadata ← stringMapPayload command.payload "metadata"
  let requestedAt ← optionalTimePayload rfc command.payload "requested_at"
  let control : PlanControl :=
    { operation, idempotencyKey := command.idempotencyKey, requestedAt,
      actorID := command.actorID, metadata }
  validateControlRequest control.control
  if control.actorID = "" then errorf .invalidControlOperation "control actor id is required"
  else return control

/-- What a command sends to the workflow. -/
inductive PlanMessage where
  | signal (signal : PlanSignal)
  | control (control : PlanControl)

/-- The audit record of a message. -/
def PlanMessage.auditRecord (rfc : Rfc3339) (ref : PlanRef) : PlanMessage → AuditRecord
  | .signal sent => planSignalAuditRecord rfc ref sent
  | .control request => planControlAuditRecord rfc ref request

/-- `commandDeliveryPayload`, with the audit record in the message's own function. -/
def commandDeliveryPayload (rfc : Rfc3339) (command : PlanCommandRecord) :
    Except Err (PlanMessage × AuditRecord) := do
  let message ← (match command.action with
    | .planSignal => do return .signal (← signalFromPlanCommand rfc command)
    | .planControl => do return .control (← controlFromPlanCommand rfc command)
    | .planStart => errorf .invalidRunPlan "plan start is handled by deliverPlanStart"
    | .other name =>
      errorf .invalidRunPlan ("unsupported plan command action " ++ quoted name))
  return (message, message.auditRecord rfc (planRefFromCommand command))

variable {ι Text : Type} [DecidableEq Text]

/-! ## The system -/

/-- The executions of one workflow id: whether one is open, and how many were started. -/
structure Execution where
  isOpen : Bool := false
  started : Nat := 0

/-- `ExecuteWorkflow` under the default id-reuse policy. -/
def Execution.start (execution : Execution) : Execution :=
  if execution.isOpen then execution else ⟨true, execution.started + 1⟩

/-- The tables, and the executions by the plan id that their workflow id is made of. -/
structure RuntimeStore (ι : Type) where
  plans : PlanTables
  commands : CommandTable
  audits : AuditTable ι
  executions : String → Execution

/-- What the runtime is configured with. -/
structure RuntimeEnv (Text : Type) where
  marshal : Marshal Text
  sha : Sha256
  rfc : Rfc3339
  validatePlanInput : RunPlanSpec → Except Err Unit
  nodeRunOwnership : AuditRecord → Except Err Unit

namespace RuntimeStore

variable (s : RuntimeStore ι)

def tenantScope (planID : String) : Except Err (Option (String × String)) :=
  .ok ((s.plans.findPlan planID).map fun row => (row.spec.accountID, row.spec.projectID))

/-- What the command log reads of the plans. -/
def commandEnv (E : RuntimeEnv Text) (s : RuntimeStore ι) : CommandEnv := ⟨E.sha, s.tenantScope⟩

/-- What the audit log reads of the plans. -/
def auditEnv (E : RuntimeEnv Text) (s : RuntimeStore ι) : AuditEnv :=
  ⟨E.sha, s.tenantScope, E.nodeRunOwnership⟩

def commandStore : CommandStore := ⟨s.commands, s.audits.rows⟩

def execute (planID : String) : RuntimeStore ι :=
  { s with executions := Function.update s.executions planID (s.executions planID).start }

/-- The workflow of a plan ends. -/
def complete (planID : String) : RuntimeStore ι :=
  { s with
    executions := Function.update s.executions planID
      { s.executions planID with isOpen := false } }

end RuntimeStore

def getPlanByRef (t : PlanTables) (ref : PlanRef) :
    Except Err (Option (RunPlanSpec × Plan.RunPlanStatus)) := do
  validatePlanRef ⟨ref.planID, ref.accountID, ref.projectID, ""⟩
  match t.findPlan ref.planID with
  | none => return none
  | some row =>
    if row.spec.accountID ≠ ref.accountID ∨ row.spec.projectID ≠ ref.projectID then return none
    else do
      let state ← Plan.newStateFromStatus row.spec.toRunPlanSpec
        { row.status with nodes := row.nodes }
      return some (row.spec, state.status)

/-- Where a call stands.  `rest` are the commands that a pass of `Recover` still has to
deliver; a `StartPlan` has none. -/
inductive RuntimeCall where
  /-- `StartPlan` is called. -/
  | startPlan (spec : RunPlanSpec)
  /-- `StartPlan` has its plan and is in `RecordPlanCommand`. -/
  | recording (spec : RunPlanSpec) (inner : CommandCall)
  /-- The start command is read, and the workflow is to be started. -/
  | executing (spec : RunPlanSpec) (ref : RecordRef) (rest : List PlanCommandRecord)
  /-- A command is read, and its message is to be sent to the workflow. -/
  | signaling (message : PlanMessage) (record : AuditRecord) (ref : RecordRef)
      (rest : List PlanCommandRecord)
  /-- In `RecordAudit`.  The command of `mark` is delivered behind it. -/
  | auditing (inner : AuditCall) (mark : Option RecordRef) (rest : List PlanCommandRecord)
  /-- In `MarkPlanCommandDelivered` or `MarkPlanCommandFailed`. -/
  | marking (inner : CommandCall) (rest : List PlanCommandRecord)
  /-- `Recover` is called. -/
  | recover (limit : Int)
  /-- The loop of `Recover`.  Without commands the call has ended. -/
  | delivering (rest : List PlanCommandRecord)
  /-- The workflow of a plan, as far as an execution of it is open. -/
  | workflow (planID : String)
  /-- A call on the command log that is made for a signal or a control. -/
  | commanding (inner : CommandCall)

/-- What happens at a step. -/
inductive Answer where
  /-- The statement runs, at an instant. -/
  | ran (now : Time)
  /-- The statement fails without an effect. -/
  | failed (cause : Err)
  /-- The workflow is started, and the answer is an error. -/
  | lost (cause : Err)
  /-- The process stops. -/
  | crashed
  /-- The workflow persists a transition. -/
  | persisted (now : Time) (snapshot : PlanStateSnapshot) (event : PlanEvent)
      (idempotencyKey : String)
  /-- The workflow ends. -/
  | completed

def RuntimeCall.rest : RuntimeCall → List PlanCommandRecord
  | .executing _ _ rest | .signaling _ _ _ rest | .auditing _ _ rest | .marking _ rest
  | .delivering rest => rest
  | _ => []

def releaseLock (t : AuditTable ι) : AuditCall → AuditTable ι
  | .locked record | .chained record _ => t.setLock record.tenant none
  | _ => t

def RuntimeStore.stopped (s : RuntimeStore ι) : RuntimeCall → RuntimeStore ι
  | .auditing inner _ _ => { s with audits := releaseLock s.audits inner }
  | _ => s

def markFailed (ref : RecordRef) (cause : Err) (rest : List PlanCommandRecord) : RuntimeCall :=
  .marking (.marking ref .failed cause.text) rest

def RuntimeCall.afterFailure (cause : Err) : RuntimeCall → RuntimeCall
  | .executing _ ref rest | .signaling _ _ ref rest => markFailed ref cause rest
  | .delivering (command :: rest) => markFailed (planCommandRefFromRecord command) cause rest
  | call => .delivering call.rest

def startPlan (E : RuntimeEnv Text) (now : Time) (s : RuntimeStore ι) (spec : RunPlanSpec) :
    RuntimeStore ι × RuntimeCall :=
  match E.validatePlanInput spec with
  | .error _ => (s, .delivering [])
  | .ok () =>
    match s.plans.createPlan E.marshal now spec
        (Plan.newState spec.toRunPlanSpec now).status with
    | .error _ => (s, .delivering [])
    | .ok (plans, status, created) =>
      if !created ∧ status.lifecycleState ≠ .pending then
        ({ s with plans }, .delivering [])
      else
        ({ s with plans },
          .recording spec (.recording (planCommandFromAuditRecord (planStartAuditRecord spec))))

def behindRecord (spec : RunPlanSpec) : CommandCall → RuntimeCall
  | .recorded (.error _) => .delivering []
  | .recorded (.ok (command, _)) =>
    if command.status = .delivered then .auditing (.called (planStartAuditRecord spec)) none []
    else .executing spec (planCommandRefFromRecord command) []
  | inner => .recording spec inner

def behindAudit (mark : Option RecordRef) (rest : List PlanCommandRecord) :
    AuditCall → RuntimeCall
  | .done (.error _) => .delivering rest
  | .done (.ok _) =>
    match mark with
    | some ref => .marking (.marking ref .delivered "") rest
    | none => .delivering rest
  | inner => .auditing inner mark rest

def behindMark (rest : List PlanCommandRecord) : CommandCall → RuntimeCall
  | .marked _ => .delivering rest
  | inner => .marking inner rest

def deliverPlanStart (plans : PlanTables) (command : PlanCommandRecord)
    (rest : List PlanCommandRecord) : RuntimeCall :=
  let ref := planCommandRefFromRecord command
  match getPlanByRef plans (planRefFromCommand command) with
  | .error err => markFailed ref err rest
  | .ok none => markFailed ref (.wrap .planRouteNotFound command.planID) rest
  | .ok (some (spec, _)) =>
    if command.idempotencyKey ≠ spec.idempotencyKey then
      markFailed ref (.wrap .invalidRunPlan
        "plan.start command idempotency key does not match plan start request") rest
    else .executing spec ref rest

def deliver (E : RuntimeEnv Text) (plans : PlanTables) (command : PlanCommandRecord)
    (rest : List PlanCommandRecord) : RuntimeCall :=
  if command.status = .delivered then .delivering rest
  else if command.action = .planStart then deliverPlanStart plans command rest
  else
    match commandDeliveryPayload E.rfc command with
    | .error err => markFailed (planCommandRefFromRecord command) err rest
    | .ok (message, record) => .signaling message record (planCommandRefFromRecord command) rest

/-- The next step of a call.  `none` is a call that waits or has ended. -/
def runtimeNext (E : RuntimeEnv Text) (answer : Answer) (i : ι) (s : RuntimeStore ι)
    (call : RuntimeCall) : Option (RuntimeStore ι × RuntimeCall) :=
  match call, answer with
  | .workflow planID, .persisted now snapshot event idempotencyKey =>
    if (s.executions planID).isOpen then
      match s.plans.persistPlanTransition E.marshal now snapshot event idempotencyKey with
      | .error _ => none
      | .ok (plans, _) => some ({ s with plans }, .workflow planID)
    else none
  | .workflow planID, .completed =>
    if (s.executions planID).isOpen then some (s.complete planID, .workflow planID) else none
  | .workflow _, _ => none
  | call, .crashed => some (s.stopped call, .delivering [])
  | call, .failed cause => some (s.stopped call, call.afterFailure cause)
  | .executing spec ref rest, .lost cause =>
    some (s.execute spec.planID, markFailed ref cause rest)
  | .startPlan spec, .ran now => some (startPlan E now s spec)
  | .recording spec inner, .ran now =>
    (commandNext (s.commandEnv E) now i s.commandStore inner).map fun (store, inner) =>
      ({ s with commands := store.commands }, behindRecord spec inner)
  | .executing spec ref rest, .ran _ =>
    some (s.execute spec.planID, .auditing (.called (planStartAuditRecord spec)) (some ref) rest)
  | .signaling _ record ref rest, .ran _ => some (s, .auditing (.called record) (some ref) rest)
  | .auditing inner mark rest, .ran now =>
    (auditNext (s.auditEnv E) now i s.audits inner).map fun (audits, inner) =>
      ({ s with audits }, behindAudit mark rest inner)
  | .marking inner rest, .ran now =>
    (commandNext (s.commandEnv E) now i s.commandStore inner).map fun (store, inner) =>
      ({ s with commands := store.commands }, behindMark rest inner)
  | .recover limit, .ran _ =>
    match listRecoverablePlanCommands s.commands { limit } with
    | .error _ => some (s, .delivering [])
    | .ok commands => some (s, .delivering commands)
  | .delivering (command :: rest), .ran _ => some (s, deliver E s.plans command rest)
  | .commanding inner, .ran now =>
    (commandNext (s.commandEnv E) now i s.commandStore inner).map fun (store, inner) =>
      ({ s with commands := store.commands }, .commanding inner)
  | _, _ => none

/-! ## What a step can do -/

def RuntimeCall.Quiet : RuntimeCall → Prop
  | .recording .. | .executing .. => False
  | _ => True

inductive RuntimeStep (E : RuntimeEnv Text) (i : ι) (s : RuntimeStore ι) :
    RuntimeCall → RuntimeStore ι → RuntimeCall → Prop where
  /-- The call goes on, fails or ends, and only the audit log changes. -/
  | quiet {call call'} (audits : AuditTable ι) (hquiet : call'.Quiet)
      (hrest : call'.rest ⊆ call.rest) : RuntimeStep E i s call { s with audits } call'
  /-- A statement on the command log. -/
  | command {call call' inner inner' now store}
      (hnext : commandNext (s.commandEnv E) now i s.commandStore inner = some (store, inner'))
      (hquiet : call'.Quiet) (hrest : call'.rest ⊆ call.rest) :
      RuntimeStep E i s call { s with commands := store.commands } call'
  /-- `CreatePlan` found a plan that has left the status pending. -/
  | known {spec plans now status answer}
      (hcreate : s.plans.createPlan E.marshal now spec status = .ok (plans, answer)) :
      RuntimeStep E i s (.startPlan spec) { s with plans } (.delivering [])
  | created {spec plans now status answer}
      (hcreate : s.plans.createPlan E.marshal now spec status = .ok (plans, answer)) :
      RuntimeStep E i s (.startPlan spec) { s with plans }
        (.recording spec (.recording (planCommandFromAuditRecord (planStartAuditRecord spec))))
  /-- A statement of `RecordPlanCommand` that does not end it. -/
  | record {spec inner inner' now store}
      (hnext : commandNext (s.commandEnv E) now i s.commandStore inner = some (store, inner'))
      (hgoing : ∀ result, inner' ≠ .recorded result) :
      RuntimeStep E i s (.recording spec inner) { s with commands := store.commands }
        (.recording spec inner')
  /-- `RecordPlanCommand` answered a command that is not delivered. -/
  | undelivered {spec inner now store command created}
      (hnext : commandNext (s.commandEnv E) now i s.commandStore inner =
        some (store, .recorded (.ok (command, created)))) (hstatus : command.status ≠ .delivered) :
      RuntimeStep E i s (.recording spec inner) { s with commands := store.commands }
        (.executing spec (planCommandRefFromRecord command) [])
  | listed {limit commands}
      (hlisted : listRecoverablePlanCommands s.commands { limit } = .ok commands) :
      RuntimeStep E i s (.recover limit) s (.delivering commands)
  /-- `deliverPlanStart` found the plan of its command. -/
  | chosen {command rest spec status}
      (hplan : getPlanByRef s.plans (planRefFromCommand command) = .ok (some (spec, status)))
      (hkey : command.idempotencyKey = spec.idempotencyKey) :
      RuntimeStep E i s (.delivering (command :: rest)) s
        (.executing spec (planCommandRefFromRecord command) rest)
  | executed {spec ref rest call'} (hquiet : call'.Quiet) (hrest : call'.rest ⊆ rest) :
      RuntimeStep E i s (.executing spec ref rest) (s.execute spec.planID) call'
  | persisted {planID plans} (haccepted : PlanTables.Accepted E.marshal s.plans plans) :
      RuntimeStep E i s (.workflow planID) { s with plans } (.workflow planID)
  | completed {planID} (hopen : (s.executions planID).isOpen = true) :
      RuntimeStep E i s (.workflow planID) (s.complete planID) (.workflow planID)

section Step

variable {E : RuntimeEnv Text} {i : ι} {s s' : RuntimeStore ι} {call call' : RuntimeCall}
  {answer : Answer} {now : Time} {spec : RunPlanSpec}

theorem RuntimeStep.stopped (hquiet : call'.Quiet) (hrest : call'.rest ⊆ call.rest) :
    RuntimeStep E i s call (s.stopped call) call' := by
  cases call with
  | auditing inner mark rest => exact .quiet _ hquiet hrest
  | _ => exact .quiet s.audits hquiet hrest

theorem RuntimeCall.afterFailure_quiet (cause : Err) (call : RuntimeCall) :
    (call.afterFailure cause).Quiet ∧ (call.afterFailure cause).rest ⊆ call.rest := by
  cases call with
  | delivering rest =>
    cases rest with
    | nil => exact ⟨trivial, Subset.refl _⟩
    | cons command rest => exact ⟨trivial, subset_cons_self _ _⟩
  | _ => exact ⟨trivial, Subset.refl _⟩

theorem startPlan_step (h : startPlan E now s spec = (s', call')) :
    RuntimeStep E i s (.startPlan spec) s' call' := by
  have hends : RuntimeStep E i s (.startPlan spec) s (.delivering []) :=
    RuntimeStep.stopped trivial (Subset.refl _)
  unfold startPlan at h
  split at h
  · cases h
    exact hends
  split at h
  · cases h
    exact hends
  next hcreate =>
  split at h <;> cases h
  · exact .known hcreate
  · exact .created hcreate

theorem behindRecord_step {inner inner' : CommandCall} {store : CommandStore}
    (hnext : commandNext (s.commandEnv E) now i s.commandStore inner = some (store, inner')) :
    RuntimeStep E i s (.recording spec inner) { s with commands := store.commands }
      (behindRecord spec inner') := by
  cases inner' with
  | recorded result =>
    cases result with
    | error err => exact .command hnext trivial (Subset.refl _)
    | ok result =>
      simp only [behindRecord]
      split
      · exact .command hnext trivial (Subset.refl _)
      · next hstatus => exact .undelivered hnext hstatus
  | _ => exact .record hnext (fun _ h => nomatch h)

theorem behindAudit_quiet (mark : Option RecordRef) (rest : List PlanCommandRecord)
    (inner : AuditCall) :
    (behindAudit mark rest inner).Quiet ∧ (behindAudit mark rest inner).rest ⊆ rest := by
  cases inner with
  | done result => cases result <;> cases mark <;> exact ⟨trivial, Subset.refl _⟩
  | _ => exact ⟨trivial, Subset.refl _⟩

theorem behindMark_quiet (rest : List PlanCommandRecord) (inner : CommandCall) :
    (behindMark rest inner).Quiet ∧ (behindMark rest inner).rest ⊆ rest := by
  cases inner <;> exact ⟨trivial, Subset.refl _⟩

theorem deliver_step (command : PlanCommandRecord) (rest : List PlanCommandRecord) :
    RuntimeStep E i s (.delivering (command :: rest)) s (deliver E s.plans command rest) := by
  have hgoes {call' : RuntimeCall} (hquiet : call'.Quiet) (hrest : call'.rest = rest) :
      RuntimeStep E i s (.delivering (command :: rest)) s call' :=
    RuntimeStep.stopped hquiet (hrest ▸ subset_cons_self _ _)
  unfold deliver
  split
  · exact hgoes trivial rfl
  split
  · unfold deliverPlanStart
    split
    · exact hgoes trivial rfl
    · exact hgoes trivial rfl
    · next hplan =>
      split
      · exact hgoes trivial rfl
      · next hkey => exact .chosen hplan (not_not.mp hkey)
  · split
    · exact hgoes trivial rfl
    · exact hgoes trivial rfl

theorem ran_step (h : runtimeNext E (.ran now) i s call = some (s', call')) :
    RuntimeStep E i s call s' call' := by
  cases call with
  | startPlan spec => exact startPlan_step (Option.some.inj h)
  | recording spec inner =>
    obtain ⟨⟨store, inner'⟩, hnext, h⟩ := Option.map_eq_some_iff.mp h
    cases h
    exact behindRecord_step hnext
  | executing spec ref rest =>
    cases h
    exact .executed trivial (Subset.refl _)
  | signaling message record ref rest =>
    cases h
    exact .stopped trivial (Subset.refl _)
  | auditing inner mark rest =>
    obtain ⟨⟨audits, inner'⟩, -, h⟩ := Option.map_eq_some_iff.mp h
    cases h
    obtain ⟨hquiet, hrest⟩ := behindAudit_quiet mark rest inner'
    exact .quiet audits hquiet hrest
  | marking inner rest =>
    obtain ⟨⟨store, inner'⟩, hnext, h⟩ := Option.map_eq_some_iff.mp h
    cases h
    obtain ⟨hquiet, hrest⟩ := behindMark_quiet rest inner'
    exact .command hnext hquiet hrest
  | recover limit =>
    simp only [runtimeNext] at h
    split at h
    · cases h
      exact .stopped trivial (Subset.refl _)
    · next hlisted =>
      cases h
      exact .listed hlisted
  | delivering rest =>
    cases rest with
    | nil => cases h
    | cons command rest =>
      cases h
      exact deliver_step command rest
  | workflow planID => cases h
  | commanding inner =>
    obtain ⟨⟨store, inner'⟩, hnext, h⟩ := Option.map_eq_some_iff.mp h
    cases h
    exact .command hnext trivial (Subset.refl _)

theorem runtimeNext_step (h : runtimeNext E answer i s call = some (s', call')) :
    RuntimeStep E i s call s' call' := by
  cases answer with
  | ran now => exact ran_step h
  | failed cause =>
    cases call with
    | workflow planID => cases h
    | _ =>
      cases h
      exact .stopped (RuntimeCall.afterFailure_quiet cause _).1
        (RuntimeCall.afterFailure_quiet cause _).2
  | lost cause =>
    cases call with
    | executing spec ref rest =>
      cases h
      exact .executed trivial (Subset.refl _)
    | _ => cases h
  | crashed =>
    cases call with
    | workflow planID => cases h
    | _ =>
      cases h
      exact .stopped trivial (nil_subset _)
  | persisted now snapshot event idempotencyKey =>
    cases call with
    | workflow planID =>
      simp only [runtimeNext] at h
      split at h
      · split at h
        · cases h
        · next hpersist =>
          cases h
          exact .persisted (.persistPlanTransition hpersist)
      · cases h
    | _ => cases h
  | completed =>
    cases call with
    | workflow planID =>
      simp only [runtimeNext] at h
      split at h
      · next hopen =>
        cases h
        exact .completed hopen
      · cases h
    | _ => cases h

end Step

/-! ## A runtime to run -/

/-- A stand-in for the format of a time: a sign and as many strokes as nanoseconds. -/
def strokes : Rfc3339 where
  format t := String.ofList ((if t < 0 then '-' else '+') :: replicate t.natAbs '1')
  parse text :=
    match text.toList with
    | '+' :: rest => some (rest.length : Int)
    | '-' :: rest => some (-(rest.length : Int))
    | _ => none
  parse_format := fun (t : Int) => by
    by_cases h : t < 0
    · have habs : -(t.natAbs : Int) = t := by omega
      simp only [h, if_true, String.toList_ofList, length_replicate, habs]
    · have habs : (t.natAbs : Int) = t := by omega
      simp only [h, if_false, String.toList_ofList, length_replicate, habs]

/-- A runtime that accepts every plan. -/
def bareRuntime : RuntimeEnv PlainText where
  marshal := plainMarshal
  sha := plainSha
  rfc := strokes
  validatePlanInput _ := .ok ()
  nodeRunOwnership _ := .ok ()

def RuntimeCall.ended : RuntimeCall → Bool
  | .delivering [] => true
  | _ => false

end AgentOS.Runtime
