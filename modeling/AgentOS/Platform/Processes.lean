import AgentOS.Kit.Calls
import AgentOS.Platform.Projections

/-!
# Durable processes

The runtime of `internal/usecase/agentosprocess`: a process is started for a resource, and
signals and control requests change its lifecycle state.  A call reads the process, appends an
event, and replaces the status with `UpdateProcessStatus`.
-/

namespace AgentOS.Platform

open Kit

/-! ## Specs, statuses and events -/

/-- `Policy`. -/
structure ProcessPolicy where
  (timeoutSeconds maxHistoryEvents continueAsNewEvents : Int := 0)

structure TimerSpec where
  timerID : String := ""
  fireAt : Time := 0
  afterSeconds : Int := 0
  signal : SignalType := .other ""
  payload : List (String × Json) := []

/-- `Spec`. -/
structure ProcessSpec where
  (processID kind accountID projectID idempotencyKey : String := "")
  resource : ResourceRef := {}
  requestedAt : Time := 0
  inputs : List (String × Json) := []
  metadata : List (String × String) := []
  policy : ProcessPolicy := {}
  timers : List TimerSpec := []

instance : Inhabited ProcessSpec := ⟨{}⟩

/-- The lifecycle states of a process.  `unset` is the empty string. -/
inductive ProcessLifecycle where
  | unset
  | pending
  | running
  | waiting
  | blocked
  | succeeded
  | failed
  | canceled
  deriving DecidableEq

/-- A process ends succeeded, failed or canceled. -/
def ProcessLifecycle.terminal : ProcessLifecycle → Bool
  | .succeeded | .failed | .canceled => true
  | _ => false

structure RunProgress where
  (current total : Int := 0)
  label : String := ""

/-- `Status`. -/
structure ProcessStatus where
  (processID kind accountID projectID : String := "")
  resource : ResourceRef := {}
  lifecycleState : ProcessLifecycle := .unset
  reason : String := ""
  progress : Option RunProgress := none
  metadata : List (String × String) := []
  (startedAt updatedAt : Time := 0)

instance : Inhabited ProcessStatus := ⟨{}⟩

inductive ProcessEventType where
  | processStarted
  | processSignalReceived
  | processControlReceived
  | other (name : String)
  deriving DecidableEq

/-- `Event`. -/
structure ProcessEvent where
  eventID : String := ""
  eventType : ProcessEventType
  processID : String := ""
  sequence : Int := 0
  timestamp : Time := 0
  payload : List (String × Json) := []
  (accountID projectID : String := "")
  resource : ResourceRef := {}

def validateProcessStartIdentity (spec : ProcessSpec) : Except Err Unit :=
  if spec.processID = "" then errorf .invalidProcess "process id is required"
  else if spec.kind = "" then errorf .invalidProcess "process kind is required"
  else if spec.accountID = "" then errorf .invalidProcess "account id is required"
  else if spec.projectID = "" then errorf .invalidProcess "project id is required"
  else if spec.idempotencyKey = "" then errorf .invalidProcess "idempotency key is required"
  else do
    validateResourceRef spec.resource
    if spec.resource.accountID ≠ spec.accountID then
      errorf .invalidProcess ("resource account " ++ quoted spec.resource.accountID ++
        " does not match process account " ++ quoted spec.accountID)
    else if spec.resource.projectID ≠ spec.projectID then
      errorf .invalidProcess ("resource project " ++ quoted spec.resource.projectID ++
        " does not match process project " ++ quoted spec.projectID)
    else .ok ()

def validateProcessPolicy (policy : ProcessPolicy) : Except Err Unit :=
  if policy.timeoutSeconds < 0 then errorf .invalidProcess "timeout seconds must be non-negative"
  else if policy.maxHistoryEvents < 0 then
    errorf .invalidProcess "max history events must be non-negative"
  else if policy.continueAsNewEvents < 0 then
    errorf .invalidProcess "continue-as-new events must be non-negative"
  else if policy.maxHistoryEvents > 0 ∧ policy.continueAsNewEvents > policy.maxHistoryEvents then
    errorf .invalidProcess ("continue-as-new events " ++
      toString policy.continueAsNewEvents ++ " exceeds max history events " ++
      toString policy.maxHistoryEvents)
  else .ok ()

def validateProcessTimer (timer : TimerSpec) : Except Err Unit :=
  let bad (text : String) : Except Err Unit :=
    errorf .invalidProcess ("timer " ++ quoted timer.timerID ++ text)
  if timer.timerID = "" then errorf .invalidProcess "timer id is required"
  else if timer.fireAt.isZero = false ∧ timer.afterSeconds > 0 then
    bad " must use fire_at or after_seconds, not both"
  else if timer.fireAt.isZero = true ∧ timer.afterSeconds ≤ 0 then bad " schedule is required"
  else if timer.afterSeconds < 0 then bad " after_seconds must be non-negative"
  else .ok ()

def validateProcessSpec (spec : ProcessSpec) : Except Err Unit := do
  validateProcessStartIdentity spec
  validateProcessPolicy spec.policy
  spec.timers.forM validateProcessTimer

/-! ## The store -/

def normalizeProcessStatus (spec : ProcessSpec) (status : ProcessStatus) : ProcessStatus :=
  let startedAt := if status.startedAt.isZero then spec.requestedAt else status.startedAt
  { status with
    processID := spec.processID
    kind := spec.kind
    accountID := spec.accountID
    projectID := spec.projectID
    resource := spec.resource
    lifecycleState := if status.lifecycleState = .unset then .pending else status.lifecycleState
    startedAt
    updatedAt := if status.updatedAt.isZero then startedAt else status.updatedAt }

def validateProcessTenantAccess (ref : RecordRef) (spec : ProcessSpec) : Except Err Unit :=
  if ref.accountID ≠ spec.accountID then errorf .processRouteNotFound "process not found"
  else if ref.projectID ≠ spec.projectID then errorf .processRouteNotFound "process not found"
  else .ok ()

def validateProcessStatusScope (status : ProcessStatus) (spec : ProcessSpec) : Except Err Unit :=
  if status.accountID ≠ spec.accountID then errorf .processRouteNotFound "process not found"
  else if status.projectID ≠ spec.projectID then errorf .processRouteNotFound "process not found"
  else if status.resource ≠ spec.resource then
    errorf .invalidProcess "process resource scope changed"
  else .ok ()

def validateUpdateProcessStatusInput (status : ProcessStatus) (idempotencyKey : String) :
    Except Err Unit :=
  if idempotencyKey = "" then errorf .invalidProcess "process status idempotency key is required"
  else if status.processID = "" then errorf .invalidProcess "process id is required"
  else if status.accountID = "" then errorf .invalidProcess "account id is required"
  else if status.projectID = "" then errorf .invalidProcess "project id is required"
  else if status.lifecycleState = .unset then errorf .invalidProcess "lifecycle state is required"
  else validateResourceRef status.resource

/-- The process store among the record stores. -/
def processFamily : Family ProcessSpec ProcessStatus where
  recordID := ProcessSpec.processID
  startKey spec := ⟨spec.accountID, spec.projectID, spec.idempotencyKey⟩
  statusID := ProcessStatus.processID
  checkRef := RecordRef.validate .invalidProcessScope "process"
  checkTenant := validateProcessTenantAccess
  checkInput := validateUpdateProcessStatusInput
  checkStatus := validateProcessStatusScope
  normalize := normalizeProcessStatus
  notFound id := .wrap .processRouteNotFound ("process " ++ quoted id ++ " not found")

/-- `MemoryStore`.  `AgentOSProcessRepo` holds the same records and events in tables, with the specs
and the events as JSON. -/
structure ProcessStore where
  records : Projections ProcessSpec ProcessStatus
  events : String → List ProcessEvent
  eventKeys : StatusKey → Option ProcessEvent

/-- `NewMemoryStore`. -/
def ProcessStore.new : ProcessStore := ⟨.new, fun _ => [], fun _ => none⟩

/-- The JSON texts of specs and of events, which a store compares.  What is stored is read back
first: from memory as it is, and from the tables with every number as a `float64`. -/
structure ProcessTexts (Text : Type) where
  spec : ProcessSpec → Text
  event : ProcessEvent → Text
  storedSpec : ProcessSpec → Text := spec
  storedEvent : ProcessEvent → Text := event

section Store

variable {Text : Type} [DecidableEq Text] (texts : ProcessTexts Text)

def validateProcessStartIdempotency (existing requested : ProcessSpec) : Except Err Unit :=
  if existing.processID ≠ requested.processID then
    errorf .invalidProcess
      ("process idempotency key belongs to process " ++ quoted existing.processID)
  else if existing.idempotencyKey ≠ requested.idempotencyKey then
    errorf .invalidProcess ("process " ++ quoted existing.processID ++
      " was started with a different idempotency key")
  else if texts.storedSpec existing ≠ texts.spec requested then
    errorf .invalidProcess ("process " ++ quoted existing.processID ++
      " idempotency key was reused with a different request")
  else .ok ()

def validateProcessEventIdempotency (existing requested : ProcessEvent) : Except Err Unit :=
  if existing.eventID ≠ requested.eventID then
    errorf .invalidProcess
      ("process event idempotency key belongs to event " ++ quoted existing.eventID)
  else if existing.sequence ≠ requested.sequence then
    errorf .invalidProcess
      ("process event idempotency key belongs to sequence " ++ toString existing.sequence)
  else if texts.storedEvent existing ≠ texts.event requested then
    errorf .invalidProcess "process event idempotency key was reused with a different event"
  else .ok ()

def validateCreateProcessInput (spec : ProcessSpec) (status : ProcessStatus) : Except Err Unit := do
  validateProcessSpec spec
  if status.processID ≠ "" ∧ status.processID ≠ spec.processID then
    errorf .invalidProcess ("process status belongs to process " ++ quoted status.processID)
  else .ok ()

def createProcess (s : ProcessStore) (spec : ProcessSpec) (status : ProcessStatus) :
    ProcessStore × Except Err (ProcessStatus × Bool) :=
  match validateCreateProcessInput spec status with
  | .error err => (s, .error err)
  | .ok () =>
    let created :=
      processFamily.create (validateProcessStartIdempotency texts) s.records spec status
    ({ s with records := created.1 }, created.2)

def validateAppendProcessEventInput (event : ProcessEvent) (idempotencyKey : String) :
    Except Err Unit :=
  if idempotencyKey = "" then errorf .invalidProcess "process event idempotency key is required"
  else do
    validateResourceRef event.resource
    processFamily.checkRef ⟨event.processID, event.accountID, event.projectID⟩
    if event.resource.accountID ≠ event.accountID then
      errorf .invalidProcess ("event resource account " ++
        quoted event.resource.accountID ++ " does not match event account " ++
        quoted event.accountID)
    else if event.resource.projectID ≠ event.projectID then
      errorf .invalidProcess ("event resource project " ++
        quoted event.resource.projectID ++ " does not match event project " ++
        quoted event.projectID)
    else if event.eventType = .other "" then errorf .invalidProcess "process event type is required"
    else .ok ()

def prepareProcessEvent (now : Time) (event : ProcessEvent) (eventID : String) (sequence : Int) :
    ProcessEvent :=
  { event with eventID, sequence, timestamp := orNow now event.timestamp }

def ProcessStore.append (s : ProcessStore) (now : Time) (event : ProcessEvent)
    (key : StatusKey) : ProcessStore × Except Err ProcessEvent :=
  match s.eventKeys key with
  | some existing =>
    match validateProcessEventIdempotency texts existing
        (prepareProcessEvent now event existing.eventID existing.sequence) with
    | .error err => (s, .error err)
    | .ok () => (s, .ok existing)
  | none =>
    match s.records.specs event.processID with
    | none => (s, .error (processFamily.notFound event.processID))
    | some _ =>
      let sequence : Int := (s.events event.processID).length + 1
      let stored := prepareProcessEvent now event
        (event.processID ++ "-event-" ++ toString sequence) sequence
      ({ s with
          events := Function.update s.events event.processID (s.events event.processID ++ [stored])
          eventKeys := Function.update s.eventKeys key (some stored) }, .ok stored)

def appendProcessEvent (s : ProcessStore) (now : Time) (event : ProcessEvent)
    (idempotencyKey : String) : ProcessStore × Except Err ProcessEvent :=
  match validateAppendProcessEventInput event idempotencyKey with
  | .error err => (s, .error err)
  | .ok () => s.append texts now event ⟨event.processID, idempotencyKey⟩

end Store

def updateProcessStatus (s : ProcessStore) (status : ProcessStatus) (idempotencyKey : String) :
    ProcessStore × Except Err ProcessStatus :=
  let updated := processFamily.update s.records status idempotencyKey
  ({ s with records := updated.1 }, updated.2)

/-! ## The runtime -/

def processEvent (spec : ProcessSpec) (eventType : ProcessEventType) (timestamp : Time)
    (payload : List (String × Json)) : ProcessEvent where
  eventType
  processID := spec.processID
  timestamp
  payload
  accountID := spec.accountID
  projectID := spec.projectID
  resource := spec.resource

def mapJson (entries : List (String × Json)) : Json :=
  if entries = [] then .null else .obj entries

def initialProcessStatus (now : Time) (spec : ProcessSpec) : ProcessStatus where
  processID := spec.processID
  kind := spec.kind
  accountID := spec.accountID
  projectID := spec.projectID
  resource := spec.resource
  lifecycleState := .running
  metadata := spec.metadata
  startedAt := orNow now spec.requestedAt
  updatedAt := orNow now spec.requestedAt

def ProcessLifecycle.text : ProcessLifecycle → String
  | .unset => ""
  | .pending => "pending"
  | .running => "running"
  | .waiting => "waiting"
  | .blocked => "blocked"
  | .succeeded => "succeeded"
  | .failed => "failed"
  | .canceled => "canceled"

def processStartedEvent (now : Time) (spec : ProcessSpec) (status : ProcessStatus) : ProcessEvent :=
  processEvent spec .processStarted (orNow now status.startedAt)
    [("lifecycle_state", .str status.lifecycleState.text),
      ("resource_kind", .str spec.resource.kind), ("resource_id", .str spec.resource.resourceID)]

def processLifecycleAfterSignal (current : ProcessLifecycle) : ProcessLifecycle :=
  if current = .waiting ∨ current = .blocked then .running else current

def processLifecycleAfterControl (current : ProcessLifecycle) (operation : ControlOperation) :
    ProcessLifecycle :=
  match operation with
  | .pause => .waiting
  | .resume => .running
  | .cancel => .canceled
  | .other _ => current

def validateProcessSignal (signal : Signal) : Except Err Unit :=
  if signal.type = .other "" then errorf .invalidSignal "process signal type is required"
  else if signal.idempotencyKey = "" then
    errorf .invalidSignal "process signal idempotency key is required"
  else .ok ()

def validateProcessControl (control : ControlRequest) : Except Err Unit := do
  validateControlRequest control
  if control.idempotencyKey = "" then
    errorf .invalidProcess "process control idempotency key is required"
  else .ok ()

/-- `SignalProcess` and `ControlProcess`. -/
inductive ProcessCall where
  | signal (ref : RecordRef) (sent : Signal)
  | control (ref : RecordRef) (req : ControlRequest)

namespace ProcessCall

/-- The process of a call. -/
def ref : ProcessCall → RecordRef
  | .signal ref _ | .control ref _ => ref

/-- The idempotency key of a call. -/
def key : ProcessCall → String
  | .signal _ sent => sent.idempotencyKey
  | .control _ req => req.idempotencyKey

/-- The checks of a call. -/
def validate : ProcessCall → Except Err Unit
  | .signal _ sent => validateProcessSignal sent
  | .control _ req => validateProcessControl req

/-- `processSignalEvent` and `processControlEvent`. -/
def event (now : Time) (spec : ProcessSpec) : ProcessCall → ProcessEvent
  | .signal _ sent =>
      processEvent spec .processSignalReceived (orNow now sent.sentAt)
        [("signal_type", .str sent.type.text), ("actor_id", .str sent.actorID),
          ("payload", mapJson sent.payload)]
  | .control _ req =>
      processEvent spec .processControlReceived (orNow now req.requestedAt)
        [("operation", .str req.operation.text), ("actor_id", .str req.actorID),
          ("metadata", mapJson (req.metadata.map fun entry => (entry.1, .str entry.2)))]

def next (now : Time) (status : ProcessStatus) : ProcessCall → ProcessStatus
  | .signal _ sent =>
      { status with
        lifecycleState := processLifecycleAfterSignal status.lifecycleState
        updatedAt := orNow now sent.sentAt }
  | .control _ req =>
      { status with
        lifecycleState := processLifecycleAfterControl status.lifecycleState req.operation
        updatedAt := orNow now req.requestedAt }

def read (c : ProcessCall) (s : ProcessStore) : Except Err (ProcessSpec × ProcessStatus) := do
  let found ← processFamily.require s.records c.ref
  c.validate
  .ok found

end ProcessCall

section Runtime

variable {Text : Type} [DecidableEq Text] (texts : ProcessTexts Text)

def startProcess (now : Time) (s : ProcessStore) (spec : ProcessSpec) :
    ProcessStore × Except Err ProcessStatus :=
  match validateProcessSpec spec with
  | .error err => (s, .error err)
  | .ok () =>
    match createProcess texts s spec (initialProcessStatus now spec) with
    | (s, .error err) => (s, .error err)
    | (s, .ok (status, false)) => (s, .ok status)
    | (s, .ok (status, true)) =>
      match appendProcessEvent texts s now (processStartedEvent now spec status)
          spec.idempotencyKey with
      | (s, .error err) => (s, .error err)
      | (s, .ok _) => (s, .ok status)

def ProcessCall.write (now : Time) (c : ProcessCall) (found : ProcessSpec × ProcessStatus)
    (s : ProcessStore) : ProcessStore × Except Err Unit :=
  match appendProcessEvent texts s now (c.event now found.1) c.key with
  | (s, .error err) => (s, .error err)
  | (s, .ok _) =>
    match updateProcessStatus s (c.next now found.2) c.key with
    | (s, .error err) => (s, .error err)
    | (s, .ok _) => (s, .ok ())

/-- The calls on the store. -/
def processes : Handler Time ProcessCall ProcessStore (ProcessSpec × ProcessStatus)
    (Except Err Unit) where
  read c s := refuse (c.read s)
  write := ProcessCall.write texts

/-! ## What a call does -/

variable {texts} {now : Time} {spec : ProcessSpec} {status : ProcessStatus} {c : ProcessCall}
  {s : ProcessStore}

theorem appendProcessEvent_records (s : ProcessStore) (now : Time) (event : ProcessEvent)
    (key : String) : (appendProcessEvent texts s now event key).1.records = s.records := by
  unfold appendProcessEvent
  split
  · rfl
  unfold ProcessStore.append
  split
  · split <;> rfl
  · split <;> rfl

variable (texts) in
theorem write_records (now : Time) (c : ProcessCall) (found : ProcessSpec × ProcessStatus)
    (s : ProcessStore) :
    ((processes texts).write now c found s).1.records = s.records ∨
      ((processes texts).write now c found s).1.records =
        (processFamily.update s.records (c.next now found.2) c.key).1 := by
  have hrecords : (appendProcessEvent texts s now (c.event now found.1) c.key).1.records = _ :=
    appendProcessEvent_records ..
  simp only [processes, ProcessCall.write]
  split
  · rename_i happend
    rw [happend] at hrecords
    exact .inl hrecords
  · rename_i s₁ _ happend
    rw [happend] at hrecords
    have hupdate : (updateProcessStatus s₁ (c.next now found.2) c.key).1.records =
        (processFamily.update s.records (c.next now found.2) c.key).1 := by
      rw [← hrecords]
      rfl
    right
    split <;> rename_i hanswer <;> rw [hanswer] at hupdate <;> exact hupdate

variable (texts) in
theorem read_of_call (now : Time) (c : ProcessCall) (s : ProcessStore) :
    ((processes texts).call now c s).1.records = s.records ∨
      ∃ found, c.read s = .ok found ∧ ((processes texts).call now c s).1.records =
        (processFamily.update s.records (c.next now found.2) c.key).1 := by
  cases hread : (processes texts).read c s with
  | error answer => exact .inl (by rw [Handler.call_of_error hread])
  | ok found =>
    rw [Handler.call_of_ok hread]
    exact (write_records texts now c found s).imp_right fun hupdated =>
      ⟨found, refuse_ok.mp hread, hupdated⟩

variable (texts) in
theorem processes_call_holds (now : Time) (hholds : processFamily.Holds s.records spec status)
    (hid : c.ref.recordID = spec.processID) :
    processFamily.Holds ((processes texts).call now c s).1.records spec status ∨
      (c.read s = .ok (spec, status) ∧
        processFamily.Holds ((processes texts).call now c s).1.records spec
          (normalizeProcessStatus spec (c.next now status))) := by
  rcases read_of_call texts now c s with hkept | ⟨found, hread, hupdated⟩
  · exact .inl (hkept ▸ hholds)
  obtain ⟨found', hrequire, hvalidated⟩ := bind_ok hread
  obtain ⟨-, -, hsame⟩ := bind_ok hvalidated
  cases hsame
  obtain ⟨-, -, hspec, hstatus⟩ := Family.require_ok hrequire
  rw [hid, show s.records.specs spec.processID = _ from hholds.spec_eq] at hspec
  rw [hid, show s.records.statuses spec.processID = _ from hholds.status_eq] at hstatus
  obtain rfl : found = (spec, status) := Prod.ext (Option.some.inj hspec).symm hstatus
  rw [hupdated]
  have hnextID : processFamily.statusID (c.next now status) = processFamily.recordID spec := by
    rw [← hholds.statusID]
    cases c <;> rfl
  rcases hholds.update c.key rfl hnextID with hkept | hnew
  · rw [hkept]
    exact .inl hholds
  · exact .inr ⟨hread, hnew⟩

/-! ## Terminal processes -/

/-- The calls that change a terminal process: a control request, except for the cancellation of
a canceled process. -/
def ProcessCall.disturbs (status : ProcessStatus) : ProcessCall → Bool
  | .signal _ _ => false
  | .control _ req =>
      match status.lifecycleState with
      | .succeeded | .failed => true
      | .canceled => req.operation ≠ .cancel
      | _ => false

/-- A call that passes its checks writes another process, or it repeats a key, or it has read
the status that it writes and does not disturb it. -/
def respectsProcess (id : String) (c : ProcessCall) (s : ProcessStore) : Bool :=
  match c.read s with
  | .error _ => true
  | .ok found =>
      found.2.processID ≠ id || (s.records.statusKeys ⟨id, c.key⟩).isSome ||
        (c.ref.recordID = id && !c.disturbs found.2)

theorem next_keeps_lifecycle (hterminal : status.lifecycleState.terminal = true)
    (hdisturbs : c.disturbs status = false) :
    (normalizeProcessStatus spec (c.next now status)).lifecycleState = status.lifecycleState := by
  cases c with
  | signal ref sent =>
    cases hstate : status.lifecycleState <;>
      simp [normalizeProcessStatus, ProcessCall.next, processLifecycleAfterSignal, hstate,
        ProcessLifecycle.terminal] at hterminal ⊢
  | control ref req =>
    cases hstate : status.lifecycleState <;>
      simp [normalizeProcessStatus, ProcessCall.next, ProcessCall.disturbs, hstate,
        ProcessLifecycle.terminal] at hterminal hdisturbs ⊢
    simp [hdisturbs, processLifecycleAfterControl]

/-- Once a process is succeeded, failed or canceled, its lifecycle state is the same after every
later call, when no control request reaches a terminal process, except for the cancellation of
a canceled one. -/
theorem terminal_process_stays {stored : ProcessStatus}
    (hstored : processFamily.Holds s.records spec stored)
    (hterminal : stored.lifecycleState.terminal = true) (later : List (Time × ProcessCall))
    (hrespects : (processes texts).along (respectsProcess spec.processID) s later = true) :
    ∃ stored', ((processes texts).run s later).records.statuses spec.processID = some stored' ∧
      stored'.lifecycleState = stored.lifecycleState := by
  have hended := Handler.run_inv (fun s => ∃ stored', processFamily.Holds s.records spec stored' ∧
      stored'.lifecycleState = stored.lifecycleState)
    (fun {now c s} hs hok => ?_) hrespects ⟨stored, hstored, rfl⟩
  · obtain ⟨stored', hholds, hstate⟩ := hended
    exact ⟨stored', hholds.status_eq, hstate⟩
  obtain ⟨status, hholds, hstate⟩ := hs
  rcases read_of_call texts now c s with hkept | ⟨found, hread, hupdated⟩
  · exact ⟨status, hkept ▸ hholds, hstate⟩
  by_cases hwrites : found.2.processID = spec.processID ∧
      s.records.statusKeys ⟨spec.processID, c.key⟩ = none
  · have hown : c.ref.recordID = spec.processID ∧ c.disturbs found.2 = false := by
      simpa [respectsProcess, hread, hwrites] using hok
    rcases processes_call_holds texts now hholds hown.1 with hkept | ⟨hread', hnext⟩
    · exact ⟨status, hkept, hstate⟩
    rw [hread] at hread'
    cases hread'
    refine ⟨_, hnext, ?_⟩
    rw [next_keeps_lifecycle (hstate ▸ hterminal) hown.2, hstate]
  · rw [hupdated]
    refine ⟨status, hholds.update_other _ _ fun hid hnew => hwrites ⟨?_, hnew⟩, hstate⟩
    cases c <;> exact hid

end Runtime

/-- A process. -/
def orderProcess : ProcessSpec where
  processID := "p"
  kind := "order"
  accountID := "acc"
  projectID := "prj"
  idempotencyKey := "start"
  resource := ⟨"order", "o", "acc", "prj"⟩

/-- Texts that are the same for all specs and events. -/
def blankTexts : ProcessTexts Unit where
  spec _ := ()
  event _ := ()

def orderStore : ProcessStore := (startProcess blankTexts 1 .new orderProcess).1

/-- A control request of the process. -/
def orderControl (operation : ControlOperation) (key : String) : ProcessCall :=
  .control ⟨"p", "acc", "prj"⟩ { operation, idempotencyKey := key }

/-- A canceled process. -/
def canceledStore : ProcessStore :=
  ((processes blankTexts).call 2 (orderControl .cancel "c") orderStore).1

theorem terminal_process_stays_canceled :
    ∃ stored', ((processes blankTexts).run canceledStore
        [(3, .signal ⟨"p", "acc", "prj"⟩ { type := .userMessage, idempotencyKey := "s" }),
          (4, orderControl .cancel "c2")]).records.statuses "p" = some stored' ∧
      stored'.lifecycleState = .canceled := by
  have hstored : processFamily.Holds canceledStore.records orderProcess
      { initialProcessStatus 1 orderProcess with lifecycleState := .canceled, updatedAt := 2 } :=
    ⟨rfl, rfl, rfl⟩
  exact terminal_process_stays hstored rfl _ rfl

/-- A canceled process runs again after a resume request. -/
theorem canceled_process_resumes :
    (canceledStore.records.statuses "p").map ProcessStatus.lifecycleState = some .canceled ∧
      (((processes blankTexts).run canceledStore [(3, orderControl .resume "r")]
        ).records.statuses "p").map ProcessStatus.lifecycleState = some .running :=
  ⟨rfl, rfl⟩

end AgentOS.Platform
