import AgentOS.Kit.Calls
import AgentOS.Platform.Projections
import Mathlib.Algebra.Order.BigOperators.Group.Finset
import Mathlib.Tactic.FinCases

/-!
# Worksets

The runtime of `internal/usecase/agentosbatch`: a workset is a batch of chunks, every chunk
reports its result, and the workset can be canceled.  A report reads the workset, adds to the
counters that it has read, and writes the whole status with `ApplyChunkResult`.
-/

namespace AgentOS.Platform

open Kit List Function Prod Handler

/-! ## Specs and statuses -/

structure WorksetItemsRef where
  (kind uri artifactID mediaType digest : String := "")
  count : Int := 0
  metadata : List (String × String) := []
  deriving DecidableEq

structure WorksetChunkSpec where
  chunkID : String := ""
  itemsRef : WorksetItemsRef := {}
  (itemCount concurrency : Int := 0)
  deriving DecidableEq

structure WorksetPolicy where
  (maxItems maxChunkSize maxChunks maxConcurrency : Int := 0)
  deriving DecidableEq

structure WorksetSpec where
  (worksetID idempotencyKey accountID projectID processID : String := "")
  resource : ResourceRef := {}
  kind : String := ""
  requestedBy : ActorRef := {}
  requestedAt : Time := 0
  itemsRef : WorksetItemsRef := {}
  chunks : List WorksetChunkSpec := []
  policy : WorksetPolicy := {}
  metadata : List (String × String) := []
  deriving DecidableEq

instance : Inhabited WorksetSpec := ⟨{}⟩

/-- The lifecycle states of a workset.  `unset` is the empty string. -/
inductive WorksetLifecycle where
  | unset
  | pending
  | running
  | succeeded
  | failed
  | canceled
  deriving DecidableEq

/-- A workset ends succeeded, failed or canceled. -/
def WorksetLifecycle.terminal : WorksetLifecycle → Bool
  | .succeeded | .failed | .canceled => true
  | _ => false

/-- `WorksetProgress`.  The items are `int64`, the chunks `int32`. -/
structure WorksetProgress where
  (totalItems completedItems failedItems totalChunks completedChunks failedChunks : Int := 0)
  deriving DecidableEq

structure WorksetStatus where
  (worksetID accountID projectID processID : String := "")
  resource : ResourceRef := {}
  kind : String := ""
  lifecycleState : WorksetLifecycle := .unset
  progress : WorksetProgress := {}
  reason : String := ""
  metadata : List (String × String) := []
  updatedAt : Time := 0
  deriving DecidableEq

instance : Inhabited WorksetStatus := ⟨{}⟩

structure WorksetChunkResult where
  (chunkID idempotencyKey : String := "")
  (completedItems failedItems : Int := 0)
  succeeded : Bool := false
  reason : String := ""
  recordedAt : Time := 0

def validateWorksetIdentity (spec : WorksetSpec) : Except Err Unit :=
  if spec.worksetID = "" then errorf .invalidWorkset "workset id is required"
  else if spec.idempotencyKey = "" then errorf .invalidWorkset "idempotency key is required"
  else if spec.accountID = "" then errorf .invalidWorkset "account id is required"
  else if spec.projectID = "" then errorf .invalidWorkset "project id is required"
  else if spec.kind = "" then errorf .invalidWorkset "kind is required"
  else .ok ()

def validateWorksetItemsRef (ref : WorksetItemsRef) : Except Err Unit :=
  if ref.kind = "" then errorf .invalidWorkset "items ref kind is required"
  else if ref.uri = "" ∧ ref.artifactID = "" then
    errorf .invalidWorkset "items ref uri or artifact id is required"
  else if ref.count < 0 then errorf .invalidWorkset "items ref count must be non-negative"
  else .ok ()

def validateWorksetChunk (policy : WorksetPolicy) (chunk : WorksetChunkSpec) : Except Err Unit :=
  if chunk.chunkID = "" then errorf .invalidWorkset "chunk id is required"
  else if chunk.itemCount < 0 then errorf .invalidWorkset "chunk item count must be non-negative"
  else if policy.maxChunkSize > 0 ∧ chunk.itemCount > policy.maxChunkSize then
    errorf .invalidWorkset "chunk item count exceeds policy"
  else if policy.maxConcurrency > 0 ∧ chunk.concurrency > policy.maxConcurrency then
    errorf .invalidWorkset "chunk concurrency exceeds policy"
  else validateWorksetItemsRef chunk.itemsRef

def validateWorksetChunkNumber (chunks : List WorksetChunkSpec) (policy : WorksetPolicy) :
    Except Err Unit :=
  if chunks.length > 2147483647 then errorf .invalidWorkset "chunk count exceeds int32 limit"
  else if policy.maxChunks > 0 ∧ (chunks.length : Int) > policy.maxChunks then
    errorf .invalidWorkset "chunk count exceeds policy"
  else .ok ()

def validateWorksetChunks (chunks : List WorksetChunkSpec) (policy : WorksetPolicy) :
    Except Err Unit := do
  validateWorksetChunkNumber chunks policy
  chunks.forM (validateWorksetChunk policy)

def validateWorksetSpec (spec : WorksetSpec) : Except Err Unit := do
  validateWorksetIdentity spec
  validateTenantScope .invalidWorkset "workset" spec.accountID spec.projectID spec.processID
    spec.resource
  validateWorksetItemsRef spec.itemsRef
  validateWorksetChunks spec.chunks spec.policy

def validateChunkResult (result : WorksetChunkResult) : Except Err Unit :=
  if result.chunkID = "" then errorf .invalidWorkset "chunk id is required"
  else if result.idempotencyKey = "" then errorf .invalidWorkset "chunk idempotency key is required"
  else if result.completedItems < 0 ∨ result.failedItems < 0 then
    errorf .invalidWorkset "chunk item counts must be non-negative"
  else .ok ()

/-! ## The store -/

def normalizeWorksetStatus (spec : WorksetSpec) (status : WorksetStatus) : WorksetStatus :=
  { status with
    worksetID := spec.worksetID
    accountID := spec.accountID
    projectID := spec.projectID
    processID := spec.processID
    resource := spec.resource
    kind := spec.kind }

def validateWorksetTenantAccess (ref : RecordRef) (spec : WorksetSpec) : Except Err Unit :=
  if ref.accountID ≠ spec.accountID ∨ ref.projectID ≠ spec.projectID then
    errorf .invalidWorksetScope ("workset " ++ quoted ref.recordID ++ " is outside tenant scope")
  else .ok ()

def validateUpdateWorksetStatusInput (status : WorksetStatus) (idempotencyKey : String) :
    Except Err Unit :=
  if idempotencyKey = "" then errorf .invalidWorkset "status idempotency key is required"
  else if status.worksetID = "" ∨ status.accountID = "" ∨ status.projectID = "" then
    errorf .invalidWorkset "workset status scope is required"
  else .ok ()

/-- The workset store among the record stores.  An update does not check the tenant of the
status. -/
def worksetFamily : Family WorksetSpec WorksetStatus where
  recordID := WorksetSpec.worksetID
  startKey spec := ⟨spec.accountID, spec.projectID, spec.idempotencyKey⟩
  statusID := WorksetStatus.worksetID
  checkRef := RecordRef.validate .invalidWorksetScope "workset"
  checkTenant := validateWorksetTenantAccess
  checkInput := validateUpdateWorksetStatusInput
  checkStatus _ _ := .ok ()
  normalize := normalizeWorksetStatus
  notFound id := .wrap .invalidWorksetScope ("workset " ++ quoted id ++ " not found")

structure ChunkKey where
  (worksetID chunkID idempotencyKey : String)
  deriving DecidableEq

/-- `MemoryStore`. -/
structure WorksetStore where
  records : Projections WorksetSpec WorksetStatus
  chunkKeys : ChunkKey → Option WorksetStatus

/-- `NewMemoryStore`. -/
def WorksetStore.new : WorksetStore := ⟨.new, fun _ => none⟩

/-- Every key belongs to a workset. -/
structure WorksetStore.Kept (s : WorksetStore) : Prop where
  records : s.records.Kept
  chunks : ∀ key, s.chunkKeys key ≠ none → s.records.specs key.worksetID ≠ none

theorem WorksetStore.new_kept : WorksetStore.new.Kept :=
  ⟨Projections.new_kept, fun _ h => absurd rfl h⟩

section Create

variable {Text : Type} [DecidableEq Text] (marshal : WorksetSpec → Text)

def validateWorksetStartIdempotency (existing requested : WorksetSpec) : Except Err Unit :=
  if existing.worksetID ≠ requested.worksetID then
    errorf .invalidWorkset
      ("workset idempotency key belongs to workset " ++ quoted existing.worksetID)
  else if marshal existing ≠ marshal requested then
    errorf .invalidWorkset ("workset " ++ quoted existing.worksetID ++
      " idempotency key was reused with a different request")
  else .ok ()

def createWorkset (s : WorksetStore) (spec : WorksetSpec) (status : WorksetStatus) :
    WorksetStore × Except Err (WorksetStatus × Bool) :=
  match validateWorksetSpec spec with
  | .error err => (s, .error err)
  | .ok () =>
    let created :=
      worksetFamily.create (validateWorksetStartIdempotency marshal) s.records spec status
    ({ s with records := created.1 }, created.2)

end Create

def validateApplyChunkInput (ref : RecordRef) (result : WorksetChunkResult)
    (status : WorksetStatus) : Except Err Unit := do
  worksetFamily.checkRef ref
  validateChunkResult result
  validateUpdateWorksetStatusInput status result.idempotencyKey

variable (s : WorksetStore)

def WorksetStore.applied (key : ChunkKey) (prepared : WorksetStatus) : WorksetStore where
  records := { s.records with
    statuses := update s.records.statuses key.worksetID (some prepared) }
  chunkKeys := update s.chunkKeys key (some prepared)

def WorksetStore.apply (ref : RecordRef) (key : ChunkKey)
    (status : WorksetStatus) : WorksetStore × Except Err WorksetStatus :=
  match s.chunkKeys key with
  | some existing => (s, .ok existing)
  | none =>
    match s.records.specs ref.recordID with
    | none => (s, .error (worksetFamily.notFound ref.recordID))
    | some spec =>
      match validateWorksetTenantAccess ref spec with
      | .error err => (s, .error err)
      | .ok () =>
        let prepared := normalizeWorksetStatus spec status
        (s.applied key prepared, .ok prepared)

def applyChunkResult (ref : RecordRef) (result : WorksetChunkResult)
    (status : WorksetStatus) : WorksetStore × Except Err WorksetStatus :=
  match validateApplyChunkInput ref result status with
  | .error err => (s, .error err)
  | .ok () => s.apply ref ⟨ref.recordID, result.chunkID, result.idempotencyKey⟩ status

def updateWorksetStatus (status : WorksetStatus) (idempotencyKey : String) :
    WorksetStore × Except Err WorksetStatus :=
  let updated := worksetFamily.update s.records status idempotencyKey
  ({ s with records := updated.1 }, updated.2)

/-! ## The calls -/

def worksetChunkCount (chunks : List WorksetChunkSpec) : Int :=
  chunks.foldl (fun count _ => int32 (count + 1)) 0

def initialWorksetStatus (now : Time) (spec : WorksetSpec) : WorksetStatus where
  worksetID := spec.worksetID
  accountID := spec.accountID
  projectID := spec.projectID
  processID := spec.processID
  resource := spec.resource
  kind := spec.kind
  lifecycleState := .running
  progress :=
    { totalItems := spec.itemsRef.count
      totalChunks :=
        if worksetChunkCount spec.chunks = 0 then 1 else worksetChunkCount spec.chunks }
  metadata := spec.metadata
  updatedAt := orNow now spec.requestedAt

def worksetHasChunk (spec : WorksetSpec) (chunkID : String) : Bool :=
  if spec.chunks.length = 0 then chunkID = spec.worksetID
  else spec.chunks.any fun chunk => chunk.chunkID = chunkID

def worksetLifecycleAfterChunk (progress : WorksetProgress) : WorksetLifecycle :=
  if progress.failedChunks > 0 then .failed
  else if progress.totalChunks > 0 ∧ progress.completedChunks ≥ progress.totalChunks then
    .succeeded
  else .running

def WorksetProgress.add (progress : WorksetProgress) (result : WorksetChunkResult) :
    WorksetProgress :=
  if result.succeeded then
    { progress with
      completedChunks := int32 (progress.completedChunks + 1)
      completedItems := int64 (progress.completedItems + result.completedItems) }
  else
    { progress with
      completedChunks := int32 (progress.completedChunks + 1)
      failedChunks := int32 (progress.failedChunks + 1)
      failedItems := int64 (progress.failedItems + result.failedItems) }

def validateCancelControl (control : ControlRequest) : Except Err Unit := do
  validateControlRequest control
  if control.operation ≠ .cancel then
    errorf .invalidControlOperation "workset only accepts cancel control"
  else if control.idempotencyKey = "" then
    errorf .invalidWorkset "cancel idempotency key is required"
  else .ok ()

/-- `RecordWorksetChunk` and `CancelWorkset`. -/
inductive WorksetCall where
  | chunk (ref : RecordRef) (result : WorksetChunkResult)
  | cancel (ref : RecordRef) (control : ControlRequest)

namespace WorksetCall

/-- The workset of a call. -/
def ref : WorksetCall → RecordRef
  | .chunk ref _ | .cancel ref _ => ref

def guard (spec : WorksetSpec) : WorksetCall → Except Err Unit
  | .chunk ref result => do
      validateChunkResult result
      if worksetHasChunk spec result.chunkID = false then
        errorf .invalidWorkset ("chunk " ++ quoted result.chunkID ++
          " is not part of workset " ++ quoted ref.recordID)
      else .ok ()
  | .cancel _ control => validateCancelControl control

def next (now : Time) (status : WorksetStatus) : WorksetCall → WorksetStatus
  | .chunk _ result =>
      { status with
        updatedAt := orNow now result.recordedAt
        progress := status.progress.add result
        reason := if result.succeeded then status.reason else result.reason
        lifecycleState := worksetLifecycleAfterChunk (status.progress.add result) }
  | .cancel _ control =>
      { status with
        lifecycleState := .canceled
        reason := (mapGet control.metadata "reason").getD ""
        updatedAt := orNow now control.requestedAt }

def read (c : WorksetCall) (s : WorksetStore) : Except Err (WorksetSpec × WorksetStatus) := do
  worksetFamily.checkRef c.ref
  let found ← worksetFamily.require s.records c.ref
  c.guard found.1
  .ok found

def write (now : Time) (c : WorksetCall) (found : WorksetSpec × WorksetStatus)
    (s : WorksetStore) : WorksetStore × Except Err WorksetStatus :=
  match c with
  | .chunk ref result => applyChunkResult s ref result (c.next now found.2)
  | .cancel _ control => updateWorksetStatus s (c.next now found.2) control.idempotencyKey

end WorksetCall

/-- The calls on the store. -/
def worksets : Handler Time WorksetCall WorksetStore (WorksetSpec × WorksetStatus)
    (Except Err WorksetStatus) where
  read c s := refuse (c.read s)
  write := WorksetCall.write

/-! ## What a call does -/

/-- The reference of a spec's workset. -/
def WorksetSpec.ref (spec : WorksetSpec) : RecordRef :=
  ⟨spec.worksetID, spec.accountID, spec.projectID⟩

/-- The store holds the workset with this status. -/
structure WorksetStore.Holds (s : WorksetStore) (spec : WorksetSpec) (status : WorksetStatus) :
    Prop where
  spec_eq : s.records.specs spec.worksetID = some spec
  status_eq : s.records.statuses spec.worksetID = some status
  worksetID : status.worksetID = spec.worksetID
  accountID : status.accountID = spec.accountID
  projectID : status.projectID = spec.projectID

def acceptsChunk (spec : WorksetSpec) (result : WorksetChunkResult) : Bool :=
  (result.chunkID ≠ "" ∧ result.idempotencyKey ≠ "" ∧ 0 ≤ result.completedItems ∧
    0 ≤ result.failedItems) ∧ worksetHasChunk spec result.chunkID = true

section Calls

variable {now : Time} {spec : WorksetSpec} {status : WorksetStatus} {c : WorksetCall}
  {s : WorksetStore} {ref : RecordRef} {result : WorksetChunkResult}

theorem validateChunkResult_ok : validateChunkResult result = .ok () ↔
    result.chunkID ≠ "" ∧ result.idempotencyKey ≠ "" ∧ 0 ≤ result.completedItems ∧
      0 ≤ result.failedItems := by
  unfold validateChunkResult
  split_ifs with hid hkey hneg
  · simp [hid]
  · simp [hkey]
  · simp only [false_iff, not_and, not_le]
    omega
  · simp only [true_iff]
    exact ⟨hid, hkey, by omega, by omega⟩

theorem chunk_guard :
    (WorksetCall.chunk ref result).guard spec = .ok () ↔ acceptsChunk spec result = true := by
  rw [acceptsChunk, decide_eq_true_eq, ← validateChunkResult_ok, WorksetCall.guard]
  cases validateChunkResult result with
  | error err => simp [bind, Except.bind]
  | ok done =>
    cases worksetHasChunk spec result.chunkID <;> simp [bind, Except.bind]

theorem worksetRef_of_valid (hvalid : validateWorksetSpec spec = .ok ()) :
    spec.worksetID ≠ "" ∧ spec.accountID ≠ "" ∧ spec.projectID ≠ "" := by
  obtain ⟨⟨⟩, hidentity, -⟩ := bind_ok hvalid
  unfold validateWorksetIdentity at hidentity
  split_ifs at hidentity with hid _ haccount hproject
  exact ⟨hid, haccount, hproject⟩

theorem read_of_holds (hholds : s.Holds spec status) (hid : c.ref.recordID = spec.worksetID)
    {found : WorksetSpec × WorksetStatus} (hread : worksets.read c s = .ok found) :
    found = (spec, status) ∧ c.guard spec = .ok () := by
  obtain ⟨-, -, hread⟩ := bind_ok (refuse_ok.mp hread)
  obtain ⟨found', hrequire, hread⟩ := bind_ok hread
  obtain ⟨⟨⟩, hguard, hread⟩ := bind_ok hread
  cases hread
  obtain ⟨-, -, hspec, hstatus⟩ := Family.require_ok hrequire
  rw [hid, hholds.spec_eq] at hspec
  rw [hid, hholds.status_eq] at hstatus
  cases hspec
  exact ⟨Prod.ext rfl hstatus, hguard⟩

theorem read_ref (hvalid : validateWorksetSpec spec = .ok ()) (hholds : s.Holds spec status)
    (href : c.ref = spec.ref) (hguard : c.guard spec = .ok ()) :
    worksets.read c s = .ok (spec, status) := by
  obtain ⟨hid, haccount, hproject⟩ := worksetRef_of_valid hvalid
  have hcheck : worksetFamily.checkRef spec.ref = .ok () := by
    simp [worksetFamily, RecordRef.validate, WorksetSpec.ref, hid, haccount, hproject]
  have htenant : worksetFamily.checkTenant spec.ref spec = .ok () := by
    simp [worksetFamily, validateWorksetTenantAccess, WorksetSpec.ref]
  have hrequire : worksetFamily.require s.records spec.ref = .ok (spec, status) :=
    Family.require_of_found hcheck hholds.spec_eq htenant hholds.status_eq
  have hchecks : c.read s = .ok (spec, status) := by
    simp [WorksetCall.read, href, hcheck, hrequire, hguard, bind, Except.bind]
  exact refuse_ok.mpr hchecks

theorem WorksetStore.Holds.normalize (next : WorksetStatus) {s' : WorksetStore}
    (hspec : s'.records.specs spec.worksetID = some spec)
    (hstatus : s'.records.statuses spec.worksetID = some (normalizeWorksetStatus spec next)) :
    s'.Holds spec (normalizeWorksetStatus spec next) :=
  ⟨hspec, hstatus, rfl, rfl, rfl⟩

theorem call_holds (now : Time) (hholds : s.Holds spec status)
    (hid : c.ref.recordID = spec.worksetID) :
    (worksets.call now c s).1 = s ∨ (worksets.read c s = .ok (spec, status) ∧
        (worksets.call now c s).1.Holds spec (normalizeWorksetStatus spec (c.next now status))) := by
  cases hread : worksets.read c s with
  | error answer => exact .inl (congrArg fst (call_of_error hread))
  | ok found =>
    obtain ⟨rfl, -⟩ := read_of_holds hholds hid hread
    rw [call_of_ok hread]
    cases c with
    | chunk ref result =>
      simp only [worksets, WorksetCall.write, applyChunkResult]
      split
      · exact .inl rfl
      unfold WorksetStore.apply
      split
      · exact .inl rfl
      have hid' : ref.recordID = spec.worksetID := hid
      simp only [hid', hholds.spec_eq]
      split
      · exact .inl rfl
      · exact .inr ⟨trivial, .normalize _ hholds.spec_eq (update_self ..)⟩
    | cancel ref control =>
      simp only [worksets, WorksetCall.write, updateWorksetStatus]
      rcases worksetFamily.update_cases s.records
        ((WorksetCall.cancel ref control).next now status) control.idempotencyKey with
        hsame | ⟨spec', -, hspec', hupdate⟩
      · exact .inl (by rw [hsame])
      have hkey : worksetFamily.statusID ((WorksetCall.cancel ref control).next now status) =
          spec.worksetID := hholds.worksetID
      rw [hkey, hholds.spec_eq] at hspec'
      cases hspec'
      refine .inr ⟨trivial, ?_⟩
      rw [hupdate, hkey]
      exact .normalize _ hholds.spec_eq (update_self ..)

theorem chunk_applied (hvalid : validateWorksetSpec spec = .ok ()) (hholds : s.Holds spec status)
    (haccepts : acceptsChunk spec result = true)
    (hnew : s.chunkKeys ⟨spec.worksetID, result.chunkID, result.idempotencyKey⟩ = none) :
    (worksets.call now (.chunk spec.ref result) s).1 =
      s.applied ⟨spec.worksetID, result.chunkID, result.idempotencyKey⟩
        (normalizeWorksetStatus spec ((WorksetCall.chunk spec.ref result).next now status)) := by
  obtain ⟨hid, haccount, hproject⟩ := worksetRef_of_valid hvalid
  have hguard : (WorksetCall.chunk spec.ref result).guard spec = .ok () := chunk_guard.mpr haccepts
  obtain ⟨⟨⟩, hresult, -⟩ := bind_ok hguard
  have hcheck : worksetFamily.checkRef spec.ref = .ok () := by
    simp [worksetFamily, RecordRef.validate, WorksetSpec.ref, hid, haccount, hproject]
  have hinput : validateUpdateWorksetStatusInput
      ((WorksetCall.chunk spec.ref result).next now status) result.idempotencyKey = .ok () := by
    simp [validateUpdateWorksetStatusInput, WorksetCall.next, (validateChunkResult_ok.mp hresult).2.1,
      hholds.worksetID, hholds.accountID, hholds.projectID, hid, haccount, hproject]
  have htenant : validateWorksetTenantAccess spec.ref spec = .ok () := by
    simp [validateWorksetTenantAccess, WorksetSpec.ref]
  have hspec : s.records.specs spec.ref.recordID = some spec := hholds.spec_eq
  have hkey : s.chunkKeys ⟨spec.ref.recordID, result.chunkID, result.idempotencyKey⟩ = none := hnew
  rw [call_of_ok (read_ref hvalid hholds rfl hguard)]
  simp only [worksets, WorksetCall.write, applyChunkResult, validateApplyChunkInput, hcheck, hresult,
    hinput, bind, Except.bind, WorksetStore.apply, hkey, hspec, htenant]
  rfl

theorem chunk_ignored (hholds : s.Holds spec status) (hignored : acceptsChunk spec result = false ∨
      s.chunkKeys ⟨spec.worksetID, result.chunkID, result.idempotencyKey⟩ ≠ none) :
    (worksets.call now (.chunk spec.ref result) s).1 = s := by
  cases hread : worksets.read (.chunk spec.ref result) s with
  | error answer => exact congrArg fst (call_of_error hread)
  | ok found =>
    obtain ⟨rfl, hguard⟩ := read_of_holds hholds rfl hread
    have hknown := hignored.resolve_left (by simp [chunk_guard.mp hguard])
    obtain ⟨existing, hexisting⟩ := Option.ne_none_iff_exists'.mp hknown
    rw [call_of_ok hread]
    simp only [worksets, WorksetCall.write, applyChunkResult]
    split
    · rfl
    · simp [WorksetStore.apply, WorksetSpec.ref, hexisting]

end Calls

/-! ## What a history adds up to -/

/-- The results that count after one more report.  A result whose chunk and key are known is a
replay. -/
def recordResult (spec : WorksetSpec) (recorded : List WorksetChunkResult)
    (result : WorksetChunkResult) : List WorksetChunkResult :=
  if acceptsChunk spec result = true ∧ recorded.all (fun earlier =>
      !(earlier.chunkID == result.chunkID && earlier.idempotencyKey == result.idempotencyKey)) then
    recorded ++ [result]
  else recorded

def recordedResults (spec : WorksetSpec) (results : List WorksetChunkResult) :
    List WorksetChunkResult :=
  results.foldl (recordResult spec) []

def tally (spec : WorksetSpec) (recorded : List WorksetChunkResult) : WorksetProgress :=
  recorded.foldl WorksetProgress.add (initialWorksetStatus 0 spec).progress

/-- The history that reports these results. -/
def reports (spec : WorksetSpec) (results : List (Time × WorksetChunkResult)) :
    List (Time × WorksetCall) :=
  results.map fun report => (report.1, .chunk spec.ref report.2)

structure Tallied (spec : WorksetSpec) (recorded : List WorksetChunkResult) (s : WorksetStore) :
    Prop where
  holds : ∃ status, s.Holds spec status ∧ status.progress = tally spec recorded ∧
    status.lifecycleState =
      if recorded = [] then .running else worksetLifecycleAfterChunk (tally spec recorded)
  keys : ∀ chunkID key, s.chunkKeys ⟨spec.worksetID, chunkID, key⟩ ≠ none ↔
    ∃ result ∈ recorded, result.chunkID = chunkID ∧ result.idempotencyKey = key

section Tally

variable {now : Time} {spec : WorksetSpec} {s : WorksetStore} {recorded : List WorksetChunkResult}
  {result : WorksetChunkResult}

theorem tally_append (spec : WorksetSpec) (recorded : List WorksetChunkResult)
    (result : WorksetChunkResult) :
    tally spec (recorded ++ [result]) = (tally spec recorded).add result := by
  simp [tally]

theorem tally_eq (spec : WorksetSpec) (recorded : List WorksetChunkResult) :
    tally spec recorded =
      { totalItems := spec.itemsRef.count
        totalChunks := (initialWorksetStatus 0 spec).progress.totalChunks
        completedChunks := int32 recorded.length
        failedChunks := int32 (recorded.countP fun result => !result.succeeded)
        completedItems :=
          int64 (recorded.map fun result => if result.succeeded then result.completedItems else 0).sum
        failedItems :=
          int64 (recorded.map fun result => if result.succeeded then 0 else result.failedItems).sum } := by
  induction recorded using reverseRecOn with
  | nil => rfl
  | append_singleton recorded result ih =>
    rw [tally_append, ih]
    cases hsucceeded : result.succeeded <;>
      simp [WorksetProgress.add, hsucceeded, int32_add, int64_add, sum_append]

theorem call_tallied (hvalid : validateWorksetSpec spec = .ok ()) (h : Tallied spec recorded s) :
    Tallied spec (recordResult spec recorded result)
      (worksets.call now (.chunk spec.ref result) s).1 := by
  obtain ⟨⟨status, hholds, hprogress, hlifecycle⟩, hkeys⟩ := h
  unfold recordResult
  split
  · rename_i hcounts
    obtain ⟨haccepts, hnot⟩ := hcounts
    have hnew : s.chunkKeys ⟨spec.worksetID, result.chunkID, result.idempotencyKey⟩ = none := by
      by_contra hknown
      obtain ⟨earlier, hmem, hchunk, hkey⟩ := (hkeys _ _).mp hknown
      have := all_eq_true.mp hnot earlier hmem
      simp [hchunk, hkey] at this
    rw [chunk_applied hvalid hholds haccepts hnew]
    constructor
    case holds =>
      refine ⟨_, .normalize _ hholds.spec_eq (update_self ..), ?_, ?_⟩
      · rw [tally_append, ← hprogress]
        rfl
      · rw [tally_append, ← hprogress, if_neg (by simp)]
        rfl
    case keys =>
      intro chunkID key
      simp only [WorksetStore.applied, update_apply, ChunkKey.mk.injEq, true_and, mem_append,
        mem_singleton, or_and_right, exists_or, exists_eq_left, ← hkeys]
      split_ifs with hsame
      · simp [hsame]
      · exact (or_iff_left fun hlast => hsame ⟨hlast.1.symm, hlast.2.symm⟩).symm
  · rename_i hcounts
    rw [chunk_ignored hholds]
    · exact ⟨⟨status, hholds, hprogress, hlifecycle⟩, hkeys⟩
    by_cases haccepts : acceptsChunk spec result = true
    · refine .inr ((hkeys _ _).mpr ?_)
      by_contra hnone
      refine hcounts ⟨haccepts, all_eq_true.mpr fun earlier hmem => ?_⟩
      by_contra hsame
      simp only [Bool.not_eq_true, Bool.not_eq_false', Bool.and_eq_true, beq_iff_eq] at hsame
      exact hnone ⟨earlier, hmem, hsame⟩
    · exact .inl (Bool.not_eq_true _ ▸ haccepts)

theorem run_tallied (hvalid : validateWorksetSpec spec = .ok ())
    (results : List (Time × WorksetChunkResult)) (h : Tallied spec recorded s) :
    Tallied spec ((results.map snd).foldl (recordResult spec) recorded)
      (worksets.run s (reports spec results)) := by
  induction results generalizing s recorded with
  | nil => exact h
  | cons report results ih => exact ih (call_tallied hvalid h)

/-! ### The results that count -/

theorem recordedResults_append (spec : WorksetSpec) (results : List WorksetChunkResult)
    (result : WorksetChunkResult) :
    recordedResults spec (results ++ [result]) =
      recordResult spec (recordedResults spec results) result := by
  simp [recordedResults]

theorem recordedResults_spec (spec : WorksetSpec) (results : List WorksetChunkResult) :
    (∀ result ∈ recordedResults spec results, result ∈ results ∧ acceptsChunk spec result = true) ∧
      (recordedResults spec results).Pairwise fun first second =>
        ¬(first.chunkID = second.chunkID ∧ first.idempotencyKey = second.idempotencyKey) := by
  induction results using reverseRecOn with
  | nil => exact ⟨by simp [recordedResults], .nil⟩
  | append_singleton results result ih =>
    obtain ⟨hmem, hpairs⟩ := ih
    rw [recordedResults_append]
    unfold recordResult
    split
    · rename_i hcounts
      obtain ⟨haccepts, hnot⟩ := hcounts
      constructor
      · intro r hr
        rcases mem_append.mp hr with hr | hr
        · exact ⟨mem_append_left _ (hmem r hr).1, (hmem r hr).2⟩
        · rw [mem_singleton.mp hr]
          exact ⟨by simp, haccepts⟩
      · refine pairwise_append.mpr ⟨hpairs, pairwise_singleton _ _, ?_⟩
        intro earlier hearlier r hr
        rw [mem_singleton.mp hr]
        rintro ⟨hchunk, hkey⟩
        have hdiffers := all_eq_true.mp hnot earlier hearlier
        simp [hchunk, hkey] at hdiffers
    · exact ⟨fun r hr => ⟨mem_append_left _ (hmem r hr).1, (hmem r hr).2⟩, hpairs⟩

theorem recordedResults_distinct {results : List WorksetChunkResult}
    (haccepts : ∀ result ∈ results, acceptsChunk spec result = true)
    (hdistinct : (results.map WorksetChunkResult.chunkID).Nodup) :
    recordedResults spec results = results := by
  induction results using reverseRecOn with
  | nil => rfl
  | append_singleton results result ih =>
    rw [map_append, nodup_append] at hdistinct
    obtain ⟨hdistinct, -, hnot⟩ := hdistinct
    rw [recordedResults_append,
      ih (fun r hr => haccepts r (mem_append_left _ hr)) hdistinct, recordResult, if_pos]
    refine ⟨haccepts result (by simp), all_eq_true.mpr fun earlier hearlier => ?_⟩
    have hne : earlier.chunkID ≠ result.chunkID := hnot _ (mem_map_of_mem hearlier) _ (by simp)
    simp [hne]

/-! ### The chunks of a workset -/

def WorksetSpec.chunkIDs (spec : WorksetSpec) : List String :=
  if spec.chunks = [] then [spec.worksetID] else spec.chunks.map WorksetChunkSpec.chunkID

theorem worksetHasChunk_iff {chunkID : String} :
    worksetHasChunk spec chunkID = true ↔ chunkID ∈ spec.chunkIDs := by
  unfold worksetHasChunk WorksetSpec.chunkIDs
  cases spec.chunks with
  | nil => simp
  | cons chunk chunks =>
    rw [if_neg (by simp), if_neg (by simp), mem_map]
    simp

theorem chunkIDs_length (hvalid : validateWorksetSpec spec = .ok ()) :
    1 ≤ spec.chunkIDs.length ∧ spec.chunkIDs.length ≤ 2147483647 := by
  obtain ⟨-, -, hvalid⟩ := bind_ok hvalid
  obtain ⟨-, -, hvalid⟩ := bind_ok hvalid
  obtain ⟨-, -, hvalid⟩ := bind_ok hvalid
  obtain ⟨⟨⟩, hnumber, -⟩ := bind_ok hvalid
  unfold validateWorksetChunkNumber at hnumber
  split at hnumber
  · cases hnumber
  unfold WorksetSpec.chunkIDs
  split
  · simp
  rename_i hlength hsome
  have := length_pos_iff.mpr hsome
  rw [length_map]
  omega

theorem worksetChunkCount_eq {chunks : List WorksetChunkSpec} (h : chunks.length ≤ 2147483647) :
    worksetChunkCount chunks = chunks.length := by
  induction chunks using reverseRecOn with
  | nil => rfl
  | append_singleton chunks chunk ih =>
    simp only [length_append, length_cons, length_nil] at h
    have hcount : worksetChunkCount (chunks ++ [chunk]) = int32 (worksetChunkCount chunks + 1) := by
      simp [worksetChunkCount]
    rw [hcount, ih (by omega), int32_eq_self (by omega) (by omega)]
    simp

theorem totalChunks_eq (now : Time) (hvalid : validateWorksetSpec spec = .ok ()) :
    (initialWorksetStatus now spec).progress.totalChunks = spec.chunkIDs.length := by
  obtain ⟨-, hlength⟩ := chunkIDs_length hvalid
  unfold WorksetSpec.chunkIDs at hlength ⊢
  simp only [initialWorksetStatus]
  split at hlength
  · rename_i hnil
    rw [hnil]
    rfl
  · rename_i hsome
    have hpos := length_pos_iff.mpr hsome
    rw [length_map] at hlength
    rw [worksetChunkCount_eq hlength, if_neg (by omega), if_neg hsome, length_map]

theorem subperm_chunkIDs (hids : (recorded.map WorksetChunkResult.chunkID).Nodup)
    (haccepts : ∀ result ∈ recorded, acceptsChunk spec result = true) :
    (recorded.map WorksetChunkResult.chunkID).Subperm spec.chunkIDs := by
  refine subperm_of_subset hids fun chunkID hmem => ?_
  obtain ⟨result, hresult, rfl⟩ := mem_map.mp hmem
  exact worksetHasChunk_iff.mp (of_decide_eq_true (haccepts result hresult)).2

variable {Text : Type} [DecidableEq Text] {marshal : WorksetSpec → Text} {s₀ s₁ : WorksetStore}
  {status : WorksetStatus}

theorem createWorkset_created
    (hcreated : createWorkset marshal s₀ spec (initialWorksetStatus now spec) =
      (s₁, .ok (status, true))) :
    validateWorksetSpec spec = .ok () ∧ s₁.Holds spec (initialWorksetStatus now spec) ∧
      (s₀.Kept → ∀ chunkID key, s₁.chunkKeys ⟨spec.worksetID, chunkID, key⟩ = none) := by
  unfold createWorkset at hcreated
  split at hcreated
  · cases hcreated
  rename_i hvalid
  have hanswer := congrArg snd hcreated
  have hstore := congrArg fst hcreated
  obtain ⟨hnone, rfl, hrecords⟩ := Family.create_created (Prod.ext rfl hanswer)
  have hclaimed : s₁.records = worksetFamily.claimed s₀.records spec _ :=
    (congrArg WorksetStore.records hstore).symm.trans hrecords
  have hchunkKeys : s₁.chunkKeys = s₀.chunkKeys := (congrArg WorksetStore.chunkKeys hstore).symm
  refine ⟨hvalid, ⟨?_, ?_, rfl, rfl, rfl⟩, fun hkept chunkID key => ?_⟩
  · rw [hclaimed]
    exact update_self ..
  · rw [hclaimed]
    exact update_self ..
  · rw [hchunkKeys]
    by_contra hkey
    exact hkept.chunks ⟨spec.worksetID, chunkID, key⟩ hkey hnone

theorem created_tallied (hkept : s₀.Kept)
    (hcreated : createWorkset marshal s₀ spec (initialWorksetStatus now spec) =
      (s₁, .ok (status, true))) : Tallied spec [] s₁ := by
  obtain ⟨-, hholds, hnew⟩ := createWorkset_created hcreated
  refine ⟨⟨_, hholds, rfl, rfl⟩, fun chunkID key => ?_⟩
  simp [hnew hkept]

end Tally

/-! ## Reports at once -/

section Concurrent

open Finset

variable {ι : Type} [DecidableEq ι] [Fintype ι] {Text : Type} [DecidableEq Text]
  {marshal : WorksetSpec → Text} {now : Time} {spec : WorksetSpec} {status : WorksetStatus}
  {s₀ s₁ s : WorksetStore} {results : ι → WorksetChunkResult}
  {ls : ι → Phase (WorksetSpec × WorksetStatus) (Except Err WorksetStatus)}

variable {result : WorksetChunkResult}

theorem accepts_of_answer {recorded : List WorksetChunkResult}
    {answer : WorksetStatus} (h : Tallied spec recorded s)
    (hanswer : (worksets.call now (.chunk spec.ref result) s).2 = .ok answer) :
    acceptsChunk spec result = true := by
  obtain ⟨⟨status, hholds, -, -⟩, -⟩ := h
  cases hread : worksets.read (.chunk spec.ref result) s with
  | error refused =>
    rw [call_of_error hread] at hanswer
    obtain ⟨err, rfl⟩ := refuse_error hread
    cases hanswer
  | ok found =>
    obtain ⟨-, hguard⟩ := read_of_holds hholds rfl hread
    exact chunk_guard.mp hguard

theorem sum_order {order : List ι} (hnodup : order.Nodup) (hall : ∀ i, i ∈ order) (f : ι → ℤ) :
    (order.map f).sum = ∑ i, f i := by
  rw [← sum_toFinset f hnodup]
  congr 1
  ext i
  simp [hall]

theorem countP_order {order : List ι} (hnodup : order.Nodup) (hall : ∀ i, i ∈ order)
    (p : ι → Bool) : order.countP p = #{i | p i = true} := by
  rw [countP_eq_length_filter, ← toFinset_card_of_nodup (hnodup.filter p)]
  congr 1
  ext i
  simp [hall]

variable (hkept : s₀.Kept)
  (hcreated : createWorkset marshal s₀ spec (initialWorksetStatus now spec) =
    (s₁, .ok (status, true))) (hchunks : Injective fun i => (results i).chunkID)
  (hruns : Runs (Moves (worksets.steps worksets.fresh fun i => .chunk spec.ref (results i))) s₁
    (fun _ => .idle) s ls) (hreturned : ∀ i, ∃ answer, ls i = .done (.ok answer))
include hkept hcreated hchunks hruns hreturned

omit [Fintype ι] in
theorem runs_tallied :
    ∃ order : List ι, order.Nodup ∧ (∀ i, i ∈ order) ∧
      (∀ i, acceptsChunk spec (results i) = true) ∧ Tallied spec (order.map results) s := by
  obtain ⟨hvalid, -, -⟩ := createWorkset_created hcreated
  obtain ⟨order, hserial⟩ := serial hruns
  have htallied (turns : List (Time × ι)) :
      Tallied spec (recordedResults spec (turns.map fun turn => results turn.2)) (worksets.run s₁
        (turns.map fun turn => (turn.1, WorksetCall.chunk spec.ref (results turn.2)))) := by
    have h := run_tallied hvalid (turns.map fun turn => (turn.1, results turn.2))
      (created_tallied hkept hcreated)
    simpa [reports, recordedResults, comp_def] using h
  have haccepts (i : ι) : acceptsChunk spec (results i) = true := by
    obtain ⟨answer, hdone⟩ := hreturned i
    obtain ⟨e, before, -, hanswer⟩ := hserial.answers i _ hdone
    exact accepts_of_answer (htallied before) hanswer
  have hall (i : ι) : i ∈ order.map snd := by
    obtain ⟨answer, hdone⟩ := hreturned i
    exact (hserial.ended i).mpr ⟨_, hdone⟩
  refine ⟨order.map snd, hserial.once, hall, haccepts, ?_⟩
  have hids : (((order.map snd).map results).map WorksetChunkResult.chunkID).Nodup := by
    rw [List.map_map]
    exact hserial.once.map hchunks
  have haccepted : ∀ result ∈ (order.map snd).map results, acceptsChunk spec result = true := by
    intro result hresult
    obtain ⟨i, -, rfl⟩ := mem_map.mp hresult
    exact haccepts i
  rw [← recordedResults_distinct haccepted hids, ← hserial.store, List.map_map]
  exact htallied order

/-- When every report has returned without error, the counters are those of the reports,
provided that every report wrote over the status that it had read and that the items fit. -/
theorem progress_adds_up
    (hcompleted : ∑ i with (results i).succeeded, (results i).completedItems < 2 ^ 63)
    (hfailed : ∑ i with ¬(results i).succeeded, (results i).failedItems < 2 ^ 63) :
    ∃ final, s.records.statuses spec.worksetID = some final ∧
      final.progress.completedChunks = Fintype.card ι ∧
      final.progress.failedChunks = #{i | ¬(results i).succeeded} ∧
      final.progress.completedItems = ∑ i with (results i).succeeded, (results i).completedItems ∧
      final.progress.failedItems = ∑ i with ¬(results i).succeeded, (results i).failedItems := by
  obtain ⟨order, hnodup, hall, haccepts, ⟨final, hholds, hprogress, -⟩, -⟩ :=
    runs_tallied hkept hcreated hchunks hruns hreturned
  have hlength : order.length = Fintype.card ι := by
    rw [← toFinset_card_of_nodup hnodup]
    congr 1
    ext i
    simpa using hall i
  have hbound : Fintype.card ι ≤ 2147483647 := by
    have hids : ((order.map results).map WorksetChunkResult.chunkID).Nodup := by
      rw [List.map_map]
      exact hnodup.map hchunks
    have hle := (subperm_chunkIDs hids (by simpa using fun i _ => haccepts i)).length_le
    rw [length_map, length_map, hlength] at hle
    exact hle.trans (chunkIDs_length (createWorkset_created hcreated).1).2
  have hnonneg (i : ι) : 0 ≤ (results i).completedItems ∧ 0 ≤ (results i).failedItems := by
    obtain ⟨⟨-, -, hcompleted, hfailed⟩, -⟩ := of_decide_eq_true (haccepts i)
    exact ⟨hcompleted, hfailed⟩
  refine ⟨final, hholds.status_eq, ?_, ?_, ?_, ?_⟩ <;> rw [hprogress, tally_eq] <;> dsimp only
  · rw [length_map, hlength, int32_eq_self (by omega) (by omega)]
  · have hle : #{i | ¬(results i).succeeded} ≤ Fintype.card ι := card_le_univ _
    rw [countP_map, countP_order hnodup hall]
    simp only [comp_apply, Bool.not_eq_true', Bool.not_eq_true] at hle ⊢
    exact int32_eq_self (by omega) (by omega)
  · have hsum : 0 ≤ ∑ i with (results i).succeeded, (results i).completedItems :=
      sum_nonneg fun i _ => (hnonneg i).1
    rw [List.map_map, sum_order hnodup hall]
    simp only [comp_apply, ← sum_filter]
    exact int64_eq_self (by omega) hcompleted
  · have hsum : 0 ≤ ∑ i with ¬(results i).succeeded, (results i).failedItems :=
      sum_nonneg fun i _ => (hnonneg i).2
    rw [sum_filter] at hfailed hsum ⊢
    rw [List.map_map, sum_order hnodup hall]
    simp only [comp_apply, ite_not] at hfailed hsum ⊢
    exact int64_eq_self (by omega) hfailed

end Concurrent

/-- A workset of two chunks. -/
def pairWorkset : WorksetSpec where
  worksetID := "w"
  idempotencyKey := "start"
  accountID := "acc"
  projectID := "prj"
  processID := "p"
  kind := "import"
  itemsRef := { kind := "table", uri := "t", count := 5 }
  chunks := [{ chunkID := "a", itemsRef := { kind := "table", uri := "t1" } },
      { chunkID := "b", itemsRef := { kind := "table", uri := "t2" } }]

/-- A store with that workset. -/
def pairStore : WorksetStore :=
  (createWorkset id .new pairWorkset (initialWorksetStatus 1 pairWorkset)).1

theorem pairStore_created :
    createWorkset id .new pairWorkset (initialWorksetStatus 1 pairWorkset) =
      (pairStore, .ok (initialWorksetStatus 1 pairWorkset, true)) :=
  Prod.ext rfl rfl

/-- The results of its chunks. -/
def pairResults : Fin 2 → WorksetChunkResult
  | 0 => { chunkID := "a", idempotencyKey := "ka", completedItems := 2, succeeded := true }
  | 1 => { chunkID := "b", idempotencyKey := "kb", failedItems := 3 }

theorem progress_adds_up_pair :
    ∃ final, (play (worksets.steps worksets.fresh fun i => .chunk pairWorkset.ref (pairResults i))
        [(2, 0), (2, 0), (3, 1), (3, 1)] (pairStore, fun _ => .idle)).1.records.statuses "w" =
        some final ∧
      final.progress.completedChunks = 2 ∧ final.progress.failedChunks = 1 ∧
      final.progress.completedItems = 2 ∧ final.progress.failedItems = 3 := by
  have hreturned : ∀ i, ∃ answer, (play (worksets.steps worksets.fresh
      fun i => .chunk pairWorkset.ref (pairResults i)) [(2, 0), (2, 0), (3, 1), (3, 1)]
      (pairStore, fun _ => .idle)).2 i = .done (.ok answer) := by
    intro i
    fin_cases i <;> exact ⟨_, rfl⟩
  exact progress_adds_up WorksetStore.new_kept pairStore_created (by decide)
    (Runs.play _ _ .start) hreturned (by decide) (by decide)

/-- Two reports that read the workset before either of them writes: both return without error,
and one of them is lost. -/
theorem progress_lost :
    (∀ i j, i ≠ j → (pairResults i).chunkID ≠ (pairResults j).chunkID ∧
      (pairResults i).idempotencyKey ≠ (pairResults j).idempotencyKey) ∧
    ∃ s ls, Runs (Moves (worksets.steps anyWrite
        fun i => .chunk pairWorkset.ref (pairResults i))) pairStore (fun _ => .idle) s ls ∧
      (∀ i, ∃ answer, ls i = .done (.ok answer)) ∧
      (s.records.statuses "w").map (fun status => status.progress.completedChunks) = some 1 :=
  ⟨by decide, _, _, Runs.play _ [(2, 0), (2, 1), (3, 0), (3, 1)] .start,
    fun i => by fin_cases i <;> exact ⟨_, rfl⟩, rfl⟩

/-! ## Completion -/

section Complete

variable {Text : Type} [DecidableEq Text] {marshal : WorksetSpec → Text} {now : Time}
  {spec : WorksetSpec} {status : WorksetStatus} {s₀ s₁ : WorksetStore}

theorem progress_of_succeeded {progress : WorksetProgress}
    (h : worksetLifecycleAfterChunk progress = .succeeded) :
    progress.failedChunks ≤ 0 ∧ progress.totalChunks ≤ progress.completedChunks := by
  unfold worksetLifecycleAfterChunk at h
  split_ifs at h
  omega

/-- After any history of reports the completed chunks are no more than the chunks, and a workset
that has succeeded has a successful result for each of them, provided that no two reports that
pass the checks are of one chunk and under two keys. -/
theorem succeeded_workset_complete (hkept : s₀.Kept)
    (hcreated : createWorkset marshal s₀ spec (initialWorksetStatus now spec) =
      (s₁, .ok (status, true))) (results : List (Time × WorksetChunkResult))
    (hkeys : ∀ first ∈ results, ∀ second ∈ results, acceptsChunk spec first.2 = true →
      acceptsChunk spec second.2 = true → first.2.chunkID = second.2.chunkID →
      first.2.idempotencyKey = second.2.idempotencyKey) :
    ∃ final, (worksets.run s₁ (reports spec results)).records.statuses spec.worksetID = some final ∧
      final.progress.completedChunks ≤ final.progress.totalChunks ∧
      (final.lifecycleState = .succeeded → ∀ chunkID, worksetHasChunk spec chunkID = true →
        ∃ report ∈ results, report.2.chunkID = chunkID ∧ report.2.succeeded = true ∧
          (worksets.run s₁ (reports spec results)).chunkKeys
            ⟨spec.worksetID, chunkID, report.2.idempotencyKey⟩ ≠ none) := by
  obtain ⟨hvalid, -, -⟩ := createWorkset_created hcreated
  obtain ⟨⟨final, hholds, hprogress, hlifecycle⟩, hstored⟩ :=
    run_tallied hvalid results (created_tallied hkept hcreated)
  generalize hrec : (results.map snd).foldl (recordResult spec) [] = recorded at *
  have hspec := recordedResults_spec spec (results.map snd)
  rw [recordedResults, hrec] at hspec
  obtain ⟨hmem, hpairs⟩ := hspec
  -- no chunk counts twice
  have hids : (recorded.map WorksetChunkResult.chunkID).Nodup := by
    refine pairwise_map.mpr (hpairs.imp_of_mem fun {first second} hfirst hsecond hne => ?_)
    obtain ⟨report, hreport, rfl⟩ := mem_map.mp (hmem _ hfirst).1
    obtain ⟨report', hreport', rfl⟩ := mem_map.mp (hmem _ hsecond).1
    exact fun hchunk => hne ⟨hchunk,
      hkeys _ hreport _ hreport' (hmem _ hfirst).2 (hmem _ hsecond).2 hchunk⟩
  have hsubperm := subperm_chunkIDs hids fun result hresult => (hmem result hresult).2
  obtain ⟨-, hbound⟩ := chunkIDs_length hvalid
  have hle : recorded.length ≤ spec.chunkIDs.length := by simpa using hsubperm.length_le
  have htotal := totalChunks_eq 0 hvalid
  refine ⟨final, hholds.status_eq, ?_, fun hsucceeded chunkID hchunk => ?_⟩
  · rw [hprogress, tally_eq]
    dsimp only
    rw [int32_eq_self (by omega) (by omega)]
    omega
  · have hafter : worksetLifecycleAfterChunk (tally spec recorded) = .succeeded := by
      rw [hlifecycle] at hsucceeded
      split_ifs at hsucceeded
      exact hsucceeded
    obtain ⟨hnone, hcomplete⟩ := progress_of_succeeded hafter
    have hcount : recorded.countP (fun result => !result.succeeded) ≤ recorded.length :=
      countP_le_length
    rw [tally_eq] at hnone hcomplete
    dsimp only at hnone hcomplete
    rw [int32_eq_self (by omega) (by omega)] at hnone hcomplete
    -- as many results as chunks, so that the chunk has one
    have hperm := hsubperm.perm_of_length_le (by rw [length_map]; omega)
    obtain ⟨result, hresult, rfl⟩ := mem_map.mp (hperm.mem_iff.mpr (worksetHasChunk_iff.mp hchunk))
    obtain ⟨report, hreport, rfl⟩ := mem_map.mp (hmem result hresult).1
    refine ⟨report, hreport, rfl, ?_, (hstored _ _).mpr ⟨_, hresult, rfl, rfl⟩⟩
    have hzero : recorded.countP (fun result => !result.succeeded) = 0 := by omega
    simpa using countP_eq_zero.mp hzero _ hresult

end Complete

/-- Each chunk of the pair reported once. -/
def pairReports : List (Time × WorksetChunkResult) :=
  [(2, pairResults 0), (3, { pairResults 1 with failedItems := 0, succeeded := true })]

theorem succeeded_workset_complete_pair :
    ∃ final, (worksets.run pairStore (reports pairWorkset pairReports)).records.statuses "w" =
        some final ∧
      final.progress.completedChunks ≤ final.progress.totalChunks ∧
      (final.lifecycleState = .succeeded → ∀ chunkID, worksetHasChunk pairWorkset chunkID = true →
        ∃ report ∈ pairReports, report.2.chunkID = chunkID ∧ report.2.succeeded = true ∧
          (worksets.run pairStore (reports pairWorkset pairReports)).chunkKeys
            ⟨"w", chunkID, report.2.idempotencyKey⟩ ≠ none) :=
  succeeded_workset_complete WorksetStore.new_kept pairStore_created pairReports
    (by simp [pairReports, pairResults])

/-- The first chunk reported again under another key. -/
def repeatedReports : List (Time × WorksetChunkResult) :=
  [(2, pairResults 0), (3, { pairResults 0 with idempotencyKey := "kc" })]

/-- One chunk reported under two keys: the workset has succeeded without a result of the other
chunk, and one more report takes the count over the number of chunks. -/
theorem repeated_chunk_succeeds :
    ((worksets.run pairStore (reports pairWorkset repeatedReports)).records.statuses "w").map
        WorksetStatus.lifecycleState = some .succeeded ∧
      worksetHasChunk pairWorkset "b" = true ∧
      (∀ report ∈ repeatedReports, report.2.chunkID ≠ "b") ∧
      ((worksets.run pairStore (reports pairWorkset
        (repeatedReports ++ [(4, pairResults 1)]))).records.statuses "w").map
        (fun status => (status.progress.completedChunks, status.progress.totalChunks)) =
        some (3, 2) :=
  ⟨rfl, rfl, by decide, rfl⟩

/-! ## Terminal worksets -/

namespace WorksetCall

/-- The calls that change a terminal workset: a chunk result of a canceled workset, or a failed
result of a succeeded one; a cancellation of a succeeded or failed workset.  A result whose
count no longer fits is one of them. -/
def disturbs (status : WorksetStatus) : WorksetCall → Bool
  | .chunk _ result =>
      match status.lifecycleState with
      | .canceled => true
      | .succeeded => !result.succeeded || status.progress.completedChunks ≥ 2147483647
      | .failed => status.progress.completedChunks ≥ 2147483647
      | _ => false
  | .cancel _ _ => status.lifecycleState = .succeeded ∨ status.lifecycleState = .failed

/-- The call writes this workset, under a new key. -/
def writes (id : String) (s : WorksetStore) (found : WorksetSpec × WorksetStatus) :
    WorksetCall → Bool
  | .chunk ref result =>
      ref.recordID = id && (s.chunkKeys ⟨id, result.chunkID, result.idempotencyKey⟩).isNone
  | .cancel _ control =>
      found.2.worksetID = id && (s.records.statusKeys ⟨id, control.idempotencyKey⟩).isNone

end WorksetCall

/-- A call that passes its checks does not write the workset, or it has read the status that it
writes and does not disturb it. -/
def respectsWorkset (id : String) (c : WorksetCall) (s : WorksetStore) : Bool :=
  match c.read s with
  | .error _ => true
  | .ok found => !c.writes id s found || (c.ref.recordID = id && !c.disturbs found.2)

structure Counted (status : WorksetStatus) : Prop where
  failedChunks : 0 ≤ status.progress.failedChunks
  failed_le : status.progress.failedChunks ≤ status.progress.completedChunks
  fits : status.progress.completedChunks ≤ 2147483647
  total : 1 ≤ status.progress.totalChunks ∧ status.progress.totalChunks ≤ 2147483647
  lifecycle :
    (status.lifecycleState = .running ∧ status.progress.failedChunks = 0 ∧
      status.progress.completedChunks < status.progress.totalChunks) ∨
    (status.lifecycleState = .succeeded ∧ status.progress.failedChunks = 0 ∧
      status.progress.totalChunks ≤ status.progress.completedChunks) ∨
    (status.lifecycleState = .failed ∧ 1 ≤ status.progress.failedChunks) ∨
    status.lifecycleState = .canceled

section Terminal

variable {now : Time} {spec : WorksetSpec} {status : WorksetStatus} {c : WorksetCall}
  {s : WorksetStore} {ref : RecordRef} {result : WorksetChunkResult}

theorem lifecycleAfterChunk_cases (progress : WorksetProgress) (h : 1 ≤ progress.totalChunks) :
    (0 < progress.failedChunks ∧ worksetLifecycleAfterChunk progress = .failed) ∨
      (progress.failedChunks ≤ 0 ∧ progress.totalChunks ≤ progress.completedChunks ∧
        worksetLifecycleAfterChunk progress = .succeeded) ∨
      (progress.failedChunks ≤ 0 ∧ progress.completedChunks < progress.totalChunks ∧
        worksetLifecycleAfterChunk progress = .running) := by
  unfold worksetLifecycleAfterChunk
  split_ifs with hfailed
  · exact .inl ⟨hfailed, rfl⟩
  · exact .inr (.inl ⟨by omega, by omega, rfl⟩)
  · exact .inr (.inr ⟨by omega, by omega, rfl⟩)

theorem room_of_undisturbed (h : Counted status)
    (hdisturbs : (WorksetCall.chunk ref result).disturbs status = false) :
    status.progress.completedChunks < 2147483647 := by
  have htotal := h.total
  simp only [WorksetCall.disturbs] at hdisturbs
  obtain ⟨hstate, -, hlt⟩ | ⟨hstate, -, -⟩ | ⟨hstate, -⟩ | hstate := h.lifecycle <;>
    simp only [hstate, Bool.or_eq_false_iff, decide_eq_false_iff_not, Bool.true_eq_false]
      at hdisturbs <;> omega

theorem add_counts (result : WorksetChunkResult) (h : Counted status)
    (hroom : status.progress.completedChunks < 2147483647) :
    (status.progress.add result).totalChunks = status.progress.totalChunks ∧
      (status.progress.add result).completedChunks = status.progress.completedChunks + 1 ∧
      (status.progress.add result).failedChunks =
        if result.succeeded then status.progress.failedChunks
        else status.progress.failedChunks + 1 := by
  have hfailed := h.failedChunks
  have hle := h.failed_le
  unfold WorksetProgress.add
  split
  · exact ⟨rfl, int32_eq_self (by omega) (by omega), rfl⟩
  · exact ⟨rfl, int32_eq_self (by omega) (by omega), int32_eq_self (by omega) (by omega)⟩

theorem chunk_counted (h : Counted status)
    (hdisturbs : (WorksetCall.chunk ref result).disturbs status = false) :
    Counted ((WorksetCall.chunk ref result).next now status) ∧
      (status.lifecycleState.terminal = true →
        ((WorksetCall.chunk ref result).next now status).lifecycleState =
          status.lifecycleState) := by
  have hroom := room_of_undisturbed h hdisturbs
  obtain ⟨htotal, hcompleted, hfailed⟩ := add_counts result h hroom
  have hafter := lifecycleAfterChunk_cases (status.progress.add result) (htotal ▸ h.total.1)
  have hfailed' : (status.progress.add result).failedChunks = status.progress.failedChunks ∧
        result.succeeded = true ∨
      (status.progress.add result).failedChunks = status.progress.failedChunks + 1 ∧
        result.succeeded = false := by
    rw [hfailed]
    cases result.succeeded <;> simp
  obtain ⟨hpos, hle, -, htot, hlife⟩ := h
  constructor
  · constructor <;> simp only [WorksetCall.next]
    case failedChunks => omega
    case failed_le => omega
    case fits => omega
    case total => omega
    case lifecycle =>
      obtain ⟨hsome, hstate⟩ | ⟨hnone, hreached, hstate⟩ | ⟨hnone, hbelow, hstate⟩ := hafter
      · exact .inr (.inr (.inl ⟨hstate, by omega⟩))
      · exact .inr (.inl ⟨hstate, by omega, hreached⟩)
      · exact .inl ⟨hstate, by omega, hbelow⟩
  · intro hterminal
    simp only [WorksetCall.next, WorksetCall.disturbs] at hdisturbs ⊢
    obtain ⟨hstate, -⟩ | ⟨hstate, hzero, hreached⟩ | ⟨hstate, hsome⟩ | hstate := hlife
    · rw [hstate] at hterminal
      cases hterminal
    · -- the result has succeeded, so that nothing has failed and the chunks stay complete
      simp only [hstate, Bool.or_eq_false_iff, Bool.not_eq_false'] at hdisturbs
      have hsucceeded := hdisturbs.1
      rw [hstate]
      obtain ⟨hsome, -⟩ | ⟨-, -, hafter⟩ | ⟨-, hbelow, -⟩ := hafter
      · simp only [hsucceeded, if_true] at hfailed
        omega
      · exact hafter
      · omega
    · rw [hstate]
      obtain ⟨-, hafter⟩ | ⟨hnone, -⟩ | ⟨hnone, -⟩ := hafter
      · exact hafter
      · omega
      · omega
    · simp [hstate] at hdisturbs

theorem cancel_counted {control : ControlRequest} (h : Counted status)
    (hdisturbs : (WorksetCall.cancel ref control).disturbs status = false) :
    Counted ((WorksetCall.cancel ref control).next now status) ∧
      (status.lifecycleState.terminal = true →
        ((WorksetCall.cancel ref control).next now status).lifecycleState =
          status.lifecycleState) := by
  refine ⟨⟨h.failedChunks, h.failed_le, h.fits, h.total, .inr (.inr (.inr rfl))⟩, ?_⟩
  simp only [WorksetCall.disturbs, decide_eq_false_iff_not, not_or] at hdisturbs
  intro hterminal
  revert hterminal hdisturbs
  simp only [WorksetCall.next]
  cases status.lifecycleState <;> simp [WorksetLifecycle.terminal]

theorem next_counted (now : Time) (h : Counted status) (hdisturbs : c.disturbs status = false) :
    Counted (c.next now status) ∧ (status.lifecycleState.terminal = true →
      (c.next now status).lifecycleState = status.lifecycleState) := by
  cases c with
  | chunk ref result => exact chunk_counted h hdisturbs
  | cancel ref control => exact cancel_counted h hdisturbs

theorem call_unwritten {found : WorksetSpec × WorksetStatus} (hholds : s.Holds spec status)
    (hread : worksets.read c s = .ok found) (hwrites : c.writes spec.worksetID s found = false) :
    (worksets.call now c s).1.Holds spec status := by
  rw [call_of_ok hread]
  cases c with
  | chunk ref result =>
    simp only [worksets, WorksetCall.write, applyChunkResult]
    split
    · exact hholds
    unfold WorksetStore.apply
    split
    · exact hholds
    rename_i hnew
    split
    · exact hholds
    split
    · exact hholds
    have hne : spec.worksetID ≠ ref.recordID := by
      intro hid
      simp [WorksetCall.writes, hid, hnew] at hwrites
    exact { hholds with status_eq := (update_of_ne hne ..).trans hholds.status_eq }
  | cancel ref control =>
    have hrecords : worksetFamily.Holds s.records spec status :=
      ⟨hholds.spec_eq, hholds.status_eq, hholds.worksetID⟩
    have hkept := hrecords.update_other ((WorksetCall.cancel ref control).next now found.2)
      control.idempotencyKey fun hid hnew => by
        have hid' : found.2.worksetID = spec.worksetID := hid
        have hnew' : s.records.statusKeys ⟨spec.worksetID, control.idempotencyKey⟩ = none := hnew
        simp [WorksetCall.writes, hid', hnew'] at hwrites
    exact { hholds with spec_eq := hkept.spec_eq, status_eq := hkept.status_eq }

def CountedAt (spec : WorksetSpec) (ended : Option WorksetLifecycle) (s : WorksetStore) : Prop :=
  ∃ status, s.Holds spec status ∧ Counted status ∧ ∀ lifecycle, ended = some lifecycle →
      lifecycle.terminal = true ∧ status.lifecycleState = lifecycle

theorem call_countedAt {ended : Option WorksetLifecycle} (h : CountedAt spec ended s)
    (hrespects : respectsWorkset spec.worksetID c s = true) :
    CountedAt spec ended (worksets.call now c s).1 := by
  obtain ⟨status, hholds, hcounted, hended⟩ := h
  cases hread : worksets.read c s with
  | error answer =>
    rw [call_of_error hread]
    exact ⟨status, hholds, hcounted, hended⟩
  | ok found =>
  cases hwrites : c.writes spec.worksetID s found with
  | false => exact ⟨status, call_unwritten hholds hread hwrites, hcounted, hended⟩
  | true =>
  have hown : c.ref.recordID = spec.worksetID ∧ c.disturbs found.2 = false := by
    simpa [respectsWorkset, refuse_ok.mp hread, hwrites] using hrespects
  rcases call_holds now hholds hown.1 with hsame | ⟨hok, hholds'⟩
  · rw [hsame]
    exact ⟨status, hholds, hcounted, hended⟩
  rw [hread] at hok
  cases hok
  obtain ⟨hcounted', hkeeps⟩ := next_counted now hcounted hown.2
  refine ⟨_, hholds', ⟨hcounted'.1, hcounted'.2, hcounted'.3, hcounted'.4, hcounted'.5⟩, ?_⟩
  intro lifecycle hsome
  obtain ⟨hterminal, hstate⟩ := hended lifecycle hsome
  exact ⟨hterminal, (hkeeps (hstate ▸ hterminal)).trans hstate⟩

variable {Text : Type} [DecidableEq Text] {marshal : WorksetSpec → Text} {s₀ s₁ : WorksetStore}
  {stored : WorksetStatus}

/-- Once a workset is canceled, succeeded or failed, its lifecycle state is the same after every
later call, when no call disturbs a terminal workset. -/
theorem terminal_workset_stays
    (hcreated : createWorkset marshal s₀ spec (initialWorksetStatus now spec) =
      (s₁, .ok (status, true))) (history later : List (Time × WorksetCall))
    (hrespects : worksets.along (respectsWorkset spec.worksetID) s₁ (history ++ later) = true)
    (hstored : (worksets.run s₁ history).records.statuses spec.worksetID = some stored)
    (hterminal : stored.lifecycleState.terminal = true) :
    ∃ stored', (worksets.run s₁ (history ++ later)).records.statuses spec.worksetID =
        some stored' ∧ stored'.lifecycleState = stored.lifecycleState := by
  obtain ⟨hvalid, hholds, -⟩ := createWorkset_created hcreated
  obtain ⟨hlow, hhigh⟩ := chunkIDs_length hvalid
  have htotal := totalChunks_eq now hvalid
  have hinitial : Counted (initialWorksetStatus now spec) := by
    refine ⟨le_refl _, le_refl _, (by decide : (0 : Int) ≤ 2147483647), by omega,
      .inl ⟨rfl, rfl, ?_⟩⟩
    show 0 < (initialWorksetStatus now spec).progress.totalChunks
    omega
  obtain ⟨hfirst, hrest⟩ := along_append.mp hrespects
  obtain ⟨status', hholds', hcounted, -⟩ := run_inv (CountedAt spec none) call_countedAt
    hfirst ⟨_, hholds, hinitial, by simp⟩
  obtain rfl : status' = stored := Option.some.inj (hholds'.status_eq.symm.trans hstored)
  obtain ⟨final, hfinal, -, hended⟩ := run_inv
    (CountedAt spec (some status'.lifecycleState)) call_countedAt hrest
    ⟨_, hholds', hcounted, by simp [hterminal]⟩
  rw [run_append]
  exact ⟨final, hfinal.status_eq, (hended _ rfl).2⟩

end Terminal

/-- The cancellation of the pair. -/
def pairCancel : WorksetCall :=
  .cancel pairWorkset.ref { operation := .cancel, idempotencyKey := "c" }

theorem terminal_workset_stays_canceled :
    ∃ stored', (worksets.run pairStore ([(2, pairCancel)] ++
        [(3, .cancel pairWorkset.ref { operation := .cancel, idempotencyKey := "c2" })])
        ).records.statuses "w" = some stored' ∧ stored'.lifecycleState = .canceled := by
  have hcanceled : (worksets.run pairStore [(2, pairCancel)]).records.statuses "w" =
      some { initialWorksetStatus 1 pairWorkset with lifecycleState := .canceled, updatedAt := 2 } :=
    rfl
  exact terminal_workset_stays pairStore_created _ _ rfl hcanceled rfl

/-- The two chunk results of a canceled workset make it succeed. -/
theorem canceled_workset_succeeds :
    ((worksets.run pairStore [(2, pairCancel)]).records.statuses "w").map
        WorksetStatus.lifecycleState = some .canceled ∧
      ((worksets.run pairStore ((2, pairCancel) :: reports pairWorkset pairReports)
        ).records.statuses "w").map WorksetStatus.lifecycleState = some .succeeded :=
  ⟨rfl, rfl⟩

end AgentOS.Platform
