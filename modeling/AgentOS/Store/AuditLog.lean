import AgentOS.Store.AuditChain
import AgentOS.Kit.Threads
import Mathlib.Data.List.Sort
import Mathlib.Data.Prod.Lex

/-!
# The audit log

`RecordAudit` of `internal/repo/persistent/agentos_plan_postgres.go` with
`insertAuditRecordChained`, as a thread whose steps are its SQL statements: the lookup, the
advisory lock of the tenant, the predecessor's hash, the insert with the commit, and the
lookup that follows.  Any number of calls run at once over one table.
-/

namespace AgentOS.Store

open Kit List Number

/-! ## Records -/

/-- `AuditAction`.  `other` is a string outside the declared constants. -/
inductive AuditAction where
  | planStart
  | planSignal
  | planControl
  | other (name : String)
  deriving DecidableEq

def AuditAction.text : AuditAction → String
  | .planStart => "plan.start"
  | .planSignal => "plan.signal"
  | .planControl => "plan.control"
  | .other name => name

def AuditAction.ofText (text : String) : AuditAction :=
  if text = "plan.start" then .planStart
  else if text = "plan.signal" then .planSignal
  else if text = "plan.control" then .planControl
  else .other text

abbrev Payload := Option (List (String × Document Number))

def payloadDocument (payload : Payload) : Document Number := .obj (payload.getD [])

structure AuditRecord where
  (auditID planID accountID projectID runID nodeID actorID : String := "")
  action : AuditAction
  idempotencyKey : String := ""
  payload : Payload := none
  createdAt : Time := 0

/-- `AuditRef`, and `PlanCommandRef`, which has the same fields. -/
structure RecordRef where
  (planID accountID projectID idempotencyKey : String)
  deriving DecidableEq

def auditRefFromRecord (record : AuditRecord) : RecordRef where
  planID := record.planID
  accountID := record.accountID
  projectID := record.projectID
  idempotencyKey := record.idempotencyKey

def validatePlanRef (ref : RecordRef) : Except Err Unit :=
  if ref.planID = "" then errorf .invalidPlanScope "plan id is required"
  else if ref.accountID = "" then errorf .invalidPlanScope "account id is required"
  else if ref.projectID = "" then errorf .invalidPlanScope "project id is required"
  else .ok ()

def validateRecordRef (subject : String) (ref : RecordRef) : Except Err Unit := do
  validatePlanRef ref
  if ref.idempotencyKey = "" then errorf .invalidRunPlan (subject ++ " idempotency key is required")
  else .ok ()

def refDocument (ref : RecordRef) : Document Number :=
  .obj [("plan_id", .str ref.planID), ("account_id", .str ref.accountID),
    ("project_id", .str ref.projectID), ("idempotency_key", .str ref.idempotencyKey)]

def auditIDFromRef (sha : Sha256) (ref : RecordRef) : String :=
  "audit:" ++ sha.hex (bytes ((refDocument ref).text text))

def decodePayload (scope : String) (column : JsonColumn) : Except Err Payload :=
  match column with
  | some .null => .ok none
  | some (.obj members) =>
      if Document.allMembers finite members then
        .ok (some (Document.mapMembers reread members))
      else .error (.within scope (.external "json: cannot unmarshal number into Go value"))
  | _ => .error (.within scope (.external "json: cannot unmarshal into Go value"))

def validateAuditIdempotency (existing requested : AuditRecord) : Except Err Unit :=
  let belongs (what value : String) : Except Err Unit :=
    errorf .invalidRunPlan ("audit idempotency key belongs to " ++ what ++ " " ++ quoted value)
  if existing.planID ≠ requested.planID then belongs "plan" existing.planID
  else if existing.accountID ≠ requested.accountID then belongs "account" existing.accountID
  else if existing.projectID ≠ requested.projectID then belongs "project" existing.projectID
  else if existing.runID ≠ requested.runID then belongs "run" existing.runID
  else if existing.nodeID ≠ requested.nodeID then belongs "node" existing.nodeID
  else if existing.actorID ≠ requested.actorID then belongs "actor" existing.actorID
  else if existing.action ≠ requested.action then belongs "action" existing.action.text
  else if existing.idempotencyKey ≠ requested.idempotencyKey then
    errorf .invalidRunPlan "audit idempotency key mismatch"
  else if (payloadDocument existing.payload).text text ≠
      (payloadDocument requested.payload).text text then
    errorf .invalidRunPlan "audit idempotency key was reused with a different payload"
  else .ok ()

/-! ## The table -/

def ListAuditChainRow.ofTenant (row : ListAuditChainRow) (tenant : String × String) : Bool :=
  row.accountID == tenant.1 && row.projectID == tenant.2

/-- The order of `ORDER BY created_at, audit_id`. -/
def ListAuditChainRow.key (row : ListAuditChainRow) : Int ×ₗ String :=
  toLex (row.createdAt, row.auditID)

variable (rows : List ListAuditChainRow)

def tenantRows (tenant : String × String) : List ListAuditChainRow :=
  rows.filter fun row => row.ofTenant tenant

def listAuditChain (tenant : String × String) : List ListAuditChainRow :=
  (tenantRows rows tenant).insertionSort fun a b => a.key ≤ b.key

def latestAuditRowHash (tenant : String × String) : String :=
  (((listAuditChain rows tenant).filter fun row => row.rowHash != "").getLast?.map
    ListAuditChainRow.rowHash).getD ""

/-- The row of a reference. -/
def findAuditRow (ref : RecordRef) : Option ListAuditChainRow :=
  rows.find? fun row => row.planID == ref.planID && row.accountID == ref.accountID &&
    row.projectID == ref.projectID && row.idempotencyKey == ref.idempotencyKey

def planAuditRecordFromRow (row : ListAuditChainRow) : Except Err AuditRecord := do
  let payload ← decodePayload "AgentOSPlanRepo - GetAuditRecord - decode payload" row.payloadJson
  return {
    auditID := row.auditID, planID := row.planID, accountID := row.accountID,
    projectID := row.projectID, runID := row.runID, nodeID := row.nodeID,
    actorID := row.actorID, action := .ofText row.action,
    idempotencyKey := row.idempotencyKey, payload, createdAt := row.createdAt }

def getAuditRecord (ref : RecordRef) : Except Err (Option AuditRecord) := do
  validateRecordRef "audit" ref
  match findAuditRow rows ref with
  | none => return none
  | some row => return some (← planAuditRecordFromRow row)

/-- `createdAt.UTC().Truncate(time.Microsecond)`. -/
def truncateMicro (t : Time) : Time := t / 1000 * 1000

/-- The row that `insertAuditRecordChained` inserts for a record behind a predecessor's
hash.  The hash is over the payload as the writer has it, and the column holds the payload
as `jsonb` prints it. -/
def auditRow (sha : Sha256) (record : AuditRecord) (prevHash : String) : ListAuditChainRow :=
  let payload := payloadDocument record.payload
  let row : AuditChainRow :=
    { auditID := record.auditID, planID := record.planID, accountID := record.accountID,
      projectID := record.projectID, runID := record.runID, nodeID := record.nodeID,
      actorID := record.actorID, action := record.action.text,
      idempotencyKey := record.idempotencyKey, payload := payload.text text,
      createdAt := truncateMicro record.createdAt }
  { auditID := row.auditID, planID := row.planID, accountID := row.accountID,
    projectID := row.projectID, runID := row.runID, nodeID := row.nodeID,
    actorID := row.actorID, action := row.action, idempotencyKey := row.idempotencyKey,
    payloadJson := some (payload.map numeric), createdAt := row.createdAt,
    prevHash, rowHash := auditRowHash sha prevHash row }

def auditConflict (record : AuditRecord) : Bool :=
  rows.any fun row => row.auditID == record.auditID ||
    (row.accountID == record.accountID && row.projectID == record.projectID &&
      row.planID == record.planID && row.idempotencyKey == record.idempotencyKey)

/-! ## The calls -/

/-- What the plan tables answer.  The tenant of a plan does not change. -/
structure AuditEnv where
  sha : Sha256
  tenantScope : String → Except Err (Option (String × String))
  nodeRunOwnership : AuditRecord → Except Err Unit

/-- The audit table with the advisory locks of the tenants. -/
structure AuditTable (ι : Type) where
  rows : List ListAuditChainRow
  lock : String × String → Option ι

/-- Where a call of `RecordAudit` stands. -/
inductive AuditCall where
  /-- Called with a record. -/
  | called (record : AuditRecord)
  /-- The lookup found no row, and the record has its defaults. -/
  | absent (record : AuditRecord)
  /-- The transaction holds the lock of the tenant. -/
  | locked (record : AuditRecord)
  /-- The predecessor's hash is read. -/
  | chained (record : AuditRecord) (prevHash : String)
  /-- The insert violated a unique index, and the transaction is rolled back. -/
  | refused (record : AuditRecord)
  /-- The row is committed. -/
  | written (record : AuditRecord)
  | done (result : Except Err (AuditRecord × Bool))

def prepareAuditRecord (E : AuditEnv) (record : AuditRecord) : Except Err AuditRecord := do
  if record.planID = "" then errorf .invalidRunPlan "plan id is required"
  else if record.action = .other "" then errorf .invalidRunPlan "audit action is required"
  else if record.idempotencyKey = "" then errorf .invalidRunPlan "audit idempotency key is required"
  else
    match ← E.tenantScope record.planID with
    | none => errorf .planRouteNotFound record.planID
    | some tenant => return { record with accountID := tenant.1, projectID := tenant.2 }

def validateAuditOwnership (E : AuditEnv) (record : AuditRecord) : Except Err Unit :=
  if record.nodeID = "" ∧ record.runID = "" then .ok ()
  else if record.nodeID = "" ∨ record.runID = "" then
    errorf .invalidRunPlan "audit node id and run id must be provided together"
  else E.nodeRunOwnership record

def setAuditRecordDefaults (E : AuditEnv) (now : Time) (record : AuditRecord) : AuditRecord :=
  { record with
    auditID := if record.auditID = "" then auditIDFromRef E.sha (auditRefFromRecord record)
      else record.auditID
    createdAt := if record.createdAt.isZero then now else record.createdAt
    payload := some (record.payload.getD []) }

def AuditRecord.tenant (record : AuditRecord) : String × String :=
  (record.accountID, record.projectID)

def lookupAudit (E : AuditEnv) (now : Time) (rows : List ListAuditChainRow)
    (record : AuditRecord) : Except Err AuditCall := do
  let record ← prepareAuditRecord E record
  match ← getAuditRecord rows (auditRefFromRecord record) with
  | some existing =>
      validateAuditIdempotency existing record
      return .done (.ok (existing, false))
  | none =>
      validateAuditOwnership E record
      return .absent (setAuditRecordDefaults E now record)

def resolveAuditConflict (record : AuditRecord) : Except Err AuditRecord := do
  match ← getAuditRecord rows (auditRefFromRecord record) with
  | none => .error (.within "AgentOSPlanRepo - RecordAudit - insert" (.external "23505"))
  | some existing =>
      validateAuditIdempotency existing record
      return existing

def readBackAudit (record : AuditRecord) : Except Err AuditRecord := do
  match ← getAuditRecord rows (auditRefFromRecord record) with
  | none => .error (.within "AgentOSPlanRepo - RecordAudit - insert"
      (.external "inserted audit record not found"))
  | some stored => return stored

variable {ι : Type}

def AuditTable.setLock (t : AuditTable ι) (tenant : String × String) (owner : Option ι) :
    AuditTable ι :=
  { t with lock := Function.update t.lock tenant owner }

/-- The next statement of a call, at an instant of its clock. -/
def auditNext (E : AuditEnv) (now : Time) (i : ι) (t : AuditTable ι) :
    AuditCall → Option (AuditTable ι × AuditCall)
  | .called record =>
      match lookupAudit E now t.rows record with
      | .error err => some (t, .done (.error err))
      | .ok call => some (t, call)
  | .absent record =>
      if t.lock record.tenant = none then
        some (t.setLock record.tenant (some i), .locked record)
      else none
  | .locked record => some (t, .chained record (latestAuditRowHash t.rows record.tenant))
  | .chained record prevHash =>
      let released := t.setLock record.tenant none
      if auditConflict t.rows record then some (released, .refused record)
      else
        some ({ released with rows := t.rows ++ [auditRow E.sha record prevHash] }, .written record)
  | .refused record =>
      match resolveAuditConflict t.rows record with
      | .error err => some (t, .done (.error err))
      -- `RecordAudit` reports the row of another call as created
      | .ok existing => some (t, .done (.ok (existing, true)))
  | .written record =>
      match readBackAudit t.rows record with
      | .error err => some (t, .done (.error err))
      | .ok stored => some (t, .done (.ok (stored, true)))
  | .done _ => none

/-! ## The chain of a tenant -/

/-- The tenant's rows were committed in the order of `created_at` and `audit_id`. -/
def InOrder (tenant : String × String) : Prop :=
  (tenantRows rows tenant).Pairwise fun a b => a.key < b.key

/-- The numbers of the payload are written as `jsonb` prints them. -/
def AuditRecord.plain (record : AuditRecord) : Bool :=
  (payloadDocument record.payload).all Number.plain

def Intact (sha : Sha256) (rows : List ListAuditChainRow) (tenant : String × String) : Prop :=
  ∃ old new, tenantRows rows tenant = old ++ new ∧ (∀ row ∈ old, row.rowHash = "") ∧
    Linked (Continues sha) ListAuditChainRow.rowHash "" new

section Chain

variable {sha : Sha256} {rows : List ListAuditChainRow} {row : ListAuditChainRow}
  {tenant : String × String} {record : AuditRecord} {prevHash : String}

theorem tenantRows_concat_same (h : row.ofTenant tenant = true) :
    tenantRows (rows ++ [row]) tenant = tenantRows rows tenant ++ [row] := by
  simp [tenantRows, h]

theorem tenantRows_concat_other (h : row.ofTenant tenant = false) :
    tenantRows (rows ++ [row]) tenant = tenantRows rows tenant := by
  simp [tenantRows, h]

theorem InOrder.of_concat (h : InOrder (rows ++ [row]) tenant) : InOrder rows tenant :=
  Pairwise.sublist ((sublist_append_left rows [row]).filter _) h

theorem listAuditChain_of_inOrder (h : InOrder rows tenant) :
    listAuditChain rows tenant = tenantRows rows tenant :=
  Pairwise.insertionSort_eq (Pairwise.imp (fun h => le_of_lt h) h)

theorem latestAuditRowHash_of_linked (hsort : InOrder rows tenant)
    {old new : List ListAuditChainRow} (hrows : tenantRows rows tenant = old ++ new)
    (hold : ∀ row ∈ old, row.rowHash = "")
    (hnew : Linked (Continues sha) ListAuditChainRow.rowHash "" new) :
    latestAuditRowHash rows tenant = tip ListAuditChainRow.rowHash "" new := by
  have hkept : (tenantRows rows tenant).filter (fun row => row.rowHash != "") = new := by
    rw [hrows, filter_append, filter_eq_nil_iff.mpr, nil_append, filter_eq_self.mpr]
    · intro row hrow
      obtain ⟨h, hfits⟩ := hnew.exists_fits hrow
      exact bne_iff_ne.mpr hfits.rowHash_ne
    · intro row hrow
      simp [hold row hrow]
  rw [latestAuditRowHash, listAuditChain_of_inOrder hsort, hkept, tip_rowHash]

theorem continues_auditRow (h : record.plain = true) :
    Continues sha prevHash (auditRow sha record prevHash) := by
  have hstored : (payloadDocument record.payload).map numeric = payloadDocument record.payload :=
    Document.map_eq_self (fun _ hn => Number.numeric_of_plain hn) h
  refine ⟨rfl, (payloadDocument record.payload).text text, ?_, rfl⟩
  simp [auditRow, canonicalizeAuditJSON, hstored]

theorem Intact.concat (hintact : Intact sha rows tenant) (hplain : record.plain = true)
    (htenant : (auditRow sha record prevHash).ofTenant tenant = true)
    (horder : InOrder rows tenant) (hprev : prevHash = latestAuditRowHash rows tenant) :
    Intact sha (rows ++ [auditRow sha record prevHash]) tenant := by
  obtain ⟨old, new, hrows, hold, hnew⟩ := hintact
  refine ⟨old, new ++ [auditRow sha record prevHash], ?_, hold, ?_⟩
  · rw [tenantRows_concat_same htenant, hrows, append_assoc]
  · refine Linked.concat.mpr ⟨hnew, ?_⟩
    rw [← latestAuditRowHash_of_linked horder hrows hold hnew, ← hprev]
    exact continues_auditRow hplain

theorem Intact.verifies (hintact : Intact sha rows tenant) (horder : InOrder rows tenant) :
    (verifyAuditChain sha tenant.1 tenant.2 (listAuditChain rows tenant)).brokenAt = "" := by
  obtain ⟨old, new, hrows, hold, hnew⟩ := hintact
  rw [listAuditChain_of_inOrder horder, hrows, verifyAuditChain,
    walkAuditChain_linked hold rfl hnew]

end Chain

/-! ## What the calls do -/

theorem prepareAuditRecord_payload {E : AuditEnv} {record prepared : AuditRecord}
    (h : prepareAuditRecord E record = .ok prepared) : prepared.payload = record.payload := by
  unfold prepareAuditRecord at h
  split_ifs at h
  obtain ⟨scope, -, h⟩ := bind_ok h
  cases scope with
  | none => cases h
  | some tenant =>
    cases h
    rfl

theorem lookupAudit_cases {E : AuditEnv} {now : Time} {rows : List ListAuditChainRow}
    {record : AuditRecord} {call : AuditCall} (h : lookupAudit E now rows record = .ok call) :
    ∃ prepared, prepareAuditRecord E record = .ok prepared ∧
      ((∃ existing, getAuditRecord rows (auditRefFromRecord prepared) = .ok (some existing) ∧
        call = .done (.ok (existing, false))) ∨
      (getAuditRecord rows (auditRefFromRecord prepared) = .ok none ∧
        call = .absent (setAuditRecordDefaults E now prepared))) := by
  obtain ⟨prepared, hprepared, h⟩ := bind_ok h
  refine ⟨prepared, hprepared, ?_⟩
  obtain ⟨found, hfound, h⟩ := bind_ok h
  cases found with
  | some existing =>
    obtain ⟨-, -, h⟩ := bind_ok h
    cases h
    exact .inl ⟨existing, hfound, rfl⟩
  | none =>
    obtain ⟨-, -, h⟩ := bind_ok h
    cases h
    exact .inr ⟨hfound, rfl⟩

/-- What a call relies on: a plain payload, and while it holds the lock of its tenant the
predecessor's hash that it read. -/
def AuditHolds (i : ι) (t : AuditTable ι) : AuditCall → Prop
  | .called record | .absent record => record.plain = true
  | .locked record => record.plain = true ∧ t.lock record.tenant = some i
  | .chained record prevHash =>
      record.plain = true ∧ t.lock record.tenant = some i ∧
        prevHash = latestAuditRowHash t.rows record.tenant
  | .refused _ | .written _ | .done _ => True

variable {E : AuditEnv} {now : Time} {i j : ι} {t t' : AuditTable ι} {call call' other : AuditCall}
  {tenant : String × String}

theorem auditNext_effect (hholds : AuditHolds i t call)
    (h : auditNext E now i t call = some (t', call')) :
    t' = t ∨
    (∃ tenant, t.lock tenant = none ∧ t' = t.setLock tenant (some i)) ∨
    ∃ tenant, t.lock tenant = some i ∧ ∃ added, t' = { t.setLock tenant none with
      rows := t.rows ++ added } ∧ ∀ row ∈ added, ∀ tenant', tenant' ≠ tenant →
        row.ofTenant tenant' = false := by
  cases call with
  | called record | refused | written =>
    left
    simp only [auditNext] at h
    split at h <;> cases h <;> rfl
  | absent record =>
    simp only [auditNext] at h
    split_ifs at h with hfree
    cases h
    exact .inr (.inl ⟨_, hfree, rfl⟩)
  | locked record =>
    cases h
    exact .inl rfl
  | chained record prevHash =>
    right; right
    refine ⟨record.tenant, hholds.2.1, ?_⟩
    simp only [auditNext] at h
    split_ifs at h <;> cases h
    · exact ⟨[], by simp [AuditTable.setLock], nofun⟩
    refine ⟨[auditRow E.sha record prevHash], rfl, ?_⟩
    intro row hrow tenant' hne
    obtain rfl := mem_singleton.mp hrow
    simp only [ListAuditChainRow.ofTenant, auditRow, Bool.and_eq_false_iff, beq_eq_false_iff_ne]
    by_contra hboth
    rw [not_or, not_not, not_not] at hboth
    exact hne (Prod.ext hboth.1.symm hboth.2.symm)
  | done result => cases h

theorem auditNext_undisturbed (hij : i ≠ j) (hholds : AuditHolds i t call)
    (h : auditNext E now i t call = some (t', call')) (howner : t.lock tenant = some j) :
    t'.lock tenant = some j ∧ tenantRows t'.rows tenant = tenantRows t.rows tenant := by
  rcases auditNext_effect hholds h with rfl | ⟨taken, hfree, rfl⟩ | ⟨held, hheld, added, rfl, hadded⟩
  · exact ⟨howner, rfl⟩
  · have hne : tenant ≠ taken := by
      rintro rfl
      rw [hfree] at howner
      cases howner
    exact ⟨(Function.update_of_ne hne _ _).trans howner, rfl⟩
  · have hne : tenant ≠ held := by
      rintro rfl
      rw [hheld] at howner
      exact hij (Option.some.inj howner)
    refine ⟨(Function.update_of_ne hne _ _).trans howner, ?_⟩
    have hnone : added.filter (fun row => row.ofTenant tenant) = [] :=
      filter_eq_nil_iff.mpr fun row hrow => by simp [hadded row hrow tenant hne]
    simp [tenantRows, hnone]

theorem latestAuditRowHash_congr {rows rows' : List ListAuditChainRow}
    (h : tenantRows rows' tenant = tenantRows rows tenant) :
    latestAuditRowHash rows' tenant = latestAuditRowHash rows tenant := by
  simp [latestAuditRowHash, listAuditChain, h]

section

variable (hholds : AuditHolds i t call) (h : auditNext E now i t call = some (t', call'))
include hholds h

theorem auditNext_holds : AuditHolds i t' call' := by
  cases call with
  | called record =>
    simp only [auditNext] at h
    split at h
    · cases h
      trivial
    next found hfound =>
    cases h
    obtain ⟨prepared, hprepared, ⟨existing, -, rfl⟩ | ⟨-, rfl⟩⟩ := lookupAudit_cases hfound
    · trivial
    · have hpayload := prepareAuditRecord_payload hprepared
      simpa [AuditHolds, AuditRecord.plain, setAuditRecordDefaults, payloadDocument, hpayload]
        using hholds
  | absent record =>
    simp only [auditNext] at h
    split_ifs at h
    cases h
    exact ⟨hholds, Function.update_self _ _ _⟩
  | locked record =>
    cases h
    exact ⟨hholds.1, hholds.2, rfl⟩
  | chained record prevHash =>
    simp only [auditNext] at h
    split_ifs at h <;> cases h <;> trivial
  | refused | written =>
    simp only [auditNext] at h
    split at h <;> cases h <;> trivial
  | done result => cases h

theorem auditNext_intact (hintact : InOrder t.rows tenant → Intact E.sha t.rows tenant)
    (horder : InOrder t'.rows tenant) : Intact E.sha t'.rows tenant := by
  by_cases hsame : tenantRows t'.rows tenant = tenantRows t.rows tenant
  · simp only [InOrder, Intact, hsame] at hintact horder ⊢
    exact hintact horder
  cases call with
  | chained record prevHash =>
    simp only [auditNext] at h
    split_ifs at h <;> cases h
    · exact absurd rfl hsame
    cases htenant : (auditRow E.sha record prevHash).ofTenant tenant with
    | false => exact absurd (tenantRows_concat_other htenant) hsame
    | true =>
      obtain ⟨hplain, -, hprev⟩ := hholds
      have heq : record.tenant = tenant := by
        simp only [ListAuditChainRow.ofTenant, auditRow, Bool.and_eq_true, beq_iff_eq] at htenant
        exact Prod.ext htenant.1 htenant.2
      rw [heq] at hprev
      exact (hintact horder.of_concat).concat hplain htenant horder.of_concat hprev
  | called record | refused record | written record =>
    simp only [auditNext] at h
    split at h <;> cases h <;> exact absurd rfl hsame
  | absent record =>
    simp only [auditNext] at h
    split_ifs at h
    cases h
    exact absurd rfl hsame
  | locked record =>
    cases h
    exact absurd rfl hsame
  | done result => cases h

end

theorem auditOutline [DecidableEq ι] (E : AuditEnv) (tenant : String × String) :
    Outline (Moves (auditNext (ι := ι) E))
      (fun t => InOrder t.rows tenant → Intact E.sha t.rows tenant) AuditHolds where
  own := by
    rintro i t call t' call' hintact hholds ⟨now, hnext⟩
    exact ⟨auditNext_intact hholds hnext hintact, auditNext_holds hholds hnext⟩
  other := by
    rintro i j t call other t' call' hij - hholds hother ⟨now, hnext⟩
    cases other with
    | called | absent => exact hother
    | locked record =>
      obtain ⟨hplain, howner⟩ := hother
      exact ⟨hplain, (auditNext_undisturbed hij hholds hnext howner).1⟩
    | chained record prevHash =>
      obtain ⟨hplain, howner, hprev⟩ := hother
      obtain ⟨howner', hrows⟩ := auditNext_undisturbed hij hholds hnext howner
      exact ⟨hplain, howner', hprev.trans (latestAuditRowHash_congr hrows).symm⟩
    | refused | written | done => trivial

/-- Calls that commit in the order of `created_at` and `audit_id`, with payloads whose numbers
`jsonb` prints as they are written, leave a chain that verifies, in every interleaving and at
every moment. -/
theorem audit_chain_verifies [DecidableEq ι] (E : AuditEnv) (tenant : String × String)
    (t₀ t : AuditTable ι) (records : ι → AuditRecord) (calls : ι → AuditCall)
    (hbefore : (verifyAuditChain E.sha tenant.1 tenant.2
      (listAuditChain t₀.rows tenant)).reason = "")
    (hruns : Runs (Moves (auditNext E)) t₀ (fun i => .called (records i)) t calls)
    (hplain : ∀ i, (records i).plain = true) (horder : InOrder t.rows tenant) :
    (verifyAuditChain E.sha tenant.1 tenant.2 (listAuditChain t.rows tenant)).brokenAt = "" := by
  have hstart : InOrder t₀.rows tenant → Intact E.sha t₀.rows tenant := by
    intro horder₀
    rw [listAuditChain_of_inOrder horder₀] at hbefore
    obtain ⟨old, new, hrows, hold, -, -, hnew⟩ := linked_of_walkAuditChainFrom hbefore
    exact ⟨old, new, hrows, hold, hnew⟩
  have hintact := ((auditOutline E tenant).runs hruns hstart hplain).1 horder
  exact hintact.verifies horder

/-- A tenant for every plan. -/
def oneTenant : AuditEnv where
  sha := plainSha
  tenantScope _ := .ok (some ("account", "project"))
  nodeRunOwnership _ := .ok ()

/-- Two calls, of which the first reads the clock first. -/
def twoRecords (first : Bool) : AuditRecord where
  auditID := if first then "a" else "b"
  planID := "plan"
  action := .planSignal
  idempotencyKey := if first then "k1" else "k2"

/-- The two calls with their clocks read in order and their transactions in a given order. -/
def twoAudits (order : List Bool) : AuditTable Bool × (Bool → AuditCall) :=
  play (auditNext oneTenant)
    ([(1000, true), (2000, false)] ++ order.flatMap fun i => replicate 4 (0, i))
    (⟨[], fun _ => none⟩, fun i => .called (twoRecords i))

/-- The transactions in the order of the clocks. -/
theorem audit_chain_verifies_two :
    InOrder (twoAudits [true, false]).1.rows ("account", "project") ∧
      (verifyAuditChain plainSha "account" "project"
        (listAuditChain (twoAudits [true, false]).1.rows ("account", "project"))).brokenAt = "" := by
  have horder : InOrder (twoAudits [true, false]).1.rows ("account", "project") := by
    unfold InOrder
    decide +kernel
  exact ⟨horder, audit_chain_verifies oneTenant ("account", "project") ⟨[], fun _ => none⟩ _
    twoRecords _ rfl (Runs.play _ _ .start) (by decide) horder⟩

/-- The call that reads the clock first takes the lock second.  Both rows are committed, and
the chain of the untouched table is broken at the first of them. -/
theorem audit_chain_overtaken : ∃ t calls,
    Runs (Moves (auditNext oneTenant)) ⟨[], fun _ : String × String => none⟩
      (fun i => .called (twoRecords i)) t calls ∧
    t.rows.map ListAuditChainRow.auditID = ["b", "a"] ∧
    (verifyAuditChain plainSha "account" "project"
      (listAuditChain t.rows ("account", "project"))).brokenAt = "a" :=
  ⟨_, _, Runs.play _ ([(1000, true), (2000, false)] ++
      [false, true].flatMap fun i => replicate 4 (0, i)) .start,
    by decide +kernel, by decide +kernel⟩

-- a row whose payload holds `1e+21`, which the column prints without an exponent
example : let number : Number := { digits := 1, exponent := some ⟨"e+", 21⟩ }
    let record := { twoRecords true with payload := some [("n", .num number)] }
    (verifyAuditChain plainSha "account" "project" [auditRow plainSha record ""]).reason =
      "row contents do not match its hash" := by
  decide +kernel

end AgentOS.Store
