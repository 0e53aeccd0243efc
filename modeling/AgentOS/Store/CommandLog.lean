import AgentOS.Store.AuditLog
import Mathlib.Data.List.Dedup
import Mathlib.Data.List.Pairwise

/-!
# The command log

The outbox of plan commands in `internal/repo/persistent/agentos_plan_postgres.go`:
`RecordPlanCommand`, `MarkPlanCommandDelivered`, `MarkPlanCommandFailed` and
`ListRecoverablePlanCommands`, with the unique index and the triggers of the table
`plan_commands`.  A call is a thread whose steps are its SQL statements, and any number of
calls run at once.
-/

namespace AgentOS.Store

open Kit List

/-! ## Commands -/

/-- `PlanCommandStatus`.  `other` is a string outside the declared constants. -/
inductive PlanCommandStatus where
  | pending
  | delivered
  | failed
  | other (name : String)
  deriving DecidableEq

def PlanCommandStatus.text : PlanCommandStatus → String
  | .pending => "pending"
  | .delivered => "delivered"
  | .failed => "failed"
  | .other name => name

structure PlanCommandRecord where
  (commandID planID accountID projectID actorID : String := "")
  action : AuditAction
  idempotencyKey : String := ""
  payload : Payload := none
  status : PlanCommandStatus := .other ""
  failureReason : String := ""
  (createdAt updatedAt : Time := 0)

def planCommandRefFromRecord (command : PlanCommandRecord) : RecordRef where
  planID := command.planID
  accountID := command.accountID
  projectID := command.projectID
  idempotencyKey := command.idempotencyKey

def planCommandIDFromRef (sha : Sha256) (ref : RecordRef) : String :=
  "command:" ++ sha.hex (bytes ((refDocument ref).text Number.text))

def normalizeNewPlanCommandStatus (status : PlanCommandStatus) : Except Err PlanCommandStatus :=
  if status = .other "" then .ok .pending
  else if status ≠ .pending then
    errorf .invalidRunPlan ("new command status must be " ++
      quoted PlanCommandStatus.pending.text ++ ", got " ++ quoted status.text)
  else .ok status

def validatePlanCommandStatus (status : PlanCommandStatus) : Except Err Unit :=
  match status with
  | .pending | .delivered | .failed => .ok ()
  | .other name => errorf .invalidRunPlan ("command status " ++ quoted name ++ " is invalid")

def validatePlanCommandStatusTransition (current next : PlanCommandStatus) : Except Err Unit := do
  validatePlanCommandStatus current
  validatePlanCommandStatus next
  if current = next then .ok ()
  else if current = .delivered then errorf .invalidRunPlan "delivered command is terminal"
  else if next = .pending then
    errorf .invalidRunPlan ("command status cannot move back to " ++
      quoted PlanCommandStatus.pending.text)
  else .ok ()

def validatePlanCommandIdempotency (existing requested : PlanCommandRecord) : Except Err Unit :=
  let belongs (what value : String) : Except Err Unit :=
    errorf .invalidRunPlan ("command idempotency key belongs to " ++ what ++ " " ++ quoted value)
  if existing.planID ≠ requested.planID then belongs "plan" existing.planID
  else if existing.accountID ≠ requested.accountID then belongs "account" existing.accountID
  else if existing.projectID ≠ requested.projectID then belongs "project" existing.projectID
  else if existing.actorID ≠ requested.actorID then belongs "actor" existing.actorID
  else if existing.action ≠ requested.action then belongs "action" existing.action.text
  else if existing.idempotencyKey ≠ requested.idempotencyKey then
    errorf .invalidRunPlan "command idempotency key mismatch"
  else if (payloadDocument existing.payload).text Number.text ≠
      (payloadDocument requested.payload).text Number.text then
    errorf .invalidRunPlan "command idempotency key was reused with a different payload"
  else .ok ()

def auditRecordFromPlanCommand (command : PlanCommandRecord) : AuditRecord where
  planID := command.planID
  accountID := command.accountID
  projectID := command.projectID
  actorID := command.actorID
  action := command.action
  idempotencyKey := command.idempotencyKey
  payload := command.payload

/-! ## The table -/

/-- A row of `plan_commands`. -/
structure PlanCommandRow where
  (commandID planID accountID projectID actorID : String)
  action : AuditAction
  idempotencyKey : String
  payloadJson : JsonColumn
  status : PlanCommandStatus
  failureReason : String
  (createdAt updatedAt : Time)

/-- The columns of the unique index. -/
def PlanCommandRow.ref (row : PlanCommandRow) : RecordRef where
  planID := row.planID
  accountID := row.accountID
  projectID := row.projectID
  idempotencyKey := row.idempotencyKey

def PlanCommandRow.Apart (row row' : PlanCommandRow) : Prop :=
  row.commandID ≠ row'.commandID ∧ row.ref ≠ row'.ref

instance : Std.Symm PlanCommandRow.Apart where
  symm _ _ h := ⟨h.1.symm, h.2.symm⟩

structure CommandTable where
  rows : List PlanCommandRow
  unique : rows.Pairwise PlanCommandRow.Apart

variable (rows : List PlanCommandRow)

/-- The row of a reference. -/
def findCommandRow (ref : RecordRef) : Option PlanCommandRow := rows.find? fun row => row.ref = ref

def planCommandRecordFromRow (row : PlanCommandRow) : Except Err PlanCommandRecord := do
  let payload ← decodePayload "AgentOSPlanRepo - scanPlanCommand - decode payload" row.payloadJson
  return {
    commandID := row.commandID, planID := row.planID, accountID := row.accountID,
    projectID := row.projectID, actorID := row.actorID, action := row.action,
    idempotencyKey := row.idempotencyKey, payload, status := row.status,
    failureReason := row.failureReason, createdAt := row.createdAt, updatedAt := row.updatedAt }

def getPlanCommand (ref : RecordRef) : Except Err (Option PlanCommandRecord) := do
  validateRecordRef "command" ref
  match findCommandRow rows ref with
  | none => return none
  | some row => return some (← planCommandRecordFromRow row)

/-- The row that `InsertPlanCommand` inserts for a command.  A column keeps microseconds, and
the payload as `jsonb` prints it. -/
def commandRow (command : PlanCommandRecord) : PlanCommandRow where
  commandID := command.commandID
  planID := command.planID
  accountID := command.accountID
  projectID := command.projectID
  actorID := command.actorID
  action := command.action
  idempotencyKey := command.idempotencyKey
  payloadJson := some ((payloadDocument command.payload).map Number.numeric)
  status := command.status
  failureReason := command.failureReason
  createdAt := truncateMicro command.createdAt
  updatedAt := truncateMicro command.updatedAt

def commandConflict (row : PlanCommandRow) : Bool :=
  rows.any fun row' => row'.commandID == row.commandID || row'.ref == row.ref

def CommandTable.insert (table : CommandTable) (row : PlanCommandRow)
    (h : commandConflict table.rows row = false) : CommandTable where
  rows := table.rows ++ [row]
  unique := by
    rw [pairwise_append]
    refine ⟨table.unique, pairwise_singleton _ _, fun a ha b hb => ?_⟩
    obtain rfl := mem_singleton.mp hb
    have hnone := any_eq_false.mp h a ha
    simpa [PlanCommandRow.Apart, not_or] using hnone

def jsonbEq : JsonColumn → JsonColumn → Bool
  | some d, some d' => Document.eqBy Number.same d d'
  | none, none => true
  | _, _ => false

/-- The triggers of an update of `status`, `failure_reason` and `updated_at`:
`enforce_delivered_plan_command_audit`, `protect_plan_command_identity` and
`enforce_plan_command_status_lifecycle`. -/
def commandTriggers (audits : List ListAuditChainRow) (old new : PlanCommandRow) :
    Except Err Unit :=
  if new.status = .delivered ∧ ¬ audits.any (fun audit =>
      audit.planID == new.planID && audit.accountID == new.accountID &&
      audit.projectID == new.projectID && audit.actorID == new.actorID &&
      audit.action == new.action.text && audit.idempotencyKey == new.idempotencyKey &&
      jsonbEq audit.payloadJson new.payloadJson) then
    .error (.external "delivered plan command requires matching audit record")
  else if old.status = .delivered ∧ old.failureReason ≠ new.failureReason then
    .error (.external "delivered plan command failure reason is terminal")
  else if old.status = new.status ∧ new.status ≠ .failed ∧
      old.failureReason ≠ new.failureReason then
    .error (.external "plan command failure reason can only change with a failed lifecycle")
  else if old.status = .delivered ∧ new.status ≠ .delivered then
    .error (.external "delivered plan command is terminal")
  else if old.status ≠ .pending ∧ new.status = .pending then
    .error (.external "plan command status cannot move back to pending")
  else .ok ()

def PlanCommandRow.withStatus (row : PlanCommandRow) (status : PlanCommandStatus)
    (reason : String) (now : Time) : PlanCommandRow :=
  { row with status, failureReason := reason, updatedAt := truncateMicro now }

def CommandTable.replace (table : CommandTable) (ref : RecordRef) (status : PlanCommandStatus)
    (reason : String) (now : Time) : CommandTable where
  rows := table.rows.map fun row => if row.ref = ref then row.withStatus status reason now else row
  unique := by
    refine pairwise_map.mpr (table.unique.imp ?_)
    intro a b h
    split_ifs <;> exact h

def CommandTable.update (table : CommandTable) (audits : List ListAuditChainRow)
    (ref : RecordRef) (status : PlanCommandStatus) (reason : String) (now : Time) :
    Except Err (CommandTable × PlanCommandRow) :=
  match findCommandRow table.rows ref with
  | none => .error (.external "no rows in result set")
  | some row => do
      let new := row.withStatus status reason now
      commandTriggers audits row new
      return (table.replace ref status reason now, new)

/-! ## Recovery -/

structure PlanCommandScope where
  (planID accountID projectID : String := "")
  action : AuditAction := .other ""
  statuses : List PlanCommandStatus := []
  limit : Int := 0

def recoverablePlanCommandStatuses (scope : PlanCommandScope) :
    Except Err (List PlanCommandStatus) :=
  if scope.limit < 0 then errorf .invalidRunPlan "command limit must be non-negative"
  else if (scope.accountID = "") ≠ (scope.projectID = "") then
    errorf .invalidPlanScope "command account_id and project_id must be provided together"
  else if scope.statuses = [] then .ok [.pending, .failed]
  else
    match scope.statuses.find? fun status => status ≠ .pending ∧ status ≠ .failed with
    | some status =>
        errorf .invalidRunPlan ("command status " ++ quoted status.text ++ " is not recoverable")
    | none => .ok scope.statuses.dedup

/-- The `WHERE` clause of `ListRecoverablePlanCommands`. -/
def PlanCommandScope.selects (scope : PlanCommandScope) (statuses : List PlanCommandStatus)
    (row : PlanCommandRow) : Bool :=
  (statuses.isEmpty || row.status ∈ statuses) &&
  (scope.planID == "" || row.planID == scope.planID) &&
  (scope.accountID == "" || row.accountID == scope.accountID) &&
  (scope.projectID == "" || row.projectID == scope.projectID) &&
  (scope.action.text == "" || row.action.text == scope.action.text)

def listRecoverablePlanCommands (table : CommandTable) (scope : PlanCommandScope) :
    Except Err (List PlanCommandRecord) := do
  let statuses ← recoverablePlanCommandStatuses scope
  let ordered := (table.rows.filter (scope.selects statuses)).insertionSort fun a b =>
    toLex (a.updatedAt, a.commandID) ≤ toLex (b.updatedAt, b.commandID)
  let limited := if scope.limit ≤ 0 then ordered else ordered.take scope.limit.toNat
  limited.mapM planCommandRecordFromRow

/-! ## The calls -/

/-- The two tables that the calls read and write. -/
structure CommandStore where
  commands : CommandTable
  audits : List ListAuditChainRow

/-- What the plan tables answer. -/
structure CommandEnv where
  sha : Sha256
  tenantScope : String → Except Err (Option (String × String))

/-- Where a call stands. -/
inductive CommandCall where
  /-- `RecordPlanCommand` is called. -/
  | recording (command : PlanCommandRecord)
  /-- The lookup found no row, and the command has its defaults. -/
  | inserting (command : PlanCommandRecord)
  /-- The insert violated a unique index. -/
  | refused (command : PlanCommandRecord)
  | recorded (result : Except Err (PlanCommandRecord × Bool))
  /-- `updatePlanCommandStatus` is called. -/
  | marking (ref : RecordRef) (status : PlanCommandStatus) (reason : String)
  /-- The command is read, and its audit record is to be read. -/
  | auditing (command : PlanCommandRecord) (ref : RecordRef) (status : PlanCommandStatus)
      (reason : String)
  /-- The checks have passed. -/
  | updating (ref : RecordRef) (status : PlanCommandStatus) (reason : String)
  | marked (result : Except Err PlanCommandRecord)

def preparePlanCommandRecord (E : CommandEnv) (command : PlanCommandRecord) :
    Except Err PlanCommandRecord := do
  if command.planID = "" then errorf .invalidRunPlan "plan id is required"
  else if command.action = .other "" then errorf .invalidRunPlan "command action is required"
  else if command.idempotencyKey = "" then
    errorf .invalidRunPlan "command idempotency key is required"
  else
    match ← E.tenantScope command.planID with
    | none => errorf .planRouteNotFound command.planID
    | some tenant => return { command with accountID := tenant.1, projectID := tenant.2 }

def setPlanCommandRecordDefaults (E : CommandEnv) (now : Time) (command : PlanCommandRecord) :
    Except Err PlanCommandRecord := do
  let status ← normalizeNewPlanCommandStatus command.status
  let createdAt := if command.createdAt.isZero then now else command.createdAt
  return { command with
    commandID := if command.commandID = "" then
        planCommandIDFromRef E.sha (planCommandRefFromRecord command)
      else command.commandID
    status
    createdAt
    updatedAt := if command.updatedAt.isZero then createdAt else command.updatedAt
    payload := some (command.payload.getD []) }

def lookupCommand (E : CommandEnv) (now : Time) (rows : List PlanCommandRow)
    (command : PlanCommandRecord) : Except Err CommandCall := do
  let command ← preparePlanCommandRecord E command
  match ← getPlanCommand rows (planCommandRefFromRecord command) with
  | some existing =>
      validatePlanCommandIdempotency existing command
      return .recorded (.ok (existing, false))
  | none => return .inserting (← setPlanCommandRecordDefaults E now command)

def resolveCommandConflict (command : PlanCommandRecord) : Except Err PlanCommandRecord := do
  match ← getPlanCommand rows (planCommandRefFromRecord command) with
  | none => .error (.within "AgentOSPlanRepo - RecordPlanCommand - insert" (.external "23505"))
  | some existing =>
      validatePlanCommandIdempotency existing command
      return existing

def readCommand (ref : RecordRef) (status : PlanCommandStatus)
    (reason : String) : Except Err CommandCall := do
  validateRecordRef "command" ref
  match ← getPlanCommand rows ref with
  | none => errorf .invalidRunPlan ("command " ++ quoted ref.idempotencyKey)
  | some command =>
      validatePlanCommandStatusTransition command.status status
      if status = .delivered then return .auditing command ref status reason
      else return .updating ref status reason

def validatePlanCommandDeliveredAudit (audits : List ListAuditChainRow)
    (command : PlanCommandRecord) : Except Err Unit := do
  let record := auditRecordFromPlanCommand command
  match ← getAuditRecord audits (auditRefFromRecord record) with
  | none =>
      errorf .invalidRunPlan
        ("delivered command requires durable audit " ++ quoted command.idempotencyKey)
  | some audit => validateAuditIdempotency audit record

/-- The next statement of a call, at an instant of its clock. -/
def commandNext {ι : Type} (E : CommandEnv) (now : Time) (_ : ι) (s : CommandStore) :
    CommandCall → Option (CommandStore × CommandCall)
  | .recording command =>
      match lookupCommand E now s.commands.rows command with
      | .error err => some (s, .recorded (.error err))
      | .ok call => some (s, call)
  | .inserting command =>
      if h : commandConflict s.commands.rows (commandRow command) = false then
        -- the caller's own record is answered, not the row
        some ({ s with commands := s.commands.insert (commandRow command) h },
          .recorded (.ok (command, true)))
      else some (s, .refused command)
  | .refused command =>
      match resolveCommandConflict s.commands.rows command with
      | .error err => some (s, .recorded (.error err))
      -- `RecordPlanCommand` reports the row of another call as created
      | .ok existing => some (s, .recorded (.ok (existing, true)))
  | .recorded _ => none
  | .marking ref status reason =>
      match readCommand s.commands.rows ref status reason with
      | .error err => some (s, .marked (.error err))
      | .ok call => some (s, call)
  | .auditing command ref status reason =>
      match validatePlanCommandDeliveredAudit s.audits command with
      | .error err => some (s, .marked (.error err))
      | .ok () => some (s, .updating ref status reason)
  | .updating ref status reason =>
      match s.commands.update s.audits ref status reason now with
      | .error err => some (s, .marked (.error (.within "AgentOSPlanRepo - scanPlanCommand" err)))
      | .ok (commands, row) => some ({ s with commands }, .marked (planCommandRecordFromRow row))
  | .marked _ => none

/-! ## Delivered commands -/

variable {row : PlanCommandRow} {command : PlanCommandRecord} {scope : PlanCommandScope}
  {listed : List PlanCommandRecord}

section Delivered

variable {E : CommandEnv} {ref : RecordRef} {table table' : CommandTable}
  {audits : List ListAuditChainRow} {status : PlanCommandStatus} {reason : String} {now : Time}
  {rows : List PlanCommandRow}

/-- The stored status of a command is delivered. -/
def Delivered (table : CommandTable) (ref : RecordRef) : Prop :=
  ∃ row ∈ table.rows, row.ref = ref ∧ row.status = .delivered

theorem CommandTable.eq_of_ref {row' : PlanCommandRow} (hrow : row ∈ table.rows)
    (hrow' : row' ∈ table.rows) (h : row.ref = row'.ref) : row = row' := by
  by_contra hne
  exact (table.unique.forall hrow hrow' hne).2 h

theorem findCommandRow_some (h : findCommandRow rows ref = some row) : row ∈ rows ∧ row.ref = ref :=
  ⟨mem_of_find?_eq_some h, by simpa using find?_some h⟩

theorem lookupCommand_cases {now : Time}
    {call : CommandCall} (h : lookupCommand E now rows command = .ok call) :
    ∃ prepared, preparePlanCommandRecord E command = .ok prepared ∧
      ((∃ existing, getPlanCommand rows (planCommandRefFromRecord prepared) = .ok (some existing) ∧
        call = .recorded (.ok (existing, false))) ∨
      (getPlanCommand rows (planCommandRefFromRecord prepared) = .ok none ∧
        ∃ r, planCommandRefFromRecord r = planCommandRefFromRecord prepared ∧
          call = .inserting r)) := by
  obtain ⟨prepared, hprepared, h⟩ := bind_ok h
  refine ⟨prepared, hprepared, ?_⟩
  obtain ⟨found, hfound, h⟩ := bind_ok h
  cases found with
  | some existing =>
    obtain ⟨-, -, h⟩ := bind_ok h
    cases h
    exact .inl ⟨existing, hfound, rfl⟩
  | none =>
    obtain ⟨r, hdefaulted, h⟩ := bind_ok h
    cases h
    refine .inr ⟨hfound, r, ?_, rfl⟩
    obtain ⟨status, -, hdefaulted⟩ := bind_ok hdefaulted
    cases hdefaulted
    rfl

theorem commandTriggers_delivered {old new : PlanCommandRow}
    (h : commandTriggers audits old new = .ok ()) (hold : old.status = .delivered) :
    new.status = .delivered := by
  by_contra hnew
  unfold commandTriggers at h
  rw [if_neg fun hand => hnew hand.1] at h
  split_ifs at h with _ _ hterminal
  exact hterminal ⟨hold, hnew⟩

theorem Delivered.insert (h : Delivered table ref)
    (hfree : commandConflict table.rows row = false) : Delivered (table.insert row hfree) ref := by
  obtain ⟨old, hold, href, hstatus⟩ := h
  exact ⟨old, mem_append_left _ hold, href, hstatus⟩

theorem Delivered.update {ref' : RecordRef} {new : PlanCommandRow} (h : Delivered table ref)
    (hupdate : table.update audits ref' status reason now = .ok (table', new)) :
    Delivered table' ref := by
  obtain ⟨row, hrow, href, hstatus⟩ := h
  unfold CommandTable.update at hupdate
  split at hupdate
  · cases hupdate
  next old hfind =>
  obtain ⟨⟨⟩, htriggers, hupdate⟩ := bind_ok hupdate
  cases hupdate
  refine ⟨_, mem_map.mpr ⟨row, hrow, rfl⟩, ?_⟩
  split_ifs with hsame
  · -- the update is of the delivered row, by the unique index
    obtain ⟨hold, href'⟩ := findCommandRow_some hfind
    obtain rfl : row = old := table.eq_of_ref hrow hold (hsame.trans href'.symm)
    exact ⟨href, commandTriggers_delivered htriggers hstatus⟩
  · exact ⟨href, hstatus⟩

theorem Delivered.next {ι : Type} {i : ι} {s s' : CommandStore} {call call' : CommandCall}
    (h : Delivered s.commands ref) (hnext : commandNext E now i s call = some (s', call')) :
    Delivered s'.commands ref := by
  cases call with
  | recording command | refused command | marking ref status reason
  | auditing command ref status reason =>
    simp only [commandNext] at hnext
    split at hnext <;> cases hnext <;> exact h
  | inserting command =>
    simp only [commandNext] at hnext
    split_ifs at hnext with hfree <;> cases hnext
    · exact h.insert hfree
    · exact h
  | updating ref' status reason =>
    simp only [commandNext] at hnext
    split at hnext
    · cases hnext
      exact h
    · next hupdate =>
      cases hnext
      exact h.update hupdate
  | recorded result | marked result => cases hnext

theorem recoverable_ne_delivered {statuses : List PlanCommandStatus}
    (h : recoverablePlanCommandStatuses scope = .ok statuses) :
    statuses ≠ [] ∧ .delivered ∉ statuses := by
  unfold recoverablePlanCommandStatuses at h
  split_ifs at h with _ _ hnil
  · cases h
    decide
  split at h
  · cases h
  next hnone =>
  cases h
  refine ⟨fun hempty => hnil ?_, fun hmem => ?_⟩
  · exact (dedup_eq_nil _).mp hempty
  · have hkept := find?_eq_none.mp hnone _ (mem_dedup.mp hmem)
    simp at hkept

theorem planCommandRecordFromRow_ref (h : planCommandRecordFromRow row = .ok command) :
    planCommandRefFromRecord command = row.ref := by
  obtain ⟨payload, -, h⟩ := bind_ok h
  cases h
  rfl

theorem mem_of_mapM {α β : Type} {f : α → Except Err β} {l : List α} {l' : List β}
    (h : l.mapM f = .ok l') {b : β} (hb : b ∈ l') : ∃ a ∈ l, f a = .ok b := by
  induction l generalizing l' with
  | nil =>
    cases h
    cases hb
  | cons a l ih =>
    rw [mapM_cons] at h
    obtain ⟨b', hb', h⟩ := bind_ok h
    obtain ⟨tail, htail, h⟩ := bind_ok h
    cases h
    rcases mem_cons.mp hb with rfl | hb
    · exact ⟨a, mem_cons_self, hb'⟩
    · obtain ⟨a', ha', hfa⟩ := ih htail hb
      exact ⟨a', mem_cons_of_mem _ ha', hfa⟩

theorem exists_row_of_recoverable (h : listRecoverablePlanCommands table scope = .ok listed)
    (hmem : command ∈ listed) :
    ∃ row ∈ table.rows, row.ref = planCommandRefFromRecord command ∧ row.status ≠ .delivered := by
  obtain ⟨statuses, hstatuses, h⟩ := bind_ok h
  obtain ⟨hne, hdelivered⟩ := recoverable_ne_delivered hstatuses
  obtain ⟨row, hrow, hrecord⟩ := mem_of_mapM h hmem
  -- neither the limit nor the order adds a row
  have hkept : row ∈ table.rows.filter (scope.selects statuses) := by
    split_ifs at hrow
    · exact (mem_insertionSort _).mp hrow
    · exact (mem_insertionSort _).mp (mem_of_mem_take hrow)
  obtain ⟨hrow, hselects⟩ := mem_filter.mp hkept
  refine ⟨row, hrow, (planCommandRecordFromRow_ref hrecord).symm, fun hstatus => ?_⟩
  simp only [PlanCommandScope.selects, Bool.and_eq_true, Bool.or_eq_true, List.isEmpty_iff,
    decide_eq_true_eq] at hselects
  rcases hselects.1.1.1.1 with hnil | hmem
  · exact hne hnil
  · exact hdelivered (hstatus ▸ hmem)

theorem Delivered.not_listed (h : Delivered table ref)
    (hlisted : listRecoverablePlanCommands table scope = .ok listed) (hmem : command ∈ listed) :
    planCommandRefFromRecord command ≠ ref := by
  intro href
  obtain ⟨row, hrow, hrowref, hstatus⟩ := exists_row_of_recoverable hlisted hmem
  obtain ⟨row', hrow', href', hstatus'⟩ := h
  obtain rfl := table.eq_of_ref hrow hrow' (hrowref.trans (href.trans href'.symm))
  exact hstatus hstatus'

end Delivered

/-- Once the stored status of a command is delivered, it is delivered in every later state of
any calls, wherever they stood when it was, and the command is not listed for recovery. -/
theorem delivered_terminal {ι : Type} [DecidableEq ι] (E : CommandEnv) (s₀ s : CommandStore)
    (calls₀ calls : ι → CommandCall) (ref : RecordRef) (hdelivered : Delivered s₀.commands ref)
    (hruns : Runs (Moves (commandNext E)) s₀ calls₀ s calls) :
    Delivered s.commands ref ∧
      ∀ scope listed, listRecoverablePlanCommands s.commands scope = .ok listed →
        ∀ command ∈ listed, planCommandRefFromRecord command ≠ ref := by
  have hstep (i : ι) (s : CommandStore) (call : CommandCall) (s' : CommandStore)
      (call' : CommandCall) (h : Delivered s.commands ref)
      (hmove : Moves (commandNext E) i s call s' call') : Delivered s'.commands ref := by
    obtain ⟨now, hnext⟩ := hmove
    exact h.next hnext
  have hlater : Delivered s.commands ref := hruns.invariant hstep hdelivered
  exact ⟨hlater, fun scope listed hlisted command hmem => hlater.not_listed hlisted hmem⟩

/-- A recorded command with its audit record. -/
def signalCommand (status : PlanCommandStatus) : CommandStore where
  commands := ⟨[commandRow { commandID := "c", planID := "plan", accountID := "account",
                             projectID := "project", actorID := "actor", action := .planSignal,
                             idempotencyKey := "k1", payload := some [], status }],
    pairwise_singleton _ _⟩
  audits := [rowBehind plainSha "" "k1" 1000]

/-- The reference of the recorded command. -/
def signalRef : RecordRef := ⟨"plan", "account", "project", "k1"⟩

/-- A call that has passed its checks before the command was delivered. -/
theorem delivered_terminal_late : Delivered (signalCommand .delivered).commands signalRef ∧
    Delivered (play (commandNext ⟨plainSha, fun _ => .ok none⟩) [(5000, ())]
      (signalCommand .delivered, fun _ => .updating signalRef .failed "timeout")).1.commands
      signalRef := by
  have hstored : Delivered (signalCommand .delivered).commands signalRef :=
    ⟨_, mem_singleton.mpr rfl, rfl, rfl⟩
  exact ⟨hstored, (delivered_terminal _ _ _ _ _ signalRef hstored (Runs.play _ _ .start)).1⟩

end AgentOS.Store
