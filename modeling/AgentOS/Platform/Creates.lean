import AgentOS.Platform.Actions
import AgentOS.Platform.Worksets

/-!
# Concurrent creates

`createPlatformRecord` of `internal/repo/persistent/agentos_process_platform_helpers.go`, the
create of the Postgres repositories for actions and for worksets.  A call looks for its
idempotency key, then for its record id, and then inserts.  When the insert meets a unique
index, it reads the key again, but in the table of the status updates, where a create leaves
nothing.
-/

namespace AgentOS.Platform

open Kit List

/-! ## The tables -/

structure PlatformScope where
  (recordID accountID projectID idempotencyKey : String)
  deriving DecidableEq

/-- The methods of `platformTable` that a create uses, with the checks of its caller. -/
structure PlatformTable (Spec Status : Type) where
  /-- The check of the spec before the first statement. -/
  validate : Spec → Except Err Unit
  recordScope : Spec → PlatformScope
  normalizeStatus : Spec → Status → Status
  validateStart : Spec → Spec → Except Err Unit
  alreadyExists : PlatformScope → Err

/-- A row of `governed_actions` or of `worksets`. -/
structure PlatformRow (Spec Status : Type) where
  spec : Spec
  status : Status

/-- The rows, and the rows of `governed_action_status_updates` or of
`workset_status_updates`. -/
structure PlatformRows (Spec Status : Type) where
  rows : List (PlatformRow Spec Status)
  statusUpdates : List (PlatformScope × Status)

namespace PlatformTable

variable {Spec Status : Type} (table : PlatformTable Spec Status)

def hasKey (scope : PlatformScope) (row : PlatformRow Spec Status) : Bool :=
  (table.recordScope row.spec).accountID = scope.accountID &&
    (table.recordScope row.spec).projectID = scope.projectID &&
    (table.recordScope row.spec).idempotencyKey = scope.idempotencyKey

def hasID (scope : PlatformScope) (row : PlatformRow Spec Status) : Bool :=
  (table.recordScope row.spec).recordID = scope.recordID

/-- The row refuses an insert: the primary key is the record id, and the idempotency key is
unique inside the tenant. -/
def conflicts (scope : PlatformScope) (row : PlatformRow Spec Status) : Bool :=
  table.hasID scope row || table.hasKey scope row

variable (s : PlatformRows Spec Status)

def selectRecordByKey (scope : PlatformScope) : Option (PlatformRow Spec Status) :=
  s.rows.find? (table.hasKey scope)

def selectRecordByID (scope : PlatformScope) : Option (PlatformRow Spec Status) :=
  s.rows.find? (table.hasID scope)

def insertRecord (spec : Spec) (status : Status) : Option (PlatformRows Spec Status) :=
  if s.rows.any (table.conflicts (table.recordScope spec)) then none
  else some { s with rows := s.rows ++ [⟨spec, status⟩] }

end PlatformTable

/-! ## A create -/

/-- Where a create stands.  A call answers the status and whether the record is new. -/
inductive CreateCall (Status : Type) where
  | called
  | selectsByID
  | inserts
  | refused
  | done (answer : Except Err (Status × Bool))

namespace PlatformTable

variable {ι Spec Status : Type} (table : PlatformTable Spec Status)

def replay (spec : Spec) (row : PlatformRow Spec Status) : Except Err (Status × Bool) := do
  table.validateStart row.spec spec
  .ok (row.status, false)

def remaining : CreateCall Status → Nat
  | .called => 4
  | .selectsByID => 3
  | .inserts => 2
  | .refused => 1
  | .done _ => 0

/-- No insert is refused. -/
def unrefused (_ : Unit) : CreateCall Status → Bool
  | .refused => false
  | _ => true

end PlatformTable

section Agree

variable {ι Spec Status : Type} {table : PlatformTable Spec Status} {spec : Spec}
  {statuses : ι → Status} {s s' : PlatformRows Spec Status} {l l' : CreateCall Status} {i : ι}

def createdStatus (table : PlatformTable Spec Status) (spec : Spec)
    (s : PlatformRows Spec Status) : Option Status :=
  (s.rows.find? (table.conflicts (table.recordScope spec))).map PlatformRow.status

def OwnsKeys (table : PlatformTable Spec Status) (spec : Spec) (s : PlatformRows Spec Status) :
    Prop :=
  ∃ status, ∀ row ∈ s.rows, table.conflicts (table.recordScope spec) row = true →
    row = ⟨spec, status⟩

theorem lookups_absent (h : createdStatus table spec s = none) :
    table.selectRecordByKey s (table.recordScope spec) = none ∧
      table.selectRecordByID s (table.recordScope spec) = none ∧
      s.rows.any (table.conflicts (table.recordScope spec)) = false := by
  have hnone : ∀ row ∈ s.rows, ¬table.conflicts (table.recordScope spec) row = true := by
    simpa [createdStatus] using h
  refine ⟨find?_eq_none.mpr fun row hrow hkey => hnone row hrow ?_,
    find?_eq_none.mpr fun row hrow hid => hnone row hrow ?_, ?_⟩
  · simp [PlatformTable.conflicts, hkey]
  · simp [PlatformTable.conflicts, hid]
  · simpa using hnone

theorem inserted (status : Status) (h : createdStatus table spec s = none) :
    table.insertRecord s spec status = some { s with rows := s.rows ++ [⟨spec, status⟩] } ∧
      createdStatus table spec { s with rows := s.rows ++ [⟨spec, status⟩] } = some status ∧
      OwnsKeys table spec { s with rows := s.rows ++ [⟨spec, status⟩] } := by
  obtain ⟨-, -, hany⟩ := lookups_absent h
  have hnone : s.rows.find? (table.conflicts (table.recordScope spec)) = none := by
    simpa [createdStatus] using h
  refine ⟨by simp [PlatformTable.insertRecord, hany], ?_, status, fun row hrow hconflicts => ?_⟩
  · rw [createdStatus, find?_append, hnone]
    simp [PlatformTable.conflicts, PlatformTable.hasID]
  · rcases mem_append.mp hrow with hrow | hrow
    · exact absurd hconflicts (find?_eq_none.mp hnone row hrow)
    · exact mem_singleton.mp hrow

variable {a : Unit}

end Agree

/-! ## Actions and worksets -/

section Tables

variable {Text : Type} [DecidableEq Text]

end Tables

end AgentOS.Platform
