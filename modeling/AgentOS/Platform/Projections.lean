import AgentOS.Core.Basic

/-!
# Records and their status projections

Governed actions, worksets and processes are records of one kind: a spec that never changes,
and a status that is replaced as a whole.  Their in-memory stores (`memory_store.go` of
`agentosaction`, `agentosbatch` and `agentosprocess`) have the same maps and the same three
methods, here `Family.create`, `Family.get` and `Family.update`.  A `Family` is what differs
between them: the checks, their texts, and the identity that a status takes from its spec.
-/

namespace AgentOS.Platform

/-! ## References -/

/-- `ActionRef`, `WorksetRef` and `Ref`: a record inside an account and a project. -/
structure RecordRef where
  (recordID accountID projectID : String)

/-- `ValidateActionRef`, `ValidateWorksetRef` and `ValidateProcessRef`. -/
def RecordRef.validate (sentinel : Sentinel) (noun : String) (ref : RecordRef) : Except Err Unit :=
  if ref.recordID = "" then errorf sentinel (noun ++ " id is required")
  else if ref.accountID = "" then errorf sentinel "account id is required"
  else if ref.projectID = "" then errorf sentinel "project id is required"
  else .ok ()

structure ResourceRef where
  (kind resourceID accountID projectID : String := "")
  deriving DecidableEq, Inhabited

def validateResourceRef (ref : ResourceRef) : Except Err Unit :=
  if ref.kind = "" then errorf .invalidResourceRef "resource kind is required"
  else if ref.resourceID = "" then errorf .invalidResourceRef "resource id is required"
  else if ref.accountID = "" then errorf .invalidResourceRef "account id is required"
  else if ref.projectID = "" then errorf .invalidResourceRef "project id is required"
  else .ok ()

def wrapErr (sentinel : Sentinel) (checked : Except Err Unit) : Except Err Unit :=
  match checked with
  | .ok () => .ok ()
  | .error err => .error (.within sentinel.text err)

def validateTenantResource (sentinel : Sentinel) (noun accountID projectID : String)
    (resource : ResourceRef) : Except Err Unit :=
  if resource.kind = "" ∧ resource.resourceID = "" ∧ resource.accountID = "" ∧
      resource.projectID = "" then .ok ()
  else do
    wrapErr sentinel (validateResourceRef resource)
    if resource.accountID ≠ accountID ∨ resource.projectID ≠ projectID then
      errorf sentinel ("resource must be in " ++ noun ++ " tenant scope")
    else .ok ()

def validateTenantScope (sentinel : Sentinel) (noun accountID projectID processID : String)
    (resource : ResourceRef) : Except Err Unit :=
  if processID = "" ∧ resource.kind = "" then
    errorf sentinel "process id or resource ref is required"
  else validateTenantResource sentinel noun accountID projectID resource

structure ActorRef where
  (kind actorID : String := "")
  deriving DecidableEq, Inhabited

structure LedgerDataRef where
  (kind uri artifactID mediaType digest : String := "")
  metadata : List (String × String) := []
  deriving DecidableEq, Inhabited

def orNow (now ts : Time) : Time := if ts.isZero then now else ts

def refuse {R A : Type} (checked : Except Err R) : Except (Except Err A) R :=
  match checked with
  | .error err => .error (.error err)
  | .ok r => .ok r

theorem refuse_ok {R A : Type} {checked : Except Err R} {r : R} :
    refuse (A := A) checked = .ok r ↔ checked = .ok r := by
  cases checked <;> simp [refuse]

theorem refuse_error {R A : Type} {checked : Except Err R} {answer : Except Err A}
    (h : refuse checked = .error answer) : ∃ err, answer = .error err := by
  cases checked with
  | error err =>
    cases h
    exact ⟨err, rfl⟩
  | ok r => cases h

/-! ## The maps -/

structure StartKey where
  (accountID projectID idempotencyKey : String)
  deriving DecidableEq

structure StatusKey where
  (recordID idempotencyKey : String)
  deriving DecidableEq

structure Projections (Spec Status : Type) where
  specs : String → Option Spec
  statuses : String → Option Status
  startKeys : StartKey → Option String
  statusKeys : StatusKey → Option Status

variable {Spec Status : Type}

/-- An empty store. -/
def Projections.new : Projections Spec Status where
  specs _ := none
  statuses _ := none
  startKeys _ := none
  statusKeys _ := none

/-- Every status key belongs to a record. -/
def Projections.Kept (s : Projections Spec Status) : Prop :=
  ∀ key, s.statusKeys key ≠ none → s.specs key.recordID ≠ none

theorem Projections.new_kept : (Projections.new : Projections Spec Status).Kept :=
  fun _ h => absurd rfl h

structure Family (Spec Status : Type) where
  /-- The id of a record. -/
  recordID : Spec → String
  /-- The key that a record is created under. -/
  startKey : Spec → StartKey
  /-- The id of the record of a status. -/
  statusID : Status → String
  /-- The check of a reference. -/
  checkRef : RecordRef → Except Err Unit
  /-- The check of a reference against the record's tenant. -/
  checkTenant : RecordRef → Spec → Except Err Unit
  /-- The check of an update before the store is read. -/
  checkInput : Status → String → Except Err Unit
  /-- The check of a new status against the record. -/
  checkStatus : Status → Spec → Except Err Unit
  /-- The status with the identity of the record. -/
  normalize : Spec → Status → Status
  /-- The error of a record that is not there. -/
  notFound : String → Err

namespace Family

variable (family : Family Spec Status)

/-! ## The methods -/

def stored (s : Projections Spec Status) (key : StatusKey) (prepared : Status) :
    Projections Spec Status :=
  { s with
    statuses := Function.update s.statuses key.recordID (some prepared)
    statusKeys := Function.update s.statusKeys key (some prepared) }

def claimed (s : Projections Spec Status) (spec : Spec) (prepared : Status) :
    Projections Spec Status :=
  { s with
    specs := Function.update s.specs (family.recordID spec) (some spec)
    statuses := Function.update s.statuses (family.recordID spec) (some prepared)
    startKeys := Function.update s.startKeys (family.startKey spec) (some (family.recordID spec)) }

/-- `CreateAction`, `CreateWorkset` and `CreateProcess` after the check of their input.  The
answer says whether the record is new. -/
def create [Inhabited Spec] [Inhabited Status] (checkStart : Spec → Spec → Except Err Unit)
    (s : Projections Spec Status) (spec : Spec) (status : Status) :
    Projections Spec Status × Except Err (Status × Bool) :=
  let replay (id : String) (existing : Spec) : Except Err (Status × Bool) := do
    checkStart existing spec
    .ok ((s.statuses id).getD default, false)
  match s.startKeys (family.startKey spec) with
  | some id => (s, replay id ((s.specs id).getD default))
  | none =>
    match s.specs (family.recordID spec) with
    | some existing => (s, replay (family.recordID spec) existing)
    | none =>
      let prepared := family.normalize spec status
      (family.claimed s spec prepared, .ok (prepared, true))

def get [Inhabited Status] (s : Projections Spec Status) (ref : RecordRef) :
    Except Err (Option (Spec × Status)) := do
  family.checkRef ref
  match s.specs ref.recordID with
  | none => .ok none
  | some spec => do
    family.checkTenant ref spec
    .ok (some (spec, (s.statuses ref.recordID).getD default))

def require [Inhabited Status] (s : Projections Spec Status) (ref : RecordRef) :
    Except Err (Spec × Status) := do
  match ← family.get s ref with
  | none => .error (family.notFound ref.recordID)
  | some found => .ok found

def replace (s : Projections Spec Status) (status : Status) (key : StatusKey) :
    Projections Spec Status × Except Err Status :=
  match s.statusKeys key with
  | some existing => (s, .ok existing)
  | none =>
    match s.specs key.recordID with
    | none => (s, .error (family.notFound key.recordID))
    | some spec =>
      match family.checkStatus status spec with
      | .error err => (s, .error err)
      | .ok () =>
        let prepared := family.normalize spec status
        (stored s key prepared, .ok prepared)

def update (s : Projections Spec Status) (status : Status) (idempotencyKey : String) :
    Projections Spec Status × Except Err Status :=
  match family.checkInput status idempotencyKey with
  | .error err => (s, .error err)
  | .ok () => family.replace s status ⟨family.statusID status, idempotencyKey⟩

/-- The store holds a record with this status. -/
structure Holds (s : Projections Spec Status) (spec : Spec) (status : Status) : Prop where
  spec_eq : s.specs (family.recordID spec) = some spec
  status_eq : s.statuses (family.recordID spec) = some status
  statusID : family.statusID status = family.recordID spec

/-! ## What they do -/

variable {family} {s s' : Projections Spec Status} {spec : Spec} {status prepared : Status}
  {idempotencyKey : String} {ref : RecordRef}

variable (family) in
theorem update_cases (s : Projections Spec Status) (status : Status) (idempotencyKey : String) :
    (family.update s status idempotencyKey).1 = s ∨
      ∃ spec, s.statusKeys ⟨family.statusID status, idempotencyKey⟩ = none ∧
        s.specs (family.statusID status) = some spec ∧
        family.update s status idempotencyKey =
          (stored s ⟨family.statusID status, idempotencyKey⟩ (family.normalize spec status),
            .ok (family.normalize spec status)) := by
  unfold update
  split
  · exact .inl rfl
  unfold replace
  split
  · exact .inl rfl
  rename_i hkey
  split
  · exact .inl rfl
  rename_i spec hspec
  split
  · exact .inl rfl
  · exact .inr ⟨spec, hkey, hspec, rfl⟩

theorem update_stores (hinput : family.checkInput status idempotencyKey = .ok ())
    (hkey : s.statusKeys ⟨family.statusID status, idempotencyKey⟩ = none)
    (hspec : s.specs (family.statusID status) = some spec)
    (hstatus : family.checkStatus status spec = .ok ()) :
    family.update s status idempotencyKey =
      (stored s ⟨family.statusID status, idempotencyKey⟩ (family.normalize spec status),
        .ok (family.normalize spec status)) := by
  simp [update, hinput, replace, hkey, hspec, hstatus]

theorem update_replayed {existing : Status}
    (hinput : family.checkInput status idempotencyKey = .ok ())
    (hkey : s.statusKeys ⟨family.statusID status, idempotencyKey⟩ = some existing) :
    family.update s status idempotencyKey = (s, .ok existing) := by
  simp [update, hinput, replace, hkey]

theorem Holds.update {next : Status} (idempotencyKey : String)
    (hnormal : family.statusID (family.normalize spec next) = family.recordID spec)
    (hid : family.statusID next = family.recordID spec) (h : family.Holds s spec status) :
    (family.update s next idempotencyKey).1 = s ∨
      family.Holds (family.update s next idempotencyKey).1 spec (family.normalize spec next) := by
  rcases family.update_cases s next idempotencyKey with hsame | ⟨spec', -, hspec', hupdate⟩
  · exact .inl hsame
  rw [hid, h.spec_eq] at hspec'
  cases hspec'
  rw [hupdate, hid]
  exact .inr ⟨h.spec_eq, Function.update_self .., hnormal⟩

/-- An update of another record, or under a known key, leaves the record alone. -/
theorem Holds.update_other (next : Status) (idempotencyKey : String)
    (h : family.Holds s spec status) (hknown : family.statusID next = family.recordID spec →
      s.statusKeys ⟨family.recordID spec, idempotencyKey⟩ ≠ none) :
    family.Holds (family.update s next idempotencyKey).1 spec status := by
  rcases family.update_cases s next idempotencyKey with hsame | ⟨spec', hnew, -, hupdate⟩
  · rwa [hsame]
  have hne : family.recordID spec ≠ family.statusID next := fun hid => hknown hid.symm (hid ▸ hnew)
  rw [hupdate]
  exact ⟨h.spec_eq, (Function.update_of_ne hne ..).trans h.status_eq, h.statusID⟩

variable (family) in
theorem update_specs (s : Projections Spec Status) (status : Status) (idempotencyKey : String) :
    (family.update s status idempotencyKey).1.specs = s.specs := by
  rcases family.update_cases s status idempotencyKey with hsame | ⟨spec, -, -, hupdate⟩
  · rw [hsame]
  · rw [hupdate]
    rfl

theorem replay_not_created {checked : Except Err Unit} : (do
    checked
    .ok (status, false) : Except Err (Status × Bool)) ≠ .ok (prepared, true) := by
  intro h
  obtain ⟨-, -, hold⟩ := bind_ok h
  cases hold

variable (family) in
theorem create_cases [Inhabited Spec] [Inhabited Status]
    (checkStart : Spec → Spec → Except Err Unit) (s : Projections Spec Status) (spec : Spec)
    (status : Status) :
    ((family.create checkStart s spec status).1 = s ∧
        ∀ prepared, (family.create checkStart s spec status).2 ≠ .ok (prepared, true)) ∨
      (s.startKeys (family.startKey spec) = none ∧ s.specs (family.recordID spec) = none ∧
        family.create checkStart s spec status =
          (family.claimed s spec (family.normalize spec status),
            .ok (family.normalize spec status, true))) := by
  unfold create
  split
  · exact .inl ⟨rfl, fun _ => replay_not_created⟩
  rename_i hkey
  split
  · exact .inl ⟨rfl, fun _ => replay_not_created⟩
  · rename_i hspec
    exact .inr ⟨hkey, hspec, rfl⟩

theorem create_created [Inhabited Spec] [Inhabited Status]
    {checkStart : Spec → Spec → Except Err Unit}
    (hcreated : family.create checkStart s spec status = (s', .ok (prepared, true))) :
    s.specs (family.recordID spec) = none ∧ prepared = family.normalize spec status ∧
      s' = family.claimed s spec prepared := by
  rcases family.create_cases checkStart s spec status with ⟨-, hold⟩ | ⟨-, hspec, hclaimed⟩
  · exact absurd (congrArg Prod.snd hcreated) (hold prepared)
  · rw [hclaimed] at hcreated
    cases hcreated
    exact ⟨hspec, rfl, rfl⟩

theorem require_of_found [Inhabited Status] (href : family.checkRef ref = .ok ())
    (hspec : s.specs ref.recordID = some spec) (htenant : family.checkTenant ref spec = .ok ())
    (hstatus : s.statuses ref.recordID = some status) :
    family.require s ref = .ok (spec, status) := by
  simp [require, get, href, hspec, htenant, hstatus, bind, Except.bind]

theorem require_ok [Inhabited Status] (h : family.require s ref = .ok (spec, status)) :
    family.checkRef ref = .ok () ∧ family.checkTenant ref spec = .ok () ∧
      s.specs ref.recordID = some spec ∧ status = (s.statuses ref.recordID).getD default := by
  obtain ⟨found, hget, hfound⟩ := bind_ok h
  obtain ⟨⟨⟩, href, hget⟩ := bind_ok hget
  split at hget
  · cases hget
    cases hfound
  rename_i spec' hspec
  obtain ⟨⟨⟩, htenant, hget⟩ := bind_ok hget
  cases hget
  cases hfound
  exact ⟨href, htenant, hspec, rfl⟩

theorem Holds.require_again [Inhabited Status] {status' : Status}
    (h : family.require s ref = .ok (spec, status)) (hholds : family.Holds s' spec status')
    (href : ref.recordID = family.recordID spec) : family.require s' ref = .ok (spec, status') := by
  obtain ⟨hcheck, htenant, -⟩ := require_ok h
  exact require_of_found hcheck (href ▸ hholds.spec_eq) htenant (href ▸ hholds.status_eq)

end Family

end AgentOS.Platform
