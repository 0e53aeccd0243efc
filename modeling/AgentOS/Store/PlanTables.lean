import AgentOS.Store.PlanMemory
import AgentOS.Plan.State
import Mathlib.Data.List.Pairwise

/-!
# The plan tables

`CreatePlan`, `SavePlanState`, `PersistPlanTransition` and `AppendPlanEvent` of
`internal/repo/persistent/agentos_plan_postgres.go`, over the tables `plans`, `plan_nodes` and
`plan_events`.  A call is one transaction, and a call that fails is rolled back.
-/

namespace AgentOS.Store

open Kit List

/-! ## Tables -/

/-- A row of `plans`, with the `plan_nodes` of the plan by node id.  The spec is the JSON of its
column. -/
structure PlanRow where
  spec : RunPlanSpec
  status : Plan.RunPlanStatus
  eventSequence : Int := 0
  nodes : List Plan.PlanNodeStatus := []

/-- Two rows with different primary keys and different entries in
`idx_plans_idempotency_key`. -/
def PlanRow.Apart (row row' : PlanRow) : Prop :=
  row.spec.planID ≠ row'.spec.planID ∧ row.spec.startKey ≠ row'.spec.startKey

instance : Std.Symm PlanRow.Apart where
  symm _ _ h := ⟨h.1.symm, h.2.symm⟩

instance (row row' : PlanRow) : Decidable (row.Apart row') :=
  inferInstanceAs (Decidable (_ ≠ _ ∧ _ ≠ _))

/-- A row of `plan_events`. -/
structure PlanEventRow where
  event : PlanEvent
  (idempotencyKey transitionSnapshotDigest : String)

/-- The tables, with the primary key and the unique index of `plans`. -/
structure PlanTables where
  plans : List PlanRow
  unique : plans.Pairwise PlanRow.Apart
  events : List PlanEventRow

namespace PlanTables

def empty : PlanTables := ⟨[], Pairwise.nil, []⟩

variable (t : PlanTables)

def findPlan (planID : String) : Option PlanRow := t.plans.find? fun row => row.spec.planID = planID

/-- The row of a start key. -/
def findStart (key : PlanStartKey) : Option PlanRow :=
  t.plans.find? fun row => row.spec.startKey = key

theorem keys_of_identity {spec spec' : RunPlanSpec}
    (h : planStateIdentity spec = planStateIdentity spec') :
    spec.planID = spec'.planID ∧ spec.startKey = spec'.startKey := by
  simp only [planStateIdentity, PlanStateIdentity.mk.injEq] at h
  simp only [RunPlanSpec.startKey, PlanStartKey.mk.injEq]
  exact ⟨h.1, h.2.2.1, h.2.2.2.1, h.2.2.2.2.1⟩

def insertPlan (row : PlanRow) (fresh : ∀ other ∈ t.plans, PlanRow.Apart other row) : PlanTables :=
  { t with
    plans := t.plans ++ [row]
    unique := pairwise_append.mpr ⟨t.unique, pairwise_singleton _ _, fun other h _ h' =>
      mem_singleton.mp h' ▸ fresh other h⟩ }

/-- An update of the rows of plans that leaves the identities alone, as the trigger
`protect_plan_identity` demands. -/
def updatePlans (f : PlanRow → PlanRow)
    (hf : ∀ row, planStateIdentity (f row).spec = planStateIdentity row.spec) : PlanTables :=
  { t with
    plans := t.plans.map f
    unique := pairwise_map.mpr (t.unique.imp fun {a b} h => by
      rw [PlanRow.Apart, (keys_of_identity (hf a)).1, (keys_of_identity (hf b)).1,
        (keys_of_identity (hf a)).2, (keys_of_identity (hf b)).2]
      exact h) }

/-- What `UpsertPlan` and the node statements write into the row of a plan with the same
identity. -/
def rewritten (snapshot : PlanStateSnapshot) (row : PlanRow) : PlanRow :=
  if planStateIdentity row.spec = planStateIdentity snapshot.spec then
    { row with spec := snapshot.spec, status := snapshot.status, nodes := snapshot.status.nodes }
  else row

theorem rewritten_identity (snapshot : PlanStateSnapshot) (row : PlanRow) :
    planStateIdentity (rewritten snapshot row).spec = planStateIdentity row.spec := by
  unfold rewritten
  split
  · next h => exact h.symm
  · rfl

structure SaveError where
  uniqueViolation : Bool
  err : Err

/-- `UpsertPlan` with the unique indexes and the trigger `protect_plan_identity`, and the
statements on `plan_nodes`. -/
def upsertPlan (snapshot : PlanStateSnapshot) : Except SaveError PlanTables :=
  match t.findPlan snapshot.spec.planID with
  | some row =>
    if planStateIdentity row.spec ≠ planStateIdentity snapshot.spec then
      .error ⟨false, .within "AgentOSPlanRepo - SavePlanState - plan exec"
        (.external "plan spec identity cannot be updated")⟩
    else .ok (t.updatePlans (rewritten snapshot) (rewritten_identity snapshot))
  | none =>
    let row : PlanRow :=
      { spec := snapshot.spec, status := snapshot.status, nodes := snapshot.status.nodes }
    if h : ∀ other ∈ t.plans, PlanRow.Apart other row then .ok (t.insertPlan row h)
    else .error ⟨true, .within "AgentOSPlanRepo - SavePlanState - plan exec"
      (.external "duplicate key value violates unique constraint")⟩

/-! ## Snapshots -/

variable {Text : Type} [DecidableEq Text] {m : Marshal Text} (now : Time)

def normalizePlanStateSnapshotForPostgres (snapshot : PlanStateSnapshot) :
    Except Err PlanStateSnapshot := do
  Plan.validateRunPlanScope snapshot.spec.toRunPlanSpec
  if snapshot.spec.idempotencyKey = "" then
    errorf .invalidRunPlan "plan idempotency key is required"
  else do
    let status := if snapshot.status.planID = "" then
      { snapshot.status with planID := snapshot.spec.planID } else snapshot.status
    let status := if status.updatedAt.isZero then { status with updatedAt := now } else status
    let state ← Plan.newStateFromStatus snapshot.spec.toRunPlanSpec status
    return {
      spec := { snapshot.spec with
        requestedAt := normalizeDurableTimestamp snapshot.spec.requestedAt }
      status := state.status }

variable (m)

def savePlanStateWithTx (t : PlanTables) (snapshot : PlanStateSnapshot)
    (allowCreate : Bool) : Except SaveError PlanTables :=
  match t.findPlan snapshot.spec.planID with
  | some row =>
    match validatePlanStateIdentity m row.spec snapshot.spec with
    | .error err => .error ⟨false, err⟩
    | .ok () => t.upsertPlan { snapshot with spec := snapshot.spec.encoded }
  | none =>
    if allowCreate then t.upsertPlan { snapshot with spec := snapshot.spec.encoded }
    else .error ⟨false, .wrap .planRouteNotFound snapshot.spec.planID⟩

def savePlanState (snapshot : PlanStateSnapshot) (t : PlanTables) : Except Err PlanTables := do
  let normalized ← normalizePlanStateSnapshotForPostgres now snapshot
  (t.savePlanStateWithTx m normalized false).mapError SaveError.err

/-! ## Starts -/

def getPlan (planID : String) : Except Err (Option (RunPlanSpec × Plan.RunPlanStatus)) :=
  match t.findPlan planID with
  | none => .ok none
  | some row => do
    let state ← Plan.newStateFromStatus row.spec.toRunPlanSpec
      { row.status with nodes := row.nodes }
    return some (row.spec, state.status)

def planByIdempotencyKey (key : PlanStartKey) : Option (RunPlanSpec × Plan.RunPlanStatus) :=
  (t.findStart key).map fun row => (row.spec, row.status)

def existingPlanForCreate (t : PlanTables) (spec : RunPlanSpec) :
    Except Err (Option Plan.RunPlanStatus) :=
  match t.planByIdempotencyKey spec.startKey with
  | some (existingSpec, existing) => do
    validatePlanStartIdempotency m existingSpec spec
    return some existing
  | none => do
    match ← t.getPlan spec.planID with
    | some (existingSpec, existing) =>
      validatePlanStartIdempotency m existingSpec spec
      return some existing
    | none => return none

def resolvePlanCreateConflict (t : PlanTables) (spec : RunPlanSpec)
    (err : SaveError) : Except Err (Option Plan.RunPlanStatus) :=
  if !err.uniqueViolation then .ok none
  else
    match t.planByIdempotencyKey spec.startKey with
    | none => .ok none
    | some (existingSpec, existing) => do
      validatePlanStartIdempotency m existingSpec spec
      return some existing

def createPlanState (t : PlanTables)
    (snapshot : PlanStateSnapshot) : Except SaveError (PlanTables × Plan.RunPlanStatus) :=
  match normalizePlanStateSnapshotForPostgres now snapshot with
  | .error err => .error ⟨false, err⟩
  | .ok normalized => do
    let t ← t.savePlanStateWithTx m normalized true
    return (t, normalized.status)

def createPlan (spec : RunPlanSpec) (status : Plan.RunPlanStatus)
    (t : PlanTables) : Except Err (PlanTables × Plan.RunPlanStatus × Bool) :=
  if spec.planID = "" then errorf .invalidRunPlan "plan id is required"
  else if spec.idempotencyKey = "" then errorf .invalidRunPlan "plan idempotency key is required"
  else do
    let status := if status.planID = "" then { status with planID := spec.planID } else status
    match ← t.existingPlanForCreate m spec with
    | some existing => return (t, existing, false)
    | none =>
      match t.createPlanState m now { spec, status } with
      | .ok (t, created) => return (t, created, true)
      | .error err =>
        match ← t.resolvePlanCreateConflict m spec err with
        | some existing => return (t, existing, false)
        | none => .error err.err

/-! ## Events -/

def findEvent (accountID projectID planID idempotencyKey : String) : Option PlanEventRow :=
  t.events.find? fun row => row.event.accountID = accountID ∧ row.event.projectID = projectID ∧
    row.event.planID = planID ∧ row.idempotencyKey = idempotencyKey

def validateEventReplay (existing : PlanEventRow) (requested : PlanEvent)
    (identity : Option (PlanTransitionSnapshotIdentity Text)) : Except Err Unit := do
  validatePlanEventIdempotency m existing.event requested
  match identity with
  | some identity => validatePlanTransitionIdempotency existing.transitionSnapshotDigest identity
  | none => .ok ()

def advanced (event : PlanEvent) (row : PlanRow) : PlanRow :=
  if row.spec.planID = event.planID then { row with eventSequence := event.sequence } else row

theorem advanced_identity (event : PlanEvent) (row : PlanRow) :
    planStateIdentity (advanced event row).spec = planStateIdentity row.spec := by
  unfold advanced
  split <;> rfl

/-- `buildAndInsertPlanEvent`.  A row that a unique index of `plan_events` refuses ends the
transaction. -/
def buildAndInsertPlanEvent (t : PlanTables) (now : Time) (event : PlanEvent)
    (currentSequence : Int) (idempotencyKey : String)
    (identity : Option (PlanTransitionSnapshotIdentity Text)) :
    Except Err (PlanTables × PlanEvent) :=
  let stored : PlanEvent :=
    { event with
      sequence := currentSequence + 1
      eventID := event.planID ++ ":" ++ toString (currentSequence + 1)
      timestamp := normalizeDurableTimestamp
        (if event.timestamp.isZero then now else event.timestamp)
      payload := some (event.payload.getD []) }
  if t.events.any fun row => row.event.eventID == stored.eventID then
    .error (.within "AgentOSPlanRepo - AppendPlanEvent - insert"
      (.external "duplicate key value violates unique constraint"))
  else
    let t := t.updatePlans (advanced stored) (advanced_identity stored)
    let digest := (identity.map PlanTransitionSnapshotIdentity.digest).getD ""
    .ok ({ t with events := t.events ++ [⟨stored, idempotencyKey, digest⟩] }, stored)

def appendPlanEventWithTx (event : PlanEvent)
    (idempotencyKey : String) (identity : Option (PlanTransitionSnapshotIdentity Text))
    (t : PlanTables) : Except Err (PlanTables × PlanEvent) :=
  match t.findPlan event.planID with
  | none => errorf .planRouteNotFound event.planID
  | some row => do
    let spec : RunPlanSpec :=
      { planID := event.planID, accountID := row.spec.accountID, projectID := row.spec.projectID }
    let event ← scopePlanEventToSpec event spec
    match t.findEvent row.spec.accountID row.spec.projectID event.planID idempotencyKey with
    | some existing =>
      validateEventReplay m existing event identity
      return (t, existing.event)
    | none => t.buildAndInsertPlanEvent now event row.eventSequence idempotencyKey identity

def normalizePlanEventAppendForPostgres (event : PlanEvent) (idempotencyKey : String) :
    Except Err PlanEvent :=
  if event.planID = "" then errorf .invalidPlanEvent "plan id is required"
  else if idempotencyKey = "" then errorf .invalidPlanEvent "plan event idempotency key is required"
  else .ok (normalizePlanEventAppendRequest event)

def appendPlanEvent (event : PlanEvent) (idempotencyKey : String)
    (t : PlanTables) : Except Err (PlanTables × PlanEvent) := do
  let event ← normalizePlanEventAppendForPostgres event idempotencyKey
  t.appendPlanEventWithTx m now event idempotencyKey none

def normalizePlanTransitionForPostgres
    (snapshot : PlanStateSnapshot) (event : PlanEvent) (idempotencyKey : String) :
    Except Err (MemoryPlanStore.PreparedTransition Text) := do
  let snapshot ← normalizePlanStateSnapshotForPostgres now snapshot
  let event ← normalizePlanEventAppendForPostgres event idempotencyKey
  if event.planID ≠ snapshot.spec.planID then
    errorf .invalidPlanEvent ("event plan " ++ quoted event.planID ++
      " does not match snapshot plan " ++ quoted snapshot.spec.planID)
  else do
    let identity ← newPlanTransitionSnapshotIdentity m snapshot idempotencyKey
    let event ← scopePlanEventToSpec event snapshot.spec
    return { snapshot, identity, event }

def existingPlanTransitionEvent (t : PlanTables) (event : PlanEvent)
    (idempotencyKey : String) (identity : PlanTransitionSnapshotIdentity Text) :
    Except Err (Option PlanEvent) :=
  match t.findPlan event.planID with
  | none => .ok none
  | some row =>
    match t.findEvent row.spec.accountID row.spec.projectID event.planID idempotencyKey with
    | none => .ok none
    | some existing => do
      validateEventReplay m existing event (some identity)
      return some existing.event

def persistPlanTransition (snapshot : PlanStateSnapshot)
    (event : PlanEvent) (idempotencyKey : String) (t : PlanTables) :
    Except Err (PlanTables × PlanEvent) := do
  let prepared ← normalizePlanTransitionForPostgres m now snapshot event idempotencyKey
  match ← t.existingPlanTransitionEvent m prepared.event idempotencyKey prepared.identity with
  | some existing => return (t, existing)
  | none =>
    let t ← (t.savePlanStateWithTx m prepared.snapshot false).mapError SaveError.err
    t.appendPlanEventWithTx m now prepared.event idempotencyKey (some prepared.identity)

variable {m}

/-- The tables behind a call that was accepted. -/
inductive Accepted (m : Marshal Text) : PlanTables → PlanTables → Prop where
  | createPlan {now spec status t t' answer}
      (h : t.createPlan m now spec status = .ok (t', answer)) : Accepted m t t'
  | savePlanState {now snapshot t t'}
      (h : t.savePlanState m now snapshot = .ok t') : Accepted m t t'
  | persistPlanTransition {now snapshot event idempotencyKey t t' stored}
      (h : t.persistPlanTransition m now snapshot event idempotencyKey = .ok (t', stored)) :
      Accepted m t t'
  | appendPlanEvent {now event idempotencyKey t t' stored}
      (h : t.appendPlanEvent m now event idempotencyKey = .ok (t', stored)) : Accepted m t t'

/-! ### What an accepted call keeps -/

/-- A plan with this identity is stored. -/
def Holds (identity : PlanStateIdentity) : Prop :=
  ∃ row ∈ t.plans, planStateIdentity row.spec = identity

variable {t t' : PlanTables} {spec : RunPlanSpec} {identity : PlanStateIdentity} {row : PlanRow}

theorem eq_of_planID {row row' : PlanRow} (hrow : row ∈ t.plans) (hrow' : row' ∈ t.plans)
    (h : row.spec.planID = row'.spec.planID) : row = row' := by
  by_contra hne
  exact (t.unique.forall hrow hrow' hne).1 h

theorem findPlan_of_mem (hrow : row ∈ t.plans) : t.findPlan row.spec.planID = some row := by
  cases hfind : t.findPlan row.spec.planID with
  | none => simpa using find?_eq_none.mp hfind row hrow
  | some found =>
    have hsame : found.spec.planID = row.spec.planID := by simpa using find?_some hfind
    rw [eq_of_planID (mem_of_find?_eq_some hfind) hrow hsame]

theorem Holds.findStart (h : t.Holds (planStateIdentity spec)) :
    ∃ row, t.findStart spec.startKey = some row ∧
      planStateIdentity row.spec = planStateIdentity spec := by
  obtain ⟨row, hrow, hspec⟩ := h
  have hkey := (keys_of_identity hspec).2
  refine ⟨row, ?_, hspec⟩
  cases hfind : t.findStart spec.startKey with
  | none =>
    have hother := find?_eq_none.mp hfind row hrow
    exact absurd hkey (by simpa using hother)
  | some found =>
    have hsame : found.spec.startKey = spec.startKey := by simpa using find?_some hfind
    congr
    by_contra hne
    exact (t.unique.forall (mem_of_find?_eq_some hfind) hrow hne).2 (hsame.trans hkey.symm)

theorem Holds.updatePlans {f : PlanRow → PlanRow}
    (hf : ∀ row, planStateIdentity (f row).spec = planStateIdentity row.spec)
    (h : t.Holds identity) : (t.updatePlans f hf).Holds identity := by
  obtain ⟨row, hrow, hspec⟩ := h
  exact ⟨f row, mem_map_of_mem hrow, (hf row).trans hspec⟩

variable {snapshot : PlanStateSnapshot}

variable {allowCreate : Bool}

/-- A save writes the row of the plan with the snapshot's identity, or adds a row for it. -/
theorem savePlanStateWithTx_cases (h : t.savePlanStateWithTx m snapshot allowCreate = .ok t') :
    ∃ written : PlanStateSnapshot, written.spec = snapshot.spec.encoded ∧
      ((∃ row ∈ t.plans, planStateIdentity row.spec = planStateIdentity written.spec ∧
          t' = t.updatePlans (rewritten written) (rewritten_identity written)) ∨
        ∃ row fresh, planStateIdentity row.spec = planStateIdentity written.spec ∧
          t' = t.insertPlan row fresh) := by
  refine ⟨{ snapshot with spec := snapshot.spec.encoded }, rfl, ?_⟩
  have hupsert : t.upsertPlan { snapshot with spec := snapshot.spec.encoded } = .ok t' := by
    unfold savePlanStateWithTx at h
    split at h <;> split at h
    · cases h
    · exact h
    · exact h
    · cases h
  unfold upsertPlan at hupsert
  split at hupsert
  · next row hrow =>
    split at hupsert
    · cases hupsert
    · next hsame =>
      cases hupsert
      exact .inl ⟨row, mem_of_find?_eq_some hrow, not_not.mp hsame, rfl⟩
  · simp only at hupsert
    split at hupsert
    · next hfresh =>
      cases hupsert
      exact .inr ⟨_, hfresh, rfl, rfl⟩
    · cases hupsert

theorem Holds.savePlanStateWithTx
    (h : t.Holds identity) (hwritten : t.savePlanStateWithTx m snapshot allowCreate = .ok t') :
    t'.Holds identity := by
  obtain ⟨written, -, ⟨-, -, -, rfl⟩ | ⟨-, -, -, rfl⟩⟩ := savePlanStateWithTx_cases hwritten
  · exact h.updatePlans (rewritten_identity written)
  · obtain ⟨row, hrow, hspec⟩ := h
    exact ⟨row, mem_append_left _ hrow, hspec⟩

theorem holds_of_saved (hwritten : t.savePlanStateWithTx m snapshot allowCreate = .ok t') :
    t'.Holds (planStateIdentity snapshot.spec.encoded) := by
  obtain ⟨written, hspec, hcases⟩ := savePlanStateWithTx_cases hwritten
  rw [← hspec]
  obtain ⟨row, hrow, hsame, rfl⟩ | ⟨row, -, hsame, rfl⟩ := hcases
  · exact ⟨rewritten written row, mem_map_of_mem hrow, (rewritten_identity written row).trans hsame⟩
  · exact ⟨row, mem_append_right _ (mem_singleton.mpr rfl), hsame⟩

variable {digest : Option (PlanTransitionSnapshotIdentity Text)} {now : Time}

/-- An accepted append leaves the tables alone, or stores the plan's next event. -/
theorem appendPlanEventWithTx_cases {event stored : PlanEvent} {idempotencyKey : String}
    (h : t.appendPlanEventWithTx m now event idempotencyKey digest = .ok (t', stored)) :
    t' = t ∨ ∃ row ∈ t.plans, ∃ added : PlanEventRow,
      row.spec.planID = added.event.planID ∧ added.event.sequence = row.eventSequence + 1 ∧
        t' = { t.updatePlans (advanced added.event) (advanced_identity added.event) with
          events := t.events ++ [added] } := by
  unfold appendPlanEventWithTx at h
  split at h
  · cases h
  next row hfound =>
  have hid : row.spec.planID = event.planID := by simpa using find?_some hfound
  obtain ⟨inScope, hscope, h⟩ := bind_ok h
  obtain ⟨rfl, -, -⟩ := scopePlanEventToSpec_ok hscope
  split at h
  · obtain ⟨⟨⟩, -, h⟩ := bind_ok h
    cases h
    exact .inl rfl
  unfold buildAndInsertPlanEvent at h
  simp only at h
  split at h
  · cases h
  cases h
  refine .inr ⟨row, mem_of_find?_eq_some hfound, ⟨_, idempotencyKey, _⟩, ?_, ?_, rfl⟩
  · exact hid
  · rfl

theorem mapError_ok {α : Type} {result : Except SaveError α} {value : α}
    (h : result.mapError SaveError.err = .ok value) : result = .ok value := by
  cases result with
  | error err => cases h
  | ok found =>
    cases h
    rfl

theorem normalizePlanStateSnapshotForPostgres_spec {normalized : PlanStateSnapshot}
    (h : normalizePlanStateSnapshotForPostgres now snapshot = .ok normalized) :
    normalized.spec = snapshot.spec.durable := by
  obtain ⟨⟨⟩, -, h⟩ := bind_ok h
  split at h
  · cases h
  · obtain ⟨state, -, h⟩ := bind_ok h
    cases h
    rfl

def HasPlan (t : PlanTables) (spec : RunPlanSpec) : Prop :=
  ∃ row ∈ t.plans, row.spec.planID = spec.planID ∧ row.spec.idempotencyKey = spec.idempotencyKey

variable {existing : Plan.RunPlanStatus}

theorem hasPlan_of_valid (hrow : row ∈ t.plans)
    (hvalid : validatePlanStartIdempotency m row.spec spec = .ok ()) : t.HasPlan spec := by
  obtain ⟨hplan, hkey, -⟩ := validatePlanStartIdempotency_ok.mp hvalid
  exact ⟨row, hrow, hplan, hkey⟩

theorem existingPlanForCreate_some
    (h : t.existingPlanForCreate m spec = .ok (some existing)) : t.HasPlan spec := by
  unfold existingPlanForCreate planByIdempotencyKey at h
  cases hstart : t.findStart spec.startKey <;> rw [hstart] at h
  swap
  · obtain ⟨⟨⟩, hvalid, -⟩ := bind_ok h
    exact hasPlan_of_valid (mem_of_find?_eq_some hstart) hvalid
  · obtain ⟨found, hfound, h⟩ := bind_ok h
    unfold getPlan at hfound
    split at hfound
    · cases hfound
      cases h
    next row hrow =>
    obtain ⟨state, -, hfound⟩ := bind_ok hfound
    cases hfound
    obtain ⟨⟨⟩, hvalid, -⟩ := bind_ok h
    exact hasPlan_of_valid (mem_of_find?_eq_some hrow) hvalid

theorem resolvePlanCreateConflict_some {err : SaveError}
    (h : t.resolvePlanCreateConflict m spec err = .ok (some existing)) : t.HasPlan spec := by
  unfold resolvePlanCreateConflict planByIdempotencyKey at h
  split at h
  · cases h
  cases hstart : t.findStart spec.startKey <;> rw [hstart] at h
  · cases h
  · obtain ⟨⟨⟩, hvalid, -⟩ := bind_ok h
    exact hasPlan_of_valid (mem_of_find?_eq_some hstart) hvalid

theorem createPlan_ok {status : Plan.RunPlanStatus} {answer : Plan.RunPlanStatus × Bool}
    (h : t.createPlan m now spec status = .ok (t', answer)) :
    spec.planID ≠ "" ∧ spec.idempotencyKey ≠ "" ∧ ((t' = t ∧ answer.2 = false ∧ t.HasPlan spec) ∨
        ∃ normalized, normalized.spec = spec.durable ∧
          t.savePlanStateWithTx m normalized true = .ok t') := by
  unfold createPlan at h
  split at h
  · cases h
  next hplan =>
  split at h
  · cases h
  next hkey =>
  refine ⟨hplan, hkey, ?_⟩
  obtain ⟨existing, hexisting, h⟩ := bind_ok h
  cases existing with
  | some existing =>
    cases h
    exact .inl ⟨rfl, rfl, existingPlanForCreate_some hexisting⟩
  | none =>
    simp only at h
    split at h
    · next created hcreated =>
      cases h
      unfold createPlanState at hcreated
      split at hcreated
      · cases hcreated
      next normalized hnormalized =>
      refine .inr ⟨normalized, normalizePlanStateSnapshotForPostgres_spec hnormalized, ?_⟩
      obtain ⟨saved, hsaved, hcreated⟩ := bind_ok hcreated
      cases hcreated
      exact hsaved
    · obtain ⟨resolved, hresolved, h⟩ := bind_ok h
      cases resolved with
      | some existing =>
        cases h
        exact .inl ⟨rfl, rfl, resolvePlanCreateConflict_some hresolved⟩
      | none => cases h

/-- What every save and every append keeps, an accepted call keeps. -/
theorem Accepted.kept {P : PlanTables → Prop}
    (hsave : ∀ {t t' : PlanTables} {snapshot : PlanStateSnapshot} {allowCreate : Bool}, P t →
      t.savePlanStateWithTx m snapshot allowCreate = .ok t' → P t')
    (happend : ∀ {t t' : PlanTables} {now : Time} {event stored : PlanEvent} {key : String}
      {digest : Option (PlanTransitionSnapshotIdentity Text)}, P t →
      t.appendPlanEventWithTx m now event key digest = .ok (t', stored) → P t')
    (hcall : Accepted m t t') (h : P t) : P t' := by
  cases hcall with
  | createPlan hcall =>
    obtain ⟨-, -, ⟨rfl, -, -⟩ | ⟨_, -, hsaved⟩⟩ := createPlan_ok hcall
    · exact h
    · exact hsave h hsaved
  | savePlanState hcall =>
    obtain ⟨normalized, -, hcall⟩ := bind_ok hcall
    exact hsave h (mapError_ok hcall)
  | persistPlanTransition hcall =>
    obtain ⟨prepared, -, hcall⟩ := bind_ok hcall
    obtain ⟨existing, -, hcall⟩ := bind_ok hcall
    cases existing with
    | some existing =>
      cases hcall
      exact h
    | none =>
      obtain ⟨saved, hsaved, hcall⟩ := bind_ok hcall
      exact happend (hsave h (mapError_ok hsaved)) hcall
  | appendPlanEvent hcall =>
    obtain ⟨event, -, hcall⟩ := bind_ok hcall
    exact happend h hcall

theorem Accepted.holds (hcall : Accepted m t t') (h : t.Holds identity) : t'.Holds identity := by
  refine hcall.kept Holds.savePlanStateWithTx (fun h hwritten => ?_) h
  obtain rfl | ⟨-, -, added, -, -, rfl⟩ := appendPlanEventWithTx_cases hwritten
  · exact h
  · exact h.updatePlans (advanced_identity added.event)

theorem holds_of_created {status created : Plan.RunPlanStatus}
    (h : t.createPlan m now spec status = .ok (t', created, true)) :
    t'.Holds (planStateIdentity spec.durable.encoded) := by
  obtain ⟨-, -, ⟨-, hold, -⟩ | ⟨normalized, hspec, hsaved⟩⟩ := createPlan_ok h
  · cases hold
  · rw [← hspec]
    exact holds_of_saved hsaved

/-! ### The sequences of the events -/

def durableEvents (t : PlanTables) : List PlanEvent := t.events.map PlanEventRow.event

structure Sequenced (t : PlanTables) : Prop where
  increasing : t.durableEvents.Pairwise fun event later =>
    event.planID = later.planID → event.sequence < later.sequence
  counted : ∀ event ∈ t.durableEvents, ∃ row ∈ t.plans,
    row.spec.planID = event.planID ∧ event.sequence ≤ row.eventSequence

theorem Sequenced.saved (h : t.Sequenced)
    (hwritten : t.savePlanStateWithTx m snapshot allowCreate = .ok t') :
    t'.Sequenced ∧ t'.durableEvents = t.durableEvents := by
  obtain ⟨written, -, ⟨-, -, -, rfl⟩ | ⟨-, -, -, rfl⟩⟩ := savePlanStateWithTx_cases hwritten
  · refine ⟨⟨h.increasing, fun event hevent => ?_⟩, rfl⟩
    obtain ⟨row, hrow, hid, hle⟩ := h.counted event hevent
    refine ⟨_, mem_map_of_mem hrow,
      (keys_of_identity (rewritten_identity written row)).1.trans hid, ?_⟩
    unfold rewritten
    split <;> exact hle
  · refine ⟨⟨h.increasing, fun event hevent => ?_⟩, rfl⟩
    obtain ⟨row, hrow, hid, hle⟩ := h.counted event hevent
    exact ⟨row, mem_append_left _ hrow, hid, hle⟩

theorem Sequenced.appended (h : t.Sequenced) (stored : PlanEventRow)
    (hrow : row ∈ t.plans) (hid : row.spec.planID = stored.event.planID)
    (hnext : stored.event.sequence = row.eventSequence + 1) :
    Sequenced { t.updatePlans (advanced stored.event) (advanced_identity stored.event) with
      events := t.events ++ [stored] } := by
  have hcount : ∀ event ∈ t.durableEvents, event.planID = stored.event.planID →
      event.sequence < stored.event.sequence := by
    intro event hevent hsame
    obtain ⟨other, hother, hid', hle⟩ := h.counted event hevent
    obtain rfl : other = row := eq_of_planID hother hrow (hid'.trans (hsame.trans hid.symm))
    omega
  constructor
  · show (map PlanEventRow.event (t.events ++ [stored])).Pairwise _
    rw [map_append, pairwise_append]
    refine ⟨h.increasing, pairwise_singleton _ _, fun event hevent last hlast hsame => ?_⟩
    obtain rfl := mem_singleton.mp hlast
    exact hcount event hevent hsame
  · intro event (hevent : event ∈ map PlanEventRow.event (t.events ++ [stored]))
    rw [map_append, mem_append] at hevent
    rcases hevent with hold | hlast
    · obtain ⟨other, hother, hid', hle⟩ := h.counted event hold
      refine ⟨_, mem_map_of_mem hother,
        (keys_of_identity (advanced_identity stored.event other)).1.trans hid', ?_⟩
      by_cases hsame : other.spec.planID = stored.event.planID
      · rw [advanced, if_pos hsame]
        exact (hcount event hold (hid'.symm.trans hsame)).le
      · rw [advanced, if_neg hsame]
        exact hle
    · obtain rfl := mem_singleton.mp hlast
      refine ⟨_, mem_map_of_mem hrow,
        (keys_of_identity (advanced_identity stored.event row)).1.trans hid, ?_⟩
      rw [advanced, if_pos hid]

theorem Accepted.sequenced (hcall : Accepted m t t') (h : t.Sequenced) :
    t'.Sequenced ∧ ∃ added, t'.durableEvents = t.durableEvents ++ added := by
  refine hcall.kept (P := fun t' => t'.Sequenced ∧
    ∃ added, t'.durableEvents = t.durableEvents ++ added) (fun h hwritten => ?_)
    (fun h hwritten => ?_) ⟨h, [], (append_nil _).symm⟩
  · obtain ⟨hsequenced, hevents⟩ := h.1.saved hwritten
    exact ⟨hsequenced, hevents ▸ h.2⟩
  obtain ⟨hsequenced, before, hbefore⟩ := h
  obtain rfl | ⟨row, hrow, stored, hid, hnext, rfl⟩ := appendPlanEventWithTx_cases hwritten
  · exact ⟨hsequenced, before, hbefore⟩
  · refine ⟨hsequenced.appended stored hrow hid hnext, before ++ [stored.event], ?_⟩
    rw [← append_assoc, ← hbefore]
    exact map_append

end PlanTables

end AgentOS.Store
