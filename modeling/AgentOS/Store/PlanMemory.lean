import AgentOS.Store.PlanRecords
import AgentOS.Kit.KeyedLog

/-!
# The in-memory plan store

`MemoryPlanStore` of `internal/usecase/agentosplan/plan_store_memory.go`: `CreatePlan`,
`SavePlanState`, `PersistPlanTransition` and `AppendPlanEvent` over its Go maps.
-/

namespace AgentOS.Store

open Kit List Function KeyedLog

/-! ## The store -/

structure PlanStartKey where
  (accountID projectID idempotencyKey : String)
  deriving DecidableEq

/-- The start key of a spec. -/
def RunPlanSpec.startKey (spec : RunPlanSpec) : PlanStartKey :=
  ⟨spec.accountID, spec.projectID, spec.idempotencyKey⟩

/-- `planEventIdempotencyKey`. -/
@[ext]
structure PlanEventKey where
  (planID idempotencyKey : String)
  deriving DecidableEq

/-- `MemoryPlanStore`, the maps of the plans and of their events.  An absent digest is the
empty string. -/
structure MemoryPlanStore where
  specs : String → Option RunPlanSpec
  statuses : String → Option Plan.RunPlanStatus
  planKeys : PlanStartKey → Option String
  events : String → List PlanEvent
  eventKeys : PlanEventKey → Option PlanEvent
  transitionSnapshots : PlanEventKey → String

namespace MemoryPlanStore

/-- `NewMemoryPlanStore`. -/
def new : MemoryPlanStore where
  specs _ := none
  statuses _ := none
  planKeys _ := none
  events _ := []
  eventKeys _ := none
  transitionSnapshots _ := ""

/-! ### What is written -/

def saved (s : MemoryPlanStore) (snapshot : PlanStateSnapshot) : MemoryPlanStore :=
  { s with
    specs := update s.specs snapshot.spec.planID (some snapshot.spec.clone)
    statuses := update s.statuses snapshot.spec.planID (some snapshot.status)
    planKeys := update s.planKeys snapshot.spec.startKey (some snapshot.spec.planID) }

def appended (s : MemoryPlanStore) (key : PlanEventKey) (stored : PlanEvent) : MemoryPlanStore :=
  { s with
    events := update s.events key.planID (s.events key.planID ++ [stored])
    eventKeys := update s.eventKeys key (some stored) }

def claimed (s : MemoryPlanStore) (key : PlanEventKey) (digest : String) : MemoryPlanStore :=
  { s with transitionSnapshots := update s.transitionSnapshots key digest }

/-! ### Snapshots -/

variable {Text : Type} [DecidableEq Text] {m : Marshal Text} (now : Time)

def normalizeMemoryPlanStateSnapshot (snapshot : Option PlanStateSnapshot) :
    Except Err PlanStateSnapshot :=
  match snapshot with
  | none => errorf .invalidRunPlan "plan state snapshot is required"
  | some snapshot => do
    Plan.validateRunPlanScope snapshot.spec.toRunPlanSpec
    if snapshot.spec.idempotencyKey = "" then
      errorf .invalidRunPlan "plan idempotency key is required"
    else
      let status := if snapshot.status.planID = "" then
        { snapshot.status with planID := snapshot.spec.planID } else snapshot.status
      .ok
        { spec := { snapshot.spec.clone with
            requestedAt := normalizeDurableTimestamp snapshot.spec.requestedAt }
          status := if status.updatedAt.isZero then { status with updatedAt := now } else status }

variable (m)

def checkPlanTarget (s : MemoryPlanStore) (snapshot : PlanStateSnapshot)
    (allowCreate : Bool) : Except Err Unit :=
  match s.specs snapshot.spec.planID with
  | some existingSpec => validatePlanStateIdentity m existingSpec snapshot.spec
  | none =>
    if allowCreate then .ok () else errorf .planRouteNotFound snapshot.spec.planID

def checkPlanKey (s : MemoryPlanStore) (snapshot : PlanStateSnapshot) : Except Err Unit :=
  match s.planKeys snapshot.spec.startKey with
  | some existingPlanID =>
    if existingPlanID ≠ snapshot.spec.planID then
      errorf .invalidRunPlan ("plan idempotency key belongs to plan " ++ quoted existingPlanID)
    else .ok ()
  | none => .ok ()

def checkPlanState (s : MemoryPlanStore) (snapshot : PlanStateSnapshot)
    (allowCreate : Bool) : Except Err Unit := do
  s.checkPlanTarget m snapshot allowCreate
  s.checkPlanKey snapshot

def savePlanStateLocked (snapshot : PlanStateSnapshot) (allowCreate : Bool)
    (s : MemoryPlanStore) : MemoryPlanStore × Except Err Unit :=
  match s.checkPlanState m snapshot allowCreate with
  | .error err => (s, .error err)
  | .ok () => (s.saved snapshot, .ok ())

def savePlanState (snapshot : Option PlanStateSnapshot)
    (s : MemoryPlanStore) : MemoryPlanStore × Except Err Unit :=
  match normalizeMemoryPlanStateSnapshot now snapshot with
  | .error err => (s, .error err)
  | .ok normalized => s.savePlanStateLocked m normalized false

/-! ### Starts -/

def validateMemoryCreatePlanInput (spec : Option RunPlanSpec) : Except Err RunPlanSpec :=
  match spec with
  | none => errorf .invalidRunPlan "run plan spec is required"
  | some spec =>
    if spec.planID = "" then errorf .invalidRunPlan "plan id is required"
    else if spec.idempotencyKey = "" then errorf .invalidRunPlan "plan idempotency key is required"
    else .ok spec

def lookupExistingPlanLocked (s : MemoryPlanStore) (spec : RunPlanSpec) :
    Except Err (Option Plan.RunPlanStatus) :=
  match s.planKeys spec.startKey with
  | some existingPlanID => do
    validatePlanStartIdempotency m ((s.specs existingPlanID).getD {}) spec
    return some ((s.statuses existingPlanID).getD {})
  | none => .ok none

def lookupExistingPlanIDLocked (s : MemoryPlanStore) (spec : RunPlanSpec) :
    Except Err (Option Plan.RunPlanStatus) :=
  match s.specs spec.planID with
  | some existingSpec => do
    validatePlanStartIdempotency m existingSpec spec
    return some ((s.statuses spec.planID).getD {})
  | none => .ok none

def lookupPlan (s : MemoryPlanStore) (spec : RunPlanSpec) :
    Except Err (Option Plan.RunPlanStatus) := do
  match ← s.lookupExistingPlanLocked m spec with
  | some status => return some status
  | none => s.lookupExistingPlanIDLocked m spec

def prepareMemoryCreatePlanSnapshot (spec : RunPlanSpec)
    (status : Option Plan.RunPlanStatus) : Except Err PlanStateSnapshot :=
  match status with
  | none => errorf .invalidRunPlan "plan status is required"
  | some status => normalizeMemoryPlanStateSnapshot now (some { spec := spec.clone, status })

def createPlanSnapshot (spec : RunPlanSpec) (snapshot : PlanStateSnapshot)
    (s : MemoryPlanStore) : MemoryPlanStore × Except Err (Plan.RunPlanStatus × Bool) :=
  match s.lookupPlan m spec with
  | .error err => (s, .error err)
  | .ok (some status) => (s, .ok (status, false))
  | .ok none =>
    match s.savePlanStateLocked m snapshot true with
    | (s, .error err) => (s, .error err)
    | (s, .ok ()) => (s, .ok (snapshot.status, true))

def createPlan (spec : Option RunPlanSpec)
    (status : Option Plan.RunPlanStatus) (s : MemoryPlanStore) :
    MemoryPlanStore × Except Err (Plan.RunPlanStatus × Bool) :=
  match validateMemoryCreatePlanInput spec with
  | .error err => (s, .error err)
  | .ok spec =>
    match s.lookupPlan m spec with
    | .error err => (s, .error err)
    | .ok (some status) => (s, .ok (status, false))
    | .ok none =>
      match prepareMemoryCreatePlanSnapshot now spec status with
      | .error err => (s, .error err)
      | .ok snapshot => s.createPlanSnapshot m spec snapshot

/-! ### Events -/

def appendPlanEventLocked (event : PlanEvent)
    (idempotencyKey : String) (s : MemoryPlanStore) : MemoryPlanStore × Except Err PlanEvent :=
  match s.specs event.planID with
  | none => (s, errorf .planRouteNotFound event.planID)
  | some spec =>
    match scopePlanEventToSpec event spec with
    | .error err => (s, .error err)
    | .ok event =>
      match s.eventKeys ⟨event.planID, idempotencyKey⟩ with
      | some existing =>
        (s, (validatePlanEventIdempotency m existing event).map fun _ => existing)
      | none =>
        let stored := (numbered event ((s.events event.planID).length + 1) now).clone
        (s.appended ⟨event.planID, idempotencyKey⟩ stored, .ok stored)

def validateEventInput (event : Option PlanEvent) : Except Err PlanEvent :=
  match event with
  | none => errorf .invalidPlanEvent "plan event is required"
  | some event =>
    if event.planID = "" then errorf .invalidPlanEvent "plan id is required"
    else .ok event

def validateEventKey (idempotencyKey : String) : Except Err Unit :=
  if idempotencyKey = "" then errorf .invalidPlanEvent "plan event idempotency key is required"
  else .ok ()

def appendPlanEvent (event : Option PlanEvent)
    (idempotencyKey : String) (s : MemoryPlanStore) : MemoryPlanStore × Except Err PlanEvent :=
  match (do
    let event ← validateEventInput event
    validateEventKey idempotencyKey
    return normalizePlanEventAppendRequest event) with
  | .error err => (s, .error err)
  | .ok requested => s.appendPlanEventLocked m now requested idempotencyKey

/-! ### Transitions -/

def validateMemoryPlanTransitionInput (snapshot : PlanStateSnapshot) (event : Option PlanEvent)
    (idempotencyKey : String) : Except Err PlanEvent := do
  let event ← validateEventInput event
  if event.planID ≠ snapshot.spec.planID then
    errorf .invalidPlanEvent ("event plan " ++ quoted event.planID ++
      " does not match snapshot plan " ++ quoted snapshot.spec.planID)
  else do
    validateEventKey idempotencyKey
    return event

structure PreparedTransition (Text : Type) where
  snapshot : PlanStateSnapshot
  identity : PlanTransitionSnapshotIdentity Text
  event : PlanEvent

def prepareTransition (snapshot : Option PlanStateSnapshot)
    (event : Option PlanEvent) (idempotencyKey : String) :
    Except Err (PreparedTransition Text) := do
  let snapshot ← normalizeMemoryPlanStateSnapshot now snapshot
  let event ← validateMemoryPlanTransitionInput snapshot event idempotencyKey
  let identity ← newPlanTransitionSnapshotIdentity m snapshot idempotencyKey
  let event ← scopePlanEventToSpec (normalizePlanEventAppendRequest event) snapshot.spec
  return { snapshot, identity, event }

def validateMemoryPlanTransitionReplay (existing requested : PlanEvent)
    (existingDigest : String) (requestedIdentity : PlanTransitionSnapshotIdentity Text) :
    Except Err Unit := do
  validatePlanEventIdempotency m existing requested
  validatePlanTransitionIdempotency existingDigest requestedIdentity

/-- `PersistPlanTransition`.  The snapshot is written before the event is appended. -/
def persistPlanTransition (snapshot : Option PlanStateSnapshot)
    (event : Option PlanEvent) (idempotencyKey : String) (s : MemoryPlanStore) :
    MemoryPlanStore × Except Err PlanEvent :=
  match prepareTransition m now snapshot event idempotencyKey with
  | .error err => (s, .error err)
  | .ok prepared =>
    let key : PlanEventKey := ⟨prepared.event.planID, idempotencyKey⟩
    match s.eventKeys key with
    | some existing =>
      (s, (validateMemoryPlanTransitionReplay m existing prepared.event
        (s.transitionSnapshots key) prepared.identity).map fun _ => existing)
    | none =>
      match s.savePlanStateLocked m prepared.snapshot false with
      | (s, .error err) => (s, .error err)
      | (s, .ok ()) =>
        match s.appendPlanEventLocked m now prepared.event idempotencyKey with
        | (s, .error err) => (s, .error err)
        | (s, .ok stored) => (s.claimed key prepared.identity.digest, .ok stored)

variable {m}

end MemoryPlanStore

/-! ## Calls -/

/-- A call of the store, with the pointers that its caller passes. -/
inductive PlanCall where
  | createPlan (spec : Option RunPlanSpec) (status : Option Plan.RunPlanStatus)
  | savePlanState (snapshot : Option PlanStateSnapshot)
  | persistPlanTransition (snapshot : Option PlanStateSnapshot) (event : Option PlanEvent)
      (idempotencyKey : String)
  | appendPlanEvent (event : Option PlanEvent) (idempotencyKey : String)

/-- The key under which a call asks for an event. -/
def PlanCall.eventKey : PlanCall → Option PlanEventKey
  | .persistPlanTransition _ (some event) idempotencyKey
  | .appendPlanEvent (some event) idempotencyKey => some ⟨event.planID, idempotencyKey⟩
  | _ => none

/-- What a call answers when it does not fail. -/
inductive PlanReply where
  | plan (status : Plan.RunPlanStatus) (created : Bool)
  | saved
  | event (stored : PlanEvent)

namespace MemoryPlanStore

variable {Text : Type} [DecidableEq Text] {m : Marshal Text}

/-- A call at an instant: the store behind it, and its answer. -/
def call (m : Marshal Text) (now : Time) (c : PlanCall) (s : MemoryPlanStore) :
    MemoryPlanStore × Except Err PlanReply :=
  match c with
  | .createPlan spec status =>
    (s.createPlan m now spec status).map id (Except.map fun r => .plan r.1 r.2)
  | .savePlanState snapshot => (s.savePlanState m now snapshot).map id (Except.map fun _ => .saved)
  | .persistPlanTransition snapshot event idempotencyKey =>
    (s.persistPlanTransition m now snapshot event idempotencyKey).map id (Except.map .event)
  | .appendPlanEvent event idempotencyKey =>
    (s.appendPlanEvent m now event idempotencyKey).map id (Except.map .event)

/-- The store after a sequence of calls, each at its instant. -/
def after (m : Marshal Text) (s : MemoryPlanStore) : List (Time × PlanCall) → MemoryPlanStore
  | [] => s
  | (now, c) :: calls => after m (s.call m now c).1 calls

/-! ### What a call does -/

/-- What a call can do.  It answers from the store as it is, writes one snapshot, appends one
event under a free key, or does both and claims the key for the snapshot's digest. -/
inductive Step (m : Marshal Text) (now : Time) :
    PlanCall → MemoryPlanStore → MemoryPlanStore → Except Err PlanReply → Prop where
  | refused {c s err} : Step m now c s s (.error err)
  | known {spec status s found} :
      Step m now (.createPlan spec status) s s (.ok (.plan found false))
  | created {spec status s snapshot} (hnew : s.lookupPlan m spec = .ok none)
      (hprepared : prepareMemoryCreatePlanSnapshot now spec status = .ok snapshot)
      (hchecked : s.checkPlanState m snapshot true = .ok ()) :
      Step m now (.createPlan (some spec) status) s (s.saved snapshot)
        (.ok (.plan snapshot.status true))
  | saved {given s snapshot}
      (hnormalized : normalizeMemoryPlanStateSnapshot now given = .ok snapshot)
      (hchecked : s.checkPlanState m snapshot false = .ok ()) :
      Step m now (.savePlanState given) s (s.saved snapshot) (.ok .saved)
  | replayed {c s key stored} (hkey : c.eventKey = some key)
      (hstored : s.eventKeys key = some stored) : Step m now c s s (.ok (.event stored))
  | appended {given idempotencyKey s event key}
      (hkey : (PlanCall.appendPlanEvent given idempotencyKey).eventKey = some key)
      (hplan : event.planID = key.planID) (hfree : s.eventKeys key = none) :
      Step m now (.appendPlanEvent given idempotencyKey) s
        (s.appended key (numbered event ((s.events key.planID).length + 1) now).clone)
        (.ok (.event (numbered event ((s.events key.planID).length + 1) now).clone))
  | transitioned {given event idempotencyKey s prepared key}
      (hprepared : prepareTransition m now given event idempotencyKey = .ok prepared)
      (hkey : (PlanCall.persistPlanTransition given event idempotencyKey).eventKey = some key)
      (hplan : prepared.event.planID = key.planID)
      (hchecked : s.checkPlanState m prepared.snapshot false = .ok ())
      (hfree : s.eventKeys key = none) :
      Step m now (.persistPlanTransition given event idempotencyKey) s
        (((s.saved prepared.snapshot).appended key
          (numbered prepared.event ((s.events key.planID).length + 1) now).clone).claimed key
            prepared.identity.digest)
        (.ok (.event (numbered prepared.event ((s.events key.planID).length + 1) now).clone))

variable {spec : RunPlanSpec}

theorem validateMemoryCreatePlanInput_ok {given : Option RunPlanSpec}
    (h : validateMemoryCreatePlanInput given = .ok spec) : given = some spec := by
  unfold validateMemoryCreatePlanInput at h
  split at h
  · cases h
  split_ifs at h
  cases h
  rfl

variable {event stored : PlanEvent} {reply : Except Err PlanReply}

theorem validateEventInput_ok {given : Option PlanEvent}
    (h : validateEventInput given = .ok event) : given = some event := by
  unfold validateEventInput at h
  split at h
  · cases h
  split_ifs at h
  cases h
  rfl

variable {given : Option PlanStateSnapshot} {idempotencyKey : String}

variable {prepared : PreparedTransition Text}

omit [DecidableEq Text] in
theorem prepareTransition_ok {now : Time} {event : Option PlanEvent}
    (h : prepareTransition m now given event idempotencyKey = .ok prepared) :
    normalizeMemoryPlanStateSnapshot now given = .ok prepared.snapshot ∧
      newPlanTransitionSnapshotIdentity m prepared.snapshot idempotencyKey = .ok prepared.identity ∧
      ∃ requested, event = some requested ∧ prepared.event.planID = requested.planID ∧
        requested.planID = prepared.snapshot.spec.planID ∧
        scopePlanEventToSpec (normalizePlanEventAppendRequest requested) prepared.snapshot.spec =
          .ok prepared.event := by
  obtain ⟨snapshot, hsnapshot, h⟩ := bind_ok h
  obtain ⟨requested, hrequested, h⟩ := bind_ok h
  obtain ⟨identity, hidentity, h⟩ := bind_ok h
  obtain ⟨inScope, hscope, h⟩ := bind_ok h
  cases h
  obtain ⟨found, hfound, hrequested⟩ := bind_ok hrequested
  split at hrequested
  · cases hrequested
  obtain ⟨⟨⟩, -, hrequested⟩ := bind_ok hrequested
  cases hrequested
  obtain ⟨heq, hplan, -⟩ := scopePlanEventToSpec_ok hscope
  refine ⟨hsnapshot, hidentity, requested, validateEventInput_ok hfound, ?_, hplan, hscope⟩
  rw [heq]
  rfl

theorem appendPlanEventLocked_saved (m : Marshal Text) (now : Time) {snapshot : PlanStateSnapshot}
    {s : MemoryPlanStore} (hplan : event.planID = snapshot.spec.planID)
    (hscope : scopePlanEventToSpec event snapshot.spec = .ok event)
    (hfree : s.eventKeys ⟨event.planID, idempotencyKey⟩ = none) :
    (s.saved snapshot).appendPlanEventLocked m now event idempotencyKey =
      ((s.saved snapshot).appended ⟨event.planID, idempotencyKey⟩
        (numbered event ((s.events event.planID).length + 1) now).clone,
        .ok (numbered event ((s.events event.planID).length + 1) now).clone) := by
  have hspec : (s.saved snapshot).specs event.planID = some snapshot.spec.clone := by
    rw [hplan]
    exact update_self _ _ _
  replace hscope : scopePlanEventToSpec event snapshot.spec.clone = .ok event := hscope
  have hkeys : (s.saved snapshot).eventKeys ⟨event.planID, idempotencyKey⟩ = none := hfree
  simp only [appendPlanEventLocked, hspec, hscope, hkeys]
  rfl

theorem createPlan_step (now : Time) (given : Option RunPlanSpec)
    (status : Option Plan.RunPlanStatus) (s : MemoryPlanStore) :
    Step m now (.createPlan given status) s (s.call m now (.createPlan given status)).1
      (s.call m now (.createPlan given status)).2 := by
  simp only [call, createPlan]
  split
  · exact .refused
  next spec hspec =>
  obtain rfl := validateMemoryCreatePlanInput_ok hspec
  split
  · exact .refused
  · exact .known
  · next hnew =>
    split
    · exact .refused
    next snapshot hprepared =>
    simp only [createPlanSnapshot, hnew, savePlanStateLocked]
    cases hchecked : s.checkPlanState m snapshot true with
    | error err => exact .refused
    | ok _ => exact .created hnew hprepared hchecked

theorem savePlanState_step (now : Time) (given : Option PlanStateSnapshot) (s : MemoryPlanStore) :
    Step m now (.savePlanState given) s (s.call m now (.savePlanState given)).1
      (s.call m now (.savePlanState given)).2 := by
  simp only [call, savePlanState]
  split
  · exact .refused
  next snapshot hnormalized =>
  simp only [savePlanStateLocked]
  cases hchecked : s.checkPlanState m snapshot false with
  | error err => exact .refused
  | ok _ => exact .saved hnormalized hchecked

theorem appendPlanEvent_step (now : Time) (given : Option PlanEvent) (idempotencyKey : String)
    (s : MemoryPlanStore) :
    Step m now (.appendPlanEvent given idempotencyKey) s
      (s.call m now (.appendPlanEvent given idempotencyKey)).1
      (s.call m now (.appendPlanEvent given idempotencyKey)).2 := by
  simp only [call, appendPlanEvent]
  split
  · exact .refused
  next requested hrequested =>
  obtain ⟨event, hevent, hrequested⟩ := bind_ok hrequested
  obtain ⟨⟨⟩, -, hrequested⟩ := bind_ok hrequested
  cases hrequested
  obtain rfl := validateEventInput_ok hevent
  simp only [appendPlanEventLocked]
  split
  · exact .refused
  next spec hspec =>
  split
  · exact .refused
  next inScope hscope =>
  have hplan : inScope.planID = event.planID := by
    rw [(scopePlanEventToSpec_ok hscope).1]
    rfl
  rw [hplan]
  split
  · next existing hexisting =>
    cases validatePlanEventIdempotency m existing inScope with
    | error err => exact .refused
    | ok _ => exact .replayed rfl hexisting
  · next hfree => exact .appended rfl hplan hfree

theorem persistPlanTransition_step (now : Time) (given : Option PlanStateSnapshot)
    (event : Option PlanEvent) (idempotencyKey : String) (s : MemoryPlanStore) :
    Step m now (.persistPlanTransition given event idempotencyKey) s
      (s.call m now (.persistPlanTransition given event idempotencyKey)).1
      (s.call m now (.persistPlanTransition given event idempotencyKey)).2 := by
  simp only [call, persistPlanTransition]
  split
  · exact .refused
  next prepared hprepared =>
  obtain ⟨-, -, requested, rfl, hplan, hspec, hscope⟩ := prepareTransition_ok hprepared
  split
  · next existing hexisting =>
    rw [hplan] at hexisting
    cases validateMemoryPlanTransitionReplay m existing prepared.event
      (s.transitionSnapshots ⟨prepared.event.planID, idempotencyKey⟩) prepared.identity with
    | error err => exact .refused
    | ok _ => exact .replayed rfl hexisting
  · next hfree =>
    simp only [savePlanStateLocked]
    cases hchecked : s.checkPlanState m prepared.snapshot false with
    | error err => exact .refused
    | ok _ =>
      -- the event is already scoped to the snapshot that was just written
      have happended := appendPlanEventLocked_saved m now (hplan.trans hspec)
        (scopePlanEventToSpec_ok hscope).2.2 hfree
      rw [hplan] at happended hfree
      simp only [happended, hplan]
      exact .transitioned hprepared rfl hplan hchecked hfree

theorem call_step (now : Time) (c : PlanCall) (s : MemoryPlanStore) :
    Step m now c s (s.call m now c).1 (s.call m now c).2 := by
  cases c with
  | createPlan spec status => exact createPlan_step now spec status s
  | savePlanState snapshot => exact savePlanState_step now snapshot s
  | persistPlanTransition snapshot event idempotencyKey =>
    exact persistPlanTransition_step now snapshot event idempotencyKey s
  | appendPlanEvent event idempotencyKey => exact appendPlanEvent_step now event idempotencyKey s

variable {now : Time} {c : PlanCall} {s s' : MemoryPlanStore} {key : PlanEventKey}

theorem Step.unchanged {err : Err} (h : Step m now c s s' (.error err)) : s' = s := by
  cases h
  rfl

theorem Step.keeps_key (h : Step m now c s s' reply) (hstored : s.eventKeys key = some stored) :
    s'.eventKeys key = some stored ∧ s'.transitionSnapshots key = s.transitionSnapshots key := by
  have hother : ∀ key', s.eventKeys key' = none → key ≠ key' := by
    rintro _ hfree rfl
    rw [hfree] at hstored
    cases hstored
  cases h with
  | refused | known | created | saved | replayed => exact ⟨hstored, rfl⟩
  | appended _ _ hfree => exact ⟨(update_of_ne (hother _ hfree) _ _).trans hstored, rfl⟩
  | transitioned _ _ _ _ hfree =>
    exact ⟨(update_of_ne (hother _ hfree) _ _).trans hstored, update_of_ne (hother _ hfree) _ _⟩

theorem Step.claims (h : Step m now c s s' (.ok (.event stored)))
    (hkey : c.eventKey = some key) : s'.eventKeys key = some stored := by
  cases h with
  | replayed hkey' hstored =>
    rw [hkey] at hkey'
    cases hkey'
    exact hstored
  | appended hkey' | transitioned _ hkey' =>
    rw [hkey] at hkey'
    cases hkey'
    exact update_self _ _ _

theorem Step.events_grow (h : Step m now c s s' reply)
    (plan : String) : s.events plan <+: s'.events plan := by
  have happended (t : MemoryPlanStore) (key : PlanEventKey) (stored : PlanEvent) :
      t.events plan <+: (t.appended key stored).events plan := by
    simp only [MemoryPlanStore.appended, update_apply]
    split
    · next h =>
      rw [h]
      exact prefix_append _ _
    · exact prefix_refl _
  cases h with
  | refused | known | created | saved | replayed => exact prefix_refl _
  | appended => exact happended s _ _
  | transitioned => exact happended (s.saved _) _ _

theorem after_keeps_key (calls : List (Time × PlanCall)) (hstored : s.eventKeys key = some stored) :
    (s.after m calls).eventKeys key = some stored ∧
      (s.after m calls).transitionSnapshots key = s.transitionSnapshots key := by
  induction calls generalizing s with
  | nil => exact ⟨hstored, rfl⟩
  | cons call calls ih =>
    obtain ⟨hkept, hdigest⟩ := (call_step call.1 call.2 s : Step m _ _ _ _ _).keeps_key hstored
    obtain ⟨hlater, hlaterDigest⟩ := ih hkept
    exact ⟨hlater, hlaterDigest.trans hdigest⟩

/-! ### The event log -/

/-- The events of the store are a log with idempotency keys for each plan, and each event
has its place in its sequence and in its id. -/
structure Logged (s : MemoryPlanStore) (log : String → KeyedLog String PlanEvent) : Prop where
  events : ∀ plan, s.events plan = (log plan).values
  keys : ∀ key : PlanEventKey, s.eventKeys key = (log key.planID).find key.idempotencyKey
  stamped : ∀ plan, (log plan).Stamped PlanEvent.sequence
  named : ∀ plan event, event ∈ (log plan).values →
    event.eventID = plan ++ ":" ++ toString event.sequence

variable {log : String → KeyedLog String PlanEvent}

theorem Logged.new : Logged new fun _ => empty where
  events _ := rfl
  keys _ := rfl
  stamped _ _ _ h := by simp [values, empty] at h
  named _ _ h := by simp [values, empty] at h

theorem Logged.appended (h : Logged s log) (hplan : event.planID = key.planID)
    (hfree : s.eventKeys key = none) :
    ∃ log', Logged
      (s.appended key (numbered event ((s.events key.planID).length + 1) now).clone) log' := by
  have hfind : (log key.planID).find key.idempotencyKey = none := by rw [← h.keys, hfree]
  let stored := (numbered event ((s.events key.planID).length + 1) now).clone
  refine ⟨update log key.planID ((log key.planID).push key.idempotencyKey stored hfind),
    ?_, ?_, ?_, ?_⟩
  · intro plan
    simp only [MemoryPlanStore.appended, update_apply]
    split
    · rw [values_push, ← h.events]
    · exact h.events plan
  · intro other
    simp only [MemoryPlanStore.appended, update_apply]
    by_cases hother : other.planID = key.planID
    · rw [if_pos hother, find_push, h.keys, hother]
      have hsame : other = key ↔ other.idempotencyKey = key.idempotencyKey := by
        rw [PlanEventKey.ext_iff]
        exact and_iff_right hother
      simp only [hsame]
      rfl
    · have hne : other ≠ key := fun heq => hother (by rw [heq])
      rw [if_neg hne, if_neg hother]
      exact h.keys other
  · refine (forall_update_iff log fun _ log => log.Stamped PlanEvent.sequence).mpr
      ⟨(h.stamped _).push hfind ?_, fun plan _ => h.stamped plan⟩
    rw [← h.events]
    rfl
  · refine (forall_update_iff log fun plan log => ∀ event ∈ log.values,
      event.eventID = plan ++ ":" ++ toString event.sequence).mpr ⟨?_, fun plan _ => h.named plan⟩
    intro found hfound
    rw [values_push, mem_append, mem_singleton] at hfound
    rcases hfound with hold | rfl
    · exact h.named _ found hold
    · exact congrArg (fun plan => plan ++ ":" ++ _) hplan

theorem Logged.congr (h : Logged s log) (hevents : s'.events = s.events)
    (hkeys : s'.eventKeys = s.eventKeys) : Logged s' log where
  events := by rw [hevents]; exact h.events
  keys := by rw [hkeys]; exact h.keys
  stamped := h.stamped
  named := h.named

theorem Step.logged (hstep : Step m now c s s' reply)
    (h : Logged s log) : ∃ log', Logged s' log' := by
  cases hstep with
  | refused | known | replayed => exact ⟨log, h⟩
  | created | saved => exact ⟨log, h.congr rfl rfl⟩
  | appended _ hplan hfree => exact h.appended hplan hfree
  | @transitioned _ _ _ _ prepared _ _ _ hplan _ hfree =>
    have hsaved : Logged (s.saved prepared.snapshot) log := h.congr rfl rfl
    obtain ⟨log', hlog'⟩ := hsaved.appended hplan hfree
    exact ⟨log', hlog'.congr rfl rfl⟩

theorem after_logged (calls : List (Time × PlanCall)) (h : Logged s log) :
    ∃ log', Logged (s.after m calls) log' := by
  induction calls generalizing s log with
  | nil => exact ⟨log, h⟩
  | cons call calls ih =>
    obtain ⟨log', hlog'⟩ := (call_step call.1 call.2 s : Step m _ _ _ _ _).logged h
    exact ih hlog'

end MemoryPlanStore

open MemoryPlanStore

variable {Text : Type} [DecidableEq Text]

/-- After any sequence of calls, accepted, replayed or refused, the events of a plan are
numbered from one in the order of the appends, with ids that say the plan and the number;
keys and stored events correspond one to one; a call only appends; a call that answers an
event answers the one that claimed its key, and so does every later call with that key; and
a call that fails leaves the store as it was. -/
theorem event_log_integrity (m : Marshal Text) (calls : List (Time × PlanCall)) :
    let s := new.after m calls
    (∀ plan (i : Nat) event, (s.events plan)[i]? = some event →
      event.sequence = i + 1 ∧ event.eventID = plan ++ ":" ++ toString (i + 1)) ∧
    (∀ key event, s.eventKeys key = some event →
      ∃! i : Nat, (s.events key.planID)[i]? = some event) ∧
    (∀ plan (i : Nat) event, (s.events plan)[i]? = some event →
      ∃! idempotencyKey, s.eventKeys ⟨plan, idempotencyKey⟩ = some event) ∧
    (∀ now c plan, s.events plan <+: (s.call m now c).1.events plan) ∧
    (∀ now c key stored, c.eventKey = some key → (s.call m now c).2 = .ok (.event stored) →
      (s.call m now c).1.eventKeys key = some stored ∧
      ∀ later now' c' stored', c'.eventKey = some key →
        (((s.call m now c).1.after m later).call m now' c').2 = .ok (.event stored') →
        stored' = stored) ∧
    ∀ now c err, (s.call m now c).2 = .error err → (s.call m now c).1 = s := by
  intro s
  obtain ⟨log, hlog⟩ : ∃ log, Logged s log := after_logged calls Logged.new
  refine ⟨?_, ?_, ?_, ?_, ?_, ?_⟩
  · intro plan i event hevent
    rw [hlog.events] at hevent
    have hstamp := hlog.stamped plan i event hevent
    refine ⟨hstamp, ?_⟩
    rw [hlog.named plan event (mem_of_getElem? hevent), hstamp]
    rfl
  · intro key event hkey
    rw [hlog.events]
    exact (hlog.stamped key.planID).place (hlog.keys key ▸ hkey)
  · intro plan i event hevent
    rw [hlog.events] at hevent
    simp only [hlog.keys]
    exact (hlog.stamped plan).claim hevent
  · intro now c plan
    exact (call_step now c s).events_grow plan
  · intro now c key stored hkey hreply
    have hclaimed := Step.claims (hreply ▸ call_step now c s) hkey
    refine ⟨hclaimed, fun later now' c' stored' hkey' hreply' => ?_⟩
    obtain ⟨hkept, -⟩ := after_keeps_key (m := m) later hclaimed
    have hstep := call_step (m := m) now' c' ((s.call m now c).1.after m later)
    rw [hreply'] at hstep
    have hclaimed' := hstep.claims hkey'
    rw [(hstep.keeps_key hkept).1] at hclaimed'
    cases hclaimed'
    rfl
  · intro now c err herr
    exact Step.unchanged (herr ▸ call_step now c s)

/-! ## Retries of a transition -/

namespace MemoryPlanStore

variable {m : Marshal Text} {now : Time} {s s' : MemoryPlanStore}

variable {spec : RunPlanSpec} {snapshot : PlanStateSnapshot} {given : Option PlanStateSnapshot}
  {idempotencyKey : String} {identity : PlanTransitionSnapshotIdentity Text}
  {prepared : PreparedTransition Text}

theorem normalizeMemoryPlanStateSnapshot_clock (now now' : Time)
    (h : snapshot.status.updatedAt ≠ 0) :
    normalizeMemoryPlanStateSnapshot now (some snapshot) =
      normalizeMemoryPlanStateSnapshot now' (some snapshot) := by
  have hstatus : (if snapshot.status.planID = "" then
      { snapshot.status with planID := snapshot.spec.planID } else snapshot.status).updatedAt =
        snapshot.status.updatedAt := by
    split <;> rfl
  simp [normalizeMemoryPlanStateSnapshot, Time.isZero, hstatus, if_neg h]

theorem validatePlanEventIdempotency_numbered {requested event : PlanEvent}
    {text : Text} (place : Nat) (now : Time)
    (hscope : scopePlanEventToSpec (normalizePlanEventAppendRequest requested) spec = .ok event)
    (htext : m.event (planEventIdempotencyIdentity event) = .ok text)
    (hclone : m.event (planEventIdempotencyIdentity event.clone) = .ok text) :
    validatePlanEventIdempotency m (numbered event place now).clone event = .ok () := by
  have hevent := (scopePlanEventToSpec_ok hscope).1
  have hid : event.eventID = "" := by
    rw [hevent]
    rfl
  have hsequence : event.sequence = 0 := by
    rw [hevent]
    rfl
  have htime : normalizeDurableTimestamp event.timestamp = event.timestamp := by
    rw [hevent]
    exact normalizeDurableTimestamp_idem requested.timestamp
  have hidentity : planEventIdempotencyIdentity (numbered event place now).clone =
      planEventIdempotencyIdentity event.clone := rfl
  have hmatches : ¬ ((!event.timestamp.isZero) = true ∧
      (!sameTime (numbered event place now).clone.timestamp event.timestamp) = true) := by
    rintro ⟨hzero, hdiffers⟩
    have hset : event.timestamp.isZero = false := by simpa using hzero
    have hstamp : (numbered event place now).clone.timestamp = event.timestamp := by
      simp [PlanEvent.clone, numbered, hset, htime]
    simp [hstamp, sameTime, hset] at hdiffers
  simp only [validatePlanEventIdempotency, hid, hsequence, ne_eq, not_true_eq_false, false_and,
    if_false, if_neg hmatches, hidentity]
  exact sameJSON_ok.mpr ⟨text, hclone, htext⟩

omit [DecidableEq Text] in
theorem newPlanTransitionSnapshotIdentity_ok
    (h : newPlanTransitionSnapshotIdentity m snapshot idempotencyKey = .ok identity) :
    ∃ text, m.transition (planTransitionIdempotencyIdentity snapshot idempotencyKey) = .ok text ∧
      identity.digest = "sha256:" ++ m.sha256 text := by
  unfold newPlanTransitionSnapshotIdentity at h
  split at h
  · cases h
  split at h
  · cases h
  · next text htext =>
    cases h
    exact ⟨text, htext, rfl⟩

theorem persistPlanTransition_claimed {event : Option PlanEvent} {existing : PlanEvent}
    (hprepared : prepareTransition m now given event idempotencyKey = .ok prepared)
    (hexisting : s.eventKeys ⟨prepared.event.planID, idempotencyKey⟩ = some existing) :
    s.persistPlanTransition m now given event idempotencyKey =
      (s, (validateMemoryPlanTransitionReplay m existing prepared.event
        (s.transitionSnapshots ⟨prepared.event.planID, idempotencyKey⟩) prepared.identity).map
          fun _ => existing) := by
  simp [persistPlanTransition, hprepared, hexisting]

omit [DecidableEq Text] in
theorem validatePlanTransitionIdempotency_ok {existingDigest : String}
    {requested : PlanTransitionSnapshotIdentity Text}
    (h : validatePlanTransitionIdempotency existingDigest requested = .ok ()) :
    existingDigest = requested.digest := by
  unfold validatePlanTransitionIdempotency at h
  split_ifs at h with _ _ heq
  exact not_not.mp heq

omit [DecidableEq Text] in
theorem validatePlanTransitionIdempotency_self
    (h : newPlanTransitionSnapshotIdentity m snapshot idempotencyKey = .ok identity) :
    validatePlanTransitionIdempotency identity.digest identity = .ok () := by
  obtain ⟨text, -, hdigest⟩ := newPlanTransitionSnapshotIdentity_ok h
  have hne : identity.digest ≠ "" := by
    rw [hdigest]
    intro hempty
    have hlength := congrArg String.length hempty
    simp at hlength
  simp [validatePlanTransitionIdempotency, hne]

/-- The identity of an event can be encoded, whatever its tenant, and that of its copy has the same
encoding. -/
def Encodes (m : Marshal Text) (event : PlanEvent) : Prop :=
  ∀ accountID projectID, ∃ text,
    m.event (planEventIdempotencyIdentity { event with accountID, projectID }) = .ok text ∧
      m.event (planEventIdempotencyIdentity { event.clone with accountID, projectID }) = .ok text

theorem persistPlanTransition_ok {requested stored : PlanEvent} (hencodes : Encodes m requested)
    (h : s.persistPlanTransition m now given (some requested) idempotencyKey = (s', .ok stored)) :
    ∃ prepared, prepareTransition m now given (some requested) idempotencyKey = .ok prepared ∧
      prepared.event.planID = requested.planID ∧
      s'.eventKeys ⟨requested.planID, idempotencyKey⟩ = some stored ∧
      s'.transitionSnapshots ⟨requested.planID, idempotencyKey⟩ = prepared.identity.digest ∧
      validateMemoryPlanTransitionReplay m stored prepared.event prepared.identity.digest
        prepared.identity = .ok () := by
  cases hprepared : prepareTransition m now given (some requested) idempotencyKey with
  | error err => simp [persistPlanTransition, hprepared] at h
  | ok prepared =>
    obtain ⟨-, hidentity, event, hevent, hplan, -, hscope⟩ := prepareTransition_ok hprepared
    cases hevent
    refine ⟨prepared, rfl, hplan, ?_⟩
    cases hexisting : s.eventKeys ⟨requested.planID, idempotencyKey⟩ with
    | some existing =>
      -- the call was itself a replay
      rw [persistPlanTransition_claimed hprepared (hplan ▸ hexisting), hplan] at h
      obtain ⟨rfl, hreplay⟩ := Prod.mk.inj h
      cases hvalid : validateMemoryPlanTransitionReplay m existing prepared.event
          (s.transitionSnapshots ⟨requested.planID, idempotencyKey⟩) prepared.identity with
      | error err =>
        rw [hvalid] at hreplay
        cases hreplay
      | ok _ =>
        rw [hvalid] at hreplay
        cases hreplay
        obtain ⟨⟨⟩, -, hdigest⟩ := bind_ok hvalid
        have hdigest := validatePlanTransitionIdempotency_ok hdigest
        exact ⟨hexisting, hdigest, hdigest ▸ hvalid⟩
    | none =>
      have hstep := persistPlanTransition_step (m := m) now given (some requested) idempotencyKey s
      simp only [call, h, Prod.map, id_eq, Except.map] at hstep
      cases hstep with
      | replayed hkey hstored =>
        cases hkey
        rw [hexisting] at hstored
        cases hstored
      | transitioned hprepared' hkey =>
        cases hkey
        rw [hprepared] at hprepared'
        cases hprepared'
        obtain ⟨text, htext⟩ := hencodes prepared.snapshot.spec.accountID
          prepared.snapshot.spec.projectID
        have hencoded : m.event (planEventIdempotencyIdentity prepared.event) = .ok text ∧
            m.event (planEventIdempotencyIdentity prepared.event.clone) = .ok text := by
          rw [(scopePlanEventToSpec_ok hscope).1]
          exact htext
        refine ⟨update_self _ _ _, update_self _ _ _, ?_⟩
        simp only [validateMemoryPlanTransitionReplay,
          validatePlanEventIdempotency_numbered _ _ hscope hencoded.1 hencoded.2, bind, Except.bind]
        exact validatePlanTransitionIdempotency_self hidentity

end MemoryPlanStore

open MemoryPlanStore in
/-- A transition that succeeded can be repeated after any further calls: the repetition
answers the event that is stored for it and changes nothing.  A snapshot whose encoding
differs once it is normalized is refused under the same key, and changes nothing. -/
theorem transition_retry {m : Marshal Text} (hsha : Injective m.sha256) {now : Time}
    {snapshot : PlanStateSnapshot} {event stored : PlanEvent} {idempotencyKey : String}
    {s s' : MemoryPlanStore} (hupdated : snapshot.status.updatedAt ≠ 0) (hencodes : Encodes m event)
    (h : s.persistPlanTransition m now (some snapshot) (some event) idempotencyKey =
      (s', .ok stored)) (calls : List (Time × PlanCall)) (now' : Time) :
    (s'.after m calls).persistPlanTransition m now' (some snapshot) (some event) idempotencyKey =
      (s'.after m calls, .ok stored) ∧
    ∀ (other : Option PlanStateSnapshot) (event' : PlanEvent), event'.planID = event.planID →
      (∀ normalized normalized',
        normalizeMemoryPlanStateSnapshot now (some snapshot) = .ok normalized →
        normalizeMemoryPlanStateSnapshot now' other = .ok normalized' →
        m.transition (planTransitionIdempotencyIdentity normalized' idempotencyKey) ≠
          m.transition (planTransitionIdempotencyIdentity normalized idempotencyKey)) →
      ∃ err, (s'.after m calls).persistPlanTransition m now' other (some event') idempotencyKey =
        (s'.after m calls, .error err) := by
  obtain ⟨prepared, hprepared, hplan, hstored, hdigest, hreplay⟩ :=
    persistPlanTransition_ok hencodes h
  obtain ⟨hkept, hkeptDigest⟩ := after_keeps_key (m := m) calls hstored
  refine ⟨?_, fun other event' hplan' hdiffers => ?_⟩
  · have hclock : prepareTransition m now' (some snapshot) (some event) idempotencyKey =
        .ok prepared := by
      rw [← hprepared]
      simp [prepareTransition, normalizeMemoryPlanStateSnapshot_clock now' now hupdated]
    rw [persistPlanTransition_claimed hclock (hplan ▸ hkept), hplan, hkeptDigest, hdigest, hreplay]
    rfl
  · cases hother : prepareTransition m now' other (some event') idempotencyKey with
    | error err => exact ⟨err, by simp [persistPlanTransition, hother]⟩
    | ok prepared' =>
      obtain ⟨hnormalized', hidentity', _, hevent', hsame, -⟩ := prepareTransition_ok hother
      cases hevent'
      obtain ⟨hnormalized, hidentity, -⟩ := prepareTransition_ok hprepared
      rw [persistPlanTransition_claimed hother (hsame ▸ hplan' ▸ hkept), hsame, hplan',
        hkeptDigest, hdigest]
      cases hvalid : validateMemoryPlanTransitionReplay m stored prepared'.event
          prepared.identity.digest prepared'.identity with
      | error err => exact ⟨err, rfl⟩
      | ok _ =>
        -- the digests are equal, and then so are the texts
        obtain ⟨⟨⟩, -, hvalid⟩ := bind_ok hvalid
        have heq := validatePlanTransitionIdempotency_ok hvalid
        obtain ⟨text, htext, hdigest⟩ := newPlanTransitionSnapshotIdentity_ok hidentity
        obtain ⟨text', htext', hdigest'⟩ := newPlanTransitionSnapshotIdentity_ok hidentity'
        rw [hdigest, hdigest', String.append_right_inj] at heq
        refine absurd ?_ (hdiffers _ _ hnormalized hnormalized')
        rw [htext, htext', hsha heq]

/-- The JSON of entries without numbers. -/
def printedEntries {N : Type} (entries : List (String × AnyValue N)) : String :=
  (encodeValue (.obj entries)).text fun _ => ""

/-- An encoder that prints what the runs below set, under a hash that tells texts apart. -/
def printed : Marshal String where
  spec spec := .ok (spec.planID ++ "@" ++ toString spec.requestedAt)
  identity identity := .ok (identity.planID ++ "@" ++ toString identity.requestedAt)
  node node := .ok node.nodeID
  edge edge := .ok edge.edgeID
  transition fields := .ok (fields.spec.planID ++ "@" ++ toString fields.spec.requestedAt ++ " " ++
    fields.status.planID ++ "@" ++ toString fields.status.updatedAt ++
    printedEntries fields.spec.inputs)
  event identity := .ok (identity.eventType ++ printedEntries identity.payload)
  sha256 := id
  rfc3339 := toString

/-- A spec of one tenant, requested at an instant. -/
def requestedSpec (requestedAt : Time) : RunPlanSpec :=
  { planID := "plan", accountID := "a", projectID := "p", idempotencyKey := "start", requestedAt }

/-- A snapshot of that spec, taken at an instant. -/
def takenSnapshot (requestedAt updatedAt : Time) : PlanStateSnapshot :=
  { spec := requestedSpec requestedAt, status := { planID := "plan", updatedAt } }

/-- The store in which that plan was started. -/
def startedStore (m : Marshal Text) (requestedAt : Time) : MemoryPlanStore :=
  (new.createPlan m 1 (some (requestedSpec requestedAt)) (some {})).1

/-- The event of a transition. -/
def planStarted : PlanEvent := { planID := "plan", eventType := "plan.started", timestamp := 1499 }

/-- A transition repeated behind a later transition and an append answers its event again,
and another snapshot is refused under its key. -/
theorem transition_retry_later :
    let first := (startedStore printed 2000).persistPlanTransition printed 3
      (some (takenSnapshot 2000 7)) (some planStarted) "k1"
    let store := first.1.after printed
      [(4, .persistPlanTransition (some (takenSnapshot 2000 8)) (some planStarted) "k2"),
        (5, .appendPlanEvent (some planStarted) "k3")]
    store.persistPlanTransition printed 6 (some (takenSnapshot 2000 7)) (some planStarted) "k1" =
        (store, .ok (numbered
          { planStarted with accountID := "a", projectID := "p", timestamp := 1000 } 1 3)) ∧
      ∃ err, store.persistPlanTransition printed 6 (some (takenSnapshot 2000 8))
        (some planStarted) "k1" = (store, .error err) := by
  intro first store
  have hfirst : first = (first.1, .ok (numbered
      { planStarted with accountID := "a", projectID := "p", timestamp := 1000 } 1 3)) := rfl
  obtain ⟨hsame, hother⟩ := transition_retry (fun _ _ h => h)
    (by decide : (takenSnapshot 2000 7).status.updatedAt ≠ 0) (fun _ _ => ⟨_, rfl, rfl⟩) hfirst
    [(4, .persistPlanTransition (some (takenSnapshot 2000 8)) (some planStarted) "k2"),
      (5, .appendPlanEvent (some planStarted) "k3")] 6
  refine ⟨hsame, hother (some (takenSnapshot 2000 8)) planStarted rfl ?_⟩
  intro normalized normalized' hnormalized hnormalized'
  cases hnormalized
  cases hnormalized'
  decide

/-- A snapshot of that spec, with an input. -/
def taggedSnapshot (tags : Json) : PlanStateSnapshot :=
  { takenSnapshot 2000 7 with spec := { requestedSpec 2000 with inputs := [("tags", tags)] } }

/-- The ids of the events that a transition answers, and then a transition under the same key. -/
def persistedTwice (m : Marshal String) (event : PlanEvent) (first second : PlanStateSnapshot) :
    Option String × Option String :=
  let once := (startedStore m first.spec.requestedAt).persistPlanTransition m 3 (some first)
    (some event) "k1"
  let again := once.1.persistPlanTransition m 4 (some second) (some event) "k1"
  (once.2.toOption.map PlanEvent.eventID, again.2.toOption.map PlanEvent.eventID)

/-- Neither half holds as it stands.  An event that cannot be encoded is stored, and its
repetition fails; so does that of an event with an empty `[]string`, which is stored as nil.  Two
snapshots whose request instants differ below the microsecond, or of which one has an empty
`[]string` and the other a nil one, have different encodings, and the second is accepted under the
key of the first. -/
theorem transition_retry_refuted :
    let text snapshot := printed.transition (planTransitionIdempotencyIdentity snapshot "k1")
    let taken := takenSnapshot 2000 7
    persistedTwice { printed with event := fun _ => .error "json: unsupported value: NaN" }
        planStarted taken taken = (some "plan:1", none) ∧
      persistedTwice printed { planStarted with payload := some [("tags", .num .emptyStrings)] }
        taken taken = (some "plan:1", none) ∧
      (text (takenSnapshot 2001 7) ≠ text (takenSnapshot 2002 7) ∧
        persistedTwice printed planStarted (takenSnapshot 2001 7) (takenSnapshot 2002 7) =
          (some "plan:1", some "plan:1")) ∧
      text (taggedSnapshot (.num .emptyStrings)) ≠ text (taggedSnapshot .null) ∧
        persistedTwice printed planStarted (taggedSnapshot (.num .emptyStrings))
          (taggedSnapshot .null) = (some "plan:1", some "plan:1") := by
  decide +kernel

end AgentOS.Store
