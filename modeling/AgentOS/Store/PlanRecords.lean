import AgentOS.Plan.Types
import AgentOS.Store.AuditLog

/-!
# Snapshots, events and their identities

What the plan stores share, from `internal/usecase/agentosplan/idempotency.go` and `scope.go`:
the checks that a repeated request is the request it claims to be, the digest of a transition,
and the scope and the precision of what is stored.
-/

namespace AgentOS.Store

open Kit Document

/-! ## Records -/

deriving instance DecidableEq for Plan.RunSpec
deriving instance DecidableEq for Plan.PlanNodeSpec
deriving instance DecidableEq for Plan.RunPlanSpec

/-- `RunPlanSpec`, with the instant of the request, which the plan loop does not read. -/
structure RunPlanSpec extends Plan.RunPlanSpec where
  requestedAt : Time := 0
  deriving DecidableEq

structure PlanStateSnapshot where
  spec : RunPlanSpec
  status : Plan.RunPlanStatus

/-- `PlanEvent`, with the fields of the `Event` in it.  The event types are those of any
backend. -/
structure PlanEvent where
  (eventID eventType runID processID threadID : String := "")
  sequence : Int := 0
  timestamp : Time := 0
  source : String := ""
  payload : Option (List (String × AnyValue Number)) := none
  (planID accountID projectID nodeID externalEventID : String := "")

/-! ## What is copied and encoded -/

section Values

variable {N : Type}

/-- `cloneMemoryAnyValue`: `append([]string(nil), typed...)` of an empty slice is nil, and
`make([]map[string]any, len(typed))` of a nil one is empty. -/
def cloneMemoryAnyValue : AnyValue N → AnyValue N :=
  fill fun
    | .num n => .num (.num n)
    | .emptyStrings => .null
    | .nilMaps => .arr []

/-- The JSON of a value. -/
def encodeValue : AnyValue N → AnyValue N :=
  fill fun
    | .num n => .num (.num n)
    | .emptyStrings => .arr []
    | .nilMaps => .null

theorem clone_clone (v : AnyValue N) :
    cloneMemoryAnyValue (cloneMemoryAnyValue v) = cloneMemoryAnyValue v := by
  unfold cloneMemoryAnyValue
  rw [fill_fill]
  congr
  funext leaf
  cases leaf <;> rfl

theorem encode_encode (v : AnyValue N) : encodeValue (encodeValue v) = encodeValue v := by
  unfold encodeValue
  rw [fill_fill]
  congr
  funext leaf
  cases leaf <;> rfl

def mapValues (f : AnyValue N → AnyValue N) (entries : List (String × AnyValue N)) :
    List (String × AnyValue N) :=
  entries.map fun (key, value) => (key, f value)

theorem mapValues_idem {f : AnyValue N → AnyValue N} (h : ∀ v, f (f v) = f v)
    (entries : List (String × AnyValue N)) :
    mapValues f (mapValues f entries) = mapValues f entries := by
  simp [mapValues, h]

end Values

/-- Apply a function to the values of the inputs, those of the plan and those of its nodes.  The
other slices and maps of a spec are left out of the JSON when they are empty. -/
def RunPlanSpec.mapInputs (f : Json → Json) (spec : RunPlanSpec) : RunPlanSpec :=
  { spec with
    inputs := mapValues f spec.inputs
    nodes := spec.nodes.map fun node =>
      { node with run := { node.run with input := mapValues f node.run.input } } }

theorem RunPlanSpec.mapInputs_idem {f : Json → Json} (h : ∀ v, f (f v) = f v)
    (spec : RunPlanSpec) : (spec.mapInputs f).mapInputs f = spec.mapInputs f := by
  simp [mapInputs, mapValues_idem h]

/-- `cloneRunPlanSpec`. -/
def RunPlanSpec.clone (spec : RunPlanSpec) : RunPlanSpec := spec.mapInputs cloneMemoryAnyValue

/-- The JSON of a spec. -/
def RunPlanSpec.encoded (spec : RunPlanSpec) : RunPlanSpec := spec.mapInputs encodeValue

/-- `clonePlanEvent`. -/
def PlanEvent.clone (event : PlanEvent) : PlanEvent :=
  { event with payload := event.payload.map (mapValues cloneMemoryAnyValue) }

/-- `planStateIdentityFields`: the spec without its topology. -/
structure PlanStateIdentity where
  (planID threadID accountID projectID idempotencyKey : String)
  requestedAt : Time
  inputs : List (String × Json)
  metadata : List (String × String)
  policy : Plan.PlanPolicy
  deriving DecidableEq

def planStateIdentity (spec : RunPlanSpec) : PlanStateIdentity where
  planID := spec.planID
  threadID := spec.threadID
  accountID := spec.accountID
  projectID := spec.projectID
  idempotencyKey := spec.idempotencyKey
  requestedAt := spec.requestedAt
  inputs := spec.inputs
  metadata := spec.metadata
  policy := spec.policy

/-- The JSON of an identity. -/
def PlanStateIdentity.encoded (identity : PlanStateIdentity) : PlanStateIdentity :=
  { identity with inputs := mapValues encodeValue identity.inputs }

/-- `planTransitionIdempotencyFields`. -/
structure PlanTransitionIdentity where
  spec : RunPlanSpec
  status : Plan.RunPlanStatus
  idempotencyKey : String

def planTransitionIdempotencyIdentity (snapshot : PlanStateSnapshot) (idempotencyKey : String) :
    PlanTransitionIdentity where
  spec := snapshot.spec
  status := snapshot.status
  idempotencyKey := idempotencyKey

/-- `planEventIdempotencyFields`.  The payload is never the nil map. -/
structure PlanEventIdentity where
  (planID accountID projectID nodeID runID threadID eventType source externalEventID : String)
  payload : List (String × AnyValue Number)

def planEventIdempotencyIdentity (event : PlanEvent) : PlanEventIdentity where
  planID := event.planID
  accountID := event.accountID
  projectID := event.projectID
  nodeID := event.nodeID
  runID := event.runID
  threadID := event.threadID
  eventType := event.eventType
  source := event.source
  externalEventID := event.externalEventID
  payload := event.payload.getD []

/-- `json.Marshal` on what the stores encode, the SHA-256 of a text in hexadecimal, and the
RFC 3339 form of an instant. -/
structure Marshal (Text : Type) where
  spec : RunPlanSpec → Except String Text
  identity : PlanStateIdentity → Except String Text
  node : Plan.PlanNodeSpec → Except String Text
  edge : Plan.PlanEdgeSpec → Except String Text
  transition : PlanTransitionIdentity → Except String Text
  event : PlanEventIdentity → Except String Text
  sha256 : Text → String
  rfc3339 : Time → String

/-- The texts of a spec and of its identity are those of their JSON, and tell it. -/
structure Marshal.Faithful {Text : Type} (m : Marshal Text) : Prop where
  spec : ∃ text, Function.Injective text ∧
    ∀ spec : RunPlanSpec, m.spec spec = .ok (text spec.encoded)
  identity : ∃ text, Function.Injective text ∧
    ∀ identity : PlanStateIdentity, m.identity identity = .ok (text identity.encoded)

variable {Text : Type} [DecidableEq Text] {m : Marshal Text}

def sameJSON (sentinel : Sentinel) (what : String) (existing requested : Except String Text)
    (different : String) : Except Err Unit :=
  match existing, requested with
  | .error err, _ => errorf sentinel ("marshal existing " ++ what ++ ": " ++ err)
  | .ok _, .error err => errorf sentinel ("marshal requested " ++ what ++ ": " ++ err)
  | .ok existingJSON, .ok requestedJSON =>
    if existingJSON ≠ requestedJSON then errorf sentinel different else .ok ()

theorem sameJSON_ok {sentinel : Sentinel} {what different : String}
    {existing requested : Except String Text} :
    sameJSON sentinel what existing requested different = .ok () ↔
      ∃ text, existing = .ok text ∧ requested = .ok text := by
  unfold sameJSON
  split
  · simp
  · simp
  · next existingJSON requestedJSON =>
    by_cases h : existingJSON = requestedJSON
    · simp [h]
    · simp [h, Ne.symm h]

def jsonKey (encoded : Except String Text) : Option Text := encoded.toOption

/-! ## Starts and snapshots -/

def validatePlanStartIdempotency (m : Marshal Text) (existing requested : RunPlanSpec) :
    Except Err Unit :=
  if existing.planID ≠ requested.planID then
    errorf .invalidRunPlan ("plan idempotency key belongs to plan " ++ quoted existing.planID)
  else if existing.idempotencyKey ≠ requested.idempotencyKey then
    errorf .invalidRunPlan
      ("plan " ++ quoted existing.planID ++ " was started with a different idempotency key")
  else
    sameJSON .invalidRunPlan "plan start request" (m.spec existing) (m.spec requested)
      ("plan " ++ quoted existing.planID ++ " idempotency key was reused with a different request")

def validateTopologyExpansion (m : Marshal Text) (existing requested : RunPlanSpec) :
    Except Err Unit := do
  existing.nodes.forM fun node =>
    match requested.nodes.reverse.find? fun requestedNode => requestedNode.nodeID = node.nodeID with
    | none =>
      errorf .invalidRunPlan
        ("plan " ++ quoted existing.planID ++ " removed existing node " ++ quoted node.nodeID)
    | some requestedNode =>
      if jsonKey (m.node node) ≠ jsonKey (m.node requestedNode) then
        errorf .invalidRunPlan
          ("plan " ++ quoted existing.planID ++ " changed existing node " ++ quoted node.nodeID)
      else .ok ()
  existing.edges.forM fun edge =>
    if jsonKey (m.edge edge) ∉ requested.edges.map fun requestedEdge =>
        jsonKey (m.edge requestedEdge) then
      errorf .invalidRunPlan
        ("plan " ++ quoted existing.planID ++ " removed or changed existing edge " ++
          quoted edge.edgeID)
    else .ok ()

def validatePlanStateIdentity (m : Marshal Text) (existing requested : RunPlanSpec) :
    Except Err Unit :=
  if existing.planID ≠ requested.planID then
    errorf .invalidRunPlan ("plan state belongs to plan " ++ quoted existing.planID)
  else if existing.idempotencyKey ≠ requested.idempotencyKey then
    errorf .invalidRunPlan
      ("plan " ++ quoted existing.planID ++ " state has a different idempotency key")
  else do
    sameJSON .invalidRunPlan "plan state identity" (m.identity (planStateIdentity existing))
      (m.identity (planStateIdentity requested))
      ("plan " ++ quoted existing.planID ++ " state changed immutable fields")
    validateTopologyExpansion m existing requested

variable {existing requested : RunPlanSpec} {spec : RunPlanSpec}

theorem validatePlanStateIdentity_ok (h : validatePlanStateIdentity m existing requested = .ok ()) :
    existing.planID = requested.planID ∧ existing.idempotencyKey = requested.idempotencyKey ∧
      ∃ text, m.identity (planStateIdentity existing) = .ok text ∧
        m.identity (planStateIdentity requested) = .ok text := by
  unfold validatePlanStateIdentity at h
  split at h
  · cases h
  next hid =>
  split at h
  · cases h
  · next hkey =>
    obtain ⟨⟨⟩, hsame, -⟩ := bind_ok h
    exact ⟨not_not.mp hid, not_not.mp hkey, sameJSON_ok.mp hsame⟩

theorem validatePlanStartIdempotency_ok :
    validatePlanStartIdempotency m existing requested = .ok () ↔
      existing.planID = requested.planID ∧ existing.idempotencyKey = requested.idempotencyKey ∧
        ∃ text, m.spec existing = .ok text ∧ m.spec requested = .ok text := by
  unfold validatePlanStartIdempotency
  split
  · next h => simp [h]
  next hid =>
  split
  · next h => simp [h]
  next hkey =>
  rw [not_not] at hid hkey
  rw [sameJSON_ok]
  simp [hid, hkey]

/-- `NormalizeDurableTimestamp`: `timestamp.Round(time.Microsecond)`, halves up. -/
def normalizeDurableTimestamp (timestamp : Time) : Time :=
  if timestamp.isZero then timestamp else (timestamp + 500) / 1000 * 1000

theorem normalizeDurableTimestamp_idem (t : Time) :
    normalizeDurableTimestamp (normalizeDurableTimestamp t) = normalizeDurableTimestamp t := by
  have hround (t : Int) : ((t + 500) / 1000 * 1000 + 500) / 1000 * 1000 = (t + 500) / 1000 * 1000 := by
    omega
  simp only [normalizeDurableTimestamp, Time.isZero, decide_eq_true_eq]
  split_ifs with hzero hround_zero
  · rfl
  · rfl
  · exact hround t

def RunPlanSpec.durable (spec : RunPlanSpec) : RunPlanSpec :=
  { spec with requestedAt := normalizeDurableTimestamp spec.requestedAt }

theorem RunPlanSpec.eq_iff {spec spec' : RunPlanSpec} :
    spec = spec' ↔ planStateIdentity spec = planStateIdentity spec' ∧
      spec.nodes = spec'.nodes ∧ spec.edges = spec'.edges := by
  constructor
  · rintro rfl
    exact ⟨rfl, rfl, rfl⟩
  rintro ⟨hidentity, hnodes, hedges⟩
  obtain ⟨⟨⟩, _⟩ := spec
  obtain ⟨⟨⟩, _⟩ := spec'
  simp only [planStateIdentity, PlanStateIdentity.mk.injEq] at hidentity
  simp_all

/-- A start is compared with a spec that has its identity, but for the rounded time and for what
`f` makes of the inputs. -/
theorem validatePlanStartIdempotency_durable (hm : m.Faithful) {f : Json → Json}
    (hidentity : (planStateIdentity existing).encoded =
      (planStateIdentity (spec.durable.mapInputs f)).encoded) :
    validatePlanStartIdempotency m existing spec = .ok () ↔
      normalizeDurableTimestamp spec.requestedAt = spec.requestedAt ∧
        (spec.mapInputs f).encoded.inputs = spec.encoded.inputs ∧
        existing.encoded.nodes = spec.encoded.nodes ∧ existing.edges = spec.edges := by
  obtain ⟨text, hinjective, htext⟩ := hm.spec
  have hids : existing.planID = spec.planID ∧ existing.idempotencyKey = spec.idempotencyKey :=
    ⟨congrArg PlanStateIdentity.planID hidentity,
      congrArg PlanStateIdentity.idempotencyKey hidentity⟩
  have hsame : planStateIdentity existing.encoded = planStateIdentity spec.encoded ↔
      normalizeDurableTimestamp spec.requestedAt = spec.requestedAt ∧
        (spec.mapInputs f).encoded.inputs = spec.encoded.inputs := by
    rw [show planStateIdentity existing.encoded = _ from hidentity]
    simp [planStateIdentity, RunPlanSpec.durable, RunPlanSpec.encoded, RunPlanSpec.mapInputs,
      PlanStateIdentity.encoded]
  have hedges : existing.encoded.edges = spec.encoded.edges ↔ existing.edges = spec.edges := Iff.rfl
  rw [validatePlanStartIdempotency_ok, htext, htext, ← and_assoc (c := _ ∧ _), ← hsame, ← hedges,
    ← RunPlanSpec.eq_iff]
  constructor
  · rintro ⟨-, -, encoded, hexisting, hspec⟩
    cases hexisting
    exact (hinjective (Except.ok.inj hspec)).symm
  · intro heq
    exact ⟨hids.1, hids.2, _, rfl, by rw [heq]⟩

/-! ## Transitions -/

structure PlanTransitionSnapshotIdentity (Text : Type) where
  digest : String
  json : Text

def newPlanTransitionSnapshotIdentity (m : Marshal Text) (snapshot : PlanStateSnapshot)
    (idempotencyKey : String) : Except Err (PlanTransitionSnapshotIdentity Text) :=
  if idempotencyKey = "" then errorf .invalidRunPlan "transition idempotency key is required"
  else
    match m.transition (planTransitionIdempotencyIdentity snapshot idempotencyKey) with
    | .error err => errorf .invalidRunPlan ("marshal plan transition identity: " ++ err)
    | .ok identityJSON => .ok ⟨"sha256:" ++ m.sha256 identityJSON, identityJSON⟩

def validatePlanTransitionIdempotency (existingDigest : String)
    (requested : PlanTransitionSnapshotIdentity Text) : Except Err Unit :=
  if requested.digest = "" then
    errorf .invalidRunPlan "requested transition snapshot digest is required"
  else if existingDigest = "" then
    errorf .invalidRunPlan "transition idempotency key was not claimed by a reducer snapshot"
  else if existingDigest ≠ requested.digest then
    errorf .invalidRunPlan "transition idempotency key was reused with a different reducer snapshot"
  else .ok ()

/-! ## Events -/

def sameTime (left right : Time) : Bool :=
  if left.isZero || right.isZero then left.isZero && right.isZero else left == right

def validatePlanEventIdempotency (m : Marshal Text) (existing requested : PlanEvent) :
    Except Err Unit :=
  let belongs (what : String) : Except Err Unit :=
    errorf .invalidPlanEvent ("plan event idempotency key belongs to " ++ what)
  if requested.eventID ≠ "" ∧ existing.eventID ≠ requested.eventID then
    belongs ("event " ++ quoted existing.eventID)
  else if requested.sequence ≠ 0 ∧ existing.sequence ≠ requested.sequence then
    belongs ("sequence " ++ toString existing.sequence)
  else if !requested.timestamp.isZero ∧ !sameTime existing.timestamp requested.timestamp then
    belongs ("timestamp " ++ m.rfc3339 existing.timestamp)
  else
    sameJSON .invalidPlanEvent "plan event" (m.event (planEventIdempotencyIdentity existing))
      (m.event (planEventIdempotencyIdentity requested))
      "plan event idempotency key was reused with a different event"

def normalizePlanEventAppendRequest (event : PlanEvent) : PlanEvent :=
  { event with
    eventID := "", sequence := 0, timestamp := normalizeDurableTimestamp event.timestamp }

def scopePlanEventToSpec (event : PlanEvent) (spec : RunPlanSpec) : Except Err PlanEvent := do
  Plan.validateRunPlanScope spec.toRunPlanSpec
  if event.planID = "" then errorf .invalidPlanEvent "plan id is required"
  else if event.planID ≠ spec.planID then
    errorf .invalidPlanEvent ("event plan " ++ quoted event.planID ++
      " does not match stored plan " ++ quoted spec.planID)
  else if event.accountID ≠ "" ∧ event.accountID ≠ spec.accountID then
    errorf .invalidPlanEvent ("event account " ++ quoted event.accountID ++
      " does not match stored plan account " ++ quoted spec.accountID)
  else if event.projectID ≠ "" ∧ event.projectID ≠ spec.projectID then
    errorf .invalidPlanEvent ("event project " ++ quoted event.projectID ++
      " does not match stored plan project " ++ quoted spec.projectID)
  else .ok { event with accountID := spec.accountID, projectID := spec.projectID }

theorem scopePlanEventToSpec_ok {event inScope : PlanEvent}
    (h : scopePlanEventToSpec event spec = .ok inScope) :
    inScope = { event with accountID := spec.accountID, projectID := spec.projectID } ∧
      event.planID = spec.planID ∧ scopePlanEventToSpec inScope spec = .ok inScope := by
  obtain ⟨⟨⟩, hscope, h⟩ := bind_ok h
  by_cases hempty : event.planID = ""
  · simp [hempty] at h
  by_cases hplan : event.planID = spec.planID
  swap
  · simp [hempty, hplan] at h
  rw [if_neg hempty, if_neg (not_not.mpr hplan)] at h
  split at h
  · cases h
  split at h
  · cases h
  cases h
  refine ⟨rfl, hplan, ?_⟩
  rw [hplan] at hempty
  simp [scopePlanEventToSpec, hscope, hempty, hplan, bind, Except.bind]

/-- The stored event of an append: the request with its place in the log. -/
def numbered (event : PlanEvent) (place : Nat) (now : Time) : PlanEvent :=
  { event with
    sequence := place
    eventID := event.planID ++ ":" ++ toString place
    timestamp := normalizeDurableTimestamp
      (if event.timestamp.isZero then now else event.timestamp) }

end AgentOS.Store
