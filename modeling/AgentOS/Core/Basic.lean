import Mathlib.Algebra.Order.Ring.Int
import AgentOS.Kit.Document

/-!
# Shared control types

The types of `agentos/core` that the plan runtime reads: errors, control
requests, signals and artifact references, together with the fixed-width
integer arithmetic and the instants of the Go code.
-/

namespace AgentOS

/-! ## Machine integers and instants -/

def int32 (x : Int) : Int := x.bmod (2 ^ 32)

def int64 (x : Int) : Int := x.bmod (2 ^ 64)

theorem int32_eq_self {x : Int} (h : -2 ^ 31 ≤ x) (h' : x < 2 ^ 31) : int32 x = x := by
  exact Int.bmod_eq_of_le (by omega) (by omega)

theorem int64_eq_self {x : Int} (h : -2 ^ 63 ≤ x) (h' : x < 2 ^ 63) : int64 x = x := by
  exact Int.bmod_eq_of_le (by omega) (by omega)

theorem int32_add (x y : Int) : int32 (int32 x + y) = int32 (x + y) := Int.bmod_add_bmod ..

theorem int64_add (x y : Int) : int64 (int64 x + y) = int64 (x + y) := Int.bmod_add_bmod ..

/-- An instant in nanoseconds.  `0` is the zero `time.Time`. -/
abbrev Time := Int

def Time.isZero (t : Time) : Bool := t = 0

/-- `t.Add(time.Duration(seconds) * time.Second)`.  The duration is an `int64`
count of nanoseconds, so the product wraps. -/
def Time.addSeconds (t : Time) (seconds : Int) : Time := t + int64 (seconds * 1000000000)

/-! ## Errors -/

/-- The error values of `agentos/core/errors.go` that the modelled code wraps. -/
inductive Sentinel where
  | invalidRunSpec
  | invalidBackendRef
  | invalidSignal
  | invalidControlOperation
  | invalidRunPlan
  | invalidPlanScope
  | planRouteNotFound
  | capabilityNotFound
  | invalidArtifact
  | artifactNotFound
  | invalidExpression
  | invalidPlanEvent
  | invalidResourceRef
  | invalidProcess
  | invalidProcessScope
  | processRouteNotFound
  | invalidGovernedAction
  | invalidGovernedActionScope
  | invalidWorkset
  | invalidWorksetScope
  deriving DecidableEq

def Sentinel.text : Sentinel → String
  | .invalidRunSpec => "agentos: invalid run spec"
  | .invalidBackendRef => "agentos: invalid backend ref"
  | .invalidSignal => "agentos: invalid signal"
  | .invalidControlOperation => "agentos: invalid control operation"
  | .invalidRunPlan => "agentos: invalid run plan"
  | .invalidPlanScope => "agentos: invalid plan scope"
  | .planRouteNotFound => "agentos: plan route not found"
  | .capabilityNotFound => "agentos: capability not found"
  | .invalidArtifact => "agentos: invalid artifact"
  | .artifactNotFound => "agentos: artifact not found"
  | .invalidExpression => "agentos: invalid expression"
  | .invalidPlanEvent => "agentos: invalid plan event"
  | .invalidResourceRef => "agentos: invalid resource ref"
  | .invalidProcess => "agentos: invalid process"
  | .invalidProcessScope => "agentos: invalid process scope"
  | .processRouteNotFound => "agentos: process route not found"
  | .invalidGovernedAction => "agentos: invalid governed action"
  | .invalidGovernedActionScope => "agentos: invalid governed action scope"
  | .invalidWorkset => "agentos: invalid workset"
  | .invalidWorksetScope => "agentos: invalid workset scope"

/-- An error value. -/
inductive Err where
  /-- `fmt.Errorf("%w: text", sentinel)`. -/
  | wrap (sentinel : Sentinel) (text : String)
  /-- `fmt.Errorf("scope: %w", err)`. -/
  | within (scope : String) (err : Err)
  /-- An error of the SDK, of an activity or of a backend. -/
  | external (text : String)
  /-- The workflow context was canceled. -/
  | canceled
  /-- `errors.Join(first, second)` of two errors. -/
  | join (first second : Err)

def Err.text : Err → String
  | .wrap sentinel text => sentinel.text ++ ": " ++ text
  | .within scope err => scope ++ ": " ++ err.text
  | .external text => text
  | .canceled => "canceled"
  | .join first second => first.text ++ "\n" ++ second.text

/-- A check that returns `fmt.Errorf("%w: text", sentinel)`. -/
abbrev errorf {α : Type} (sentinel : Sentinel) (text : String) : Except Err α :=
  .error (.wrap sentinel text)

theorem bind_ok {ε α β : Type} {x : Except ε α} {f : α → Except ε β} {b : β}
    (h : (x >>= f) = .ok b) : ∃ a, x = .ok a ∧ f a = .ok b := by
  cases x with
  | error err => cases h
  | ok a => exact ⟨a, rfl, h⟩

/-- The `%q` form of a string. -/
def quoted (s : String) : String := s.quote

/-! ## JSON values -/

/-- A number of a Go value, or a slice of a type that is not always copied as it is. -/
inductive GoLeaf (N : Type) where
  | num (n : N)
  /-- `[]string{}`. -/
  | emptyStrings
  /-- A nil `[]map[string]any` or `[]map[string]string`. -/
  | nilMaps
  deriving DecidableEq

/-- A Go value of type `any`.  Values of the types that are not told apart, nil values among them,
are given by their JSON. -/
abbrev AnyValue (N : Type) := Kit.Document (GoLeaf N)

/-- The `any` of the wire types, with integers. -/
abbrev Json := AnyValue Int

def Json.int (n : Int) : Json := .num (.num n)

def mapGet {β : Type} (m : List (String × β)) (key : String) : Option β :=
  (m.find? fun entry => entry.1 == key).map Prod.snd

def mapSet {β : Type} (m : List (String × β)) (key : String) (value : β) : List (String × β) :=
  (key, value) :: m.filter fun entry => entry.1 != key

/-! ## Control requests -/

/-- `ControlOperation`.  `other` is a string outside the declared constants. -/
inductive ControlOperation where
  | pause
  | resume
  | cancel
  | other (name : String)
  deriving DecidableEq

def ControlOperation.text : ControlOperation → String
  | .pause => "pause"
  | .resume => "resume"
  | .cancel => "cancel"
  | .other name => name

def ControlOperation.ofText (text : String) : ControlOperation :=
  ([.pause, .resume, .cancel].find? fun operation => operation.text = text).getD (.other text)

structure ControlRequest where
  operation : ControlOperation := .other ""
  idempotencyKey : String := ""
  requestedAt : Time := 0
  actorID : String := ""
  metadata : List (String × String) := []

def validateControlRequest (req : ControlRequest) : Except Err Unit :=
  match req.operation with
  | .pause | .resume | .cancel => .ok ()
  | .other name => errorf .invalidControlOperation name

/-- A control request on the wire.  A field that the sender left out is
`none`. -/
structure ControlMessage where
  operation : Option ControlOperation := none
  idempotencyKey : Option String := none
  requestedAt : Option Time := none
  actorID : Option String := none
  metadata : Option (List (String × String)) := none

/-- Decode a message into a variable, as `json.Unmarshal` does: a field that the
message leaves out keeps its value, and a map keeps its other keys. -/
def ControlMessage.decodeInto (msg : ControlMessage) (into : ControlRequest) : ControlRequest where
  operation := msg.operation.getD into.operation
  idempotencyKey := msg.idempotencyKey.getD into.idempotencyKey
  requestedAt := msg.requestedAt.getD into.requestedAt
  actorID := msg.actorID.getD into.actorID
  metadata := (msg.metadata.getD []).foldl (fun m e => mapSet m e.1 e.2) into.metadata

/-! ## Signals -/

/-- `SignalType`.  `other` is a string outside the declared constants. -/
inductive SignalType where
  | controlPause
  | controlResume
  | controlCancel
  | planNodeRetry
  | planApprove
  | planReject
  | userMessage
  | userApproval
  | userReject
  | toolResult
  | humanFeedback
  | configPatch
  | stepModify
  | externalEvent
  | memoryPatch
  | other (name : String)
  deriving DecidableEq

def SignalType.text : SignalType → String
  | .controlPause => "control.pause"
  | .controlResume => "control.resume"
  | .controlCancel => "control.cancel"
  | .planNodeRetry => "plan.node.retry"
  | .planApprove => "plan.approve"
  | .planReject => "plan.reject"
  | .userMessage => "user.message"
  | .userApproval => "user.approval"
  | .userReject => "user.reject"
  | .toolResult => "tool.result"
  | .humanFeedback => "human.feedback"
  | .configPatch => "config.patch"
  | .stepModify => "step.modify"
  | .externalEvent => "event.external"
  | .memoryPatch => "memory.patch"
  | .other name => name

def SignalType.ofText (text : String) : SignalType :=
  ([.controlPause, .controlResume, .controlCancel, .planNodeRetry, .planApprove, .planReject,
    .userMessage, .userApproval, .userReject, .toolResult, .humanFeedback, .configPatch,
    .stepModify, .externalEvent, .memoryPatch].find? fun type => type.text = text).getD
    (.other text)

structure Signal where
  type : SignalType := .other ""
  (idempotencyKey actorID : String := "")
  payload : List (String × Json) := []
  sentAt : Time := 0

/-- A signal on the wire.  A field that the sender left out is `none`. -/
structure SignalMessage where
  type : Option SignalType := none
  idempotencyKey : Option String := none
  actorID : Option String := none
  payload : Option (List (String × Json)) := none
  sentAt : Option Time := none

/-- Decode a message into a variable, as `json.Unmarshal` does. -/
def SignalMessage.decodeInto (msg : SignalMessage) (into : Signal) : Signal where
  type := msg.type.getD into.type
  idempotencyKey := msg.idempotencyKey.getD into.idempotencyKey
  actorID := msg.actorID.getD into.actorID
  payload := (msg.payload.getD []).foldl (fun m e => mapSet m e.1 e.2) into.payload
  sentAt := msg.sentAt.getD into.sentAt

/-! ## Artifacts -/

/-- `ArtifactKind`.  `other ""` is the unset kind. -/
inductive ArtifactKind where
  | object
  | text
  | file
  | patch
  | report
  | reference
  | planDelta
  | other (name : String)
  deriving DecidableEq

def ArtifactKind.name : ArtifactKind → String
  | .object => "object"
  | .text => "text"
  | .file => "file"
  | .patch => "patch"
  | .report => "report"
  | .reference => "reference"
  | .planDelta => "plan_delta"
  | .other name => name

/-- `ArtifactRef`, the fields that the plan loop reads. -/
structure ArtifactRef where
  (artifactID planID nodeID runID name : String := "")
  kind : ArtifactKind := .other ""
  mediaType : String := ""
  deriving DecidableEq

/-!
## What a message replaces

`decodeInto` sets the fields that a message holds.  A message that `covers` an earlier one
holds every field and every map key of it, so that nothing of the earlier message is left
after the decoding.
-/

open List

def fieldCovers {α : Type} (field earlier : Option α) : Bool := field.isSome || earlier.isNone

def mapCovers {β : Type} (entries earlier : Option (List (String × β))) : Bool :=
  (earlier.getD []).all fun e => (entries.getD []).any fun e' => e'.1 == e.1

/-- A control message holds all that an earlier one holds. -/
def ControlMessage.covers (msg earlier : ControlMessage) : Bool :=
  fieldCovers msg.operation earlier.operation &&
  fieldCovers msg.idempotencyKey earlier.idempotencyKey &&
  fieldCovers msg.requestedAt earlier.requestedAt &&
  fieldCovers msg.actorID earlier.actorID &&
  mapCovers msg.metadata earlier.metadata

/-- A signal message holds all that an earlier one holds. -/
def SignalMessage.covers (msg earlier : SignalMessage) : Bool :=
  fieldCovers msg.type earlier.type &&
  fieldCovers msg.idempotencyKey earlier.idempotencyKey &&
  fieldCovers msg.actorID earlier.actorID &&
  mapCovers msg.payload earlier.payload &&
  fieldCovers msg.sentAt earlier.sentAt

theorem getD_fieldCovers {α : Type} {field earlier : Option α}
    (h : fieldCovers field earlier = true) (value : α) :
    field.getD (earlier.getD value) = field.getD value := by
  cases field with
  | some _ => rfl
  | none =>
    cases earlier with
    | some _ => cases h
    | none => rfl

section Maps

variable {β : Type}

theorem foldl_mapSet_append (entries : List (String × β)) (m m' : List (String × β)) :
    entries.foldl (fun m e => mapSet m e.1 e.2) (m ++ m') =
      entries.foldl (fun m e => mapSet m e.1 e.2) m ++
        m'.filter fun e => entries.all fun e' => e.1 != e'.1 := by
  induction entries generalizing m m' with
  | nil => simp
  | cons entry entries ih =>
    have hset : mapSet (m ++ m') entry.1 entry.2 =
        mapSet m entry.1 entry.2 ++ m'.filter fun e => e.1 != entry.1 := by
      simp [mapSet]
    rw [foldl_cons, hset, ih, filter_filter]
    simp only [foldl_cons, all_cons, Bool.and_comm]

theorem foldl_mapSet (entries m : List (String × β)) :
    entries.foldl (fun m e => mapSet m e.1 e.2) m =
      entries.foldl (fun m e => mapSet m e.1 e.2) [] ++
        m.filter fun e => entries.all fun e' => e.1 != e'.1 :=
  foldl_mapSet_append entries [] m

theorem mem_foldl_mapSet {entries m : List (String × β)} {e : String × β}
    (h : e ∈ entries.foldl (fun m e => mapSet m e.1 e.2) m) : e ∈ entries ∨ e ∈ m := by
  induction entries generalizing m with
  | nil => exact .inr h
  | cons entry entries ih =>
    rcases ih h with hmem | hmem
    · exact .inl (mem_cons_of_mem _ hmem)
    · rcases mem_cons.mp hmem with rfl | hmem
      · exact .inl mem_cons_self
      · exact .inr (mem_of_mem_filter hmem)

theorem foldl_mapSet_mapCovers {entries earlier : Option (List (String × β))}
    (h : mapCovers entries earlier = true) (m : List (String × β)) :
    (entries.getD []).foldl (fun m e => mapSet m e.1 e.2)
        ((earlier.getD []).foldl (fun m e => mapSet m e.1 e.2) m) =
      (entries.getD []).foldl (fun m e => mapSet m e.1 e.2) m := by
  rw [foldl_mapSet, foldl_mapSet (earlier.getD []) m, foldl_mapSet (entries.getD []) m,
    filter_append, filter_filter]
  -- What the earlier map set is set again, and the keys it replaced are replaced now too.
  have hkeys : ∀ e ∈ earlier.getD [], ∃ e' ∈ entries.getD [], e'.1 = e.1 := by
    simpa [mapCovers] using h
  have hset : ((earlier.getD []).foldl (fun m e => mapSet m e.1 e.2) []).filter
      (fun e => (entries.getD []).all fun e' => e.1 != e'.1) = [] := by
    refine filter_eq_nil_iff.mpr fun e he hall => ?_
    obtain ⟨e', he', hkey⟩ := hkeys e ((mem_foldl_mapSet he).resolve_right not_mem_nil)
    exact absurd hkey.symm (by simpa using all_eq_true.mp hall e' he')
  have hrest : m.filter (fun e => ((entries.getD []).all fun e' => e.1 != e'.1) &&
      (earlier.getD []).all fun e' => e.1 != e'.1) =
      m.filter fun e => (entries.getD []).all fun e' => e.1 != e'.1 := by
    refine filter_congr fun e _ => ?_
    rw [Bool.and_eq_left_iff_imp]
    intro hall
    refine all_eq_true.mpr fun e' he' => ?_
    obtain ⟨e'', he'', hkey⟩ := hkeys e' he'
    rw [← hkey]
    exact all_eq_true.mp hall e'' he''
  rw [hset, hrest, nil_append]

end Maps

theorem ControlMessage.decodeInto_covers {msg earlier : ControlMessage}
    (h : msg.covers earlier = true) (into : ControlRequest) :
    msg.decodeInto (earlier.decodeInto into) = msg.decodeInto into := by
  simp only [covers, Bool.and_eq_true] at h
  obtain ⟨⟨⟨⟨hoperation, hkey⟩, hat⟩, hactor⟩, hmetadata⟩ := h
  simp [decodeInto, getD_fieldCovers hoperation, getD_fieldCovers hkey, getD_fieldCovers hat,
    getD_fieldCovers hactor, foldl_mapSet_mapCovers hmetadata]

theorem SignalMessage.decodeInto_covers {msg earlier : SignalMessage}
    (h : msg.covers earlier = true) (into : Signal) :
    msg.decodeInto (earlier.decodeInto into) = msg.decodeInto into := by
  simp only [covers, Bool.and_eq_true] at h
  obtain ⟨⟨⟨⟨htype, hkey⟩, hactor⟩, hpayload⟩, hat⟩ := h
  simp [decodeInto, getD_fieldCovers htype, getD_fieldCovers hkey, getD_fieldCovers hat,
    getD_fieldCovers hactor, foldl_mapSet_mapCovers hpayload]

end AgentOS
