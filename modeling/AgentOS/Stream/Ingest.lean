import AgentOS.Core.Basic
import AgentOS.Kit.Calls

/-!
# Events of external backends

`Service` of `internal/agentfw/eventing` puts the events of external backends on the bus, each at
most once by its claim in the dedupe store.  The claim is taken before the event is published.
-/

namespace AgentOS.Stream

open List

/-! ## The service -/

/-- `IngestEvent`; the trace, the tags and the payload are carried as they are. -/
structure IngestEvent where
  (eventType source : String)
  threadID : String := ""
  (runID eventID : String)
  timestamp : Time := 0

structure AgentOSEvent where
  (eventType source sessionID runID eventID : String)
  timestamp : Time

structure IngestResult where
  (runID eventID : String)
  duplicate : Bool

def agentOSStandardEventTypes : List String :=
  ["run.started", "run.completed", "run.failed", "run.canceled", "run.paused", "run.resumed",
    "agent.step.started", "agent.step.completed", "agent.step.failed", "agent.message.delta",
    "agent.message.completed", "tool.call.started", "tool.call.delta", "tool.call.completed",
    "tool.call.failed", "approval.requested", "approval.resolved", "usage.reported",
    "checkpoint.created"]

/-- `fmt.Errorf("%w: text", ErrInvalidEvent)`. -/
def errInvalidEvent (text : String) : Err :=
  .within "agentos event ingest: invalid event" (.external text)

/-- The claims of the dedupe store and what has been published on the bus. -/
structure Service where
  dedupe : Bool := true
  claims : List (String × String) := []
  published : List AgentOSEvent := []

namespace Service

/-- What a call meets: the time, and the errors of the store and of the publisher. -/
structure Env where
  now : Time := 0
  claim : Option Err := none
  publish : Option Err := none

def normalize (env : Env) (input : IngestEvent) : Except Err AgentOSEvent :=
  if input.runID = "" then .error (errInvalidEvent "run_id is required")
  else if input.eventID = "" then .error (errInvalidEvent "event_id is required")
  else if input.eventType ∉ agentOSStandardEventTypes then
    .error (errInvalidEvent ("unsupported event_type " ++ quoted input.eventType))
  else if input.source = "" then .error (errInvalidEvent "source is required")
  else .ok
    { input with
      sessionID := if input.threadID = "" then input.runID else input.threadID
      timestamp := if input.timestamp.isZero then env.now else input.timestamp }

def publish (s : Service) (env : Env) (event : AgentOSEvent) : Service × Except Err IngestResult :=
  match env.publish with
  | some err => (s, .error (.within "agentos event ingest: publish" err))
  | none => ({ s with published := s.published ++ [event] },
      .ok ⟨event.runID, event.eventID, false⟩)

def ingest (s : Service) (env : Env) (input : IngestEvent) : Service × Except Err IngestResult :=
  match normalize env input with
  | .error err => (s, .error err)
  | .ok event =>
    if s.dedupe && event.eventID ≠ "" then
      match env.claim with
      | some err => (s, .error err)
      | none =>
        if (event.runID, event.eventID) ∈ s.claims then
          (s, .ok ⟨event.runID, event.eventID, true⟩)
        else
          publish { s with claims := (event.runID, event.eventID) :: s.claims } env event
    else s.publish env event

def step (s : Service) (turn : Env × IngestEvent) : Service := (s.ingest turn.1 turn.2).1

/-- The call that claims the event does not fail to publish it. -/
def unfailed (id : String × String) (s : Service) (turn : Env × IngestEvent) : Bool :=
  id ∉ (s.step turn).claims || id ∈ s.claims || turn.1.publish.isNone

/-- How often an event has been published. -/
def publications (s : Service) (id : String × String) : Nat :=
  s.published.countP fun event => (event.runID, event.eventID) = id

variable {s : Service} {env : Env} {input : IngestEvent} {id : String × String}

theorem normalize_ok {event : AgentOSEvent} (h : normalize env input = .ok event) :
    event.runID = input.runID ∧ event.eventID = input.eventID ∧ input.eventID ≠ "" := by
  unfold normalize at h
  by_cases hid : input.eventID = ""
  · split_ifs at h
  · split_ifs at h <;> cases h <;> exact ⟨rfl, rfl, hid⟩

/-- An event whose claim is free is claimed and then published. -/
theorem ingest_cases (env : Env) (hdedupe : s.dedupe = true)
    (hid : (input.runID, input.eventID) = id) :
    ((s.ingest env input).1 = s ∧ ∀ result, (s.ingest env input).2 = .ok result → id ∈ s.claims) ∨
      id ∉ s.claims ∧ ∃ event : AgentOSEvent, (event.runID, event.eventID) = id ∧
        s.ingest env input = publish { s with claims := id :: s.claims } env event := by
  subst hid
  unfold ingest
  cases hevent : normalize env input with
  | error err => exact .inl ⟨rfl, fun _ h => by cases h⟩
  | ok event =>
    obtain ⟨hrun, hevent, hne⟩ := normalize_ok hevent
    dsimp only
    rw [if_pos (by simp [hdedupe, hevent, hne]), hrun, hevent]
    split
    · exact .inl ⟨rfl, fun _ h => by cases h⟩
    · split_ifs with hclaimed
      · exact .inl ⟨rfl, fun _ _ => hclaimed⟩
      · exact .inr ⟨hclaimed, event, by rw [hrun, hevent], rfl⟩

/-- An event has been published once if its claim is taken, and not at all before. -/
structure Claimed (id : String × String) (s : Service) : Prop where
  dedupe : s.dedupe = true
  published : s.publications id = if id ∈ s.claims then 1 else 0

theorem publish_claims (event : AgentOSEvent) : (s.publish env event).1.claims = s.claims := by
  unfold publish
  split <;> rfl

theorem publish_of_unfailed {event : AgentOSEvent} (hnew : id ∉ s.claims)
    (heq : s.ingest env input = publish { s with claims := id :: s.claims } env event)
    (hunfailed : s.unfailed id (env, input) = true) : env.publish = none := by
  simpa [unfailed, step, heq, publish_claims, hnew] using hunfailed

theorem Claimed.step (h : Claimed id s) (hunfailed : s.unfailed id (env, input) = true) :
    Claimed id (s.step (env, input)) ∧ s.claims ⊆ (s.step (env, input)).claims := by
  rcases ingest_cases env h.dedupe rfl with ⟨hsame, -⟩ | ⟨hnew, event, hevent, heq⟩
  · rw [Service.step, hsame]
    exact ⟨h, Subset.refl _⟩
  have hpublished := h.published
  by_cases hid : (input.runID, input.eventID) = id
  · rw [hid] at hnew hevent heq
    rw [Service.step, heq, publish, publish_of_unfailed hnew heq hunfailed]
    exact ⟨⟨h.dedupe, by simpa [publications, hevent, hnew] using hpublished⟩, subset_cons_self ..⟩
  · have hother : id ≠ (input.runID, input.eventID) := Ne.symm hid
    rw [Service.step, heq, publish]
    split <;> exact ⟨⟨h.dedupe, by
      simpa [publications, hevent, hid, hother] using hpublished⟩, subset_cons_self ..⟩

theorem Claimed.foldl {history : List (Env × IngestEvent)} (h : Claimed id s)
    (hunfailed : Kit.along Service.step (unfailed id) s history = true) :
    Claimed id (history.foldl Service.step s) ∧
      s.claims ⊆ (history.foldl Service.step s).claims := by
  refine Kit.foldl_along (I := fun s' => Claimed id s' ∧ s.claims ⊆ s'.claims)
    (fun s' turn ih hturn => ?_) hunfailed ⟨h, Subset.refl _⟩
  obtain ⟨hnext, hkept⟩ := ih.1.step hturn
  exact ⟨hnext, fun _ hclaim => hkept (ih.2 hclaim)⟩

/-- If the publication of an event does not fail, a call that returns a nil error leaves it
published exactly once, and a duplicate is answered only after a call that published. -/
theorem ingest_once (before rest : List (Env × IngestEvent)) {result : IngestResult}
    (hunfailed : Kit.along step (unfailed (input.runID, input.eventID)) {}
      (before ++ (env, input) :: rest) = true)
    (hok : ((before.foldl step {}).ingest env input).2 = .ok result) :
    ((before ++ (env, input) :: rest).foldl step {}).publications (input.runID, input.eventID) = 1 ∧
      (result.duplicate = true →
        (before.foldl step {}).publications (input.runID, input.eventID) = 1) := by
  rw [Kit.foldl_append_along, Kit.along, Bool.and_eq_true_iff] at hunfailed
  obtain ⟨hbefore, hcall, hrest⟩ := hunfailed
  obtain ⟨hclaimed, -⟩ := Claimed.foldl (s := {}) ⟨rfl, rfl⟩ hbefore
  obtain ⟨hnext, hkept⟩ := hclaimed.step hcall
  obtain ⟨hend, hkept'⟩ := hnext.foldl hrest
  rw [foldl_append, foldl_cons, hend.published, hclaimed.published]
  rcases ingest_cases env hclaimed.dedupe rfl with ⟨-, hclaim⟩ | ⟨hnew, event, -, heq⟩
  · have hclaim := hclaim result hok
    exact ⟨if_pos (hkept' (hkept hclaim)), fun _ => if_pos hclaim⟩
  have hpublish := publish_of_unfailed hnew heq hcall
  rw [heq, publish, hpublish] at hok
  cases hok
  refine ⟨if_pos (hkept' ?_), fun h => by cases h⟩
  rw [Service.step, heq, publish, hpublish]
  exact mem_cons_self

/-- The publisher fails once.  The retry is answered as a duplicate of an event that was never
published. -/
theorem claim_without_publication : let input : IngestEvent :=
      { eventType := "run.started", source := "backend", runID := "r", eventID := "e" }
    let failed := Service.step {} ({ publish := some (.external "down") }, input)
    (failed.ingest {} input).2.toOption.map (·.duplicate) = some true ∧
      (failed.ingest {} input).1.publications ("r", "e") = 0 := by
  decide +kernel

theorem ingest_once_retried : let input : IngestEvent :=
      { eventType := "run.started", source := "backend", runID := "r", eventID := "e" }
    let before : List (Env × IngestEvent) := [({ claim := some (.external "down") }, input),
      ({}, input), ({ publish := some (.external "down") }, input)]
    let again : Env × IngestEvent := ({}, input)
    ((before ++ [again]).foldl step {}).publications ("r", "e") = 1 ∧
      (true = true → (before.foldl step {}).publications ("r", "e") = 1) := by
  intro input before again
  have hok : ((before.foldl step {}).ingest {} input).2 = .ok ⟨"r", "e", true⟩ := by rfl
  exact ingest_once before [] (by decide +kernel) hok

end Service

end AgentOS.Stream
