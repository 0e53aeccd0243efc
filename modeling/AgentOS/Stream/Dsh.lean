import AgentOS.Core.Basic
import AgentOS.Kit.Calls

/-!
# The timeline of a dsh run

`internal/repo/agentos/dshbackend` over `streamadapter`.  A milestone is recorded in the durable
timeline before it is announced on the bus.  The backend of dsh records the timeline of its runs
and keeps their status; its store takes every milestone here, and the bus is left out, since a
failed announcement is dropped.
-/

namespace AgentOS.Stream

open List

/-! ## Events -/

/-- `stream.EventType`. -/
inductive EventType where
  | runStarted | runFinished | runError | runCanceled
  | stepStarted | stepFinished
  | textMessageStart | textMessageContent | textMessageEnd
  | reasoningStart | reasoningMessageStart | reasoningMessageContent | reasoningMessageEnd
  | toolCallStart | toolCallArgs | toolCallResult | toolCallEnd | toolCallError
  | stateSnapshot | stateDelta | messagesSnapshot | activitySnapshot | activityDelta
  | raw | custom
  deriving DecidableEq

def isMilestone : EventType → Bool
  | .runStarted | .runFinished | .runError | .runCanceled | .stepStarted | .stepFinished
  | .textMessageEnd | .toolCallStart | .toolCallResult | .toolCallError => true
  | _ => false

def EventType.isTerminal (t : EventType) : Bool :=
  t = .runFinished || t = .runError || t = .runCanceled

/-! ## A run -/

namespace Dsh

inductive Chunk where
  | textDelta | reasoningDelta | toolCallDelta | usage | other

/-- The blocks of the message stand by their call and whether they mark an error. -/
structure ToolResultData where
  error : Bool
  message : Option (List (String × Bool))

/-- An event of a dsh session.  Data that cannot be decoded is `none`. -/
inductive SessionEvent where
  | assistantChunk (data : Option Chunk)
  | toolCall (callID : Option String)
  | toolResult (data : Option ToolResultData)
  | turnEnd (reason : Option String)
  | other

/-! Events are mapped to the types that `MapEvent` gives them. -/

def mapChunk : Option Chunk → List EventType
  | some .textDelta => [.textMessageContent]
  | some .reasoningDelta => [.reasoningMessageContent]
  | some .toolCallDelta => [.toolCallArgs]
  | some .usage => [.custom]
  | _ => []

def mapToolCall (callID : Option String) : List EventType :=
  if callID.getD "" = "" then [] else [.toolCallStart]

def mapToolResult (data : Option ToolResultData) : List EventType :=
  match data with
  | some ⟨error, some blocks⟩ =>
    if blocks.all (·.1 = "") then []
    else [.toolCallEnd, .custom,
      if error || blocks.any (·.2) then .toolCallError else .toolCallResult]
  | _ => []

def mapTurnEnd (reason : Option String) (canceled : Bool) : List EventType :=
  if canceled then [.runCanceled]
  else
    match reason with
    | none => []
    | some reason =>
      if reason = "error" ∨ reason = "blocked" then [.runError]
      else if reason = "interrupted" then [.runCanceled]
      else [.runFinished]

def mapEvent (ev : SessionEvent) (canceled : Bool) : List EventType × Bool :=
  match ev with
  | .assistantChunk data => (mapChunk data, false)
  | .toolCall callID => (mapToolCall callID, false)
  | .toolResult data => (mapToolResult data, false)
  | .turnEnd reason => (mapTurnEnd reason canceled, true)
  | .other => ([], false)

inductive Status where
  | running | completed | failed | canceled
  deriving DecidableEq

def Status.milestone : Status → Option EventType
  | .running => none
  | .completed => some .runFinished
  | .failed => some .runError
  | .canceled => some .runCanceled

def terminalStatusFor (events : List EventType) : Status :=
  match events.getLast? with
  | some .runCanceled => .canceled
  | some .runError => .failed
  | _ => .completed

/-- `runState`: the open message of its writer, the milestones that the store holds of it, and
the flag of the transport for its session. -/
structure Run where
  timeline : List EventType := []
  (openText cancel dropped : Bool := false)
  status : Status := .running
  done : Bool := false

namespace Run

def closeOpenMessages (r : Run) : Run :=
  if r.openText then { r with timeline := r.timeline ++ [.textMessageEnd], openText := false }
  else r

def writeEvent (r : Run) (ev : EventType) : Run :=
  match ev with
  | .textMessageContent => { r with openText := true }
  | .reasoningMessageContent => r
  | ev =>
    let r := r.closeOpenMessages
    if isMilestone ev then { r with timeline := r.timeline ++ [ev] } else r

def finishRun (r : Run) (terminal : Status) : Run :=
  { r.closeOpenMessages with done := true, status := terminal }

def publishTerminal (r : Run) : Run := (r.writeEvent .runError).finishRun .failed

/-- `none` is a notification that carries no session event. -/
def handleNotification (r : Run) : Option SessionEvent → Run
  | none => r
  | some ev =>
    let (events, done) := mapEvent ev r.cancel
    let r := events.foldl writeEvent r
    if done then r.finishRun (terminalStatusFor events) else r

def start (prompted : Bool) : Run :=
  let r := writeEvent {} .runStarted
  if prompted then r else r.publishTerminal

inductive Input where
  | control
  | drop
  | exit
  | notification (event : Option SessionEvent)

/-- `Control`, the transport, and a turn of `consume`, which returns when the run is done. -/
def step (r : Run) : Input → Run
  | .control => { r with cancel := true }
  | .drop => { r with dropped := true }
  | .exit => if r.done then r else r.publishTerminal
  | .notification event =>
    if r.done then r
    else if r.dropped then r.finishRun .failed
    else r.handleNotification event

/-- Until the run is done, no notification was dropped before this one, and the end of a turn can
be decoded or comes after a cancel request. -/
def intact (r : Run) : Input → Bool
  | .notification (some (.turnEnd none)) => r.done || (!r.dropped && r.cancel)
  | .notification _ => r.done || !r.dropped
  | _ => true

def terminals (r : Run) : List EventType := r.timeline.filter EventType.isTerminal

variable {r : Run}

theorem closeOpenMessages_terminals : r.closeOpenMessages.terminals = r.terminals := by
  unfold closeOpenMessages
  split
  · simp [terminals, EventType.isTerminal]
  · rfl

theorem writeEvent_terminals (ev : EventType) :
    (r.writeEvent ev).terminals = r.terminals ++ [ev].filter EventType.isTerminal := by
  have hclosed := closeOpenMessages_terminals (r := r)
  unfold terminals at hclosed ⊢
  cases ev <;> simp [writeEvent, isMilestone, EventType.isTerminal, hclosed]

theorem writeEvent_running (ev : EventType) :
    (r.writeEvent ev).status = r.status ∧ (r.writeEvent ev).done = r.done := by
  unfold writeEvent closeOpenMessages
  grind

theorem foldl_writeEvent (events : List EventType) (r : Run) :
    (events.foldl writeEvent r).terminals = r.terminals ++ events.filter EventType.isTerminal ∧
      (events.foldl writeEvent r).status = r.status ∧
        (events.foldl writeEvent r).done = r.done := by
  induction events generalizing r with
  | nil => simp
  | cons ev events ih =>
    obtain ⟨hterminals, hstatus, hdone⟩ := ih (r.writeEvent ev)
    obtain ⟨hstatus', hdone'⟩ := writeEvent_running ev
    rw [foldl_cons, hterminals, hstatus, hdone, writeEvent_terminals, append_assoc, ← filter_append]
    exact ⟨rfl, hstatus', hdone'⟩

/-- The timeline ends as the status says, and a run that is not done is running. -/
def Agrees (r : Run) : Prop :=
  r.terminals = r.status.milestone.toList ∧ (r.done = false → r.status = .running)

theorem finishRun_agrees {terminal : Status} (hends : r.terminals = terminal.milestone.toList) :
    (r.finishRun terminal).Agrees :=
  ⟨closeOpenMessages_terminals.trans hends, nofun⟩

theorem publishTerminal_agrees (hnone : r.terminals = []) : r.publishTerminal.Agrees := by
  apply finishRun_agrees
  rw [writeEvent_terminals, hnone]
  rfl

theorem mapEvent_open {ev : SessionEvent} {canceled : Bool}
    (hopen : (mapEvent ev canceled).2 = false) :
    (mapEvent ev canceled).1.filter EventType.isTerminal = [] := by
  cases ev with
  | turnEnd reason => cases hopen
  | assistantChunk data =>
    dsimp [mapEvent]
    unfold mapChunk
    split <;> rfl
  | toolCall callID =>
    dsimp [mapEvent]
    unfold mapToolCall
    split <;> rfl
  | toolResult data =>
    dsimp [mapEvent]
    unfold mapToolResult
    grind [EventType.isTerminal]
  | other => rfl

theorem mapTurnEnd_ends {reason : Option String} {canceled : Bool}
    (hknown : canceled = true ∨ reason ≠ none) :
    (mapTurnEnd reason canceled).filter EventType.isTerminal =
      (terminalStatusFor (mapTurnEnd reason canceled)).milestone.toList := by
  unfold mapTurnEnd
  split
  · rfl
  · split
    · simp_all
    · split
      · rfl
      · split <;> rfl

theorem handleNotification_agrees {event : Option SessionEvent} (hagrees : r.Agrees)
    (hrunning : r.done = false) (hintact : r.intact (.notification event) = true) :
    (r.handleNotification event).Agrees := by
  have hnone : r.terminals = [] := by
    rw [hagrees.1, hagrees.2 hrunning]
    rfl
  cases event with
  | none => exact hagrees
  | some ev =>
    obtain ⟨hterminals, hstatus, -⟩ := foldl_writeEvent (mapEvent ev r.cancel).1 r
    rw [hnone] at hterminals
    unfold handleNotification
    dsimp only
    split
    · apply finishRun_agrees
      cases ev with
      | turnEnd reason =>
        refine hterminals.trans (mapTurnEnd_ends ?_)
        cases reason with
        | none =>
          left
          rw [intact, hrunning, Bool.false_or] at hintact
          exact (Bool.and_eq_true_iff.mp hintact).2
        | some reason => exact .inr nofun
      | _ => contradiction
    · rename_i hopen
      rw [mapEvent_open (by simpa using hopen)] at hterminals
      exact ⟨by rw [hterminals, hstatus, hagrees.2 hrunning]; rfl,
        fun _ => hstatus.trans (hagrees.2 hrunning)⟩

theorem step_agrees (r : Run) (input : Input) (hagrees : r.Agrees)
    (hintact : r.intact input = true) : (r.step input).Agrees := by
  cases input with
  | control => exact hagrees
  | drop => exact hagrees
  | exit =>
    dsimp [step]
    split
    · exact hagrees
    · rename_i hrunning
      apply publishTerminal_agrees
      rw [hagrees.1, hagrees.2 (by simpa using hrunning)]
      rfl
  | notification event =>
    dsimp [step]
    split
    · exact hagrees
    · rename_i hrunning
      rw [if_neg (by unfold intact at hintact; grind)]
      exact handleNotification_agrees hagrees (by simpa using hrunning) hintact

theorem start_agrees (prompted : Bool) : (start prompted).Agrees := by
  cases prompted with
  | true => exact ⟨rfl, fun _ => rfl⟩
  | false => exact publishTerminal_agrees rfl

/-- The durable timeline of a run holds one terminal milestone, of the kind of its status, from
the time the status is terminal, and none before, while its notifications are intact. -/
theorem status_matches (prompted : Bool) (inputs : List Input)
    (hintact : Kit.along step intact (start prompted) inputs = true) :
    (inputs.foldl step (start prompted)).terminals =
      (inputs.foldl step (start prompted)).status.milestone.toList :=
  (Kit.foldl_along step_agrees hintact (start_agrees prompted)).1

theorem status_matches_canceled : let inputs : List Input :=
      [.notification (some (.assistantChunk (some .textDelta))), .notification none, .control,
        .notification (some (.turnEnd none)), .exit]
    Kit.along step intact (start true) inputs = true ∧
      (inputs.foldl step (start true)).terminals = [.runCanceled] :=
  ⟨by decide, status_matches true _ (by decide)⟩

/-- A dropped notification fails the run, and the end of a turn without readable data completes
it, with no terminal milestone. -/
theorem ended_silently :
    let dropped := [Input.drop, .notification none].foldl step (start true)
    let unread := [Input.notification (some (.turnEnd none))].foldl step (start true)
    dropped.status = .failed ∧ dropped.terminals = [] ∧
      unread.status = .completed ∧ unread.terminals = [] := by
  decide

end Run

end Dsh

end AgentOS.Stream
