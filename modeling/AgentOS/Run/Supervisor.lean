import AgentOS.Kit.Drain
import AgentOS.Kit.Logged
import AgentOS.Plan.Types

/-!
# The run supervisor

`RunSupervisorWorkflow` owns the run of an external backend.  Its loop drains the signals
and the controls that wait, applies each of them to the backend by an activity, and reads
the status of the run anew until the run is over.
-/

namespace AgentOS.Supervisor

open Kit Plan Prog

/-- `RunSupervisorInput`, the fields that the workflow reads. -/
structure RunSupervisorInput where
  ref : BackendRef
  status : RunStatus

structure Arrivals where
  signals : List SignalMessage := []
  controls : List ControlMessage := []

/-- The variables of the workflow and its channels. -/
structure Locals where
  status : RunStatus
  signalCh : List SignalMessage := []
  controlCh : List ControlMessage := []

/-- What the workflow does.  An activity is kept with its answer. -/
inductive Act where
  | receiveSignal (signal : Signal)
  | receiveControl (control : ControlRequest)
  | applySignal (ref : BackendRef) (runID : String) (signal : Signal) (answer : Option Err)
  | applyControl (ref : BackendRef) (runID : String) (control : ControlRequest)
      (answer : Option Err)
  | readStatus (ref : BackendRef) (runID : String) (answer : Except Err RunStatus)
  | sleep (answer : Option Err)
  | deliver (arrivals : Arrivals)
  | setStatus (status : RunStatus)

/-- What an action does to the variables. -/
def Locals.step (l : Locals) : Act → Locals
  | .receiveSignal _ => { l with signalCh := l.signalCh.tail }
  | .receiveControl _ => { l with controlCh := l.controlCh.tail }
  | .deliver arrivals =>
      { l with
        signalCh := l.signalCh ++ arrivals.signals
        controlCh := l.controlCh ++ arrivals.controls }
  | .setStatus status => { l with status := status }
  | .applySignal .. | .applyControl .. | .readStatus .. | .sleep .. => l

abbrev World := Logged Locals Act

abbrev Workflow (α : Type) := Prog Locals.step Err α

/-- The world of a supervisor.  Every answer may depend on all that happened. -/
structure Host where
  applySignal : World → Option Err
  applyControl : World → Option Err
  readStatus : World → Except Err RunStatus
  sleep : World → Option Err
  arrivals : World → Arrivals

section Workflow

variable (E : Host)

def ask {α : Type} (answer : World → α) (act : α → Act) : Workflow α := do
  let reply ← query answer
  emit (act reply)
  let arrivals ← query E.arrivals
  emit (.deliver arrivals)
  pure reply

/-- One round of `drainSupervisorSignals` on the message `msg`.  `signal` is the variable
that the messages are decoded into; the result is its new value. -/
def drainSupervisorSignalsRound (ref : BackendRef) (signal : Signal) (msg : SignalMessage) :
    Workflow Signal := do
  let signal := msg.decodeInto signal
  emit (.receiveSignal signal)
  let l ← state
  match ← ask E E.applySignal (.applySignal ref l.status.runID signal) with
  | some err => fail (.within "run supervisor - apply signal" err)
  | none => pure signal

def drainSupervisorControlsRound (ref : BackendRef) (control : ControlRequest)
    (msg : ControlMessage) : Workflow ControlRequest := do
  let control := msg.decodeInto control
  emit (.receiveControl control)
  let l ← state
  match ← ask E E.applyControl (.applyControl ref l.status.runID control) with
  | some err => fail (.within "run supervisor - apply control" err)
  | none => pure control

def readSupervisedStatus (ref : BackendRef) : Workflow Unit := do
  let l ← state
  match ← ask E E.readStatus (.readStatus ref l.status.runID) with
  | .error err => fail (.within "run supervisor - read status" err)
  | .ok status => emit (.setStatus status)

def cancelSupervisedRunOnExit {α : Type} (ref : BackendRef) (cause : Err) : Workflow α := do
  let l ← state
  if l.status.runID = "" then fail cause
  else do
    let _ ← ask E E.applyControl (.applyControl ref l.status.runID { operation := .cancel })
    fail cause

inductive Position where
  | top
  | signals (signal : Signal)
  | controls (control : ControlRequest) (applied : Bool)

/-- How a segment ends: the loop goes on, or the workflow returns. -/
inductive Verdict where
  | go (next : Position)
  | done

def closeIteration (ref : BackendRef) (applied : Bool) : Workflow Verdict := do
  if applied then do
    readSupervisedStatus E ref
    pure (.go .top)
  else do
    match ← ask E E.sleep .sleep with
    | some err => cancelSupervisedRunOnExit E ref err
    | none => do
        readSupervisedStatus E ref
        pure (.go .top)

/-- One segment of the loop. -/
def advance (ref : BackendRef) : Position → Workflow Verdict
  | .top => do
      let l ← state
      pure (if l.status.lifecycleState.terminal then .done else .go (.signals {}))
  | .signals signal => do
      let l ← state
      match l.signalCh with
      | [] => pure (.go (.controls {} false))
      | msg :: _ => do
          let signal ← drainSupervisorSignalsRound E ref signal msg
          pure (.go (.signals signal))
  | .controls control applied => do
      let l ← state
      match l.controlCh with
      | [] => closeIteration E ref applied
      | msg :: _ => do
          let control ← drainSupervisorControlsRound E ref control msg
          pure (.go (.controls control true))

/-- A supervisor.  The status that it returns is the one of its variables. -/
inductive Exec where
  | running (position : Position) (w : World)
  | returned (w : World) (outcome : Except Err Unit)

def Exec.world : Exec → World
  | .running _ w => w
  | .returned w _ => w

/-- One segment of a supervisor. -/
def Exec.step (ref : BackendRef) : Exec → Exec
  | .running position w =>
      match (advance E ref position).run w with
      | (.ok (.go next), v) => .running next v
      | (.ok .done, v) => .returned v (.ok ())
      | (.error err, v) => .returned v (.error err)
  | stopped => stopped

def beginSupervisor (input : RunSupervisorInput) : World :=
  let w : World := ⟨{ status := input.status }, []⟩
  w.act Locals.step (.deliver (E.arrivals w))

/-- The supervisor after `n` segments. -/
def supervisorRun (input : RunSupervisorInput) : Nat → Exec
  | 0 => .running .top (beginSupervisor E input)
  | n + 1 => (supervisorRun input n).step E input.ref

end Workflow

/-! ## The drains -/

/-- Where a segment that begins with the variables `l` can lead. -/
inductive Leads (l : Locals) : Position → Position → Prop
  | opened : Leads l .top (.signals {})
  | signal {signal msg rest} (hchannel : l.signalCh = msg :: rest) :
      Leads l (.signals signal) (.signals (msg.decodeInto signal))
  | noSignal {signal} (hchannel : l.signalCh = []) :
      Leads l (.signals signal) (.controls {} false)
  | control {control applied msg rest} (hchannel : l.controlCh = msg :: rest) :
      Leads l (.controls control applied) (.controls (msg.decodeInto control) true)
  | closed {control applied} (hchannel : l.controlCh = []) :
      Leads l (.controls control applied) .top

variable {msg : ControlMessage} {applied : Bool} {control : ControlRequest} {signal : Signal}
  {next : Position}

section Segments

variable {E : Host} {ref : BackendRef} {w : World}

theorem drainSupervisorSignalsRound_ends {msg : SignalMessage} :
    Ends (drainSupervisorSignalsRound E ref signal msg) w
      (fun r _ => r = msg.decodeInto signal) := by
  refine .afterAny fun _ _ => .afterAny fun _ _ => .afterAny fun answer _ => ?_
  cases answer with
  | some err => exact .fail trivial
  | none => exact .ret rfl

theorem drainSupervisorControlsRound_ends :
    Ends (drainSupervisorControlsRound E ref control msg) w
      (fun r _ => r = msg.decodeInto control) := by
  refine .afterAny fun _ _ => .afterAny fun _ _ => .afterAny fun answer _ => ?_
  cases answer with
  | some err => exact .fail trivial
  | none => exact .ret rfl

theorem closeIteration_ends : Ends (closeIteration E ref applied) w (fun r _ => r = .go .top) := by
  cases applied with
  | true => exact .afterAny fun _ _ => .ret rfl
  | false =>
    refine .afterAny fun answer _ => ?_
    cases answer with
    | some err =>
      refine .afterAny fun l _ => ?_
      by_cases hnone : l.status.runID = ""
      · rw [if_pos hnone]
        exact .fail trivial
      · rw [if_neg hnone]
        exact .afterAny fun _ _ => .fail trivial
    | none => exact .afterAny fun _ _ => .ret rfl

theorem advance_ends (p : Position) :
    Ends (advance E ref p) w (fun r _ => ∀ next, r = .go next → Leads w.st p next) := by
  cases p with
  | top =>
    refine .read (.ret fun next hnext => ?_)
    split_ifs at hnext
    cases hnext
    exact .opened
  | signals signal =>
    refine .read ?_
    cases hchannel : w.st.signalCh with
    | nil =>
      refine .ret fun next hnext => ?_
      cases hnext
      exact .noSignal hchannel
    | cons msg rest =>
      refine .bind drainSupervisorSignalsRound_ends fun r _ hr => .ret fun next hnext => ?_
      cases hnext
      rw [hr]
      exact .signal hchannel
  | controls control applied =>
    refine .read ?_
    cases hchannel : w.st.controlCh with
    | nil =>
      refine .post closeIteration_ends (fun r _ hr next hnext => ?_) fun _ _ h => h
      rw [hr] at hnext
      cases hnext
      exact .closed hchannel
    | cons msg rest =>
      refine .bind drainSupervisorControlsRound_ends fun r _ hr => .ret fun next hnext => ?_
      cases hnext
      rw [hr]
      exact .control hchannel

theorem drainSupervisorSignalsRound_congr {signal into : Signal} {msg : SignalMessage}
    (h : msg.decodeInto signal = msg.decodeInto into) :
    drainSupervisorSignalsRound E ref signal msg = drainSupervisorSignalsRound E ref into msg := by
  unfold drainSupervisorSignalsRound
  rw [h]

theorem drainSupervisorControlsRound_congr {control into : ControlRequest}
    (h : msg.decodeInto control = msg.decodeInto into) :
    drainSupervisorControlsRound E ref control msg =
      drainSupervisorControlsRound E ref into msg := by
  unfold drainSupervisorControlsRound
  rw [h]

end Segments

def Exec.signalVar : Exec → Option Signal
  | .running (.signals signal) _ => some signal
  | _ => none

def Exec.nextSignal : Exec → Option SignalMessage
  | .running (.signals _) w => w.st.signalCh.head?
  | _ => none

def Exec.controlVar : Exec → Option ControlRequest
  | .running (.controls control _) _ => some control
  | _ => none

/-- The control that the next segment receives. -/
def Exec.nextControl : Exec → Option ControlMessage
  | .running (.controls ..) w => w.st.controlCh.head?
  | _ => none

section Drains

variable (E : Host) (input : RunSupervisorInput)

variable {E input} in
theorem supervisorRun_leads {n : Nat} {v : World}
    (h : supervisorRun E input (n + 1) = .running next v) :
    ∃ p w, supervisorRun E input n = .running p w ∧ Leads w.st p next := by
  rw [supervisorRun] at h
  cases hrun : supervisorRun E input n with
  | returned w outcome => rw [hrun] at h; cases h
  | running p w =>
    rw [hrun, Exec.step] at h
    refine ⟨p, w, rfl, ?_⟩
    cases hsegment : (advance E input.ref p).run w with
    | mk res u =>
      rw [hsegment] at h
      cases res with
      | error err => cases h
      | ok verdict =>
        cases verdict with
        | done => cases h
        | go position =>
          cases h
          exact Yields.of_run (advance_ends p) hsegment next rfl

/-- The signal drain of a supervisor. -/
def signalDrain : Drain Signal SignalMessage where
  zero := {}
  decode into msg := msg.decodeInto into
  var n := (supervisorRun E input n).signalVar
  next n := (supervisorRun E input n).nextSignal
  var_zero := nofun
  var_succ := by
    intro n signal hvar
    cases hnext : supervisorRun E input (n + 1) with
    | returned w outcome => rw [hnext] at hvar; cases hvar
    | running next v =>
      obtain ⟨p, w, hrun, hleads⟩ := supervisorRun_leads hnext
      rw [hnext] at hvar
      rw [hrun]
      cases hleads with
      | opened => exact .inr ⟨rfl, (Option.some.inj hvar).symm⟩
      | @signal into msg _ hchannel =>
        exact .inl ⟨msg, into, congrArg List.head? hchannel, rfl, (Option.some.inj hvar).symm⟩
      | _ => cases hvar

/-- The control drain of a supervisor. -/
def controlDrain : Drain ControlRequest ControlMessage where
  zero := {}
  decode into msg := msg.decodeInto into
  var n := (supervisorRun E input n).controlVar
  next n := (supervisorRun E input n).nextControl
  var_zero := nofun
  var_succ := by
    intro n control hvar
    cases hnext : supervisorRun E input (n + 1) with
    | returned w outcome => rw [hnext] at hvar; cases hvar
    | running next v =>
      obtain ⟨p, w, hrun, hleads⟩ := supervisorRun_leads hnext
      rw [hnext] at hvar
      rw [hrun]
      cases hleads with
      | noSignal => exact .inr ⟨rfl, (Option.some.inj hvar).symm⟩
      | @control into _ msg _ hchannel =>
        exact .inl ⟨msg, into, congrArg List.head? hchannel, rfl, (Option.some.inj hvar).symm⟩
      | _ => cases hvar

variable {E input} {n : Nat} {w : World}

theorem signal_fidelity {msg : SignalMessage} {rest : List SignalMessage}
    (hrun : supervisorRun E input n = .running (.signals signal) w)
    (hchannel : w.st.signalCh = msg :: rest)
    (hcovers : ∀ earlier ∈ (signalDrain E input).received n, msg.covers earlier = true) :
    msg.decodeInto signal = msg.decodeInto {} ∧
      supervisorRun E input (n + 1) = (Exec.running (.signals {}) w).step E input.ref := by
  have hsent : msg.decodeInto signal = msg.decodeInto {} :=
    (signalDrain E input).decode_eq (congrArg Exec.signalVar hrun) fun earlier hmem into =>
      SignalMessage.decodeInto_covers (hcovers earlier hmem) into
  refine ⟨hsent, ?_⟩
  simp [supervisorRun, hrun, Exec.step, advance, run_state_bind, hchannel,
    drainSupervisorSignalsRound_congr hsent]

theorem control_fidelity {rest : List ControlMessage}
    (hrun : supervisorRun E input n = .running (.controls control applied) w)
    (hchannel : w.st.controlCh = msg :: rest)
    (hcovers : ∀ earlier ∈ (controlDrain E input).received n, msg.covers earlier = true) :
    msg.decodeInto control = msg.decodeInto {} ∧
      supervisorRun E input (n + 1) = (Exec.running (.controls {} applied) w).step E input.ref := by
  have hsent : msg.decodeInto control = msg.decodeInto {} :=
    (controlDrain E input).decode_eq (congrArg Exec.controlVar hrun) fun earlier hmem into =>
      ControlMessage.decodeInto_covers (hcovers earlier hmem) into
  refine ⟨hsent, ?_⟩
  simp [supervisorRun, hrun, Exec.step, advance, run_state_bind, hchannel,
    drainSupervisorControlsRound_congr hsent]

end Drains

end AgentOS.Supervisor
