import AgentOS.Run.Supervisor

/-!
# The end of a supervision

A supervisor that returns while its run is alive leaves the run without an owner.  So it must
cancel the run on its way out.  The loop has six calls that can end it, and only the sleep
between two polls is followed by the cancel.
-/

namespace AgentOS.Supervisor

open Kit Plan

/-! ## Two conditions on a log -/

def interrupted (log : List (Locals × Act)) : Bool :=
  log.any fun entry =>
    match entry.2 with
    | .sleep (some _) => true
    | _ => false

def CanceledRun (ref : BackendRef) : List (Locals × Act) → Prop
  | [] => False
  | (l, act) :: earlier =>
      (∃ answer, act = .applyControl ref l.status.runID { operation := .cancel } answer ∧
        interrupted earlier = true) ∨ CanceledRun ref earlier

/-- The last status that was read is terminal, or the run was canceled after the cancellation
of the supervisor. -/
def Ended (ref : BackendRef) (w : World) : Prop :=
  w.st.status.lifecycleState.terminal = true ∨ CanceledRun ref w.log

/-- No signal, control or status activity ends in an error, except for the cancel on the way
out, and a sleep is interrupted only when the run is known. -/
def Unbroken (w : World) : Act → Prop
  | .applySignal _ _ _ answer => answer = none
  | .applyControl _ _ _ answer => answer = none ∨ interrupted w.log = true
  | .readStatus _ _ answer => answer.isOk = true
  | .sleep answer => answer = none ∨ w.st.status.runID ≠ ""
  | _ => True

theorem interrupted_of_canceledRun {ref : BackendRef} {log : List (Locals × Act)}
    (h : CanceledRun ref log) : interrupted log = true := by
  induction log with
  | nil => exact h.elim
  | cons entry earlier ih =>
    have hearlier : interrupted earlier = true := by
      rcases h with ⟨-, -, hinterrupted⟩ | h
      · exact hinterrupted
      · exact ih h
    simp only [interrupted, List.any_cons, Bool.or_eq_true]
    exact .inr hearlier

/-! ## Segments -/

structure Going (p : Position) (w : World) : Prop where
  unbroken : Taken Unbroken w.log
  uninterrupted : interrupted w.log = false
  live : p = .top ∨ w.st.status.lifecycleState.terminal = false

def Settled (ref : BackendRef) (w : World) : Prop := Ended ref w ↔ Taken Unbroken w.log

section Segments

variable {E : Host} {ref : BackendRef} {w : World} {control : ControlRequest} {signal : Signal}
  {msg : ControlMessage} {applied : Bool}

/-- The world after an activity with its answer, and after the messages that arrived
meanwhile. -/
def asked (E : Host) (w : World) (act : Act) : World :=
  let v := w.act Locals.step act
  v.act Locals.step (.deliver (E.arrivals v))

theorem Yields.ask {α β : Type} {answer : World → α} {act : α → Act} {f : α → Workflow β}
    {R : β → World → Prop} {X : Err → World → Prop}
    (h : ∀ a, Yields (f a) (asked E w (act a)) R X) : Yields (ask E answer act >>= f) w R X := h _

theorem interrupted_of_asked {act : Act} (h : CanceledRun ref (asked E w act).log) :
    interrupted w.log = true := by
  rcases h with ⟨_, hdeliver, _⟩ | ⟨-, -, hinterrupted⟩ | h
  · cases hdeliver
  · exact hinterrupted
  · exact interrupted_of_canceledRun h

theorem settled_of_broken {act : Act} (hquiet : interrupted w.log = false)
    (hlive : (w.st.step act).status.lifecycleState.terminal = false)
    (hbroken : ¬ Unbroken w act) : Settled ref (asked E w act) := by
  refine ⟨fun hended => ?_, fun htaken => (hbroken htaken.2.1).elim⟩
  rcases hended with hterminal | hcanceled
  · exact absurd (hterminal.symm.trans hlive) (by decide)
  · exact absurd ((interrupted_of_asked hcanceled).symm.trans hquiet) (by decide)

variable {p next : Position}

theorem Going.act {act : Act} (h : Going p w) (hunbroken : Unbroken w act)
    (hquiet : interrupted [(w.st, act)] = false)
    (hlive : next = .top ∨ (w.st.step act).status.lifecycleState.terminal = false) :
    Going next (w.act Locals.step act) where
  unbroken := ⟨hunbroken, h.unbroken⟩
  uninterrupted := by
    have hrest := h.uninterrupted
    simp only [interrupted, List.any_cons, List.any_nil, Bool.or_false] at hquiet hrest
    simp [interrupted, Logged.act_log, hquiet, hrest]
  live := hlive

theorem Going.asked {act : Act} (h : Going p w) (hunbroken : Unbroken w act)
    (hquiet : interrupted [(w.st, act)] = false)
    (hlive : next = .top ∨ (w.st.step act).status.lifecycleState.terminal = false) :
    Going next (asked E w act) :=
  (h.act hunbroken hquiet hlive).act trivial rfl hlive

section

variable (h : Going p w) (hlive : w.st.status.lifecycleState.terminal = false)
include h hlive

theorem readSupervisedStatus_settles :
    Yields (readSupervisedStatus E ref) w (fun _ v => Going .top v) (fun _ v => Settled ref v) := by
  refine .read (Yields.ask fun answer => ?_)
  cases answer with
  | error err => exact .fail (settled_of_broken h.uninterrupted hlive nofun)
  | ok status =>
    have hread : Going .top (asked E w (.readStatus ref w.st.status.runID (.ok status))) :=
      h.asked rfl rfl (.inl rfl)
    exact .emit ⟨⟨trivial, hread.unbroken⟩, hread.uninterrupted, .inl rfl⟩

theorem cancelSupervisedRunOnExit_settles {cause : Err} {Q : Verdict → World → Prop} :
    Yields (cancelSupervisedRunOnExit E ref cause) (asked E w (.sleep (some cause))) Q
      (fun _ v => Settled ref v) := by
  refine .read ?_
  by_cases hunknown : (asked E w (.sleep (some cause))).st.status.runID = ""
  · rw [if_pos hunknown]
    refine .fail (settled_of_broken h.uninterrupted hlive ?_)
    rintro (hnone | hknown)
    · cases hnone
    · exact hknown hunknown
  · rw [if_neg hunknown]
    refine Yields.ask fun answer => ?_
    have hinterrupted : interrupted (asked E w (.sleep (some cause))).log = true := rfl
    refine .fail ⟨fun _ => ⟨trivial, .inr hinterrupted, trivial, .inr hunknown, h.unbroken⟩,
      fun _ => .inr (.inr (.inl ⟨answer, rfl, hinterrupted⟩))⟩

theorem closeIteration_settles :
    Yields (closeIteration E ref applied) w (fun r v => r = .go .top ∧ Going .top v)
      (fun _ v => Settled ref v) := by
  cases applied with
  | true => exact .bind (readSupervisedStatus_settles h hlive) fun _ _ hv => .ret ⟨rfl, hv⟩
  | false =>
    refine Yields.ask fun answer => ?_
    cases answer with
    | some err => exact cancelSupervisedRunOnExit_settles h hlive
    | none =>
      have hslept : Going .top (asked E w (.sleep none)) := h.asked (.inl rfl) rfl (.inl rfl)
      exact .bind (readSupervisedStatus_settles hslept hlive) fun _ _ hv => .ret ⟨rfl, hv⟩

end

theorem drainSupervisorSignalsRound_settles {msg : SignalMessage}
    (h : Going (.signals signal) w) (hlive : w.st.status.lifecycleState.terminal = false) :
    Yields (drainSupervisorSignalsRound E ref signal msg) w (fun r v => Going (.signals r) v)
      (fun _ v => Settled ref v) := by
  let v := w.act Locals.step (.receiveSignal (msg.decodeInto signal))
  have hreceived : Going (.signals signal) v := h.act trivial rfl (.inr hlive)
  refine .acting (.read (Yields.ask fun answer => ?_))
  cases answer with
  | some err => exact .fail (settled_of_broken hreceived.uninterrupted hlive nofun)
  | none => exact .ret (hreceived.asked rfl rfl (.inr hlive))

theorem drainSupervisorControlsRound_settles (h : Going (.controls control applied) w)
    (hlive : w.st.status.lifecycleState.terminal = false) :
    Yields (drainSupervisorControlsRound E ref control msg) w
      (fun r v => Going (.controls r true) v) (fun _ v => Settled ref v) := by
  let v := w.act Locals.step (.receiveControl (msg.decodeInto control))
  have hreceived : Going (.controls control applied) v := h.act trivial rfl (.inr hlive)
  refine .acting (.read (Yields.ask fun answer => ?_))
  cases answer with
  | none => exact .ret (hreceived.asked (.inl rfl) rfl (.inr hlive))
  | some err =>
    refine .fail (settled_of_broken hreceived.uninterrupted hlive ?_)
    rintro (hnone | hinterrupted)
    · cases hnone
    · exact absurd (hinterrupted.symm.trans hreceived.uninterrupted) (by decide)

variable (E ref) in
theorem advance_settles (h : Going p w) :
    Yields (advance E ref p) w
      (fun r v => match r with
        | .go next => Going next v
        | .done => Settled ref v)
      (fun _ v => Settled ref v) := by
  cases p with
  | top =>
    refine .read (.ret ?_)
    by_cases hterminal : w.st.status.lifecycleState.terminal = true
    · rw [if_pos hterminal]
      exact ⟨fun _ => h.unbroken, fun _ => .inl hterminal⟩
    · rw [if_neg hterminal]
      exact ⟨h.unbroken, h.uninterrupted, .inr (Bool.eq_false_of_not_eq_true hterminal)⟩
  | signals signal =>
    have hlive := h.live.resolve_left nofun
    refine .read ?_
    cases w.st.signalCh with
    | nil => exact .ret ⟨h.unbroken, h.uninterrupted, .inr hlive⟩
    | cons msg rest =>
      exact .bind (drainSupervisorSignalsRound_settles h hlive) fun _ _ hv => .ret hv
  | controls control applied =>
    have hlive := h.live.resolve_left nofun
    refine .read ?_
    cases w.st.controlCh with
    | nil =>
      refine (closeIteration_settles h hlive).post ?_ fun _ _ hv => hv
      rintro _ _ ⟨rfl, hv⟩
      exact hv
    | cons msg rest =>
      exact .bind (drainSupervisorControlsRound_settles h hlive) fun _ _ hv => .ret hv

end Segments

/-! ## The end -/

theorem supervisorRun_settles (E : Host) (input : RunSupervisorInput) (n : Nat) :
    match supervisorRun E input n with
    | .running p w => Going p w
    | .returned w _ => Settled input.ref w := by
  induction n with
  | zero => exact ⟨⟨trivial, trivial⟩, rfl, .inl rfl⟩
  | succ n ih =>
    rw [supervisorRun]
    cases hrun : supervisorRun E input n with
    | returned w outcome =>
      rw [hrun] at ih
      exact ih
    | running p w =>
      rw [hrun] at ih
      have hsegment := advance_settles E input.ref ih
      rw [Exec.step]
      unfold Yields at hsegment
      generalize (advance E input.ref p).run w = r at hsegment
      obtain ⟨res, v⟩ := r
      cases res with
      | error err => exact hsegment
      | ok verdict =>
        cases verdict with
        | go next | done => exact hsegment

/-- When a supervisor returns, the run is over or was canceled, if and only if no signal,
control or status activity ended in an error and no sleep was interrupted before the run had
an id. -/
theorem supervision_ends {E : Host} {input : RunSupervisorInput} {n : Nat} {w : World}
    {outcome : Except Err Unit} (hreturned : supervisorRun E input n = .returned w outcome) :
    Ended input.ref w ↔ Taken Unbroken w.log := by
  have hsettles := supervisorRun_settles E input n
  rw [hreturned] at hsettles
  exact hsettles

/-- A run that is still going on. -/
def liveRun : RunSupervisorInput where
  ref := { kind := .http, name := "h" }
  status := { runID := "r" }

/-- A supervisor whose signal waits from the start. -/
def signaledHost (applied : Option Err) (read : Except Err RunStatus) (slept : Option Err) :
    Host where
  applySignal _ := applied
  applyControl _ := none
  readStatus _ := read
  sleep _ := slept
  arrivals w := if w.log.isEmpty then { signals := [{}] } else {}

theorem supervision_ends_canceled :
    ∃ w outcome, supervisorRun (signaledHost none (.ok {}) (some .canceled)) liveRun 4 =
      .returned w outcome ∧ Ended liveRun.ref w := by
  have hreturned : supervisorRun (signaledHost none (.ok {}) (some .canceled)) liveRun 4 =
    .returned _ _ := rfl
  refine ⟨_, _, hreturned, (supervision_ends hreturned).mpr ?_⟩
  exact ⟨trivial, .inl rfl, trivial, .inr (by decide), trivial, rfl, trivial, trivial, trivial⟩

/-- A rejected signal ends the supervision of a live run, and so does a cancellation that
arrives while the status is read.  Neither is followed by a cancel of the run. -/
theorem supervision_breaks :
    liveRun.status.lifecycleState.terminal = false ∧
    (∃ w, supervisorRun (signaledHost (some (.external "rejected")) (.ok {}) none) liveRun 2 =
        .returned w (.error (.within "run supervisor - apply signal" (.external "rejected"))) ∧
      ¬ Ended liveRun.ref w) ∧
    ∃ w, supervisorRun (signaledHost none (.error .canceled) none) liveRun 4 =
        .returned w (.error (.within "run supervisor - read status" .canceled)) ∧
      ¬ Ended liveRun.ref w := by
  refine ⟨rfl, ⟨_, rfl, ?_⟩, _, rfl, ?_⟩
  · rintro (hterminal | hcanceled)
    · cases hterminal
    · exact absurd (interrupted_of_canceledRun hcanceled) (by decide)
  · rintro (hterminal | hcanceled)
    · cases hterminal
    · exact absurd (interrupted_of_canceledRun hcanceled) (by decide)

end AgentOS.Supervisor
