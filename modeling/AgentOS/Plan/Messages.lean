import AgentOS.Kit.Mailbox
import AgentOS.Plan.Abort

/-!
# The messages of a plan

The two mailboxes of the plan workflow, for control requests and for signals.  Each
iteration drains the controls, then the signals, and then decides whether the workflow
continues as new.
-/

namespace AgentOS.Plan

open Kit List Option Locals

variable {E : Host} {input : PlanWorkflowInput} {x : Execution} {p p' : Point} {w v : World}

/-! ## The two mailboxes -/

/-- An action that begins an execution. -/
def Act.opens : Act → Bool
  | .begin _ => true
  | _ => false

/-- The mailbox of the control requests. -/
def controlBox : Mailbox Locals.step ControlMessage ControlRequest String where
  channel := Locals.controlCh
  arrives
    | .deliver arrivals => arrivals.controls
    | _ => []
  receives
    | .receiveControl control => some control
    | _ => none
  marks
    | .markControl control => some control
    | _ => none
  opens := Act.opens
  key := ControlRequest.idempotencyKey
  processed := Locals.processedControls
  step_channel l act hopens := by
    cases act with
    | begin => cases hopens
    | validate answer => cases answer <;> simp [Locals.step]
    | _ => simp [Locals.step]
  opens_idle act hopens := by
    cases act with
    | begin => exact ⟨rfl, rfl⟩
    | _ => cases hopens
  step_marks l act control hmarks := by
    cases act with
    | markControl => cases hmarks; exact List.mem_cons_self
    | _ => cases hmarks

/-- The mailbox of the signals. -/
def signalBox : Mailbox Locals.step SignalMessage Signal String where
  channel := Locals.signalCh
  arrives
    | .deliver arrivals => arrivals.signals
    | _ => []
  receives
    | .receiveSignal signal => some signal
    | _ => none
  marks
    | .markSignal signal => some signal
    | _ => none
  opens := Act.opens
  key := Signal.idempotencyKey
  processed := Locals.processedSignals
  step_channel l act hopens := by
    cases act with
    | begin => cases hopens
    | validate answer => cases answer <;> simp [Locals.step]
    | _ => simp [Locals.step]
  opens_idle act hopens := by
    cases act with
    | begin => exact ⟨rfl, rfl⟩
    | _ => cases hopens
  step_marks l act signal hmarks := by
    cases act with
    | markSignal => cases hmarks; exact List.mem_cons_self
    | _ => cases hmarks

/-! ## What becomes of a message -/

def Point.ending : Point → Prop
  | .failing _ | .leaving (.error _) | .returned (.error _) => True
  | _ => False

variable {c d : Config} {l : Locals} {e : Locals × Act} {control : ControlRequest} {signal : Signal}
  {n : Nat} {next : PlanWorkflowInput} {arrivals : Arrivals} {answer : Option Err}
  {spec : RunPlanSpec} {event : StateEvent}

theorem Move.ending (h : Move E c d) (hc : c.1.2.ending) : d.1.2.ending := by
  cases h with
  | skip h =>
    cases h with
    | command h =>
      cases h with
      | guard hguard | guardRefused _ hguard => cases hguard <;> cases hc
      | _ => trivial
    | _ => trivial
  | say h | ask h | saved h | unsaved h => cases h <;> trivial
  | begin | refuse => cases hc

/-- A message that was received. -/
inductive Incoming where
  | control (control : ControlRequest)
  | signal (signal : Signal)

def Act.receives : Act → Option Incoming
  | .receiveControl control => some (.control control)
  | .receiveSignal signal => some (.signal signal)
  | _ => none

def Act.marks : Act → Option Incoming
  | .markControl control => some (.control control)
  | .markSignal signal => some (.signal signal)
  | _ => none

namespace Incoming

/-- The point at which the message is at hand. -/
def point : Incoming → Point
  | .control control => .receivedControl control
  | .signal signal => .receivedSignal signal

def Seen (l : Locals) : Incoming → Prop
  | .control control => control.idempotencyKey ∈ l.processedControls
  | .signal signal => signal.idempotencyKey ∈ l.processedSignals

/-- The message is not valid, and ends the plan with an error. -/
def Refused : Incoming → Prop
  | .control control =>
      (∃ err, validateControlRequest control = .error err) ∨ control.idempotencyKey = ""
  | .signal signal => ∃ err, validatePlanSignal signal = .error err

variable {m : Incoming}

theorem point_injective : Function.Injective point := by
  intro m m' h
  cases m <;> cases m' <;> cases h <;> rfl

theorem seen_head (h : Chained Locals.step l w.st w.log) (hhead : w.log.head? = some e)
    (hreceives : e.2.receives = some m) (hseen : m.Seen w.st) : m.Seen e.1 := by
  obtain ⟨st, log⟩ := w
  obtain ⟨earlier, rfl⟩ := head?_eq_some_iff.mp hhead
  obtain ⟨l', act⟩ := e
  obtain rfl : st = step l' act := h.1
  cases act <;> cases hreceives <;> exact hseen

end Incoming

def Point.receiving : Point → Bool
  | .receivedControl _ | .receivedSignal _ => true
  | _ => false

def Point.settled (p : Point) : Prop := p.receiving = false ∧ ¬ p.ending

theorem Point.ne_of_not_receiving (h : p.receiving = false) (m : Incoming) : p ≠ m.point := by
  rintro rfl
  cases m <;> cases h

def Quiet (w v : World) : Prop := ∀ e ∈ v.log, e ∈ w.log ∨ e.2.receives = none

theorem quiet_said {act : Act} (h : act.receives = none) : Quiet w (w.act Locals.step act) := by
  intro e he
  rcases mem_cons.mp he with rfl | hold
  · exact .inr h
  · exact .inl hold

theorem Quiet.trans {u : World} (h : Quiet w v) (h' : Quiet v u) : Quiet w u := fun e he =>
  (h' e he).elim (h e) .inr

theorem quiet_asked {act : Act} (h : act.receives = none) : Quiet w (asked w act arrivals) :=
  (quiet_said h).trans (quiet_said rfl)

theorem Posted.quiet (h : Posted E spec event w answer v) : Quiet w v := by
  cases h with
  | answered => exact (quiet_said rfl).trans (quiet_asked rfl)
  | _ => exact quiet_said rfl

inductive MessageStep : Config → Config → Prop
  | quiet {x x' p p' w v} (hpoint : p.receiving = false)
      (hquiet : Quiet w v) : MessageStep ((x, p), w) ((x', p'), v)
  | receive {x : Execution} {p : Point} {w : World} {act : Act} (m : Incoming)
      (hreceives : act.receives = some m) (hsettled : p.settled) :
      MessageStep ((x, p), w) ((x, m.point), w.act Locals.step act)
  | mark {x : Execution} {p' : Point} {w : World} {act : Act} (m : Incoming)
      (hmarks : act.marks = some m) :
      MessageStep ((x, m.point), w) ((x, p'), w.act Locals.step act)
  | seen {x : Execution} {p' : Point} {w : World} (m : Incoming) (hseen : m.Seen w.st) :
      MessageStep ((x, m.point), w) ((x, p'), w)
  | invalid {x : Execution} {p' : Point} {w : World} (m : Incoming) (hrefused : m.Refused)
      (hending : p'.ending) : MessageStep ((x, m.point), w) ((x, p'), w)

theorem Move.messageStep (h : Move E c d) : MessageStep c d := by
  have hsame : ∀ w : World, Quiet w w := fun _ _ he => .inl he
  cases h with
  | skip h =>
    cases h with
    | command h =>
      cases h with
      | controlInvalid hinvalid =>
        exact .invalid (.control _) (hinvalid.imp_left fun herror => ⟨_, herror⟩) trivial
      | signalInvalid hinvalid => exact .invalid (.signal _) ⟨_, hinvalid⟩ trivial
      | controlSeen hseen => exact .seen (.control _) hseen
      | signalSeen hseen => exact .seen (.signal _) hseen
      | guard hguard | guardRefused _ hguard => cases hguard <;> exact .quiet rfl (hsame _)
      | _ => exact .quiet rfl (hsame _)
    | _ => exact .quiet rfl (hsame _)
  | say h =>
    cases h with
    | receivedControl => exact .receive (.control _) rfl ⟨rfl, id⟩
    | receivedSignal => exact .receive (.signal _) rfl ⟨rfl, id⟩
    | markedControl => exact .mark (.control _) rfl
    | markedSignal => exact .mark (.signal _) rfl
    | node h => cases h <;> exact .quiet rfl (quiet_said rfl)
    | _ => exact .quiet rfl (quiet_said rfl)
  | ask h =>
    cases h with
    | node h => cases h <;> exact .quiet rfl (quiet_asked rfl)
    | _ => exact .quiet rfl (quiet_asked rfl)
  | saved h hposted | unsaved h hposted => cases h <;> exact .quiet rfl hposted.quiet
  | begin => exact .quiet rfl (quiet_said rfl)
  | refuse => exact .quiet rfl (hsame _)

/-- A message that was received repeats a key, was marked, is at hand at its point, or
ends the plan with an error. -/
def Handled (w : World) (p : Point) : Prop :=
  ∀ e ∈ w.log, ∀ m, e.2.receives = some m →
    m.Seen e.1 ∨ (∃ e' ∈ w.log, e'.2.marks = some m) ∨
      (w.log.head? = some e ∧ p = m.point) ∨ m.Refused ∧ p.ending

theorem Handled.later (h : Handled w p) (hgrows : w.log <:+ v.log) (hending : p.ending → p'.ending)
    (hhand : ∀ m, p = Incoming.point m → (∀ e, w.log.head? = some e →
      e.2.receives = some m → m.Seen e.1) ∨ (∃ e' ∈ v.log, e'.2.marks = some m) ∨
        m.Refused ∧ p'.ending)
    (hnew : ∀ e ∈ v.log, e ∈ w.log ∨ e.2.receives = none ∨
      v.log.head? = some e ∧ e.2.receives.map Incoming.point = some p') : Handled v p' := by
  intro e he m hm
  rcases hnew e he with hold | hnone | ⟨hhead, hpoint⟩
  · rcases h e hold m hm with hseen | ⟨e', he', hmarks⟩ | ⟨hhead, hp⟩ | ⟨hrefused, hp⟩
    · exact .inl hseen
    · exact .inr (.inl ⟨e', hgrows.subset he', hmarks⟩)
    · rcases hhand m hp with hseen | hmarked | hrefused
      · exact .inl (hseen e hhead hm)
      · exact .inr (.inl hmarked)
      · exact .inr (.inr (.inr hrefused))
    · exact .inr (.inr (.inr ⟨hrefused, hending hp⟩))
  · rw [hnone] at hm
    cases hm
  · rw [hm] at hpoint
    exact .inr (.inr (.inl ⟨hhead, (some.inj hpoint).symm⟩))

theorem reachable_handled (hc : Reachable E input c) : Handled c.2 c.1.2 := by
  refine reach_always (fun _ hmem => (not_mem_nil hmem).elim) (fun c d hc h hI => ?_) hc
  have hchained := reachable_chained hc
  have hgrows := h.grows
  have hending := h.ending
  cases h.messageStep with
  | quiet hpoint hquiet =>
    exact hI.later hgrows hending (fun m hm => absurd hm (Point.ne_of_not_receiving hpoint m))
      fun e he => (hquiet e he).imp_right .inl
  | receive m hreceives hsettled =>
    refine hI.later hgrows (fun hp => absurd hp hsettled.2)
      (fun m hm => absurd hm (Point.ne_of_not_receiving hsettled.1 m)) fun e he => ?_
    rcases mem_cons.mp he with rfl | hold
    · exact .inr (.inr ⟨rfl, congrArg (Option.map _) hreceives⟩)
    · exact .inl hold
  | @mark _ _ _ act _ hmarks =>
    have hquiet : act.receives = none := by cases act <;> first | rfl | cases hmarks
    refine hI.later hgrows hending (fun m' hm => .inr (.inl ⟨_, mem_cons_self, ?_⟩))
      fun e he => (quiet_said hquiet e he).imp_right .inl
    exact Incoming.point_injective hm ▸ hmarks
  | seen m hseen =>
    refine hI.later hgrows hending (fun m' hm => .inl fun e hhead hreceives => ?_)
      fun _ he => .inl he
    obtain rfl := Incoming.point_injective hm
    exact Incoming.seen_head hchained hhead hreceives hseen
  | invalid m hrefused hended =>
    refine hI.later hgrows hending (fun m' hm => .inr (.inr ⟨?_, hended⟩)) fun _ he => .inl he
    exact Incoming.point_injective hm ▸ hrefused

section

variable (hc : Reachable E input c) (hbetween : c.1.2.receiving = false)
include hc hbetween

theorem message_applied (he : e ∈ c.2.log) {m : Incoming} (hm : e.2.receives = some m) :
    m.Seen e.1 ∨ (∃ e' ∈ c.2.log, e'.2.marks = some m) ∨ m.Refused ∧ c.1.2.ending := by
  rcases reachable_handled hc e he m hm with hseen | hmarked | ⟨-, hpoint⟩ | hended
  · exact .inl hseen
  · exact .inr (.inl hmarked)
  · exact absurd hpoint (Point.ne_of_not_receiving hbetween m)
  · exact .inr (.inr hended)

theorem controls_applied (hmem : (l, .receiveControl control) ∈ c.2.log) :
    control.idempotencyKey ∈ l.processedControls ∨ (∃ l', (l', .markControl control) ∈ c.2.log) ∨
      Incoming.Refused (.control control) ∧ c.1.2.ending := by
  refine (message_applied hc hbetween hmem rfl).imp id (.imp ?_ id)
  rintro ⟨⟨l', act⟩, hmem', hmarks⟩
  cases act <;> cases hmarks
  exact ⟨l', hmem'⟩

theorem signals_applied (hmem : (l, .receiveSignal signal) ∈ c.2.log) :
    signal.idempotencyKey ∈ l.processedSignals ∨ (∃ l', (l', .markSignal signal) ∈ c.2.log) ∨
      Incoming.Refused (.signal signal) ∧ c.1.2.ending := by
  refine (message_applied hc hbetween hmem rfl).imp id (.imp ?_ id)
  rintro ⟨⟨l', act⟩, hmem', hmarks⟩
  cases act <;> cases hmarks
  exact ⟨l', hmem'⟩

end

/-! ## The drains of an iteration -/

def Act.closesControls : Act → Bool
  | .enter .signals => true
  | _ => false

def Act.closesSignals : Act → Bool
  | .enter .preSchedule => true
  | _ => false

/-- How many of the two drains of the iteration are behind a control point, as far as an
execution that continues as new comes through it. -/
def Point.phase : Point → Nat
  | .signals | .receivedSignal _ | .handlingSignal _ | .retrying _ | .unpausing
  | .forwarding .. => 1
  | .preSchedule | .timely | .waiting | .deciding | .decided _ | .skipping .. | .starting ..
  | .node (.start ..) _ _ | .node (.poll _) _ _ | .startGuard .. | .started _ | .polling _
  | .closing _ | .unfinished _ | .finishing _ | .controlling _ (.guard .start ..)
  | .marking _ (.guard .start ..) | .ended (.guard .start ..) | .leaving (.continued _)
  | .begin _ => 2
  | _ => 0

def Waiting (w : World) (n : Nat) : Prop :=
  (1 ≤ n → w.st.controlCh = controlBox.since Act.closesControls w.log) ∧
    (2 ≤ n → w.st.signalCh = signalBox.since Act.closesSignals w.log)

theorem Waiting.mono {m : Nat} (h : Waiting w n) (hle : m ≤ n) : Waiting w m :=
  ⟨fun hm => h.1 (hm.trans hle), fun hm => h.2 (hm.trans hle)⟩

def Act.calm : Act → Bool
  | .receiveControl _ | .receiveSignal _ | .begin _ | .enter .signals | .enter .preSchedule => false
  | _ => true

theorem Act.calm_spec {act : Act} (h : act.calm = true) :
    act.opens = false ∧ controlBox.receives act = none ∧ signalBox.receives act = none ∧
      act.closesControls = false ∧ act.closesSignals = false := by
  cases act with
  | enter stage => cases stage <;> first | exact ⟨rfl, rfl, rfl, rfl, rfl⟩ | cases h
  | receiveControl | receiveSignal | begin => cases h
  | _ => exact ⟨rfl, rfl, rfl, rfl, rfl⟩

theorem Waiting.act {act : Act} (h : Waiting w n) (hcalm : act.calm = true) :
    Waiting (w.act Locals.step act) n := by
  obtain ⟨hopens, hcontrol, hsignal, hcontrols, hsignals⟩ := Act.calm_spec hcalm
  constructor
  · intro hn
    exact controlBox.since_step (h.1 hn) hopens hcontrol fun hclose => by
      rw [hcontrols] at hclose
      cases hclose
  · intro hn
    exact signalBox.since_step (h.2 hn) hopens hsignal fun hclose => by
      rw [hsignals] at hclose
      cases hclose

theorem Waiting.asked {act : Act} (h : Waiting w n)
    (hcalm : act.calm = true) : Waiting (asked w act arrivals) n :=
  (h.act hcalm).act rfl

theorem Posted.waiting (h : Posted E spec event w answer v) (hw : Waiting w n) : Waiting v n := by
  cases h with
  | answered => exact (hw.act rfl).asked rfl
  | _ => exact hw.act rfl

inductive PhaseStep : Config → Config → Prop
  | calm {x x' p p' w v} (hphase : p'.phase ≤ p.phase)
      (hcalm : ∀ n, Waiting w n → Waiting v n) : PhaseStep ((x, p), w) ((x', p'), v)
  | closeControls {x : Execution} {w : World} (hempty : w.st.controlCh = []) :
      PhaseStep ((x, .controls), w) ((x, .signals), w.act Locals.step (.enter .signals))
  | closeSignals {x : Execution} {w : World} (hempty : w.st.signalCh = []) :
      PhaseStep ((x, .signals), w) ((x, .preSchedule), w.act Locals.step (.enter .preSchedule))
  | receiveSignal {x : Execution} {w : World} (signal : Signal) :
      PhaseStep ((x, .signals), w)
        ((x, .receivedSignal signal), w.act Locals.step (.receiveSignal signal))
  | reset {x x' : Execution} {p p' : Point} {w v : World} (hphase : p'.phase = 0) :
      PhaseStep ((x, p), w) ((x', p'), v)

theorem Move.phaseStep (h : Move E c d) : PhaseStep c d := by
  cases h with
  | skip h =>
    cases h with
    | command h =>
      cases h with
      | control hpurpose =>
        rcases ControlRequest.purpose_cases hpurpose with rfl | rfl | rfl <;> exact .reset rfl
      | @mark purpose =>
        cases purpose with
        | guard site => cases site <;> exact .calm le_rfl fun _ => id
        | _ => exact .reset rfl
      | guard hguard => cases hguard <;> first | exact .reset rfl | exact .calm le_rfl fun _ => id
      | guardRefused => exact .reset rfl
      | _ => first | exact .reset rfl | exact .calm le_rfl fun _ => id
    | @node site => cases site <;> first | exact .reset rfl | exact .calm le_rfl fun _ => id
    | _ => first | exact .reset rfl | exact .calm le_rfl fun _ => id
  | say h =>
    cases h with
    | receivedControl => exact .reset rfl
    | receivedSignal => exact .receiveSignal _
    | noControl hempty => exact .closeControls hempty
    | noSignal hempty => exact .closeSignals hempty
    | @node site _ _ _ _ h =>
      cases site <;> cases h <;> first | exact .reset rfl | exact .calm le_rfl fun _ hw => hw.act rfl
    | _ => first | exact .reset rfl | exact .calm le_rfl fun _ hw => hw.act rfl
  | ask h =>
    cases h with
    | @controlled _ _ _ purpose =>
      cases purpose with
      | guard site => cases site <;> exact .calm le_rfl fun _ hw => hw.asked rfl
      | _ => exact .reset rfl
    | @drained outcome => cases outcome <;> exact .calm le_rfl fun _ hw => hw.asked rfl
    | @node site _ _ _ _ _ h =>
      cases site <;> cases h <;>
        first | exact .reset rfl | exact .calm le_rfl fun _ hw => hw.asked rfl
    | _ => first | exact .reset rfl | exact .calm le_rfl fun _ hw => hw.asked rfl
  | saved h hposted =>
    cases h with
    | @marked _ _ purpose | @ended purpose =>
      cases purpose with
      | guard site => cases site <;> exact .calm le_rfl fun _ => hposted.waiting
      | _ => exact .reset rfl
    | @node site => cases site <;> exact .calm le_rfl fun _ => hposted.waiting
    | _ => first | exact .reset rfl | exact .calm le_rfl fun _ => hposted.waiting
  | unsaved h hposted =>
    cases h with
    | @node site => cases site <;> exact .calm le_rfl fun _ => hposted.waiting
    | _ => exact .reset rfl
  | begin | refuse => exact .reset rfl

theorem reachable_waiting (hc : Reachable E input c) : Waiting c.2 c.1.2.phase := by
  refine reach_always ⟨fun _ => rfl, fun _ => rfl⟩ (fun c d _ h hI => ?_) hc
  cases h.phaseStep with
  | calm hphase hcalm => exact (hcalm _ hI).mono hphase
  | closeControls hempty =>
    exact ⟨fun _ => hempty, fun (hn : 2 ≤ 1) => absurd hn (by decide)⟩
  | @closeSignals _ w hempty =>
    refine ⟨fun _ => ?_, fun _ => hempty⟩
    show controlBox.channel (step w.st (.enter .preSchedule)) =
      controlBox.since Act.closesControls ((w.st, .enter .preSchedule) :: w.log)
    exact controlBox.since_step (hI.1 le_rfl) rfl rfl nofun
  | @receiveSignal _ w signal =>
    refine ⟨fun _ => ?_, fun (hn : 2 ≤ 1) => absurd hn (by decide)⟩
    show controlBox.channel (step w.st (.receiveSignal signal)) =
      controlBox.since Act.closesControls ((w.st, .receiveSignal signal) :: w.log)
    exact controlBox.since_step (hI.1 le_rfl) rfl rfl nofun
  | @reset _ _ _ p' _ _ hphase =>
    show Waiting _ p'.phase
    rw [hphase]
    exact ⟨fun hn => absurd hn (by decide), fun hn => absurd hn (by decide)⟩

/-! ## Survival -/

/-- An execution begins, and in the last iteration of the one before a message arrived after
the drain of its channel had ended. -/
def lateMessage (w : World) : Act → Bool
  | .begin _ =>
      !(controlBox.since Act.closesControls w.log).isEmpty ||
        !(signalBox.since Act.closesSignals w.log).isEmpty
  | _ => false

theorem Says.not_opens {act : Act} (h : Says E x w p act p') : act.opens = false := by
  cases h with
  | node h => cases h <;> rfl
  | _ => rfl

theorem Asks.not_opens {act : Act} (h : Asks E x w p act p') : act.opens = false := by
  cases h with
  | node h => cases h <;> rfl
  | _ => rfl

theorem not_opens_lossless {act : Act} (h : act.opens = false) :
    controlBox.Lossless (l, act) ∧ signalBox.Lossless (l, act) :=
  ⟨fun hopens => absurd (h.symm.trans hopens) nofun,
    fun hopens => absurd (h.symm.trans hopens) nofun⟩

theorem reachable_begin_empty {locals : Locals}
    (hc : Reachable E input ((x, .begin next), w)) (hnone : lateMessage w (.begin locals) = false) :
    w.st.controlCh = [] ∧ w.st.signalCh = [] := by
  have hwaiting : Waiting w 2 := reachable_waiting hc
  simp only [lateMessage, Bool.or_eq_false_iff, Bool.not_eq_false', List.isEmpty_iff] at hnone
  exact ⟨(hwaiting.1 (by decide)).trans hnone.1, (hwaiting.2 le_rfl).trans hnone.2⟩

/-- An execution begins while messages wait in the channels of the one before. -/
def losesMessage : Locals × Act → Bool
  | (l, .begin _) => !l.controlCh.isEmpty || !l.signalCh.isEmpty
  | _ => false

theorem reachable_losesMessage (hc : Reachable E input c)
    (hlate : Taken (lateMessage · · = false) c.2.log) : LogMeets (losesMessage · = false) c.2 := by
  rintro ⟨l, act⟩ he
  obtain ⟨earlier, hsuffix, hrow⟩ := (reachable_rowed hc).of_mem he
  have hnone := hlate.of_suffix (w := ⟨l, earlier⟩) hsuffix
  change Rowed E input ⟨l, earlier⟩ act at hrow
  cases hrow with
  | begun hreach =>
    obtain ⟨hcontrols, hsignals⟩ := reachable_begin_empty hreach hnone
    replace hcontrols : l.controlCh = [] := hcontrols
    replace hsignals : l.signalCh = [] := hsignals
    rw [losesMessage, hcontrols, hsignals]
    rfl
  | said _ hsaid => cases act <;> first | rfl | cases hsaid.not_opens
  | asked _ hasked => cases act <;> first | rfl | cases hasked.not_opens
  | _ => rfl

theorem reachable_lossless (hc : Reachable E input c)
    (hkept : LogMeets (losesMessage · = false) c.2) (he : e ∈ c.2.log) :
    controlBox.Lossless e ∧ signalBox.Lossless e := by
  have hnone := hkept e he
  obtain ⟨earlier, -, hrow⟩ := (reachable_rowed hc).of_mem he
  obtain ⟨l, act⟩ := e
  change Rowed E input ⟨l, earlier⟩ act at hrow
  cases hrow with
  | begun hreach =>
    simp only [losesMessage, Bool.or_eq_false_iff, Bool.not_eq_false', List.isEmpty_iff] at hnone
    exact ⟨fun _ => ⟨hnone.1, rfl⟩, fun _ => ⟨hnone.2, rfl⟩⟩
  | said _ hsaid => exact not_opens_lossless hsaid.not_opens
  | asked _ hasked => exact not_opens_lossless hasked.not_opens
  | _ => exact not_opens_lossless rfl

/-- Every message that was delivered before an execution begins was received, and every
request that was received was applied or repeats a key, when no message was late. -/
theorem messages_survive (E : Host) (input : PlanWorkflowInput) (n : Nat)
    (hlate : Taken (lateMessage · · = false) (planRun E input n).world.log) :
    ∀ (w : World) (locals : Locals),
      (w.st, .begin locals) :: w.log <:+ (planRun E input n).world.log →
      controlBox.delivered w.log = controlBox.received w.log ∧
      signalBox.delivered w.log = signalBox.received w.log ∧
      (∀ l control, (l, .receiveControl control) ∈ w.log →
        control.idempotencyKey ∈ l.processedControls ∨ ∃ l', (l', .markControl control) ∈ w.log) ∧
      ∀ l signal, (l, .receiveSignal signal) ∈ w.log →
        signal.idempotencyKey ∈ l.processedSignals ∨ ∃ l', (l', .markSignal signal) ∈ w.log := by
  intro w locals hsuffix
  obtain ⟨c, hreach, hat⟩ := planRun_path E input n
  rw [← hat.world] at hlate hsuffix
  have hnone := hlate.of_suffix hsuffix
  cases (reachable_rowed hreach).of_suffix hsuffix with
  | said _ hsaid => cases hsaid.not_opens
  | asked _ hasked => cases hasked.not_opens
  | begun hbegin =>
    obtain ⟨hcontrols, hsignals⟩ := reachable_begin_empty hbegin hnone
    have hlossless := fun e => reachable_lossless hbegin (e := e)
      (reachable_losesMessage hbegin (hlate.mono ((suffix_cons _ _).trans hsuffix)))
    have hchained := reachable_chained hbegin
    refine ⟨?_, ?_, fun l control hmem => ?_, fun l signal hmem => ?_⟩
    · have hall := controlBox.delivered_eq hchained rfl fun e he => (hlossless e he).1
      rwa [show controlBox.channel w.st = [] from hcontrols, append_nil] at hall
    · have hall := signalBox.delivered_eq hchained rfl fun e he => (hlossless e he).2
      rwa [show signalBox.channel w.st = [] from hsignals, append_nil] at hall
    · exact (controls_applied hbegin rfl hmem).imp_right fun h => h.resolve_right And.right
    · exact (signals_applied hbegin rfl hmem).imp_right fun h => h.resolve_right And.right

/-- A pause arrives with every validation of the plan. -/
def inTimeHost : Host :=
  { calmHost with
    arrivals := fun w =>
      match w.log with
      | (_, .validate _) :: _ =>
          { controls := [{ operation := some .pause, idempotencyKey := some "k0" }] }
      | _ => {} }

/-- A plan of one node that continues as new after every iteration. -/
def continuedPlan : PlanWorkflowInput := planOf [nativeNode "a" "r"] [] { continueAsNewEvents := 1 }

theorem messages_survive_paused :
    (planRun inTimeHost continuedPlan 8).world.log.countP (fun e => e.2.opens) = 2 ∧
    ∀ (w : World) (locals : Locals),
      (w.st, .begin locals) :: w.log <:+ (planRun inTimeHost continuedPlan 8).world.log →
      controlBox.delivered w.log = controlBox.received w.log ∧
      signalBox.delivered w.log = signalBox.received w.log ∧
      (∀ l control, (l, .receiveControl control) ∈ w.log →
        control.idempotencyKey ∈ l.processedControls ∨ ∃ l', (l', .markControl control) ∈ w.log) ∧
      ∀ l signal, (l, .receiveSignal signal) ∈ w.log →
        signal.idempotencyKey ∈ l.processedSignals ∨ ∃ l', (l', .markSignal signal) ∈ w.log :=
  ⟨by decide +kernel, messages_survive inTimeHost continuedPlan 8 (by decide +kernel)⟩

/-- The run of the node goes on, and a cancel arrives while the node starts. -/
def lateCancelHost : Host :=
  { calmHost with
    statusNode := fun _ => .ok { lifecycleState := .other "running" }
    arrivals := fun w =>
      match w.log with
      | (_, .startNode ..) :: _ =>
          { controls := [{ operation := some .cancel, idempotencyKey := some "k0" }] }
      | _ => {} }

/-- The iteration in which the cancel arrives continues as new, and the plan goes on. -/
theorem late_cancel_lost :
    (planRun lateCancelHost continuedPlan 9).world.log.any losesMessage = true ∧
    (planRun lateCancelHost continuedPlan 9).world.st.controlCh.isEmpty = true ∧
    (planRun lateCancelHost continuedPlan 9).world.st.state.status.lifecycleState = .running := by
  decide +kernel

/-! ## Exactly once -/

variable {key : String}

theorem step_processed {act : Act} (h : act.opens = false) (key : String) :
    (key ∈ (l.step act).processedControls ↔ key ∈ l.processedControls ∨
      ∃ control, controlBox.marks act = some control ∧ control.idempotencyKey = key) ∧
    (key ∈ (l.step act).processedSignals ↔ key ∈ l.processedSignals ∨
      ∃ signal, signalBox.marks act = some signal ∧ signal.idempotencyKey = key) := by
  cases act with
  | begin => cases h
  | validate answer => cases answer <;> simp [step, controlBox, signalBox]
  | markControl | markSignal => simp [step, controlBox, signalBox, eq_comm, or_comm]
  | _ => simp [step, controlBox, signalBox]

theorem reachable_begin_processed
    (hc : Reachable E input ((x, .begin next), w)) (state : State) (key : String) :
    ((key ∈ (initialLocals next state).processedControls → key ∈ w.st.processedControls) ∧
      (key ≠ "" → key ∈ w.st.processedControls →
        key ∈ (initialLocals next state).processedControls)) ∧
    (key ∈ (initialLocals next state).processedSignals → key ∈ w.st.processedSignals) ∧
      (key ≠ "" → key ∈ w.st.processedSignals →
        key ∈ (initialLocals next state).processedSignals) := by
  rcases reachable_begins hc with ⟨rfl, rfl⟩ | ⟨rfl, -⟩
  · exact ⟨⟨id, fun _ => id⟩, id, fun _ => id⟩
  have hkeys : ∀ keys, key ∈ processedPlanWorkflowKeys (sortedPlanWorkflowKeys keys) ↔
      key ∈ keys ∧ key ≠ "" := by
    simp [processedPlanWorkflowKeys, sortedPlanWorkflowKeys]
  exact ⟨⟨fun h => ((hkeys _).mp h).1, fun hne h => (hkeys _).mpr ⟨h, hne⟩⟩,
    fun h => ((hkeys _).mp h).1, fun hne h => (hkeys _).mpr ⟨h, hne⟩⟩

def Received (w : World) : Point → Prop
  | .receivedControl control => ∃ l, (l, .receiveControl control) ∈ w.log
  | .receivedSignal signal => ∃ l, (l, .receiveSignal signal) ∈ w.log
  | _ => True

theorem reachable_received (hc : Reachable E input c) : Received c.2 c.1.2 := by
  refine reach_always trivial (fun c d _ h _ => ?_) hc
  cases h with
  | skip h =>
    cases h with
    | command h => cases h <;> trivial
    | _ => trivial
  | say h =>
    cases h with
    | receivedControl | receivedSignal => exact ⟨_, mem_cons_self⟩
    | _ => trivial
  | ask h | saved h | unsaved h => cases h <;> trivial
  | begin | refuse => trivial

theorem Rowed.markControl (h : Rowed E input w (.markControl control)) :
    control.idempotencyKey ≠ "" ∧ control.idempotencyKey ∉ w.st.processedControls ∧
      ∃ l, (l, .receiveControl control) ∈ w.log := by
  cases h with
  | said hreach hrow =>
    cases hrow with
    | markedControl _ hkey hnew => exact ⟨hkey, hnew, reachable_received hreach⟩
    | node h => cases h
  | asked _ hrow =>
    cases hrow with
    | node h => cases h

theorem Rowed.markSignal (h : Rowed E input w (.markSignal signal)) :
    signal.idempotencyKey ≠ "" ∧ signal.idempotencyKey ∉ w.st.processedSignals ∧
      ∃ l, (l, .receiveSignal signal) ∈ w.log := by
  cases h with
  | said hreach hrow =>
    cases hrow with
    | markedSignal hvalid hnew =>
      refine ⟨fun hempty => ?_, hnew, reachable_received hreach⟩
      unfold validatePlanSignal at hvalid
      split_ifs at hvalid
    | node h => cases h
  | asked _ hrow =>
    cases hrow with
    | node h => cases h

structure CommandBox (E : Host) (input : PlanWorkflowInput) {M R : Type}
    (B : Mailbox Locals.step M R String) : Prop where
  marks : ∀ {w : World} {act : Act} {r : R}, Rowed E input w act → B.marks act = some r →
    B.key r ≠ "" ∧ B.key r ∉ B.processed w.st ∧ ∃ e ∈ w.log, B.receives e.2 = some r
  step : ∀ {l : Locals} {act : Act}, act.opens = false → ∀ key,
    key ∈ B.processed (l.step act) ↔ key ∈ B.processed l ∨ ∃ r, B.marks act = some r ∧ B.key r = key
  begins : ∀ {x : Execution} {next : PlanWorkflowInput} {w : World},
    Reachable E input ((x, .begin next), w) → ∀ state key,
    (key ∈ B.processed (initialLocals next state) → key ∈ B.processed w.st) ∧
      (key ≠ "" → key ∈ B.processed w.st → key ∈ B.processed (initialLocals next state))

theorem controlBox_commands : CommandBox E input controlBox where
  marks := by
    intro w act control hrow hmarks
    cases act <;> cases hmarks
    obtain ⟨hkey, hnew, l, hmem⟩ := hrow.markControl
    exact ⟨hkey, hnew, _, hmem, rfl⟩
  step := fun hopens key => (step_processed hopens key).1
  begins := fun hc state key => (reachable_begin_processed hc state key).1

theorem signalBox_commands : CommandBox E input signalBox where
  marks := by
    intro w act signal hrow hmarks
    cases act <;> cases hmarks
    obtain ⟨hkey, hnew, l, hmem⟩ := hrow.markSignal
    exact ⟨hkey, hnew, _, hmem, rfl⟩
  step := fun hopens key => (step_processed hopens key).2
  begins := fun hc state key => (reachable_begin_processed hc state key).2

section Commands

variable {M R : Type} {B : Mailbox Locals.step M R String}

section

variable (h : CommandBox E input B) {log : List (Locals × Act)}
include h

theorem CommandBox.entry {act : Act} (hrow : Rowed E input w act) (key : String) :
    (key ≠ "" → key ∈ B.processed w.st → key ∈ B.processed (w.st.step act)) ∧
      (key ∈ B.processed (w.st.step act) →
        key ∈ B.processed w.st ∨ ∃ r, B.marks act = some r ∧ B.key r = key) := by
  have hwithin : act.opens = false → _ := fun hopens =>
    And.intro (fun (_ : key ≠ "") hold => (h.step (l := w.st) hopens key).mpr (.inl hold))
      (h.step (l := w.st) hopens key).mp
  cases hrow with
  | said _ hsaid => exact hwithin hsaid.not_opens
  | asked _ hasked => exact hwithin hasked.not_opens
  | begun hreach =>
    obtain ⟨hsub, hkeep⟩ := h.begins hreach _ key
    exact ⟨hkeep, fun hnew => .inl (hsub hnew)⟩
  | _ => exact hwithin rfl

theorem CommandBox.marked_ne
    (hrows : Taken (Rowed E input) log) (hkey : key ∈ B.marked log) : key ≠ "" := by
  obtain ⟨e, he, hmap⟩ := mem_filterMap.mp hkey
  obtain ⟨r, hmarks, rfl⟩ := map_eq_some_iff.mp hmap
  obtain ⟨earlier, -, hrow⟩ := hrows.of_mem he
  exact (h.marks hrow hmarks).1

theorem CommandBox.nodup (hc : Reachable E input c) : (B.marked c.2.log).Nodup := by
  have hrows := reachable_rowed hc
  refine (B.marked_nodup (reachable_chained hc)
    (hrows.imp fun w act hrow r hmarks => (h.marks hrow hmarks).2.1) ?_).1
  intro e he key hkey
  obtain ⟨earlier, -, hrow⟩ := hrows.of_mem he
  exact (h.entry hrow key).1 (h.marked_ne hrows hkey)

theorem CommandBox.received (hnew : B.processed (blankLocals input) = [])
    (hrows : Taken (Rowed E input) log) (hchained : Chained Locals.step (blankLocals input) l log)
    (hkey : key ∈ B.processed l) : ∃ e ∈ log, ∃ r, B.receives e.2 = some r ∧ B.key r = key := by
  have hmarked := B.processed_marked hchained hnew (fun e he key => by
    obtain ⟨earlier, -, hrow⟩ := hrows.of_mem he
    exact (h.entry hrow key).2) key hkey
  obtain ⟨e, he, hmap⟩ := mem_filterMap.mp hmarked
  obtain ⟨r, hmarks, rfl⟩ := map_eq_some_iff.mp hmap
  obtain ⟨earlier, hsuffix, hrow⟩ := hrows.of_mem he
  obtain ⟨-, -, e', he', hreceives⟩ := h.marks hrow hmarks
  exact ⟨e', hsuffix.subset (mem_cons_of_mem _ he'), r, hreceives, rfl⟩

end

end Commands

theorem Rowed.receiveControl
    (h : Rowed E input w (.receiveControl control)) : ∃ msg rest, w.st.controlCh = msg :: rest ∧
      ∀ key, msg.idempotencyKey = some key → control.idempotencyKey = key := by
  cases h with
  | said _ hrow =>
    cases hrow with
    | @receivedControl _ _ msg rest hchannel hdecoded =>
      refine ⟨msg, rest, hchannel, fun key hkey => ?_⟩
      rw [hdecoded, ControlMessage.decodeInto, hkey, getD_some]
    | node h => cases h
  | asked _ hrow =>
    cases hrow with
    | node h => cases h

theorem Rowed.receiveSignal
    (h : Rowed E input w (.receiveSignal signal)) : ∃ msg rest, w.st.signalCh = msg :: rest ∧
      ∀ key, msg.idempotencyKey = some key → signal.idempotencyKey = key := by
  cases h with
  | said _ hrow =>
    cases hrow with
    | @receivedSignal _ _ msg rest hchannel hdecoded =>
      refine ⟨msg, rest, hchannel, fun key hkey => ?_⟩
      rw [hdecoded, SignalMessage.decodeInto, hkey, getD_some]
    | node h => cases h
  | asked _ hrow =>
    cases hrow with
    | node h => cases h

/-- The plan has not ended. -/
def Exec.goesOn : Exec → Bool
  | .running .. => true
  | _ => false

theorem Exec.At.between {exec : Exec} (h : exec.At c) :
    c.1.2.receiving = false ∧ (c.1.2.ending → exec.goesOn = false) := by
  cases exec with
  | running x position w =>
    obtain rfl : c = ((x, position.point), w) := h
    cases position <;> exact ⟨rfl, nofun⟩
  | returned | refused =>
    obtain ⟨x, rfl⟩ := h
    exact ⟨rfl, fun _ => rfl⟩

/-- Exactly-once commands: no key is applied twice over all executions of a plan.  When every
message is delivered to one execution, every message was received or waits, and a request whose
key was not received before is applied, unless it is not valid and has ended the plan. -/
theorem commands_once (E : Host) (r : PlanRuntime) (spec : RunPlanSpec) (n : Nat) :
    let run := planRun E (r.newPlanInput spec) n
    (controlBox.marked run.world.log).Nodup ∧ (signalBox.marked run.world.log).Nodup ∧
    (LogMeets (losesMessage · = false) run.world → controlBox.delivered run.world.log =
        controlBox.received run.world.log ++ run.world.st.controlCh ∧
      signalBox.delivered run.world.log =
        signalBox.received run.world.log ++ run.world.st.signalCh ∧
      (∀ l control earlier, (l, .receiveControl control) :: earlier <:+ run.world.log →
        (∃ msg rest, l.controlCh = msg :: rest ∧
          ∀ key, msg.idempotencyKey = some key → control.idempotencyKey = key) ∧
        ((∀ l' control', (l', .receiveControl control') ∈ earlier →
            control'.idempotencyKey ≠ control.idempotencyKey) →
          (∃ l', (l', .markControl control) ∈ run.world.log) ∨
            Incoming.Refused (.control control) ∧ run.goesOn = false)) ∧
      ∀ l signal earlier, (l, .receiveSignal signal) :: earlier <:+ run.world.log →
        (∃ msg rest, l.signalCh = msg :: rest ∧
          ∀ key, msg.idempotencyKey = some key → signal.idempotencyKey = key) ∧
        ((∀ l' signal', (l', .receiveSignal signal') ∈ earlier →
            signal'.idempotencyKey ≠ signal.idempotencyKey) →
          (∃ l', (l', .markSignal signal) ∈ run.world.log) ∨
            Incoming.Refused (.signal signal) ∧ run.goesOn = false)) := by
  intro run
  obtain ⟨c, hreach, hat⟩ := planRun_path E (r.newPlanInput spec) n
  have hworld : c.2 = run.world := hat.world
  rw [← hworld]
  refine ⟨controlBox_commands.nodup hreach, signalBox_commands.nodup hreach, fun hkept => ?_⟩
  obtain ⟨hbetween, hended⟩ := hat.between
  have hrows := reachable_rowed hreach
  have hchained := reachable_chained hreach
  have hlossless := fun e => reachable_lossless hreach hkept (e := e)
  refine ⟨controlBox.delivered_eq hchained rfl fun e he => (hlossless e he).1,
    signalBox.delivered_eq hchained rfl fun e he => (hlossless e he).2,
    fun l control earlier hsuffix => ⟨?_, fun hfirst => ?_⟩,
    fun l signal earlier hsuffix => ⟨?_, fun hfirst => ?_⟩⟩
  · exact (hrows.of_suffix (w := ⟨l, earlier⟩) hsuffix).receiveControl
  · rcases controls_applied hreach hbetween (hsuffix.subset mem_cons_self) with hseen | happlied
    · obtain ⟨⟨l', act⟩, hmem, control', hreceives, hkey⟩ := controlBox_commands.received rfl
        (hrows.mono ((suffix_cons _ _).trans hsuffix)) (hchained.of_suffix hsuffix) hseen
      cases act <;> cases hreceives
      exact absurd hkey (hfirst l' control' hmem)
    · exact happlied.imp_right (.imp_right hended)
  · exact (hrows.of_suffix (w := ⟨l, earlier⟩) hsuffix).receiveSignal
  · rcases signals_applied hreach hbetween (hsuffix.subset mem_cons_self) with hseen | happlied
    · obtain ⟨⟨l', act⟩, hmem, signal', hreceives, hkey⟩ := signalBox_commands.received rfl
        (hrows.mono ((suffix_cons _ _).trans hsuffix)) (hchained.of_suffix hsuffix) hseen
      cases act <;> cases hreceives
      exact absurd hkey (hfirst l' signal' hmem)
    · exact happlied.imp_right (.imp_right hended)

/-- The pause of the second execution repeats the key of the first. -/
theorem commands_once_paused :
    let run := planRun inTimeHost continuedPlan 8
    controlBox.marked run.world.log = ["k0"] ∧
    controlBox.delivered run.world.log =
      controlBox.received run.world.log ++ run.world.st.controlCh ∧
    ∀ l control earlier, (l, .receiveControl control) :: earlier <:+ run.world.log →
      (∃ msg rest, l.controlCh = msg :: rest ∧
        ∀ key, msg.idempotencyKey = some key → control.idempotencyKey = key) ∧
      ((∀ l' control', (l', .receiveControl control') ∈ earlier →
          control'.idempotencyKey ≠ control.idempotencyKey) →
        (∃ l', (l', .markControl control) ∈ run.world.log) ∨
          Incoming.Refused (.control control) ∧ run.goesOn = false) := by
  obtain ⟨-, -, hrun⟩ := commands_once inTimeHost calmRuntime continuedPlan.spec 8
  obtain ⟨hdelivered, -, hreceived, -⟩ := hrun (by decide +kernel)
  exact ⟨by decide +kernel, hdelivered, hreceived⟩

end AgentOS.Plan
