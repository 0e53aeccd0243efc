import AgentOS.Plan.Loop
import AgentOS.Run.Supervisor

/-!
# Fidelity of the drains

The plan workflow and the run supervisor drain their channels into one variable each, so
what an earlier message set is still there when the next one is decoded.
-/

namespace AgentOS.Plan

open Kit

variable {E : Host} {x : Execution} {w v : World} {msg : ControlMessage}

/-! ## Segments -/

/-- Where a segment that begins with the variables `l` can lead. -/
inductive Leads (l : Locals) : Position → Position → Prop
  | opened {settled paced} : Leads l .top (.controls {} settled paced)
  | control {control settled paced msg rest} (hchannel : l.controlCh = msg :: rest) :
      Leads l (.controls control settled paced)
        (.controls (msg.decodeInto control) settled paced)
  | noControl {control settled paced} (hchannel : l.controlCh = []) :
      Leads l (.controls control settled paced) (.signals {} settled paced)
  | signal {signal progressed progressed' paced msg} {rest} (hchannel : l.signalCh = msg :: rest) :
      Leads l (.signals signal progressed paced)
        (.signals (msg.decodeInto signal) progressed' paced)
  | closed {signal progressed paced} (hchannel : l.signalCh = []) :
      Leads l (.signals signal progressed paced) .top

theorem failPlanWorkflowIteration_ends {α : Type} {Q : α → World → Prop} {cause : Err} :
    Ends (failPlanWorkflowIteration E cause) w Q := by
  refine .afterAny fun answer _ => ?_
  cases answer with
  | ok | error => exact .fail trivial

theorem orFailPlan_ends {α : Type} {Q : α → World → Prop} {part : Workflow α}
    (h : Ends part w Q) : Ends (orFailPlan E part) w Q := by
  refine .bind (.attempt (Q := fun r v => ∀ a, r = .ok a → Q a v)
    (.post h (by rintro a _ ha _ ⟨⟩; exact ha) fun _ _ _ _ h => nomatch h)) fun answer v hanswer => ?_
  cases answer with
  | ok a => exact .ret (hanswer a rfl)
  | error err => exact failPlanWorkflowIteration_ends

theorem drainPlanControlRound_ends {control : ControlRequest} :
    Ends (drainPlanControlRound E control msg) w (fun r _ => r.1 = msg.decodeInto control) := by
  refine .afterAny fun _ _ => .afterAny fun _ _ => ?_
  split_ifs
  · exact .fail trivial
  refine .afterAny fun _ _ => ?_
  split_ifs
  · exact .ret rfl
  · exact .afterAny fun _ _ => .afterAny fun _ _ => .ret rfl

theorem drainPlanSignalsRound_ends {signal : Signal} {msg : SignalMessage} :
    Ends (drainPlanSignalsRound E signal msg) w (fun r _ => r.1 = msg.decodeInto signal) := by
  refine .afterAny fun _ _ => .afterAny fun _ _ => .afterAny fun _ _ => ?_
  split_ifs
  · exact .ret rfl
  · exact .afterAny fun _ _ => .afterAny fun _ _ => .ret rfl

variable {progressed paced : Bool} {input : PlanWorkflowInput}

theorem finishPlanWorkflowIteration_ends :
    Ends (finishPlanWorkflowIteration E input progressed) w
      (fun r _ => ∀ next, r = .go next → next = .top) := by
  refine .afterAny fun _ _ => .afterAny fun _ _ => ?_
  split_ifs
  · exact .afterAny fun _ _ => .fail trivial
  · refine .afterAny fun answer _ => ?_
    cases answer with
    | some _ => exact .ret nofun
    | none => exact .ret fun _ h => (Verdict.go.inj h).symm
  · refine .afterAny fun answer _ => ?_
    cases answer with
    | some _ => exact .ret nofun
    | none => exact .afterAny fun _ _ => .ret fun _ h => (Verdict.go.inj h).symm

theorem closeIteration_ends :
    Ends (closeIteration E x progressed paced) w
      (fun r _ => ∀ next, r = .go next → next = .top) := by
  refine .afterAny fun _ _ => .afterAny fun answer _ => ?_
  cases answer with
  | done | continued => exact .ret nofun
  | skipSchedule => exact .ret fun _ h => (Verdict.go.inj h).symm
  | proceed =>
    refine .afterAny fun r _ => ?_
    obtain ⟨progressed, done⟩ := r
    dsimp only
    split_ifs
    · exact .ret nofun
    · exact .ret fun _ h => (Verdict.go.inj h).symm
    · exact finishPlanWorkflowIteration_ends

theorem advance_ends (p : Position) :
    Ends (advance E x p) w (fun r _ => ∀ next, r = .go next → Leads w.st p next) := by
  cases p with
  | top =>
    refine .afterAny fun _ _ => .afterAny fun _ _ => .afterAny fun _ _ =>
      .afterAny fun r _ => ?_
    refine .afterAny fun _ _ => .ret fun next hnext => ?_
    cases hnext
    exact .opened
  | controls control settled paced =>
    refine .read ?_
    cases hchannel : w.st.controlCh with
    | nil =>
      refine .afterAny fun _ _ => .ret fun next hnext => ?_
      cases hnext
      exact .noControl hchannel
    | cons msg rest =>
      refine .bind (orFailPlan_ends drainPlanControlRound_ends) fun r _ hr => ?_
      obtain ⟨received, canceled⟩ := r
      refine .ret fun next hnext => ?_
      split_ifs at hnext
      cases hnext
      obtain rfl : received = msg.decodeInto control := hr
      exact .control hchannel
  | signals signal progressed paced =>
    refine .read ?_
    cases hchannel : w.st.signalCh with
    | nil =>
      refine .post closeIteration_ends (fun r _ hr next hnext => ?_) fun _ _ h => h
      rw [hr next hnext]
      exact .closed hchannel
    | cons msg rest =>
      refine .bind (orFailPlan_ends drainPlanSignalsRound_ends) fun r _ hr => ?_
      obtain ⟨received, result⟩ := r
      refine .ret fun next hnext => ?_
      split_ifs at hnext
      cases hnext
      obtain rfl : received = msg.decodeInto signal := hr
      exact .signal hchannel

/-! ## The drains of a plan -/

def Exec.controlVar : Exec → Option ControlRequest
  | .running _ (.controls control ..) _ => some control
  | _ => none

/-- The control that the next segment receives. -/
def Exec.nextControl : Exec → Option ControlMessage
  | .running _ (.controls ..) w => w.st.controlCh.head?
  | _ => none

def Exec.signalVar : Exec → Option Signal
  | .running _ (.signals signal ..) _ => some signal
  | _ => none

def Exec.nextSignal : Exec → Option SignalMessage
  | .running _ (.signals ..) w => w.st.signalCh.head?
  | _ => none

theorem beginExecution_top {p : Position}
    (h : beginExecution E input w = .running x p v) : p = .top := by
  rw [beginExecution] at h
  cases hsetup : (setupPlanWorkflow E input).run w with
  | mk res u =>
    rw [hsetup] at h
    cases res <;> cases h
    rfl

section Runs

variable (E) (input : PlanWorkflowInput)

variable {E input} in
theorem planRun_leads {n : Nat} {p : Position} (h : planRun E input (n + 1) = .running x p v) :
    p = .top ∨ ∃ y q w, planRun E input n = .running y q w ∧ Leads w.st q p := by
  rw [planRun] at h
  cases hrun : planRun E input n with
  | returned | refused => rw [hrun] at h; cases h
  | running y q w =>
    rw [hrun, Exec.step] at h
    cases hsegment : (advance E y q).run w with
    | mk res u =>
      rw [hsegment] at h
      cases res with
      | error err => cases h
      | ok verdict =>
        cases verdict with
        | done => cases h
        | continued next => exact .inl (beginExecution_top h)
        | go position =>
          cases h
          exact .inr ⟨x, q, w, rfl, Yields.of_run (advance_ends q) hsegment p rfl⟩

/-- The control drain of a plan. -/
def planControlDrain : Drain ControlRequest ControlMessage where
  zero := {}
  decode into msg := msg.decodeInto into
  var n := (planRun E input n).controlVar
  next n := (planRun E input n).nextControl
  var_zero control hvar := by
    cases hrun : planRun E input 0 with
    | running x p w =>
      rw [hrun, beginExecution_top hrun] at hvar
      cases hvar
    | _ => rw [hrun] at hvar; cases hvar
  var_succ := by
    intro n control hvar
    cases hnext : planRun E input (n + 1) with
    | running x p v =>
      rw [hnext] at hvar
      rcases planRun_leads hnext with rfl | ⟨y, q, w, hrun, hleads⟩
      · cases hvar
      rw [hrun]
      cases hleads with
      | opened => exact .inr ⟨rfl, (Option.some.inj hvar).symm⟩
      | @control into _ _ msg _ hchannel =>
        exact .inl ⟨msg, into, congrArg List.head? hchannel, rfl, (Option.some.inj hvar).symm⟩
      | _ => cases hvar
    | _ => rw [hnext] at hvar; cases hvar

/-- The signal drain of a plan. -/
def planSignalDrain : Drain Signal SignalMessage where
  zero := {}
  decode into msg := msg.decodeInto into
  var n := (planRun E input n).signalVar
  next n := (planRun E input n).nextSignal
  var_zero signal hvar := by
    cases hrun : planRun E input 0 with
    | running x p w =>
      rw [hrun, beginExecution_top hrun] at hvar
      cases hvar
    | _ => rw [hrun] at hvar; cases hvar
  var_succ := by
    intro n signal hvar
    cases hnext : planRun E input (n + 1) with
    | running x p v =>
      rw [hnext] at hvar
      rcases planRun_leads hnext with rfl | ⟨y, q, w, hrun, hleads⟩
      · cases hvar
      rw [hrun]
      cases hleads with
      | noControl => exact .inr ⟨rfl, (Option.some.inj hvar).symm⟩
      | @signal into _ _ _ msg _ hchannel =>
        exact .inl ⟨msg, into, congrArg List.head? hchannel, rfl, (Option.some.inj hvar).symm⟩
      | _ => cases hvar
    | _ => rw [hnext] at hvar; cases hvar

end Runs

/-! ## Fidelity -/

theorem drainPlanControlRound_congr {control into : ControlRequest}
    (h : msg.decodeInto control = msg.decodeInto into) :
    drainPlanControlRound E control msg = drainPlanControlRound E into msg := by
  unfold drainPlanControlRound
  rw [h]

theorem drainPlanSignalsRound_congr {signal into : Signal} {msg : SignalMessage}
    (h : msg.decodeInto signal = msg.decodeInto into) :
    drainPlanSignalsRound E signal msg = drainPlanSignalsRound E into msg := by
  unfold drainPlanSignalsRound
  rw [h]

/-- Message fidelity of the drains: a message that holds every field and every map key that
the messages before it in the same drain held is handled as it was sent, as if it was the
first message of the drain. -/
theorem drain_fidelity (E : Host) (input : PlanWorkflowInput) (S : Supervisor.Host)
    (run : Supervisor.RunSupervisorInput) (n : Nat) :
    (∀ x control settled paced w msg rest,
      planRun E input n = .running x (.controls control settled paced) w →
      w.st.controlCh = msg :: rest →
      (∀ earlier ∈ (planControlDrain E input).received n, msg.covers earlier = true) →
      msg.decodeInto control = msg.decodeInto {} ∧
        planRun E input (n + 1) = (Exec.running x (.controls {} settled paced) w).step E) ∧
    (∀ x signal progressed paced w msg rest,
      planRun E input n = .running x (.signals signal progressed paced) w →
      w.st.signalCh = msg :: rest →
      (∀ earlier ∈ (planSignalDrain E input).received n, msg.covers earlier = true) →
      msg.decodeInto signal = msg.decodeInto {} ∧
        planRun E input (n + 1) = (Exec.running x (.signals {} progressed paced) w).step E) ∧
    (∀ control applied w msg rest,
      Supervisor.supervisorRun S run n = .running (.controls control applied) w →
      w.st.controlCh = msg :: rest →
      (∀ earlier ∈ (Supervisor.controlDrain S run).received n, msg.covers earlier = true) →
      msg.decodeInto control = msg.decodeInto {} ∧ Supervisor.supervisorRun S run (n + 1) =
          (Supervisor.Exec.running (.controls {} applied) w).step S run.ref) ∧
    ∀ signal w msg rest, Supervisor.supervisorRun S run n = .running (.signals signal) w →
      w.st.signalCh = msg :: rest →
      (∀ earlier ∈ (Supervisor.signalDrain S run).received n, msg.covers earlier = true) →
      msg.decodeInto signal = msg.decodeInto {} ∧ Supervisor.supervisorRun S run (n + 1) =
          (Supervisor.Exec.running (.signals {}) w).step S run.ref := by
  refine ⟨?_, ?_, fun _ _ _ _ _ => Supervisor.control_fidelity,
    fun _ _ _ _ => Supervisor.signal_fidelity⟩
  · intro x control settled paced w msg rest hrun hchannel hcovers
    have hsent : msg.decodeInto control = msg.decodeInto {} :=
      (planControlDrain E input).decode_eq (congrArg Exec.controlVar hrun) fun earlier hmem into =>
        ControlMessage.decodeInto_covers (hcovers earlier hmem) into
    refine ⟨hsent, ?_⟩
    simp [planRun, hrun, Exec.step, advance, drainControls, Prog.run_state_bind, hchannel,
      drainPlanControlRound_congr hsent]
  · intro x signal progressed paced w msg rest hrun hchannel hcovers
    have hsent : msg.decodeInto signal = msg.decodeInto {} :=
      (planSignalDrain E input).decode_eq (congrArg Exec.signalVar hrun) fun earlier hmem into =>
        SignalMessage.decodeInto_covers (hcovers earlier hmem) into
    refine ⟨hsent, ?_⟩
    simp [planRun, hrun, Exec.step, advance, drainSignals, Prog.run_state_bind, hchannel,
      drainPlanSignalsRound_congr hsent]

def pauseResume (actor : Option String) : List ControlMessage :=
  [{ operation := some .pause, idempotencyKey := some "k0", actorID := some "op" },
    { operation := some .resume, idempotencyKey := some "k1", actorID := actor }]

/-- Both controls arrive when the plan is validated. -/
def pairHost (actor : Option String) : Host :=
  { calmHost with
    arrivals := fun w =>
      match w.log with
      | (_, .validate _) :: _ => { controls := pauseResume actor }
      | _ => {} }

/-- Both controls wait when the supervisor begins. -/
def pairSupervisor (actor : Option String) : Supervisor.Host where
  applySignal := fun _ => none
  applyControl := fun _ => none
  readStatus := fun _ => .ok { lifecycleState := .succeeded }
  sleep := fun _ => none
  arrivals := fun w => if w.log.isEmpty then { controls := pauseResume actor } else {}

def pairPlan : PlanWorkflowInput := planOf [nativeNode "a" "r"]

def pairRun : Supervisor.RunSupervisorInput where
  ref := { kind := .http, name := "h" }
  status := { runID := "r" }

theorem drain_fidelity_named :
    (∃ x control settled paced w msg rest,
      planRun (pairHost (some "ed")) pairPlan 2 = .running x (.controls control settled paced) w ∧
      w.st.controlCh = msg :: rest ∧ msg.decodeInto control = msg.decodeInto {}) ∧
    ∃ control applied w msg rest, Supervisor.supervisorRun (pairSupervisor (some "ed")) pairRun 3 =
        .running (.controls control applied) w ∧
      w.st.controlCh = msg :: rest ∧ msg.decodeInto control = msg.decodeInto {} :=
  have hplan := drain_fidelity (pairHost (some "ed")) pairPlan (pairSupervisor (some "ed")) pairRun 2
  have hrun := drain_fidelity (pairHost (some "ed")) pairPlan (pairSupervisor (some "ed")) pairRun 3
  ⟨⟨_, _, _, _, _, _, _, rfl, rfl, (hplan.1 _ _ _ _ _ _ _ rfl rfl (by decide +kernel)).1⟩,
    _, _, _, _, _, rfl, rfl, (hrun.2.2.1 _ _ _ _ _ rfl rfl (by decide +kernel)).1⟩

/-- The resume of an unnamed actor is handled as one of the operator who paused. -/
theorem drain_mixes :
    ((planRun (pairHost none) pairPlan 2).nextControl.any fun msg => msg.actorID.isNone) = true ∧
    ((planRun (pairHost none) pairPlan 3).world.log.any fun e =>
      match e.2 with
      | .markControl control => control.idempotencyKey == "k1" && control.actorID == "op"
      | _ => false) = true ∧
    ((Supervisor.supervisorRun (pairSupervisor none) pairRun 3).nextControl.any fun msg =>
      msg.actorID.isNone) = true ∧
    ((Supervisor.supervisorRun (pairSupervisor none) pairRun 4).world.log.any fun e =>
      match e.2 with
      | .applyControl _ _ control _ => control.idempotencyKey == "k1" && control.actorID == "op"
      | _ => false) = true := by
  decide +kernel

end AgentOS.Plan
