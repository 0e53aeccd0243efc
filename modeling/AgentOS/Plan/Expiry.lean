import AgentOS.Plan.Approval

/-!
# The expiry of a gate

A policy with an approval timeout sets an expiry on every gate, and the deadline guard
of an iteration rejects a plan whose gate has expired.  The drain of the signals comes
before the guard, and no handler of a signal looks at the expiry.  So the two halves
hold in the runs in which no signal meets an expired gate:
-/

namespace AgentOS.Plan

open Kit Option State

variable {E : Host} {input : PlanWorkflowInput} {x : Execution} {p p' : Point} {w v : World}

def gateExpired (status : RunPlanStatus) (time : Time) : Bool :=
  status.approval.any fun current =>
    current.lifecycleState = .pending && !current.gate.expiresAt.isZero &&
      current.gate.expiresAt ≤ time

/-- A signal that can decide a gate is handled after the gate has expired. -/
def lateSignal (E : Host) (w : World) : Act → Bool
  | .markSignal signal =>
      (signal.type = .planApprove || signal.type = .planReject || signal.type = .planNodeRetry) &&
        gateExpired w.st.state.status (E.now (w.act Locals.step (.markSignal signal))).val
  | _ => false

def timeoutRejection (policy : PlanPolicy) (event : StateEvent) : Bool :=
  event.kind = .planRejected && event.approval.isNone &&
    event.reason = planBlockedTimeoutReason policy

/-- A gate is decided at or after its expiry, and not by the deadline guard. -/
def lateDecision : Locals × Act → Bool
  | (l, .apply event) =>
      !timeoutRejection l.spec.policy event &&
        (l.state.apply event.at_ event).1.status.approval.any fun decided =>
          (decided.lifecycleState = .approved || decided.lifecycleState = .rejected) &&
            decided.decision.any fun decision =>
              gateExpired l.state.status decision.decidedAt
  | _ => false

/-! ## Late decisions -/

theorem State.apply_approval (s : State) (event : StateEvent) :
    (s.apply event.at_ event).1.status.approval = s.status.approval ∨
      (s.apply event.at_ event).1.status.approval =
        approvalAfter event event.at_ s.status.approval := by
  cases hresult : (s.apply event.at_ event).2 with
  | none =>
    have happlied := apply_applied hresult
    rw [eventTime_self] at happlied
    exact .inr happlied.approval
  | some err => exact .inl (by rw [(apply_failed hresult).status])

def eventDecision (current : PlanApprovalStatus) (approved : Bool) (event : StateEvent) :
    PlanApprovalDecision :=
  (event.approval.bind StateEventApproval.decision).getD
    { approved := approved
      reason := event.reason
      policyVersion := current.gate.policyVersion
      decidedAt := event.at_ }

variable {event : StateEvent} {current : PlanApprovalStatus} {approved : Bool} {policy : PlanPolicy}
  {answer : Option Err} {spec : RunPlanSpec}

theorem eventDecision_explicit {approval : StateEventApproval} {decision : PlanApprovalDecision}
    (hsome : event.approval = some approval) (hdecision : approval.decision = some decision) :
    eventDecision current approved event = decision := by
  rw [eventDecision, hsome, bind_some, hdecision, getD_some]

theorem recordPlanApprovalDecision_pending (hpending : current.lifecycleState = .pending) :
    recordPlanApprovalDecision (some current) approved event event.at_ =
      some { current with
        lifecycleState := if approved then .approved else .rejected
        decision := some (eventDecision current approved event) } := by
  unfold recordPlanApprovalDecision eventDecision
  simp only [hpending, ne_eq, not_true_eq_false, if_false]
  cases event.approval.bind StateEventApproval.decision <;> rfl

theorem decided_cases {s : State} {decided : PlanApprovalStatus}
    (happroval : s.status.approval = some current) (hpending : current.lifecycleState = .pending)
    (hresult : (s.apply event.at_ event).1.status.approval = some decided)
    (hdecided : decided.lifecycleState = .approved ∨ decided.lifecycleState = .rejected) :
    ∃ approved, event.kind = (if approved then .planApproved else .planRejected) ∧
      decided.decision = some (eventDecision current approved event) := by
  rcases s.apply_approval event with hsame | hafter
  · rw [hsame, happroval] at hresult
    cases hresult
    simp [hpending] at hdecided
  rw [hafter, happroval] at hresult
  unfold approvalAfter applyApprovalGateEvent at hresult
  cases hkind : event.kind with
  | planApproved =>
    rw [hkind] at hresult
    cases (recordPlanApprovalDecision_pending hpending).symm.trans hresult
    exact ⟨true, rfl, rfl⟩
  | planRejected =>
    rw [hkind] at hresult
    cases (recordPlanApprovalDecision_pending hpending).symm.trans hresult
    exact ⟨false, rfl, rfl⟩
  | planBlocked =>
    rw [hkind] at hresult
    cases hcarried : event.approval <;> rw [hcarried] at hresult <;> cases hresult <;>
      simp [hpending] at hdecided
  | _ =>
    -- the other events close the gate, make it stale or leave it
    simp [hkind, reducerPlanLifecycleForEvent, hpending, staleApproval] at hresult <;>
      subst hresult <;> simp [hpending] at hdecided

theorem lateDecision_true {l : Locals} (h : lateDecision (l, .apply event) = true) :
    timeoutRejection l.spec.policy event = false ∧ ∃ current approved,
      event.kind = (if approved then .planApproved else .planRejected) ∧
      gateExpired l.state.status (eventDecision current approved event).decidedAt = true := by
  simp only [lateDecision, Bool.and_eq_true, Bool.not_eq_true', any_eq_true,
    Bool.or_eq_true, decide_eq_true_eq] at h
  obtain ⟨hnot, decided, hresult, hdecided, decision, hdecision, hexpired⟩ := h
  obtain ⟨current, happroval, hcurrent⟩ := (any_eq_true _ _).mp hexpired
  simp only [Bool.and_eq_true, decide_eq_true_eq] at hcurrent
  obtain ⟨approved, hkind, hevent⟩ := decided_cases happroval hcurrent.1.1 hresult hdecided
  cases hdecision.symm.trans hevent
  exact ⟨hnot, current, approved, hkind, hexpired⟩

theorem reachable_lateDecision {c : Config} (hc : Reachable E input c)
    (hlate : Taken (lateSignal E · · = false) c.2.log) : LogMeets (lateDecision · = false) c.2 := by
  refine reach_taken (C := fun w act => lateSignal E w act = false)
    (fun _ hmem => (List.not_mem_nil hmem).elim) (fun c d hc h hlate hI => ?_) hc hlate
  rintro ⟨l, act⟩ hmem
  cases act with
  | apply event =>
    rcases h.apply_mem hmem with hold | ⟨rfl, -, -, spec, posted, time, ok, bad, hrow, rfl, htime⟩
    · exact hI _ hold
    by_contra hdecided
    obtain ⟨hnot, current, approved, hkind, hexpired⟩ :=
      lateDecision_true (Bool.not_eq_false _ ▸ hdecided)
    obtain ⟨⟨x, p⟩, w⟩ := c
    have hsignal : ∀ (before : World) (signal : Signal),
        (before.st, .markSignal signal) :: before.log <:+ w.log →
        lateSignal E before (.markSignal signal) = false := fun before signal hsuffix =>
      hlate.of_suffix (hsuffix.trans h.grows)
    have hgate : posted.kind.onGate := by
      cases approved
      · exact .inr (.inr hkind)
      · exact .inr (.inl hkind)
    have hdeciding := reachable_deciding hc
    cases hrow.gateRow hgate (reachable_scheduled hc) with
    | blocked => cases approved <;> cases hkind
    | @retried signal _ htype =>
      obtain ⟨before, rfl⟩ := hdeciding
      have hlate := hsignal before signal (List.suffix_refl _)
      simp only [lateSignal, htype, decide_true, Bool.or_true, Bool.true_and] at hlate
      -- the event carries no decision, so it is made at the time of the event
      replace hexpired : gateExpired _ time = true := hexpired
      rw [htime] at hexpired
      exact ne_true_of_eq_false hlate hexpired
    | @approved signal _ _ htype hdecision =>
      obtain ⟨before, rfl⟩ := hdeciding
      have hlate := hsignal before signal (List.suffix_refl _)
      simp only [lateSignal, htype, decide_true, Bool.true_or, Bool.true_and] at hlate
      rw [eventDecision_explicit rfl (approvalEventForSignal_decision ..),
        (planApprovalDecisionFromSignal_decidedAt hdecision).1] at hexpired
      exact ne_true_of_eq_false hlate hexpired
    | rejected hdecision =>
      obtain ⟨before, signal, hsuffix, htype, hmade, happroval⟩ := hdeciding
      have hlate := hsignal before signal hsuffix
      simp only [lateSignal, htype, decide_true, Bool.true_or, Bool.or_true, Bool.true_and] at hlate
      rw [eventDecision_explicit rfl hdecision, hmade, gateExpired, happroval] at hexpired
      exact ne_true_of_eq_false hlate hexpired
    | timedOut =>
      obtain rfl : _ = planBlockedTimeoutReason w.st.spec.policy := hdeciding
      simp [timeoutRejection, stamped] at hnot
  | _ => rfl

/-! ## The deadline of a gate -/

def GateTimed (policy : PlanPolicy) (status : RunPlanStatus) : Prop :=
  ∀ current, status.approval = some current → current.lifecycleState = .pending →
    current.gate.expiresAt ≠ 0 → 0 < policy.approvalTimeoutSeconds ∧ status.blockedAt ≠ 0 ∧
      current.gate.expiresAt = status.blockedAt.addSeconds policy.approvalTimeoutSeconds

theorem Posted.gateTimed (h : Posted E spec event w answer v) (hkind : event.kind ≠ .planBlocked)
    (hI : GateTimed w.st.spec.policy w.st.state.status) :
    GateTimed v.st.spec.policy v.st.state.status := by
  rw [h.framed.spec]
  obtain ⟨_, _, _, _, _, _, happlied | ⟨_, hfailed⟩⟩ := h.effect
  · intro current hafter hpending
    rw [happlied.approval] at hafter
    obtain ⟨hbefore, hnone⟩ := approvalAfter_pending hkind hafter hpending
    rw [happlied.blockedAt, blockedAtAfter, stamped_kind, hnone]
    exact hI current hbefore hpending
  · rw [hfailed.status]
    exact hI

theorem Posted.gateTimed_blocked {reason : String}
    {gate : PlanApprovalGate} (h : Posted E spec (blockedEvent reason gate) w answer v)
    (hgate : gate.expiresAt = if 0 < w.st.spec.policy.approvalTimeoutSeconds then
      (E.now w).val.addSeconds w.st.spec.policy.approvalTimeoutSeconds else 0)
    (hI : GateTimed w.st.spec.policy w.st.state.status) :
    GateTimed v.st.spec.policy v.st.state.status := by
  rw [h.framed.spec]
  obtain ⟨time, _, _, ⟨rfl, rfl⟩, _, _, happlied | ⟨_, hfailed⟩⟩ := h.effect
  · intro current hafter _ hexpires
    have hcurrent : some { lifecycleState := .pending, gate := gate } = some current :=
      happlied.approval.symm.trans hafter
    have hblockedAt : v.st.state.status.blockedAt = (E.now w).val := happlied.blockedAt
    cases hcurrent
    simp only [hgate] at hexpires ⊢
    split_ifs at hexpires ⊢ with hseconds
    · exact ⟨hseconds, hblockedAt ▸ (E.now w).property.ne', by rw [hblockedAt]⟩
    · exact absurd rfl hexpires
  · rw [hfailed.status]
    exact hI

theorem reachable_gateTimed (hfresh : input.continued = false) {c : Config}
    (hc : Reachable E input c) : GateTimed c.2.st.spec.policy c.2.st.state.status := by
  refine reach_always (fun _ hnone => by cases hnone) (fun c d hc h hI => ?_) hc
  obtain ⟨⟨x, p⟩, w⟩ := c
  rcases h.plan_cases hfresh hc with
    ⟨spec, event, ok, bad, answer, hrow, hposted⟩ | ⟨-, hmoved⟩
  · by_cases hkind : event.kind = .planBlocked
    · cases hrow.gateRow (.inl hkind) (reachable_scheduled hc) with
      | blocked => exact hposted.gateTimed_blocked rfl hI
      | _ => cases hkind
    · exact hposted.gateTimed hkind hI
  rcases hmoved with ⟨hstate, nodes, edges, hspec⟩ | ⟨time, -, -, hstate⟩ | ⟨hspec, hrestored, -⟩
  · rw [hstate, hspec]
    exact hI
  · rw [hstate]
    exact fun _ hnone => by cases hnone
  · rw [hspec]
    unfold GateTimed
    rw [hrestored.approval, hrestored.blockedAt]
    exact hI

/-! ## The guard -/

theorem GateTimed.timedOut {status : RunPlanStatus} {time : Time}
    (h : GateTimed policy status) (hexpired : gateExpired status time = true) :
    planBlockedTimedOut policy status.blockedAt time = true := by
  obtain ⟨current, happroval, hcurrent⟩ := (any_eq_true _ _).mp hexpired
  simp only [Bool.and_eq_true, decide_eq_true_eq, Time.isZero, Bool.not_eq_true',
    decide_eq_false_iff_not] at hcurrent
  obtain ⟨⟨hpending, hexpires⟩, hpassed⟩ := hcurrent
  obtain ⟨hseconds, hblocked, hdeadline⟩ := h current happroval hpending hexpires
  rw [planBlockedTimedOut, deadlinePassed, if_neg]
  · exact decide_eq_true (hdeadline ▸ hpassed)
  · simp only [Time.isZero, decide_eq_true_eq, not_or, not_le]
    exact ⟨hseconds, hblocked⟩

theorem planBlockedTimeoutControlIdempotencyKey_ok (digest : Digest) {planID : String}
    {blockedAt time : Time} (hplan : planID ≠ "")
    (h : planBlockedTimedOut policy blockedAt time = true) :
    ∃ key, planBlockedTimeoutControlIdempotencyKey digest planID blockedAt
      policy.approvalTimeoutSeconds = .ok key := by
  rw [planBlockedTimedOut, deadlinePassed] at h
  split_ifs at h with hnone
  obtain ⟨hseconds, hblocked⟩ := not_or.mp hnone
  unfold planBlockedTimeoutControlIdempotencyKey planTimeoutIdempotencyHash requirePlanID
  rw [if_neg hplan]
  exact ⟨_, (if_neg hblocked).trans (if_neg hseconds)⟩

theorem applyPlanDeadlineGuard_passes {params : PlanDeadlineGuardParams}
    (h : params.expired w.st.spec.policy (params.anchor w.st.state.status) (E.now w).val = false) :
    Returns (applyPlanDeadlineGuard E params) w (fun fired v => fired = false ∧ v = w) := by
  refine .read (.asking ?_)
  simp only [h, Bool.not_false, if_true]
  exact .ret ⟨rfl, rfl⟩

/-- The gate was rejected by the deadline guard. -/
def gateTimedOut (policy : PlanPolicy) (status : RunPlanStatus) : Bool :=
  status.approval.any fun current =>
    current.lifecycleState = .rejected && current.decision.any fun decision =>
      !decision.approved && decision.actorID = "" &&
        decision.reason = planBlockedTimeoutReason policy

theorem planBlockedGuard_ends (hpersist : ∀ w, E.persist w = none)
    (hcontrol : ∀ w, E.controlNode w = none) (habortable : Abortable w.st)
    (htimed : GateTimed w.st.spec.policy w.st.state.status)
    (hexpired : gateExpired w.st.state.status (E.now w).val = true) :
    Returns (applyPlanDeadlineGuard E (planBlockedGuard E)) w (fun fired v => fired = true ∧
      EndedWith .planRejected .failed w v ∧
      gateTimedOut w.st.spec.policy v.st.state.status = true) := by
  have htimedOut := htimed.timedOut hexpired
  obtain ⟨key, hkey⟩ := planBlockedTimeoutControlIdempotencyKey_ok E.digest
    (planID_ne_of_scope habortable.scope) htimedOut
  refine .read (.asking ?_)
  simp only [planBlockedGuard, htimedOut, hkey, Bool.not_true, Bool.false_eq_true, if_false]
  refine returns_ofExcept ?_
  refine .bind (Q := fun _ v => EndedWith .planRejected .failed w v ∧
    gateTimedOut w.st.spec.policy v.st.state.status = true) ?_ fun _ v hv => .ret ⟨rfl, hv⟩
  refine cancelNodes_returns hpersist hcontrol habortable _ _ fun v hv => ?_
  have hscope : validateRunPlanScope v.st.spec = .ok () := by
    rw [hv.aborting.framed.spec]
    exact habortable.scope
  refine (applyEvent_returns hpersist (reduced_none (.inl rfl)) hscope).post fun _ u hu =>
    ⟨hv.endedWith habortable hu rfl, ?_⟩
  obtain ⟨current, happroval, hcurrent⟩ := (any_eq_true _ _).mp hexpired
  simp only [Bool.and_eq_true, decide_eq_true_eq] at hcurrent
  obtain ⟨time, now, ⟨-, hnow⟩, -, happlied⟩ := hu.applied
  have hgate : u.st.state.status.approval = recordPlanApprovalDecision
      v.st.state.status.approval false (stamped v.st time _) now := happlied.approval
  rw [hv.aborting.approval, happroval, hnow,
    recordPlanApprovalDecision_pending hcurrent.1.1] at hgate
  rw [gateTimedOut, hgate]
  simp [eventDecision, stamped]

/-- The drain of the signals is over and the iteration comes to the guard of an expired
gate.  The plan is paused, has a node that is not done, and has not timed out. -/
def atExpiredGate (E : Host) : Exec → Bool
  | .running _ (.signals ..) w =>
      let time := (E.now (w.act Locals.step (.enter .preSchedule))).val
      w.st.signalCh.isEmpty && w.st.paused && !planNodesTerminal w.st.state.status &&
        !planTimedOut w.st.spec.policy w.st.state.status.startedAt time &&
        gateExpired w.st.state.status time
  | _ => false

theorem closeIteration_expired {progressed paced : Bool} (hpersist : ∀ w, E.persist w = none)
    (hcontrol : ∀ w, E.controlNode w = none) (habortable : Abortable w.st)
    (htimed : GateTimed w.st.spec.policy w.st.state.status) (hpaused : w.st.paused = true)
    (hopen : planNodesTerminal w.st.state.status = false)
    (hrunning : planTimedOut w.st.spec.policy w.st.state.status.startedAt
      (E.now (w.act Locals.step (.enter .preSchedule))).val = false)
    (hexpired : gateExpired w.st.state.status
      (E.now (w.act Locals.step (.enter .preSchedule))).val = true) :
    Returns (closeIteration E x progressed paced) w (fun verdict v => verdict = .done ∧
      EndedWith .planRejected .failed w v ∧
      gateTimedOut w.st.spec.policy v.st.state.status = true) := by
  refine .acting ?_
  refine .bind (Q := fun result v => result = .done ∧ EndedWith .planRejected .failed w v ∧
    gateTimedOut w.st.spec.policy v.st.state.status = true) ?_ ?_
  · refine .bind (applyPlanDeadlineGuard_passes hrunning) ?_
    rintro _ _ ⟨rfl, rfl⟩
    refine .read ?_
    have hopen' : planNodesTerminal
      (w.act Locals.step (.enter .preSchedule)).st.state.status = false := hopen
    have hpaused' : (w.act Locals.step (.enter .preSchedule)).st.paused = true := hpaused
    simp only [hopen', hpaused', Bool.false_eq_true, if_false, if_true]
    refine .bind (planBlockedGuard_ends hpersist hcontrol
      ⟨habortable.scope, habortable.listed, habortable.named, habortable.launched, habortable.ids⟩
      htimed hexpired) ?_
    rintro _ v ⟨rfl, hended, hgate⟩
    exact .ret ⟨rfl, hended.earlier (List.suffix_cons _ _) rfl, hgate⟩
  · rintro _ v ⟨rfl, hended⟩
    exact .ret ⟨rfl, hended⟩

theorem atExpiredGate_true {exec : Exec} (h : atExpiredGate E exec = true) :
    ∃ x signal progressed paced w, exec = .running x (.signals signal progressed paced) w ∧
      w.st.signalCh = [] ∧ w.st.paused = true ∧ planNodesTerminal w.st.state.status = false ∧
      planTimedOut w.st.spec.policy w.st.state.status.startedAt
        (E.now (w.act Locals.step (.enter .preSchedule))).val = false ∧
      gateExpired w.st.state.status
        (E.now (w.act Locals.step (.enter .preSchedule))).val = true := by
  unfold atExpiredGate at h
  split at h
  · rename_i x signal progressed paced w
    simp only [Bool.and_eq_true, Bool.not_eq_true', List.isEmpty_iff] at h
    obtain ⟨⟨⟨⟨hempty, hpaused⟩, hopen⟩, hrunning⟩, hexpired⟩ := h
    exact ⟨x, signal, progressed, paced, w, rfl, hempty, hpaused, hopen, hrunning, hexpired⟩
  · cases h

/-- Approval expiry: no gate is decided after its expiry but by the guard, and an
iteration that comes to the guard of an expired gate rejects the plan there, when the
persist and control activities succeed. -/
theorem approval_expiry (E : Host) (r : PlanRuntime) (spec : RunPlanSpec) (n : Nat)
    (hlate : Taken (lateSignal E · · = false) (planRun E (r.newPlanInput spec) n).world.log) :
    LogMeets (lateDecision · = false) (planRun E (r.newPlanInput spec) n).world ∧
    ((∀ w, E.persist w = none) → (∀ w, E.controlNode w = none) →
      atExpiredGate E (planRun E (r.newPlanInput spec) n) = true →
      ∃ v, planRun E (r.newPlanInput spec) (n + 1) = .returned v (.ok ()) ∧
        EndedWith .planRejected .failed (planRun E (r.newPlanInput spec) n).world v ∧
        gateTimedOut (planRun E (r.newPlanInput spec) n).world.st.spec.policy v.st.state.status =
          true) := by
  obtain ⟨c, hreach, hat⟩ := planRun_path E (r.newPlanInput spec) n
  rw [← hat.world] at hlate ⊢
  refine ⟨reachable_lateDecision hreach hlate, fun hpersist hcontrol hguard => ?_⟩
  obtain ⟨x, signal, progressed, paced, w, hrun, hempty, hpaused, hopen, hrunning, hexpired⟩ :=
    atExpiredGate_true hguard
  rw [hrun] at hat
  obtain rfl : c = ((x, .signals), w) := hat
  have habortable := reachable_abortable rfl hreach (reachable_planned hreach)
    (reachable_listed hreach)
  have hsegment : Returns (drainSignals E x signal progressed paced) w
      (fun verdict v => verdict = .done ∧ EndedWith .planRejected .failed w v ∧
        gateTimedOut w.st.spec.policy v.st.state.status = true) := by
    refine .read ?_
    rw [hempty]
    exact closeIteration_expired hpersist hcontrol habortable (reachable_gateTimed rfl hreach)
      hpaused hopen hrunning hexpired
  obtain ⟨v, u, ⟨hended, hgate⟩, hreturned, hstate, hgrows⟩ := planRun_done hrun hsegment
  exact ⟨u, hreturned, hended.later hgrows hstate, hstate ▸ hgate⟩

/-- A second passes with every action, and an operator pauses the plan at the start. -/
def pausedHost : Host :=
  { calmHost with
    now := fun w => ⟨w.log.length * 1000000000 + 1,
      Int.lt_add_one_of_le (Int.mul_nonneg (Int.natCast_nonneg _) (by decide))⟩
    arrivals := fun w =>
      match w.log with
      | (_, .validate _) :: _ =>
          { controls := [{ operation := some .pause, idempotencyKey := some "k0" }] }
      | _ => {} }

/-- A plan of one node whose gates expire after one second. -/
def expiringPlan : PlanWorkflowInput :=
  planOf [nativeNode "a" "r"] [] { approvalTimeoutSeconds := 1 }

theorem approval_expiry_paused :
    LogMeets (lateDecision · = false) (planRun pausedHost expiringPlan 3).world ∧
    ∃ v, planRun pausedHost expiringPlan 4 = .returned v (.ok ()) ∧
      EndedWith .planRejected .failed (planRun pausedHost expiringPlan 3).world v ∧
      gateTimedOut (planRun pausedHost expiringPlan 3).world.st.spec.policy
        v.st.state.status = true :=
  have hexpiry := approval_expiry pausedHost calmRuntime expiringPlan.spec 3 (by decide +kernel)
  ⟨hexpiry.1, hexpiry.2 (fun _ => rfl) (fun _ => rfl) (by decide +kernel)⟩

/-- As `pausedHost`, and an approval waits behind the pause. -/
def lateHost : Host :=
  { pausedHost with
    arrivals := fun w =>
      match w.log with
      | (_, .validate _) :: _ =>
          { controls := [{ operation := some .pause, idempotencyKey := some "k0" }]
            signals := [{ type := some .planApprove, idempotencyKey := some "k1",
                          actorID := some "op" }] }
      | _ => {} }

/-- The gate has expired when the approval is handled, and the plan goes on. -/
theorem expired_gate_approved :
    (planRun lateHost expiringPlan 4).world.log.any lateDecision = true ∧
    (planRun lateHost expiringPlan 4).world.st.state.status.lifecycleState = .running ∧
    (planRun lateHost expiringPlan 4).world.st.state.status.approval.any
      (fun current => current.lifecycleState = .approved) = true := by
  decide +kernel

end AgentOS.Plan
