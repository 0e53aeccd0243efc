import AgentOS.Plan.Gate

/-!
# The approval of a gate

A plan that is blocked has a gate: a snapshot of its scope with a policy version and,
when the policy sets one, an expiry.  Three things decide a gate: a signal of an
operator, a retry signal that lets the plan go on, and the deadline guard of the
iteration.  This module says what the decisions of a run are worth.
-/

namespace AgentOS.Plan

open Kit

variable {E : Host} {input : PlanWorkflowInput} {x : Execution} {p p' : Point} {w v : World}
  {spec : RunPlanSpec} {event : StateEvent} {bad : Err → Point} {ok : Point} {c : Config}

/-! ## From a signal to its event -/

/-- The decision of a reject signal was made when the signal was marked, and the gate is
still the one of that moment. -/
def RejectedBy (E : Host) (w : World) (decision : PlanApprovalDecision) : Prop :=
  ∃ (before : World) (signal : Signal),
    (before.st, .markSignal signal) :: before.log <:+ w.log ∧ signal.type = .planReject ∧
      decision.decidedAt = (E.now (before.act Locals.step (.markSignal signal))).val ∧
      w.st.state.status.approval = before.st.state.status.approval

def Deciding (E : Host) (w : World) : Point → Prop
  | .handlingSignal signal =>
      ∃ before : World, w = before.act Locals.step (.markSignal signal)
  | .controlling _ (.reject _ decision) | .marking _ (.reject _ decision) =>
      RejectedBy E w decision
  | .controlling _ (.guard .deadline .planRejected reason)
  | .marking _ (.guard .deadline .planRejected reason) =>
      reason = planBlockedTimeoutReason w.st.spec.policy
  | _ => True

variable {digest : Digest} {decision : PlanApprovalDecision} {signal : Signal}
  {status : RunPlanStatus}

theorem planApprovalDecisionFromSignal_decidedAt {approved : Bool} {now : Time}
    (h : planApprovalDecisionFromSignal digest spec status signal approved now = .ok decision) :
    decision.decidedAt = now ∧
      decision.policyVersion = planApprovalPolicyVersion digest spec status ∧
      ∀ current, status.approval = some current → current.lifecycleState = .pending ∧
        current.gate.policyVersion = planApprovalPolicyVersion digest spec status := by
  unfold planApprovalDecisionFromSignal at h
  cases happroval : status.approval <;> rw [happroval] at h <;> dsimp only at h
  · cases h
    exact ⟨rfl, rfl, nofun⟩
  · split_ifs at h with hdecided hstale
    cases h
    refine ⟨rfl, rfl, fun current' heq => ?_⟩
    cases heq
    exact ⟨not_not.mp hdecided, not_not.mp hstale⟩

theorem RejectedBy.later (h : RejectedBy E w decision) (hgrows : w.log <:+ v.log)
    (hsame : v.st.state.status.approval = w.st.state.status.approval) :
    RejectedBy E v decision := by
  obtain ⟨before, signal, hsuffix, htype, htime, happroval⟩ := h
  exact ⟨before, signal, hsuffix.trans hgrows, htype, htime, hsame.trans happroval⟩

theorem CommandSkips.deciding (h : CommandSkips E w p p') (hI : Deciding E w p) :
    Deciding E w p' := by
  cases h with
  | reject htype hdecision =>
    obtain ⟨before, rfl⟩ := hI
    exact ⟨before, _, List.suffix_refl _, htype,
      (planApprovalDecisionFromSignal_decidedAt hdecision).1, rfl⟩
  | control hpurpose =>
    rcases ControlRequest.purpose_cases hpurpose with rfl | rfl | rfl <;> trivial
  | @mark purpose =>
    cases purpose with
    | guard site kind reason => cases site <;> cases kind <;> exact hI
    | _ => exact hI
  | guard hguard =>
    cases hguard with
    | expired _ _ hreason => exact hreason
    | _ => trivial
  | guardRefused _ hguard => cases hguard <;> trivial
  | _ => trivial

theorem reachable_deciding (hc : Reachable E input c) : Deciding E c.2 c.1.2 := by
  refine reach_always trivial (fun c d hc h hI => ?_) hc
  cases h with
  | skip h =>
    cases h with
    | command h => exact h.deciding hI
    | _ => trivial
  | say h =>
    cases h with
    | markedSignal => exact ⟨_, rfl⟩
    | _ => trivial
  | ask h =>
    cases h with
    | @controlled _ _ _ purpose =>
      cases purpose with
      | reject => exact RejectedBy.later hI ⟨[_, _], rfl⟩ rfl
      | guard site kind reason => cases site <;> cases kind <;> exact hI
      | _ => trivial
    | _ => trivial
  | saved h hposted =>
    cases h with
    | @marked _ _ purpose =>
      cases purpose with
      | reject => exact RejectedBy.later hI hposted.grows (Posted.aborting hposted).approval
      | guard site kind reason =>
        cases site with
        | deadline =>
          cases kind with
          | planRejected => exact Eq.trans hI (by rw [hposted.framed.spec])
          | _ => trivial
        | _ => trivial
      | _ => trivial
    | _ => trivial
  | unsaved h _ => cases h <;> trivial
  | begin | refuse => trivial

/-! ## The events of a gate -/

def EventKind.onGate (kind : EventKind) : Prop :=
  kind = .planBlocked ∨ kind = .planApproved ∨ kind = .planRejected

inductive GateRow (E : Host) (w : World) : Point → StateEvent → Prop
  | blocked {reason} :
      GateRow E w (.blocking reason) (blockedEvent reason
        (newPlanApprovalGate E.digest w.st.spec w.st.state.status reason (E.now w).val))
  | retried {signal : Signal} {retry : ManualRetryRequest} (htype : signal.type = .planNodeRetry)
      (hunscheduled : manualRetryAlreadyScheduled signal w.st.state = false)
      (hretry : manualNodeRetry signal w.st.state w.st.validation = .ok retry) :
      GateRow E w (.handlingSignal signal) { kind := .planApproved, reason := retry.reason }
  | approved {signal : Signal} {decision : PlanApprovalDecision} {time : Time}
      (htype : signal.type = .planApprove)
      (hdecision : planApprovalDecisionFromSignal E.digest w.st.spec w.st.state.status
        signal true (E.now w).val = .ok decision) :
      GateRow E w (.handlingSignal signal) (approvedEvent decision.reason
        (approvalEventForSignal E.digest w.st.spec w.st.state.status decision.reason time decision))
  | rejected {reason decision approval} (hdecision : approval.decision = some decision) :
      GateRow E w (.marking [] (.reject reason decision))
        { kind := .planRejected, reason := reason, approval := some approval }
  | timedOut {reason : String} :
      GateRow E w (.marking [] (.guard .deadline .planRejected reason))
        { kind := .planRejected, reason := reason }

theorem Posts.gateRow (h : Posts E x w p spec event ok bad)
    (hkind : event.kind.onGate) (hscheduled : Scheduled w.st.spec p) : GateRow E w p event := by
  cases h with
  | blocked htime => exact htime ▸ .blocked
  | retryApproved htype hunscheduled hretry => exact .retried htype hunscheduled hretry
  | approved htype _ hdecided hdecision => exact .approved htype (hdecided ▸ hdecision)
  | @ended purpose _ hends =>
    cases purpose with
    | reject =>
      obtain ⟨approval, hdecision, rfl⟩ := hends
      exact .rejected hdecision
    | guard site kind =>
      obtain ⟨rfl, hsite⟩ := hends
      cases site with
      | deadline =>
        rcases hsite with rfl | rfl
        · simp [EventKind.onGate] at hkind
        · exact .timedOut
      | _ =>
        cases hsite
        simp [EventKind.onGate] at hkind
    | cancel =>
      cases hends
      simp [EventKind.onGate] at hkind
    | _ => cases hends
  | terminalBefore | terminalAfter =>
    have hkinds := terminalPlanEvent_kind w.st.state.status.nodes
    rcases hkinds with heq | heq | heq <;> simp [EventKind.onGate, heq] at hkind
  | node h =>
    have hnone := h.not_plan hscheduled.2.2
    rcases hkind with heq | heq | heq <;> rw [heq] at hnone <;> cases hnone
  | _ => rcases hkind with heq | heq | heq <;> cases heq

/-! ## Integrity -/

/-- A retry signal lets a blocked plan go on, past a gate that is decided or is not for
the present nodes and policy. -/
def retryPastGate (digest : Digest) : Locals × Act → Bool
  | (l, .markSignal signal) =>
      signal.type = .planNodeRetry && !manualRetryAlreadyScheduled signal l.state &&
        (manualNodeRetry signal l.state l.validation).isOk &&
        l.state.status.lifecycleState = .blocked && !gateUndecided digest l
  | _ => false

def gateApproved (digest : Digest) (spec : RunPlanSpec) (status : RunPlanStatus) : Bool :=
  status.approval.any fun current =>
    current.lifecycleState = .approved &&
      current.gate.policyVersion = planApprovalPolicyVersion digest spec status &&
      current.decision.any fun decision => decision.policyVersion = current.gate.policyVersion

/-- An approval that lets a blocked plan go on and leaves its gate without an approval. -/
def gatePassed (digest : Digest) : Locals × Act → Bool
  | (l, .apply event) =>
      event.kind = .planApproved && l.state.status.lifecycleState = .blocked &&
        l.state.status.approval.isSome &&
        !gateApproved digest l.spec (l.state.apply event.at_ event).1.status
  | _ => false

theorem State.apply_approved (s : State) (clock : Time) (hkind : event.kind = .planApproved) :
    (s.apply clock event).1.status.nodes = sortedNodeStatuses s.nodes ∧
      (s.apply clock event).1.status.approval =
        State.recordPlanApprovalDecision s.status.approval true event
          (State.eventTime clock event) := by
  unfold State.apply
  rw [hkind]
  refine ⟨rfl, ?_⟩
  show State.applyApprovalGateEvent _ event _ _ = _
  unfold State.applyApprovalGateEvent
  rw [hkind]

variable {l : Locals}

theorem gateUndecided_some (h : gateUndecided digest l = true)
    {current : PlanApprovalStatus} (happroval : l.state.status.approval = some current) :
    current.lifecycleState = .pending ∧
      current.gate.policyVersion = planApprovalPolicyVersion digest l.spec l.state.status := by
  unfold gateUndecided at h
  rw [happroval] at h
  simpa using h

theorem gateApproved_of_undecided (hkind : event.kind = .planApproved) (hlisted : l.state.Lists)
    (hopen : gateUndecided digest l = true) (hsome : l.state.status.approval.isSome = true)
    (hdecision : ∀ decision, event.approval.bind StateEventApproval.decision = some decision →
      decision.policyVersion = planApprovalPolicyVersion digest l.spec l.state.status) :
    gateApproved digest l.spec (l.state.apply event.at_ event).1.status = true := by
  obtain ⟨current, happroval⟩ := Option.isSome_iff_exists.mp hsome
  obtain ⟨hpending, hversion⟩ := gateUndecided_some hopen happroval
  obtain ⟨hnodes, hresult⟩ := l.state.apply_approved event.at_ hkind
  have hlive : planApprovalPolicyVersion digest l.spec (l.state.apply event.at_ event).1.status =
      current.gate.policyVersion := by
    rw [hversion]
    unfold planApprovalPolicyVersion
    rw [hnodes, ← hlisted]
  unfold gateApproved
  rw [hlive, hresult, happroval]
  unfold State.recordPlanApprovalDecision
  simp only [hpending, ne_eq, not_true_eq_false, if_false, Option.any_some, decide_true]
  cases hexplicit : event.approval.bind StateEventApproval.decision with
  | none => simp
  | some decision => simp [hdecision decision hexplicit, hversion]

theorem approvalEventForSignal_decided {reason : String} {time : Time}
    {decision' : PlanApprovalDecision}
    (h : (some (approvalEventForSignal digest spec status reason time decision)).bind
      StateEventApproval.decision = some decision') : decision' = decision := by
  rw [Option.bind_some, approvalEventForSignal_decision] at h
  exact (Option.some.inj h).symm

theorem gateUndecided_of_decision {approved : Bool} {now : Time}
    (h : planApprovalDecisionFromSignal digest l.spec l.state.status signal approved now =
      .ok decision) : gateUndecided digest l = true := by
  unfold gateUndecided
  split
  · rfl
  rename_i current happroval
  obtain ⟨hpending, hversion⟩ := (planApprovalDecisionFromSignal_decidedAt h).2.2 current happroval
  simp [hpending, hversion]

theorem gateUndecided_of_retry
    {retry : ManualRetryRequest} (hmarked : retryPastGate digest (l, .markSignal signal) = false)
    (htype : signal.type = .planNodeRetry)
    (hunscheduled : manualRetryAlreadyScheduled signal l.state = false)
    (hretry : manualNodeRetry signal l.state l.validation = .ok retry)
    (hblocked : l.state.status.lifecycleState = .blocked) : gateUndecided digest l = true := by
  simpa [retryPastGate, htype, hunscheduled, hretry, hblocked, Except.isOk, Except.toBool]
    using hmarked

theorem reachable_gateApproved (hc : Reachable E input c)
    (hretry : LogMeets (retryPastGate E.digest · = false) c.2) :
    LogMeets (gatePassed E.digest · = false) c.2 := by
  refine reach_inv
    (fun _ hmem => (List.not_mem_nil hmem).elim) (fun c d hc h hretry hI => ?_) hc hretry
  rintro ⟨l, act⟩ hmem
  cases act with
  | apply event =>
    rcases h.apply_mem hmem with hold | ⟨rfl, -, -, spec, posted, time, ok, bad, hrow, rfl, -⟩
    · exact hI _ hold
    by_cases hkind : posted.kind = .planApproved
    · obtain ⟨⟨x, p⟩, w⟩ := c
      have hlisted := reachable_listed hc
      have hdeciding := reachable_deciding hc
      by_contra hpassed
      simp only [gatePassed, Bool.not_eq_false, Bool.and_eq_true, decide_eq_true_eq,
        Bool.not_eq_true'] at hpassed
      obtain ⟨⟨⟨-, hblocked⟩, hsome⟩, hunapproved⟩ := hpassed
      refine ne_true_of_eq_false hunapproved ?_
      cases hrow.gateRow (.inr (.inl hkind)) (reachable_scheduled hc) with
      | retried htype hunscheduled hretried =>
        obtain ⟨before, rfl⟩ := hdeciding
        -- the entry of the mark is the last one of the log
        have hmarked := h.meets hretry _ List.mem_cons_self
        exact gateApproved_of_undecided hkind hlisted
          (gateUndecided_of_retry hmarked htype hunscheduled hretried hblocked) hsome nofun
      | approved htype hdecision =>
        refine gateApproved_of_undecided hkind hlisted (gateUndecided_of_decision hdecision) hsome
          fun decision' hdecided => ?_
        rw [approvalEventForSignal_decided hdecided]
        exact (planApprovalDecisionFromSignal_decidedAt hdecision).2.1
      | _ => cases hkind
    · simp [gatePassed, hkind]
  | _ => rfl

/-- Approval integrity: an approval that lets a blocked plan go on leaves its gate
approved, by a decision on the present nodes and policy. -/
theorem approval_integrity (E : Host) (input : PlanWorkflowInput) (n : Nat)
    (hretry : LogMeets (retryPastGate E.digest · = false) (planRun E input n).world) :
    LogMeets (gatePassed E.digest · = false) (planRun E input n).world := by
  obtain ⟨c, hreach, hat⟩ := planRun_path E input n
  rw [← hat.world] at hretry ⊢
  exact reachable_gateApproved hreach hretry

theorem approval_integrity_approved :
    LogMeets (gatePassed approvedHost.digest · = false) (planRun approvedHost singlePlan 8).world :=
  approval_integrity approvedHost singlePlan 8 (by decide +kernel)

/-- Nodes run as Nexus operations.  The operation of `ra` fails and an operator pauses
the plan; while it is paused, the operation of `rb` settles with a delta of one node, and
the operator retries the node `a`. -/
def staleHost : Host :=
  { calmHost with
    nexusNodeRuns := fun _ => true
    nextPlanDelta := fun _ => .ok (some { nodes := [nativeNode "c" "rc"] })
    arrivals := fun w =>
      match w.log, w.st.stage, w.st.state.status.lifecycleState with
      | (_, .wait _) :: _, .settle, .running =>
          { controls := [{ operation := some .pause, idempotencyKey := some "k0" }]
            settled := [("ra", .error { started := true, err := .external "lost" })] }
      | (_, .wait _) :: _, .settle, .blocked =>
          { signals :=
              [{ type := some .planNodeRetry, idempotencyKey := some "k1",
                 actorID := some "op", payload := some [("node_id", .str "a")] }]
            settled := [("rb", .ok
              { runID := "rb", lifecycleState := .succeeded
                artifacts := [{ artifactID := "d", name := "delta", kind := .planDelta }] })] }
      | _, _, _ => {} }

/-- Two nodes side by side, the first with two attempts. -/
def sidePlan : PlanWorkflowInput :=
  planOf [nativeNode "a" "ra" { maxAttempts := 2 }, nativeNode "b" "rb"]

/-- The delta makes the gate stale, and the retry lets the plan go on behind it. -/
theorem gate_passed_stale :
    (planRun staleHost sidePlan 11).world.log.any (gatePassed staleHost.digest) = true := by
  decide +kernel

end AgentOS.Plan
