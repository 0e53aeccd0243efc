import AgentOS.Plan.Abort

/-!
# The gate of a plan

A plan that waits for an approval has the lifecycle `blocked`, and the loop keeps
the same fact in its variable `paused`.  The variable is what stops the scheduler,
so the two have to agree whenever the loop is about to schedule.
-/

namespace AgentOS.Plan

open Kit

variable {E : Host} {input : PlanWorkflowInput} {x : Execution} {p p' : Point} {w v : World}

/-- A retry signal that is handled behind a gate, for a node that is already
scheduled. -/
def retryBehindGate : Locals × Act → Bool
  | (l, .markSignal signal) =>
      signal.type = .planNodeRetry && manualRetryAlreadyScheduled signal l.state &&
        l.state.status.lifecycleState = .blocked
  | _ => false

/-- A node that is started behind a gate. -/
def startBehindGate : Locals × Act → Bool
  | (l, .apply event) =>
      event.kind = .nodeStarted && l.state.status.lifecycleState = .blocked
  | _ => false

def InStep (l : Locals) : Prop := l.paused = true ↔ l.state.status.lifecycleState = .blocked

def GateOpen (l : Locals) : Prop := l.paused = false ∧ l.state.status.lifecycleState ≠ .blocked

def Gated (l : Locals) : Point → Prop
  | .top | .guarding | .settling | .settlingNodes | .controls | .receivedControl _
  | .handlingControl _ | .signals | .receivedSignal _ | .forwarding .. | .preSchedule | .timely
  | .waiting | .node .settle _ _ => InStep l
  | .handlingSignal signal =>
      InStep l ∧ (signal.type = .planNodeRetry → manualRetryAlreadyScheduled signal l.state = true →
        l.state.status.lifecycleState ≠ .blocked)
  | .blocked => l.state.status.lifecycleState = .blocked
  | .resumed | .retrying _ | .unpausing => l.state.status.lifecycleState ≠ .blocked
  | .deciding | .decided _ | .skipping .. | .starting .. | .startGuard .. | .started _
  | .polling _ | .closing _ | .unfinished _ | .finishing _ | .node (.start ..) _ _
  | .node (.poll _) _ _ => GateOpen l
  -- The budget guard of the start loop fails the plan, and the iteration goes on.
  | .controlling _ (.guard .start ..) | .marking _ (.guard .start ..)
  | .ended (.guard .start ..) => GateOpen l
  | _ => True

theorem GateOpen.inStep {l : Locals} (h : GateOpen l) : InStep l :=
  ⟨fun hpaused => absurd hpaused (by rw [h.1]; nofun), fun hblocked => absurd hblocked h.2⟩

theorem InStep.gateOpen {l : Locals} (h : InStep l) (hpaused : l.paused = false) : GateOpen l :=
  ⟨hpaused, fun hblocked => by rw [h.mpr hblocked] at hpaused; cases hpaused⟩

variable {spec : RunPlanSpec} {event : StateEvent} {bad : Err → Point} {ok : Point} {c : Config}

section

variable {answer : Option Err} (h : Posted E spec event w answer v)
  (hkind : reducerPlanLifecycleForEvent event.kind = none)
include h hkind

theorem Posted.inStep (hI : InStep w.st) : InStep v.st := by
  unfold InStep
  rw [h.framed.paused, h.lifecycle_eq hkind]
  exact hI

theorem Posted.gateOpen (hI : GateOpen w.st) : GateOpen v.st := by
  unfold GateOpen
  rw [h.framed.paused, h.lifecycle_eq hkind]
  exact hI

end

theorem Skips.gated (h : Skips E x w p p') (hI : Gated w.st p) : Gated w.st p' := by
  cases h with
  | @node site => cases site <;> exact hI
  | paced | progressed => exact GateOpen.inStep hI
  | command h =>
    cases h with
    | control hpurpose =>
      rcases ControlRequest.purpose_cases hpurpose with rfl | rfl | rfl <;> trivial
    | retry _ _ _ hblocked => exact hblocked
    | guard hguard | guardRefused _ hguard => cases hguard <;> trivial
    | @mark purpose =>
      cases purpose with
      | guard site => cases site <;> exact hI
      | _ => trivial
    | _ => first | trivial | exact hI.1
  | _ => trivial

theorem Says.gated {act : Act} (h : Says E x w p act p')
    (hretry : retryBehindGate (w.st, act) = false) (hI : Gated w.st p) :
    Gated (w.st.step act) p' := by
  cases h with
  | checked => exact decide_eq_true_iff
  | blocked => exact ⟨fun _ => hI, fun _ => rfl⟩
  | resumed | unpaused => exact GateOpen.inStep ⟨rfl, hI⟩
  | retryScheduled htype hscheduled => exact GateOpen.inStep ⟨rfl, hI.2 htype hscheduled⟩
  | markedSignal =>
    refine ⟨hI, fun htype hscheduled hblocked => ?_⟩
    have hscheduled : manualRetryAlreadyScheduled _ w.st.state = true := hscheduled
    have hblocked : w.st.state.status.lifecycleState = .blocked := hblocked
    simp [retryBehindGate, htype, hscheduled, hblocked] at hretry
  | decide _ hpaused => exact InStep.gateOpen hI hpaused
  | @node site _ _ _ _ h => cases h <;> cases site <;> exact hI
  | _ => trivial

theorem Asks.gated {act : Act} {arrivals : Arrivals} (h : Asks E x w p act p')
    (hI : Gated w.st p) : Gated (asked w act arrivals).st p' := by
  cases h with
  | @node site _ _ _ _ _ h => cases h <;> cases site <;> exact hI
  | finished => exact GateOpen.inStep hI
  | @controlled _ _ _ purpose =>
    cases purpose with
    | guard site => cases site <;> exact hI
    | _ => trivial
  | _ => trivial

theorem Posts.gated (h : Posts E x w p spec event ok bad) (hposted : Posted E spec event w none v)
    (hscheduled : Scheduled w.st.spec p) (hI : Gated w.st p) : Gated v.st ok := by
  cases h with
  | blocked => exact hposted.lifecycle_saved rfl
  | resumed | retryApproved | approved => exact ne_of_eq_of_ne (hposted.lifecycle_saved rfl) nofun
  | retry => exact ne_of_eq_of_ne (hposted.lifecycle_eq rfl) hI
  | @marked _ _ purpose =>
    cases purpose with
    | guard site =>
      cases site with
      | start => exact hposted.gateOpen rfl hI
      | _ => trivial
    | _ => trivial
  | @ended purpose _ hends =>
    cases purpose with
    | guard site =>
      cases site with
      | start =>
        obtain ⟨rfl, rfl⟩ := hends
        exact ⟨hposted.framed.paused.trans hI.1, ne_of_eq_of_ne (hposted.lifecycle_saved rfl) nofun⟩
      | _ => trivial
    | _ => trivial
  | @node site _ _ _ _ _ h =>
    have hkind := h.not_plan hscheduled.2.2
    cases site with
    | settle => exact hposted.inStep hkind hI
    | start | poll => exact hposted.gateOpen hkind hI
  | conditions | skipped | startFailed => exact hposted.gateOpen rfl hI
  | _ => trivial

theorem Posts.gated_unsaved {err : Err}
    (h : Posts E x w p spec event ok bad) (hposted : Posted E spec event w (some err) v)
    (hscheduled : Scheduled w.st.spec p) (hI : Gated w.st p) : Gated v.st (bad err) := by
  cases h with
  | @node site _ _ _ _ _ h =>
    have hkind := h.not_plan hscheduled.2.2
    cases site with
    | settle => exact hposted.inStep hkind hI
    | start | poll => exact hposted.gateOpen hkind hI
  | _ => trivial

theorem reachable_gated (hc : Reachable E input c)
    (hretry : LogMeets (retryBehindGate · = false) c.2) :
    Gated c.2.st c.1.2 ∧ LogMeets (startBehindGate · = false) c.2 := by
  refine reach_inv
    ⟨trivial, fun _ hmem => by cases hmem⟩ (fun c d hc h hretry hI => ⟨?_, ?_⟩) hc hretry
  · have hscheduled := reachable_scheduled hc
    cases h with
    | skip h | ask h => exact h.gated hI.1
    | say h => exact h.gated (hretry _ List.mem_cons_self) hI.1
    | saved h hposted => exact h.gated hposted hscheduled hI.1
    | unsaved h hposted => exact h.gated_unsaved hposted hscheduled hI.1
    | begin | refuse => trivial
  · rintro ⟨l, act⟩ hmem
    cases act with
    | apply event =>
      rcases h.apply_mem hmem with hold | ⟨rfl, -, -, spec, posted, time, ok, bad, hrow, rfl, -⟩
      · exact hI.2 _ hold
      by_cases hkind : posted.kind = .nodeStarted
      · have hgated := hI.1
        obtain ⟨_, _, _, _, _, hpoint, -⟩ := hrow.start_point hkind (reachable_scheduled hc)
        rw [hpoint] at hgated
        simp [startBehindGate, hgated.2]
      · simp [startBehindGate, hkind]
    | _ => rfl

/-- Gate safety: at every iteration boundary the loop is paused exactly when the plan
is blocked, and no node is started while it is. -/
theorem gate_safety (E : Host) (input : PlanWorkflowInput) (n : Nat)
    (hretry : LogMeets (retryBehindGate · = false) (planRun E input n).world) :
    (∀ x w, planRun E input n = .running x .top w →
      (w.st.paused = true ↔ w.st.state.status.lifecycleState = .blocked)) ∧
    LogMeets (startBehindGate · = false) (planRun E input n).world := by
  obtain ⟨c, hreach, hat⟩ := planRun_path E input n
  rw [← hat.world] at hretry ⊢
  obtain ⟨hgated, hstarts⟩ := reachable_gated hreach hretry
  refine ⟨fun x w hrun => ?_, hstarts⟩
  rw [hrun] at hat
  obtain rfl : c = ((x, .top), w) := hat
  exact hgated

/-- An operator pauses the plan after the failed start and resumes it an iteration
later. -/
def resumedHost : Host :=
  { flakyHost with
    arrivals := fun w =>
      match w.log with
      | (_, .startNode _ 1 _) :: _ =>
          { controls := [{ operation := some .pause, idempotencyKey := some "k1" }] }
      | (_, .wait _) :: _ =>
          { controls := [{ operation := some .resume, idempotencyKey := some "k2" }] }
      | _ => {} }

theorem gate_safety_resumed :
    (∀ x w, planRun resumedHost retriedPlan 11 = .running x .top w →
      (w.st.paused = true ↔ w.st.state.status.lifecycleState = .blocked)) ∧
    LogMeets (startBehindGate · = false) (planRun resumedHost retriedPlan 11).world :=
  gate_safety resumedHost retriedPlan 11 (by decide +kernel)

/-- An operator pauses the plan after the failed start and retries the node, whose
second attempt is already scheduled. -/
def bypassHost : Host :=
  { flakyHost with
    arrivals := fun w =>
      match w.log with
      | (_, .startNode _ 1 _) :: _ =>
          { controls := [{ operation := some .pause, idempotencyKey := some "k1" }]
            signals :=
              [{ type := some .planNodeRetry, idempotencyKey := some "k2",
                 actorID := some "op", payload := some [("node_id", .str "a")] }] }
      | _ => {} }

/-- An iteration boundary of a plan that goes on, at which the variable and the
lifecycle differ. -/
def outOfStep : Exec → Bool
  | .running _ .top w =>
      !w.st.state.status.lifecycleState.terminal &&
        (w.st.paused != decide (w.st.state.status.lifecycleState = .blocked))
  | _ => false

/-- The retry clears `paused` behind the gate, and the same iteration starts the node
while the plan is blocked. -/
theorem gate_bypassed :
    outOfStep (planRun bypassHost retriedPlan 8) = true ∧
    (planRun bypassHost retriedPlan 8).world.log.any startBehindGate = true := by
  decide +kernel

end AgentOS.Plan
