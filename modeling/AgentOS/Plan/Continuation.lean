import AgentOS.Plan.Fidelity
import AgentOS.Plan.Messages

/-!
# Bounded history

An iteration that leaves the plan open asks the continuation policy whether the execution
continues as new.  The check stands in `finishPlanWorkflowIteration` and in the part of the
pre-schedule guards for a paused plan.
-/

namespace AgentOS.Plan

open Kit

variable {E : Host} {input : PlanWorkflowInput} {x : Execution} {w v : World} {p p' : Point}
  {event : StateEvent}

/-! ## A workflow that is done -/

def Point.over : Point → Bool
  | .ended _ | .leaving .done | .returned (.ok _) => true
  | _ => false

theorem Skips.over (h : Skips E x w p p') (hover : p'.over = true) : p.over = true := by
  cases h with
  | command h =>
    cases h with
    | ended => rfl
    | _ => cases hover
  | done => rfl
  | _ => cases hover

theorem Says.over {act : Act} (h : Says E x w p act p') (hover : p'.over = true) :
    p.over = true ∧ (w.st.step act).state = w.st.state := by
  cases h with
  | drain | cancelOperation | dropOperation => exact ⟨hover, rfl⟩
  | _ => cases hover

theorem Asks.over {act : Act} (h : Asks E x w p act p') (hover : p'.over = true) :
    p.over = true ∧ (w.st.step act).state = w.st.state := by
  cases h with
  | drained => exact ⟨hover, rfl⟩
  | _ => cases hover

theorem Purpose.Ends.terminal {purpose : Purpose} (h : purpose.Ends event) :
    ∃ lifecycle, reducerPlanLifecycleForEvent event.kind = some lifecycle ∧
      lifecycle.terminal = true := by
  cases purpose with
  | pause | resume => cases h
  | cancel => cases h; exact ⟨_, rfl, rfl⟩
  | reject reason decision =>
    obtain ⟨approval, -, rfl⟩ := h
    exact ⟨_, rfl, rfl⟩
  | guard site kind reason =>
    obtain ⟨rfl, hsite⟩ := h
    cases site with
    | start | close => cases hsite; exact ⟨_, rfl, rfl⟩
    | deadline => rcases hsite with rfl | rfl <;> exact ⟨_, rfl, rfl⟩

theorem terminalPlanEvent_terminal (nodes : List PlanNodeStatus) :
    ∃ lifecycle, reducerPlanLifecycleForEvent (terminalPlanEvent nodes).kind = some lifecycle ∧
      lifecycle.terminal = true := by
  rcases terminalPlanEvent_kind nodes with hkind | hkind | hkind
  all_goals
    rw [hkind]
    exact ⟨_, rfl, rfl⟩

theorem Posts.over {spec : RunPlanSpec} {ok : Point} {bad : Err → Point}
    (h : Posts E x w p spec event ok bad) :
    (ok.over = true → ∃ lifecycle, reducerPlanLifecycleForEvent event.kind = some lifecycle ∧
      lifecycle.terminal = true) ∧ ∀ err, (bad err).over = false := by
  cases h with
  | ended hends => exact ⟨fun _ => hends.terminal, fun _ => rfl⟩
  | terminalBefore | terminalAfter => exact ⟨fun _ => terminalPlanEvent_terminal _, fun _ => rfl⟩
  | _ => exact ⟨nofun, fun _ => rfl⟩

theorem reachable_over {c : Config} (hc : Reachable E input c) :
    c.1.2.over = true → c.2.st.state.status.lifecycleState.terminal = true := by
  refine reach_always nofun ?_ hc
  intro c d _ hmove hI hover
  cases hmove with
  | skip h => exact hI (h.over hover)
  | say h | ask h =>
    obtain ⟨hsame, hstate⟩ := h.over hover
    exact (congrArg (fun s => s.status.lifecycleState.terminal) hstate).trans (hI hsame)
  | saved h hposted =>
    obtain ⟨lifecycle, hkind, hterminal⟩ := h.over.1 hover
    rw [hposted.lifecycle_saved hkind]
    exact hterminal
  | unsaved h => exact absurd hover (by rw [h.over.2]; nofun)
  | begin | refuse => cases hover

/-! ## The continuation check -/

/-- The plan is open and the policy says that the execution continues as new. -/
def continuationDue (E : Host) (w : World) : Bool :=
  !w.st.state.status.lifecycleState.terminal &&
    (evaluateContinuationPolicy w.st.spec.policy
      { appliedTransitions := w.st.state.appliedTransitions
        historyEvents := E.historyLength w }).isSome

/-- The world before the sleep that paces an iteration, if the last thing was one. -/
def beforeWait (w : World) : World :=
  match w.log with
  | (_, .deliver _) :: (l, .wait _) :: rest => ⟨l, rest⟩
  | _ => w

theorem ask_ends {α : Type} {answer : World → α} {act : α → Act} :
    Ends (ask E answer act) w (fun r v => ∃ arrivals, v = asked w (act r) arrivals) :=
  ⟨_, rfl⟩

theorem wait_ends : Ends (wait E) w (fun _ v => beforeWait v = w) := by
  refine .bind ask_ends fun answer v hv => ?_
  obtain ⟨arrivals, rfl⟩ := hv
  cases answer with
  | none => exact .ret rfl
  | some err => exact .fail trivial

theorem continuePlanWorkflowIfNeeded_ends :
    Ends (continuePlanWorkflowIfNeeded E input) w
      (fun next v => v = w ∧ (next = none → continuationDue E w = false)) := by
  refine .read (.asking ?_)
  split_ifs with hterminal
  · exact .ret ⟨rfl, fun _ => by rw [continuationDue, hterminal]; rfl⟩
  cases hpolicy : evaluateContinuationPolicy _ _ with
  | none => exact .ret ⟨rfl, fun _ => by rw [continuationDue, hpolicy]; exact Bool.and_false _⟩
  | some reason => exact .ret ⟨rfl, nofun⟩

theorem applyPlanDeadlineGuard_ends {params : PlanDeadlineGuardParams} :
    Ends (applyPlanDeadlineGuard E params) w (fun fired v => fired = false → v = w) := by
  refine .read (.asking ?_)
  dsimp only
  split_ifs
  · exact .ret fun _ => rfl
  · exact .afterAny fun _ _ => .afterAny fun _ _ => .ret nofun

theorem pausedPreSchedule_ends :
    Ends (pausedPreSchedule E input) w
      (fun r v => (r = .skipSchedule → continuationDue E (beforeWait v) = false) ∧
        r ≠ .proceed) := by
  refine .afterAny fun fired u => ?_
  cases fired with
  | true => exact .ret ⟨nofun, nofun⟩
  | false =>
    refine .bind continuePlanWorkflowIfNeeded_ends fun next u hnext => ?_
    obtain ⟨rfl, hdue⟩ := hnext
    cases next with
    | some next => exact .ret ⟨nofun, nofun⟩
    | none => exact .bind wait_ends fun _ v hv => .ret ⟨fun _ => hv ▸ hdue rfl, nofun⟩

theorem finishPlanWorkflowIteration_due {progressed : Bool} :
    Ends (finishPlanWorkflowIteration E input progressed) w
      (fun r v => r = .go .top → continuationDue E (beforeWait v) = false) := by
  refine .bind (Q := fun _ v => beforeWait v = v) (.emit rfl) fun _ u hu => ?_
  refine .read ?_
  split_ifs
  · exact .afterAny fun _ _ => .fail trivial
  · refine .bind continuePlanWorkflowIfNeeded_ends fun next v hnext => ?_
    obtain ⟨rfl, hdue⟩ := hnext
    cases next with
    | some next => exact .ret nofun
    | none => exact .ret fun _ => hu.symm ▸ hdue rfl
  · refine .bind continuePlanWorkflowIfNeeded_ends fun next v hnext => ?_
    obtain ⟨rfl, hdue⟩ := hnext
    cases next with
    | some next => exact .ret nofun
    | none => exact .bind wait_ends fun _ v hv => .ret fun _ => hv ▸ hdue rfl

theorem applyPlanWorkflowPreScheduleGuards_ends :
    Ends (applyPlanWorkflowPreScheduleGuards E input) w
      (fun r v => (r = .skipSchedule → continuationDue E (beforeWait v) = false) ∧
        (r = .proceed → w.st.paused = false)) := by
  refine .bind applyPlanDeadlineGuard_ends fun fired u hu => ?_
  cases fired with
  | true => exact .ret ⟨nofun, nofun⟩
  | false =>
    obtain rfl := hu rfl
    refine .read ?_
    split_ifs with hterminal hpaused
    · exact .afterAny fun _ _ => .ret ⟨nofun, nofun⟩
    · exact .post pausedPreSchedule_ends (fun _ _ hr => ⟨hr.1, fun h => absurd h hr.2⟩)
        fun _ _ h => h
    · exact .ret ⟨nofun, fun _ => by simpa using hpaused⟩

theorem closeIteration_due {progressed paced : Bool}
    (hchecked : paced = false ∨ w.st.paused = true) :
    Ends (closeIteration E x progressed paced) w
      (fun r v => r = .go .top → continuationDue E (beforeWait v) = false) := by
  refine .bind (Q := fun _ v => v.st.paused = w.st.paused) (.emit rfl) fun _ u hu => ?_
  refine .bind applyPlanWorkflowPreScheduleGuards_ends fun r v hr => ?_
  cases r with
  | done | continued => exact .ret nofun
  | skipSchedule => exact .ret fun _ => hr.1 rfl
  | proceed =>
    have hopen : w.st.paused = false := hu ▸ hr.2 rfl
    obtain rfl : paced = false := hchecked.resolve_right (by rw [hopen]; nofun)
    refine .afterAny fun r _ => ?_
    obtain ⟨progressed, done⟩ := r
    cases done with
    | true => exact .ret nofun
    | false => exact finishPlanWorkflowIteration_due

theorem reachable_verdict {n : Nat} {position : Position} {verdict : Verdict}
    (hrun : planRun E input n = .running x position w)
    (hend : (advance E x position).run w = (.ok verdict, v)) :
    Reachable E input ((x, verdict.point), v) := by
  obtain ⟨c, hreach, hat⟩ := planRun_path E input n
  rw [hrun] at hat
  obtain rfl : c = ((x, position.point), w) := hat
  have hadvance := follows_advance (E := E) (x := x) (w := w) position
  unfold Goes Follows Yields at hadvance
  rw [hend] at hadvance
  obtain ⟨p', hpath, rfl⟩ := hadvance
  exact hreach.trans hpath

theorem beforeWait_state {l : Locals} (h : Chained Locals.step l w.st w.log) :
    (beforeWait w).st.state = w.st.state := by
  unfold beforeWait
  split
  · next arrivals l' answer rest hlog =>
    rw [hlog] at h
    rw [h.1, h.2.1]
    rfl
  · rfl

/-- Bounded history: when an iteration ends in a plan that is open and the policy says that
the execution continues, then it does, unless the settle step paced the iteration. -/
theorem history_bounded (E : Host) (input : PlanWorkflowInput) (n : Nat) (x : Execution)
    (signal : Signal) (progressed paced : Bool) (w v : World) (verdict : Verdict)
    (hrun : planRun E input n = .running x (.signals signal progressed paced) w)
    (hlast : w.st.signalCh = [])
    (hend : (advance E x (.signals signal progressed paced)).run w = (.ok verdict, v))
    (hdue : continuationDue E (beforeWait v) = true)
    (hchecked : paced = false ∨ w.st.paused = true) :
    ∃ next, verdict = .continued next ∧ planRun E input (n + 1) =
        beginExecution E next ((drainNexusNodeRuns E x.runtime).run v).2 := by
  have hclose : (closeIteration E x progressed paced).run w = (.ok verdict, v) := by
    rw [← hend]
    simp [advance, drainSignals, Prog.run_state_bind, hlast]
  cases verdict with
  | continued next => exact ⟨next, rfl, by simp [planRun, hrun, Exec.step, hend]⟩
  | go position =>
    obtain rfl := Yields.of_run closeIteration_ends hclose position rfl
    rw [Yields.of_run (closeIteration_due hchecked) hclose rfl] at hdue
    cases hdue
  | done =>
    have hreach := reachable_verdict hrun hend
    have hterminal := reachable_over hreach rfl
    rw [continuationDue, beforeWait_state (reachable_chained hreach)] at hdue
    rw [hterminal] at hdue
    cases hdue

/-- The run of the node goes on, and from the second iteration on the history is long. -/
def longHost (nexusNodeRuns : Bool) : Host :=
  { calmHost with
    statusNode := fun _ => .ok { lifecycleState := .other "running" }
    historyLength := fun w => if w.st.iterationCount ≥ 2 then 100 else 0
    nexusNodeRuns := fun _ => nexusNodeRuns }

/-- A plan of one node that continues as new at fifty history events. -/
def longPlan : PlanWorkflowInput := planOf [nativeNode "a" "ra"] [] { maxHistoryEvents := 50 }

theorem history_bounded_polled : ∃ (x : Execution) (v : World) (next : PlanWorkflowInput),
    planRun (longHost false) longPlan 6 = beginExecution (longHost false) next
        ((drainNexusNodeRuns (longHost false) x.runtime).run v).2 := by
  obtain ⟨next, -, hnext⟩ := history_bounded (longHost false) longPlan 5 _ _ _ _ _ _ _ rfl rfl rfl
    (by decide +kernel) (.inl rfl)
  exact ⟨_, _, next, hnext⟩

/-- The operation of the node is pending.  The second iteration ends with a long history, and
the same execution goes on with a third. -/
theorem history_unbounded :
    continuationDue (longHost true) (planRun (longHost true) longPlan 6).world = true ∧
    (planRun (longHost true) longPlan 9).goesOn = true ∧
    (planRun (longHost true) longPlan 9).world.st.iterationCount = 3 ∧
    (planRun (longHost true) longPlan 9).world.log.countP (fun e => e.2.opens) = 1 := by
  decide +kernel

end AgentOS.Plan
