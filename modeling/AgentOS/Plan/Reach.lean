import AgentOS.Plan.Refine

/-!
# Reachable configurations of the plan loop

What holds in every configuration that the automaton can reach, whatever the
world answers.

An invariant is proved by one of three rules: `reach_always`, or `reach_inv` and
`reach_taken` where the actions of the run meet a condition.  What a move does to
the state of the plan is said once, in `Move.state_cases`: it leaves the state,
posts an event to the reducer, or begins an execution.
-/

namespace AgentOS.Plan

open Kit List State

variable {E : Host} {input : PlanWorkflowInput} {x : Execution} {p p' : Point} {w v : World}

/-- The automaton can come to the configuration. -/
def Reachable (E : Host) (input : PlanWorkflowInput) (c : Config) : Prop :=
  Relation.ReflTransGen (Move E) (startConfig input) c

variable {c : Config} {I : Config → Prop}

@[elab_as_elim]
theorem reach_inv {C : Locals × Act → Prop} (hstart : I (startConfig input))
    (hmove : ∀ c d, Reachable E input c → Move E c d → LogMeets C d.2 → I c → I d)
    (hc : Reachable E input c) (hC : LogMeets C c.2) : I c :=
  path_inv (C := fun log => ∀ e ∈ log, C e)
    (fun _ _ hlast hC => hlast.meets hC) hstart hmove hc hC

@[elab_as_elim]
theorem reach_taken {C : World → Act → Prop} (hstart : I (startConfig input))
    (hmove : ∀ c d, Reachable E input c → Move E c d → Taken C d.2.log → I c → I d)
    (hc : Reachable E input c) (hC : Taken C c.2.log) : I c :=
  path_inv (fun _ _ hlast hC => hC.mono hlast.grows) hstart hmove hc hC

@[elab_as_elim]
theorem reach_always (hstart : I (startConfig input))
    (hmove : ∀ c d, Reachable E input c → Move E c d → I c → I d) (hc : Reachable E input c) :
    I c :=
  reach_inv (C := fun _ => True) hstart (fun c d hreach h _ hI => hmove c d hreach h hI) hc
    fun _ _ => trivial

/-! ## What a state event does -/

@[simp] theorem stamped_kind (l : Locals) (time : Time) (event : StateEvent) :
    (stamped l time event).kind = event.kind := rfl

@[simp] theorem stamped_nodeID (l : Locals) (time : Time) (event : StateEvent) :
    (stamped l time event).nodeID = event.nodeID := rfl

/-- The locals that a state event leaves alone. -/
structure Framed (l l' : Locals) : Prop where
  spec : l'.spec = l.spec
  validation : l'.validation = l.validation
  expansionCount : l'.expansionCount = l.expansionCount
  iterationCount : l'.iterationCount = l.iterationCount
  paused : l'.paused = l.paused
  stage : l'.stage = l.stage

variable {spec : RunPlanSpec} {event : StateEvent} {answer : Option Err} {purpose : Purpose}

/-- The actions that post no event. -/
def Act.silent : Act → Prop
  | .apply _ => False
  | _ => True

theorem eventTime_self (event : StateEvent) : eventTime event.at_ event = event.at_ := ite_self _

section Posted

variable (h : Posted E spec event w answer v)

include h

theorem Posted.framed : Framed w.st v.st := by
  cases h <;> exact ⟨rfl, rfl, rfl, rfl, rfl, rfl⟩

/-- A posted event is logged, and the reducer applied it or failed. -/
theorem Posted.effect :
    ∃ time now tail, (time = (E.now w).val ∧ now = (stamped w.st time event).at_) ∧
      v.log = tail ++ (w.st, .apply (stamped w.st time event)) :: w.log ∧
      (∀ e ∈ tail, e.2.silent) ∧
      (Applied (stamped w.st time event) now w.st.state v.st.state ∨ answer.isSome = true ∧
          Failed (stamped w.st time event) now w.st.state v.st.state) := by
  cases h with
  | @refused time _ htime hrefused =>
    exact ⟨time, _, [], ⟨htime, eventTime_self _⟩, rfl, fun _ he => (not_mem_nil he).elim,
      .inr ⟨rfl, apply_failed hrefused⟩⟩
  | @unscoped time _ htime happlied =>
    exact ⟨time, _, [], ⟨htime, eventTime_self _⟩, rfl, fun _ he => (not_mem_nil he).elim,
      .inl (apply_applied happlied)⟩
  | @answered time _ _ _ _ htime happlied =>
    refine ⟨time, _, [_, _], ⟨htime, eventTime_self _⟩, rfl, ?_, .inl (apply_applied happlied)⟩
    intro e he
    rcases mem_pair.mp he with rfl | rfl
    · trivial
    · trivial

theorem Posted.lifecycle_eq (hkind : reducerPlanLifecycleForEvent event.kind = none) :
    v.st.state.status.lifecycleState = w.st.state.status.lifecycleState := by
  obtain ⟨_, _, _, _, _, _, happlied | ⟨_, hfailed⟩⟩ := h.effect
  · rw [happlied.lifecycle, stamped_kind, hkind, Option.getD_none]
  · rw [hfailed.status]

theorem Posted.lifecycle :
    v.st.state.status.lifecycleState = w.st.state.status.lifecycleState ∨
      reducerPlanLifecycleForEvent event.kind = some v.st.state.status.lifecycleState := by
  obtain ⟨_, _, _, _, _, _, happlied | ⟨_, hfailed⟩⟩ := h.effect
  · rw [happlied.lifecycle, stamped_kind]
    cases reducerPlanLifecycleForEvent event.kind with
    | none => exact .inl rfl
    | some lifecycle => exact .inr rfl
  · exact .inl (by rw [hfailed.status])

theorem Posted.spent_eq (hkind : event.kind ≠ .budgetReported) :
    v.st.state.status.spentCents = w.st.state.status.spentCents := by
  obtain ⟨_, _, _, _, _, _, happlied | ⟨_, hfailed⟩⟩ := h.effect
  · rw [happlied.spent, spentAfter, stamped_kind, if_neg hkind]
  · rw [hfailed.status]

theorem Posted.spent_cases :
    v.st.state.status.spentCents = w.st.state.status.spentCents ∨
      v.st.state.status.spentCents = int64 (w.st.state.status.spentCents + event.budgetDelta) := by
  obtain ⟨_, _, _, _, _, _, happlied | ⟨_, hfailed⟩⟩ := h.effect
  · rw [happlied.spent, spentAfter]
    split_ifs
    · exact .inr rfl
    · exact .inl rfl
  · exact .inl (by rw [hfailed.status])

end Posted

theorem Posted.applied (h : Posted E spec event w none v) :
    ∃ time now, (time = (E.now w).val ∧ now = (stamped w.st time event).at_) ∧
      (w.st, .apply (stamped w.st time event)) ∈ v.log ∧
      Applied (stamped w.st time event) now w.st.state v.st.state := by
  obtain ⟨time, now, tail, htime, hlog, -, happlied | ⟨hfailed, -⟩⟩ := h.effect
  · exact ⟨time, now, htime, hlog ▸ mem_append_right _ mem_cons_self, happlied⟩
  · cases hfailed

theorem Posted.lifecycle_saved {lifecycle : PlanLifecycle} (h : Posted E spec event w none v)
    (hkind : reducerPlanLifecycleForEvent event.kind = some lifecycle) :
    v.st.state.status.lifecycleState = lifecycle := by
  obtain ⟨_, _, _, _, happlied⟩ := h.applied
  rw [happlied.lifecycle, stamped_kind, hkind, Option.getD_some]

theorem Purpose.Ends.kind_cases (h : purpose.Ends event) :
    event.kind = .planCanceled ∨ event.kind = .planRejected ∨ event.kind = .planFailed := by
  cases purpose with
  | pause | resume => cases h
  | cancel =>
    rw [h]
    exact .inl rfl
  | reject reason decision =>
    obtain ⟨approval, -, rfl⟩ := h
    exact .inr (.inl rfl)
  | guard site kind reason =>
    obtain ⟨rfl, hkind⟩ := h
    cases site with
    | start | close => exact .inr (.inr hkind)
    | deadline => exact .inr hkind.symm

theorem terminalPlanEvent_kind (nodes : List PlanNodeStatus) :
    (terminalPlanEvent nodes).kind = .planSucceeded ∨ (terminalPlanEvent nodes).kind = .planFailed ∨
      (terminalPlanEvent nodes).kind = .planCanceled := by
  induction nodes with
  | nil => exact .inl rfl
  | cons node rest ih =>
    unfold terminalPlanEvent
    split
    · exact .inr (.inl rfl)
    · exact .inr (.inr rfl)
    · exact ih

theorem Purpose.Ends.ne {kind : EventKind} (h : purpose.Ends event)
    (hkind : reducerPlanLifecycleForEvent kind = none) : event.kind ≠ kind := by
  rintro rfl
  rcases h.kind_cases with heq | heq | heq <;> rw [heq] at hkind <;> cases hkind

theorem terminalPlanEvent_ne {nodes : List PlanNodeStatus} {kind : EventKind}
    (hkind : reducerPlanLifecycleForEvent kind = none) : (terminalPlanEvent nodes).kind ≠ kind := by
  rintro rfl
  rcases terminalPlanEvent_kind nodes with heq | heq | heq <;> rw [heq] at hkind <;> cases hkind

theorem ControlRequest.purpose_cases {control : ControlRequest}
    (h : ControlRequest.purpose control = some purpose) :
    purpose = .pause ∨ purpose = .resume ∨ purpose = .cancel := by
  unfold ControlRequest.purpose at h
  split at h <;> cases h
  · exact .inl rfl
  · exact .inr (.inl rfl)
  · exact .inr (.inr rfl)

/-! ## What a move does to the state -/

variable {act : Act} {d : Config} {l : Locals} {time : Time} {ok : Point} {node : PlanNodeSpec}
  {e : Locals × Act}

theorem Says.quiet (h : Says E x w p act p') : act.silent ∧ (w.st.step act).state = w.st.state := by
  cases h with
  | node h => cases h <;> exact ⟨trivial, rfl⟩
  | _ => exact ⟨trivial, rfl⟩

theorem Asks.quiet (h : Asks E x w p act p') : act.silent ∧ (w.st.step act).state = w.st.state := by
  cases h with
  | node h => cases h <;> exact ⟨trivial, rfl⟩
  | _ => exact ⟨trivial, rfl⟩

/-- What a move does to the state of the plan. -/
theorem Move.state_cases (h : Move E c d) :
    d.2.st.state = c.2.st.state ∨
      (∃ spec event answer, Posted E spec event c.2 answer d.2) ∨
      ∃ next time, 0 < time ∧ c.1.2 = .begin next ∧
        newPlanWorkflowSetup next time = .ok d.2.st.state := by
  cases h with
  | skip | refuse => exact .inl rfl
  | say h | ask h => exact .inl h.quiet.2
  | saved _ hposted | unsaved _ hposted => exact .inr (.inl ⟨_, _, _, hposted⟩)
  | begin htime hstate => exact .inr (.inr ⟨_, _, htime, rfl, hstate⟩)

theorem Posted.apply_mem {posted : StateEvent} (h : Posted E spec posted w answer v)
    (hmem : (l, .apply event) ∈ v.log) :
    (l, .apply event) ∈ w.log ∨ l = w.st ∧ v.st.state = (w.st.state.apply event.at_ event).1 ∧
      ∃ time, event = stamped w.st time posted ∧ time = (E.now w).val := by
  cases h with
  | answered htime =>
    have hmem := (mem_cons.mp ((mem_cons.mp hmem).resolve_left nofun)).resolve_left nofun
    rcases mem_cons.mp hmem with heq | hmem
    · cases heq
      exact .inr ⟨rfl, rfl, _, rfl, htime⟩
    · exact .inl hmem
  | refused htime | unscoped htime =>
    rcases mem_cons.mp hmem with heq | hmem
    · cases heq
      exact .inr ⟨rfl, rfl, _, rfl, htime⟩
    · exact .inl hmem

theorem Move.apply_mem (h : Move E c d) (hmem : (l, .apply event) ∈ d.2.log) :
    (l, .apply event) ∈ c.2.log ∨ l = c.2.st ∧ Framed c.2.st d.2.st ∧
      d.2.st.state = (c.2.st.state.apply event.at_ event).1 ∧ ∃ spec posted time ok bad,
        Posts E c.1.1 c.2 c.1.2 spec posted ok bad ∧ event = stamped c.2.st time posted ∧
          time = (E.now c.2).val := by
  cases h with
  | skip | refuse => exact .inl hmem
  | say h =>
    refine .inl ((mem_cons.mp hmem).resolve_left fun heq => ?_)
    cases heq
    exact h.quiet.1
  | ask h =>
    refine .inl ?_
    rcases mem_cons.mp hmem with heq | hmem
    · cases heq
    refine (mem_cons.mp hmem).resolve_left fun heq => ?_
    cases heq
    exact h.quiet.1
  | saved h hposted | unsaved h hposted =>
    rcases hposted.apply_mem hmem with hold | ⟨hl, hstate, time, hevent, htime⟩
    · exact .inl hold
    · exact .inr ⟨hl, hposted.framed, hstate, _, _, time, _, _, h, hevent, htime⟩
  | begin => exact .inl ((mem_cons.mp hmem).resolve_left nofun)

theorem Posted.entry (h : Posted E spec event w answer v) (he : e ∈ v.log) :
    e ∈ w.log ∨ e.1.state = w.st.state ∧ e.1.spec = w.st.spec ∨
      e.1.state = v.st.state ∧ e.1.spec = v.st.spec := by
  cases h with
  | answered =>
    rcases mem_cons.mp he with rfl | he
    · exact .inr (.inr ⟨rfl, rfl⟩)
    rcases mem_cons.mp he with rfl | he
    · exact .inr (.inr ⟨rfl, rfl⟩)
    rcases mem_cons.mp he with rfl | he
    · exact .inr (.inl ⟨rfl, rfl⟩)
    · exact .inl he
  | refused | unscoped =>
    rcases mem_cons.mp he with rfl | he
    · exact .inr (.inl ⟨rfl, rfl⟩)
    · exact .inl he

theorem Move.entry (h : Move E c d) (he : e ∈ d.2.log) :
    e ∈ c.2.log ∨ e.1.state = c.2.st.state ∧ e.1.spec = c.2.st.spec ∨
      e.1.state = d.2.st.state ∧ e.1.spec = d.2.st.spec := by
  cases h with
  | skip | refuse => exact .inl he
  | say | begin =>
    rcases mem_cons.mp he with rfl | he
    · exact .inr (.inl ⟨rfl, rfl⟩)
    · exact .inl he
  | ask =>
    rcases mem_cons.mp he with rfl | he
    · exact .inr (.inr ⟨rfl, rfl⟩)
    rcases mem_cons.mp he with rfl | he
    · exact .inr (.inl ⟨rfl, rfl⟩)
    · exact .inl he
  | saved _ hposted | unsaved _ hposted => exact hposted.entry he

/-- The logged locals have the state and the specification of a reachable configuration. -/
theorem reachable_entries {P : Locals → Prop}
    (hcongr : ∀ {l l' : Locals}, P l → l'.state = l.state → l'.spec = l.spec → P l')
    (hP : ∀ {c : Config}, Reachable E input c → P c.2.st) (hc : Reachable E input c) :
    LogMeets (P ·.1) c.2 := by
  refine reach_always (fun _ he => by cases he) (fun c d hc h hI e he => ?_) hc
  rcases h.entry he with hold | ⟨hstate, hspec⟩ | ⟨hstate, hspec⟩
  · exact hI e hold
  · exact hcongr (hP hc) hstate hspec
  · exact hcongr (hP (hc.tail h)) hstate hspec

variable {next : PlanWorkflowInput} {state : State}

theorem newPlanWorkflowSetup_ok (h : newPlanWorkflowSetup next time = .ok state) :
    next.continued = true ∧ newStateFromStatus next.spec next.status = .ok state ∨
      next.continued = false ∧ state = newState next.spec time := by
  unfold newPlanWorkflowSetup initialPlanWorkflowState at h
  split_ifs at h with _ _ hcontinued
  · exact .inl ⟨hcontinued, h⟩
  · cases h
    exact .inr ⟨by simpa using hcontinued, rfl⟩

/-! ## The log -/

theorem Posted.chained
    (h : Posted E spec event w answer v) (hw : Chained Locals.step l w.st w.log) :
    Chained Locals.step l v.st v.log := by
  cases h with
  | answered => exact ⟨rfl, rfl, rfl, hw⟩
  | _ => exact ⟨rfl, hw⟩

theorem reachable_chained (hc : Reachable E input c) :
    Chained Locals.step (blankLocals input) c.2.st c.2.log := by
  refine reach_always rfl (fun c d _ h hI => ?_) hc
  cases h with
  | skip | refuse => exact hI
  | say | begin => exact ⟨rfl, hI⟩
  | ask => exact ⟨rfl, rfl, hI⟩
  | saved _ hposted | unsaved _ hposted => exact hposted.chained hI

/-! ## The actions of a run -/

/-- The actions of a run, each with the row and the reachable configuration it comes from. -/
inductive Rowed (E : Host) (input : PlanWorkflowInput) (w : World) : Act → Prop
  | said {x : Execution} {p p' : Point} {act : Act} (hreach : Reachable E input ((x, p), w))
      (hrow : Says E x w p act p') : Rowed E input w act
  | asked {x : Execution} {p p' : Point} {act : Act} (hreach : Reachable E input ((x, p), w))
      (hrow : Asks E x w p act p') : Rowed E input w act
  | applied {x : Execution} {p ok : Point} {bad : Err → Point} {spec : RunPlanSpec}
      {event : StateEvent} {time : Time} (hreach : Reachable E input ((x, p), w))
      (hrow : Posts E x w p spec event ok bad) (htime : time = (E.now w).val) :
      Rowed E input w (.apply (stamped w.st time event))
  | persisted (spec : RunPlanSpec) (status : RunPlanStatus) (event : StateEvent) (key : String)
      (answer : Option Err) : Rowed E input w (.persist spec status event key answer)
  | delivered (arrivals : Arrivals) : Rowed E input w (.deliver arrivals)
  | begun {x : Execution} {next : PlanWorkflowInput} {time : Time} {state : State}
      (hreach : Reachable E input ((x, .begin next), w))
      (hstate : newPlanWorkflowSetup next time = .ok state) :
      Rowed E input w (.begin (initialLocals next state))

variable {bad : Err → Point} {expansion : PlanExpansion} {expansionCount : Int}

theorem Posted.rowed (h : Posted E spec event w answer v)
    (hreach : Reachable E input ((x, p), w)) (hrow : Posts E x w p spec event ok bad)
    (hw : Taken (Rowed E input) w.log) : Taken (Rowed E input) v.log := by
  cases h with
  | answered htime => exact ⟨.delivered _, .persisted .., .applied hreach hrow htime, hw⟩
  | refused htime | unscoped htime => exact ⟨.applied hreach hrow htime, hw⟩

theorem reachable_rowed (hc : Reachable E input c) : Taken (Rowed E input) c.2.log := by
  refine reach_always trivial (fun c d hc h hI => ?_) hc
  cases h with
  | skip | refuse => exact hI
  | say hrow => exact ⟨.said hc hrow, hI⟩
  | ask hrow => exact ⟨.delivered _, .asked hc hrow, hI⟩
  | saved hrow hposted | unsaved hrow hposted => exact hposted.rowed hc hrow hI
  | begin _ hstate => exact ⟨.begun hc hstate, hI⟩

/-! ## Names -/

theorem reachable_named (hc : Reachable E input c) : c.2.st.state.Named := by
  refine reach_always (fun _ _ hnone => by cases hnone) (fun c d _ h hnamed => ?_) hc
  rcases h.state_cases with hsame | ⟨spec, event, answer, hposted⟩ | ⟨next, time, -, -, hsetup⟩
  · exact hsame ▸ hnamed
  · obtain ⟨_, _, _, _, _, _, happlied | ⟨_, hfailed⟩⟩ := hposted.effect
    · exact happlied.named hnamed
    · exact hfailed.named hnamed
  · rcases newPlanWorkflowSetup_ok hsetup with ⟨-, hrestored⟩ | ⟨-, hnew⟩
    · exact (newStateFromStatus_restored hrestored).named
    · exact hnew ▸ newState_named _ _

/-! ## Continue-as-new -/

/-- The next execution starts from these locals, whose plan is open. -/
def Continued (x : Execution) (l : Locals) (next : PlanWorkflowInput) : Prop :=
  next = continuedPlanWorkflowInput x.input l ∧ l.state.status.lifecycleState.terminal = false

def Continuing (input : PlanWorkflowInput) (x : Execution) (w : World) : Point → Prop
  | .leaving (.continued next) => Continued x w.st next
  | .begin next => next = input ∧ w = (startConfig input).2 ∨ Continued x w.st next
  | _ => True

theorem reachable_continuing (hc : Reachable E input c) : Continuing input c.1.1 c.2 c.1.2 := by
  refine reach_always (.inl ⟨rfl, rfl⟩) (fun c d _ h hI => ?_) hc
  cases h with
  | skip h =>
    cases h with
    | pausedContinue hterminal | finishContinue hterminal => exact ⟨rfl, hterminal⟩
    | continue_ => exact .inr hI
    | command h => cases h <;> trivial
    | _ => trivial
  | say h =>
    cases h with
    -- The drain of the operations touches only the registered promises.
    | @drain outcome | @cancelOperation outcome | @dropOperation outcome =>
      cases outcome <;> exact hI
    | _ => trivial
  | ask h =>
    cases h with
    | @drained outcome => cases outcome <;> exact hI
    | _ => trivial
  | saved h | unsaved h => cases h <;> trivial
  | begin | refuse => trivial

theorem reachable_begins (hc : Reachable E input ((x, .begin next), w)) :
    next = input ∧ w = (startConfig input).2 ∨ Continued x w.st next :=
  reachable_continuing hc

theorem reachable_left (hc : Reachable E input ((x, .begin next), w)) :
    next = input ∧ w = (startConfig input).2 ∨
      Reachable E input ((x, .leaving (.continued next)), w) := by
  generalize hend : ((x, Point.begin next), w) = c at hc
  cases hc with
  | refl =>
    cases hend
    exact .inl ⟨rfl, rfl⟩
  | tail hc h =>
    cases h with
    | skip h =>
      cases h with
      | continue_ =>
        cases hend
        exact .inr hc
      | command h => cases h <;> cases hend
      | _ => cases hend
    | say h | ask h | saved h | unsaved h => cases h <;> cases hend
    | begin | refuse => cases hend

/-! ## The plan at hand -/

/-- The validated plan is that of the current spec. -/
def PlanReady (l : Locals) : Prop := l.validation.plan.spec = l.spec ∧ Validated l.validation.plan

/-- Where the loop has a validated plan.  An expansion in hand extends it. -/
def Planned (w : World) : Point → Prop
  | .begin _ | .opened | .validating | .unready _ | .refused _ => True
  | .node _ _ (.expanding _ expansion) | .node _ _ (.expanded _ expansion) =>
      PlanReady w.st ∧ Expands w.st.spec w.st.expansionCount expansion
  | _ => PlanReady w.st

theorem Framed.planReady {l' : Locals} (h : Framed l l') (hready : PlanReady l) : PlanReady l' := by
  unfold PlanReady
  rw [h.spec, h.validation]
  exact hready

theorem reachable_planned (hc : Reachable E input c) : Planned c.2 c.1.2 := by
  refine reach_always trivial (fun c d _ h hI => ?_) hc
  cases h with
  | skip h =>
    cases h with
    | continued | unpeered | continue_ => trivial
    | node h => cases h <;> exact hI
    | command h =>
      cases h with
      | guard hguard | guardRefused _ hguard => cases hguard <;> exact hI
      | _ => exact hI
    | _ => exact hI
  | say h =>
    cases h with
    | node h =>
      cases h with
      | adopted => exact ⟨hI.2.plan, hI.2.validated⟩
      | _ => exact hI
    | _ => exact hI
  | ask h =>
    cases h with
    | invalid => trivial
    | valid hvalid => exact validatePlanActivity_ok hvalid
    | node h =>
      cases h with
      | expansionSome hevaluated => exact ⟨hI, evaluatePlanExpansionActivity_ok hevaluated⟩
      | _ => exact hI
    | _ => exact hI
  | saved h hposted =>
    have hready := hposted.framed.planReady
    cases h with
    | begun | unready => trivial
    | node h =>
      cases h with
      | expansion =>
        refine ⟨hready hI.1, ?_⟩
        rw [hposted.framed.spec, hposted.framed.expansionCount]
        exact hI.2
      | _ => exact hready hI
    | _ => exact hready hI
  | unsaved h hposted =>
    have hready := hposted.framed.planReady
    cases h with
    | begun | unready => trivial
    | node h =>
      cases h with
      | expansion => exact hready hI.1
      | _ => exact hready hI
    | _ => exact hready hI
  | begin | refuse => trivial

/-! ## The node list of the status -/

/-- Where the node list of the status is the list of the node map.  An expansion that
fails leaves them apart, and the loop then ends or records the failure. -/
def Listed (w : World) : Point → Prop
  | .refused _ | .failing _ | .leaving .done | .leaving (.error _) | .returned _
  | .node _ _ (.broken _) => True
  | _ => w.st.state.status.nodes = sortedNodeStatuses w.st.state.nodes

theorem Posted.listed
    (h : Posted E spec event w answer v) (hkind : answer = none ∨ event.kind ≠ .planExpanded)
    (hlisted : w.st.state.Lists) : v.st.state.Lists := by
  obtain ⟨_, _, _, _, _, _, happlied | ⟨hsome, hfailed⟩⟩ := h.effect
  · exact happlied.listed
  rcases hkind with rfl | hkind
  · cases hsome
  · rw [State.Lists, hfailed.status, hfailed.nodes hkind]
    exact hlisted

theorem Posted.listed_of_saved (h : Posted E spec event w none v) : v.st.state.Lists := by
  obtain ⟨_, _, _, _, happlied⟩ := h.applied
  exact happlied.listed

theorem newPlanWorkflowSetup_listed (h : newPlanWorkflowSetup next time = .ok state) :
    state.Lists := by
  rcases newPlanWorkflowSetup_ok h with ⟨-, hrestored⟩ | ⟨-, rfl⟩
  · exact (newStateFromStatus_restored hrestored).listed
  · rfl

theorem reachable_listed (hc : Reachable E input c) : Listed c.2 c.1.2 := by
  refine reach_always rfl (fun c d _ h hI => ?_) hc
  cases h with
  | skip h =>
    cases h with
    | settleUnknown | settleBroken | pollBroken | undecided | pollUnknown | done | error => trivial
    | node h => cases h <;> trivial
    | command h =>
      cases h with
      | guard hguard | guardRefused _ hguard => cases hguard <;> exact hI
      | _ => trivial
    | _ => exact hI
  | say h =>
    cases h with
    | node h => cases h <;> exact hI
    | @drain outcome | @cancelOperation outcome | @dropOperation outcome =>
      cases outcome <;> trivial
    | _ => exact hI
  | ask h =>
    cases h with
    | node h => cases h <;> trivial
    | @drained outcome => cases outcome <;> trivial
    | _ => trivial
  | saved h hposted =>
    have hlisted := hposted.listed_of_saved
    cases h with
    | node h => cases h <;> exact hlisted
    | _ => trivial
  | unsaved h hposted =>
    cases h with
    | node h => cases h <;> trivial
    | marked => exact hposted.listed (.inr nofun) hI
    | ended hends =>
      exact hposted.listed (.inr (hends.ne rfl)) hI
    | _ => trivial
  | begin htime hstate => exact newPlanWorkflowSetup_listed hstate
  | refuse => trivial

theorem reachable_begin (hfresh : input.continued = false)
    (hc : Reachable E input ((x, .begin next), w))
    (hstate : newPlanWorkflowSetup next time = .ok state) :
    next = input ∧ w = (startConfig input).2 ∧ state = newState input.spec time ∨
      Continued x w.st next ∧ Restored w.st.spec w.st.state.status state ∧
        ∀ nodeID, state.nodeStatus nodeID = w.st.state.nodeStatus nodeID := by
  have hlisted : w.st.state.Lists := reachable_listed hc
  have hnamed : w.st.state.Named := reachable_named hc
  rcases newPlanWorkflowSetup_ok hstate with ⟨hcontinued, hrestored⟩ | ⟨hnew, rfl⟩
  · rcases reachable_begins hc with ⟨rfl, -⟩ | hnext
    · rw [hfresh] at hcontinued
      cases hcontinued
    rw [hnext.1] at hrestored
    have hrestored' := newStateFromStatus_restored hrestored
    refine .inr ⟨hnext, hrestored', fun nodeID => ?_⟩
    rw [hrestored'.lookup, ← find?_sortedNodeStatuses hnamed, ← hlisted]
    rfl
  · rcases reachable_begins hc with ⟨rfl, hstart⟩ | hnext
    · exact .inl ⟨rfl, hstart, rfl⟩
    · rw [hnext.1] at hnew
      cases hnew

/-! ## The spec grows -/

/-- Nodes and edges are added, and nothing else changes. -/
def Extends (spec spec' : RunPlanSpec) : Prop :=
  ∃ nodes edges, spec' =
    { spec with nodes := spec.nodes ++ nodes, edges := spec.edges ++ edges }

theorem Extends.refl (spec : RunPlanSpec) : Extends spec spec :=
  ⟨[], [], by rw [append_nil, append_nil]⟩

theorem Extends.trans {spec' spec'' : RunPlanSpec} (h : Extends spec spec')
    (h' : Extends spec' spec'') : Extends spec spec'' := by
  obtain ⟨nodes, edges, rfl⟩ := h
  obtain ⟨nodes', edges', rfl⟩ := h'
  exact ⟨nodes ++ nodes', edges ++ edges', by rw [← append_assoc, ← append_assoc]⟩

theorem Expands.extends (h : Expands spec expansionCount expansion) : Extends spec expansion.spec :=
  ⟨_, _, h.extended⟩

theorem Move.extends (hc : Reachable E input c) (h : Move E c d) :
    Extends c.2.st.spec d.2.st.spec := by
  cases h with
  | skip | refuse => exact .refl _
  | say h =>
    have hplanned := reachable_planned hc
    cases h with
    | node h =>
      cases h with
      | adopted => exact hplanned.2.extends
      | _ => exact .refl _
    | _ => exact .refl _
  | ask h =>
    cases h with
    | node h => cases h <;> exact .refl _
    | _ => exact .refl _
  | saved _ hposted | unsaved _ hposted => exact hposted.framed.spec ▸ .refl _
  | @begin _ next w =>
    show Extends w.st.spec next.spec
    rcases reachable_begins hc with ⟨rfl, rfl⟩ | ⟨rfl, -⟩
    · exact .refl _
    · exact .refl _

/-- A move posts a state event, or it leaves the state and lets the spec grow, or it begins an
execution with a new state or with the one that was handed on. -/
theorem Move.plan_cases (hfresh : input.continued = false) (hc : Reachable E input c)
    (h : Move E c d) :
    (∃ spec event ok bad answer, Posts E c.1.1 c.2 c.1.2 spec event ok bad ∧
        Posted E spec event c.2 answer d.2) ∨
      (∃ tail, d.2.log = tail ++ c.2.log ∧ ∀ e ∈ tail, e.2.silent) ∧
        (d.2.st.state = c.2.st.state ∧ Extends c.2.st.spec d.2.st.spec ∨
          (∃ time, c.2 = (startConfig input).2 ∧ d.2.st.spec = input.spec ∧
            d.2.st.state = newState input.spec time) ∨
          d.2.st.spec = c.2.st.spec ∧ Restored c.2.st.spec c.2.st.state.status d.2.st.state ∧
            ∀ nodeID, d.2.st.state.nodeStatus nodeID = c.2.st.state.nodeStatus nodeID) := by
  have hextends := h.extends hc
  cases h with
  | saved h hposted | unsaved h hposted => exact .inl ⟨_, _, _, _, _, h, hposted⟩
  | skip | refuse => exact .inr ⟨⟨[], rfl, by simp⟩, .inl ⟨rfl, hextends⟩⟩
  | say h => exact .inr ⟨⟨[_], rfl, by simpa using h.quiet.1⟩, .inl ⟨h.quiet.2, hextends⟩⟩
  | ask h =>
    exact .inr ⟨⟨[_, _], rfl, by simpa [Act.silent] using h.quiet.1⟩, .inl ⟨h.quiet.2, hextends⟩⟩
  | begin _ hstate =>
    refine .inr ⟨⟨[_], rfl, by simp [Act.silent]⟩, .inr ?_⟩
    rcases reachable_begin hfresh hc hstate with ⟨rfl, hstart, rfl⟩ | ⟨⟨rfl, -⟩, hrestored⟩
    · exact .inl ⟨_, hstart, rfl, rfl⟩
    · exact .inr ⟨rfl, hrestored⟩

theorem reachable_extends (hc : Reachable E input c) :
    LogMeets (fun e => Extends e.1.spec c.2.st.spec) c.2 := by
  refine reach_always (fun _ he => by cases he) (fun c d hc h hI e he => ?_) hc
  have hextends := h.extends hc
  rcases h.entry he with hold | ⟨-, hspec⟩ | ⟨-, hspec⟩
  · exact (hI e hold).trans hextends
  · show Extends e.1.spec d.2.st.spec
    rw [hspec]
    exact hextends
  · show Extends e.1.spec d.2.st.spec
    rw [hspec]
    exact .refl _

/-! ## The node at hand -/

/-- The events that end an attempt of a node. -/
def EventKind.closesNode (kind : EventKind) : Prop :=
  kind = .nodeSucceeded ∨ kind = .nodeFailed ∨ kind = .nodeCanceled ∨ kind = .nodeRetryScheduled

/-- The parts of the handling of a node that each of the three loops can be in. -/
def Site.Allows (node : PlanNodeSpec) : Site → Work → Prop
  | .settle, .opening | .settle, .announced | .settle, .readied | .settle, .resolved ..
  | .settle, .accepted .. | .settle, .started .. => False
  | .poll _, .opening | .poll _, .announced | .poll _, .readied | .poll _, .resolved ..
  | .poll _, .accepted .. | .poll _, .started .. => False
  | .start .., .running .. | .start .., .timedOut _ => False
  | .settle, .timedOut _ => False
  | .settle, .running polled status => polled = false ∧ status.nodeID = node.nodeID
  | .poll _, .running polled status => polled = true ∧ status.nodeID = node.nodeID
  | .poll _, .timedOut status => status.nodeID = node.nodeID
  | _, .closing event => event.kind.closesNode ∧ event.nodeID = node.nodeID
  | _, _ => True

theorem Site.Allows.closes {site : Site} (h : site.Allows node (.closing event)) :
    event.kind.closesNode ∧ event.nodeID = node.nodeID := by
  cases site <;> exact h

def Site.rest : Site → List PlanNodeSpec
  | .start _ rest => rest
  | .settle | .poll _ => []

/-- A node of the spec, up to the run of the attempt. -/
def FromSpec (spec : RunPlanSpec) (node : PlanNodeSpec) : Prop :=
  ∃ declared ∈ spec.nodes, node = { declared with run := node.run }

/-- The nodes that the loop has in hand are nodes of the spec. -/
def Scheduled (spec : RunPlanSpec) : Point → Prop
  | .decided decision => decision.ready ⊆ spec.nodes
  | .skipping _ ready _ | .starting _ ready _ | .startGuard _ ready => ready ⊆ spec.nodes
  | .node site node work =>
      FromSpec spec node ∧ site.rest ⊆ spec.nodes ∧ site.Allows node work
  | _ => True

theorem nodeForAttempt_ok {planID : String} {attemptNode : PlanNodeSpec} {attempt : Int}
    (h : nodeForAttempt E planID node attempt = .ok attemptNode) :
    attemptNode = { node with run := attemptNode.run } ∧
      attemptNode.run.runID = nodeRunIDForAttempt node.run.runID attempt ∧ 0 < attempt := by
  unfold nodeForAttempt at h
  split_ifs at h with hpositive
  obtain ⟨key, -, h⟩ := bind_ok h
  cases h
  exact ⟨rfl, rfl, Int.not_le.mp hpositive⟩

theorem nodeByID_ok (hready : PlanReady l) {nodeID : String}
    (h : nodeByID l.validation nodeID = .ok node) : node ∈ l.spec.nodes ∧ node.nodeID = nodeID := by
  unfold nodeByID at h
  split at h
  · rename_i found hfound
    cases h
    have hnode := (hready.2.nodes nodeID _).mp hfound
    rwa [hready.1] at hnode
  · cases h

section Allows

variable {site : Site} {node node' : PlanNodeSpec} {work work' : Work} {act : Act}

theorem NodePosts.allows
    (h : NodePosts node w work spec event work') (hallows : site.Allows node work) :
    site.Allows node work' := by
  cases h <;> cases site <;> trivial

theorem NodePosts.not_plan
    (h : NodePosts node w work spec event work') (hallows : site.Allows node work) :
    reducerPlanLifecycleForEvent event.kind = none := by
  cases h with
  | close =>
    rcases hallows.closes.1 with hkind | hkind | hkind | hkind <;> rw [hkind] <;> rfl
  | _ => rfl

theorem NodeSays.allows (h : NodeSays x node w work act work')
    (hallows : site.Allows node work) : site.Allows node work' := by
  cases h with
  | promiseFailed =>
    cases site with
    | start => cases hallows
    | settle | poll => exact ⟨.inr (.inl rfl), hallows.2⟩
  | adopted => cases site <;> exact ⟨.inl rfl, rfl⟩
  | _ => cases site <;> trivial

theorem NodeSkips.allows (h : NodeSkips E x node w work work')
    (hallows : site.Allows node work) : site.Allows node work' := by
  cases h with
  | retried => cases site <;> exact ⟨.inr (.inr (.inr rfl)), rfl⟩
  | exhausted => cases site <;> exact ⟨.inr (.inl rfl), rfl⟩
  | canceled => cases site <;> exact ⟨.inr (.inr (.inl rfl)), rfl⟩
  | unexpanded => cases site <;> exact ⟨.inl rfl, rfl⟩
  | unnamed =>
    cases site with
    | start => cases hallows
    | settle => cases hallows.1
    | poll => exact ⟨.inl rfl, hallows.2⟩
  | _ => cases site <;> trivial

theorem NodeAsks.copy (h : NodeAsks E node w work act node' work') :
    node' = { node with run := node'.run } := by
  cases h with
  | unresolved _ hnode | resolved hnode => exact (nodeForAttempt_ok hnode).1
  | _ => rfl

theorem NodeAsks.allows (h : NodeAsks E node w work act node' work')
    (hallows : site.Allows node work) : site.Allows node' work' := by
  cases h with
  | cancelSent =>
    cases site with
    | start => cases hallows
    | settle => cases hallows.1
    | poll => exact hallows.2
  | unpublished => cases site <;> exact ⟨.inr (.inl rfl), rfl⟩
  | expansionNone => cases site <;> exact ⟨.inl rfl, rfl⟩
  | statusFailed =>
    cases site with
    | start => cases hallows
    | settle => cases hallows.1
    | poll => exact ⟨.inr (.inl rfl), hallows.2⟩
  | _ => cases site <;> trivial

end Allows

theorem FromSpec.copy {node' : PlanNodeSpec}
    (h : FromSpec spec node) (hcopy : node' = { node with run := node'.run }) :
    FromSpec spec node' := by
  obtain ⟨declared, hdeclared, hnode⟩ := h
  refine ⟨declared, hdeclared, ?_⟩
  rw [hnode] at hcopy
  exact hcopy

theorem FromSpec.declared (h : node ∈ spec.nodes) : FromSpec spec node := ⟨node, h, rfl⟩

theorem Skips.scheduled (h : Skips E x w p p') (hready : Planned w p)
    (hI : Scheduled w.st.spec p) : Scheduled w.st.spec p' := by
  cases h with
  | settleNode _ _ _ hnode | pollNode _ _ hnode =>
    obtain ⟨hdeclared, hid⟩ := nodeByID_ok hready hnode
    exact ⟨.declared hdeclared, nil_subset _, rfl, hid.symm⟩
  | start =>
    obtain ⟨hdeclared, hrest⟩ := cons_subset.mp hI
    exact ⟨.declared hdeclared, hrest, trivial⟩
  | unstarted => exact (cons_subset.mp hI).2
  | startOver => exact hI.2.1
  | node h => exact ⟨hI.1, hI.2.1, h.allows hI.2.2⟩
  | command h => cases h <;> trivial
  | _ => trivial

theorem Expands.nodes_subset (h : Expands spec expansionCount expansion) :
    spec.nodes ⊆ expansion.spec.nodes := by
  rw [h.extended]
  exact subset_append_left _ _

theorem reachable_scheduled (hc : Reachable E input c) : Scheduled c.2.st.spec c.1.2 := by
  refine reach_always trivial (fun c d hc h hI => ?_) hc
  have hplanned := reachable_planned hc
  cases h with
  | skip h => exact h.scheduled hplanned hI
  | say h =>
    cases h with
    | start hdecision =>
      intro node hnode
      have hdeclared := (decide_ready hplanned.2 hdecision hnode).1
      rwa [hplanned.1] at hdeclared
    | node h =>
      obtain ⟨⟨declared, hdeclared, hnode⟩, hrest, hallows⟩ := hI
      have hallows' := h.allows hallows
      cases h with
      | adopted =>
        -- The nodes of the spec stay when the plan grows.
        have hsubset := hplanned.2.nodes_subset
        exact ⟨⟨declared, hsubset hdeclared, hnode⟩, fun _ hmem => hsubset (hrest hmem), hallows'⟩
      | _ => exact ⟨⟨declared, hdeclared, hnode⟩, hrest, hallows'⟩
    | _ => trivial
  | ask h =>
    cases h with
    | node h =>
      have hnode := hI.1.copy h.copy
      have hallows := h.allows hI.2.2
      cases h <;> exact ⟨hnode, hI.2.1, hallows⟩
    | _ => trivial
  | saved h hposted =>
    show Scheduled _ _
    rw [hposted.framed.spec]
    cases h with
    | startFailed => exact hI.2.1
    | node h => exact ⟨hI.1, hI.2.1, h.allows hI.2.2⟩
    | _ => trivial
  | unsaved h hposted =>
    show Scheduled _ _
    rw [hposted.framed.spec]
    cases h with
    | @node site => exact ⟨hI.1, hI.2.1, by cases site <;> trivial⟩
    | _ => trivial
  | begin | refuse => trivial

theorem Posts.start_point (h : Posts E x w p spec event ok bad) (hkind : event.kind = .nodeStarted)
    (hscheduled : Scheduled w.st.spec p) :
    ∃ capacity rest node attempt input,
      p = .node (.start capacity rest) node (.accepted attempt input) ∧
        event = { kind := .nodeStarted, nodeID := node.nodeID, runID := node.run.runID,
                  attempt := attempt } := by
  cases h with
  | ended hends => exact absurd hkind (hends.ne rfl)
  | terminalBefore | terminalAfter => exact absurd hkind (terminalPlanEvent_ne rfl)
  | @node site _ _ _ _ _ h =>
    cases h with
    | started =>
      cases site with
      | start => exact ⟨_, _, _, _, _, rfl, rfl⟩
      | settle | poll => cases hscheduled.2.2
    | close =>
      have hcloses := hscheduled.2.2.closes.1
      simp [EventKind.closesNode, hkind] at hcloses
    | _ => cases hkind
  | _ => cases hkind

/-! ## Stages -/

def Purpose.stage : Purpose → Stage
  | .pause | .resume | .cancel => .controls
  | .reject .. => .signals
  | .guard .deadline .. => .preSchedule
  | .guard .start .. => .start
  | .guard .close .. => .poll

/-- The stage that the locals record is that of the point. -/
def AtStage (stage : Stage) : Point → Prop
  | .begin _ | .refused _ | .top | .leaving _ | .returned _ => True
  | .opened | .validating | .validated | .checked | .unready _ => stage = .setup
  | .guarding => stage = .guard
  | .settling | .settlingNodes | .node .settle _ _ => stage = .settle
  | .controls | .receivedControl _ | .handlingControl _ | .blocking _ | .blocked | .resuming
  | .resumed => stage = .controls
  | .controlling _ purpose | .marking _ purpose | .ended purpose | .stopped purpose _ =>
      stage = purpose.stage
  | .signals | .receivedSignal _ | .handlingSignal _ | .retrying _ | .unpausing
  | .forwarding .. => stage = .signals
  | .preSchedule | .timely | .waiting => stage = .preSchedule
  | .deciding => stage = .decide
  | .decided _ | .skipping .. | .starting .. | .startGuard .. | .node (.start ..) _ _
  | .started _ => stage = .start
  | .polling _ | .node (.poll _) _ _ | .closing _ | .unfinished _ => stage = .poll
  | .finishing _ => stage = .finish
  | .failing _ => stage = .controls ∨ stage = .signals ∨ stage = .decide ∨ stage = .poll

variable {stage : Stage}

theorem Guards.atStage {site : GuardSite} {kind : EventKind} {reason : String}
    (h : Guards w p site kind reason) (hstage : AtStage stage p) :
    stage = (Purpose.guard site kind reason).stage := by
  cases h <;> exact hstage

theorem CommandSkips.atStage (h : CommandSkips E w p p')
    (hstage : AtStage stage p) : AtStage stage p' := by
  cases h with
  | control hpurpose | controlRefused hpurpose =>
    rcases ControlRequest.purpose_cases hpurpose with rfl | rfl | rfl <;> exact hstage
  | guard hguard | guardRefused _ hguard => exact hguard.atStage hstage
  | controlInvalid | stoppedCancel => exact .inl hstage
  | signalInvalid | signalRefused | stoppedReject => exact .inr (.inl hstage)
  | ended | stoppedGuard => trivial
  | _ => exact hstage

theorem Skips.atStage (h : Skips E x w p p') (hstage : AtStage stage p) : AtStage stage p' := by
  cases h with
  | @node site => cases site <;> exact hstage
  | command h => exact h.atStage hstage
  | undecided => exact .inr (.inr (.inl hstage))
  | pollBroken | pollUnknown => exact .inr (.inr (.inr hstage))
  | _ => first | exact hstage | trivial

theorem Posts.atStage (h : Posts E x w p spec event ok bad) (hstage : AtStage stage p) :
    AtStage stage ok ∧ ∀ err, AtStage stage (bad err) := by
  cases h with
  | @node site => cases site <;> exact ⟨hstage, fun _ => hstage⟩
  | blocked | resumed => exact ⟨hstage, fun _ => .inl hstage⟩
  | retryApproved | retry | approved => exact ⟨hstage, fun _ => .inr (.inl hstage)⟩
  | begun | conditions | skipped | startFailed => exact ⟨hstage, fun _ => trivial⟩
  | marked | ended => exact ⟨hstage, fun _ => hstage⟩
  | _ => exact ⟨trivial, fun _ => trivial⟩

theorem reachable_atStage (hc : Reachable E input c) : AtStage c.2.st.stage c.1.2 := by
  refine reach_always trivial (fun c d _ h hI => ?_) hc
  cases h with
  | skip h => exact h.atStage hI
  | say h =>
    cases h with
    | @node site _ _ _ _ h => cases h <;> cases site <;> exact hI
    | _ => first | exact hI | trivial
  | ask h =>
    cases h with
    | @node site _ _ _ _ _ h => cases h <;> cases site <;> exact hI
    | forwardFailed => exact .inr (.inl hI)
    | _ => first | exact hI | trivial
  | saved h hposted =>
    show AtStage _ _
    rw [hposted.framed.stage]
    exact (h.atStage hI).1
  | unsaved h hposted =>
    show AtStage _ _
    rw [hposted.framed.stage]
    exact (h.atStage hI).2 _
  | begin => rfl
  | refuse => trivial

def Staged (stage : Stage) : Point → Prop
  | .settling | .settlingNodes | .node .settle _ _ => stage = .settle
  | .decided _ | .skipping .. | .starting .. | .startGuard .. | .node (.start ..) _ _ =>
      stage = .start
  | .polling _ | .node (.poll _) _ _ => stage = .poll
  | _ => True

theorem reachable_staged (hc : Reachable E input c) : Staged c.2.st.stage c.1.2 := by
  have hstage := reachable_atStage hc
  generalize c.1.2 = p at hstage ⊢
  cases p with
  | node site => cases site <;> exact hstage
  | _ => first | exact hstage | trivial

/-! ## Final points -/

/-- The loop is about to end here. -/
def Point.final : Point → Bool
  | .refused _ | .leaving .done | .leaving (.error _) | .returned _ => true
  | .ended (.guard .start _ _) => false
  | .ended _ | .stopped (.guard _ _ _) _ => true
  | _ => false

theorem Skips.final (h : Skips E x w p p') (hfinal : p.final = true) : p'.final = true := by
  cases h with
  | command h =>
    cases h with
    | ended | stoppedGuard => rfl
    | guard hguard | guardRefused _ hguard => cases hguard <;> cases hfinal
    | _ => cases hfinal
  | done | error => rfl
  | _ => cases hfinal

theorem Says.final (h : Says E x w p act p') (hfinal : p.final = true) : p'.final = true := by
  cases h with
  | drain | cancelOperation | dropOperation => exact hfinal
  | _ => cases hfinal

theorem Asks.final (h : Asks E x w p act p') (hfinal : p.final = true) : p'.final = true := by
  cases h with
  | drained => exact hfinal
  | _ => cases hfinal

theorem Posts.not_final (h : Posts E x w p spec event ok bad) : p.final = false := by
  cases h <;> rfl

end AgentOS.Plan
