import AgentOS.Plan.Exits

/-!
# A plan that ended stays still

An event that ends the plan should be the last one that the workflow applies.
-/

namespace AgentOS.Plan

open Kit List

variable {E : Host} {input : PlanWorkflowInput} {x : Execution} {w v : World} {p p' : Point}
  {spec : RunPlanSpec} {event : StateEvent} {answer : Option Err} {e : Locals × Act} {err : Err}
  {bad : Err → Point} {ok : Point} {c : Config} {arrivals : Arrivals}

/-! ## Logs -/

/-- An event of this kind ends the plan. -/
def EventKind.endsPlan (kind : EventKind) : Bool :=
  (reducerPlanLifecycleForEvent kind).any PlanLifecycle.terminal

/-- An event is applied that ends the plan. -/
def endsPlan : Locals × Act → Bool
  | (_, .apply event) => event.kind.endsPlan
  | _ => false

/-- After an event that ends the plan no event is applied.  The latest entry of a log is
its first. -/
def Still (log : List (Locals × Act)) : Prop :=
  log.Pairwise fun later earlier => endsPlan earlier = true → later.2.silent

theorem endsPlan_of_silent (h : e.2.silent) : endsPlan e = false := by
  obtain ⟨l, act⟩ := e
  cases act with
  | apply => cases h
  | _ => rfl

theorem Still.append_silent {log tail : List (Locals × Act)} (h : Still log)
    (htail : ∀ e ∈ tail, e.2.silent) : Still (tail ++ log) := by
  induction tail with
  | nil => exact h
  | cons e tail ih =>
    obtain ⟨hsilent, htail⟩ := forall_mem_cons.mp htail
    exact pairwise_cons.mpr ⟨fun _ _ _ => hsilent, ih htail⟩

theorem Still.countP_le {log : List (Locals × Act)} (h : Still log) : log.countP endsPlan ≤ 1 := by
  induction log with
  | nil => exact Nat.zero_le _
  | cons e log ih =>
    obtain ⟨hlater, hlog⟩ := pairwise_cons.mp h
    cases hends : endsPlan e with
    | false =>
      rw [countP_cons_of_neg (by rw [hends]; nofun)]
      exact ih hlog
    | true =>
      -- The entry applies an event, so no earlier one ended the plan.
      have hnone : log.countP endsPlan = 0 := by
        refine countP_eq_zero.mpr fun earlier hmem hearlier => ?_
        rw [endsPlan_of_silent (hlater earlier hmem hearlier)] at hends
        cases hends
      rw [countP_cons_of_pos hends, hnone]

/-! ## Final points -/

theorem Posts.final (hc : Reachable E input ((x, p), w))
    (h : Posts E x w p spec event ok bad) (hends : event.kind.endsPlan = true) :
    (ok.final = true ∧ ∀ err, (bad err).final = true) ∨
      ∃ purpose : Purpose, p = .marking [] purpose ∧ spec = w.st.spec ∧ purpose.Ends event ∧
        ok = .ended purpose ∧ bad = .stopped purpose := by
  cases h with
  | unready | tripped | terminalBefore | terminalAfter | failed | stalled =>
    exact .inl ⟨rfl, fun _ => rfl⟩
  | ended hpurpose => exact .inr ⟨_, rfl, rfl, hpurpose, rfl, rfl⟩
  | node hnode =>
    rw [EventKind.endsPlan, hnode.not_plan (reachable_scheduled hc).2.2] at hends
    cases hends
  | _ => cases hends

/-! ## The invariant -/

/-- The budget guard of the start step ended the plan. -/
def endedInStart : Locals × Act → Bool
  | (l, .persist _ _ event _ none) => l.stage = .start && event.kind.endsPlan
  | _ => false

/-- A cancel control or a reject signal ended the plan and this was not saved. -/
def unsavedEnd : Locals × Act → Bool
  | (l, .persist _ _ event _ (some _)) =>
      (l.stage = .controls && event.kind = .planCanceled) ||
        (l.stage = .signals && event.kind = .planRejected)
  | _ => false

def EndsLast (e : Locals × Act) : Prop := endedInStart e = false ∧ unsavedEnd e = false

theorem Posted.persisted (h : Posted E spec event w answer v)
    (hends : event.kind.endsPlan = true) (hscope : validateRunPlanScope spec = .ok ()) :
    ∃ l status final key, (l, .persist spec status final key answer) ∈ v.log ∧
      l.stage = w.st.stage ∧ final.kind = event.kind := by
  cases h with
  | refused _ hrefused =>
    rw [reduced_none (.inl (Option.isSome_of_any hends))] at hrefused
    cases hrefused
  | unscoped _ _ hunscoped =>
    rw [hscope] at hunscoped
    cases hunscoped
  | answered _ _ _ hfinal =>
    exact ⟨_, _, _, _, mem_cons_of_mem _ mem_cons_self, rfl, hfinal⟩

theorem Purpose.Ends.final {purpose : Purpose}
    (hc : Reachable E input ((x, .marking [] purpose), w)) (h : purpose.Ends event)
    (hends : event.kind.endsPlan = true) (hposted : Posted E w.st.spec event w answer v)
    (hlast : LogMeets EndsLast v) :
    match answer with
    | none => (Point.ended purpose).final = true
    | some err => (Point.stopped purpose err).final = true := by
  have hready : PlanReady w.st := reachable_planned hc
  have hstage : w.st.stage = purpose.stage := reachable_atStage hc
  obtain ⟨l, status, final, key, hmem, hl, hfinal⟩ :=
    hposted.persisted hends (hready.1 ▸ hready.2.scope)
  obtain ⟨hstart, hunsaved⟩ := hlast _ hmem
  cases answer with
  | none =>
    cases purpose with
    | guard site kind reason =>
      cases site with
      | start => simp [endedInStart, hl, hstage, Purpose.stage, hfinal, hends] at hstart
      | _ => rfl
    | _ => rfl
  | some err =>
    cases purpose with
    | pause | resume => cases h
    | cancel =>
      cases h
      simp [unsavedEnd, hl, hstage, Purpose.stage, hfinal] at hunsaved
    | reject reason decision =>
      obtain ⟨approval, -, rfl⟩ := h
      simp [unsavedEnd, hl, hstage, Purpose.stage, hfinal] at hunsaved
    | guard => rfl

structure Settled (w : World) (p : Point) : Prop where
  still : Still w.log
  unended : p.final = false → ∀ e ∈ w.log, endsPlan e = false

theorem Settled.append_silent (tail : List (Locals × Act)) (h : Settled w p)
    (hlog : v.log = tail ++ w.log) (htail : ∀ e ∈ tail, e.2.silent)
    (hfinal : p.final = true → p'.final = true) : Settled v p' where
  still := hlog ▸ h.still.append_silent htail
  unended := by
    intro hopen e he
    have hopen' : p.final = false :=
      Bool.eq_false_iff.mpr fun hp => Bool.eq_false_iff.mp hopen (hfinal hp)
    rw [hlog] at he
    rcases mem_append.mp he with hnew | hold
    · exact endsPlan_of_silent (htail e hnew)
    · exact h.unended hopen' e hold

theorem Settled.posted (h : Settled w p) (hopen : p.final = false)
    (hposted : Posted E spec event w answer v)
    (hends : event.kind.endsPlan = true → p'.final = true) : Settled v p' := by
  have hnone := h.unended hopen
  obtain ⟨time, now, tail, -, hlog, htail, -⟩ := hposted.effect
  have hstill : Still ((w.st, .apply (stamped w.st time event)) :: w.log) := by
    refine pairwise_cons.mpr ⟨fun earlier hmem hearlier => ?_, h.still⟩
    rw [hnone earlier hmem] at hearlier
    cases hearlier
  refine ⟨hlog ▸ hstill.append_silent htail, fun hopen' e he => ?_⟩
  have hkind : event.kind.endsPlan = false :=
    Bool.eq_false_iff.mpr fun hkind => Bool.eq_false_iff.mp hopen' (hends hkind)
  rw [hlog] at he
  rcases mem_append.mp he with hnew | hold
  · exact endsPlan_of_silent (htail e hnew)
  rcases mem_cons.mp hold with rfl | hold
  · exact hkind
  · exact hnone e hold

theorem reachable_settled (hc : Reachable E input c)
    (hlast : LogMeets EndsLast c.2) : Settled c.2 c.1.2 := by
  refine reach_inv ⟨.nil, fun _ _ he => (not_mem_nil he).elim⟩ ?_ hc hlast
  intro c d hc hmove hlast hI
  cases hmove with
  | skip h => exact .append_silent [] hI rfl (fun _ he => (not_mem_nil he).elim) h.final
  | say h =>
    exact .append_silent [_] hI rfl (fun e he => mem_singleton.mp he ▸ h.quiet.1) h.final
  | ask h =>
    refine .append_silent [_, _] hI rfl (fun e he => ?_) h.final
    rcases mem_pair.mp he with rfl | rfl
    · trivial
    · exact h.quiet.1
  | saved h hposted =>
    refine hI.posted h.not_final hposted fun hends => ?_
    rcases h.final hc hends with hfinal | ⟨purpose, rfl, rfl, hpurpose, rfl, -⟩
    · exact hfinal.1
    · exact hpurpose.final hc hends hposted hlast
  | unsaved h hposted =>
    refine hI.posted h.not_final hposted fun hends => ?_
    rcases h.final hc hends with hfinal | ⟨purpose, rfl, rfl, hpurpose, -, rfl⟩
    · exact hfinal.2 _
    · exact hpurpose.final hc hends hposted hlast
  | begin =>
    exact .append_silent [_] hI rfl (fun e he => mem_singleton.mp he ▸ trivial) nofun
  | refuse => exact .append_silent [] hI rfl (fun _ he => (not_mem_nil he).elim) nofun

/-- A plan that ended stays still: no event is applied after one that ends the plan, and one
such event is applied at most, unless the budget guard of the start step ended the plan or
the end of an operator's request was not saved. -/
theorem ended_stays_still (E : Host) (input : PlanWorkflowInput) (n : Nat)
    (hstart : LogMeets (endedInStart · = false) (planRun E input n).world)
    (hunsaved : LogMeets (unsavedEnd · = false) (planRun E input n).world) :
    Still (planRun E input n).world.log ∧ (planRun E input n).world.log.countP endsPlan ≤ 1 := by
  obtain ⟨c, hreach, hat⟩ := planRun_path E input n
  rw [← hat.world] at hstart hunsaved ⊢
  have hstill := (reachable_settled hreach fun e he => ⟨hstart e he, hunsaved e he⟩).still
  exact ⟨hstill, hstill.countP_le⟩

/-- The plan of one node succeeds, and its end is the last event. -/
theorem ended_stays_still_single :
    (planRun calmHost singlePlan 3).world.log.any endsPlan = true ∧
      Still (planRun calmHost singlePlan 3).world.log ∧
      (planRun calmHost singlePlan 3).world.log.countP endsPlan ≤ 1 :=
  ⟨by decide +kernel,
    ended_stays_still calmHost singlePlan 3 (by decide +kernel) (by decide +kernel)⟩

/-- The start of a run answers that it succeeded and spent nine cents. -/
def spendingHost : Host :=
  { calmHost with
    startNode := fun _ => .ok { lifecycleState := .succeeded, spentCents := 9 } }

/-- The plan is canceled while its node starts, and the end of the plan is not saved. -/
def unsavingHost : Host :=
  { calmHost with
    statusNode := fun _ => .ok { lifecycleState := .other "running" }
    persist := fun w =>
      match w.log with
      | (_, .apply event) :: _ =>
          if event.kind = .planCanceled then some (.external "down") else none
      | _ => none
    arrivals := fun w =>
      match w.log with
      | (_, .startNode ..) :: _ =>
          { controls := [{ operation := some .cancel, idempotencyKey := some "k" }] }
      | _ => {} }

/-- A plan over its budget of five cents is failed in the start step and once more after the
poll, and a plan whose cancelation is not saved is canceled and then failed. -/
theorem ended_twice :
    (planRun spendingHost (planOf [nativeNode "a" "ra"] [] { budgetCents := 5 }) 3).world.log.countP
      endsPlan = 2 ∧
    (planRun unsavingHost singlePlan 6).world.log.countP endsPlan = 2 := by
  decide +kernel

end AgentOS.Plan
