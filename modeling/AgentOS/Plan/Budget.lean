import AgentOS.Plan.Reach

/-!
# The budget of a plan

A run reports its spend when it ends.  The loop learns of that at three points of
an iteration: the settle step takes the results of Nexus operations, the start step
takes the answers of starts, and the poll step takes statuses.  The guard that fails
a plan over its budget stands behind each start and behind the poll.
-/

namespace AgentOS.Plan

open Kit

variable {E : Host} {input : PlanWorkflowInput} {x : Execution} {p p' : Point} {w v : World}

def Within (l : Locals) : Prop := budgetExceeded l.spec.policy l.state.status.spentCents = false

/-- A report that the settle step applies and that puts the spend over the budget. -/
def settledOverspend : Locals × Act → Bool
  | (l, .apply event) =>
      l.stage = .settle && event.kind = .budgetReported &&
        budgetExceeded l.spec.policy (int64 (l.state.status.spentCents + event.budgetDelta))
  | _ => false

/-- A node that is started, or a plan that succeeds, over the budget. -/
def overBudget : Locals × Act → Bool
  | (l, .apply event) =>
      let after := (l.state.apply event.at_ event).1.status
      event.kind = .nodeStarted && budgetExceeded l.spec.policy l.state.status.spentCents ||
        after.lifecycleState = .succeeded && budgetExceeded l.spec.policy after.spentCents
  | _ => false

def Budgeted (l : Locals) : Point → Prop
  | .begin next => next.continued = true → Within l
  | .unready _ | .refused _ | .failing _ | .leaving .done | .leaving (.error _) | .returned _ =>
      True
  -- From the start of a node to the guard behind the poll.
  | .node (.start ..) _ .opening | .node (.start ..) _ .announced | .node (.start ..) _ .readied
  | .node (.start ..) _ (.resolved ..) | .node (.start ..) _ (.accepted ..) => Within l
  | .node (.start ..) _ _ | .startGuard .. | .started _ | .polling _ | .node (.poll _) _ _
  | .closing _ => True
  -- A pause and a resumption go back to the loop, the other purposes end the plan.
  | .controlling _ .pause | .controlling _ .resume | .stopped .pause _ | .stopped .resume _ =>
      Within l
  | .marking _ .pause | .marking _ .resume => False
  | .controlling .. | .stopped .. | .marking .. | .ended _ => True
  | _ => Within l

variable {spec : RunPlanSpec} {event : StateEvent} {answer : Option Err}

theorem Posted.within (h : Posted E spec event w answer v) (hkind : event.kind ≠ .budgetReported)
    (hI : Within w.st) : Within v.st := by
  unfold Within
  rw [h.framed.spec, h.spent_eq hkind]
  exact hI

theorem Posted.within_settled (h : Posted E spec event w answer v) (hstage : w.st.stage = .settle)
    (hsettled : LogMeets (settledOverspend · = false) v) (hI : Within w.st) : Within v.st := by
  by_cases hkind : event.kind = .budgetReported
  · unfold Within
    rw [h.framed.spec]
    rcases h.spent_cases with hsame | hadded
    · rw [hsame]
      exact hI
    obtain ⟨time, _, tail, _, hlog, _⟩ := h.effect
    have hmem : (w.st, .apply (stamped w.st time event)) ∈ v.log := by
      rw [hlog]
      exact List.mem_append_right _ List.mem_cons_self
    have hreport := hsettled _ hmem
    simp only [settledOverspend, stamped_kind, hstage, hkind, decide_true, Bool.and_true,
      Bool.true_and] at hreport
    rw [hadded]
    exact hreport
  · exact h.within hkind hI

theorem budgetExceeded_zero (policy : PlanPolicy) : budgetExceeded policy 0 = false := by
  unfold budgetExceeded
  rw [decide_eq_false_iff_not]
  omega

theorem Skips.budgeted (h : Skips E x w p p') (hI : Budgeted w.st p) : Budgeted w.st p' := by
  cases h with
  | continue_ => exact fun _ => hI
  | startWithin hbudget | unfinished hbudget => exact hbudget
  | @node site _ _ _ h =>
    cases site with
    | settle => exact hI
    | start => cases h <;> trivial
    | poll => trivial
  | command h =>
    cases h with
    | control hpurpose | controlRefused hpurpose =>
      rcases ControlRequest.purpose_cases hpurpose with rfl | rfl | rfl <;> trivial
    | @mark purpose hpause hresume =>
      cases purpose with
      | pause => exact absurd rfl hpause
      | resume => exact absurd rfl hresume
      | _ => trivial
    | guard hguard | guardRefused _ hguard => cases hguard <;> trivial
    | _ => trivial
  | _ => trivial

theorem Says.budgeted {act : Act} (h : Says E x w p act p') (hplanned : Planned w p)
    (hI : Budgeted w.st p) : Budgeted (w.st.step act) p' := by
  cases h with
  | @node site _ _ _ _ h =>
    cases site with
    | settle =>
      cases h with
      | @adopted _ expansion =>
        -- An expansion leaves the policy.
        have hpolicy : expansion.spec.policy = w.st.spec.policy := by
          rw [hplanned.2.extended]
        show budgetExceeded expansion.spec.policy w.st.state.status.spentCents = false
        rw [hpolicy]
        exact hI
      | _ => exact hI
    | start => cases h <;> trivial
    | poll => trivial
  | @drain outcome | @cancelOperation outcome | @dropOperation outcome => cases outcome <;> trivial
  | _ => trivial

theorem Asks.budgeted {act : Act} {arrivals : Arrivals} (h : Asks E x w p act p')
    (hI : Budgeted w.st p) : Budgeted (asked w act arrivals).st p' := by
  cases h with
  | @node site _ _ _ _ _ h =>
    cases site with
    | settle => cases h <;> exact hI
    | start => cases h <;> trivial
    | poll => trivial
  | @controlled _ _ _ purpose | @controlFailed _ _ _ _ purpose => cases purpose <;> trivial
  | @drained outcome => cases outcome <;> trivial
  | _ => trivial

variable {bad : Err → Point} {ok : Point}

theorem Posts.budgeted (h : Posts E x w p spec event ok bad)
    (hposted : Posted E spec event w answer v) (hstaged : Staged w.st.stage p)
    (hsettled : LogMeets (settledOverspend · = false) v) (hI : Budgeted w.st p) :
    Budgeted v.st ok ∧ ∀ err, Budgeted v.st (bad err) := by
  cases h with
  | @node site _ _ _ _ _ h =>
    cases site with
    | settle =>
      have hwithin := hposted.within_settled hstaged hsettled hI
      exact ⟨hwithin, fun _ => hwithin⟩
    | start =>
      cases h with
      | capability | ready | inputResolved => exact ⟨hposted.within nofun hI, fun _ => trivial⟩
      | _ => exact ⟨trivial, fun _ => trivial⟩
    | poll => exact ⟨trivial, fun _ => trivial⟩
  | begun | blocked | resumed | retryApproved | retry | approved | conditions | skipped =>
    exact ⟨hposted.within nofun hI, fun _ => trivial⟩
  | @marked _ _ purpose =>
    cases purpose with
    | pause | resume => cases hI
    | _ => exact ⟨trivial, fun _ => trivial⟩
  | @ended purpose _ hends =>
    cases purpose with
    | pause | resume => cases hends
    | _ => exact ⟨trivial, fun _ => trivial⟩
  | _ => exact ⟨trivial, fun _ => trivial⟩

theorem reachable_budgeted (hfresh : input.continued = false) {c : Config}
    (hc : Reachable E input c) (hsettled : LogMeets (settledOverspend · = false) c.2) :
    Budgeted c.2.st c.1.2 := by
  refine reach_inv
    (fun hcontinued => absurd hcontinued (by rw [hfresh]; nofun)) (fun c d hc h hsettled hI => ?_)
    hc hsettled
  cases h with
  | skip h | ask h => exact h.budgeted hI
  | say h => exact h.budgeted (reachable_planned hc) hI
  | saved h hposted => exact (h.budgeted hposted (reachable_staged hc) hsettled hI).1
  | unsaved h hposted => exact (h.budgeted hposted (reachable_staged hc) hsettled hI).2 _
  | refuse => trivial
  | @begin _ _ w _ state _ _ hstate =>
    rcases reachable_begin hfresh hc hstate with ⟨rfl, -, rfl⟩ | ⟨⟨rfl, -⟩, hrestored, -⟩
    · exact budgetExceeded_zero _
    · show budgetExceeded w.st.spec.policy state.status.spentCents = false
      rw [hrestored.spent]
      exact hI rfl

/-! ## Success -/

def Successful (l : Locals) (p : Point) : Prop :=
  l.state.status.lifecycleState = .succeeded → p.final = true ∧ Within l

theorem Posts.succeeds (h : Posts E x w p spec event ok bad) (hkind : event.kind = .planSucceeded)
    (hscheduled : Scheduled w.st.spec p) (hbudgeted : Budgeted w.st p) :
    Within w.st ∧ ok.final = true ∧ ∀ err, (bad err).final = true := by
  cases h with
  | terminalBefore => exact ⟨hbudgeted, rfl, fun _ => rfl⟩
  | terminalAfter hbudget => exact ⟨hbudget, rfl, fun _ => rfl⟩
  | ended hends =>
    have hkinds := hends.kind_cases
    simp [hkind] at hkinds
  | node h =>
    have hplan := h.not_plan hscheduled.2.2
    rw [hkind] at hplan
    cases hplan
  | _ => cases hkind

theorem planSucceeded_of_lifecycle {kind : EventKind}
    (h : reducerPlanLifecycleForEvent kind = some .succeeded) : kind = .planSucceeded := by
  cases kind <;> first | rfl | cases h

theorem Posts.successful (h : Posts E x w p spec event ok bad)
    (hposted : Posted E spec event w answer v) (hscheduled : Scheduled w.st.spec p)
    (hbudgeted : Budgeted w.st p) (hI : Successful w.st p) :
    Successful v.st ok ∧ ∀ err, Successful v.st (bad err) := by
  have hrow : v.st.state.status.lifecycleState = .succeeded →
      Within v.st ∧ ok.final = true ∧ ∀ err, (bad err).final = true := by
    intro hsucceeded
    rcases hposted.lifecycle with hsame | hset
    · exact absurd (hI (hsame ▸ hsucceeded)).1 (by simp [h.not_final])
    rw [hsucceeded] at hset
    have hkind := planSucceeded_of_lifecycle hset
    obtain ⟨hwithin, hout⟩ := h.succeeds hkind hscheduled hbudgeted
    exact ⟨hposted.within (by rw [hkind]; nofun) hwithin, hout⟩
  exact ⟨fun hs => ⟨(hrow hs).2.1, (hrow hs).1⟩, fun err hs => ⟨(hrow hs).2.2 err, (hrow hs).1⟩⟩

section

variable {c : Config} (hfresh : input.continued = false) (hc : Reachable E input c)
  (hsettled : LogMeets (settledOverspend · = false) c.2)
include hfresh hc hsettled

theorem reachable_successful : Successful c.2.st c.1.2 := by
  refine reach_inv (C := (settledOverspend · = false))
    (fun hs => by cases hs) (fun c d hc h hsettled hI => ?_) hc hsettled
  have hbudgeted := reachable_budgeted hfresh hc (h.meets hsettled)
  cases h with
  | skip h => exact fun hs => ⟨h.final (hI hs).1, (hI hs).2⟩
  | say h | ask h =>
    intro hs
    obtain ⟨hfinal, hwithin⟩ := hI (h.quiet.2 ▸ hs)
    refine ⟨h.final hfinal, ?_⟩
    cases h <;> first | exact hwithin | cases hfinal
  | saved h hposted => exact (h.successful hposted (reachable_scheduled hc) hbudgeted hI).1
  | unsaved h hposted => exact (h.successful hposted (reachable_scheduled hc) hbudgeted hI).2 _
  | refuse =>
    intro hs
    cases (hI hs).1
  | @begin _ _ _ _ state _ _ hstate =>
    intro hs
    rcases reachable_begin hfresh hc hstate with ⟨-, -, rfl⟩ | ⟨⟨-, hgoes⟩, hrestored, -⟩
    · cases hs
    · rw [← hrestored.lifecycle, show state.status.lifecycleState = _ from hs] at hgoes
      cases hgoes

theorem reachable_overBudget : LogMeets (overBudget · = false) c.2 := by
  refine reach_inv (C := (settledOverspend · = false)) (fun _ hmem => by cases hmem)
    (fun c d hc h hsettled hI => ?_) hc hsettled
  have hsettled' := h.meets hsettled
  have hd : Reachable E input d := hc.tail h
  rintro ⟨l, act⟩ hmem
  cases act with
  | apply event =>
    rcases h.apply_mem hmem with
      hold | ⟨rfl, hframed, hstate, spec, posted, time, ok, bad, hrow, rfl, -⟩
    · exact hI _ hold
    have hstart : posted.kind = .nodeStarted → Within c.2.st := by
      intro hkind
      have hbudgeted := reachable_budgeted hfresh hc hsettled'
      obtain ⟨_, _, _, _, _, hpoint, -⟩ := hrow.start_point hkind (reachable_scheduled hc)
      rw [hpoint] at hbudgeted
      exact hbudgeted
    have hsuccess := reachable_successful hfresh hd hsettled
    unfold Successful Within at hsuccess
    rw [hframed.spec, hstate] at hsuccess
    simp only [overBudget, Bool.or_eq_false_iff, Bool.and_eq_false_iff, decide_eq_false_iff_not]
    constructor
    · exact Decidable.not_or_of_imp fun hkind => hstart hkind
    · exact Decidable.not_or_of_imp fun hs => (hsuccess hs).2
  | _ => rfl

end

/-- Budget enforcement for a new plan: no node is started over the budget, no event
makes a plan succeed over it, and no plan stands succeeded over it. -/
theorem budget_enforced (E : Host) (r : PlanRuntime) (spec : RunPlanSpec) (n : Nat)
    (hsettled : LogMeets (settledOverspend · = false) (planRun E (r.newPlanInput spec) n).world) :
    let w := (planRun E (r.newPlanInput spec) n).world
    LogMeets (overBudget · = false) w ∧ (w.st.state.status.lifecycleState = .succeeded →
        budgetExceeded w.st.spec.policy w.st.state.status.spentCents = false) := by
  obtain ⟨c, hreach, hat⟩ := planRun_path E (r.newPlanInput spec) n
  rw [← hat.world] at hsettled ⊢
  exact ⟨reachable_overBudget rfl hreach hsettled,
    fun hs => (reachable_successful rfl hreach hsettled hs).2⟩

/-- Nodes run as Nexus operations, and the operation of the run `ra` settles with the
given spend while the loop waits. -/
def settlingHost (spentCents : Int) : Host :=
  { calmHost with
    nexusNodeRuns := fun _ => true
    arrivals := fun w =>
      match w.log with
      | (_, .wait _) :: _ =>
          { settled :=
              [("ra", .ok { runID := "ra", lifecycleState := .succeeded, spentCents := spentCents })] }
      | _ => {} }

/-- Two nodes, one after the other, with a budget of five cents. -/
def budgetPlan : PlanWorkflowInput :=
  planOf [nativeNode "a" "ra", nativeNode "b" "rb"]
    [{ edgeID := "e", source := "a", target := "b" }] { budgetCents := 5 }

theorem budget_enforced_three :
    let w := (planRun (settlingHost 3) budgetPlan 6).world
    LogMeets (overBudget · = false) w ∧
      (w.st.state.status.lifecycleState = .succeeded →
        budgetExceeded w.st.spec.policy w.st.state.status.spentCents = false) :=
  budget_enforced (settlingHost 3) calmRuntime budgetPlan.spec 6 (by decide +kernel)

/-- The settle step takes a spend of nine cents, and the same iteration starts the
second node.  With the first node alone, the plan succeeds at nine cents. -/
theorem budget_exceeded :
    (planRun (settlingHost 9) budgetPlan 6).world.log.any overBudget = true ∧
    (planRun (settlingHost 9) (planOf [nativeNode "a" "ra"] [] { budgetCents := 5 }) 6).world.log.any
      overBudget = true := by
  decide +kernel

end AgentOS.Plan
