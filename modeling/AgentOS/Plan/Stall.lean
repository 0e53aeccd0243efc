import AgentOS.Plan.Parallel
import AgentOS.Plan.Progress

/-!
# The plan loop does not stall

`finishPlanWorkflowIteration` fails a plan in which nothing progressed and nothing runs.  For a
validated plan whose nodes are those of the state this does not happen: a decision of the
scheduler then starts or skips a node, or a node runs.
-/

namespace AgentOS.Plan

open Kit List State

variable {E : Host} {input : PlanWorkflowInput} {x : Execution} {p p' : Point} {w v : World}
  {s : State} {c : Config}

theorem reachable_unblocked (hfresh : input.continued = false) (hc : Reachable E input c) :
    AllStatuses (fun _ _ status => status.lifecycleState ≠ .blocked) c.2.st := by
  refine reach_statuses hfresh (fun _ _ _ => nofun) (fun _ _ _ _ _ hstatus => hstatus)
    (fun _ _ _ hstatus => ?_) hc
  rw [changedNode_lifecycle]
  exact lifecycleAfter_unblocked hstatus

/-! ## A decision moves the plan -/

theorem State.listsNodes {plan : ExecutablePlan} (hplan : Validated plan)
    (hnamed : s.Named) (hlisted : s.Lists)
    (hknows : Knows plan.spec s) : ListsNodes plan s.status := by
  refine (perm_ext_iff_of_nodup (nodup_listed hnamed hlisted) hplan.nodup).mpr fun nodeID => ?_
  rw [mem_listedIDs hnamed hlisted, hknows nodeID]

def AnyRuns (s : State) : Prop := ∃ nodeID, s.runs nodeID = true

def Undone (s : State) (skipped : List SkippedNode) (ready : List PlanNodeSpec) : Prop :=
  (∃ node ∈ skipped, nodeSchedulable s node.nodeID = true) ∨
    ∃ node ∈ ready, nodeSchedulable s node.nodeID = true

theorem decided_moves (hfresh : input.continued = false)
    (hreach : Reachable E input ((x, .deciding), w)) (hknows : Knows w.st.spec w.st.state)
    (hopen : planNodesTerminal w.st.state.status = false) {decision : SchedulerDecision}
    (hdecision : E.scheduler.decide w.st.validation.plan w.st.state.status
      (planVariables w.st.spec w.st.state.status) = .ok decision) :
    AnyRuns w.st.state ∨ Undone w.st.state decision.skipped decision.ready := by
  have hready : PlanReady w.st := reachable_planned hreach
  have hlisted : w.st.state.Lists := reachable_listed hreach
  have hlists := listsNodes hready.2 (reachable_named hreach) hlisted (hready.1.symm ▸ hknows)
  have hlookup := fun status (hmem : status ∈ w.st.state.status.nodes) =>
    nodeStatus_of_listed (reachable_named hreach) hlisted hmem
  by_cases hruns : AnyRuns w.st.state
  · exact .inl hruns
  refine .inr ?_
  have hidle : ∀ status ∈ w.st.state.status.nodes,
      status.lifecycleState ≠ .running ∧ status.lifecycleState ≠ .blocked :=
    fun status hmem => ⟨fun hrunning => hruns ⟨status.nodeID,
        runs_iff.mpr ⟨status, hlookup status hmem, hrunning⟩⟩,
      reachable_unblocked hfresh hreach _ status (hlookup status hmem)⟩
  have hleft : ∃ status ∈ w.st.state.status.nodes,
      status.lifecycleState = .pending ∨ status.lifecycleState = .ready := by
    have hne : w.st.state.status.nodes ≠ [] := by
      intro hnil
      have hperm := hlists.length_eq
      rw [hnil, length_map, length_map] at hperm
      exact hready.2.populated (length_eq_zero_iff.mp hperm.symm)
    obtain ⟨status, hmem, hterminal⟩ : ∃ status ∈ w.st.state.status.nodes,
        status.lifecycleState.terminal = false := by
      simpa [planNodesTerminal, hne] using hopen
    obtain ⟨hrunning, -⟩ := hidle status hmem
    refine ⟨status, hmem, ?_⟩
    cases hstate : status.lifecycleState <;> simp_all [NodeLifecycle.terminal]
  have hschedulable : ∀ nodeID, Scheduler.openNode
      (((statusByNode w.st.state.status).get? nodeID).map PlanNodeStatus.lifecycleState) →
      nodeSchedulable w.st.state nodeID = true := by
    intro nodeID hstate
    have hsome : ∃ status, (statusByNode w.st.state.status).get? nodeID = some status ∧
        (status.lifecycleState = .pending ∨ status.lifecycleState = .ready) := by
      simpa [Scheduler.openNode, ← exists_or, ← and_or_left] using hstate
    obtain ⟨status, hstatus, hleft⟩ := hsome
    obtain ⟨hmem, rfl⟩ :=
      (statusByNode_get (hlists.nodup_iff.mpr hready.2.nodup) nodeID status).mp hstatus
    exact nodeSchedulable_iff.mpr ⟨status, hlookup status hmem, hleft⟩
  rcases acts_of_decide hready.2 hlists hleft hidle hdecision with hacts | hacts
  · obtain ⟨node, hnode⟩ := exists_mem_of_ne_nil _ hacts
    exact .inr ⟨node, hnode, hschedulable _ (decide_ready hready.2 hdecision hnode).2.1⟩
  · obtain ⟨node, hnode⟩ := exists_mem_of_ne_nil _ hacts
    exact .inl ⟨node, hnode, hschedulable _ (decide_skipped hready.2 hdecision hnode).1⟩

/-! ## An iteration that did nothing -/

def Moving (s : State) : Point → Prop
  | .deciding => planNodesTerminal s.status = false
  | .decided decision => AnyRuns s ∨ Undone s decision.skipped decision.ready
  | .skipping rest ready acted => acted = true ∨ AnyRuns s ∨ Undone s rest ready
  | .starting capacity rest acted =>
      acted = true ∨ AnyRuns s ∨ 0 < capacity ∧ Undone s [] rest
  | .started acted | .polling acted | .closing acted | .unfinished acted | .finishing acted
  | .node (.poll acted) _ (.running ..) => acted = true ∨ AnyRuns s
  | .node (.poll acted) _ (.over progressed) => acted = true ∨ progressed = true ∨ AnyRuns s
  | _ => True

section Undone

variable {s : State} {skipped : List SkippedNode} {ready : List PlanNodeSpec}

theorem Undone.of_skipped {node : SkippedNode} (h : Undone s (node :: skipped) ready)
    (hnot : nodeSchedulable s node.nodeID = false) : Undone s skipped ready := by
  refine h.imp_left fun hleft => ?_
  rw [exists_mem_cons_iff, hnot] at hleft
  exact hleft.resolve_left nofun

theorem Undone.of_ready {node : PlanNodeSpec} (h : Undone s skipped (node :: ready))
    (hnot : nodeSchedulable s node.nodeID = false) : Undone s skipped ready := by
  refine h.imp_right fun hleft => ?_
  rw [exists_mem_cons_iff, hnot] at hleft
  exact hleft.resolve_left nofun

theorem not_undone_nil : ¬ Undone s [] [] := by
  rintro (⟨_, hmem, -⟩ | ⟨_, hmem, -⟩) <;> cases hmem

theorem Undone.congr {s' : State} (h : Undone s skipped ready)
    (hlookup : ∀ nodeID, s'.nodeStatus nodeID = s.nodeStatus nodeID) : Undone s' skipped ready := by
  simpa only [Undone, nodeSchedulable, hlookup] using h

theorem AnyRuns.congr {s' : State} (h : AnyRuns s)
    (hlookup : ∀ nodeID, s'.nodeStatus nodeID = s.nodeStatus nodeID) : AnyRuns s' := by
  simpa only [AnyRuns, runs, hlookup] using h

end Undone

theorem capacity_pos (hlisted : w.st.state.Lists)
    (hmax : 0 < x.runtime.maxParallel) (hidle : ¬ AnyRuns w.st.state) :
    0 < x.runtime.maxParallel - runningNodeCount w.st.state.status := by
  have hnone : runningIDs w.st.state = [] :=
    eq_nil_iff_forall_not_mem.mpr fun nodeID hmem => hidle ⟨nodeID, mem_runningIDs.mp hmem⟩
  rw [runningNodeCount_eq hlisted, hnone]
  simpa using hmax

variable {spec : RunPlanSpec} {event : StateEvent} {bad : Err → Point} {ok : Point}

section Rows

variable {node node' : PlanNodeSpec} {work work' : Work} {act : Act} {site : Site}
  {answer : Option Err}

theorem NodeSkips.moving (h : NodeSkips E x node w work work')
    (hI : Moving w.st.state (.node site node work)) :
    Moving w.st.state (.node site node work') := by
  cases site with
  | poll acted =>
    cases h with
    | pending => exact hI.imp_right .inr
    | unfinished => exact .inr (.inl rfl)
    | _ => trivial
  | _ => trivial

theorem NodeSays.moving (h : NodeSays x node w work act work')
    (hI : Moving s (.node site node work)) : Moving s (.node site node work') := by
  cases site with
  | poll acted =>
    cases h with
    | promiseLive => exact hI.imp_right .inr
    | launched => exact .inr (.inl rfl)
    | _ => trivial
  | _ => trivial

theorem NodeAsks.moving (h : NodeAsks E node w work act node' work')
    (hI : Moving s (.node site node work)) : Moving s (.node site node' work') := by
  cases site with
  | poll acted =>
    cases h with
    | statusLive => exact hI.imp_right .inr
    | startLive => exact .inr (.inl rfl)
    | _ => trivial
  | _ => trivial

theorem NodePosts.moving
    (h : NodePosts node w work spec event work') : Moving s (.node site node work') := by
  cases site with
  | poll acted =>
    cases h with
    | close => exact .inr (.inl rfl)
    | _ => trivial
  | _ => trivial

theorem Skips.moving (h : Skips E x w p p') (hmax : 0 < x.runtime.maxParallel)
    (hlisted : Listed w p) (hI : Moving w.st.state p) : Moving w.st.state p' := by
  cases h with
  | node h => exact h.moving hI
  | unconditioned => exact .inr hI
  | unskipped hopen => exact hI.imp_right (Or.imp_right fun hundone => hundone.of_skipped hopen)
  | skipped =>
    refine hI.imp_right fun hleft => ?_
    by_cases hidle : AnyRuns w.st.state
    · exact .inl hidle
    · exact .inr ⟨capacity_pos hlisted hmax hidle, hleft.resolve_left hidle⟩
  | full hfull =>
    exact hI.imp_right fun hleft =>
      hleft.resolve_right fun hroom => absurd hroom.1 (Int.not_lt.mpr hfull)
  | unstarted hopen =>
    exact hI.imp_right (Or.imp_right (And.imp_right fun hundone => hundone.of_ready hopen))
  | started =>
    exact hI.imp_right fun hleft => hleft.resolve_right fun hroom => not_undone_nil hroom.2
  | startWithin => exact .inl rfl
  | pollNode | polled | unfinished => exact hI
  | @pollOver acted progressed =>
    show (acted || progressed) = true ∨ AnyRuns w.st.state
    rw [Bool.or_eq_true, or_assoc]
    exact hI
  | command h =>
    cases h with
    | endedGuardStart => exact .inl rfl
    | guard hguard | guardRefused _ hguard => cases hguard <;> trivial
    | _ => trivial
  | _ => trivial

theorem Posted.lookup_conditions {traces : List ConditionEvaluationTrace}
    (h : Posted E spec { kind := .conditionsEvaluated, conditionTraces := traces } w answer v)
    (nodeID : String) : v.st.state.nodeStatus nodeID = w.st.state.nodeStatus nodeID := by
  obtain ⟨_, _, _, _, _, _, happlied | ⟨_, hfailed⟩⟩ := h.effect
  · rw [happlied.lookup, nodeAfter, if_neg (by rintro ⟨⟩)]
    split_ifs
    · cases w.st.state.nodeStatus nodeID <;> rfl
    · rfl
  · unfold nodeStatus
    rw [hfailed.nodes (by rintro ⟨⟩)]

theorem Posts.moving (h : Posts E x w p spec event ok bad)
    (hposted : Posted E spec event w answer v) (hI : Moving w.st.state p) :
    Moving v.st.state ok ∧ ∀ err, Moving v.st.state (bad err) := by
  cases h with
  | conditions =>
    refine ⟨.inr (hI.imp (fun hruns => ?_) fun hundone => ?_), fun _ => trivial⟩
    · exact hruns.congr hposted.lookup_conditions
    · exact hundone.congr hposted.lookup_conditions
  | skipped => exact ⟨.inl rfl, fun _ => trivial⟩
  | @node site _ _ _ _ _ h => exact ⟨h.moving, fun _ => by cases site <;> trivial⟩
  | _ => exact ⟨trivial, fun _ => trivial⟩

end Rows

theorem reachable_moving (hfresh : input.continued = false) (hzero : input.expansionCount = 0)
    (hc : Reachable E input c) (hlost : LogMeets (lostExpansion · = false) c.2) :
    Moving c.2.st.state c.1.2 := by
  refine reach_inv (C := (lostExpansion · = false)) trivial (fun c d hc h hlost hI => ?_) hc hlost
  have hsynced : Synced c.2 c.1.2 :=
    reachable_synced hfresh hzero hc (h.meets hlost)
  cases h with
  | skip h =>
    refine h.moving ?_ (reachable_listed hc) hI
    rw [reachable_maxParallel hc]
    exact parallelism_pos _
  | say h =>
    show Moving (Locals.step _ _).state _
    rw [h.quiet.2]
    cases h with
    | decide hopen => exact hopen
    | start hdecision => exact decided_moves hfresh hc hsynced.knows hI hdecision
    | node h => exact h.moving hI
    | poll | finish => exact hI
    | _ => trivial
  | ask h =>
    show Moving (asked _ _ _).st.state _
    rw [show (asked _ _ _).st.state = _ from h.quiet.2]
    cases h with
    | node h => exact h.moving hI
    | _ => trivial
  | saved h hposted => exact (h.moving hposted hI).1
  | unsaved h hposted => exact (h.moving hposted hI).2 _
  | begin | refuse => trivial

/-! ## The finish step -/

/-- The plan is failed because it can not go on: an event of the finish step. -/
def stalls : Locals × Act → Bool
  | (l, .apply event) => l.stage = .finish && event.kind = .planFailed
  | _ => false

theorem Purpose.stage_ne_finish (purpose : Purpose) : purpose.stage ≠ .finish := by
  cases purpose with
  | guard site => cases site <;> nofun
  | _ => nofun

theorem Posts.finish_point (h : Posts E x w p spec event ok bad) (hstage : AtStage .finish p) :
    p = .finishing false ∧ runningNodeCount w.st.state.status = 0 := by
  cases h with
  | stalled hidle => exact ⟨rfl, hidle⟩
  | @node site => cases site <;> cases hstage
  | marked | ended => exact absurd hstage.symm (Purpose.stage_ne_finish _)
  | failed => rcases hstage with h | h | h | h <;> cases h
  | _ => cases hstage

theorem Posts.unstalled {final : StateEvent} (h : Posts E x w p spec event ok bad)
    (hstage : AtStage w.st.stage p) (hlisted : Listed w p) (hmoving : Moving w.st.state p) :
    stalls (w.st, .apply final) = false := by
  by_cases hfinish : w.st.stage = .finish
  · rw [hfinish] at hstage
    obtain ⟨rfl, hidle⟩ := h.finish_point hstage
    obtain ⟨nodeID, hruns⟩ := hmoving.resolve_left nofun
    rw [runningNodeCount_eq hlisted] at hidle
    have hnil : runningIDs w.st.state = [] := length_eq_zero_iff.mp (Int.ofNat_eq_zero.mp hidle)
    have hmem := mem_runningIDs.mpr hruns
    rw [hnil] at hmem
    cases hmem
  · simp [stalls, hfinish]

theorem reachable_unstalled (hfresh : input.continued = false) (hzero : input.expansionCount = 0)
    (hc : Reachable E input c) (hlost : LogMeets (lostExpansion · = false) c.2) :
    LogMeets (stalls · = false) c.2 := by
  refine reach_inv (C := (lostExpansion · = false))
    (fun _ he => by cases he) (fun c d hc h hlost hI e he => ?_) hc hlost
  obtain ⟨l, act⟩ := e
  cases act with
  | apply event =>
    rcases h.apply_mem he with hold | ⟨rfl, -, -, spec, posted, time, ok, bad, hrow, -⟩
    · exact hI _ hold
    · exact hrow.unstalled (reachable_atStage hc) (reachable_listed hc)
        (reachable_moving hfresh hzero hc (h.meets hlost))
  | _ => rfl

/-- The progress of the scheduler, and of the plan loop over all executions of a new plan.  The
finish step never fails the plan for want of a node to run. -/
theorem scheduler_progress (spec : RunPlanSpec) :
    (∀ (v : Validator) (s : Scheduler) (plan : ExecutablePlan)
      (status : RunPlanStatus) (vars : Vars), v.validate spec = .ok plan →
      ListsNodes plan status → ConditionsEvaluate s plan vars →
      (∃ node ∈ status.nodes, node.lifecycleState = .pending ∨ node.lifecycleState = .ready) →
      (∀ node ∈ status.nodes, node.lifecycleState ≠ .running) →
      (∀ node ∈ status.nodes, node.lifecycleState ≠ .blocked) →
      ∃ decision, s.decide plan status vars = .ok decision ∧
        (decision.ready ≠ [] ∨ decision.skipped ≠ [])) ∧
    ∀ (E : Host) (r : PlanRuntime) (n : Nat),
      LogMeets (lostExpansion · = false) (planRun E (r.newPlanInput spec) n).world →
      LogMeets (stalls · = false) (planRun E (r.newPlanInput spec) n).world := by
  refine ⟨fun v s plan status vars hvalid hlists hcond hopen hidle hblocked => ?_,
    fun E r n hlost => ?_⟩
  · have hplan := (Validator.validate_ok hvalid).2
    obtain ⟨decision, hdecision⟩ := decide_total hplan hlists hcond
    exact ⟨decision, hdecision, acts_of_decide hplan hlists hopen
      (fun node hnode => ⟨hidle node hnode, hblocked node hnode⟩) hdecision⟩
  · obtain ⟨c, hreach, hat⟩ := planRun_path E (r.newPlanInput spec) n
    rw [← hat.world] at hlost ⊢
    exact reachable_unstalled rfl rfl hreach hlost

/-- The statuses of a plan of two nodes of which the second has not run. -/
def chainStatus (first : NodeLifecycle) : RunPlanStatus where
  planID := "p"
  nodes := [{ nodeID := "a", lifecycleState := first }, { nodeID := "b" }]

theorem scheduler_progress_chain :
    (∃ plan, openValidator.validate chainPlan.spec = .ok plan ∧
      ∃ decision, calmHost.scheduler.decide plan (chainStatus .failed)
        (planVariables chainPlan.spec (chainStatus .failed)) = .ok decision ∧
        (decision.ready ≠ [] ∨ decision.skipped ≠ [])) ∧
      LogMeets (stalls · = false) (planRun (expandingHost false) chainPlan 6).world := by
  have hvalid : ∃ plan, openValidator.validate chainPlan.spec = .ok plan := ⟨_, rfl⟩
  obtain ⟨plan, hvalid⟩ := hvalid
  have hspec := (Validator.validate_ok hvalid).1
  refine ⟨⟨plan, hvalid, (scheduler_progress chainPlan.spec).1 openValidator calmHost.scheduler plan
      (chainStatus .failed) _ hvalid ?_ ⟨?_, ?_⟩ (by decide) (by decide) (by decide)⟩,
    (scheduler_progress chainPlan.spec).2 (expandingHost false) calmRuntime 6 (by decide +kernel)⟩
  · rw [ListsNodes, hspec]
    decide
  · have hnone : ∀ node ∈ chainPlan.spec.nodes, node.conditions = [] := by decide
    intro node hnode
    rw [hnone node (hspec ▸ hnode)]
    nofun
  · have hnone : ∀ edge ∈ chainPlan.spec.edges, edge.condition = "" := by decide
    intro edge hedge
    rw [hnone edge (hspec ▸ hedge)]
    exact ⟨true, rfl⟩

/-- The event of an expansion can not be saved in the start step, and the plan then waits for a
node that it does not have until the finish step fails it.  And a status with a blocked node
holds up the scheduler. -/
theorem scheduler_stalls :
    (planRun (expandingHost true) (planOf [nativeNode "a" "ra"]) 6).world.log.any stalls = true ∧
      (do
        let plan ← (openValidator.validate chainPlan.spec).toOption
        let decision ← (calmHost.scheduler.decide plan (chainStatus .blocked)
          (planVariables chainPlan.spec (chainStatus .blocked))).toOption
        some (decision.ready.length, decision.skipped.length)) = some (0, 0) :=
  ⟨by decide +kernel, by decide +kernel⟩

end AgentOS.Plan
