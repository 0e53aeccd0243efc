import AgentOS.Plan.Continuation
import AgentOS.Plan.Expansion
import AgentOS.Plan.Budget

/-!
# Ways out of the loop

An error that is returned from the loop, and not recorded as the failure of the plan, ends the
workflow with the plan as it is.  This module says which of these ways out are open in a run
whose persist and control activities succeed.
-/

namespace AgentOS.Plan

open Kit List

variable {E : Host} {input : PlanWorkflowInput} {x : Execution} {w v : World} {p p' : Point}
  {spec : RunPlanSpec} {event : StateEvent} {answer : Option Err} {e : Locals × Act}

/-! ## Events that the reducer takes -/

namespace State

variable {s : State} {nodeID : String}

section

variable (h : (s.nodeStatus nodeID).isSome = true) (now : Time)
  (change : PlanNodeStatus → PlanNodeStatus)
include h now change

theorem updateNode_none : (s.updateNode nodeID now change).2 = none := by
  obtain ⟨status, hstatus⟩ := Option.isSome_iff_exists.mp h
  rw [updateNode, show s.nodes.get? nodeID = some status from hstatus]

theorem updateNodeAndPlan_none (plan : RunPlanStatus → RunPlanStatus) :
    (s.updateNodeAndPlan nodeID now change plan).2 = none := by
  obtain ⟨status, hstatus⟩ := Option.isSome_iff_exists.mp h
  unfold updateNodeAndPlan
  rw [show s.nodes.get? nodeID = some status from hstatus]
  split_ifs <;> rfl

end

end State

theorem reduced_taken {time : Time} (hkind : event.kind ≠ .planExpanded)
    (hspent : event.kind = .budgetReported → 0 ≤ event.budgetDelta)
    (hknown : (w.st.state.nodeStatus event.nodeID).isSome = true) :
    (reduced w time event).2 = none := by
  have hnode := State.updateNode_none hknown
  have hplan := State.updateNodeAndPlan_none hknown
  unfold reduced State.apply
  cases hevent : event.kind <;>
    simp [stamped_kind, stamped_nodeID, hevent, reducerPlanLifecycleForEvent,
      reducerNodeLifecycleForEvent]
  case planExpanded => exact absurd hevent hkind
  case budgetReported =>
    unfold State.reportBudget
    split_ifs with hnegative
    · exact absurd (hspent hevent) (Int.not_le.mpr hnegative)
    · exact hplan _ _ _
  case nodeRetryScheduled => exact hnode _ _
  case nodeInputResolved => exact hplan _ _ _
  case capabilitySelected => exact hplan _ _ _
  case conditionsEvaluated => exact hplan _ _ _
  case artifactsPublished => exact hplan _ _ _
  all_goals exact hnode _ _

/-! ## Events that are lost -/

/-- A persist or a control activity fails. -/
def activityFailed : Locals × Act → Bool
  | (_, .persist _ _ _ _ (some _)) => true
  | (_, .controlNode _ _ (some _)) => true
  | _ => false

def overdrawnRun (l : Locals) (runID : String) : Bool :=
  match (l.nodeRuns.get? runID).bind PlanNodeRun.future with
  | some (.ok status) => status.lifecycleState.terminal && status.spentCents < 0
  | _ => false

/-- The settle step finds a negative spend or an expansion that is refused. -/
def settleFails : Locals × Act → Bool
  | (l, .removePromise runID) => l.stage = .settle && overdrawnRun l runID
  | (l, .evaluateExpansion _ (.error _)) => l.stage = .settle
  | (l, .apply event) =>
      l.stage = .settle && event.kind = .planExpanded && (l.state.apply event.at_ event).2.isSome
  | _ => false

def Smooth (e : Locals × Act) : Prop := activityFailed e = false ∧ settleFails e = false

theorem Smooth.kept (h : Smooth e) : lostExpansion e = false := by
  obtain ⟨l, act⟩ := e
  cases act with
  | persist _ _ _ _ answer =>
    cases answer with
    | none => rfl
    | some => cases h.1
  | _ => rfl

variable {err : Err} {bad : Err → Point} {ok : Point} {c : Config} {arrivals : Arrivals}

theorem Posted.refusal (h : Posted E spec event w (some err) v)
    (hsmooth : LogMeets Smooth v) (hscope : validateRunPlanScope spec = .ok ()) :
    ∃ time, (reduced w time event).2 = some err ∧
      (w.st, .apply (stamped w.st time event)) ∈ v.log := by
  cases h with
  | refused _ hrefused => exact ⟨_, hrefused, mem_cons_self⟩
  | unscoped _ _ hunscoped =>
    rw [hscope] at hunscoped
    cases hunscoped
  | answered => cases (hsmooth _ (mem_cons_of_mem _ mem_cons_self)).1

theorem Posted.not_lost (h : Posted E w.st.spec event w (some err) v) (hsmooth : LogMeets Smooth v)
    (hready : PlanReady w.st) (htaken : ∀ time, (reduced w time event).2 = none) : False := by
  obtain ⟨time, hrefused, -⟩ := h.refusal hsmooth (hready.1 ▸ hready.2.scope)
  rw [htaken time] at hrefused
  cases hrefused

theorem reduced_ending {time : Time}
    (hends : ∃ lifecycle, reducerPlanLifecycleForEvent event.kind = some lifecycle ∧
      lifecycle.terminal = true) : (reduced w time event).2 = none := by
  obtain ⟨lifecycle, hkind, -⟩ := hends
  exact reduced_none (.inl (by rw [hkind]; rfl))

/-! ## Points that stay in the loop -/

def Point.stays : Point → Bool
  | .leaving .done | .leaving (.error _) | .stopped (.guard _ _ _) _
  | .node .settle _ (.broken _) => false
  | _ => true

/-- What is known at a control point: the ways out of the settle step and of the guards are
closed. -/
def Unbroken (w : World) : Point → Prop
  | .stopped (.guard _ _ _) _ | .node .settle _ (.broken _) => False
  | .node .settle _ (.ended status) => 0 ≤ status.spentCents
  | .marking nodes _ => ∀ node ∈ nodes, node.nodeID ∈ w.st.spec.nodes.map PlanNodeSpec.nodeID
  | _ => True

section Rows

variable {node node' : PlanNodeSpec} {work work' : Work} {act : Act} {site : Site}

theorem NodeSkips.unbroken (h : NodeSkips E x node w work work')
    (hallows : site.Allows node work) (hattended : Attended w.st node work)
    (hI : Unbroken w (.node site node work)) : Unbroken w (.node site node work') := by
  cases site with
  | settle =>
    cases h with
    | unprepared | unlaunched => cases hallows
    | unknown hnone =>
      obtain ⟨status, hstatus, -⟩ := hattended
      rw [hnone] at hstatus
      cases hstatus
    | overdrawn hspent => exact Int.not_lt.mpr hI hspent
    | uncancelable => cases hallows.1
    | _ => trivial
  | start | poll => trivial

theorem NodeSays.unbroken (h : NodeSays x node w work act work')
    (hstage : AtStage w.st.stage (.node site node work)) (hact : settleFails (w.st, act) = false) :
    Unbroken (w.act Locals.step act) (.node site node work') := by
  cases site with
  | settle =>
    cases h with
    | promiseEnded hsettled hended =>
      have hstage : w.st.stage = .settle := hstage
      simp only [settleFails, hstage, overdrawnRun, hsettled, hended, decide_true, Bool.true_and,
        decide_eq_false_iff_not] at hact
      exact Int.not_lt.mp hact
    | _ => trivial
  | start | poll => trivial

theorem NodeAsks.unbroken (h : NodeAsks E node w work act node' work')
    (hallows : site.Allows node work) (hstage : AtStage w.st.stage (.node site node work))
    (hact : settleFails (w.st, act) = false) :
    Unbroken (asked w act arrivals) (.node site node' work') := by
  cases site with
  | settle =>
    cases h with
    | startEnded => cases hallows
    | statusEnded | cancelFailed => cases hallows.1
    | expansionRefused => simp [settleFails, show w.st.stage = .settle from hstage] at hact
    | _ => trivial
  | start | poll => trivial

theorem NodePosts.lost (h : NodePosts node w work spec event work')
    (hposted : Posted E spec event w (some err) v) (hsmooth : LogMeets Smooth v)
    (hplanned : Planned w (.node site node work)) (hallows : site.Allows node work)
    (hattended : Attended w.st node work) (hstage : AtStage w.st.stage (.node site node work)) :
    (Point.node site node (.broken err)).stays = true := by
  have hknown : ∀ {P}, HasStatus w.st node.nodeID P →
      (w.st.state.nodeStatus node.nodeID).isSome = true := by
    rintro P ⟨status, hstatus, -⟩
    rw [hstatus]
    rfl
  cases site with
  | start | poll => rfl
  | settle =>
    exfalso
    cases h with
    | capability | ready | inputResolved | started => cases hallows
    | budget hspent =>
      exact hposted.not_lost hsmooth hplanned fun _ =>
        reduced_taken nofun (fun _ => Int.le_of_lt hspent) (hknown hattended)
    | artifacts =>
      exact hposted.not_lost hsmooth hplanned fun _ =>
        reduced_taken nofun nofun (hknown hattended)
    | close =>
      obtain ⟨hcloses, hid⟩ := hallows
      refine hposted.not_lost hsmooth hplanned fun _ => reduced_taken ?_ ?_ (hid ▸ hknown hattended)
      · intro hkind
        simp [EventKind.closesNode, hkind] at hcloses
      · intro hkind
        simp [EventKind.closesNode, hkind] at hcloses
    | expansion =>
      have hscope := hplanned.2.validated.scope
      rw [hplanned.2.plan] at hscope
      obtain ⟨time, hrefused, hmem⟩ := hposted.refusal hsmooth hscope
      have hfails := (hsmooth _ hmem).2
      have hsome : (w.st.state.apply _ (stamped w.st time _)).2 = some err := hrefused
      simp [settleFails, show w.st.stage = .settle from hstage, hsome] at hfails

end Rows

theorem Posts.lost (hc : Reachable E input ((x, p), w)) (h : Posts E x w p spec event ok bad)
    (hposted : Posted E spec event w (some err) v) (hsmooth : LogMeets Smooth v)
    (hsynced : Synced w p) (hI : Unbroken w p) : (bad err).stays = true := by
  have hplanned := reachable_planned hc
  cases h with
  | tripped | failed | stalled =>
    exact (hposted.not_lost hsmooth hplanned fun _ => reduced_ending ⟨_, rfl, rfl⟩).elim
  | @marked node =>
    have hknown := (hsynced.knows node.nodeID).mpr (hI node mem_cons_self)
    exact (hposted.not_lost hsmooth hplanned fun _ => reduced_taken nofun nofun hknown).elim
  | ended hends =>
    exact (hposted.not_lost hsmooth hplanned fun _ => reduced_ending hends.terminal).elim
  | terminalBefore | terminalAfter =>
    exact (hposted.not_lost hsmooth hplanned fun _ =>
      reduced_ending (terminalPlanEvent_terminal _)).elim
  | conditions => exact (hposted.not_lost hsmooth hplanned fun _ => rfl).elim
  | skipped hopen =>
    obtain ⟨status, hstatus, -⟩ := nodeSchedulable_iff.mp hopen
    exact (hposted.not_lost hsmooth hplanned fun _ =>
      reduced_taken nofun nofun (Option.isSome_of_eq_some hstatus)).elim
  | @startFailed _ _ node =>
    obtain ⟨declared, hdeclared, hnode⟩ := (reachable_scheduled hc).1
    have hid : node.nodeID = declared.nodeID := by rw [hnode]
    have hknown := (hsynced.knows node.nodeID).mpr (hid ▸ mem_map_of_mem hdeclared)
    exact (hposted.not_lost hsmooth hplanned fun _ => reduced_taken nofun nofun hknown).elim
  | node h =>
    exact h.lost hposted hsmooth hplanned (reachable_scheduled hc).2.2 (reachable_attended hc)
      (reachable_atStage hc)
  | _ => rfl

theorem running_declared (hc : Reachable E input ((x, p), w)) (hlisted : w.st.state.Lists)
    (hknows : Knows w.st.spec w.st.state) {status : PlanNodeStatus}
    (hmem : status ∈ w.st.state.status.nodes) :
    status.nodeID ∈ w.st.spec.nodes.map PlanNodeSpec.nodeID := by
  rw [← hknows, State.nodeStatus_of_listed (reachable_named hc) hlisted hmem]
  rfl

theorem nodeByID_found {l : Locals} (hready : PlanReady l) {nodeID : String}
    (hdeclared : nodeID ∈ l.spec.nodes.map PlanNodeSpec.nodeID) :
    nodeByID l.validation nodeID ≠ .error err := by
  obtain ⟨node, hnode, rfl⟩ := mem_map.mp hdeclared
  rw [← hready.1] at hnode
  unfold nodeByID
  rw [(hready.2.nodes node.nodeID node).mpr ⟨hnode, rfl⟩]
  nofun

theorem guard_accepted (hfresh : input.continued = false) (hc : Reachable E input ((x, p), w))
    (hready : PlanReady w.st) (hlisted : w.st.state.Lists) {key : String}
    (hrefused : w.st.spec.planID = "" ∨
      controlInputs E w.st { operation := .cancel, idempotencyKey := key } = .error err) :
    False := by
  have habortable := reachable_abortable hfresh hc hready hlisted
  obtain ⟨inputs, hinputs⟩ := habortable.cancelInputs E key
  rcases hrefused with hempty | hrefused
  · exact planID_ne_of_scope habortable.scope hempty
  · rw [hinputs] at hrefused
    cases hrefused

theorem Skips.stays (hfresh : input.continued = false) (hc : Reachable E input ((x, p), w))
    (h : Skips E x w p p') (hsynced : Synced w p) (hI : Unbroken w p) :
    Unbroken w p' ∧ (p.stays = true → p.over = false → p'.stays = true) := by
  have hplanned := reachable_planned hc
  have hlisted := reachable_listed hc
  cases h with
  | settleUnknown hmem _ hnode =>
    exact (nodeByID_found hplanned (running_declared hc hlisted hsynced.knows hmem) hnode).elim
  | settleBroken => exact hI.elim
  | @node site _ _ work' h =>
    have hunbroken := h.unbroken (reachable_scheduled hc).2.2 (reachable_attended hc) hI
    refine ⟨hunbroken, fun _ _ => ?_⟩
    cases site with
    | settle =>
      cases work' with
      | broken => exact hunbroken.elim
      | _ => rfl
    | _ => rfl
  | command h =>
    cases h with
    | mark =>
      exact ⟨fun node hmem => running_declared hc hlisted hsynced.knows (mem_filter.mp hmem).1,
        fun _ _ => rfl⟩
    | guardRefused _ hguard hrefused =>
      cases hguard <;> exact (guard_accepted hfresh hc hplanned hlisted hrefused).elim
    | controlRefused hpurpose =>
      rcases ControlRequest.purpose_cases hpurpose with rfl | rfl | rfl <;>
        exact ⟨trivial, fun _ _ => rfl⟩
    | ended => exact ⟨trivial, fun _ hover => by cases hover⟩
    | stoppedGuard => exact hI.elim
    | _ => exact ⟨trivial, fun _ _ => rfl⟩
  | _ => exact ⟨trivial, fun _ _ => rfl⟩

theorem reachable_unbroken (hfresh : input.continued = false) (hzero : input.expansionCount = 0)
    (hc : Reachable E input c) (hsmooth : LogMeets Smooth c.2) : Unbroken c.2 c.1.2 := by
  refine reach_inv trivial ?_ hc hsmooth
  intro c d hc hmove hsmooth hI
  have hsynced : Synced c.2 c.1.2 := reachable_synced hfresh hzero hc fun e he =>
    (hmove.meets hsmooth e he).kept
  cases hmove with
  | skip h => exact (h.stays hfresh hc hsynced hI).1
  | say h =>
    cases h with
    | node h => exact h.unbroken (reachable_atStage hc) (hsmooth _ mem_cons_self).2
    | _ => trivial
  | ask h =>
    have hact := hsmooth _ (mem_cons_of_mem _ mem_cons_self)
    cases h with
    | node h => exact h.unbroken (reachable_scheduled hc).2.2 (reachable_atStage hc) hact.2
    | controlFailed => cases hact.1
    | _ => trivial
  | saved h hposted =>
    cases h with
    | marked =>
      intro node hmem
      rw [hposted.framed.spec]
      exact hI node (mem_cons_of_mem _ hmem)
    | @node site _ _ _ _ _ h => cases h <;> cases site <;> trivial
    | _ => trivial
  | unsaved h hposted =>
    have hlost := h.lost hc hposted hsmooth hsynced hI
    cases h with
    | @marked _ _ purpose | @ended purpose =>
      cases purpose with
      | guard => cases hlost
      | _ => trivial
    | @node site =>
      cases site with
      | settle => cases hlost
      | _ => trivial
    | _ => trivial
  | begin | refuse => trivial

end AgentOS.Plan
