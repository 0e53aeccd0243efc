import AgentOS.Plan.Reach

/-!
# Expansion of a plan

A run may add nodes and edges to the plan.  The expansion is validated with the whole plan
before its event is applied, and the spec is replaced after the event is saved.
-/

namespace AgentOS.Plan

open Kit List State SortedMap

variable {E : Host} {input : PlanWorkflowInput} {x : Execution} {p p' : Point} {w v : World}

/-! ## The edges of a validated plan -/

def Precedes (spec : RunPlanSpec) (a b : String) : Prop :=
  ∃ edge ∈ spec.edges, edge.source = a ∧ edge.target = b

variable {plan : ExecutablePlan}

theorem Validated.acyclic (h : Validated plan) (a : String) :
    ¬ Relation.TransGen (Precedes plan.spec) a a :=
  Forward.acyclic h.ordered (fun edge hedge => h.order.mem_iff.mpr (h.ends edge hedge).2) a

theorem Validated.mem_order (h : Validated plan) {node : PlanNodeSpec}
    (hnode : node ∈ plan.spec.nodes) : node.nodeID ∈ plan.order := by
  rw [h.order.mem_iff, SortedMap.mem_keys_iff, (h.nodes node.nodeID node).mpr ⟨hnode, rfl⟩]
  rfl

/-! ## The nodes of the state -/

def Knows (spec : RunPlanSpec) (s : State) : Prop :=
  ∀ nodeID, (s.nodeStatus nodeID).isSome = true ↔ nodeID ∈ spec.nodes.map PlanNodeSpec.nodeID

/-- An event that expands the plan. -/
def expands : Locals × Act → Bool
  | (l, .apply event) =>
      event.kind = .planExpanded && (l.state.apply event.at_ event).2.isNone
  | _ => false

/-- The event of an expansion is not saved in the start step. -/
def lostExpansion : Locals × Act → Bool
  | (l, .persist _ _ event _ (some _)) => event.kind = .planExpanded && l.stage = .start
  | _ => false

structure Grown (count : Int) (spec : RunPlanSpec) (w : World) : Prop where
  knows : Knows spec w.st.state
  counted : (w.log.countP expands : Int) = count

/-- Where the state and the expansion count agree with the spec.  The loop does not come back
from the other points. -/
def Synced (w : World) : Point → Prop
  | .begin _ => (w.log.countP expands : Int) = w.st.expansionCount
  | .refused _ | .failing _ | .leaving (.error _) | .returned _
  | .node .settle _ (.broken _) | .node (.poll _) _ (.broken _) => True
  | .node _ _ (.expanded _ expansion) => Grown (w.st.expansionCount + 1) expansion.spec w
  | _ => Grown w.st.expansionCount w.st.spec w

variable {known : RunPlanSpec} {s : State}

section Events

variable {spec : RunPlanSpec} {event : StateEvent} {answer : Option Err} {count : Int}

theorem expands_silent {tail : List (Locals × Act)} (h : ∀ e ∈ tail, e.2.silent) :
    tail.countP expands = 0 := by
  refine countP_eq_zero.mpr fun e he => ?_
  obtain ⟨l, act⟩ := e
  cases act with
  | apply event => exact (h _ he).elim
  | _ => nofun

section

variable (h : Posted E spec event w answer v) (hkind : event.kind ≠ .planExpanded)
include h hkind

theorem Posted.knows (hknows : Knows known w.st.state) : Knows known v.st.state := by
  intro nodeID
  rw [← hknows nodeID]
  obtain ⟨_, _, _, _, _, _, happlied | ⟨_, hfailed⟩⟩ := h.effect
  · rw [happlied.lookup, nodeAfter, stamped_kind, if_neg hkind]
    split_ifs
    · rw [Option.isSome_map]
    · rfl
  · unfold nodeStatus
    rw [hfailed.nodes hkind]

theorem Posted.countP_expands : v.log.countP expands = w.log.countP expands := by
  obtain ⟨time, _, tail, _, hlog, hsilent, _⟩ := h.effect
  have hentry : expands (w.st, .apply (stamped w.st time event)) = false := by
    simp [expands, hkind]
  rw [hlog, countP_append, expands_silent hsilent, countP_cons_of_neg (by simp [hentry]),
    Nat.zero_add]

theorem Posted.grown (hgrown : Grown w.st.expansionCount w.st.spec w) :
    Grown v.st.expansionCount v.st.spec v := by
  rw [h.framed.expansionCount, h.framed.spec]
  exact ⟨h.knows hkind hgrown.knows, by rw [h.countP_expands hkind]; exact hgrown.counted⟩

end

theorem State.expandNodes_none (now : Time) {added : List PlanNodeSpec} {nodes : NodeMap}
    (hfresh : ∀ node ∈ added, node.nodeID ≠ "" ∧ nodes.get? node.nodeID = none)
    (hnodup : (added.map PlanNodeSpec.nodeID).Nodup) : (expandNodes now nodes added).2 = none := by
  induction added generalizing nodes with
  | nil => rfl
  | cons node rest ih =>
    obtain ⟨hnot, hrest⟩ := nodup_cons.mp hnodup
    obtain ⟨hnamed, hnone⟩ := hfresh node mem_cons_self
    have hthere : nodes.contains node.nodeID = false := by
      rw [SortedMap.contains, hnone]
      rfl
    rw [expandNodes, if_neg hnamed, if_neg (by simp [hthere])]
    refine ih (fun later hlater => ?_) hrest
    obtain ⟨hnamed', hnone'⟩ := hfresh later (mem_cons_of_mem _ hlater)
    refine ⟨hnamed', ?_⟩
    rw [get?_insert_ne]
    · exact hnone'
    · intro hid
      exact hnot (hid ▸ mem_map_of_mem hlater)

theorem State.expand_refused {delta : PlanDelta} {now : Time} {err : Err}
    (hfresh : ∀ node ∈ delta.nodes, node.nodeID ≠ "" ∧ s.nodes.get? node.nodeID = none)
    (hnodup : (delta.nodes.map PlanNodeSpec.nodeID).Nodup)
    (h : (s.expand delta now).2 = some err) : (s.expand delta now).1 = s := by
  have hnone := expandNodes_none now hfresh hnodup
  unfold expand at h ⊢
  split_ifs at h ⊢ with hempty
  · rfl
  split at h
  · next hadded =>
    rw [hadded] at hnone
    cases hnone
  · cases h

variable {expansion : PlanExpansion}

theorem Expands.fresh (h : Expands known count expansion) (hknows : Knows known s) :
    (∀ node ∈ expansion.delta.nodes, node.nodeID ≠ "" ∧ s.nodes.get? node.nodeID = none) ∧
      (expansion.delta.nodes.map PlanNodeSpec.nodeID).Nodup := by
  have hnodup := h.validated.nodup
  have hnamed := h.validated.named
  rw [h.plan, h.extended] at hnodup hnamed
  rw [map_append] at hnodup
  refine ⟨fun node hnode => ⟨(hnamed node (mem_append_right _ hnode)).1, ?_⟩,
    hnodup.of_append_right⟩
  by_contra hsome
  exact disjoint_of_nodup_append hnodup
    ((hknows node.nodeID).mp (Option.isSome_iff_ne_none.mpr hsome)) (mem_map_of_mem hnode)

theorem Posted.expanded (h : Posted E spec event w none v) (hkind : event.kind = .planExpanded)
    (hdelta : event.expansion = expansion.delta)
    (hexpands : Expands w.st.spec w.st.expansionCount expansion)
    (hgrown : Grown count w.st.spec w) : Grown (count + 1) expansion.spec v := by
  constructor
  · intro nodeID
    obtain ⟨_, _, _, _, happlied⟩ := h.applied
    rw [happlied.lookup, nodeAfter, stamped_kind, if_pos hkind, Option.isSome_or,
      Bool.or_eq_true, hgrown.knows nodeID, hexpands.extended,
      Option.isSome_map, find?_isSome]
    show _ ∨ (∃ node ∈ event.expansion.nodes, _) ↔ _
    rw [hdelta]
    simp
  · cases h with
    | @answered time _ _ _ _ _ happlied =>
      have hentry : expands (w.st, .apply (stamped w.st time event)) = true := by
        have hnone : (w.st.state.apply (stamped w.st time event).at_ (stamped w.st time event)).2 =
          none := happlied
        simp [expands, hkind, hnone]
      show ((countP expands
        (_ :: _ :: (w.st, .apply (stamped w.st time event)) :: w.log) : Nat) : Int) = count + 1
      rw [countP_cons_of_neg (by simp [expands]), countP_cons_of_neg (by simp [expands]),
        countP_cons_of_pos hentry]
      have hcounted := hgrown.counted
      omega

theorem Posted.unexpanded {err : Err} (h : Posted E expansion.spec event w (some err) v)
    (hkind : event.kind = .planExpanded) (hdelta : event.expansion = expansion.delta)
    (hexpands : Expands w.st.spec w.st.expansionCount expansion) (hstage : w.st.stage = .start)
    (hlost : LogMeets (lostExpansion · = false) v)
    (hgrown : Grown count w.st.spec w) : Grown count w.st.spec v := by
  obtain ⟨hfresh, hnodup⟩ := hexpands.fresh hgrown.knows
  cases h with
  | @refused time _ _ hrefused =>
    have happly : w.st.state.apply (stamped w.st time event).at_ (stamped w.st time event) =
        w.st.state.expand expansion.delta
          (eventTime (stamped w.st time event).at_ (stamped w.st time event)) := by
      rw [← hdelta]
      simp only [apply, stamped_kind, hkind]
      rfl
    have hstate : (reduced w time event).1 = w.st.state := by
      unfold reduced at hrefused ⊢
      rw [happly] at hrefused ⊢
      exact expand_refused hfresh hnodup hrefused
    have hentry : ¬ expands (w.st, .apply (stamped w.st time event)) = true := by
      have hsome : (w.st.state.apply (stamped w.st time event).at_ (stamped w.st time event)).2 =
        some err := hrefused
      simp [expands, hsome]
    constructor
    · show Knows w.st.spec (reduced w time event).1
      rw [hstate]
      exact hgrown.knows
    · show ((countP expands ((w.st, .apply (stamped w.st time event)) :: w.log) : Nat) : Int) =
        count
      rw [countP_cons_of_neg hentry]
      exact hgrown.counted
  | unscoped _ _ hscope =>
    have hvalid := hexpands.validated.scope
    rw [hexpands.plan, hscope] at hvalid
    cases hvalid
  | answered _ _ _ hfinal =>
    have hfalse := hlost _ (mem_cons_of_mem _ mem_cons_self)
    simp only [lostExpansion, hfinal, hkind, decide_true, Bool.true_and, decide_eq_false_iff_not]
      at hfalse
    exact absurd hstage hfalse

end Events

/-! ## Runs -/

variable {spec : RunPlanSpec} {count : Int} {c : Config} {next : PlanWorkflowInput}
  {event : StateEvent}

theorem Posts.expansion_point {ok : Point} {bad : Err → Point}
    (h : Posts E x w p spec event ok bad) (hscheduled : Scheduled w.st.spec p) :
    event.kind ≠ .planExpanded ∨ ∃ site node status expansion,
      p = .node site node (.expanding status expansion) ∧
      ok = .node site node (.expanded status expansion) ∧
      (bad = fun err => .node site node (.broken err)) ∧
      spec = expansion.spec ∧ event.kind = .planExpanded ∧ event.expansion = expansion.delta := by
  by_cases hkind : event.kind = .planExpanded
  · refine .inr ?_
    cases h with
    | ended hends => exact absurd hkind (hends.ne rfl)
    | terminalBefore | terminalAfter => exact absurd hkind (terminalPlanEvent_ne rfl)
    | node h =>
      cases h with
      | expansion => exact ⟨_, _, _, _, rfl, rfl, rfl, rfl, rfl, rfl⟩
      | close =>
        have hcloses := hscheduled.2.2.closes.1
        simp [EventKind.closesNode, hkind] at hcloses
      | _ => cases hkind
    | _ => cases hkind
  · exact .inl hkind

theorem maxExpansions_range (policy : PlanPolicy) :
    0 ≤ (normalizePolicy policy).maxExpansions ∧ (normalizePolicy policy).maxExpansions < 2 ^ 31 := by
  have hrange : int32 policy.maxExpansions < 2 ^ 31 := by
    unfold int32
    have h := @Int.bmod_lt policy.maxExpansions (2 ^ 32) (by omega)
    omega
  show 0 ≤ limitOr defaultMaxExpansions policy.maxExpansions ∧
    limitOr defaultMaxExpansions policy.maxExpansions < 2 ^ 31
  unfold limitOr
  split_ifs
  · exact ⟨by decide, by decide⟩
  · exact ⟨by omega, hrange⟩

theorem Expands.int32_succ {expansion : PlanExpansion}
    (h : Expands spec count expansion) (hnonneg : 0 ≤ count) : int32 (count + 1) = count + 1 := by
  have hless := h.count
  have hmax := (maxExpansions_range spec.policy).2
  exact int32_eq_self (by omega) (by omega)

theorem reachable_expansionCount (hzero : input.expansionCount = 0) (hc : Reachable E input c) :
    0 ≤ c.2.st.expansionCount ∧
      c.2.st.expansionCount ≤ (normalizePolicy c.2.st.spec.policy).maxExpansions := by
  refine reach_always ?_ (fun c d hc h hI => ?_) hc
  · show 0 ≤ input.expansionCount ∧ input.expansionCount ≤ _
    rw [hzero]
    exact ⟨le_rfl, (maxExpansions_range _).1⟩
  · cases h with
    | skip | refuse => exact hI
    | say h =>
      have hplanned := reachable_planned hc
      cases h with
      | node h =>
        cases h with
        | @adopted _ expansion =>
          obtain ⟨-, hexpands⟩ := hplanned
          have hless := hexpands.count
          show 0 ≤ int32 _ ∧ int32 _ ≤ (normalizePolicy expansion.spec.policy).maxExpansions
          rw [hexpands.int32_succ hI.1, hexpands.extended]
          exact ⟨Int.le_add_one hI.1, hless⟩
        | _ => exact hI
      | _ => exact hI
    | ask h =>
      cases h with
      | node h => cases h <;> exact hI
      | _ => exact hI
    | saved _ hposted | unsaved _ hposted =>
      show 0 ≤ Locals.expansionCount _ ∧ _
      rw [hposted.framed.expansionCount, hposted.framed.spec]
      exact hI
    | @begin _ next =>
      show 0 ≤ next.expansionCount ∧
        next.expansionCount ≤ (normalizePolicy next.spec.policy).maxExpansions
      rcases reachable_begins hc with ⟨rfl, rfl⟩ | ⟨rfl, -⟩
      all_goals exact hI

theorem Grown.say {act : Act} (h : Grown count spec w)
    (hstate : (w.st.step act).state = w.st.state) (hsilent : act.silent) :
    Grown count spec (w.act Locals.step act) := by
  constructor
  · show Knows spec (w.st.step act).state
    rw [hstate]
    exact h.knows
  · have hnone : countP expands [(w.st, act)] = 0 := expands_silent (by simpa using hsilent)
    show ((countP expands ([(w.st, act)] ++ w.log) : Nat) : Int) = count
    rw [countP_append, hnone, Nat.zero_add]
    exact h.counted

theorem Grown.ask {act : Act} {arrivals : Arrivals}
    (h : Grown count spec w) (hstate : (w.st.step act).state = w.st.state) (hsilent : act.silent) :
    Grown count spec (asked w act arrivals) :=
  (h.say hstate hsilent).say rfl trivial

theorem Skips.synced (h : Skips E x w p p') (hI : Synced w p) : Synced w p' := by
  cases h with
  | @node site _ _ _ h => cases h <;> cases site <;> first | exact hI | exact True.intro
  | command h =>
    cases h with
    | guard hguard | guardRefused _ hguard => cases hguard <;> exact hI
    | _ => first | exact hI | exact True.intro
  | continue_ => exact hI.counted
  | _ => first | exact hI | exact True.intro

theorem Says.synced {act : Act} (h : Says E x w p act p') (hplanned : Planned w p)
    (hcount : 0 ≤ w.st.expansionCount) (hI : Synced w p) : Synced (w.act Locals.step act) p' := by
  cases h with
  | @node site _ _ _ _ h =>
    cases h with
    | @adopted _ expansion =>
      have hgrown : Grown (int32 (w.st.expansionCount + 1)) expansion.spec w := by
        rw [hplanned.2.int32_succ hcount]
        cases site <;> exact hI
      cases site <;> exact hgrown.say rfl trivial
    | _ => cases site <;> exact hI.say rfl trivial
  | @drain outcome | @cancelOperation outcome | @dropOperation outcome =>
    cases outcome <;> first | exact True.intro | exact hI.say rfl trivial
  | _ => exact hI.say rfl trivial

theorem Asks.synced {act : Act} {arrivals : Arrivals} (h : Asks E x w p act p')
    (hI : Synced w p) : Synced (asked w act arrivals) p' := by
  cases h with
  | @node site _ _ _ _ _ h =>
    cases h <;> cases site <;> first | exact hI.ask rfl trivial | exact True.intro
  | @drained outcome => cases outcome <;> first | exact hI.ask rfl trivial | exact True.intro
  | _ => first | exact hI.ask rfl trivial | exact True.intro

section Posts

variable {ok : Point} {bad : Err → Point} {event : StateEvent}
  (hc : Reachable E input ((x, p), w)) (h : Posts E x w p spec event ok bad)

include hc h

theorem Posts.synced (hposted : Posted E spec event w none v) (hI : Synced w p) : Synced v ok := by
  rcases h.expansion_point (reachable_scheduled hc) with
    hkind | ⟨site, node, status, expansion, rfl, rfl, -, -, hkind, hdelta⟩
  · cases h with
    | @node site _ _ _ _ _ h =>
      cases h with
      | expansion => exact absurd rfl hkind
      | _ => cases site <;> exact hposted.grown hkind hI
    | _ => first | exact hposted.grown hkind hI | exact True.intro
  · have hgrown : Grown (v.st.expansionCount + 1) expansion.spec v := by
      rw [hposted.framed.expansionCount]
      refine hposted.expanded hkind hdelta (reachable_planned hc).2 ?_
      cases site <;> exact hI
    cases site <;> exact hgrown

theorem Posts.synced_unsaved {err : Err} (hposted : Posted E spec event w (some err) v)
    (hlost : LogMeets (lostExpansion · = false) v) (hI : Synced w p) : Synced v (bad err) := by
  rcases h.expansion_point (reachable_scheduled hc) with
    hkind | ⟨site, node, status, expansion, rfl, -, rfl, rfl, hkind, hdelta⟩
  · cases h with
    | @node site _ _ _ _ _ h =>
      cases h with
      | expansion => exact absurd rfl hkind
      | _ => cases site <;> first | exact hposted.grown hkind hI | exact True.intro
    | _ => first | exact hposted.grown hkind hI | exact True.intro
  · cases site with
    | settle | poll => trivial
    | start =>
      show Grown v.st.expansionCount v.st.spec v
      rw [hposted.framed.expansionCount, hposted.framed.spec]
      exact hposted.unexpanded hkind hdelta (reachable_planned hc).2 (reachable_staged hc) hlost hI

end Posts

theorem reachable_synced (hfresh : input.continued = false) (hzero : input.expansionCount = 0)
    (hc : Reachable E input c) (hlost : LogMeets (lostExpansion · = false) c.2) :
    Synced c.2 c.1.2 := by
  refine reach_inv (C := (lostExpansion · = false)) ?_ (fun c d hc h hlost hI => ?_) hc hlost
  · show ((0 : Nat) : Int) = input.expansionCount
    rw [hzero]
    rfl
  cases h with
  | skip h => exact h.synced hI
  | say h => exact h.synced (reachable_planned hc) (reachable_expansionCount hzero hc).1 hI
  | ask h => exact h.synced hI
  | saved h hposted => exact h.synced hc hposted hI
  | unsaved h hposted => exact h.synced_unsaved hc hposted hlost hI
  | refuse => trivial
  | @begin _ next w _ state _ _ hstate =>
    have hknows : Knows next.spec state ∧ next.expansionCount = w.st.expansionCount := by
      rcases reachable_begin hfresh hc hstate with ⟨rfl, rfl, rfl⟩ | ⟨⟨rfl, -⟩, hrestored, -⟩
      · exact ⟨newState_ids _ _, rfl⟩
      · exact ⟨hrestored.ids, rfl⟩
    refine ⟨hknows.1, ?_⟩
    have hcounted : (w.log.countP expands : Int) = w.st.expansionCount := hI
    show ((countP expands (_ :: w.log) : Nat) : Int) = next.expansionCount
    rw [countP_cons_of_neg (by simp [expands]), hknows.2, hcounted]

theorem reachable_submitted (hc : Reachable E input c) : Extends input.spec c.2.st.spec :=
  reach_always (.refl _) (fun _ _ hc h hI => hI.trans (h.extends hc)) hc

/-- The bounds of a plan, from what was submitted. -/
structure WithinBounds (submitted : RunPlanSpec) (w : World) : Prop where
  size : (w.st.spec.nodes.length : Int) ≤ (normalizePolicy submitted.policy).maxNodes
  depth : ∀ node ∈ w.st.spec.nodes, ∀ chain,
    IsChain (Precedes w.st.spec) (node.nodeID :: chain) →
      (chain.length + 1 : Int) ≤ (normalizePolicy submitted.policy).maxDepth
  expansions : (w.log.countP expands : Int) ≤ (normalizePolicy submitted.policy).maxExpansions
  acyclic : ∀ nodeID, ¬ Relation.TransGen (Precedes w.st.spec) nodeID nodeID
  nodes : submitted.nodes <+: w.st.spec.nodes
  edges : submitted.edges <+: w.st.spec.edges
  ids : ∀ nodeID, nodeID ∈ w.st.state.status.nodes.map PlanNodeStatus.nodeID ↔
    nodeID ∈ w.st.spec.nodes.map PlanNodeSpec.nodeID

theorem State.mem_listedIDs (hnamed : s.Named) (hlisted : s.Lists) (nodeID : String) :
    nodeID ∈ s.status.nodes.map PlanNodeStatus.nodeID ↔ (s.nodeStatus nodeID).isSome = true := by
  rw [← find?_sortedNodeStatuses hnamed, ← hlisted]
  simp

/-- Specs only grow: through every expansion and continuation, what was declared stays. -/
theorem specs_grow (E : Host) (r : PlanRuntime) (spec : RunPlanSpec) (n : Nat) :
    let w := (planRun E (r.newPlanInput spec) n).world
    LogMeets (fun e => Extends spec e.1.spec ∧ Extends e.1.spec w.st.spec) w := by
  obtain ⟨c, hreach, hat⟩ := planRun_path E (r.newPlanInput spec) n
  rw [← hat.world]
  have hsubmitted := reachable_entries (P := fun l => Extends spec l.spec)
    (fun h _ hspec => hspec ▸ h) reachable_submitted hreach
  exact fun e he => ⟨hsubmitted e he, reachable_extends hreach e he⟩

/-- Expansion bounds of a new plan: at every boundary between two iterations the plan is within
its bounds, whatever expansions were tried and however often the workflow continued as new. -/
theorem expansion_bounds (E : Host) (r : PlanRuntime) (spec : RunPlanSpec) (n : Nat)
    (hlost : LogMeets (lostExpansion · = false) (planRun E (r.newPlanInput spec) n).world) :
    ∀ x w, planRun E (r.newPlanInput spec) n = .running x .top w → WithinBounds spec w := by
  intro x w hrun
  obtain ⟨c, hreach, hat⟩ := planRun_path E (r.newPlanInput spec) n
  rw [← hat.world] at hlost
  rw [hrun] at hat
  obtain rfl : c = ((x, .top), w) := hat
  obtain ⟨hplan, hvalid⟩ : PlanReady w.st := reachable_planned hreach
  have hgrown : Grown w.st.expansionCount w.st.spec w := reachable_synced rfl rfl hreach hlost
  have hcount := (reachable_expansionCount rfl hreach).2
  obtain ⟨nodes, edges, hextends⟩ : Extends spec w.st.spec := reachable_submitted hreach
  have hpolicy : w.st.spec.policy = spec.policy := by rw [hextends]
  have hsize := hvalid.size
  have hdepth := hvalid.depth
  rw [hplan, hpolicy] at hsize hdepth
  refine ⟨hsize, fun node hnode chain hchain => ?_, ?_, fun nodeID => ?_, ?_, ?_, fun nodeID => ?_⟩
  · exact hdepth node.nodeID chain (hvalid.mem_order (hplan ▸ hnode)) hchain
  · rw [hgrown.counted, ← hpolicy]
    exact hcount
  · exact hplan ▸ hvalid.acyclic nodeID
  · rw [hextends]
    exact prefix_append _ _
  · rw [hextends]
    exact prefix_append _ _
  · rw [mem_listedIDs (reachable_named hreach) (reachable_listed hreach)]
    exact hgrown.knows nodeID

/-- The run of the node `a` ends at its start with a delta of one node.  If `lost`, the event of
the expansion can not be saved. -/
def expandingHost (lost : Bool) : Host :=
  { calmHost with
    startNode := fun w =>
      if (w.st.state.nodeStatus "a").any fun node => node.lifecycleState = .running then
        .ok { lifecycleState := .succeeded
              artifacts := [{ artifactID := "d", name := "delta", kind := .planDelta }] }
      else .ok {}
    statusNode := fun _ => .ok { lifecycleState := .other "running" }
    nextPlanDelta := fun _ => .ok (some { nodes := [nativeNode "c" "rc"] })
    persist := fun w =>
      match w.log with
      | (_, .apply event) :: _ =>
          if lost && event.kind = .planExpanded then some (.external "down") else none
      | _ => none }

/-- Two nodes, one after the other. -/
def chainPlan : PlanWorkflowInput :=
  planOf [nativeNode "a" "ra", nativeNode "b" "rb"]
    [{ edgeID := "e", source := "a", target := "b" }]

theorem expansion_bounds_chain :
    (planRun (expandingHost false) chainPlan 3).world.log.countP expands = 1 ∧
      ∃ x w, planRun (expandingHost false) chainPlan 3 = .running x .top w ∧
        WithinBounds chainPlan.spec w :=
  ⟨by decide +kernel, _, _, rfl, expansion_bounds (expandingHost false) calmRuntime chainPlan.spec 3
      (by decide +kernel) _ _ rfl⟩

/-- The event of the expansion can not be saved, the node `a` fails, and the loop goes on with
the new node in the state but not in the spec. -/
theorem expansion_split :
    (∃ x w, planRun (expandingHost true) chainPlan 3 = .running x .top w) ∧
      (planRun (expandingHost true) chainPlan 3).world.st.state.status.nodes.map
        PlanNodeStatus.nodeID = ["a", "b", "c"] ∧
      (planRun (expandingHost true) chainPlan 3).world.st.spec.nodes.map
        PlanNodeSpec.nodeID = ["a", "b"] :=
  ⟨⟨_, _, rfl⟩, by decide +kernel, by decide +kernel⟩

/-!
## An execution that continues

Continue-as-new hands the spec and the status to the next execution, which restores its state
from them before its loop.  The restore checks the snapshot against the spec, and a snapshot
that the loop took passes.
-/

/-! ## The next execution -/

def Rooted (x : Execution) (w : World) : Point → Prop
  | .begin _ | .refused _ => True
  | _ => (x.input.planActivity ≠ "" ∧ x.input.workflowVersion = 1) ∧
      w.st.state.status.planID = w.st.spec.planID

theorem Posted.planID {answer : Option Err}
    (h : Posted E spec event w answer v) (hI : w.st.state.status.planID = w.st.spec.planID) :
    v.st.state.status.planID = v.st.spec.planID := by
  rw [h.framed.spec, ← hI]
  obtain ⟨_, _, _, _, _, _, happlied | ⟨_, hfailed⟩⟩ := h.effect
  · exact happlied.planID
  · rw [hfailed.status]

theorem newPlanWorkflowSetup_rooted {time : Time} {state : State}
    (h : newPlanWorkflowSetup next time = .ok state) :
    (next.planActivity ≠ "" ∧ next.workflowVersion = 1) ∧ state.status.planID = next.spec.planID := by
  have hplanID : state.status.planID = next.spec.planID := by
    rcases newPlanWorkflowSetup_ok h with ⟨-, hrestored⟩ | ⟨-, rfl⟩
    · exact (newStateFromStatus_restored hrestored).planID
    · rfl
  unfold newPlanWorkflowSetup at h
  split_ifs at h with hactivity hversion
  exact ⟨⟨hactivity, not_not.mp hversion⟩, hplanID⟩

theorem reachable_rooted (hc : Reachable E input c) : Rooted c.1.1 c.2 c.1.2 := by
  refine reach_always trivial (fun c d hc h hI => ?_) hc
  cases h with
  | skip h =>
    cases h with
    | command h =>
      cases h with
      | guard hguard | guardRefused _ hguard => cases hguard <;> exact hI
      | _ => exact hI
    | continue_ => trivial
    | _ => exact hI
  | say h =>
    have hplanned := reachable_planned hc
    cases h with
    | node h =>
      cases h with
      | adopted =>
        exact ⟨hI.1, hI.2.trans (congrArg RunPlanSpec.planID hplanned.2.extended).symm⟩
      | _ => exact hI
    | _ => exact hI
  | ask h =>
    cases h with
    | node h => cases h <;> exact hI
    | _ => exact hI
  | saved h hposted =>
    cases h with
    | unready => trivial
    | _ => exact ⟨hI.1, hposted.planID hI.2⟩
  | unsaved h hposted =>
    cases h with
    | begun | unready => trivial
    | _ => exact ⟨hI.1, hposted.planID hI.2⟩
  | begin htime hstate => exact newPlanWorkflowSetup_rooted hstate
  | refuse => trivial

def SetsUp (next : PlanWorkflowInput) : Prop :=
  ∀ time, ∃ state, newPlanWorkflowSetup next time = .ok state

theorem continued_setsUp (hc : Reachable E input ((x, p), w)) (hrooted : Rooted x w .top)
    (hready : PlanReady w.st) (hlisted : w.st.state.Lists)
    (hknows : Knows w.st.spec w.st.state) : SetsUp (continuedPlanWorkflowInput x.input w.st) := by
  intro time
  obtain ⟨⟨hactivity, hversion⟩, hplanID⟩ := hrooted
  have hvalid := hready.2
  have hnamed : w.st.state.Named := reachable_named hc
  have hscope := hvalid.scope
  have hnames := hvalid.named
  have hnodup := hvalid.nodup
  rw [hready.1] at hscope hnames hnodup
  obtain ⟨state, hstate⟩ := newStateFromStatus_total (planID_ne_of_scope hscope) hplanID
    (fun node hnode => (hnames node hnode).1) hnodup (nodup_listed hnamed hlisted)
    fun nodeID => (mem_listedIDs hnamed hlisted nodeID).trans (hknows nodeID)
  exact ⟨state, (if_neg hactivity).trans ((if_neg (not_not.mpr hversion)).trans hstate)⟩

theorem reachable_setsUp (hfresh : input.continued = false) (hzero : input.expansionCount = 0)
    (hc : Reachable E input ((x, .begin next), w)) (hlost : LogMeets (lostExpansion · = false) w) :
    next = input ∧ w = (startConfig input).2 ∨ SetsUp next := by
  rcases reachable_left hc with hstart | hleft
  · exact .inl hstart
  obtain ⟨rfl, -⟩ : Continued x w.st next := reachable_continuing hleft
  have hsynced : Grown w.st.expansionCount w.st.spec w := reachable_synced hfresh hzero hleft hlost
  exact .inr (continued_setsUp hleft (reachable_rooted hleft) (reachable_planned hleft)
    (reachable_listed hleft) hsynced.knows)

end AgentOS.Plan
