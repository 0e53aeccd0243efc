import AgentOS.Plan.Expansion
import AgentOS.Plan.Hand

/-!
# Parallelism

The start step computes how many nodes it may start once, from the nodes that run at that
time, and counts down.  A start can end at once, fail or expand the plan, so the nodes that run
are counted after every event.
-/

namespace AgentOS.Plan

open Kit List State SortedMap

variable {E : Host} {input : PlanWorkflowInput} {x : Execution} {p p' : Point} {w v : World}

/-! ## The nodes that run -/

def State.runs (s : State) (nodeID : String) : Bool :=
  (s.nodeStatus nodeID).any fun status => status.lifecycleState = .running

def runningIDs (s : State) : List String := s.nodes.keys.filter s.runs

variable {nodeID : String} {s : State} {bound : Int}

theorem State.runs_iff :
    s.runs nodeID = true ↔
      ∃ status, s.nodeStatus nodeID = some status ∧ status.lifecycleState = .running := by
  simp [runs, Option.any_eq_true]

theorem mem_runningIDs : nodeID ∈ runningIDs s ↔ s.runs nodeID = true := by
  rw [runningIDs, mem_filter, mem_keys_iff]
  refine and_iff_right_of_imp fun hruns => ?_
  obtain ⟨status, hstatus, -⟩ := runs_iff.mp hruns
  exact Option.isSome_iff_exists.mpr ⟨status, hstatus⟩

theorem runningIDs_length_le {s' : State} (ids : List String)
    (h : ∀ nodeID, s'.runs nodeID = true → s.runs nodeID = true ∨ nodeID ∈ ids) :
    (runningIDs s').length ≤ (runningIDs s).length + ids.length := by
  rw [← length_append]
  refine (subperm_of_subset ((keys_nodup s'.nodes).filter _) fun nodeID hmem => ?_).length_le
  rw [mem_append, mem_runningIDs]
  exact h nodeID (mem_runningIDs.mp hmem)

theorem runningNodeCount_eq (hlisted : s.Lists) :
    runningNodeCount s.status = (runningIDs s).length := by
  have hentries : ∀ e ∈ s.nodes.entries,
      ((fun status : PlanNodeStatus => decide (status.lifecycleState = .running)) e.2 = true ↔
        s.runs e.1 = true) := by
    intro e he
    have hget : s.nodeStatus e.1 = some e.2 := (mem_entries_iff s.nodes e.1 e.2).mp he
    simp [runs, hget]
  unfold runningNodeCount runningNodes runningIDs
  rw [hlisted, sortedNodeStatuses, values, SortedMap.keys, filter_map,
    filter_map, length_map, length_map, ← countP_eq_length_filter,
    ← countP_eq_length_filter]
  exact congrArg Nat.cast (countP_congr hentries)

section Events

variable {spec : RunPlanSpec} {event : StateEvent} {answer : Option Err}

theorem Posted.runs_cases (h : Posted E spec event w answer v)
    (hruns : v.st.state.runs nodeID = true) :
    w.st.state.runs nodeID = true ∨ event.kind = .nodeStarted ∧ nodeID = event.nodeID := by
  obtain ⟨status, hstatus, hrunning⟩ := runs_iff.mp hruns
  rcases h.status_cases hstatus with
    hbefore | ⟨-, node, -, now, -, rfl⟩ | ⟨hid, before, time, now, hbefore, rfl⟩
  · exact .inl (runs_iff.mpr ⟨status, hbefore, hrunning⟩)
  · cases hrunning
  · rw [changedNode_lifecycle] at hrunning
    rcases lifecycleAfter_running hrunning with hkind | hran
    · exact .inr ⟨hkind, hid.symm⟩
    · exact .inl (runs_iff.mpr ⟨before, hbefore, hran⟩)

theorem Posted.running_le (h : Posted E spec event w answer v) (hkind : event.kind ≠ .nodeStarted) :
    (runningIDs v.st.state).length ≤ (runningIDs w.st.state).length := by
  have hle := runningIDs_length_le [] fun nodeID hruns =>
    (h.runs_cases hruns).imp_right fun hstarted => absurd hstarted.1 hkind
  simpa using hle

theorem Posted.running_le_succ (h : Posted E spec event w answer v) :
    (runningIDs v.st.state).length ≤ (runningIDs w.st.state).length + 1 := by
  have hle := runningIDs_length_le [event.nodeID] fun nodeID hruns =>
    (h.runs_cases hruns).imp_right fun hstarted => mem_singleton.mpr hstarted.2
  simpa using hle

end Events

/-! ## Runs -/

def parallelism (spec : RunPlanSpec) : Int := normalizePlanParallelism spec.policy.maxParallelNodes

theorem parallelism_pos (spec : RunPlanSpec) : 0 < parallelism spec := by
  unfold parallelism normalizePlanParallelism
  split_ifs <;> omega

theorem reachable_maxParallel {c : Config} (hc : Reachable E input c) :
    c.1.1.runtime.maxParallel = parallelism input.spec := by
  refine reach_always rfl (fun c d hc h hI => ?_) hc
  cases h with
  | @begin _ next w =>
    obtain ⟨nodes, edges, hextends⟩ : Extends input.spec w.st.spec := reachable_submitted hc
    show parallelism next.spec = parallelism input.spec
    rcases reachable_begins hc with ⟨rfl, -⟩ | ⟨rfl, -⟩
    · rfl
    · show parallelism w.st.spec = parallelism input.spec
      rw [hextends]
      rfl
  | _ => exact hI

def Work.early : Work → Bool
  | .opening | .announced | .readied | .resolved .. | .accepted .. => true
  | _ => false

/-- The nodes that run, with the capacity that is left to the start step.  From the start of a
node on, the node may be one of those that run. -/
def Room (bound count : Int) : Point → Prop
  | .starting capacity _ _ => count + capacity ≤ bound
  | .startGuard capacity _ => count + capacity ≤ bound + 1
  | .node (.start capacity _) _ work =>
      0 < capacity ∧ count + capacity ≤ if work.early then bound else bound + 1
  | _ => True

variable {bad : Err → Point} {ok : Point} {answer : Option Err} {spec : RunPlanSpec}
  {event : StateEvent}

section Rows

variable {node node' : PlanNodeSpec} {work work' : Work} {act : Act} {bound count count' : Int}
  {site : Site}

theorem Room.handled (h : Room bound count (.node site node work)) (hcount : count' ≤ count)
    (hearly : work'.early = true → work.early = true) :
    Room bound count' (.node site node' work') := by
  cases site with
  | start capacity rest =>
    obtain ⟨hfree, hroom⟩ := h
    refine ⟨hfree, ?_⟩
    by_cases hwork : work'.early = true
    · rw [if_pos (hearly hwork)] at hroom
      omega
    · rw [if_neg hwork]
      split_ifs at hroom <;> omega
  | _ => trivial

theorem Room.taken (h : Room bound count (.node site node work)) (hearly : work.early = true)
    (hcount : count' ≤ count + 1) (hlate : work'.early = false) :
    Room bound count' (.node site node' work') := by
  cases site with
  | start capacity rest =>
    obtain ⟨hfree, hroom⟩ := h
    rw [if_pos hearly] at hroom
    refine ⟨hfree, ?_⟩
    rw [hlate]
    show count' + capacity ≤ bound + 1
    omega
  | _ => trivial

theorem NodeSkips.early (h : NodeSkips E x node w work work') (hearly : work'.early = true) :
    work.early = true := by
  cases h <;> first | rfl | cases hearly

theorem NodeSays.early (h : NodeSays x node w work act work') (hearly : work'.early = true) :
    work.early = true := by
  cases h <;> cases hearly

theorem NodeAsks.early (h : NodeAsks E node w work act node' work') (hearly : work'.early = true) :
    work.early = true := by
  cases h <;> first | rfl | cases hearly

variable {spec : RunPlanSpec} {event : StateEvent}

theorem NodePosts.early (h : NodePosts node w work spec event work') (hearly : work'.early = true) :
    work.early = true := by
  cases h <;> first | rfl | cases hearly

theorem Skips.room (h : Skips E x w p p') (hmax : x.runtime.maxParallel = bound)
    (hlisted : Listed w p) (hI : Room bound (runningIDs w.st.state).length p) :
    Room bound (runningIDs w.st.state).length p' := by
  cases h with
  | node h => exact hI.handled le_rfl h.early
  | command h => cases h <;> trivial
  | skipped =>
    have hcount : runningNodeCount w.st.state.status = (runningIDs w.st.state).length :=
      runningNodeCount_eq hlisted
    show ((runningIDs w.st.state).length : Int) +
      (x.runtime.maxParallel - runningNodeCount w.st.state.status) ≤ bound
    omega
  | unstarted => exact hI
  | start hfree => exact ⟨hfree, hI⟩
  | startOver => exact hI.2
  | startWithin =>
    have hroom : ((runningIDs w.st.state).length : Int) + _ ≤ bound + 1 := hI
    show ((runningIDs w.st.state).length : Int) + (_ - 1) ≤ bound
    omega
  | _ => trivial

theorem Says.room (h : Says E x w p act p') (hI : Room bound count p) : Room bound count p' := by
  cases h with
  | node h => exact hI.handled le_rfl h.early
  | _ => trivial

theorem Asks.room (h : Asks E x w p act p') (hI : Room bound count p) : Room bound count p' := by
  cases h with
  | node h => exact hI.handled le_rfl h.early
  | _ => trivial

theorem Posts.room
    (h : Posts E x w p spec event ok bad) (hI : Room bound count p) (hcount : count' ≤ count) :
    Room bound count' ok ∧ ∀ err, Room bound count' (bad err) := by
  cases h with
  | node h => exact ⟨hI.handled hcount h.early, fun _ => hI.handled hcount nofun⟩
  | startFailed =>
    obtain ⟨-, hroom⟩ := hI
    refine ⟨?_, fun _ => trivial⟩
    show count' + _ ≤ bound + 1
    exact (Int.add_le_add_right hcount _).trans hroom
  | _ => exact ⟨trivial, fun _ => trivial⟩

theorem Posts.room_started (h : Posts E x w p spec event ok bad)
    (hkind : event.kind = .nodeStarted) (hscheduled : Scheduled w.st.spec p)
    (hI : Room bound count p) (hcount : count' ≤ count + 1) :
    count + 1 ≤ bound ∧ Room bound count' ok ∧ ∀ err, Room bound count' (bad err) := by
  obtain ⟨capacity, rest, node, attempt, given, rfl, rfl⟩ := h.start_point hkind hscheduled
  have hless : count + 1 ≤ bound := by
    obtain ⟨hfree, hroom⟩ := hI
    have hroom' : count + capacity ≤ bound := hroom
    omega
  cases h with
  | node h =>
    cases h with
    | started => exact ⟨hless, hI.taken rfl hcount rfl, fun _ => hI.taken rfl hcount rfl⟩

end Rows

structure Bounded (bound : Int) (w : World) (p : Point) : Prop where
  state : (runningIDs w.st.state).length ≤ bound
  status : runningNodeCount w.st.state.status ≤ bound
  room : Room bound (runningIDs w.st.state).length p

theorem Posted.bounded (h : Posted E spec event w answer v) (hI : Bounded bound w p)
    (hstate : (runningIDs v.st.state).length ≤ bound)
    (hroom : Room bound (runningIDs v.st.state).length p') : Bounded bound v p' := by
  refine ⟨hstate, ?_, hroom⟩
  obtain ⟨_, _, _, _, _, _, happlied | ⟨_, hfailed⟩⟩ := h.effect
  · rw [runningNodeCount_eq happlied.listed]
    exact hstate
  · rw [hfailed.status]
    exact hI.status

theorem Bounded.same (h : Bounded bound w p) (hstate : v.st.state = w.st.state)
    (hroom : Room bound (runningIDs w.st.state).length p') : Bounded bound v p' := by
  refine ⟨?_, ?_, ?_⟩ <;> rw [hstate]
  · exact h.state
  · exact h.status
  · exact hroom

theorem Posts.bounded
    (h : Posts E x w p spec event ok bad) (hposted : Posted E spec event w answer v)
    (hscheduled : Scheduled w.st.spec p) (hI : Bounded bound w p) :
    Bounded bound v ok ∧ ∀ err, Bounded bound v (bad err) := by
  by_cases hkind : event.kind = .nodeStarted
  · have hle : ((runningIDs v.st.state).length : Int) ≤ (runningIDs w.st.state).length + 1 :=
      Int.ofNat_le.mpr hposted.running_le_succ
    obtain ⟨hless, hok, hbad⟩ := h.room_started hkind hscheduled hI.room hle
    exact ⟨hposted.bounded hI (hle.trans hless) hok,
      fun err => hposted.bounded hI (hle.trans hless) (hbad err)⟩
  · have hle : ((runningIDs v.st.state).length : Int) ≤ (runningIDs w.st.state).length :=
      Int.ofNat_le.mpr (hposted.running_le hkind)
    obtain ⟨hok, hbad⟩ := h.room hI.room hle
    exact ⟨hposted.bounded hI (hle.trans hI.state) hok,
      fun err => hposted.bounded hI (hle.trans hI.state) (hbad err)⟩

theorem reachable_bounded (hfresh : input.continued = false) {c : Config}
    (hc : Reachable E input c) : Bounded (parallelism input.spec) c.2 c.1.2 := by
  refine reach_always ?_ (fun c d hc h hI => ?_) hc
  · have hpos := parallelism_pos input.spec
    exact ⟨hpos.le, hpos.le, trivial⟩
  cases h with
  | skip h => exact hI.same rfl (h.room (reachable_maxParallel hc) (reachable_listed hc) hI.room)
  | say h | ask h => exact hI.same h.quiet.2 (h.room hI.room)
  | saved h hposted => exact (h.bounded hposted (reachable_scheduled hc) hI).1
  | unsaved h hposted => exact (h.bounded hposted (reachable_scheduled hc) hI).2 _
  | refuse => exact hI.same rfl trivial
  | @begin _ next w time state _ _ hstate =>
    obtain ⟨hlisted, hbound⟩ : state.Lists ∧
        ((runningIDs state).length : Int) ≤ parallelism input.spec := by
      rcases reachable_begin hfresh hc hstate with ⟨rfl, rfl, rfl⟩ | ⟨-, hrestored, hlookup⟩
      · -- No node of a new plan runs.
        have hnone : runningIDs (newState next.spec time) = [] := by
          refine eq_nil_iff_forall_not_mem.mpr fun nodeID hmem => ?_
          obtain ⟨status, hstatus, hrunning⟩ := runs_iff.mp (mem_runningIDs.mp hmem)
          obtain ⟨node, -, -, rfl⟩ := newState_lookup hstatus
          cases hrunning
        rw [hnone]
        exact ⟨rfl, (parallelism_pos _).le⟩
      · have hle : (runningIDs state).length ≤ (runningIDs w.st.state).length + 0 :=
          runningIDs_length_le [] fun nodeID hruns => by
            unfold runs at hruns ⊢
            rw [hlookup] at hruns
            exact .inl hruns
        exact ⟨hrestored.listed, (Int.ofNat_le.mpr hle).trans hI.state⟩
    exact ⟨hbound, (runningNodeCount_eq hlisted).trans_le hbound, trivial⟩

/-- The parallelism bound of a new plan: in no state of a run do more nodes run than the policy
allows, or 32 when it sets no limit. -/
theorem parallelism_bound (E : Host) (r : PlanRuntime) (spec : RunPlanSpec) (n : Nat) :
    let w := (planRun E (r.newPlanInput spec) n).world
    runningNodeCount w.st.state.status ≤ normalizePlanParallelism spec.policy.maxParallelNodes ∧
      LogMeets (fun e => runningNodeCount e.1.state.status ≤
        normalizePlanParallelism spec.policy.maxParallelNodes) w := by
  obtain ⟨c, hreach, hat⟩ := planRun_path E (r.newPlanInput spec) n
  rw [← hat.world]
  exact ⟨(reachable_bounded rfl hreach).status, reachable_entries
    (P := fun l => runningNodeCount l.state.status ≤ parallelism spec)
    (fun hle hstate _ => hstate ▸ hle) (fun hc => (reachable_bounded rfl hc).status) hreach⟩

end AgentOS.Plan
