import AgentOS.Plan.Reach

/-!
# The status of the node at hand

While the loop handles a node, the reducer holds a status for it that the steps of
the handling have put there.  `Attended` says which, for each part of the handling.
`reach_statuses` is the rule for what holds of the status of every node.
-/

namespace AgentOS.Plan

open Kit List State Option

variable {E : Host} {input : PlanWorkflowInput} {x : Execution} {p p' : Point} {w v : World}

/-! ## What an event does to one node -/

variable {spec : RunPlanSpec} {event : StateEvent} {status : PlanNodeStatus} {nodeID : String}
  {answer : Option Err} {c : Config} {P Q : PlanNodeStatus → Prop} {node : PlanNodeStatus}
  {bad : Err → Point}

theorem Posted.node_changed (h : Posted E spec event w none v) (hkind : event.kind ≠ .planExpanded)
    (hstatus : w.st.state.nodeStatus event.nodeID = some status) :
    ∃ time now, v.st.state.nodeStatus event.nodeID =
      some (changedNode (stamped w.st time event) now status) := by
  obtain ⟨time, now, _, _, happlied⟩ := h.applied
  refine ⟨time, now, ?_⟩
  rw [happlied.lookup, nodeAfter, stamped_kind, if_neg hkind, stamped_nodeID, if_pos rfl,
    hstatus, map_some]

theorem Posted.node_kept (h : Posted E spec event w none v) (hkind : event.kind = .planExpanded)
    (hstatus : w.st.state.nodeStatus nodeID = some status) :
    v.st.state.nodeStatus nodeID = some status := by
  obtain ⟨_, _, _, _, happlied⟩ := h.applied
  rw [happlied.lookup, nodeAfter, stamped_kind, if_pos hkind, hstatus, some_or]

theorem Posted.lookup_plan (h : Posted E spec event w none v)
    (hkind : (reducerPlanLifecycleForEvent event.kind).isSome = true) (nodeID : String) :
    v.st.state.nodeStatus nodeID = w.st.state.nodeStatus nodeID := by
  obtain ⟨_, _, _, _, happlied⟩ := h.applied
  rw [happlied.lookup, nodeAfter, stamped_kind, if_neg]
  · split_ifs
    · cases w.st.state.nodeStatus nodeID with
      | none => rfl
      | some status => exact congrArg some (changedNode_plan hkind)
    · rfl
  · intro hexpanded
    rw [hexpanded] at hkind
    cases hkind

/-- The events that leave the lifecycle of every node. -/
def EventKind.leavesNodes (kind : EventKind) : Prop :=
  reducerNodeLifecycleForEvent kind = none ∧ kind ≠ .nodeRetryScheduled

theorem EventKind.leavesNodes_of_plan {kind : EventKind}
    (h : (reducerPlanLifecycleForEvent kind).isSome = true) : kind.leavesNodes := by
  cases kind with
  | nodeRetryScheduled => cases h
  | _ => first | exact ⟨rfl, nofun⟩ | cases h

/-- A node keeps its status, or the event names it and changes it. -/
theorem Posted.status_after (h : Posted E spec event w answer v)
    (hstatus : w.st.state.nodeStatus nodeID = some status) :
    v.st.state.nodeStatus nodeID = some status ∧
        (event.nodeID = nodeID → event.kind ≠ .nodeRetryScheduled) ∨
      event.nodeID = nodeID ∧ ∃ time now, v.st.state.nodeStatus nodeID =
        some (changedNode (stamped w.st time event) now status) := by
  obtain ⟨time, now, _, _, _, _, happlied | ⟨_, hfailed⟩⟩ := h.effect
  · have hlookup := happlied.lookup nodeID
    rw [hstatus, nodeAfter] at hlookup
    split_ifs at hlookup with hexpanded hid
    · refine .inl ⟨hlookup, fun _ hkind => ?_⟩
      rw [stamped_kind, hkind] at hexpanded
      cases hexpanded
    · exact .inr ⟨hid.symm, time, now, hlookup⟩
    · exact .inl ⟨hlookup, fun hid' => absurd hid'.symm hid⟩
  · rcases hfailed.lookup nodeID with hsame | ⟨hnone, -⟩
    · refine .inl ⟨hsame.trans hstatus, fun hid hkind => ?_⟩
      have hunknown := hfailed.unknown (.inr hkind)
      rw [stamped_nodeID, hid, hstatus] at hunknown
      cases hunknown
    · rw [hstatus] at hnone
      cases hnone

theorem Posted.status_kept (h : Posted E spec event w answer v)
    (hevent : event.kind.leavesNodes ∨ event.nodeID ≠ nodeID)
    (hstatus : w.st.state.nodeStatus nodeID = some status) :
    ∃ status', v.st.state.nodeStatus nodeID = some status' ∧
      status'.lifecycleState = status.lifecycleState ∧ status'.runID = status.runID := by
  rcases h.status_after hstatus with ⟨hsame, -⟩ | ⟨hid, time, now, hchanged⟩
  · exact ⟨status, hsame, rfl, rfl⟩
  obtain ⟨hnode, hretry⟩ := hevent.resolve_right fun hother => hother hid
  have hretry' : (stamped w.st time event).kind ≠ .nodeRetryScheduled := hretry
  refine ⟨_, hchanged, ?_, ?_⟩
  · rw [changedNode_lifecycle, stamped_kind, lifecycleAfter_eq hnode hretry]
  · rw [changedNode_runID hretry', stamped_kind, hnode, if_neg nofun]

theorem State.changedNode_started {now : Time}
    (hkind : event.kind = .nodeStarted) (hready : node.lifecycleState = .ready)
    (hattempt : 0 < event.attempt) (hrun : event.runID ≠ "") :
    (changedNode event now node).lifecycleState = .running ∧
      (changedNode event now node).attempts = event.attempt ∧
      (changedNode event now node).runID = event.runID := by
  simp [changedNode, hkind, reducerNodeLifecycleForEvent, transitionedNode, hready, hattempt, hrun]

/-! ## The invariant -/

/-- The node has a status, of which `P` holds. -/
def HasStatus (l : Locals) (nodeID : String) (P : PlanNodeStatus → Prop) : Prop :=
  ∃ status, l.state.nodeStatus nodeID = some status ∧ P status

/-- The status of a node for each part of its handling.  A node that is resolved or accepted
is ready, and its attempt is the next one. -/
def Attended (l : Locals) (node : PlanNodeSpec) : Work → Prop
  | .opening | .announced => node.run.runID ≠ "" ∧ HasStatus l node.nodeID fun status =>
      status.lifecycleState = .pending ∨ status.lifecycleState = .ready
  | .readied => node.run.runID ≠ "" ∧ HasStatus l node.nodeID fun status =>
      status.lifecycleState = .ready
  | .resolved attempt .. | .accepted attempt .. =>
      node.run.runID ≠ "" ∧ 0 < attempt ∧ HasStatus l node.nodeID fun status =>
        status.lifecycleState = .ready ∧ attempt = int32 (status.attempts + 1)
  | .started attempt _ => HasStatus l node.nodeID fun status =>
      status.lifecycleState = .running ∧ status.attempts = attempt ∧ status.runID = node.run.runID
  | .running _ status | .timedOut status =>
      l.state.nodeStatus node.nodeID = some status ∧ status.lifecycleState = .running
  | .attemptFailed .. | .closing _ => HasStatus l node.nodeID fun status =>
      status.lifecycleState = .running ∨ status.lifecycleState = .ready
  | .ended _ | .charged _ | .publishing .. | .published .. | .fulfilled .. | .expanding ..
  | .expanded .. => HasStatus l node.nodeID fun status => status.lifecycleState = .running
  | .over _ | .broken _ => True

def AttendedAt (l : Locals) : Point → Prop
  | .node _ node work => Attended l node work
  | _ => True

theorem HasStatus.imp {l : Locals}
    (h : HasStatus l nodeID P) (himp : ∀ status, P status → Q status) : HasStatus l nodeID Q := by
  obtain ⟨status, hstatus, hP⟩ := h
  exact ⟨status, hstatus, himp status hP⟩

theorem HasStatus.holds {l : Locals} {P : PlanNodeStatus → Prop} (h : HasStatus l nodeID P)
    (hstatus : l.state.nodeStatus nodeID = some status) : P status := by
  obtain ⟨status', hstatus', hP⟩ := h
  rw [hstatus] at hstatus'
  cases hstatus'
  exact hP

theorem Posted.hasStatus (h : Posted E spec event w none v)
    (hkind : event.kind ≠ .planExpanded) (hid : event.nodeID = nodeID)
    (hstatus : HasStatus w.st nodeID P) (hchange : ∀ time now status, P status →
      Q (changedNode (stamped w.st time event) now status)) : HasStatus v.st nodeID Q := by
  subst hid
  obtain ⟨status, hstatus, hP⟩ := hstatus
  obtain ⟨time, now, hnew⟩ := h.node_changed hkind hstatus
  exact ⟨_, hnew, hchange time now status hP⟩

theorem nodeRunIDForAttempt_ne {runID : String} (h : runID ≠ "") (attempt : Int) :
    nodeRunIDForAttempt runID attempt ≠ "" := by
  unfold nodeRunIDForAttempt
  split_ifs
  · exact h
  · simp [h]

section Rows

variable {node node' : PlanNodeSpec} {work work' : Work} {act : Act}

theorem NodeSkips.attended (h : NodeSkips E x node w work work') (hI : Attended w.st node work) :
    Attended w.st node work' := by
  cases h with
  | noCapability | retried | exhausted | free | fulfilled => exact hI
  | unrequested => exact hI.imp fun _ hstatus => .inl hstatus.1
  | incomplete | canceled | unexpanded => exact hI.imp fun _ => .inl
  | unnamed => exact ⟨_, hI.1, .inl hI.2⟩
  | _ => trivial

theorem NodeSays.attended (h : NodeSays x node w work act work') (hI : Attended w.st node work) :
    Attended (w.st.step act) node work' := by
  cases h with
  | operationCanceled | promiseFailed => exact ⟨_, hI.1, .inl hI.2⟩
  | promiseEnded => exact ⟨_, hI⟩
  | adopted =>
    obtain ⟨status, hstatus, hrunning⟩ := hI
    exact ⟨status, hstatus, .inl hrunning⟩
  | _ => trivial

theorem NodeAsks.attended {arrivals : Arrivals} (h : NodeAsks E node w work act node' work')
    (hI : Attended w.st node work) : Attended (asked w act arrivals).st node' work' := by
  cases h with
  | unresolved _ hnode =>
    obtain ⟨-, status, hstatus, hready⟩ := hI
    refine ⟨status, ?_, .inr hready⟩
    rw [(nodeForAttempt_ok hnode).1]
    exact hstatus
  | resolved hnode =>
    obtain ⟨hrun, status, hstatus, hready⟩ := hI
    obtain ⟨hcopy, hrunID, hattempt⟩ := nodeForAttempt_ok hnode
    refine ⟨?_, hattempt, status, ?_, hready, ?_⟩
    · rw [hrunID]
      exact nodeRunIDForAttempt_ne hrun _
    · rw [hcopy]
      exact hstatus
    · unfold nextNodeAttempt
      rw [hstatus]
  | startFailed | startForeign => exact hI.imp fun _ hstatus => .inl hstatus.1
  | startEnded => exact hI.imp fun _ hstatus => hstatus.1
  | unpublished | expansionNone => exact hI.imp fun _ => .inl
  | publishedNone | published | expansionSome | cancelSent => exact hI
  | statusFailed => exact ⟨_, hI.1, .inl hI.2⟩
  | statusEnded => exact ⟨_, hI⟩
  | _ => trivial

theorem NodePosts.attended
    (h : NodePosts node w work spec event work') (hposted : Posted E spec event w none v)
    (hI : Attended w.st node work) : Attended v.st node work' := by
  cases h with
  | capability =>
    refine ⟨hI.1, hposted.hasStatus nofun rfl hI.2 fun _ _ _ hopen => ?_⟩
    rw [changedNode_lifecycle]
    exact hopen
  | ready =>
    refine ⟨hI.1, hposted.hasStatus nofun rfl hI.2 fun _ _ _ _ => ?_⟩
    rfl
  | inputResolved =>
    refine ⟨hI.1, hI.2.1, hposted.hasStatus nofun rfl hI.2.2 fun _ _ _ hready => ?_⟩
    rw [changedNode_lifecycle, changedNode_attempts]
    · exact hready
    · nofun
    · nofun
  | started =>
    refine hposted.hasStatus nofun rfl hI.2.2 fun _ _ _ hready => ?_
    exact changedNode_started rfl hready.1 hI.2.1 hI.1
  | budget | artifacts =>
    refine hposted.hasStatus nofun rfl hI fun _ _ _ hrunning => ?_
    rw [changedNode_lifecycle]
    exact hrunning
  | expansion =>
    obtain ⟨status, hstatus, hrunning⟩ := hI
    exact ⟨status, hposted.node_kept rfl hstatus, hrunning⟩
  | close => trivial

end Rows

theorem nodeSchedulable_iff {state : State} :
    nodeSchedulable state nodeID = true ↔ ∃ status, state.nodeStatus nodeID = some status ∧
      (status.lifecycleState = .pending ∨ status.lifecycleState = .ready) := by
  unfold nodeSchedulable
  simp [Option.any_eq_true]

theorem reachable_attended (hc : Reachable E input c) : AttendedAt c.2.st c.1.2 := by
  refine reach_always trivial (fun c d hc h hI => ?_) hc
  cases h with
  | skip h =>
    have hplanned := reachable_planned hc
    have hlisted := reachable_listed hc
    cases h with
    | settleNode hmem hrunning _ hnode | pollNode hmem hrunning hnode =>
      refine ⟨?_, hrunning⟩
      rw [(nodeByID_ok hplanned hnode).2]
      exact nodeStatus_of_listed (reachable_named hc) hlisted hmem
    | @start _ node _ _ _ hopen =>
      have hdeclared : node ∈ _ := reachable_scheduled hc mem_cons_self
      rw [← hplanned.1] at hdeclared
      exact ⟨(hplanned.2.named node hdeclared).2, nodeSchedulable_iff.mp hopen⟩
    | node h => exact h.attended hI
    | command h => cases h <;> trivial
    | _ => trivial
  | say h | ask h =>
    cases h with
    | node h => exact h.attended hI
    | _ => trivial
  | saved h hposted =>
    cases h with
    | node h => exact h.attended hposted hI
    | _ => trivial
  | unsaved h _ => cases h <;> trivial
  | begin | refuse => trivial

/-- The node that an event of a control point changes: the node at hand, the next one to be
marked, the one of a retry signal, or an open one that is skipped. -/
def Point.Names (l : Locals) (nodeID : String) : Point → Prop
  | .node _ handled _ => nodeID = handled.nodeID
  | .marking (next :: _) _ => nodeID = next.nodeID
  | .retrying retry => nodeID = retry.node.nodeID
  | .skipping .. => nodeSchedulable l.state nodeID = true
  | _ => False

theorem Posts.names {ok : Point}
    (h : Posts E x w p spec event ok bad) (hscheduled : Scheduled w.st.spec p) :
    event.kind.leavesNodes ∨ p.Names w.st event.nodeID := by
  cases h with
  | retry | marked | startFailed => exact .inr rfl
  | ended hends =>
    rcases hends.kind_cases with hkind | hkind | hkind <;>
      exact .inl (EventKind.leavesNodes_of_plan (by rw [hkind]; rfl))
  | terminalBefore | terminalAfter =>
    rcases terminalPlanEvent_kind w.st.state.status.nodes with hkind | hkind | hkind <;>
      exact .inl (EventKind.leavesNodes_of_plan (by rw [hkind]; rfl))
  | skipped hopen => exact .inr hopen
  | node h =>
    cases h with
    | expansion => exact .inl ⟨rfl, nofun⟩
    | close => exact .inr hscheduled.2.2.closes.2
    | _ => exact .inr rfl
  | _ => exact .inl ⟨rfl, nofun⟩

/-! ## The statuses of all nodes -/

theorem Posted.status_cases (h : Posted E spec event w answer v)
    (hstatus : v.st.state.nodeStatus nodeID = some status) :
    w.st.state.nodeStatus nodeID = some status ∨
      (w.st.state.nodeStatus nodeID = none ∧ ∃ node ∈ event.expansion.nodes, ∃ now,
        node.nodeID = nodeID ∧ status = pendingNodeStatus node now) ∨
      event.nodeID = nodeID ∧ ∃ before time now, w.st.state.nodeStatus nodeID = some before ∧
        status = changedNode (stamped w.st time event) now before := by
  obtain ⟨time, now, _, _, _, _, happlied | ⟨_, hfailed⟩⟩ := h.effect
  · rw [happlied.lookup, nodeAfter] at hstatus
    split_ifs at hstatus with hexpanded hid
    · rcases or_eq_some_iff.mp hstatus with hbefore | ⟨hnone, hadded⟩
      · exact .inl hbefore
      · obtain ⟨node, hnode, rfl⟩ := map_eq_some_iff.mp hadded
        have hid : node.nodeID = nodeID := by simpa using find?_some hnode
        exact .inr (.inl ⟨hnone, node, mem_of_find?_eq_some hnode, now, hid, rfl⟩)
    · obtain ⟨before, hbefore, rfl⟩ := map_eq_some_iff.mp hstatus
      exact .inr (.inr ⟨hid.symm, before, time, now, hbefore, rfl⟩)
    · exact .inl hstatus
  · rcases hfailed.lookup nodeID with hsame | ⟨hnone, node, hnode, hid, hadded⟩
    · exact .inl (hsame ▸ hstatus)
    · rw [hadded] at hstatus
      cases hstatus
      exact .inr (.inl ⟨hnone, node, hnode, now, hid, rfl⟩)

def AllStatuses (P : RunPlanSpec → String → PlanNodeStatus → Prop) (l : Locals) : Prop :=
  ∀ nodeID status, l.state.nodeStatus nodeID = some status → P l.spec nodeID status

/-- What holds of a pending node, and is kept by an event that names the node and by the
growth of the spec, holds of every node. -/
theorem reach_statuses {P : RunPlanSpec → String → PlanNodeStatus → Prop}
    (hfresh : input.continued = false)
    (hpending : ∀ spec node now, P spec node.nodeID (pendingNodeStatus node now))
    (hgrows : ∀ spec spec', Extends spec spec' → ∀ nodeID status,
      P spec nodeID status → P spec' nodeID status)
    (hevent : ∀ {x p w spec event ok bad time now status}, Reachable E input ((x, p), w) →
      Posts E x w p spec event ok bad →
      w.st.state.nodeStatus event.nodeID = some status → P w.st.spec event.nodeID status →
      P w.st.spec event.nodeID (changedNode (stamped w.st time event) now status))
    (hc : Reachable E input c) : AllStatuses P c.2.st := by
  refine reach_always (fun _ _ hnone => by cases hnone) (fun c d hc h hI => ?_) hc
  intro nodeID status hstatus
  rcases h.plan_cases hfresh hc with
    ⟨spec, event, ok, bad, answer, hrow, hposted⟩ | ⟨-, hmoved⟩
  · rw [hposted.framed.spec]
    rcases hposted.status_cases hstatus with
      hbefore | ⟨-, node, -, now, rfl, rfl⟩ | ⟨rfl, before, time, now, hbefore, rfl⟩
    · exact hI nodeID status hbefore
    · exact hpending _ _ _
    · exact hevent hc hrow hbefore (hI _ before hbefore)
  rcases hmoved with ⟨hstate, hextends⟩ | ⟨time, -, -, hstate⟩ | ⟨hspec, -, hlookup⟩
  · rw [hstate] at hstatus
    exact hgrows _ _ hextends nodeID status (hI nodeID status hstatus)
  · rw [hstate] at hstatus
    obtain ⟨node, -, rfl, rfl⟩ := newState_lookup hstatus
    exact hpending _ _ _
  · rw [hlookup] at hstatus
    rw [hspec]
    exact hI nodeID status hstatus

/-! ## Running nodes -/

/-- A running node has a run. -/
def Launched (l : Locals) : Prop :=
  ∀ nodeID status, l.state.nodeStatus nodeID = some status →
    status.lifecycleState = .running → status.runID ≠ ""

theorem State.changedNode_launched {now : Time}
    (hnode : node.lifecycleState = .running → node.runID ≠ "")
    (hstarted : event.kind = .nodeStarted → event.runID ≠ "")
    (hrunning : (changedNode event now node).lifecycleState = .running) :
    (changedNode event now node).runID ≠ "" := by
  rw [changedNode_lifecycle] at hrunning
  have hretry : event.kind ≠ .nodeRetryScheduled := by
    intro hkind
    rw [hkind] at hrunning
    cases hrunning
  rw [changedNode_runID hretry]
  split_ifs with hnamed
  · exact hnamed.2
  · rcases lifecycleAfter_running hrunning with hkind | hbefore
    · exact absurd ⟨by rw [hkind]; rfl, hstarted hkind⟩ hnamed
    · exact hnode hbefore

theorem Posts.started_run {ok : Point}
    (h : Posts E x w p spec event ok bad) (hscheduled : Scheduled w.st.spec p)
    (hattended : AttendedAt w.st p) (hkind : event.kind = .nodeStarted) : event.runID ≠ "" := by
  obtain ⟨_, _, _, _, _, rfl, rfl⟩ := h.start_point hkind hscheduled
  exact hattended.1

theorem reachable_launched (hfresh : input.continued = false)
    (hc : Reachable E input c) : Launched c.2.st :=
  reach_statuses
    (P := fun _ _ status => status.lifecycleState = .running → status.runID ≠ "") hfresh
    (fun _ _ _ => nofun) (fun _ _ _ _ _ hnode => hnode)
    (fun hc hrow _ hnode => changedNode_launched hnode
      (hrow.started_run (reachable_scheduled hc) (reachable_attended hc))) hc

/-- A node without a name has a status only if the spec declares it. -/
def BlankDeclared (l : Locals) : Prop :=
  (l.state.nodeStatus "").isSome = true → "" ∈ l.spec.nodes.map PlanNodeSpec.nodeID

theorem Posted.blank
    (h : Posted E spec event w answer v) (hsome : (v.st.state.nodeStatus "").isSome = true) :
    (w.st.state.nodeStatus "").isSome = true := by
  obtain ⟨_, _, _, _, _, _, happlied | ⟨_, hfailed⟩⟩ := h.effect
  · rw [happlied.lookup, nodeAfter] at hsome
    split_ifs at hsome with hexpanded hid
    · cases hbefore : w.st.state.nodeStatus "" with
      | some status => rfl
      | none =>
        rw [hbefore, none_or, isSome_map, find?_isSome] at hsome
        obtain ⟨node, hnode, hid⟩ := hsome
        exact absurd (by simpa using hid) (happlied.fresh hexpanded node hnode).1
    · rwa [isSome_map] at hsome
    · exact hsome
  · rwa [hfailed.blank] at hsome

theorem reachable_blankDeclared (hfresh : input.continued = false)
    (hc : Reachable E input c) : BlankDeclared c.2.st := by
  refine reach_always nofun (fun c d hc h hI => ?_) hc
  intro hsome
  rcases h.plan_cases hfresh hc with ⟨spec, event, ok, bad, answer, -, hposted⟩ | ⟨-, hmoved⟩
  · rw [hposted.framed.spec]
    exact hI (hposted.blank hsome)
  rcases hmoved with ⟨hstate, nodes, edges, hspec⟩ | ⟨time, -, hspec, hstate⟩ | ⟨hspec, -, hlookup⟩
  · rw [hstate] at hsome
    rw [hspec]
    exact map_subset _ (subset_append_left _ _) (hI hsome)
  · rw [hstate] at hsome
    rw [hspec]
    exact (newState_ids _ _ _).mp hsome
  · rw [hlookup] at hsome
    rw [hspec]
    exact hI hsome

theorem nodeID_ne (hready : PlanReady w.st) (hblank : BlankDeclared w.st)
    (hsome : (w.st.state.nodeStatus nodeID).isSome = true) : nodeID ≠ "" := by
  rintro rfl
  obtain ⟨node, hnode, hid⟩ := mem_map.mp (hblank hsome)
  rw [← hready.1] at hnode
  exact (hready.2.named node hnode).1 hid

end AgentOS.Plan
