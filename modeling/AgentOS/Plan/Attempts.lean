import AgentOS.Plan.Hand

/-!
# Attempts and run ids

The run of an attempt gets the run id of the node in the plan, and from the second attempt on
the number of the attempt after it.  The loop looks a run up by this id alone.
-/

namespace AgentOS.Plan

open Kit List State SortedMap String

variable {E : Host} {input : PlanWorkflowInput} {x : Execution} {p p' : Point} {w v : World}

/-! ## The nodes of the spec -/

/-- The node of the spec with an id. -/
def declaredNode (spec : RunPlanSpec) (nodeID : String) : Option PlanNodeSpec :=
  spec.nodes.find? fun node => node.nodeID = nodeID

/-- The attempts that the spec allows a node.  A node that the spec does not have gets
the default. -/
def maxAttemptsOf (spec : RunPlanSpec) (nodeID : String) : Int :=
  match spec.nodes.find? fun node => node.nodeID = nodeID with
  | some node => maxNodeAttempts node.policy
  | none => 1

theorem maxNodeAttempts_range (policy : NodePolicy) :
    1 ≤ maxNodeAttempts policy ∧ maxNodeAttempts policy < 2 ^ 31 := by
  have hrange : int32 policy.maxAttempts < 2 ^ 31 := by
    unfold int32
    have h := @Int.bmod_lt policy.maxAttempts (2 ^ 32) (by omega)
    omega
  unfold maxNodeAttempts
  split_ifs
  · omega
  · omega

theorem maxAttemptsOf_range (spec : RunPlanSpec) (nodeID : String) :
    1 ≤ maxAttemptsOf spec nodeID ∧ maxAttemptsOf spec nodeID < 2 ^ 31 := by
  unfold maxAttemptsOf
  split
  · exact maxNodeAttempts_range _
  · omega

variable {spec spec' : RunPlanSpec} {nodeID base runID : String} {node : PlanNodeSpec} {l : Locals}
  {status : PlanNodeStatus} {c : Config} {act : Act} {k : Int}
  {runs : SortedMap String PlanNodeRun} {event : StateEvent} {e : Locals × Act}

theorem Extends.declaredNode (h : Extends spec spec')
    (hnode : declaredNode spec nodeID = some node) : declaredNode spec' nodeID = some node := by
  obtain ⟨nodes, edges, rfl⟩ := h
  unfold Plan.declaredNode at hnode ⊢
  simp [hnode]

theorem Extends.maxAttemptsOf_le (h : Extends spec spec')
    (nodeID : String) : maxAttemptsOf spec nodeID ≤ maxAttemptsOf spec' nodeID := by
  have hone := (maxAttemptsOf_range spec' nodeID).1
  obtain ⟨nodes, edges, rfl⟩ := h
  unfold maxAttemptsOf at hone ⊢
  simp only [find?_append] at hone ⊢
  cases hfind : spec.nodes.find? fun node => node.nodeID = nodeID with
  | none =>
    rw [hfind] at hone
    exact hone
  | some node => exact le_rfl

theorem declaredNode_of_mem (hready : PlanReady l)
    (hmem : node ∈ l.spec.nodes) : declaredNode l.spec node.nodeID = some node := by
  have hnodup := hready.2.nodup
  rw [hready.1] at hnodup
  exact find?_key _ hnodup hmem

theorem maxAttemptsOf_eq (hready : PlanReady l) (hnode : FromSpec l.spec node) :
    maxAttemptsOf l.spec node.nodeID = maxNodeAttempts node.policy := by
  obtain ⟨declared, hdeclared, hcopy⟩ := hnode
  have hfind : (l.spec.nodes.find? fun other => other.nodeID = node.nodeID) = some declared := by
    rw [hcopy]
    exact declaredNode_of_mem hready hdeclared
  unfold maxAttemptsOf
  rw [hfind, hcopy]

/-! ## The attempts of one node -/

theorem State.not_transition_of_running {kind : EventKind} {lifecycle : NodeLifecycle}
    (h : lifecycleAfter kind lifecycle = .running) (hstarted : kind ≠ .nodeStarted) :
    reducerNodeLifecycleForEvent kind = none := by
  cases kind <;> first | rfl | exact absurd rfl hstarted | cases h

/-- The status of a node agrees with the attempts and the run id that the spec gives it.  The
last disjunct of `left` is the count that the next attempt overflows. -/
structure Tallied (spec : RunPlanSpec) (nodeID : String) (status : PlanNodeStatus) : Prop where
  nonneg : 0 ≤ status.attempts
  bounded : status.attempts ≤ maxAttemptsOf spec nodeID
  left : status.lifecycleState = .pending ∨ status.lifecycleState = .ready →
    status.attempts < maxAttemptsOf spec nodeID ∨ status.attempts = 2 ^ 31 - 1
  running : status.lifecycleState = .running → 0 < status.attempts ∧
    ∃ node, declaredNode spec nodeID = some node ∧
      status.runID = nodeRunIDForAttempt node.run.runID status.attempts

theorem Tallied.pending (spec : RunPlanSpec) (node : PlanNodeSpec) (now : Time) :
    Tallied spec node.nodeID (pendingNodeStatus node now) := by
  have hmax := (maxAttemptsOf_range spec node.nodeID).1
  exact ⟨le_rfl, by show (0 : Int) ≤ _; omega, fun _ => .inl (by show (0 : Int) < _; omega), nofun⟩

theorem Tallied.grows (hgrows : Extends spec spec') (h : Tallied spec nodeID status) :
    Tallied spec' nodeID status := by
  have hle := hgrows.maxAttemptsOf_le nodeID
  refine ⟨h.nonneg, h.bounded.trans hle, fun hopen => ?_, fun hrunning => ?_⟩
  · exact (h.left hopen).imp (fun hless => hless.trans_le hle) id
  · obtain ⟨hpositive, node, hnode, hrun⟩ := h.running hrunning
    exact ⟨hpositive, node, hgrows.declaredNode hnode, hrun⟩

def RetryFor (spec : RunPlanSpec) (nodeID : String) (attempt : Int) (status : PlanNodeStatus) :
    Prop :=
  attempt = int32 (failedAttempt status + 1) ∧ attempt ≤ maxAttemptsOf spec nodeID

structure Tallies (l : Locals) (event : StateEvent) : Prop where
  started : event.kind = .nodeStarted → HasStatus l event.nodeID (fun status =>
      status.lifecycleState = .ready ∧ event.attempt = int32 (status.attempts + 1)) ∧
    0 < event.attempt ∧ event.runID ≠ "" ∧ ∃ node, declaredNode l.spec event.nodeID = some node ∧
      event.runID = nodeRunIDForAttempt node.run.runID event.attempt
  ready : event.kind = .nodeReady → HasStatus l event.nodeID fun status =>
    status.lifecycleState = .pending ∨ status.lifecycleState = .ready
  retried : event.kind = .nodeRetryScheduled →
    HasStatus l event.nodeID (RetryFor l.spec event.nodeID event.attempt)

section Changes

variable {l : Locals} {spec : RunPlanSpec} {nodeID : String} {event : StateEvent} {now : Time}
  {status : PlanNodeStatus}

theorem Tallied.next (h : Tallied spec nodeID status) (hready : status.lifecycleState = .ready)
    (hattempt : event.attempt = int32 (status.attempts + 1)) (hpositive : 0 < event.attempt) :
    event.attempt = status.attempts + 1 ∧ event.attempt ≤ maxAttemptsOf spec nodeID := by
  have hmax := (maxAttemptsOf_range spec nodeID).2
  have hnonneg := h.nonneg
  rcases h.left (.inr hready) with hless | hlast
  · rw [int32_eq_self (by omega) (by omega)] at hattempt
    omega
  · rw [hattempt, hlast] at hpositive
    exact absurd hpositive (by decide)

theorem State.changedNode_retried (now : Time) (hkind : event.kind = .nodeRetryScheduled)
    (hattempt : event.attempt = int32 (failedAttempt status + 1)) (hnonneg : 0 ≤ status.attempts) :
    (changedNode event now status).lifecycleState = .ready ∧
      (changedNode event now status).attempts = failedAttempt status := by
  constructor
  · rw [changedNode_lifecycle, hkind]
    rfl
  simp only [changedNode, hkind, retriedNode]
  by_cases hzero : status.attempts = 0
  · have hone : failedAttempt status = 1 := by rw [failedAttempt, if_pos (by omega)]
    rw [hone] at hattempt
    rw [if_pos ⟨hzero, by rw [hattempt]; decide⟩, hattempt, hone]
    decide
  · rw [if_neg fun h => hzero h.1, failedAttempt, if_neg (by omega)]

theorem failedAttempt_pos (status : PlanNodeStatus) : 1 ≤ failedAttempt status := by
  unfold failedAttempt
  split_ifs <;> omega

theorem Tallied.changed (h : Tallied spec nodeID status) (hstarted : event.kind ≠ .nodeStarted)
    (hretry : event.kind ≠ .nodeRetryScheduled) (hready : event.kind = .nodeReady →
      status.lifecycleState = .pending ∨ status.lifecycleState = .ready) :
    Tallied spec nodeID (changedNode event now status) := by
  have hattempts : (changedNode event now status).attempts = status.attempts :=
    changedNode_attempts hstarted hretry
  refine ⟨?_, ?_, fun hafter => ?_, fun hafter => ?_⟩
  · rw [hattempts]
    exact h.nonneg
  · rw [hattempts]
    exact h.bounded
  · rw [changedNode_lifecycle] at hafter
    rw [hattempts]
    rcases lifecycleAfter_open hafter with hkind | hkind | hbefore
    · exact h.left (hready hkind)
    · exact absurd hkind hretry
    · exact h.left hbefore
  · rw [changedNode_lifecycle] at hafter
    have hbefore := (lifecycleAfter_running hafter).resolve_left hstarted
    have hrun : (changedNode event now status).runID = status.runID := by
      rw [changedNode_runID hretry, if_neg]
      rw [not_transition_of_running hafter hstarted]
      nofun
    rw [hattempts, hrun]
    exact h.running hbefore

theorem Tallied.started (h : Tallied spec nodeID status) (hkind : event.kind = .nodeStarted)
    (hready : status.lifecycleState = .ready)
    (hattempt : event.attempt = int32 (status.attempts + 1)) (hpositive : 0 < event.attempt)
    (hnamed : event.runID ≠ "") (hnode : declaredNode spec nodeID = some node)
    (hrun : event.runID = nodeRunIDForAttempt node.run.runID event.attempt) :
    Tallied spec nodeID (changedNode event now status) := by
  obtain ⟨hlifecycle, hattempts, hrunID⟩ :
      (changedNode event now status).lifecycleState = .running ∧
        (changedNode event now status).attempts = event.attempt ∧
        (changedNode event now status).runID = event.runID :=
    changedNode_started hkind hready hpositive hnamed
  obtain ⟨-, hbounded⟩ := h.next hready hattempt hpositive
  refine ⟨?_, ?_, fun hafter => ?_, fun _ => ?_⟩
  · omega
  · omega
  · rw [hlifecycle] at hafter
    rcases hafter with hafter | hafter <;> cases hafter
  · rw [hattempts, hrunID]
    exact ⟨hpositive, node, hnode, hrun⟩

theorem Tallied.retried (h : Tallied spec nodeID status) (hkind : event.kind = .nodeRetryScheduled)
    (hretry : RetryFor spec nodeID event.attempt status) :
    Tallied spec nodeID (changedNode event now status) := by
  obtain ⟨hattempt, hbound⟩ := hretry
  have hnonneg := h.nonneg
  have hbounded := h.bounded
  obtain ⟨hmin, hmax⟩ := maxAttemptsOf_range spec nodeID
  obtain ⟨hlifecycle, hattempts⟩ := changedNode_retried now hkind hattempt hnonneg
  have hone := failedAttempt_pos status
  have hlast : failedAttempt status ≤ maxAttemptsOf spec nodeID := by
    unfold failedAttempt
    split_ifs
    · omega
    · omega
  refine ⟨?_, ?_, fun _ => ?_, fun hafter => ?_⟩
  · omega
  · omega
  · rw [hattempts]
    by_cases hoverflow : failedAttempt status = 2 ^ 31 - 1
    · exact .inr hoverflow
    · rw [int32_eq_self (by omega) (by omega)] at hattempt
      exact .inl (by omega)
  · rw [hlifecycle] at hafter
    cases hafter

theorem Tallies.tallied (h : Tallies l event) {time : Time}
    (hstatus : l.state.nodeStatus event.nodeID = some status)
    (hI : Tallied l.spec event.nodeID status) :
    Tallied l.spec event.nodeID (changedNode (stamped l time event) now status) := by
  by_cases hretry : event.kind = .nodeRetryScheduled
  · exact hI.retried hretry ((h.retried hretry).holds hstatus)
  by_cases hstarted : event.kind = .nodeStarted
  · obtain ⟨hat, hpositive, hnamed, node, hnode, hrun⟩ := h.started hstarted
    obtain ⟨hready, hattempt⟩ := hat.holds hstatus
    exact hI.started hstarted hready hattempt hpositive hnamed hnode hrun
  · exact hI.changed hstarted hretry fun hready => (h.ready hready).holds hstatus

end Changes

/-! ## Starts and retries under way -/

def PreparedNode (l : Locals) (node : PlanNodeSpec) : Work → Prop
  | .opening | .announced | .readied => declaredNode l.spec node.nodeID = some node
  | .resolved attempt .. | .accepted attempt .. | .started attempt _ => 0 < attempt ∧
      ∃ declared, declaredNode l.spec node.nodeID = some declared ∧
        node.run.runID = nodeRunIDForAttempt declared.run.runID attempt
  | .closing event => event.kind = .nodeRetryScheduled →
      HasStatus l node.nodeID (RetryFor l.spec node.nodeID event.attempt)
  | _ => True

def Prepared (l : Locals) : Point → Prop
  | .retrying retry =>
      HasStatus l retry.node.nodeID fun status => status.lifecycleState = .failed ∧
        RetryFor l.spec retry.node.nodeID retry.nextAttempt status
  | .node _ node work => PreparedNode l node work
  | _ => True

theorem manualNodeRetry_ok {signal : Signal} {retry : ManualRetryRequest} (hready : PlanReady l)
    (h : manualNodeRetry signal l.state l.validation = .ok retry) : Prepared l (.retrying retry) := by
  obtain ⟨nodeID, -, h⟩ := bind_ok h
  obtain ⟨node, hnode, h⟩ := bind_ok h
  obtain ⟨hmem, rfl⟩ := nodeByID_ok hready hnode
  split at h
  · cases h
  next current hstatus =>
  obtain ⟨⟨⟩, hvalid, h⟩ := bind_ok h
  cases h
  unfold validateManualRetryAttempt at hvalid
  split_ifs at hvalid with hfailed hexceeds
  refine ⟨current, hstatus, not_not.mp hfailed, rfl, ?_⟩
  rw [maxAttemptsOf_eq hready (.declared hmem)]
  exact Int.not_lt.mp hexceeds

section Rows

variable {node node' : PlanNodeSpec} {work work' : Work} {act : Act}

theorem NodeSkips.prepared (h : NodeSkips E x node w work work') (hready : PlanReady w.st)
    (hnode : FromSpec w.st.spec node) (hI : PreparedNode w.st node work) :
    PreparedNode w.st node work' := by
  cases h with
  | noCapability => exact hI
  | @retried _ _ current hstatus =>
    refine fun _ => ⟨current, hstatus, rfl, ?_⟩
    have hmax := (maxNodeAttempts_range node.policy).2
    have hone := failedAttempt_pos current
    rw [maxAttemptsOf_eq hready hnode]
    show int32 (failedAttempt current + 1) ≤ _
    rw [int32_eq_self (by omega) (by omega)]
    omega
  | exhausted | canceled | unexpanded | unnamed => exact nofun
  | _ => trivial

theorem NodeSays.prepared (h : NodeSays x node w work act work') :
    PreparedNode (w.st.step act) node work' := by
  cases h with
  | promiseFailed | adopted => exact nofun
  | _ => trivial

theorem NodeAsks.prepared {arrivals : Arrivals} (h : NodeAsks E node w work act node' work')
    (hI : PreparedNode w.st node work) : PreparedNode (asked w act arrivals).st node' work' := by
  cases h with
  | resolved hnode =>
    obtain ⟨hcopy, hrun, hpositive⟩ := nodeForAttempt_ok hnode
    refine ⟨hpositive, node, ?_, hrun⟩
    rw [hcopy]
    exact hI
  | unpublished | expansionNone | statusFailed => exact nofun
  | _ => trivial

theorem NodePosts.prepared
    (h : NodePosts node w work spec event work') (hspec : v.st.spec = w.st.spec)
    (hI : PreparedNode w.st node work) : PreparedNode v.st node work' := by
  cases h with
  | capability | ready =>
    show declaredNode v.st.spec node.nodeID = some node
    rw [hspec]
    exact hI
  | inputResolved | started =>
    refine ⟨hI.1, ?_⟩
    rw [hspec]
    exact hI.2
  | _ => trivial

end Rows

theorem reachable_prepared (hc : Reachable E input c) : Prepared c.2.st c.1.2 := by
  refine reach_always trivial (fun c d hc h hI => ?_) hc
  have hplanned := reachable_planned hc
  have hscheduled := reachable_scheduled hc
  cases h with
  | @skip _ _ _ w h =>
    cases h with
    | start =>
      exact declaredNode_of_mem hplanned (hscheduled mem_cons_self)
    | @node _ _ work _ h =>
      have hready : PlanReady w.st := by
        cases work <;> first | exact hplanned | exact hplanned.1
      exact h.prepared hready hscheduled.1 hI
    | command h =>
      cases h with
      | retry _ _ hretry => exact manualNodeRetry_ok hplanned hretry
      | _ => trivial
    | _ => trivial
  | say h =>
    cases h with
    | node h => exact h.prepared
    | _ => trivial
  | ask h =>
    cases h with
    | node h => exact h.prepared hI
    | _ => trivial
  | saved h hposted =>
    cases h with
    | retryApproved _ _ hretry =>
      obtain ⟨status, hstatus, hfor⟩ := manualNodeRetry_ok hplanned hretry
      refine ⟨status, (hposted.lookup_plan rfl _).trans hstatus, ?_⟩
      rw [hposted.framed.spec]
      exact hfor
    | node h => exact h.prepared hposted.framed.spec hI
    | _ => trivial
  | unsaved h _ => cases h <;> trivial
  | begin | refuse => trivial

theorem NodePosts.tallies {site : Site} {work work' : Work}
    (h : NodePosts node w work spec event work')
    (hscheduled : Scheduled w.st.spec (.node site node work)) (hattended : Attended w.st node work)
    (hprepared : PreparedNode w.st node work) : Tallies w.st event := by
  cases h with
  | ready => exact ⟨by rintro ⟨⟩, fun _ => hattended.2, by rintro ⟨⟩⟩
  | started =>
    exact ⟨fun _ => ⟨hattended.2.2, hattended.2.1, hattended.1, hprepared.2⟩, by rintro ⟨⟩, by rintro ⟨⟩⟩
  | close =>
    obtain ⟨hcloses, hid⟩ := hscheduled.2.2.closes
    refine ⟨fun hkind => ?_, fun hkind => ?_, fun hkind => ?_⟩
    · simp [EventKind.closesNode, hkind] at hcloses
    · simp [EventKind.closesNode, hkind] at hcloses
    · rw [hid]
      exact hprepared hkind
  | _ => exact ⟨by rintro ⟨⟩, by rintro ⟨⟩, by rintro ⟨⟩⟩

theorem Posts.tallies {ok : Point} {bad : Err → Point}
    (hc : Reachable E input ((x, p), w)) (h : Posts E x w p spec event ok bad) :
    Tallies w.st event := by
  have hother : event.kind ≠ .nodeStarted → event.kind ≠ .nodeReady →
      event.kind ≠ .nodeRetryScheduled → Tallies w.st event := fun hstarted hready hretry =>
    ⟨fun h => absurd h hstarted, fun h => absurd h hready, fun h => absurd h hretry⟩
  cases h with
  | retry =>
    have hprepared := reachable_prepared hc
    exact ⟨nofun, nofun, fun _ => hprepared.imp fun _ => And.right⟩
  | ended hends => exact hother (hends.ne rfl) (hends.ne rfl) (hends.ne rfl)
  | terminalBefore | terminalAfter =>
    exact hother (terminalPlanEvent_ne rfl) (terminalPlanEvent_ne rfl) (terminalPlanEvent_ne rfl)
  | node h =>
    exact h.tallies (reachable_scheduled hc) (reachable_attended hc) (reachable_prepared hc)
  | _ => exact hother nofun nofun nofun

theorem reachable_tallied (hfresh : input.continued = false)
    (hc : Reachable E input c) : AllStatuses Tallied c.2.st :=
  reach_statuses hfresh Tallied.pending (fun _ _ hgrows _ _ h => h.grows hgrows)
    (fun hc hrow hstatus hI => (Posts.tallies hc hrow).tallied hstatus hI) hc

/-! ## The runs that are started -/

/-- An attempt of a node and the run id that it gets. -/
structure RunStart where
  nodeID : String
  attempt : Int
  runID : String
  deriving DecidableEq

/-- The attempt that an action starts.  An operation is started for the attempt that its
node is at. -/
def startOf : Locals × Act → Option RunStart
  | (_, .apply event) =>
      if event.kind = .nodeStarted then some ⟨event.nodeID, event.attempt, event.runID⟩ else none
  | (_, .startNode request attempt _) => some ⟨request.nodeID, attempt, request.run.runID⟩
  | (l, .startNexus nodeID run _) =>
      (l.state.nodeStatus nodeID).map fun status => ⟨nodeID, status.attempts, run.runID⟩
  | _ => none

def Identified (spec : RunPlanSpec) (start : RunStart) : Prop :=
  (0 < start.attempt ∧ start.attempt ≤ maxAttemptsOf spec start.nodeID) ∧
    ∃ node, declaredNode spec start.nodeID = some node ∧
      start.runID = nodeRunIDForAttempt node.run.runID start.attempt

variable {start : RunStart}

theorem Identified.grows (hgrows : Extends spec spec') (h : Identified spec start) :
    Identified spec' start := by
  obtain ⟨⟨hpositive, hbounded⟩, node, hnode, hrun⟩ := h
  exact ⟨⟨hpositive, hbounded.trans (hgrows.maxAttemptsOf_le _)⟩, node,
    hgrows.declaredNode hnode, hrun⟩

theorem startPlanNodeRequest_ok {request : PlanNodeSpec} {attempt : Int}
    (h : startPlanNodeRequest E spec node attempt = .ok request) :
    request.nodeID = node.nodeID ∧ request.run.runID = node.run.runID := by
  unfold startPlanNodeRequest at h
  split_ifs at h
  all_goals
    obtain ⟨key, -, h⟩ := bind_ok h
    cases h
    try exact ⟨rfl, rfl⟩

theorem Tallied.identified
    (h : Tallied spec nodeID status) (hrunning : status.lifecycleState = .running) :
    Identified spec ⟨nodeID, status.attempts, status.runID⟩ := by
  obtain ⟨hpositive, node, hnode, hrun⟩ := h.running hrunning
  exact ⟨⟨hpositive, h.bounded⟩, node, hnode, hrun⟩

theorem attended_identified (hfresh : input.continued = false) {site : Site}
    {attempt : Int} {given : List (String × Json)}
    (hc : Reachable E input ((x, .node site node (.started attempt given)), w)) :
    ∃ status, w.st.state.nodeStatus node.nodeID = some status ∧ status.attempts = attempt ∧
      Identified w.st.spec ⟨node.nodeID, attempt, node.run.runID⟩ := by
  obtain ⟨status, hstatus, hrunning, rfl, hrun⟩ : HasStatus w.st node.nodeID fun status =>
      status.lifecycleState = .running ∧ status.attempts = attempt ∧
        status.runID = node.run.runID := reachable_attended hc
  refine ⟨status, hstatus, rfl, ?_⟩
  rw [← hrun]
  exact (reachable_tallied hfresh hc _ _ hstatus).identified hrunning

theorem Rowed.identified (hfresh : input.continued = false) (h : Rowed E input w act)
    (hstart : startOf (w.st, act) = some start) : Identified w.st.spec start := by
  cases h with
  | said hreach hrow =>
    cases hrow with
    | node hrow =>
      cases hrow with
      | launched =>
        obtain ⟨status, hstatus, rfl, hidentified⟩ := attended_identified hfresh hreach
        simp only [startOf, hstatus, Option.map_some, Option.some.injEq] at hstart
        exact hstart ▸ hidentified
      | _ => cases hstart
    | _ => cases hstart
  | asked hreach hrow =>
    cases hrow with
    | node hrow =>
      cases hrow with
      | startFailed hrequest | startForeign _ hrequest | startLive hrequest
      | startEnded hrequest =>
        obtain ⟨-, -, -, hidentified⟩ := attended_identified hfresh hreach
        obtain ⟨hid, hrun⟩ := startPlanNodeRequest_ok hrequest
        simp only [startOf, hid, hrun, Option.some.injEq] at hstart
        exact hstart ▸ hidentified
      | _ => cases hstart
    | _ => cases hstart
  | @applied _ _ _ _ _ event _ hreach hrow =>
    by_cases hkind : event.kind = .nodeStarted
    · obtain rfl : RunStart.mk event.nodeID event.attempt event.runID = start :=
        Option.some.inj ((if_pos hkind).symm.trans hstart)
      obtain ⟨⟨status, hstatus, hready, hattempt⟩, hpositive, -, node, hnode, hrun⟩ :=
        (Posts.tallies hreach hrow).started hkind
      have htallied := reachable_tallied hfresh hreach _ _ hstatus
      exact ⟨⟨hpositive, (htallied.next hready hattempt hpositive).2⟩, node, hnode, hrun⟩
    · cases (if_neg hkind).symm.trans hstart
  | _ => cases hstart

theorem reachable_identified (hfresh : input.continued = false) (hc : Reachable E input c)
    (he : e ∈ c.2.log) (hstart : startOf e = some start) : Identified c.2.st.spec start := by
  obtain ⟨earlier, -, hrow⟩ := (reachable_rowed hc).of_mem he
  exact (hrow.identified hfresh hstart).grows (reachable_extends hc e he)

/-- Every attempt that a new plan starts, or has under way, is one that its node is allowed, and
goes by its own run id. -/
theorem starts_identified (E : Host) (r : PlanRuntime) (spec : RunPlanSpec) (n : Nat) :
    let w := (planRun E (r.newPlanInput spec) n).world
    (∀ e ∈ w.log, ∀ start ∈ startOf e, Identified w.st.spec start) ∧
      ∀ nodeID status, w.st.state.nodeStatus nodeID = some status →
        status.lifecycleState = .running →
        Identified w.st.spec ⟨nodeID, status.attempts, status.runID⟩ := by
  obtain ⟨c, hreach, hat⟩ := planRun_path E (r.newPlanInput spec) n
  rw [← hat.world]
  refine ⟨fun e he start hstart => reachable_identified rfl hreach he hstart, ?_⟩
  intro nodeID status hstatus hrunning
  exact (reachable_tallied rfl hreach nodeID status hstatus).identified hrunning

/-! ## Distinct run ids -/

theorem append_cons_inj {α : Type} {sep : α} {xs xs' ds ds' : List α} (hds : sep ∉ ds)
    (hds' : sep ∉ ds') (h : xs ++ sep :: ds = xs' ++ sep :: ds') : xs = xs' ∧ ds = ds' := by
  rcases append_eq_append_iff.mp h with ⟨a, rfl, ha⟩ | ⟨a, rfl, ha⟩
  · cases a with
    | nil => exact ⟨(append_nil _).symm, (cons.inj ha).2⟩
    | cons c a => exact absurd ((cons.inj ha).2 ▸ by simp) hds
  · cases a with
    | nil => exact ⟨append_nil _, (cons.inj ha).2.symm⟩
    | cons c a => exact absurd ((cons.inj ha).2 ▸ by simp) hds'

theorem dash_notMem_repr (n : Nat) : '-' ∉ n.repr.toList := by
  rw [Nat.toList_repr]
  intro hmem
  exact absurd (Nat.isDigit_of_mem_toDigits (by decide) (by decide) hmem) (by decide)

theorem numbered_inj {base' : String} {n n' : Nat}
    (h : base ++ "-attempt-" ++ n.repr = base' ++ "-attempt-" ++ n'.repr) :
    base = base' ∧ n = n' := by
  have hsplit : ∀ (s : String) (k : Nat), (s ++ "-attempt-" ++ k.repr).toList =
      (s ++ "-attempt").toList ++ '-' :: k.repr.toList := by
    intro s k
    simp [toList_append]
  have hlists := congrArg toList h
  rw [hsplit, hsplit] at hlists
  obtain ⟨hbase, hdigits⟩ := append_cons_inj (dash_notMem_repr n) (dash_notMem_repr n') hlists
  have hn := congrArg (fun digits => Nat.ofDigitChars 10 digits 0) hdigits
  exact ⟨(String.append_left_inj _).mp (toList_inj.mp hbase), by simpa [Nat.toList_repr] using hn⟩

theorem nodeRunIDForAttempt_inj {base' : String} {k' : Int} (hk : 0 < k) (hk' : 0 < k')
    (h : nodeRunIDForAttempt base k = nodeRunIDForAttempt base' k') :
    base = base' ∧ k = k' ∨ base = nodeRunIDForAttempt base' k' ∨
      base' = nodeRunIDForAttempt base k := by
  by_cases hone : k ≤ 1
  · rw [nodeRunIDForAttempt, if_pos hone] at h
    exact .inr (.inl h)
  by_cases hone' : k' ≤ 1
  · rw [nodeRunIDForAttempt.eq_def base', if_pos hone'] at h
    exact .inr (.inr h.symm)
  obtain ⟨n, rfl⟩ := Int.eq_ofNat_of_zero_le hk.le
  obtain ⟨n', rfl⟩ := Int.eq_ofNat_of_zero_le hk'.le
  rw [nodeRunIDForAttempt, nodeRunIDForAttempt, if_neg hone, if_neg hone'] at h
  obtain ⟨hbase, hn⟩ := numbered_inj h
  exact .inl ⟨hbase, congrArg _ hn⟩

theorem nodeRunIDForAttempt_eq_self (h : nodeRunIDForAttempt base k = base) : k ≤ 1 := by
  by_contra hone
  rw [nodeRunIDForAttempt, if_neg hone] at h
  have hlength := congrArg String.length h
  simp only [String.length_append] at hlength
  have hnine : "-attempt-".length = 9 := rfl
  omega

/-- No run id of a node is one that an attempt of another node can get. -/
def runIDsApart (spec : RunPlanSpec) : Bool :=
  spec.nodes.all fun node => spec.nodes.all fun other =>
    node.nodeID = other.nodeID || (range (maxNodeAttempts other.policy).toNat).all fun k =>
        node.run.runID != nodeRunIDForAttempt other.run.runID (k + 1)

theorem runIDsApart_ne (h : runIDsApart spec = true) {other : PlanNodeSpec}
    (hnode : node ∈ spec.nodes) (hother : other ∈ spec.nodes) (hids : node.nodeID ≠ other.nodeID)
    (hk : 0 < k) (hmax : k ≤ maxNodeAttempts other.policy) :
    node.run.runID ≠ nodeRunIDForAttempt other.run.runID k := by
  have hall := all_eq_true.mp (all_eq_true.mp h node hnode) other hother
  rw [Bool.or_eq_true, all_eq_true] at hall
  have hne := hall.resolve_left (by simpa using hids) (k - 1).toNat (mem_range.mpr (by omega))
  have hk' : (((k - 1).toNat : Int) + 1) = k := by omega
  rw [hk'] at hne
  simpa using hne

theorem Identified.inj (hapart : runIDsApart spec = true)
    {start' : RunStart} (h : Identified spec start) (h' : Identified spec start')
    (hrun : start.runID = start'.runID) : start = start' := by
  obtain ⟨nodeID, attempt, runID⟩ := start
  obtain ⟨nodeID', attempt', runID'⟩ := start'
  obtain rfl : runID = runID' := hrun
  obtain ⟨⟨hk, hmax⟩, node, hnode, hid⟩ := h
  obtain ⟨⟨hk', hmax'⟩, node', hnode', hid'⟩ := h'
  dsimp only at hk hmax hnode hid hk' hmax' hnode' hid'
  rw [hid] at hid'
  have hcases := nodeRunIDForAttempt_inj hk hk' hid'
  by_cases hsame : nodeID = nodeID'
  · subst hsame
    rw [hnode'] at hnode
    obtain rfl := Option.some.inj hnode
    suffices hattempt : attempt = attempt' by rw [hattempt]
    rcases hcases with ⟨-, hattempt⟩ | hself | hself
    · exact hattempt
    · have hone' := nodeRunIDForAttempt_eq_self hself.symm
      rw [← hself] at hid'
      have hone := nodeRunIDForAttempt_eq_self hid'
      omega
    · have hone := nodeRunIDForAttempt_eq_self hself.symm
      rw [← hself] at hid'
      have hone' := nodeRunIDForAttempt_eq_self hid'.symm
      omega
  · exfalso
    have hfound : ∀ {nodeID : String} {found : PlanNodeSpec},
        declaredNode spec nodeID = some found → found ∈ spec.nodes ∧ found.nodeID = nodeID ∧
          maxAttemptsOf spec nodeID = maxNodeAttempts found.policy := by
      intro nodeID found hfind
      refine ⟨mem_of_find?_eq_some hfind, by simpa using find?_some hfind, ?_⟩
      unfold declaredNode at hfind
      unfold maxAttemptsOf
      rw [hfind]
    obtain ⟨hmem, hnodeID, hpolicy⟩ := hfound hnode
    obtain ⟨hmem', hnodeID', hpolicy'⟩ := hfound hnode'
    have hids : node.nodeID ≠ node'.nodeID := by rwa [hnodeID, hnodeID']
    have hone : 1 ≤ maxNodeAttempts node'.policy := (maxNodeAttempts_range _).1
    rcases hcases with ⟨hbase, -⟩ | hbase | hbase
    · exact runIDsApart_ne hapart hmem hmem' hids Int.one_pos hone hbase
    · exact runIDsApart_ne hapart hmem hmem' hids hk' (hpolicy' ▸ hmax') hbase
    · exact runIDsApart_ne hapart hmem' hmem (Ne.symm hids) hk (hpolicy ▸ hmax) hbase

/-! ## The registered operations -/

theorem mem_keys_settlePromise {settled : String × Except NexusFailure RunStatus}
    (h : runID ∈ (settlePromise runs settled).keys) : runID ∈ runs.keys := by
  unfold settlePromise at h
  split at h
  · next run hrun =>
    split_ifs at h
    · rcases (mem_keys_insert ..).mp h with rfl | hmem
      · exact (mem_keys_iff ..).mpr (by rw [hrun]; rfl)
      · exact hmem
    · exact h
  · exact h

theorem mem_keys_foldl_settlePromise :
    ∀ (settled : List (String × Except NexusFailure RunStatus))
      {runs : SortedMap String PlanNodeRun},
      runID ∈ (settled.foldl settlePromise runs).keys → runID ∈ runs.keys
  | [], _, h => h
  | _ :: rest, _, h => mem_keys_settlePromise (mem_keys_foldl_settlePromise rest h)

theorem mem_keys_cancelRun {canceled : String}
    (h : runID ∈ (cancelRun runs canceled).keys) : runID ∈ runs.keys := by
  unfold cancelRun at h
  split at h
  · next run hrun =>
    rcases (mem_keys_insert ..).mp h with rfl | hmem
    · exact (mem_keys_iff ..).mpr (by rw [hrun]; rfl)
    · exact hmem
  · exact h

theorem mem_keys_dropRun {dropped : String}
    (h : runID ∈ (dropRun runs dropped).keys) : runID ∈ runs.keys := by
  obtain ⟨entry, hentry, rfl⟩ := mem_map.mp h
  exact mem_map_of_mem (mem_of_mem_filter hentry)

def Act.BeginsIdle : Act → Prop
  | .begin locals => locals.nodeRuns = empty
  | _ => True

theorem Rowed.beginsIdle (h : Rowed E input w act) : act.BeginsIdle := by
  cases h with
  | said _ hrow | asked _ hrow => cases hrow <;> first | trivial | (next h => cases h <;> trivial)
  | begun => rfl
  | _ => trivial

theorem Locals.step_nodeRuns (hidle : act.BeginsIdle) (h : runID ∈ (l.step act).nodeRuns.keys) :
    runID ∈ l.nodeRuns.keys ∨ ∃ nodeID run endpoint,
      act = .startNexus nodeID run endpoint ∧ run.runID = runID := by
  cases act with
  | startNexus nodeID run endpoint =>
    rcases (mem_keys_insert ..).mp h with rfl | hmem
    · exact .inr ⟨nodeID, run, endpoint, rfl, rfl⟩
    · exact .inl hmem
  | removePromise => exact .inl (mem_keys_dropRun h)
  | cancelPromise => exact .inl (mem_keys_cancelRun h)
  | deliver => exact .inl (mem_keys_foldl_settlePromise _ h)
  | begin locals =>
    rw [show (l.step (.begin locals)).nodeRuns = empty from hidle] at h
    cases h
  | validate answer => cases answer <;> exact .inl h
  | _ => exact .inl h

theorem started_of_registered {l₀ : Locals} {log : List (Locals × Act)}
    (h : Chained Locals.step l₀ l log) (hrowed : Taken (Rowed E input) log)
    (hempty : l₀.nodeRuns = empty) (hmem : runID ∈ l.nodeRuns.keys) :
    ∃ l' nodeID run endpoint, (l', .startNexus nodeID run endpoint) ∈ log ∧ run.runID = runID := by
  induction log generalizing l with
  | nil =>
    obtain rfl : l = l₀ := h
    rw [hempty] at hmem
    cases hmem
  | cons e log ih =>
    obtain ⟨l', act⟩ := e
    obtain ⟨rfl, hchained⟩ := h
    rcases Locals.step_nodeRuns hrowed.1.beginsIdle hmem with hold | ⟨nodeID, run, endpoint, rfl, hrun⟩
    · obtain ⟨l'', nodeID, run, endpoint, hstart, hrun⟩ := ih hchained hrowed.2 hold
      exact ⟨l'', nodeID, run, endpoint, mem_cons_of_mem _ hstart, hrun⟩
    · exact ⟨l', nodeID, run, endpoint, mem_cons_self, hrun⟩

theorem Rowed.startNexus (hfresh : input.continued = false) {endpoint : String}
    {run : RunSpec} (h : Rowed E input w (.startNexus nodeID run endpoint)) :
    ∃ attempt, startOf (w.st, .startNexus nodeID run endpoint) =
      some ⟨nodeID, attempt, run.runID⟩ := by
  cases h with
  | said hreach hrow =>
    cases hrow with
    | node hrow =>
      cases hrow with
      | launched =>
        obtain ⟨status, hstatus, -, -⟩ := attended_identified hfresh hreach
        refine ⟨status.attempts, ?_⟩
        simp [startOf, hstatus]
  | asked hreach hrow =>
    cases hrow with
    | node hrow => cases hrow

theorem reachable_log_tallied (hfresh : input.continued = false)
    (hc : Reachable E input c) : LogMeets (AllStatuses Tallied ·.1) c.2 := by
  refine reachable_entries (fun hall hstate hspec nodeID status hstatus => ?_)
    (reachable_tallied hfresh) hc
  rw [hspec]
  exact hall nodeID status (hstate ▸ hstatus)

theorem reachable_registered (hfresh : input.continued = false) (hc : Reachable E input c)
    (hapart : runIDsApart c.2.st.spec = true) {earlier : List (Locals × Act)}
    (hsuffix : e :: earlier <:+ c.2.log) (hstatus : e.1.state.nodeStatus nodeID = some status)
    (hrunning : status.lifecycleState = .running) (hmem : status.runID ∈ e.1.nodeRuns.keys) :
    ∃ started ∈ earlier, (∃ run endpoint, started.2 = .startNexus nodeID run endpoint) ∧
      startOf started = some ⟨nodeID, status.attempts, status.runID⟩ := by
  have he : e ∈ c.2.log := hsuffix.subset mem_cons_self
  have hrowed := (reachable_rowed hc).mono ((suffix_cons e earlier).trans hsuffix)
  obtain ⟨l, nodeID', run, endpoint, hstart, hrun⟩ :=
    started_of_registered ((reachable_chained hc).of_suffix hsuffix) hrowed rfl hmem
  obtain ⟨before, -, hrow⟩ := hrowed.of_mem hstart
  obtain ⟨attempt, hstartOf⟩ := Rowed.startNexus hfresh hrow
  have hother : Identified c.2.st.spec ⟨nodeID', attempt, run.runID⟩ :=
    reachable_identified hfresh hc (hsuffix.subset (mem_cons_of_mem _ hstart)) hstartOf
  have hthis : Identified c.2.st.spec ⟨nodeID, status.attempts, status.runID⟩ :=
    ((reachable_log_tallied hfresh hc e he nodeID status hstatus).identified hrunning).grows
      (reachable_extends hc e he)
  obtain ⟨rfl, rfl, -⟩ : nodeID' = nodeID ∧ attempt = status.attempts ∧ _ :=
    RunStart.mk.inj (hother.inj hapart hthis hrun)
  exact ⟨_, hstart, ⟨run, endpoint, rfl⟩, hrun ▸ hstartOf⟩

/-- Run identity of a new plan whose run ids are apart: two actions that start runs under
one id start the same attempt of the same node.  In every state of the run, the operation
that a running node finds under its run id is the one that was started for the node and the
attempt that it is at. -/
theorem run_identity (E : Host) (r : PlanRuntime) (spec : RunPlanSpec) (n : Nat)
    (hapart : runIDsApart (planRun E (r.newPlanInput spec) n).world.st.spec = true) :
    let w := (planRun E (r.newPlanInput spec) n).world
    (∀ e ∈ w.log, ∀ e' ∈ w.log, ∀ start start', startOf e = some start →
      startOf e' = some start' → start.runID = start'.runID → start = start') ∧
    ∀ e earlier, e :: earlier <:+ w.log → ∀ nodeID status,
      e.1.state.nodeStatus nodeID = some status → status.lifecycleState = .running →
      status.runID ∈ e.1.nodeRuns.keys →
        ∃ started ∈ earlier, (∃ run endpoint, started.2 = .startNexus nodeID run endpoint) ∧
          startOf started = some ⟨nodeID, status.attempts, status.runID⟩ := by
  obtain ⟨c, hreach, hat⟩ := planRun_path E (r.newPlanInput spec) n
  rw [← hat.world] at hapart ⊢
  refine ⟨fun e he e' he' start start' hstart hstart' hrun => ?_,
    fun e earlier hsuffix nodeID status hstatus hrunning hmem => ?_⟩
  · exact (reachable_identified rfl hreach he hstart).inj hapart
      (reachable_identified rfl hreach he' hstart') hrun
  · exact reachable_registered rfl hreach hapart hsuffix hstatus hrunning hmem

/-- Nodes run as Nexus operations, and the operation under the id `r` settles while the loop
waits. -/
def operationHost : Host :=
  { calmHost with
    nexusNodeRuns := fun _ => true
    statusNode := fun _ => .ok { lifecycleState := .other "running" }
    arrivals := fun w =>
      match w.log with
      | (_, .wait _) :: _ =>
          { settled := [("r", .ok { runID := "r", lifecycleState := .succeeded })] }
      | _ => {} }

/-- Two nodes side by side, the second with the given run id. -/
def twinPlan (runID : String) : PlanWorkflowInput :=
  planOf [nativeNode "a" "r", nativeNode "b" runID]

theorem run_identity_side :
    let w := (planRun operationHost (twinPlan "s") 4).world
    (∀ e ∈ w.log, ∀ e' ∈ w.log, ∀ start start', startOf e = some start →
      startOf e' = some start' → start.runID = start'.runID → start = start') ∧
    ∀ e earlier, e :: earlier <:+ w.log → ∀ nodeID status,
      e.1.state.nodeStatus nodeID = some status → status.lifecycleState = .running →
      status.runID ∈ e.1.nodeRuns.keys →
        ∃ started ∈ earlier, (∃ run endpoint, started.2 = .startNexus nodeID run endpoint) ∧
          startOf started = some ⟨nodeID, status.attempts, status.runID⟩ :=
  run_identity operationHost calmRuntime (twinPlan "s").spec 4 (by decide +kernel)

/-- Two nodes with one run id.  The operation of the second takes the place of that of the
first, and when it settles, it is the first node that succeeds. -/
theorem run_ids_shared :
    (planRun operationHost (twinPlan "r") 3).world.log.filterMap startOf =
      [⟨"b", 1, "r"⟩, ⟨"b", 1, "r"⟩, ⟨"a", 1, "r"⟩, ⟨"a", 1, "r"⟩] ∧
    (planRun operationHost (twinPlan "r") 3).world.st.nodeRuns.keys = ["r"] ∧
    (planRun operationHost (twinPlan "r") 4).world.st.state.status.nodes.map
        (fun status => (status.nodeID, status.lifecycleState)) =
      [("a", .succeeded), ("b", .running)] ∧
    (planRun operationHost (twinPlan "r") 4).world.st.nodeRuns.keys = [] := by
  decide +kernel

end AgentOS.Plan
