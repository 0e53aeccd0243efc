import AgentOS.Plan.Attempts

/-!
# The retries of a node

A node has a number of attempts.  Three places keep the count: `node.started` puts
the number of the attempt into the node's status, the reducer's `retryNode` patches
it for a node that never started, and `applyNodeAttemptFailure` compares it with the
limit to decide between a retry and a failure.
-/

namespace AgentOS.Plan

open Kit List State

variable {E : Host} {input : PlanWorkflowInput} {x : Execution} {p p' : Point} {w v : World}

/-! ## Attempts and retries -/

def retryOf (nodeID : String) : Locals × Act → Bool
  | (_, .apply event) => event.kind = .nodeRetryScheduled && event.nodeID = nodeID
  | _ => false

/-- The retries of a node so far. -/
def retries (w : World) (nodeID : String) : Nat := w.log.countP (retryOf nodeID)

/-- A retry signal that is handled. -/
def manualRetry : Locals × Act → Bool
  | (_, .markSignal signal) => signal.type = .planNodeRetry
  | _ => false

/-- An input that cannot be resolved, for a node that has attempts. -/
def uncountedFailure : Locals × Act → Bool
  | (l, .resolveInput node (.error _)) =>
      (l.state.nodeStatus node.nodeID).any fun status => 0 < status.attempts
  | _ => false

/-! ## Where a node is retried -/

def RetriesCounted (e : Locals × Act) : Prop := manualRetry e = false ∧ uncountedFailure e = false

def FailedNode (status : PlanNodeStatus) : Prop :=
  status.lifecycleState = .running ∨ status.attempts ≤ 0

def RetryReady (l : Locals) : Point → Prop
  | .handlingSignal signal => signal.type ≠ .planNodeRetry
  | .retrying _ => False
  | .node _ node (.attemptFailed ..) => HasStatus l node.nodeID FailedNode
  | .node _ node (.closing event) => event.kind = .nodeRetryScheduled →
      HasStatus l node.nodeID fun status =>
        FailedNode status ∧ failedAttempt status < maxNodeAttempts node.policy
  | _ => True

variable {work work' : Work} {node : PlanNodeSpec} {site : Site} {c : Config} {l : Locals}
  {event : StateEvent} {status : PlanNodeStatus}

theorem NodeSkips.retryReady
    (h : NodeSkips E x node w work work') (hattended : Attended w.st node work)
    (hI : RetryReady w.st (.node site node work)) : RetryReady w.st (.node site node work') := by
  cases h with
  | retried hstatus hleft =>
    exact fun _ => ⟨_, hstatus, HasStatus.holds hI hstatus, hleft⟩
  | unrequested => exact hattended.imp fun _ hstatus => .inl hstatus.1
  | incomplete => exact hattended.imp fun _ => .inl
  | exhausted | canceled | unexpanded | unnamed => exact nofun
  | _ => trivial

variable {act : Act}

theorem NodeSays.retryReady
    (h : NodeSays x node w work act work') (hattended : Attended w.st node work) :
    RetryReady (w.st.step act) (.node site node work') := by
  cases h with
  | operationCanceled => exact ⟨_, hattended.1, .inl hattended.2⟩
  | promiseFailed | adopted => exact nofun
  | _ => trivial

theorem NodeAsks.retryReady {node' : PlanNodeSpec} {arrivals : Arrivals}
    (h : NodeAsks E node w work act node' work') (hattended : Attended w.st node work)
    (hcounted : uncountedFailure (w.st, act) = false) :
    RetryReady (asked w act arrivals).st (.node site node' work') := by
  cases h with
  | unresolved _ hnode =>
    obtain ⟨-, status, hstatus, -⟩ := hattended
    have hid : node'.nodeID = node.nodeID := by
      rw [(nodeForAttempt_ok hnode).1]
    have hnever : status.attempts ≤ 0 := by
      simpa [uncountedFailure, hid, hstatus] using hcounted
    exact ⟨status, hid ▸ hstatus, .inr hnever⟩
  | startFailed | startForeign => exact hattended.imp fun _ hstatus => .inl hstatus.1
  | unpublished | expansionNone | statusFailed => exact nofun
  | _ => trivial

theorem reachable_retryReady (hc : Reachable E input c)
    (hcounted : LogMeets RetriesCounted c.2) : RetryReady c.2.st c.1.2 := by
  refine reach_inv trivial (fun c d hc h hcounted hI => ?_) hc hcounted
  have hattended := reachable_attended hc
  cases h with
  | skip h =>
    cases h with
    | node h => exact h.retryReady hattended hI
    | command h =>
      cases h with
      | retry htype => exact absurd htype hI
      | _ => trivial
    | _ => trivial
  | say h =>
    cases h with
    | node h => exact h.retryReady hattended
    | @markedSignal signal =>
      have hmanual := (hcounted _ mem_cons_self).1
      show signal.type ≠ .planNodeRetry
      simpa [manualRetry] using hmanual
    | _ => trivial
  | ask h =>
    cases h with
    | node h =>
      exact h.retryReady hattended (hcounted _ (mem_cons_of_mem _ mem_cons_self)).2
    | _ => trivial
  | saved h hposted =>
    cases h with
    | retryApproved htype => exact absurd htype hI
    | node h => cases h <;> trivial
    | _ => trivial
  | unsaved h hposted => cases h <;> trivial
  | begin | refuse => trivial

/-! ## The count over a run -/

theorem retryOf_silent (h : act.silent) (nodeID : String) (l : Locals) :
    retryOf nodeID (l, act) = false := by
  cases act <;> first | rfl | cases h

theorem retryOf_apply (nodeID : String) (l : Locals) (event : StateEvent) :
    retryOf nodeID (l, .apply event) = true ↔
      event.kind = .nodeRetryScheduled ∧ event.nodeID = nodeID := by
  simp [retryOf]

variable {spec : RunPlanSpec} {answer : Option Err}

theorem Posted.retries_eq (h : Posted E spec event w answer v) (nodeID : String) :
    retries v nodeID = retries w nodeID +
      if event.kind = .nodeRetryScheduled ∧ event.nodeID = nodeID then 1 else 0 := by
  obtain ⟨time, _, tail, _, hlog, htail, _⟩ := h.effect
  have hnone : tail.countP (retryOf nodeID) = 0 := by
    rw [countP_eq_zero]
    rintro ⟨l, act⟩ hmem
    rw [retryOf_silent (htail _ hmem)]
    exact Bool.false_ne_true
  unfold retries
  rw [hlog, countP_append, hnone, Nat.zero_add, countP_cons]
  have hiff := retryOf_apply nodeID w.st (stamped w.st time event)
  congr 1
  by_cases hretry : event.kind = .nodeRetryScheduled ∧ event.nodeID = nodeID
  · rw [if_pos hretry, if_pos (hiff.mpr hretry)]
  · rw [if_neg hretry, if_neg fun h => hretry (hiff.mp h)]

/-- A retry is scheduled for a failed node that has attempts left. -/
def Counts (l : Locals) (event : StateEvent) : Prop :=
  event.kind = .nodeRetryScheduled → HasStatus l event.nodeID fun status =>
    FailedNode status ∧ failedAttempt status < maxAttemptsOf l.spec event.nodeID

theorem Posts.counts {ok : Point} {bad : Err → Point}
    (h : Posts E x w p spec event ok bad) (hscheduled : Scheduled w.st.spec p)
    (hplanned : Planned w p) (hretry : RetryReady w.st p) : Counts w.st event := by
  intro hkind
  cases h with
  | retry => cases hretry
  | ended hends => exact absurd hkind (hends.ne rfl)
  | terminalBefore | terminalAfter => exact absurd hkind (terminalPlanEvent_ne rfl)
  | node h =>
    cases h with
    | close =>
      rw [hscheduled.2.2.closes.2, maxAttemptsOf_eq hplanned hscheduled.1]
      exact hretry hkind
    | _ => cases hkind
  | _ => cases hkind

/-- The attempts of a node cover its retries. -/
structure Counted (max r : Int) (status : PlanNodeStatus) : Prop where
  attempted : r ≤ status.attempts
  left : r < max
  running : status.lifecycleState = .running → r < status.attempts

section Changes

variable {max r : Int} {now : Time} {nodeID : String}

theorem Counted.changed (h : Counted max r status) (hstarted : event.kind ≠ .nodeStarted)
    (hretry : event.kind ≠ .nodeRetryScheduled) :
    Counted max r (changedNode event now status) := by
  have hattempts : (changedNode event now status).attempts = status.attempts :=
    changedNode_attempts hstarted hretry
  refine ⟨hattempts ▸ h.attempted, h.left, fun hafter => ?_⟩
  rw [changedNode_lifecycle] at hafter
  rw [hattempts]
  exact h.running ((lifecycleAfter_running hafter).resolve_left hstarted)

theorem Counts.retried {r : Nat} (h : FailedNode status) (hleft : failedAttempt status < max)
    (hbefore : 0 < r → Counted max r status) (htallied : Tallied spec nodeID status)
    (hkind : event.kind = .nodeRetryScheduled)
    (hattempt : event.attempt = int32 (failedAttempt status + 1)) :
    Counted max (r + 1 : Nat) (changedNode event now status) := by
  obtain ⟨hready, hattempts⟩ := changedNode_retried now hkind hattempt htallied.nonneg
  have hone := failedAttempt_pos status
  have hless : r < failedAttempt status := by
    rcases Nat.eq_zero_or_pos r with rfl | hpos
    · omega
    have hcount := (hbefore hpos).attempted
    have hrunning := (hbefore hpos).running (h.resolve_right (by omega))
    rw [failedAttempt, if_neg (by omega)]
    exact hrunning
  refine ⟨by omega, by omega, fun hafter => ?_⟩
  rw [hready] at hafter
  cases hafter

end Changes

/-- Every node that was retried has a status that counts it. -/
def AllCounted (w : World) : Prop :=
  ∀ nodeID, 0 < retries w nodeID → HasStatus w.st nodeID
    (Counted (maxAttemptsOf w.st.spec nodeID) (retries w nodeID))

theorem Posted.allCounted (h : Posted E spec event w answer v)
    (hcounts : Counts w.st event) (htallies : Tallies w.st event)
    (htallied : AllStatuses Tallied w.st) (hI : AllCounted w) : AllCounted v := by
  intro nodeID hpos
  rw [h.framed.spec]
  have hretries := h.retries_eq nodeID
  by_cases hretry : event.kind = .nodeRetryScheduled ∧ event.nodeID = nodeID
  · obtain ⟨hkind, rfl⟩ := hretry
    obtain ⟨status, hstatus, hfailed, hleft⟩ := hcounts hkind
    rw [if_pos ⟨hkind, rfl⟩] at hretries
    obtain ⟨-, hother⟩ | ⟨-, time, now, hchanged⟩ := h.status_after hstatus
    · exact absurd hkind (hother rfl)
    · rw [hretries]
      exact ⟨_, hchanged, Counts.retried hfailed hleft (fun hpos => (hI _ hpos).holds hstatus)
        (htallied _ _ hstatus) hkind ((htallies.retried hkind).holds hstatus).1⟩
  · rw [if_neg hretry] at hretries
    rw [hretries] at hpos ⊢
    obtain ⟨status, hstatus, hcounted⟩ := hI nodeID hpos
    obtain ⟨hsame, -⟩ | ⟨rfl, time, now, hchanged⟩ := h.status_after hstatus
    · exact ⟨status, hsame, hcounted⟩
    refine ⟨_, hchanged, ?_⟩
    by_cases hstarted : event.kind = .nodeStarted
    · obtain ⟨hat, hpositive, hnamed, -⟩ := htallies.started hstarted
      obtain ⟨hready, hattempt⟩ := hat.holds hstatus
      have hattempts : (changedNode (stamped w.st time event) now status).attempts =
          event.attempt := (changedNode_started hstarted hready hpositive hnamed).2.1
      have hcount := hcounted.attempted
      have hnext := ((htallied _ _ hstatus).next hready hattempt hpositive).1
      exact ⟨by omega, hcounted.left, fun _ => by omega⟩
    · exact hcounted.changed hstarted fun hkind => hretry ⟨hkind, rfl⟩

theorem retries_silent {tail : List (Locals × Act)} (hlog : v.log = tail ++ w.log)
    (h : ∀ e ∈ tail, e.2.silent) (nodeID : String) : retries v nodeID = retries w nodeID := by
  unfold retries
  rw [hlog, countP_append, countP_eq_zero.mpr fun e he => by simp [retryOf_silent (h e he)],
    Nat.zero_add]

theorem reachable_allCounted (hfresh : input.continued = false)
    (hc : Reachable E input c) (hcounted : LogMeets RetriesCounted c.2) : AllCounted c.2 := by
  refine reach_inv (fun _ => nofun) (fun c d hc h hcounted hI => ?_) hc hcounted
  have hcounted' := h.meets hcounted
  rcases h.plan_cases hfresh hc with
    ⟨spec, event, ok, bad, answer, hrow, hposted⟩ | ⟨⟨tail, hlog, hsilent⟩, hmoved⟩
  · exact hposted.allCounted (hrow.counts (reachable_scheduled hc) (reachable_planned hc)
        (reachable_retryReady hc hcounted'))
      (Posts.tallies hc hrow) (reachable_tallied hfresh hc) hI
  intro nodeID hpos
  rw [retries_silent hlog hsilent] at hpos ⊢
  obtain ⟨status, hstatus, hcounted⟩ := hI nodeID hpos
  rcases hmoved with ⟨hstate, hextends⟩ | ⟨time, hstart, -⟩ | ⟨hspec, -, hlookup⟩
  · exact ⟨status, hstate.symm ▸ hstatus, hcounted.attempted,
      hcounted.left.trans_le (hextends.maxAttemptsOf_le nodeID), hcounted.running⟩
  · rw [hstart] at hstatus
    cases hstatus
  · exact hspec.symm ▸ ⟨status, (hlookup nodeID).trans hstatus, hcounted⟩

/-- No node has more attempts than its policy allows. -/
def AttemptsBounded (l : Locals) : Prop :=
  ∀ nodeID status, l.state.nodeStatus nodeID = some status →
    status.attempts ≤ maxAttemptsOf l.spec nodeID

theorem AllCounted.retries_lt (h : AllCounted w) (nodeID : String) :
    (retries w nodeID : Int) ≤ maxAttemptsOf w.st.spec nodeID - 1 := by
  have hmin := (maxAttemptsOf_range w.st.spec nodeID).1
  rcases Nat.eq_zero_or_pos (retries w nodeID) with hzero | hpos
  · omega
  · obtain ⟨_, -, hcounted⟩ := h nodeID hpos
    have hleft := hcounted.left
    omega

/-- The retry bound of a new plan that gets no manual retry. -/
theorem retry_bound (E : Host) (r : PlanRuntime) (spec : RunPlanSpec) (n : Nat)
    (hmanual : LogMeets (manualRetry · = false) (planRun E (r.newPlanInput spec) n).world)
    (hcounted : LogMeets (uncountedFailure · = false) (planRun E (r.newPlanInput spec) n).world) :
    let w := (planRun E (r.newPlanInput spec) n).world
    (∀ nodeID, (retries w nodeID : Int) ≤ maxAttemptsOf w.st.spec nodeID - 1) ∧
      AttemptsBounded w.st ∧ LogMeets (AttemptsBounded ·.1) w := by
  obtain ⟨c, hreach, hat⟩ := planRun_path E (r.newPlanInput spec) n
  rw [← hat.world] at hmanual hcounted ⊢
  have hboth : LogMeets RetriesCounted c.2 := fun e he => ⟨hmanual e he, hcounted e he⟩
  exact ⟨(reachable_allCounted rfl hreach hboth).retries_lt,
    fun nodeID status hstatus => (reachable_tallied rfl hreach nodeID status hstatus).bounded,
    fun e he nodeID status hstatus =>
      (reachable_log_tallied rfl hreach e he nodeID status hstatus).bounded⟩

/-- The node of `flakyHost` is retried once. -/
theorem retry_bound_flaky :
    let w := (planRun flakyHost retriedPlan 6).world
    (∀ nodeID, (retries w nodeID : Int) ≤ maxAttemptsOf w.st.spec nodeID - 1) ∧
      AttemptsBounded w.st ∧ LogMeets (AttemptsBounded ·.1) w :=
  retry_bound flakyHost calmRuntime retriedPlan.spec 6 (by decide +kernel) (by decide +kernel)

/-- The input of the node can never be resolved. -/
def unresolvedHost : Host :=
  { calmHost with resolveInput := fun _ => .error (.external "missing artifact") }

/-- A node with two attempts is retried twice, and then once in every iteration. -/
theorem retry_unbounded :
    maxAttemptsOf (planRun unresolvedHost retriedPlan 6).world.st.spec "a" = 2 ∧
    (planRun unresolvedHost retriedPlan 6).world.log.any manualRetry = false ∧
    retries (planRun unresolvedHost retriedPlan 6).world "a" = 2 ∧
    retries (planRun unresolvedHost retriedPlan 9).world "a" = 3 := by
  decide +kernel

end AgentOS.Plan
