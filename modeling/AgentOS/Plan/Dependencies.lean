import AgentOS.Plan.Progress
import AgentOS.Plan.Retry
import AgentOS.Plan.Expansion

/-!
# Dependencies come before starts

A node that was started had its dependencies settled: the sources of all its edges have ended
if its join is all, and one of its edges is satisfied if its join is any or first.  An
expansion can add edges to a plan that runs, so the topology in which this is to hold grows.
-/

namespace AgentOS.Plan

open Kit List State

variable {E : Host} {input : PlanWorkflowInput} {x : Execution} {w v : World} {p p' : Point}
  {spec : RunPlanSpec} {event : StateEvent} {answer : Option Err} {arrivals : Arrivals}

/-! ## What a ready node depends on -/

namespace Scheduler

variable {s : Scheduler} {node : PlanNodeSpec} {edges : List PlanEdgeSpec}
  {statuses : SortedMap String PlanNodeStatus} {vars : Vars} {answers : List (Option Bool)}

theorem Answered.ended (h : Answered statuses edges answers) (hnone : none ∉ answers) :
    ∀ edge ∈ edges, SourceEnded statuses edge fun _ => True := by
  induction h with
  | nil => exact nofun
  | waits => exact absurd mem_cons_self hnone
  | inactive _ hended _ ih => exact forall_mem_cons.mpr ⟨hended, ih hnone⟩
  | answers hended _ ih =>
    obtain ⟨parent, hparent, hterminal, -⟩ := hended
    exact forall_mem_cons.mpr ⟨⟨parent, hparent, hterminal, trivial⟩,
      ih fun hmem => hnone (mem_cons_of_mem _ hmem)⟩

theorem Answered.satisfied (h : Answered statuses edges answers) (hsome : some true ∈ answers) :
    ∃ edge ∈ edges, SourceEnded statuses edge
      fun lifecycle => edgeSatisfied (edgeTrigger edge.on) lifecycle = true := by
  induction h <;> grind

def Joined (join : PlanJoinStrategy) (edges : List PlanEdgeSpec)
    (ended : PlanEdgeSpec → (NodeLifecycle → Prop) → Prop) : Prop :=
  match normalizeJoin join with
  | .all => ∀ edge ∈ edges, ended edge fun _ => True
  | .any | .first => edges = [] ∨ ∃ edge ∈ edges,
      ended edge fun lifecycle => edgeSatisfied (edgeTrigger edge.on) lifecycle = true
  | .unset | .other _ => True

theorem Joined.mono {join : PlanJoinStrategy} {edges' : List PlanEdgeSpec}
    {ended ended' : PlanEdgeSpec → (NodeLifecycle → Prop) → Prop} (h : Joined join edges ended)
    (hmem : ∀ edge, edge ∈ edges' ↔ edge ∈ edges)
    (hended : ∀ edge P, ended edge P → ended' edge P) : Joined join edges' ended' := by
  unfold Joined at h ⊢
  cases hjoin : normalizeJoin join <;> rw [hjoin] at h
  case unset | other => trivial
  case all => exact fun edge hedge => hended edge _ (h edge ((hmem edge).mp hedge))
  case any | first =>
    rcases h with rfl | ⟨edge, hedge, hsatisfied⟩
    · exact .inl (eq_nil_iff_forall_not_mem.mpr fun edge hedge =>
        not_mem_nil ((hmem edge).mp hedge))
    · exact .inr ⟨edge, (hmem edge).mpr hedge, hended edge _ hsatisfied⟩

theorem evaluateDependencies_joined {dependencies : DependencyEvaluation}
    (h : s.evaluateDependencies node edges statuses vars = .ok dependencies)
    (hready : dependencies.ready = true) :
    Joined node.policy.join edges (SourceEnded statuses) := by
  unfold Joined
  rcases evaluateDependencies_cases h with ⟨rfl, -⟩ | ⟨-, answers, hanswered, hdecides⟩
  · split <;> simp
  unfold Decides at hdecides
  cases hjoin : normalizeJoin node.policy.join <;> rw [hjoin] at hdecides
  · trivial
  · exact hanswered.ended (hdecides.1.mp hready).2.1
  · exact .inr (hanswered.satisfied (hdecides.1.mp hready))
  · exact .inr (hanswered.satisfied (hdecides.1.mp hready))
  · trivial

end Scheduler

/-! ## Grounded nodes -/

def HasEnded (hands : List String) (l : Locals) (nodeID : String) (P : NodeLifecycle → Prop) :
    Prop :=
  nodeID ∉ hands ∧ HasStatus l nodeID fun status =>
    status.lifecycleState.terminal = true ∧ P status.lifecycleState

def incoming (spec : RunPlanSpec) (nodeID : String) : List PlanEdgeSpec :=
  spec.edges.filter fun edge => edge.target = nodeID

/-- In the current topology, the sources of all edges into the node have ended if its join is
all, and one of these edges is satisfied if its join is any or first.  The nodes at hand count
for none. -/
def Grounded (hands : List String) (l : Locals) (node : PlanNodeSpec) : Prop :=
  Scheduler.Joined node.policy.join (incoming l.spec node.nodeID) fun edge =>
    HasEnded hands l edge.source

section Grounded

variable {hands hands' : List String} {l l' : Locals} {node node' : PlanNodeSpec}
  {nodeID : String} {P : NodeLifecycle → Prop}

theorem HasEnded.weaken (h : HasEnded hands l nodeID P) (hsub : hands' ⊆ hands) :
    HasEnded hands' l nodeID P :=
  ⟨fun hmem => h.1 (hsub hmem), h.2⟩

theorem HasEnded.apart (h : HasEnded [] l nodeID P)
    (hopen : ∀ id ∈ hands, ∀ status, l.state.nodeStatus id = some status →
      status.lifecycleState.terminal = false) : HasEnded hands l nodeID P := by
  obtain ⟨-, status, hstatus, hended, hP⟩ := h
  refine ⟨fun hmem => ?_, status, hstatus, hended, hP⟩
  rw [hopen nodeID hmem status hstatus] at hended
  cases hended

theorem HasEnded.congr (h : HasEnded hands l nodeID P) (hstate : l'.state = l.state) :
    HasEnded hands l' nodeID P := by
  obtain ⟨hout, status, hstatus, hended⟩ := h
  exact ⟨hout, status, hstate ▸ hstatus, hended⟩

theorem Posted.hasEnded (h : Posted E spec event w answer v)
    (hevent : event.kind.leavesNodes ∨ event.nodeID ∈ hands ∨
      ∀ status, w.st.state.nodeStatus event.nodeID = some status →
        status.lifecycleState.terminal = false)
    (hended : HasEnded hands w.st nodeID P) : HasEnded hands v.st nodeID P := by
  obtain ⟨hout, status, hstatus, hterminal, hP⟩ := hended
  have hkept : event.kind.leavesNodes ∨ event.nodeID ≠ nodeID := by
    rcases hevent with hleaves | hhand | hopen
    · exact .inl hleaves
    · exact .inr fun hid => hout (hid ▸ hhand)
    · refine .inr fun hid => ?_
      rw [hopen status (hid ▸ hstatus)] at hterminal
      cases hterminal
  obtain ⟨status', hstatus', hlifecycle, -⟩ := h.status_kept hkept hstatus
  exact ⟨hout, status', hstatus', hlifecycle ▸ hterminal, hlifecycle ▸ hP⟩

theorem Grounded.mono (h : Grounded hands l node) (hspec : l'.spec = l.spec)
    (hended : ∀ nodeID P, HasEnded hands l nodeID P → HasEnded hands' l' nodeID P) :
    Grounded hands' l' node :=
  Scheduler.Joined.mono h (fun edge => by rw [hspec]) fun edge P => hended edge.source P

theorem Grounded.copy (h : Grounded hands l node) (hid : node'.nodeID = node.nodeID)
    (hpolicy : node'.policy = node.policy) : Grounded hands l node' := by
  unfold Grounded
  rw [hid, hpolicy]
  exact h

theorem Grounded.extended {edges : List PlanEdgeSpec} (h : Grounded hands l node)
    (hstate : l'.state = l.state) (hspec : l'.spec.edges = l.spec.edges ++ edges)
    (hnone : ∀ edge ∈ edges, edge.target ≠ node.nodeID) : Grounded hands l' node := by
  refine Scheduler.Joined.mono h (fun edge => ?_) fun edge P hended => hended.congr hstate
  have hadded : edges.filter (fun edge => edge.target = node.nodeID) = [] :=
    filter_eq_nil_iff.mpr fun edge hedge => by simpa using hnone edge hedge
  rw [incoming, hspec, filter_append, hadded, append_nil]
  rfl

end Grounded

theorem decide_grounded (hc : Reachable E input ((x, p), w)) (hready : PlanReady w.st)
    (hlisted : w.st.state.Lists) {vars : Vars} {decision : SchedulerDecision}
    (hdecision : E.scheduler.decide w.st.validation.plan w.st.state.status vars = .ok decision)
    {node : PlanNodeSpec} (hmem : node ∈ decision.ready) : Grounded [] w.st node := by
  obtain ⟨-, -, dependencies, hdependencies, hsettled⟩ := decide_ready hready.2 hdecision hmem
  refine (Scheduler.evaluateDependencies_joined hdependencies hsettled).mono (fun edge => ?_) ?_
  · rw [hready.2.into, hready.1, incoming, mem_filter, decide_eq_true_iff]
  rintro edge P ⟨parent, hparent, hended, hP⟩
  have hnodup := nodup_listed (reachable_named hc) hlisted
  obtain ⟨hparent, hid⟩ := (statusByNode_get hnodup edge.source parent).mp hparent
  refine ⟨not_mem_nil, parent, ?_, hended, hP⟩
  rw [← hid]
  exact nodeStatus_of_listed (reachable_named hc) hlisted hparent

/-! ## The invariant -/

def WasStarted (status : PlanNodeStatus) : Prop :=
  1 ≤ status.attempts ∨ status.lifecycleState = .running

instance (status : PlanNodeStatus) : Decidable (WasStarted status) :=
  inferInstanceAs (Decidable (_ ∨ _))

theorem not_wasStarted_pending (node : PlanNodeSpec) (now : Time) :
    ¬ WasStarted (pendingNodeStatus node now) := by
  rintro (hstarted | hrunning)
  · exact absurd hstarted (show ¬ (1 : Int) ≤ 0 by decide)
  · cases hrunning

def newEdges : List (Locals × Act) → List PlanEdgeSpec
  | [] => []
  | (_, .enter .decide) :: _ => []
  | (_, .adoptExpansion expansion) :: earlier => expansion.delta.edges ++ newEdges earlier
  | _ :: earlier => newEdges earlier

/-- An expansion adds an edge into a node that was started, or the start of a node begins after
an expansion added an edge into it in the same tick. -/
def addsDependency (w : World) : Act → Bool
  | .adoptExpansion expansion => expansion.delta.edges.any fun edge =>
      (w.st.state.nodeStatus edge.target).any fun status => WasStarted status
  | .apply event =>
      event.kind = .nodeReady && (newEdges w.log).any fun edge => edge.target = event.nodeID
  | _ => false

theorem addsDependency_ready {time : Time} (hkind : event.kind = .nodeReady)
    (h : addsDependency w (.apply (stamped w.st time event)) = false) :
    ∀ edge ∈ newEdges w.log, edge.target ≠ event.nodeID := by
  intro edge hedge htarget
  have hready : decide ((stamped w.st time event).kind = .nodeReady) = true := decide_eq_true hkind
  rw [addsDependency, hready] at h
  exact any_eq_false.mp h edge hedge (decide_eq_true htarget)

def Point.hands : Point → List String
  | .node _ handled _ => [handled.nodeID]
  | .marking nodes _ => nodes.map PlanNodeStatus.nodeID
  | _ => []

def Due (hands : List String) (w : World) (node : PlanNodeSpec) : Prop :=
  Grounded hands w.st node ∨ ∃ edge ∈ newEdges w.log, edge.target = node.nodeID

def WorkDue (w : World) (node : PlanNodeSpec) : Work → Prop
  | .opening | .announced => Due [node.nodeID] w node
  | .closing event => event.kind = .nodeRetryScheduled → Grounded [node.nodeID] w.st node
  | .expanded _ expansion => ∀ added ∈ expansion.delta.nodes, ∀ status,
      w.st.state.nodeStatus added.nodeID = some status → ¬ WasStarted status
  | .expanding .. | .over _ | .broken _ => True
  | _ => Grounded [node.nodeID] w.st node

def Chosen (w : World) : Point → Prop
  | .decided decision => ∀ node ∈ decision.ready, Due [] w node
  | .skipping _ ready _ | .starting _ ready _ | .startGuard _ ready =>
      ∀ node ∈ ready, Due [] w node
  | .node site node work =>
      (∀ other ∈ site.rest, Due [node.nodeID] w other) ∧ WorkDue w node work
  | .handlingSignal signal => signal.type ≠ .planNodeRetry
  | .retrying _ => False
  | _ => True

def StartsGrounded (hands : List String) (l : Locals) : Prop :=
  ∀ node ∈ l.spec.nodes, HasStatus l node.nodeID WasStarted → Grounded hands l node

/-! ## What a step carries over -/

structure Carries (hands hands' : List String) (w v : World) : Prop where
  spec : v.st.spec = w.st.spec
  edges : newEdges v.log = newEdges w.log
  ended : ∀ nodeID P, HasEnded hands w.st nodeID P → HasEnded hands' v.st nodeID P

section Carries

variable {hands hands' : List String} {node node' : PlanNodeSpec}

theorem Carries.weaken (hsub : hands' ⊆ hands) : Carries hands hands' w w :=
  ⟨rfl, rfl, fun _ _ h => h.weaken hsub⟩

theorem Carries.apart (hopen : ∀ id ∈ hands, ∀ status, w.st.state.nodeStatus id = some status →
      status.lifecycleState.terminal = false) : Carries [] hands w w :=
  ⟨rfl, rfl, fun _ _ h => h.apart hopen⟩

theorem Carries.of_eq (hstate : v.st.state = w.st.state) (hspec : v.st.spec = w.st.spec)
    (hedges : newEdges v.log = newEdges w.log) : Carries hands hands w v :=
  ⟨hspec, hedges, fun _ _ h => h.congr hstate⟩

theorem Posted.carries (h : Posted E spec event w answer v)
    (hevent : event.kind.leavesNodes ∨ event.nodeID ∈ hands ∨
      ∀ status, w.st.state.nodeStatus event.nodeID = some status →
        status.lifecycleState.terminal = false) : Carries hands hands w v :=
  ⟨h.framed.spec, by cases h <;> rfl, fun _ _ => h.hasEnded hevent⟩

theorem Grounded.along (h : Grounded hands w.st node) (hcarries : Carries hands hands' w v) :
    Grounded hands' v.st node :=
  h.mono hcarries.spec hcarries.ended

theorem Due.along (h : Due hands w node) (hcarries : Carries hands hands' w v) :
    Due hands' v node := by
  rcases h with hgrounded | hadded
  · exact .inl (hgrounded.along hcarries)
  · exact .inr (hcarries.edges ▸ hadded)

end Carries

section Rows

variable {node node' : PlanNodeSpec} {work work' : Work} {act : Act}

theorem NodeSkips.workDue (h : NodeSkips E x node w work work') (hI : WorkDue w node work) :
    WorkDue w node work' := by
  cases h with
  | noCapability | unrequested | free | incomplete | fulfilled => exact hI
  | retried => exact fun _ => hI
  | exhausted | canceled | unexpanded | unnamed => nofun
  | _ => trivial

theorem NodeAsks.workDue (h : NodeAsks E node w work act node' work')
    (hI : WorkDue w node work) : WorkDue (asked w act arrivals) node' work' := by
  have hid : node'.nodeID = node.nodeID := by rw [h.copy]
  have hpolicy : node'.policy = node.policy := by rw [h.copy]
  have hcopy : ∀ {l}, Grounded [node.nodeID] l node → Grounded [node'.nodeID] l node' := by
    intro l hgrounded
    rw [hid]
    exact hgrounded.copy hid hpolicy
  cases h with
  | unresolved | resolved => exact hcopy hI
  | startFailed | startForeign | startEnded | publishedNone | published | cancelSent
  | statusEnded => exact hI
  | unpublished | expansionNone | statusFailed => nofun
  | _ => trivial

theorem NodePosts.workDue (h : NodePosts node w work spec event work')
    (hposted : Posted E spec event w none v) (hcarries : Carries [node.nodeID] [node.nodeID] w v)
    (hlate : event.kind = .nodeReady → ∀ edge ∈ newEdges w.log, edge.target ≠ event.nodeID)
    (hI : WorkDue w node work) : WorkDue v node work' := by
  cases h with
  | capability | inputResolved | started | budget | artifacts => exact hI.along hcarries
  | ready =>
    rcases hI with hgrounded | ⟨edge, hedge, htarget⟩
    · exact hgrounded.along hcarries
    · exact absurd htarget (hlate rfl edge hedge)
  | expansion =>
    -- The nodes of the expansion are new, so they are pending.
    intro added hadded status hstatus
    obtain ⟨_, _, _, _, happlied⟩ := hposted.applied
    have hnone := (happlied.fresh rfl added hadded).2
    rcases hposted.status_cases hstatus with
      hbefore | ⟨-, new, -, now, -, rfl⟩ | ⟨-, before, _, _, hbefore, -⟩
    · rw [hnone] at hbefore
      cases hbefore
    · exact not_wasStarted_pending _ _
    · rw [hnone] at hbefore
      cases hbefore
  | close => trivial

end Rows

/-! ## The tables -/

structure Based (w : World) (p : Point) : Prop where
  started : StartsGrounded p.hands w.st
  chosen : Chosen w p

section

variable (hc : Reachable E input ((x, p), w)) (h : Skips E x w p p')
include hc h

theorem Skips.carries : Carries p.hands p'.hands w w := by
  have hattended : AttendedAt w.st p' := reachable_attended (hc.tail (.skip h))
  have hopen : ∀ {nodeID status}, w.st.state.nodeStatus nodeID = some status →
      status.lifecycleState.terminal = false → Carries [] [nodeID] w w := by
    intro nodeID status hstatus hlive
    refine .apart fun id hmem status' hstatus' => ?_
    obtain rfl := mem_singleton.mp hmem
    rw [hstatus] at hstatus'
    cases hstatus'
    exact hlive
  cases h with
  | settleNode | pollNode => exact hopen hattended.1 (by rw [hattended.2]; rfl)
  | start _ hschedulable =>
    obtain ⟨status, hstatus, hleft⟩ := nodeSchedulable_iff.mp hschedulable
    exact hopen hstatus (by rcases hleft with hleft | hleft <;> rw [hleft] <;> rfl)
  | node => exact .weaken (Subset.refl _)
  | command h =>
    cases h with
    | mark =>
      have hlisted := reachable_listed hc
      refine .apart fun id hmem status hstatus => ?_
      obtain ⟨node, hnode, rfl⟩ := mem_map.mp hmem
      obtain ⟨hnode, hrunning⟩ := mem_filter.mp hnode
      rw [nodeStatus_of_listed (reachable_named hc) hlisted hnode] at hstatus
      cases hstatus
      rw [of_decide_eq_true hrunning]
      rfl
    | _ => exact .weaken (nil_subset _)
  | _ => exact .weaken (nil_subset _)

theorem Skips.chosen (hI : Based w p) : Chosen w p' := by
  have hcarries := h.carries hc
  have hattended : AttendedAt w.st p' := reachable_attended (hc.tail (.skip h))
  have hplanned := reachable_planned hc
  have hrunning : ∀ {node : PlanNodeSpec} {status : PlanNodeStatus} {nodeID : String},
      Carries [] [node.nodeID] w w → p.hands = [] → PlanReady w.st →
      nodeByID w.st.validation nodeID = .ok node →
      w.st.state.nodeStatus node.nodeID = some status → status.lifecycleState = .running →
      Grounded [node.nodeID] w.st node := by
    intro node status nodeID hcarries hhands hready hnode hstatus hrunning
    have hstarted := hI.started
    rw [hhands] at hstarted
    have hmem := (nodeByID_ok hready hnode).1
    exact (hstarted node hmem ⟨status, hstatus, .inr hrunning⟩).along hcarries
  cases h with
  | settleNode _ _ _ hnode | pollNode _ _ hnode =>
    exact ⟨fun _ hmem => (not_mem_nil hmem).elim,
      hrunning hcarries rfl hplanned hnode hattended.1 hattended.2⟩
  | node h => exact ⟨hI.chosen.1, h.workDue hI.chosen.2⟩
  | startOver => exact fun node hmem => (hI.chosen.1 node hmem).along hcarries
  | unconditioned | unskipped | skipped | startWithin => exact hI.chosen
  | unstarted => exact fun node hmem => hI.chosen node (mem_cons_of_mem _ hmem)
  | start =>
    obtain ⟨hfirst, hrest⟩ := forall_mem_cons.mp hI.chosen
    exact ⟨fun other hmem => (hrest other hmem).along hcarries, hfirst.along hcarries⟩
  | command h =>
    cases h with
    | retry htype => exact absurd htype hI.chosen
    | _ => trivial
  | _ => trivial

theorem Skips.based (hI : Based w p) : Based w p' :=
  ⟨fun node hmem hstarted => (hI.started node hmem hstarted).along (h.carries hc), h.chosen hc hI⟩

end

theorem based_adopted {site : Site} {node : PlanNodeSpec} {status : RunStatus}
    {expansion : PlanExpansion} (hexpands : Expands w.st.spec w.st.expansionCount expansion)
    (hact : addsDependency w (.adoptExpansion expansion) = false)
    (hI : Based w (.node site node (.expanded status expansion))) :
    Based (w.act Locals.step (.adoptExpansion expansion))
      (.node site node (.closing (succeededEvent node status))) := by
  have hedges : expansion.spec.edges = w.st.spec.edges ++ expansion.delta.edges :=
    congrArg RunPlanSpec.edges hexpands.extended
  have hnodes : expansion.spec.nodes = w.st.spec.nodes ++ expansion.delta.nodes :=
    congrArg RunPlanSpec.nodes hexpands.extended
  refine ⟨?_, fun other hother => ?_, nofun⟩
  · rintro declared hmem ⟨current, hcurrent, hstarted⟩
    have hmem : declared ∈ expansion.spec.nodes := hmem
    rw [hnodes] at hmem
    rcases mem_append.mp hmem with hold | hnew
    · refine (hI.started declared hold ⟨current, hcurrent, hstarted⟩).extended rfl hedges
        fun edge hedge htarget => ?_
      have hfound : w.st.state.nodeStatus edge.target = some current := htarget ▸ hcurrent
      have hadds := any_eq_false.mp hact edge hedge
      simp [hfound, hstarted] at hadds
    · exact absurd hstarted (hI.chosen.2 declared hnew current hcurrent)
  · by_cases hadded : ∃ edge ∈ expansion.delta.edges, edge.target = other.nodeID
    · obtain ⟨edge, hedge, htarget⟩ := hadded
      exact .inr ⟨edge, mem_append_left _ hedge, htarget⟩
    rcases hI.chosen.1 other hother with hgrounded | ⟨edge, hedge, htarget⟩
    · exact .inl (hgrounded.extended rfl hedges fun edge hedge htarget =>
        hadded ⟨edge, hedge, htarget⟩)
    · exact .inr ⟨edge, mem_append_right _ hedge, htarget⟩

theorem Says.based {act : Act} (hc : Reachable E input ((x, p), w)) (h : Says E x w p act p')
    (hmanual : manualRetry (w.st, act) = false) (hact : addsDependency w act = false)
    (hI : Based w p) : Based (w.act Locals.step act) p' := by
  cases h with
  | node h =>
    cases h with
    | adopted =>
      have hplanned : PlanReady w.st ∧ Expands w.st.spec w.st.expansionCount _ :=
        reachable_planned hc
      exact based_adopted hplanned.2 hact hI
    | launched | promiseLive => exact ⟨hI.started, hI.chosen.1, trivial⟩
    | operationCanceled | promiseEnded => exact ⟨hI.started, hI.chosen.1, hI.chosen.2⟩
    | promiseFailed => exact ⟨hI.started, hI.chosen.1, nofun⟩
  | markedSignal =>
    refine ⟨hI.started, fun htype => ?_⟩
    simp [manualRetry, htype] at hmanual
  | start hdecision =>
    exact ⟨hI.started, fun node hmem =>
      .inl (decide_grounded hc (reachable_planned hc) (reachable_listed hc) hdecision hmem)⟩
  | _ => exact ⟨hI.started, trivial⟩

theorem Asks.based {act : Act} (h : Asks E x w p act p') (hI : Based w p) :
    Based (asked w act arrivals) p' := by
  cases h with
  | @node _ node node' _ _ act h =>
    have hid : node'.nodeID = node.nodeID := by rw [h.copy]
    have hcarries : Carries [node.nodeID] [node'.nodeID] w (asked w act arrivals) := by
      rw [hid]
      cases h <;> exact .of_eq rfl rfl rfl
    have hstarted : StartsGrounded [node'.nodeID] (asked w act arrivals).st := by
      intro declared hmem hstatus
      have hbefore : declared ∈ w.st.spec.nodes ∧ HasStatus w.st declared.nodeID WasStarted := by
        cases h <;> exact ⟨hmem, hstatus⟩
      exact (hI.started declared hbefore.1 hbefore.2).along hcarries
    exact ⟨hstarted, fun other hother => (hI.chosen.1 other hother).along hcarries,
      h.workDue hI.chosen.2⟩
  | _ => exact ⟨hI.started, trivial⟩

/-! ## State events -/

theorem changedNode_wasStarted {now : Time} {before : PlanNodeStatus}
    (h : WasStarted (changedNode event now before)) :
    WasStarted before ∨ event.kind = .nodeStarted ∨ event.kind = .nodeRetryScheduled := by
  by_cases hstarted : event.kind = .nodeStarted
  · exact .inr (.inl hstarted)
  by_cases hretry : event.kind = .nodeRetryScheduled
  · exact .inr (.inr hretry)
  rcases h with hattempts | hrunning
  · rw [changedNode_attempts hstarted hretry] at hattempts
    exact .inl (.inl hattempts)
  · rw [changedNode_lifecycle] at hrunning
    exact .inl (.inr ((lifecycleAfter_running hrunning).resolve_left hstarted))

variable {bad : Err → Point} {ok : Point}

section

variable (hc : Reachable E input ((x, p), w)) (h : Posts E x w p spec event ok bad)
include hc h

theorem Posts.carries (hposted : Posted E spec event w answer v)
    (hchosen : Chosen w p) : Carries p.hands p.hands w v := by
  refine hposted.carries ?_
  rcases h.names (reachable_scheduled hc) with hleaves | hnames
  · exact .inl hleaves
  cases p with
  | node => exact .inr (.inl (mem_singleton.mpr hnames))
  | marking nodes =>
    cases nodes with
    | nil => exact hnames.elim
    | cons next rest => exact .inr (.inl (mem_cons.mpr (.inl hnames)))
  | retrying => exact hchosen.elim
  | skipping =>
    refine .inr (.inr fun status hstatus => ?_)
    rcases HasStatus.holds (nodeSchedulable_iff.mp hnames) hstatus with hopen | hopen <;>
      rw [hopen] <;> rfl
  | _ => exact hnames.elim

theorem Posts.grounds
    (hchosen : Chosen w p) (hkind : event.kind = .nodeStarted ∨ event.kind = .nodeRetryScheduled)
    {declared : PlanNodeSpec} (hmem : declared ∈ w.st.spec.nodes)
    (hid : event.nodeID = declared.nodeID) : Grounded p.hands w.st declared := by
  have hscheduled := reachable_scheduled hc
  have hplanned := reachable_planned hc
  have hdeclared : ∀ {node : PlanNodeSpec}, PlanReady w.st → FromSpec w.st.spec node →
      node.nodeID = declared.nodeID → Grounded [node.nodeID] w.st node →
      Grounded [node.nodeID] w.st declared := by
    rintro node hready ⟨other, hother, hnode⟩ hsame hgrounded
    have hnodup := hready.2.nodup
    rw [hready.1] at hnodup
    have hotherID : other.nodeID = node.nodeID := by rw [hnode]
    obtain rfl := inj_on_of_nodup_map hnodup hother hmem (hotherID.trans hsame)
    exact hgrounded.copy hotherID (by rw [hnode])
  cases h with
  | retry => exact hchosen.elim
  | node h =>
    cases h with
    | started => exact hdeclared hplanned hscheduled.1 hid hchosen.2
    | close =>
      obtain ⟨hcloses, hevent⟩ := hscheduled.2.2.closes
      have hretry : event.kind = .nodeRetryScheduled := by
        rcases hkind with hkind | hkind
        · simp [EventKind.closesNode, hkind] at hcloses
        · exact hkind
      exact hdeclared hplanned hscheduled.1 (hevent.symm.trans hid) (hchosen.2 hretry)
    | _ => rcases hkind with hkind | hkind <;> cases hkind
  | ended hends => rcases hkind with hkind | hkind <;> exact absurd hkind (hends.ne rfl)
  | terminalBefore | terminalAfter =>
    rcases hkind with hkind | hkind <;> exact absurd hkind (terminalPlanEvent_ne rfl)
  | _ => rcases hkind with hkind | hkind <;> cases hkind

theorem Posts.startsGrounded
    (hposted : Posted E spec event w answer v) (hI : Based w p) : StartsGrounded p.hands v.st := by
  rintro node hmem ⟨status, hstatus, hstarted⟩
  rw [hposted.framed.spec] at hmem
  have hcarries := h.carries hc hposted hI.chosen
  have hkept : HasStatus w.st node.nodeID WasStarted → Grounded p.hands v.st node :=
    fun hbefore => (hI.started node hmem hbefore).along hcarries
  rcases hposted.status_cases hstatus with
    hbefore | ⟨-, added, -, now, -, rfl⟩ | ⟨hid, before, time, now, hbefore, rfl⟩
  · exact hkept ⟨status, hbefore, hstarted⟩
  · exact absurd hstarted (not_wasStarted_pending _ _)
  · rcases changedNode_wasStarted hstarted with hwas | hkind
    · exact hkept ⟨before, hbefore, hwas⟩
    · exact (h.grounds hc hI.chosen hkind hmem hid).along hcarries

end

theorem Posts.hands (h : Posts E x w p spec event ok bad) :
    ok.hands ⊆ p.hands ∧ ∀ err, (bad err).hands ⊆ p.hands := by
  cases h with
  | marked => exact ⟨subset_cons_self _ _, fun _ => nil_subset _⟩
  | node => exact ⟨Subset.refl _, fun _ => Subset.refl _⟩
  | _ => exact ⟨nil_subset _, fun _ => nil_subset _⟩

theorem Posts.chosen_saved (hc : Reachable E input ((x, p), w))
    (h : Posts E x w p spec event ok bad) (hposted : Posted E spec event w none v)
    (hlate : event.kind = .nodeReady → ∀ edge ∈ newEdges w.log, edge.target ≠ event.nodeID)
    (hchosen : Chosen w p) : Chosen v ok := by
  have hcarries := h.carries hc hposted hchosen
  cases h with
  | retryApproved htype => exact absurd htype hchosen
  | conditions | skipped => exact fun node hmem => (hchosen node hmem).along hcarries
  | startFailed =>
    exact fun node hmem =>
      ((hchosen.1 node hmem).along hcarries).along (.weaken (nil_subset _))
  | node h =>
    exact ⟨fun other hother => (hchosen.1 other hother).along hcarries,
      h.workDue hposted hcarries hlate hchosen.2⟩
  | _ => trivial

theorem Posts.chosen_unsaved {err : Err}
    (hc : Reachable E input ((x, p), w)) (h : Posts E x w p spec event ok bad)
    (hposted : Posted E spec event w (some err) v) (hchosen : Chosen w p) : Chosen v (bad err) := by
  have hcarries := h.carries hc hposted hchosen
  cases h with
  | node h => exact ⟨fun other hother => (hchosen.1 other hother).along hcarries, trivial⟩
  | _ => trivial

def AddsInTime (w : World) (act : Act) : Prop :=
  manualRetry (w.st, act) = false ∧ addsDependency w act = false

theorem reachable_based (hfresh : input.continued = false) {c : Config}
    (hc : Reachable E input c) (hlog : Taken AddsInTime c.2.log) : Based c.2 c.1.2 := by
  refine reach_taken ⟨?_, trivial⟩ (fun c d hc h hlog hI => ?_) hc hlog
  · rintro node - ⟨status, hstatus, -⟩
    cases hstatus
  cases h with
  | skip h => exact h.based hc hI
  | say h => exact h.based hc hlog.1.1 hlog.1.2 hI
  | ask h => exact h.based hI
  | saved h hposted =>
    refine ⟨fun node hmem hstarted =>
      (h.startsGrounded hc hposted hI node hmem hstarted).along (.weaken h.hands.1),
      h.chosen_saved hc hposted (fun hkind edge hedge htarget => ?_) hI.chosen⟩
    obtain ⟨time, now, tail, -, hv, -, -⟩ := hposted.effect
    exact addsDependency_ready hkind (hlog.of_suffix (hv ▸ suffix_append _ _)).2 edge hedge htarget
  | unsaved h hposted =>
    exact ⟨fun node hmem hstarted =>
      (h.startsGrounded hc hposted hI node hmem hstarted).along (.weaken (h.hands.2 _)),
      h.chosen_unsaved hc hposted hI.chosen⟩
  | begin _ hstate =>
    refine ⟨?_, trivial⟩
    rcases reachable_begin hfresh hc hstate with ⟨rfl, rfl, rfl⟩ | ⟨⟨rfl, -⟩, -, hlookup⟩
    · rintro node - ⟨status, hstatus, hstarted⟩
      obtain ⟨_, -, -, rfl⟩ := newState_lookup hstatus
      exact absurd hstarted (not_wasStarted_pending _ _)
    · rintro node hmem ⟨status, hstatus, hstarted⟩
      refine (hI.started node hmem ⟨status, (hlookup _).symm.trans hstatus, hstarted⟩).mono rfl ?_
      rintro nodeID P ⟨hout, found, hfound, hended⟩
      exact ⟨hout, found, (hlookup _).trans hfound, hended⟩
  | refuse => exact ⟨hI.started, trivial⟩

theorem StartsGrounded.congr {hands hands' : List String} {l l' : Locals}
    (h : StartsGrounded hands l) (hstate : l'.state = l.state) (hspec : l'.spec = l.spec)
    (hsub : hands' ⊆ hands) : StartsGrounded hands' l' := by
  rintro node hmem ⟨status, hstatus, hstarted⟩
  rw [hspec] at hmem
  rw [hstate] at hstatus
  exact (h node hmem ⟨status, hstatus, hstarted⟩).mono hspec fun _ _ hended =>
    (hended.weaken hsub).congr hstate

theorem reachable_startsGrounded (hfresh : input.continued = false) {c : Config}
    (hc : Reachable E input c) (hlog : Taken AddsInTime c.2.log) :
    LogMeets (fun e => StartsGrounded [] e.1) c.2 := by
  refine reach_taken (fun _ he => (not_mem_nil he).elim) (fun c d hc h hlog hI e he => ?_) hc hlog
  have hbefore := reachable_based hfresh hc (hlog.mono h.grows)
  have hafter := reachable_based hfresh (hc.tail h) hlog
  rcases h.entry he with hold | ⟨hstate, hspec⟩ | ⟨hstate, hspec⟩
  · exact hI e hold
  · exact hbefore.started.congr hstate hspec (nil_subset _)
  · exact hafter.started.congr hstate hspec (nil_subset _)

/-- Dependencies precede starts: at every action of a new plan, and after the last, a node that
was started has what its join asks for in the topology of that moment.  No retry signal is to be
handled, and no expansion is to add an edge into a node that was started or that the same tick
starts. -/
theorem dependencies_precede_starts (E : Host) (r : PlanRuntime) (spec : RunPlanSpec) (n : Nat)
    (hlog : Taken (fun w act => manualRetry (w.st, act) = false ∧ addsDependency w act = false)
      (planRun E (r.newPlanInput spec) n).world.log) :
    let w := (planRun E (r.newPlanInput spec) n).world
    ∀ l, (l = w.st ∨ ∃ act, (l, act) ∈ w.log) → ∀ node ∈ l.spec.nodes, ∀ status,
      l.state.nodeStatus node.nodeID = some status → 1 ≤ status.attempts → Grounded [] l node := by
  obtain ⟨c, hreach, hat⟩ := planRun_path E (r.newPlanInput spec) n
  rw [← hat.world] at hlog ⊢
  rintro w l hl node hmem status hstatus hattempts
  have hstarted : StartsGrounded [] l := by
    rcases hl with rfl | ⟨act, hact⟩
    · exact (reachable_based rfl hreach hlog).started.congr rfl rfl (nil_subset _)
    · exact reachable_startsGrounded rfl hreach hlog _ hact
  exact hstarted node hmem ⟨status, hstatus, .inl hattempts⟩

/-- The second node of a chain starts after the first, which expanded the plan. -/
theorem dependencies_precede_starts_chain :
    let w := (planRun (expandingHost false) chainPlan 6).world
    w.log.countP expands = 1 ∧ (w.st.state.nodeStatus "b").map PlanNodeStatus.attempts = some 1 ∧
      Grounded [] w.st (nativeNode "b" "rb") :=
  ⟨by decide +kernel, by decide +kernel,
    dependencies_precede_starts (expandingHost false) calmRuntime chainPlan.spec 6
      (by decide +kernel) _ (.inl rfl) (nativeNode "b" "rb") (.tail _ (.head _)) _ rfl
      (by decide +kernel)⟩

/-- The run of the node `b` ends at its start with a delta that makes the node `a` depend on a
new one. -/
def overtakingHost : Host :=
  { expandingHost false with
    startNode := fun w =>
      if (w.st.state.nodeStatus "b").any fun node => node.lifecycleState = .running then
        .ok { lifecycleState := .succeeded
              artifacts := [{ artifactID := "d", name := "delta", kind := .planDelta }] }
      else .ok {}
    nextPlanDelta := fun _ => .ok (some
      { nodes := [nativeNode "c" "rc"]
        edges := [{ edgeID := "e", source := "c", target := "a" }] }) }

/-- The expansion of the node `b` is taken while the node `a` runs, which then depends on a node
that has not started. -/
theorem dependency_overtaken :
    let w := (planRun overtakingHost (planOf [nativeNode "a" "ra", nativeNode "b" "rb"]) 3).world
    LogMeets (manualRetry · = false) w ∧ w.log.countP expands = 1 ∧
      (w.st.state.nodeStatus "a").map PlanNodeStatus.attempts = some 1 ∧
      (w.st.state.nodeStatus "c").map PlanNodeStatus.lifecycleState = some .pending ∧
      ¬ Grounded [] w.st (nativeNode "a" "ra") := by
  have hpending : ((planRun overtakingHost
      (planOf [nativeNode "a" "ra", nativeNode "b" "rb"]) 3).world.st.state.nodeStatus "c").map
        PlanNodeStatus.lifecycleState = some .pending := by decide +kernel
  refine ⟨by decide +kernel, by decide +kernel, by decide +kernel, hpending, fun hgrounded => ?_⟩
  obtain ⟨-, status, hstatus, hended, -⟩ :=
    hgrounded { edgeID := "e", source := "c", target := "a" } (by decide +kernel)
  rw [hstatus] at hpending
  rw [Option.some.inj hpending] at hended
  cases hended

end AgentOS.Plan
