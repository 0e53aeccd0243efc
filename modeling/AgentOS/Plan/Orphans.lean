import AgentOS.Plan.Attempts
import AgentOS.Plan.Outcome

/-!
# Runs that are left behind

A workflow that returns should leave no run of its nodes behind: every run that it started
has ended, as far as it saw, or was told to.
-/

namespace AgentOS.Plan

open Kit List State SortedMap

variable {E : Host} {input : PlanWorkflowInput} {x : Execution} {w v : World} {p p' : Point}
  {spec : RunPlanSpec} {event : StateEvent} {answer : Option Err} {runID : String}

/-! ## Open runs -/

def startedRun : Locals × Act → Option String
  | (_, .startNode request _ (.ok _)) => some request.run.runID
  | (_, .startNexus _ run _) => some run.runID
  | _ => none

def settledRun (l : Locals) (runID : String) : Bool :=
  match (l.nodeRuns.get? runID).bind PlanNodeRun.future with
  | some (.ok status) => status.lifecycleState.terminal
  | some (.error failure) => !failure.started
  | none => false

def accountsFor (runID : String) : Locals × Act → Bool
  | (_, .startNode request _ (.ok status)) =>
      request.run.runID = runID && status.lifecycleState.terminal
  | (_, .statusNode id (.ok status)) => id = runID && status.lifecycleState.terminal
  | (l, .removePromise id) => id = runID && settledRun l id
  | (_, .controlNode id control none) => id = runID && control.operation = .cancel
  | _ => false

/-- The runs that were started and are not accounted for since. -/
def openRuns : List (Locals × Act) → List String
  | [] => []
  | e :: earlier =>
      ((startedRun e).toList ++ openRuns earlier).filter fun runID => !accountsFor runID e

variable {e : Locals × Act} {log : List (Locals × Act)} {l : Locals} {nodeID : String}
  {status : PlanNodeStatus} {arrivals : Arrivals} {ok : Point} {bad : Err → Point}

theorem mem_openRuns_cons :
    runID ∈ openRuns (e :: log) ↔
      (startedRun e = some runID ∨ runID ∈ openRuns log) ∧ accountsFor runID e = false := by
  simp [openRuns, or_and_right]

theorem mem_openRuns_of_cons
    (hstarts : startedRun e = none) (h : runID ∈ openRuns (e :: log)) : runID ∈ openRuns log := by
  obtain ⟨hstarted | hopen, -⟩ := mem_openRuns_cons.mp h
  · rw [hstarts] at hstarted
    cases hstarted
  · exact hopen

theorem Posted.openRuns (h : Posted E spec event w answer v)
    (hopen : runID ∈ openRuns v.log) : runID ∈ openRuns w.log := by
  cases h with
  | refused | unscoped => exact mem_openRuns_of_cons rfl hopen
  | answered =>
    exact mem_openRuns_of_cons rfl (mem_openRuns_of_cons rfl (mem_openRuns_of_cons rfl hopen))

/-! ## The nodes that carry them -/

def Carried (own : Option String) (l : Locals) (runID : String) : Prop :=
  ∃ nodeID, own ≠ some nodeID ∧ HasStatus l nodeID fun status =>
    status.lifecycleState = .running ∧ status.runID = runID

theorem Carried.weaken {own : Option String} (h : Carried own l runID) : Carried none l runID := by
  obtain ⟨nodeID, -, hstatus⟩ := h
  exact ⟨nodeID, nofun, hstatus⟩

theorem Carried.congr {own : Option String} {l' : Locals} (h : Carried own l runID)
    (hstate : l'.state = l.state) : Carried own l' runID := by
  obtain ⟨nodeID, hown, status, hstatus, hrunning⟩ := h
  exact ⟨nodeID, hown, status, hstate ▸ hstatus, hrunning⟩

theorem Carried.apart (h : Carried none l runID)
    (hnot : ∀ status, l.state.nodeStatus nodeID = some status → status.lifecycleState = .running →
      status.runID ≠ runID) : Carried (some nodeID) l runID := by
  obtain ⟨other, -, status, hstatus, hrunning, hrun⟩ := h
  refine ⟨other, ?_, status, hstatus, hrunning, hrun⟩
  rintro ⟨⟩
  exact hnot status hstatus hrunning hrun

theorem Posted.carried {own : Option String} (h : Posted E spec event w answer v)
    (hevent : event.kind.leavesNodes ∨ own = some event.nodeID ∨
      ∀ status, w.st.state.nodeStatus event.nodeID = some status → status.lifecycleState ≠ .running)
    (hcarried : Carried own w.st runID) : Carried own v.st runID := by
  obtain ⟨nodeID, hown, status, hstatus, hrunning, hrun⟩ := hcarried
  have hkept : event.kind.leavesNodes ∨ event.nodeID ≠ nodeID := by
    rcases hevent with hleaves | rfl | hidle
    · exact .inl hleaves
    · exact .inr fun hid => hown (congrArg some hid)
    · exact .inr fun hid => hidle status (hid ▸ hstatus) hrunning
  obtain ⟨status', hstatus', hlifecycle, hrunID⟩ := h.status_kept hkept hstatus
  exact ⟨nodeID, hown, status', hstatus', hlifecycle.trans hrunning, hrunID.trans hrun⟩

theorem Posted.idle (h : Posted E spec event w answer v)
    (hplan : (reducerPlanLifecycleForEvent event.kind).isSome = true) (hidle : Idle w.st) :
    Idle v.st := by
  intro nodeID status hstatus
  rcases h.status_cases hstatus with
    hbefore | ⟨-, node, -, now, -, rfl⟩ | ⟨-, before, time, now, hbefore, rfl⟩
  · exact hidle nodeID status hbefore
  · nofun
  · have hplan' : (reducerPlanLifecycleForEvent (stamped w.st time event).kind).isSome = true := hplan
    rw [changedNode_plan hplan']
    exact hidle nodeID before hbefore

/-! ## The invariant -/

def State.anyRunning (s : State) : Bool :=
  (sortedNodeStatuses s.nodes).any fun node => node.lifecycleState = .running

theorem idle_of_anyRunning (h : l.state.anyRunning = false) : Idle l := by
  intro nodeID status hstatus hrunning
  have hmem : status ∈ sortedNodeStatuses l.state.nodes :=
    (mem_values_iff _ _).mpr ⟨nodeID, hstatus⟩
  have hnone := any_eq_false.mp h status hmem
  simp [hrunning] at hnone

/-- The loop is left while a node runs: an error fails the plan, or a wait fails. -/
def leavesRunning : Locals × Act → Bool
  | (l, .apply event) => event.kind = .planFailed && l.state.anyRunning
  | (l, .wait (some _)) => l.stage ≠ .drain && l.state.anyRunning
  | _ => false

/-- The loop gives a run up that it can not see: its status can not be read, its operation
fails behind its start, or the backend names another run at the start. -/
def givesUpRun : Locals × Act → Bool
  | (_, .statusNode _ (.error _)) => true
  | (l, .removePromise runID) =>
      l.stage ≠ .drain &&
        match (l.nodeRuns.get? runID).bind PlanNodeRun.future with
        | some (.error failure) => failure.started
        | _ => false
  | (_, .startNode request _ (.ok status)) => !(startPlanNodeAnswer request status).isOk
  | _ => false

structure Attentive (e : Locals × Act) : Prop where
  smooth : Smooth e
  leaves : leavesRunning e = false
  gives : givesUpRun e = false

def Point.own : Point → Option String
  | .node (.start _ _) handled (.broken _) => some handled.nodeID
  | .node _ _ (.running _ _) | .node _ _ (.over _) | .node _ _ (.broken _) => none
  | .node _ handled _ => some handled.nodeID
  | _ => none

def Covered (w : World) (p : Point) : Prop := ∀ runID ∈ openRuns w.log, Carried p.own w.st runID

/-- What is known besides: an abort controls every open run before it marks nodes, it marks
every running node, and a workflow that returns is idle. -/
def Parted (x : Execution) (w : World) : Point → Prop
  | .opened => x.input.continued = false → Idle w.st
  | .controlling inputs purpose => purpose ≠ .pause → purpose ≠ .resume →
      (∀ runID ∈ openRuns w.log, runID ∈ inputs.map Prod.fst) ∧
        ∀ sent ∈ inputs, sent.2.operation = .cancel
  | .marking nodes _ => openRuns w.log = [] ∧ ∀ nodeID status,
      w.st.state.nodeStatus nodeID = some status → status.lifecycleState = .running →
        ∃ node ∈ nodes, node.nodeID = nodeID
  | .ended _ | .leaving .done | .leaving (.error _) | .returned _ | .refused _ => Idle w.st
  | _ => True

theorem Covered.to (h : Covered w p) (hown : p'.own = p.own ∨ p'.own = none) : Covered w p' := by
  intro runID hopen
  rcases hown with hown | hown
  · exact hown ▸ h runID hopen
  · exact hown ▸ (h runID hopen).weaken

theorem carried_settled (hstarts : startedRun e = none)
    (haccounts : accountsFor status.runID e = true)
    (hstatus : l.state.nodeStatus nodeID = some status)
    (hI : ∀ runID ∈ openRuns log, Carried none l runID) :
    ∀ runID ∈ openRuns (e :: log), Carried (some nodeID) l runID := by
  intro runID hopen
  refine (hI runID (mem_openRuns_of_cons hstarts hopen)).apart fun status' hstatus' _ hrun => ?_
  rw [hstatus] at hstatus'
  cases hstatus'
  rw [hrun, (mem_openRuns_cons.mp hopen).2] at haccounts
  cases haccounts

section Rows

variable {node node' : PlanNodeSpec} {work work' : Work} {act : Act} {site : Site}

theorem NodeSkips.covered (h : NodeSkips E x node w work work') (hallows : site.Allows node work)
    (hattended : Attended w.st node work) (hlaunched : Launched w.st)
    (hI : Covered w (.node site node work)) : Covered w (.node site node work') := by
  cases h with
  | unnamed hunnamed => exact absurd hunnamed (hlaunched _ _ hattended.1 hattended.2)
  | _ =>
    cases site <;> first | exact hI.to (.inl rfl) | exact hI.to (.inr rfl) | cases hallows

theorem NodeSays.covered (h : NodeSays x node w work act work')
    (hattended : Attended w.st node work) (hstage : AtStage w.st.stage (.node site node work))
    (hact : givesUpRun (w.st, act) = false) (hI : Covered w (.node site node work)) :
    Covered (w.act Locals.step act) (.node site node work') := by
  have hdrain : w.st.stage ≠ .drain := by
    intro hdrain
    cases site <;> cases hdrain.symm.trans hstage
  cases h with
  | launched =>
    intro runID hopen
    obtain ⟨hstarted | hopen, -⟩ := mem_openRuns_cons.mp hopen
    · obtain ⟨status, hstatus, hrunning, -, hrun⟩ := hattended
      exact ⟨node.nodeID, by cases site <;> nofun, status, hstatus, hrunning,
        hrun.trans (Option.some.inj hstarted)⟩
    · cases site <;> exact (hI runID hopen).weaken
  | operationCanceled | promiseLive | adopted =>
    intro runID hopen
    cases site <;> exact hI runID (mem_openRuns_of_cons rfl hopen)
  | @promiseFailed _ status failure hsettled =>
    have hnever : failure.started = false := by simpa [givesUpRun, hsettled, hdrain] using hact
    have haccounts : accountsFor status.runID (w.st, .removePromise status.runID) = true := by
      simp [accountsFor, settledRun, hsettled, hnever]
    cases site <;> exact carried_settled rfl haccounts hattended.1 hI
  | @promiseEnded _ status _ hsettled hended =>
    have haccounts : accountsFor status.runID (w.st, .removePromise status.runID) = true := by
      simp [accountsFor, settledRun, hsettled, hended]
    cases site <;> exact carried_settled rfl haccounts hattended.1 hI

theorem startPlanNodeAnswer_ok {request : PlanNodeSpec} {status named : RunStatus}
    (h : startPlanNodeAnswer request status = .ok named) :
    named.lifecycleState = status.lifecycleState := by
  unfold startPlanNodeAnswer at h
  dsimp only at h
  split_ifs at h <;> cases h <;> rfl

theorem NodeAsks.covered (h : NodeAsks E node w work act node' work')
    (hattended : Attended w.st node work) (hact : Attentive (w.st, act))
    (hI : Covered w (.node site node work)) :
    Covered (asked w act arrivals) (.node site node' work') := by
  have hid : node'.nodeID = node.nodeID := by rw [h.copy]
  have hstate : (asked w act arrivals).st.state = w.st.state := by cases h <;> rfl
  -- The delivery that comes with the answer opens no run.
  suffices hopen : ∀ runID ∈ openRuns ((w.st, act) :: w.log),
      Carried (Point.node site node' work').own w.st runID from
    fun runID hmem => (hopen runID (mem_openRuns_of_cons rfl hmem)).congr hstate
  have hkept : startedRun (w.st, act) = none →
      (Point.node site node' work').own = (Point.node site node work).own ∨
        (Point.node site node' work').own = none →
      ∀ runID ∈ openRuns ((w.st, act) :: w.log),
        Carried (Point.node site node' work').own w.st runID :=
    fun hstarts hown runID hopen => hI.to hown runID (mem_openRuns_of_cons hstarts hopen)
  cases h with
  | unresolved | resolved => exact hkept rfl (.inl (by cases site <;> exact congrArg some hid))
  | startForeign _ _ hanswer =>
    have hgives := hact.gives
    simp [givesUpRun, hanswer, Except.isOk, Except.toBool] at hgives
  | startLive hrequest =>
    intro runID hopen
    obtain ⟨hstarted | hopen, -⟩ := mem_openRuns_cons.mp hopen
    · obtain ⟨status, hstatus, hrunning, -, hrun⟩ := hattended
      exact ⟨node.nodeID, by cases site <;> nofun, status, hstatus, hrunning,
        (hrun.trans (startPlanNodeRequest_ok hrequest).2.symm).trans (Option.some.inj hstarted)⟩
    · cases site <;> exact (hI runID hopen).weaken
  | startEnded _ hanswer hended =>
    intro runID hopen
    rw [startPlanNodeAnswer_ok hanswer] at hended
    obtain ⟨hstarted | hopen, haccounts⟩ := mem_openRuns_cons.mp hopen
    · simp [accountsFor, Option.some.inj hstarted, hended] at haccounts
    · cases site <;> exact hI runID hopen
  | cancelFailed => cases hact.smooth.1
  | @cancelSent status key =>
    have haccounts : accountsFor status.runID (w.st, .controlNode status.runID
        { operation := .cancel, idempotencyKey := key } none) = true :=
      Bool.and_eq_true_iff.mpr ⟨decide_eq_true rfl, decide_eq_true rfl⟩
    cases site <;> exact carried_settled rfl haccounts hattended.1 hI
  | statusFailed => cases hact.gives
  | @statusEnded status current _ hended =>
    have haccounts : accountsFor status.runID (w.st, .statusNode status.runID (.ok current)) = true :=
      Bool.and_eq_true_iff.mpr ⟨decide_eq_true rfl, hended⟩
    cases site <;> exact carried_settled rfl haccounts hattended.1 hI
  | expansionRefused => cases site <;> first | exact hkept rfl (.inl rfl) | exact hkept rfl (.inr rfl)
  | _ => cases site <;> exact hkept rfl (.inl rfl)

theorem Posts.own_node (h : Posts E x w (.node site node work) spec event ok bad) :
    (Point.node site node work).own = some node.nodeID := by
  cases h with
  | startFailed => rfl
  | node h => cases h <;> cases site <;> rfl

end Rows

/-! ## Controls -/

theorem controlInputs_open {control : ControlRequest} {inputs : List (String × ControlRequest)}
    (hlisted : w.st.state.Lists) (hlaunched : Launched w.st) (hI : Covered w p)
    (hcancel : control.operation = .cancel) (hinputs : controlInputs E w.st control = .ok inputs) :
    (∀ runID ∈ openRuns w.log, runID ∈ inputs.map Prod.fst) ∧
      ∀ sent ∈ inputs, sent.2.operation = .cancel := by
  obtain ⟨hruns, hoperation⟩ := activePlanNodeControlInputs_ok hinputs
  refine ⟨fun runID hopen => ?_, fun sent hmem => (hoperation sent hmem).trans hcancel⟩
  obtain ⟨nodeID, -, status, hstatus, hrunning, rfl⟩ := hI runID hopen
  exact hruns status ((mem_listed hlisted).mpr ⟨_, hstatus⟩) hrunning
    (hlaunched nodeID status hstatus hrunning)

/-! ## What keeps the open runs covered -/

theorem Covered.act {act : Act} (h : Covered w p) (hstarts : startedRun (w.st, act) = none)
    (hstate : (Locals.step w.st act).state = w.st.state) (hown : p'.own = none) :
    Covered (w.act Locals.step act) p' := by
  intro runID hopen
  rw [hown]
  exact (h runID (mem_openRuns_of_cons hstarts hopen)).weaken.congr hstate

theorem Covered.asked {act : Act} (h : Covered w p) (hstarts : startedRun (w.st, act) = none)
    (hstate : (Locals.step w.st act).state = w.st.state) (hown : p'.own = none) :
    Covered (asked w act arrivals) p' :=
  (h.act hstarts hstate hown).act rfl rfl hown

section

variable (hc : Reachable E input ((x, p), w))
include hc

theorem Skips.covered (h : Skips E x w p p')
    (hlaunched : Launched w.st) (hI : Covered w p) : Covered w p' := by
  cases h with
  | node h => exact h.covered (reachable_scheduled hc).2.2 (reachable_attended hc) hlaunched hI
  | start _ hopen =>
    intro runID hrun
    refine (hI runID hrun).apart fun status hstatus hrunning => ?_
    have hschedulable := HasStatus.holds (nodeSchedulable_iff.mp hopen) hstatus
    simp [hrunning] at hschedulable
  | command h => cases h <;> exact hI.to (.inr rfl)
  | _ => exact hI.to (.inr rfl)

theorem Says.covered {act : Act} (h : Says E x w p act p')
    (hact : Attentive (w.st, act)) (hI : Covered w p) : Covered (w.act Locals.step act) p' := by
  cases h with
  | node h =>
    exact h.covered (reachable_attended hc) (reachable_atStage hc) hact.gives hI
  | _ => exact hI.act rfl rfl rfl

theorem Asks.covered {act : Act}
    (h : Asks E x w p act p') (hact : Attentive (w.st, act)) (hI : Covered w p) :
    Covered (asked w act arrivals) p' := by
  cases h with
  | node h => exact h.covered (reachable_attended hc) hact hI
  | _ => exact hI.asked rfl rfl rfl

theorem Posts.spares (h : Posts E x w p spec event ok bad) (hparted : Parted x w p) :
    openRuns w.log = [] ∨ event.kind.leavesNodes ∨ p.own = some event.nodeID ∨
      ∀ status, w.st.state.nodeStatus event.nodeID = some status →
        status.lifecycleState ≠ .running := by
  rcases h.names (reachable_scheduled hc) with hleaves | hnames
  · exact .inr (.inl hleaves)
  cases p with
  | node => exact .inr (.inr (.inl (h.own_node.trans (congrArg some hnames.symm))))
  | marking => exact .inl hparted.1
  | retrying =>
    refine .inr (.inr (.inr fun status hstatus => ?_))
    rw [hnames] at hstatus
    rw [(HasStatus.holds (reachable_prepared hc) hstatus).1]
    nofun
  | skipping =>
    refine .inr (.inr (.inr fun status hstatus hrunning => ?_))
    have hschedulable := HasStatus.holds (nodeSchedulable_iff.mp hnames) hstatus
    simp [hrunning] at hschedulable
  | _ => exact hnames.elim

end

theorem Posts.own (h : Posts E x w p spec event ok bad) :
    (ok.own = p.own ∨ ok.own = none) ∧ ∀ err, (bad err).own = p.own ∨ (bad err).own = none := by
  cases h with
  | @node site _ _ _ _ _ h =>
    cases h <;> cases site <;> refine ⟨?_, fun _ => ?_⟩ <;> first | exact .inl rfl | exact .inr rfl
  | _ => exact ⟨.inr rfl, fun _ => .inr rfl⟩

theorem Posts.covered (hc : Reachable E input ((x, p), w))
    (h : Posts E x w p spec event ok bad) (hposted : Posted E spec event w answer v)
    (hparted : Parted x w p) (hI : Covered w p) (hown : p'.own = p.own ∨ p'.own = none) :
    Covered v p' := by
  have hcovered : Covered v p := by
    intro runID hopen
    have hbefore := hposted.openRuns hopen
    rcases h.spares hc hparted with hnone | hevent
    · rw [hnone] at hbefore
      cases hbefore
    · exact hposted.carried hevent (hI runID hbefore)
  exact hcovered.to hown

/-! ## What keeps the nodes of an abort in sight -/

theorem idle_of_terminal (hlisted : l.state.Lists)
    (h : planNodesTerminal l.state.status = true) : Idle l := by
  intro nodeID status hstatus hrunning
  have hall := (Bool.and_eq_true_iff.mp h).2
  have hended := all_eq_true.mp hall status ((mem_listed hlisted).mpr ⟨_, hstatus⟩)
  rw [hrunning] at hended
  cases hended

theorem Posted.failed_idle (h : Posted E spec event w answer v) (hkind : event.kind = .planFailed)
    (hlog : LogMeets Attentive v) : Idle v.st := by
  obtain ⟨time, now, tail, -, hv, -, -⟩ := h.effect
  have hmem : (w.st, .apply (stamped w.st time event)) ∈ v.log := by
    rw [hv]
    exact mem_append_right _ mem_cons_self
  have hidle : w.st.state.anyRunning = false := by
    simpa [leavesRunning, hkind] using (hlog _ hmem).leaves
  exact h.idle (by rw [hkind]; rfl) (idle_of_anyRunning hidle)

theorem Posted.marked {reason : String}
    (h : Posted E spec (canceledEvent nodeID runID reason) w none v)
    (hstatus : v.st.state.nodeStatus nodeID = some status) : status.lifecycleState = .canceled := by
  obtain ⟨time, now, _, _, happlied⟩ := h.applied
  have hlookup := happlied.lookup nodeID
  rw [hstatus, nodeAfter,
    if_pos (show nodeID = (stamped w.st time (canceledEvent nodeID runID reason)).nodeID from rfl)]
    at hlookup
  obtain ⟨before, -, rfl⟩ := Option.map_eq_some_iff.mp hlookup.symm
  rfl

theorem Skips.parted (hc : Reachable E input ((x, p), w)) (h : Skips E x w p p')
    (hlaunched : Launched w.st) (hunbroken : Unbroken w p)
    (hstays : p.stays = true → p.over = false → p'.stays = true) (hcovered : Covered w p)
    (hI : Parted x w p) : Parted x w p' := by
  have hlisted := reachable_listed hc
  cases h with
  | settleUnknown => cases hstays rfl rfl
  | settleBroken => exact hunbroken.elim
  | done | error => exact hI
  | command h =>
    cases h with
    | @control control _ _ hpurpose hinputs =>
      intro hpause hresume
      have hcancel : control.operation = .cancel := by
        unfold ControlRequest.purpose at hpurpose
        split at hpurpose <;> cases hpurpose
        · exact absurd rfl hpause
        · exact absurd rfl hresume
        · assumption
      exact controlInputs_open hlisted hlaunched hcovered hcancel hinputs
    | reject _ _ hinputs => exact fun _ _ => controlInputs_open hlisted hlaunched hcovered rfl hinputs
    | guard hguard hinputs =>
      refine fun _ _ => controlInputs_open ?_ hlaunched hcovered rfl hinputs
      cases hguard <;> exact hlisted
    | mark hpause hresume =>
      obtain ⟨hopen, -⟩ := hI hpause hresume
      refine ⟨eq_nil_iff_forall_not_mem.mpr fun runID hmem => ?_,
        fun nodeID status hstatus hrunning => ?_⟩
      · cases hopen runID hmem
      · exact ⟨status, mem_filter.mpr
          ⟨(mem_listed hlisted).mpr ⟨_, hstatus⟩, decide_eq_true hrunning⟩,
          reachable_named hc nodeID status hstatus⟩
    | ended => exact hI
    | stoppedGuard => exact hunbroken.elim
    | _ => trivial
  | _ => trivial

theorem Says.parted {act : Act} (h : Says E x w p act p') (hI : Parted x w p) :
    Parted x (w.act Locals.step act) p' := by
  cases h with
  | @drain outcome | @cancelOperation outcome | @dropOperation outcome => cases outcome <;> exact hI
  | _ => trivial

theorem Asks.parted {act : Act} (h : Asks E x w p act p')
    (hstage : AtStage w.st.stage p) (hact : Attentive (w.st, act)) (hI : Parted x w p) :
    Parted x (asked w act arrivals) p' := by
  have hidle : ∀ {err}, act = .wait (some err) → w.st.stage ≠ .drain → Idle w.st := by
    rintro err rfl hdrain
    exact idle_of_anyRunning (by simpa [leavesRunning, hdrain] using hact.leaves)
  cases h with
  | awaitFailed | sleepFailed | finishFailed => exact hidle rfl (by rw [hstage]; nofun)
  | @controlled _ control =>
    intro hpause hresume
    obtain ⟨hopen, hcancel⟩ := hI hpause hresume
    obtain ⟨hfirst, hrest⟩ := forall_mem_cons.mp hcancel
    refine ⟨fun other hmem => ?_, hrest⟩
    obtain ⟨hstarted | hbefore, haccounts⟩ := mem_openRuns_cons.mp (mem_openRuns_of_cons rfl hmem)
    · cases hstarted
    rcases mem_cons.mp (hopen other hbefore) with rfl | hmem
    · have hcancel : control.operation = .cancel := hfirst
      simp [accountsFor, hcancel] at haccounts
    · exact hmem
  | controlFailed => cases hact.smooth.1
  | @drained outcome => cases outcome <;> exact hI
  | _ => trivial

theorem Posts.parted_saved (hc : Reachable E input ((x, p), w))
    (h : Posts E x w p spec event ok bad) (hposted : Posted E spec event w none v)
    (hlog : LogMeets Attentive v) (hI : Parted x w p) : Parted x v ok := by
  have hlisted := reachable_listed hc
  have hidle : (∃ lifecycle, reducerPlanLifecycleForEvent event.kind = some lifecycle ∧
      lifecycle.terminal = true) → Idle w.st → Idle v.st :=
    fun ⟨_, hkind, _⟩ => hposted.idle (by rw [hkind]; rfl)
  cases h with
  | unready | tripped | failed | stalled => exact hposted.failed_idle rfl hlog
  | terminalBefore hterminal | terminalAfter _ hterminal =>
    exact hidle (terminalPlanEvent_terminal _) (idle_of_terminal hlisted hterminal)
  | ended hends =>
    refine hidle hends.terminal fun nodeID status hstatus hrunning => ?_
    obtain ⟨node, hmem, -⟩ := hI.2 nodeID status hstatus hrunning
    cases hmem
  | @marked node =>
    refine ⟨eq_nil_iff_forall_not_mem.mpr fun runID hmem => ?_,
      fun nodeID status hstatus hrunning => ?_⟩
    · have hbefore := hposted.openRuns hmem
      rw [hI.1] at hbefore
      cases hbefore
    · have hother : nodeID ≠ node.nodeID := by
        rintro rfl
        rw [hposted.marked hstatus] at hrunning
        cases hrunning
      rcases hposted.status_cases hstatus with hbefore | ⟨-, added, -, now, -, rfl⟩ | ⟨hid, -⟩
      · obtain ⟨listed, hmem, hid⟩ := hI.2 nodeID status hbefore hrunning
        rcases mem_cons.mp hmem with rfl | hmem
        · exact absurd hid.symm hother
        · exact ⟨listed, hmem, hid⟩
      · cases hrunning
      · exact absurd hid.symm hother
  | _ => trivial

theorem Posts.parted_unsaved {err : Err}
    (h : Posts E x w p spec event ok bad) (hposted : Posted E spec event w (some err) v)
    (hstays : (bad err).stays = true) (hlog : LogMeets Attentive v) (hI : Parted x w p) :
    Parted x v (bad err) := by
  cases h with
  | begun hfresh => exact hposted.idle rfl (hI hfresh)
  | unready => exact hposted.failed_idle rfl hlog
  | tripped | terminalBefore | terminalAfter | conditions | skipped | startFailed | failed
  | stalled => cases hstays
  | _ => trivial

theorem idle_newState {now : Time} (h : l.state = newState spec now) : Idle l := by
  intro nodeID status hstatus
  rw [h] at hstatus
  obtain ⟨node, -, -, rfl⟩ := newState_lookup hstatus
  nofun

structure Accounted (x : Execution) (w : World) (p : Point) : Prop where
  covered : Covered w p
  parted : Parted x w p

theorem reachable_accounted (hfresh : input.continued = false) (hzero : input.expansionCount = 0)
    {c : Config} (hc : Reachable E input c) (hlog : LogMeets Attentive c.2) :
    Accounted c.1.1 c.2 c.1.2 := by
  refine reach_inv ⟨fun _ hopen => (not_mem_nil hopen).elim, trivial⟩ ?_ hc hlog
  intro c d hc hmove hlog hI
  have hsmooth : LogMeets Smooth d.2 := fun e he => (hlog e he).smooth
  have hsmooth' := hmove.meets hsmooth
  have hsynced : Synced c.2 c.1.2 :=
    reachable_synced hfresh hzero hc fun e he => (hsmooth' e he).kept
  have hunbroken := reachable_unbroken hfresh hzero hc hsmooth'
  have hlaunched := reachable_launched hfresh hc
  cases hmove with
  | skip h =>
    exact ⟨h.covered hc hlaunched hI.covered, h.parted hc hlaunched hunbroken
      (h.stays hfresh hc hsynced hunbroken).2 hI.covered hI.parted⟩
  | say h => exact ⟨h.covered hc (hlog _ mem_cons_self) hI.covered, h.parted hI.parted⟩
  | ask h =>
    have hact := hlog _ (mem_cons_of_mem _ mem_cons_self)
    exact ⟨h.covered hc hact hI.covered, h.parted (reachable_atStage hc) hact hI.parted⟩
  | saved h hposted =>
    exact ⟨h.covered hc hposted hI.parted hI.covered h.own.1,
      h.parted_saved hc hposted hlog hI.parted⟩
  | unsaved h hposted =>
    exact ⟨h.covered hc hposted hI.parted hI.covered (h.own.2 _),
      h.parted_unsaved hposted (h.lost hc hposted hsmooth hsynced hunbroken) hlog hI.parted⟩
  | begin _ hstate =>
    rcases reachable_begin hfresh hc hstate with ⟨rfl, rfl, rfl⟩ | ⟨⟨rfl, -⟩, -, hlookup⟩
    · refine ⟨fun runID hopen => ?_, fun _ => idle_newState rfl⟩
      cases mem_openRuns_of_cons rfl hopen
    refine ⟨fun runID hopen => ?_, nofun⟩
    obtain ⟨nodeID, hown, status, hstatus, hruns⟩ :=
      hI.covered runID (mem_openRuns_of_cons rfl hopen)
    exact ⟨nodeID, hown, status, (hlookup nodeID).trans hstatus, hruns⟩
  | refuse hrefused =>
    refine ⟨hI.covered.to (.inr rfl), ?_⟩
    rcases reachable_setsUp hfresh hzero hc fun e he => (hsmooth' e he).kept with
      ⟨-, hstart⟩ | hsets
    · intro nodeID status hstatus
      rw [hstart] at hstatus
      cases hstatus
    · obtain ⟨state, hstate⟩ := hsets _
      rw [hrefused] at hstate
      cases hstate

/-! ## The status that is returned -/

namespace State

variable {s : State} {now : Time}

/-- The nodes of the status are those of the state, and its active runs are runs of running
nodes. -/
structure Mirrored (s : State) : Prop where
  nodes : ∀ status ∈ s.status.nodes, ∃ nodeID, s.nodeStatus nodeID = some status
  active : ∀ runID ∈ s.status.activeRunIDs, ∃ status ∈ s.status.nodes,
    status.lifecycleState = .running

theorem mirrored_of_listed (hlisted : s.Lists)
    (hactive : s.status.activeRunIDs = activeRuns s.status.nodes) : s.Mirrored where
  nodes _ := (mem_listed hlisted).mp
  active := by
    intro runID hmem
    rw [hactive] at hmem
    obtain ⟨status, hstatus, -⟩ := mem_map.mp hmem
    obtain ⟨hlisted, hruns⟩ := mem_filter.mp hstatus
    exact ⟨status, hlisted, of_decide_eq_true (Bool.and_eq_true_iff.mp hruns).1⟩

theorem Failed.mirrored {s' : State} (hfailed : Failed event now s s') (h : s.Mirrored) :
    s'.Mirrored := by
  refine ⟨fun status hmem => ?_, ?_⟩
  · rw [hfailed.status] at hmem
    obtain ⟨nodeID, hstatus⟩ := h.nodes status hmem
    rcases hfailed.lookup nodeID with hsame | ⟨hnone, -⟩
    · exact ⟨nodeID, hsame.trans hstatus⟩
    · rw [hstatus] at hnone
      cases hnone
  · rw [hfailed.status]
    exact h.active

end State

theorem reachable_mirrored {c : Config} (hc : Reachable E input c) : c.2.st.state.Mirrored := by
  refine reach_always (mirrored_of_listed rfl rfl) (fun c d _ h hI => ?_) hc
  rcases h.state_cases with hsame | ⟨spec, event, answer, hposted⟩ | ⟨next, time, -, -, hsetup⟩
  · exact hsame ▸ hI
  · obtain ⟨_, _, _, _, _, _, happlied | ⟨_, hfailed⟩⟩ := hposted.effect
    · exact mirrored_of_listed happlied.listed happlied.active
    · exact hfailed.mirrored hI
  · rcases newPlanWorkflowSetup_ok hsetup with ⟨-, hrestored⟩ | ⟨-, hnew⟩
    · have hrestored := newStateFromStatus_restored hrestored
      exact mirrored_of_listed hrestored.listed hrestored.active
    · exact hnew ▸ mirrored_of_listed rfl (newState_active _ _)

theorem reachable_active {c : Config} (hc : Reachable E input c) :
    c.2.st.state.status.activeRunIDs = activeRuns c.2.st.state.status.nodes := by
  refine reach_always rfl (fun c d _ h hI => ?_) hc
  rcases h.state_cases with hsame | ⟨spec, event, answer, hposted⟩ | ⟨next, time, -, -, hsetup⟩
  · exact hsame ▸ hI
  · obtain ⟨_, _, _, _, _, _, happlied | ⟨_, hfailed⟩⟩ := hposted.effect
    · exact happlied.active
    · exact hfailed.status ▸ hI
  · rcases newPlanWorkflowSetup_ok hsetup with ⟨-, hrestored⟩ | ⟨-, hnew⟩
    · exact (newStateFromStatus_restored hrestored).active
    · exact hnew ▸ newState_active _ _

/-- The active runs are those of the running nodes. -/
def ShowsRuns (s : State) : Prop :=
  s.status.activeRunIDs = (runningNodes s.status).map PlanNodeStatus.runID

theorem reachable_showsRuns {c : Config} (hfresh : input.continued = false)
    (hc : Reachable E input c) : ShowsRuns c.2.st.state := by
  refine (reachable_active hc).trans (congrArg (map _) (filter_congr fun status hmem => ?_))
  obtain ⟨nodeID, hstatus⟩ := (reachable_mirrored hc).nodes status hmem
  simpa using reachable_launched hfresh hc nodeID status hstatus

/-- The status of a new plan shows the runs under way, also behind an event that was refused. -/
theorem active_runs_exact (E : Host) (r : PlanRuntime) (spec : RunPlanSpec) (n : Nat) :
    let w := (planRun E (r.newPlanInput spec) n).world
    ShowsRuns w.st.state ∧ LogMeets (ShowsRuns ·.1.state) w := by
  obtain ⟨c, hreach, hat⟩ := planRun_path E (r.newPlanInput spec) n
  rw [← hat.world]
  exact ⟨reachable_showsRuns rfl hreach, reachable_entries (P := fun l => ShowsRuns l.state)
    (fun h hstate _ => hstate ▸ h) (reachable_showsRuns rfl) hreach⟩

theorem Idle.unlisted (h : Idle l) (hmirrored : l.state.Mirrored) :
    runningNodes l.state.status = [] ∧ l.state.status.activeRunIDs = [] := by
  have hnone : ∀ status ∈ l.state.status.nodes, status.lifecycleState ≠ .running := by
    intro status hmem
    obtain ⟨nodeID, hstatus⟩ := hmirrored.nodes status hmem
    exact h nodeID status hstatus
  constructor
  · exact filter_eq_nil_iff.mpr fun status hmem => by simp [hnone status hmem]
  · refine eq_nil_iff_forall_not_mem.mpr fun runID hmem => ?_
    obtain ⟨status, hlisted, hrunning⟩ := hmirrored.active runID hmem
    exact hnone status hlisted hrunning

theorem Covered.openRuns_idle (h : Covered w p) (hidle : Idle w.st) : openRuns w.log = [] := by
  refine eq_nil_iff_forall_not_mem.mpr fun runID hmem => ?_
  obtain ⟨nodeID, -, status, hstatus, hrunning, -⟩ := h runID hmem
  exact hidle nodeID status hstatus hrunning

/-! ## No run is left behind -/

/-- No orphaned runs: when the workflow of a new plan has returned, no node runs, no run is
active, and every run that it started was seen in a terminal state or sent a cancel control.
The persist and control activities are to succeed; the settle step is to meet neither a
negative spend nor a refused expansion; neither an error nor a wait that fails is to end the
plan while a node runs; and the loop is to give up no run. -/
theorem no_orphaned_runs (E : Host) (r : PlanRuntime) (spec : RunPlanSpec) (n : Nat)
    (hover : (planRun E (r.newPlanInput spec) n).goesOn = false)
    (hlog : LogMeets (fun e => activityFailed e = false ∧ settleFails e = false ∧
        leavesRunning e = false ∧ givesUpRun e = false)
      (planRun E (r.newPlanInput spec) n).world) :
    let w := (planRun E (r.newPlanInput spec) n).world
    runningNodes w.st.state.status = [] ∧ w.st.state.status.activeRunIDs = [] ∧
      openRuns w.log = [] := by
  obtain ⟨c, hreach, hat⟩ := planRun_path E (r.newPlanInput spec) n
  rw [← hat.world] at hlog ⊢
  have haccounted := reachable_accounted rfl rfl hreach fun e he =>
    ⟨⟨(hlog e he).1, (hlog e he).2.1⟩, (hlog e he).2.2.1, (hlog e he).2.2.2⟩
  have hidle : Idle c.2.st := by
    generalize planRun E (r.newPlanInput spec) n = exec at hover hat
    cases exec with
    | running => cases hover
    | returned | refused =>
      obtain ⟨x, rfl⟩ := hat
      exact haccounted.parted
  obtain ⟨hrunning, hactive⟩ := hidle.unlisted (reachable_mirrored hreach)
  exact ⟨hrunning, hactive, haccounted.covered.openRuns_idle hidle⟩

/-- A reject signal cancels the run of the node that is under way. -/
theorem no_orphaned_runs_rejected :
    openRuns (planRun rejectHost singlePlan 5).world.log = ["r"] ∧
      let w := (planRun rejectHost singlePlan 6).world
      runningNodes w.st.state.status = [] ∧ w.st.state.status.activeRunIDs = [] ∧
        openRuns w.log = [] :=
  ⟨by decide +kernel, no_orphaned_runs rejectHost calmRuntime singlePlan.spec 6
    (by decide +kernel) (by decide +kernel)⟩

/-- The runs go on and on. -/
def endlessHost : Host :=
  { calmHost with statusNode := fun _ => .ok { lifecycleState := .other "running" } }

/-- The status of a run can not be read. -/
def blindHost : Host :=
  { calmHost with statusNode := fun _ => .error (.external "status unavailable") }

/-- The workflow returned with these active and these open runs, and its persist and control
activities succeeded. -/
def leavesBehind (exec : Exec) (active runs : List String) : Bool :=
  !exec.goesOn && exec.world.log.all (fun e => !activityFailed e) &&
    exec.world.st.state.status.activeRunIDs = active && openRuns exec.world.log = runs

/-- A plan that reaches its iteration limit returns while its node runs.  A node whose status
can not be read fails, and its run is left behind. -/
theorem runs_orphaned :
    leavesBehind (planRun endlessHost (planOf [nativeNode "a" "ra"] [] { maxIterations := 1 }) 4)
        ["ra"] ["ra"] = true ∧
      leavesBehind (planRun blindHost singlePlan 3) [] ["r"] = true := by
  decide +kernel

end AgentOS.Plan
