import AgentOS.Kit.Logged
import AgentOS.Plan.Policy

/-!
# The Nexus run operation

`NexusRunOperationWorkflow` is behind the operation `run` of the Nexus service.  It starts a
run by an activity, reads its status every few seconds until the run is over, and returns the
last status.  A caller can cancel the operation; the workflow's context is then canceled, and
the workflow is to cancel the run.
-/

namespace AgentOS.NexusRun

open Kit Plan Prog

/-! ## The activities

The activities call the runtime, which is the router.  What the router does with a request
before and after it asks a backend is here; the answer of the backend, of the registry and of
the index of the runs is the world's. -/

structure RunPlanScope where
  (planID nodeID : String := "")

structure RunRequest where
  requestID : String := ""
  spec : Option RunSpec := none
  planScope : Option RunPlanScope := none

structure RunTenant where
  (accountID projectID : String := "")

structure NexusRunStatusInput where
  runID : String := ""
  tenant : RunTenant := {}

structure NexusRunControlInput where
  runID : String := ""
  tenant : RunTenant := {}
  idempotencyKey : String := ""

def normalizeOwnedRunStatus (runID : String) (status : RunStatus) : Except Err RunStatus :=
  let status := if status.runID = "" then { status with runID := runID } else status
  if status.runID ≠ runID then
    errorf .invalidRunSpec
      ("backend returned run id " ++ quoted status.runID ++ " for requested run " ++ quoted runID)
  else .ok status

def prepareRunStart : Option RunSpec → Except Err RunSpec
  | none => errorf .invalidRunSpec "run spec is required"
  | some spec =>
      if spec.runID = "" then errorf .invalidRunSpec "run id is required"
      else if spec.idempotencyKey = "" then errorf .invalidRunSpec "run idempotency key is required"
      else if spec.accountID = "" then errorf .invalidRunSpec "account id is required"
      else if spec.projectID = "" then errorf .invalidRunSpec "project id is required"
      else .ok spec

def validatePlanNodeRoute (scope : RunPlanScope) : Except Err Unit :=
  if scope.planID = "" then errorf .invalidRunPlan "plan id is required"
  else if scope.nodeID = "" then errorf .invalidRunPlan "node id is required"
  else .ok ()

def routerStart (spec : Option RunSpec) (answer : Except Err RunStatus) : Except Err RunStatus := do
  let prepared ← prepareRunStart spec
  let status ← answer
  normalizeOwnedRunStatus prepared.runID status

def routerStartPlanNode (scope : RunPlanScope) (spec : Option RunSpec)
    (answer : Except Err RunStatus) : Except Err RunStatus := do
  validatePlanNodeRoute scope
  routerStart spec answer

def startPlanScopedRun (scope : RunPlanScope) (spec : Option RunSpec)
    (answer : Except Err RunStatus) : Except Err RunStatus :=
  match routerStartPlanNode scope spec answer with
  | .error err =>
      .error (.within ("NexusRunActivities - StartRunActivity - plan node " ++ scope.nodeID) err)
  | .ok status =>
      normalizeOwnedRunStatus ((spec.map RunSpec.runID).getD "") status

def startRunActivity (planNodeStarter : Bool) (spec : Option RunSpec)
    (planScope : Option RunPlanScope) (answer : Except Err RunStatus) : Except Err RunStatus :=
  match planScope, planNodeStarter with
  | some scope, true => startPlanScopedRun scope spec answer
  | _, _ =>
      match routerStart spec answer with
      | .error err => .error (.within "NexusRunActivities - StartRunActivity" err)
      | .ok status => .ok status

def statusRunActivity (runID : String) (answer : Except Err RunStatus) : Except Err RunStatus :=
  match answer >>= normalizeOwnedRunStatus runID with
  | .error err => .error (.within "NexusRunActivities - StatusRunActivity" err)
  | .ok status => .ok status

variable {runID : String}

theorem normalizeOwnedRunStatus_runID {status owned : RunStatus}
    (h : normalizeOwnedRunStatus runID status = .ok owned) : owned.runID = runID := by
  unfold normalizeOwnedRunStatus at h
  generalize (if status.runID = "" then { status with runID := runID } else status) = named at h
  by_cases hsame : named.runID = runID
  · rw [if_neg (not_not.mpr hsame)] at h
    cases h
    exact hsame
  · rw [if_pos hsame] at h
    cases h

variable {spec : Option RunSpec}

theorem prepareRunStart_ok {prepared : RunSpec}
    (h : prepareRunStart spec = .ok prepared) : spec = some prepared ∧ prepared.runID ≠ "" := by
  cases spec with
  | none => cases h
  | some spec =>
    simp only [prepareRunStart] at h
    split_ifs at h with hid
    cases h
    exact ⟨rfl, hid⟩

variable {status : RunStatus}

variable {answer : Except Err RunStatus}

theorem routerStart_ok (h : routerStart spec answer = .ok status) :
    ∃ prepared, spec = some prepared ∧ status.runID = prepared.runID ∧ prepared.runID ≠ "" := by
  obtain ⟨prepared, hprepared, h⟩ := bind_ok h
  obtain ⟨reported, -, h⟩ := bind_ok h
  obtain ⟨hspec, hid⟩ := prepareRunStart_ok hprepared
  exact ⟨prepared, hspec, normalizeOwnedRunStatus_runID h, hid⟩

theorem startRunActivity_ok {planNodeStarter : Bool} {planScope : Option RunPlanScope}
    (h : startRunActivity planNodeStarter spec planScope answer = .ok status) :
    ∃ prepared, spec = some prepared ∧ status.runID = prepared.runID ∧ prepared.runID ≠ "" := by
  unfold startRunActivity at h
  split at h
  · next scope =>
    unfold startPlanScopedRun at h
    split at h
    · cases h
    next reported hrouter =>
    obtain ⟨⟨⟩, -, hstart⟩ := bind_ok hrouter
    obtain ⟨prepared, hspec, -, hid⟩ := routerStart_ok hstart
    refine ⟨prepared, hspec, ?_, hid⟩
    have howned := normalizeOwnedRunStatus_runID h
    rwa [hspec] at howned
  · split at h
    · cases h
    · next started hrouter =>
      cases h
      exact routerStart_ok hrouter

theorem statusRunActivity_runID (h : statusRunActivity runID answer = .ok status) :
    status.runID = runID := by
  unfold statusRunActivity at h
  split at h
  · cases h
  next reported hread =>
  cases h
  obtain ⟨answered, -, hread⟩ := bind_ok hread
  exact normalizeOwnedRunStatus_runID hread

/-! ## The workflow -/

/-- The waits of the workflow. -/
inductive Wait where
  | start
  | sleep
  | status
  | cancel

/-- What the workflow does.  An activity is kept with its answer. -/
inductive Act where
  /-- The operation is canceled while the workflow waits. -/
  | canceled (during : Wait)
  | startRun (spec : Option RunSpec) (planScope : Option RunPlanScope)
      (answer : Except Err RunStatus)
  | sleep (answer : Except Err Unit)
  | statusRun (input : NexusRunStatusInput) (answer : Except Err RunStatus)
  | cancelRun (input : NexusRunControlInput) (answer : Except Err Unit)

/-- Whether the context of the workflow is canceled. -/
structure Locals where
  canceled : Bool := false

/-- What an action does to the context. -/
def Locals.step (l : Locals) : Act → Locals
  | .canceled _ => { l with canceled := true }
  | .startRun .. | .sleep _ | .statusRun .. | .cancelRun .. => l

abbrev World := Logged Locals Act

abbrev Workflow (α : Type) := Prog Locals.step Err α

/-- The world of the workflow.  Every answer may depend on all that happened. -/
structure Host where
  planNodeStarter : Bool := false
  digest : Digest
  start : World → Except Err RunStatus
  status : World → Except Err RunStatus
  control : World → Except Err Unit
  sleep : World → Except Err Unit
  /-- Whether the operation is canceled while the workflow waits. -/
  cancel : World → Bool

section Workflow

variable (E : Host)

def arrive (during : Wait) : Workflow Unit := do
  let l ← state
  let cancel ← query E.cancel
  if l.canceled = false ∧ cancel = true then emit (.canceled during) else pure ()

def waitFor {α : Type} (during : Wait) (answer : World → Except Err α)
    (act : Except Err α → Act) : Workflow (Except Err α) := do
  arrive E during
  let l ← state
  let reply ← query fun w => if l.canceled then .error .canceled else answer w
  emit (act reply)
  pure reply

def withDeterministicRunID (request : RunRequest) : Option RunSpec :=
  match request.spec with
  | none => none
  | some spec =>
      if spec.runID ≠ "" then some spec
      else some { spec with runID := "nexus-run-" ++ request.requestID }

def runTenantRef : Option RunSpec → RunTenant
  | none => {}
  | some spec => { accountID := spec.accountID, projectID := spec.projectID }

def nexusOperationCancelKey (requestID : String) : String :=
  if requestID = "" then "" else "nexus-cancel:" ++ requestID

def nexusCancelIdempotencyKey (planScope : Option RunPlanScope) (runID : String) : String :=
  match planScope with
  | none => ""
  | some scope =>
      if runID = "" then ""
      else
        match nodeTimeoutControlIdempotencyKey E.digest scope.planID scope.nodeID runID with
        | .error _ => ""
        | .ok key => key

def startRunViaActivity (spec : Option RunSpec) (planScope : Option RunPlanScope) :
    Workflow RunStatus := do
  let answer w := startRunActivity E.planNodeStarter spec planScope (E.start w)
  match ← waitFor E .start answer (.startRun spec planScope) with
  | .error err => fail (.within "nexus run operation - start run" err)
  | .ok started => pure started

/-- `cancelRunBestEffort`.  The control waits on a context of its own, so a cancellation does
not end the wait, and an error of the control is only logged by the source. -/
def cancelRunBestEffort {α : Type} (runID idempotencyKey : String) (tenant : RunTenant)
    (cause : Err) : Workflow α :=
  if runID = "" then fail cause
  else do
    arrive E .cancel
    let answer ← query E.control
    emit (.cancelRun { runID, tenant, idempotencyKey } answer)
    fail cause

/-- How a round of the loop ends: with the status for the next round, or the run is over. -/
inductive Verdict where
  | go (status : RunStatus)
  | done (status : RunStatus)

def isCanceledError : Err → Bool
  | .canceled => true
  | .within _ err => isCanceledError err
  | .join first second => isCanceledError first || isCanceledError second
  | .wrap .. | .external _ => false

def awaitRunTerminalRound (planScope : Option RunPlanScope) (tenant : RunTenant)
    (operationCancelKey : String) (status : RunStatus) : Workflow Verdict := do
  if status.lifecycleState.terminal then pure (.done status)
  else
    match ← waitFor E .sleep E.sleep .sleep with
    | .error err =>
        if isCanceledError err then
          match planScope with
          | none => cancelRunBestEffort E status.runID operationCancelKey tenant err
          | some _ => fail err
        else
          cancelRunBestEffort E status.runID
            (nexusCancelIdempotencyKey E planScope status.runID) tenant err
    | .ok () =>
        let answer w := statusRunActivity status.runID (E.status w)
        match ← waitFor E .status answer (.statusRun { runID := status.runID, tenant }) with
        | .error err => fail (.within "nexus run operation - status run" err)
        | .ok current => pure (.go current)

/-- The workflow. -/
inductive Exec where
  | starting (w : World)
  | awaiting (status : RunStatus) (w : World)
  | returned (w : World) (outcome : Except Err RunStatus)

def Exec.world : Exec → World
  | .starting w => w
  | .awaiting _ w => w
  | .returned w _ => w

def Exec.afterStart : Except Err RunStatus × World → Exec
  | (.ok started, w) => .awaiting started w
  | (.error err, w) => .returned w (.error err)

def Exec.afterRound : Except Err Verdict × World → Exec
  | (.ok (.go current), w) => .awaiting current w
  | (.ok (.done final), w) => .returned w (.ok final)
  | (.error err, w) => .returned w (.error err)

/-- One step of `NexusRunOperationWorkflow`: the start, or a round of the loop. -/
def Exec.step (request : RunRequest) : Exec → Exec
  | .starting w =>
      .afterStart ((startRunViaActivity E (withDeterministicRunID request) request.planScope).run w)
  | .awaiting status w =>
      .afterRound ((awaitRunTerminalRound E request.planScope (runTenantRef request.spec)
          (nexusOperationCancelKey request.requestID) status).run w)
  | .returned w outcome => .returned w outcome

/-- The workflow after `n` steps. -/
def nexusRun (request : RunRequest) : Nat → Exec
  | 0 => .starting ⟨{}, []⟩
  | n + 1 => (nexusRun request n).step E request

end Workflow

/-! ## The run of a canceled operation -/

/-- The actions of the workflow, newest first. -/
def acts (w : World) : List Act := w.log.map Prod.snd

@[simp] theorem acts_act (w : World) (act : Act) :
    acts (w.act Locals.step act) = act :: acts w := rfl

/-- The run that an action started. -/
def Act.started : Act → Option RunStatus
  | .startRun _ _ (.ok status) => some status
  | _ => none

/-- The runs that the workflow started. -/
def started (w : World) : List RunStatus := (acts w).filterMap Act.started

structure Uncanceled (w : World) : Prop where
  context : w.st.canceled = false
  acts : ∀ during, Act.canceled during ∉ acts w

/-- The run `runID` of the tenant was sent a cancel control. -/
def Canceled (runID : String) (tenant : RunTenant) (w : World) : Prop :=
  ∃ idempotencyKey answer, Act.cancelRun { runID, tenant, idempotencyKey } answer ∈ acts w

section Waits

variable {E : Host} {w : World}

theorem run_arrive (during : Wait) (hcontext : w.st.canceled = false) :
    (arrive E during).run w =
      (.ok (), if E.cancel w then w.act Locals.step (.canceled during) else w) := by
  rw [arrive, run_state_bind, run_bind_of_ok (a := E.cancel w) rfl]
  cases hcancel : E.cancel w with
  | true =>
    rw [if_pos ⟨hcontext, rfl⟩]
    rfl
  | false =>
    rw [if_neg (by simp)]
    rfl

variable {α : Type} {during : Wait} {answer : World → Except Err α} {act : Except Err α → Act}

theorem run_waitFor_canceled (hcontext : w.st.canceled = false) (hcancel : E.cancel w = true) :
    (waitFor E during answer act).run w =
      (.ok (.error .canceled), (w.act Locals.step (.canceled during)).act Locals.step
        (act (.error .canceled))) := by
  have harrive := run_arrive (E := E) during hcontext
  rw [hcancel] at harrive
  rw [waitFor, run_bind_of_ok harrive]
  rfl

theorem run_waitFor_answered (hcontext : w.st.canceled = false) (hcancel : E.cancel w = false) :
    (waitFor E during answer act).run w = (.ok (answer w), w.act Locals.step (act (answer w))) := by
  have harrive := run_arrive (E := E) during hcontext
  rw [hcancel, if_neg Bool.false_ne_true] at harrive
  rw [waitFor, run_bind_of_ok harrive, run_state_bind, hcontext]
  rfl

theorem run_cancelRunBestEffort (key : String) (tenant : RunTenant)
    (cause : Err) (hid : runID ≠ "") :
    ∃ v, (cancelRunBestEffort E runID key tenant cause : Workflow α).run w = (.error cause, v) ∧
      Canceled runID tenant v ∧ started v = started w := by
  rw [cancelRunBestEffort, if_neg hid]
  have harrive : ∃ u, (arrive E .cancel).run w = (.ok (), u) ∧ started u = started w := by
    rw [arrive, run_state_bind, run_bind_of_ok (a := E.cancel w) rfl]
    split <;> exact ⟨_, rfl, rfl⟩
  obtain ⟨u, hrun, hstarted⟩ := harrive
  rw [run_bind_of_ok hrun]
  exact ⟨_, rfl, ⟨key, E.control u, .head _⟩, hstarted⟩

end Waits

/-- What a round of the loop leads to when the operation has no plan scope: the loop goes on
with the same run, or it is over, or the operation was canceled in a read, or the run was sent
a cancel. -/
inductive Round (status : RunStatus) (tenant : RunTenant) (w : World) :
    Except Err Verdict × World → Prop
  | done : Round status tenant w (.ok (.done status), w)
  | go {current v} (hid : current.runID = status.runID)
      (hcalm : Uncanceled v) (hstarted : started v = started w) :
      Round status tenant w (.ok (.go current), v)
  | failed {err v} (hcalm : Uncanceled v) (hstarted : started v = started w) :
      Round status tenant w (.error err, v)
  | interrupted {err v} (hread : Act.canceled .status ∈ acts v)
      (hstarted : started v = started w) : Round status tenant w (.error err, v)
  | canceled {err v} (hcanceled : Canceled status.runID tenant v)
      (hstarted : started v = started w) : Round status tenant w (.error err, v)

section Rounds

variable {E : Host} {request : RunRequest} {w : World}

theorem Uncanceled.act {act : Act} (h : Uncanceled w)
    (hcontext : Locals.step w.st act = w.st) (hact : ∀ during, act ≠ .canceled during) :
    Uncanceled (w.act Locals.step act) where
  context := by
    rw [Logged.act_st, hcontext]
    exact h.context
  acts during := by
    rw [acts_act, List.mem_cons, not_or]
    exact ⟨(hact during).symm, h.acts during⟩

theorem awaitRunTerminalRound_round (tenant : RunTenant) (key : String)
    (h : Uncanceled w) (hid : status.runID ≠ "") :
    Round status tenant w ((awaitRunTerminalRound E none tenant key status).run w) := by
  unfold awaitRunTerminalRound
  by_cases hterminal : status.lifecycleState.terminal = true
  · rw [if_pos hterminal]
    exact .done
  rw [if_neg hterminal]
  have hsent : ∀ key err u, started u = started w →
      Round status tenant w ((cancelRunBestEffort E status.runID key tenant err).run u) := by
    intro key err u hsame
    obtain ⟨v, hrun, hcanceled, hstarted⟩ := run_cancelRunBestEffort key tenant err hid
    exact hrun ▸ .canceled hcanceled (hstarted.trans hsame)
  -- The sleep.  Whatever ends it early, the run is sent a cancel.
  cases hsleep : E.cancel w with
  | true =>
    rw [run_bind_of_ok (run_waitFor_canceled h.context hsleep)]
    exact hsent key .canceled _ rfl
  | false =>
    rw [run_bind_of_ok (run_waitFor_answered h.context hsleep)]
    cases E.sleep w with
    | error err =>
      dsimp only
      split <;> exact hsent _ err _ rfl
    | ok slept =>
      -- The read.  Its answer is about the run that it asked for.
      have hslept : Uncanceled (w.act Locals.step (.sleep (.ok ()))) := h.act rfl nofun
      cases hread : E.cancel (w.act Locals.step (.sleep (.ok ()))) with
      | true =>
        rw [run_bind_of_ok (run_waitFor_canceled hslept.context hread)]
        exact .interrupted (.tail _ (.head _)) rfl
      | false =>
        rw [run_bind_of_ok (run_waitFor_answered hslept.context hread)]
        cases hanswer : statusRunActivity status.runID
            (E.status (w.act Locals.step (.sleep (.ok ())))) with
        | error err => exact .failed (hslept.act rfl nofun) rfl
        | ok current => exact .go (statusRunActivity_runID hanswer) (hslept.act rfl nofun) rfl

def Exec.Sound (request : RunRequest) : Exec → Prop
  | .starting w => w = ⟨{}, []⟩
  | .awaiting status w =>
      Uncanceled w ∧ status.runID ≠ "" ∧ ∀ run ∈ started w, run.runID = status.runID
  | .returned w outcome =>
      Uncanceled w ∨ Act.canceled .status ∈ acts w ∨ (∃ err, outcome = .error err) ∧
          ∀ run ∈ started w, Canceled run.runID (runTenantRef request.spec) w

theorem step_starting_sound : ((Exec.starting ⟨{}, []⟩).step E request).Sound request := by
  have hcalm : Uncanceled ⟨{}, []⟩ := ⟨rfl, fun _ => List.not_mem_nil⟩
  rw [Exec.step, startRunViaActivity]
  cases hcancel : E.cancel ⟨{}, []⟩ with
  | true =>
    -- The start was not waited for, so no run is known.
    rw [run_bind_of_ok (run_waitFor_canceled hcalm.context hcancel)]
    exact .inr (.inr ⟨⟨_, rfl⟩, fun run hrun => nomatch hrun⟩)
  | false =>
    rw [run_bind_of_ok (run_waitFor_answered hcalm.context hcancel)]
    cases hanswer : startRunActivity E.planNodeStarter (withDeterministicRunID request)
        request.planScope (E.start ⟨{}, []⟩) with
    | error err => exact .inl (hcalm.act rfl nofun)
    | ok status =>
      obtain ⟨prepared, -, hsame, hid⟩ := startRunActivity_ok hanswer
      refine ⟨hcalm.act rfl nofun, hsame ▸ hid, fun run hrun => ?_⟩
      rw [List.mem_singleton.mp hrun]

theorem step_awaiting_sound (hscope : request.planScope = none)
    (h : (Exec.awaiting status w).Sound request) :
    ((Exec.awaiting status w).step E request).Sound request := by
  obtain ⟨hcalm, hid, hruns⟩ := h
  have hround := awaitRunTerminalRound_round (E := E) (runTenantRef request.spec)
    (nexusOperationCancelKey request.requestID) hcalm hid
  rw [Exec.step, hscope]
  generalize (awaitRunTerminalRound E none _ _ status).run w = result at hround ⊢
  cases hround with
  | done | failed hcalm => exact .inl hcalm
  | go hsame hcalm hstarted =>
    exact ⟨hcalm, hsame ▸ hid, fun run hrun => hsame ▸ hruns run (hstarted ▸ hrun)⟩
  | interrupted hread => exact .inr (.inl hread)
  | canceled hcanceled hstarted =>
    exact .inr (.inr ⟨⟨_, rfl⟩, fun run hrun => hruns run (hstarted ▸ hrun) ▸ hcanceled⟩)

theorem nexusRun_sound (hscope : request.planScope = none) (n : Nat) :
    (nexusRun E request n).Sound request := by
  induction n with
  | zero => exact rfl
  | succ n ih =>
    rw [nexusRun]
    cases hexec : nexusRun E request n with
    | starting w =>
      rw [hexec] at ih
      obtain rfl : w = ⟨{}, []⟩ := ih
      exact step_starting_sound
    | awaiting status w => exact step_awaiting_sound hscope (hexec ▸ ih)
    | returned w outcome =>
      rw [hexec] at ih
      exact ih

/-- When the cancellation of an operation without plan scope does not arrive in a read of the
status, the workflow returns, and before it returns it sends the run that it started a cancel
control. -/
theorem canceled_operation_cancels (E : Host) (request : RunRequest) (n : Nat)
    (hscope : request.planScope = none) (run : RunStatus)
    (hstarted : run ∈ started (nexusRun E request n).world) (during : Wait)
    (hcanceled : Act.canceled during ∈ acts (nexusRun E request n).world)
    (hreads : Act.canceled .status ∉ acts (nexusRun E request n).world) :
    ∃ w err, nexusRun E request n = .returned w (.error err) ∧
      Canceled run.runID (runTenantRef request.spec) w := by
  have hsound := nexusRun_sound (E := E) hscope n
  cases hexec : nexusRun E request n with
  | starting w =>
    rw [hexec] at hsound hstarted
    obtain rfl : w = ⟨{}, []⟩ := hsound
    cases hstarted
  | awaiting status w =>
    rw [hexec] at hsound hcanceled
    exact absurd hcanceled (hsound.1.acts during)
  | returned w outcome =>
    rw [hexec] at hsound hstarted hcanceled hreads
    obtain hcalm | hread | ⟨⟨err, rfl⟩, hruns⟩ := hsound
    · exact absurd hcanceled (hcalm.acts during)
    · exact absurd hread hreads
    · exact ⟨w, err, rfl, hruns run hstarted⟩

end Rounds

/-- A request of a client that is not a plan. -/
def clientRequest : RunRequest where
  requestID := "op"
  spec := some { accountID := "account", projectID := "project", idempotencyKey := "key" }

/-- A run that goes on, and an operation that is canceled after `waits` actions. -/
def cancelingHost (waits : Nat) : Host where
  digest _ := ""
  start _ := .ok { lifecycleState := .other "running" }
  status _ := .ok { lifecycleState := .other "running" }
  control _ := .ok ()
  sleep _ := .ok ()
  cancel w := decide (waits ≤ w.log.length)

/-- The operation is canceled in the sleep after the first read. -/
theorem canceled_operation_cancels_sleeping :
    ∃ w err, nexusRun (cancelingHost 3) clientRequest 3 = .returned w (.error err) ∧
      Canceled "nexus-run-op" ⟨"account", "project"⟩ w :=
  canceled_operation_cancels (cancelingHost 3) clientRequest 3 rfl
    { runID := "nexus-run-op", lifecycleState := .other "running" } (.head _)
    .sleep (.tail _ (.tail _ (.head _))) (by
      intro hread
      change _ ∈ [Act.cancelRun _ _, .sleep _, .canceled .sleep, .statusRun _ _, .sleep _,
        .startRun _ _ _] at hread
      simp at hread)

/-- The operation is canceled in the first read.  The workflow returns the error of the read,
and the run that it started goes on. -/
theorem canceled_read_leaves_run :
    ∃ w, nexusRun (cancelingHost 2) clientRequest 2 =
        .returned w (.error (.within "nexus run operation - status run" .canceled)) ∧
      started w = [{ runID := "nexus-run-op", lifecycleState := .other "running" }] ∧
      Act.canceled .status ∈ acts w ∧
      ∀ input answer, Act.cancelRun input answer ∉ acts w :=
  ⟨_, rfl, rfl, .tail _ (.head _), by
    intro input answer hcancel
    change _ ∈ [Act.statusRun _ _, .canceled .status, .sleep _, .startRun _ _ _] at hcancel
    simp at hcancel⟩

end AgentOS.NexusRun
