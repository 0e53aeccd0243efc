import AgentOS.Kit.Calls
import AgentOS.Platform.Projections

/-!
# Governed actions

The runtime of `internal/usecase/agentosaction`: an action waits for a dry run and for an
approval, is executed, and can be canceled.  Each of the four calls reads the action, checks
it, computes the whole next status from what it has read, and writes it with
`UpdateActionStatus`.
-/

namespace AgentOS.Platform

open Kit List Function Bool Handler

/-! ## Specs and statuses -/

/-- `ActionRiskLevel`.  `other ""` is the unset level. -/
inductive ActionRiskLevel where
  | low
  | medium
  | high
  | critical
  | other (name : String)
  deriving DecidableEq

structure ActionRiskAssessment where
  level : ActionRiskLevel := .other ""
  reason : String := ""
  evidenceRefs : List LedgerDataRef := []
  assessedAt : Time := 0
  deriving DecidableEq

structure GovernedActionSpec where
  (actionID idempotencyKey accountID projectID processID : String := "")
  resource : ResourceRef := {}
  (kind intent : String := "")
  requestedBy : ActorRef := {}
  requestedAt : Time := 0
  (dryRunRequired approvalRequired : Bool := false)
  risk : ActionRiskAssessment := {}
  inputRefs : List LedgerDataRef := []
  compensationRef : Option LedgerDataRef := none
  metadata : List (String × String) := []
  deriving DecidableEq

instance : Inhabited GovernedActionSpec := ⟨{}⟩

/-- The lifecycle states of an action.  `unset` is the empty string. -/
inductive ActionLifecycle where
  | unset
  | requested
  | waitingDryRun
  | waitingApproval
  | ready
  | executing
  | executed
  | failed
  | canceled
  deriving DecidableEq

/-- An action ends executed, failed or canceled. -/
def ActionLifecycle.terminal : ActionLifecycle → Bool
  | .executed | .failed | .canceled => true
  | _ => false

/-- The states of a dry run.  An action that needs none has `unset`. -/
inductive DryRunState where
  | unset
  | pending
  | succeeded
  | failed
  deriving DecidableEq

/-- The states of an approval.  An action that needs none has `unset`. -/
inductive ApprovalState where
  | unset
  | pending
  | approved
  | rejected
  deriving DecidableEq

/-- The states of an execution. -/
inductive ExecutionState where
  | unset
  | pending
  | succeeded
  | failed
  deriving DecidableEq

structure GovernedActionStatus where
  (actionID accountID projectID processID : String := "")
  resource : ResourceRef := {}
  kind : String := ""
  lifecycleState : ActionLifecycle := .unset
  dryRunState : DryRunState := .unset
  approvalState : ApprovalState := .unset
  executionState : ExecutionState := .unset
  risk : ActionRiskAssessment := {}
  reason : String := ""
  updatedAt : Time := 0

instance : Inhabited GovernedActionStatus := ⟨{}⟩

def validateGovernedActionIdentity (spec : GovernedActionSpec) : Except Err Unit :=
  if spec.actionID = "" then errorf .invalidGovernedAction "action id is required"
  else if spec.idempotencyKey = "" then errorf .invalidGovernedAction "idempotency key is required"
  else if spec.accountID = "" then errorf .invalidGovernedAction "account id is required"
  else if spec.projectID = "" then errorf .invalidGovernedAction "project id is required"
  else if spec.kind = "" then errorf .invalidGovernedAction "kind is required"
  else .ok ()

def validateActionDataRef (ref : LedgerDataRef) : Except Err Unit :=
  if ref.kind = "" then errorf .invalidGovernedAction "data ref kind is required"
  else if ref.uri = "" ∧ ref.artifactID = "" then
    errorf .invalidGovernedAction "data ref uri or artifact id is required"
  else .ok ()

def validateActionRefs (refs : List LedgerDataRef) (optionalRef : Option LedgerDataRef)
    (moreRefs : List LedgerDataRef) : Except Err Unit := do
  refs.forM validateActionDataRef
  optionalRef.toList.forM validateActionDataRef
  moreRefs.forM validateActionDataRef

def validateGovernedActionSpec (spec : GovernedActionSpec) : Except Err Unit := do
  validateGovernedActionIdentity spec
  validateTenantScope .invalidGovernedAction "action" spec.accountID spec.projectID
    spec.processID spec.resource
  validateActionRefs spec.inputRefs spec.compensationRef spec.risk.evidenceRefs

/-! ## The store -/

def normalizeActionStatus (spec : GovernedActionSpec) (status : GovernedActionStatus) :
    GovernedActionStatus :=
  { status with
    actionID := spec.actionID
    accountID := spec.accountID
    projectID := spec.projectID
    processID := spec.processID
    resource := spec.resource
    kind := spec.kind }

def validateActionTenantAccess (ref : RecordRef) (spec : GovernedActionSpec) : Except Err Unit :=
  if ref.accountID ≠ spec.accountID ∨ ref.projectID ≠ spec.projectID then
    errorf .invalidGovernedActionScope
      ("action " ++ quoted ref.recordID ++ " is outside tenant scope")
  else .ok ()

def validateActionStatusScope (status : GovernedActionStatus) (spec : GovernedActionSpec) :
    Except Err Unit :=
  if status.accountID ≠ spec.accountID ∨ status.projectID ≠ spec.projectID then
    errorf .invalidGovernedActionScope
      ("action " ++ quoted status.actionID ++ " status is outside tenant scope")
  else .ok ()

def validateUpdateActionStatusInput (status : GovernedActionStatus) (idempotencyKey : String) :
    Except Err Unit :=
  if idempotencyKey = "" then errorf .invalidGovernedAction "status idempotency key is required"
  else if status.actionID = "" ∨ status.accountID = "" ∨ status.projectID = "" then
    errorf .invalidGovernedAction "action status scope is required"
  else .ok ()

/-- The maps of `MemoryStore`. -/
abbrev ActionStore := Projections GovernedActionSpec GovernedActionStatus

def actionFamily : Family GovernedActionSpec GovernedActionStatus where
  recordID := GovernedActionSpec.actionID
  startKey spec := ⟨spec.accountID, spec.projectID, spec.idempotencyKey⟩
  statusID := GovernedActionStatus.actionID
  checkRef := RecordRef.validate .invalidGovernedActionScope "action"
  checkTenant := validateActionTenantAccess
  checkInput := validateUpdateActionStatusInput
  checkStatus := validateActionStatusScope
  normalize := normalizeActionStatus
  notFound id := .wrap .invalidGovernedActionScope ("action " ++ quoted id ++ " not found")

section Create

variable {Text : Type} [DecidableEq Text] (marshal : GovernedActionSpec → Text)

def validateActionStartIdempotency (existing requested : GovernedActionSpec) : Except Err Unit :=
  if existing.actionID ≠ requested.actionID then
    errorf .invalidGovernedAction
      ("action idempotency key belongs to action " ++ quoted existing.actionID)
  else if marshal existing ≠ marshal requested then
    errorf .invalidGovernedAction ("action " ++ quoted existing.actionID ++
      " idempotency key was reused with a different request")
  else .ok ()

def createAction (s : ActionStore) (spec : GovernedActionSpec) (status : GovernedActionStatus) :
    ActionStore × Except Err (GovernedActionStatus × Bool) :=
  match validateGovernedActionSpec spec with
  | .error err => (s, .error err)
  | .ok () => actionFamily.create (validateActionStartIdempotency marshal) s spec status

end Create

def initialActionStatus (now : Time) (spec : GovernedActionSpec) : GovernedActionStatus where
  actionID := spec.actionID
  accountID := spec.accountID
  projectID := spec.projectID
  processID := spec.processID
  resource := spec.resource
  kind := spec.kind
  lifecycleState := if spec.dryRunRequired then .waitingDryRun
    else if spec.approvalRequired then .waitingApproval
    else .ready
  dryRunState := if spec.dryRunRequired then .pending else .unset
  approvalState := if spec.approvalRequired then .pending else .unset
  executionState := .pending
  risk := spec.risk
  updatedAt := orNow now spec.requestedAt

/-! ## The calls -/

structure ActionDryRunResult where
  idempotencyKey : String := ""
  succeeded : Bool := false
  summary : String := ""
  risk : ActionRiskAssessment := {}
  recordedAt : Time := 0

structure ActionApprovalDecision where
  idempotencyKey : String := ""
  approved : Bool := false
  reason : String := ""
  decidedAt : Time := 0

structure ActionExecutionResult where
  idempotencyKey : String := ""
  succeeded : Bool := false
  summary : String := ""
  recordedAt : Time := 0

structure ActionCancelRequest where
  (idempotencyKey reason : String := "")
  requestedAt : Time := 0

/-- `RecordActionDryRun`, `ResolveActionApproval`, `CompleteAction` and `CancelAction`. -/
inductive ActionCall where
  | dryRun (ref : RecordRef) (result : ActionDryRunResult)
  | approval (ref : RecordRef) (decision : ActionApprovalDecision)
  | complete (ref : RecordRef) (result : ActionExecutionResult)
  | cancel (ref : RecordRef) (req : ActionCancelRequest)

namespace ActionCall

/-- The action of a call. -/
def ref : ActionCall → RecordRef
  | .dryRun ref _ | .approval ref _ | .complete ref _ | .cancel ref _ => ref

/-- The idempotency key of a call. -/
def key : ActionCall → String
  | .dryRun _ result => result.idempotencyKey
  | .approval _ decision => decision.idempotencyKey
  | .complete _ result => result.idempotencyKey
  | .cancel _ req => req.idempotencyKey

def noun : ActionCall → String
  | .dryRun _ _ => "dry-run"
  | .approval _ _ => "approval"
  | .complete _ _ => "execution"
  | .cancel _ _ => "cancel"

/-- `validateDryRunResult`, `validateApprovalDecision`, `validateExecutionResult` and
`validateCancelRequest`. -/
def validate (c : ActionCall) : Except Err Unit :=
  if c.key = "" then errorf .invalidGovernedAction (c.noun ++ " idempotency key is required")
  else .ok ()

end ActionCall

def lifecycleAfterDryRun (spec : GovernedActionSpec) : ActionLifecycle :=
  if spec.approvalRequired then .waitingApproval else .ready

def lifecycleAfterApproval (spec : GovernedActionSpec) (dryRunState : DryRunState) :
    ActionLifecycle :=
  if spec.dryRunRequired ∧ dryRunState ≠ .succeeded then .waitingDryRun else .ready

def actionReadyForExecution (status : GovernedActionStatus) : Bool :=
  if status.lifecycleState ≠ .ready ∧ status.lifecycleState ≠ .executing then false
  else if status.dryRunState ≠ .unset ∧ status.dryRunState ≠ .succeeded then false
  else if status.approvalState ≠ .unset ∧ status.approvalState ≠ .approved then false
  else true

def ActionCall.guard (status : GovernedActionStatus) : ActionCall → Except Err Unit
  | .dryRun ref _ =>
      if status.dryRunState = .unset then
        errorf .invalidGovernedAction
          ("action " ++ quoted ref.recordID ++ " does not require dry-run")
      else .ok ()
  | .approval ref _ =>
      if status.approvalState = .unset then
        errorf .invalidGovernedAction
          ("action " ++ quoted ref.recordID ++ " does not require approval")
      else .ok ()
  | .complete ref _ =>
      if actionReadyForExecution status = false then
        errorf .invalidGovernedAction
          ("action " ++ quoted ref.recordID ++ " is not ready for execution")
      else .ok ()
  | .cancel ref _ =>
      if status.lifecycleState = .executed then
        errorf .invalidGovernedAction ("action " ++ quoted ref.recordID ++ " is already executed")
      else .ok ()

def ActionCall.next (now : Time) (spec : GovernedActionSpec) (status : GovernedActionStatus) :
    ActionCall → GovernedActionStatus
  | .dryRun _ result =>
      let next := { status with
        risk := if result.risk.level = ActionRiskLevel.other "" then status.risk else result.risk
        updatedAt := orNow now result.recordedAt }
      if result.succeeded then
        { next with dryRunState := .succeeded, lifecycleState := lifecycleAfterDryRun spec }
      else
        { next with
          dryRunState := .failed
          lifecycleState := .failed
          executionState := .failed
          reason := result.summary }
  | .approval _ decision =>
      let next := { status with updatedAt := orNow now decision.decidedAt }
      if decision.approved then
        { next with
          approvalState := .approved
          lifecycleState := lifecycleAfterApproval spec status.dryRunState }
      else
        { next with
          approvalState := .rejected
          lifecycleState := .canceled
          reason := decision.reason }
  | .complete _ result =>
      let next := { status with updatedAt := orNow now result.recordedAt }
      if result.succeeded then
        { next with lifecycleState := .executed, executionState := .succeeded }
      else
        { next with
          lifecycleState := .failed
          executionState := .failed
          reason := result.summary }
  | .cancel _ req =>
      { status with
        lifecycleState := .canceled
        reason := req.reason
        updatedAt := orNow now req.requestedAt }

def requireAction (s : ActionStore) (ref : RecordRef) :
    Except Err (GovernedActionSpec × GovernedActionStatus) := do
  actionFamily.checkRef ref
  actionFamily.require s ref

def ActionCall.read (c : ActionCall) (s : ActionStore) :
    Except Err (GovernedActionSpec × GovernedActionStatus) := do
  let found ← requireAction s c.ref
  c.validate
  c.guard found.2
  .ok found

/-- The calls on the store.  The clock is read between the read and the write. -/
def actions : Handler Time ActionCall ActionStore (GovernedActionSpec × GovernedActionStatus)
    (Except Err GovernedActionStatus) where
  read c s := refuse (c.read s)
  write now c found s := actionFamily.update s (c.next now found.1 found.2) c.key

/-! ## What a call writes -/

variable {now : Time} {spec : GovernedActionSpec} {status : GovernedActionStatus} {c : ActionCall}
  {s : ActionStore}

variable {found : GovernedActionSpec × GovernedActionStatus}

theorem guard_of_read (hread : actions.read c s = .ok found) : c.guard found.2 = .ok () := by
  obtain ⟨found', -, hchecks⟩ := bind_ok (refuse_ok.mp hread)
  obtain ⟨-, -, hchecks⟩ := bind_ok hchecks
  obtain ⟨⟨⟩, hguard, hchecks⟩ := bind_ok hchecks
  cases hchecks
  exact hguard

theorem next_scope : (c.next now spec status).actionID = status.actionID ∧
    (c.next now spec status).accountID = status.accountID ∧
      (c.next now spec status).projectID = status.projectID := by
  cases c <;> unfold ActionCall.next <;> dsimp only <;> (try split) <;> exact ⟨rfl, rfl, rfl⟩

theorem next_failed (h : (c.next now spec status).lifecycleState = .failed) :
    (c.next now spec status).executionState = .failed := by
  cases c with
  | dryRun ref result =>
    simp only [ActionCall.next, lifecycleAfterDryRun] at h ⊢
    split_ifs at h ⊢ <;> rfl
  | approval ref decision =>
    simp only [ActionCall.next, lifecycleAfterApproval] at h
    split_ifs at h
  | complete ref result =>
    simp only [ActionCall.next] at h ⊢
    split_ifs at h ⊢
    rfl
  | cancel ref req => cases h

/-! ## Terminal actions -/

/-- The calls that change a terminal action although they have read it: a dry run that
succeeds, or that fails on an action that did not fail; an approval, or a rejection of an
action that was not canceled; a cancellation of a failed action. -/
def ActionCall.revives (status : GovernedActionStatus) : ActionCall → Bool
  | .dryRun _ result => result.succeeded || status.lifecycleState != .failed
  | .approval _ decision => decision.approved || status.lifecycleState != .canceled
  | .complete _ _ => false
  | .cancel _ _ => status.lifecycleState == .failed

/-- A write over a terminal action is one of a call that repeats a key, or that has read the
states that the action has, and that does not revive it. -/
def respectsTerminal (c : ActionCall) (s : ActionStore)
    (found : GovernedActionSpec × GovernedActionStatus) : Bool :=
  match s.statuses found.2.actionID with
  | none => true
  | some stored =>
      !stored.lifecycleState.terminal || (s.statusKeys ⟨found.2.actionID, c.key⟩).isSome ||
        (found.2.lifecycleState = stored.lifecycleState &&
          found.2.executionState = stored.executionState && !c.revives stored)

theorem revives_congr {stored : GovernedActionStatus}
    (h : status.lifecycleState = stored.lifecycleState) : c.revives status = c.revives stored := by
  cases c <;> simp only [ActionCall.revives, h]

theorem next_keeps_terminal (hterminal : status.lifecycleState.terminal = true)
    (hfailed : status.lifecycleState = .failed → status.executionState = .failed)
    (hguard : c.guard status = .ok ()) (hrevives : c.revives status = false) :
    (c.next now spec status).lifecycleState = status.lifecycleState ∧
      (c.next now spec status).executionState = status.executionState := by
  cases c with
  | dryRun ref result =>
    simp only [ActionCall.revives, or_eq_false_iff, bne_eq_false_iff_eq] at hrevives
    simp only [ActionCall.next, hrevives.1, false_eq_true, if_false]
    exact ⟨hrevives.2.symm, (hfailed hrevives.2).symm⟩
  | approval ref decision =>
    simp only [ActionCall.revives, or_eq_false_iff, bne_eq_false_iff_eq] at hrevives
    simp only [ActionCall.next, hrevives.1, false_eq_true, if_false]
    exact ⟨hrevives.2.symm, trivial⟩
  | complete ref result =>
    -- the guard wants a ready action
    have hready : actionReadyForExecution status = false := by
      unfold actionReadyForExecution
      rw [if_pos]
      constructor <;> intro hstate <;> rw [hstate] at hterminal <;> cases hterminal
    rw [ActionCall.guard, if_pos hready] at hguard
    cases hguard
  | cancel ref req =>
    have hcanceled : status.lifecycleState = .canceled := by
      revert hterminal hguard hrevives
      simp only [ActionCall.guard, ActionCall.revives]
      cases status.lifecycleState <;> simp [ActionLifecycle.terminal]
    exact ⟨hcanceled.symm, rfl⟩

def FailsWhole (id : String) (s : ActionStore) : Prop :=
  ∀ status, s.statuses id = some status → status.lifecycleState = .failed →
    status.executionState = .failed

/-- The action has ended with these states. -/
def EndedWith (id : String) (lifecycle : ActionLifecycle) (execution : ExecutionState)
    (s : ActionStore) : Prop :=
  ∃ status, s.statuses id = some status ∧ status.lifecycleState = lifecycle ∧
    status.executionState = execution

theorem write_statuses (now : Time) (c : ActionCall) (s : ActionStore) (id : String)
    (found : GovernedActionSpec × GovernedActionStatus) :
    (actions.write now c found s).1.statuses id = s.statuses id ∨
      found.2.actionID = id ∧ s.statusKeys ⟨id, c.key⟩ = none ∧
        ∃ status, (actions.write now c found s).1.statuses id = some status ∧
        status.lifecycleState = (c.next now found.1 found.2).lifecycleState ∧
        status.executionState = (c.next now found.1 found.2).executionState := by
  rcases actionFamily.update_cases s (c.next now found.1 found.2) c.key with
    hsame | ⟨spec, hnew, -, hupdate⟩
  · exact .inl (congrArg (fun s => s.statuses id) hsame)
  have hwrite : (actions.write now c found s).1 = _ := congrArg Prod.fst hupdate
  rw [hwrite]
  by_cases hid : found.2.actionID = id
  · have hkey : actionFamily.statusID (c.next now found.1 found.2) = id := next_scope.1.trans hid
    refine .inr ⟨hid, hkey ▸ hnew, normalizeActionStatus spec (c.next now found.1 found.2), ?_, rfl,
      rfl⟩
    simp only [Family.stored, hkey, update_self]
    rfl
  · have hkey : id ≠ actionFamily.statusID (c.next now found.1 found.2) := by
      rw [show actionFamily.statusID (c.next now found.1 found.2) = found.2.actionID from
        next_scope.1]
      exact Ne.symm hid
    exact .inl (update_of_ne hkey _ _)

theorem write_failsWhole {id : String}
    (h : FailsWhole id s) : FailsWhole id (actions.write now c found s).1 := by
  intro status hstatus hfailed
  rcases write_statuses now c s id found with
    hsame | ⟨-, -, status', hstatus', hlifecycle, hexecution⟩
  · exact h status (hsame ▸ hstatus) hfailed
  · obtain rfl : status' = status := Option.some.inj (hstatus'.symm.trans hstatus)
    rw [hexecution]
    exact next_failed (hlifecycle ▸ hfailed)

theorem write_endedWith {id : String} {lifecycle : ActionLifecycle} {execution : ExecutionState}
    (hterminal : lifecycle.terminal = true) (hwhole : FailsWhole id s)
    (hguard : c.guard found.2 = .ok ()) (hrespects : respectsTerminal c s found = true)
    (h : EndedWith id lifecycle execution s) :
    EndedWith id lifecycle execution (actions.write now c found s).1 := by
  obtain ⟨stored, hstored, rfl, rfl⟩ := h
  rcases write_statuses now c s id found with
    hsame | ⟨rfl, hnew, status, hstatus, hlifecycle, hexecution⟩
  · exact ⟨stored, hsame.trans hstored, rfl, rfl⟩
  simp only [respectsTerminal, hstored, hterminal, hnew, Bool.not_true, Bool.false_or,
    Option.isSome_none, and_eq_true, decide_eq_true_eq, not_eq_true'] at hrespects
  obtain ⟨⟨hstate, hexecuted⟩, hrevives⟩ := hrespects
  have hfailed := hwhole stored hstored
  rw [← hstate] at hterminal hfailed
  rw [← hexecuted] at hfailed
  obtain ⟨hlifecycle', hexecution'⟩ := next_keeps_terminal hterminal hfailed hguard
    ((revives_congr hstate).trans hrevives)
  exact ⟨status, hstatus, hlifecycle.trans (hlifecycle'.trans hstate),
    hexecution.trans (hexecution'.trans hexecuted)⟩

section Created

variable {Text : Type} [DecidableEq Text] {marshal : GovernedActionSpec → Text}
  {s₀ s₁ : ActionStore}

theorem createAction_created
    (hcreated : createAction marshal s₀ spec (initialActionStatus now spec) =
      (s₁, .ok (status, true))) :
    validateGovernedActionSpec spec = .ok () ∧ s₁.specs spec.actionID = some spec ∧
      s₁.statuses spec.actionID = some (initialActionStatus now spec) ∧
      (s₀.Kept → ∀ key, s₁.statusKeys ⟨spec.actionID, key⟩ = none) := by
  unfold createAction at hcreated
  split at hcreated
  · cases hcreated
  rename_i hvalid
  obtain ⟨hnone, rfl, rfl⟩ := Family.create_created hcreated
  refine ⟨hvalid, update_self .., update_self .., fun hkept key => ?_⟩
  by_contra hkey
  exact hkept ⟨spec.actionID, key⟩ hkey hnone

/-- Once an action is executed, failed or canceled, its lifecycle state and its execution
state are the same in every later status, when every write over a terminal action is one of a
call that repeats a key, or that has read these states and does not revive the action. -/
theorem terminal_action_stays {ι : Type} [DecidableEq ι] {calls : ι → ActionCall}
    {s s' : ActionStore} {ls ls' : ι → Phase (GovernedActionSpec × GovernedActionStatus)
      (Except Err GovernedActionStatus)} {stored : GovernedActionStatus}
    (hcreated : createAction marshal s₀ spec (initialActionStatus now spec) =
      (s₁, .ok (status, true)))
    (hruns : Runs (Moves (actions.steps respectsTerminal calls)) s₁ (fun _ => .idle) s ls)
    (hstored : s.statuses spec.actionID = some stored)
    (hterminal : stored.lifecycleState.terminal = true)
    (hlater : Runs (Moves (actions.steps respectsTerminal calls)) s ls s' ls') :
    ∃ stored', s'.statuses spec.actionID = some stored' ∧
      stored'.lifecycleState = stored.lifecycleState ∧
      stored'.executionState = stored.executionState := by
  have hstart : FailsWhole spec.actionID s₁ := by
    intro initial hinitial hfailed
    rw [(createAction_created hcreated).2.2.1] at hinitial
    cases hinitial
    simp only [initialActionStatus] at hfailed
    split_ifs at hfailed
  -- what the run before has made sure of
  obtain ⟨hwhole, hguards⟩ := steps_inv (FailsWhole spec.actionID)
    (fun c found => c.guard found.2 = .ok ()) guard_of_read
    (fun h _ _ => write_failsWhole h) hruns hstart (by simp)
  obtain ⟨⟨-, hended⟩, -⟩ := steps_inv (fun s => FailsWhole spec.actionID s ∧
      EndedWith spec.actionID stored.lifecycleState stored.executionState s)
    (fun c found => c.guard found.2 = .ok ()) guard_of_read
    (fun h hguard hrespects =>
      ⟨write_failsWhole h.1, write_endedWith hterminal h.1 hguard hrespects h.2⟩)
    hlater ⟨hwhole, stored, hstored, rfl, rfl⟩ hguards
  exact hended

def gatedAction : GovernedActionSpec where
  actionID := "a"
  idempotencyKey := "start"
  accountID := "acc"
  projectID := "prj"
  processID := "p"
  kind := "deploy"
  approvalRequired := true

/-- A store with that action. -/
def gatedStore : ActionStore :=
  (createAction id .new gatedAction (initialActionStatus 1 gatedAction)).1

def gatedRef : RecordRef := ⟨"a", "acc", "prj"⟩

/-- A cancellation, and an execution result that comes after it. -/
def lateCompletion : Fin 2 → ActionCall
  | 0 => .cancel gatedRef { idempotencyKey := "c" }
  | 1 => .complete gatedRef { idempotencyKey := "e", succeeded := true }

theorem terminal_action_stays_canceled :
    ∃ stored', (play (actions.steps respectsTerminal lateCompletion) [(3, 1)]
        (play (actions.steps respectsTerminal lateCompletion) [(2, 0), (2, 0)]
          (gatedStore, fun _ => .idle))).1.statuses "a" = some stored' ∧
      stored'.lifecycleState = .canceled ∧ stored'.executionState = .pending := by
  have hcreated : createAction id .new gatedAction (initialActionStatus 1 gatedAction) =
      (gatedStore, .ok (initialActionStatus 1 gatedAction, true)) := Prod.ext rfl rfl
  have hcanceled : (play (actions.steps respectsTerminal lateCompletion) [(2, 0), (2, 0)]
      (gatedStore, fun _ => .idle)).1.statuses "a" =
      some { initialActionStatus 1 gatedAction with lifecycleState := .canceled, updatedAt := 2 } :=
    rfl
  exact terminal_action_stays hcreated (Runs.play _ _ .start) hcanceled rfl (Runs.play _ _ .start)

/-- A rejection, an approval and an execution result, one after the other. -/
def lateApproval : Fin 3 → ActionCall
  | 0 => .approval gatedRef { idempotencyKey := "r" }
  | 1 => .approval gatedRef { idempotencyKey := "y", approved := true }
  | 2 => .complete gatedRef { idempotencyKey := "e", succeeded := true }

/-- A rejected action is approved and executed afterwards. -/
theorem rejected_action_executes :
    ∃ s s' ls ls', (∀ i j, i ≠ j → (lateApproval i).key ≠ (lateApproval j).key) ∧
      Runs (Moves (actions.steps anyWrite lateApproval)) gatedStore (fun _ => .idle) s ls ∧
      Runs (Moves (actions.steps anyWrite lateApproval)) s ls s' ls' ∧
      (s.statuses "a").map GovernedActionStatus.lifecycleState = some .canceled ∧
      (s'.statuses "a").map GovernedActionStatus.lifecycleState = some .executed :=
  ⟨_, _, _, _, by decide, Runs.play _ [(2, 0), (2, 0)] .start,
    Runs.play _ [(3, 1), (3, 1), (4, 2), (4, 2)] .start, rfl, rfl⟩

end Created

/-! ## The gates -/

/-- The reference of a spec's action. -/
def GovernedActionSpec.ref (spec : GovernedActionSpec) : RecordRef :=
  ⟨spec.actionID, spec.accountID, spec.projectID⟩

namespace ActionCall

/-- A dry run that succeeded or an approval, of one action. -/
def IsGate (ref : RecordRef) : ActionCall → Prop
  | .dryRun ref' result => ref' = ref ∧ result.succeeded = true
  | .approval ref' decision => ref' = ref ∧ decision.approved = true
  | .complete _ _ | .cancel _ _ => False

/-- The dry run is recorded: a call without a key is refused. -/
def recordsDryRun : ActionCall → Bool
  | .dryRun _ result => result.idempotencyKey != ""
  | _ => false

/-- The approval is recorded. -/
def recordsApproval : ActionCall → Bool
  | .approval _ decision => decision.idempotencyKey != ""
  | _ => false

end ActionCall

structure GateStates (spec : GovernedActionSpec) (dryRun approval : Bool)
    (status : GovernedActionStatus) : Prop where
  actionID : status.actionID = spec.actionID
  accountID : status.accountID = spec.accountID
  projectID : status.projectID = spec.projectID
  dryRunState : status.dryRunState =
    if spec.dryRunRequired then if dryRun then .succeeded else .pending else .unset
  approvalState : status.approvalState =
    if spec.approvalRequired then if approval then .approved else .pending else .unset
  lifecycleState : status.lifecycleState =
    if spec.dryRunRequired && !dryRun then .waitingDryRun
    else if spec.approvalRequired && !approval then .waitingApproval
    else .ready

def AtGates (spec : GovernedActionSpec) (dryRun approval : Bool) (s : ActionStore) : Prop :=
  s.specs spec.actionID = some spec ∧
    ∃ status, s.statuses spec.actionID = some status ∧ GateStates spec dryRun approval status

theorem initial_gateStates (now : Time) (spec : GovernedActionSpec) :
    GateStates spec false false (initialActionStatus now spec) := by
  constructor <;> cases hdry : spec.dryRunRequired <;> cases happ : spec.approvalRequired <;>
    simp [initialActionStatus, hdry, happ]

variable {ref : RecordRef}

section Gates

variable {dryRun approval : Bool}

section

variable (hvalid : validateGovernedActionSpec spec = .ok ())
include hvalid

theorem ref_of_valid : spec.actionID ≠ "" ∧ spec.accountID ≠ "" ∧ spec.projectID ≠ "" := by
  obtain ⟨⟨⟩, hidentity, -⟩ := bind_ok hvalid
  unfold validateGovernedActionIdentity at hidentity
  split_ifs at hidentity with hid _ haccount hproject
  exact ⟨hid, haccount, hproject⟩

section

variable (hspec : s.specs spec.actionID = some spec)
  (hstatus : s.statuses spec.actionID = some status)
include hspec hstatus

theorem requireAction_of_atGates : requireAction s spec.ref = .ok (spec, status) := by
  obtain ⟨hid, haccount, hproject⟩ := ref_of_valid hvalid
  have href : actionFamily.checkRef spec.ref = .ok () := by
    simp [actionFamily, RecordRef.validate, GovernedActionSpec.ref, hid, haccount, hproject]
  have htenant : actionFamily.checkTenant spec.ref spec = .ok () := by
    simp [actionFamily, validateActionTenantAccess, GovernedActionSpec.ref]
  simp only [requireAction, href, bind, Except.bind]
  exact Family.require_of_found href hspec htenant hstatus

theorem call_stores
    (hstates : GateStates spec dryRun approval status) (href : c.ref = spec.ref) (hkey : c.key ≠ "")
    (hguard : c.guard status = .ok ()) (hnew : s.statusKeys ⟨spec.actionID, c.key⟩ = none) :
    actions.call now c s = (Family.stored s ⟨spec.actionID, c.key⟩
          (normalizeActionStatus spec (c.next now spec status)),
        .ok (normalizeActionStatus spec (c.next now spec status))) := by
  obtain ⟨hid, haccount, hproject⟩ := ref_of_valid hvalid
  have hread : actions.read c s = .ok (spec, status) := by
    have hchecks : c.read s = .ok (spec, status) := by
      simp [ActionCall.read, href, requireAction_of_atGates hvalid hspec hstatus,
        ActionCall.validate, if_neg hkey, hguard, bind, Except.bind]
    exact refuse_ok.mpr hchecks
  have hnextID : (c.next now spec status).actionID = spec.actionID :=
    next_scope.1.trans hstates.actionID
  have haccount' : (c.next now spec status).accountID = spec.accountID :=
    next_scope.2.1.trans hstates.accountID
  have hproject' : (c.next now spec status).projectID = spec.projectID :=
    next_scope.2.2.trans hstates.projectID
  have hinput : actionFamily.checkInput (c.next now spec status) c.key = .ok () := by
    simp [actionFamily, validateUpdateActionStatusInput, hkey, hnextID, haccount', hproject', hid,
      haccount, hproject]
  have hscope : actionFamily.checkStatus (c.next now spec status) spec = .ok () := by
    simp [actionFamily, validateActionStatusScope, haccount', hproject']
  have hstatusID : actionFamily.statusID (c.next now spec status) = spec.actionID := hnextID
  rw [call_of_ok hread]
  have hupdate := Family.update_stores hinput (hstatusID ▸ hnew) (hstatusID ▸ hspec) hscope
  rw [hstatusID] at hupdate
  exact hupdate

theorem call_refused (href : c.ref = spec.ref) (hrefused : c.key = "" ∨ c.guard status ≠ .ok ()) :
    (actions.call now c s).1 = s := by
  have hread : ∃ err, c.read s = .error err := by
    simp only [ActionCall.read, href, requireAction_of_atGates hvalid hspec hstatus,
      ActionCall.validate, bind, Except.bind]
    by_cases hkey : c.key = ""
    · exact ⟨_, by rw [if_pos hkey]⟩
    · cases hguard : c.guard status with
      | error err => exact ⟨err, by rw [if_neg hkey]⟩
      | ok done => exact absurd hguard (hrefused.resolve_left hkey)
  obtain ⟨err, hread⟩ := hread
  have hanswer : actions.read c s = .error (.error err) := by
    show refuse (c.read s) = _
    rw [hread]
    rfl
  rw [call_of_error hanswer]

end

end

section

variable (hstates : GateStates spec dryRun approval status)
include hstates

theorem dryRun_guard {result : ActionDryRunResult} :
    (ActionCall.dryRun ref result).guard status = .ok () ↔ spec.dryRunRequired = true := by
  rw [ActionCall.guard, hstates.dryRunState]
  cases spec.dryRunRequired <;> cases dryRun <;> simp

theorem approval_guard {decision : ActionApprovalDecision} :
    (ActionCall.approval ref decision).guard status = .ok () ↔ spec.approvalRequired = true := by
  rw [ActionCall.guard, hstates.approvalState]
  cases spec.approvalRequired <;> cases approval <;> simp

theorem GateStates.congr {dryRun' approval' : Bool}
    (hdryRun : spec.dryRunRequired = true → dryRun' = dryRun)
    (happroval : spec.approvalRequired = true → approval' = approval) :
    GateStates spec dryRun' approval' status := by
  obtain ⟨hid, haccount, hproject, hdry, happ, hlifecycle⟩ := hstates
  refine ⟨hid, haccount, hproject, ?_, ?_, ?_⟩
  · rw [hdry]
    split
    · rw [hdryRun ‹_›]
    · rfl
  · rw [happ]
    split
    · rw [happroval ‹_›]
    · rfl
  · rw [hlifecycle]
    cases hd : spec.dryRunRequired <;> cases ha : spec.approvalRequired <;> simp_all

theorem gate_next (hgate : c.IsGate spec.ref) (hkey : c.key ≠ "") (hguard : c.guard status = .ok ())
    (horder : spec.dryRunRequired = true → spec.approvalRequired = true → approval = true →
      c.recordsDryRun = false) :
    GateStates spec (dryRun || c.recordsDryRun) (approval || c.recordsApproval)
      (normalizeActionStatus spec (c.next now spec status)) := by
  cases c with
  | dryRun ref result =>
    have hrequired := (dryRun_guard hstates).mp hguard
    have hrecords : (ActionCall.dryRun ref result).recordsDryRun = true := bne_iff_ne.mpr hkey
    constructor
    case lifecycleState =>
      simp only [normalizeActionStatus, ActionCall.next, hgate.2, lifecycleAfterDryRun, hrecords,
        ActionCall.recordsApproval, Bool.or_true, Bool.or_false, if_true, Bool.not_true,
        Bool.and_false, false_eq_true, if_false]
      cases happroval : spec.approvalRequired
      · rfl
      cases approval
      · rfl
      · rw [horder hrequired happroval rfl] at hrecords
        cases hrecords
    all_goals simp [normalizeActionStatus, ActionCall.next, hgate.2, hrecords, hrequired,
        ActionCall.recordsApproval, hstates.approvalState]
  | approval ref decision =>
    have hrequired := (approval_guard hstates).mp hguard
    have hrecords : (ActionCall.approval ref decision).recordsApproval = true := bne_iff_ne.mpr hkey
    constructor
    case lifecycleState =>
      simp only [normalizeActionStatus, ActionCall.next, hgate.2, lifecycleAfterApproval, hrecords,
        ActionCall.recordsDryRun, Bool.or_true, Bool.or_false, if_true, Bool.not_true,
        Bool.and_false, false_eq_true, if_false, hstates.dryRunState]
      cases spec.dryRunRequired <;> cases dryRun <;> rfl
    all_goals simp [normalizeActionStatus, ActionCall.next, hgate.2, hrecords, hrequired,
        ActionCall.recordsDryRun, hstates.dryRunState]
  | complete | cancel => exact hgate.elim

theorem gate_refused (hrefused : c.key = "" ∨ c.guard status ≠ .ok ()) :
    GateStates spec (dryRun || c.recordsDryRun) (approval || c.recordsApproval) status := by
  cases c with
  | dryRun ref result =>
    refine hstates.congr (fun hrequired => ?_) (fun _ => or_false _)
    rcases hrefused with hkey | hguard
    · simp [ActionCall.recordsDryRun, bne_eq_false_iff_eq.mpr (show result.idempotencyKey = ""
        from hkey)]
    · exact absurd ((dryRun_guard hstates).mpr hrequired) hguard
  | approval ref decision =>
    refine hstates.congr (fun _ => or_false _) (fun hrequired => ?_)
    rcases hrefused with hkey | hguard
    · simp [ActionCall.recordsApproval, bne_eq_false_iff_eq.mpr
        (show decision.idempotencyKey = "" from hkey)]
    · exact absurd ((approval_guard hstates).mpr hrequired) hguard
  | complete | cancel => exact hstates.congr (fun _ => or_false _) (fun _ => or_false _)

end

theorem ActionCall.IsGate.ref_eq (hgate : c.IsGate ref) : c.ref = ref := by
  cases c with
  | dryRun | approval => exact hgate.1
  | complete | cancel => exact hgate.elim

theorem call_atGates (hvalid : validateGovernedActionSpec spec = .ok ())
    (hat : AtGates spec dryRun approval s) (hgate : c.IsGate spec.ref)
    (hnew : s.statusKeys ⟨spec.actionID, c.key⟩ = none)
    (horder : spec.dryRunRequired = true → spec.approvalRequired = true → approval = true →
      c.recordsDryRun = false) :
    AtGates spec (dryRun || c.recordsDryRun) (approval || c.recordsApproval)
        (actions.call now c s).1 ∧
      ∀ key, key ≠ c.key → (actions.call now c s).1.statusKeys ⟨spec.actionID, key⟩ =
        s.statusKeys ⟨spec.actionID, key⟩ := by
  obtain ⟨hspec, status, hstatus, hstates⟩ := hat
  by_cases haccepted : c.key ≠ "" ∧ c.guard status = .ok ()
  · obtain ⟨hkey, hguard⟩ := haccepted
    rw [call_stores hvalid hspec hstatus hstates hgate.ref_eq hkey hguard hnew]
    refine ⟨⟨hspec, _, update_self .., gate_next hstates hgate hkey hguard horder⟩, ?_⟩
    intro key hne
    exact update_of_ne (by simpa using hne) ..
  · have hrefused : c.key = "" ∨ c.guard status ≠ .ok () :=
      (not_and_or.mp haccepted).imp_left not_not.mp
    rw [call_refused hvalid hspec hstatus hgate.ref_eq hrefused]
    exact ⟨⟨hspec, status, hstatus, gate_refused hstates hrefused⟩, fun _ _ => rfl⟩

/-- No recorded dry run follows a recorded approval. -/
def DryRunsFirst (history : List (Time × ActionCall)) : Prop :=
  history.Pairwise fun first second =>
    first.2.recordsApproval = true → second.2.recordsDryRun = false

theorem run_atGates {history : List (Time × ActionCall)}
    (hvalid : validateGovernedActionSpec spec = .ok ()) (hat : AtGates spec dryRun approval s)
    (hgates : ∀ turn ∈ history, turn.2.IsGate spec.ref)
    (hkeys : (history.map fun turn => turn.2.key).Nodup)
    (hnew : ∀ turn ∈ history, s.statusKeys ⟨spec.actionID, turn.2.key⟩ = none)
    (horder : spec.dryRunRequired = true → spec.approvalRequired = true → DryRunsFirst history ∧
      (approval = true → ∀ turn ∈ history, turn.2.recordsDryRun = false)) :
    AtGates spec (dryRun || history.any fun turn => turn.2.recordsDryRun)
      (approval || history.any fun turn => turn.2.recordsApproval) (actions.run s history) := by
  induction history generalizing s dryRun approval with
  | nil => simpa [run] using hat
  | cons turn history ih =>
    obtain ⟨now, c⟩ := turn
    obtain ⟨hnot, hrest⟩ := nodup_cons.mp hkeys
    obtain ⟨hat', hothers⟩ := call_atGates hvalid hat (hgates _ mem_cons_self)
      (hnew _ mem_cons_self) fun hd ha happ => (horder hd ha).2 happ _ mem_cons_self
    simp only [any_cons, ← Bool.or_assoc]
    refine ih hat' (fun t ht => hgates t (mem_cons_of_mem _ ht)) hrest (fun t ht => ?_)
      (fun hd ha => ?_)
    · rw [hothers]
      · exact hnew t (mem_cons_of_mem _ ht)
      · exact fun heq => hnot (mem_map.mpr ⟨t, ht, heq⟩)
    · obtain ⟨hpairs, happ⟩ := horder hd ha
      obtain ⟨hhead, htail⟩ := pairwise_cons.mp hpairs
      refine ⟨htail, fun hpassed t ht => ?_⟩
      rcases or_eq_true_iff.mp hpassed with hpassed | hpassed
      · exact happ hpassed t (mem_cons_of_mem _ ht)
      · exact hhead t ht hpassed

theorem complete_accepted {result : ActionExecutionResult}
    (hvalid : validateGovernedActionSpec spec = .ok ())
    (hspec : s.specs spec.actionID = some spec) (hstatus : s.statuses spec.actionID = some status)
    (hstates : GateStates spec dryRun approval status) (hready : status.lifecycleState = .ready)
    (hkey : result.idempotencyKey ≠ "")
    (hnew : s.statusKeys ⟨spec.actionID, result.idempotencyKey⟩ = none) :
    ∃ final, (actions.call now (.complete spec.ref result) s).2 = .ok final ∧
      final.lifecycleState = if result.succeeded then .executed else .failed := by
  have hpassed : actionReadyForExecution status = true := by
    have hlifecycle := hstates.lifecycleState
    rw [hready] at hlifecycle
    unfold actionReadyForExecution
    rw [hready, hstates.dryRunState, hstates.approvalState]
    revert hlifecycle
    cases spec.dryRunRequired <;> cases spec.approvalRequired <;> cases dryRun <;>
      cases approval <;> simp
  have hguard : (ActionCall.complete spec.ref result).guard status = .ok () := by
    rw [ActionCall.guard, hpassed]
    rfl
  have hcall : actions.call now (.complete spec.ref result) s = _ :=
    call_stores hvalid hspec hstatus hstates rfl hkey hguard hnew
  refine ⟨_, congrArg Prod.snd hcall, ?_⟩
  simp only [normalizeActionStatus, ActionCall.next]
  split <;> rfl

variable {Text : Type} [DecidableEq Text] {marshal : GovernedActionSpec → Text}
  {s₀ s₁ : ActionStore}

/-- After any history of successful dry runs and approvals the action is ready exactly when the
gates that it needs are passed, and then it accepts an execution result; provided that, if the
action needs both gates, no dry run is recorded after an approval. -/
theorem ready_iff_gates {history : List (Time × ActionCall)} (hkept : s₀.Kept)
    (hcreated : createAction marshal s₀ spec (initialActionStatus now spec) =
      (s₁, .ok (status, true))) (hgates : ∀ turn ∈ history, turn.2.IsGate spec.ref)
    (hkeys : (history.map fun turn => turn.2.key).Nodup)
    (horder : spec.dryRunRequired = true → spec.approvalRequired = true → DryRunsFirst history) :
    ∃ final, (actions.run s₁ history).statuses spec.actionID = some final ∧
      (final.lifecycleState = .ready ↔
        (spec.dryRunRequired = true → ∃ turn ∈ history, turn.2.recordsDryRun = true) ∧
        (spec.approvalRequired = true → ∃ turn ∈ history, turn.2.recordsApproval = true)) ∧
      (final.lifecycleState = .ready → ∀ later result, result.idempotencyKey ≠ "" →
        (actions.run s₁ history).statusKeys ⟨spec.actionID, result.idempotencyKey⟩ = none →
        ∃ done, (actions.call later (.complete spec.ref result) (actions.run s₁ history)).2 =
            .ok done ∧
          done.lifecycleState = if result.succeeded then .executed else .failed) := by
  obtain ⟨hvalid, hspec, hstatus, hnew⟩ := createAction_created hcreated
  have hat : AtGates spec false false s₁ := ⟨hspec, _, hstatus, initial_gateStates now spec⟩
  obtain ⟨hspec', final, hfinal, hstates⟩ := run_atGates hvalid hat hgates hkeys
    (fun turn _ => hnew hkept turn.2.key) fun hd ha => ⟨horder hd ha, by simp⟩
  refine ⟨final, hfinal, ?_, fun hready later result hkey hfree =>
    complete_accepted hvalid hspec' hfinal hstates hready hkey hfree⟩
  rw [hstates.lifecycleState]
  simp only [Bool.false_or, ← any_eq_true]
  cases spec.dryRunRequired <;> cases spec.approvalRequired <;>
    cases history.any (fun turn => turn.2.recordsDryRun) <;>
    cases history.any (fun turn => turn.2.recordsApproval) <;> simp

end Gates

def twiceGated : GovernedActionSpec := { gatedAction with dryRunRequired := true }

/-- A store with that action. -/
def twiceGatedStore : ActionStore :=
  (createAction id .new twiceGated (initialActionStatus 1 twiceGated)).1

/-- A dry run that succeeds. -/
def passingDryRun : ActionCall := .dryRun gatedRef { idempotencyKey := "d", succeeded := true }

/-- An approval. -/
def passingApproval : ActionCall := .approval gatedRef { idempotencyKey := "y", approved := true }

/-- The dry run before the approval. -/
def dryRunFirst : List (Time × ActionCall) := [(2, passingDryRun), (3, passingApproval)]

theorem ready_iff_gates_both :
    ∃ final, (actions.run twiceGatedStore dryRunFirst).statuses "a" = some final ∧
      final.lifecycleState = .ready := by
  have hcreated : createAction id .new twiceGated (initialActionStatus 1 twiceGated) =
      (twiceGatedStore, .ok (initialActionStatus 1 twiceGated, true)) := Prod.ext rfl rfl
  have hgates : ∀ turn ∈ dryRunFirst, turn.2.IsGate twiceGated.ref := by
    simp only [dryRunFirst, forall_mem_cons]
    exact ⟨⟨rfl, rfl⟩, ⟨rfl, rfl⟩, by simp⟩
  have horder : DryRunsFirst dryRunFirst :=
    .cons (by simp [passingDryRun, ActionCall.recordsApproval]) (.cons (by simp) .nil)
  obtain ⟨final, hfinal, hready, -⟩ :=
    ready_iff_gates Projections.new_kept hcreated hgates (by decide) fun _ _ => horder
  exact ⟨final, hfinal, hready.mpr ⟨fun _ => ⟨(2, passingDryRun), by simp [dryRunFirst], rfl⟩,
      fun _ => ⟨(3, passingApproval), by simp [dryRunFirst], rfl⟩⟩⟩

/-- A dry run after the approval: both gates are passed, and the action waits for the approval
that it has. -/
theorem late_dryRun_waits :
    passingApproval.recordsApproval = true ∧ passingDryRun.recordsDryRun = true ∧
      ((actions.run twiceGatedStore [(2, passingApproval), (3, passingDryRun)]).statuses "a").map
        (fun status => (status.lifecycleState, status.dryRunState, status.approvalState)) =
        some (.waitingApproval, .succeeded, .approved) ∧
      ((actions.run twiceGatedStore dryRunFirst).statuses "a").map
        GovernedActionStatus.lifecycleState = some .ready :=
  ⟨rfl, rfl, rfl, rfl⟩

end AgentOS.Platform
