import AgentOS.Kit.Mailbox
import AgentOS.Platform.ProcessRetries

/-!
# The process workflow

`ProcessWorkflow` of `agentos/temporal/process_workflow.go` owns one process.  It starts the
process in the store and then takes signals, controls and timers, one at a time: each is handed
to an activity that changes the store, and the status that the activity returns is the new
status of the workflow.  When its history is long, an execution continues as new.
-/

namespace AgentOS.ProcessWorkflow

open Kit Platform List ProcessStore Prog

/-! ## Inputs and timers -/

structure ProcessWorkflowTimer where
  timer : TimerSpec
  dueAt : Time := 0
  fired : Bool := false

structure ProcessWorkflowInput where
  spec : ProcessSpec
  processActivity : String := ""
  (workflowVersion continuationCount : Int := 0)
  timers : List ProcessWorkflowTimer := []

def processRefFromSpec (spec : ProcessSpec) : RecordRef :=
  ⟨spec.processID, spec.accountID, spec.projectID⟩

/-- The checks of an input.  The current version is the only one in the replay window of
`validateProcessWorkflowVersion`. -/
def ProcessWorkflowInput.validate (input : ProcessWorkflowInput) : Except Err Unit :=
  if input.processActivity = "" then
    .error (.external "ProcessWorkflow process activity task queue is required")
  else if input.workflowVersion ≠ 1 then
    .error (.external ("agentos temporal workflow version: invalid: AgentOSProcessWorkflow got " ++
      toString input.workflowVersion ++
      " outside replay compatibility window for worker version 1"))
  else .ok ()

def newProcessWorkflowTimers (now : Time) (carried : List ProcessWorkflowTimer)
    (specs : List TimerSpec) : List ProcessWorkflowTimer :=
  if carried.isEmpty then
    specs.map fun timer =>
      { timer
        dueAt := if timer.fireAt.isZero then now.addSeconds timer.afterSeconds else timer.fireAt }
  else carried

def evaluateProcessContinuation (policy : ProcessPolicy) (historyLength : Int) : Bool :=
  policy.continueAsNewEvents > 0 && historyLength ≥ policy.continueAsNewEvents ||
    policy.maxHistoryEvents > 0 && historyLength ≥ policy.maxHistoryEvents

def continuedProcessWorkflowInput (input : ProcessWorkflowInput)
    (timers : List ProcessWorkflowTimer) : ProcessWorkflowInput :=
  { input with continuationCount := int32 (input.continuationCount + 1), timers }

/-! ## Activities -/

/-- An activity with its retries: it ends with the first attempt that succeeds, or with the
error of the last one. -/
def runAttempts {A : Type} (operation : Attempt → ProcessStore → ProcessStore × Except Err A) :
    List Attempt → ProcessStore → ProcessStore × Except Err A
  | [], s => (s, .error (.external "activity timed out"))
  | attempt :: rest, s =>
      match operation attempt s with
      | (s, .ok answer) => (s, .ok answer)
      | (s, .error err) => if rest.isEmpty then (s, .error err) else runAttempts operation rest s

inductive Other where
  | start (spec : ProcessSpec) (attempt : Attempt)
  | call (c : ProcessCall) (attempt : Attempt)

def Other.foreign (id : String) : Other → Prop
  | .start _ _ => True
  | .call c _ => c.ref.recordID ≠ id

structure Arrivals where
  signals : List Signal := []
  controls : List ControlRequest := []
  others : List Other := []

/-! ## The machine -/

/-- The variables of the workflow, its channels, and the store. -/
structure Locals where
  store : ProcessStore
  status : ProcessStatus := {}
  timers : List ProcessWorkflowTimer := []
  signalCh : List Signal := []
  controlCh : List ControlRequest := []

/-- What the workflow does.  An activity is kept with its attempts. -/
inductive Act where
  | start (spec : ProcessSpec) (attempts : List Attempt)
  | arm (timers : List ProcessWorkflowTimer)
  | signal (ref : RecordRef) (sent : Signal) (attempts : List Attempt)
  | control (ref : RecordRef) (req : ControlRequest) (attempts : List Attempt)
  | fireTimer (index : Nat) (ref : RecordRef) (timer : TimerSpec) (firedAt : String)
      (attempts : List Attempt)
  | setStatus (status : ProcessStatus)
  | failStatus (now : Time) (err : Err)
  | deliver (arrivals : Arrivals)
  | continueAsNew

def Act.activity : Act → Option (ProcessActivity × List Attempt)
  | .signal ref sent attempts => some (.signal ref sent, attempts)
  | .control ref req attempts => some (.control ref req, attempts)
  | .fireTimer _ ref timer firedAt attempts => some (.fireTimer ref timer firedAt, attempts)
  | _ => none

variable {input : ProcessWorkflowInput} {a : ProcessActivity} {status : ProcessStatus}
  {ref : RecordRef}

section Machine

variable {Text : Type} [DecidableEq Text] (texts : ProcessTexts Text)

def runActivity (a : ProcessActivity) (attempts : List Attempt) (s : ProcessStore) :
    ProcessStore × Except Err ProcessStatus :=
  runAttempts (activityAttempt texts a) attempts s

def Other.apply (s : ProcessStore) : Other → ProcessStore
  | .start spec attempt => (startAttempt texts spec attempt s).1
  | .call c attempt => (callAttempt texts c attempt s).1

def failProcessWorkflowStatus (status : ProcessStatus) (now : Time) (err : Err) : ProcessStatus :=
  { status with lifecycleState := .failed, reason := err.text, updatedAt := now }

/-- What an action does to the variables.  A message leaves its channel when it is handed to
its activity, and a timer is fired when it is. -/
def Locals.step (l : Locals) : Act → Locals
  | .start spec attempts =>
      { l with store := (runAttempts (startAttempt texts spec) attempts l.store).1 }
  | .arm timers => { l with timers }
  | .signal ref sent attempts =>
      { l with
        signalCh := l.signalCh.tail
        store := (runActivity texts (.signal ref sent) attempts l.store).1 }
  | .control ref req attempts =>
      { l with
        controlCh := l.controlCh.tail
        store := (runActivity texts (.control ref req) attempts l.store).1 }
  | .fireTimer index ref timer firedAt attempts =>
      { l with
        timers := l.timers.modify index fun timer => { timer with fired := true }
        store := (runActivity texts (.fireTimer ref timer firedAt) attempts l.store).1 }
  | .setStatus status => { l with status }
  | .failStatus now err => { l with status := failProcessWorkflowStatus l.status now err }
  | .deliver arrivals =>
      { l with
        signalCh := l.signalCh ++ arrivals.signals
        controlCh := l.controlCh ++ arrivals.controls
        store := arrivals.others.foldl (Other.apply texts) l.store }
  | .continueAsNew => { l with signalCh := [], controlCh := [] }

abbrev World := Logged Locals Act

abbrev Workflow (α : Type) := Prog (Locals.step texts) Err α

/-- What `selector.Select` takes next. -/
inductive Choice where
  | signal
  | control
  | timer (index : Nat)
  | blocked

/-- The world of a process workflow.  Every answer may depend on all that happened. -/
structure Host where
  attempts : World → List Attempt
  select : World → Choice
  historyLength : World → Int
  now : World → Time
  arrivals : World → Arrivals
  /-- `GetVersion` of the continue-as-new marker. -/
  continueAsNewEnabled : Bool
  /-- `Format(time.RFC3339Nano)`. -/
  rfc3339 : Time → String

variable (E : Host)

def deliver : Workflow texts Unit := do
  let arrivals ← query E.arrivals
  emit (.deliver arrivals)

def processWorkflowReceive (a : ProcessActivity) (act : List Attempt → Act) :
    Workflow texts Unit := do
  let l ← state
  let attempts ← query E.attempts
  emit (act attempts)
  deliver texts E
  match (runActivity texts a attempts l.store).2 with
  | .error err => do
      let now ← query E.now
      emit (.failStatus now err)
  | .ok next => emit (.setStatus next)

def selectNext (ref : RecordRef) : Workflow texts Unit := do
  let l ← state
  match ← query E.select with
  | .signal =>
      match l.signalCh with
      | [] => deliver texts E
      | sent :: _ => processWorkflowReceive texts E (.signal ref sent) (.signal ref sent)
  | .control =>
      match l.controlCh with
      | [] => deliver texts E
      | req :: _ => processWorkflowReceive texts E (.control ref req) (.control ref req)
  | .timer index =>
      match l.timers[index]? with
      | none => deliver texts E
      | some timer =>
          if timer.fired then deliver texts E
          else
            processWorkflowReceive texts E (.fireTimer ref timer.timer (E.rfc3339 timer.dueAt))
              (.fireTimer index ref timer.timer (E.rfc3339 timer.dueAt))
  | .blocked => deliver texts E

def setup (input : ProcessWorkflowInput) : Workflow texts Unit := do
  match input.validate with
  | .error err => fail err
  | .ok () => do
      let l ← state
      let attempts ← query E.attempts
      emit (.start input.spec attempts)
      deliver texts E
      match (runAttempts (startAttempt texts input.spec) attempts l.store).2 with
      | .error err => fail err
      | .ok status => do
          emit (.setStatus status)
          let now ← query E.now
          emit (.arm (newProcessWorkflowTimers now input.timers input.spec.timers))

inductive Position where
  | setup
  | loop

/-- How a segment ends: the execution goes on, it continues as new, or it returns. -/
inductive Verdict where
  | go
  | next (input : ProcessWorkflowInput)
  | done

/-- One segment of an execution: its setup, or one round of its loop. -/
def advance (input : ProcessWorkflowInput) : Position → Workflow texts Verdict
  | .setup => do
      setup texts E input
      pure .go
  | .loop => do
      let l ← state
      if l.status.lifecycleState.terminal then pure .done
      else do
        let historyLength ← query E.historyLength
        if E.continueAsNewEnabled && evaluateProcessContinuation input.spec.policy historyLength
        then do
          emit .continueAsNew
          deliver texts E
          pure (.next (continuedProcessWorkflowInput input l.timers))
        else do
          selectNext texts E (processRefFromSpec input.spec)
          pure .go

/-- A chain of executions.  The status that is returned is the one of the variables. -/
inductive Exec where
  | running (input : ProcessWorkflowInput) (position : Position) (w : World)
  | returned (w : World) (outcome : Except Err Unit)

def Exec.world : Exec → World
  | .running _ _ w => w
  | .returned w _ => w

def Exec.step : Exec → Exec
  | .running input position w =>
      match (advance texts E input position).run w with
      | (.ok .go, v) => .running input .loop v
      | (.ok (.next input), v) => .running input .setup v
      | (.ok .done, v) => .returned v (.ok ())
      | (.error err, v) => .returned v (.error err)
  | stopped => stopped

def beginProcess (store : ProcessStore) : World :=
  let w : World := ⟨{ store }, []⟩
  w.act (Locals.step texts) (.deliver (E.arrivals w))

/-- The workflow after `n` segments. -/
def processRun (input : ProcessWorkflowInput) (store : ProcessStore) : Nat → Exec
  | 0 => .running input .setup (beginProcess texts E store)
  | n + 1 => (processRun input store n).step texts E

/-! ## What an activity does to the store -/

variable {texts} {s s' : ProcessStore} {c : ProcessCall} {attempt : Attempt} {id : String}

variable (texts) in
theorem callAttempt_records (c : ProcessCall) (attempt : Attempt) (s : ProcessStore) :
    (callAttempt texts c attempt s).1.records = s.records ∨
      ∃ found, c.read s = .ok found ∧ (callAttempt texts c attempt s).1.records =
        (processFamily.update s.records (c.next attempt.1 found.2) c.key).1 := by
  obtain ⟨now, faults⟩ := attempt
  have hget : (faults.get.meet s (s, c.read s)).1 = s := by cases faults.get <;> rfl
  let P : ProcessStore → Prop := fun s' => s'.records = s.records ∨ ∃ found, c.read s = .ok found ∧
    s'.records = (processFamily.update s.records (c.next now found.2) c.key).1
  refine followed_store (P := P) ?_ ?_
  · exact .inl (congrArg records hget)
  intro found hfound _
  have hread : c.read s = .ok found := by
    cases hfault : faults.get <;> rw [hfault] at hfound
    · exact hfound
    · cases hfound
    · cases hfound
  rw [hget]
  have hrecords : (faults.append.meet s
      (appendProcessEvent texts s now (c.event now found.1) c.key)).1.records = s.records := by
    rcases faults.append.meet_store s
      (appendProcessEvent texts s now (c.event now found.1) c.key) with h | h
    · rw [h]
    · rw [h]
      exact appendProcessEvent_records ..
  refine followed_store (.inl hrecords) fun _ _ _ => ?_
  refine followed_store ?_ fun _ _ hupdated => hupdated
  generalize (faults.append.meet s _).1 = s₁ at hrecords
  rcases faults.update.meet_store s₁ (updateProcessStatus s₁ (c.next now found.2) c.key) with h | h
  · rw [h]
    exact .inl hrecords
  rw [h]
  refine .inr ⟨found, hread, ?_⟩
  rw [← hrecords]
  rfl

variable (texts) in
theorem callAttempt_statuses (hsound : s.Sound) (c : ProcessCall) (attempt : Attempt)
    (id : String) :
    (callAttempt texts c attempt s).1.records.statuses id = s.records.statuses id ∨
      (id = c.ref.recordID ∧ ∃ spec status now, s.records.statuses id = some status ∧
        (callAttempt texts c attempt s).1.records.statuses id =
          some (normalizeProcessStatus spec (c.next now status))) := by
  rcases callAttempt_records texts c attempt s with hsame | ⟨⟨spec, status⟩, hread, hrecords⟩
  · exact .inl (by rw [hsame])
  obtain ⟨hholds, hid⟩ := read_holds hsound hread
  rw [hrecords]
  have hnext : (c.next attempt.1 status).processID = spec.processID :=
    (next_processID ..).trans hholds.statusID
  rcases processFamily.update_cases s.records (c.next attempt.1 status) c.key with
    hsame | ⟨spec', -, -, hupdate⟩
  · exact .inl (by rw [hsame])
  rw [hupdate]
  by_cases hsame : id = spec.processID
  · subst hsame
    refine .inr ⟨hid.symm, spec', status, attempt.1, hholds.status_eq, ?_⟩
    change Function.update _ (c.next attempt.1 status).processID _ _ = _
    rw [hnext]
    exact Function.update_self ..
  · refine .inl ?_
    change Function.update _ (c.next attempt.1 status).processID _ _ = _
    rw [hnext]
    exact Function.update_of_ne hsame ..

variable (texts) in
theorem callAttempt_foreign (hsound : s.Sound) (c : ProcessCall) (attempt : Attempt)
    (hforeign : c.ref.recordID ≠ id) :
    (callAttempt texts c attempt s).1.lifecycleAt id = s.lifecycleAt id := by
  rcases callAttempt_statuses texts hsound c attempt id with hsame | ⟨hid, -⟩
  · unfold lifecycleAt
    rw [hsame]
  · exact absurd hid.symm hforeign

theorem callAttempt_not_failed (hsound : s.Sound) (c : ProcessCall) (attempt : Attempt)
    (h : s.lifecycleAt id ≠ some .failed) :
    (callAttempt texts c attempt s).1.lifecycleAt id ≠ some .failed := by
  unfold lifecycleAt at h ⊢
  rcases callAttempt_statuses texts hsound c attempt id with
    hsame | ⟨-, spec, status, now, hold, hnew⟩
  · rw [hsame]
    exact h
  rw [hold] at h
  rw [hnew]
  have hstatus : status.lifecycleState ≠ .failed := fun heq => h (congrArg some heq)
  have hnext : (c.next now status).lifecycleState ≠ .failed := by
    cases c with
    | signal ref sent =>
      change processLifecycleAfterSignal status.lifecycleState ≠ .failed
      unfold processLifecycleAfterSignal
      split_ifs
      · nofun
      · exact hstatus
    | control ref req =>
      change processLifecycleAfterControl status.lifecycleState req.operation ≠ .failed
      unfold processLifecycleAfterControl
      split
      · nofun
      · nofun
      · nofun
      · exact hstatus
  intro heq
  have hfailed : (normalizeProcessStatus spec (c.next now status)).lifecycleState = .failed :=
    Option.some.inj heq
  simp only [normalizeProcessStatus] at hfailed
  split_ifs at hfailed
  exact hnext hfailed

def Present (id : String) (s : ProcessStore) : Prop := ∃ spec, s.records.specs id = some spec

variable (texts) in
theorem Present.callAttempt (h : Present id s) (c : ProcessCall) (attempt : Attempt) :
    Present id (callAttempt texts c attempt s).1 := by
  obtain ⟨spec, hspec⟩ := h
  refine ⟨spec, ?_⟩
  rcases callAttempt_records texts c attempt s with hsame | ⟨found, -, hrecords⟩
  · rw [hsame]
    exact hspec
  · rw [hrecords, processFamily.update_specs]
    exact hspec

theorem statusProcess_stored (hsound : s.Sound) (h : statusProcess s ref = .ok status) :
    Present ref.recordID s ∧ s.lifecycleAt ref.recordID = some status.lifecycleState := by
  obtain ⟨⟨spec, found⟩, hrequire, hstatus⟩ := bind_ok h
  cases hstatus
  obtain ⟨-, -, hspec, hfound⟩ := Family.require_ok hrequire
  obtain ⟨hid, status', hholds⟩ := hsound.held hspec
  have hstored : s.records.statuses ref.recordID = some status' := hid ▸ hholds.status_eq
  refine ⟨⟨spec, hspec⟩, ?_⟩
  rw [hfound, lifecycleAt, hstored]
  rfl

theorem activityAttempt_stored (hsound : s.Sound)
    (h : activityAttempt texts a attempt s = (s', .ok status)) :
    s'.lifecycleAt a.call.ref.recordID = some status.lifecycleState := by
  obtain ⟨s₁, ⟨⟩, hcall, hstatus⟩ := followed_ok h
  have hsound₁ : (callAttempt texts a.call attempt s).1.Sound := hsound.callAttempt ..
  rw [hcall] at hsound₁
  cases hfault : attempt.2.status with
  | refused | lost => rw [hfault] at hstatus; cases hstatus
  | none =>
    rw [hfault] at hstatus
    obtain ⟨rfl, hfound⟩ : s₁ = s' ∧ statusProcess s₁ a.call.ref = .ok status := by
      simpa [Fault.meet] using hstatus
    exact (statusProcess_stored hsound₁ hfound).2

variable (texts) in
theorem startAttempt_present (spec : ProcessSpec) (attempt : Attempt) (h : Present id s) :
    Present id (startAttempt texts spec attempt s).1 ∧
      (startAttempt texts spec attempt s).1.lifecycleAt id = s.lifecycleAt id := by
  let P : ProcessStore → Prop := fun s' => Present id s' ∧ s'.lifecycleAt id = s.lifecycleAt id
  have hmeet : ∀ {A : Type} (fault : Fault) {s₁ : ProcessStore} {r : ProcessStore × Except Err A},
      P s₁ → P r.1 → P (fault.meet s₁ r).1 := by
    intro A fault s₁ r h₁ hr
    rcases fault.meet_store s₁ r with hsame | hserved
    · rw [hsame]
      exact h₁
    · rw [hserved]
      exact hr
  have hcreate : ∀ status, P (createProcess texts s spec status).1 := by
    intro status
    unfold createProcess
    split
    · exact ⟨h, rfl⟩
    dsimp only
    rcases processFamily.create_cases (validateProcessStartIdempotency texts) s.records spec status
      with ⟨hsame, -⟩ | ⟨-, hnone, hclaimed⟩
    · rw [hsame]
      exact ⟨h, rfl⟩
    obtain ⟨found, hfound⟩ := h
    have hother : id ≠ spec.processID := by
      rintro rfl
      exact absurd (hnone.symm.trans hfound) nofun
    rw [hclaimed]
    refine ⟨⟨found, ?_⟩, ?_⟩
    · simpa [Family.claimed, processFamily, hother] using hfound
    · simp [lifecycleAt, Family.claimed, processFamily, hother]
  unfold startAttempt
  dsimp only
  split
  · exact ⟨h, rfl⟩
  refine followed_store (hmeet _ ⟨h, rfl⟩ (hcreate _)) fun answer _ hcreated => ?_
  split_ifs
  · refine followed_store (hmeet _ hcreated ?_) fun _ _ happended => happended
    obtain ⟨⟨found, hfound⟩, hsame⟩ := hcreated
    refine ⟨⟨found, ?_⟩, ?_⟩
    · rw [appendProcessEvent_records]
      exact hfound
    · rw [lifecycleAt, appendProcessEvent_records]
      exact hsame
  · exact hcreated

theorem createProcess_stored (hsound : s.Sound) {spec : ProcessSpec}
    {status' : ProcessStatus} {created : Bool}
    (h : createProcess texts s spec status = (s', .ok (status', created))) :
    Present spec.processID s' ∧ s'.lifecycleAt spec.processID = some status'.lifecycleState := by
  -- the replay of a process that is there, under its own id
  have hreplay : ∀ {other : ProcessSpec}, s.records.specs spec.processID = some other →
      Present spec.processID s ∧ s.lifecycleAt spec.processID =
        some ((s.records.statuses spec.processID).getD default).lifecycleState := by
    intro other hother
    obtain ⟨hid, stored, hholds⟩ := hsound.held hother
    have hstored : s.records.statuses spec.processID = some stored := hid ▸ hholds.status_eq
    refine ⟨⟨other, hother⟩, ?_⟩
    rw [lifecycleAt, hstored]
    rfl
  unfold createProcess at h
  split at h
  · cases h
  unfold Family.create at h
  split at h
  · rename_i id hkey
    obtain ⟨other, hother⟩ := hsound.indexed hkey
    rw [hother] at h
    obtain ⟨rfl, hanswer⟩ := Prod.mk.injEq .. ▸ h
    obtain ⟨⟨⟩, hcheck, hstatus⟩ := bind_ok hanswer
    cases hstatus
    have hid : id = spec.processID := by
      have hsame : other.processID = spec.processID := by
        by_contra hdifferent
        simp [validateProcessStartIdempotency, hdifferent] at hcheck
      rw [← (hsound.held hother).1, hsame]
    subst hid
    exact hreplay hother
  · split at h
    · rename_i hother
      obtain ⟨rfl, hanswer⟩ := Prod.mk.injEq .. ▸ h
      obtain ⟨⟨⟩, -, hstatus⟩ := bind_ok hanswer
      cases hstatus
      exact hreplay hother
    · cases h
      refine ⟨⟨spec, by simp [Family.claimed, processFamily]⟩, ?_⟩
      simp [lifecycleAt, Family.claimed, processFamily]

theorem startAttempt_stored (hsound : s.Sound) {spec : ProcessSpec}
    (h : startAttempt texts spec attempt s = (s', .ok status)) :
    Present spec.processID s' ∧ s'.lifecycleAt spec.processID = some status.lifecycleState := by
  unfold startAttempt at h
  dsimp only at h
  split at h
  · cases h
  obtain ⟨s₁, ⟨status', created⟩, hcreate, hrest⟩ := followed_ok h
  have hcreated : createProcess texts s spec (initialProcessStatus attempt.1 spec) =
      (s₁, .ok (status', created)) := by
    cases hfault : attempt.2.create <;> rw [hfault] at hcreate
    · exact hcreate
    · cases hcreate
    · cases hcreate
  obtain ⟨hpresent, hstored⟩ := createProcess_stored hsound hcreated
  split_ifs at hrest
  · obtain ⟨s₂, event, happend, hlast⟩ := followed_ok hrest
    cases hlast
    have hrecords : s'.records = s₁.records := by
      have hkept : (appendProcessEvent texts s₁ attempt.1 (processStartedEvent attempt.1 spec status')
        spec.idempotencyKey).1.records = s₁.records := appendProcessEvent_records ..
      cases hfault : attempt.2.append <;> rw [hfault] at happend
      · rwa [show appendProcessEvent texts s₁ attempt.1 _ _ = _ from happend] at hkept
      · cases happend
      · cases happend
    unfold Present lifecycleAt
    rw [hrecords]
    exact ⟨hpresent, hstored⟩
  · cases hrest
    exact ⟨hpresent, hstored⟩

/-! ## Retries -/

section Retries

variable {A : Type} {operation : Attempt → ProcessStore → ProcessStore × Except Err A}
  {I : ProcessStore → Prop} {attempts : List Attempt}

theorem runAttempts_inv (hstep : ∀ attempt s, I s → I (operation attempt s).1)
    (attempts : List Attempt) (h : I s) : I (runAttempts operation attempts s).1 := by
  induction attempts generalizing s with
  | nil => exact h
  | cons attempt rest ih =>
    have hnext := hstep attempt s h
    unfold runAttempts
    generalize operation attempt s = r at hnext
    obtain ⟨s₁, answer⟩ := r
    cases answer with
    | ok answer => exact hnext
    | error err =>
      split_ifs
      · exact hnext
      · exact ih hnext

theorem runAttempts_ok (hstep : ∀ attempt s, I s → I (operation attempt s).1) (h : I s) {answer : A}
    (hok : runAttempts operation attempts s = (s', .ok answer)) :
    ∃ s₁ attempt, I s₁ ∧ operation attempt s₁ = (s', .ok answer) := by
  induction attempts generalizing s with
  | nil => cases hok
  | cons attempt rest ih =>
    have hnext := hstep attempt s h
    unfold runAttempts at hok
    cases hattempt : operation attempt s with
    | mk s₁ reply =>
      rw [hattempt] at hok hnext
      cases reply with
      | ok reply =>
        cases hok
        exact ⟨s, attempt, h, hattempt⟩
      | error err =>
        split_ifs at hok
        · cases hok
        · exact ih hnext hok

end Retries

/-! ## The status and the index -/

/-- Others do not call the process. -/
def Host.Foreign (E : Host) (id : String) : Prop :=
  ∀ w, ∀ other ∈ (E.arrivals w).others, other.foreign id

variable (texts) in
/-- The activity of an entry, if it has one, succeeds. -/
def Succeeds (entry : Locals × Act) : Prop :=
  (entry.2.activity.all fun (a, attempts) =>
    (runActivity texts a attempts entry.1.store).2.isOk) = true

instance : DecidablePred (Succeeds texts) := fun _ => inferInstanceAs (Decidable (_ = true))

variable (texts) in
structure Ready (w : World) : Prop where
  sound : w.st.store.Sound
  succeeds : LogMeets (Succeeds texts) w

variable (texts) in
structure Agreed (id : String) (w : World) : Prop extends Ready texts w where
  present : Present id w.st.store
  agrees : w.st.store.lifecycleAt id = some w.st.status.lifecycleState

variable (texts) in
/-- The execution is in its loop: its status is that of the index, or an activity failed it and
the index does not know. -/
inductive Going (id : String) (w : World) : Prop
  | agreed (h : Agreed texts id w)
  | failed (hfailed : w.st.status.lifecycleState = .failed)
      (hindex : w.st.store.lifecycleAt id ≠ some .failed)
      (hbroken : ¬ LogMeets (Succeeds texts) w)

variable {E : Host} {w : World} {act : Act} {l : Locals} {attempts : List Attempt}

theorem succeeds_of_idle (h : act.activity = none) : Succeeds texts (l, act) := by
  rw [Succeeds, h]
  rfl

theorem succeeds_iff (h : act.activity = some (a, attempts)) :
    Succeeds texts (l, act) ↔ (runActivity texts a attempts l.store).2.isOk = true := by
  rw [Succeeds, h]
  rfl

theorem logMeets_act (hw : LogMeets (Succeeds texts) w) (h : Succeeds texts (w.st, act)) :
    LogMeets (Succeeds texts) (w.act (Locals.step texts) act) := by
  intro entry hentry
  rcases mem_cons.mp hentry with rfl | hentry
  · exact h
  · exact hw entry hentry

theorem Ready.idle (h : Ready texts w) (hidle : act.activity = none)
    (hsound : (w.st.step texts act).store.Sound) : Ready texts (w.act (Locals.step texts) act) :=
  ⟨hsound, logMeets_act h.succeeds (succeeds_of_idle hidle)⟩

theorem Other.apply_sound (hsound : s.Sound) (others : List Other) :
    (others.foldl (Other.apply texts) s).Sound := by
  induction others generalizing s with
  | nil => exact hsound
  | cons other rest ih =>
    refine ih ?_
    cases other with
    | start spec attempt => exact hsound.startAttempt spec attempt
    | call c attempt => exact hsound.callAttempt c attempt

variable (texts) in
theorem Other.apply_foreign (hsound : s.Sound) (hpresent : Present id s) (others : List Other)
    (hforeign : ∀ other ∈ others, other.foreign id) :
    Present id (others.foldl (Other.apply texts) s) ∧
      (others.foldl (Other.apply texts) s).lifecycleAt id = s.lifecycleAt id := by
  induction others generalizing s with
  | nil => exact ⟨hpresent, rfl⟩
  | cons other rest ih =>
    have hrest := forall_mem_of_forall_mem_cons hforeign
    cases other with
    | start spec attempt =>
      obtain ⟨hstill, hsame⟩ := startAttempt_present texts spec attempt hpresent
      obtain ⟨hend, hlast⟩ := ih (hsound.startAttempt spec attempt) hstill hrest
      exact ⟨hend, hlast.trans hsame⟩
    | call c attempt =>
      have hsame := callAttempt_foreign texts hsound c attempt (hforeign _ mem_cons_self)
      obtain ⟨hend, hlast⟩ :=
        ih (hsound.callAttempt c attempt) (hpresent.callAttempt texts c attempt) hrest
      exact ⟨hend, hlast.trans hsame⟩

theorem Agreed.deliver (hforeign : E.Foreign id) (h : Agreed texts id w) :
    Agreed texts id (w.act (Locals.step texts) (.deliver (E.arrivals w))) := by
  have hkept := Other.apply_foreign texts h.sound h.present _ (hforeign w)
  exact ⟨h.toReady.idle rfl (Other.apply_sound h.sound _), hkept.1, hkept.2.trans h.agrees⟩

variable (texts) in
theorem runActivity_stored (a : ProcessActivity) (attempts : List Attempt) (hsound : s.Sound)
    (hpresent : Present id s) (hindex : s.lifecycleAt id ≠ some .failed) :
    (runActivity texts a attempts s).1.Sound ∧ Present id (runActivity texts a attempts s).1 ∧
      (runActivity texts a attempts s).1.lifecycleAt id ≠ some .failed := by
  refine runAttempts_inv (I := fun s => s.Sound ∧ Present id s ∧ s.lifecycleAt id ≠ some .failed)
    (fun attempt s h => ?_) attempts ⟨hsound, hpresent, hindex⟩
  rw [activityAttempt_store]
  exact ⟨h.1.callAttempt .., h.2.1.callAttempt texts .., callAttempt_not_failed h.1 _ _ h.2.2⟩

theorem runActivity_ok (hsound : s.Sound) (hok : (runActivity texts a attempts s).2 = .ok status) :
    (runActivity texts a attempts s).1.lifecycleAt a.call.ref.recordID =
      some status.lifecycleState := by
  obtain ⟨s₁, attempt, hsound₁, hlast⟩ := runAttempts_ok
    (fun attempt s h => by rw [activityAttempt_store]; exact h.callAttempt ..) hsound
    (Prod.ext rfl hok)
  exact activityAttempt_stored hsound₁ hlast

section

variable (hforeign : E.Foreign id) (h : Agreed texts id w)
  (hlive : w.st.status.lifecycleState.terminal = false)
include hforeign h hlive

theorem processWorkflowReceive_going {acts : List Attempt → Act} (hid : a.call.ref.recordID = id)
    (hacts : ∀ attempts, (acts attempts).activity = some (a, attempts) ∧
      (w.st.step texts (acts attempts)).store = (runActivity texts a attempts w.st.store).1) :
    Yields (processWorkflowReceive texts E a acts) w (fun _ v => Going texts id v)
      (fun _ _ => False) := by
  let attempts := E.attempts w
  let w₁ := w.act (Locals.step texts) (acts attempts)
  let w₂ := w₁.act (Locals.step texts) (.deliver (E.arrivals w₁))
  obtain ⟨hactivity, hstore⟩ := hacts attempts
  have hindex : w.st.store.lifecycleAt id ≠ some .failed := by
    rw [h.agrees]
    intro heq
    rw [Option.some.inj heq] at hlive
    cases hlive
  obtain ⟨hsound, hpresent, hunfailed⟩ := runActivity_stored texts a attempts h.sound h.present hindex
  have hothers := Other.apply_foreign texts hsound hpresent _ (hforeign w₁)
  rw [← hstore] at hsound hothers
  change Yields (match (runActivity texts a attempts w.st.store).2 with
    | .error err => do
        let now ← query E.now
        emit (.failStatus now err)
    | .ok next => emit (.setStatus next)) w₂ _ _
  cases hanswer : (runActivity texts a attempts w.st.store).2 with
  | error err =>
    refine .failed rfl ?_ fun hmeets => ?_
    · change w₂.st.store.lifecycleAt id ≠ _
      rw [show w₂.st.store.lifecycleAt id = _ from hothers.2, hstore]
      exact hunfailed
    · have hsucceeds := hmeets (w.st, acts attempts)
        (mem_cons_of_mem _ (mem_cons_of_mem _ mem_cons_self))
      rw [succeeds_iff hactivity, hanswer] at hsucceeds
      cases hsucceeds
  | ok next =>
    have hstored := runActivity_ok h.sound hanswer
    have hready₁ : Ready texts w₁ := ⟨hsound, logMeets_act h.succeeds (by
      rw [succeeds_iff hactivity, hanswer]
      rfl)⟩
    have hready₂ : Ready texts w₂ := hready₁.idle rfl (Other.apply_sound hsound _)
    refine .agreed ⟨hready₂.idle rfl hready₂.sound, hothers.1, ?_⟩
    change w₂.st.store.lifecycleAt id = some next.lifecycleState
    rw [show w₂.st.store.lifecycleAt id = _ from hothers.2, hstore, ← hid]
    exact hstored

theorem selectNext_going (hid : ref.recordID = id) :
    Yields (selectNext texts E ref) w (fun _ v => Going texts id v) (fun _ _ => False) := by
  have hidle : Yields (deliver texts E) w (fun _ v => Going texts id v) (fun _ _ => False) :=
    .agreed (h.deliver hforeign)
  refine .read (.asking ?_)
  cases E.select w with
  | signal | control =>
    dsimp only
    split
    · exact hidle
    · exact processWorkflowReceive_going hforeign h hlive hid fun _ => ⟨rfl, rfl⟩
  | timer index =>
    dsimp only
    split
    · exact hidle
    · split_ifs
      · exact hidle
      · exact processWorkflowReceive_going hforeign h hlive hid fun _ => ⟨rfl, rfl⟩
  | blocked => exact hidle

end

theorem setup_going (hforeign : E.Foreign input.spec.processID) (h : Ready texts w) :
    Yields (setup texts E input) w (fun _ v => Going texts input.spec.processID v)
      (fun _ _ => True) := by
  unfold setup
  cases input.validate with
  | error err => trivial
  | ok _ =>
    let attempts := E.attempts w
    let w₁ := w.act (Locals.step texts) (.start input.spec attempts)
    let w₂ := w₁.act (Locals.step texts) (.deliver (E.arrivals w₁))
    have hstep : ∀ attempt s, Sound s →
        (startAttempt texts input.spec attempt s).1.Sound := fun attempt s hs => hs.startAttempt ..
    have hsound₁ : w₁.st.store.Sound := runAttempts_inv hstep attempts h.sound
    have hready₂ : Ready texts w₂ := (h.idle rfl hsound₁).idle rfl (Other.apply_sound hsound₁ _)
    change Yields (match (runAttempts (startAttempt texts input.spec) attempts w.st.store).2 with
      | .error err => fail err
      | .ok status => do
          emit (.setStatus status)
          let now ← query E.now
          emit (.arm (newProcessWorkflowTimers now input.timers input.spec.timers))) w₂ _ _
    cases hanswer : (runAttempts (startAttempt texts input.spec) attempts w.st.store).2 with
    | error err => trivial
    | ok status =>
      obtain ⟨s₁, attempt, hsound, hlast⟩ := runAttempts_ok hstep h.sound (Prod.ext rfl hanswer)
      obtain ⟨hpresent, hstored⟩ := startAttempt_stored hsound hlast
      have hothers := Other.apply_foreign texts hsound₁ hpresent _ (hforeign w₁)
      have hready₃ : Ready texts (w₂.act (Locals.step texts) (.setStatus status)) :=
        hready₂.idle rfl hready₂.sound
      exact .agreed ⟨hready₃.idle rfl hready₃.sound, hothers.1, hothers.2.trans hstored⟩

variable (texts) in
def Standing (id : String) : Position → World → Prop
  | .setup, w => Ready texts w
  | .loop, w => Going texts id w

variable (texts) in
def Settled (id : String) (w : World) : Prop :=
  w.st.store.lifecycleAt id = some w.st.status.lifecycleState ↔ LogMeets (Succeeds texts) w

theorem advance_standing (hforeign : E.Foreign input.spec.processID)
    {position : Position} (h : Standing texts input.spec.processID position w) :
    Yields (advance texts E input position) w
      (fun r v => match r with
        | .go => Standing texts input.spec.processID .loop v
        | .next input' => input'.spec = input.spec ∧ Standing texts input.spec.processID .setup v
        | .done => Settled texts input.spec.processID v)
      (fun _ _ => True) := by
  cases position with
  | setup => exact .bind (setup_going hforeign h) fun _ _ hv => .ret hv
  | loop =>
    refine .read ?_
    by_cases hterminal : w.st.status.lifecycleState.terminal = true
    · rw [if_pos hterminal]
      refine .ret ?_
      cases h with
      | agreed h => exact ⟨fun _ => h.succeeds, fun _ => h.agrees⟩
      | failed hfailed hindex hbroken =>
        exact ⟨fun heq => absurd (hfailed ▸ heq) hindex, fun hmeets => absurd hmeets hbroken⟩
    · rw [if_neg hterminal]
      cases h with
      | failed hfailed => exact absurd (by rw [hfailed]; rfl) hterminal
      | agreed h =>
        have hcontinued : Ready texts (w.act (Locals.step texts) .continueAsNew) :=
          h.toReady.idle rfl h.sound
        refine .asking ?_
        split_ifs
        · exact ⟨rfl, hcontinued.idle rfl (Other.apply_sound hcontinued.sound _)⟩
        · refine .bind ((selectNext_going hforeign h (Bool.eq_false_of_not_eq_true hterminal)
            rfl).post (fun _ _ hv => hv) (fun _ _ hv => hv.elim)) fun _ _ hv => .ret hv

variable (texts E) in
theorem processRun_standing (input : ProcessWorkflowInput) (store : ProcessStore)
    (hsound : store.Sound) (hforeign : E.Foreign input.spec.processID) (n : Nat) :
    match processRun texts E input store n with
    | .running input' position w =>
        input'.spec = input.spec ∧ Standing texts input.spec.processID position w
    | .returned w (.ok ()) => Settled texts input.spec.processID w
    | .returned _ (.error _) => True := by
  induction n with
  | zero =>
    refine ⟨rfl, ?_⟩
    have hready : Ready texts ⟨{ store }, []⟩ := ⟨hsound, fun _ he => (not_mem_nil he).elim⟩
    exact hready.idle rfl (Other.apply_sound hsound _)
  | succ n ih =>
    rw [processRun]
    generalize processRun texts E input store n = exec at ih ⊢
    cases exec with
    | returned w outcome => exact ih
    | running input' position w =>
      obtain ⟨hspec, hstanding⟩ := ih
      rw [← hspec] at hforeign hstanding ⊢
      have hsegment := advance_standing hforeign hstanding
      rw [Exec.step]
      unfold Yields at hsegment
      generalize (advance texts E input' position).run w = r at hsegment
      obtain ⟨res, v⟩ := r
      cases res with
      | error err => trivial
      | ok verdict =>
        cases verdict with
        | go => exact ⟨rfl, hsegment⟩
        | next input'' | done => exact hsegment

/-- When the workflow returns its status, the index holds the same lifecycle state, if and only
if no activity of a signal, a control or a timer ended in an error. -/
theorem outcome_indexed {input : ProcessWorkflowInput} {store : ProcessStore} {n : Nat}
    (hreached : Reached texts store) (hforeign : E.Foreign input.spec.processID)
    (hreturned : processRun texts E input store n = .returned w (.ok ())) :
    w.st.store.lifecycleAt input.spec.processID = some w.st.status.lifecycleState ↔
      LogMeets (Succeeds texts) w := by
  have hsettled := processRun_standing texts E input store hreached.sound hforeign n
  rw [hreturned] at hsettled
  exact hsettled

/-- A process that continues as new at any history of `limit` events. -/
def orderInput (limit : Int) : ProcessWorkflowInput where
  spec := { orderProcess with policy := { continueAsNewEvents := limit } }
  processActivity := "q"
  workflowVersion := 1

/-- A host with given attempts of the activities behind the start.  The arrivals come during the
start. -/
def orderHost (attempts : List Attempt) (arrivals : Arrivals) (choice : Choice) : Host where
  attempts w := if w.log.length ≤ 1 then [(1, {})] else attempts
  select _ := choice
  historyLength _ := 1
  now _ := 5
  arrivals w := if w.log.length = 2 then arrivals else {}
  continueAsNewEnabled := true
  rfc3339 _ := "1970-01-01T00:00:05Z"

/-- A cancel control that arrives early. -/
def earlyCancel : Arrivals := { controls := [{ operation := .cancel, idempotencyKey := "c" }] }

theorem outcome_indexed_canceled :
    ∃ w, processRun clockTexts (orderHost [(2, {})] earlyCancel .control) (orderInput 0) .new 3 =
      .returned w (.ok ()) ∧ w.st.store.lifecycleAt "p" = some w.st.status.lifecycleState := by
  have hreturned : processRun clockTexts (orderHost [(2, {})] earlyCancel .control) (orderInput 0)
    .new 3 = .returned _ (.ok ()) := rfl
  refine ⟨_, hreturned, (outcome_indexed .new ?_ hreturned).mpr ?_⟩
  · intro w other hother
    simp only [orderHost] at hother
    split_ifs at hother
    · exact (not_mem_nil hother).elim
    · exact (not_mem_nil hother).elim
  · decide +kernel

/-- The control activity fails in all its attempts.  The workflow returns failed, and the process
is left running in the index. -/
theorem outcome_not_indexed :
    ∃ w, processRun clockTexts (orderHost (replicate 3 (2, { get := .refused })) earlyCancel
        .control) (orderInput 0) .new 3 = .returned w (.ok ()) ∧
      w.st.status.lifecycleState = .failed ∧ w.st.store.lifecycleAt "p" = some .running :=
  ⟨_, rfl, rfl, rfl⟩

/-! ## The channels -/

variable (texts) in
/-- The signals.  A message is received when it is handed to its activity. -/
def signalBox : Mailbox (Locals.step texts) Signal Signal Unit where
  channel := Locals.signalCh
  arrives
    | .deliver arrivals => arrivals.signals
    | _ => []
  receives
    | .signal _ sent _ => some sent
    | _ => none
  marks _ := none
  opens
    | .continueAsNew => true
    | _ => false
  key _ := ()
  processed _ := []
  step_channel l act hopens := by
    cases act <;> simp_all [Locals.step]
  opens_idle act hopens := by
    cases act <;> simp_all
  step_marks _ _ _ := nofun

variable (texts) in
/-- The controls. -/
def controlBox : Mailbox (Locals.step texts) ControlRequest ControlRequest Unit where
  channel := Locals.controlCh
  arrives
    | .deliver arrivals => arrivals.controls
    | _ => []
  receives
    | .control _ req _ => some req
    | _ => none
  marks _ := none
  opens
    | .continueAsNew => true
    | _ => false
  key _ := ()
  processed _ := []
  step_channel l act hopens := by
    cases act <;> simp_all [Locals.step]
  opens_idle act hopens := by
    cases act <;> simp_all
  step_marks _ _ _ := nofun

def Handed (entry : Locals × Act) : Prop :=
  match entry.2 with
  | .signal _ sent _ => entry.1.signalCh.head? = some sent
  | .control _ req _ => entry.1.controlCh.head? = some req
  | _ => True

variable (texts) in
structure Orderly (l₀ : Locals) (w : World) : Prop where
  chained : Chained (Locals.step texts) l₀ w.st w.log
  handed : LogMeets Handed w

variable {l₀ : Locals}

section

variable (h : Orderly texts l₀ w)
include h

theorem Orderly.after (hact : Handed (w.st, act)) :
    Orderly texts l₀ (w.act (Locals.step texts) act) := by
  refine ⟨⟨rfl, h.chained⟩, fun entry hentry => ?_⟩
  rcases mem_cons.mp hentry with rfl | hentry
  · exact hact
  · exact h.handed entry hentry

theorem deliver_orderly : Retains (Orderly texts l₀) w (deliver texts E) := h.after trivial

theorem processWorkflowReceive_orderly {acts : List Attempt → Act}
    (hacts : ∀ attempts, Handed (w.st, acts attempts)) :
    Retains (Orderly texts l₀) w (processWorkflowReceive texts E a acts) := by
  refine .read (.asking (.acting (.bind (deliver_orderly (h.after (hacts _))) fun _ v hv => ?_)))
  split
  · exact hv.after trivial
  · exact hv.after trivial

theorem selectNext_orderly : Retains (Orderly texts l₀) w (selectNext texts E ref) := by
  refine .read (.asking ?_)
  cases E.select w with
  | signal | control =>
    dsimp only
    split
    · exact deliver_orderly h
    · rename_i hchannel
      exact processWorkflowReceive_orderly h fun _ => congrArg head? hchannel
  | timer index =>
    dsimp only
    split
    · exact deliver_orderly h
    · split_ifs
      · exact deliver_orderly h
      · exact processWorkflowReceive_orderly h fun _ => trivial
  | blocked => exact deliver_orderly h

theorem setup_orderly : Retains (Orderly texts l₀) w (setup texts E input) := by
  unfold setup
  cases input.validate with
  | error err => exact h
  | ok _ =>
    refine .read (.asking (.acting (.bind (deliver_orderly (h.after trivial)) fun _ v hv => ?_)))
    split
    · exact hv
    · refine .acting (.asking (.emit (Orderly.after ?_ trivial)))
      exact hv.after trivial

theorem advance_orderly {position : Position} :
    Retains (Orderly texts l₀) w (advance texts E input position) := by
  cases position with
  | setup => exact .bind (setup_orderly h) fun _ _ hv => .ret hv
  | loop =>
    refine .read ?_
    split_ifs
    · exact .ret h
    refine .asking ?_
    split_ifs
    · refine .acting (.bind (deliver_orderly ?_) fun _ _ hv => .ret hv)
      exact h.after trivial
    · exact .bind (selectNext_orderly h) fun _ _ hv => .ret hv

end

variable (texts E) in
theorem processRun_orderly (input : ProcessWorkflowInput) (store : ProcessStore) (n : Nat) :
    Orderly texts { store } (processRun texts E input store n).world := by
  induction n with
  | zero =>
    have hbegun : Orderly texts { store } ⟨{ store }, []⟩ :=
      ⟨rfl, fun _ he => (not_mem_nil he).elim⟩
    exact hbegun.after trivial
  | succ n ih =>
    rw [processRun]
    generalize processRun texts E input store n = exec at ih ⊢
    cases exec with
    | returned w outcome => exact ih
    | running input' position w =>
      have hsegment : Yields (advance texts E input' position) w _ _ := advance_orderly ih
      rw [Exec.step]
      unfold Yields at hsegment
      generalize (advance texts E input' position).run w = r at hsegment
      obtain ⟨res, v⟩ := r
      cases res with
      | error err => exact hsegment
      | ok verdict => cases verdict <;> exact hsegment

/-- The signals that were handed to their activities, oldest first. -/
def passedSignals (log : List (Locals × Act)) : List Signal :=
  log.reverse.filterMap fun entry =>
    match entry.2 with
    | .signal _ sent _ => some sent
    | _ => none

/-- The controls that were handed to their activities, oldest first. -/
def passedControls (log : List (Locals × Act)) : List ControlRequest :=
  log.reverse.filterMap fun entry =>
    match entry.2 with
    | .control _ req _ => some req
    | _ => none

/-- Every execution that continued as new left empty channels. -/
def ContinuesEmpty (log : List (Locals × Act)) : Prop :=
  ∀ entry ∈ log, entry.2 = .continueAsNew → entry.1.signalCh = [] ∧ entry.1.controlCh = []

/-- Through all executions, every signal and control that was delivered was handed to its
activity or waits in the channel, in order, if and only if no execution continued as new with a
message in a channel. -/
theorem inputs_survive (E : Host) (input : ProcessWorkflowInput) (store : ProcessStore) (n : Nat) :
    ((signalBox texts).delivered (processRun texts E input store n).world.log =
        passedSignals (processRun texts E input store n).world.log ++
          (processRun texts E input store n).world.st.signalCh ∧
      (controlBox texts).delivered (processRun texts E input store n).world.log =
        passedControls (processRun texts E input store n).world.log ++
          (processRun texts E input store n).world.st.controlCh) ↔
    ContinuesEmpty (processRun texts E input store n).world.log := by
  have horderly := processRun_orderly texts E input store n
  have hreceived : (signalBox texts).received (processRun texts E input store n).world.log =
      passedSignals (processRun texts E input store n).world.log :=
    (signalBox texts).received_handed fun entry hentry => by
      have hhanded := horderly.handed entry hentry
      cases hact : entry.2 <;> simp_all [signalBox, Handed]
  have hreceived' : (controlBox texts).received (processRun texts E input store n).world.log =
      passedControls (processRun texts E input store n).world.log :=
    (controlBox texts).received_handed fun entry hentry => by
      have hhanded := horderly.handed entry hentry
      cases hact : entry.2 <;> simp_all [controlBox, Handed]
  rw [← hreceived, ← hreceived']
  have hsignals := (signalBox texts).delivered_eq_iff horderly.chained rfl (by
    intro l act hopens
    cases act <;> first | rfl | cases hopens)
  have hcontrols := (controlBox texts).delivered_eq_iff horderly.chained rfl (by
    intro l act hopens
    cases act <;> first | rfl | cases hopens)
  refine (and_congr hsignals hcontrols).trans ⟨fun h entry hentry hnew => ?_, fun h => ⟨?_, ?_⟩⟩
  · exact ⟨h.1 entry hentry (by rw [hnew]; rfl), h.2 entry hentry (by rw [hnew]; rfl)⟩
  · intro entry hentry hopens
    refine (h entry hentry ?_).1
    cases hact : entry.2 <;> rw [hact] at hopens <;> first | rfl | cases hopens
  · intro entry hentry hopens
    refine (h entry hentry ?_).2
    cases hact : entry.2 <;> rw [hact] at hopens <;> first | rfl | cases hopens

/-- A signal that arrives while the process is started. -/
def earlySignal : Arrivals := { signals := [{ type := .userMessage, idempotencyKey := "s" }] }

/-- The signal waits in its channel when the execution continues as new.  It is neither handed
to an activity nor there for the next execution. -/
theorem input_lost :
    let w := (processRun clockTexts (orderHost [(2, {})] earlySignal .signal) (orderInput 1) .new 2).world
    ((signalBox clockTexts).delivered w.log).length = 1 ∧ passedSignals w.log = [] ∧
      w.st.signalCh = [] :=
  ⟨rfl, rfl, rfl⟩

end Machine

end AgentOS.ProcessWorkflow
