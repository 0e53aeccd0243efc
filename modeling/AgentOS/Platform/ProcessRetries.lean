import AgentOS.Platform.Processes

/-!
# Repeated process operations

An operation of the process runtime is a sequence of store calls, and any of them may fail:
before it did anything, or after it committed.  The caller then repeats the operation with the
same input.
-/

namespace AgentOS.Platform

open Kit List Function Option Except ProcessCall ProcessStore

/-! ## Failing store calls -/

/-- What happens to a store call: it is served, it fails and does nothing, or it is served and
its answer is lost. -/
inductive Fault where
  | none
  | refused
  | lost
  deriving DecidableEq

def Fault.meet {S A : Type} (fault : Fault) (s : S) (r : S × Except Err A) : S × Except Err A :=
  match fault with
  | .none => r
  | .refused => (s, .error (.external "store unavailable"))
  | .lost => (r.1, .error (.external "store unavailable"))

def followed {S A B : Type} (r : S × Except Err A) (rest : A → S → S × Except Err B) :
    S × Except Err B :=
  match r with
  | (s, .error err) => (s, .error err)
  | (s, .ok answer) => rest answer s

/-- The faults of an attempt, one for each store call: `CreateProcess`, the `GetProcessByRef` of
a call, `AppendProcessEvent`, `UpdateProcessStatus`, and the `GetProcessByRef` of the status. -/
structure Faults where
  create : Fault := .none
  get : Fault := .none
  append : Fault := .none
  update : Fault := .none
  status : Fault := .none

/-- A time and the faults that are met. -/
abbrev Attempt := Time × Faults

def processTimerIdempotencyKey (processID timerID firedAt : String) : String :=
  processID ++ ":timer:" ++ timerID ++ ":" ++ firedAt

/-- The activities that change a process: `SignalProcessActivity`, `ControlProcessActivity` and
`FireProcessTimerActivity`. -/
inductive ProcessActivity where
  | signal (ref : RecordRef) (sent : Signal)
  | control (ref : RecordRef) (req : ControlRequest)
  | fireTimer (ref : RecordRef) (timer : TimerSpec) (firedAt : String)

def timerSignal (ref : RecordRef) (timer : TimerSpec) (firedAt : String) : Signal where
  type := if timer.signal = .other "" then .other ("process.timer." ++ timer.timerID)
    else timer.signal
  idempotencyKey := processTimerIdempotencyKey ref.recordID timer.timerID firedAt
  payload := timer.payload

/-- The call of an activity. -/
def ProcessActivity.call : ProcessActivity → ProcessCall
  | .signal ref sent => .signal ref sent
  | .control ref req => .control ref req
  | .fireTimer ref timer firedAt => .signal ref (timerSignal ref timer firedAt)

def statusProcess (s : ProcessStore) (ref : RecordRef) : Except Err ProcessStatus := do
  let found ← processFamily.require s.records ref
  .ok found.2

section Attempts

variable {Text : Type} [DecidableEq Text] (texts : ProcessTexts Text)

/-- An attempt of `StartProcess`. -/
def startAttempt (spec : ProcessSpec) (attempt : Attempt) (s : ProcessStore) :
    ProcessStore × Except Err ProcessStatus :=
  let (now, faults) := attempt
  match validateProcessSpec spec with
  | .error err => (s, .error err)
  | .ok () =>
    followed (faults.create.meet s (createProcess texts s spec (initialProcessStatus now spec)))
      fun (status, created) s =>
        if created then
          followed (faults.append.meet s (appendProcessEvent texts s now
            (processStartedEvent now spec status) spec.idempotencyKey)) fun _ s => (s, .ok status)
        else (s, .ok status)

/-- An attempt of `SignalProcess` or `ControlProcess`. -/
def callAttempt (c : ProcessCall) (attempt : Attempt) (s : ProcessStore) :
    ProcessStore × Except Err Unit :=
  let (now, faults) := attempt
  followed (faults.get.meet s (s, c.read s)) fun found s =>
    followed (faults.append.meet s (appendProcessEvent texts s now (c.event now found.1) c.key))
      fun _ s =>
        followed (faults.update.meet s (updateProcessStatus s (c.next now found.2) c.key))
          fun _ s => (s, .ok ())

/-- An attempt of an activity: the call, and then the status. -/
def activityAttempt (a : ProcessActivity) (attempt : Attempt) (s : ProcessStore) :
    ProcessStore × Except Err ProcessStatus :=
  followed (callAttempt texts a.call attempt s) fun _ s =>
    attempt.2.status.meet s (s, statusProcess s a.call.ref)

theorem startAttempt_served (now : Time) (spec : ProcessSpec) (s : ProcessStore) :
    startAttempt texts spec (now, {}) s = startProcess texts now s spec := by
  unfold startAttempt startProcess
  cases validateProcessSpec spec with
  | error err => rfl
  | ok _ =>
    simp only [Fault.meet]
    generalize createProcess texts s spec (initialProcessStatus now spec) = created
    obtain ⟨s₁, answer⟩ := created
    rcases answer with err | ⟨status, _ | _⟩
    · rfl
    · rfl
    · simp only [followed, if_true]
      generalize appendProcessEvent texts s₁ now _ _ = appended
      obtain ⟨s₂, answer⟩ := appended
      cases answer <;> rfl

theorem callAttempt_served (now : Time) (c : ProcessCall) (s : ProcessStore) :
    callAttempt texts c (now, {}) s = (processes texts).call now c s := by
  unfold callAttempt Handler.call
  cases hread : c.read s with
  | error err => simp [Fault.meet, processes, hread, refuse, followed]
  | ok found =>
    simp only [Fault.meet, processes, hread, refuse, followed, write]
    generalize appendProcessEvent texts s now _ _ = appended
    obtain ⟨s₁, answer⟩ := appended
    cases answer with
    | error err => rfl
    | ok _ =>
      dsimp only
      generalize updateProcessStatus s₁ _ _ = updated
      obtain ⟨s₂, answer⟩ := updated
      cases answer <;> rfl

/-- Attempts with faults, and a last one without. -/
def retried {A : Type} (operation : Attempt → ProcessStore → ProcessStore × Except Err A)
    (attempts : List Attempt) (now : Time) (s : ProcessStore) : ProcessStore × Except Err A :=
  operation (now, {}) (attempts.foldl (fun s attempt => (operation attempt s).1) s)

/-! ## Stores -/

structure ProcessStore.Sound (s : ProcessStore) : Prop where
  /-- Every spec is stored under its id, and has a status. -/
  held : ∀ {id spec}, s.records.specs id = some spec → spec.processID = id ∧
    ∃ status, processFamily.Holds s.records spec status
  /-- A start key leads to the process that was started under it. -/
  indexed : ∀ {key id}, s.records.startKeys key = some id →
    ∃ spec, s.records.specs id = some spec
  /-- A process that is not there has no events. -/
  silent : ∀ {id}, s.records.specs id = none →
    s.events id = [] ∧ ∀ key, s.eventKeys ⟨id, key⟩ = none

/-- The stores that attempts lead to. -/
inductive Reached : ProcessStore → Prop
  | new : Reached .new
  | start {s} (spec : ProcessSpec) (attempt : Attempt) (h : Reached s) :
      Reached (startAttempt texts spec attempt s).1
  | call {s} (c : ProcessCall) (attempt : Attempt) (h : Reached s) :
      Reached (callAttempt texts c attempt s).1

variable {texts} {s : ProcessStore} {now : Time} {event : ProcessEvent} {key : String}

variable {S A : Type} {s' : ProcessStore}

theorem Fault.meet_store (fault : Fault) (s : S) (r : S × Except Err A) :
    (fault.meet s r).1 = s ∨ (fault.meet s r).1 = r.1 := by
  cases fault with
  | none | lost => exact .inr rfl
  | refused => exact .inl rfl

variable (texts) in
theorem append_cases (s : ProcessStore) (now : Time) (event : ProcessEvent) (key : String) :
    (appendProcessEvent texts s now event key).1 = s ∨
      ∃ stored, s.records.specs event.processID ≠ none ∧
        (appendProcessEvent texts s now event key).1 =
          { s with
            events := update s.events event.processID
              (s.events event.processID ++ [stored])
            eventKeys := update s.eventKeys ⟨event.processID, key⟩ (some stored) } := by
  unfold appendProcessEvent
  split
  · exact .inl rfl
  unfold append
  split
  · split <;> exact .inl rfl
  split
  · exact .inl rfl
  · rename_i hspec
    exact .inr ⟨_, by rw [hspec]; nofun, rfl⟩

theorem ProcessStore.Sound.append (h : s.Sound) (now : Time) (event : ProcessEvent) (key : String) :
    (appendProcessEvent texts s now event key).1.Sound := by
  rcases append_cases texts s now event key with hsame | ⟨stored, hspec, hnew⟩
  · rw [hsame]
    exact h
  rw [hnew]
  refine ⟨h.held, h.indexed, fun {id} hnone => ?_⟩
  have hother : id ≠ event.processID := fun heq => hspec (heq ▸ hnone)
  have hkey : ∀ key', (⟨id, key'⟩ : StatusKey) ≠ ⟨event.processID, key⟩ :=
    fun _ heq => hother (congrArg StatusKey.recordID heq)
  refine ⟨?_, fun key' => ?_⟩
  · simpa only [update_of_ne hother] using (h.silent hnone).1
  · simpa only [update_of_ne (hkey key')] using (h.silent hnone).2 key'

theorem ProcessStore.Sound.update (h : s.Sound) (status : ProcessStatus) (key : String) :
    (updateProcessStatus s status key).1.Sound := by
  change Sound { s with records := (processFamily.update s.records status key).1 }
  rcases processFamily.update_cases s.records status key with hsame | ⟨spec, -, hspec, hupdate⟩
  · rw [hsame]
    exact h
  rw [hupdate]
  refine ⟨fun {id other} hother => ?_, h.indexed, h.silent⟩
  obtain ⟨hid, status', hholds⟩ := h.held hother
  refine ⟨hid, ?_⟩
  by_cases hsame : id = status.processID
  · subst hsame
    obtain rfl : other = spec := some.inj (hother.symm.trans hspec)
    refine ⟨normalizeProcessStatus other status, ?_, ?_, rfl⟩
    · exact hholds.spec_eq
    · change Function.update _ _ _ other.processID = _
      rw [hid]
      exact update_self ..
  · refine ⟨status', hholds.spec_eq, ?_, hholds.statusID⟩
    change Function.update _ status.processID _ other.processID = _
    rw [update_of_ne (hid ▸ hsame)]
    exact hholds.status_eq

theorem ProcessStore.Sound.create (h : s.Sound) (spec : ProcessSpec) (status : ProcessStatus) :
    (createProcess texts s spec status).1.Sound := by
  unfold createProcess
  split
  · exact h
  dsimp only
  rcases processFamily.create_cases (validateProcessStartIdempotency texts) s.records spec status
    with ⟨hsame, -⟩ | ⟨-, -, hclaimed⟩
  · rw [hsame]
    exact h
  rw [hclaimed]
  refine ⟨fun {id other} hother => ?_, fun {key id} hkey => ?_, fun {id} hnone => ?_⟩
  · simp only [Family.claimed, processFamily, update_apply] at hother
    split_ifs at hother with hsame
    · cases hother
      exact ⟨hsame.symm, normalizeProcessStatus spec status, by simp [Family.claimed],
        by simp [Family.claimed, processFamily], rfl⟩
    · obtain ⟨hid, status', hspec, hstatus, hstatusID⟩ := h.held hother
      have hne : other.processID ≠ spec.processID := hid ▸ hsame
      refine ⟨hid, status', ?_, ?_, hstatusID⟩
      · simpa [Family.claimed, processFamily, hne] using hspec
      · simpa [Family.claimed, processFamily, hne] using hstatus
  · simp only [Family.claimed, processFamily, update_apply] at hkey ⊢
    by_cases hsame : id = spec.processID
    · exact ⟨spec, if_pos hsame⟩
    split_ifs at hkey with hnew
    · exact absurd (some.inj hkey).symm hsame
    · rw [if_neg hsame]
      exact h.indexed hkey
  · simp only [Family.claimed, processFamily, update_apply] at hnone
    split_ifs at hnone
    exact h.silent hnone

theorem ProcessStore.Sound.meet (h : s.Sound) (fault : Fault)
    {r : ProcessStore × Except Err A} (hr : r.1.Sound) : (fault.meet s r).1.Sound := by
  rcases fault.meet_store s r with hsame | hserved
  · rw [hsame]
    exact h
  · rw [hserved]
    exact hr

theorem followed_store {B : Type} {P : S → Prop} {r : S × Except Err A}
    {rest : A → S → S × Except Err B} (hr : P r.1)
    (hrest : ∀ answer, r.2 = .ok answer → P r.1 → P (rest answer r.1).1) :
    P (followed r rest).1 := by
  obtain ⟨s, answer⟩ := r
  cases answer with
  | error err => exact hr
  | ok answer => exact hrest answer rfl hr

theorem ProcessStore.Sound.startAttempt (h : s.Sound) (spec : ProcessSpec) (attempt : Attempt) :
    (startAttempt texts spec attempt s).1.Sound := by
  unfold Platform.startAttempt
  dsimp only
  split
  · exact h
  refine followed_store (h.meet _ (h.create ..)) fun answer _ hcreated => ?_
  split_ifs
  · exact followed_store (hcreated.meet _ (hcreated.append ..)) fun _ _ happended => happended
  · exact hcreated

theorem ProcessStore.Sound.callAttempt (h : s.Sound) (c : ProcessCall) (attempt : Attempt) :
    (callAttempt texts c attempt s).1.Sound := by
  refine followed_store (h.meet _ h) fun found _ hread => ?_
  refine followed_store (hread.meet _ (hread.append ..)) fun _ _ happended => ?_
  exact followed_store (happended.meet _ (happended.update ..)) fun _ _ hupdated => hupdated

theorem Reached.sound (h : Reached texts s) : s.Sound := by
  induction h with
  | new => exact ⟨nofun, nofun, fun _ => ⟨rfl, fun _ => rfl⟩⟩
  | start spec attempt _ ih => exact ih.startAttempt spec attempt
  | call c attempt _ ih => exact ih.callAttempt c attempt

/-! ## Attempts of a call -/

def ProcessCall.time : ProcessCall → Time
  | .signal _ sent => sent.sentAt
  | .control _ req => req.requestedAt

structure ProcessCall.Callable (c : ProcessCall) (s : ProcessStore) (spec : ProcessSpec)
    (status : ProcessStatus) : Prop where
  read : c.read s = .ok (spec, status)
  holds : processFamily.Holds s.records spec status
  ref : c.ref.recordID = spec.processID
  valid : ∀ now, validateAppendProcessEventInput (c.event now spec) c.key = .ok ()
  input : ∀ now, validateUpdateProcessStatusInput (c.next now status) c.key = .ok ()
  scope : s.records.statusKeys ⟨spec.processID, c.key⟩ = none →
    ∀ now, validateProcessStatusScope (c.next now status) spec = .ok ()

variable {c : ProcessCall} {spec : ProcessSpec} {status : ProcessStatus} {e : ProcessEvent}

@[simp] theorem event_processID (now : Time) (c : ProcessCall) (spec : ProcessSpec) :
    (c.event now spec).processID = spec.processID := by
  cases c <;> rfl

@[simp] theorem next_processID (now : Time) (c : ProcessCall) (status : ProcessStatus) :
    (c.next now status).processID = status.processID := by
  cases c <;> rfl

theorem followed_ok {B : Type} {r : S × Except Err A} {rest : A → S → S × Except Err B}
    {s' : S} {b : B} (h : followed r rest = (s', .ok b)) :
    ∃ s a, r = (s, .ok a) ∧ rest a s = (s', .ok b) := by
  obtain ⟨s, answer⟩ := r
  cases answer with
  | error err => cases h
  | ok a => exact ⟨s, a, rfl, h⟩

theorem read_holds (hsound : s.Sound) (hread : c.read s = .ok (spec, status)) :
    processFamily.Holds s.records spec status ∧ c.ref.recordID = spec.processID := by
  obtain ⟨found, hrequire, hvalidated⟩ := bind_ok hread
  obtain ⟨⟨⟩, -, hsame⟩ := bind_ok hvalidated
  cases hsame
  obtain ⟨-, -, hspec, hstatus⟩ := Family.require_ok hrequire
  obtain ⟨hid, status', hholds⟩ := hsound.held hspec
  obtain rfl : status = status' := by
    rw [hstatus, ← hid, show s.records.statuses spec.processID = _ from hholds.status_eq]
    rfl
  exact ⟨hholds, hid.symm⟩

theorem appendProcessEvent_valid {stored : ProcessEvent}
    (h : appendProcessEvent texts s now event key = (s', .ok stored)) :
    validateAppendProcessEventInput event key = .ok () := by
  unfold appendProcessEvent at h
  split at h
  · cases h
  · assumption

theorem updateProcessStatus_valid {updated : ProcessStatus}
    (h : updateProcessStatus s status key = (s', .ok updated)) :
    validateUpdateProcessStatusInput status key = .ok () ∧
      (s.records.statusKeys ⟨status.processID, key⟩ = none →
        ∀ spec, s.records.specs status.processID = some spec →
          validateProcessStatusScope status spec = .ok ()) := by
  have hanswer : (processFamily.update s.records status key).2 = .ok updated := congrArg Prod.snd h
  unfold Family.update at hanswer
  split at hanswer
  · cases hanswer
  rename_i hinput
  refine ⟨hinput, fun hnone spec hspec => ?_⟩
  unfold Family.replace at hanswer
  split at hanswer
  · rename_i hkey
    exact absurd (hnone.symm.trans hkey) nofun
  split at hanswer
  · cases hanswer
  rename_i hspec'
  split at hanswer
  · cases hanswer
  · rename_i hscope
    obtain rfl := some.inj (hspec.symm.trans hspec')
    exact hscope

theorem callable_of_ok (hsound : s.Sound) (hok : callAttempt texts c (now, {}) s = (s', .ok ())) :
    ∃ spec status, c.Callable s spec status := by
  obtain ⟨s₁, ⟨spec, status⟩, hread, hok⟩ := followed_ok hok
  cases hread' : c.read s with
  | error err => rw [hread'] at hread; cases hread
  | ok found =>
    rw [hread'] at hread
    cases hread
    obtain ⟨s₂, stored, happend, hok⟩ := followed_ok hok
    obtain ⟨s₃, updated, hupdate, -⟩ := followed_ok hok
    obtain ⟨hholds, href⟩ := read_holds hsound hread'
    have hrecords : s₂.records = s.records := by
      have hkept : (appendProcessEvent texts s now (c.event now spec) c.key).1.records = _ :=
        appendProcessEvent_records ..
      rwa [show appendProcessEvent texts s now (c.event now spec) c.key = _ from happend] at hkept
    have hvalid := appendProcessEvent_valid happend
    obtain ⟨hinput, hscope⟩ := updateProcessStatus_valid hupdate
    rw [hrecords, next_processID, show status.processID = _ from hholds.statusID] at hscope
    -- the checks do not read the time
    refine ⟨spec, status, hread', hholds, href, fun _ => ?_, fun _ => ?_, fun hnone _ => ?_⟩
    · cases c <;> exact hvalid
    · cases c <;> exact hinput
    · have hscope := hscope hnone spec hholds.spec_eq
      cases c <;> exact hscope

def ProcessCall.requested (c : ProcessCall) (spec : ProcessSpec) (now : Time) (e : ProcessEvent) :
    ProcessEvent :=
  prepareProcessEvent now (c.event now spec) e.eventID e.sequence

def ProcessCall.stored (c : ProcessCall) (spec : ProcessSpec) (count : Nat) (now : Time) :
    ProcessEvent :=
  let sequence : Int := count + 1
  prepareProcessEvent now (c.event now spec)
    (spec.processID ++ "-event-" ++ toString sequence) sequence

theorem append_known (hvalid : validateAppendProcessEventInput (c.event now spec) c.key = .ok ())
    (hkey : s.eventKeys ⟨spec.processID, c.key⟩ = some e) :
    appendProcessEvent texts s now (c.event now spec) c.key =
      (s, if texts.storedEvent e = texts.event (c.requested spec now e) then .ok e
        else errorf .invalidProcess
          "process event idempotency key was reused with a different event") := by
  simp only [appendProcessEvent, hvalid, append, event_processID, hkey,
    validateProcessEventIdempotency, prepareProcessEvent, requested]
  by_cases hsame : texts.storedEvent e = texts.event (c.requested spec now e) <;>
    simp_all [requested, prepareProcessEvent]

theorem append_new (hvalid : validateAppendProcessEventInput (c.event now spec) c.key = .ok ())
    (hkey : s.eventKeys ⟨spec.processID, c.key⟩ = none)
    (hspec : s.records.specs spec.processID = some spec) :
    appendProcessEvent texts s now (c.event now spec) c.key =
      ({ s with
          events := update s.events spec.processID (s.events spec.processID ++
            [c.stored spec (s.events spec.processID).length now])
          eventKeys := update s.eventKeys ⟨spec.processID, c.key⟩
            (some (c.stored spec (s.events spec.processID).length now)) },
        .ok (c.stored spec (s.events spec.processID).length now)) := by
  simp [appendProcessEvent, hvalid, append, event_processID, hkey, hspec, stored]

def ProcessCall.applied (c : ProcessCall) (s : ProcessStore) (status : ProcessStatus)
    (now : Time) : Projections ProcessSpec ProcessStatus :=
  (processFamily.update s.records (c.next now status) c.key).1

def ProcessCall.lifecycle (c : ProcessCall) (s : ProcessStore) (spec : ProcessSpec)
    (status : ProcessStatus) : ProcessLifecycle :=
  if (s.records.statusKeys ⟨spec.processID, c.key⟩).isSome then status.lifecycleState
  else (c.next 0 status).lifecycleState

theorem next_set (h : status.lifecycleState ≠ .unset) (now : Time)
    (c : ProcessCall) : (c.next now status).lifecycleState ≠ .unset := by
  cases c with
  | signal ref sent =>
    change processLifecycleAfterSignal status.lifecycleState ≠ .unset
    unfold processLifecycleAfterSignal
    split_ifs
    · nofun
    · exact h
  | control ref req =>
    change processLifecycleAfterControl status.lifecycleState req.operation ≠ .unset
    unfold processLifecycleAfterControl
    split
    · nofun
    · nofun
    · nofun
    · exact h

theorem updateInput_iff :
    validateUpdateProcessStatusInput status key = .ok () ↔
      key ≠ "" ∧ status.processID ≠ "" ∧ status.accountID ≠ "" ∧ status.projectID ≠ "" ∧
        status.lifecycleState ≠ .unset ∧ validateResourceRef status.resource = .ok () := by
  unfold validateUpdateProcessStatusInput
  split_ifs <;> simp_all

theorem statusScope_iff :
    validateProcessStatusScope status spec = .ok () ↔
      status.accountID = spec.accountID ∧ status.projectID = spec.projectID ∧
        status.resource = spec.resource := by
  unfold validateProcessStatusScope
  split_ifs <;> simp_all

theorem next_identity (now : Time) (c : ProcessCall) (status : ProcessStatus) :
    (c.next now status).accountID = status.accountID ∧
      (c.next now status).projectID = status.projectID ∧
      (c.next now status).resource = status.resource := by
  cases c <;> exact ⟨rfl, rfl, rfl⟩

theorem input_again (hid : status.processID = spec.processID)
    (hinput : validateUpdateProcessStatusInput (c.next now status) key = .ok ())
    (hscope : validateProcessStatusScope (c.next now status) spec = .ok ()) (now' : Time) :
    validateUpdateProcessStatusInput
      (c.next now' (normalizeProcessStatus spec (c.next now status))) key = .ok () := by
  rw [updateInput_iff] at hinput ⊢
  rw [statusScope_iff] at hscope
  obtain ⟨hkey, hprocess, haccount, hproject, hstate, hresource⟩ := hinput
  obtain ⟨hsameAccount, hsameProject, hsameResource⟩ := hscope
  obtain ⟨haccount', hproject', hresource'⟩ :=
    next_identity now' c (normalizeProcessStatus spec (c.next now status))
  rw [hsameAccount] at haccount
  rw [hsameProject] at hproject
  rw [hsameResource] at hresource
  rw [next_processID, haccount', hproject', hresource']
  refine ⟨hkey, ?_, haccount, hproject, next_set ?_ now' c, hresource⟩
  · rw [next_processID, hid] at hprocess
    exact hprocess
  · simp [normalizeProcessStatus, hstate]

theorem ProcessCall.Callable.applied (h : c.Callable s spec status) (now : Time) :
    ∃ prepared status', processFamily.update s.records (c.next now status) c.key =
        (c.applied s status now, .ok prepared) ∧
      processFamily.Holds (c.applied s status now) spec status' ∧
      status'.lifecycleState = c.lifecycle s spec status ∧
      ∀ now', ∃ again, processFamily.update (c.applied s status now) (c.next now' status') c.key =
        (c.applied s status now, .ok again) := by
  have hstatusID : ∀ now', processFamily.statusID (c.next now' status) = spec.processID :=
    fun now' => (next_processID now' c status).trans h.holds.statusID
  cases hkey : s.records.statusKeys ⟨spec.processID, c.key⟩ with
  | some existing =>
    have hupdate : ∀ now', processFamily.update s.records (c.next now' status) c.key =
        (s.records, .ok existing) := fun now' =>
      Family.update_replayed (h.input now') (by rw [hstatusID now']; exact hkey)
    have happlied : c.applied s status now = s.records := congrArg Prod.fst (hupdate now)
    rw [happlied, lifecycle, hkey]
    exact ⟨existing, status, hupdate now, h.holds, rfl, fun now' => ⟨existing, hupdate now'⟩⟩
  | none =>
    have hscope := h.scope hkey now
    have hupdate : processFamily.update s.records (c.next now status) c.key =
        (Family.stored s.records ⟨spec.processID, c.key⟩
          (normalizeProcessStatus spec (c.next now status)),
          .ok (normalizeProcessStatus spec (c.next now status))) := by
      have hstores := Family.update_stores (h.input now) (by rw [hstatusID now]; exact hkey)
        (by rw [hstatusID now]; exact h.holds.spec_eq) hscope
      rwa [hstatusID now] at hstores
    have happlied : c.applied s status now = Family.stored s.records ⟨spec.processID, c.key⟩
        (normalizeProcessStatus spec (c.next now status)) := congrArg Prod.fst hupdate
    rw [happlied]
    refine ⟨_, _, hupdate, ⟨h.holds.spec_eq, update_self .., rfl⟩, ?_, fun now' => ?_⟩
    · have hset := (updateInput_iff.mp (h.input now)).2.2.2.2.1
      rw [lifecycle, hkey]
      simp only [normalizeProcessStatus, hset, if_false, isSome_none, Bool.false_eq_true]
      cases c <;> rfl
    · have hagainID : processFamily.statusID
          (c.next now' (normalizeProcessStatus spec (c.next now status))) = spec.processID :=
        next_processID ..
      refine ⟨normalizeProcessStatus spec (c.next now status), Family.update_replayed
        (input_again h.holds.statusID (h.input now) hscope now') ?_⟩
      rw [hagainID]
      exact update_self ..

/-- What attempts of a call have left of the store `s₀`: the event `o` under its key, and the
records as they were or as the call writes them. -/
structure Progress (s₀ : ProcessStore) (c : ProcessCall) (spec : ProcessSpec)
    (status : ProcessStatus) (o : Option ProcessEvent) (s : ProcessStore) : Prop where
  key : s.eventKeys ⟨spec.processID, c.key⟩ = o
  kept : ∀ e, s₀.eventKeys ⟨spec.processID, c.key⟩ = some e → o = some e
  events : s.events spec.processID = s₀.events spec.processID ++
    if (s₀.eventKeys ⟨spec.processID, c.key⟩).isSome then [] else o.toList
  records : s.records = s₀.records ∨ (o.isSome ∧ ∃ now, s.records = c.applied s₀ status now)

variable {s₀ : ProcessStore} {o : Option ProcessEvent} {faults : Faults}

theorem Progress.update (h : Progress s₀ c spec status (some e) s) (now : Time) :
    Progress s₀ c spec status (some e) { s with records := c.applied s₀ status now } :=
  ⟨h.key, h.kept, h.events, .inr ⟨rfl, now, rfl⟩⟩

section Callable

variable (h : Progress s₀ c spec status o s) (hc : c.Callable s₀ spec status)

include h hc

theorem Progress.reads :
    ∃ status', c.read s = .ok (spec, status') ∧ s.records.specs spec.processID = some spec ∧
      ∀ now, ∃ again now', processFamily.update s.records (c.next now status') c.key =
        (c.applied s₀ status now', .ok again) := by
  obtain ⟨found, hrequire, hvalidated⟩ := bind_ok hc.read
  obtain ⟨⟨⟩, hvalidate, hsame⟩ := bind_ok hvalidated
  cases hsame
  have hread : ∀ {status'}, processFamily.Holds s.records spec status' →
      c.read s = .ok (spec, status') := by
    intro status' hholds
    unfold ProcessCall.read
    rw [hholds.require_again hrequire hc.ref]
    simp [bind, Except.bind, hvalidate]
  rcases h.records with hsame | ⟨-, now₀, hsame⟩
  · rw [hsame] at hread
    refine ⟨status, hread hc.holds, hsame ▸ hc.holds.spec_eq, fun now => ?_⟩
    obtain ⟨prepared, -, hupdate, -⟩ := hc.applied now
    exact ⟨prepared, now, hsame ▸ hupdate⟩
  · obtain ⟨-, status', -, hholds, -, hagain⟩ := hc.applied now₀
    rw [hsame] at hread
    refine ⟨status', hread hholds, hsame ▸ hholds.spec_eq, fun now => ?_⟩
    obtain ⟨again, hupdate⟩ := hagain now
    exact ⟨again, now₀, hsame ▸ hupdate⟩

def ProcessCall.storedBy (c : ProcessCall) (s₀ : ProcessStore) (spec : ProcessSpec) (now : Time) :
    ProcessEvent :=
  c.stored spec (s₀.events spec.processID).length now

theorem Progress.append (now : Time) :
    Progress s₀ c spec status (o.or (some (c.storedBy s₀ spec now)))
      (appendProcessEvent texts s now (c.event now spec) c.key).1 := by
  obtain ⟨-, -, hspec, -⟩ := h.reads hc
  cases ho : o with
  | some e =>
    subst ho
    rw [append_known (hc.valid now) h.key]
    exact h
  | none =>
    subst ho
    have hcount : s.events spec.processID = s₀.events spec.processID := by
      rw [h.events]
      split <;> simp
    have hfresh : s₀.eventKeys ⟨spec.processID, c.key⟩ = none :=
      eq_none_iff_forall_not_mem.mpr fun e he => nomatch h.kept e he
    rw [append_new (hc.valid now) h.key hspec, hcount]
    refine ⟨update_self .., ?_, ?_, ?_⟩
    · rw [hfresh]
      nofun
    · simp [hfresh, storedBy]
    · rcases h.records with hsame | ⟨hsome, -⟩
      · exact .inl hsame
      · cases hsome

def ProcessCall.commits (c : ProcessCall) (s₀ : ProcessStore) (spec : ProcessSpec)
    (attempt : Attempt) : Option ProcessEvent :=
  if attempt.2.get = .none ∧ attempt.2.append ≠ .refused then some (c.storedBy s₀ spec attempt.1)
  else none

theorem Progress.writes {status' : ProcessStatus} (hstatus : ∃ again now',
      processFamily.update s.records (c.next now status') c.key =
        (c.applied s₀ status now', .ok again)) (fault : Fault) :
    Progress s₀ c spec status (o.or (some (c.storedBy s₀ spec now)))
      (followed (appendProcessEvent texts s now (c.event now spec) c.key) fun _ s =>
        followed (fault.meet s (updateProcessStatus s (c.next now status') c.key))
          fun _ s => (s, .ok ())).1 := by
  have happend : Progress s₀ c spec status (o.or (some (c.storedBy s₀ spec now)))
    (appendProcessEvent texts s now (c.event now spec) c.key).1 := h.append hc now
  have hrecords : (appendProcessEvent texts s now (c.event now spec) c.key).1.records = s.records :=
    appendProcessEvent_records ..
  generalize appendProcessEvent texts s now (c.event now spec) c.key = appended at happend hrecords
  obtain ⟨s₁, answer⟩ := appended
  cases answer with
  | error err => exact happend
  | ok stored =>
    obtain ⟨again, now', hupdate⟩ := hstatus
    have hupdated : updateProcessStatus s₁ (c.next now status') c.key =
        ({ s₁ with records := c.applied s₀ status now' }, .ok again) := by
      unfold updateProcessStatus
      rw [hrecords, hupdate]
    obtain ⟨e, he⟩ : ∃ e, o.or (some (c.storedBy s₀ spec now)) = some e := by
      cases o <;> exact ⟨_, rfl⟩
    rw [he] at happend ⊢
    simp only [followed, hupdated]
    cases fault with
    | none | lost => exact happend.update now'
    | refused => exact happend

variable (texts)

theorem Progress.attempt (attempt : Attempt) :
    Progress s₀ c spec status (o.or (c.commits s₀ spec attempt))
      (callAttempt texts c attempt s).1 := by
  obtain ⟨now, ⟨create, get, append, update, statusFault⟩⟩ := attempt
  obtain ⟨status', hread, -, hupdate⟩ := h.reads hc
  -- an attempt that does not commit its append leaves the store
  have hidle : Progress s₀ c spec status (o.or none) s := by
    rw [or_none]
    exact h
  cases get with
  | refused | lost => exact hidle
  | none =>
    simp only [callAttempt, Fault.meet, hread, followed]
    cases append with
    | refused => exact hidle
    | lost => exact h.append hc now
    | none => exact h.writes hc (hupdate now) update

theorem Progress.attempts (attempts : List Attempt) :
    Progress s₀ c spec status (o.or (attempts.findSome? (c.commits s₀ spec)))
      (attempts.foldl (fun s attempt => (callAttempt texts c attempt s).1) s) := by
  induction attempts generalizing o s with
  | nil =>
    rw [findSome?_nil, or_none]
    exact h
  | cons attempt rest ih =>
    have hrest := ih (h.attempt texts hc attempt)
    rw [Option.or_assoc] at hrest
    rw [findSome?_cons]
    cases hcommits : c.commits s₀ spec attempt with
    | some e | none =>
      rw [hcommits] at hrest
      exact hrest

theorem Progress.settled (now : Time) :
    ((callAttempt texts c (now, {}) s).2 = .ok () ↔
      ∀ e, o = some e → texts.storedEvent e = texts.event (c.requested spec now e)) ∧
    ((callAttempt texts c (now, {}) s).2 = .ok () →
      ∃ now', (callAttempt texts c (now, {}) s).1.records = c.applied s₀ status now') := by
  obtain ⟨status', hread, hspec, hupdate⟩ := h.reads hc
  obtain ⟨again, now', hupdate⟩ := hupdate now
  simp only [callAttempt, Fault.meet, hread, followed]
  cases o with
  | some e =>
    rw [append_known (hc.valid now) h.key]
    by_cases hsame : texts.storedEvent e = texts.event (c.requested spec now e)
    · simp only [hsame, if_true, updateProcessStatus, hupdate]
      exact ⟨⟨fun _ e' he => by cases he; exact hsame, fun _ => trivial⟩, fun _ => ⟨now', rfl⟩⟩
    · simp only [hsame, if_false]
      exact ⟨⟨by rintro ⟨⟩, fun hall => absurd (hall e rfl) hsame⟩, by rintro ⟨⟩⟩
  | none =>
    rw [append_new (hc.valid now) h.key hspec]
    simp only [updateProcessStatus, hupdate]
    exact ⟨⟨by rintro _ _ ⟨⟩, fun _ => trivial⟩, fun _ => ⟨now', rfl⟩⟩

end Callable

/-! ## Calls that are repeated -/

/-- The lifecycle state that the index holds for a process. -/
def ProcessStore.lifecycleAt (s : ProcessStore) (id : String) : Option ProcessLifecycle :=
  (s.records.statuses id).map ProcessStatus.lifecycleState

/-- An operation that was repeated succeeds and leaves the state that one operation leaves. -/
def Converges {A : Type} (id : String) (once repeated : ProcessStore × Except Err A) : Prop :=
  repeated.2.isOk = true ∧ repeated.1.lifecycleAt id = once.1.lifecycleAt id

/-- There is one event under the key, and no other event is new. -/
def StoredOnce (s s' : ProcessStore) (key : StatusKey) : Prop :=
  ∃ e, s'.eventKeys key = some e ∧
    s'.events key.recordID = s.events key.recordID ++ if (s.eventKeys key).isSome then [] else [e]

def Attempt.appends (attempt : Attempt) : Bool :=
  attempt.2.get = .none && attempt.2.append ≠ .refused

section Steady

variable {Text : Type} (texts : ProcessTexts Text)

/-- The event was there before, or the first attempt that stores it has the time of the last one,
by the caller or by the clock, and the event has the same text when it is read back. -/
def ProcessCall.Steady (c : ProcessCall) (s : ProcessStore) (attempts : List Attempt)
    (now : Time) : Prop :=
  (s.eventKeys ⟨c.ref.recordID, c.key⟩).isSome = true ∨
    ∀ first, attempts.find? Attempt.appends = some first → (c.time.isZero = false ∨ first.1 = now) ∧
        ∀ spec, s.records.specs c.ref.recordID = some spec →
          texts.storedEvent (c.storedBy s spec first.1) = texts.event (c.storedBy s spec first.1)

/-- An event that is read back with the text of another one has its time. -/
def ProcessTexts.KeepsTimes : Prop :=
  ∀ e e', texts.storedEvent e = texts.event e' → e.timestamp = e'.timestamp

end Steady

theorem findSome_commits (c : ProcessCall) (s : ProcessStore) (spec : ProcessSpec)
    (attempts : List Attempt) :
    attempts.findSome? (c.commits s spec) =
      (attempts.find? Attempt.appends).map fun first => c.storedBy s spec first.1 := by
  induction attempts with
  | nil => rfl
  | cons attempt rest ih =>
    rw [findSome?_cons, find?_cons, ih, commits]
    by_cases happends : attempt.2.get = .none ∧ attempt.2.append ≠ .refused
    · rw [if_pos happends, show attempt.appends = true by simpa [Attempt.appends] using happends]
      rfl
    · rw [if_neg happends, show attempt.appends = false by simpa [Attempt.appends] using happends]

theorem requested_storedBy {first : Time} (h : c.time.isZero = false ∨ first = now) :
    c.requested spec now (c.storedBy s spec first) = c.storedBy s spec first := by
  obtain hgiven | rfl := h
  · cases c <;> simp [storedBy, stored, requested,
      prepareProcessEvent, event, processEvent, orNow, time] at hgiven ⊢ <;>
      simp [hgiven]
  · rfl

theorem time_of_requested {first : Time} (h : (c.storedBy s spec first).timestamp =
    (c.requested spec now (c.storedBy s spec first)).timestamp) :
    c.time.isZero = false ∨ first = now := by
  cases c <;> simp [storedBy, stored, requested,
    prepareProcessEvent, event, processEvent, orNow, time] at h ⊢ <;>
    grind

omit [DecidableEq Text] in
theorem storedEvent_iff (htexts : texts.KeepsTimes) (first now : Time) :
    texts.storedEvent (c.storedBy s spec first) =
        texts.event (c.requested spec now (c.storedBy s spec first)) ↔
      (c.time.isZero = false ∨ first = now) ∧
        texts.storedEvent (c.storedBy s spec first) = texts.event (c.storedBy s spec first) := by
  constructor
  · intro hsame
    have htime := time_of_requested (htexts _ _ hsame)
    rw [requested_storedBy htime] at hsame
    exact ⟨htime, hsame⟩
  · rintro ⟨htime, hsame⟩
    rw [requested_storedBy htime]
    exact hsame

theorem Progress.begun (s : ProcessStore) (c : ProcessCall) (spec : ProcessSpec)
    (status : ProcessStatus) :
    Progress s c spec status (s.eventKeys ⟨spec.processID, c.key⟩) s where
  key := rfl
  kept _ he := he
  events := by
    cases s.eventKeys ⟨spec.processID, c.key⟩ <;> simp
  records := .inl rfl

theorem ProcessCall.Callable.lifecycleAt (hc : c.Callable s₀ spec status)
    (h : s'.records = c.applied s₀ status now) :
    s'.lifecycleAt spec.processID = some (c.lifecycle s₀ spec status) := by
  obtain ⟨-, status', -, hholds, hstate, -⟩ := hc.applied now
  unfold ProcessStore.lifecycleAt
  rw [h, show (c.applied s₀ status now).statuses spec.processID = _ from hholds.status_eq,
    map_some, hstate]

theorem isOk_unit {answer : Except Err Unit} : answer.isOk = true ↔ answer = .ok () := by
  cases answer with
  | error err => exact ⟨nofun, nofun⟩
  | ok _ => exact ⟨fun _ => rfl, fun _ => rfl⟩

theorem steady_iff (hc : c.Callable s spec status) (htexts : texts.KeepsTimes)
    (attempts : List Attempt) (hok : (callAttempt texts c (now, {}) s).2 = .ok ()) :
    (∀ e, (s.eventKeys ⟨spec.processID, c.key⟩).or (attempts.findSome? (c.commits s spec)) = some e →
      texts.storedEvent e = texts.event (c.requested spec now e)) ↔
        c.Steady texts s attempts now := by
  have honce := ((Progress.begun s c spec status).settled texts hc now).1.mp hok
  rw [Steady, hc.ref, findSome_commits]
  cases hkey : s.eventKeys ⟨spec.processID, c.key⟩ with
  | some e => exact ⟨fun _ => .inl rfl, fun _ e' he => honce e' (hkey.trans he)⟩
  | none =>
    cases attempts.find? Attempt.appends with
    | none => simp
    | some first =>
      have hspec : s.records.specs spec.processID = some spec := hc.holds.spec_eq
      simp [storedEvent_iff htexts, hspec]

theorem call_retried (hsound : s.Sound) (htexts : texts.KeepsTimes) (attempts : List Attempt)
    (hok : (callAttempt texts c (now, {}) s).2 = .ok ()) :
    (Converges c.ref.recordID (callAttempt texts c (now, {}) s)
        (retried (callAttempt texts c) attempts now s) ∧
      StoredOnce s (retried (callAttempt texts c) attempts now s).1 ⟨c.ref.recordID, c.key⟩) ↔
    c.Steady texts s attempts now := by
  obtain ⟨spec, status, hc⟩ := callable_of_ok hsound (Prod.ext rfl hok)
  have hbegun := Progress.begun s c spec status
  have hprogress := hbegun.attempts texts hc attempts
  rw [← steady_iff hc htexts attempts hok, hc.ref, retried]
  generalize attempts.foldl _ s = s' at hprogress ⊢
  obtain ⟨hsettled, hrecords⟩ := hprogress.settled texts hc now
  rw [← hsettled]
  constructor
  · rintro ⟨⟨hrepeated, -⟩, -⟩
    exact isOk_unit.mp hrepeated
  intro hrepeated
  obtain ⟨now₁, hrecords⟩ := hrecords hrepeated
  obtain ⟨now₀, hrecords₀⟩ := (hbegun.settled texts hc now).2 hok
  refine ⟨⟨isOk_unit.mpr hrepeated, ?_⟩, ?_⟩
  · rw [hc.lifecycleAt hrecords, hc.lifecycleAt hrecords₀]
  have hlast := hprogress.attempt texts hc (now, {})
  obtain ⟨e, he⟩ : ∃ e, ((s.eventKeys ⟨spec.processID, c.key⟩).or
      (attempts.findSome? (c.commits s spec))).or (c.commits s spec (now, {})) = some e := by
    cases (s.eventKeys _).or _ <;> exact ⟨_, rfl⟩
  rw [he] at hlast
  exact ⟨e, hlast.key, hlast.events⟩

theorem statusProcess_ok (hc : c.Callable s₀ spec status)
    (h : s'.records = c.applied s₀ status now) :
    ∃ status', statusProcess s' c.ref = .ok status' := by
  obtain ⟨found, hrequire, hvalidated⟩ := bind_ok hc.read
  obtain ⟨⟨⟩, -, hsame⟩ := bind_ok hvalidated
  cases hsame
  obtain ⟨-, status', -, hholds, -, -⟩ := hc.applied now
  refine ⟨status', ?_⟩
  unfold statusProcess
  rw [h, hholds.require_again hrequire hc.ref]
  rfl

theorem activityAttempt_store (a : ProcessActivity) (attempt : Attempt) (s : ProcessStore) :
    (activityAttempt texts a attempt s).1 = (callAttempt texts a.call attempt s).1 := by
  unfold activityAttempt
  generalize callAttempt texts a.call attempt s = r
  obtain ⟨s', answer⟩ := r
  cases answer with
  | error err => rfl
  | ok _ =>
    rcases attempt.2.status.meet_store s' (s', statusProcess s' a.call.ref) with h | h <;> exact h

theorem activityAttempt_isOk (hsound : s.Sound) (a : ProcessActivity) (now : Time) :
    (activityAttempt texts a (now, {}) s).2.isOk = true ↔
      (callAttempt texts a.call (now, {}) s).2 = .ok () := by
  cases hcall : callAttempt texts a.call (now, {}) s with
  | mk s' answer =>
    unfold activityAttempt
    rw [hcall]
    cases answer with
    | error err => exact ⟨nofun, nofun⟩
    | ok _ =>
      obtain ⟨spec, status, hc⟩ := callable_of_ok hsound hcall
      obtain ⟨now', hrecords⟩ := ((Progress.begun s _ spec status).settled texts hc now).2
        (congrArg Prod.snd hcall)
      rw [hcall] at hrecords
      obtain ⟨status', hstatus⟩ := statusProcess_ok hc hrecords
      simp [followed, Fault.meet, hstatus, isOk, Except.toBool]

theorem activity_retried {a : ProcessActivity} (hsound : s.Sound) (htexts : texts.KeepsTimes)
    (attempts : List Attempt) (hok : (activityAttempt texts a (now, {}) s).2.isOk = true) :
    (Converges a.call.ref.recordID (activityAttempt texts a (now, {}) s)
        (retried (activityAttempt texts a) attempts now s) ∧
      StoredOnce s (retried (activityAttempt texts a) attempts now s).1
        ⟨a.call.ref.recordID, a.call.key⟩) ↔
    a.call.Steady texts s attempts now := by
  rw [← call_retried hsound htexts attempts ((activityAttempt_isOk hsound a now).mp hok)]
  have hsound' : ∀ (attempts : List Attempt) (s : ProcessStore), s.Sound →
      (attempts.foldl (fun s attempt => (callAttempt texts a.call attempt s).1) s).Sound := by
    intro attempts
    induction attempts with
    | nil => exact fun _ h => h
    | cons attempt rest ih => exact fun _ h => ih _ (h.callAttempt a.call attempt)
  have hlast := hsound' attempts s hsound
  simp only [retried, Converges, activityAttempt_store] at hlast ⊢
  rw [activityAttempt_isOk hlast, isOk_unit]

/-! ## Starts that are repeated -/

/-- The number of `process.started` events of a process. -/
def ProcessStore.starts (s : ProcessStore) (id : String) : Nat :=
  (s.events id).countP fun e => e.eventType = .processStarted

def Attempt.creates (attempt : Attempt) : Bool := attempt.2.create ≠ .refused

/-- The process has its started event, or it is not there, the first attempt that creates it goes
on to append the event, and the spec has the same text when it is read back. -/
def StartsSteadily {Text : Type} (texts : ProcessTexts Text) (s : ProcessStore)
    (spec : ProcessSpec) (attempts : List Attempt) : Prop :=
  match s.records.specs spec.processID with
  | some _ => s.starts spec.processID = 1
  | none => ∀ first, attempts.find? Attempt.creates = some first →
      (first.2.create = .none ∧ first.2.append ≠ .refused) ∧ texts.storedSpec spec = texts.spec spec

structure Started (spec : ProcessSpec) (count : Nat) (s : ProcessStore) : Prop where
  spec_eq : s.records.specs spec.processID = some spec
  indexed : s.records.startKeys (processFamily.startKey spec) = some spec.processID
  running : s.lifecycleAt spec.processID = some .running
  starts : s.starts spec.processID = count

variable {count : Nat}

section Valid

variable (hvalid : validateProcessSpec spec = .ok ())

include hvalid

theorem createInput_ok (now : Time) :
    validateCreateProcessInput spec (initialProcessStatus now spec) = .ok () := by
  simp [validateCreateProcessInput, hvalid, initialProcessStatus, bind, Except.bind]

theorem startedEvent_ok (now : Time) (status : ProcessStatus) :
    validateAppendProcessEventInput (processStartedEvent now spec status) spec.idempotencyKey =
      .ok () := by
  obtain ⟨⟨⟩, hidentity, -⟩ := bind_ok hvalid
  unfold validateProcessStartIdentity at hidentity
  split_ifs at hidentity with hprocess hkind haccount hproject hkey hresourceAccount
    hresourceProject
  all_goals obtain ⟨⟨⟩, hresource, hscope⟩ := bind_ok hidentity
  · cases hscope
  · cases hscope
  · simp_all [validateAppendProcessEventInput, processStartedEvent, processEvent, processFamily,
      RecordRef.validate, bind]

variable (texts)

/-- A start that is repeated is answered, or refused since its spec is not read back as it was. -/
theorem Started.repeated (h : Started spec count s) (now : Time) :
    (startAttempt texts spec (now, {}) s).1 = s ∧
      ((startAttempt texts spec (now, {}) s).2.isOk = true ↔
        texts.storedSpec spec = texts.spec spec) := by
  simp only [startAttempt, hvalid, createProcess, createInput_ok hvalid now, Family.create,
    h.indexed, h.spec_eq, getD_some, validateProcessStartIdempotency, ne_eq, not_true_eq_false,
    if_false]
  by_cases hsame : texts.storedSpec spec = texts.spec spec <;>
    simp [hsame, bind, Except.bind, Fault.meet, followed, isOk, Except.toBool]

theorem startAttempt_creates (hsound : s.Sound)
    (hkey : s.records.startKeys (processFamily.startKey spec) = none)
    (hspec : s.records.specs spec.processID = none) (attempt : Attempt)
    (hcreates : attempt.creates = true) :
    Started spec (if attempt.2.create = .none ∧ attempt.2.append ≠ .refused then 1 else 0)
      (startAttempt texts spec attempt s).1 := by
  obtain ⟨now, faults⟩ := attempt
  obtain ⟨hevents, hkeys⟩ := hsound.silent hspec
  let status := normalizeProcessStatus spec (initialProcessStatus now spec)
  let s₁ : ProcessStore := { s with records := processFamily.claimed s.records spec status }
  have hclaimed : createProcess texts s spec (initialProcessStatus now spec) =
      (s₁, .ok (status, true)) := by
    simp only [createProcess, createInput_ok hvalid now, Family.create, hkey]
    rw [show s.records.specs (processFamily.recordID spec) = none from hspec]
    rfl
  have hstarted : Started spec 0 s₁ := ⟨update_self .., update_self .., by
      simp [lifecycleAt, s₁, Family.claimed, processFamily, status,
        normalizeProcessStatus, initialProcessStatus], by
      simp [starts, s₁, hevents]⟩
  have hannounced : Started spec 1 (appendProcessEvent texts s₁ now
      (processStartedEvent now spec status) spec.idempotencyKey).1 := by
    have hfound : s₁.records.specs spec.processID = some spec := hstarted.spec_eq
    rw [appendProcessEvent, startedEvent_ok hvalid]
    simp only [append, processStartedEvent, processEvent, hfound,
      show s₁.eventKeys ⟨spec.processID, _⟩ = none from hkeys _]
    refine ⟨hstarted.spec_eq, hstarted.indexed, hstarted.running, ?_⟩
    simp [starts, s₁, hevents, prepareProcessEvent]
  obtain ⟨create, get, append, update, statusFault⟩ := faults
  simp only [startAttempt, hvalid, hclaimed]
  cases create with
  | refused => cases hcreates
  | lost => exact hstarted
  | none =>
    simp only [Fault.meet, followed, if_true]
    cases append with
    | refused => exact hstarted
    | lost => exact hannounced
    | none =>
      generalize appendProcessEvent texts s₁ now _ _ = appended at hannounced
      obtain ⟨s₂, answer⟩ := appended
      cases answer <;> exact hannounced

section Known

variable {existing : ProcessSpec} (hspec : s.records.specs spec.processID = some existing)

include hspec

theorem createProcess_known :
    ∃ answer, (∀ status, answer ≠ .ok (status, true)) ∧
      ∀ now, createProcess texts s spec (initialProcessStatus now spec) = (s, answer) := by
  simp only [createProcess, createInput_ok hvalid, Family.create]
  cases s.records.startKeys (processFamily.startKey spec) with
  | some id => exact ⟨_, fun _ => Family.replay_not_created, fun _ => rfl⟩
  | none =>
    rw [show s.records.specs (processFamily.recordID spec) = some existing from hspec]
    exact ⟨_, fun _ => Family.replay_not_created, fun _ => rfl⟩

theorem startAttempt_known (attempt : Attempt) : (startAttempt texts spec attempt s).1 = s := by
  obtain ⟨now, faults⟩ := attempt
  obtain ⟨answer, hold, hcreate⟩ := createProcess_known texts hvalid hspec
  simp only [startAttempt, hvalid, hcreate]
  cases faults.create with
  | refused | lost => rfl
  | none =>
    rcases answer with err | ⟨status, _ | _⟩
    · rfl
    · rfl
    · exact absurd rfl (hold status)

theorem attempts_known (attempts : List Attempt) :
    attempts.foldl (fun s attempt => (startAttempt texts spec attempt s).1) s = s := by
  induction attempts with
  | nil => rfl
  | cons attempt rest ih =>
    rw [foldl_cons, startAttempt_known texts hvalid hspec attempt]
    exact ih

end Known

theorem attempts_creates (hsound : s.Sound)
    (hkey : s.records.startKeys (processFamily.startKey spec) = none)
    (hspec : s.records.specs spec.processID = none) (attempts : List Attempt) :
    match attempts.find? Attempt.creates with
    | none => attempts.foldl (fun s attempt => (startAttempt texts spec attempt s).1) s = s
    | some first =>
        Started spec (if first.2.create = .none ∧ first.2.append ≠ .refused then 1 else 0)
          (attempts.foldl (fun s attempt => (startAttempt texts spec attempt s).1) s) := by
  induction attempts with
  | nil => rfl
  | cons attempt rest ih =>
    rw [find?_cons, foldl_cons]
    cases hcreates : attempt.creates with
    | true =>
      have hstarted := startAttempt_creates texts hvalid hsound hkey hspec attempt hcreates
      rw [attempts_known texts hvalid hstarted.spec_eq rest]
      exact hstarted
    | false =>
      have hidle : (startAttempt texts spec attempt s).1 = s := by
        have hrefused : attempt.2.create = .refused := by simpa [Attempt.creates] using hcreates
        simp [startAttempt, hvalid, hrefused, Fault.meet, followed]
      rw [hidle]
      exact ih

end Valid

theorem startKey_free (hsound : s.Sound) (hspec : s.records.specs spec.processID = none)
    (hok : (startProcess texts now s spec).2.isOk = true) :
    s.records.startKeys (processFamily.startKey spec) = none := by
  cases hkey : s.records.startKeys (processFamily.startKey spec) with
  | none => rfl
  | some id =>
    obtain ⟨other, hother⟩ := hsound.indexed hkey
    have hid := (hsound.held hother).1
    have hdifferent : other.processID ≠ spec.processID := by
      intro hsame
      rw [← hid, hsame, hspec] at hother
      cases hother
    exfalso
    unfold startProcess createProcess at hok
    simp only [Family.create, hkey, hother, getD_some, validateProcessStartIdempotency,
      hdifferent, ne_eq, not_false_eq_true, if_true, bind] at hok
    split at hok
    · cases hok
    split at hok
    · cases hok
    all_goals
      rename_i heq
      split at heq <;> cases heq

theorem start_retried (hsound : s.Sound) (attempts : List Attempt)
    (hok : (startProcess texts now s spec).2.isOk = true) :
    (Converges spec.processID (startProcess texts now s spec)
        (retried (startAttempt texts spec) attempts now s) ∧
      (retried (startAttempt texts spec) attempts now s).1.starts spec.processID = 1) ↔
    StartsSteadily texts s spec attempts := by
  have hvalid : validateProcessSpec spec = .ok () := by
    unfold startProcess at hok
    split at hok
    · cases hok
    · assumption
  unfold StartsSteadily retried
  cases hspec : s.records.specs spec.processID with
  | some existing =>
    have hstore : (startProcess texts now s spec).1 = s := startAttempt_served texts now spec s ▸
      startAttempt_known texts hvalid hspec (now, {})
    rw [attempts_known texts hvalid hspec, startAttempt_served, hstore]
    exact ⟨fun h => h.2, fun h => ⟨⟨hok, rfl⟩, h⟩⟩
  | none =>
    have hkey := startKey_free hsound hspec hok
    have honce : Started spec 1 (startProcess texts now s spec).1 :=
      startAttempt_served texts now spec s ▸
        startAttempt_creates texts hvalid hsound hkey hspec (now, {}) rfl
    have hattempts := attempts_creates texts hvalid hsound hkey hspec attempts
    cases hfirst : attempts.find? Attempt.creates with
    | none =>
      rw [hfirst] at hattempts
      rw [hattempts, startAttempt_served]
      exact ⟨fun _ => nofun, fun _ => ⟨⟨hok, rfl⟩, honce.starts⟩⟩
    | some first =>
      rw [hfirst] at hattempts
      generalize attempts.foldl _ s = s' at hattempts ⊢
      obtain ⟨hstore, hanswer⟩ := hattempts.repeated texts hvalid now
      rw [Converges, hstore, hattempts.starts, hattempts.running, honce.running, hanswer]
      by_cases happended : first.2.create = .none ∧ first.2.append ≠ .refused <;> simp [happended]

/-- A start, a call and an activity that succeed when no store call fails, repeated with any
faults until none is met, succeed with the state and the one event that one attempt leaves, if
and only if their attempts are steady. -/
theorem operations_retried (hreached : Reached texts s) (htexts : texts.KeepsTimes)
    (attempts : List Attempt) (now : Time) :
    (∀ spec, (startProcess texts now s spec).2.isOk = true →
      ((Converges spec.processID (startProcess texts now s spec)
          (retried (startAttempt texts spec) attempts now s) ∧
        (retried (startAttempt texts spec) attempts now s).1.starts spec.processID = 1) ↔
      StartsSteadily texts s spec attempts)) ∧
    (∀ c, ((processes texts).call now c s).2 = .ok () →
      ((Converges c.ref.recordID ((processes texts).call now c s)
          (retried (callAttempt texts c) attempts now s) ∧
        StoredOnce s (retried (callAttempt texts c) attempts now s).1 ⟨c.ref.recordID, c.key⟩) ↔
      c.Steady texts s attempts now)) ∧
    ∀ a, (activityAttempt texts a (now, {}) s).2.isOk = true →
      ((Converges a.call.ref.recordID (activityAttempt texts a (now, {}) s)
          (retried (activityAttempt texts a) attempts now s) ∧
        StoredOnce s (retried (activityAttempt texts a) attempts now s).1
          ⟨a.call.ref.recordID, a.call.key⟩) ↔
      a.call.Steady texts s attempts now) := by
  have hsound := hreached.sound
  refine ⟨fun spec hok => start_retried hsound attempts hok, fun c hok => ?_,
    fun a hok => activity_retried hsound htexts attempts hok⟩
  rw [← callAttempt_served] at hok ⊢
  exact call_retried hsound htexts attempts hok

end Attempts

/-- Texts that keep the times. -/
def clockTexts : ProcessTexts Time where
  spec _ := 0
  event := ProcessEvent.timestamp

/-- The process after its start. -/
def clockStore : ProcessStore := (startProcess clockTexts 1 .new orderProcess).1

/-- A timer of the process. -/
def orderTimer : ProcessActivity :=
  .fireTimer ⟨"p", "acc", "prj"⟩ { timerID := "due", afterSeconds := 5 } "1970-01-01T00:00:05Z"

/-- A pause whose time the caller gave. -/
def orderPause : ProcessCall :=
  .control ⟨"p", "acc", "prj"⟩ { operation := .pause, idempotencyKey := "k", requestedAt := 7 }

theorem operations_retried_pause :
    Converges "p" ((processes clockTexts).call 9 orderPause clockStore)
        (retried (callAttempt clockTexts orderPause) [(8, { update := .refused })] 9 clockStore) ∧
      StoredOnce clockStore
        (retried (callAttempt clockTexts orderPause) [(8, { update := .refused })] 9 clockStore).1
        ⟨"p", "k"⟩ :=
  ((operations_retried (.start orderProcess (1, {}) .new) (fun _ _ h => h) [(8, { update := .refused })] 9
    ).2.1 orderPause rfl).mpr (.inr fun _ _ => ⟨.inl rfl, fun _ _ => rfl⟩)

/-- The inputs of a spec.  From the tables 2 ^ 53 + 1 is read back as the `float64` 2 ^ 53. -/
def inputTexts : ProcessTexts (List (String × Json)) where
  spec := ProcessSpec.inputs
  event _ := []
  storedSpec spec := spec.inputs.map fun (key, value) =>
    (key, if value = .int 9007199254740993 then .int 9007199254740992 else value)

def largeOrder : ProcessSpec :=
  { orderProcess with inputs := [("n", .int 9007199254740993)] }

/-- A timer whose event is stored before the status update fails is refused at every later time,
a start whose append fails leaves a running process without a started event, and a start with the
input 2 ^ 53 + 1 whose answer is lost is refused when it is repeated. -/
theorem operations_not_retried :
    (activityAttempt clockTexts orderTimer (3, {}) clockStore).2.isOk = true ∧
    (retried (activityAttempt clockTexts orderTimer) [(2, { update := .refused })] 3 clockStore
      ).2.isOk = false ∧
    (startProcess clockTexts 2 .new orderProcess).2.isOk = true ∧
    (retried (startAttempt clockTexts orderProcess) [(1, { append := .refused })] 2 .new
      ).2.isOk = true ∧
    (retried (startAttempt clockTexts orderProcess) [(1, { append := .refused })] 2 .new
      ).1.starts "p" = 0 ∧
    (startProcess inputTexts 2 .new largeOrder).2.isOk = true ∧
    (retried (startAttempt inputTexts largeOrder) [(1, { append := .lost })] 2 .new
      ).2.isOk = false := by
  decide +kernel

end AgentOS.Platform
