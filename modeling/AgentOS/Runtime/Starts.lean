import AgentOS.Runtime.Delivery

/-!
# A plan is executed once

Temporal refuses a start only while an execution of the plan is open.  What keeps a plan that
has ended from being executed again is its start command: once that is delivered, `StartPlan`
reads the status delivered and `Recover` does not list it.  A call that has read the command
before is `Poised`: it starts the workflow whatever has happened since.
-/

namespace AgentOS.Runtime

open Kit Store Function RuntimeStore PlanTables

variable {ι Text : Type} [DecidableEq Text]

def startRef (spec : RunPlanSpec) : RecordRef where
  planID := spec.planID
  accountID := spec.accountID
  projectID := spec.projectID
  idempotencyKey := spec.idempotencyKey

/-- The call is about to start the workflow of a plan. -/
def RuntimeCall.starts (planID : String) : RuntimeCall → Bool
  | .executing spec _ _ => spec.planID == planID
  | _ => false

def Poised (ref : RecordRef) (call : RuntimeCall) : Prop :=
  call.starts ref.planID = true ∨ ∃ command ∈ call.rest, planCommandRefFromRecord command = ref

instance (ref : RecordRef) (call : RuntimeCall) : Decidable (Poised ref call) :=
  inferInstanceAs (Decidable (_ ∨ _))

/-- The plan of a spec is stored, its start command is delivered, and no call is about to
start it. -/
def SettledAs (spec : RunPlanSpec) (s : RuntimeStore ι) (calls : ι → RuntimeCall) : Prop :=
  s.plans.Holds (planStateIdentity spec) ∧ Delivered s.commands (startRef spec) ∧
    ∀ i, ¬ Poised (startRef spec) (calls i)

instance [Fintype ι] (spec : RunPlanSpec) (s : RuntimeStore ι) (calls : ι → RuntimeCall) :
    Decidable (SettledAs spec s calls) :=
  inferInstanceAs (Decidable ((∃ row ∈ s.plans.plans, _ = _) ∧ (∃ row ∈ s.commands.rows, _ ∧ _) ∧ _))

def Settled (planID : String) (s : RuntimeStore ι) (calls : ι → RuntimeCall) : Prop :=
  ∃ spec, spec.planID = planID ∧ SettledAs spec s calls

/-- The step ends no execution of the plan, or the plan is settled. -/
def EndsSettled (planID : String) (s : RuntimeStore ι) (calls : ι → RuntimeCall)
    (s' : RuntimeStore ι) : Prop :=
  (s.executions planID).isOpen = true → (s'.executions planID).isOpen = false →
    Settled planID s calls

/-! ## The start command of a plan -/

section Command

variable {s : RuntimeStore ι} {E : RuntimeEnv Text} {spec spec' : RunPlanSpec} {ref : RecordRef}
  {status : Plan.RunPlanStatus}

theorem startRef_of_holds {t : PlanTables} (h : t.Holds (planStateIdentity spec))
    (h' : t.Holds (planStateIdentity spec')) (hplan : spec.planID = spec'.planID) :
    startRef spec = startRef spec' := by
  obtain ⟨row, hrow, hspec⟩ := h
  obtain ⟨row', hrow', hspec'⟩ := h'
  obtain ⟨hid, hkey⟩ := keys_of_identity hspec
  obtain ⟨hid', hkey'⟩ := keys_of_identity hspec'
  obtain rfl := eq_of_planID hrow hrow' (hid.trans (hplan.trans hid'.symm))
  have hsame : spec.startKey = spec'.startKey := hkey.symm.trans hkey'
  simp only [RunPlanSpec.startKey, PlanStartKey.mk.injEq] at hsame
  obtain ⟨haccount, hproject, hidempotency⟩ := hsame
  simp [startRef, hplan, haccount, hproject, hidempotency]

theorem tenantScope_of_holds (h : s.plans.Holds (planStateIdentity spec)) :
    s.tenantScope spec.planID = .ok (some (spec.accountID, spec.projectID)) := by
  obtain ⟨row, hrow, hspec⟩ := h
  obtain ⟨hid, hkey⟩ := keys_of_identity hspec
  simp only [RunPlanSpec.startKey, PlanStartKey.mk.injEq] at hkey
  have hfind := findPlan_of_mem hrow
  rw [hid] at hfind
  simp only [tenantScope, hfind, Option.map_some, hkey.1, hkey.2.1]

theorem holds_of_accepted {t t' : PlanTables} {m : Marshal Text} {now : Time}
    {answer : Plan.RunPlanStatus × Bool} (h : t.createPlan m now spec status = .ok (t', answer)) :
    ∃ spec', t'.Holds (planStateIdentity spec') ∧ spec'.planID = spec.planID ∧
      spec'.idempotencyKey = spec.idempotencyKey := by
  obtain ⟨-, -, ⟨rfl, -, row, hrow, hplan, hkey⟩ | ⟨normalized, hspec, hsaved⟩⟩ := createPlan_ok h
  · exact ⟨row.spec, ⟨row, hrow, rfl⟩, hplan, hkey⟩
  · refine ⟨spec.durable.encoded, ?_, rfl, rfl⟩
    rw [← hspec]
    exact holds_of_saved hsaved

theorem getPlanByRef_some {t : PlanTables} {planRef : PlanRef}
    (h : getPlanByRef t planRef = .ok (some (spec, status))) :
    t.Holds (planStateIdentity spec) ∧ spec.planID = planRef.planID ∧
      spec.accountID = planRef.accountID ∧ spec.projectID = planRef.projectID := by
  obtain ⟨⟨⟩, -, h⟩ := bind_ok h
  split at h
  · cases h
  next row hfind =>
  split at h
  · cases h
  next hscope =>
  obtain ⟨state, -, h⟩ := bind_ok h
  cases h
  rw [not_or, not_not, not_not] at hscope
  have hplan : row.spec.planID = planRef.planID := by simpa using List.find?_some hfind
  exact ⟨⟨row, List.mem_of_find?_eq_some hfind, rfl⟩, hplan, hscope.1, hscope.2⟩

def RecordsRef (ref : RecordRef) : CommandCall → Prop
  | .recording command =>
    command.planID = ref.planID ∧ command.idempotencyKey = ref.idempotencyKey
  | .inserting command | .refused command => planCommandRefFromRecord command = ref
  | _ => False

variable {env : CommandEnv} {i : ι} {now : Time} {store store' : CommandStore}
  {inner inner' : CommandCall}

theorem lookupCommand_ref {rows : List PlanCommandRow} {command : PlanCommandRecord}
    {call : CommandCall} (hrecords : RecordsRef ref (.recording command))
    (hscope : env.tenantScope ref.planID = .ok (some (ref.accountID, ref.projectID)))
    (h : lookupCommand env now rows command = .ok call) :
    (∃ existing, getPlanCommand rows ref = .ok (some existing) ∧
      call = .recorded (.ok (existing, false))) ∨
    (∃ prepared, planCommandRefFromRecord prepared = ref ∧ call = .inserting prepared) := by
  obtain ⟨hplan, hkey⟩ := hrecords
  obtain ⟨prepared, hprepared, hcases⟩ := lookupCommand_cases h
  have href : planCommandRefFromRecord prepared = ref := by
    unfold preparePlanCommandRecord at hprepared
    rw [hplan] at hprepared
    split_ifs at hprepared
    rw [hscope] at hprepared
    cases hprepared
    simp [planCommandRefFromRecord, hkey]
  rw [href] at hcases
  exact hcases.imp_right And.right

theorem getPlanCommand_delivered {table : CommandTable} {existing : PlanCommandRecord}
    (hdelivered : Delivered table ref) (h : getPlanCommand table.rows ref = .ok (some existing)) :
    existing.status = .delivered := by
  obtain ⟨⟨⟩, -, h⟩ := bind_ok h
  split at h
  · cases h
  next row hfind =>
  obtain ⟨stored, hstored, h⟩ := bind_ok h
  cases h
  obtain ⟨payload, -, hstored⟩ := bind_ok hstored
  cases hstored
  obtain ⟨hrow, href⟩ := findCommandRow_some hfind
  obtain ⟨row', hrow', href', hstatus⟩ := hdelivered
  obtain rfl := table.eq_of_ref hrow hrow' (href.trans href'.symm)
  exact hstatus

/-- A call that records the command goes on with it, or it answers: with the delivered command, if
that is there. -/
theorem RecordsRef.next (hrecords : RecordsRef ref inner)
    (hscope : env.tenantScope ref.planID = .ok (some (ref.accountID, ref.projectID)))
    (hnext : commandNext env now i store inner = some (store', inner')) :
    RecordsRef ref inner' ∨ ∃ result, inner' = .recorded result ∧
      ∀ command created, result = .ok (command, created) → Delivered store.commands ref →
        command.status = .delivered := by
  cases inner with
  | recording requested =>
    simp only [commandNext] at hnext
    split at hnext <;> cases hnext
    · exact .inr ⟨_, rfl, by simp⟩
    next call hcall =>
    obtain ⟨existing, hexisting, rfl⟩ | ⟨prepared, href, rfl⟩ :=
      lookupCommand_ref hrecords hscope hcall
    · refine .inr ⟨_, rfl, ?_⟩
      rintro _ _ ⟨⟩ hdelivered
      exact getPlanCommand_delivered hdelivered hexisting
    · exact .inl href
  | inserting requested =>
    simp only [commandNext] at hnext
    split at hnext <;> cases hnext
    · next hfree =>
      -- the unique index refuses an insert of a delivered command
      refine .inr ⟨_, rfl, ?_⟩
      rintro _ _ - ⟨row, hrow, href, -⟩
      have hsame : row.ref = (commandRow requested).ref := href.trans hrecords.symm
      have hnone := List.any_eq_false.mp hfree row hrow
      simp [hsame] at hnone
    · exact .inl hrecords
  | refused requested =>
    have href : planCommandRefFromRecord requested = ref := hrecords
    simp only [commandNext] at hnext
    split at hnext <;> cases hnext
    · exact .inr ⟨_, rfl, by simp⟩
    next existing hexisting =>
    refine .inr ⟨_, rfl, ?_⟩
    rintro _ _ ⟨⟩ hdelivered
    obtain ⟨found, hfound, hexisting⟩ := bind_ok hexisting
    cases found with
    | none => cases hexisting
    | some found =>
      obtain ⟨⟨⟩, -, hexisting⟩ := bind_ok hexisting
      cases hexisting
      rw [href] at hfound
      exact getPlanCommand_delivered hdelivered hfound
  | _ => cases hrecords

end Command

/-! ## One step -/

def RecordsPlan (s : RuntimeStore ι) : RuntimeCall → Prop
  | .recording spec inner => ∃ stored, s.plans.Holds (planStateIdentity stored) ∧
      stored.planID = spec.planID ∧ RecordsRef (startRef stored) inner
  | _ => True

section Step

variable {E : RuntimeEnv Text} {planID : String} {i : ι} {s s' : RuntimeStore ι}
  {call call' : RuntimeCall} {spec : RunPlanSpec} {ref : RecordRef}

section

variable (h : RuntimeStep E i s call s' call')
include h

theorem RuntimeStep.holds {identity : PlanStateIdentity}
    (hholds : s.plans.Holds identity) : s'.plans.Holds identity := by
  cases h with
  | known hcreate | created hcreate => exact Accepted.holds (.createPlan hcreate) hholds
  | persisted haccepted => exact haccepted.holds hholds
  | _ => exact hholds

theorem RuntimeStep.delivered
    (hdelivered : Delivered s.commands ref) : Delivered s'.commands ref := by
  cases h with
  | command hnext | record hnext | undelivered hnext =>
    exact Delivered.next hdelivered hnext
  | _ => exact hdelivered

theorem RuntimeStep.executions :
    s'.executions = s.executions ∨
      (∃ spec ref rest, call = .executing spec ref rest ∧ s' = s.execute spec.planID) ∨
      ∃ planID, (s.executions planID).isOpen = true ∧ s' = s.complete planID := by
  cases h with
  | executed => exact .inr (.inl ⟨_, _, _, rfl, rfl⟩)
  | completed hopen => exact .inr (.inr ⟨_, hopen, rfl⟩)
  | _ => exact .inl rfl

theorem RecordsPlan.holds {other : RuntimeCall}
    (hother : RecordsPlan s other) : RecordsPlan s' other := by
  cases other with
  | recording spec inner =>
    obtain ⟨stored, hholds, hplan, hrecords⟩ := hother
    exact ⟨stored, h.holds hholds, hplan, hrecords⟩
  | _ => trivial

end

theorem RecordsPlan.of_quiet (h : call.Quiet) : RecordsPlan s call := by
  cases call with
  | recording spec inner => cases h
  | _ => trivial

theorem RecordsPlan.step (h : RuntimeStep E i s call s' call') (hcall : RecordsPlan s call) :
    RecordsPlan s' call' := by
  cases h with
  | quiet audits hquiet _ | command _ hquiet _ | executed hquiet _ => exact .of_quiet hquiet
  | created hcreate =>
    obtain ⟨stored, hholds, hplan, hkey⟩ := holds_of_accepted hcreate
    exact ⟨stored, hholds, hplan, hplan.symm, hkey.symm⟩
  | record hnext hgoing =>
    obtain ⟨stored, hholds, hplan, hrecords⟩ := hcall
    refine ⟨stored, hholds, hplan, ?_⟩
    exact (hrecords.next (tenantScope_of_holds hholds) hnext).resolve_right
      fun ⟨result, hanswer, _⟩ => hgoing result hanswer
  | _ => trivial

theorem not_poised_of_quiet {rest : List PlanCommandRecord} (hquiet : call'.Quiet)
    (hrest : call'.rest ⊆ rest) (h : ∀ command ∈ rest, planCommandRefFromRecord command ≠ ref) :
    ¬ Poised ref call' := by
  rintro (hstarts | ⟨command, hmem, href⟩)
  · cases call' with
    | executing spec ref' rest => cases hquiet
    | _ => cases hstarts
  · exact h command (hrest hmem) href

theorem not_poised_step (h : RuntimeStep E i s call s' call') (hcall : RecordsPlan s call)
    (hholds : s.plans.Holds (planStateIdentity spec))
    (hdelivered : Delivered s.commands (startRef spec))
    (hpoised : ¬ Poised (startRef spec) call) : ¬ Poised (startRef spec) call' := by
  have hrest : ∀ command ∈ call.rest, planCommandRefFromRecord command ≠ startRef spec :=
    fun command hmem href => hpoised (.inr ⟨command, hmem, href⟩)
  cases h with
  | quiet _ hquiet hsub | command _ hquiet hsub | executed hquiet hsub =>
    exact not_poised_of_quiet hquiet hsub hrest
  | listed hlisted =>
    exact not_poised_of_quiet trivial (List.Subset.refl _) fun _ => hdelivered.not_listed hlisted
  | known | created | record | persisted | completed =>
    rintro (hstarts | ⟨command, hmem, -⟩)
    · cases hstarts
    · cases hmem
  | undelivered hnext hstatus =>
    obtain ⟨stored, hstored, hplan, hrecords⟩ := hcall
    rintro (hstarts | ⟨command, hmem, -⟩)
    · -- the command that was answered is the delivered one
      have hsame : startRef stored = startRef spec :=
        startRef_of_holds hstored hholds (hplan.trans (beq_iff_eq.mp hstarts))
      have hstart : Delivered s.commandStore.commands (startRef stored) := hsame ▸ hdelivered
      obtain hnone | ⟨_, ⟨⟩, hanswer⟩ := hrecords.next (tenantScope_of_holds hstored) hnext
      · exact hnone.elim
      · exact hstatus (hanswer _ _ rfl hstart)
    · cases hmem
  | @chosen command _ stored _ hplan hkey =>
    obtain ⟨hstored, hid, haccount, hproject⟩ := getPlanByRef_some hplan
    rintro (hstarts | ⟨other, hmem, href⟩)
    · have hsame : startRef stored = startRef spec :=
        startRef_of_holds hstored hholds (beq_iff_eq.mp hstarts)
      refine hrest command List.mem_cons_self (Eq.trans ?_ hsame)
      simp [planCommandRefFromRecord, startRef, hid, haccount, hproject, hkey, planRefFromCommand]
    · exact hrest other (List.mem_cons_of_mem _ hmem) href

theorem Settled.step [DecidableEq ι] {calls : ι → RuntimeCall}
    (h : RuntimeStep E i s (calls i) s' call') (hcall : RecordsPlan s (calls i))
    (hsettled : Settled planID s calls) : Settled planID s' (update calls i call') := by
  obtain ⟨spec, hplan, hholds, hdelivered, hpoised⟩ := hsettled
  refine ⟨spec, hplan, h.holds hholds, h.delivered hdelivered, ?_⟩
  exact (forall_update_iff calls fun _ call => ¬ Poised (startRef spec) call).mpr
    ⟨not_poised_step h hcall hholds hdelivered (hpoised i), fun j _ => hpoised j⟩

end Step

/-! ## Every run -/

structure OneExecution (planID : String) (s : RuntimeStore ι) (calls : ι → RuntimeCall) :
    Prop where
  once : (s.executions planID).started ≤ 1
  opened : (s.executions planID).isOpen = true → (s.executions planID).started = 1
  ended : (s.executions planID).isOpen = false → (s.executions planID).started = 1 →
    Settled planID s calls
  recording : ∀ i, RecordsPlan s (calls i)

section Run

variable [DecidableEq ι] {E : RuntimeEnv Text} {planID : String} {i : ι} {s s' : RuntimeStore ι}
  {calls : ι → RuntimeCall} {call' : RuntimeCall}

section

variable (h : OneExecution planID s calls) (hstep : RuntimeStep E i s (calls i) s' call')
include h hstep

theorem OneExecution.records : ∀ j, RecordsPlan s' (update calls i call' j) :=
  (forall_update_iff calls fun _ call => RecordsPlan s' call).mpr
    ⟨.step hstep (h.recording i), fun j _ => .holds hstep (h.recording j)⟩

theorem OneExecution.unchanged (hsame : s'.executions planID = s.executions planID) :
    OneExecution planID s' (update calls i call') where
  once := hsame ▸ h.once
  opened := hsame ▸ h.opened
  ended := by
    rw [hsame]
    exact fun hclosed hstarted => (h.ended hclosed hstarted).step hstep (h.recording i)
  recording := h.records hstep

end

omit [DecidableEq ι] in
theorem OneExecution.start (h : OneExecution planID s calls)
    (hcall : (calls i).starts planID = true) :
    (s.executions planID).isOpen = true ∨ (s.executions planID).started = 0 := by
  cases hopen : (s.executions planID).isOpen with
  | true => exact .inl rfl
  | false =>
    right
    by_contra hne
    have hone : (s.executions planID).started = 1 := by
      have honce := h.once
      omega
    obtain ⟨spec, rfl, -, -, hpoised⟩ := h.ended hopen hone
    exact hpoised i (.inl hcall)

theorem OneExecution.first {spec : RunPlanSpec} (h : OneExecution spec.planID s calls)
    (hstep : RuntimeStep E i s (calls i) (s.execute spec.planID) call')
    (hzero : (s.executions spec.planID).started = 0) :
    OneExecution spec.planID (s.execute spec.planID) (update calls i call') := by
  have hclosed : (s.executions spec.planID).isOpen = false := by
    refine Bool.eq_false_iff.mpr fun hopen => ?_
    have hone := h.opened hopen
    omega
  have hnew : (s.execute spec.planID).executions spec.planID = ⟨true, 1⟩ := by
    simp [execute, Execution.start, hclosed, hzero]
  exact {
    once := by rw [hnew]
    opened := by simp [hnew]
    ended := by simp [hnew]
    recording := h.records hstep }

theorem OneExecution.step (h : OneExecution planID s calls)
    (hstep : RuntimeStep E i s (calls i) s' call') (hends : EndsSettled planID s calls s') :
    OneExecution planID s' (update calls i call') := by
  rcases hstep.executions with hsame | ⟨spec, ref, rest, hcall, rfl⟩ | ⟨other, hopen, rfl⟩
  · exact h.unchanged hstep (congrFun hsame planID)
  · by_cases hplan : spec.planID = planID
    · subst hplan
      have hstarts : (calls i).starts spec.planID = true := by simp [hcall, RuntimeCall.starts]
      rcases h.start hstarts with hopen | hzero
      · refine h.unchanged hstep ?_
        simp [execute, Execution.start, hopen]
      · exact h.first hstep hzero
    · refine h.unchanged hstep ?_
      simp [execute, update_of_ne (Ne.symm hplan)]
  · by_cases hplan : other = planID
    · subst hplan
      have hclosed : ((s.complete other).executions other).isOpen = false := by
        simp [complete]
      have hstarted : ((s.complete other).executions other).started = 1 := by
        simpa [complete] using h.opened hopen
      exact {
        once := hstarted.le
        opened := fun _ => hstarted
        ended := fun _ _ => (hends hopen hclosed).step hstep (h.recording i)
        recording := h.records hstep }
    · refine h.unchanged hstep ?_
      simp [complete, update_of_ne (Ne.symm hplan)]

end Run

/-- A call at its beginning, or one that has ended. -/
def RuntimeCall.Fresh : RuntimeCall → Prop
  | .startPlan _ | .recover _ | .delivering [] | .workflow _ | .commanding _ => True
  | _ => False

/-- At most one execution of a plan is started, in every interleaving of calls that fail and
stop anywhere, as long as an execution of the plan ends only when the plan is settled. -/
theorem plan_executed_once [DecidableEq ι] (E : RuntimeEnv Text) (planID : String)
    (s₀ s : RuntimeStore ι) (calls₀ calls : ι → RuntimeCall)
    (hfirst : s₀.executions planID = {}) (hfresh : ∀ i, (calls₀ i).Fresh)
    (hruns : RunsWhen (Moves (runtimeNext E)) (EndsSettled planID) s₀ calls₀ s calls) :
    (s.executions planID).started ≤ 1 := by
  have hinit : OneExecution planID s₀ calls₀ :=
    { once := by simp [hfirst]
      opened := by simp [hfirst]
      ended := by simp [hfirst]
      recording := fun i => by
        have hcall := hfresh i
        cases hi : calls₀ i with
        | recording spec inner =>
          rw [hi] at hcall
          cases hcall
        | _ => trivial }
  have hinv : OneExecution planID s calls :=
    hruns.invariant (fun h ⟨_, hnext⟩ hends => h.step (runtimeNext_step hnext) hends) hinit
  exact hinv.once

/-! ## Two runs -/

/-- Who calls. -/
inductive Party where
  | starter
  | again
  | reconciler
  | worker
  deriving DecidableEq

instance : Fintype Party where
  elems := {.starter, .again, .reconciler, .worker}
  complete party := by cases party <;> decide

/-- Two starts of one plan, a pass of the reconciler, and the workflow. -/
def parties : Party → RuntimeCall
  | .starter | .again => .startPlan (requestedSpec 2000)
  | .reconciler => .recover 0
  | .worker => .workflow "plan"

/-- Nothing is stored and nothing was started. -/
def noRuns : RuntimeStore Party where
  plans := .empty
  commands := ⟨[], List.Pairwise.nil⟩
  audits := ⟨[], fun _ => none⟩
  executions _ := {}

def runs (n : Nat) (party : Party) : List (Answer × Party) := List.replicate n (.ran 1000, party)

/-- A start that is delivered, the end of the workflow, and then the same start again and a
pass of the reconciler. -/
def delivered : List (Answer × Party) :=
  runs 12 .starter ++ [(.completed, .worker)] ++ runs 5 .again ++ runs 3 .reconciler

/-- The plan is settled when its workflow ends. -/
theorem plan_executed_once_delivered :
    ((play (runtimeNext bareRuntime) delivered (noRuns, parties)).1.executions "plan").started ≤
      1 := by
  have hruns : RunsWhen (Moves (runtimeNext bareRuntime)) (EndsSettled "plan") noRuns parties
      (play (runtimeNext bareRuntime) delivered (noRuns, parties)).1
      (play (runtimeNext bareRuntime) delivered (noRuns, parties)).2 := by
    refine RunsWhen.start.play (fun s calls s' => !(s.executions "plan").isOpen ||
      (s'.executions "plan").isOpen || decide (SettledAs (requestedSpec 2000) s calls)) ?_
      (by decide +kernel)
    intro s calls s' htest hopen hclosed
    simp only [hopen, hclosed, Bool.not_true, Bool.false_or, decide_eq_true_eq] at htest
    exact ⟨requestedSpec 2000, rfl, htest⟩
  exact plan_executed_once bareRuntime "plan" noRuns _ parties _ rfl
    (fun party => by cases party <;> trivial) hruns

/-- A start that stops before its command is delivered, the end of the workflow, and a pass of
the reconciler. -/
def undelivered : List (Answer × Party) :=
  runs 4 .starter ++ [(.crashed, .starter), (.completed, .worker)] ++ runs 3 .reconciler

/-- The reconciler executes the plan a second time. -/
theorem plan_executed_again : ∃ s calls,
    Runs (Moves (runtimeNext bareRuntime)) noRuns parties s calls ∧
      (s.executions "plan").started = 2 :=
  ⟨_, _, Runs.play _ undelivered .start, by decide +kernel⟩

end AgentOS.Runtime
