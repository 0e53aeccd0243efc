import AgentOS.Store.PlanTables

/-!
# Starting a plan again

A start is repeated with the same spec, at any later time.  Both stores compare the request
with the spec that they hold now.  That spec was rounded to the microsecond when it was
stored, and a transition that expands the plan replaces it.  The store in memory holds a copy, in
which some inputs are not encoded as they are in the request.
-/

namespace AgentOS.Store

open Kit Function Except MemoryPlanStore

variable {Text : Type} [DecidableEq Text] {m : Marshal Text}

/-! ## In memory -/

namespace MemoryPlanStore

def Started (spec : RunPlanSpec) (s : MemoryPlanStore) : Prop :=
  s.planKeys spec.startKey = some spec.planID ∧ ∃ stored, s.specs spec.planID = some stored ∧
      (planStateIdentity stored).encoded = (planStateIdentity spec).encoded

variable {spec : RunPlanSpec} {s s' : MemoryPlanStore}

variable {now : Time}

theorem normalizeMemoryPlanStateSnapshot_spec {given : Option PlanStateSnapshot}
    {snapshot : PlanStateSnapshot} (h : normalizeMemoryPlanStateSnapshot now given = .ok snapshot) :
    ∃ original, given = some original ∧ snapshot.spec = original.spec.durable.clone := by
  cases given with
  | none => cases h
  | some original =>
    obtain ⟨⟨⟩, -, h⟩ := bind_ok h
    split at h
    · cases h
    · cases h
      exact ⟨original, rfl, rfl⟩

theorem Started.saved (hm : m.Faithful) {given : Option PlanStateSnapshot}
    {snapshot : PlanStateSnapshot} {allowCreate : Bool} (h : Started spec s)
    (hnormalized : normalizeMemoryPlanStateSnapshot now given = .ok snapshot)
    (hchecked : s.checkPlanState m snapshot allowCreate = .ok ()) :
    Started spec (s.saved snapshot) := by
  obtain ⟨hkey, stored, hstored, hidentity⟩ := h
  obtain ⟨⟨⟩, hspec, hfree⟩ := bind_ok hchecked
  refine ⟨?_, ?_⟩
  · -- the key of a snapshot leads to its own plan or to none
    simp only [MemoryPlanStore.saved, update_apply]
    split
    · next heq =>
      simp only [checkPlanKey, ← heq, hkey] at hfree
      split at hfree
      · cases hfree
      · next hsame => rw [not_not.mp hsame]
    · exact hkey
  · by_cases hplan : spec.planID = snapshot.spec.planID
    · simp only [checkPlanTarget, ← hplan, hstored] at hspec
      obtain ⟨-, -, text, hexisting, hrequested⟩ := validatePlanStateIdentity_ok hspec
      obtain ⟨encode, hinjective, hencode⟩ := hm.identity
      rw [hencode] at hexisting hrequested
      refine ⟨snapshot.spec.clone, ?_, ?_⟩
      · rw [hplan]
        exact update_self _ _ _
      · obtain ⟨original, -, hcopy⟩ := normalizeMemoryPlanStateSnapshot_spec hnormalized
        have hcopied : snapshot.spec.clone = snapshot.spec := by
          rw [hcopy]
          exact original.spec.durable.mapInputs_idem clone_clone
        rw [← hidentity, hcopied]
        exact hinjective ((ok.inj hrequested).trans (ok.inj hexisting).symm)
    · exact ⟨stored, (update_of_ne hplan _ _).trans hstored, hidentity⟩

theorem prepareMemoryCreatePlanSnapshot_ok {status : Option Plan.RunPlanStatus}
    {snapshot : PlanStateSnapshot}
    (h : prepareMemoryCreatePlanSnapshot now spec status = .ok snapshot) :
    ∃ given : PlanStateSnapshot, given.spec = spec.clone ∧
      normalizeMemoryPlanStateSnapshot now (some given) = .ok snapshot := by
  unfold prepareMemoryCreatePlanSnapshot at h
  split at h
  · cases h
  · exact ⟨_, rfl, h⟩

theorem Step.started (hm : m.Faithful) {c : PlanCall} {reply : Except Err PlanReply}
    (hstep : Step m now c s s' reply) (h : Started spec s) : Started spec s' := by
  cases hstep with
  | refused | known | replayed | appended => exact h
  | created _ hprepared hchecked =>
    obtain ⟨given, -, hnormalized⟩ := prepareMemoryCreatePlanSnapshot_ok hprepared
    exact h.saved hm hnormalized hchecked
  | saved hnormalized hchecked => exact h.saved hm hnormalized hchecked
  | transitioned hprepared _ _ hchecked =>
    exact h.saved hm (prepareTransition_ok hprepared).1 hchecked

theorem Started.after (hm : m.Faithful) (calls : List (Time × PlanCall)) (h : Started spec s) :
    Started spec (s.after m calls) := by
  induction calls generalizing s with
  | nil => exact h
  | cons call calls ih => exact ih ((call_step call.1 call.2 s).started hm h)

variable {status : Option Plan.RunPlanStatus} {created : Plan.RunPlanStatus}

theorem started_of_created (h : s.createPlan m now (some spec) status = (s', .ok (created, true))) :
    Started spec.durable.clone s' := by
  have hstep := createPlan_step (m := m) now (some spec) status s
  simp only [call, h, Prod.map, id_eq, Except.map] at hstep
  cases hstep with
  | @created _ _ _ snapshot _ hprepared _ =>
    obtain ⟨given, hgiven, hnormalized⟩ := prepareMemoryCreatePlanSnapshot_ok hprepared
    obtain ⟨_, ⟨⟩, hspec⟩ := normalizeMemoryPlanStateSnapshot_spec hnormalized
    have hcopied : spec.durable.clone.clone = spec.durable.clone :=
      spec.durable.mapInputs_idem clone_clone
    replace hspec : snapshot.spec = spec.durable.clone := by
      rw [hspec, RunPlanSpec.durable, hgiven]
      exact hcopied
    refine ⟨?_, snapshot.spec.clone, ?_, by rw [hspec, hcopied]⟩
    · rw [← hspec]
      exact update_self _ _ _
    · rw [← hspec]
      exact update_self _ _ _

theorem input_of_created (h : s.createPlan m now (some spec) status = (s', .ok (created, true))) :
    validateMemoryCreatePlanInput (some spec) = .ok spec := by
  unfold createPlan at h
  split at h
  · cases h
  · next valid hvalid =>
    cases validateMemoryCreatePlanInput_ok hvalid
    exact hvalid

theorem createPlan_started (hm : m.Faithful) (h : Started spec.durable.clone s)
    (hvalid : validateMemoryCreatePlanInput (some spec) = .ok spec) :
    (∃ found, (s.createPlan m now (some spec) status).2 = .ok (found, false)) ↔
      normalizeDurableTimestamp spec.requestedAt = spec.requestedAt ∧
        spec.clone.encoded.inputs = spec.encoded.inputs ∧
        ∃ stored, s.specs spec.planID = some stored ∧
          stored.encoded.nodes = spec.encoded.nodes ∧ stored.edges = spec.edges := by
  obtain ⟨hkey, stored, hstored, hidentity⟩ := h
  replace hkey : s.planKeys spec.startKey = some spec.planID := hkey
  replace hstored : s.specs spec.planID = some stored := hstored
  have hsame := validatePlanStartIdempotency_durable hm hidentity
  have hlookup : s.lookupPlan m spec = (validatePlanStartIdempotency m stored spec).map
      fun _ => some ((s.statuses spec.planID).getD {}) := by
    simp only [lookupPlan, lookupExistingPlanLocked, hkey, hstored, Option.getD_some]
    cases validatePlanStartIdempotency m stored spec <;> rfl
  simp only [RunPlanSpec.clone, hstored, Option.some.injEq, exists_eq_left', ← hsame]
  simp only [createPlan, hvalid, hlookup]
  cases validatePlanStartIdempotency m stored spec with
  | error | ok => simp [Except.map]

end MemoryPlanStore

/-! ## In the tables -/

namespace PlanTables

variable {now : Time} {spec : RunPlanSpec} {t t' : PlanTables}

theorem createPlan_started (hm : m.Faithful) {status : Plan.RunPlanStatus}
    (h : t.Holds (planStateIdentity spec.durable.encoded)) (hplan : spec.planID ≠ "")
    (hkey : spec.idempotencyKey ≠ "") :
    (∃ t' found, t.createPlan m now spec status = .ok (t', found, false)) ↔
      normalizeDurableTimestamp spec.requestedAt = spec.requestedAt ∧
        ∃ row, t.findStart spec.startKey = some row ∧
          row.spec.encoded.nodes = spec.encoded.nodes ∧ row.spec.edges = spec.edges := by
  obtain ⟨row, hrow, hidentity⟩ := h.findStart
  replace hrow : t.findStart spec.startKey = some row := hrow
  have hsame := validatePlanStartIdempotency_durable hm
    (congrArg PlanStateIdentity.encoded hidentity)
  rw [show (spec.mapInputs encodeValue).encoded = spec.encoded from
    spec.mapInputs_idem encode_encode, eq_self, true_and] at hsame
  simp only [hrow, Option.some.injEq, exists_eq_left', ← hsame]
  simp only [createPlan, if_neg hplan, if_neg hkey, existingPlanForCreate, planByIdempotencyKey,
    hrow, Option.map_some]
  cases validatePlanStartIdempotency m row.spec spec with
  | error err => simp [bind, Except.bind]
  | ok _ => simp [bind, Except.bind, pure, Except.pure]

end PlanTables

/-! ## Any later time -/

/-- A plan was created, and any calls followed.  In both stores the start is answered again
with the plan, exactly when it was requested at a whole microsecond and the snapshot that is
stored now has the nodes and the edges of the start.  In memory the copy of the inputs must also
have the JSON of the inputs. -/
theorem start_replay (hm : m.Faithful) (spec : RunPlanSpec) :
    (∀ now status created (s s' : MemoryPlanStore),
      s.createPlan m now (some spec) status = (s', .ok (created, true)) →
      ∀ calls now' status', (∃ found, ((s'.after m calls).createPlan m now' (some spec) status').2 =
          .ok (found, false)) ↔
        normalizeDurableTimestamp spec.requestedAt = spec.requestedAt ∧
          spec.clone.encoded.inputs = spec.encoded.inputs ∧
          ∃ stored, (s'.after m calls).specs spec.planID = some stored ∧
            stored.encoded.nodes = spec.encoded.nodes ∧ stored.edges = spec.edges) ∧
    ∀ now status created (t t' : PlanTables),
      t.createPlan m now spec status = .ok (t', created, true) →
      ∀ later now' status', Relation.ReflTransGen (PlanTables.Accepted m) t' later →
        ((∃ unchanged found, later.createPlan m now' spec status' = .ok (unchanged, found, false)) ↔
        normalizeDurableTimestamp spec.requestedAt = spec.requestedAt ∧
          ∃ row, later.findStart spec.startKey = some row ∧
            row.spec.encoded.nodes = spec.encoded.nodes ∧ row.spec.edges = spec.edges) := by
  refine ⟨?_, ?_⟩
  · intro now status created s s' hcreated calls now' status'
    have hstarted := (started_of_created hcreated).after hm calls
    exact createPlan_started hm hstarted (input_of_created hcreated)
  · intro now status created t t' hcreated later now' status' hcalls
    have hstarted : later.Holds (planStateIdentity spec.durable.encoded) := by
      induction hcalls with
      | refl => exact PlanTables.holds_of_created hcreated
      | tail _ hcall ih => exact hcall.holds ih
    obtain ⟨hplan, hkey, -⟩ := PlanTables.createPlan_ok hcreated
    exact PlanTables.createPlan_started hm hstarted hplan hkey

/-- A text by what it encodes. -/
inductive PlainText where
  | spec (spec : RunPlanSpec)
  | identity (identity : PlanStateIdentity)
  | node (node : Plan.PlanNodeSpec)
  | edge (edge : Plan.PlanEdgeSpec)
  | transition (spec : RunPlanSpec) (status : Plan.RunPlanStatus) (idempotencyKey : String)
  | event (eventType : String)
  deriving DecidableEq

/-- The encoder that answers the JSON of what it is given. -/
def plainMarshal : Marshal PlainText where
  spec spec := .ok (.spec spec.encoded)
  identity identity := .ok (.identity identity.encoded)
  node node := .ok (.node node)
  edge edge := .ok (.edge edge)
  transition fields := .ok (.transition fields.spec fields.status fields.idempotencyKey)
  event identity := .ok (.event identity.eventType)
  sha256 _ := "digest"
  rfc3339 := toString

theorem plainMarshal_faithful : plainMarshal.Faithful where
  spec := ⟨.spec, fun _ _ h => PlainText.spec.inj h, fun _ => rfl⟩
  identity := ⟨.identity, fun _ _ h => PlainText.identity.inj h, fun _ => rfl⟩

/-- The tables in which the plan was started. -/
def startedTables (requestedAt : Time) : Except Err (PlanTables × Plan.RunPlanStatus × Bool) :=
  PlanTables.empty.createPlan plainMarshal 1 (requestedSpec requestedAt) {}

/-- The snapshot of that plan after it was expanded by a node. -/
def expandedSnapshot : PlanStateSnapshot where
  spec := { requestedSpec 2000 with nodes := [{ nodeID := "n" }] }
  status := { planID := "plan", updatedAt := 7, nodes := [{ nodeID := "n" }] }

/-- A plan that was requested at a whole microsecond and ran on without an expansion is
started again in both stores. -/
theorem start_replay_whole :
    (∃ found, (((startedStore plainMarshal 2000).after plainMarshal
      [(3, .savePlanState (some (takenSnapshot 2000 7)))]).createPlan plainMarshal 8
        (some (requestedSpec 2000)) none).2 = .ok (found, false)) ∧
    ∀ t created, startedTables 2000 = .ok (t, created, true) →
      ∃ unchanged found, t.createPlan plainMarshal 8 (requestedSpec 2000) {} =
        .ok (unchanged, found, false) := by
  have hreplay := start_replay plainMarshal_faithful (requestedSpec 2000)
  refine ⟨(hreplay.1 1 (some {}) _ .new (startedStore plainMarshal 2000) rfl
    [(3, .savePlanState (some (takenSnapshot 2000 7)))] 8 none).mpr ⟨by decide, rfl, _, rfl, rfl, rfl⟩,
    fun t created h => (hreplay.2 1 {} created .empty t h t 8 {} .refl).mpr ⟨by decide, ?_⟩⟩
  cases h
  exact ⟨_, rfl, rfl, rfl⟩

/-- What a start and its repetition answer in memory: whether they created the plan. -/
def repeatedStart (spec : RunPlanSpec) : Option Bool × Option Bool :=
  let once := new.createPlan plainMarshal 1 (some spec) (some {})
  let again := once.1.createPlan plainMarshal 2 (some spec) (some {})
  (once.2.toOption.map Prod.snd, again.2.toOption.map Prod.snd)

/-- A start with nanoseconds is refused when it is repeated at once, and a start at a whole
microsecond once the plan was expanded.  Both hold in both stores.  In memory so is a start with an
empty `[]string`, which is stored as nil. -/
theorem start_replay_refused :
    repeatedStart (requestedSpec 2001) = (some true, none) ∧
    (startedTables 2001).toOption.map (fun r => r.2.2) = some true ∧
    ((startedTables 2001 >>= fun r =>
      r.1.createPlan plainMarshal 2 (requestedSpec 2001) {}).toOption.map (fun r => r.2.2) = none) ∧
    ((startedStore plainMarshal 2000).savePlanState plainMarshal 3
      (some expandedSnapshot)).2.toOption = some () ∧
    ((((startedStore plainMarshal 2000).savePlanState plainMarshal 3
      (some expandedSnapshot)).1.createPlan plainMarshal 4 (some (requestedSpec 2000))
        (some {})).2.toOption.map Prod.snd = none) ∧
    ((startedTables 2000 >>= fun r =>
      r.1.savePlanState plainMarshal 3 expandedSnapshot).toOption.isSome) ∧
    ((startedTables 2000 >>= fun r => r.1.savePlanState plainMarshal 3 expandedSnapshot >>= fun t =>
      t.createPlan plainMarshal 4 (requestedSpec 2000) {}).toOption.map (fun r => r.2.2) = none) ∧
    repeatedStart { requestedSpec 2000 with inputs := [("tags", .num .emptyStrings)] } =
      (some true, none) := by
  decide +kernel

end AgentOS.Store
