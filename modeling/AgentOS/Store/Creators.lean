import AgentOS.Store.CommandLog

/-!
# One creator for a key

Calls of `RecordAudit`, or of `RecordPlanCommand`, with one key and one content race for the
row of the key.  Both functions look the key up, insert, and look it up again when the insert
meets the unique index.  The calls are a `Race`: as long as no insert is refused, the call
that inserts is the only one that reports a created record.
-/

namespace AgentOS.Store

open Kit List Except Document Number

variable {ι : Type} {payload : Payload}

/-- Exactly one call reports a created record, and all calls that answer a record answer the
same one. -/
def OneCreator {R : Type} (results : ι → Except Err (R × Bool)) : Prop :=
  (∃! i, ∃ r, results i = .ok (r, true)) ∧
    ∀ i j r r' b b', results i = .ok (r, b) → results j = .ok (r', b') → r = r'

theorem OneCreator.of_winner {R : Type} {results : ι → Except Err (R × Bool)} {c : ι} {r : R}
    (hwon : results c = .ok (r, true))
    (hlost : ∀ i, i ≠ c → (∃ err, results i = .error err) ∨ results i = .ok (r, false)) :
    OneCreator results := by
  have hstored (i : ι) (r' : R) (b : Bool) (h : results i = .ok (r', b)) :
      r' = r ∧ (b = true → i = c) := by
    by_cases hi : i = c
    · rw [hi, hwon] at h
      cases h
      exact ⟨rfl, fun _ => hi⟩
    · rcases hlost i hi with ⟨err, herr⟩ | hfound
      · rw [herr] at h
        cases h
      · rw [hfound] at h
        cases h
        exact ⟨rfl, nofun⟩
  refine ⟨⟨c, ⟨r, hwon⟩, fun i ⟨r', hi⟩ => (hstored i r' true hi).2 rfl⟩,
    fun i j r₁ r₂ b₁ b₂ h₁ h₂ => ?_⟩
  rw [(hstored i r₁ b₁ h₁).1, (hstored j r₂ b₂ h₂).1]

/-! ## Audit records -/

section Audit

variable {E : AuditEnv} {record prepared : AuditRecord} {rows : List ListAuditChainRow}
  {row : ListAuditChainRow} {ref : RecordRef} {prevHash : String}

theorem findAuditRow_concat_new (h : findAuditRow rows (auditRefFromRecord record) = none) :
    findAuditRow (rows ++ [auditRow E.sha record prevHash]) (auditRefFromRecord record) =
      some (auditRow E.sha record prevHash) := by
  simp only [findAuditRow, find?_append] at h ⊢
  rw [h]
  simp [auditRow, auditRefFromRecord]

theorem auditConflict_of_find (h : findAuditRow rows (auditRefFromRecord record) = some row) :
    auditConflict rows record = true := by
  have hmem := mem_of_find?_eq_some h
  have hrow := find?_some h
  simp only [auditRefFromRecord, Bool.and_eq_true, beq_iff_eq] at hrow
  refine any_eq_true.mpr ⟨row, hmem, ?_⟩
  simp [hrow]

/-- The numbers of a payload are binary64 numbers when they come back from the column. -/
def finitePayload (payload : Payload) : Bool := (payloadDocument payload).all (finite ∘ numeric)

theorem decodePayload_stored (scope : String) (h : finitePayload payload = true) :
    decodePayload scope (some ((payloadDocument payload).map numeric)) =
      .ok (some (Document.mapMembers (Number.reread ∘ Number.numeric) (payload.getD []))) := by
  have hfinite : allMembers finite (mapMembers numeric (payload.getD [])) = true :=
    (all_map _ _ (payloadDocument payload)).trans h
  simp [payloadDocument, Document.map, decodePayload, hfinite, mapMembers_mapMembers]

theorem getAuditRecord_absent (hscope : validateRecordRef "audit" ref = .ok ())
    (hfind : findAuditRow rows ref = none) : getAuditRecord rows ref = .ok none := by
  simp only [getAuditRecord, hscope, hfind]
  rfl

theorem getAuditRecord_present (hscope : validateRecordRef "audit" ref = .ok ())
    (hfind : findAuditRow rows ref = some row) {stored : AuditRecord}
    (hrow : planAuditRecordFromRow row = .ok stored) :
    getAuditRecord rows ref = .ok (some stored) := by
  simp only [getAuditRecord, hscope, hfind, hrow]
  rfl

theorem getAuditRecord_found {found : Option AuditRecord}
    (hfind : findAuditRow rows ref = some row) (h : getAuditRecord rows ref = .ok found) :
    ∃ stored, planAuditRecordFromRow row = .ok stored ∧ found = some stored := by
  obtain ⟨⟨⟩, -, h⟩ := bind_ok h
  rw [hfind] at h
  obtain ⟨stored, hstored, h⟩ := bind_ok h
  cases h
  exact ⟨stored, hstored, rfl⟩

/-- A record that passes the checks of `RecordAudit` before the insert, with the tenant
filled in. -/
structure AuditPasses (E : AuditEnv) (record prepared : AuditRecord) : Prop where
  prepares : prepareAuditRecord E record = .ok prepared
  inScope : validateRecordRef "audit" (auditRefFromRecord prepared) = .ok ()
  owned : validateAuditOwnership E prepared = .ok ()
  finite : finitePayload record.payload = true

def AuditWaiting (record prepared : AuditRecord) : AuditCall → Prop
  | .called r => r = record
  | .absent r | .locked r | .chained r _ =>
      auditRefFromRecord r = auditRefFromRecord prepared ∧ finitePayload r.payload = true
  | .refused _ | .written _ | .done _ => False

def AuditWon (prepared : AuditRecord) (row : ListAuditChainRow) (call : AuditCall) : Prop :=
  ∃ stored, planAuditRecordFromRow row = .ok stored ∧
    ((∃ r, call = .written r ∧ auditRefFromRecord r = auditRefFromRecord prepared) ∨
      call = .done (.ok (stored, true)))

def AuditLost (row : ListAuditChainRow) (call : AuditCall) : Prop :=
  (∃ err, call = .done (.error err)) ∨
    ∃ stored, planAuditRecordFromRow row = .ok stored ∧ call = .done (.ok (stored, false))

/-- The insert of the call was not refused. -/
def AuditCall.unrefused : AuditCall → Bool
  | .refused _ => false
  | _ => true

/-- The steps that do not lead to a refused insert. -/
def AuditUnrefused (E : AuditEnv) :
    ι → AuditTable ι → AuditCall → AuditTable ι → AuditCall → Prop :=
  Moves (guarded (auditNext E) fun _ call => call.unrefused)

theorem planAuditRecordFromRow_auditRow (h : finitePayload record.payload = true) :
    ∃ stored, planAuditRecordFromRow (auditRow E.sha record prevHash) = .ok stored := by
  have hdecode := decodePayload_stored "AgentOSPlanRepo - GetAuditRecord - decode payload" h
  unfold planAuditRecordFromRow
  simp only [auditRow, hdecode, bind, bind]
  exact ⟨_, rfl⟩

variable {i : ι} {t t' : AuditTable ι} {call call' : AuditCall} {now : Time}

section

variable (h : AuditPasses E record prepared)
include h

theorem AuditWaiting.unwritten (hnone : findAuditRow t.rows (auditRefFromRecord prepared) = none)
    (hwaiting : AuditWaiting record prepared call) (hstep : AuditUnrefused E i t call t' call') :
    (findAuditRow t'.rows (auditRefFromRecord prepared) = none ∧
      AuditWaiting record prepared call') ∨
    ∃ row, findAuditRow t'.rows (auditRefFromRecord prepared) = some row ∧
      AuditWon prepared row call' := by
  obtain ⟨now, hstep⟩ := hstep
  obtain ⟨hnext, hok⟩ := of_guarded hstep
  cases call with
  | called r =>
    obtain rfl : r = record := hwaiting
    have hlookup : lookupAudit E now t.rows r =
        .ok (.absent (setAuditRecordDefaults E now prepared)) := by
      simp only [lookupAudit, h.prepares, getAuditRecord_absent h.inScope hnone, h.owned, bind,
        Except.bind]
      rfl
    simp only [auditNext, hlookup, Option.some.injEq, Prod.mk.injEq] at hnext
    obtain ⟨rfl, rfl⟩ := hnext
    refine .inl ⟨hnone, rfl, ?_⟩
    have hpayload := prepareAuditRecord_payload h.prepares
    simpa [finitePayload, payloadDocument, setAuditRecordDefaults, hpayload] using h.finite
  | absent r =>
    simp only [auditNext] at hnext
    split_ifs at hnext
    cases hnext
    exact .inl ⟨hnone, hwaiting⟩
  | locked r =>
    cases hnext
    exact .inl ⟨hnone, hwaiting⟩
  | chained r prevHash =>
    obtain ⟨href, hfinite⟩ := hwaiting
    simp only [auditNext] at hnext
    split_ifs at hnext <;> cases hnext
    · cases hok
    rw [← href] at hnone ⊢
    obtain ⟨stored, hstored⟩ :
        ∃ stored, planAuditRecordFromRow (auditRow E.sha r prevHash) = .ok stored :=
      planAuditRecordFromRow_auditRow hfinite
    exact .inr ⟨_, findAuditRow_concat_new hnone, stored, hstored, .inl ⟨r, rfl, href⟩⟩
  | refused r | written r | done r => cases hwaiting

theorem AuditWaiting.written (hfind : findAuditRow t.rows (auditRefFromRecord prepared) = some row)
    (hwaiting : AuditWaiting record prepared call) (hstep : AuditUnrefused E i t call t' call') :
    findAuditRow t'.rows (auditRefFromRecord prepared) = some row ∧
      (AuditWaiting record prepared call' ∨ AuditLost row call') := by
  obtain ⟨now, hstep⟩ := hstep
  obtain ⟨hnext, hok⟩ := of_guarded hstep
  cases call with
  | called r =>
    obtain rfl : r = record := hwaiting
    simp only [auditNext] at hnext
    split at hnext
    · next err herr =>
      cases hnext
      exact ⟨hfind, .inr (.inl ⟨err, rfl⟩)⟩
    · next found hlookup =>
      cases hnext
      refine ⟨hfind, .inr (.inr ?_)⟩
      obtain ⟨prepared', hprepares, hcases⟩ := lookupAudit_cases hlookup
      obtain rfl : prepared = prepared' := ok.inj (h.prepares.symm.trans hprepares)
      rcases hcases with ⟨existing, hget, rfl⟩ | ⟨hget, rfl⟩
      · obtain ⟨stored, hstored, hsome⟩ := getAuditRecord_found hfind hget
        cases hsome
        exact ⟨existing, hstored, rfl⟩
      · obtain ⟨_, -, hsome⟩ := getAuditRecord_found hfind hget
        cases hsome
  | absent r =>
    simp only [auditNext] at hnext
    split_ifs at hnext
    cases hnext
    exact ⟨hfind, .inl hwaiting⟩
  | locked r =>
    cases hnext
    exact ⟨hfind, .inl hwaiting⟩
  | chained r prevHash =>
    -- the unique index refuses the insert
    have hconflict := auditConflict_of_find (hwaiting.1.symm ▸ hfind)
    simp only [auditNext, hconflict, if_true] at hnext
    cases hnext
    cases hok
  | refused r | written r | done r => cases hwaiting

theorem auditRace [DecidableEq ι] :
    Race (AuditUnrefused (ι := ι) E)
      (fun t => findAuditRow t.rows (auditRefFromRecord prepared)) (AuditWaiting record prepared)
      (AuditWon prepared) AuditLost where
  unwritten := AuditWaiting.unwritten h
  written := AuditWaiting.written h
  winner := by
    rintro i t call t' call' row hfind ⟨stored, hstored, hcall⟩ ⟨now, hstep⟩
    have hnext := (of_guarded hstep).1
    rcases hcall with ⟨r, rfl, href⟩ | rfl
    · have hread : readBackAudit t.rows r = .ok stored := by
        simp only [readBackAudit, href, getAuditRecord_present h.inScope hfind hstored]
        rfl
      simp only [auditNext, hread, Option.some.injEq, Prod.mk.injEq] at hnext
      obtain ⟨rfl, rfl⟩ := hnext
      exact ⟨hfind, stored, hstored, .inr rfl⟩
    · cases hnext
  loser := by
    rintro i t call t' call' row hfind (⟨err, rfl⟩ | ⟨stored, hstored, rfl⟩) ⟨now, hstep⟩
    · cases hstep
    · cases hstep

theorem audit_oneCreator [DecidableEq ι] [Nonempty ι]
    {t₀ : AuditTable ι} (hnew : findAuditRow t₀.rows (auditRefFromRecord prepared) = none)
    {calls : ι → AuditCall} (hruns : Runs (AuditUnrefused E) t₀ (fun _ => .called record) t calls)
    {results : ι → Except Err (AuditRecord × Bool)} (hdone : ∀ i, calls i = .done (results i)) :
    OneCreator results := by
  obtain rfl : calls = fun i => .done (results i) := funext hdone
  rcases (auditRace h).runs hruns hnew (fun _ => rfl) with ⟨-, hall⟩ | ⟨row, c, -, hwon, hothers⟩
  · cases hall (Classical.arbitrary ι)
  · obtain ⟨stored, hstored, hcall⟩ := hwon
    have hcreated : results c = .ok (stored, true) := by
      rcases hcall with ⟨r, hr, -⟩ | hcall
      · cases hr
      · exact AuditCall.done.inj hcall
    refine .of_winner hcreated fun i hi => ?_
    rcases hothers i hi with hwaiting | ⟨err, herr⟩ | ⟨stored', hstored', hfound⟩
    · cases hwaiting
    · exact .inl ⟨err, AuditCall.done.inj herr⟩
    · obtain rfl : stored = stored' := ok.inj (hstored.symm.trans hstored')
      exact .inr (AuditCall.done.inj hfound)

end

end Audit

/-! ## Commands -/

section Command

variable {E : CommandEnv} {command prepared : PlanCommandRecord} {rows : List PlanCommandRow}
  {row : PlanCommandRow} {ref : RecordRef}

theorem findCommandRow_concat_new {table : CommandTable}
    (h : findCommandRow table.rows row.ref = none)
    (hfree : commandConflict table.rows row = false) :
    findCommandRow (table.insert row hfree).rows row.ref = some row := by
  simp only [findCommandRow, CommandTable.insert, find?_append] at h ⊢
  rw [h]
  simp

theorem getPlanCommand_absent (hscope : validateRecordRef "command" ref = .ok ())
    (hfind : findCommandRow rows ref = none) : getPlanCommand rows ref = .ok none := by
  simp only [getPlanCommand, hscope, hfind]
  rfl

theorem getPlanCommand_found {found : Option PlanCommandRecord}
    (hfind : findCommandRow rows ref = some row) (h : getPlanCommand rows ref = .ok found) :
    ∃ stored, planCommandRecordFromRow row = .ok stored ∧ found = some stored := by
  obtain ⟨⟨⟩, -, h⟩ := bind_ok h
  rw [hfind] at h
  obtain ⟨stored, hstored, h⟩ := bind_ok h
  cases h
  exact ⟨stored, hstored, rfl⟩

def stablePayload (payload : Payload) : Bool :=
  finitePayload payload && (payloadDocument payload).all stable

theorem decodePayload_stable (scope : String) (h : stablePayload payload = true) :
    decodePayload scope (some ((payloadDocument payload).map numeric)) =
      .ok (some (payload.getD [])) := by
  obtain ⟨hfinite, hsame⟩ := Bool.and_eq_true_iff.mp h
  have hmap : (payloadDocument payload).map (reread ∘ numeric) = payloadDocument payload :=
    map_eq_self (fun _ hn => reread_of_stable hn) hsame
  simp only [payloadDocument, Document.map, obj.injEq] at hmap
  rw [decodePayload_stored scope hfinite, hmap]

/-- A command that passes the checks of `RecordPlanCommand`, with the tenant filled in, and
that its row answers as it is: whole microseconds, and numbers that stay as they are written. -/
structure CommandPasses (E : CommandEnv) (command prepared : PlanCommandRecord) : Prop where
  prepares : preparePlanCommandRecord E command = .ok prepared
  inScope : validateRecordRef "command" (planCommandRefFromRecord prepared) = .ok ()
  fresh : normalizeNewPlanCommandStatus command.status = .ok .pending
  createdAt : truncateMicro command.createdAt = command.createdAt
  updatedAt : truncateMicro command.updatedAt = command.updatedAt
  payload : stablePayload command.payload = true

def CommandWaiting (command prepared : PlanCommandRecord) : CommandCall → Prop
  | .recording r => r = command
  | .inserting r => planCommandRefFromRecord r = planCommandRefFromRecord prepared ∧
      planCommandRecordFromRow (commandRow r) = .ok r
  | _ => False

def CommandWon (row : PlanCommandRow) (call : CommandCall) : Prop :=
  ∃ stored, planCommandRecordFromRow row = .ok stored ∧ call = .recorded (.ok (stored, true))

def CommandLost (row : PlanCommandRow) (call : CommandCall) : Prop :=
  (∃ err, call = .recorded (.error err)) ∨
    ∃ stored, planCommandRecordFromRow row = .ok stored ∧ call = .recorded (.ok (stored, false))

/-- The insert of the call was not refused. -/
def CommandCall.unrefused : CommandCall → Bool
  | .refused _ => false
  | _ => true

/-- The steps at a whole microsecond that do not lead to a refused insert. -/
def CommandUnrefused (E : CommandEnv) :
    ι → CommandStore → CommandCall → CommandStore → CommandCall → Prop :=
  Moves (guarded (commandNext E) fun now call => truncateMicro now == now && call.unrefused)

theorem preparePlanCommandRecord_ok (h : preparePlanCommandRecord E command = .ok prepared) :
    ∃ accountID projectID, prepared = { command with accountID, projectID } := by
  unfold preparePlanCommandRecord at h
  split_ifs at h
  obtain ⟨scope, -, h⟩ := bind_ok h
  cases scope with
  | none => cases h
  | some tenant =>
    cases h
    exact ⟨tenant.1, tenant.2, rfl⟩

theorem CommandPasses.defaults (h : CommandPasses E command prepared) {now : Time}
    (hnow : truncateMicro now = now) : ∃ r,
    setPlanCommandRecordDefaults E now prepared = .ok r ∧
      planCommandRefFromRecord r = planCommandRefFromRecord prepared ∧
      planCommandRecordFromRow (commandRow r) = .ok r := by
  obtain ⟨accountID, projectID, rfl⟩ := preparePlanCommandRecord_ok h.prepares
  simp only [setPlanCommandRecordDefaults, h.fresh, bind, bind, pure, pure]
  refine ⟨_, rfl, rfl, ?_⟩
  have hcreated : truncateMicro (if command.createdAt.isZero then now else command.createdAt) =
      if command.createdAt.isZero then now else command.createdAt := by
    split_ifs
    · exact hnow
    · exact h.createdAt
  have hupdated : truncateMicro (if command.updatedAt.isZero then
        (if command.createdAt.isZero then now else command.createdAt) else command.updatedAt) =
      if command.updatedAt.isZero then
        (if command.createdAt.isZero then now else command.createdAt) else command.updatedAt := by
    split_ifs
    · exact hnow
    · exact h.createdAt
    · exact h.updatedAt
  have hpayload := decodePayload_stable "AgentOSPlanRepo - scanPlanCommand - decode payload"
    h.payload
  have hdocument : payloadDocument (some (command.payload.getD [])) =
      payloadDocument command.payload := rfl
  simp only [planCommandRecordFromRow, commandRow, hdocument, hpayload, hcreated, hupdated, bind,
    Except.bind, pure, Except.pure]

variable {i : ι} {s s' : CommandStore} {call call' : CommandCall}

section

variable (h : CommandPasses E command prepared)
include h

theorem CommandWaiting.unwritten
    (hnone : findCommandRow s.commands.rows (planCommandRefFromRecord prepared) = none)
    (hwaiting : CommandWaiting command prepared call)
    (hstep : CommandUnrefused E i s call s' call') :
    (findCommandRow s'.commands.rows (planCommandRefFromRecord prepared) = none ∧
      CommandWaiting command prepared call') ∨
    ∃ row, findCommandRow s'.commands.rows (planCommandRefFromRecord prepared) = some row ∧
      CommandWon row call' := by
  obtain ⟨now, hstep⟩ := hstep
  obtain ⟨hnext, hok⟩ := of_guarded hstep
  obtain ⟨hnow, hok⟩ := Bool.and_eq_true_iff.mp hok
  cases call with
  | recording r =>
    obtain rfl : r = command := hwaiting
    obtain ⟨new, hnew, href, hrow⟩ := h.defaults (beq_iff_eq.mp hnow)
    have hlookup : lookupCommand E now s.commands.rows r = .ok (.inserting new) := by
      simp only [lookupCommand, h.prepares, getPlanCommand_absent h.inScope hnone, hnew, bind,
        Except.bind]
      rfl
    simp only [commandNext, hlookup, Option.some.injEq, Prod.mk.injEq] at hnext
    obtain ⟨rfl, rfl⟩ := hnext
    exact .inl ⟨hnone, href, hrow⟩
  | inserting r =>
    obtain ⟨href, hrow⟩ := hwaiting
    simp only [commandNext] at hnext
    split_ifs at hnext with hfree <;> cases hnext
    · have hrowref : (commandRow r).ref = planCommandRefFromRecord prepared := href
      rw [← hrowref] at hnone ⊢
      exact .inr ⟨_, findCommandRow_concat_new hnone hfree, r, hrow, rfl⟩
    · cases hok
  | refused r | recorded r | marking _ _ _ | auditing _ _ _ _ | updating _ _ _ | marked _ =>
    cases hwaiting

theorem CommandWaiting.written
    (hfind : findCommandRow s.commands.rows (planCommandRefFromRecord prepared) = some row)
    (hwaiting : CommandWaiting command prepared call)
    (hstep : CommandUnrefused E i s call s' call') :
    findCommandRow s'.commands.rows (planCommandRefFromRecord prepared) = some row ∧
      (CommandWaiting command prepared call' ∨ CommandLost row call') := by
  obtain ⟨now, hstep⟩ := hstep
  obtain ⟨hnext, hok⟩ := of_guarded hstep
  obtain ⟨-, hok⟩ := Bool.and_eq_true_iff.mp hok
  cases call with
  | recording r =>
    obtain rfl : r = command := hwaiting
    simp only [commandNext] at hnext
    split at hnext
    · next err herr =>
      cases hnext
      exact ⟨hfind, .inr (.inl ⟨err, rfl⟩)⟩
    · next found hlookup =>
      cases hnext
      refine ⟨hfind, .inr (.inr ?_)⟩
      obtain ⟨prepared', hprepares, hcases⟩ := lookupCommand_cases hlookup
      obtain rfl : prepared = prepared' := ok.inj (h.prepares.symm.trans hprepares)
      rcases hcases with ⟨existing, hget, rfl⟩ | ⟨hget, new, -, rfl⟩
      · obtain ⟨stored, hstored, hsome⟩ := getPlanCommand_found hfind hget
        cases hsome
        exact ⟨existing, hstored, rfl⟩
      · obtain ⟨_, -, hsome⟩ := getPlanCommand_found hfind hget
        cases hsome
  | inserting r =>
    -- the unique index refuses the insert
    obtain ⟨hmem, hrowref⟩ := findCommandRow_some hfind
    have hconflict : commandConflict s.commands.rows (commandRow r) = true := by
      refine any_eq_true.mpr ⟨row, hmem, ?_⟩
      have hsame : row.ref = (commandRow r).ref := hrowref.trans hwaiting.1.symm
      simp [hsame]
    simp only [commandNext, hconflict] at hnext
    cases hnext
    cases hok
  | refused r | recorded r | marking _ _ _ | auditing _ _ _ _ | updating _ _ _ | marked _ =>
    cases hwaiting

theorem commandRace [DecidableEq ι] :
    Race (CommandUnrefused (ι := ι) E)
      (fun s => findCommandRow s.commands.rows (planCommandRefFromRecord prepared))
      (CommandWaiting command prepared) CommandWon CommandLost where
  unwritten := CommandWaiting.unwritten h
  written := CommandWaiting.written h
  winner := by
    rintro i s call s' call' row hfind ⟨stored, hstored, rfl⟩ ⟨now, hstep⟩
    cases hstep
  loser := by
    rintro i s call s' call' row hfind (⟨err, rfl⟩ | ⟨stored, hstored, rfl⟩) ⟨now, hstep⟩
    · cases hstep
    · cases hstep

theorem command_oneCreator [DecidableEq ι] [Nonempty ι] {s₀ : CommandStore}
    (hnew : findCommandRow s₀.commands.rows (planCommandRefFromRecord prepared) = none)
    {calls : ι → CommandCall}
    (hruns : Runs (CommandUnrefused E) s₀ (fun _ => .recording command) s calls)
    {results : ι → Except Err (PlanCommandRecord × Bool)}
    (hdone : ∀ i, calls i = .recorded (results i)) : OneCreator results := by
  obtain rfl : calls = fun i => .recorded (results i) := funext hdone
  rcases (commandRace h).runs hruns hnew (fun _ => rfl) with ⟨-, hall⟩ | ⟨row, c, -, hwon, hothers⟩
  · cases hall (Classical.arbitrary ι)
  · obtain ⟨stored, hstored, hcall⟩ := hwon
    refine .of_winner (CommandCall.recorded.inj hcall) fun i hi => ?_
    rcases hothers i hi with hwaiting | ⟨err, herr⟩ | ⟨stored', hstored', hfound⟩
    · cases hwaiting
    · exact .inl ⟨err, CommandCall.recorded.inj herr⟩
    · obtain rfl : stored = stored' := ok.inj (hstored.symm.trans hstored')
      exact .inr (CommandCall.recorded.inj hfound)

end

end Command

/-! ## Both -/

/-- Calls of `RecordAudit`, and of `RecordPlanCommand`, with one key and one content have one
creator when no insert is refused.  For a command, the record has to come back from its row
as it was. -/
theorem one_creator [DecidableEq ι] [Nonempty ι] :
    (∀ (E : AuditEnv) (record prepared : AuditRecord) (t₀ t : AuditTable ι)
      (calls : ι → AuditCall) (results : ι → Except Err (AuditRecord × Bool)),
      AuditPasses E record prepared →
      findAuditRow t₀.rows (auditRefFromRecord prepared) = none →
      Runs (AuditUnrefused E) t₀ (fun _ => .called record) t calls →
      (∀ i, calls i = .done (results i)) → OneCreator results) ∧
    ∀ (E : CommandEnv) (command prepared : PlanCommandRecord) (s₀ s : CommandStore)
      (calls : ι → CommandCall) (results : ι → Except Err (PlanCommandRecord × Bool)),
      CommandPasses E command prepared →
      findCommandRow s₀.commands.rows (planCommandRefFromRecord prepared) = none →
      Runs (CommandUnrefused E) s₀ (fun _ => .recording command) s calls →
      (∀ i, calls i = .recorded (results i)) → OneCreator results := by
  refine ⟨?_, ?_⟩
  · intro E record prepared t₀ t calls results hpasses hnew hruns hdone
    exact audit_oneCreator hpasses hnew hruns hdone
  · intro E command prepared s₀ s calls results hpasses hnew hruns hdone
    exact command_oneCreator hpasses hnew hruns hdone

/-- What a call of `RecordAudit` answered. -/
def AuditCall.result : AuditCall → Except Err (AuditRecord × Bool)
  | .done result => result
  | _ => .error .canceled

/-- What a call of `RecordPlanCommand` answered. -/
def CommandCall.result : CommandCall → Except Err (PlanCommandRecord × Bool)
  | .recorded result => result
  | _ => .error .canceled

/-- An answer that reports a created record. -/
def created {R : Type} : Except Err (R × Bool) → Bool
  | .ok (_, flag) => flag
  | .error _ => false

/-- A signal to be recorded. -/
def signalToRecord : PlanCommandRecord :=
  { planID := "plan", actorID := "actor", action := .planSignal, idempotencyKey := "k1" }

/-- An empty command log. -/
def noCommands : CommandStore := ⟨⟨[], Pairwise.nil⟩, []⟩

/-- A plan with a tenant. -/
def oneTenantCommands : CommandEnv := ⟨plainSha, fun _ => .ok (some ("account", "project"))⟩

/-- Two calls one after the other. -/
def auditTurns : List (Time × Bool) := replicate 5 (1000, true) ++ [(2000, false)]

/-- Two calls one after the other. -/
def commandTurns : List (Time × Bool) := [(1000, true), (1000, true), (2000, false)]

/-- The second call looks the key up behind the insert of the first. -/
theorem one_creator_sequential :
    OneCreator (fun i => ((play (guarded (auditNext oneTenant) fun _ call => call.unrefused)
      auditTurns (⟨[], fun _ => none⟩, fun _ : Bool => .called (twoRecords true))).2 i).result) ∧
    OneCreator (fun i => ((play (guarded (commandNext oneTenantCommands) fun now call =>
        truncateMicro now == now && call.unrefused)
      commandTurns (noCommands, fun _ : Bool => .recording signalToRecord)).2 i).result) := by
  constructor
  · refine one_creator.1 oneTenant (twoRecords true)
      { twoRecords true with accountID := "account", projectID := "project" }
      ⟨[], fun _ => none⟩ _ _ _ ⟨rfl, rfl, rfl, rfl⟩ rfl (Runs.play _ auditTurns .start) ?_
    intro i
    cases i <;> rfl
  · refine one_creator.2 oneTenantCommands signalToRecord
      { signalToRecord with accountID := "account", projectID := "project" }
      noCommands _ _ _ ⟨rfl, rfl, rfl, rfl, rfl, rfl⟩ rfl (Runs.play _ commandTurns .start) ?_
    intro i
    cases i <;> rfl

/-- Both calls look the key up before one inserts the row.  Both report a created record. -/
theorem two_creators :
    (∃ t calls, Runs (Moves (auditNext oneTenant)) ⟨[], fun _ => none⟩
        (fun _ : Bool => .called (twoRecords true)) t calls ∧
      ∀ i, created (calls i).result = true) ∧
    ∃ s calls, Runs (Moves (commandNext oneTenantCommands)) noCommands
        (fun _ : Bool => .recording signalToRecord) s calls ∧
      ∀ i, created (calls i).result = true := by
  refine ⟨⟨_, _, Runs.play _ ([(1000, true), (2000, false)] ++
    [true, false].flatMap fun i => replicate 4 (3000, i)) .start, ?_⟩,
    ⟨_, _, Runs.play _ [(1000, true), (2000, false), (3000, true), (3000, false), (4000, false)]
      .start, ?_⟩⟩
  · decide +kernel
  · decide +kernel

end AgentOS.Store
