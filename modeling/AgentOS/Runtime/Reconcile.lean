import AgentOS.Runtime.Delivery
import AgentOS.Store.Creators

/-!
# Delivering a recorded command

A signal or a control is recorded as a command, read back by a pass of `Recover`, sent to the
workflow, recorded in the audit log and marked as delivered.  The audit record is rebuilt from
the command, and the mark compares it with the command twice: Go compares what it decodes, and
the trigger `enforce_delivered_plan_command_audit` compares the two `jsonb` columns.
-/

namespace AgentOS.Runtime

open Kit Store List Function Number Except RuntimeStore PlanMessage

/-! ## The way back of a payload -/

/-- The members of a payload when they are read back from their column. -/
def readBack (members : List (String × Document Number)) : List (String × Document Number) :=
  Document.mapMembers (reread ∘ numeric) members

theorem readBack_eq_map (members : List (String × Document Number)) :
    readBack members = members.map fun (key, d) => (key, d.map (reread ∘ numeric)) :=
  Document.mapMembers_eq_map _ members

theorem readBack_timeMember (rfc : Rfc3339) (key : String) (t : Time) :
    readBack (timeMember rfc key t) = timeMember rfc key t := by
  unfold timeMember
  split <;> rfl

theorem map_stringMapDocument (f : Number → Number) (m : Option (List (String × String))) :
    (stringMapDocument m).map f = stringMapDocument m := by
  cases m with
  | none => rfl
  | some entries =>
    simp only [stringMapDocument, Option.elim_some, Document.map, Document.mapMembers_eq_map,
      map_map]
    rfl

/-- The message that is rebuilt from a command.  It differs in the numbers of a payload. -/
def PlanMessage.readBack : PlanMessage → PlanMessage
  | .signal sent => .signal { sent with payload := sent.payload.map Runtime.readBack }
  | .control request => .control request

theorem readBack_auditRecord (rfc : Rfc3339) (ref ref' : PlanRef) (message : PlanMessage) :
    (message.auditRecord rfc ref).payload.map readBack =
      (message.readBack.auditRecord rfc ref').payload := by
  cases message with
  | signal sent =>
    have hpayload : (sent.payload.elim .null .obj : Document Number).map
        (Number.reread ∘ Number.numeric) = (sent.payload.map readBack).elim .null .obj := by
      cases sent.payload <;> rfl
    have htime := readBack_timeMember rfc "sent_at" sent.sentAt
    rw [readBack_eq_map] at htime
    simp only [auditRecord, PlanMessage.readBack, planSignalAuditRecord,
      Option.map_some, readBack_eq_map, map_cons, map_append, hpayload, htime]
    rfl
  | control request =>
    have htime := readBack_timeMember rfc "requested_at" request.requestedAt
    rw [readBack_eq_map] at htime
    simp only [auditRecord, PlanMessage.readBack, planControlAuditRecord,
      Option.map_some, readBack_eq_map, map_cons, map_stringMapDocument, htime]
    rfl

/-! ## The message of a command -/

/-- What `ValidatePlanSignal` accepts, and what `ValidateControlRequest` accepts with an actor. -/
def PlanMessage.Valid : PlanMessage → Prop
  | .signal sent => Plan.validatePlanSignal sent.signal = .ok ()
  | .control request => validateControlRequest request.control = .ok () ∧ request.actorID ≠ ""

/-- The message is a signal whose payload is the nil map. -/
def PlanMessage.isNil : PlanMessage → Bool
  | .signal sent => sent.payload.isNone
  | .control _ => false

section Rebuild

variable {rfc : Rfc3339} {payload : Payload} {key : String}

theorem optionalTimePayload_member {t : Time} (h : mapGet (payload.getD []) key =
      if t.isZero then none else some (.str (rfc.format t))) :
    optionalTimePayload rfc payload key = .ok t := by
  unfold optionalTimePayload
  rw [h]
  split_ifs with hzero
  · have ht : t = 0 := by simpa [Time.isZero] using hzero
    simp [ht]
  · simp [rfc.parse_format]

theorem ofText_text_of_valid {sent : Signal} (h : Plan.validatePlanSignal sent = .ok ()) :
    SignalType.ofText sent.type.text = sent.type := by
  unfold Plan.validatePlanSignal at h
  split_ifs at h
  cases htype : sent.type with
  | other name =>
    rw [htype] at h
    cases h
  | _ => rfl

theorem signal_readBack (sent : PlanSignal) :
    ({ sent with payload := sent.payload.map readBack } : PlanSignal).signal = sent.signal := by
  have hmembers : (sent.payload.map readBack).getD [] = readBack (sent.payload.getD []) := by
    cases sent.payload <;> rfl
  simp only [PlanSignal.signal, hmembers, readBack_eq_map, map_map, Signal.mk.injEq, true_and,
    and_true]
  refine map_congr_left fun member _ => ?_
  obtain ⟨key, d⟩ := member
  cases d <;> rfl

variable {ref : PlanRef} {command : PlanCommandRecord}

theorem signalFromPlanCommand_rebuilt {sent : PlanSignal}
    (hvalid : Plan.validatePlanSignal sent.signal = .ok ()) (hnil : sent.payload.isNone = false)
    (hactor : command.actorID = sent.actorID) (hkey : command.idempotencyKey = sent.idempotencyKey)
    (hpayload : command.payload = (planSignalAuditRecord rfc ref
      { sent with payload := sent.payload.map readBack }).payload) :
    signalFromPlanCommand rfc command = .ok { sent with payload := sent.payload.map readBack } := by
  obtain ⟨members, hmembers⟩ := Option.isSome_iff_exists.mp (by simpa using hnil)
  simp only [planSignalAuditRecord, hmembers, Option.map_some, Option.elim_some] at hpayload
  have htype : textPayload command.payload "type" = .ok sent.type.text := by
    rw [hpayload]
    unfold timeMember
    split_ifs <;> rfl
  have hmap : mapPayload command.payload "payload" = .ok (readBack members) := by
    rw [hpayload]
    rfl
  have htime : optionalTimePayload rfc command.payload "sent_at" = .ok sent.sentAt := by
    refine optionalTimePayload_member ?_
    rw [hpayload]
    unfold timeMember
    split_ifs <;> rfl
  have hsame := signal_readBack sent
  rw [hmembers, Option.map_some] at hsame
  have htext : SignalType.ofText sent.type.text = sent.type := ofText_text_of_valid hvalid
  simp only [signalFromPlanCommand, signalTypePayload, htype, hmap, htime, htext, hactor, hkey, bind,
    Except.bind, pure, Except.pure, hmembers, Option.map_some]
  rw [hsame, hvalid]

theorem mapM_stringEntry (entries : List (String × String)) :
    (entries.map fun (key, value) => (key, (.str value : Document Number))).mapM stringEntry =
      .ok entries := by
  induction entries with
  | nil => rfl
  | cons entry entries ih =>
    rw [map_cons, mapM_cons, ih]
    rfl

theorem controlFromPlanCommand_rebuilt {request : PlanControl}
    (hvalid : validateControlRequest request.control = .ok ()) (hactorID : request.actorID ≠ "")
    (hactor : command.actorID = request.actorID)
    (hkey : command.idempotencyKey = request.idempotencyKey)
    (hpayload : command.payload = (planControlAuditRecord rfc ref request).payload) :
    controlFromPlanCommand rfc command = .ok request := by
  simp only [planControlAuditRecord] at hpayload
  have hoperation : textPayload command.payload "operation" = .ok request.operation.text := by
    rw [hpayload]
    rfl
  have hmap : stringMapPayload command.payload "metadata" = .ok request.metadata := by
    unfold stringMapPayload
    rw [hpayload]
    cases hmetadata : request.metadata with
    | none => rfl
    | some entries =>
      have hentries := mapM_stringEntry entries
      simp only [mapGet, Option.getD_some, find?_cons, beq_self_eq_true, Option.map_some,
        stringMapDocument, Option.elim_some, hentries, bind, Except.bind, pure, Except.pure]
  have htime : optionalTimePayload rfc command.payload "requested_at" =
      .ok request.requestedAt := by
    refine optionalTimePayload_member ?_
    rw [hpayload]
    unfold timeMember
    split_ifs <;> rfl
  have htext : ControlOperation.ofText request.operation.text = request.operation := by
    cases hoperation : request.operation with
    | other name => simp [validateControlRequest, PlanControl.control, hoperation] at hvalid
    | _ => rfl
  have hcontrol : validateControlRequest
      { operation := request.operation, idempotencyKey := request.idempotencyKey,
        requestedAt := request.requestedAt, actorID := request.actorID,
        metadata := request.metadata.getD [] } = .ok () := hvalid
  simp only [controlFromPlanCommand, controlOperationPayload, hoperation, hmap, htime, htext, hactor,
    hkey, bind, Except.bind, pure, Except.pure, PlanControl.control, hcontrol, if_neg hactorID]

theorem commandDeliveryPayload_rebuilt {message : PlanMessage} (hvalid : message.Valid)
    (hnil : message.isNil = false)
    (hactor : command.actorID = (message.auditRecord rfc ref).actorID)
    (haction : command.action = (message.auditRecord rfc ref).action)
    (hkey : command.idempotencyKey = (message.auditRecord rfc ref).idempotencyKey)
    (hpayload : command.payload = (message.auditRecord rfc ref).payload.map readBack) :
    commandDeliveryPayload rfc command =
      .ok (message.readBack, auditRecordFromPlanCommand command) := by
  rw [readBack_auditRecord rfc ref (planRefFromCommand command)] at hpayload
  have hrecord : message.readBack.auditRecord rfc (planRefFromCommand command) =
      auditRecordFromPlanCommand command := by
    simp only [auditRecordFromPlanCommand, hpayload, hactor, haction, hkey]
    cases message <;> rfl
  cases message with
  | signal sent =>
    have haction : command.action = .planSignal := haction
    have hsignal := signalFromPlanCommand_rebuilt hvalid hnil hactor hkey hpayload
    simp only [commandDeliveryPayload, haction, hsignal, bind, bind, pure, pure]
    exact congrArg (fun record => ok (PlanMessage.readBack (.signal sent), record)) hrecord
  | control request =>
    have haction : command.action = .planControl := haction
    have hcontrol := controlFromPlanCommand_rebuilt hvalid.1 hvalid.2 hactor hkey hpayload
    simp only [commandDeliveryPayload, haction, hcontrol, bind, bind, pure, pure]
    exact congrArg (fun record => ok (PlanMessage.readBack (.control request), record)) hrecord

end Rebuild

/-! ## What is stored -/

/-- The row is the one that a `RecordPlanCommand` for the record inserted, whatever its status
is since. -/
def RecordedAs (env : CommandEnv) (record : AuditRecord) (row : PlanCommandRow) : Prop :=
  ∃ now rows stored status reason updatedAt,
    lookupCommand env now rows (planCommandFromAuditRecord record) = .ok (.inserting stored) ∧
      row = (commandRow stored).withStatus status reason updatedAt

/-- The row of the reference is the one that a `RecordAudit` of the record inserted. -/
def AuditedAs (env : AuditEnv) (record : AuditRecord) (rows : List ListAuditChainRow)
    (ref : RecordRef) : Prop :=
  ∃ now before stored prevHash, lookupAudit env now before record = .ok (.absent stored) ∧
    findAuditRow rows ref = some (auditRow env.sha stored prevHash)

/-- Nothing is audited under the reference, its audit id is not in use, and no transaction holds
the lock of the tenant. -/
def Unaudited {ι : Type} (sha : Sha256) (t : AuditTable ι) (ref : RecordRef) : Prop :=
  findAuditRow t.rows ref = none ∧ (∀ row ∈ t.rows, row.auditID ≠ auditIDFromRef sha ref) ∧
    t.lock (ref.accountID, ref.projectID) = none

/-- All numbers of the payload are binary64 numbers. -/
def exactPayload (payload : Payload) : Bool := (payloadDocument payload).all exact

section Exact

variable {payload : Payload}

theorem readBack_readBack (h : exactPayload payload = true) :
    readBack (readBack (payload.getD [])) = readBack (payload.getD []) := by
  simp only [readBack, Document.mapMembers_mapMembers]
  refine Document.obj.inj (Document.map_congr (fun n hn => ?_) (.obj (payload.getD [])) h)
  rw [comp_apply, comp_apply, comp_apply]
  exact reread_exact hn

theorem jsonbEq_readBack (h : exactPayload payload = true) :
    jsonbEq (some (((payloadDocument payload).map (reread ∘ numeric)).map
      numeric)) (some ((payloadDocument payload).map numeric)) = true := by
  simp only [jsonbEq, Document.map_map]
  refine Document.eqBy_map_map (fun n hn => ?_) _ h
  rw [comp_apply, comp_apply, same_numeric_left, same_comm]
  exact same_of_exact hn

theorem finite_readBack (h : exactPayload payload = true) :
    ((payloadDocument payload).map (reread ∘ numeric)).all (finite ∘ numeric) = true := by
  rw [Document.all_map]
  refine Document.all_imp (fun n hn => ?_) _ h
  rw [comp_apply, comp_apply, comp_apply]
  exact finite_reread hn

end Exact

structure RecordedRow (env : CommandEnv) (record : AuditRecord) (row : PlanCommandRow) : Prop where
  planID : row.planID = record.planID
  tenant : env.tenantScope row.planID = .ok (some (row.accountID, row.projectID))
  actorID : row.actorID = record.actorID
  action : row.action = record.action
  idempotencyKey : row.idempotencyKey = record.idempotencyKey
  payload : row.payloadJson = some ((payloadDocument record.payload).map numeric)
  inScope : row.planID ≠ "" ∧ row.accountID ≠ "" ∧ row.projectID ≠ "" ∧ row.idempotencyKey ≠ ""

theorem validateRecordRef_ok {subject : String} {ref : RecordRef} :
    validateRecordRef subject ref = .ok () ↔
      ref.planID ≠ "" ∧ ref.accountID ≠ "" ∧ ref.projectID ≠ "" ∧ ref.idempotencyKey ≠ "" := by
  unfold validateRecordRef validatePlanRef
  by_cases hplan : ref.planID = "" <;> by_cases haccount : ref.accountID = "" <;>
    by_cases hproject : ref.projectID = "" <;> by_cases hkey : ref.idempotencyKey = "" <;>
    simp [hplan, haccount, hproject, hkey, bind, Except.bind]

variable {record : AuditRecord} {env : CommandEnv}

theorem RecordedAs.row {row : PlanCommandRow}
    (h : RecordedAs env record row) : RecordedRow env record row := by
  obtain ⟨now, rows, stored, status, reason, updatedAt, hlookup, rfl⟩ := h
  obtain ⟨prepared, hprepared, hlookup⟩ := bind_ok hlookup
  obtain ⟨found, hfound, hlookup⟩ := bind_ok hlookup
  cases found with
  | some existing =>
    obtain ⟨⟨⟩, -, hlookup⟩ := bind_ok hlookup
    cases hlookup
  | none =>
    obtain ⟨defaulted, hdefaulted, hlookup⟩ := bind_ok hlookup
    cases hlookup
    obtain ⟨newStatus, -, hdefaulted⟩ := bind_ok hdefaulted
    cases hdefaulted
    obtain ⟨⟨⟩, hscope, -⟩ := bind_ok hfound
    unfold preparePlanCommandRecord at hprepared
    split_ifs at hprepared
    obtain ⟨scope, hscoped, hprepared⟩ := bind_ok hprepared
    cases scope with
    | none => cases hprepared
    | some tenant =>
      cases hprepared
      exact {
        planID := rfl
        tenant := hscoped
        actorID := rfl
        action := rfl
        idempotencyKey := rfl
        payload := rfl
        inScope := validateRecordRef_ok.mp hscope }

theorem RecordedRow.reads {row : PlanCommandRow}
    (h : RecordedRow env record row) (hfinite : finitePayload record.payload = true) :
    planCommandRecordFromRow row = .ok
      { commandID := row.commandID, planID := row.planID, accountID := row.accountID,
        projectID := row.projectID, actorID := row.actorID, action := row.action,
        idempotencyKey := row.idempotencyKey,
        payload := some (readBack (record.payload.getD [])), status := row.status,
        failureReason := row.failureReason, createdAt := row.createdAt,
        updatedAt := row.updatedAt } := by
  have hdecode := decodePayload_stored "AgentOSPlanRepo - scanPlanCommand - decode payload" hfinite
  simp only [planCommandRecordFromRow, h.payload, hdecode, bind, bind]
  rfl

/-! ## The audit record of a command -/

structure AuditMatches (row : PlanCommandRow) (command : PlanCommandRecord)
    (audit : ListAuditChainRow) : Prop where
  ref : audit.planID = row.planID ∧ audit.accountID = row.accountID ∧
    audit.projectID = row.projectID ∧ audit.idempotencyKey = row.idempotencyKey
  unowned : audit.runID = "" ∧ audit.nodeID = ""
  actorID : audit.actorID = row.actorID
  action : audit.action = row.action.text
  columns : jsonbEq audit.payloadJson row.payloadJson = true
  decoded : ∀ scope, decodePayload scope audit.payloadJson = .ok command.payload

structure ReadCommand (env : CommandEnv) (row : PlanCommandRow) (command : PlanCommandRecord) :
    Prop where
  reads : planCommandRecordFromRow row = .ok command
  recoverable : row.status = .pending ∨ row.status = .failed
  action : row.action = .planSignal ∨ row.action = .planControl
  tenant : env.tenantScope row.planID = .ok (some (row.accountID, row.projectID))
  inScope : row.planID ≠ "" ∧ row.accountID ≠ "" ∧ row.projectID ≠ "" ∧ row.idempotencyKey ≠ ""

section Audit

variable {env : CommandEnv} {row : PlanCommandRow} {command : PlanCommandRecord}
  {audit : ListAuditChainRow} {rows : List ListAuditChainRow}

theorem ReadCommand.columns (h : ReadCommand env row command) :
    command.planID = row.planID ∧ command.accountID = row.accountID ∧
      command.projectID = row.projectID ∧ command.actorID = row.actorID ∧
      command.action = row.action ∧ command.idempotencyKey = row.idempotencyKey ∧
      command.status = row.status := by
  obtain ⟨payload, -, hread⟩ := bind_ok h.reads
  cases hread
  exact ⟨rfl, rfl, rfl, rfl, rfl, rfl, rfl⟩

theorem ReadCommand.valid (h : ReadCommand env row command) (subject : String) :
    validateRecordRef subject row.ref = .ok () := validateRecordRef_ok.mpr h.inScope

theorem ReadCommand.ref (h : ReadCommand env row command) :
    planCommandRefFromRecord command = row.ref := planCommandRecordFromRow_ref h.reads

theorem ofText_action (h : row.action = .planSignal ∨ row.action = .planControl) :
    AuditAction.ofText row.action.text = row.action := by
  rcases h with h | h <;> rw [h] <;> rfl

section

variable (hmatches : AuditMatches row command audit) (h : ReadCommand env row command)
  (hfind : findAuditRow rows row.ref = some audit)
include hmatches h hfind

theorem AuditMatches.found :
    ∃ existing, getAuditRecord rows row.ref = .ok (some existing) ∧
      validateAuditIdempotency existing (auditRecordFromPlanCommand command) = .ok () := by
  obtain ⟨hplan, haccount, hproject, hkey⟩ := hmatches.ref
  obtain ⟨hrun, hnode⟩ := hmatches.unowned
  obtain ⟨hcplan, hcaccount, hcproject, hcactor, hcaction, hckey, -⟩ := h.columns
  have hread : planAuditRecordFromRow audit = .ok
      { auditRecordFromPlanCommand command with
        auditID := audit.auditID, createdAt := audit.createdAt } := by
    simp only [planAuditRecordFromRow, hmatches.decoded, bind, bind, hplan, haccount,
      hproject, hkey, hrun, hnode, hmatches.actorID, hmatches.action, ofText_action h.action,
      auditRecordFromPlanCommand, hcplan, hcaccount, hcproject, hcactor, hcaction, hckey]
    rfl
  refine ⟨_, getAuditRecord_present (h.valid _) hfind hread, ?_⟩
  simp [validateAuditIdempotency, auditRecordFromPlanCommand]

theorem AuditMatches.validates : validatePlanCommandDeliveredAudit rows command = .ok () := by
  obtain ⟨existing, hget, hvalid⟩ := hmatches.found h hfind
  have href : auditRefFromRecord (auditRecordFromPlanCommand command) = row.ref := h.ref
  simp only [validatePlanCommandDeliveredAudit, href, hget, bind, bind]
  exact hvalid

theorem AuditMatches.triggers
    (now : Time) : commandTriggers rows row (row.withStatus .delivered "" now) = .ok () := by
  obtain ⟨hplan, haccount, hproject, hkey⟩ := hmatches.ref
  have hmatch : rows.any (fun audit =>
      audit.planID == row.planID && audit.accountID == row.accountID &&
      audit.projectID == row.projectID && audit.actorID == row.actorID &&
      audit.action == row.action.text && audit.idempotencyKey == row.idempotencyKey &&
      jsonbEq audit.payloadJson row.payloadJson) = true := by
    refine any_eq_true.mpr ⟨audit, mem_of_find?_eq_some hfind, ?_⟩
    simp [hplan, haccount, hproject, hkey, hmatches.actorID, hmatches.action, hmatches.columns]
  have hopen : row.status ≠ .delivered := by
    rcases h.recoverable with hstatus | hstatus <;> simp [hstatus]
  simp [commandTriggers, PlanCommandRow.withStatus, hmatch, hopen]

end

end Audit

/-! ## Two ways to a matching audit record -/

section Matches

variable {env : CommandEnv} {record stored : AuditRecord} {row : PlanCommandRow}
  {command : PlanCommandRecord} {sha : Sha256} {prevHash : String}

structure Envelope (row : PlanCommandRow) (stored : AuditRecord) : Prop where
  ref : auditRefFromRecord stored = row.ref
  unowned : stored.runID = "" ∧ stored.nodeID = ""
  actorID : stored.actorID = row.actorID
  action : stored.action = row.action

theorem Envelope.matches (h : Envelope row stored)
    (hcolumns : jsonbEq (some ((payloadDocument stored.payload).map numeric))
      row.payloadJson = true) (hfinite : finitePayload stored.payload = true)
    (hdecoded : command.payload = some (readBack (stored.payload.getD []))) :
    AuditMatches row command (auditRow sha stored prevHash) := by
  have href := h.ref
  simp only [auditRefFromRecord, PlanCommandRow.ref, RecordRef.mk.injEq] at href
  obtain ⟨hplan, haccount, hproject, hkey⟩ := href
  exact {
    ref := ⟨hplan, haccount, hproject, hkey⟩
    unowned := h.unowned
    actorID := h.actorID
    action := congrArg AuditAction.text h.action
    columns := hcolumns
    decoded := fun scope => by
      rw [hdecoded]
      exact decodePayload_stored scope hfinite }

theorem Envelope.matches_original (h : Envelope row stored)
    (hrow : RecordedRow env record row) (hpayload : stored.payload = some (record.payload.getD []))
    (hfinite : finitePayload record.payload = true)
    (hdecoded : command.payload = some (readBack (record.payload.getD []))) :
    AuditMatches row command (auditRow sha stored prevHash) := by
  have hdocument : payloadDocument stored.payload = payloadDocument record.payload := by
    rw [hpayload]
    rfl
  have hall : (payloadDocument record.payload).all (finite ∘ numeric) = true := by
    simpa only [finitePayload] using hfinite
  refine h.matches ?_ ?_ ?_
  · rw [hrow.payload, hdocument]
    exact Document.eqBy_map_map (fun n _ => same_refl n.numeric) _ hall
  · rw [finitePayload, hdocument]
    exact hfinite
  · rw [hdecoded, hpayload]
    rfl

theorem Envelope.matches_rebuilt (h : Envelope row stored) (hrow : RecordedRow env record row)
    (hpayload : stored.payload = command.payload) (hexact : exactPayload record.payload = true)
    (hdecoded : command.payload = some (readBack (record.payload.getD []))) :
    AuditMatches row command (auditRow sha stored prevHash) := by
  have hdocument : payloadDocument stored.payload =
      (payloadDocument record.payload).map (reread ∘ numeric) := by
    simp [hpayload, hdecoded, payloadDocument, Document.map, readBack]
  refine h.matches ?_ ?_ ?_
  · rw [hrow.payload, hdocument]
    exact jsonbEq_readBack hexact
  · rw [finitePayload, hdocument]
    exact finite_readBack hexact
  · rw [hpayload, hdecoded, Option.getD_some, readBack_readBack hexact]

theorem lookupAudit_absent {E : AuditEnv} {now : Time} {rows : List ListAuditChainRow}
    (h : lookupAudit E now rows record = .ok (.absent stored)) :
    ∃ tenant, E.tenantScope record.planID = .ok (some tenant) ∧
      stored = setAuditRecordDefaults E now
        { record with accountID := tenant.1, projectID := tenant.2 } := by
  obtain ⟨prepared, hprepares, hcases⟩ := lookupAudit_cases h
  rcases hcases with ⟨existing, -, hdone⟩ | ⟨-, habsent⟩
  · cases hdone
  cases habsent
  unfold prepareAuditRecord at hprepares
  split_ifs at hprepares
  obtain ⟨scope, hscope, hprepares⟩ := bind_ok hprepares
  cases scope with
  | none => cases hprepares
  | some tenant =>
    cases hprepares
    exact ⟨tenant, hscope, rfl⟩

end Matches

/-! ## A pass of the reconciler -/

section Pass

variable {ι Text : Type} [DecidableEq Text] {E : RuntimeEnv Text} {i : ι} {s : RuntimeStore ι}
  {row : PlanCommandRow} {command : PlanCommandRecord} {audit : ListAuditChainRow}
  {record : AuditRecord} {rest : List PlanCommandRecord} {stored : AuditRecord}

def Marks (s₀ : RuntimeStore ι) (row : PlanCommandRow) (command : PlanCommandRecord)
    (rest : List PlanCommandRecord) (s : RuntimeStore ι) (call : RuntimeCall) : Prop :=
  s.plans = s₀.plans ∧ s.commands = s₀.commands ∧
    call = .marking (.marking row.ref .delivered "") rest ∧
    ∃ audit, findAuditRow s.audits.rows row.ref = some audit ∧ AuditMatches row command audit

/-- The audit of the command leads to its mark. -/
abbrev AuditLeads (E : RuntimeEnv Text) (i : ι) (s : RuntimeStore ι) (row : PlanCommandRow)
    (command : PlanCommandRecord) (rest : List PlanCommandRecord) : Prop :=
  Leads (fun now => runtimeNext E (.ran now) i) (Marks s row command rest) s
    (.auditing (.called (auditRecordFromPlanCommand command)) (some row.ref) rest)

theorem findCommandRow_of_mem {table : CommandTable} (h : row ∈ table.rows) :
    findCommandRow table.rows row.ref = some row := by
  cases hfind : findCommandRow table.rows row.ref with
  | none =>
    have hother := find?_eq_none.mp hfind row h
    simp at hother
  | some found =>
    obtain ⟨hfound, href⟩ := findCommandRow_some hfind
    rw [table.eq_of_ref hfound h href]

theorem marks_leads (h : ReadCommand (s.commandEnv E) row command) (hrow : row ∈ s.commands.rows)
    (hfind : findAuditRow s.audits.rows row.ref = some audit)
    (hmatches : AuditMatches row command audit) :
    Leads (fun now => runtimeNext E (.ran now) i)
      (fun s call => Delivered s.commands row.ref ∧ call = .delivering rest) s
      (.marking (.marking row.ref .delivered "") rest) := by
  have hget : getPlanCommand s.commands.rows row.ref = .ok (some command) := by
    simp only [getPlanCommand, h.valid, findCommandRow_of_mem hrow, h.reads, bind, bind]
    rfl
  have hmove : validatePlanCommandStatusTransition command.status .delivered = .ok () := by
    rw [h.columns.2.2.2.2.2.2]
    rcases h.recoverable with hstatus | hstatus <;> rw [hstatus] <;> rfl
  have hread : readCommand s.commands.rows row.ref .delivered "" =
      .ok (.auditing command row.ref .delivered "") := by
    simp only [readCommand, h.valid, hget, hmove, bind, Except.bind]
    rfl
  refine .of_next fun now => ⟨s, .marking (.auditing command row.ref .delivered "") rest, ?_, ?_⟩
  · simp only [runtimeNext, commandNext, commandStore, hread]
    rfl
  refine .of_next fun now => ⟨s, .marking (.updating row.ref .delivered "") rest, ?_, ?_⟩
  · simp only [runtimeNext, commandNext, commandStore, hmatches.validates h hfind]
    rfl
  refine .of_next fun now =>
    ⟨{ s with commands := s.commands.replace row.ref .delivered "" now }, .delivering rest, ?_,
      .here ⟨⟨row.withStatus .delivered "" now, ?_, rfl, rfl⟩, rfl⟩⟩
  · have hupdate : s.commands.update s.audits.rows row.ref .delivered "" now =
        .ok (s.commands.replace row.ref .delivered "" now, row.withStatus .delivered "" now) := by
      simp only [CommandTable.update, findCommandRow_of_mem hrow, hmatches.triggers h hfind now,
        bind, bind]
      rfl
    simp only [runtimeNext, commandNext, commandStore, hupdate]
    rfl
  · exact mem_map.mpr ⟨row, hrow, by simp⟩

omit [DecidableEq Text] in
theorem ReadCommand.prepares (h : ReadCommand (s.commandEnv E) row command) :
    prepareAuditRecord (s.auditEnv E) (auditRecordFromPlanCommand command) =
      .ok (auditRecordFromPlanCommand command) := by
  obtain ⟨hplan, haccount, hproject, -, haction, hkey, -⟩ := h.columns
  obtain ⟨hplanNe, -, -, hkeyNe⟩ := h.inScope
  have hactionNe : command.action ≠ .other "" := by
    rw [haction]
    rcases h.action with hknown | hknown <;> simp [hknown]
  have htenant : (s.auditEnv E).tenantScope command.planID =
      .ok (some (command.accountID, command.projectID)) := by
    rw [hplan, haccount, hproject]
    exact h.tenant
  rw [← hplan] at hplanNe
  rw [← hkey] at hkeyNe
  simp only [prepareAuditRecord, auditRecordFromPlanCommand, if_neg hplanNe, if_neg hactionNe,
    if_neg hkeyNe, htenant, bind, bind]
  rfl

theorem audited_leads (h : ReadCommand (s.commandEnv E) row command)
    (hfind : findAuditRow s.audits.rows row.ref = some audit)
    (hmatches : AuditMatches row command audit) : AuditLeads E i s row command rest := by
  obtain ⟨existing, hget, hvalid⟩ := hmatches.found h hfind
  have href : auditRefFromRecord (auditRecordFromPlanCommand command) = row.ref := h.ref
  refine .of_next fun now => ⟨s, .marking (.marking row.ref .delivered "") rest, ?_,
    .here ⟨rfl, rfl, rfl, audit, hfind, hmatches⟩⟩
  have hlookup : lookupAudit (s.auditEnv E) now s.audits.rows
      (auditRecordFromPlanCommand command) = .ok (.done (.ok (existing, false))) := by
    simp only [lookupAudit, h.prepares, href, hget, hvalid, bind, Except.bind]
    rfl
  simp only [runtimeNext, auditNext, hlookup]
  rfl

theorem Unaudited.no_conflict {sha : Sha256} {t : AuditTable ι}
    (hfree : Unaudited sha t row.ref) (henvelope : Envelope row stored)
    (hid : stored.auditID = auditIDFromRef sha row.ref) : auditConflict t.rows stored = false := by
  obtain ⟨hnone, hids, -⟩ := hfree
  refine any_eq_false.mpr fun audit haudit => ?_
  have hother := find?_eq_none.mp hnone audit haudit
  have hidNe := hids audit haudit
  rw [← henvelope.ref] at hother
  rw [← hid] at hidNe
  simp only [auditRefFromRecord, Bool.and_eq_true, beq_iff_eq] at hother
  simp only [Bool.or_eq_true, Bool.and_eq_true, beq_iff_eq, not_or]
  exact ⟨hidNe, fun hsame => hother ⟨⟨⟨hsame.1.2, hsame.1.1.1⟩, hsame.1.1.2⟩, hsame.2⟩⟩

section

variable (h : ReadCommand (s.commandEnv E) row command)
include h

theorem inserts_leads (hfree : Unaudited E.sha s.audits row.ref) (henvelope : Envelope row stored)
    (hid : stored.auditID = auditIDFromRef E.sha row.ref)
    (hmatches : ∀ prevHash, AuditMatches row command (auditRow E.sha stored prevHash)) :
    Leads (fun now => runtimeNext E (.ran now) i) (Marks s row command rest) s
      (.auditing (.absent stored) (some row.ref) rest) := by
  have htenant : stored.tenant = (row.ref.accountID, row.ref.projectID) := by
    rw [← henvelope.ref]
    rfl
  let locked := s.audits.setLock stored.tenant (some i)
  refine .of_next fun _ => ⟨{ s with audits := locked },
    .auditing (.locked stored) (some row.ref) rest, ?_, ?_⟩
  · have hunlocked : s.audits.lock stored.tenant = none := htenant ▸ hfree.2.2
    simp only [runtimeNext, auditNext, hunlocked]
    rfl
  let prevHash := latestAuditRowHash s.audits.rows stored.tenant
  refine .of_next fun _ => ⟨{ s with audits := locked },
    .auditing (.chained stored prevHash) (some row.ref) rest, rfl, ?_⟩
  let inserted : AuditTable ι :=
    { locked.setLock stored.tenant none with
      rows := s.audits.rows ++ [auditRow E.sha stored prevHash] }
  refine .of_next fun _ => ⟨{ s with audits := inserted },
    .auditing (.written stored) (some row.ref) rest, ?_, ?_⟩
  · have hconflict : auditConflict locked.rows stored = false := hfree.no_conflict henvelope hid
    simp only [runtimeNext, auditNext, hconflict]
    rfl
  have hfind : findAuditRow inserted.rows row.ref = some (auditRow E.sha stored prevHash) := by
    have hnone := hfree.1
    rw [← henvelope.ref] at hnone ⊢
    exact findAuditRow_concat_new (E := s.auditEnv E) hnone
  obtain ⟨existing, hread, -⟩ := (hmatches prevHash).found h hfind
  have hback : readBackAudit inserted.rows stored = .ok existing := by
    simp only [readBackAudit, henvelope.ref, hread, bind, bind]
    rfl
  refine .of_next fun _ => ⟨{ s with audits := inserted },
    .marking (.marking row.ref .delivered "") rest, ?_,
    .here ⟨rfl, rfl, rfl, _, hfind, hmatches prevHash⟩⟩
  simp only [runtimeNext, auditNext, hback]
  rfl

theorem unaudited_leads (hrecorded : RecordedRow (s.commandEnv E) record row)
    (hfree : Unaudited E.sha s.audits row.ref) (hexact : exactPayload record.payload = true)
    (hdecoded : command.payload = some (readBack (record.payload.getD []))) :
    AuditLeads E i s row command rest := by
  have href : auditRefFromRecord (auditRecordFromPlanCommand command) = row.ref := h.ref
  have hget : getAuditRecord s.audits.rows row.ref = .ok none :=
    getAuditRecord_absent (h.valid _) hfree.1
  refine .of_next fun now => ?_
  let stored := setAuditRecordDefaults (s.auditEnv E) now (auditRecordFromPlanCommand command)
  have henvelope : Envelope row stored :=
    { ref := href, unowned := ⟨rfl, rfl⟩, actorID := h.columns.2.2.2.1,
      action := h.columns.2.2.2.2.1 }
  have hid : stored.auditID = auditIDFromRef E.sha row.ref := by
    rw [← href]
    rfl
  have hpayload : stored.payload = command.payload := by
    simp [stored, setAuditRecordDefaults, auditRecordFromPlanCommand, hdecoded]
  have hlookup : lookupAudit (s.auditEnv E) now s.audits.rows
      (auditRecordFromPlanCommand command) = .ok (.absent stored) := by
    simp only [lookupAudit, h.prepares, href, hget, bind, Except.bind]
    rfl
  refine ⟨s, .auditing (.absent stored) (some row.ref) rest, ?_,
    inserts_leads h hfree henvelope hid fun _ =>
      henvelope.matches_rebuilt hrecorded hpayload hexact hdecoded⟩
  simp only [runtimeNext, auditNext, hlookup]
  rfl

theorem original_leads (hrecorded : RecordedRow (s.commandEnv E) record row)
    (haudited : AuditedAs (s.auditEnv E) record s.audits.rows row.ref)
    (hunowned : record.runID = "" ∧ record.nodeID = "")
    (hfinite : finitePayload record.payload = true)
    (hdecoded : command.payload = some (readBack (record.payload.getD []))) :
    AuditLeads E i s row command rest := by
  obtain ⟨now, before, stored, prevHash, hlookup, hfind⟩ := haudited
  obtain ⟨tenant, hscope, rfl⟩ := lookupAudit_absent hlookup
  have htenant : tenant = (row.accountID, row.projectID) := by
    have hrow : (s.auditEnv E).tenantScope record.planID =
        .ok (some (row.accountID, row.projectID)) := hrecorded.planID ▸ hrecorded.tenant
    rw [hscope] at hrow
    exact Option.some.inj (ok.inj hrow)
  subst htenant
  refine audited_leads h hfind (Envelope.matches_original ?_ hrecorded rfl hfinite hdecoded)
  exact {
    ref := by
      simp only [auditRefFromRecord, setAuditRecordDefaults, PlanCommandRow.ref,
        hrecorded.planID, hrecorded.idempotencyKey]
    unowned := hunowned
    actorID := hrecorded.actorID.symm
    action := hrecorded.action.symm }

end

omit [DecidableEq Text] in
theorem RecordedRow.readCommand {ref : PlanRef} {message : PlanMessage}
    (h : RecordedRow (s.commandEnv E) (message.auditRecord E.rfc ref) row)
    (hstatus : row.status = .pending ∨ row.status = .failed)
    (hread : planCommandRecordFromRow row = .ok command) :
    ReadCommand (s.commandEnv E) row command where
  reads := hread
  recoverable := hstatus
  action := by
    rw [h.action]
    cases message with
    | signal sent => exact .inl rfl
    | control request => exact .inr rfl
  tenant := h.tenant
  inScope := h.inScope

theorem signals_leads {message : PlanMessage} {goal : RuntimeStore ι → RuntimeCall → Prop}
    (h : ReadCommand (s.commandEnv E) row command)
    (hdelivery : commandDeliveryPayload E.rfc command =
      .ok (message, auditRecordFromPlanCommand command))
    (haudits : Leads (fun now => runtimeNext E (.ran now) i) goal s
      (.auditing (.called (auditRecordFromPlanCommand command)) (some row.ref) rest)) :
    Leads (fun now => runtimeNext E (.ran now) i) goal s (.delivering (command :: rest)) := by
  obtain ⟨-, -, -, -, haction, -, hstatus⟩ := h.columns
  have hdeliver : deliver E s.plans command rest =
      .signaling message (auditRecordFromPlanCommand command) row.ref rest := by
    have hopen : command.status ≠ .delivered := by
      rw [hstatus]
      rcases h.recoverable with hknown | hknown <;> simp [hknown]
    have hstart : command.action ≠ .planStart := by
      rw [haction]
      rcases h.action with hknown | hknown <;> simp [hknown]
    simp [deliver, if_neg hopen, if_neg hstart, hdelivery, h.ref]
  refine .of_next fun _ => ⟨s, _, congrArg (fun call => some (s, call)) hdeliver, ?_⟩
  exact .of_next fun _ => ⟨s, _, rfl, haudits⟩

end Pass

/-- A signal or a control that was accepted and recorded as a command is read back, its audit
record is rebuilt with the envelope of the command, and the pass delivers it: whether or not the
caller has audited it, unless it is a signal with a nil payload, a number of its payload is
beyond binary64, or a number is not a binary64 number and nothing is audited yet. -/
theorem reconciled_delivered {ι Text : Type} [DecidableEq Text] (E : RuntimeEnv Text) (i : ι)
    (s : RuntimeStore ι) (ref : PlanRef) (message : PlanMessage) (row : PlanCommandRow)
    (rest : List PlanCommandRecord) (hvalid : message.Valid) (hrow : row ∈ s.commands.rows)
    (hrecorded : RecordedAs (s.commandEnv E) (message.auditRecord E.rfc ref) row)
    (hstatus : row.status = .pending ∨ row.status = .failed)
    (haudit : AuditedAs (s.auditEnv E) (message.auditRecord E.rfc ref) s.audits.rows row.ref ∨
      Unaudited E.sha s.audits row.ref) (hnil : message.isNil = false)
    (hfinite : finitePayload (message.auditRecord E.rfc ref).payload = true)
    (hexact : AuditedAs (s.auditEnv E) (message.auditRecord E.rfc ref) s.audits.rows row.ref ∨
      exactPayload (message.auditRecord E.rfc ref).payload = true) :
    ∃ command, planCommandRecordFromRow row = .ok command ∧ commandDeliveryPayload E.rfc command =
        .ok (message.readBack, auditRecordFromPlanCommand command) ∧
      Leads (fun now => runtimeNext E (.ran now) i)
        (fun s call => Delivered s.commands row.ref ∧ call = .delivering rest) s
        (.delivering (command :: rest)) := by
  have hcolumns := hrecorded.row
  obtain ⟨command, hread⟩ : ∃ command, planCommandRecordFromRow row = .ok command :=
    ⟨_, hcolumns.reads hfinite⟩
  have hdecoded : command.payload =
      some (readBack ((message.auditRecord E.rfc ref).payload.getD [])) := by
    have hreads := hcolumns.reads hfinite
    rw [hread] at hreads
    exact congrArg PlanCommandRecord.payload (ok.inj hreads)
  have hpayload : command.payload = (message.auditRecord E.rfc ref).payload.map readBack := by
    rw [hdecoded]
    cases message <;> rfl
  have hcommand := hcolumns.readCommand hstatus hread
  obtain ⟨-, -, -, hactor, haction, hkey, -⟩ := hcommand.columns
  have hdelivery := commandDeliveryPayload_rebuilt hvalid hnil (hactor.trans hcolumns.actorID)
    (haction.trans hcolumns.action) (hkey.trans hcolumns.idempotencyKey) hpayload
  have hunowned : (message.auditRecord E.rfc ref).runID = "" ∧
      (message.auditRecord E.rfc ref).nodeID = "" := by
    cases message <;> exact ⟨rfl, rfl⟩
  have haudited : AuditLeads E i s row command rest := by
    rcases hexact with horiginal | hexact
    · exact original_leads hcommand hcolumns horiginal hunowned hfinite hdecoded
    · rcases haudit with horiginal | hfree
      · exact original_leads hcommand hcolumns horiginal hunowned hfinite hdecoded
      · exact unaudited_leads hcommand hcolumns hfree hexact hdecoded
  refine ⟨command, hread, hdelivery,
    signals_leads hcommand hdelivery (haudited.trans fun s' call hmarks => ?_)⟩
  obtain ⟨hplans, hcommands, rfl, audit, hfind, hmatches⟩ := hmarks
  have hscope : s'.tenantScope = s.tenantScope := by
    funext planID
    simp [tenantScope, hplans]
  have hcommand' : ReadCommand (s'.commandEnv E) row command := by
    simpa only [commandEnv, hscope] using hcommand
  exact marks_leads hcommand' (hcommands ▸ hrow) hfind hmatches

/-! ## Signals of one plan -/

/-- A signal with a payload. -/
def sentSignal (payload : Payload) : PlanMessage :=
  .signal { type := .userMessage, idempotencyKey := "k", actorID := "actor", payload, sentAt := 5 }

def signaledPlan : PlanRef := ⟨"plan", "a", "p"⟩

def planStored : RuntimeStore Unit where
  plans := ⟨[{ spec := requestedSpec 2000, status := {} }], pairwise_singleton _ _, []⟩
  commands := ⟨[], Pairwise.nil⟩
  audits := ⟨[], fun _ => none⟩
  executions _ := {}

def runAlone (n : Nat) (s : RuntimeStore Unit) (call : RuntimeCall) :
    RuntimeStore Unit × RuntimeCall :=
  let c := play (runtimeNext bareRuntime) (replicate n (.ran 1000, ())) (s, fun _ => call)
  (c.1, c.2 ())

/-- The signal is recorded as a command, and its audit record is written or not. -/
def signalRecorded (payload : Payload) (audited : Bool) : RuntimeStore Unit :=
  let record := (sentSignal payload).auditRecord strokes signaledPlan
  let s := (runAlone 2 planStored (.commanding (.recording (planCommandFromAuditRecord record)))).1
  if audited then (runAlone 5 s (.auditing (.called record) none [])).1 else s

/-- A whole pass of the reconciler, and the status of the commands behind it. -/
def statusesBehindPass (s : RuntimeStore Unit) : Bool × List PlanCommandStatus :=
  let behind := runAlone 12 s (.recover 0)
  (behind.2.ended, behind.1.commands.rows.map PlanCommandRow.status)

/-- A payload with an integer. -/
def counted (n : Nat) : Payload := some [("n", .num { digits := n })]

/-- The row of the signal's command. -/
def signalRow (payload : Payload) : PlanCommandRow :=
  commandRow { planCommandFromAuditRecord ((sentSignal payload).auditRecord strokes signaledPlan) with
    commandID := planCommandIDFromRef plainSha ⟨"plan", "a", "p", "k"⟩
    createdAt := 1000
    updatedAt := 1000 }

/-- A signal that is recorded and not audited yet. -/
theorem reconciled_delivered_signal : ∃ command,
    planCommandRecordFromRow (signalRow (counted 7)) = .ok command ∧
      commandDeliveryPayload strokes command =
        .ok ((sentSignal (counted 7)).readBack, auditRecordFromPlanCommand command) ∧
      Leads (fun now => runtimeNext bareRuntime (.ran now) ())
        (fun s call => Delivered s.commands (signalRow (counted 7)).ref ∧ call = .delivering [])
        (signalRecorded (counted 7) false) (.delivering [command]) := by
  have hnone : (signalRecorded (counted 7) false).audits.rows = [] := rfl
  have hunaudited : Unaudited plainSha (signalRecorded (counted 7) false).audits
      (signalRow (counted 7)).ref := by
    refine ⟨rfl, fun audit haudit => ?_, rfl⟩
    cases haudit
  exact reconciled_delivered bareRuntime () (signalRecorded (counted 7) false) signaledPlan
    (sentSignal (counted 7)) (signalRow (counted 7)) [] rfl (mem_singleton.mpr rfl)
    ⟨1000, [], _, .pending, "", 1000, rfl, rfl⟩ (.inl rfl) (.inr hunaudited) rfl
    (by decide +kernel) (.inr (by decide +kernel))

/-- A signal with a nil payload is not delivered, audited or not, and a signal with an integer
that is no binary64 number is not when it is not audited yet. -/
theorem reconciled_undelivered :
    (sentSignal none).Valid ∧ (sentSignal (counted 9007199254740993)).Valid ∧
      statusesBehindPass (signalRecorded none true) = (true, [.pending]) ∧
      statusesBehindPass (signalRecorded none false) = (true, [.pending]) ∧
      statusesBehindPass (signalRecorded (counted 9007199254740993) false) = (true, [.pending]) := by
  refine ⟨rfl, rfl, ?_, ?_, ?_⟩ <;> decide +kernel

end AgentOS.Runtime
