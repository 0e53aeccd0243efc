import AgentOS.Core.Basic
import AgentOS.Kit.Decimal
import AgentOS.Kit.Document
import AgentOS.Kit.HashChain

/-!
# The audit chain

`internal/repo/persistent/audit_chain.go`: the canonical form of an audit row, its hash, and
the walk that verifies the rows of a tenant.  SHA-256 is a parameter, known by the hex text
it answers.
-/

namespace AgentOS.Store

open Kit List Nat String

/-! ## Bytes and decimals -/

def bytes (s : String) : List UInt8 := s.toByteArray.data.toList

theorem bytes_injective : Function.Injective bytes := by
  intro s t h
  apply String.toByteArray_inj.mp
  apply ByteArray.ext
  exact Array.toList_inj.mp h

theorem repr_injective : Function.Injective Nat.repr := by
  intro m n h
  have hdigits : toDigits 10 m = toDigits 10 n := ofList_injective h
  rw [← ofDigitChars_ten_toDigits (n := m), hdigits, ofDigitChars_ten_toDigits]

theorem colon_notMem_repr (n : Nat) : (58 : UInt8) ∉ bytes n.repr := by
  intro h
  have hchars : bytes n.repr = (toDigits 10 n).flatMap utf8EncodeChar := by
    simp [bytes, Nat.repr, toByteArray_ofList, utf8Encode]
  rw [hchars, mem_flatMap] at h
  obtain ⟨c, hc, hmem⟩ := h
  have hdigit := isDigit_of_mem_toDigits (by decide) (by decide) hc
  have hle : c.val.toNat ≤ 57 := by
    simp only [Char.isDigit, Bool.and_eq_true, decide_eq_true_eq] at hdigit
    exact UInt32.le_iff_toNat_le.mp hdigit.2
  have hone : utf8EncodeChar c = [UInt8.ofNat c.val.toNat] := by
    simp only [utf8EncodeChar]
    rw [if_pos (by omega)]
  rw [hone, mem_singleton] at hmem
  have hval := congrArg UInt8.toNat hmem
  rw [UInt8.toNat_ofNat'] at hval
  have h58 : (58 : UInt8).toNat = 58 := rfl
  omega

theorem int_repr_injective : Function.Injective Int.repr := by
  have hminus (m n : Nat) : m.repr ≠ "-" ++ n.repr := by
    intro h
    have hmem : '-' ∈ m.repr.toList := by
      rw [h, toList_append]
      exact mem_append_left _ (by decide)
    rw [toList_repr] at hmem
    exact absurd (isDigit_of_mem_toDigits (by decide) (by decide) hmem) (by decide)
  intro a b h
  cases a with
  | ofNat m =>
    cases b with
    | ofNat n => rw [repr_injective h]
    | negSucc n => exact absurd h (hminus m n.succ)
  | negSucc m =>
    cases b with
    | ofNat n => exact absurd h.symm (hminus n m.succ)
    | negSucc n =>
      have hsucc := repr_injective ((String.append_right_inj _).mp h)
      rw [succ.inj hsucc]

/-! ## Rows and their hashes -/

/-- SHA-256 as the hex text of a digest.  A digest has 32 bytes, so its text is not empty. -/
structure Sha256 where
  hex : List UInt8 → String
  hex_ne : ∀ data, hex data ≠ ""

/-- The bytes of a JSON column, by the document that they decode to.  `none` are bytes that
are not JSON. -/
abbrev JsonColumn := Option (Document Number)

structure AuditChainRow where
  (auditID planID accountID projectID runID nodeID actorID action idempotencyKey payload : String)
  createdAt : Time

/-- `createdAt.UTC().Truncate(time.Microsecond).UnixMicro()`.  The zero time is the first of
January of the year 1. -/
def unixMicro (createdAt : Time) : Int := createdAt / 1000 - 62135596800000000

def auditChainTime (createdAt : Time) : String := (unixMicro createdAt).repr

def AuditChainRow.fields (row : AuditChainRow) : List String :=
  [row.auditID, row.planID, row.accountID, row.projectID, row.runID, row.nodeID, row.actorID,
    row.action, row.idempotencyKey, row.payload, auditChainTime row.createdAt]

def auditRowBytes (prevHash : String) (row : AuditChainRow) : List UInt8 :=
  frames (fun n => bytes n.repr) 58 ((prevHash :: row.fields).map bytes)

def auditRowHash (sha : Sha256) (prevHash : String) (row : AuditChainRow) : String :=
  sha.hex (auditRowBytes prevHash row)

theorem auditRowBytes_inj {prevHash prevHash' : String} {row row' : AuditChainRow}
    (h : auditRowBytes prevHash row = auditRowBytes prevHash' row') :
    prevHash = prevHash' ∧ row.fields = row'.fields := by
  have hfields := frames_inj (fun _ _ h => repr_injective (bytes_injective h))
    colon_notMem_repr (by simp [AuditChainRow.fields]) h
  have hcons := (map_injective_iff.mpr bytes_injective) hfields
  exact cons.inj hcons

def canonicalizeAuditJSON (raw : JsonColumn) : Option String := raw.map (Document.text Number.text)

/-- A row of `ListAuditChain`. -/
structure ListAuditChainRow where
  (auditID planID accountID projectID runID nodeID actorID action idempotencyKey : String)
  payloadJson : JsonColumn
  createdAt : Time
  (prevHash rowHash : String)

def ListAuditChainRow.chainRow (row : ListAuditChainRow) (payload : String) : AuditChainRow where
  auditID := row.auditID
  planID := row.planID
  accountID := row.accountID
  projectID := row.projectID
  runID := row.runID
  nodeID := row.nodeID
  actorID := row.actorID
  action := row.action
  idempotencyKey := row.idempotencyKey
  payload := payload
  createdAt := row.createdAt

/-! ## The walk -/

structure AuditChainVerification where
  (accountID projectID : String := "")
  rows : Nat := 0
  chained : Nat := 0
  unchainedPrefix : Nat := 0
  (brokenAt reason : String := "")

def AuditChainVerification.broken (verification : AuditChainVerification)
    (row : ListAuditChainRow) (reason : String) : AuditChainVerification :=
  { verification with brokenAt := row.auditID, reason := reason }

@[simp] theorem AuditChainVerification.broken_reason (verification : AuditChainVerification)
    (row : ListAuditChainRow) (reason : String) :
    (verification.broken row reason).reason = reason :=
  rfl

def walkAuditChainFrom (sha : Sha256) (prevHash : String)
    (verification : AuditChainVerification) : List ListAuditChainRow → AuditChainVerification
  | [] => verification
  | row :: rows =>
    if row.rowHash = "" then
      if 0 < verification.chained then
        verification.broken row "row carries no hash after the chain began"
      else
        walkAuditChainFrom sha prevHash
          { verification with unchainedPrefix := verification.unchainedPrefix + 1 } rows
    else
      let verification := { verification with chained := verification.chained + 1 }
      if row.prevHash ≠ prevHash then
        verification.broken row "row does not continue from its predecessor"
      else
        match canonicalizeAuditJSON row.payloadJson with
        | none => verification.broken row "row payload cannot be read back"
        | some canonicalPayload =>
          if auditRowHash sha prevHash (row.chainRow canonicalPayload) ≠ row.rowHash then
            verification.broken row "row contents do not match its hash"
          else walkAuditChainFrom sha row.rowHash verification rows

def walkAuditChain (sha : Sha256) (rows : List ListAuditChainRow)
    (verification : AuditChainVerification) : AuditChainVerification :=
  walkAuditChainFrom sha "" verification rows

def Continues (sha : Sha256) (prevHash : String) (row : ListAuditChainRow) : Prop :=
  row.prevHash = prevHash ∧ ∃ payload, canonicalizeAuditJSON row.payloadJson = some payload ∧
    row.rowHash = auditRowHash sha prevHash (row.chainRow payload)

section Walk

variable {sha : Sha256} {prevHash : String} {verification : AuditChainVerification}
  {rows old : List ListAuditChainRow} {row : ListAuditChainRow}

theorem Continues.rowHash_ne (h : Continues sha prevHash row) : row.rowHash ≠ "" := by
  obtain ⟨-, payload, -, hhash⟩ := h
  rw [hhash]
  exact sha.hex_ne _

theorem walkAuditChainFrom_continues (h : Continues sha prevHash row) :
    walkAuditChainFrom sha prevHash verification (row :: rows) = walkAuditChainFrom sha row.rowHash
        { verification with chained := verification.chained + 1 } rows := by
  obtain ⟨hprev, payload, hpayload, hhash⟩ := h
  have hne : row.rowHash ≠ "" := Continues.rowHash_ne ⟨hprev, payload, hpayload, hhash⟩
  rw [walkAuditChainFrom, if_neg hne, if_neg (not_not_intro hprev)]
  simp only [hpayload]
  rw [if_neg (not_not_intro hhash.symm)]

theorem walkAuditChainFrom_linked
    (h : Linked (Continues sha) ListAuditChainRow.rowHash prevHash rows) :
    walkAuditChainFrom sha prevHash verification rows =
      { verification with chained := verification.chained + rows.length } := by
  induction rows generalizing prevHash verification with
  | nil => rfl
  | cons row rows ih =>
    rw [walkAuditChainFrom_continues h.1, ih h.2]
    simp only [length_cons, add_assoc, add_comm 1]

theorem walkAuditChain_linked (hold : ∀ row ∈ old, row.rowHash = "")
    (hnone : verification.chained = 0)
    (h : Linked (Continues sha) ListAuditChainRow.rowHash "" rows) :
    walkAuditChain sha (old ++ rows) verification =
      { verification with
        unchainedPrefix := verification.unchainedPrefix + old.length, chained := rows.length } := by
  induction old generalizing verification with
  | nil =>
    rw [nil_append, walkAuditChain, walkAuditChainFrom_linked h, hnone]
    simp
  | cons row old ih =>
    have hrow : row.rowHash = "" := hold row mem_cons_self
    have hstep : walkAuditChain sha (row :: (old ++ rows)) verification =
        walkAuditChain sha (old ++ rows)
          { verification with unchainedPrefix := verification.unchainedPrefix + 1 } := by
      simp [walkAuditChain, walkAuditChainFrom, hrow, hnone]
    have hrest := forall_mem_of_forall_mem_cons hold
    have hih := @ih { verification with unchainedPrefix := verification.unchainedPrefix + 1 }
      hrest hnone
    rw [cons_append, hstep, hih]
    simp only [length_cons, add_assoc, add_comm 1]

theorem walkAuditChainFrom_cons
    (h : (walkAuditChainFrom sha prevHash verification (row :: rows)).reason = "") :
    (row.rowHash = "" ∧ verification.chained = 0 ∧
      walkAuditChainFrom sha prevHash verification (row :: rows) = walkAuditChainFrom sha prevHash
          { verification with unchainedPrefix := verification.unchainedPrefix + 1 } rows) ∨
    Continues sha prevHash row := by
  rw [walkAuditChainFrom] at h ⊢
  by_cases hhash : row.rowHash = ""
  · rw [if_pos hhash] at h ⊢
    by_cases hchained : 0 < verification.chained
    · rw [if_pos hchained] at h
      simp at h
    · exact .inl ⟨hhash, Nat.eq_zero_of_not_pos hchained, by rw [if_neg hchained]⟩
  · right
    rw [if_neg hhash] at h
    by_cases hprev : row.prevHash = prevHash
    · rw [if_neg (not_not_intro hprev)] at h
      cases hpayload : canonicalizeAuditJSON row.payloadJson with
      | none =>
        simp only [hpayload] at h
        simp at h
      | some payload =>
        simp only [hpayload] at h
        by_cases hmatch : auditRowHash sha prevHash (row.chainRow payload) = row.rowHash
        · exact ⟨hprev, payload, hpayload, hmatch.symm⟩
        · rw [if_pos hmatch] at h
          simp at h
    · rw [if_pos hprev] at h
      simp at h

theorem linked_of_walkAuditChainFrom
    (h : (walkAuditChainFrom sha prevHash verification rows).reason = "") :
    ∃ old new, rows = old ++ new ∧ (∀ row ∈ old, row.rowHash = "") ∧
      (0 < verification.chained → old = []) ∧
      (walkAuditChainFrom sha prevHash verification rows).unchainedPrefix =
        verification.unchainedPrefix + old.length ∧
      Linked (Continues sha) ListAuditChainRow.rowHash prevHash new := by
  induction rows generalizing prevHash verification with
  | nil => exact ⟨[], [], rfl, by simp, fun _ => rfl, rfl, trivial⟩
  | cons row rows ih =>
    rcases walkAuditChainFrom_cons h with ⟨hhash, hnone, hstep⟩ | hrow
    · rw [hstep] at h ⊢
      obtain ⟨old, new, rfl, hold, -, hcount, hnew⟩ := ih h
      refine ⟨row :: old, new, rfl, ?_, ?_, ?_, hnew⟩
      · intro r hr
        rcases mem_cons.mp hr with rfl | hr
        · exact hhash
        · exact hold r hr
      · intro hpos
        omega
      · rw [hcount]
        exact add_right_comm _ _ _
    · rw [walkAuditChainFrom_continues hrow] at h ⊢
      obtain ⟨old, new, rfl, -, hnil, hcount, hnew⟩ := ih h
      obtain rfl : old = [] := hnil (succ_pos _)
      exact ⟨[], row :: new, rfl, by simp, fun _ => rfl, hcount, hrow, hnew⟩

end Walk

/-- `VerifyAuditChain` on the rows that `ListAuditChain` answers for a tenant. -/
def verifyAuditChain (sha : Sha256) (accountID projectID : String)
    (rows : List ListAuditChainRow) : AuditChainVerification :=
  walkAuditChain sha rows { accountID, projectID, rows := rows.length }

/-! ## What a chain commits to -/

/-- The rows agree on every field that is hashed. -/
structure SameHashed (row row' : ListAuditChainRow) : Prop where
  auditID : row.auditID = row'.auditID
  planID : row.planID = row'.planID
  accountID : row.accountID = row'.accountID
  projectID : row.projectID = row'.projectID
  runID : row.runID = row'.runID
  nodeID : row.nodeID = row'.nodeID
  actorID : row.actorID = row'.actorID
  action : row.action = row'.action
  idempotencyKey : row.idempotencyKey = row'.idempotencyKey
  payload : canonicalizeAuditJSON row.payloadJson = canonicalizeAuditJSON row'.payloadJson
  createdAt : unixMicro row.createdAt = unixMicro row'.createdAt

/-- The strings that a walk over the rows hashes. -/
def hashedStrings (rows : List ListAuditChainRow) : Set (List UInt8) :=
  {data | ∃ row ∈ rows, ∃ payload, canonicalizeAuditJSON row.payloadJson = some payload ∧
    data = auditRowBytes row.prevHash (row.chainRow payload)}

variable {sha : Sha256} {prevHash prevHash' : String} {row row' : ListAuditChainRow}

theorem SameHashed.of_fields {payload payload' : String}
    (hpayload : canonicalizeAuditJSON row.payloadJson = some payload)
    (hpayload' : canonicalizeAuditJSON row'.payloadJson = some payload')
    (h : (row.chainRow payload).fields = (row'.chainRow payload').fields) :
    SameHashed row row' := by
  simp only [AuditChainRow.fields, cons.injEq, and_true] at h
  obtain ⟨haudit, hplan, haccount, hproject, hrun, hnode, hactor, haction, hkey, htext, htime⟩ := h
  exact ⟨haudit, hplan, haccount, hproject, hrun, hnode, hactor, haction, hkey,
    hpayload.trans ((congrArg some htext).trans hpayload'.symm), int_repr_injective htime⟩

theorem Continues.inj {rows rows' : List ListAuditChainRow}
    (hsha : Set.InjOn sha.hex (hashedStrings rows ∪ hashedStrings rows'))
    (hmem : row ∈ rows) (hmem' : row' ∈ rows') (h : Continues sha prevHash row)
    (h' : Continues sha prevHash' row') (hhash : row.rowHash = row'.rowHash) :
    prevHash = prevHash' ∧ SameHashed row row' := by
  obtain ⟨rfl, payload, hpayload, hrow⟩ := h
  obtain ⟨rfl, payload', hpayload', hrow'⟩ := h'
  have hdata : auditRowBytes row.prevHash (row.chainRow payload) =
      auditRowBytes row'.prevHash (row'.chainRow payload') := by
    apply hsha (.inl ⟨row, hmem, payload, hpayload, rfl⟩)
      (.inr ⟨row', hmem', payload', hpayload', rfl⟩)
    exact hrow.symm.trans (hhash.trans hrow')
  obtain ⟨hprev, hfields⟩ := auditRowBytes_inj hdata
  exact ⟨hprev, .of_fields hpayload hpayload' hfields⟩

theorem linked_of_verifyAuditChain {accountID projectID : String} {rows : List ListAuditChainRow}
    (hreason : (verifyAuditChain sha accountID projectID rows).reason = "")
    (hunchained : (verifyAuditChain sha accountID projectID rows).unchainedPrefix = 0) :
    Linked (Continues sha) ListAuditChainRow.rowHash "" rows := by
  obtain ⟨old, new, rfl, -, -, hcount, hnew⟩ := linked_of_walkAuditChainFrom hreason
  rw [verifyAuditChain, walkAuditChain, hcount] at hunchained
  obtain rfl : old = [] := length_eq_zero_iff.mp (by simpa using hunchained)
  exact hnew

theorem tip_rowHash (rows : List ListAuditChainRow) :
    tip ListAuditChainRow.rowHash "" rows =
      (rows.getLast?.map ListAuditChainRow.rowHash).getD "" := by
  cases rows using reverseRecOn with
  | nil => rfl
  | append_singleton rows row => simp

/-- Two row lists that verify without a break and without an unchained prefix, and whose last
rows carry one hash, agree row by row on every hashed field.  A break is told by its reason:
`BrokenAt` names the row, and would not tell of a row without an id. -/
theorem tamper_evidence (sha : Sha256) (accountID projectID accountID' projectID' : String)
    (rows rows' : List ListAuditChainRow)
    (hsha : Set.InjOn sha.hex (hashedStrings rows ∪ hashedStrings rows'))
    (hreason : (verifyAuditChain sha accountID projectID rows).reason = "")
    (hunchained : (verifyAuditChain sha accountID projectID rows).unchainedPrefix = 0)
    (hreason' : (verifyAuditChain sha accountID' projectID' rows').reason = "")
    (hunchained' : (verifyAuditChain sha accountID' projectID' rows').unchainedPrefix = 0)
    (hlast : rows.getLast?.map ListAuditChainRow.rowHash =
      rows'.getLast?.map ListAuditChainRow.rowHash) :
    rows.length = rows'.length ∧ Forall₂ SameHashed rows rows' := by
  have hsame : Forall₂ SameHashed rows rows' := by
    apply Linked.forall₂ (g := "") (fun _ _ h => h.rowHash_ne) _
      (linked_of_verifyAuditChain hreason hunchained) (linked_of_verifyAuditChain hreason' hunchained')
    · rw [tip_rowHash, tip_rowHash, hlast]
    · intro row hmem row' hmem' prevHash prevHash' h h' hhash
      exact Continues.inj hsha hmem hmem' h h' hhash
  exact ⟨hsame.length_eq, hsame⟩

/-- A stand-in for SHA-256 that spells the bytes out. -/
def plainSha : Sha256 where
  hex data := ofList ('#' :: data.map fun b => Char.ofNat b.toNat)
  hex_ne data h := by
    have hchars := congrArg toList h
    simp at hchars

theorem plainSha_injective : Function.Injective plainSha.hex := by
  intro a b h
  have htail := (cons.inj (ofList_injective h)).2
  refine map_injective_iff.mpr ?_ htail
  intro x y hxy
  have hbyte (b : UInt8) : (Char.ofNat b.toNat).toNat = b.toNat := by
    have hvalid : b.toNat.isValidChar := .inl (by have := b.toNat_lt; omega)
    rw [Char.ofNat, dif_pos hvalid]
    rfl
  have hnat : x.toNat = y.toNat := by
    rw [← hbyte x, ← hbyte y]
    exact congrArg Char.toNat hxy
  exact UInt8.toNat_inj.mp hnat

/-- A row that continues from a hash. -/
def rowBehind (sha : Sha256) (prevHash auditID : String) (createdAt : Time) : ListAuditChainRow :=
  let row : AuditChainRow :=
    { auditID, planID := "plan", accountID := "account", projectID := "project", runID := "",
      nodeID := "", actorID := "actor", action := "plan.signal", idempotencyKey := auditID,
      payload := "\x7b\x7d", createdAt }
  { auditID, planID := row.planID, accountID := row.accountID, projectID := row.projectID,
    runID := row.runID, nodeID := row.nodeID, actorID := row.actorID, action := row.action,
    idempotencyKey := row.idempotencyKey, payloadJson := some (.obj []), createdAt,
    prevHash, rowHash := auditRowHash sha prevHash row }

/-- A chain of two rows. -/
def chainedRows (sha : Sha256) (createdAt : Time) : List ListAuditChainRow :=
  let first := rowBehind sha "" "a" createdAt
  [first, rowBehind sha first.rowHash "b" (createdAt + 5000)]

theorem verifyAuditChain_chainedRows (sha : Sha256) (createdAt : Time) :
    verifyAuditChain sha "account" "project" (chainedRows sha createdAt) =
      { accountID := "account", projectID := "project", rows := 2, chained := 2 } := by
  have hlinked : Linked (Continues sha) ListAuditChainRow.rowHash "" (chainedRows sha createdAt) :=
    ⟨⟨rfl, _, rfl, rfl⟩, ⟨rfl, _, rfl, rfl⟩, trivial⟩
  exact @walkAuditChain_linked sha _ _ [] nofun rfl hlinked

/-- Two listings of a chain, one with the nanoseconds that are not hashed. -/
theorem tamper_evidence_micros :
    (chainedRows plainSha 1000).length = (chainedRows plainSha 1001).length ∧
      Forall₂ SameHashed (chainedRows plainSha 1000) (chainedRows plainSha 1001) :=
  tamper_evidence plainSha "account" "project" "account" "project" _ _
    plainSha_injective.injOn (by rw [verifyAuditChain_chainedRows])
    (by rw [verifyAuditChain_chainedRows]) (by rw [verifyAuditChain_chainedRows])
    (by rw [verifyAuditChain_chainedRows]) rfl

end AgentOS.Store
