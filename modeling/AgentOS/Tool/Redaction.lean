import AgentOS.Core.Basic
import AgentOS.Kit.Document

/-!
# Redaction of tool results

`ToolRegistry.Execute` turns the result of a tool into a `map[string]any`, and
`Redactor.Redact` masks the members of it that the operator's keys name.  Both look into
`map[string]any` and `[]any` only: a value of any other Go type (a struct, a typed map or
slice, a scalar) counts by what `encoding/json` makes of it.
-/

namespace AgentOS.Tool

open Kit Document

/-! ## Keys -/

structure RedactionKeys where
  exact : List String
  suffixes : List String

def defaultRedactionKeys : RedactionKeys where
  exact := ["authorization", "api_key", "apikey", "password", "secret", "private_key",
    "credentials", "client_secret", "token", "access_token", "refresh_token", "id_token",
    "secret_key"]
  suffixes := ["_secret", "_password", "_token", "_api_key", "_private_key"]

structure Redactor where
  keys : RedactionKeys

-- `lower` is `strings.ToLower`.
variable (lower : String → String)

def newRedactor (keys : Option RedactionKeys) : Redactor :=
  let keys := keys.getD defaultRedactionKeys
  { keys := { exact := keys.exact.map lower, suffixes := keys.suffixes.map lower } }

def Redactor.sensitive (r : Redactor) (key : String) : Bool :=
  let lowered := lower key
  r.keys.exact.contains lowered ||
    r.keys.suffixes.any fun suffix => suffix.toList.isSuffixOf lowered.toList

/-! ## Values -/

/-- A Go value that neither function looks into. -/
inductive Leaf (N : Type) where
  /-- A nil `map[string]any`. -/
  | nilMap
  /-- A nil `[]any`. -/
  | nilSlice
  /-- A value of another type, with its encoding. -/
  | other (json : Document N)

/-- A Go value that can be encoded: its objects and arrays are `map[string]any` and `[]any`. -/
abbrev GoValue (N : Type) := Document (Leaf N)

variable {N A : Type}

def mark : String := "[REDACTED]"

def Leaf.marshal : Leaf N → Document N
  | .nilMap | .nilSlice => .null
  | .other json => json

/-- `json.Marshal`. -/
def marshal (v : GoValue N) : Document N := v.rewrite mark (fun _ => false) Leaf.marshal

/-- `json.Unmarshal` of an object into a `map[string]any`. -/
def unmarshal (members : List (String × Document N)) : List (String × GoValue N) :=
  rewriteMembers mark (fun _ => false) (fun n => .num (.other (.num n))) members

/-! ## From the tool to the payload -/

def toMap : GoValue N → List (String × GoValue N)
  | .null | .num .nilMap => []
  | .obj members => members
  | v =>
    match marshal v with
    | .obj members => unmarshal members
    | _ => [("result", v)]

def execute (tools : String → Option (A → Except Err (GoValue N))) (toolName : String)
    (args : A) : Except Err (List (String × GoValue N)) :=
  match tools toolName with
  | none => .error (.external ("tool not found in registry: tool " ++ quoted toolName ++
      " not found in registry"))
  | some tool =>
    match tool args with
    | .error err => .error (.within ("tool " ++ quoted toolName ++ " execution") err)
    | .ok result => .ok (toMap result)

/-- The type switch of both loops on a value that is no filled map or slice.  A nil map or
slice comes out empty. -/
def redactLeaf : Leaf N → GoValue N
  | .nilMap => .obj []
  | .nilSlice => .arr []
  | .other json => .num (.other json)

/-- `Redact`, that is `redactMap` with `redactSlice`. -/
def Redactor.redact (r : Redactor) (input : List (String × GoValue N)) :
    List (String × GoValue N) :=
  rewriteMembers mark (r.sensitive lower) redactLeaf input

/-! ## What redaction is for -/

/-- The JSON of a payload: an object as it is, any other value in an envelope. -/
def payload : GoValue N → Document N
  | .null | .num .nilMap => .obj []
  | v =>
    match marshal v with
    | .obj members => .obj members
    | json => .obj [("result", json)]

/-- The JSON with every sensitive member masked, at every depth. -/
def Redactor.masked (r : Redactor) (json : Document N) : Document N :=
  json.rewrite mark (r.sensitive lower) .num

/-- A value of another type whose sensitive members hold the mark already.  A nil map or slice
does not count: its JSON is `null`, and it comes out empty. -/
def Leaf.clear (hidden : String → Bool) : Leaf N → Bool
  | .nilMap | .nilSlice => false
  | .other json => json.masked mark hidden

/-- What the map of the result shows outside of sensitive members is clear.  A map that was read
back from an object always is, and so is an envelope whose key `result` is sensitive. -/
def clear (hidden : String → Bool) (result : GoValue N) : Bool :=
  ((obj (toMap result)).rewrite mark hidden .num).all (Leaf.clear hidden)

variable {hidden : String → Bool}

theorem marshal_redacted_iff (v : GoValue N) :
    marshal (v.rewrite mark hidden redactLeaf) = (marshal v).rewrite mark hidden .num ↔
      (v.rewrite mark hidden .num).all (Leaf.clear hidden) = true := by
  unfold marshal
  rw [rewrite_rewrite, rewrite_rewrite]
  simp only [Bool.or_false, Bool.false_or]
  refine rewrite_inj mark hidden (fun leaf => ?_) v
  cases leaf with
  | nilMap | nilSlice => exact ⟨nofun, nofun⟩
  | other json => exact eq_comm.trans (rewrite_eq_self mark hidden json)

theorem marshal_unmarshal (members : List (String × Document N)) :
    marshal (.obj (unmarshal members)) = .obj members := by
  show ((obj members).rewrite mark _ _).rewrite mark _ Leaf.marshal = _
  rw [rewrite_rewrite]
  exact rewrite_shown mark (.obj members)

theorem marshal_toMap (result : GoValue N) : marshal (.obj (toMap result)) = payload result := by
  cases result with
  | null | obj members | bool b | str s | arr items => rfl
  | num leaf =>
    cases leaf with
    | nilMap | nilSlice => rfl
    | other json =>
      cases json with
      | obj members => exact marshal_unmarshal members
      | _ => rfl

/-- The redacted payload of a tool result is its JSON with every sensitive member masked if and
only if the result is clear. -/
theorem redaction_complete (keys : Option RedactionKeys)
    (tools : String → Option (A → Except Err (GoValue N))) (toolName : String) (args : A)
    {tool : A → Except Err (GoValue N)} {result : GoValue N}
    (htool : tools toolName = some tool) (hresult : tool args = .ok result) :
    ∃ input, execute tools toolName args = .ok input ∧
      (marshal (.obj ((newRedactor lower keys).redact lower input)) =
          (newRedactor lower keys).masked lower (payload result) ↔
        clear ((newRedactor lower keys).sensitive lower) result = true) := by
  refine ⟨toMap result, ?_, ?_⟩
  · simp [execute, htool, hresult]
  · rw [← marshal_toMap]
    exact marshal_redacted_iff (.obj (toMap result))

/-- `strings.ToLower` on ASCII keys. -/
def asciiLower (s : String) : String := .ofList (s.toList.map Char.toLower)

/-- An answer whose `[]string` and whose scalars are nested in `map[string]any`. -/
def account : GoValue Int :=
  .obj [("roles", .num (.other (.arr [.str "admin"]))),
    ("session", .obj [("Access_Token", .num (.other (.str "t"))), ("user", .str "ada")])]

theorem redaction_complete_account :
    ∃ input, execute (fun _ => some fun () => .ok account) "account" () = .ok input ∧
      marshal (.obj ((newRedactor asciiLower none).redact asciiLower input)) =
        (newRedactor asciiLower none).masked asciiLower (payload account) := by
  obtain ⟨input, hexecute, hexact⟩ := redaction_complete asciiLower none
    (fun _ => some fun () => .ok account) "account" () rfl rfl
  exact ⟨input, hexecute, hexact.mpr (by decide +kernel)⟩

/-- The members of a `[]map[string]any` are recorded as they are. -/
theorem token_recorded :
    let r := newRedactor asciiLower none
    let json : Document Int := .arr [.obj [("token", .str "t")]]
    r.masked asciiLower (payload (.num (.other json))) =
        .obj [("result", .arr [.obj [("token", .str mark)]])] ∧
      execute (fun _ => some fun () => .ok (.num (.other json))) "list_keys" () =
          .ok [("result", .num (.other json))] ∧
        marshal (.obj (r.redact asciiLower [("result", .num (.other json))])) =
          .obj [("result", json)] := by
  have hresult : (newRedactor asciiLower none).sensitive asciiLower "result" = false := by
    decide +kernel
  have htoken : (newRedactor asciiLower none).sensitive asciiLower "token" = true := by
    decide +kernel
  refine ⟨?_, rfl, ?_⟩
  · show obj [("result", if _ then _ else
      arr [.obj [("token", if _ then _ else _)]])] = _
    rw [hresult]
    rfl
  · show marshal (obj [("result", if _ then _ else _)]) = _
    rw [hresult]
    rfl

end AgentOS.Tool
