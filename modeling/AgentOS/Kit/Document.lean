import Mathlib.Data.String.Basic

/-!
# JSON documents

A document is a JSON text up to white space and the order of object members: the members
of an object are listed in key order.  The tree is generic in what stands for a number, so
that a text, whose numbers are literals, and a decoded value, whose numbers are machine
numbers, are documents over two types and `map` leads from one to the other.

`eqBy` compares two documents with a given comparison of their numbers.
-/

namespace AgentOS.Kit

/-- A JSON tree with numbers of type `N`. -/
inductive Document (N : Type) where
  | null
  | bool (b : Bool)
  | num (n : N)
  | str (s : String)
  | arr (items : List (Document N))
  | obj (members : List (String × Document N))

namespace Document

variable {N M K : Type}

/-! ## Maps over the numbers -/

mutual

/-- Replace every number. -/
def map (f : N → M) : Document N → Document M
  | .null => .null
  | .bool b => .bool b
  | .num n => .num (f n)
  | .str s => .str s
  | .arr items => .arr (mapItems f items)
  | .obj members => .obj (mapMembers f members)

/-- `map` over the items of an array. -/
def mapItems (f : N → M) : List (Document N) → List (Document M)
  | [] => []
  | d :: items => map f d :: mapItems f items

/-- `map` over the members of an object. -/
def mapMembers (f : N → M) : List (String × Document N) → List (String × Document M)
  | [] => []
  | (key, d) :: members => (key, map f d) :: mapMembers f members

end

mutual

/-- Every number passes a test. -/
def all (p : N → Bool) : Document N → Bool
  | .null | .bool _ | .str _ => true
  | .num n => p n
  | .arr items => allItems p items
  | .obj members => allMembers p members

/-- `all` over the items of an array. -/
def allItems (p : N → Bool) : List (Document N) → Bool
  | [] => true
  | d :: items => all p d && allItems p items

/-- `all` over the members of an object. -/
def allMembers (p : N → Bool) : List (String × Document N) → Bool
  | [] => true
  | (_, d) :: members => all p d && allMembers p members

end

/-- Induction on a document, with the hypotheses on items and members by membership. -/
theorem induct {motive : Document N → Prop} (null : motive .null) (bool : ∀ b, motive (.bool b))
    (num : ∀ n, motive (.num n)) (str : ∀ s, motive (.str s))
    (arr : ∀ items, (∀ d ∈ items, motive d) → motive (.arr items))
    (obj : ∀ members, (∀ member ∈ members, motive member.2) → motive (.obj members)) :
    ∀ d, motive d :=
  @Document.rec N motive (fun items => ∀ d ∈ items, motive d)
    (fun members => ∀ member ∈ members, motive member.2) (fun member => motive member.2)
    null bool num str arr obj nofun (fun _ _ hd hitems => List.forall_mem_cons.mpr ⟨hd, hitems⟩)
    nofun (fun _ _ hd hmembers => List.forall_mem_cons.mpr ⟨hd, hmembers⟩) (fun _ _ hd => hd)

variable {p : N → Bool} {f g : N → M}

theorem map_congr (h : ∀ n, p n = true → f n = g n) (d : Document N) (hd : d.all p = true) :
    d.map f = d.map g := by
  induction d using induct with
  | num n => exact congrArg Document.num (h n hd)
  | arr items ih => induction items <;> grind [map, mapItems, all, allItems]
  | obj members ih => induction members <;> grind [map, mapMembers, all, allMembers]
  | _ => rfl

theorem all_imp {q : N → Bool} (h : ∀ n, p n = true → q n = true) (d : Document N)
    (hd : d.all p = true) : d.all q = true := by
  induction d using induct with
  | num n => exact h n hd
  | arr items ih => induction items <;> grind [all, allItems]
  | obj members ih => induction members <;> grind [all, allMembers]
  | _ => rfl

theorem map_id (d : Document N) : d.map id = d := by
  induction d using induct with
  | arr items ih => induction items <;> grind [map, mapItems]
  | obj members ih => induction members <;> grind [map, mapMembers]
  | _ => rfl

theorem map_map (f : M → K) (g : N → M) (d : Document N) : (d.map g).map f = d.map (f ∘ g) := by
  induction d using induct with
  | arr items ih => induction items <;> grind [map, mapItems]
  | obj members ih => induction members <;> grind [map, mapMembers]
  | _ => rfl

theorem mapMembers_mapMembers (f : M → K) (g : N → M) (members : List (String × Document N)) :
    mapMembers f (mapMembers g members) = mapMembers (f ∘ g) members :=
  obj.inj (map_map f g (.obj members))

theorem all_map (p : M → Bool) (g : N → M) (d : Document N) : (d.map g).all p = d.all (p ∘ g) := by
  induction d using induct with
  | arr items ih => induction items <;> grind [map, mapItems, all, allItems]
  | obj members ih => induction members <;> grind [map, mapMembers, all, allMembers]
  | _ => rfl

theorem mapMembers_eq_map (f : N → M) (members : List (String × Document N)) :
    mapMembers f members = members.map fun (key, d) => (key, d.map f) := by
  induction members with
  | nil => rfl
  | cons member members ih =>
    obtain ⟨key, d⟩ := member
    rw [mapMembers, ih, List.map_cons]

theorem map_eq_self {f : N → N} (h : ∀ n, p n = true → f n = n)
    {d : Document N} (hd : d.all p = true) : d.map f = d :=
  (map_congr h d hd).trans (map_id d)

/-! ## Comparison -/

mutual

/-- Documents of one shape whose numbers compare equal. -/
def eqBy (eq : N → M → Bool) : Document N → Document M → Bool
  | .null, .null => true
  | .bool b, .bool b' => b == b'
  | .num n, .num m => eq n m
  | .str s, .str s' => s == s'
  | .arr items, .arr items' => eqItems eq items items'
  | .obj members, .obj members' => eqMembers eq members members'
  | _, _ => false

/-- `eqBy` over the items of two arrays. -/
def eqItems (eq : N → M → Bool) : List (Document N) → List (Document M) → Bool
  | [], [] => true
  | d :: items, d' :: items' => eqBy eq d d' && eqItems eq items items'
  | _, _ => false

/-- `eqBy` over the members of two objects. -/
def eqMembers (eq : N → M → Bool) :
    List (String × Document N) → List (String × Document M) → Bool
  | [], [] => true
  | (key, d) :: members, (key', d') :: members' =>
      key == key' && eqBy eq d d' && eqMembers eq members members'
  | _, _ => false

end

variable {eq : M → K → Bool}

theorem eqBy_map_map {g : N → K} (h : ∀ n, p n = true → eq (f n) (g n) = true)
    (d : Document N) (hd : d.all p = true) : eqBy eq (d.map f) (d.map g) = true := by
  induction d using induct with
  | null => rfl
  | bool | str => exact beq_self_eq_true _
  | num n => exact h n hd
  | arr items ih => induction items <;> grind [map, mapItems, all, allItems, eqBy, eqItems]
  | obj members ih =>
    induction members <;> grind [map, mapMembers, all, allMembers, eqBy, eqMembers]

theorem eqBy_iff [DecidableEq N] (d d' : Document N) :
    eqBy (fun n m => n = m) d d' = true ↔ d = d' := by
  induction d using induct generalizing d' with
  | arr items ih =>
    cases d' with
    | arr items' =>
      simp only [eqBy, arr.injEq]
      induction items generalizing items' with
      | nil => cases items' <;> simp [eqItems]
      | cons d items hitems =>
        obtain ⟨hd, hrest⟩ := List.forall_mem_cons.mp ih
        cases items' <;> simp [eqItems, hd, hitems hrest]
    | _ => simp [eqBy]
  | obj members ih =>
    cases d' with
    | obj members' =>
      simp only [eqBy, obj.injEq]
      induction members generalizing members' with
      | nil => cases members' <;> simp [eqMembers]
      | cons member members hmembers =>
        obtain ⟨hd, hrest⟩ := List.forall_mem_cons.mp ih
        rcases members' with _ | ⟨⟨key, d⟩, members'⟩ <;>
          simp [eqMembers, hd, hmembers hrest, Prod.ext_iff]
    | _ => simp [eqBy]
  | _ => cases d' <;> simp [eqBy]

instance [DecidableEq N] : DecidableEq (Document N) :=
  fun d d' => decidable_of_iff _ (eqBy_iff d d')

/-! ## Masks -/

section

variable (mark : String) (hidden : String → Bool)

mutual

/-- Put a document in place of every number, and `mark` in place of the values of the members
with a hidden key. -/
def rewrite (f : N → Document M) : Document N → Document M
  | .null => .null
  | .bool b => .bool b
  | .num n => f n
  | .str s => .str s
  | .arr items => .arr (rewriteItems f items)
  | .obj members => .obj (rewriteMembers f members)

/-- `rewrite` over the items of an array. -/
def rewriteItems (f : N → Document M) : List (Document N) → List (Document M)
  | [] => []
  | d :: items => rewrite f d :: rewriteItems f items

/-- `rewrite` over the members of an object. -/
def rewriteMembers (f : N → Document M) : List (String × Document N) → List (String × Document M)
  | [] => []
  | (key, d) :: members =>
      (key, if hidden key then .str mark else rewrite f d) :: rewriteMembers f members

end

theorem rewrite_shown (d : Document N) : d.rewrite mark (fun _ => false) .num = d := by
  induction d using induct with
  | arr items ih => induction items <;> grind [rewrite, rewriteItems]
  | obj members ih => induction members <;> grind [rewrite, rewriteMembers]
  | _ => rfl

/-- The document is the string `s`. -/
def isStr (s : String) : Document N → Bool
  | .str s' => s' = s
  | _ => false

theorem isStr_iff {s : String} {d : Document N} : d.isStr s = true ↔ d = .str s := by
  cases d <;> simp [isStr]

mutual

/-- The members with a hidden key hold `mark`, at every depth. -/
def masked : Document N → Bool
  | .null | .bool _ | .num _ | .str _ => true
  | .arr items => maskedItems items
  | .obj members => maskedMembers members

/-- `masked` over the items of an array. -/
def maskedItems : List (Document N) → Bool
  | [] => true
  | d :: items => masked d && maskedItems items

/-- `masked` over the members of an object. -/
def maskedMembers : List (String × Document N) → Bool
  | [] => true
  | (key, d) :: members =>
      (if hidden key then d.isStr mark else masked d) && maskedMembers members

end

theorem rewrite_eq_self (d : Document N) :
    d.rewrite mark hidden .num = d ↔ d.masked mark hidden = true := by
  induction d using induct with
  | arr items ih =>
    simp only [rewrite, masked, arr.injEq]
    induction items <;> grind [rewriteItems, maskedItems]
  | obj members ih =>
    simp only [rewrite, masked, obj.injEq]
    induction members <;> grind [rewriteMembers, maskedMembers, isStr_iff]
  | _ => exact ⟨fun _ => rfl, fun _ => rfl⟩

variable {f g : N → Document M}

/-- The numbers below a hidden key do not count. -/
theorem rewrite_inj (h : ∀ n, f n = g n ↔ p n = true) (d : Document N) :
    d.rewrite mark hidden f = d.rewrite mark hidden g ↔
      (d.rewrite mark hidden .num).all p = true := by
  induction d using induct with
  | num n => exact h n
  | arr items ih =>
    simp only [rewrite, all, arr.injEq]
    induction items <;> grind [rewriteItems, allItems]
  | obj members ih =>
    simp only [rewrite, all, obj.injEq]
    induction members <;> grind [rewrite, rewriteMembers, all, allMembers]
  | _ => exact ⟨fun _ => rfl, fun _ => rfl⟩

theorem rewrite_rewrite {hidden' : String → Bool} {k : M → Document K} (d : Document N) :
    (d.rewrite mark hidden f).rewrite mark hidden' k =
      d.rewrite mark (fun key => hidden key || hidden' key)
        fun n => (f n).rewrite mark hidden' k := by
  induction d using induct with
  | arr items ih => induction items <;> grind [rewrite, rewriteItems]
  | obj members ih => induction members <;> grind [rewrite, rewriteMembers]
  | _ => rfl

end

/-- Put a document in place of every number. -/
def fill (f : N → Document M) (d : Document N) : Document M := d.rewrite "" (fun _ => false) f

theorem fill_fill (f : N → Document M) (g : M → Document K) (d : Document N) :
    (d.fill f).fill g = d.fill fun n => (f n).fill g :=
  rewrite_rewrite "" _ d

/-! ## Texts -/

/-- The escape of a character in a JSON string, as `encoding/json` writes it. -/
def escape (c : Char) : String :=
  if c = '"' then "\\\""
  else if c = '\\' then "\\\\"
  else if c.toNat = 8 then "\\b"
  else if c.toNat = 12 then "\\f"
  else if c = '\n' then "\\n"
  else if c = '\r' then "\\r"
  else if c = '\t' then "\\t"
  else if c.toNat < 32 ∨ c = '<' ∨ c = '>' ∨ c = '&' then
    "\\u00" ++ (if c.toNat < 16 then "0" else "") ++ String.ofList (Nat.toDigits 16 c.toNat)
  else if c.toNat = 0x2028 then "\\u2028"
  else if c.toNat = 0x2029 then "\\u2029"
  else c.toString

/-- A JSON string. -/
def quote (s : String) : String := "\"" ++ String.join (s.toList.map escape) ++ "\""

mutual

/-- The text of a document, without spaces and with the members in key order. -/
def text (number : N → String) : Document N → String
  | .null => "null"
  | .bool b => if b then "true" else "false"
  | .num n => number n
  | .str s => quote s
  | .arr items => "[" ++ textItems number items ++ "]"
  | .obj members => "\x7b" ++ textMembers number members ++ "\x7d"

/-- The items of an array, with commas between. -/
def textItems (number : N → String) : List (Document N) → String
  | [] => ""
  | d :: items => text number d ++ (if items.isEmpty then "" else ",") ++ textItems number items

/-- The members of an object, with commas between. -/
def textMembers (number : N → String) : List (String × Document N) → String
  | [] => ""
  | (key, d) :: members =>
      quote key ++ ":" ++ text number d ++ (if members.isEmpty then "" else ",") ++
        textMembers number members

end

end Document

end AgentOS.Kit
