import Mathlib.Data.List.Sort
import Mathlib.Data.String.Basic

/-!
# Finite maps as sorted entry lists

A finite map over an ordered key type, kept as the list of its entries in
strictly increasing key order.  The order is a field of the structure, so two
maps with the same content are the same value, and the entries in key order
are the list itself.  A program that ranges over a map and then sorts the keys
reads exactly `SortedMap.entries`.

`insert` replaces the value of a key that is there and adds an entry
otherwise.  The lemmas say what a lookup reads after an insert, and what an
insert does to the key list.
-/

namespace AgentOS.Kit

open List

variable {κ β : Type} [LinearOrder κ]

/-- Insert into a sorted entry list.  An entry of the same key is replaced. -/
def insertEntry (k : κ) (v : β) : List (κ × β) → List (κ × β)
  | [] => [(k, v)]
  | (k', v') :: rest =>
      if k < k' then (k, v) :: (k', v') :: rest
      else if k = k' then (k, v) :: rest
      else (k', v') :: insertEntry k v rest

/-- The value of the first entry of `k`. -/
def lookupEntry (k : κ) : List (κ × β) → Option β
  | [] => none
  | (k', v') :: rest => if k = k' then some v' else lookupEntry k rest

variable {l : List (κ × β)}

theorem mem_insertEntry {k : κ} {v : β} {e : κ × β}
    (h : e ∈ insertEntry k v l) : e = (k, v) ∨ e ∈ l := by
  induction l with
  | nil => simpa [insertEntry] using h
  | cons hd tl ih =>
    obtain ⟨k', v'⟩ := hd
    rw [insertEntry] at h
    split_ifs at h with h1 h2
    · simpa using h
    · rcases mem_cons.mp h with h | h
      · exact Or.inl h
      · exact Or.inr (mem_cons_of_mem _ h)
    · rcases mem_cons.mp h with h | h
      · exact Or.inr (by rw [h]; exact mem_cons_self)
      · rcases ih h with h | h
        · exact Or.inl h
        · exact Or.inr (mem_cons_of_mem _ h)

theorem insertEntry_sorted (k : κ) (v : β) (h : l.Pairwise (fun a b => a.1 < b.1)) :
    (insertEntry k v l).Pairwise (fun a b => a.1 < b.1) := by
  induction l with
  | nil => simp [insertEntry]
  | cons hd tl ih =>
    obtain ⟨k', v'⟩ := hd
    obtain ⟨hhd, htl⟩ := pairwise_cons.mp h
    rw [insertEntry]
    split_ifs with h1 h2
    · refine pairwise_cons.mpr ⟨?_, h⟩
      intro e he
      rcases mem_cons.mp he with rfl | he
      · exact h1
      · exact h1.trans (hhd e he)
    · subst h2
      exact pairwise_cons.mpr ⟨hhd, htl⟩
    · refine pairwise_cons.mpr ⟨?_, ih htl⟩
      intro e he
      rcases mem_insertEntry he with rfl | he
      · exact lt_of_le_of_ne (not_lt.mp h1) (Ne.symm h2)
      · exact hhd e he

theorem lookupEntry_insertEntry (k j : κ) (v : β) (l : List (κ × β)) :
    lookupEntry j (insertEntry k v l) = if j = k then some v else lookupEntry j l := by
  induction l with
  | nil => rfl
  | cons hd tl ih =>
    obtain ⟨k', v'⟩ := hd
    rw [insertEntry]
    split_ifs <;> simp only [lookupEntry, ih] <;> split_ifs <;> simp_all

theorem mem_of_lookupEntry {k : κ} {v : β} (h : lookupEntry k l = some v) : (k, v) ∈ l := by
  induction l with
  | nil => simp [lookupEntry] at h
  | cons hd tl ih =>
    obtain ⟨k', v'⟩ := hd
    rw [lookupEntry] at h
    split_ifs at h with h1
    · cases h
      exact h1 ▸ mem_cons_self
    · exact mem_cons_of_mem _ (ih h)

theorem lookupEntry_of_mem {k : κ} {v : β}
    (hs : l.Pairwise (fun a b => a.1 < b.1)) (h : (k, v) ∈ l) : lookupEntry k l = some v := by
  induction l with
  | nil => simp at h
  | cons hd tl ih =>
    obtain ⟨k', v'⟩ := hd
    obtain ⟨hhd, htl⟩ := pairwise_cons.mp hs
    rcases mem_cons.mp h with h | h
    · cases h
      simp [lookupEntry]
    · have hne : k ≠ k' := ne_of_gt (hhd (k, v) h)
      simp [lookupEntry, hne, ih htl h]

/-- A finite map: its entries in strictly increasing key order. -/
structure SortedMap (κ β : Type) [LinearOrder κ] where
  entries : List (κ × β)
  sorted : entries.Pairwise (fun a b => a.1 < b.1)

namespace SortedMap

/-- The map without entries. -/
def empty : SortedMap κ β := ⟨[], Pairwise.nil⟩

instance : Inhabited (SortedMap κ β) := ⟨empty⟩

/-- The value stored under `k`. -/
def get? (m : SortedMap κ β) (k : κ) : Option β := lookupEntry k m.entries

/-- Whether `k` has an entry. -/
def contains (m : SortedMap κ β) (k : κ) : Bool := (m.get? k).isSome

/-- Store `v` under `k`. -/
def insert (m : SortedMap κ β) (k : κ) (v : β) : SortedMap κ β :=
  ⟨insertEntry k v m.entries, insertEntry_sorted k v m.sorted⟩

/-- The keys in increasing order. -/
def keys (m : SortedMap κ β) : List κ := m.entries.map Prod.fst

/-- The values in the order of their keys. -/
def values (m : SortedMap κ β) : List β := m.entries.map Prod.snd

@[simp] theorem get?_empty (k : κ) : (empty : SortedMap κ β).get? k = none := rfl

section

variable (m : SortedMap κ β)
include m

theorem get?_insert (k j : κ) (v : β) :
    (m.insert k v).get? j = if j = k then some v else m.get? j :=
  lookupEntry_insertEntry k j v m.entries

@[simp] theorem get?_insert_self (k : κ) (v : β) : (m.insert k v).get? k = some v := by
  rw [get?_insert, if_pos rfl]

theorem get?_insert_ne {k j : κ} (v : β) (h : j ≠ k) : (m.insert k v).get? j = m.get? j := by
  rw [get?_insert, if_neg h]

theorem mem_entries_iff (k : κ) (v : β) : (k, v) ∈ m.entries ↔ m.get? k = some v :=
  ⟨lookupEntry_of_mem m.sorted, mem_of_lookupEntry⟩

theorem mem_values_iff (v : β) : v ∈ m.values ↔ ∃ k, m.get? k = some v := by
  simp [values, mem_entries_iff]

theorem mem_keys_iff (k : κ) : k ∈ m.keys ↔ (m.get? k).isSome := by
  simp only [keys, mem_map, Prod.exists, exists_and_right, exists_eq_right,
    mem_entries_iff, Option.isSome_iff_exists]

theorem mem_keys_insert (k j : κ) (v : β) : j ∈ (m.insert k v).keys ↔ j = k ∨ j ∈ m.keys := by
  simp only [mem_keys_iff, get?_insert]
  by_cases h : j = k <;> simp [h]

end

section Fold

variable {α : Type} (key : α → κ) (l : List α) (m : SortedMap κ β) (k : κ)

theorem mem_keys_foldl_insert (value : SortedMap κ β → α → β) :
    k ∈ (l.foldl (fun m a => m.insert (key a) (value m a)) m).keys ↔
      k ∈ l.map key ∨ k ∈ m.keys := by
  induction l generalizing m with
  | nil => simp
  | cons a l ih =>
    rw [foldl_cons, ih, mem_keys_insert, map_cons, mem_cons]
    tauto

theorem find?_key {l : List α} {a : α} (hnodup : (l.map key).Nodup) (hmem : a ∈ l) :
    (l.find? fun b => key b = key a) = some a := by
  obtain ⟨found, hfound⟩ : ∃ found, (l.find? fun b => key b = key a) = some found :=
    Option.isSome_iff_exists.mp (find?_isSome.mpr ⟨a, hmem, by simp⟩)
  have hkey : key found = key a := by simpa using find?_some hfound
  rw [hfound, inj_on_of_nodup_map hnodup (mem_of_find?_eq_some hfound) hmem hkey]

/-- The last element of a key is the one that stays. -/
theorem get?_foldl_insert (value : α → β) :
    (l.foldl (fun m a => m.insert (key a) (value a)) m).get? k =
      ((l.reverse.find? fun a => key a = k).map value).or (m.get? k) := by
  induction l generalizing m with
  | nil => rfl
  | cons a l ih =>
    rw [foldl_cons, ih, get?_insert, reverse_cons, find?_append]
    by_cases ha : k = key a
    · cases l.reverse.find? fun a => key a = k <;> simp [ha]
    · cases l.reverse.find? fun a => key a = k <;> simp [ha, Ne.symm ha]

end Fold

theorem keys_nodup (m : SortedMap κ β) : m.keys.Nodup := by
  have h : m.keys.Pairwise (· < ·) := pairwise_map.mpr m.sorted
  exact h.imp ne_of_lt

end SortedMap

end AgentOS.Kit
