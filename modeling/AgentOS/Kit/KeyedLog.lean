import Mathlib.Data.List.Nodup

/-!
# A log with idempotency keys

An append-only log in which every entry claims a key, and no key is claimed twice.  `find`
answers the entry of a key, and `push` appends under a key that is free.

A log is `Stamped` when each value says its place.  Then a value is at one place only, and
one key claims it.
-/

namespace AgentOS.Kit

open List

/-- The entries of a log, oldest first, with the key that each one claimed. -/
structure KeyedLog (κ ε : Type) where
  entries : List (κ × ε)
  distinct : (entries.map Prod.fst).Nodup

namespace KeyedLog

variable {κ ε : Type}

/-- The log before the first append. -/
def empty : KeyedLog κ ε := ⟨[], nodup_nil⟩

/-- The entries without their keys. -/
def values (log : KeyedLog κ ε) : List ε := log.entries.map Prod.snd

variable [DecidableEq κ]

/-- The entry that claimed a key. -/
def find (log : KeyedLog κ ε) (key : κ) : Option ε := log.entries.lookup key

variable {key : κ} {log : KeyedLog κ ε}

theorem find_eq_none (h : log.find key = none) : key ∉ log.entries.map Prod.fst := by
  intro hmem
  obtain ⟨entry, hentry, rfl⟩ := mem_map.mp hmem
  exact absurd rfl (bne_iff_ne.mp (lookup_eq_none_iff.mp h entry hentry))

/-- Append under a key that is free. -/
def push (log : KeyedLog κ ε) (key : κ) (value : ε) (free : log.find key = none) :
    KeyedLog κ ε where
  entries := log.entries ++ [(key, value)]
  distinct := by
    rw [map_append, nodup_append]
    refine ⟨log.distinct, by simp, ?_⟩
    intro claimed hclaimed other hother hsame
    rw [map_singleton, mem_singleton] at hother
    rw [hsame, hother] at hclaimed
    exact find_eq_none free hclaimed

theorem values_push (log : KeyedLog κ ε) (key : κ) (value : ε) (free : log.find key = none) :
    (log.push key value free).values = log.values ++ [value] := by
  simp [values, push]

theorem find_push (log : KeyedLog κ ε) (key other : κ) (value : ε) (free : log.find key = none) :
    (log.push key value free).find other = if other = key then some value else log.find other := by
  rw [find, push, lookup_append]
  split
  · next h =>
    subst h
    rw [show log.entries.lookup other = none from free]
    simp
  · next h =>
    have hother : lookup other [(key, value)] = none := by
      simp [lookup_cons, beq_false_of_ne h]
    rw [hother, Option.or_none, find]

variable {value : ε}

theorem exists_entry (h : log.find key = some value) :
    ∃ i : Nat, log.entries[i]? = some (key, value) := by
  obtain ⟨before, after, hentries, -⟩ := lookup_eq_some_iff.mp h
  exact ⟨before.length, by simp [hentries]⟩

theorem find_of_entry {i : Nat}
    (h : log.entries[i]? = some (key, value)) : log.find key = some value := by
  obtain ⟨hi, hentry⟩ := List.getElem?_eq_some_iff.mp h
  have hsplit : log.entries = log.entries.take i ++ (key, value) :: log.entries.drop (i + 1) := by
    rw [← hentry, getElem_cons_drop, take_append_drop]
  refine lookup_eq_some_iff.mpr ⟨_, _, hsplit, fun entry hmem => ?_⟩
  have hdistinct := log.distinct
  rw [hsplit, map_append, nodup_append] at hdistinct
  exact bne_iff_ne.mpr (Ne.symm (hdistinct.2.2 _ (mem_map_of_mem hmem) _ mem_cons_self))

/-- Each value says its place, counted from one. -/
def Stamped (stamp : ε → Int) (log : KeyedLog κ ε) : Prop :=
  ∀ (i : Nat) (value : ε), log.values[i]? = some value → stamp value = i + 1

variable {stamp : ε → Int} {log : KeyedLog κ ε}

theorem Stamped.push (h : Stamped stamp log) (free : log.find key = none)
    (hvalue : stamp value = log.values.length + 1) : Stamped stamp (log.push key value free) := by
  intro i found hfound
  rw [values_push, getElem?_append] at hfound
  split at hfound
  · exact h i found hfound
  next hlast =>
  rw [getElem?_singleton] at hfound
  split at hfound
  · next hzero =>
    cases hfound
    omega
  · cases hfound

theorem Stamped.place (h : Stamped stamp log)
    (hfind : log.find key = some value) : ∃! i : Nat, log.values[i]? = some value := by
  obtain ⟨i, hi⟩ := exists_entry hfind
  have hvalue : log.values[i]? = some value := by simp [values, hi]
  refine ⟨i, hvalue, fun j hj => ?_⟩
  have hstamp := h i value hvalue
  have hstamp' := h j value hj
  omega

theorem Stamped.claim (h : Stamped stamp log) {i : Nat}
    (hvalue : log.values[i]? = some value) : ∃! key : κ, log.find key = some value := by
  rw [values, getElem?_map, Option.map_eq_some_iff] at hvalue
  obtain ⟨⟨key, found⟩, hentry, rfl⟩ := hvalue
  refine ⟨key, find_of_entry hentry, fun other hother => ?_⟩
  obtain ⟨j, hj⟩ := exists_entry hother
  have hstamp := h i found (by simp [values, hentry])
  have hstamp' := h j found (by simp [values, hj])
  obtain rfl : i = j := by omega
  rw [hentry] at hj
  cases hj
  rfl

end KeyedLog

end AgentOS.Kit
