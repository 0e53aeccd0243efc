import Mathlib.Data.List.Basic

/-!
# Draining a channel into one variable

A loop receives message after message and decodes each of them *into the same variable*.
Decoding sets what the message holds and keeps the rest, so a message may be read with
what earlier messages of the same drain left in the variable.

* `Drain` is such a loop, seen step by step: the variable and the message of every step.
* `Drain.received` are the messages that the drain took before a step.
* `Drain.var_eq` says what the variable holds, and `Drain.decode_eq` that a message which
  replaces all that they set is read as if it was the first.
-/

namespace AgentOS.Kit

/-- A loop that drains a channel.  `var n` is the variable while a drain goes on, and
`next n` is the message that step `n` receives.  A drain begins with `zero`. -/
structure Drain (V M : Type) where
  zero : V
  decode : V → M → V
  var : Nat → Option V
  next : Nat → Option M
  var_zero : ∀ v, var 0 = some v → v = zero
  var_succ : ∀ n v, var (n + 1) = some v →
    (∃ m u, next n = some m ∧ var n = some u ∧ v = decode u m) ∨ (next n = none ∧ v = zero)

namespace Drain

variable {V M : Type} (D : Drain V M)

/-- The messages that the drain received before step `n`. -/
def received : Nat → List M
  | 0 => []
  | n + 1 =>
      match D.next n with
      | some m => received n ++ [m]
      | none => []

theorem var_eq {n : Nat} {v : V} (h : D.var n = some v) :
    v = (D.received n).foldl D.decode D.zero := by
  induction n generalizing v with
  | zero => exact D.var_zero v h
  | succ n ih =>
    rcases D.var_succ n v h with ⟨m, u, hnext, hvar, rfl⟩ | ⟨hnext, rfl⟩
    · rw [received, hnext, List.foldl_append, ← ih hvar]
      rfl
    · rw [received, hnext]
      rfl

theorem decode_eq {n : Nat} {v : V} {m : M} (h : D.var n = some v)
    (hreplaces : ∀ m' ∈ D.received n, ∀ u, D.decode (D.decode u m') m = D.decode u m) :
    D.decode v m = D.decode D.zero m := by
  rw [D.var_eq h]
  generalize D.received n = ms at hreplaces
  generalize D.zero = u
  induction ms generalizing u with
  | nil => rfl
  | cons m' ms ih =>
    rw [List.foldl_cons, ih fun m'' hmem => hreplaces m'' (List.mem_cons_of_mem _ hmem)]
    exact hreplaces m' List.mem_cons_self u

end Drain

end AgentOS.Kit
