import Mathlib.Algebra.Order.BigOperators.Group.List
import Mathlib.Algebra.Order.Group.Nat
import Mathlib.Algebra.Order.Ring.Int
import Mathlib.Data.List.Induction
import Mathlib.Data.List.Nodup

/-!
# Tasks that settle each other

A finite set of tasks, each of which ends with a value.  A rule reads the values of the tasks
that have ended and decides for a task, once it can: the task is run, and ends with an outcome
of its own, or it is settled with a value and never run.

The rule is asked while other tasks are still under way, and a step may change many tasks at
once.  If the rule does not change its mind as more tasks end (`Rule.Monotone`), the values do
not depend on any of this: every run agrees with one solution of the rule (`Agrees`), and a run
has at most two steps for each task (`Step.weight_lt`).
-/

namespace AgentOS.Kit.Settling

open List

/-- How far a task is. -/
inductive Phase (α : Type) where
  | idle
  | running
  | done (value : α)

/-- What is decided for a task. -/
inductive Ruling (α : Type) where
  | run
  | settle (value : α)

namespace Phase

variable {α : Type}

/-- The value of a task that has ended. -/
def value : Phase α → Option α
  | .done value => some value
  | _ => none

/-- The changes that a task has left. -/
def weight : Phase α → Nat
  | .idle => 2
  | .running => 1
  | .done _ => 0

theorem weight_le (phase : Phase α) : phase.weight ≤ 2 := by
  cases phase with
  | idle => exact le_rfl
  | running => exact Nat.le_succ 1
  | done => exact Nat.zero_le 2

end Phase

variable {ι α : Type}

/-- What a task ends with, by its ruling. -/
def Ruling.result (outcome : α) : Ruling α → α
  | .run => outcome
  | .settle value => value

/-- A rule decides for a task from the values of the tasks that have ended. -/
abbrev Rule (ι α : Type) := (ι → Option α) → ι → Option (Ruling α)

namespace Rule

/-- The rule says the same of a task when more tasks have ended. -/
def Monotone (rule : Rule ι α) : Prop :=
  ∀ ⦃f g : ι → Option α⦄ ⦃i : ι⦄ ⦃ruling : Ruling α⦄,
    (∀ j a, f j = some a → g j = some a) → rule f i = some ruling → rule g i = some ruling

/-- The values of the tasks solve the rule. -/
def Solves (rule : Rule ι α) (outcome : ι → α) (tasks : List ι) (f : ι → Option α) : Prop :=
  ∀ i ∈ tasks, ∃ ruling, rule f i = some ruling ∧ f i = some (ruling.result (outcome i))

section Solution

variable [DecidableEq ι]

/-- Settle one task. -/
def settle (rule : Rule ι α) (outcome : ι → α) (f : ι → Option α) (i : ι) : ι → Option α :=
  Function.update f i ((rule f i).map (Ruling.result (outcome i)))

/-- Settle the tasks in an order. -/
def solve (rule : Rule ι α) (outcome : ι → α) (order : List ι) : ι → Option α :=
  order.foldl (rule.settle outcome) fun _ => none

variable {rule : Rule ι α} {outcome : ι → α}

theorem solve_concat (order : List ι) (i : ι) :
    rule.solve outcome (order ++ [i]) = rule.settle outcome (rule.solve outcome order) i := by
  rw [solve, foldl_append]
  rfl

theorem solve_of_notMem {order : List ι} {i : ι} (h : i ∉ order) :
    rule.solve outcome order i = none := by
  induction order using reverseRecOn with
  | nil => rfl
  | append_singleton order last ih =>
    rw [mem_append, not_or, mem_singleton] at h
    rw [solve_concat, settle, Function.update_of_ne h.2]
    exact ih h.1

theorem solve_solves (hmono : rule.Monotone) {order : List ι} (hnodup : order.Nodup)
    (htotal : ∀ l i r, order = l ++ i :: r → ∀ f : ι → Option α,
      (∀ j ∈ l, (f j).isSome = true) → (rule f i).isSome = true) :
    rule.Solves outcome order (rule.solve outcome order) := by
  induction order using reverseRecOn with
  | nil => exact nofun
  | append_singleton order last ih =>
    obtain ⟨hinit, -, hdisjoint⟩ := nodup_append.mp hnodup
    have hbefore : rule.Solves outcome order (rule.solve outcome order) := by
      refine ih hinit fun l i r hsplit => htotal l i (r ++ [last]) ?_
      rw [hsplit, append_assoc, cons_append]
    have hlast : last ∉ order := fun hmem => hdisjoint last hmem last (mem_singleton_self _) rfl
    -- The last task is new, so settling it keeps the values of the others.
    have hkept : ∀ j a, rule.solve outcome order j = some a →
        rule.solve outcome (order ++ [last]) j = some a := by
      intro j a hj
      have hne : j ≠ last := by
        rintro rfl
        rw [solve_of_notMem hlast] at hj
        cases hj
      rw [solve_concat, settle, Function.update_of_ne hne]
      exact hj
    intro i hmem
    rcases mem_append.mp hmem with hmem | hmem
    · obtain ⟨ruling, hruling, hvalue⟩ := hbefore i hmem
      exact ⟨ruling, hmono hkept hruling, hkept i _ hvalue⟩
    obtain rfl := mem_singleton.mp hmem
    have hdecided := htotal order i [] rfl (rule.solve outcome order) fun j hj => by
      obtain ⟨_, -, hvalue⟩ := hbefore j hj
      rw [hvalue]
      rfl
    obtain ⟨ruling, hruling⟩ := Option.isSome_iff_exists.mp hdecided
    refine ⟨ruling, hmono hkept hruling, ?_⟩
    rw [solve_concat, settle, Function.update_self, hruling, Option.map_some]

end Solution

end Rule

/-! ## Runs -/

section Runs

variable {rule : Rule ι α} {outcome : ι → α} {tasks : List ι} {s s' : ι → Phase α}
  {f : ι → Option α}

/-- One task changes as the state says. -/
inductive Changes (rule : Rule ι α) (outcome : ι → α) (s : ι → Phase α) (i : ι) : Phase α → Prop
  | run (hidle : s i = .idle) (hrule : rule (fun j => (s j).value) i = some .run) :
      Changes rule outcome s i .running
  | settle {value : α} (hidle : s i = .idle)
      (hrule : rule (fun j => (s j).value) i = some (.settle value)) :
      Changes rule outcome s i (.done value)
  | complete (hrunning : s i = .running) : Changes rule outcome s i (.done (outcome i))

/-- Some tasks change, each as the state before says. -/
structure Step (rule : Rule ι α) (outcome : ι → α) (tasks : List ι) (s s' : ι → Phase α) :
    Prop where
  each : ∀ i, s' i = s i ∨ i ∈ tasks ∧ Changes rule outcome s i (s' i)
  changed : ∃ i ∈ tasks, Changes rule outcome s i (s' i)

/-- The tasks that have ended have the values of `f`, and those that run are to get them. -/
def Agrees (outcome : ι → α) (f : ι → Option α) (s : ι → Phase α) : Prop :=
  ∀ i, match s i with
    | .idle => True
    | .running => f i = some (outcome i)
    | .done value => f i = some value

theorem Agrees.value (h : Agrees outcome f s) {i : ι} {a : α} (hvalue : (s i).value = some a) :
    f i = some a := by
  have hi := h i
  cases hphase : s i with
  | idle | running =>
    rw [hphase] at hvalue
    cases hvalue
  | done value =>
    rw [hphase] at hvalue hi
    cases hvalue
    exact hi

theorem Step.agrees (hmono : rule.Monotone) (hsolves : rule.Solves outcome tasks f)
    (h : Step rule outcome tasks s s') (hI : Agrees outcome f s) : Agrees outcome f s' := by
  have hend : ∀ {i ruling}, i ∈ tasks → rule (fun j => (s j).value) i = some ruling →
      f i = some (ruling.result (outcome i)) := by
    intro i ruling hmem hrule
    obtain ⟨final, hfinal, hvalue⟩ := hsolves i hmem
    rw [hmono (fun j a => hI.value) hrule] at hfinal
    cases hfinal
    exact hvalue
  intro i
  rcases h.each i with hsame | ⟨hmem, hchanges⟩
  · rw [hsame]
    exact hI i
  have hi := hI i
  generalize s' i = phase at hchanges
  cases hchanges with
  | run _ hrule | settle _ hrule => exact hend hmem hrule
  | complete hrunning =>
    rw [hrunning] at hi
    exact hi

/-- The changes that the tasks have left. -/
def weight (tasks : List ι) (s : ι → Phase α) : Nat := (tasks.map fun i => (s i).weight).sum

theorem Changes.weight_lt {i : ι} {phase : Phase α} (h : Changes rule outcome s i phase) :
    phase.weight < (s i).weight := by
  cases h with
  | run hidle => rw [hidle]; exact Nat.one_lt_two
  | settle hidle => rw [hidle]; exact Nat.zero_lt_two
  | complete hrunning => rw [hrunning]; exact Nat.zero_lt_one

theorem Step.weight_lt (h : Step rule outcome tasks s s') : weight tasks s' < weight tasks s := by
  refine sum_lt_sum _ _ (fun i _ => ?_) ?_
  · rcases h.each i with hsame | ⟨-, hchanges⟩
    · rw [hsame]
    · exact hchanges.weight_lt.le
  · obtain ⟨i, hmem, hchanges⟩ := h.changed
    exact ⟨i, hmem, hchanges.weight_lt⟩

theorem weight_le (tasks : List ι) (s : ι → Phase α) : weight tasks s ≤ 2 * tasks.length := by
  unfold weight
  induction tasks with
  | nil => exact le_rfl
  | cons i rest ih =>
    have hfirst := (s i).weight_le
    rw [map_cons, sum_cons, length_cons]
    omega

end Runs

end AgentOS.Kit.Settling
