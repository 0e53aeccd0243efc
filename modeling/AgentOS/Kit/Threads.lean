import Mathlib.Logic.Function.Basic

/-!
# Threads over a shared store

Threads `ι` share a store `S`, and each has a local state `L`: what it is about to do and
what it remembers.  `act i s l s' l'` is a step of thread `i`, the granularity at which the
threads interleave.  `Runs` are the interleavings.

An `Outline` is a proof of a concurrent program: an invariant of the store and an assertion
of each local state, which the steps of the thread keep and the steps of every other thread
do not disturb.  `Outline.runs` concludes for all interleavings.

A `Race` is the pattern in which many threads try to write what only one of them may: a
thread waits, and the step that writes is the last of the waiting of one thread only.

A thread whose next step is computed, from what its environment answers, is a function
`next`, and `play` runs the threads in a given order.
-/

namespace AgentOS.Kit

open Function

variable {ι S L : Type} [DecidableEq ι] {act : ι → S → L → S → L → Prop}

/-- Any number of steps of any threads. -/
inductive Runs (act : ι → S → L → S → L → Prop) (s₀ : S) (ls₀ : ι → L) : S → (ι → L) → Prop where
  | start : Runs act s₀ ls₀ s₀ ls₀
  | step {s s' : S} {ls : ι → L} {l' : L} {i : ι} (runs : Runs act s₀ ls₀ s ls)
      (h : act i s (ls i) s' l') : Runs act s₀ ls₀ s' (update ls i l')

/-- What every step keeps, its own thread's assertion and those of the others. -/
structure Outline (act : ι → S → L → S → L → Prop) (inv : S → Prop)
    (holds : ι → S → L → Prop) : Prop where
  own : ∀ {i s l s' l'}, inv s → holds i s l → act i s l s' l' → inv s' ∧ holds i s' l'
  other : ∀ {i j s l m s' l'}, i ≠ j → inv s → holds i s l → holds j s m → act i s l s' l' →
    holds j s' m

variable {s₀ s : S} {ls₀ ls : ι → L} {inv : S → Prop} {holds : ι → S → L → Prop}

theorem Outline.runs (h : Outline act inv holds) (hruns : Runs act s₀ ls₀ s ls) (hinv : inv s₀)
    (hholds : ∀ i, holds i s₀ (ls₀ i)) : inv s ∧ ∀ i, holds i s (ls i) := by
  induction hruns with
  | start => exact ⟨hinv, hholds⟩
  | @step s s' ls l' i _ hact ih =>
    obtain ⟨hs, hls⟩ := ih
    obtain ⟨hs', hl'⟩ := h.own hs (hls i) hact
    refine ⟨hs', fun j => ?_⟩
    by_cases hj : j = i
    · subst hj
      rw [update_self]
      exact hl'
    · rw [update_of_ne hj]
      exact h.other (Ne.symm hj) hs (hls i) (hls j) hact

section

variable (hruns : Runs act s₀ ls₀ s ls) (hstep : ∀ i s l s' l', inv s → act i s l s' l' → inv s')
  (hinv : inv s₀)
include hruns hstep hinv

theorem Runs.invariant : inv s := by
  induction hruns with
  | start => exact hinv
  | step _ hact ih => exact hstep _ _ _ _ _ ih hact

end

section When

variable {ok : S → (ι → L) → S → Prop}

/-- The interleavings whose steps pass a test of all the threads. -/
inductive RunsWhen (act : ι → S → L → S → L → Prop) (ok : S → (ι → L) → S → Prop) (s₀ : S)
    (ls₀ : ι → L) : S → (ι → L) → Prop where
  | start : RunsWhen act ok s₀ ls₀ s₀ ls₀
  | step {s s' : S} {ls : ι → L} {l' : L} {i : ι} (runs : RunsWhen act ok s₀ ls₀ s ls)
      (h : act i s (ls i) s' l') (hok : ok s ls s') :
      RunsWhen act ok s₀ ls₀ s' (update ls i l')

theorem RunsWhen.invariant {inv : S → (ι → L) → Prop} (hruns : RunsWhen act ok s₀ ls₀ s ls)
    (hstep : ∀ {i s ls s' l'}, inv s ls → act i s (ls i) s' l' → ok s ls s' →
      inv s' (update ls i l')) (hinv : inv s₀ ls₀) : inv s ls := by
  induction hruns with
  | start => exact hinv
  | step _ hact hok ih => exact hstep ih hact hok

end When

section Race

variable {R : Type}

/-- Threads that race to write what `stored` reads.  A thread is waiting until it has written
or has seen what another one wrote. -/
structure Race (act : ι → S → L → S → L → Prop) (stored : S → Option R) (waiting : L → Prop)
    (won lost : R → L → Prop) : Prop where
  unwritten : ∀ {i s l s' l'}, stored s = none → waiting l → act i s l s' l' →
    (stored s' = none ∧ waiting l') ∨ ∃ r, stored s' = some r ∧ won r l'
  written : ∀ {i s l s' l' r}, stored s = some r → waiting l → act i s l s' l' →
    stored s' = some r ∧ (waiting l' ∨ lost r l')
  winner : ∀ {i s l s' l' r}, stored s = some r → won r l → act i s l s' l' →
    stored s' = some r ∧ won r l'
  loser : ∀ {i s l s' l' r}, stored s = some r → lost r l → act i s l s' l' →
    stored s' = some r ∧ lost r l'

variable {stored : S → Option R} {waiting : L → Prop} {won lost : R → L → Prop}

theorem Race.runs (h : Race act stored waiting won lost) (hruns : Runs act s₀ ls₀ s ls)
    (hnone : stored s₀ = none) (hwaiting : ∀ i, waiting (ls₀ i)) :
    (stored s = none ∧ ∀ i, waiting (ls i)) ∨
      ∃ r c, stored s = some r ∧ won r (ls c) ∧ ∀ i, i ≠ c → waiting (ls i) ∨ lost r (ls i) := by
  induction hruns with
  | start => exact .inl ⟨hnone, hwaiting⟩
  | @step s s' ls l' i _ hact ih =>
    rcases ih with ⟨hunwritten, hall⟩ | ⟨r, c, hwritten, hwon, hothers⟩
    · rcases h.unwritten hunwritten (hall i) hact with ⟨hs', hl'⟩ | ⟨r, hs', hl'⟩
      · refine .inl ⟨hs', fun j => ?_⟩
        by_cases hj : j = i
        · rwa [hj, update_self]
        · rw [update_of_ne hj]
          exact hall j
      · refine .inr ⟨r, i, hs', by rwa [update_self], fun j hj => .inl ?_⟩
        rw [update_of_ne hj]
        exact hall j
    · right
      by_cases hic : i = c
      · subst hic
        obtain ⟨hs', hl'⟩ := h.winner hwritten hwon hact
        refine ⟨r, i, hs', by rwa [update_self], fun j hj => ?_⟩
        rw [update_of_ne hj]
        exact hothers j hj
      · obtain ⟨hs', hl'⟩ : stored s' = some r ∧ (waiting l' ∨ lost r l') := by
          rcases hothers i hic with hwait | hlost
          · exact h.written hwritten hwait hact
          · obtain ⟨hs', hl'⟩ := h.loser hwritten hlost hact
            exact ⟨hs', .inr hl'⟩
        refine ⟨r, c, hs', by rwa [update_of_ne (Ne.symm hic)], fun j hj => ?_⟩
        by_cases hji : j = i
        · rwa [hji, update_self]
        · rw [update_of_ne hji]
          exact hothers j hj

end Race

section Leads

variable {A : Type}

/-- A thread on its own reaches a goal, whatever its environment answers. -/
inductive Leads (next : A → S → L → Option (S × L)) (goal : S → L → Prop) : S → L → Prop where
  | here {s : S} {l : L} (h : goal s l) : Leads next goal s l
  | step {s : S} {l : L} (hgoes : ∀ a, (next a s l).isSome = true)
      (h : ∀ a s' l', next a s l = some (s', l') → Leads next goal s' l') : Leads next goal s l

variable {next : A → S → L → Option (S × L)} {mid goal : S → L → Prop} {l : L}

theorem Leads.of_next (h : ∀ a, ∃ s' l', next a s l = some (s', l') ∧ Leads next goal s' l') :
    Leads next goal s l := by
  refine .step (fun a => ?_) (fun a s' l' hnext => ?_)
  · obtain ⟨s', l', hnext, -⟩ := h a
    rw [hnext]
    rfl
  · obtain ⟨s'', l'', hnext', hleads⟩ := h a
    rw [hnext] at hnext'
    cases hnext'
    exact hleads

theorem Leads.trans (h : Leads next mid s l) (hmid : ∀ s l, mid s l → Leads next goal s l) :
    Leads next goal s l := by
  induction h with
  | here h => exact hmid _ _ h
  | step hgoes _ ih => exact .step hgoes ih

end Leads

section Play

variable {A : Type} (next : A → ι → S → L → Option (S × L))

/-- The steps of threads whose next step is computed.  `none` is a thread that has to wait or
is done. -/
def Moves (i : ι) (s : S) (l : L) (s' : S) (l' : L) : Prop := ∃ a, next a i s l = some (s', l')

/-- The threads in a given order.  A thread that has to wait loses its turn. -/
def play : List (A × ι) → S × (ι → L) → S × (ι → L)
  | [], c => c
  | (a, i) :: turns, (s, ls) =>
      match next a i s (ls i) with
      | none => play turns (s, ls)
      | some (s', l') => play turns (s', update ls i l')

theorem Runs.play (turns : List (A × ι)) (h : Runs (Moves next) s₀ ls₀ s ls) :
    Runs (Moves next) s₀ ls₀ (play next turns (s, ls)).1 (play next turns (s, ls)).2 := by
  induction turns generalizing s ls with
  | nil => exact h
  | cons turn turns ih =>
    obtain ⟨a, i⟩ := turn
    simp only [Kit.play]
    cases hnext : next a i s (ls i) with
    | none => exact ih h
    | some c => exact ih (h.step ⟨a, hnext⟩)

/-- The steps of a play pass a test. -/
def passes (test : S → (ι → L) → S → Bool) : List (A × ι) → S × (ι → L) → Bool
  | [], _ => true
  | (a, i) :: turns, (s, ls) =>
      match next a i s (ls i) with
      | none => passes test turns (s, ls)
      | some (s', l') => test s ls s' && passes test turns (s', update ls i l')

variable {next} in
theorem RunsWhen.play {ok : S → (ι → L) → S → Prop} (test : S → (ι → L) → S → Bool)
    (hok : ∀ s ls s', test s ls s' = true → ok s ls s') {turns : List (A × ι)}
    (h : RunsWhen (Moves next) ok s₀ ls₀ s ls) (hpasses : passes next test turns (s, ls) = true) :
    RunsWhen (Moves next) ok s₀ ls₀ (play next turns (s, ls)).1 (play next turns (s, ls)).2 := by
  induction turns generalizing s ls with
  | nil => exact h
  | cons turn turns ih =>
    obtain ⟨a, i⟩ := turn
    simp only [Kit.play]
    simp only [passes] at hpasses
    cases hnext : next a i s (ls i) with
    | none =>
      rw [hnext] at hpasses
      exact ih h hpasses
    | some c =>
      rw [hnext] at hpasses
      obtain ⟨htest, hrest⟩ := Bool.and_eq_true_iff.mp hpasses
      exact ih (h.step ⟨a, hnext⟩ (hok _ _ _ htest)) hrest

/-- The steps whose answer and whose new local state pass a test. -/
def guarded (ok : A → L → Bool) (a : A) (i : ι) (s : S) (l : L) : Option (S × L) :=
  (next a i s l).filter fun c => ok a c.2

variable {next} in
omit [DecidableEq ι] in
theorem of_guarded {ok : A → L → Bool} {a : A} {i : ι} {s' : S} {l l' : L}
    (h : guarded next ok a i s l = some (s', l')) : next a i s l = some (s', l') ∧ ok a l' = true :=
  Option.filter_eq_some_iff.mp h

end Play

end AgentOS.Kit
