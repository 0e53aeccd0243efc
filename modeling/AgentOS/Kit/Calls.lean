import AgentOS.Kit.Threads
import Mathlib.Data.List.Nodup

/-!
# Calls that read and then write

A `Handler` is a service over a shared store whose calls read the store, decide, and write.
`call` is a call that is alone, and `run` is a history of such calls.

When calls run at once, the read and the write of a call are two steps of its thread, so that
the writes of other calls can fall between them.  `steps` are these threads; a test of the
write says which interleavings are meant.  With the test `fresh` a call writes only over what
it has read.  Then the calls are `serial`: the store and the answers are those of the history
of the calls in the order in which they ended.
-/

namespace AgentOS.Kit

open List

section Along

variable {S A : Type} {step : S → A → S} {ok : S → A → Bool}

variable (step ok) in
/-- Every input of a run passes a test of the state that it finds. -/
def along (s : S) : List A → Bool
  | [] => true
  | a :: rest => ok s a && along (step s a) rest

theorem foldl_along {I : S → Prop} {s : S} {inputs : List A}
    (hstep : ∀ s a, I s → ok s a = true → I (step s a))
    (halong : along step ok s inputs = true) (hI : I s) : I (inputs.foldl step s) := by
  induction inputs generalizing s with
  | nil => exact hI
  | cons a inputs ih =>
    obtain ⟨hok, hrest⟩ := Bool.and_eq_true_iff.mp halong
    exact ih hrest (hstep s a hI hok)

theorem foldl_append_along {s : S} {first second : List A} :
    along step ok s (first ++ second) = true ↔
      along step ok s first = true ∧ along step ok (first.foldl step s) second = true := by
  induction first generalizing s with
  | nil => simp [along]
  | cons a first ih => simp [along, ih, and_assoc]

end Along

/-- Calls `C` on a store `S`.  `read` answers a call that ends without a write, or says what
the call has read when it goes on.  `E` is what the environment adds to a write, such as the
time. -/
structure Handler (E C S R A : Type) where
  read : C → S → Except A R
  write : E → C → R → S → S × A

/-- Where the thread of a call stands. -/
inductive Phase (R A : Type) where
  | idle
  | held (r : R)
  | done (a : A)

namespace Handler

variable {E C S R A ι : Type} (h : Handler E C S R A)

/-! ## One call at a time -/

/-- A call that is alone. -/
def call (e : E) (c : C) (s : S) : S × A :=
  match h.read c s with
  | .error a => (s, a)
  | .ok r => h.write e c r s

/-- The store after a history of calls. -/
def run (s : S) : List (E × C) → S
  | [] => s
  | (e, c) :: rest => run (h.call e c s).1 rest

/-- Every call of a history passes a test of the store that it finds. -/
def along (ok : C → S → Bool) (s : S) : List (E × C) → Bool
  | [] => true
  | (e, c) :: rest => ok c s && along ok (h.call e c s).1 rest

variable {h} {e : E} {c : C} {s : S} {ok : C → S → Bool}

theorem call_of_error {a : A} (hread : h.read c s = .error a) : h.call e c s = (s, a) := by
  simp [call, hread]

theorem call_of_ok {r : R} (hread : h.read c s = .ok r) : h.call e c s = h.write e c r s := by
  simp [call, hread]

theorem run_append (s : S) (first second : List (E × C)) :
    h.run s (first ++ second) = h.run (h.run s first) second := by
  induction first generalizing s with
  | nil => rfl
  | cons turn first ih => exact ih _

theorem along_append {first second : List (E × C)} :
    h.along ok s (first ++ second) = true ↔
      h.along ok s first = true ∧ h.along ok (h.run s first) second = true := by
  induction first generalizing s with
  | nil => simp [along, run]
  | cons turn first ih => simp [along, run, ih, and_assoc]

theorem run_inv (inv : S → Prop) (hcall : ∀ {e c s}, inv s → ok c s = true → inv (h.call e c s).1)
    {history : List (E × C)} (halong : h.along ok s history = true) (hinv : inv s) :
    inv (h.run s history) := by
  induction history generalizing s with
  | nil => exact hinv
  | cons turn history ih =>
    obtain ⟨hok, hrest⟩ := Bool.and_eq_true_iff.mp halong
    exact ih hrest (hcall hinv hok)

/-! ## Calls at once -/

variable (h) in
/-- The next step of a call.  A write that fails the test is not taken. -/
def steps (ok : C → S → R → Bool) (calls : ι → C) (e : E) (i : ι) (s : S) :
    Phase R A → Option (S × Phase R A)
  | .idle =>
      match h.read (calls i) s with
      | .error a => some (s, .done a)
      | .ok r => some (s, .held r)
  | .held r =>
      if ok (calls i) s r = true then
        some ((h.write e (calls i) r s).1, .done (h.write e (calls i) r s).2)
      else none
  | .done _ => none

/-- Every write is taken. -/
def anyWrite (_ : C) (_ : S) (_ : R) : Bool := true

variable (h) in
/-- A write is taken when the call would read again what it has read. -/
def fresh [DecidableEq R] (c : C) (s : S) (r : R) : Bool :=
  match h.read c s with
  | .error _ => false
  | .ok r' => r' = r

theorem read_of_fresh [DecidableEq R] {r : R} (hfresh : h.fresh c s r = true) :
    h.read c s = .ok r := by
  unfold fresh at hfresh
  split at hfresh
  · cases hfresh
  · rename_i r' hread
    rw [hread, of_decide_eq_true hfresh]

variable {ok : C → S → R → Bool} {calls : ι → C} {i : ι} {s' : S} {l l' : Phase R A}

theorem steps_cases (hstep : h.steps ok calls e i s l = some (s', l')) :
    (l = .idle ∧ s' = s ∧ ∃ a, h.read (calls i) s = .error a ∧ l' = .done a) ∨
      (l = .idle ∧ s' = s ∧ ∃ r, h.read (calls i) s = .ok r ∧ l' = .held r) ∨
      ∃ r, l = .held r ∧ ok (calls i) s r = true ∧ s' = (h.write e (calls i) r s).1 ∧
        l' = .done (h.write e (calls i) r s).2 := by
  cases l with
  | idle =>
    simp only [steps] at hstep
    split at hstep <;> rename_i hread <;> cases hstep
    · exact .inl ⟨rfl, rfl, _, hread, rfl⟩
    · exact .inr (.inl ⟨rfl, rfl, _, hread, rfl⟩)
  | held r =>
    simp only [steps] at hstep
    split at hstep
    · rename_i hok
      cases hstep
      exact .inr (.inr ⟨r, rfl, hok, rfl, rfl⟩)
    · cases hstep
  | done a => cases hstep

section Runs

variable [DecidableEq ι] {s₀ : S} {ls₀ ls : ι → Phase R A}

theorem steps_inv (inv : S → Prop) (good : C → R → Prop)
    (hread : ∀ {c s r}, h.read c s = .ok r → good c r)
    (hwrite : ∀ {e c r s}, inv s → good c r → ok c s r = true → inv (h.write e c r s).1)
    (hruns : Runs (Moves (h.steps ok calls)) s₀ ls₀ s ls) (hinv : inv s₀)
    (hgood : ∀ i r, ls₀ i = .held r → good (calls i) r) :
    inv s ∧ ∀ i r, ls i = .held r → good (calls i) r := by
  have outline : Outline (Moves (h.steps ok calls)) inv
      fun i _ l => ∀ r, l = .held r → good (calls i) r := by
    constructor
    case own =>
      intro i s l s' l' hs hl hstep
      obtain ⟨e, hstep⟩ := hstep
      obtain ⟨-, rfl, a, -, rfl⟩ | ⟨-, rfl, r, hread', rfl⟩ | ⟨r, rfl, hok, rfl, rfl⟩ :=
        steps_cases hstep
      · exact ⟨hs, by simp⟩
      · refine ⟨hs, fun r' heq => ?_⟩
        cases heq
        exact hread hread'
      · exact ⟨hwrite hs (hl r rfl) hok, by simp⟩
    case other => exact fun _ _ _ hm _ => hm
  exact outline.runs hruns hinv hgood

variable (h) in
/-- The store and the answers are those of a history of the calls that have ended. -/
structure SerialAs (calls : ι → C) (s₀ : S) (order : List (E × ι)) (s : S)
    (ls : ι → Phase R A) : Prop where
  once : (order.map Prod.snd).Nodup
  ended : ∀ i, i ∈ order.map Prod.snd ↔ ∃ a, ls i = .done a
  store : h.run s₀ (order.map fun turn => (turn.1, calls turn.2)) = s
  answers : ∀ i a, ls i = .done a → ∃ e before, before ++ [(e, i)] <+: order ∧
    (h.call e (calls i) (h.run s₀ (before.map fun turn => (turn.1, calls turn.2)))).2 = a

variable {order : List (E × ι)}

theorem SerialAs.ends {a : A} (hserial : h.SerialAs calls s₀ order s ls)
    (hopen : ∀ a', ls i ≠ .done a') (hcall : h.call e (calls i) s = (s', a)) :
    h.SerialAs calls s₀ (order ++ [(e, i)]) s' (Function.update ls i (.done a)) := by
  have hnot : i ∉ order.map Prod.snd := fun hmem => by
    obtain ⟨a', ha'⟩ := (hserial.ended i).mp hmem
    exact hopen a' ha'
  constructor
  case once =>
    rw [map_append, nodup_append]
    refine ⟨hserial.once, nodup_singleton _, fun j hj k hk heq => ?_⟩
    have hji : j = i := heq.trans (mem_singleton.mp hk)
    exact hnot (hji ▸ hj)
  case ended =>
    intro j
    by_cases hj : j = i
    · subst hj
      simp
    · simp [hserial.ended j, hj]
  case store =>
    rw [map_append, run_append, hserial.store]
    simp [run, hcall]
  case answers =>
    intro j a' hdone
    by_cases hj : j = i
    · subst hj
      rw [Function.update_self] at hdone
      cases hdone
      exact ⟨e, order, prefix_rfl, by rw [hserial.store, hcall]⟩
    · rw [Function.update_of_ne hj] at hdone
      obtain ⟨e', before, hbefore, hanswer⟩ := hserial.answers j a' hdone
      exact ⟨e', before, hbefore.trans (prefix_append _ _), hanswer⟩

theorem SerialAs.reads {r : R} (hserial : h.SerialAs calls s₀ order s ls) (hidle : ls i = .idle) :
    h.SerialAs calls s₀ order s (Function.update ls i (.held r)) := by
  have hsame : ∀ j a, Function.update ls i (.held r) j = .done a ↔ ls j = .done a := by
    intro j a
    by_cases hj : j = i
    · subst hj
      simp [hidle]
    · rw [Function.update_of_ne hj]
  exact ⟨hserial.once, fun j => by simp only [hsame]; exact hserial.ended j, hserial.store,
    fun j a hdone => hserial.answers j a ((hsame j a).mp hdone)⟩

theorem serial [DecidableEq R]
    (hruns : Runs (Moves (h.steps h.fresh calls)) s₀ (fun _ => .idle) s ls) :
    ∃ order, h.SerialAs calls s₀ order s ls := by
  induction hruns with
  | start => exact ⟨[], nodup_nil, by simp, rfl, by simp⟩
  | @step s s' ls l' i _ hstep ih =>
    obtain ⟨order, hserial⟩ := ih
    obtain ⟨e, hstep⟩ := hstep
    obtain ⟨hidle, rfl, a, hread, rfl⟩ | ⟨hidle, rfl, r, hread, rfl⟩ |
      ⟨r, hheld, hfresh, rfl, rfl⟩ := steps_cases hstep
    · exact ⟨_, hserial.ends (e := e) (by simp [hidle]) (call_of_error hread)⟩
    · exact ⟨order, hserial.reads hidle⟩
    · refine ⟨_, hserial.ends (e := e) (by simp [hheld]) ?_⟩
      rw [call_of_ok (read_of_fresh hfresh)]

end Runs

end Handler

end AgentOS.Kit
