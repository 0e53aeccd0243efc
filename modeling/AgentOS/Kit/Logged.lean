import Mathlib.Logic.Relation

/-!
# Programs that act through a log

A program here changes its state only by taking an *action*, and every action
it takes is written to a log together with the state it was taken in.  So the
log says everything a run did, and a property of a run is a property of its log.

* `Logged` is a state with its log, newest entry first.
* `Prog` is a program that reads the state and the log, takes actions, and ends
  with a value or an error.  A program that fails keeps the state it reached.

`Yields m w Q X` says where a run ends with its value or with its error, and carries the rules
for the parts of a program.  Three readings of it are `Returns m w Q`, that the run ends with a
value and where, `Ends m w Q`, where it ends if it ends with a value, and `Keeps I m`, that it
keeps an invariant however it ends.

A program is verified against a *table*: a relation `move` between
configurations, each a control point with a logged state.  The table is an
automaton that says what the program can do next at each point.

* `Follows move m c Q X` says that the run of `m` from `c` is a path of the
  table, and that it ends in `Q` with its value or in `X` with its error.
* `path_inv` is the invariant rule: what every move keeps, every path keeps.

The rules for `Follows` take a program apart along its syntax, so that a program
is compared with its table once.  Every invariant is then proved on the table.
`path_inv` may assume a property `C` of the final log, such as `LogMeets` of its
entries or `Taken` of its actions.  The log only grows, so such an assumption holds
at every point of the path.
-/

namespace AgentOS.Kit

open List Relation

variable {σ A ε α β : Type}

/-! ## Programs -/

/-- A state with the actions that led to it, newest first.  Each action is kept
with the state it was taken in. -/
structure Logged (σ A : Type) where
  st : σ
  log : List (σ × A)

/-- Take the action `a`. -/
def Logged.act (step : σ → A → σ) (w : Logged σ A) (a : A) : Logged σ A :=
  ⟨step w.st a, (w.st, a) :: w.log⟩

@[simp] theorem Logged.act_st (step : σ → A → σ) (w : Logged σ A) (a : A) :
    (w.act step a).st = step w.st a := rfl

@[simp] theorem Logged.act_log (step : σ → A → σ) (w : Logged σ A) (a : A) :
    (w.act step a).log = (w.st, a) :: w.log := rfl

/-- A program over a logged state: it reads the state and the log, takes
actions, and ends with a value or an error. -/
structure Prog (step : σ → A → σ) (ε α : Type) where
  run : Logged σ A → Except ε α × Logged σ A

namespace Prog

variable {step : σ → A → σ}

/-- End with the error `e` and take no action. -/
def fail (e : ε) : Prog step ε α := ⟨fun w => (.error e, w)⟩

/-- Continue the run `r` with `f`, when it ended with a value. -/
def andThen (r : Except ε α × Logged σ A) (f : α → Prog step ε β) : Except ε β × Logged σ A :=
  match r with
  | (.ok a, v) => (f a).run v
  | (.error e, v) => (.error e, v)

instance : Monad (Prog step ε) where
  pure a := ⟨fun w => (.ok a, w)⟩
  bind m f := ⟨fun w => andThen (m.run w) f⟩

/-- Read the state and the log. -/
def query (f : Logged σ A → α) : Prog step ε α := ⟨fun w => (.ok (f w), w)⟩

/-- Read the state. -/
def state : Prog step ε σ := query Logged.st

theorem run_bind_of_ok {m : Prog step ε α} {f : α → Prog step ε β} {w v : Logged σ A} {a : α}
    (h : m.run w = (.ok a, v)) : (m >>= f).run w = (f a).run v := by
  change andThen (m.run w) f = _
  rw [h]
  rfl

theorem run_state_bind (f : σ → Prog step ε α) (w : Logged σ A) :
    (state >>= f).run w = (f w.st).run w := rfl

/-- Take the action `a`. -/
def emit (a : A) : Prog step ε Unit := ⟨fun w => (.ok (), w.act step a)⟩

/-- Run `m` and give its outcome as a value, whichever it is. -/
def attempt (m : Prog step ε α) : Prog step ε (Except ε α) :=
  ⟨fun w => (.ok (m.run w).1, (m.run w).2)⟩

end Prog

/-! ## How a run ends -/

variable {q : Logged σ A → α} {a : A} {I : Logged σ A → Prop} {step : σ → A → σ}
  {m : Prog step ε α} {f : α → Prog step ε β} {w v : Logged σ A}

/-- The run of `m` from `w` ends in `Q` with its value or in `X` with its error. -/
def Yields (m : Prog step ε α) (w : Logged σ A) (Q : α → Logged σ A → Prop)
    (X : ε → Logged σ A → Prop) : Prop :=
  match m.run w with
  | (.ok a, v) => Q a v
  | (.error e, v) => X e v

/-- The run of `m` from `w` ends with a value, in `Q`. -/
def Returns (m : Prog step ε α) (w : Logged σ A) (Q : α → Logged σ A → Prop) : Prop :=
  Yields m w Q fun _ _ => False

/-- If the run of `m` from `w` ends with a value, it ends in `Q`. -/
def Ends (m : Prog step ε α) (w : Logged σ A) (Q : α → Logged σ A → Prop) : Prop :=
  Yields m w Q fun _ _ => True

/-- However it ends from `w`, the program ends in `I`. -/
def Retains (I : Logged σ A → Prop) (w : Logged σ A) (m : Prog step ε α) : Prop :=
  Yields m w (fun _ => I) (fun _ => I)

/-- Every run of `m` from `I` ends in `I`, with a value or an error. -/
def Keeps (I : Logged σ A → Prop) (m : Prog step ε α) : Prop := ∀ w, I w → Retains I w m

section Yields

variable {Q Q' : α → Logged σ A → Prop} {R : β → Logged σ A → Prop} {X X' : ε → Logged σ A → Prop}

namespace Yields

theorem ret {a : α} (h : Q a w) : Yields (pure a : Prog step ε α) w Q X := h

theorem fail {e : ε} (h : X e w) : Yields (Prog.fail e : Prog step ε α) w Q X := h

theorem emit {Q : Unit → Logged σ A → Prop} (h : Q () (w.act step a)) :
    Yields (Prog.emit a : Prog step ε Unit) w Q X := h

theorem post (h : Yields m w Q X) (hQ : ∀ a v, Q a v → Q' a v) (hX : ∀ e v, X e v → X' e v) :
    Yields m w Q' X' := by
  unfold Yields at h ⊢
  generalize m.run w = r at h ⊢
  obtain ⟨res, v⟩ := r
  cases res with
  | ok a => exact hQ a v h
  | error e => exact hX e v h

theorem bind (hm : Yields m w Q X) (hf : ∀ a v, Q a v → Yields (f a) v R X) :
    Yields (m >>= f) w R X := by
  unfold Yields at hm
  change match Prog.andThen (m.run w) f with
    | (.ok a, v) => R a v
    | (.error e, v) => X e v
  generalize m.run w = r at hm ⊢
  obtain ⟨res, v⟩ := r
  cases res with
  | ok a => exact hf a v hm
  | error e => exact hm

theorem read {f : σ → Prog step ε β} (h : Yields (f w.st) w R X) :
    Yields (Prog.state >>= f) w R X := h

theorem asking (h : Yields (f (q w)) w R X) : Yields (Prog.query q >>= f) w R X := h

theorem acting {f : Unit → Prog step ε β} (h : Yields (f ()) (w.act step a) R X) :
    Yields (Prog.emit a >>= f) w R X := h

theorem and (h : Yields m w Q X) (h' : Yields m w Q' X') :
    Yields m w (fun a v => Q a v ∧ Q' a v) (fun e v => X e v ∧ X' e v) := by
  unfold Yields at h h' ⊢
  generalize m.run w = r at h h' ⊢
  obtain ⟨res, v⟩ := r
  cases res with
  | ok | error => exact ⟨h, h'⟩

theorem world (h : Yields m w Q X) (hQ : ∀ a v, Q a v → I v)
    (hX : ∀ e v, X e v → I v) : I (m.run w).2 := by
  unfold Yields at h
  generalize m.run w = r at h
  obtain ⟨res, v⟩ := r
  cases res with
  | ok a => exact hQ a v h
  | error e => exact hX e v h

theorem attempt {Q : Except ε α → Logged σ A → Prop}
    (h : Yields m w (fun a => Q (.ok a)) (fun e => Q (.error e))) :
    Yields (Prog.attempt m) w Q X := by
  unfold Yields at h
  change Q (m.run w).1 (m.run w).2
  generalize m.run w = r at h ⊢
  obtain ⟨res, v⟩ := r
  cases res with
  | ok | error => exact h

theorem any : Yields m w (fun _ _ => True) (fun _ _ => True) := by
  unfold Yields
  split <;> trivial

theorem afterAny (hf : ∀ a v, Yields (f a) v R fun _ _ => True) :
    Yields (m >>= f) w R fun _ _ => True :=
  bind any fun a v _ => hf a v

theorem of_run {a : α} (h : Yields m w Q X) (hrun : m.run w = (.ok a, v)) : Q a v := by
  unfold Yields at h
  rw [hrun] at h
  exact h

end Yields

theorem Returns.run (h : Returns m w Q) : ∃ a v, m.run w = (.ok a, v) ∧ Q a v := by
  unfold Returns Yields at h
  generalize m.run w = r at h ⊢
  obtain ⟨res, v⟩ := r
  cases res with
  | ok a => exact ⟨a, v, rfl, h⟩
  | error e => exact h.elim

theorem Returns.post (h : Returns m w Q) (hQ : ∀ a v, Q a v → Q' a v) : Returns m w Q' :=
  Yields.post h hQ fun _ _ hfalse => hfalse

namespace Keeps

theorem ret (a : α) : Keeps I (pure a : Prog step ε α) := fun _ h => h

theorem fail (e : ε) : Keeps I (Prog.fail e : Prog step ε α) := fun _ h => h

theorem query (q : Logged σ A → α) : Keeps I (Prog.query q : Prog step ε α) := fun _ h => h

theorem emit (h : ∀ w, I w → I (w.act step a)) : Keeps I (Prog.emit a : Prog step ε Unit) := h

theorem bind (hm : Keeps I m) (hf : ∀ a, Keeps I (f a)) : Keeps I (m >>= f) :=
  fun w hw => Yields.bind (hm w hw) hf

theorem attempt (hm : Keeps I m) : Keeps I (Prog.attempt m) := fun w hw => Yields.attempt (hm w hw)

end Keeps

end Yields

/-! ## Tables -/

variable {P : Type}

/-- The run of `m` from `c` is a path of the table `move`, and ends in `Q` with its
value or in `X` with its error. -/
def Follows (move : P × Logged σ A → P × Logged σ A → Prop) (m : Prog step ε α)
    (c : P × Logged σ A) (Q : α → P × Logged σ A → Prop) (X : ε → P × Logged σ A → Prop) : Prop :=
  Yields m c.2 (fun a v => ∃ p, ReflTransGen move c (p, v) ∧ Q a (p, v))
    (fun e v => ∃ p, ReflTransGen move c (p, v) ∧ X e (p, v))

namespace Follows

variable {move : P × Logged σ A → P × Logged σ A → Prop} {c : P × Logged σ A}
  {Q Q' : α → P × Logged σ A → Prop} {R : β → P × Logged σ A → Prop}
  {X X' : ε → P × Logged σ A → Prop}

theorem ret {a : α} (h : Q a c) : Follows move (pure a : Prog step ε α) c Q X := ⟨c.1, .refl, h⟩

theorem fail {e : ε} (h : X e c) : Follows move (Prog.fail e : Prog step ε α) c Q X :=
  ⟨c.1, .refl, h⟩

theorem emit {p : P} {Q : Unit → P × Logged σ A → Prop}
    (hmove : move c (p, c.2.act step a)) (h : Q () (p, c.2.act step a)) :
    Follows move (Prog.emit a : Prog step ε Unit) c Q X :=
  ⟨p, .single hmove, h⟩

theorem post (h : Follows move m c Q X) (hQ : ∀ a d, Q a d → Q' a d)
    (hX : ∀ e d, X e d → X' e d) : Follows move m c Q' X' :=
  Yields.post h (fun _ _ ⟨p, hpath, hend⟩ => ⟨p, hpath, hQ _ _ hend⟩)
    fun _ _ ⟨p, hpath, hend⟩ => ⟨p, hpath, hX _ _ hend⟩

theorem after {c' : P × Logged σ A} (hpath : ReflTransGen move c' c) (h : Follows move m c Q X) :
    Yields m c.2 (fun a v => ∃ p, ReflTransGen move c' (p, v) ∧ Q a (p, v))
      (fun e v => ∃ p, ReflTransGen move c' (p, v) ∧ X e (p, v)) :=
  Yields.post h (fun _ _ ⟨p, hrest, hend⟩ => ⟨p, hpath.trans hrest, hend⟩)
    fun _ _ ⟨p, hrest, hend⟩ => ⟨p, hpath.trans hrest, hend⟩

theorem skip {p : P} (hmove : move c (p, c.2)) (h : Follows move m (p, c.2) Q X) :
    Follows move m c Q X :=
  after (c := (p, c.2)) (.single hmove) h

theorem extend (h : Follows move m c Q X)
    (hQ : ∀ a q w, Q a (q, w) → ∃ p, move (q, w) (p, w) ∧ Q' a (p, w))
    (hX : ∀ e q w, X e (q, w) → ∃ p, move (q, w) (p, w) ∧ X' e (p, w)) :
    Follows move m c Q' X' := by
  refine Yields.post h ?_ ?_
  · rintro a v ⟨q, hpath, hend⟩
    obtain ⟨p, hlast, hend'⟩ := hQ a q v hend
    exact ⟨p, hpath.tail hlast, hend'⟩
  · rintro e v ⟨q, hpath, hend⟩
    obtain ⟨p, hlast, hend'⟩ := hX e q v hend
    exact ⟨p, hpath.tail hlast, hend'⟩

theorem bind (hm : Follows move m c Q X)
    (hf : ∀ a d, Q a d → Follows move (f a) d R X) : Follows move (m >>= f) c R X :=
  Yields.bind hm fun a v ⟨p, hpath, hend⟩ => (hf a (p, v) hend).after hpath

theorem attempt {Q : Except ε α → P × Logged σ A → Prop}
    (hm : Follows move m c (fun a => Q (.ok a)) (fun e => Q (.error e))) :
    Follows move (Prog.attempt m) c Q X :=
  Yields.attempt hm

theorem next {p : α → P} (hm : Follows move m c (fun a d => d.1 = p a) X)
    (hf : ∀ a w, Follows move (f a) (p a, w) R X) : Follows move (m >>= f) c R X := by
  refine bind hm fun a d hd => ?_
  obtain ⟨q, w⟩ := d
  obtain rfl : q = p a := hd
  exact hf a w

theorem nextAttempt {f : Except ε α → Prog step ε β} {p : α → P} {q : ε → P}
    (hm : Follows move m c (fun a d => d.1 = p a) (fun e d => d.1 = q e))
    (hok : ∀ a w, Follows move (f (.ok a)) (p a, w) R X)
    (herror : ∀ e w, Follows move (f (.error e)) (q e, w) R X) :
    Follows move (Prog.attempt m >>= f) c R X := by
  refine next (p := fun r => match r with | .ok a => p a | .error e => q e)
    (attempt hm) fun r w => ?_
  cases r with
  | ok a => exact hok a w
  | error e => exact herror e w

theorem read {f : σ → Prog step ε β} (h : Follows move (f c.2.st) c R X) :
    Follows move (Prog.state >>= f) c R X := h

end Follows

/-! ## Invariants of a table -/

/-- Every entry of the log meets `C`. -/
def LogMeets (C : σ × A → Prop) (w : Logged σ A) : Prop := ∀ e ∈ w.log, C e

instance (C : σ × A → Prop) [DecidablePred C] (w : Logged σ A) : Decidable (LogMeets C w) :=
  inferInstanceAs (Decidable (∀ e ∈ w.log, C e))

/-- Every action of the log meets `C`, in the world that it was taken in. -/
def Taken (C : Logged σ A → A → Prop) : List (σ × A) → Prop
  | [] => True
  | (l, a) :: earlier => C ⟨l, earlier⟩ a ∧ Taken C earlier

instance Taken.decidable (C : Logged σ A → A → Prop) [∀ w a, Decidable (C w a)] :
    ∀ log, Decidable (Taken C log)
  | [] => isTrue trivial
  | (l, a) :: earlier =>
      have := Taken.decidable C earlier
      inferInstanceAs (Decidable (C ⟨l, earlier⟩ a ∧ Taken C earlier))

variable {C : Logged σ A → A → Prop}

theorem Taken.mono {log log' : List (σ × A)} (h : Taken C log)
    (hsuffix : log' <:+ log) : Taken C log' := by
  induction log with
  | nil => exact eq_nil_of_suffix_nil hsuffix ▸ h
  | cons entry earlier ih =>
    rcases suffix_cons_iff.mp hsuffix with rfl | hsuffix
    · exact h
    · exact ih h.2 hsuffix

variable {log : List (σ × A)} {D : Logged σ A → A → Prop}

theorem Taken.of_suffix (h : Taken C log)
    {w : Logged σ A} (hsuffix : (w.st, a) :: w.log <:+ log) : C w a :=
  (h.mono hsuffix).1

theorem Taken.imp (h : Taken C log) (himp : ∀ w a, C w a → D w a) : Taken D log := by
  induction log with
  | nil => trivial
  | cons entry earlier ih => exact ⟨himp _ _ h.1, ih h.2⟩

theorem Taken.and (h : Taken C log) (h' : Taken D log) : Taken (fun w a => C w a ∧ D w a) log := by
  induction log with
  | nil => trivial
  | cons entry earlier ih => exact ⟨⟨h.1, h'.1⟩, ih h.2 h'.2⟩

theorem Taken.of_mem (h : Taken C log)
    {e : σ × A} (he : e ∈ log) : ∃ earlier, e :: earlier <:+ log ∧ C ⟨e.1, earlier⟩ e.2 := by
  obtain ⟨later, earlier, rfl⟩ := append_of_mem he
  exact ⟨earlier, suffix_append _ _, (h.mono (suffix_append _ _)).1⟩

/-- The actions of the log lead from `s₀` to the state `s`. -/
def Chained (step : σ → A → σ) (s₀ : σ) : σ → List (σ × A) → Prop
  | s, [] => s = s₀
  | s, (l, a) :: earlier => s = step l a ∧ Chained step s₀ l earlier

theorem Chained.of_suffix {s₀ s : σ} (h : Chained step s₀ s log) {l : σ}
    {earlier : List (σ × A)} (hsuffix : (l, a) :: earlier <:+ log) : Chained step s₀ l earlier := by
  induction log generalizing s with
  | nil => cases eq_nil_of_suffix_nil hsuffix
  | cons entry rest ih =>
    rcases suffix_cons_iff.mp hsuffix with heq | hsuffix
    · cases heq
      exact h.2
    · exact ih h.2 hsuffix

theorem Taken.run {s₀ s : σ} {G P : Logged σ A → A → Prop} (hguarded : Taken G log)
    (hchained : Chained step s₀ s log) (hstart : I ⟨s₀, []⟩)
    (hstep : ∀ w a, Chained step s₀ w.st w.log → I w → G w a → I (w.act step a) ∧ P w a) :
    I ⟨s, log⟩ ∧ Taken P log := by
  induction log generalizing s with
  | nil =>
    cases hchained
    exact ⟨hstart, trivial⟩
  | cons entry earlier ih =>
    obtain ⟨rfl, hchained⟩ := hchained
    obtain ⟨hI, hP⟩ := ih hguarded.2 hchained
    obtain ⟨hI', hP'⟩ := hstep ⟨entry.1, earlier⟩ entry.2 hchained hI hguarded.1
    exact ⟨hI', hP', hP⟩

theorem path_inv {move : P × Logged σ A → P × Logged σ A → Prop} {C : List (σ × A) → Prop}
    {I : P × Logged σ A → Prop} {c d : P × Logged σ A}
    (hback : ∀ c d, move c d → C d.2.log → C c.2.log) (hstart : I c)
    (hmove : ∀ d d', ReflTransGen move c d → move d d' → C d'.2.log → I d → I d')
    (hpath : ReflTransGen move c d) (hC : C d.2.log) : I d := by
  induction hpath with
  | refl => exact hstart
  | @tail d' d hpath hlast ih => exact hmove d' d hpath hlast hC (ih (hback d' d hlast hC))

end AgentOS.Kit
