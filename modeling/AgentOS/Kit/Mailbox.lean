import AgentOS.Kit.Logged

/-!
# Mailboxes of a logged program

A program reads messages from a channel, decodes each into a request, and handles a
request unless one with its key was handled before.  A `Mailbox` names the actions of
this protocol and states the law of the channel: it is a queue, from which an action
takes at most the first message and to which it appends what arrives.

The program may be restarted over and over.  An action that `opens` the mailbox begins a
run with an empty channel, and what the old channel held is gone.

* `delivered` and `received` are the messages of a log, and `delivered_eq` says that the
  difference is in the channel, when no opening lost a message.
* `since` are the messages that arrived after the last drain, and `drained` those that
  were received in the present one.
* `marked` are the keys of the requests that were handled.  `marked_nodup` is the
  at-most-once rule: keys stay processed, and only a key that is not processed is marked.
-/

namespace AgentOS.Kit

open List

variable {σ A M R K : Type} {step : σ → A → σ}

/-- A channel of messages `M`, which are decoded into requests `R` with keys `K`. -/
structure Mailbox (step : σ → A → σ) (M R K : Type) where
  channel : σ → List M
  arrives : A → List M
  receives : A → Option R
  marks : A → Option R
  opens : A → Bool
  key : R → K
  processed : σ → List K
  step_channel : ∀ s a, opens a = false → channel (step s a) =
    (if (receives a).isSome then (channel s).tail else channel s) ++ arrives a
  opens_idle : ∀ a, opens a = true → receives a = none ∧ arrives a = []
  step_marks : ∀ s a r, marks a = some r → key r ∈ processed (step s a)

namespace Mailbox

variable (B : Mailbox step M R K) {s₀ s : σ} {a : A} {log earlier : List (σ × A)}

/-- The message that an action takes from the channel. -/
def taken (s : σ) (a : A) : List M := if (B.receives a).isSome then (B.channel s).head?.toList else []

/-- The messages that arrived, oldest first. -/
def delivered : List (σ × A) → List M
  | [] => []
  | (_, a) :: earlier => delivered earlier ++ B.arrives a

/-- The messages that were received, oldest first. -/
def received : List (σ × A) → List M
  | [] => []
  | (s, a) :: earlier => received earlier ++ B.taken s a

/-- An entry that opens the mailbox finds and leaves the channel empty. -/
def Lossless (e : σ × A) : Prop :=
  B.opens e.2 = true → B.channel e.1 = [] ∧ B.channel (step e.1 e.2) = []

theorem delivered_eq (h : Chained step s₀ s log) (hstart : B.channel s₀ = [])
    (hlossless : ∀ e ∈ log, B.Lossless e) : B.delivered log = B.received log ++ B.channel s := by
  induction log generalizing s with
  | nil => rw [h, hstart]; rfl
  | cons entry earlier ih =>
    obtain ⟨l, a⟩ := entry
    obtain ⟨rfl, hearlier⟩ := h
    have hbefore := ih hearlier fun e he => hlossless e (mem_cons_of_mem _ he)
    rw [delivered, received, hbefore, taken]
    cases hopens : B.opens a with
    | true =>
      obtain ⟨-, harrives⟩ := B.opens_idle a hopens
      obtain ⟨hold, hnew⟩ := hlossless (l, a) mem_cons_self hopens
      rw [harrives, hold, hnew]
      simp
    | false =>
      rw [B.step_channel l a hopens]
      cases B.receives a with
      | none => simp
      | some r =>
        cases B.channel l <;> simp

theorem received_handed (B : Mailbox step M M K)
    (h : ∀ e ∈ log, ∀ m, B.receives e.2 = some m → (B.channel e.1).head? = some m) :
    B.received log = log.reverse.filterMap fun e => B.receives e.2 := by
  induction log with
  | nil => rfl
  | cons entry earlier ih =>
    obtain ⟨l, a⟩ := entry
    rw [received, ih fun e he => h e (mem_cons_of_mem _ he)]
    cases hreceives : B.receives a with
    | none => simp [taken, hreceives]
    | some m => simp [taken, hreceives, h (l, a) mem_cons_self m hreceives]

/-- The number of messages that the openings of a log found in the channel. -/
def dropped : List (σ × A) → Nat
  | [] => 0
  | (s, a) :: earlier => dropped earlier + if B.opens a then (B.channel s).length else 0

theorem length_delivered (h : Chained step s₀ s log) (hstart : B.channel s₀ = [])
    (hopens : ∀ s a, B.opens a = true → B.channel (step s a) = []) :
    (B.delivered log).length = (B.received log).length + (B.channel s).length + B.dropped log := by
  induction log generalizing s with
  | nil =>
    rw [h, hstart]
    rfl
  | cons entry earlier ih =>
    obtain ⟨l, a⟩ := entry
    obtain ⟨rfl, hearlier⟩ := h
    have hbefore := ih hearlier
    rw [delivered, received, dropped, taken]
    cases hopen : B.opens a with
    | true =>
      obtain ⟨hreceives, harrives⟩ := B.opens_idle a hopen
      rw [hreceives, harrives, hopens l a hopen]
      simp
      omega
    | false =>
      rw [B.step_channel l a hopen]
      cases B.receives a with
      | none =>
        simp
        omega
      | some r =>
        cases hchannel : B.channel l with
        | nil | cons msg rest =>
          rw [hchannel] at hbefore
          simp at hbefore ⊢
          omega

theorem dropped_eq_zero : B.dropped log = 0 ↔
    ∀ e ∈ log, B.opens e.2 = true → B.channel e.1 = [] := by
  induction log with
  | nil => exact ⟨fun _ _ he => (not_mem_nil he).elim, fun _ => rfl⟩
  | cons entry earlier ih =>
    rw [dropped, forall_mem_cons, Nat.add_eq_zero_iff, ih, and_comm]
    refine and_congr_left fun _ => ?_
    by_cases hopen : B.opens entry.2 = true
    · rw [if_pos hopen, length_eq_zero_iff]
      exact ⟨fun h _ => h, fun h => h hopen⟩
    · rw [if_neg hopen]
      exact ⟨fun _ h => absurd h hopen, fun _ => rfl⟩

theorem delivered_eq_iff (h : Chained step s₀ s log) (hstart : B.channel s₀ = [])
    (hopens : ∀ s a, B.opens a = true → B.channel (step s a) = []) :
    B.delivered log = B.received log ++ B.channel s ↔
      ∀ e ∈ log, B.opens e.2 = true → B.channel e.1 = [] := by
  constructor
  · intro heq
    have hlength := B.length_delivered h hstart hopens
    rw [heq, length_append] at hlength
    exact B.dropped_eq_zero.mp (by omega)
  · intro hempty
    exact B.delivered_eq h hstart fun e he hopen => ⟨hempty e he hopen, hopens e.1 e.2 hopen⟩

/-! ## Drains -/

/-- The messages that arrived after the last action that `closes` a drain. -/
def since (closes : A → Bool) : List (σ × A) → List M
  | [] => []
  | (_, a) :: earlier => if closes a then [] else since closes earlier ++ B.arrives a

theorem since_step {closes : A → Bool} (h : B.channel s = B.since closes earlier)
    (hopens : B.opens a = false) (hreceives : B.receives a = none)
    (hcloses : closes a = true → B.channel s = [] ∧ B.arrives a = []) :
    B.channel (step s a) = B.since closes ((s, a) :: earlier) := by
  rw [B.step_channel s a hopens, hreceives, since]
  cases hclose : closes a with
  | true =>
    obtain ⟨hempty, hnone⟩ := hcloses hclose
    simp [hempty, hnone]
  | false => simp [h]

/-! ## At most once -/

/-- The keys of the requests that were handled, newest first. -/
def marked (log : List (σ × A)) : List K := log.filterMap fun e => (B.marks e.2).map B.key

theorem marked_nodup (h : Chained step s₀ s log)
    (hnew : Taken (fun w a => ∀ r, B.marks a = some r → B.key r ∉ B.processed w.st) log)
    (hkeeps : ∀ e ∈ log, ∀ k ∈ B.marked log, k ∈ B.processed e.1 → k ∈ B.processed (step e.1 e.2)) :
    (B.marked log).Nodup ∧ ∀ k ∈ B.marked log, k ∈ B.processed s := by
  induction log generalizing s with
  | nil => exact ⟨nodup_nil, nofun⟩
  | cons entry earlier ih =>
    obtain ⟨l, a⟩ := entry
    obtain ⟨rfl, hearlier⟩ := h
    have hsub : B.marked earlier ⊆ B.marked ((l, a) :: earlier) := by
      intro k hk
      rw [marked, filterMap_cons]
      split
      · exact hk
      · exact mem_cons_of_mem _ hk
    obtain ⟨hnodup, hprocessed⟩ := ih hearlier hnew.2 fun e he k hk =>
      hkeeps e (mem_cons_of_mem _ he) k (hsub hk)
    have hstill : ∀ k ∈ B.marked earlier, k ∈ B.processed (step l a) := fun k hk =>
      hkeeps (l, a) mem_cons_self k (hsub hk) (hprocessed k hk)
    cases hmarks : B.marks a with
    | none =>
      have hsame : B.marked ((l, a) :: earlier) = B.marked earlier := by
        simp [marked, hmarks]
      rw [hsame]
      exact ⟨hnodup, hstill⟩
    | some r =>
      have hcons : B.marked ((l, a) :: earlier) = B.key r :: B.marked earlier := by
        simp [marked, hmarks]
      rw [hcons]
      refine ⟨nodup_cons.mpr ⟨fun hmem => hnew.1 r hmarks (hprocessed _ hmem), hnodup⟩, ?_⟩
      intro k hk
      rcases mem_cons.mp hk with rfl | hk
      · exact B.step_marks l a r hmarks
      · exact hstill k hk

theorem processed_marked (h : Chained step s₀ s log) (hstart : B.processed s₀ = [])
    (hstep : ∀ e ∈ log, ∀ k ∈ B.processed (step e.1 e.2),
      k ∈ B.processed e.1 ∨ ∃ r, B.marks e.2 = some r ∧ B.key r = k) :
    ∀ k ∈ B.processed s, k ∈ B.marked log := by
  induction log generalizing s with
  | nil =>
    intro k hk
    rw [h, hstart] at hk
    cases hk
  | cons entry earlier ih =>
    obtain ⟨l, a⟩ := entry
    obtain ⟨rfl, hearlier⟩ := h
    intro k hk
    rw [marked, mem_filterMap]
    rcases hstep (l, a) mem_cons_self k hk with hold | ⟨r, hmarks, rfl⟩
    · have hmem := ih hearlier (fun e he => hstep e (mem_cons_of_mem _ he)) k hold
      obtain ⟨e, he, hkey⟩ := mem_filterMap.mp hmem
      exact ⟨e, mem_cons_of_mem _ he, hkey⟩
    · exact ⟨(l, a), mem_cons_self, by simp [hmarks]⟩

end Mailbox

end AgentOS.Kit
