import AgentOS.Core.Basic
import AgentOS.Kit.Calls
import Mathlib.Data.List.Induction

/-!
# Facts of the log into Temporal

`internal/repo/agentos/temporalrouter`.  `routeBatch` delivers the facts of a batch one after
the other and goes on after a delivery that fails.  The batch is then not acknowledged, and the
log hands it out again, as a whole and before any later record.
-/

namespace AgentOS.Eventlog

open List

structure Fact where
  domain : String := ""
  sequence : Nat
  (eventID key type : String)
  payload : String := ""
  deriving DecidableEq

structure Delivery where
  (workflowID workflowType signalName : String)
  fact : Fact

structure Route where
  domain : String := ""
  type : String
  (workflowType signalName : String := "")
  workflowID : Option (Fact → String) := none

def Route.matches (r : Route) (fact : Fact) : Bool :=
  (r.domain = "" || r.domain = fact.domain) && r.type = fact.type

def Route.delivery (r : Route) (fact : Fact) : Delivery where
  workflowID := (r.workflowID.map (· fact)).getD fact.key
  workflowType := r.workflowType
  signalName := r.signalName
  fact := fact

/-- A record of the log.  `fact` is what `decodeFact` makes of its envelope. -/
structure Record where
  fact : Except Err Fact

structure Result where
  records : Nat := 0
  delivered : Nat := 0
  skipped : Nat := 0
  failed : Nat := 0

/-- The log as its reader sees it, and the facts that Temporal has accepted, in that order.
`unacked` is a batch that was handed out and is not acknowledged. -/
structure Router where
  accepted : List Fact := []
  unacked : List Record := []
  rest : List Record

/-- What a call of `RouteBatch` meets.  `size` is the number of records of a new batch. -/
structure Round where
  poll : Option Err := none
  size : Nat
  signalWithStart : Delivery → Option Err := fun _ => none
  ack : Option Err := none

section Routes

variable (routes : List Route)

/-- The delivery that a record leads to, if it can be decoded and a route matches. -/
def Record.delivery (record : Record) : Option Delivery :=
  match record.fact with
  | .error _ => none
  | .ok fact => (routes.find? (·.matches fact)).map (·.delivery fact)

def deliveries (records : List Record) : List Delivery := records.filterMap (·.delivery routes)

structure Progress where
  result : Result
  failures : List Err := []
  accepted : List Fact

def routeRecord (r : Round) (b : Progress) (record : Record) : Progress :=
  match record.delivery routes with
  | none => { b with result.skipped := b.result.skipped + 1 }
  | some delivery =>
    match r.signalWithStart delivery with
    | some err =>
        { b with
          result.failed := b.result.failed + 1
          failures := b.failures ++ [.within ("temporal router - deliver " ++
            delivery.fact.eventID ++ " " ++ delivery.fact.type) err] }
    | none =>
        { b with
          result.delivered := b.result.delivered + 1
          accepted := b.accepted ++ [delivery.fact] }

namespace Router

/-- The batch of a round and the records behind it. -/
def poll (s : Router) (r : Round) : List Record × List Record :=
  if s.unacked.isEmpty then (s.rest.take r.size, s.rest.drop r.size) else (s.unacked, s.rest)

def routeBatch (s : Router) (r : Round) : Router × Except (List Err) Result :=
  match r.poll with
  | some err => (s, .error [.within "temporal router - poll" err])
  | none =>
    let (batch, rest) := s.poll r
    let b := batch.foldl (routeRecord routes r)
      { result := { records := batch.length }, accepted := s.accepted }
    if b.failures ≠ [] then (⟨b.accepted, batch, rest⟩, .error b.failures)
    else
      match r.ack with
      | some err => (⟨b.accepted, batch, rest⟩, .error [.within "temporal router - ack" err])
      | none => (⟨b.accepted, [], rest⟩, .ok b.result)

def step (s : Router) (r : Round) : Router := (s.routeBatch routes r).1

/-- After a delivery that fails, the later deliveries of its key in the batch fail as well,
except for facts that were accepted before. -/
def Steady (accepted : List Fact) (r : Round) (first second : Delivery) : Prop :=
  first.fact.key = second.fact.key → first.fact ∉ accepted → second.fact ∉ accepted →
    (r.signalWithStart first).isSome = true → (r.signalWithStart second).isSome = true

instance (accepted : List Fact) (r : Round) (first second : Delivery) :
    Decidable (Steady accepted r first second) :=
  inferInstanceAs (Decidable (_ → _ → _ → _ → _))

def steady (s : Router) (r : Round) : Bool :=
  r.poll.isSome || (deliveries routes (s.poll r).1).Pairwise (Steady s.accepted r)

end Router

end Routes

/-- The routed facts of a log. -/
def facts (routes : List Route) (log : List Record) : List Fact :=
  (deliveries routes log).map (·.fact)

/-- An accepted fact comes after every earlier fact of its key. -/
def InOrder (log accepted : List Fact) : Prop :=
  ∀ i g, accepted[i]? = some g → ∀ f ∈ log, f.key = g.key → f.sequence < g.sequence →
    f ∈ accepted.take i

variable {routes : List Route} {log accepted : List Fact} {r : Round}

theorem InOrder.snoc {g : Fact} (h : InOrder log accepted)
    (hg : ∀ f ∈ log, f.key = g.key → f.sequence < g.sequence → f ∈ accepted) :
    InOrder log (accepted ++ [g]) := by
  intro i g' hi f hf hkey hlt
  rcases Nat.lt_trichotomy i accepted.length with hlt' | rfl | hgt
  · rw [getElem?_append_left hlt'] at hi
    rw [take_append_of_le_length hlt'.le]
    exact h i g' hi f hf hkey hlt
  · simp only [getElem?_concat_length, Option.some.injEq] at hi
    subst hi
    rw [take_left']
    · exact hg f hf hkey hlt
    · rfl
  · rw [getElem?_eq_none (by simp; omega)] at hi
    cases hi

theorem InOrder.mem {f g : Fact} (h : InOrder log accepted) (hg : g ∈ accepted) (hf : f ∈ log)
    (hkey : f.key = g.key) (hlt : f.sequence < g.sequence) : f ∈ accepted := by
  obtain ⟨i, hi⟩ := mem_iff_getElem?.mp hg
  exact mem_of_mem_take (h i g hi f hf hkey hlt)

/-- What Temporal accepts of the deliveries of a round. -/
def Round.accepts (r : Round) (ds : List Delivery) : List Fact :=
  (ds.filter fun d => (r.signalWithStart d).isNone).map (·.fact)

theorem foldl_routeRecord (batch : List Record) (b : Progress) :
    (batch.foldl (routeRecord routes r) b).accepted =
        b.accepted ++ r.accepts (deliveries routes batch) ∧
      ((batch.foldl (routeRecord routes r) b).failures = [] ↔
        b.failures = [] ∧ ∀ d ∈ deliveries routes batch, r.signalWithStart d = none) := by
  induction batch generalizing b with
  | nil => simp [deliveries, Round.accepts]
  | cons record batch ih =>
    rw [foldl_cons, (ih _).1, (ih _).2]
    cases hd : record.delivery routes with
    | none => simp [routeRecord, deliveries, hd]
    | some d =>
      cases hs : r.signalWithStart d <;> simp [routeRecord, deliveries, Round.accepts, hd, hs]

theorem accepts_inOrder {ds : List Delivery} (h : InOrder log accepted)
    (hsorted : ds.Pairwise (·.fact.sequence < ·.fact.sequence))
    (hsteady : ds.Pairwise (Router.Steady accepted r))
    (hcover : ∀ d ∈ ds, ∀ f ∈ log, f.sequence < d.fact.sequence →
      f ∈ accepted ∨ ∃ d₀ ∈ ds, d₀.fact = f) : InOrder log (accepted ++ r.accepts ds) := by
  induction ds using reverseRecOn with
  | nil => simpa [Round.accepts] using h
  | append_singleton ds d ih =>
    obtain ⟨hsteady, -, hlast⟩ := pairwise_append.mp hsteady
    obtain ⟨hsorted, -, -⟩ := pairwise_append.mp hsorted
    -- an earlier fact of the batch is among the deliveries before
    have hearlier : ∀ d' ∈ ds ++ [d], ∀ f ∈ log, f.sequence < d'.fact.sequence →
        f ∈ accepted ∨ ∃ d₀ ∈ ds, d₀.fact = f := by
      intro d' hd' f hf hlt
      refine (hcover d' hd' f hf hlt).imp_right ?_
      rintro ⟨d₀, hd₀, rfl⟩
      grind
    have hbefore := ih hsorted hsteady fun d' hd' => hearlier d' (mem_append_left _ hd')
    cases hsignal : r.signalWithStart d with
    | some err => simpa [Round.accepts, hsignal] using hbefore
    | none =>
      have hsnoc : InOrder log (accepted ++ r.accepts ds ++ [d.fact]) := by
        refine hbefore.snoc fun f hf hkey hlt => mem_append.mpr ?_
        by_cases hdone : d.fact ∈ accepted
        · exact .inl (h.mem hdone hf hkey hlt)
        rcases hearlier d (by simp) f hf hlt with hmem | ⟨d₀, hd₀, rfl⟩
        · exact .inl hmem
        refine or_iff_not_imp_left.mpr fun hnew => ?_
        have hserved : r.signalWithStart d₀ = none := by
          by_contra hfails
          have := hlast d₀ hd₀ d (by simp) hkey hnew hdone (Option.isSome_iff_ne_none.mpr hfails)
          simp [hsignal] at this
        exact mem_map_of_mem (mem_filter.mpr ⟨hd₀, by simp [hserved]⟩)
      simpa [Round.accepts, hsignal] using hsnoc

namespace Router

/-- The facts before the batch that is out have all been accepted. -/
structure Ordered (routes : List Route) (log : List Record) (s : Router) : Prop where
  inOrder : InOrder (facts routes log) s.accepted
  split : ∃ done, log = done ++ (s.unacked ++ s.rest) ∧ facts routes done ⊆ s.accepted

theorem poll_append (s : Router) (r : Round) :
    (s.poll r).1 ++ (s.poll r).2 = s.unacked ++ s.rest := by
  unfold poll
  split_ifs with hempty
  · simp [isEmpty_iff.mp hempty]
  · rfl

theorem Ordered.step {log : List Record} {s : Router} (h : Ordered routes log s)
    (hlog : (facts routes log).Pairwise (·.sequence < ·.sequence))
    (hsteady : s.steady routes r = true) : Ordered routes log (s.step routes r) := by
  obtain ⟨done, hsplit, hdone⟩ := h.split
  rw [← poll_append s r] at hsplit
  unfold Router.step routeBatch steady at *
  cases hpoll : r.poll with
  | some err => exact h
  | none =>
  have hsteady : (deliveries routes (s.poll r).1).Pairwise (Steady s.accepted r) := by
    simpa [hpoll] using hsteady
  generalize s.poll r = polled at hsplit hsteady
  obtain ⟨batch, rest⟩ := polled
  have hfacts : facts routes log = facts routes done ++
      ((deliveries routes batch).map (·.fact) ++ facts routes rest) := by
    simp [hsplit, facts, deliveries]
  have hin : InOrder (facts routes log) (s.accepted ++ r.accepts (deliveries routes batch)) := by
    rw [hfacts, pairwise_append, pairwise_append, pairwise_map] at hlog
    refine accepts_inOrder h.inOrder hlog.2.1.1 hsteady fun d hd f hf hlt => ?_
    have := hlog.2.1.2.2 d.fact (mem_map_of_mem hd)
    grind
  dsimp only
  generalize hb : batch.foldl (routeRecord routes r) _ = b
  have haccepted : b.accepted = _ := hb ▸ (foldl_routeRecord batch _).1
  have hopen : Ordered routes log ⟨b.accepted, batch, rest⟩ :=
    ⟨haccepted ▸ hin, done, hsplit, fun f hf => haccepted ▸ mem_append_left _ (hdone hf)⟩
  split_ifs with hfailed
  · exact hopen
  cases r.ack with
  | some err => exact hopen
  | none =>
    refine ⟨haccepted ▸ hin, done ++ batch, by simpa using hsplit, fun f hf => ?_⟩
    rw [not_not, ← hb, (foldl_routeRecord batch _).2] at hfailed
    simp only [facts, deliveries, filterMap_append, map_append, mem_append] at hf
    rw [haccepted]
    refine mem_append.mpr (hf.imp (hdone ·) fun hf => ?_)
    obtain ⟨d, hd, rfl⟩ := mem_map.mp hf
    exact mem_map_of_mem (mem_filter.mpr ⟨hd, by simp [hfailed.2 d hd]⟩)

/-- If after a failed delivery the later ones of its key in the batch fail as well, except for
facts that were accepted before, then the facts of a key are first accepted in the order of the
log. -/
theorem routed_in_order {log : List Record} {rounds : List Round}
    (hlog : (facts routes log).Pairwise (·.sequence < ·.sequence))
    (hsteady : Kit.along (step routes) (steady routes) { rest := log } rounds = true) :
    InOrder (facts routes log) (rounds.foldl (step routes) { rest := log }).accepted :=
  (Kit.foldl_along (I := Ordered routes log) (fun _ _ h hok => h.step hlog hok) hsteady
    ⟨by simp [InOrder], [], rfl, nil_subset _⟩).inOrder

/-- Two facts of one order. -/
def orderLog : List Record :=
  [⟨.ok { sequence := 1, eventID := "a", key := "o", type := "t" }⟩,
    ⟨.ok { sequence := 2, eventID := "b", key := "o", type := "t" }⟩]

theorem routed_in_order_retried :
    let down : Round := { size := 2, signalWithStart := fun _ => some (.external "down") }
    InOrder (facts [{ type := "t" }] orderLog)
      ([down, { size := 2 }].foldl (step [{ type := "t" }]) { rest := orderLog }).accepted :=
  routed_in_order (by decide) (by decide)

/-- The first delivery fails and the second does not: the facts are accepted the other way
round. -/
theorem overtaken :
    let flaky : Round := { size := 2, signalWithStart := fun d =>
      if d.fact.sequence = 1 then some (.external "down") else none }
    ([flaky, { size := 2 }].foldl (step [{ type := "t" }]) { rest := orderLog }).accepted.map
      (·.sequence) = [2, 1, 2] := by
  decide +kernel

end Router

end AgentOS.Eventlog
