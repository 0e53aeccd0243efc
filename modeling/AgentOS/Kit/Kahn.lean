import AgentOS.Kit.SortedMap
import Mathlib.Data.Set.Finite.Basic
import Mathlib.Order.WellFounded

/-!
# Kahn's topological sort

The sort of a finite directed graph by repeated removal of a node that has no
incoming edge left.  The nodes that are ready wait in a queue that is kept in
key order, so the result does not depend on the order of the edges.

`kahn` has a counter for its main loop.  Every node enters the queue at most
once, so as many rounds as there are nodes are enough; `KahnInv` is the
invariant that gives this and the order of the result.
-/

namespace AgentOS.Kit

open List SortedMap Nat

variable {κ : Type} [LinearOrder κ]

/-- The targets of the edges that leave `a`, in key order. -/
def childrenOf (edges : List (κ × κ)) (a : κ) : List κ :=
  ((edges.filter fun e => e.1 = a).map Prod.snd).insertionSort (· ≤ ·)

/-- The number of edges into each node. -/
def incomingCounts (ids : List κ) (edges : List (κ × κ)) : SortedMap κ Int :=
  edges.foldl (fun m e => m.insert e.2 ((m.get? e.2).getD 0 + 1))
    (ids.foldl (fun m id => m.insert id 0) empty)

/-- Count down the incoming edges of each child, and queue a child at zero. -/
def visitChildren : SortedMap κ Int → List κ → List κ → SortedMap κ Int × List κ
  | incoming, queue, [] => (incoming, queue)
  | incoming, queue, child :: rest =>
      let left := (incoming.get? child).getD 0 - 1
      if left = 0 then
        visitChildren (incoming.insert child left) ((queue ++ [child]).insertionSort (· ≤ ·)) rest
      else visitChildren (incoming.insert child left) queue rest

/-- The main loop, for at most `fuel` rounds. -/
def kahnLoop (edges : List (κ × κ)) :
    Nat → SortedMap κ Int → List κ → List κ → List κ
  | 0, _, _, order => order
  | _ + 1, _, [], order => order
  | fuel + 1, incoming, current :: queue, order =>
      let next := visitChildren incoming queue (childrenOf edges current)
      kahnLoop edges fuel next.1 next.2 (order ++ [current])

/-- The nodes that have no incoming edge, in key order. -/
def sources (incoming : SortedMap κ Int) : List κ :=
  (incoming.entries.filter fun e => e.2 = 0).map Prod.fst

/-- The order in which the sort removes the nodes.  It is shorter than `ids`
when the graph has a cycle. -/
def kahn (ids : List κ) (edges : List (κ × κ)) : List κ :=
  let incoming := incomingCounts ids edges
  kahnLoop edges ids.length incoming (sources incoming) []

/-! ## The counts -/

/-- The count of a node, with `0` for a node that has none. -/
def countAt (m : SortedMap κ Int) (k : κ) : Int := (m.get? k).getD 0

theorem countAt_insert (m : SortedMap κ Int) (k j : κ) (n : Int) :
    countAt (m.insert k n) j = if j = k then n else countAt m j := by
  unfold countAt
  rw [get?_insert]
  split_ifs <;> rfl

theorem count_childrenOf (edges : List (κ × κ)) (a k : κ) :
    (childrenOf edges a).count k = edges.countP fun e => e.1 = a ∧ e.2 = k := by
  rw [childrenOf, (perm_insertionSort (· ≤ ·) _).count_eq, List.count, countP_map,
    countP_filter]
  refine countP_congr fun e _ => ?_
  simp [and_comm]

theorem countAt_incomingCounts (ids : List κ) (edges : List (κ × κ)) (k : κ) :
    countAt (incomingCounts ids edges) k = edges.countP fun e => e.2 = k := by
  have hids : countAt (ids.foldl (fun m id => m.insert id 0) empty) k = 0 := by
    have hget := get?_foldl_insert id ids empty k fun _ => (0 : Int)
    simp only [id] at hget
    rw [countAt, hget]
    cases ids.reverse.find? fun id => id = k <;> rfl
  have hedges : ∀ (l : List (κ × κ)) (m : SortedMap κ Int),
      countAt (l.foldl (fun m e => m.insert e.2 ((m.get? e.2).getD 0 + 1)) m) k =
        countAt m k + l.countP fun e => e.2 = k := by
    intro l
    induction l with
    | nil => intro m; simp
    | cons e rest ih =>
      intro m
      rw [foldl_cons, ih, countAt_insert]
      by_cases h : k = e.2
      · subst h
        simp [countAt]
        omega
      · simp [h, Ne.symm h]
  rw [incomingCounts, hedges, hids, Int.zero_add]

/-! ## The invariant of the loop -/

section Loop

variable {ids done children queue order : List κ} {edges : List (κ × κ)}
  {incoming : SortedMap κ Int} {current : κ}

/-- The queue lists the nodes that are not done and have no edge left into them, in key order.
An edge is left until its source is done and its target is visited. -/
structure Queued (ids : List κ) (edges : List (κ × κ)) (done children : List κ)
    (incoming : SortedMap κ Int) (queue : List κ) : Prop where
  counts : ∀ k, countAt incoming k =
    children.count k + edges.countP fun e => e.2 = k ∧ e.1 ∉ done
  mem : ∀ k, k ∈ queue ↔ k ∈ ids ∧ k ∉ done ∧ countAt incoming k = 0
  sorted : queue.SortedLT

theorem Queued.visit (hopen : ∀ k ∈ children, k ∈ ids ∧ k ∉ done)
    (h : Queued ids edges done children incoming queue) :
    Queued ids edges done [] (visitChildren incoming queue children).1
      (visitChildren incoming queue children).2 := by
  induction children generalizing incoming queue with
  | nil => exact h
  | cons child rest ih =>
    have hcount := h.counts child
    rw [count_cons_self] at hcount
    have hwaits : child ∉ queue := by
      intro hqueue
      have := ((h.mem child).mp hqueue).2.2
      omega
    have hcounts : ∀ k, countAt (incoming.insert child (countAt incoming child - 1)) k =
        rest.count k + edges.countP fun e => e.2 = k ∧ e.1 ∉ done := by
      intro k
      rw [countAt_insert]
      split_ifs with hk
      · subst hk
        omega
      · rw [h.counts, count_cons_of_ne (Ne.symm hk)]
    have hrest := forall_mem_of_forall_mem_cons hopen
    simp only [visitChildren]
    rw [show (incoming.get? child).getD 0 = countAt incoming child from rfl]
    split_ifs with hzero
    · refine ih hrest ⟨hcounts, fun k => ?_, ?_⟩
      · rw [mem_insertionSort, mem_append, mem_singleton, h.mem, countAt_insert]
        split_ifs with hk
        · subst hk
          simp [hopen k mem_cons_self, hzero]
        · simp [hk]
      · refine sortedLE_insertionSort.sortedLT_of_nodup ?_
        rw [(perm_insertionSort (· ≤ ·) _).nodup_iff, nodup_append]
        refine ⟨h.sorted.nodup, nodup_singleton child, fun a ha b hb hab => ?_⟩
        rw [mem_singleton.mp hb] at hab
        exact hwaits (hab ▸ ha)
    · refine ih hrest ⟨hcounts, fun k => ?_, h.sorted⟩
      rw [h.mem, countAt_insert]
      split_ifs with hk
      · subst hk
        simp only [hzero, and_false, iff_false]
        omega
      · rfl

/-- The invariant of the main loop: the nodes in the order come after the sources of their edges,
and each is the least that could come at its place. -/
structure KahnInv (ids : List κ) (edges : List (κ × κ)) (incoming : SortedMap κ Int)
    (queue order : List κ) : Prop where
  queued : Queued ids edges order [] incoming queue
  subset : ∀ k ∈ order, k ∈ ids
  nodup : order.Nodup
  ordered : ∀ l b r, order = l ++ b :: r → ∀ e ∈ edges, e.2 = b → e.1 ∈ l
  least : ∀ l b r, order = l ++ b :: r → ∀ c ∈ ids, c ∉ l →
    (∀ e ∈ edges, e.2 = c → e.1 ∈ l) → b ≤ c

theorem Queued.zero_iff (h : Queued ids edges done [] incoming queue) (k : κ) :
    countAt incoming k = 0 ↔ ∀ e ∈ edges, e.2 = k → e.1 ∈ done := by
  rw [h.counts, count_nil]
  simp [countP_eq_zero]

private theorem countP_removed (edges : List (κ × κ)) (hnot : current ∉ order) (k : κ) :
    (edges.countP fun e => e.2 = k ∧ e.1 ∉ order) =
      (edges.countP fun e => e.1 = current ∧ e.2 = k) +
        edges.countP fun e => e.2 = k ∧ e.1 ∉ order ++ [current] := by
  induction edges with
  | nil => rfl
  | cons e rest ih =>
    by_cases hk : e.2 = k <;> by_cases hc : e.1 = current <;>
      by_cases ho : e.1 ∈ order <;> simp_all <;> omega

theorem KahnInv.step (hends : ∀ e ∈ edges, e.2 ∈ ids)
    (h : KahnInv ids edges incoming (current :: queue) order) :
    KahnInv ids edges (visitChildren incoming queue (childrenOf edges current)).1
      (visitChildren incoming queue (childrenOf edges current)).2
      (order ++ [current]) := by
  obtain ⟨hids, hnot, hzero⟩ := (h.queued.mem current).mp mem_cons_self
  rw [h.queued.zero_iff] at hzero
  obtain ⟨hfirst, hsorted⟩ := pairwise_cons.mp h.queued.sorted.pairwise
  have hmem : ∀ k, k ∈ order ++ [current] ↔ k ∈ order ∨ k = current := by simp
  refine ⟨Queued.visit (fun k hk => ?_) ⟨fun k => ?_, fun k => ?_, hsorted.sortedLT⟩, ?_, ?_, ?_, ?_⟩
  · -- A child has an edge from `current`, so it is neither in the order nor `current`.
    rw [childrenOf, mem_insertionSort] at hk
    obtain ⟨e, hchild, rfl⟩ := mem_map.mp hk
    obtain ⟨he, hsource⟩ := mem_filter.mp hchild
    obtain rfl : e.1 = current := by simpa using hsource
    refine ⟨hends e he, fun hremoved => ?_⟩
    rcases (hmem _).mp hremoved with hdone | hself
    · obtain ⟨l, r, hsplit⟩ := append_of_mem hdone
      exact hnot (hsplit ▸ mem_append_left _ (h.ordered l _ r hsplit e he rfl))
    · exact hnot (hzero e he hself)
  · rw [h.queued.counts, count_nil, countP_removed edges hnot, count_childrenOf]
    omega
  · have hqueue := h.queued.mem k
    rw [mem_cons] at hqueue
    rw [hmem, not_or]
    constructor
    · intro hk
      obtain ⟨hids, hopen, hcount⟩ := hqueue.mp (.inr hk)
      exact ⟨hids, ⟨hopen, (hfirst k hk).ne'⟩, hcount⟩
    · rintro ⟨hids, ⟨hopen, hne⟩, hcount⟩
      exact (hqueue.mpr ⟨hids, hopen, hcount⟩).resolve_left hne
  · intro k hk
    rcases (hmem k).mp hk with hk | rfl
    · exact h.subset k hk
    · exact hids
  · refine nodup_append.mpr ⟨h.nodup, nodup_singleton _, fun a ha b hb hab => ?_⟩
    exact hnot (mem_singleton.mp hb ▸ hab ▸ ha)
  · intro l b r hsplit
    rcases eq_nil_or_concat r with rfl | ⟨r', z, rfl⟩
    · obtain ⟨rfl, hb⟩ := append_inj' hsplit rfl
      cases hb
      exact hzero
    · rw [concat_eq_append, ← cons_append, ← append_assoc] at hsplit
      exact h.ordered l b r' (append_inj' hsplit rfl).1
  · intro l b r hsplit
    rcases eq_nil_or_concat r with rfl | ⟨r', z, rfl⟩
    · obtain ⟨rfl, hb⟩ := append_inj' hsplit rfl
      cases hb
      intro c hc hopen hsources
      have hqueue := (h.queued.mem c).mpr ⟨hc, hopen, (h.queued.zero_iff c).mpr hsources⟩
      rcases mem_cons.mp hqueue with rfl | hqueue
      · exact le_rfl
      · exact (hfirst c hqueue).le
    · rw [concat_eq_append, ← cons_append, ← append_assoc] at hsplit
      exact h.least l b r' (append_inj' hsplit rfl).1

theorem kahnLoop_inv (hends : ∀ e ∈ edges, e.2 ∈ ids) :
    ∀ (fuel : Nat) (incoming : SortedMap κ Int) (queue order : List κ),
      KahnInv ids edges incoming queue order → ids.length ≤ fuel + order.length →
      ∃ last, KahnInv ids edges last [] (kahnLoop edges fuel incoming queue order) := by
  intro fuel
  induction fuel with
  | zero =>
    intro incoming queue order h hfuel
    cases queue with
    | nil => exact ⟨incoming, h⟩
    | cons current queue =>
      -- The order would have room for one more node.
      have hlen := (subperm_of_subset (h.step hends).nodup (h.step hends).subset).length_le
      rw [length_append, length_singleton] at hlen
      omega
  | succ fuel ih =>
    intro incoming queue order h hfuel
    cases queue with
    | nil => exact ⟨incoming, h⟩
    | cons current queue =>
      refine ih _ _ _ (h.step hends) ?_
      rw [length_append, length_singleton]
      omega

end Loop

/-! ## The sort -/

section Result

variable {ids : List κ} {edges : List (κ × κ)}

theorem mem_sources {incoming : SortedMap κ Int} {k : κ} :
    k ∈ sources incoming ↔ k ∈ incoming.keys ∧ countAt incoming k = 0 := by
  have hentry := mem_entries_iff incoming k
  simp only [sources, mem_map, mem_filter, Prod.exists, mem_keys_iff, countAt]
  cases hget : incoming.get? k <;> simp_all

theorem sources_sorted (incoming : SortedMap κ Int) : (sources incoming).SortedLT :=
  (pairwise_map.mpr (incoming.sorted.sublist filter_sublist)).sortedLT

section

variable (hends : ∀ e ∈ edges, e.2 ∈ ids)
include hends

private theorem mem_keys_incomingCounts (k : κ) :
    k ∈ (incomingCounts ids edges).keys ↔ k ∈ ids := by
  have hids := mem_keys_foldl_insert id ids empty k fun _ _ => (0 : Int)
  constructor
  · intro hk
    rcases (mem_keys_foldl_insert Prod.snd edges _ k _).mp hk with hk | hk
    · obtain ⟨e, he, rfl⟩ := mem_map.mp hk
      exact hends e he
    · simpa [SortedMap.keys, empty] using hids.mp hk
  · intro hk
    exact (mem_keys_foldl_insert Prod.snd edges _ k _).mpr (.inr (hids.mpr (.inl (by simpa))))

theorem kahn_inv : ∃ last, KahnInv ids edges last [] (kahn ids edges) := by
  refine kahnLoop_inv hends ids.length _ _ [] ⟨⟨fun k => ?_, fun k => ?_, sources_sorted _⟩, nofun,
    nodup_nil, fun l b r h => ?_, fun l b r h => ?_⟩ (by simp)
  · rw [countAt_incomingCounts]
    simp
  · rw [mem_sources, mem_keys_incomingCounts hends]
    simp
  · simp at h
  · simp at h

theorem kahn_ordered {l r : List κ} {b : κ}
    (h : kahn ids edges = l ++ b :: r) : ∀ e ∈ edges, e.2 = b → e.1 ∈ l := by
  obtain ⟨_, hinv⟩ := kahn_inv hends
  exact hinv.ordered l b r h

theorem kahn_perm (hlen : (kahn ids edges).length = ids.length) : (kahn ids edges).Perm ids := by
  obtain ⟨_, hinv⟩ := kahn_inv hends
  exact (subperm_of_subset hinv.nodup hinv.subset).perm_of_length_le hlen.ge

/-- No order of the same nodes in which every edge goes forward is less. -/
theorem kahn_least {other : List κ} (hperm : other.Perm (kahn ids edges))
    (hother : ∀ l b r, other = l ++ b :: r → ∀ e ∈ edges, e.2 = b → e.1 ∈ l) :
    ¬ other < kahn ids edges := by
  obtain ⟨_, hinv⟩ := kahn_inv hends
  have hnodup := hperm.nodup_iff.mpr hinv.nodup
  suffices hleast : ∀ rest l rest', kahn ids edges = l ++ rest → other = l ++ rest' →
      ¬ rest' < rest from hleast _ [] _ rfl rfl
  intro rest
  induction rest with
  | nil => exact fun _ _ _ _ => not_lt_nil _
  | cons b rest ih =>
    intro l rest' hkahn hsplit
    rw [hkahn, hsplit, perm_append_left_iff] at hperm
    cases rest' with
    | nil => cases hperm.length_eq
    | cons c rest' =>
      have hc : c ∈ kahn ids edges := hkahn ▸ mem_append_right l (hperm.subset mem_cons_self)
      have hnew : c ∉ l := fun hl => disjoint_of_nodup_append (hsplit ▸ hnodup) hl mem_cons_self
      have hle := hinv.least l b rest hkahn c (hinv.subset c hc) hnew (hother l c rest' hsplit)
      rw [cons_lt_cons_iff]
      rintro (hless | ⟨rfl, hless⟩)
      · exact absurd hless (not_lt.mpr hle)
      · exact ih (l ++ [c]) rest' (by simp [hkahn]) (by simp [hsplit]) hless

/-- The sort of a graph without cycles removes every node. -/
theorem mem_kahn (hstarts : ∀ e ∈ edges, e.1 ∈ ids)
    (hacyclic : ∀ k, ¬ Relation.TransGen (fun a b => (a, b) ∈ edges) k k) {k : κ} (hk : k ∈ ids) :
    k ∈ kahn ids edges := by
  obtain ⟨last, hinv⟩ := kahn_inv hends
  by_contra hmissing
  let path (a b : {k // k ∈ ids}) : Prop := Relation.TransGen (fun a b => (a, b) ∈ edges) a.1 b.1
  have : IsTrans _ path := ⟨fun _ _ _ => .trans⟩
  have : Std.Irrefl path := ⟨fun a => hacyclic a⟩
  have : Finite {k // k ∈ ids} := ids.finite_toSet
  obtain ⟨⟨a, ha⟩, hout, hmin⟩ := (Finite.wellFounded_of_trans_of_irrefl path).has_min
    {a | a.1 ∉ kahn ids edges} ⟨⟨k, hk⟩, hmissing⟩
  -- An edge into a node that is missing comes from another one.
  have hcount : countAt last a ≠ 0 := fun hzero =>
    absurd ((hinv.queued.mem a).mpr ⟨ha, hout, hzero⟩) not_mem_nil
  rw [Ne, hinv.queued.zero_iff] at hcount
  simp only [not_forall] at hcount
  obtain ⟨e, he, rfl, hsource⟩ := hcount
  exact hmin ⟨e.1, hstarts e he⟩ hsource (.single he)

end

omit [LinearOrder κ] in
/-- A relation that only leads forward in an order has no cycles. -/
theorem acyclic_of_forward {r : κ → κ → Prop} (order : List κ) (hends : ∀ a b, r a b → b ∈ order)
    (hforward : ∀ l b rest, order = l ++ b :: rest → ∀ a, r a b → a ∈ l) (a : κ) :
    ¬ Relation.TransGen r a a := by
  have hnone : ∀ n l b rest, l.length = n → order = l ++ b :: rest → ¬ Relation.TransGen r b b := by
    intro n
    induction n using Nat.strong_induction_on with
    | _ n ih =>
      intro l b rest hlen horder hcycle
      obtain ⟨c, hpath, hlast⟩ := Relation.TransGen.tail'_iff.mp hcycle
      obtain ⟨before, after, rfl⟩ := append_of_mem (hforward l b rest horder c hlast)
      refine ih before.length ?_ before c (after ++ b :: rest) rfl ?_ (.head' hlast hpath)
      · rw [length_append, length_cons] at hlen
        omega
      · rw [horder, append_assoc, cons_append]
  intro hcycle
  obtain ⟨c, -, hlast⟩ := Relation.TransGen.tail'_iff.mp hcycle
  obtain ⟨l, rest, horder⟩ := append_of_mem (hends c a hlast)
  exact hnone l.length l a rest rfl horder hcycle

end Result

/-! ## The longest chain

`depthLoop` walks an order of the nodes and gives each target of a node a depth
above it.  Over an order in which every target comes after its source, the
depth of a node is final when the walk reaches it, so the greatest depth bounds
every chain. -/

/-- Raise the depth of each target to at least `depth`. -/
def raiseTargets (depth : Nat) : SortedMap κ Nat → List κ → SortedMap κ Nat
  | depths, [] => depths
  | depths, target :: rest =>
      if (depths.get? target).getD 0 < depth then
        raiseTargets depth (depths.insert target depth) rest
      else raiseTargets depth depths rest

/-- The greatest depth that the walk of an order meets. -/
def depthLoop (targets : κ → List κ) : SortedMap κ Nat → Nat → List κ → Nat
  | _, best, [] => best
  | depths, best, current :: rest =>
      let depth := (depths.get? current).getD 0
      depthLoop targets (raiseTargets (depth + 1) depths (targets current))
        (if best < depth then depth else best) rest

theorem get?_raiseTargets (depth : Nat) (targets : List κ) :
    ∀ (depths : SortedMap κ Nat) (k : κ),
      ((raiseTargets depth depths targets).get? k).getD 0 =
        if k ∈ targets then max ((depths.get? k).getD 0) depth else (depths.get? k).getD 0 := by
  induction targets with
  | nil => intro depths k; simp [raiseTargets]
  | cons target rest ih =>
    intro depths k
    rw [raiseTargets]
    split_ifs with hless hmem hmem <;> rw [ih] <;> by_cases hk : k = target <;>
      by_cases hrest : k ∈ rest <;> simp_all [get?_insert] <;> omega

theorem best_le_depthLoop (targets : κ → List κ) (order : List κ) :
    ∀ (depths : SortedMap κ Nat) (best : Nat), best ≤ depthLoop targets depths best order := by
  induction order with
  | nil => intro depths best; exact le_refl _
  | cons current rest ih =>
    intro depths best
    refine le_trans ?_ (ih _ _)
    split_ifs <;> omega

theorem chain_le_depthLoop {targets : κ → List κ} (order : List κ) :
    ∀ (depths : SortedMap κ Nat) (best : Nat) (a : κ) (chain : List κ),
      (∀ l x r, order = l ++ x :: r → ∀ y ∈ targets x, y ∈ r) → a ∈ order →
      IsChain (fun x y => y ∈ targets x) (a :: chain) →
      (depths.get? a).getD 0 + chain.length ≤ depthLoop targets depths best order := by
  induction order with
  | nil => intro depths best a chain _ ha; simp at ha
  | cons current rest ih =>
    intro depths best a chain hord ha hchain
    have hrest : ∀ l x r, rest = l ++ x :: r → ∀ y ∈ targets x, y ∈ r :=
      fun l x r h => hord (current :: l) x r (by rw [h, cons_append])
    by_cases hac : a = current
    · subst hac
      cases chain with
      | nil =>
        refine le_trans ?_ (best_le_depthLoop targets rest _ _)
        split_ifs with hbest
        · simp
        · simpa using not_lt.mp hbest
      | cons b chain =>
        -- The walk has given `b` a depth above that of `a`.
        obtain ⟨hab, htail⟩ := isChain_cons_cons.mp hchain
        have hb : b ∈ rest := hord [] a rest rfl b hab
        rw [length_cons]
        refine le_trans ?_ (ih _ _ b chain hrest hb htail)
        rw [get?_raiseTargets, if_pos hab]
        omega
    · have ha' : a ∈ rest := (mem_cons.mp ha).resolve_left hac
      refine le_trans (Nat.add_le_add_right ?_ _) (ih _ _ a chain hrest ha' hchain)
      rw [get?_raiseTargets]
      split_ifs <;> omega

/-- A chain against the edges, with `n` of them, that begins at `k`. -/
def ChainTo (targets : κ → List κ) (nodes : List κ) (k : κ) (n : Nat) : Prop :=
  ∃ chain, IsChain (fun x y => x ∈ targets y) (k :: chain) ∧ k :: chain ⊆ nodes ∧ chain.length = n

theorem chainTo_depthLoop (targets : κ → List κ) (nodes order : List κ) :
    ∀ (depths : SortedMap κ Nat) (best : Nat), order ⊆ nodes →
      (∀ k ∈ nodes, ChainTo targets nodes k ((depths.get? k).getD 0)) →
      (∃ k, ChainTo targets nodes k best) →
      ∃ k, ChainTo targets nodes k (depthLoop targets depths best order) := by
  induction order with
  | nil => exact fun _ _ _ _ hbest => hbest
  | cons current rest ih =>
    intro depths best horder hdepths hbest
    obtain ⟨hmem, hrest⟩ := cons_subset.mp horder
    have hcurrent := hdepths current hmem
    refine ih _ _ hrest (fun k hk => ?_) ?_
    · rw [get?_raiseTargets]
      split_ifs with htarget
      · rcases max_choice ((depths.get? k).getD 0) ((depths.get? current).getD 0 + 1) with hold | hnew
        · rw [hold]
          exact hdepths k hk
        · obtain ⟨chain, hchain, hsub, hlen⟩ := hcurrent
          rw [hnew, ← hlen]
          exact ⟨current :: chain, hchain.cons_cons htarget, cons_subset.mpr ⟨hk, hsub⟩, rfl⟩
      · exact hdepths k hk
    · split_ifs
      · exact ⟨current, hcurrent⟩
      · exact hbest

end AgentOS.Kit
