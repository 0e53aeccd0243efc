import AgentOS.Plan.Validator
import Mathlib.Data.List.Chain

/-!
# The topology of a plan

What the graph algorithms of the validator compute: the order of the nodes, the depth of the plan
and the ancestors of a node.
-/

namespace AgentOS.Plan

open Kit List SortedMap Relation Validator

variable {edges : List PlanEdgeSpec} {order : List String}

/-! ## The order -/

theorem mem_ends {a b : String} : (a, b) ∈ edges.map PlanEdgeSpec.ends ↔ Depends edges a b := by
  simp [Depends, PlanEdgeSpec.ends]

theorem topoSort_error {nodeByID : SortedMap String PlanNodeSpec}
    (h : ¬ ∃ order, topoSort nodeByID edges = .ok order) :
    topoSort nodeByID edges = errorf .invalidRunPlan "plan contains a cycle" := by
  unfold topoSort at h ⊢
  dsimp only at h ⊢
  split_ifs at h ⊢
  · rfl
  · exact absurd ⟨_, rfl⟩ h

section Order

variable {nodeByID : SortedMap String PlanNodeSpec}
  (hends : ∀ edge ∈ edges, edge.source ∈ nodeByID.keys ∧ edge.target ∈ nodeByID.keys)
include hends

theorem topoSort_acyclic :
    (∃ order, topoSort nodeByID edges = .ok order) ↔ ∀ id, ¬ TransGen (Depends edges) id id := by
  constructor
  · rintro ⟨order, h⟩
    obtain ⟨⟨hperm, hforward⟩, -⟩ := topoSort_topological hends h
    exact hforward.acyclic fun edge hedge => hperm.mem_iff.mpr (hends edge hedge).2
  · intro hacyclic
    have hpairs : ∀ e ∈ edges.map PlanEdgeSpec.ends, e.1 ∈ nodeByID.keys ∧ e.2 ∈ nodeByID.keys := by
      simpa [PlanEdgeSpec.ends] using hends
    have hall := fun id (hid : id ∈ nodeByID.keys) => mem_kahn (fun e he => (hpairs e he).2)
      (fun e he => (hpairs e he).1) (by simpa only [mem_ends] using hacyclic) hid
    obtain ⟨_, hinv⟩ := kahn_inv fun e he => (hpairs e he).2
    have hlen := ((perm_ext_iff_of_nodup hinv.nodup nodeByID.keys_nodup).mpr fun id =>
      ⟨hinv.subset id, hall id⟩).length_eq
    exact ⟨_, if_neg (not_not.mpr hlen)⟩

end Order

/-- `topoSort` succeeds exactly when the edges have no cycle, and then gives the least of the orders
in which every edge goes forward.  Neither the order of the edges nor the order in which the counts
are walked matters. -/
theorem topoSort_least (nodeByID : SortedMap String PlanNodeSpec) (edges : List PlanEdgeSpec)
    (hends : ∀ edge ∈ edges, edge.source ∈ nodeByID.keys ∧ edge.target ∈ nodeByID.keys) :
    ((∃ order, topoSort nodeByID edges = .ok order) ↔ ∀ id, ¬ TransGen (Depends edges) id id) ∧
    (∀ order, topoSort nodeByID edges = .ok order →
      (order.Perm nodeByID.keys ∧ Forward edges order) ∧
        ∀ other, other.Perm nodeByID.keys ∧ Forward edges other → ¬ other < order) ∧
    (∀ nodeByID' edges', nodeByID'.keys = nodeByID.keys → edges'.Perm edges →
      topoSort nodeByID' edges' = topoSort nodeByID edges) ∧
    ∀ (incoming : SortedMap String Int) (walked : List String), walked.Perm incoming.keys →
      (walked.filter fun id => countAt incoming id = 0).insertionSort (· ≤ ·) =
        sources incoming := by
  refine ⟨topoSort_acyclic hends, fun order => topoSort_topological hends, ?_, ?_⟩
  · intro nodeByID' edges' hkeys hperm
    have hends' : ∀ edge ∈ edges', edge.source ∈ nodeByID'.keys ∧ edge.target ∈ nodeByID'.keys :=
      fun edge hedge => hkeys ▸ hends edge (hperm.subset hedge)
    have hsame : Depends edges' = Depends edges := by
      ext a b
      simp only [Depends, hperm.mem_iff]
    have hforward : ∀ order, Forward edges' order ↔ Forward edges order := by
      simp only [Forward, hperm.mem_iff, implies_true]
    by_cases hacyclic : ∀ id, ¬ TransGen (Depends edges) id id
    · obtain ⟨order, h⟩ := (topoSort_acyclic hends).mpr hacyclic
      obtain ⟨order', h'⟩ := (topoSort_acyclic hends').mpr (hsame ▸ hacyclic)
      obtain ⟨htopological, hleast⟩ := topoSort_topological hends h
      obtain ⟨htopological', hleast'⟩ := topoSort_topological hends' h'
      rw [hkeys, hforward] at htopological'
      rw [← hkeys, ← hforward] at htopological
      rw [h, h', le_antisymm (not_lt.mp (hleast order' htopological'))
        (not_lt.mp (hleast' order htopological))]
    · rw [topoSort_error ((topoSort_acyclic hends).not.mpr hacyclic),
        topoSort_error ((topoSort_acyclic hends').not.mpr (hsame ▸ hacyclic))]
  · intro incoming walked hwalked
    have hnodup := (hwalked.nodup_iff.mpr incoming.keys_nodup).filter fun id =>
      countAt incoming id = 0
    refine (sortedLE_insertionSort.sortedLT_of_nodup
      ((perm_insertionSort _ _).nodup_iff.mpr hnodup)).eq_of_mem_iff (sources_sorted incoming)
      fun id => ?_
    rw [mem_insertionSort, mem_filter, hwalked.mem_iff, mem_sources, decide_eq_true_eq]

/-- The nodes `a` and `b`. -/
def pairMap : SortedMap String PlanNodeSpec := (empty.insert "a" {}).insert "b" {}

theorem topoSort_least_pair :
    ∃ order, topoSort pairMap [{ source := "b", target := "a" }] = .ok order ∧
      order.Perm pairMap.keys ∧ Forward [{ source := "b", target := "a" }] order :=
  ⟨["b", "a"], rfl, ((topoSort_least pairMap [{ source := "b", target := "a" }]
    (by decide +kernel)).2.1 _ rfl).1⟩

/-! ## The depth -/

theorem exists_path_maxDepth (edges : List PlanEdgeSpec) (hne : order ≠ []) :
    ∃ path, path.IsChain (Depends edges) ∧ path ⊆ order ∧
      path.length = maxDepth order (groupEdges PlanEdgeSpec.source edges) := by
  obtain ⟨first, hfirst⟩ := exists_mem_of_ne_nil order hne
  obtain ⟨k, chain, hchain, hsub, hlen⟩ := chainTo_depthLoop (fun id =>
    (edgesAt (groupEdges PlanEdgeSpec.source edges) id).map PlanEdgeSpec.target) order order
    empty 0 (Subset.refl _)
    (fun k hk => ⟨[], .singleton k, by simpa using hk, rfl⟩)
    ⟨first, [], .singleton first, by simpa using hfirst, rfl⟩
  refine ⟨(k :: chain).reverse, ?_, reverse_subset.mpr hsub, ?_⟩
  · rw [isChain_reverse]
    exact hchain.imp fun _ _ => mem_targets.mp
  · rw [length_reverse, length_cons, hlen]
    rfl

theorem Forward.path_le_maxDepth (h : Forward edges order) (hnodup : order.Nodup)
    (hmem : ∀ edge ∈ edges, edge.target ∈ order) {path : List String}
    (hpath : path.IsChain (Depends edges)) (hsub : path ⊆ order) :
    path.length ≤ maxDepth order (groupEdges PlanEdgeSpec.source edges) := by
  cases path with
  | nil => exact Nat.zero_le _
  | cons id chain => exact h.chain_le_maxDepth hnodup hmem (hsub mem_cons_self) hpath

/-- Over an order of at least one node in which every edge goes forward, `maxDepth` is the number of
nodes on a longest path.  A plan that passes the other checks is refused exactly when it has a
path of more nodes than its policy allows. -/
theorem maxDepth_longest :
    (∀ order edges, order ≠ [] → order.Nodup → Forward edges order →
      (∀ edge ∈ edges, edge.source ∈ order ∧ edge.target ∈ order) →
      (∃ path, path.IsChain (Depends edges) ∧ path ⊆ order ∧
        path.length = maxDepth order (groupEdges PlanEdgeSpec.source edges)) ∧
      ∀ path, path.IsChain (Depends edges) → path ⊆ order →
        path.length ≤ maxDepth order (groupEdges PlanEdgeSpec.source edges)) ∧
    ∀ (v : Validator) spec policy nodeByID groups order,
      validatePlanEnvelope spec = .ok policy → v.validateNodes spec = .ok nodeByID →
      v.validateEdges spec nodeByID = .ok groups → topoSort nodeByID spec.edges = .ok order →
      validateInputMappingContracts spec nodeByID groups.1 = .ok () →
      ((∃ err, v.validate spec = .error err) ↔ ∃ path, path.IsChain (Depends spec.edges) ∧
        path ⊆ nodeByID.keys ∧ (normalizePolicy spec.policy).maxDepth < path.length) := by
  refine ⟨fun order edges hne hnodup hforward hends => ⟨exists_path_maxDepth edges hne, fun path =>
    hforward.path_le_maxDepth hnodup fun edge hedge => (hends edge hedge).2⟩, ?_⟩
  intro v spec policy nodeByID groups order henvelope hnodes hedges htopo hcontracts
  have hvalidate : (∃ err, v.validate spec = .error err) ↔
      policy.maxDepth < (maxDepth order groups.1 : Int) := by
    simp only [validate, henvelope, hnodes, hedges, htopo, hcontracts, bind, Except.bind]
    split_ifs with hdepth
    · exact iff_of_true ⟨_, rfl⟩ hdepth
    · exact iff_of_false nofun hdepth
  obtain ⟨-, rfl, hpopulated, -⟩ := validatePlanEnvelope_ok henvelope
  obtain ⟨hget, -, -⟩ := validateNodesFrom_ok hnodes
  obtain ⟨rfl, hends⟩ := validateEdges_ok hedges
  obtain ⟨⟨hperm, hforward⟩, -⟩ := topoSort_topological hends htopo
  rw [hvalidate]
  constructor
  · intro hdepth
    have hne : order ≠ [] := by
      rintro rfl
      obtain ⟨node, hnode⟩ := exists_mem_of_ne_nil _ hpopulated
      have hkey : node.nodeID ∈ nodeByID.keys := by
        rw [mem_keys_iff, (hget node.nodeID node).mpr (.inr ⟨hnode, rfl⟩)]
        rfl
      rw [← hperm.mem_iff] at hkey
      cases hkey
    obtain ⟨path, hpath, hsub, hlen⟩ := exists_path_maxDepth spec.edges hne
    exact ⟨path, hpath, fun id hid => hperm.mem_iff.mp (hsub hid), hlen ▸ hdepth⟩
  · rintro ⟨path, hpath, hsub, hlong⟩
    have hle := hforward.path_le_maxDepth (hperm.nodup_iff.mpr nodeByID.keys_nodup)
      (fun edge hedge => hperm.mem_iff.mpr (hends edge hedge).2) hpath
      fun id hid => hperm.mem_iff.mpr (hsub hid)
    exact hlong.trans_le (Int.ofNat_le.mpr hle)

/-- The node `t` takes the artifact `out` of the node `s`. -/
def handedSpec (maxDepth : Int) : RunPlanSpec where
  planID := "p"
  accountID := "acc"
  projectID := "proj"
  policy := { maxDepth := maxDepth }
  nodes :=
    [{ nodeID := "s", run := { runID := "r", backend := { kind := .native, name := "n" } }
       outputs := [{ name := "out", kind := .object }] },
     { nodeID := "t", run := { runID := "rt", backend := { kind := .native, name := "n" } }
       inputs := [{ target := "x", sourceNodeID := "s", sourceArtifact := "out" }] }]
  edges := [{ edgeID := "e", source := "s", target := "t" }]

theorem maxDepth_longest_handed :
    (∃ path, path.IsChain (Depends (handedSpec 1).edges) ∧ path ⊆ ["s", "t"] ∧ path.length = 2) ∧
    ((∃ err, openValidator.validate (handedSpec 1) = .error err) ↔
      ∃ path, path.IsChain (Depends (handedSpec 1).edges) ∧ path ⊆ ["s", "t"] ∧
        (1 : Int) < path.length) := by
  obtain ⟨nodeByID, groups, hkeys, hnodes, hedges, htopo, hcontracts⟩ : ∃ nodeByID groups,
      nodeByID.keys = ["s", "t"] ∧ openValidator.validateNodes (handedSpec 1) = .ok nodeByID ∧
      openValidator.validateEdges (handedSpec 1) nodeByID = .ok groups ∧
      topoSort nodeByID (handedSpec 1).edges = .ok ["s", "t"] ∧
      validateInputMappingContracts (handedSpec 1) nodeByID groups.1 = .ok () :=
    ⟨_, _, rfl, rfl, rfl, rfl, rfl⟩
  have hforward := (topoSort_topological (validateEdges_ok hedges).2 htopo).1.2
  refine ⟨(maxDepth_longest.1 ["s", "t"] _ nofun (by decide) hforward (by decide)).1, ?_⟩
  rw [← hkeys]
  exact maxDepth_longest.2 openValidator _ _ _ _ _ rfl hnodes hedges htopo hcontracts

/-- The graph without nodes has no path, and its depth is 1. -/
theorem maxDepth_empty :
    maxDepth [] (groupEdges PlanEdgeSpec.source []) = 1 ∧
      ∀ path : List String, path ⊆ [] → path.length = 0 := by
  refine ⟨rfl, fun path hsub => ?_⟩
  rw [subset_nil.mp hsub]
  rfl

/-! ## Ancestors -/

/-- An edge of the map leads from `a` to `b`. -/
def Feeds (edgesByFrom : SortedMap String (List PlanEdgeSpec)) (a b : String) : Prop :=
  ∃ edge ∈ edgesAt edgesByFrom a, edge.target = b

/-- The nodes that can be visited: the start, and the targets of the edges. -/
def visitable (edgesByFrom : SortedMap String (List PlanEdgeSpec)) (start : String) : List String :=
  start :: edgesByFrom.values.flatMap fun edges => edges.map PlanEdgeSpec.target

/-- The search has met no edge into the goal.  The edges of the visited nodes that are not in the
queue are walked, except for those of `current` that are still pending. -/
structure Searched (edgesByFrom : SortedMap String (List PlanEdgeSpec)) (start goal : String)
    (fuel : Nat) (current : String) (pending : List PlanEdgeSpec) (visited queue : List String) :
    Prop where
  first : start ∈ visited
  nodup : visited.Nodup
  subset : visited ⊆ visitable edgesByFrom start
  reached : ∀ id ∈ visited, ReflTransGen (Feeds edgesByFrom) start id
  queued : queue ⊆ visited
  walked : ∀ id ∈ visited, id ∉ queue → ∀ edge ∈ edgesAt edgesByFrom id,
    id = current ∧ edge ∈ pending ∨ edge.target ≠ goal ∧ edge.target ∈ visited
  rounds : (visitable edgesByFrom start).length + queue.length ≤ fuel + visited.length

section Search

variable {edgesByFrom : SortedMap String (List PlanEdgeSpec)} {start goal current : String}
  {fuel : Nat} {pending : List PlanEdgeSpec} {visited queue : List String}

theorem mem_visitable {edge : PlanEdgeSpec} (h : edge ∈ edgesAt edgesByFrom current) :
    edge.target ∈ visitable edgesByFrom start := by
  unfold edgesAt at h
  cases hget : edgesByFrom.get? current <;> rw [hget] at h
  · cases h
  · exact mem_cons_of_mem _ (mem_flatMap.mpr
      ⟨_, (mem_values_iff _ _).mpr ⟨current, hget⟩, mem_map_of_mem h⟩)

theorem Searched.scan (hpending : pending ⊆ edgesAt edgesByFrom current)
    (hcurrent : current ∈ visited)
    (h : Searched edgesByFrom start goal fuel current pending visited queue) :
    match scanTargets goal visited queue pending with
    | none => Feeds edgesByFrom current goal
    | some (visited, queue) =>
        Searched edgesByFrom start goal fuel current [] visited queue := by
  induction pending generalizing visited queue with
  | nil => exact h
  | cons edge rest ih =>
    obtain ⟨hedge, hrest⟩ := cons_subset.mp hpending
    rw [scanTargets]
    split_ifs with hgoal hmem
    · exact ⟨edge, hedge, hgoal⟩
    · refine ih hrest hcurrent { h with walked := fun id hid hout edge' hedge' => ?_ }
      rcases h.walked id hid hout edge' hedge' with ⟨rfl, hlater⟩ | hwalked
      · rcases mem_cons.mp hlater with rfl | hlater
        · exact .inr ⟨hgoal, hmem⟩
        · exact .inl ⟨rfl, hlater⟩
      · exact .inr hwalked
    · refine ih hrest (mem_cons_of_mem _ hcurrent) ⟨mem_cons_of_mem _ h.first,
        nodup_cons.mpr ⟨hmem, h.nodup⟩, cons_subset.mpr ⟨mem_visitable hedge, h.subset⟩,
        forall_mem_cons.mpr ⟨(h.reached current hcurrent).tail ⟨edge, hedge, rfl⟩, h.reached⟩,
        append_subset.mpr ⟨fun id hid => mem_cons_of_mem _ (h.queued hid), by simp⟩, ?_, ?_⟩
      · intro id hid hout edge' hedge'
        rw [mem_append, mem_singleton, not_or] at hout
        rcases h.walked id ((mem_cons.mp hid).resolve_left hout.2) hout.1 edge' hedge' with
          ⟨rfl, hlater⟩ | ⟨hother, hwalked⟩
        · rcases mem_cons.mp hlater with rfl | hlater
          · exact .inr ⟨hgoal, mem_cons_self⟩
          · exact .inl ⟨rfl, hlater⟩
        · exact .inr ⟨hother, mem_cons_of_mem _ hwalked⟩
      · have hrounds := h.rounds
        rw [length_append, length_singleton, length_cons]
        omega

theorem Searched.not_path (h : Searched edgesByFrom start goal fuel current [] visited []) :
    ¬ TransGen (Feeds edgesByFrom) start goal := by
  have hwalked : ∀ id ∈ visited, ∀ next, Feeds edgesByFrom id next →
      next ≠ goal ∧ next ∈ visited := by
    rintro id hid _ ⟨edge, hedge, rfl⟩
    exact (h.walked id hid not_mem_nil edge hedge).resolve_left fun hlater => not_mem_nil hlater.2
  intro hpath
  obtain ⟨last, hlast, hedge⟩ := TransGen.tail'_iff.mp hpath
  have hvisited : last ∈ visited := by
    clear hedge
    induction hlast with
    | refl => exact h.first
    | tail _ hedge ih => exact (hwalked _ ih _ hedge).2
  exact (hwalked last hvisited goal hedge).1 rfl

theorem pathLoop_iff (h : Searched edgesByFrom start goal fuel current [] visited queue) :
    pathLoop edgesByFrom goal fuel visited queue = true ↔
      TransGen (Feeds edgesByFrom) start goal := by
  induction fuel generalizing current visited queue with
  | zero =>
    have hrounds := h.rounds
    have hlen := (subperm_of_subset h.nodup h.subset).length_le
    obtain rfl : queue = [] := eq_nil_of_length_eq_zero (by omega)
    exact iff_of_false nofun h.not_path
  | succ fuel ih =>
    cases queue with
    | nil => exact iff_of_false nofun h.not_path
    | cons next queue =>
      obtain ⟨hnext, hqueue⟩ := cons_subset.mp h.queued
      have hpopped : Searched edgesByFrom start goal fuel next (edgesAt edgesByFrom next) visited
          queue :=
        { h with
          queued := hqueue
          walked := fun id hid hout edge hedge => by
            by_cases heq : id = next
            · exact .inl ⟨heq, heq ▸ hedge⟩
            · refine .inr ((h.walked id hid ?_ edge hedge).resolve_left fun hlater =>
                not_mem_nil hlater.2)
              exact fun hmem => (mem_cons.mp hmem).elim heq hout
          rounds := by
            have hrounds := h.rounds
            rw [length_cons] at hrounds
            omega }
      have hscan := hpopped.scan (Subset.refl _) hnext
      rw [pathLoop]
      generalize scanTargets goal visited queue (edgesAt edgesByFrom next) = found at hscan ⊢
      cases found with
      | none => exact iff_of_true rfl (.tail' (h.reached next hnext) hscan)
      | some found => exact ih hscan

end Search

/-- `hasDependencyPath` finds exactly the paths of at least one edge, and no number of further
rounds changes its answer.  In an accepted plan the source of an artifact input is another node,
with a path to the node. -/
theorem hasDependencyPath_exact :
    (∀ edgesByFrom start goal,
      (hasDependencyPath edgesByFrom start goal = true ↔
        TransGen (Feeds edgesByFrom) start goal) ∧
      ∀ fuel, (edgesByFrom.values.map length).sum + 1 ≤ fuel →
        pathLoop edgesByFrom goal fuel [start] [start] = hasDependencyPath edgesByFrom start goal) ∧
    ∀ (v : Validator) spec plan, v.validate spec = .ok plan →
      ∀ node ∈ spec.nodes, ∀ mapping ∈ node.inputs, mapping.sourceArtifact ≠ "" →
        (∃ source ∈ spec.nodes, source.nodeID = mapping.sourceNodeID) ∧
        mapping.sourceNodeID ≠ node.nodeID ∧
        TransGen (Depends spec.edges) mapping.sourceNodeID node.nodeID := by
  have hsearch : ∀ edgesByFrom start goal fuel, (edgesByFrom.values.map length).sum + 1 ≤ fuel →
      (pathLoop edgesByFrom goal fuel [start] [start] = true ↔
        TransGen (Feeds edgesByFrom) start goal) := by
    intro edgesByFrom start goal fuel hfuel
    have hbegun : Searched edgesByFrom start goal fuel start [] [start] [start] := by
      refine ⟨mem_singleton_self _, nodup_singleton _, by simp [visitable], ?_, Subset.refl _,
        fun id hid hout => absurd hid hout, ?_⟩
      · simpa using ReflTransGen.refl
      · simpa [visitable, length_flatMap] using hfuel
    exact pathLoop_iff hbegun
  refine ⟨fun edgesByFrom start goal => ⟨hsearch _ _ _ _ le_rfl, fun fuel hfuel => ?_⟩, ?_⟩
  · rw [Bool.eq_iff_iff, hsearch _ _ _ _ hfuel, hasDependencyPath, hsearch _ _ _ _ le_rfl]
  intro v spec plan h node hnode mapping hmapping hartifact
  obtain ⟨policy, -, h⟩ := bind_ok h
  obtain ⟨nodeByID, hnodes, h⟩ := bind_ok h
  obtain ⟨groups, hedges, h⟩ := bind_ok h
  obtain ⟨order, -, h⟩ := bind_ok h
  obtain ⟨⟨⟩, hcontracts, -⟩ := bind_ok h
  obtain ⟨hget, -, -⟩ := validateNodesFrom_ok hnodes
  obtain ⟨rfl, -⟩ := validateEdges_ok hedges
  obtain ⟨⟨⟩, hcontracts, -⟩ := bind_ok hcontracts
  have hcheck := checkEach_ok (checkEach_ok hcontracts node hnode) mapping hmapping
  rw [if_neg hartifact] at hcheck
  split at hcheck
  · cases hcheck
  next source hsource =>
  obtain ⟨hmem, hid⟩ := ((hget _ _).mp hsource).resolve_left nofun
  simp only [validateArtifactMappingSource] at hcheck
  split_ifs at hcheck with hself hdeclared hpath
  rw [hid] at hself hpath
  refine ⟨⟨source, hmem, hid⟩, hself, ?_⟩
  simp only [Bool.not_eq_true', Bool.not_eq_false] at hpath
  exact TransGen.mono (fun _ _ hleads => mem_targets.mp (mem_map.mpr hleads)) _ _
    ((hsearch _ _ _ _ le_rfl).mp hpath)

theorem hasDependencyPath_exact_handed :
    pathLoop (groupEdges PlanEdgeSpec.source (handedSpec 2).edges) "t" 5 ["s"] ["s"] = true ∧
    TransGen (Depends (handedSpec 2).edges) "s" "t" := by
  refine ⟨((hasDependencyPath_exact.1 _ "s" "t").2 5 (by decide)).trans rfl, ?_⟩
  obtain ⟨plan, hplan⟩ : ∃ plan, openValidator.validate (handedSpec 2) = .ok plan := ⟨_, rfl⟩
  exact (hasDependencyPath_exact.2 openValidator (handedSpec 2) plan hplan _
    (.tail _ (.head _)) _ (.head _) (by decide)).2.2

end AgentOS.Plan
