import AgentOS.Kit.Kahn
import AgentOS.Plan.Types

/-!
# The plan validator

`Validator.Validate` of `internal/usecase/agentosplan/validator.go`, with the
contracts of `mapping_contract.go` and `artifact_contract.go` that it calls,
and `ApplyDelta` of `delta.go`, which validates an expanded plan again.  What the
other modules use of an accepted plan is `Validated`.
-/

namespace AgentOS.Plan

open Kit List SortedMap

/-- `Validator`, with the schema library that the source calls directly. -/
structure Validator where
  /-- The error of compiling an expression, if any. -/
  expressions : Option (String → Option Err)
  capabilities : Option (BackendRef → String → Except Err (Option Capability))
  artifactSchemas : Option (String → Except Err (Option String))
  /-- The error of parsing and resolving a raw schema. -/
  validateRawSchemaSyntax : String → Option Err
  /-- The error of a value against a raw schema. -/
  validateRawSchema : String → Json → Option Err

/-- `ExecutablePlan`: an accepted spec with its indexes and its order. -/
structure ExecutablePlan where
  spec : RunPlanSpec
  nodeByID : SortedMap String PlanNodeSpec
  edgesByTo : SortedMap String (List PlanEdgeSpec)
  edgesByFrom : SortedMap String (List PlanEdgeSpec)
  order : List String

/-- Check the elements in order, up to the first error. -/
def checkEach {α : Type} (check : α → Except Err Unit) : List α → Except Err Unit
  | [] => .ok ()
  | x :: rest => do
      check x
      checkEach check rest

theorem checkEach_ok {α : Type} {check : α → Except Err Unit} {l : List α}
    (h : checkEach check l = .ok ()) : ∀ a ∈ l, check a = .ok () := by
  induction l with
  | nil => nofun
  | cons a rest ih =>
    obtain ⟨⟨⟩, hfirst, hrest⟩ := bind_ok h
    exact forall_mem_cons.mpr ⟨hfirst, ih hrest⟩

def orFail : Option Err → Except Err Unit
  | none => .ok ()
  | some err => .error err

/-! ## Envelope and policy -/

def defaultMaxNodes : Int := 256
def defaultMaxDepth : Int := 32
def defaultMaxExpansions : Int := 64
def defaultBatchInputKey : String := "items"

/-- A limit of the policy, an `int32`, or its default when it is not positive. -/
def limitOr (default limit : Int) : Int := if int32 limit ≤ 0 then default else int32 limit

/-- The policy with its defaults. -/
def normalizePolicy (policy : PlanPolicy) : PlanPolicy :=
  { policy with
    maxNodes := limitOr defaultMaxNodes policy.maxNodes
    maxDepth := limitOr defaultMaxDepth policy.maxDepth
    maxExpansions := limitOr defaultMaxExpansions policy.maxExpansions }

variable {spec : RunPlanSpec}

theorem planID_ne_of_scope (h : validateRunPlanScope spec = .ok ()) : spec.planID ≠ "" := by
  intro hempty
  rw [validateRunPlanScope, if_pos hempty] at h
  cases h

/-- The checks of the plan as a whole, and its policy with the defaults. -/
def validatePlanEnvelope (spec : RunPlanSpec) : Except Err PlanPolicy := do
  validateRunPlanScope spec
  let policy := normalizePolicy spec.policy
  if policy.maxHistoryEvents > 0 ∧ policy.continueAsNewEvents > policy.maxHistoryEvents then
    errorf .invalidRunPlan ("continue-as-new events " ++ toString policy.continueAsNewEvents ++
        " exceeds max history events " ++ toString policy.maxHistoryEvents)
  else if spec.nodes.length = 0 then errorf .invalidRunPlan "nodes are required"
  else if (spec.nodes.length : Int) > policy.maxNodes then
    errorf .invalidRunPlan ("node count " ++ toString spec.nodes.length ++ " exceeds max " ++
        toString policy.maxNodes)
  else .ok policy

/-! ## Input mappings and artifact contracts -/

inductive InputMappingSourceMode where
  | expression
  | artifact
  | planInput
  deriving DecidableEq

def validateInputMappingShape (scope : String) (mapping : InputMapping) :
    Except Err InputMappingSourceMode :=
  let named := scope ++ " input mapping " ++ quoted mapping.target
  if mapping.target = "" then errorf .invalidRunPlan (scope ++ " input mapping target is required")
  else if mapping.expression ≠ "" then
    if mapping.sourceArtifact ≠ "" ∨ mapping.sourceNodeID ≠ "" ∨ mapping.sourcePath ≠ "" then
      errorf .invalidRunPlan (named ++ " mixes expression with source fields")
    else .ok .expression
  else if mapping.sourceArtifact ≠ "" then
    if mapping.sourceNodeID = "" then
      errorf .invalidArtifact (named ++
        " source_node_id is required for source_artifact " ++ quoted mapping.sourceArtifact)
    else .ok .artifact
  else if mapping.sourceNodeID ≠ "" then
    errorf .invalidRunPlan (named ++ " source_node_id requires source_artifact")
  else if mapping.sourcePath ≠ "" then .ok .planInput
  else errorf .invalidRunPlan (named ++ " source is required")

def artifactContractError (nodeID message : String) : Err :=
  if nodeID = "" then .wrap .invalidArtifact message
  else .wrap .invalidArtifact ("node " ++ quoted nodeID ++ " " ++ message)

def validateArtifactSpecsFrom (nodeID : String) :
    List String → List ArtifactSpec → Except Err Unit
  | _, [] => .ok ()
  | seen, spec :: rest =>
      if spec.name = "" then
        .error (artifactContractError nodeID "artifact name is required")
      else if spec.kind.name = "" then
        .error (artifactContractError nodeID
          ("artifact " ++ quoted spec.name ++ " kind is required"))
      else if spec.name ∈ seen then
        .error (artifactContractError nodeID ("duplicate artifact " ++ quoted spec.name))
      else validateArtifactSpecsFrom nodeID (spec.name :: seen) rest

def validateArtifactSpecs (nodeID : String) (specs : List ArtifactSpec) : Except Err Unit :=
  validateArtifactSpecsFrom nodeID [] specs

namespace Validator

variable (v : Validator)

def artifactSchema (nodeID : String) (spec : ArtifactSpec) : Except Err String :=
  let named := "artifact " ++ quoted spec.name ++ " schema_ref " ++ quoted spec.schemaRef
  match v.artifactSchemas with
  | none => .error (artifactContractError nodeID (named ++ " requires an artifact schema catalog"))
  | some catalog => do
      match ← catalog spec.schemaRef with
      | none => .error (artifactContractError nodeID (named ++ " was not found"))
      | some raw => .ok raw

def validateArtifactSchemaRefs (nodeID : String) (specs : List ArtifactSpec) : Except Err Unit :=
  checkEach (fun spec =>
    if spec.schemaRef = "" then .ok ()
    else do
      let raw ← v.artifactSchema nodeID spec
      match v.validateRawSchemaSyntax raw with
      | none => .ok ()
      | some err => .error (artifactContractError nodeID
          ("artifact " ++ quoted spec.name ++ " schema_ref " ++ quoted spec.schemaRef ++
            " is invalid: " ++ err.text))) specs

def compileExpression (expression : String) : Except Err Unit :=
  match v.expressions with
  | none => .ok ()
  | some compile => if expression = "" then .ok () else orFail (compile expression)

def inScope (scope : String) : Except Err Unit → Except Err Unit
  | .ok () => .ok ()
  | .error err => .error (.within scope err)

/-! ## Nodes -/

def validateNodeIdentity (node : PlanNodeSpec) : Except Err Unit :=
  if node.nodeID = "" then errorf .invalidRunPlan "node id is required"
  else if node.run.runID = "" then
    errorf .invalidRunSpec ("node " ++ quoted node.nodeID ++ " run id is required")
  else if node.run.backend.kind.text = "" ∨ node.run.backend.name = "" then
    errorf .invalidBackendRef ("node " ++ quoted node.nodeID ++ " backend is required")
  else
    match node.policy.join with
    | .unset | .all | .any | .first => .ok ()
    | .other name =>
        errorf .invalidRunPlan
          ("node " ++ quoted node.nodeID ++ " has invalid join strategy " ++ quoted name)

def validateNodeInput (scope : String) (mapping : InputMapping) : Except Err Unit := do
  let mode ← validateInputMappingShape scope mapping
  if mode = .expression then
    inScope (scope ++ " input " ++ quoted mapping.target) (v.compileExpression mapping.expression)
  else .ok ()

def validateNodeExpressions (node : PlanNodeSpec) : Except Err Unit := do
  let scope := "node " ++ quoted node.nodeID
  checkEach (fun condition => inScope scope (v.compileExpression condition)) node.conditions
  checkEach (v.validateNodeInput scope) node.inputs

def batchSize : Json → Option Nat
  | .arr items => some items.length
  | .num .emptyStrings | .num .nilMaps => some 0
  | _ => none

def validateNodeBatchLimits (node : PlanNodeSpec) (capability : Capability) : Except Err Unit :=
  if capability.limits.maxBatchItems = 0 then .ok ()
  else
    let key := if capability.limits.batchInputKey = "" then defaultBatchInputKey
      else capability.limits.batchInputKey
    let named := "node " ++ quoted node.nodeID ++ " batch input " ++ quoted key
    match mapGet node.run.input key with
    | none => errorf .invalidRunPlan (named ++ " is required")
    | some value =>
        match batchSize value with
        | none => errorf .invalidRunPlan (named ++ " must be an array")
        | some size =>
            if (size : Int) > capability.limits.maxBatchItems then
              errorf .invalidRunPlan (named ++ " has " ++ toString size ++
                " items, exceeds max " ++ toString capability.limits.maxBatchItems)
            else .ok ()

def validateNodeCapability (node : PlanNodeSpec) : Except Err Unit :=
  if node.capability = "" then .ok ()
  else
    match v.capabilities with
    | none =>
        errorf .capabilityNotFound
          ("node " ++ quoted node.nodeID ++ " capability catalog is required")
    | some catalog => do
        match ← catalog node.run.backend node.capability with
        | none => errorf .capabilityNotFound ("node " ++ quoted node.nodeID ++ " capability " ++
              node.run.backend.kind.text ++ "/" ++ node.run.backend.name ++ "/" ++
              node.capability)
        | some capability =>
            if capability.inputSchema ≠ "" then
              match v.validateRawSchema capability.inputSchema (.obj node.run.input) with
              | some err =>
                  errorf .invalidRunPlan
                    ("node " ++ quoted node.nodeID ++ " input schema: " ++ err.text)
              | none => validateNodeBatchLimits node capability
            else validateNodeBatchLimits node capability

def validateNode (node : PlanNodeSpec) : Except Err Unit := do
  validateNodeIdentity node
  v.validateNodeExpressions node
  validateArtifactSpecs node.nodeID node.outputs
  v.validateArtifactSchemaRefs node.nodeID node.outputs
  v.validateNodeCapability node

def validateNodesFrom (v : Validator) :
    SortedMap String PlanNodeSpec → List PlanNodeSpec → Except Err (SortedMap String PlanNodeSpec)
  | nodeByID, [] => .ok nodeByID
  | nodeByID, node :: rest => do
      v.validateNode node
      if nodeByID.contains node.nodeID then
        errorf .invalidRunPlan ("duplicate node " ++ quoted node.nodeID)
      else v.validateNodesFrom (nodeByID.insert node.nodeID node) rest

def validateNodes (spec : RunPlanSpec) : Except Err (SortedMap String PlanNodeSpec) :=
  v.validateNodesFrom empty spec.nodes

/-! ## Edges -/

def validateEdgeIdentity (nodeByID : SortedMap String PlanNodeSpec) (edge : PlanEdgeSpec) :
    Except Err Unit :=
  if edge.source = "" ∨ edge.target = "" then errorf .invalidRunPlan "edge endpoints are required"
  else if !nodeByID.contains edge.source then
    errorf .invalidRunPlan ("edge from unknown node " ++ quoted edge.source)
  else if !nodeByID.contains edge.target then
    errorf .invalidRunPlan ("edge to unknown node " ++ quoted edge.target)
  else if edge.source = edge.target then
    errorf .invalidRunPlan ("self edge on node " ++ quoted edge.source)
  else
    match edge.on with
    | .unset | .onSuccess | .onError | .onComplete | .onAlways => .ok ()
    | .other name =>
        errorf .invalidRunPlan
          ("edge " ++ quoted edge.edgeID ++ " has invalid trigger " ++ quoted name)

def validateUniqueEdgeID (edgeIDs : List String) (edge : PlanEdgeSpec) : Except Err (List String) :=
  if edge.edgeID = "" then .ok edgeIDs
  else if edge.edgeID ∈ edgeIDs then
    errorf .invalidRunPlan ("duplicate edge " ++ quoted edge.edgeID)
  else .ok (edge.edgeID :: edgeIDs)

def validateEdge (nodeByID : SortedMap String PlanNodeSpec)
    (edgeIDs : List String) (edge : PlanEdgeSpec) : Except Err (List String) := do
  let scope := "edge " ++ quoted edge.edgeID
  validateEdgeIdentity nodeByID edge
  let seen ← validateUniqueEdgeID edgeIDs edge
  inScope scope (v.compileExpression edge.condition)
  checkEach (fun mapping => do
    let mode ← validateInputMappingShape scope mapping
    if mode = .artifact ∧ mapping.sourceNodeID ≠ edge.source then
      errorf .invalidRunPlan (scope ++ " mapping source must match edge source")
    else .ok ()) edge.inputMapping
  .ok seen

def validateEdgesFrom (v : Validator) (nodeByID : SortedMap String PlanNodeSpec) :
    List String → List PlanEdgeSpec → Except Err Unit
  | _, [] => .ok ()
  | edgeIDs, edge :: rest => do
      let seen ← v.validateEdge nodeByID edgeIDs edge
      v.validateEdgesFrom nodeByID seen rest

end Validator

def edgeLE (a b : PlanEdgeSpec) : Prop :=
  a.source < b.source ∨ a.source = b.source ∧ a.target ≤ b.target

instance : DecidableRel edgeLE := fun a b =>
  inferInstanceAs (Decidable (a.source < b.source ∨ a.source = b.source ∧ a.target ≤ b.target))

def groupEdges (endpoint : PlanEdgeSpec → String) (edges : List PlanEdgeSpec) :
    SortedMap String (List PlanEdgeSpec) :=
  edges.foldl (fun groups edge =>
    groups.insert (endpoint edge)
      ((edges.filter fun e => endpoint e = endpoint edge).insertionSort edgeLE))
    empty

namespace Validator

def validateEdges (v : Validator) (spec : RunPlanSpec) (nodeByID : SortedMap String PlanNodeSpec) :
    Except Err (SortedMap String (List PlanEdgeSpec) × SortedMap String (List PlanEdgeSpec)) := do
  v.validateEdgesFrom nodeByID [] spec.edges
  .ok (groupEdges PlanEdgeSpec.source spec.edges, groupEdges PlanEdgeSpec.target spec.edges)

end Validator

def edgesAt (groups : SortedMap String (List PlanEdgeSpec)) (nodeID : String) : List PlanEdgeSpec :=
  (groups.get? nodeID).getD []

/-! ## Topology -/

def PlanEdgeSpec.ends (edge : PlanEdgeSpec) : String × String := (edge.source, edge.target)

/-- `topoSort`, which is Kahn's algorithm with the queue in the order of the ids. -/
def topoSort (nodeByID : SortedMap String PlanNodeSpec) (edges : List PlanEdgeSpec) :
    Except Err (List String) :=
  let order := kahn nodeByID.keys (edges.map PlanEdgeSpec.ends)
  if order.length ≠ nodeByID.keys.length then errorf .invalidRunPlan "plan contains a cycle"
  else .ok order

/-- `maxDepth`: the number of nodes on a longest path, for an order of the nodes. -/
def maxDepth (order : List String) (edgesByFrom : SortedMap String (List PlanEdgeSpec)) : Nat :=
  depthLoop (fun nodeID => (edgesAt edgesByFrom nodeID).map PlanEdgeSpec.target) empty 0 order + 1

/-- The inner loop of `hasDependencyPath`: `none` when the goal is a target, and
otherwise the visited nodes and the queue after the edges of one node. -/
def scanTargets (goal : String) :
    List String → List String → List PlanEdgeSpec → Option (List String × List String)
  | visited, queue, [] => some (visited, queue)
  | visited, queue, edge :: rest =>
      if edge.target = goal then none
      else if edge.target ∈ visited then scanTargets goal visited queue rest
      else scanTargets goal (edge.target :: visited) (queue ++ [edge.target]) rest

def pathLoop (edgesByFrom : SortedMap String (List PlanEdgeSpec)) (goal : String) :
    Nat → List String → List String → Bool
  | 0, _, _ => false
  | _ + 1, _, [] => false
  | fuel + 1, visited, current :: queue =>
      match scanTargets goal visited queue (edgesAt edgesByFrom current) with
      | none => true
      | some (visited, queue) => pathLoop edgesByFrom goal fuel visited queue

/-- `hasDependencyPath`.  A node joins the queue once, as the target of an edge,
so one round for each edge and one for the start are enough. -/
def hasDependencyPath (edgesByFrom : SortedMap String (List PlanEdgeSpec))
    (start goal : String) : Bool :=
  pathLoop edgesByFrom goal ((edgesByFrom.values.map length).sum + 1) [start] [start]

/-! ## Mapping contracts -/

def nodeDeclaresArtifact (node : PlanNodeSpec) (name : String) : Bool :=
  node.outputs.any fun output => output.name = name

def validateArtifactMappingSource (edgesByFrom : SortedMap String (List PlanEdgeSpec))
    (node source : PlanNodeSpec) (mapping : InputMapping) : Except Err Unit :=
  let named := "node " ++ quoted node.nodeID ++ " input " ++ quoted mapping.target
  if source.nodeID = node.nodeID then
    errorf .invalidRunPlan (named ++ " cannot map an artifact from the same node")
  else if !nodeDeclaresArtifact source mapping.sourceArtifact then
    .error (artifactContractError source.nodeID ("artifact " ++ quoted mapping.sourceArtifact ++
        " is not declared for mapping into node " ++ quoted node.nodeID))
  else if !hasDependencyPath edgesByFrom source.nodeID node.nodeID then
    errorf .invalidRunPlan
      (named ++ " requires a dependency path from source node " ++ quoted source.nodeID)
  else .ok ()

def validateNodeInputMappingContracts (nodeByID : SortedMap String PlanNodeSpec)
    (edgesByFrom : SortedMap String (List PlanEdgeSpec)) (node : PlanNodeSpec) :
    Except Err Unit :=
  checkEach (fun mapping =>
    if mapping.sourceArtifact = "" then .ok ()
    else
      match nodeByID.get? mapping.sourceNodeID with
      | none =>
          errorf .invalidRunPlan
            ("node " ++ quoted node.nodeID ++ " input " ++ quoted mapping.target ++
              " source node " ++ quoted mapping.sourceNodeID ++ " is unknown")
      | some source => validateArtifactMappingSource edgesByFrom node source mapping)
    node.inputs

def validateEdgeInputMappingContracts (nodeByID : SortedMap String PlanNodeSpec)
    (edge : PlanEdgeSpec) : Except Err Unit :=
  let source := (nodeByID.get? edge.source).getD {}
  checkEach (fun mapping =>
    if mapping.sourceArtifact = "" then .ok ()
    else if !nodeDeclaresArtifact source mapping.sourceArtifact then
      .error (artifactContractError source.nodeID
        ("artifact " ++ quoted mapping.sourceArtifact ++ " is not declared for edge " ++
          quoted edge.edgeID ++ " mapping into node " ++ quoted edge.target))
    else .ok ()) edge.inputMapping

def validateInputMappingContracts (spec : RunPlanSpec) (nodeByID : SortedMap String PlanNodeSpec)
    (edgesByFrom : SortedMap String (List PlanEdgeSpec)) : Except Err Unit := do
  checkEach (validateNodeInputMappingContracts nodeByID edgesByFrom) spec.nodes
  checkEach (validateEdgeInputMappingContracts nodeByID) spec.edges

/-! ## Validate and expand -/

/-- `Validate`.  The first check that fails gives the error. -/
def Validator.validate (v : Validator) (spec : RunPlanSpec) : Except Err ExecutablePlan := do
  let policy ← validatePlanEnvelope spec
  let nodeByID ← v.validateNodes spec
  let (edgesByFrom, edgesByTo) ← v.validateEdges spec nodeByID
  let order ← topoSort nodeByID spec.edges
  validateInputMappingContracts spec nodeByID edgesByFrom
  let plan : ExecutablePlan :=
    { spec := spec
      nodeByID := nodeByID
      edgesByTo := edgesByTo
      edgesByFrom := edgesByFrom
      order := order }
  if (maxDepth order edgesByFrom : Int) > policy.maxDepth then
    errorf .invalidRunPlan ("plan depth exceeds max " ++ toString policy.maxDepth)
  else .ok plan

/-! ## What an accepted plan satisfies -/

def PlanJoinStrategy.known : PlanJoinStrategy → Prop
  | .other _ => False
  | _ => True

namespace Validator

variable {v : Validator}

theorem validateNodeIdentity_ok {node : PlanNodeSpec} (h : validateNodeIdentity node = .ok ()) :
    node.nodeID ≠ "" ∧ node.run.runID ≠ "" ∧ node.policy.join.known := by
  unfold validateNodeIdentity at h
  split_ifs at h with h1 h2 h3
  refine ⟨h1, h2, ?_⟩
  cases hjoin : node.policy.join <;> simp_all [PlanJoinStrategy.known]

theorem validateNodesFrom_ok {nodes : List PlanNodeSpec} :
    ∀ {before after : SortedMap String PlanNodeSpec}, v.validateNodesFrom before nodes = .ok after →
      (∀ id node, after.get? id = some node ↔
        before.get? id = some node ∨ node ∈ nodes ∧ node.nodeID = id) ∧
      (nodes.map PlanNodeSpec.nodeID).Nodup ∧
      (∀ node ∈ nodes, before.get? node.nodeID = none ∧ v.validateNode node = .ok ()) := by
  induction nodes with
  | nil =>
    intro before after h
    cases h
    simp
  | cons head rest ih =>
    intro before after h
    obtain ⟨⟨⟩, hhead, h⟩ := bind_ok h
    split_ifs at h with hdup
    have hnew : before.get? head.nodeID = none := by
      simpa [SortedMap.contains] using hdup
    obtain ⟨hget, hnodup, hrest⟩ := ih h
    -- A later node with the id of `head` would already be in the map.
    have hne : ∀ node ∈ rest, node.nodeID ≠ head.nodeID := by
      intro node hnode heq
      have := (hrest node hnode).1
      rw [heq, get?_insert_self] at this
      cases this
    refine ⟨?_, ?_, ?_⟩
    · intro id node
      rw [hget, get?_insert, mem_cons]
      have hother := hne node
      split_ifs with hid
      · subst hid
        grind
      · grind
    · rw [map_cons, nodup_cons]
      refine ⟨?_, hnodup⟩
      intro hmem
      obtain ⟨node, hnode, heq⟩ := mem_map.mp hmem
      exact hne node hnode heq
    · intro node hnode
      rcases mem_cons.mp hnode with rfl | hnode
      · exact ⟨hnew, hhead⟩
      · have hget' := (hrest node hnode).1
        rw [get?_insert_ne _ _ (hne node hnode)] at hget'
        exact ⟨hget', (hrest node hnode).2⟩

def knownTrigger : EdgeTrigger → Prop
  | .other _ => False
  | _ => True

variable {nodeByID : SortedMap String PlanNodeSpec}

theorem validateEdgeIdentity_ok
    {edge : PlanEdgeSpec} (h : validateEdgeIdentity nodeByID edge = .ok ()) :
    edge.source ∈ nodeByID.keys ∧ edge.target ∈ nodeByID.keys ∧
      edge.source ≠ edge.target ∧ knownTrigger edge.on := by
  unfold validateEdgeIdentity at h
  split_ifs at h with h1 h2 h3 h4
  refine ⟨?_, ?_, h4, ?_⟩
  · simpa [mem_keys_iff, SortedMap.contains, Option.isSome_iff_ne_none] using h2
  · simpa [mem_keys_iff, SortedMap.contains, Option.isSome_iff_ne_none] using h3
  · cases hon : edge.on <;> simp_all [knownTrigger]

variable {edges : List PlanEdgeSpec}

theorem validateEdgesFrom_ok :
    ∀ {seen : List String}, v.validateEdgesFrom nodeByID seen edges = .ok () →
      ∀ edge ∈ edges, validateEdgeIdentity nodeByID edge = .ok () := by
  induction edges with
  | nil => simp
  | cons head rest ih =>
    intro seen h edge hedge
    obtain ⟨next, hhead, hrest⟩ := bind_ok h
    rcases mem_cons.mp hedge with rfl | hedge
    · obtain ⟨⟨⟩, hid, _⟩ := bind_ok hhead
      exact hid
    · exact ih hrest edge hedge

end Validator

theorem mem_edgesAt_groupEdges (endpoint : PlanEdgeSpec → String) (edges : List PlanEdgeSpec)
    (nodeID : String) (edge : PlanEdgeSpec) :
    edge ∈ edgesAt (groupEdges endpoint edges) nodeID ↔ edge ∈ edges ∧ endpoint edge = nodeID := by
  rw [edgesAt, groupEdges, get?_foldl_insert]
  cases hfind : edges.reverse.find? fun e => endpoint e = nodeID with
  | none =>
    have hnone : ∀ e ∈ edges, endpoint e ≠ nodeID := by simpa using hfind
    simpa using hnone edge
  | some last =>
    have hlast : endpoint last = nodeID := by simpa using find?_some hfind
    simp [hlast, mem_insertionSort]

/-- What `Validate` ensures of the plan that it returns. -/
structure Validated (plan : ExecutablePlan) : Prop where
  scope : validateRunPlanScope plan.spec = .ok ()
  populated : plan.spec.nodes ≠ []
  /-- The node map holds the nodes of the spec under their ids. -/
  nodes : ∀ id node, plan.nodeByID.get? id = some node ↔ node ∈ plan.spec.nodes ∧ node.nodeID = id
  nodup : (plan.spec.nodes.map PlanNodeSpec.nodeID).Nodup
  named : ∀ node ∈ plan.spec.nodes, node.nodeID ≠ "" ∧ node.run.runID ≠ ""
  joins : ∀ node ∈ plan.spec.nodes, node.policy.join.known
  ends : ∀ edge ∈ plan.spec.edges,
    edge.source ∈ plan.nodeByID.keys ∧ edge.target ∈ plan.nodeByID.keys
  into : ∀ id edge, edge ∈ edgesAt plan.edgesByTo id ↔ edge ∈ plan.spec.edges ∧ edge.target = id
  /-- The order lists every node once. -/
  order : plan.order.Perm plan.nodeByID.keys
  /-- The source of an edge comes before its target. -/
  ordered : ∀ l id r, plan.order = l ++ id :: r →
    ∀ edge ∈ plan.spec.edges, edge.target = id → edge.source ∈ l
  size : (plan.spec.nodes.length : Int) ≤ (normalizePolicy plan.spec.policy).maxNodes
  depth : ∀ id chain, id ∈ plan.order →
    IsChain (fun a b => ∃ edge ∈ plan.spec.edges, edge.source = a ∧ edge.target = b)
      (id :: chain) →
    (chain.length + 1 : Int) ≤ (normalizePolicy plan.spec.policy).maxDepth

theorem validatePlanEnvelope_ok {policy : PlanPolicy} (h : validatePlanEnvelope spec = .ok policy) :
    validateRunPlanScope spec = .ok () ∧ policy = normalizePolicy spec.policy ∧
      spec.nodes ≠ [] ∧ (spec.nodes.length : Int) ≤ (normalizePolicy spec.policy).maxNodes := by
  obtain ⟨⟨⟩, hscope, h⟩ := bind_ok h
  simp only at h
  split_ifs at h with h1 h2 h3
  cases h
  exact ⟨hscope, rfl, fun hnil => h2 (hnil ▸ rfl), Int.not_lt.mp h3⟩

variable {order : List String} {nodeByID : SortedMap String PlanNodeSpec}
  {edges : List PlanEdgeSpec}

theorem topoSort_ok (h : topoSort nodeByID edges = .ok order) :
    order = kahn nodeByID.keys (edges.map PlanEdgeSpec.ends) ∧
      order.length = nodeByID.keys.length := by
  unfold topoSort at h
  simp only at h
  split_ifs at h with hlen
  cases h
  exact ⟨rfl, not_not.mp hlen⟩

/-- An edge leads from `a` to `b`. -/
def Depends (edges : List PlanEdgeSpec) (a b : String) : Prop :=
  ∃ edge ∈ edges, edge.source = a ∧ edge.target = b

theorem mem_targets {a b : String} :
    b ∈ (edgesAt (groupEdges PlanEdgeSpec.source edges) a).map PlanEdgeSpec.target ↔
      Depends edges a b := by
  simp only [mem_map, mem_edgesAt_groupEdges, Depends, and_assoc]

/-- The sources of the edges into a node come before it. -/
def Forward (edges : List PlanEdgeSpec) (order : List String) : Prop :=
  ∀ l id r, order = l ++ id :: r → ∀ edge ∈ edges, edge.target = id → edge.source ∈ l

theorem Forward.target_after (h : Forward edges order) (hnodup : order.Nodup)
    (hmem : ∀ edge ∈ edges, edge.target ∈ order) {l r : List String} {id : String}
    (hsplit : order = l ++ id :: r) : ∀ edge ∈ edges, edge.source = id → edge.target ∈ r := by
  rintro edge hedge rfl
  have hfresh : edge.source ∉ l := fun hl =>
    disjoint_of_nodup_append (hsplit ▸ hnodup) hl mem_cons_self
  have htarget := hmem edge hedge
  rw [hsplit] at htarget
  rcases mem_append.mp htarget with hl | hr
  · -- The target would come before its own source.
    obtain ⟨l₁, l₂, rfl⟩ := append_of_mem hl
    rw [append_assoc, cons_append] at hsplit
    exact absurd (mem_append_left _ (h l₁ _ _ hsplit edge hedge rfl)) hfresh
  · rcases mem_cons.mp hr with heq | hr
    · exact absurd (h l _ r hsplit edge hedge heq) hfresh
    · exact hr

theorem Forward.acyclic (h : Forward edges order)
    (hmem : ∀ edge ∈ edges, edge.target ∈ order) (id : String) :
    ¬ Relation.TransGen (Depends edges) id id := by
  refine acyclic_of_forward order ?_ ?_ id
  · rintro _ _ ⟨edge, hedge, -, rfl⟩
    exact hmem edge hedge
  · rintro l b r hsplit _ ⟨edge, hedge, rfl, htarget⟩
    exact h l b r hsplit edge hedge htarget

theorem Forward.chain_le_maxDepth (h : Forward edges order)
    (hnodup : order.Nodup) (hmem : ∀ edge ∈ edges, edge.target ∈ order) {id : String}
    {chain : List String} (hid : id ∈ order) (hchain : (id :: chain).IsChain (Depends edges)) :
    chain.length + 1 ≤ maxDepth order (groupEdges PlanEdgeSpec.source edges) := by
  refine Nat.succ_le_succ ((Nat.zero_add chain.length).symm.trans_le (chain_le_depthLoop order empty
    0 id chain (fun l x r hsplit y hy => ?_) hid (hchain.imp fun _ _ => mem_targets.mpr)))
  obtain ⟨edge, hedge, hx, rfl⟩ := mem_targets.mp hy
  exact h.target_after hnodup hmem hsplit edge hedge hx

theorem topoSort_topological
    (hends : ∀ edge ∈ edges, edge.source ∈ nodeByID.keys ∧ edge.target ∈ nodeByID.keys)
    (h : topoSort nodeByID edges = .ok order) :
    (order.Perm nodeByID.keys ∧ Forward edges order) ∧
      ∀ other, other.Perm nodeByID.keys ∧ Forward edges other → ¬ other < order := by
  obtain ⟨rfl, hlen⟩ := topoSort_ok h
  have hpairs : ∀ e ∈ edges.map PlanEdgeSpec.ends, e.2 ∈ nodeByID.keys := by
    simpa [PlanEdgeSpec.ends] using fun edge hedge => (hends edge hedge).2
  have hperm := kahn_perm hpairs hlen
  refine ⟨⟨hperm, fun l id r hsplit edge hedge => ?_⟩, fun other ⟨hother, hforward⟩ => ?_⟩
  · exact kahn_ordered hpairs hsplit edge.ends (mem_map_of_mem hedge)
  · refine kahn_least hpairs (hother.trans hperm.symm) fun l b r hsplit e he => ?_
    obtain ⟨edge, hedge, rfl⟩ := mem_map.mp he
    exact hforward l b r hsplit edge hedge

theorem Validator.validateEdges_ok {v : Validator}
    {groups : SortedMap String (List PlanEdgeSpec) × SortedMap String (List PlanEdgeSpec)}
    (h : v.validateEdges spec nodeByID = .ok groups) :
    groups = (groupEdges PlanEdgeSpec.source spec.edges, groupEdges PlanEdgeSpec.target spec.edges) ∧
      ∀ edge ∈ spec.edges, edge.source ∈ nodeByID.keys ∧ edge.target ∈ nodeByID.keys := by
  obtain ⟨⟨⟩, hcheck, hgroups⟩ := bind_ok h
  cases hgroups
  refine ⟨rfl, fun edge hedge => ?_⟩
  have hid := validateEdgeIdentity_ok (validateEdgesFrom_ok hcheck edge hedge)
  exact ⟨hid.1, hid.2.1⟩

theorem Validator.validate_ok {v : Validator} {plan : ExecutablePlan}
    (h : v.validate spec = .ok plan) : plan.spec = spec ∧ Validated plan := by
  obtain ⟨policy, henv, h⟩ := bind_ok h
  obtain ⟨nodeByID, hnodes, h⟩ := bind_ok h
  obtain ⟨⟨edgesByFrom, edgesByTo⟩, hedges, h⟩ := bind_ok h
  obtain ⟨order, htopo, h⟩ := bind_ok h
  obtain ⟨⟨⟩, _, h⟩ := bind_ok h
  split_ifs at h with hdepth
  cases h
  obtain ⟨⟨⟩, hends⟩ := validateEdges_ok hedges
  obtain ⟨hscope, rfl, hpopulated, hsize⟩ := validatePlanEnvelope_ok henv
  obtain ⟨hget, hnodup, hvalid⟩ := validateNodesFrom_ok hnodes
  obtain ⟨⟨hperm, hordered⟩, -⟩ := topoSort_topological hends htopo
  have hident : ∀ node ∈ spec.nodes, validateNodeIdentity node = .ok () := by
    intro node hnode
    obtain ⟨⟨⟩, hid, _⟩ := bind_ok (hvalid node hnode).2
    exact hid
  have hnd : order.Nodup := hperm.nodup_iff.mpr nodeByID.keys_nodup
  refine ⟨rfl, hscope, hpopulated, ?_, hnodup, ?_, ?_, hends, ?_, hperm, hordered, hsize, ?_⟩
  · intro id node
    rw [hget]
    simp
  · intro node hnode
    have hid := validateNodeIdentity_ok (hident node hnode)
    exact ⟨hid.1, hid.2.1⟩
  · intro node hnode
    exact (validateNodeIdentity_ok (hident node hnode)).2.2
  · intro id edge
    exact mem_edgesAt_groupEdges PlanEdgeSpec.target spec.edges id edge
  · intro id chain hid hchain
    have hle := hordered.chain_le_maxDepth hnd (fun edge hedge => hperm.mem_iff.mpr
      (hends edge hedge).2) hid hchain
    have hmax := Int.not_lt.mp hdepth
    show (chain.length + 1 : Int) ≤ (normalizePolicy spec.policy).maxDepth
    omega

/-- `ApplyDelta`: the spec with the delta appended, validated as a whole. -/
def applyDelta (v : Validator) (current : RunPlanSpec) (delta : PlanDelta)
    (expansionCount : Int) : Except Err (RunPlanSpec × ExecutablePlan) := do
  let policy := normalizePolicy current.policy
  let totalNodes := current.nodes.length + delta.nodes.length
  if expansionCount ≥ policy.maxExpansions then
    errorf .invalidRunPlan ("expansion count exceeds max " ++ toString policy.maxExpansions)
  else if totalNodes > 2147483647 then errorf .invalidRunPlan "too many nodes"
  else if (totalNodes : Int) > policy.maxNodes then
    errorf .invalidRunPlan ("delta exceeds max nodes " ++ toString policy.maxNodes)
  else
    let next := { current with
      nodes := current.nodes ++ delta.nodes
      edges := current.edges ++ delta.edges }
    let plan ← v.validate next
    .ok (next, plan)

/-- A validator without catalogs, whose expressions all compile. -/
def openValidator : Validator where
  expressions := some fun _ => none
  capabilities := none
  artifactSchemas := none
  validateRawSchemaSyntax := fun _ => none
  validateRawSchema := fun _ _ => none

end AgentOS.Plan
