import AgentOS.Agent.Delegation

/-!
# Delegated children

A child is started with an input that its parent builds, under the workflow id
`delegate-<tool call id>`.
-/

namespace AgentOS.Agent

open Kit List Locals

/-! ## Parents and children -/

def ownTools (tools : List ToolDef) : List ToolDef := tools.filter (·.name ≠ delegateToolName)

def discovered : Act → List ToolDef
  | .prepared _ _ mcp => ownTools mcp.tools
  | _ => []

/-- A child finds no tools at the MCP servers. -/
def Isolated (w : World) (a : Act) : Prop := 2 ≤ w.st.frames.length → discovered a = []

instance (w : World) (a : Act) : Decidable (Isolated w a) :=
  inferInstanceAs (Decidable (_ → discovered a = []))

/-- The execution `c` runs the delegation `d` that `p` waits for.  If the children are isolated,
it has the tools that it was given. -/
structure Grants (isolated : Prop) (c p : Frame) (d : Delegation) : Prop where
  pending : p.pending = some d
  start : c.start = .agent d.input
  policy : d.input.continuePolicy = {}
  tools : d.input.tools = delegateChildTools p.domainTools d.args.tools
  unprepared : c.round = none → c.domainTools = []
  prepared : isolated → c.round ≠ none → ownTools c.domainTools = ownTools d.input.tools

def Granted (isolated : Prop) (stack : List Frame) : Prop :=
  stack.IsChain fun c p => ∃ d, Grants isolated c p d

section Chains

variable {isolated : Prop} {s : List Frame}

theorem Granted.modifyHead {g : Frame → Frame} (h : Granted isolated s)
    (hg : ∀ c p d rest, s = c :: p :: rest → Grants isolated c p d → Grants isolated (g c) p d) :
    Granted isolated (s.modifyHead g) := by
  match s, h with
  | [], _ => exact .nil
  | [c], _ => exact .singleton _
  | c :: p :: rest, h =>
    obtain ⟨⟨d, hd⟩, hrest⟩ := isChain_cons_cons.mp h
    exact .cons_cons ⟨d, hg c p d rest rfl hd⟩ hrest

end Chains

section Steps

variable {isolated : Prop} {E : Host} {root : Start} {w : World} {a : Act}

variable {rest : List Frame}

theorem Granted.no_continue {input : AgentWorkflowInput} {p : Frame}
    (h : Granted isolated w.st.stack) (hguard : Guard E root w (.continueAsNew input))
    (hstack : w.st.stack = w.st.top.core :: p :: rest) : False := by
  obtain ⟨old, payload, v, hold, -, hdecides⟩ := hguard
  have hcontinue := hdecides.decision
  rw [hstack] at h
  obtain ⟨⟨d, hd⟩, -⟩ := isChain_cons_cons.mp h
  obtain rfl : d.input = old := by
    have hstart : w.st.top.start = .agent d.input := hd.start
    rw [hstart] at hold
    exact Start.agent.inj hold
  rw [hd.policy] at hcontinue
  cases hcontinue

theorem Granted.step (h : Granted isolated w.st.stack) (hguard : Guard E root w a)
    (hrunning : Running w a) (hisolated : isolated → Isolated w a) :
    Granted isolated (w.st.step a).stack := by
  rw [stack_step]
  cases a with
  | begin start =>
    rcases hguard with ⟨hframes, -, -⟩ | ⟨d, -, hpending, rfl, hd⟩
    · have hnone : w.st.stack = [] := by
        rw [stack, hframes]
        rfl
      rw [hnone]
      exact .singleton _
    · obtain ⟨rest, hstack⟩ := stack_cons (length_pos_of_pending hpending)
      rw [hstack] at h ⊢
      refine .cons_cons ⟨d, hpending, rfl, hd.policy, hd.tools, fun _ => rfl, ?_⟩ h
      exact fun _ hround => absurd rfl hround
  | prepared messages tools mcp =>
    refine h.modifyHead fun c p d rest hstack hd => ?_
    obtain rfl := eq_top_core hrunning (congrArg head? hstack)
    refine ⟨hd.pending, hd.start, hd.policy, hd.tools, by rintro ⟨⟩, fun hiso _ => ?_⟩
    have hlength : w.st.frames.length = rest.length + 2 := by
      simpa [stack] using congrArg length hstack
    have hnone : ownTools mcp.tools = [] := hisolated hiso (by omega)
    have hstart : w.st.top.start = .agent d.input := hd.start
    rw [hguard.2, ownTools, filter_append, hstart]
    change _ ++ ownTools mcp.tools = _
    rw [hnone, append_nil]
    rfl
  | startLLM round call =>
    refine h.modifyHead fun c p d rest hstack hd => ?_
    obtain rfl := eq_top_core hrunning (congrArg head? hstack)
    obtain ⟨-, ⟨r, hr, -⟩, -, -⟩ := hguard
    refine ⟨hd.pending, hd.start, hd.policy, hd.tools, by rintro ⟨⟩,
      fun hiso _ => hd.prepared hiso ?_⟩
    change w.st.top.round ≠ none
    rw [hr]
    exact Option.some_ne_none r
  | llmStep output =>
    exact h.modifyHead fun c p d _ _ hd =>
      ⟨hd.pending, hd.start, hd.policy, hd.tools, hd.unprepared, hd.prepared⟩
  | startChild d accepted =>
    cases accepted with
    | false => exact h
    | true =>
      exact h.modifyHead fun c p d _ _ hd =>
        ⟨hd.pending, hd.start, hd.policy, hd.tools, hd.unprepared, hd.prepared⟩
  | endChild outcome =>
    exact Granted.modifyHead h.tail fun c p d _ _ hd =>
      ⟨hd.pending, hd.start, hd.policy, hd.tools, hd.unprepared, hd.prepared⟩
  | continueAsNew input =>
    obtain ⟨rest, hstack⟩ := stack_cons hrunning
    cases rest with
    | nil =>
      rw [hstack]
      exact .singleton _
    | cons p rest => exact (h.no_continue hguard hstack).elim
  | _ => exact h

end Steps

/-! ## Tools -/

def requested : List Frame → Option (List ToolDef)
  | _ :: p :: _ => p.pending.map fun d => p.domainTools.filter fun tool => tool.name ∈ d.args.tools
  | _ => none

def offered : Act → List ToolDef
  | .startLLM _ call => ownTools call.tools
  | _ => []

/-- The model of a child is offered exactly the requested tools, and no others than all the
executions above it have. -/
def Confined (w : World) (a : Act) : Prop :=
  callsModel a = true → 2 ≤ w.st.frames.length →
    (requested w.st.frames).map ownTools = some (offered a) ∧
      ∀ p ∈ w.st.frames.tail, ∀ tool ∈ offered a, tool ∈ p.domainTools

instance (w : World) (a : Act) : Decidable (Confined w a) :=
  inferInstanceAs (Decidable (_ = true → _ → _ ∧ _))

def Equipped (f : Frame) : Prop :=
  f.round ≠ none → f.allTools = toolsWithDelegate f.budget f.domainTools

section Tools

variable {E : Host} {root : Start} {w : World} {a : Act}

theorem Equipped.step (h : ∀ f ∈ w.st.stack, Equipped f) (hguard : Guard E root w a)
    (hrunning : Running w a) : ∀ f ∈ (w.st.step a).stack, Equipped f := by
  have hnew : ∀ n start, Equipped (Frame.begin n start) := fun _ _ hround => absurd rfl hround
  have hbelow : ∀ f ∈ w.st.stack.tail, Equipped f := fun f hf => h f (mem_of_mem_tail hf)
  rw [stack_step]
  cases a with
  | begin start => exact forall_mem_cons.mpr ⟨hnew _ _, h⟩
  | prepared messages tools mcp => exact forall_modifyHead h (fun _ _ _ _ => rfl) fun _ _ hf => hf
  | startLLM round call =>
    refine forall_modifyHead h (fun f hf hequipped _ => hequipped ?_) fun _ _ hf => hf
    obtain rfl := eq_top_core hrunning hf
    obtain ⟨-, ⟨r, hr, -⟩, -, -⟩ := hguard
    change w.st.top.round ≠ none
    rw [hr]
    nofun
  | llmStep output => exact forall_modifyHead h (fun _ _ hf => hf) fun _ _ hf => hf
  | startChild d accepted =>
    cases accepted with
    | false => exact h
    | true => exact forall_modifyHead h (fun _ _ hf => hf) fun _ _ hf => hf
  | endChild outcome => exact forall_modifyHead hbelow (fun _ _ hf => hf) fun _ _ hf => hf
  | continueAsNew input => exact forall_mem_cons.mpr ⟨hnew _ _, hbelow⟩
  | _ => exact h

theorem ownTools_toolsWithDelegate (budget : DelegateBudget) (tools : List ToolDef) :
    ownTools (toolsWithDelegate budget tools) = ownTools tools := by
  unfold ownTools toolsWithDelegate
  split_ifs
  · simp [delegateToolDef]
  · simp

theorem Grants.subset {c p : Frame} {d : Delegation} (h : Grants True c p d) :
    ∀ tool ∈ ownTools c.domainTools, tool ∈ ownTools p.domainTools := by
  intro tool htool
  by_cases hround : c.round = none
  · rw [h.unprepared hround] at htool
    cases htool
  · rw [h.prepared trivial hround, h.tools, delegateChildTools_eq] at htool
    obtain ⟨hgiven, hname⟩ := mem_filter.mp htool
    exact mem_filter.mpr ⟨mem_of_mem_filter hgiven, hname⟩

theorem Granted.subset {c : Frame} {rest : List Frame} (h : Granted True (c :: rest)) :
    ∀ p ∈ rest, ∀ tool ∈ ownTools c.domainTools, tool ∈ ownTools p.domainTools := by
  let Narrows : Frame → Frame → Prop := fun c p =>
    ∀ tool ∈ ownTools c.domainTools, tool ∈ ownTools p.domainTools
  have : Trans Narrows Narrows Narrows := ⟨fun h h' tool htool => h' tool (h tool htool)⟩
  have hchain : (c :: rest).IsChain Narrows := h.imp fun c p ⟨d, hd⟩ => hd.subset
  exact (pairwise_cons.mp hchain.pairwise).1

theorem Granted.confined (h : Granted True w.st.stack) (hequipped : ∀ f ∈ w.st.stack, Equipped f)
    (hguard : Guard E root w a) : Confined w a := by
  intro hcalls htwo
  cases a with
  | startLLM round call =>
    obtain ⟨-, ⟨r, hr, -⟩, -, htools⟩ := hguard
    unfold top at hr htools
    unfold stack at h hequipped
    match hframes : w.st.frames, htwo with
    | c :: p :: rest, _ =>
      rw [hframes] at hr htools h hequipped
      have hround : c.core.round ≠ none := by
        change c.round ≠ none
        rw [show c.round = some r from hr]
        nofun
      have hall : c.allTools = toolsWithDelegate c.budget c.domainTools :=
        hequipped c.core mem_cons_self hround
      have hoffered : ownTools call.tools = ownTools c.domainTools := by
        rw [show call.tools = c.allTools from htools, hall, ownTools_toolsWithDelegate]
      obtain ⟨⟨d, hd⟩, -⟩ := isChain_cons_cons.mp h
      have hgiven : ownTools c.domainTools = ownTools d.input.tools := hd.prepared trivial hround
      refine ⟨?_, fun p' hp' tool htool => ?_⟩
      · have hpending : p.pending = some d := hd.pending
        have htools : d.input.tools = delegateChildTools p.domainTools d.args.tools := hd.tools
        change (p.pending.map _).map ownTools = some (ownTools call.tools)
        rw [hpending, hoffered, hgiven, htools, delegateChildTools_eq]
        rfl
      · change tool ∈ ownTools call.tools at htool
        rw [hoffered] at htool
        exact mem_of_mem_filter (h.subset p'.core (mem_map_of_mem hp') tool htool)
  | _ => cases hcalls

end Tools

/-- In every run whose children find no tools at the MCP servers, each child is offered only the
tools that it was given. -/
theorem delegated_tools_confined (E : Host) (n : Nat) (root : Start)
    (h : Taken Isolated (treeRun E n root).log) : Taken Confined (treeRun E n root).log := by
  obtain ⟨hguarded, hrunning, hchained⟩ := treeRun_sound E n root
  have hstart : Granted True ({} : Locals).stack ∧ ∀ f ∈ ({} : Locals).stack, Equipped f :=
    ⟨.nil, fun f hf => absurd hf not_mem_nil⟩
  refine ((hguarded.and (hrunning.and h)).run (I := fun w => Granted True w.st.stack ∧
    ∀ f ∈ w.st.stack, Equipped f) hchained hstart ?_).2
  rintro w a - ⟨hgranted, hequipped⟩ ⟨hguard, hrunning, hisolated⟩
  exact ⟨⟨hgranted.step hguard hrunning fun _ => hisolated, Equipped.step hequipped hguard hrunning⟩,
    hgranted.confined hequipped hguard⟩

def functionTool (name : String) : ToolDef := { type := "function", name }

/-- A root that may search and fetch, and that has an MCP server. -/
def toolRoot : Start :=
  .agent {
    taskQueues := agentQueues
    tools := [functionTool "search", functionTool "fetch"]
    mcpServerConfigs := [{ name := "server" }] }

/-- A host whose MCP servers offer some tools.  Its model delegates, and requests the search. -/
def toolHost (mcp : List ToolDef) : Host :=
  { modelHost (delegatingModel false) with
    activity := fun _ => some (.ok { ensureConnected := some fun _ => (mcp, []) })
    parseDelegateArgs := fun _ => .ok { tools := ["search"] } }

/-- The MCP server of the root offers nothing, and its children may only search. -/
theorem delegated_tools_confined_search :
    Taken Isolated (treeRun (toolHost []) 2 toolRoot).log ∧
      Taken Confined (treeRun (toolHost []) 2 toolRoot).log := by
  have hisolated : Taken Isolated (treeRun (toolHost []) 2 toolRoot).log := by decide +kernel
  exact ⟨hisolated, delegated_tools_confined (toolHost []) 2 toolRoot hisolated⟩

/-- The MCP server of the root offers a tool.  A child that was only given the search connects to
it again, and its model is offered the tool. -/
theorem delegated_tools_unconfined :
    ¬ Taken Confined (treeRun (toolHost [functionTool "deploy"]) 2 toolRoot).log := by
  decide +kernel

/-! ## Workflow ids -/

/-- Every delegation starts, and its result is that of a child with its own input. -/
def Independent (w : World) : Act → Prop
  | .startChild _ accepted => accepted = true
  | .endChild outcome => ∃ c p rest d, w.st.frames = c :: p :: rest ∧ p.pending = some d ∧
      c.start = .agent d.input ∧ ∀ result, outcome = .ok result → result.Of c
  | _ => True

def Foreign.startedID : Foreign → Option String
  | .start toolCallID => some toolCallID
  | .close _ _ => none

def startedIDs : Act → List String
  | .startChild d true => [d.tc.id]
  | .deliver _ others => others.filterMap Foreign.startedID
  | _ => []

def usedIDs (log : List (Locals × Act)) : List String := log.flatMap fun e => startedIDs e.2

def delegatedID : Act → Option String
  | .startChild d _ => some d.tc.id
  | _ => none

/-- The tool call id of a delegation was not used before, in any run. -/
def Fresh (w : World) (a : Act) : Prop := ∀ id ∈ (delegatedID a).toList, id ∉ usedIDs w.log

instance (w : World) (a : Act) : Decidable (Fresh w a) :=
  inferInstanceAs (Decidable (∀ id ∈ _, _))

def Listed (children : List ChildExecution) (ids : List String) : Prop :=
  ∀ child ∈ children, ∃ id ∈ ids, child.workflowID = delegateWorkflowID id

section Ids

variable {children : List ChildExecution} {ids ids' : List String} {E : Host} {root : Start}
  {w : World} {a : Act}

theorem Listed.mono (h : Listed children ids) (hsub : ids ⊆ ids') : Listed children ids' :=
  fun child hchild => (h child hchild).imp fun _ hid => ⟨hsub hid.1, hid.2⟩

theorem Listed.start {id : String} {owner : Owner} {phase : Phase} (h : Listed children ids) :
    Listed (⟨delegateWorkflowID id, owner, phase⟩ :: children) (id :: ids) :=
  forall_mem_cons.mpr ⟨⟨id, mem_cons_self, rfl⟩, h.mono (subset_cons_self id ids)⟩

theorem Listed.close (h : Listed children ids) (workflowID : String) (owner : Owner)
    (phase : Phase) : Listed (closeChild children workflowID owner phase) ids := by
  intro child hchild
  obtain ⟨old, hold, rfl⟩ := mem_map.mp hchild
  obtain ⟨id, hid, heq⟩ := h old hold
  refine ⟨id, hid, ?_⟩
  split_ifs <;> exact heq

theorem Listed.foreign (h : Listed children ids) (others : List Foreign) :
    Listed (others.foldl Foreign.apply children) (others.filterMap Foreign.startedID ++ ids) := by
  induction others generalizing children ids with
  | nil => exact h
  | cons other others ih =>
    cases other with
    | start id =>
      have hstarted : Listed (Foreign.apply children (.start id)) (id :: ids) := by
        change Listed (if _ then _ else _) _
        split_ifs
        · exact h.mono (subset_cons_self id ids)
        · exact h.start
      refine (ih hstarted).mono fun id' hid' => ?_
      simp only [mem_append, mem_cons] at hid'
      simp only [filterMap_cons, Foreign.startedID, mem_append, mem_cons]
      tauto
    | close id phase => exact ih (h.close _ _ _)

theorem Listed.step (h : Listed w.st.children (usedIDs w.log)) :
    Listed (w.st.step a).children (usedIDs ((w.st, a) :: w.log)) := by
  cases a with
  | deliver arrivals others => exact h.foreign others
  | startChild d accepted =>
    cases accepted with
    | false => exact h
    | true => exact h.start
  | endChild outcome =>
    unfold step
    dsimp only
    split
    · exact h
    · exact h.close _ _ _
  | _ => exact h

theorem Listed.not_refused (h : Listed children ids) {id : String} (hid : id ∉ ids) :
    refuses children (delegateWorkflowID id) = false := by
  have hnone : children.find? (·.workflowID = delegateWorkflowID id) = none := by
    refine find?_eq_none.mpr fun child hchild => ?_
    obtain ⟨id', hid', heq⟩ := h child hchild
    rw [heq, delegateWorkflowID, delegateWorkflowID, decide_eq_true_iff, String.append_right_inj]
    rintro rfl
    exact hid hid'
  rw [refuses, hnone]

theorem Granted.independent (h : Granted False w.st.stack)
    (hlisted : Listed w.st.children (usedIDs w.log)) (hguard : Guard E root w a)
    (hfresh : Fresh w a) : Independent w a := by
  cases a with
  | startChild d accepted =>
    rw [hguard.2.2, hlisted.not_refused (hfresh d.tc.id mem_cons_self)]
    rfl
  | endChild outcome =>
    obtain ⟨htwo, hresult⟩ := hguard
    unfold stack at h
    unfold top at hresult
    match hframes : w.st.frames, htwo with
    | c :: p :: rest, _ =>
      rw [hframes] at h hresult
      obtain ⟨⟨d, hd⟩, -⟩ := isChain_cons_cons.mp h
      exact ⟨c, p, rest, d, hframes, hd.pending, hd.start, hresult⟩
  | _ => trivial

end Ids

/-- In every run whose delegations have fresh tool call ids, no delegation depends on another. -/
theorem delegations_independent (E : Host) (n : Nat) (root : Start)
    (h : Taken Fresh (treeRun E n root).log) : Taken Independent (treeRun E n root).log := by
  obtain ⟨hguarded, hrunning, hchained⟩ := treeRun_sound E n root
  have hstart : Granted False ({} : Locals).stack ∧ Listed ({} : Locals).children (usedIDs []) :=
    ⟨.nil, fun child hchild => absurd hchild not_mem_nil⟩
  refine ((hguarded.and (hrunning.and h)).run (I := fun w => Granted False w.st.stack ∧
    Listed w.st.children (usedIDs w.log)) hchained hstart ?_).2
  rintro w a - ⟨hgranted, hlisted⟩ ⟨hguard, hrunning, hfresh⟩
  exact ⟨⟨hgranted.step hguard hrunning False.elim, hlisted.step⟩,
    hgranted.independent hlisted hguard hfresh⟩

/-- A host whose model delegates the calls `1` and `2`, while other runs delegate too. -/
def sharedHost (others : List Foreign) : Host :=
  { modelHost (delegatingModel false) with
    others := fun w => if w.log.length = 1 then others else [] }

/-- Another run delegates the call `3`. -/
theorem delegations_independent_shared :
    Taken Fresh (treeRun (sharedHost [.start "3"]) 2 plainRoot).log ∧
      Taken Independent (treeRun (sharedHost [.start "3"]) 2 plainRoot).log := by
  have hfresh : Taken Fresh (treeRun (sharedHost [.start "3"]) 2 plainRoot).log := by decide +kernel
  exact ⟨hfresh, delegations_independent (sharedHost [.start "3"]) 2 plainRoot hfresh⟩

def refused : Act → Bool
  | .startChild _ false => true
  | _ => false

/-- Another run delegates the call `1` first.  The delegation of this run is refused then. -/
theorem delegations_interfere :
    ¬ Taken Independent (treeRun (sharedHost [.start "1"]) 2 plainRoot).log := by
  intro h
  have haccepted := h.imp (D := fun _ a => refused a = false) fun w a ha => by
    cases a with
    | startChild d accepted =>
      obtain rfl : accepted = true := ha
      rfl
    | _ => rfl
  revert haccepted
  decide +kernel

end AgentOS.Agent
