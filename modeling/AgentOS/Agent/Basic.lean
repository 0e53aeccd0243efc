import AgentOS.Core.Basic
import AgentOS.Kit.Logged

/-!
# Conversations

The messages and tools of `internal/entity`, and what the workflows of
`internal/agentfw/orchestration` compute from them outside their loops.
-/

namespace AgentOS.Agent

open Kit

/-! ## Messages -/

/-- `MessageRole`.  `other` is a string outside the declared constants. -/
inductive MessageRole where
  | user
  | assistant
  | tool
  | system
  | other (name : String)
  deriving DecidableEq

/-- `ToolCall`, with the fields of its `ToolCallFunction`. -/
structure ToolCall where
  id : String
  type : String := "function"
  name : String
  arguments : String := ""

structure Message where
  role : MessageRole
  (content toolCallID : String := "")
  toolCalls : List ToolCall := []

structure LLMConfig where
  (provider model : String := "")
  maxTokens : Int := 0
  temperature : Rat := 0

/-- `ToolDef`, with the fields of its `ToolFuncDef`. -/
structure ToolDef where
  (type name : String)
  description : String := ""
  parameters : Json := .null
  deriving DecidableEq

structure MCPServerConfig where
  name : String
  (transport command : String := "")
  args : List String := []
  env : List (String × String) := []
  url : String := ""

structure Usage where
  (promptTokens completionTokens totalTokens : Int := 0)

/-! ## Tool call pairing -/

structure ToolCallValidationResult where
  valid : Bool
  orphanedIDs : List String
  unansweredIDs : List String

def collectCallIDs (messages : List Message) : List (String × Bool) :=
  messages.foldl (fun callIDs m =>
    if m.role = .assistant then
      m.toolCalls.foldl (fun callIDs tc => mapSet callIDs tc.id false) callIDs
    else callIDs) []

def markResults (messages : List Message) (callIDs : List (String × Bool)) : List (String × Bool) :=
  messages.foldl (fun callIDs m =>
    if m.role = .tool ∧ m.toolCallID ≠ "" ∧ (mapGet callIDs m.toolCallID).isSome then
      mapSet callIDs m.toolCallID true
    else callIDs) callIDs

def collectOrphanedToolResults (messages : List Message) (callIDs : List (String × Bool)) :
    List String :=
  messages.filterMap fun m =>
    if m.role = .tool ∧ m.toolCallID ≠ "" ∧ mapGet callIDs m.toolCallID = none then
      some m.toolCallID
    else none

def collectUnansweredToolCalls (callIDs : List (String × Bool)) : List String :=
  callIDs.filterMap fun entry => if entry.2 then none else some entry.1

def validateToolCallPairing (messages : List Message) : ToolCallValidationResult :=
  let callIDs := markResults messages (collectCallIDs messages)
  let orphaned := collectOrphanedToolResults messages callIDs
  let unanswered := collectUnansweredToolCalls callIDs
  { valid := orphaned.isEmpty && unanswered.isEmpty
    orphanedIDs := orphaned
    unansweredIDs := unanswered }

def filterOrphanedToolResults (messages : List Message) (orphanSet : List String) : List Message :=
  messages.filter fun m => !(m.role = .tool && m.toolCallID ∈ orphanSet)

def stripUnansweredToolCalls (m : Message) (unansweredSet : List String) : Option Message :=
  if m.role ≠ .assistant then some m
  else
    let kept := m.toolCalls.filter fun tc => tc.id ∉ unansweredSet
    if kept = [] ∧ m.content = "" then none
    else some { m with toolCalls := kept }

def repairToolCallPairing (messages : List Message) : List Message :=
  let result := validateToolCallPairing messages
  if result.valid then messages
  else
    (filterOrphanedToolResults messages result.orphanedIDs).filterMap
      (stripUnansweredToolCalls · result.unansweredIDs)

/-! ## Preparation -/

structure PrepareInput where
  (accountID systemPrompt message : String)
  history : List Message
  tools : List ToolDef
  config : LLMConfig
  mcpServerConfigs : List MCPServerConfig

def prepMessages (systemPrompt userMessage : String) (history : List Message) : List Message :=
  (if systemPrompt ≠ "" ∧ history = [] then [{ role := .system, content := systemPrompt }] else [])
    ++ history
    ++ (if userMessage ≠ "" then [{ role := .user, content := userMessage }] else [])

/-- The fields of `CreditAccount` that the preparation reads. -/
structure CreditAccount where
  balance : Rat
  currency : String

/-- The services behind `AgentActivities`, each of which may be missing. -/
structure AgentActivities where
  /-- `billingUC.GetBalance`. -/
  getBalance : Option (String → Except Err CreditAccount) := none
  /-- `mcpManager.EnsureConnected`. -/
  ensureConnected : Option (List MCPServerConfig → List ToolDef × List String) := none
  /-- A blob store is configured. -/
  blobStore : Bool := false

structure PrepBillingOutput where
  approved : Bool
  remaining : Int := 0
  currency : String := ""

structure PrepToolsOutput where
  tools : List ToolDef
  resolved : Int
  failed : List String

structure PrepMCPOutput where
  tools : List ToolDef := []
  failures : List String := []

structure PrepareOutput where
  messages : List Message
  tools : List ToolDef
  billing : Option PrepBillingOutput
  toolDefs : PrepToolsOutput
  warnings : List String

def PrepareOutput.canProceed (r : PrepareOutput) : Bool :=
  match r.billing with
  | none => true
  | some billing => billing.approved

variable (a : AgentActivities)

def prepBilling (accountID : String) : Except Err PrepBillingOutput :=
  match a.getBalance with
  | none => .ok { approved := true }
  | some getBalance =>
      if accountID = "" then .ok { approved := true }
      else
        match getBalance accountID with
        | .error err => .error (.within "prepBilling - GetBalance" err)
        | .ok acct =>
            if acct.balance ≤ 0 then .ok { approved := false, currency := acct.currency }
            else
              .ok { approved := true
                    remaining := acct.balance.num.tdiv acct.balance.den
                    currency := acct.currency }

def prepTools (tools : List ToolDef) : PrepToolsOutput :=
  let failed := tools.filterMap fun tool =>
    if tool.name = "" then some "<unnamed>"
    else if tool.type = "" then some tool.name
    else none
  { tools, resolved := tools.length - failed.length, failed }

def prepMCP (serverConfigs : List MCPServerConfig) : PrepMCPOutput :=
  match a.ensureConnected with
  | none => {}
  | some ensureConnected =>
      if serverConfigs.isEmpty then {}
      else
        let (tools, errs) := ensureConnected serverConfigs
        { tools, failures := errs }

def prepareActivity (input : PrepareInput) : PrepareOutput :=
  let billingRes := prepBilling a input.accountID
  let toolsOut := prepTools input.tools
  let mcpOut := prepMCP a input.mcpServerConfigs
  { messages := prepMessages input.systemPrompt input.message input.history
    tools := input.tools ++ mcpOut.tools
    billing := billingRes.toOption
    toolDefs := toolsOut
    warnings :=
      (match billingRes with
        | .error err => ["billing: " ++ err.text]
        | .ok _ => [])
      ++ toolsOut.failed.map (fun name => "tool: " ++ name ++ " missing name or type")
      ++ mcpOut.failures.map (fun failure => "mcp: " ++ failure) }

structure InitStreamOutput where
  messages : List Message
  tools : List ToolDef

def initStreamActivity (systemPrompt message : String) (history : List Message)
    (tools : List ToolDef) (serverConfigs : List MCPServerConfig) : InitStreamOutput where
  messages := prepMessages systemPrompt message history
  tools := tools ++ (prepMCP a serverConfigs).tools

/-!
## Inputs of the agent workflows

The inputs of `AgentWorkflow` and `StreamAgentWorkflow`, and the pure decisions that the loops
make from them: the task queues, the continue-as-new policy, and the delegation to a child.
-/

/-! ## Task queues -/

structure WorkflowTaskQueues where
  (nativeControl nativeLLM nativeTool stream : String := "")

/-- `validateWorkflowTaskQueues`, over fields of a label and a value.  `seen` has the fields
before. -/
def validateWorkflowTaskQueues (seen : List (String × String)) :
    List (String × String) → Except Err Unit
  | [] => .ok ()
  | (label, value) :: fields =>
      if value = "" then
        .error (.external ("agentfw workflow task queues: invalid: " ++ label ++
          " task queue is required"))
      else
        match mapGet seen value with
        | some existing =>
            .error (.external ("agentfw workflow task queues: invalid: " ++ existing ++ " and " ++
              label ++ " use the same task queue " ++ quoted value))
        | none => validateWorkflowTaskQueues (mapSet seen value label) fields

def WorkflowTaskQueues.validateNativeAgent (q : WorkflowTaskQueues) : Except Err Unit :=
  validateWorkflowTaskQueues [] [("native control", q.nativeControl),
    ("native llm activity", q.nativeLLM), ("native tool activity", q.nativeTool)]

def WorkflowTaskQueues.validateStreamAgent (q : WorkflowTaskQueues) : Except Err Unit :=
  validateWorkflowTaskQueues [] [("stream activity", q.stream), ("native control", q.nativeControl),
    ("native llm activity", q.nativeLLM), ("native tool activity", q.nativeTool)]

/-! ## Continue as new -/

structure ContinueAsNewPolicy where
  (historyLengthThreshold stateSizeThresholdByte stepThreshold wallClockThreshold : Int := 0)
  maxContinuations : Int := 0

structure ContinueAsNewSnapshot where
  (historyLength stateSizeBytes step elapsed continuationCnt : Int)

structure ContinueAsNewDecision where
  shouldContinue : Bool := false
  reason : String := ""

structure ContinuationPayload where
  (runID threadID : String := "")
  continuationCount : Int := 0
  previousWorkflowID : String := ""
  carriedStep : Int := 0
  (carriedAt initialRequestedAt : Time := 0)
  historyRef : String := ""

def thresholdExceeded (threshold value : Int) : Bool := 0 < threshold && threshold ≤ value

def evaluateContinueAsNew (policy : ContinueAsNewPolicy) (snapshot : ContinueAsNewSnapshot) :
    ContinueAsNewDecision :=
  if thresholdExceeded policy.maxContinuations snapshot.continuationCnt then {}
  else if thresholdExceeded policy.historyLengthThreshold snapshot.historyLength then
    { shouldContinue := true, reason := "history_length_threshold" }
  else if thresholdExceeded policy.stateSizeThresholdByte snapshot.stateSizeBytes then
    { shouldContinue := true, reason := "state_size_threshold" }
  else if thresholdExceeded policy.stepThreshold snapshot.step then
    { shouldContinue := true, reason := "step_threshold" }
  else if thresholdExceeded policy.wallClockThreshold snapshot.elapsed then
    { shouldContinue := true, reason := "wall_clock_threshold" }
  else {}

/-! ## Budgets -/

structure DelegateBudget where
  (depth maxDepth tokenBudget baselineSpent ownTokensSpent : Int := 0)

def defaultMaxDelegateDepth : Int := 3

namespace DelegateBudget

variable (b : DelegateBudget)

def depthLimit : Int := if b.maxDepth ≤ 0 then defaultMaxDelegateDepth else b.maxDepth

def allowed : Bool := b.depth < b.depthLimit

def tokensSpent : Int := int64 (b.baselineSpent + b.ownTokensSpent)

def exhausted : Bool := 0 < b.tokenBudget && b.tokenBudget ≤ b.tokensSpent

def check : Except Err Unit :=
  if !b.allowed then
    .error (.external ("delegate_depth_exhausted: depth " ++ toString b.depth ++ " of " ++
      toString b.depthLimit))
  else if b.exhausted then
    .error (.external ("delegate_token_budget_exhausted: spent " ++ toString b.tokensSpent ++
      " of " ++ toString b.tokenBudget ++ " tokens"))
  else .ok ()

def child : DelegateBudget where
  depth := b.depth + 1
  maxDepth := b.depthLimit
  tokenBudget := b.tokenBudget
  baselineSpent := b.tokensSpent

def spend (spent : Int) : DelegateBudget :=
  { b with ownTokensSpent := int64 (b.ownTokensSpent + spent) }

variable {b}

theorem check_ok (h : b.check = .ok ()) : b.depth < b.depthLimit ∧ b.exhausted = false := by
  unfold check at h
  split_ifs at h with hallowed hexhausted
  exact ⟨by simpa [allowed] using hallowed, Bool.eq_false_of_not_eq_true hexhausted⟩

theorem depthLimit_pos : 0 < b.depthLimit := by
  unfold depthLimit defaultMaxDelegateDepth
  split_ifs <;> omega

@[simp] theorem child_depthLimit : b.child.depthLimit = b.depthLimit :=
  if_neg (not_le.mpr depthLimit_pos)

@[simp] theorem child_tokensSpent : b.child.tokensSpent = b.tokensSpent := by
  change int64 (int64 (b.baselineSpent + b.ownTokensSpent) + 0) = int64 _
  rw [int64_add, Int.add_zero]

theorem spend_tokensSpent (spent : Int) :
    (b.spend spent).tokensSpent = int64 (b.tokensSpent + spent) := by
  change int64 (b.baselineSpent + int64 (b.ownTokensSpent + spent)) =
    int64 (int64 (b.baselineSpent + b.ownTokensSpent) + spent)
  rw [int64_add, Int.add_comm b.baselineSpent, int64_add]
  congr 1
  omega

end DelegateBudget

/-! ## The delegate tool -/

def delegateToolName : String := "delegate_to_agent"

def delegateProperty (type description : String) : Json :=
  .obj [("type", .str type), ("description", .str description)]

def delegateToolDef : ToolDef where
  type := "function"
  name := delegateToolName
  description := "Delegate a sub-task to a temporary sub-agent with custom instructions. The sub-agent runs in an isolated context and returns its result. Use this when a task requires a different focus, specialized expertise, or a separate context to avoid polluting the current conversation."
  parameters := .obj [ ("type", .str "object"),
    ("properties", .obj [
      ("system_prompt", delegateProperty "string" "System prompt defining the sub-agent's role, expertise, and behavioral guidelines"),
      ("task", delegateProperty "string" "The specific task for the sub-agent to accomplish. Be detailed and include all necessary context."),
      ("model", delegateProperty "string" "Optional: model to use for the sub-agent (e.g., gpt-4o-mini, claude-3-haiku). Defaults to the parent agent's model. Use a cheaper/faster model for simple sub-tasks."),
      ("tools", .obj [ ("type", .str "array"),
        ("items", .obj [("type", .str "string")]),
        ("description", .str "Optional: list of tool names the sub-agent can use (e.g., web_search, code_executor). When omitted the sub-agent runs as a pure LLM call with no tool access.")])]),
    ("required", .arr [.str "system_prompt", .str "task"])]

def toolsWithDelegate (budget : DelegateBudget) (domainTools : List ToolDef) : List ToolDef :=
  domainTools ++ if budget.allowed then [delegateToolDef] else []

def isDelegateToolCall (tc : ToolCall) : Bool := tc.name = delegateToolName

structure DelegateTaskInput where
  (systemPrompt task modelRef : String := "")
  tools : List String := []

/-! ## Workflow inputs -/

structure AgentWorkflowInput where
  (accountID projectID runID systemPrompt message : String := "")
  history : List Message := []
  tools : List ToolDef := []
  config : LLMConfig := {}
  mcpServerConfigs : List MCPServerConfig := []
  continuePolicy : ContinueAsNewPolicy := {}
  continuation : ContinuationPayload := {}
  awaitUserInput : Bool := false
  awaitUserInputTimeout : Int := 0
  taskQueues : WorkflowTaskQueues := {}
  delegate : DelegateBudget := {}

structure InitStreamInput where
  (accountID projectID sessionID runID systemPrompt message : String := "")
  history : List Message := []
  tools : List ToolDef := []
  config : LLMConfig := {}
  mcpServerConfigs : List MCPServerConfig := []
  taskQueues : WorkflowTaskQueues := {}
  delegate : DelegateBudget := {}

/-! ## Children -/

structure DelegateParent where
  budget : DelegateBudget
  (accountID projectID : String)
  config : LLMConfig
  domainTools : List ToolDef
  mcpConfigs : List MCPServerConfig
  taskQueues : WorkflowTaskQueues

def delegateChildConfig (parentCfg : LLMConfig) (modelRef : String) : LLMConfig :=
  { parentCfg with
    model := if modelRef = "" then parentCfg.model else modelRef
    temperature := 0 }

def delegateChildTools (parentTools : List ToolDef) (requested : List String) : List ToolDef :=
  if requested = [] then []
  else parentTools.filter fun tool => tool.name ∈ requested

theorem delegateChildTools_eq (parentTools : List ToolDef) (requested : List String) :
    delegateChildTools parentTools requested =
      parentTools.filter fun tool => tool.name ∈ requested := by
  unfold delegateChildTools
  split_ifs with h
  · simp [h]
  · rfl

def delegateChildWorkflowInput (runID : String) (delegateInput : DelegateTaskInput)
    (parent : DelegateParent) : AgentWorkflowInput where
  accountID := parent.accountID
  projectID := parent.projectID
  runID := runID
  systemPrompt := delegateInput.systemPrompt
  message := delegateInput.task
  config := delegateChildConfig parent.config delegateInput.modelRef
  tools := delegateChildTools parent.domainTools delegateInput.tools
  mcpServerConfigs := parent.mcpConfigs
  taskQueues := parent.taskQueues
  delegate := parent.budget.child

/-!
## Commands

The agent workflows and the step-queue workflow are told to pause, to resume and to cancel
through one signal channel.  What they do with a command differs, but both wait in the same
loop, `waitForResume` of `streaming.go`, while they are paused.
-/

/-- The payload of the signal `agent-command`. -/
inductive Command where
  | cancel
  | pause
  | resume
  | other (name : String)
  deriving DecidableEq

/-- The statement of the source that receives a command: the poll of a check, the loop of a
pause, or one of the same two in the wait for a user message. -/
inductive Reader where
  | poll
  | pause
  | wait
  | waitPause

/-- Why an execution does not go on: its code returned an error, the platform closed it, or it
is blocked as far as it was observed. -/
inductive Stop where
  | failed (err : Err)
  | closed (err : Err)
  | blocked

section Channel

variable {σ A : Type} {step : σ → A → σ}

structure CommandCh (step : σ → A → σ) where
  queue : σ → List Command
  receive : Reader → Command → A

variable (ch : CommandCh step) (blocks : Prog step Stop Unit)

def CommandCh.receiveAsync (reader : Reader) : Prog step Stop (Option Command) := do
  let s ← Prog.state
  match ch.queue s with
  | [] => pure none
  | c :: _ => do
      Prog.emit (ch.receive reader c)
      pure (some c)

def CommandCh.receiveBlocking (reader : Reader) : Prog step Stop Command := do
  match ← ch.receiveAsync reader with
  | some c => pure c
  | none => do
      blocks
      match ← ch.receiveAsync reader with
      | some c => pure c
      | none => Prog.fail .blocked

def waitForResume (reader : Reader) : Nat → Prog step Stop Bool
  | 0 => Prog.fail .blocked
  | n + 1 => do
      match ← ch.receiveBlocking blocks reader with
      | .resume => pure false
      | .cancel => pure true
      | _ => waitForResume reader n

variable {ch blocks} {w : Logged σ A} {reader : Reader} {I : Logged σ A → Prop}
  {X : Stop → Logged σ A → Prop}

theorem CommandCh.receiveAsync_yields {Q : Option Command → Logged σ A → Prop}
    (hnone : ch.queue w.st = [] → Q none w) (hsome : ∀ c rest, ch.queue w.st = c :: rest →
      Q (some c) (w.act step (ch.receive reader c))) : Yields (ch.receiveAsync reader) w Q X := by
  refine .read ?_
  cases hqueue : ch.queue w.st with
  | nil => exact hnone hqueue
  | cons c rest => exact hsome c rest hqueue

theorem CommandCh.receiveBlocking_yields {Q : Command → Logged σ A → Prop} (h : I w)
    (hblocks : ∀ v, I v → Yields blocks v (fun _ u => I u) X) (hblocked : ∀ v, I v → X .blocked v)
    (hreceive : ∀ v c rest, I v → ch.queue v.st = c :: rest →
      Q c (v.act step (ch.receive reader c))) :
    Yields (ch.receiveBlocking blocks reader) w Q X := by
  refine .bind (Q := fun answer v => match answer with
    | none => I v
    | some c => Q c v) (receiveAsync_yields (fun _ => h) fun c rest => hreceive w c rest h) ?_
  intro answer v hv
  cases answer with
  | some c => exact hv
  | none =>
    refine .bind (hblocks v hv) fun _ u hu => ?_
    refine .bind (Q := fun answer v => match answer with
      | none => I v
      | some c => Q c v) (receiveAsync_yields (fun _ => hu) fun c rest => hreceive u c rest hu) ?_
    intro answer v hv
    cases answer with
    | some c => exact hv
    | none => exact hblocked v hv

theorem waitForResume_yields {Q : Bool → Logged σ A → Prop}
    (hblocks : ∀ v, I v → Yields blocks v (fun _ u => I u) X) (hblocked : ∀ v, I v → X .blocked v)
    (hreceive : ∀ v c rest, I v → ch.queue v.st = c :: rest →
      match c with
      | .resume => Q false (v.act step (ch.receive reader c))
      | .cancel => Q true (v.act step (ch.receive reader c))
      | _ => I (v.act step (ch.receive reader c))) (n : Nat) (h : I w) :
    Yields (waitForResume ch blocks reader n) w Q X := by
  induction n generalizing w with
  | zero => exact hblocked w h
  | succ n ih =>
    refine .bind (Q := fun c v => match c with
      | .resume => Q false v
      | .cancel => Q true v
      | _ => I v) (CommandCh.receiveBlocking_yields h hblocks hblocked ?_) ?_
    · intro v c rest hv hqueue
      have hafter := hreceive v c rest hv hqueue
      cases c <;> exact hafter
    intro c v hv
    cases c with
    | resume | cancel => exact hv
    | pause | other name => exact ih hv

end Channel

end AgentOS.Agent
