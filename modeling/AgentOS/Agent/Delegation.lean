import AgentOS.Agent.Guards
import Mathlib.Data.List.Chain

/-!
# Budgets and depths of a delegation tree

A child gets the budget of its parent: one level deeper, with what was spent so far as its
baseline.  When it ends, the parent adds what the child reports.
-/

namespace AgentOS.Agent

open Kit List Option Locals DelegateBudget

/-!
## The stack of a tree

The executions of a tree are on one stack.  `Frame.core` is the part of a frame that delegations
depend on, and `stack_step` says how an action changes these parts.  `Ordered` says that each
execution is younger than those below it, so an id names one execution.
-/

def Frame.core (f : Frame) : Frame :=
  { f with status := {}, messages := [], baseRequestedAt := 0, commandCh := [], userMessageCh := [] }

def Locals.stack (l : Locals) : List Frame := l.frames.map Frame.core

variable {l : Locals} {d : Delegation} {g : Frame → Frame}

theorem stack_modifyTop {g c : Frame → Frame} (hg : ∀ f, (g f).core = c f.core) :
    (l.modifyTop g).stack = l.stack.modifyHead c := by
  unfold stack modifyTop
  cases l.frames with
  | nil => rfl
  | cons f frames => simp [hg]

theorem stack_quiet (hg : ∀ f, (g f).core = f.core) : (l.modifyTop g).stack = l.stack := by
  rw [stack_modifyTop (c := id) hg, modifyHead_id]
  rfl

theorem stack_tail (l : Locals) :
    ({ l with frames := l.frames.tail } : Locals).stack = l.stack.tail :=
  map_tail

theorem stack_cons (h : 0 < l.frames.length) : ∃ rest, l.stack = l.top.core :: rest := by
  obtain ⟨f, frames, hframes⟩ := exists_cons_of_length_pos h
  exact ⟨frames.map Frame.core, by simp [stack, top, hframes]⟩

theorem eq_top_core {f : Frame} (h : 0 < l.frames.length) (hf : l.stack.head? = some f) :
    f = l.top.core := by
  obtain ⟨rest, hstack⟩ := stack_cons h
  rw [hstack] at hf
  exact (some.inj hf).symm

theorem length_pos_of_pending (h : l.top.pending = some d) : 0 < l.frames.length := by
  refine length_pos_of_ne_nil fun hnil => ?_
  simp [top, hnil] at h

theorem stack_step (l : Locals) (a : Act) :
    (l.step a).stack = match a with
      | .begin start => Frame.begin l.executions start :: l.stack
      | .prepared _ tools _ => l.stack.modifyHead fun f =>
          { f with
            domainTools := tools, allTools := toolsWithDelegate f.budget tools, round := some 0 }
      | .startLLM round _ => l.stack.modifyHead ({ · with round := some (round + 1) })
      | .llmStep output => l.stack.modifyHead fun f =>
          { f with budget := f.budget.spend output.usage.totalTokens }
      | .startChild d true => l.stack.modifyHead ({ · with pending := some d })
      | .endChild outcome => l.stack.tail.modifyHead fun f =>
          { f with pending := none, budget := f.budget.spend (spentBy outcome) }
      | .continueAsNew input => Frame.begin l.executions (.agent input) :: l.stack.tail
      | _ => l.stack := by
  cases a with
  | deliver arrivals others => exact map_deliverTo (fun _ _ => rfl) _ _
  | setStatus status | receive reader c | receiveUser signal | restored messages | requested at_
  | repair | say message => exact stack_quiet fun _ => rfl
  | prepared messages tools mcp | startLLM round call | llmStep output =>
    exact stack_modifyTop fun _ => rfl
  | startChild d accepted =>
    cases accepted with
    | false => rfl
    | true => exact stack_modifyTop fun _ => rfl
  | endChild outcome =>
    let g : Frame → Frame := fun f =>
      { f with pending := none, budget := f.budget.spend (spentBy outcome) }
    exact (stack_modifyTop (g := g) fun _ => rfl).trans (congrArg _ (stack_tail l))
  | continueAsNew input => exact congrArg _ (stack_tail l)
  | _ => rfl

theorem executions_step (l : Locals) (a : Act) :
    (l.step a).executions = match a with
      | .begin _ => l.executions + 1
      | .continueAsNew _ => l.executions + 1
      | _ => l.executions := by
  cases a with
  | startChild d accepted => cases accepted <;> rfl
  | _ => rfl

/-! ## Accounts -/

def Locals.accounts (l : Locals) : List (Nat × DelegateBudget) :=
  l.stack.map fun f => (f.exec, f.budget)

def charge (spent : Int) (account : Nat × DelegateBudget) : Nat × DelegateBudget :=
  (account.1, account.2.spend spent)

theorem map_modifyHead {α β : Type} {s : List α} {g : α → α} {c : β → β} {field : α → β}
    (h : ∀ f, field (g f) = c (field f)) :
    (s.modifyHead g).map field = (s.map field).modifyHead c := by
  cases s with
  | nil => rfl
  | cons f rest => simp [h]

theorem map_modifyHead_quiet {α β : Type} {s : List α} {g : α → α} {field : α → β}
    (h : ∀ f, field (g f) = field f) : (s.modifyHead g).map field = s.map field := by
  rw [map_modifyHead (c := id) h, modifyHead_id]
  rfl

theorem forall_modifyHead {s : List Frame} {P Q : Frame → Prop}
    (h : ∀ f ∈ s, P f) (htop : ∀ f, s.head? = some f → P f → Q (g f))
    (hbelow : ∀ f ∈ s.tail, P f → Q f) : ∀ f ∈ s.modifyHead g, Q f := by
  cases s with
  | nil => exact fun f hf => absurd hf not_mem_nil
  | cons f rest =>
    rw [modifyHead_cons, forall_mem_cons]
    exact ⟨htop f rfl (h f mem_cons_self),
      fun f' hf' => hbelow f' hf' (h f' (mem_cons_of_mem f hf'))⟩

theorem accounts_step (l : Locals) (a : Act) :
    (l.step a).accounts = match a with
      | .begin start => (l.executions, start.delegate) :: l.accounts
      | .llmStep output => l.accounts.modifyHead (charge output.usage.totalTokens)
      | .endChild outcome => l.accounts.tail.modifyHead (charge (spentBy outcome))
      | .continueAsNew input => (l.executions, input.delegate) :: l.accounts.tail
      | _ => l.accounts := by
  unfold accounts
  rw [stack_step]
  cases a with
  | prepared messages tools mcp | startLLM round call => exact map_modifyHead_quiet fun _ => rfl
  | llmStep output => exact map_modifyHead fun _ => rfl
  | startChild d accepted =>
    cases accepted with
    | false => rfl
    | true => exact map_modifyHead_quiet fun _ => rfl
  | endChild outcome =>
    rw [← map_tail]
    exact map_modifyHead fun _ => rfl
  | continueAsNew input =>
    rw [← map_tail]
    rfl
  | _ => rfl

theorem accounts_cons (h : 0 < l.frames.length) :
    ∃ rest, l.accounts = (l.top.exec, l.top.budget) :: rest := by
  obtain ⟨rest, hstack⟩ := stack_cons h
  rw [accounts, hstack]
  exact ⟨_, rfl⟩

theorem accounts_cons_cons (h : 2 ≤ l.frames.length) :
    ∃ p rest, l.accounts = (l.top.exec, l.top.budget) :: p :: rest ∧
      p.1 = (l.frames.tail.headD {}).exec := by
  unfold accounts stack top
  match hframes : l.frames with
  | [] => simp [hframes] at h
  | [_] => simp [hframes] at h
  | _ :: _ :: _ => exact ⟨_, _, rfl, rfl⟩

def Ordered (l : Locals) : Prop := (l.executions :: l.accounts.map Prod.fst).Pairwise (· > ·)

theorem Ordered.push {n : Nat} {execs execs' : List Nat} (h : (n :: execs).Pairwise (· > ·))
    (hsub : execs'.Sublist execs) : ((n + 1) :: n :: execs').Pairwise (· > ·) := by
  have hn : (n :: execs').Pairwise (· > ·) := h.sublist (hsub.cons_cons n)
  refine pairwise_cons.mpr ⟨fun k hk => ?_, hn⟩
  rcases mem_cons.mp hk with rfl | hk
  · exact Nat.lt_succ_self k
  · exact Nat.lt_succ_of_lt ((pairwise_cons.mp hn).1 k hk)

theorem Ordered.step (h : Ordered l) (a : Act) : Ordered (l.step a) := by
  have hcharge : ∀ spent : Int, ∀ x, (charge spent x).1 = x.1 := fun _ _ => rfl
  have hbelow : (l.accounts.tail.map Prod.fst).Sublist (l.accounts.map Prod.fst) :=
    l.accounts.tail_sublist.map Prod.fst
  unfold Ordered at h ⊢
  rw [accounts_step, executions_step]
  cases a with
  | begin start => exact Ordered.push h (Sublist.refl _)
  | continueAsNew input => exact Ordered.push h hbelow
  | llmStep output => rwa [map_modifyHead_quiet (hcharge _)]
  | endChild outcome =>
    rw [map_modifyHead_quiet (hcharge _)]
    exact h.sublist (hbelow.cons_cons _)
  | _ => exact h

theorem Ordered.top_ne (h : Ordered l) {p : Nat × DelegateBudget}
    (hp : p ∈ l.accounts.tail) : l.top.exec ≠ p.1 := by
  have hpos : 0 < l.frames.length := by
    simpa [accounts, stack] using length_pos_of_mem (mem_of_mem_tail hp)
  obtain ⟨rest, haccounts⟩ := accounts_cons hpos
  unfold Ordered at h
  rw [haccounts] at h hp
  exact ((pairwise_cons.mp h.tail).1 p.1 (mem_map_of_mem hp)).ne'

/-! ## Tokens -/

def tokensOf : Act → Int
  | .llmStep output => output.usage.totalTokens
  | .llmStream output => output.usage.totalTokens
  | _ => 0

def totalTokens (log : List (Locals × Act)) : Int := (log.map fun e => tokensOf e.2).sum

def tokensSince (exec : Nat) : List (Locals × Act) → Int
  | [] => 0
  | (l, a) :: earlier =>
      match a with
      | .startChild _ true => if l.top.exec = exec then 0 else tokensSince exec earlier
      | _ => tokensOf a + tokensSince exec earlier

def decides : Act → Bool
  | .decide | .startChild _ _ => true
  | _ => false

def startsChild : Act → Bool
  | .startChild _ _ => true
  | _ => false

/-- A delegation decision counts every token of the tree, and a child is started only below a
positive budget. -/
def Exact (root : Start) (w : World) (a : Act) : Prop :=
  let spent := int64 (root.delegate.tokensSpent + totalTokens w.log)
  (decides a = true → w.st.top.budget.tokensSpent = spent) ∧
    (startsChild a = true → 0 < root.delegate.tokenBudget → spent < root.delegate.tokenBudget)

instance (root : Start) (w : World) (a : Act) : Decidable (Exact root w a) :=
  inferInstanceAs (Decidable ((_ = true → _) ∧ (_ = true → _ → _)))

/-- The tokens that an action loses: those of a call of the streamed model, and those of the
calls below a child that fails. -/
def lostTokens (w : World) : Act → Int
  | .llmStream output => output.usage.totalTokens
  | .endChild (.error _) => tokensSince (w.st.frames.tail.headD {}).exec w.log
  | _ => 0

def Charged (w : World) (a : Act) : Prop := lostTokens w a = 0

instance (w : World) (a : Act) : Decidable (Charged w a) :=
  inferInstanceAs (Decidable (lostTokens w a = 0))

/-- The budgets of the stack count the tokens: the execution on top has counted the total, and
one that waits has counted what there was before its child. -/
structure Books (b : DelegateBudget) (total : Int) (since : Nat → Int)
    (accounts : List (Nat × DelegateBudget)) : Prop where
  budget : ∀ x ∈ accounts, x.2.tokenBudget = b.tokenBudget
  spent : ∀ x, accounts.head? = some x → x.2.tokensSpent = int64 (b.tokensSpent + total)
  linked : accounts.IsChain fun c p => c.2.baselineSpent = p.2.tokensSpent
  waiting : ∀ p ∈ accounts.tail, p.2.tokensSpent = int64 (b.tokensSpent + (total - since p.1))

section Books

variable {b : DelegateBudget} {total : Int} {since since' : Nat → Int} {n : Nat}
  {x p : Nat × DelegateBudget} {rest accounts : List (Nat × DelegateBudget)}

theorem Books.congr (h : Books b total since accounts)
    (hsince : ∀ p ∈ accounts.tail, since' p.1 = since p.1) : Books b total since' accounts :=
  ⟨h.budget, h.spent, h.linked, fun p hp => hsince p hp ▸ h.waiting p hp⟩

theorem Books.quiet (h : Books b total since accounts) :
    Books b (0 + total) (fun exec => 0 + since exec) accounts := by
  simpa only [Int.zero_add] using h

theorem Books.open (n : Nat) (since : Nat → Int) : Books b 0 since [(n, b)] where
  budget y hy := by rw [mem_singleton.mp hy]
  spent y hy := by
    cases hy
    change int64 _ = int64 (int64 _ + 0)
    rw [int64_add, Int.add_zero]
  linked := .singleton _
  waiting y hy := absurd hy not_mem_nil

theorem Books.charge (h : Books b total since accounts) (t : Int) :
    Books b (t + total) (fun exec => t + since exec) (accounts.modifyHead (charge t)) := by
  cases accounts with
  | nil => exact ⟨h.budget, nofun, .nil, fun _ hp => absurd hp not_mem_nil⟩
  | cons x rest =>
    refine ⟨?_, ?_, ?_, fun p hp => ?_⟩
    · exact forall_mem_cons.mpr (forall_mem_cons.mp h.budget)
    · intro y hy
      cases hy
      change (x.2.spend t).tokensSpent = _
      rw [x.2.spend_tokensSpent, h.spent x rfl, int64_add]
      congr 1
      omega
    · exact h.linked.imp_head (by exact id)
    · rw [h.waiting p hp]
      congr 1
      omega

theorem Books.push (h : Books b total since (x :: rest)) (hsince : since x.1 = 0) :
    Books b total since ((n, x.2.child) :: x :: rest) where
  budget := forall_mem_cons.mpr ⟨h.budget x mem_cons_self, h.budget⟩
  spent y hy := by
    cases hy
    exact child_tokensSpent.trans (h.spent x rfl)
  linked := .cons_cons rfl h.linked
  waiting := by
    refine forall_mem_cons.mpr ⟨?_, h.waiting⟩
    rw [hsince, Int.sub_zero]
    exact h.spent x rfl

theorem Books.pop (h : Books b total since (x :: p :: rest)) {t : Int}
    (ht : int64 (p.2.tokensSpent + t) = int64 (b.tokensSpent + total)) :
    Books b total since (AgentOS.Agent.charge t p :: rest) where
  budget := forall_mem_cons.mpr (forall_mem_cons.mp (forall_mem_cons.mp h.budget).2)
  spent y hy := by
    cases hy
    exact (p.2.spend_tokensSpent t).trans ht
  linked := (isChain_cons_cons.mp h.linked).2.imp_head (by exact id)
  waiting q hq := h.waiting q (mem_cons_of_mem p hq)

theorem Books.renew (h : Books b total since (x :: rest)) :
    Books b total since ((n, x.2) :: rest) where
  budget := forall_mem_cons.mpr (forall_mem_cons.mp h.budget)
  spent y hy := by
    cases hy
    exact h.spent x rfl
  linked := h.linked.imp_head (by exact id)
  waiting := h.waiting

end Books

def Balanced (b : DelegateBudget) (w : World) : Prop :=
  Ordered w.st ∧ Books b (totalTokens w.log) (tokensSince · w.log) w.st.accounts

section Balance

variable {E : Host} {root : Start} {w : World} {a : Act} {log : List (Locals × Act)}

theorem lastStarted_eq_some
    (h : lastStarted log = some d) : ∃ l earlier, log = (l, .startChild d true) :: earlier := by
  unfold lastStarted at h
  split at h <;> cases h
  exact ⟨_, _, rfl⟩

theorem tokensSince_lastStarted (hchained : Chained step {} l log) (h : lastStarted log = some d) :
    tokensSince l.top.exec log = 0 := by
  obtain ⟨l', earlier, rfl⟩ := lastStarted_eq_some h
  have hexec : l.top.exec = l'.top.exec := by
    rw [hchained.1]
    exact top_modifyTop Frame.exec id (fun _ => rfl) rfl
  exact if_pos hexec.symm

theorem Balanced.step (hchained : Chained step {} w.st w.log) (h : Balanced root.delegate w)
    (hguard : Guard E root w a) (hrunning : Running w a) (hcharged : Charged w a) :
    Balanced root.delegate (w.act step a) := by
  obtain ⟨hordered, hbooks⟩ := h
  refine ⟨hordered.step a, ?_⟩
  rw [Logged.act_st, accounts_step]
  cases a with
  | begin start =>
    rcases hguard with ⟨hframes, hlog, rfl⟩ | ⟨d, hlast, hpending, rfl, hd⟩
    · have hnone : w.st.accounts = [] := by
        rw [accounts, stack, hframes]
        rfl
      rw [hnone, Logged.act_log, hlog]
      exact Books.open _ _
    · obtain ⟨rest, haccounts⟩ := accounts_cons (length_pos_of_pending hpending)
      rw [haccounts] at hbooks ⊢
      change Books _ _ _ ((_, d.input.delegate) :: _)
      rw [hd.budget]
      exact (hbooks.push (tokensSince_lastStarted hchained hlast)).quiet
  | llmStep output => exact hbooks.charge _
  | llmStream output =>
    have hnone : tokensOf (.llmStream output) = 0 := hcharged
    change Books _ (tokensOf _ + _) (fun exec => tokensOf _ + _) _
    rw [hnone]
    exact hbooks.quiet
  | startChild d accepted =>
    cases accepted with
    | false => exact hbooks.quiet
    | true =>
      refine hbooks.quiet.congr fun p hp => ?_
      exact (if_neg (hordered.top_ne hp)).trans (Int.zero_add _).symm
  | endChild outcome =>
    obtain ⟨htwo, hspent⟩ := hguard
    obtain ⟨p, rest, haccounts, hp⟩ := accounts_cons_cons htwo
    rw [haccounts] at hbooks ⊢
    refine (hbooks.pop ?_).quiet
    cases outcome with
    | ok result =>
      have hlinked : w.st.top.budget.baselineSpent = p.2.tokensSpent :=
        (isChain_cons_cons.mp hbooks.linked).1
      rw [← hlinked, spentBy, (hspent result rfl).tokensSpent]
      exact hbooks.spent (w.st.top.exec, w.st.top.budget) rfl
    | error err =>
      have hlost : tokensSince p.1 w.log = 0 := hp ▸ hcharged
      rw [hbooks.waiting p mem_cons_self, hlost, Int.sub_zero, int64_add]
      rw [spentBy, Int.add_zero]
  | continueAsNew input =>
    obtain ⟨old, payload, v, -, rfl, -⟩ := hguard
    obtain ⟨rest, haccounts⟩ := accounts_cons hrunning
    rw [haccounts] at hbooks ⊢
    exact hbooks.renew.quiet
  | _ => exact hbooks.quiet

theorem Balanced.exact (h : Balanced root.delegate w) (hguard : Guard E root w a)
    (hrunning : Running w a) : Exact root w a := by
  have hspent : 0 < w.st.frames.length → w.st.top.budget.tokenBudget = root.delegate.tokenBudget ∧
      w.st.top.budget.tokensSpent = int64 (root.delegate.tokensSpent + totalTokens w.log) := by
    intro hpos
    obtain ⟨rest, haccounts⟩ := accounts_cons hpos
    have hbooks := h.2
    rw [haccounts] at hbooks
    exact ⟨hbooks.budget _ mem_cons_self, hbooks.spent (w.st.top.exec, w.st.top.budget) rfl⟩
  cases a with
  | decide => exact ⟨fun _ => (hspent hrunning).2, nofun⟩
  | startChild d accepted =>
    refine ⟨fun _ => (hspent hrunning).2, fun _ hpositive => ?_⟩
    obtain ⟨hbudget, hspent⟩ := hspent hrunning
    have hexhausted := (check_ok hguard.2.1.check).2
    rw [exhausted, hbudget, hspent] at hexhausted
    simpa [hpositive] using hexhausted
  | _ => exact ⟨nofun, nofun⟩

end Balance

/-- In every run that loses no tokens, each delegation decision counts exactly the tokens of the
tree. -/
theorem delegation_tokens_exact (E : Host) (n : Nat) (root : Start)
    (h : Taken Charged (treeRun E n root).log) : Taken (Exact root) (treeRun E n root).log := by
  obtain ⟨hguarded, hrunning, hchained⟩ := treeRun_sound E n root
  have hstart : Balanced root.delegate ⟨{}, []⟩ :=
    ⟨pairwise_singleton _ _, nofun, nofun, .nil, nofun⟩
  refine ((hguarded.and (hrunning.and h)).run hchained hstart ?_).2
  rintro w a hchained hw ⟨hguard, hrunning, hcharged⟩
  exact ⟨hw.step hchained hguard hrunning hcharged, hw.exact hguard hrunning⟩

/-- A host whose model answers by the depth and the number of the call. -/
def modelHost (model : Int → Nat → Except Err LLMStepOutput) : Host where
  llmStep w := some (model w.st.top.budget.depth (w.st.top.round.getD 0))
  llmStream w := some ((model 0 (w.st.top.round.getD 0)).map fun output =>
    { toolCalls := output.toolCalls, usage := output.usage })
  parseDelegateArgs _ := .ok {}

def delegateCall (id : String) : ToolCall := { id, name := delegateToolName }

/-- The root delegates in its first two rounds.  A child calls a tool and then answers, or it
fails there. -/
def delegatingModel (fails : Bool) (depth : Int) (call : Nat) : Except Err LLMStepOutput :=
  let usage : Usage := { totalTokens := 5 }
  if depth = 0 then
    if call ≤ 2 then .ok { toolCalls := [delegateCall (toString call)], usage }
    else .ok { usage }
  else if call = 1 then .ok { toolCalls := [{ id := "t", name := "search" }], usage }
  else if fails then .error (.external "model")
  else .ok { usage }

def budgetRoot (tokenBudget : Int) : Start :=
  .agent { taskQueues := agentQueues, delegate := { tokenBudget } }

/-- A root delegates twice, and both children succeed. -/
theorem delegation_tokens_exact_twice :
    Taken Charged (treeRun (modelHost (delegatingModel false)) 2 (budgetRoot 40)).log ∧
      Taken (Exact (budgetRoot 40)) (treeRun (modelHost (delegatingModel false)) 2 (budgetRoot 40)).log := by
  have hcharged :
      Taken Charged (treeRun (modelHost (delegatingModel false)) 2 (budgetRoot 40)).log := by
    decide +kernel
  exact ⟨hcharged, delegation_tokens_exact (modelHost (delegatingModel false)) 2 (budgetRoot 40) hcharged⟩

def streamRoot : Start := .stream { taskQueues := agentQueues }

/-- The tokens of a child that fails are lost, and so are those of the streamed model. -/
theorem delegation_tokens_lost :
    ¬ Taken (Exact (budgetRoot 12)) (treeRun (modelHost (delegatingModel true)) 2 (budgetRoot 12)).log ∧
      ¬ Taken (Exact streamRoot) (treeRun (modelHost (delegatingModel false)) 2 streamRoot).log := by
  constructor
  · decide +kernel
  · decide +kernel

/-! ## Depth and rounds -/

def callsModel : Act → Bool
  | .startLLM _ _ => true
  | _ => false

/-- The number of calls of the model that an execution has started. -/
def llmCalls (exec : Nat) (log : List (Locals × Act)) : Nat :=
  log.countP fun e => callsModel e.2 && e.1.top.exec = exec

/-- The tools that were given to the tree from outside: with the input of the root, or by an MCP
server. -/
def supplied (root : Start) : List (Locals × Act) → List ToolDef
  | [] => root.tools
  | (_, .prepared _ _ mcp) :: earlier => supplied root earlier ++ mcp.tools
  | _ :: earlier => supplied root earlier

/-- No execution is below the limit of the root.  One that is at the limit is offered no tool but
those from outside, and it starts no child. -/
def Limited (root : Start) (w : World) : Act → Prop
  | .begin start => start.delegate.depth ≤ root.delegate.depthLimit
  | .continueAsNew input => input.delegate.depth ≤ root.delegate.depthLimit
  | .startLLM _ call => root.delegate.depthLimit ≤ w.st.top.budget.depth →
      ∀ tool ∈ call.tools, tool ∈ supplied root w.log
  | .startChild _ _ => w.st.top.budget.depth < root.delegate.depthLimit
  | _ => True

structure Within (root : Start) (log : List (Locals × Act)) (f : Frame) : Prop where
  depth : f.budget.depth ≤ root.delegate.depthLimit
  limit : f.budget.depthLimit = root.delegate.depthLimit
  calls : llmCalls f.exec log ≤ f.round.getD 0
  tools : f.budget.allowed = false → f.allTools = f.domainTools
  given : ∀ tool ∈ f.start.tools, tool ∈ supplied root log
  domain : ∀ tool ∈ f.domainTools, tool ∈ supplied root log

structure Bounded (root : Start) (w : World) : Prop where
  ordered : Ordered w.st
  frames : ∀ f ∈ w.st.stack, Within root w.log f
  calls : ∀ exec, llmCalls exec w.log ≤ maxToolRounds
  fresh : ∀ exec, w.st.executions ≤ exec → llmCalls exec w.log = 0

section Bounds

variable {E : Host} {root : Start} {l : Locals} {log : List (Locals × Act)} {w : World} {a : Act}
  {f : Frame}

theorem supplied_later {tool : ToolDef} (h : tool ∈ supplied root log) :
    tool ∈ supplied root ((l, a) :: log) := by
  cases a with
  | prepared messages tools mcp => exact mem_append_left _ h
  | _ => exact h

theorem llmCalls_quiet (ha : callsModel a = false) (exec : Nat) :
    llmCalls exec ((l, a) :: log) = llmCalls exec log :=
  countP_cons_of_neg (by simp [ha])

theorem llmCalls_startLLM {round : Nat} {call : LLMCall} (exec : Nat) :
    llmCalls exec ((l, .startLLM round call) :: log) =
      llmCalls exec log + if l.top.exec = exec then 1 else 0 := by
  simp [llmCalls, countP_cons, callsModel]

theorem Within.later (h : Within root log f)
    (hcalls : llmCalls f.exec ((l, a) :: log) = llmCalls f.exec log) :
    Within root ((l, a) :: log) f where
  depth := h.depth
  limit := h.limit
  calls := hcalls ▸ h.calls
  tools := h.tools
  given tool htool := supplied_later (h.given tool htool)
  domain tool htool := supplied_later (h.domain tool htool)

theorem Within.pending (h : Within root log f) (d : Option Delegation) :
    Within root log { f with pending := d } :=
  ⟨h.depth, h.limit, h.calls, h.tools, h.given, h.domain⟩

theorem Within.spend (h : Within root log f) (spent : Int) :
    Within root log { f with budget := f.budget.spend spent } :=
  ⟨h.depth, h.limit, h.calls, h.tools, h.given, h.domain⟩

theorem Within.push (n : Nat) {start : Start}
    (hdepth : start.delegate.depth ≤ root.delegate.depthLimit)
    (hlimit : start.delegate.depthLimit = root.delegate.depthLimit) (hfresh : llmCalls n log = 0)
    (hgiven : ∀ tool ∈ start.tools, tool ∈ supplied root log) :
    Within root log (Frame.begin n start) where
  depth := hdepth
  limit := hlimit
  calls := hfresh.le
  tools _ := rfl
  given := hgiven
  domain _ htool := absurd htool not_mem_nil

theorem Bounded.top (h : Bounded root w) (hpos : 0 < w.st.frames.length) :
    Within root w.log w.st.top.core := by
  obtain ⟨rest, hstack⟩ := stack_cons hpos
  exact h.frames _ (hstack ▸ mem_cons_self)

theorem Bounded.calls_step (h : Bounded root w) (hguard : Guard E root w a) (hrunning : Running w a) :
    (∀ exec, llmCalls exec ((w.st, a) :: w.log) ≤ maxToolRounds) ∧
      ∀ exec, (w.st.step a).executions ≤ exec → llmCalls exec ((w.st, a) :: w.log) = 0 := by
  by_cases ha : callsModel a = true
  · cases a with
    | startLLM round call =>
      obtain ⟨rest, haccounts⟩ := accounts_cons hrunning
      have hcalls : llmCalls w.st.top.exec w.log ≤ w.st.top.round.getD 0 := (h.top hrunning).calls
      obtain ⟨-, ⟨r, hr, hle⟩, hlt, -⟩ := hguard
      rw [hr, getD_some] at hcalls
      have hyoung : w.st.top.exec < w.st.executions := by
        have hordered := h.ordered
        rw [Ordered, haccounts] at hordered
        exact (pairwise_cons.mp hordered).1 _ mem_cons_self
      constructor
      · intro exec
        rw [llmCalls_startLLM]
        split_ifs with hexec
        · subst hexec
          omega
        · exact h.calls exec
      · intro exec (hexec : w.st.executions ≤ exec)
        rw [llmCalls_startLLM, h.fresh exec hexec, if_neg (by omega)]
    | _ => cases ha
  · have hquiet : ∀ exec, llmCalls exec ((w.st, a) :: w.log) = llmCalls exec w.log :=
      llmCalls_quiet (Bool.eq_false_of_not_eq_true ha)
    have hlater : w.st.executions ≤ (w.st.step a).executions := by
      rw [executions_step]
      split <;> omega
    refine ⟨fun exec => hquiet exec ▸ h.calls exec, fun exec hexec => ?_⟩
    rw [hquiet]
    exact h.fresh exec (hlater.trans hexec)

/-- The execution that begins is the root, or a child that its parent had the right to start. -/
theorem Bounded.begin {start : Start} (h : Bounded root w) (hroot : root.delegate.depth = 0)
    (hguard : Guard E root w (.begin start)) :
    Within root w.log (Frame.begin w.st.executions start) := by
  rcases hguard with ⟨-, hlog, rfl⟩ | ⟨d, -, hpending, rfl, hd⟩
  · refine Within.push _ ?_ rfl (h.fresh _ le_rfl) ?_
    · rw [hroot]
      exact depthLimit_pos.le
    · rw [hlog]
      exact fun tool htool => htool
  · have hparent := h.top (length_pos_of_pending hpending)
    have hchild : (Start.agent d.input).delegate = w.st.top.budget.child := hd.budget
    refine Within.push _ ?_ ?_ (h.fresh _ le_rfl) ?_
    · have hdepth := (check_ok hd.check).1
      have hlimit : w.st.top.budget.depthLimit = root.delegate.depthLimit := hparent.limit
      rw [hchild]
      change w.st.top.budget.depth + 1 ≤ _
      omega
    · rw [hchild, child_depthLimit]
      exact hparent.limit
    · intro tool htool
      change tool ∈ d.input.tools at htool
      rw [hd.tools, delegateChildTools_eq] at htool
      exact hparent.domain tool (mem_of_mem_filter htool)

theorem Bounded.continueAsNew {input : AgentWorkflowInput} (h : Bounded root w)
    (hguard : Guard E root w (.continueAsNew input)) (hpos : 0 < w.st.frames.length) :
    Within root w.log (Frame.begin w.st.executions (.agent input)) := by
  have hwithin := h.top hpos
  obtain ⟨old, payload, v, hold, rfl, -⟩ := hguard
  refine Within.push _ hwithin.depth hwithin.limit (h.fresh _ le_rfl) fun tool htool => ?_
  refine hwithin.given tool ?_
  change tool ∈ w.st.top.start.tools
  rw [hold]
  exact htool

/-- A preparation offers what it was given, and the delegate tool only above the limit. -/
theorem Within.prepared {messages : List Message} {tools : List ToolDef} {mcp : PrepMCPOutput}
    (h : Within root w.log w.st.top.core) (hguard : Guard E root w (.prepared messages tools mcp)) :
    Within root ((w.st, .prepared messages tools mcp) :: w.log)
      { w.st.top.core with
        domainTools := tools
        allTools := toolsWithDelegate w.st.top.budget tools
        round := some 0 } := by
  have hnew := h.later (l := w.st) (a := .prepared messages tools mcp) (llmCalls_quiet rfl _)
  obtain ⟨hround, rfl⟩ := hguard
  have hcalls : llmCalls w.st.top.exec _ ≤ w.st.top.round.getD 0 := hnew.calls
  rw [hround] at hcalls
  refine ⟨hnew.depth, hnew.limit, hcalls, fun (hlimit : w.st.top.budget.allowed = false) => ?_,
    hnew.given, fun tool htool => ?_⟩
  · simp [toolsWithDelegate, hlimit]
  rcases mem_append.mp htool with hgiven | hmcp
  · exact hnew.given tool hgiven
  · exact mem_append_right _ hmcp

/-- A call of the model counts for the execution that runs, in a round of its own. -/
theorem Bounded.startLLM {round : Nat} {call : LLMCall} (h : Bounded root w)
    (hguard : Guard E root w (.startLLM round call)) (hpos : 0 < w.st.frames.length) :
    ∀ f ∈ w.st.stack.modifyHead fun f => { f with round := some (round + 1) },
      Within root ((w.st, .startLLM round call) :: w.log) f := by
  refine forall_modifyHead h.frames (fun f hf hwithin => ?_) fun f hf hwithin => ?_
  · obtain rfl := eq_top_core hpos hf
    obtain ⟨hdepth, hlimit, hcalls, htools, hgiven, hdomain⟩ := hwithin
    refine ⟨hdepth, hlimit, ?_, htools, hgiven, hdomain⟩
    have hcalls : llmCalls w.st.top.exec w.log ≤ w.st.top.round.getD 0 := hcalls
    obtain ⟨-, ⟨r, hr, hle⟩, -, -⟩ := hguard
    rw [hr, getD_some] at hcalls
    change llmCalls w.st.top.exec _ ≤ round + 1
    rw [llmCalls_startLLM, if_pos rfl]
    omega
  · refine hwithin.later ?_
    have hother : w.st.top.exec ≠ f.exec := by
      refine h.ordered.top_ne (p := (f.exec, f.budget)) ?_
      rw [accounts, ← map_tail]
      exact mem_map_of_mem hf
    rw [llmCalls_startLLM, if_neg hother]
    rfl

theorem Bounded.frames_step (h : Bounded root w) (hroot : root.delegate.depth = 0)
    (hguard : Guard E root w a) (hrunning : Running w a) :
    ∀ f ∈ (w.st.step a).stack, Within root ((w.st, a) :: w.log) f := by
  have hlater : callsModel a = false → ∀ f, Within root w.log f → Within root ((w.st, a) :: w.log) f :=
    fun ha f hf => hf.later (llmCalls_quiet ha _)
  rw [stack_step]
  cases a with
  | begin start =>
    exact forall_mem_cons.mpr ⟨hlater rfl _ (h.begin hroot hguard),
      fun f hf => hlater rfl f (h.frames f hf)⟩
  | continueAsNew input =>
    exact forall_mem_cons.mpr ⟨hlater rfl _ (h.continueAsNew hguard hrunning),
      fun f hf => hlater rfl f (h.frames f (mem_of_mem_tail hf))⟩
  | prepared messages tools mcp =>
    refine forall_modifyHead h.frames (fun f hf hwithin => ?_) fun f _ hf => hlater rfl f hf
    obtain rfl := eq_top_core hrunning hf
    exact hwithin.prepared hguard
  | startLLM round call => exact h.startLLM hguard hrunning
  | llmStep output =>
    exact forall_modifyHead h.frames (fun f _ hf => (hlater rfl f hf).spend _)
      fun f _ hf => hlater rfl f hf
  | startChild d accepted =>
    cases accepted with
    | false => exact fun f hf => hlater rfl f (h.frames f hf)
    | true =>
      exact forall_modifyHead h.frames (fun f _ hf => (hlater rfl f hf).pending _)
        fun f _ hf => hlater rfl f hf
  | endChild outcome =>
    exact forall_modifyHead (fun f hf => h.frames f (mem_of_mem_tail hf))
      (fun f _ hf => ((hlater rfl f hf).pending none).spend _) fun f _ hf => hlater rfl f hf
  | _ => exact fun f hf => hlater rfl f (h.frames f hf)

theorem Bounded.limited (h : Bounded root w) (hframes : ∀ f ∈ (w.st.step a).stack,
      Within root ((w.st, a) :: w.log) f) (hguard : Guard E root w a) (hrunning : Running w a) :
    Limited root w a := by
  cases a with
  | begin | continueAsNew => exact (hframes _ mem_cons_self).depth
  | startLLM round call =>
    intro hlimit tool htool
    have hwithin := h.top hrunning
    have hdepth : w.st.top.budget.depthLimit = root.delegate.depthLimit := hwithin.limit
    have hallowed : w.st.top.budget.allowed = false := by
      simp [allowed, hdepth, hlimit]
    have htools : w.st.top.allTools = w.st.top.domainTools := hwithin.tools hallowed
    refine hwithin.domain tool ?_
    rwa [hguard.2.2.2, htools] at htool
  | startChild d accepted =>
    have hlimit : w.st.top.budget.depthLimit = root.delegate.depthLimit := (h.top hrunning).limit
    have hdepth := (check_ok hguard.2.1.check).1
    rwa [hlimit] at hdepth
  | _ => trivial

end Bounds

/-- The delegate tool is not offered at the limit, unless it was given from outside. -/
theorem Limited.not_offered {root : Start} {w : World} {round : Nat} {call : LLMCall}
    (h : Limited root w (.startLLM round call))
    (hlimit : root.delegate.depthLimit ≤ w.st.top.budget.depth)
    (hinside : delegateToolDef ∉ supplied root w.log) : delegateToolDef ∉ call.tools :=
  fun hoffered => hinside (h hlimit _ hoffered)

/-- Every delegation tree is bounded in depth, and each execution in its rounds. -/
theorem delegation_bounded (E : Host) (n : Nat) (root : Start) (hroot : root.delegate.depth = 0) :
    Taken (Limited root) (treeRun E n root).log ∧
      ∀ exec, llmCalls exec (treeRun E n root).log ≤ maxToolRounds := by
  obtain ⟨hguarded, hrunning, hchained⟩ := treeRun_sound E n root
  have hstart : Bounded root ⟨{}, []⟩ :=
    ⟨pairwise_singleton _ _, fun f hf => absurd hf not_mem_nil, fun _ => Nat.zero_le _,
      fun _ _ => rfl⟩
  have hrun := (hguarded.and hrunning).run (I := Bounded root) (P := Limited root) hchained hstart <| by
    rintro w a - hw ⟨hguard, hrunning⟩
    have hframes := hw.frames_step hroot hguard hrunning
    obtain ⟨hcalls, hfresh⟩ := hw.calls_step hguard hrunning
    exact ⟨⟨hw.ordered.step a, hframes, hcalls, hfresh⟩, hw.limited hframes hguard hrunning⟩
  exact ⟨hrun.2, hrun.1.calls⟩

/-- A model that always delegates first. -/
def deepModel (depth : Int) (call : Nat) : Except Err LLMStepOutput :=
  .ok { toolCalls := if call = 1 then [delegateCall (toString depth)] else [] }

/-- A root without a limit of its own, whose tree is as deep as the default allows. -/
theorem delegation_bounded_default :
    let log := (treeRun (modelHost deepModel) 5 (budgetRoot 40)).log
    (budgetRoot 40).delegate.depth = 0 ∧
      (Taken (Limited (budgetRoot 40)) log ∧ ∀ exec, llmCalls exec log ≤ maxToolRounds) ∧
        log.any (fun e => callsModel e.2 && e.1.top.budget.depth = 3) = true :=
  ⟨rfl, delegation_bounded _ _ _ rfl, by decide +kernel⟩

end AgentOS.Agent
