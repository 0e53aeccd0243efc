import AgentOS.Agent.Loops

/-!
# What the agent loops do

`Guard w a` says what holds of the world `w` when a delegation tree takes the action `a`.  It is
what the two loops guarantee of their actions, and everything that is proved about whole runs
rests on it and on the effects of the actions.
-/

namespace AgentOS.Agent

open Kit List Locals

/-! ## Guards -/

def cleared : List (Locals × Act) → Bool
  | (_, .checked canceled) :: _ => !canceled
  | (_, .repair) :: earlier => cleared earlier
  | (_, .decide) :: earlier => cleared earlier
  | _ => false

def Act.endsCheck : Act → Bool
  | .receive .poll .resume => true
  | .receive .poll (.other _) => true
  | .receive .pause .resume => true
  | _ => false

def checkEnded : List (Locals × Act) → Bool
  | [] => false
  | (_, a) :: _ => a.endsCheck

structure Delegation.Of (d : Delegation) (f : Frame) : Prop where
  check : f.budget.check = .ok ()
  runID : d.input.runID = d.tc.id
  budget : d.input.delegate = f.budget.child
  tools : d.input.tools = delegateChildTools f.domainTools d.args.tools
  policy : d.input.continuePolicy = {}

structure WorkflowResult.Of (result : WorkflowResult) (f : Frame) : Prop where
  runID : result.runID = f.status.runID
  lifecycleState : result.lifecycleState = f.status.lifecycleState
  reason : result.reason = f.status.reason
  step : result.step = f.status.step
  output : result.output = f.status.output
  tokensSpent : result.tokensSpent = f.budget.ownTokensSpent

def lastStarted : List (Locals × Act) → Option Delegation
  | (_, .startChild d true) :: _ => some d
  | _ => none

/-- In `v` the policy says that the execution is to continue as new.  From `v` to `w` the execution
only waits, and what its channels hold is all that changes of it. -/
structure Decides (E : Host) (input : AgentWorkflowInput) (v w : World) : Prop where
  reached : Chained step {} v.st v.log
  earlier : v.log <:+ w.log
  waits : ∃ arrivals, w.st.top = v.st.top.deliver arrivals
  decision : (evaluateContinueAsNew input.continuePolicy
    (continueSnapshot E input v.st.top (E.now v))).shouldContinue = true

def Guard (E : Host) (root : Start) (w : World) : Act → Prop
  | .begin start =>
      (w.st.frames = [] ∧ w.log = [] ∧ start = root) ∨
        ∃ d, lastStarted w.log = some d ∧ w.st.top.pending = some d ∧ start = .agent d.input ∧
          d.Of w.st.top
  | .receive _ c => w.st.top.commandCh.head? = some c
  | .checked canceled => canceled = false → w.st.top.commandCh = [] ∨ checkEnded w.log = true
  | .receiveUser signal => w.st.top.userMessageCh.head? = some signal
  | .prepared _ tools mcp =>
      w.st.top.round = none ∧ tools = w.st.top.start.tools ++ mcp.tools
  | .startLLM round call =>
      cleared w.log = true ∧ (∃ r, w.st.top.round = some r ∧ r ≤ round) ∧ round < maxToolRounds ∧
        call.tools = w.st.top.allTools
  | .startTool _ => cleared w.log = true
  | .decide => cleared w.log = true
  | .startChild d accepted =>
      cleared w.log = true ∧ d.Of w.st.top ∧
        accepted = !refuses w.st.children (delegateWorkflowID d.tc.id)
  | .endChild outcome =>
      2 ≤ w.st.frames.length ∧ ∀ result, outcome = .ok result → result.Of w.st.top
  | .continueAsNew input =>
      ∃ old payload v, w.st.top.start = .agent old ∧
        input = { old with delegate := w.st.top.budget, continuation := payload } ∧
        Decides E old v w
  | _ => True

def Running (w : World) : Act → Prop
  | .begin _ => True
  | _ => 0 < w.st.frames.length

structure Sound (E : Host) (root : Start) (w : World) : Prop where
  guarded : Taken (Guard E root) w.log
  running : Taken Running w.log
  chained : Chained step {} w.st w.log

variable {a : Act}

theorem Sound.act {E : Host} {root : Start} {w : World} (h : Sound E root w)
    (hguard : Guard E root w a) (hpos : 0 < w.st.frames.length) :
    Sound E root (w.act step a) := by
  have hrunning : Running w a := by
    cases a with
    | begin start => trivial
    | _ => exact hpos
  exact ⟨⟨hguard, h.guarded⟩, ⟨hrunning, h.running⟩, rfl, h.chained⟩

/-! ## Marks -/

def Frame.mark (f : Frame) : Start × Option Nat := (f.start, f.round)

def Locals.marks (l : Locals) : List (Start × Option Nat) := l.frames.map Frame.mark

variable {g : Frame → Frame}

theorem marks_modifyTop {l : Locals} (hg : ∀ f, (g f).mark = f.mark) :
    (l.modifyTop g).marks = l.marks := by
  unfold marks modifyTop
  cases l.frames with
  | nil => rfl
  | cons f frames => simp [hg]

theorem map_deliverTo {β : Type} {field : Frame → β} (h : ∀ f a, field (f.deliver a) = field f)
    (frames : List Frame) (arrivals : List Arrivals) :
    (deliverTo frames arrivals).map field = frames.map field := by
  induction frames generalizing arrivals with
  | nil => cases arrivals <;> rfl
  | cons f frames ih =>
    cases arrivals with
    | nil => rfl
    | cons a arrivals =>
      rw [deliverTo, map_cons, map_cons, ih, h]

structure Held (E : Host) (root : Start) (marks : List (Start × Option Nat)) (w : World) : Prop where
  sound : Sound E root w
  marks : w.st.marks = marks

def Left (E : Host) (root : Start) (below : List (Start × Option Nat)) (stop : Stop)
    (w : World) : Prop :=
  Sound E root w ∧ (stop ≠ .blocked → ∃ m, w.st.marks = m :: below)

/-- The program goes on with the marks of its frame, or stops and leaves those below. -/
def Stays {α : Type} (E : Host) (root : Start) (m : Start × Option Nat)
    (t : List (Start × Option Nat)) (w : World) (program : Workflow α) : Prop :=
  Yields program w (fun _ v => Held E root (m :: t) v) (Left E root t)

variable {X : Stop → World → Prop}

section Programs

variable {E : Host} {root : Start} {w : World} {m : Start × Option Nat}
  {t : List (Start × Option Nat)} {α : Type} {answer : World → Option α}

theorem Held.length_pos (h : Held E root (m :: t) w) : 0 < w.st.frames.length := by
  have hlength := congrArg length h.marks
  simp only [Locals.marks, length_map, length_cons] at hlength
  omega

theorem Held.act (h : Held E root (m :: t) w) (hguard : Guard E root w a)
    (hmarks : (w.st.step a).marks = w.st.marks) : Held E root (m :: t) (w.act step a) :=
  ⟨h.sound.act hguard h.length_pos, hmarks.trans h.marks⟩

theorem Held.enter {s : Start} {o o' : Option Nat}
    (h : Held E root ((s, o) :: t) w) (hguard : Guard E root w a) (hg : ∀ f, (g f).mark = (f.start, o'))
    (hstep : w.st.step a = w.st.modifyTop g) : Held E root ((s, o') :: t) (w.act Locals.step a) := by
  refine ⟨h.sound.act hguard h.length_pos, ?_⟩
  have hmarks := h.marks
  rw [Logged.act_st, hstep]
  unfold Locals.marks modifyTop at *
  cases hframes : w.st.frames with
  | nil => rw [hframes] at hmarks; cases hmarks
  | cons f frames =>
    rw [hframes] at hmarks
    obtain ⟨hmark, hbelow⟩ := cons.inj hmarks
    refine congrArg₂ cons ?_ hbelow
    rw [hg]
    exact congrArg (·, o') (congrArg Prod.fst hmark)

theorem Held.left (h : Held E root (m :: t) w) {stop : Stop} : Left E root t stop w :=
  ⟨h.sound, fun _ => ⟨m, h.marks⟩⟩

theorem Held.top (h : Held E root (m :: t) w) : w.st.top.mark = m := by
  have hmarks := h.marks
  unfold Locals.marks at hmarks
  unfold Locals.top
  cases hframes : w.st.frames with
  | nil => rw [hframes] at hmarks; cases hmarks
  | cons f frames =>
    rw [hframes] at hmarks
    exact (cons.inj hmarks).1

/-! ## Waiting -/

section

variable (h : Held E root (m :: t) w) {state : RunState}
include h

theorem deliver_held : Yields (deliver E) w (fun _ v => Held E root (m :: t) v) X :=
  h.act trivial (map_deliverTo (fun _ _ => rfl) ..)

theorem blocks_held : Stays E root m t w (blocks E) := by
  refine .bind (deliver_held h) fun _ v hv => .asking ?_
  cases E.closes v with
  | none => exact .ret hv
  | some err => exact .fail hv.left

theorem await_held {α : Type} {answer : World → Option α} :
    Stays E root m t w (await E answer) := by
  refine .asking ?_
  cases answer w with
  | none => exact .fail h.left
  | some a => exact .bind (blocks_held h) fun _ _ hv => .ret hv

theorem updateStatus_held {f : RunStatus → RunStatus} :
    Yields (updateStatus f) w (fun _ v => Held E root (m :: t) v) X :=
  h.act trivial (marks_modifyTop fun _ => rfl)

theorem setLifecycle_held : Yields (setLifecycle state) w (fun _ v => Held E root (m :: t) v) X :=
  updateStatus_held h

theorem setLifecycleNow_held :
    Yields (setLifecycleNow E state) w (fun _ v => Held E root (m :: t) v) X :=
  .asking (updateStatus_held h)

theorem failRun_left {Q : α → World → Prop} {err : Err} : Yields (failRun err) w Q (Left E root t) :=
  .bind (setLifecycle_held h) fun _ _ hv => .fail hv.left

theorem Held.receive {reader : Reader} {c : Command} {rest : List Command}
    (hqueue : signalCh.queue w.st = c :: rest) :
    Held E root (m :: t) (w.act step (signalCh.receive reader c)) :=
  h.act (congrArg head? hqueue) (marks_modifyTop fun _ => rfl)

theorem waitForResume_held {reader : Reader} {n : Nat} :
    Yields (waitForResume signalCh (blocks E) reader n) w
      (fun canceled v => Held E root (m :: t) v ∧ (canceled = false →
        ∃ l earlier, v.log = (l, .receive reader .resume) :: earlier)) (Left E root t) := by
  refine waitForResume_yields (I := Held E root (m :: t)) (fun _ hv => blocks_held hv)
    (fun _ hv => hv.left) ?_ n h
  intro v c rest hv hqueue
  have hafter : Held E root (m :: t) (v.act step (signalCh.receive reader c)) := hv.receive hqueue
  cases c with
  | resume => exact ⟨hafter, fun _ => ⟨_, _, rfl⟩⟩
  | cancel => exact ⟨hafter, nofun⟩
  | pause | other => exact hafter

theorem checkStreamSignal_held :
    Yields (checkStreamSignal E) w
      (fun canceled v => Held E root (m :: t) v ∧ (canceled = false → cleared v.log = true))
      (Left E root t) := by
  refine .bind (Q := fun canceled v => Held E root (m :: t) v ∧
    (canceled = false → v.st.top.commandCh = [] ∨ checkEnded v.log = true)) ?_ ?_
  · refine .bind (Q := fun answer v => Held E root (m :: t) v ∧ match answer with
      | none => v.st.top.commandCh = []
      | some c => ∃ l earlier, v.log = (l, .receive .poll c) :: earlier)
      (CommandCh.receiveAsync_yields (fun hempty => ⟨h, hempty⟩)
        fun c rest hqueue => ⟨h.receive hqueue, _, _, rfl⟩) ?_
    rintro answer v ⟨hv, hanswer⟩
    cases answer with
    | none => exact .ret ⟨hv, fun _ => .inl hanswer⟩
    | some c =>
      obtain ⟨l, earlier, hlog⟩ := hanswer
      cases c with
      | cancel => exact .ret ⟨hv, nofun⟩
      | resume | other name => exact .ret ⟨hv, fun _ => .inr (by rw [hlog]; rfl)⟩
      | pause =>
        refine .asking ((waitForResume_held hv).post ?_ fun _ _ hX => hX)
        rintro canceled u ⟨hu, hresumed⟩
        refine ⟨hu, fun hc => .inr ?_⟩
        obtain ⟨l', earlier', hlog'⟩ := hresumed hc
        rw [hlog']
        rfl
  · rintro canceled v ⟨hv, hended⟩
    refine ⟨hv.act hended rfl, ?_⟩
    rintro rfl
    rfl

end

/-! ## Delegation -/

/-- A program that runs a child from its start.  It leaves its execution on top, and the result
has what the execution spent. -/
def RunsChild (E : Host) (root : Start)
    (child : AgentWorkflowInput → Workflow WorkflowResult) : Prop :=
  ∀ {input : AgentWorkflowInput} {w : World} {t : List (Start × Option Nat)},
    Held E root ((.agent input, none) :: t) w →
    Yields (child input) w (fun result v => Sound E root v ∧ (∃ m, v.st.marks = m :: t) ∧
      result.Of v.st.top) (Left E root t)

variable {child : AgentWorkflowInput → Workflow WorkflowResult}

theorem Held.endChild {outcome : Except Err WorkflowResult} (hsound : Sound E root w)
    (hmarks : ∃ m', w.st.marks = m' :: m :: t) (hspent : ∀ result, outcome = .ok result →
      result.Of w.st.top) : Held E root (m :: t) (w.act step (.endChild outcome)) := by
  obtain ⟨m', hmarks⟩ := hmarks
  have hlength : w.st.frames.length = t.length + 2 := by
    simpa [Locals.marks] using congrArg length hmarks
  refine ⟨hsound.act ⟨by omega, hspent⟩ (by omega), ?_⟩
  · have hbelow : ({ w.st with frames := w.st.frames.tail } : Locals).marks = m :: t := by
      change w.st.frames.tail.map Frame.mark = m :: t
      rw [map_tail]
      exact congrArg tail hmarks
    let g : Frame → Frame := fun f =>
      { f with pending := none, budget := f.budget.spend (spentBy outcome) }
    exact (marks_modifyTop (g := g) fun _ => rfl).trans hbelow

section

variable (hchild : RunsChild E root child) (h : Held E root (m :: t) w)
  (hcleared : cleared w.log = true)
include hchild h hcleared

theorem executeChildWorkflow_held {d : Delegation} (hd : d.Of w.st.top) :
    Stays E root m t w (executeChildWorkflow E child d) := by
  refine .read ?_
  cases hrefuses : refuses w.st.children (delegateWorkflowID d.tc.id) with
  | true =>
    refine .acting (.bind (blocks_held ?_) fun _ _ hv => .ret hv)
    exact h.act ⟨hcleared, hd, by rw [hrefuses]; rfl⟩ rfl
  | false =>
    have hstart : Held E root (m :: t) (w.act step (.startChild d true)) :=
      h.act ⟨hcleared, hd, by rw [hrefuses]; rfl⟩ (marks_modifyTop fun _ => rfl)
    generalize hv : w.act step (.startChild d true) = v at hstart
    have htop : v.st.top = { w.st.top with pending := some d } := by
      subst hv
      have hmarks := h.marks
      unfold top
      change (w.st.modifyTop fun f => { f with pending := some d }).frames.headD {} = _
      unfold modifyTop
      cases hframes : w.st.frames with
      | nil =>
        rw [marks, hframes] at hmarks
        cases hmarks
      | cons f frames => rfl
    have hof : d.Of v.st.top := by
      rw [htop]
      exact ⟨hd.check, hd.runID, hd.budget, hd.tools, hd.policy⟩
    have hbegin : Held E root ((.agent d.input, none) :: m :: t)
        (v.act step (.begin (.agent d.input))) :=
      ⟨hstart.sound.act (.inr ⟨d, by rw [← hv]; rfl, by rw [htop], rfl, hof⟩) hstart.length_pos,
        congrArg (cons (Start.agent d.input, none)) hstart.marks⟩
    refine .acting ?_
    rw [hv]
    refine .acting (.bind (deliver_held hbegin) fun _ u hu => ?_)
    refine .bind (.attempt (Q := fun r x => match r with
      | .ok result => Sound E root x ∧ (∃ m', x.st.marks = m' :: m :: t) ∧ result.Of x.st.top
      | .error stop => Left E root (m :: t) stop x) (hchild hu)) fun r x hx => ?_
    cases r with
    | ok result =>
      obtain ⟨hsound, hmarks, hspent⟩ := hx
      refine .acting (.bind (blocks_held (Held.endChild hsound hmarks ?_)) fun _ _ hv => .ret hv)
      rintro _ ⟨rfl⟩
      exact hspent
    | error stop =>
      obtain ⟨hsound, hmarks⟩ := hx
      cases stop with
      | failed err | closed err =>
        have hleft := hmarks (by rintro ⟨⟩)
        refine .acting (.bind (blocks_held (Held.endChild hsound hleft ?_)) fun _ _ hv => .ret hv)
        rintro _ ⟨⟩
      | blocked => exact .fail ⟨hsound, fun hne => (hne rfl).elim⟩

theorem handleDelegateToolCall_held {tc : ToolCall} {parent : DelegateParent}
    (hbudget : parent.budget = w.st.top.budget)
    (htools : parent.domainTools = w.st.top.domainTools) :
    Stays E root m t w (handleDelegateToolCall E child tc parent) := by
  refine .bind (Q := fun _ v => Held E root (m :: t) v)
    (.bind (Q := fun _ v => Held E root (m :: t) v) ?_ ?_) ?_
  · unfold executeDelegateTool
    cases parent.taskQueues.validateNativeAgent with
    | error err => exact .ret h
    | ok _ =>
      have hdecided : Held E root (m :: t) (w.act step .decide) := h.act hcleared rfl
      refine .acting ?_
      cases hcheck : parent.budget.check with
      | error err => exact .ret hdecided
      | ok _ =>
        cases E.parseDelegateArgs tc.arguments with
        | error err => exact .ret hdecided
        | ok args =>
          refine executeChildWorkflow_held hchild hdecided hcleared ⟨hbudget ▸ hcheck, rfl, ?_, ?_, rfl⟩
          · exact congrArg DelegateBudget.child hbudget
          · exact congrArg (delegateChildTools · _) htools
  · intro r v hv
    cases r with
    | error | ok => exact .ret hv
  · exact fun content v hv => hv.act trivial (marks_modifyTop fun _ => rfl)

end

/-! ## Rounds -/

section Rounds

variable {s : Start} {r round : Nat} {input : AgentWorkflowInput} {versions : Versions}

theorem Held.startLLM {call : LLMCall} (h : Held E root ((s, some r) :: t) w)
    (hcleared : cleared w.log = true) (hle : r ≤ round) (hlt : round < maxToolRounds)
    (htools : call.tools = w.st.top.allTools) :
    Held E root ((s, some (round + 1)) :: t) (w.act step (.startLLM round call)) := by
  exact h.enter ⟨hcleared, ⟨r, congrArg Prod.snd h.top, hle⟩, hlt, htools⟩ (fun _ => rfl) rfl

theorem Held.say {message : Message} (h : Held E root (m :: t) w) :
    Held E root (m :: t) (w.act step (.say message)) :=
  h.act trivial (marks_modifyTop fun _ => rfl)

theorem callLLMAndTrackMessage_held (h : Held E root ((s, some r) :: t) w)
    (hcleared : cleared w.log = true) (hle : r ≤ round) (hlt : round < maxToolRounds) :
    Yields (callLLMAndTrackMessage E input round) w
      (fun _ v => Held E root ((s, some (round + 1)) :: t) v) (Left E root t) := by
  refine .read (.acting (.bind (await_held (h.startLLM hcleared hle hlt rfl)) fun answer v hv => ?_))
  cases answer with
  | error err => exact failRun_left hv
  | ok output =>
    have hcharged : Held E root ((s, some (round + 1)) :: t) (v.act step (.llmStep output)) :=
      hv.act trivial (marks_modifyTop fun _ => rfl)
    refine .acting (.acting (.asking (.bind (updateStatus_held hcharged.say) ?_)))
    exact fun _ _ hu => .ret hu

theorem executeToolCalls_held {parent : Locals → DelegateParent} {tool : ToolCall → ToolInput}
    {done : α} {canceled : Workflow α} {failed : ToolCall → Err → Workflow α}
    (hchild : RunsChild E root child) (hparent : ∀ l, (parent l).budget = l.top.budget ∧
      (parent l).domainTools = l.top.domainTools)
    (hcanceled : ∀ {v}, Held E root (m :: t) v → Stays E root m t v canceled)
    (hfailed : ∀ {tc err v}, Held E root (m :: t) v → Stays E root m t v (failed tc err))
    (toolCalls : List ToolCall) (h : Held E root (m :: t) w) :
    Stays E root m t w (executeToolCalls E child parent tool done canceled failed toolCalls) := by
  induction toolCalls generalizing w with
  | nil => exact .ret h
  | cons tc toolCalls ih =>
    refine .bind (checkStreamSignal_held h) fun canceled v hv => ?_
    obtain ⟨hv, hcleared⟩ := hv
    cases canceled with
    | true => exact hcanceled hv
    | false =>
      rw [if_neg (by decide)]
      split_ifs
      · obtain ⟨hbudget, htools⟩ := hparent v.st
        refine .read (.bind (handleDelegateToolCall_held hchild hv (hcleared rfl) hbudget htools) ?_)
        exact fun _ _ hu => ih hu
      have hstarted : ∀ call, Held E root (m :: t) (v.act step (.startTool call)) :=
        fun call => hv.act (hcleared rfl) rfl
      refine .acting (.bind (await_held (hstarted _)) fun answer u hu => ?_)
      cases answer with
      | error err => exact hfailed hu
      | ok result => exact .acting (ih hu.say)

/-! ## The wait for a user message -/

theorem handleNativeWaitControlSignal_held (h : Held E root (m :: t) w) :
    Stays E root m t w (handleNativeWaitControlSignal E) := by
  refine .bind (Q := fun _ v => Held E root (m :: t) v) (CommandCh.receiveBlocking_yields
    (I := Held E root (m :: t)) h (fun _ hv => blocks_held hv) (fun _ hv => hv.left)
    fun _ _ _ hv hqueue => hv.receive hqueue) fun c v hv => ?_
  cases c with
  | cancel | resume | other => exact .ret hv
  | pause =>
    refine .bind (setLifecycleNow_held hv) fun _ u hu => .asking ?_
    refine .bind (waitForResume_held hu) fun canceled x hx => ?_
    cases canceled with
    | true => exact .ret hx.1
    | false => exact .bind (setLifecycleNow_held hx.1) fun _ _ hy => .ret hy

theorem selectUserMessage_held {timer : Bool} (n : Nat) (h : Held E root (m :: t) w) :
    Stays E root m t w (selectUserMessage E timer n) := by
  induction n generalizing w with
  | zero => exact .fail h.left
  | succ n ih =>
    refine .bind (blocks_held h) fun _ v hv => .read (.asking ?_)
    cases E.select v with
    | userMessage =>
      cases hqueue : v.st.top.userMessageCh with
      | nil => exact .fail hv.left
      | cons signal rest =>
        refine .acting (.bind (setLifecycleNow_held ?_) fun _ _ hu => .ret hu)
        exact hv.act (congrArg head? hqueue) (marks_modifyTop fun _ => rfl)
    | command =>
      refine .bind (handleNativeWaitControlSignal_held hv) fun canceled u hu => ?_
      cases canceled with
      | true => exact .ret hu
      | false => exact ih hu
    | timer =>
      split_ifs
      · exact .asking (.bind (updateStatus_held hv) fun _ _ hu => .ret hu)
      · exact .fail hv.left
    | canceledTimer => exact ih hv

theorem finalizeRoundWithoutToolCalls_held {output : String} (h : Held E root (m :: t) w) :
    Yields (finalizeRoundWithoutToolCalls E input output versions) w
      (fun ending v => Held E root (m :: t) v ∧ match ending with
        | .next _ => False
        | _ => True) (Left E root t) := by
  refine .bind (updateStatus_held h) fun _ v hv => ?_
  by_cases hawait : (!input.awaitUserInput) = true
  · rw [if_pos hawait]
    exact .bind (setLifecycle_held hv) fun _ _ hu => .ret ⟨hu, trivial⟩
  rw [if_neg hawait]
  refine .bind (Q := fun _ v => Held E root (m :: t) v) (.bind (setLifecycleNow_held hv)
    fun _ _ hu => .asking (selectUserMessage_held _ hu)) fun outcome u hu => ?_
  cases outcome with
  | received | timedOut => exact .ret ⟨hu, trivial⟩
  | canceled => exact .bind (setLifecycle_held hu) fun _ _ hx => .ret ⟨hx, trivial⟩

/-! ## Continue as new -/

theorem deliver_nothing {f : Frame} : f.deliver {} = f := by
  simp [Frame.deliver]

theorem headD_deliverTo (frames : List Frame) (arrivals : List Arrivals) :
    ∃ a, (deliverTo frames arrivals).headD {} = (frames.headD {}).deliver a := by
  cases frames with
  | nil => cases arrivals <;> exact ⟨{}, rfl⟩
  | cons f frames =>
    cases arrivals with
    | nil => exact ⟨{}, deliver_nothing.symm⟩
    | cons a arrivals => exact ⟨a, rfl⟩

theorem Decides.await (h : Decides E input w w) :
    Yields (await E answer) w (fun _ v => Decides E input w v) (fun _ _ => True) := by
  refine .asking ?_
  cases answer w with
  | none => exact .fail trivial
  | some a =>
    have hdelivered : Yields (deliver E) w (fun _ v => Decides E input w v) (fun _ _ => True) :=
      ⟨h.reached, suffix_cons .., headD_deliverTo .., h.decision⟩
    refine .bind (.bind hdelivered fun _ v hv => .asking ?_) fun _ _ hv => .ret hv
    cases E.closes v with
    | none => exact .ret hv
    | some err => exact .fail trivial

/-- The guard of a continuation that was decided on in `w`. -/
theorem Decides.guard {v : World} {payload : ContinuationPayload} (h : Decides E input w v)
    (hstart : w.st.top.start = .agent input) :
    Guard E root v (.continueAsNew
      { input with delegate := w.st.top.budget, continuation := payload }) := by
  obtain ⟨arrivals, htop⟩ := h.waits
  refine ⟨input, payload, w, ?_, ?_, h⟩
  · rw [htop]
    exact hstart
  · rw [htop]
    rfl

theorem buildContinueAsNewInput_held (h : Held E root ((.agent input, some r) :: t) w) :
    Yields (buildContinueAsNewInput E input versions) w
      (fun next v => Held E root ((.agent input, some r) :: t) v ∧ match next with
        | none => True
        | some next => Guard E root v (.continueAsNew next)) (Left E root t) := by
  refine .read (.asking ?_)
  have hstart : w.st.top.start = .agent input := congrArg Prod.fst h.top
  split_ifs with hdecision hversion
  · exact .ret ⟨h, trivial⟩
  all_goals have hdecides : Decides E input w w :=
      ⟨h.sound.chained, suffix_rfl, ⟨{}, deliver_nothing.symm⟩, by simpa using hdecision⟩
  · refine .asking (.bind (Q := fun _ v => Held E root ((.agent input, some r) :: t) v ∧
      Decides E input w v) ?_ fun _ _ hv => .ret ⟨hv.1, hv.2.guard hstart⟩)
    refine .read (.bind (((await_held h).and hdecides.await).post (fun _ _ hv => hv)
      fun _ _ hX => hX.1) fun answer v hv => ?_)
    obtain ⟨hv, hdecided⟩ := hv
    cases answer with
    | error err => exact .fail hv.left
    | ok a =>
      dsimp only
      split_ifs
      · exact .acting (.ret ⟨hv.act trivial rfl, { hdecided with
          earlier := hdecided.earlier.trans (suffix_cons ..) }⟩)
      · exact .ret ⟨hv, hdecided⟩
  · exact .asking (.bind (Q := fun _ v => v = w) (.ret rfl) (by
      rintro _ _ rfl
      exact .ret ⟨h, hdecides.guard hstart⟩))

/-! ## Executions -/

theorem agentWorkflowRound_held (hchild : RunsChild E root child)
    (h : Held E root ((.agent input, some r) :: t) w) (hle : r ≤ round)
    (hlt : round < maxToolRounds) :
    Yields (agentWorkflowRound E child input versions round) w
      (fun ending v => ∃ r', r' ≤ round + 1 ∧ Held E root ((.agent input, some r') :: t) v ∧
        match ending with
        | .next next => Guard E root v (.continueAsNew next)
        | _ => True) (Left E root t) := by
  refine .bind (checkStreamSignal_held h) fun canceled v hv => ?_
  obtain ⟨hv, hcleared⟩ := hv
  cases canceled with
  | true => exact .bind (setLifecycle_held hv) fun _ _ hu => .ret ⟨r, by omega, hu, trivial⟩
  | false =>
    have hrepaired : Held E root ((.agent input, some r) :: t) (v.act step .repair) :=
      hv.act trivial (marks_modifyTop fun _ => rfl)
    refine .acting (.bind (callLLMAndTrackMessage_held hrepaired (hcleared rfl) hle hlt) ?_)
    intro output u hu
    split_ifs
    · refine (finalizeRoundWithoutToolCalls_held hu).post (fun ending x hx => ?_) fun _ _ hX => hX
      refine ⟨round + 1, le_rfl, hx.1, ?_⟩
      cases ending with
      | next next => exact hx.2.elim
      | go | done => trivial
    · refine .bind (executeToolCalls_held hchild (fun _ => ⟨rfl, rfl⟩)
        (fun hv => .bind (setLifecycle_held hv) fun _ _ hu => .ret hu) (failRun_left ·) _ hu)
        fun done x hx => ?_
      cases done with
      | true => exact .ret ⟨round + 1, le_rfl, hx, trivial⟩
      | false =>
        refine .bind (buildContinueAsNewInput_held hx) fun next y hy => ?_
        cases next with
        | none => exact .ret ⟨round + 1, le_rfl, hy.1, trivial⟩
        | some next => exact .ret ⟨round + 1, le_rfl, hy.1, hy.2⟩

def Finished (E : Host) (root : Start) (input : AgentWorkflowInput) (t : List (Start × Option Nat))
    (ending : Ending) (v : World) : Prop :=
  (∃ r, Held E root ((.agent input, some r) :: t) v) ∧
    match ending with
    | .returned result => result.Of v.st.top
    | .next next => Guard E root v (.continueAsNew next)

theorem makeWorkflowResult_finished (h : Held E root ((.agent input, some r) :: t) w) :
    Yields (makeWorkflowResult E >>= fun result => pure (.returned result)) w
      (Finished E root input t) (Left E root t) :=
  .bind (Q := fun result v => v = w ∧ result.Of v.st.top)
    (.read (.asking (.ret ⟨rfl, rfl, rfl, rfl, rfl, rfl, rfl⟩)))
    (by rintro result _ ⟨rfl, hspent⟩; exact .ret ⟨⟨r, h⟩, hspent⟩)

theorem agentRounds_finished (hchild : RunsChild E root child) (remaining : Nat)
    (h : Held E root ((.agent input, some r) :: t) w) (hle : r ≤ round)
    (hrounds : round + remaining = maxToolRounds) :
    Yields (agentRounds E child input versions remaining round) w (Finished E root input t)
      (Left E root t) := by
  induction remaining generalizing w r round with
  | zero => exact .bind (updateStatus_held h) fun _ _ hv => makeWorkflowResult_finished hv
  | succ remaining ih =>
    refine .bind (agentWorkflowRound_held hchild h hle (by omega)) fun ending v hv => ?_
    obtain ⟨r', hr', hv, hguard⟩ := hv
    cases ending with
    | go => exact ih hv hr' (by omega)
    | done => exact makeWorkflowResult_finished hv
    | next next => exact .ret ⟨⟨r', hv⟩, hguard⟩

theorem restoreHistory_held (h : Held E root (m :: t) w) :
    Stays E root m t w (restoreHistory E input versions) := by
  unfold restoreHistory
  split_ifs
  · refine .read (.bind (await_held h) fun answer v hv => ?_)
    cases answer with
    | error err => exact failRun_left hv
    | ok a =>
      dsimp only
      cases loadHistoryActivity a w.st.blobs input.continuation.historyRef with
      | error err => exact failRun_left hv
      | ok messages => exact hv.act trivial (marks_modifyTop fun _ => rfl)
  · exact .ret h

theorem Held.prepared {messages : List Message} {tools : List ToolDef} {mcp : PrepMCPOutput}
    (h : Held E root ((s, none) :: t) w) (htools : tools = s.tools ++ mcp.tools) :
    Held E root ((s, some 0) :: t) (w.act step (.prepared messages tools mcp)) := by
  refine h.enter ⟨congrArg Prod.snd h.top, ?_⟩ (fun _ => rfl) rfl
  have hstart : w.st.top.start = s := congrArg Prod.fst h.top
  rw [hstart]
  exact htools

theorem agentWorkflowInit_held (h : Held E root ((.agent input, none) :: t) w) :
    Yields (agentWorkflowInit E input versions) w (fun _ v => Held E root ((.agent input, some 0) :: t) v)
      (Left E root t) := by
  refine .bind (await_held h) fun answer v hv => ?_
  cases answer with
  | error err => exact failRun_left hv
  | ok a =>
    dsimp only
    split
    · exact failRun_left hv
    · refine .acting (.bind (restoreHistory_held (hv.prepared rfl)) fun _ u hu => .asking ?_)
      exact hu.act trivial (marks_modifyTop fun _ => rfl)

theorem agentWorkflow_finished (hchild : RunsChild E root child)
    (h : Held E root ((.agent input, none) :: t) w) :
    Yields (agentWorkflow E child input) w (Finished E root input t) (Left E root t) := by
  unfold agentWorkflow
  cases input.taskQueues.validateNativeAgent with
  | error err => exact .fail h.left
  | ok _ =>
    have hset : ∀ status, Held E root ((.agent input, none) :: t)
        (w.act step (.setStatus status)) :=
      fun _ => h.act trivial (marks_modifyTop fun _ => rfl)
    refine .asking (.asking (.acting (.bind (agentWorkflowInit_held (hset _)) fun _ _ hv => ?_)))
    exact agentRounds_finished hchild _ hv le_rfl (Nat.zero_add _)

theorem Held.continueAsNew (h : Held E root (m :: t) w)
    (hguard : Guard E root w (.continueAsNew input)) :
    Held E root ((.agent input, none) :: t) (w.act step (.continueAsNew input)) := by
  refine ⟨h.sound.act hguard h.length_pos, ?_⟩
  change (_ :: w.st.frames.tail).map Frame.mark = _
  rw [map_cons, map_tail]
  exact congrArg _ (congrArg tail h.marks)

theorem agentRun_child (n : Nat) : RunsChild E root (agentRun E n) := by
  induction n with
  | zero => exact fun h => .fail h.left
  | succ n ih =>
    intro input w t h
    refine .bind (agentWorkflow_finished ih h) fun ending v hv => ?_
    obtain ⟨⟨r, hv⟩, hending⟩ := hv
    cases ending with
    | returned result => exact .ret ⟨hv.sound, ⟨_, hv.marks⟩, hending⟩
    | next next =>
      exact .acting (.bind (deliver_held (hv.continueAsNew hending)) fun _ _ hu => ih hu)

/-! ## The stream -/

section Stream

variable {input : InitStreamInput}

theorem finishStream_held {event : FinishEvent} (h : Held E root (m :: t) w) :
    Stays E root m t w (finishStream E event) := by
  have hfinish : Held E root (m :: t) (w.act step (.finish event)) := h.act trivial rfl
  refine .acting (.bind (await_held hfinish) fun answer v hv => ?_)
  cases answer with
  | error err => exact .ret hv
  | ok _ => exact .acting (.ret (hv.act trivial rfl))

theorem emitStreamCanceled_held (h : Held E root (m :: t) w) :
    Stays E root m t w (emitStreamCanceled E) :=
  .bind (finishStream_held h) fun _ _ hv => .ret hv

section

variable (hchild : RunsChild E root child)
include hchild

theorem processStreamRound_held (h : Held E root ((s, some r) :: t) w)
    (hcleared : cleared w.log = true) (hle : r ≤ round) (hlt : round < maxToolRounds) :
    Yields (processStreamRound E child input round) w
      (fun _ v => Held E root ((s, some (round + 1)) :: t) v) (Left E root t) := by
  refine .read (.acting (.bind (await_held (h.startLLM hcleared hle hlt rfl)) fun answer v hv => ?_))
  cases answer with
  | error err => exact .fail hv.left
  | ok output =>
    have hanswered : Held E root ((s, some (round + 1)) :: t) (v.act step (.llmStream output)) :=
      hv.act trivial rfl
    refine .acting (.acting ?_)
    split_ifs
    · refine .bind (Q := fun _ u => Held E root ((s, some (round + 1)) :: t) u) (.bind
        (finishStream_held hanswered.say) fun answer u hu => ?_) fun done u hu => ?_
      · cases answer <;> exact .ret hu
      · cases done <;> exact .ret hu
    · exact executeToolCalls_held hchild (fun _ => ⟨rfl, rfl⟩) (fun hv => .ret hv)
        (fun hv => .fail hv.left) _ hanswered.say

theorem streamRounds_left (remaining : Nat) (h : Held E root ((s, some r) :: t) w) (hle : r ≤ round)
    (hrounds : round + remaining = maxToolRounds) :
    Yields (streamRounds E child input remaining round) w (fun _ v => Sound E root v) (Left E root t) := by
  induction remaining generalizing w r round with
  | zero =>
    refine .bind (finishStream_held h) fun answer v hv => ?_
    cases answer with
    | error err => exact .fail hv.left
    | ok _ => exact .ret hv.sound
  | succ remaining ih =>
    have hcanceled : ∀ {r v}, Held E root ((s, some r) :: t) v →
        Yields (emitStreamCanceled E) v (fun _ u => Sound E root u) (Left E root t) := fun hv =>
      (emitStreamCanceled_held hv).post (fun _ _ hu => hu.sound) fun _ _ hX => hX
    refine .bind (checkStreamSignal_held h) fun canceled v hv => ?_
    obtain ⟨hv, hcleared⟩ := hv
    cases canceled with
    | true => exact hcanceled hv
    | false =>
      have hrepaired : Held E root ((s, some r) :: t) (v.act step .repair) :=
        hv.act trivial (marks_modifyTop fun _ => rfl)
      refine .acting (.bind (processStreamRound_held hchild hrepaired (hcleared rfl) hle
        (by omega)) fun ending u hu => ?_)
      cases ending with
      | go => exact ih hu le_rfl (by omega)
      | done => exact .ret hu.sound
      | canceled => exact hcanceled hu

theorem streamAgentWorkflow_left (h : Held E root ((.stream input, none) :: t) w) :
    Yields (streamAgentWorkflow E child input) w (fun _ v => Sound E root v) (Left E root t) := by
  unfold streamAgentWorkflow
  cases input.taskQueues.validateStreamAgent with
  | error err => exact .fail h.left
  | ok _ =>
    refine .bind (await_held h) fun answer v hv => ?_
    cases answer with
    | error err => exact .fail hv.left
    | ok a => exact .acting (streamRounds_left hchild _ (hv.prepared rfl) le_rfl (Nat.zero_add _))

end

end Stream

end Rounds

end Programs

theorem treeRun_sound (E : Host) (n : Nat) (root : Start) : Sound E root (treeRun E n root) := by
  have hstart : Held E root [(root, none)] ((⟨{}, []⟩ : World).act step (.begin root)) :=
    ⟨⟨⟨.inl ⟨rfl, rfl, rfl⟩, trivial⟩, ⟨trivial, trivial⟩, rfl, rfl⟩, rfl⟩
  have hrun : Yields (runTree E n root) ⟨{}, []⟩ (fun _ v => Sound E root v) (Left E root []) := by
    refine .acting (.bind (deliver_held hstart) fun _ v hv => ?_)
    cases root with
    | agent input => exact .bind (agentRun_child n hv) fun _ _ hu => .ret hu.1
    | stream input => exact streamAgentWorkflow_left (agentRun_child n) hv
  exact hrun.world (fun _ _ hv => hv) fun _ _ hv => hv.1

/-- Every act of a delegation tree is guarded, and of a workflow that has begun. -/
theorem tree_acts_guarded (E : Host) (n : Nat) (root : Start) :
    Taken (Guard E root) (treeRun E n root).log ∧ Taken Running (treeRun E n root).log :=
  ⟨(treeRun_sound E n root).guarded, (treeRun_sound E n root).running⟩

/-!
## Queued cancels

Both loops look for a cancel before each call of the model and before each tool call.  The check
takes one command from the channel, or, in a pause, the commands up to the next resume or
cancel.  A cancel that is queued behind them is not seen.
-/

def lastCheck (exec : Nat) : List (Locals × Act) → Option Locals
  | [] => none
  | (l, a) :: earlier =>
      match a with
      | .checked _ => if l.top.exec = exec then some l else lastCheck exec earlier
      | _ => lastCheck exec earlier

def startsWork : Act → Bool
  | .startLLM _ _ | .startTool _ | .startChild _ _ => true
  | _ => false

/-- When work is started, the execution has checked for a cancel, and none was waiting in its
channel at the last check. -/
def Prompt (w : World) (a : Act) : Prop :=
  startsWork a = true →
    (lastCheck w.st.top.exec w.log).any (fun l => .cancel ∉ l.top.commandCh) = true

instance (w : World) (a : Act) : Decidable (Prompt w a) :=
  inferInstanceAs (Decidable (_ = true → _ = true))

/-- The command that ends a check has no cancel behind it. -/
def Unhidden (entry : Locals × Act) : Prop :=
  entry.2.endsCheck = true → .cancel ∉ entry.1.top.commandCh.tail

instance : DecidablePred Unhidden := fun _ => inferInstanceAs (Decidable (_ = true → _))

theorem top_modifyTop {l : Locals} {α : Type} (field : Frame → α)
    (change : α → α) (hg : ∀ f, field (g f) = change (field f))
    (hdefault : field {} = change (field {})) :
    field (l.modifyTop g).top = change (field l.top) := by
  unfold modifyTop top
  cases l.frames with
  | nil => exact hdefault
  | cons f frames => exact hg f

section Log

variable {E : Host} {root : Start} {l : Locals} {log : List (Locals × Act)}

theorem no_cancel_of_passed (hguard : Guard E root ⟨l, log⟩ (.checked false))
    (hchained : Chained step {} l log) (hunhidden : ∀ e ∈ log, Unhidden e) :
    .cancel ∉ l.top.commandCh := by
  rcases hguard rfl with hempty | hended
  · have hempty : l.top.commandCh = [] := hempty
    rw [hempty]
    exact not_mem_nil
  · cases log with
    | nil => cases hended
    | cons entry earlier =>
      obtain ⟨l', a⟩ := entry
      cases a with
      | receive reader c =>
        have htail : l.top.commandCh = l'.top.commandCh.tail := by
          rw [hchained.1]
          exact top_modifyTop Frame.commandCh tail (fun _ => rfl) rfl
        rw [htail]
        exact hunhidden _ mem_cons_self hended
      | _ => cases hended

theorem lastCheck_of_cleared (hcleared : cleared log = true)
    (hchained : Chained step {} l log) (hguarded : Taken (Guard E root) log)
    (hunhidden : ∀ e ∈ log, Unhidden e) :
    (lastCheck l.top.exec log).any (fun l => .cancel ∉ l.top.commandCh) = true := by
  induction log generalizing l with
  | nil => cases hcleared
  | cons entry earlier ih =>
    obtain ⟨l', a⟩ := entry
    obtain ⟨rfl, hchained⟩ := hchained
    have hearlier := forall_mem_of_forall_mem_cons hunhidden
    cases a with
    | checked canceled =>
      obtain rfl : canceled = false := by simpa [cleared] using hcleared
      have hnone := no_cancel_of_passed hguarded.1 hchained hearlier
      simpa [lastCheck, step] using hnone
    | repair =>
      have hexec : (l'.step .repair).top.exec = l'.top.exec :=
        top_modifyTop Frame.exec id (fun _ => rfl) rfl
      rw [hexec]
      exact ih hcleared hchained hguarded.2 hearlier
    | decide => exact ih hcleared hchained hguarded.2 hearlier
    | _ => cases hcleared

theorem Sound.prompt {w : World} (h : Sound E root w) (hunhidden : LogMeets Unhidden w) :
    Taken Prompt w.log := by
  obtain ⟨hguarded, -, hchained⟩ := h
  unfold LogMeets at hunhidden
  generalize w.st = l at hchained
  generalize w.log = log at hguarded hchained hunhidden ⊢
  induction log generalizing l with
  | nil => trivial
  | cons entry earlier ih =>
    obtain ⟨l', a⟩ := entry
    obtain ⟨hguard, hguarded⟩ := hguarded
    have hearlier := forall_mem_of_forall_mem_cons hunhidden
    refine ⟨fun hstarts => ?_, ih l' hguarded hchained.2 hearlier⟩
    have hcleared : cleared earlier = true := by
      cases a with
      | startLLM round call | startChild d accepted => exact hguard.1
      | startTool input => exact hguard
      | _ => cases hstarts
    exact lastCheck_of_cleared hcleared hchained.2 hguarded hearlier

end Log

/-- In every run in which no check ends with a command that hides a cancel, work is started only
when no cancel was waiting at the last check. -/
theorem no_work_past_queued_cancel (E : Host) (n : Nat) (root : Start)
    (h : LogMeets Unhidden (treeRun E n root)) : Taken Prompt (treeRun E n root).log :=
  (treeRun_sound E n root).prompt h

def agentQueues : WorkflowTaskQueues where
  nativeControl := "control"
  nativeLLM := "llm"
  nativeTool := "tool"
  stream := "stream"

/-- A host whose model answers at once, with the commands that wait when the run starts. -/
def commandHost (commands : List Command) : Host where
  arrivals w := if w.log.length = 1 then [{ commands }] else []
  llmStep _ := some (.ok { content := "done" })
  llmStream _ := some (.ok {})
  parseDelegateArgs _ := .ok {}

def plainRoot : Start := .agent { taskQueues := agentQueues }

/-- The commands wait when the run starts: a run that is paused and resumed calls the model, and
of a cancel with a pause behind it the check takes the cancel. -/
theorem no_work_past_queued_cancel_read :
    (∀ commands ∈ [[.pause, .resume], [.cancel, .pause]],
      LogMeets Unhidden (treeRun (commandHost commands) 1 plainRoot)) ∧
    Taken Prompt (treeRun (commandHost [.pause, .resume]) 1 plainRoot).log ∧
    Taken Prompt (treeRun (commandHost [.cancel, .pause]) 1 plainRoot).log :=
  have hunhidden : ∀ commands ∈ [[.pause, .resume], [.cancel, .pause]],
      LogMeets Unhidden (treeRun (commandHost commands) 1 plainRoot) := by
    decide +kernel
  ⟨hunhidden, no_work_past_queued_cancel _ _ _ (hunhidden _ (by decide)),
    no_work_past_queued_cancel _ _ _ (hunhidden _ (by decide))⟩

/-- A resume and a cancel are queued before the first round.  The check takes the resume, and
the model is called. -/
theorem work_past_queued_cancel :
    ¬ Taken Prompt (treeRun (commandHost [.resume, .cancel]) 1 plainRoot).log := by
  decide +kernel

end AgentOS.Agent
