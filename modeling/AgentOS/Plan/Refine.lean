import AgentOS.Plan.Table

/-!
# The plan loop follows its automaton

Every run of the workflow of `AgentOS.Plan.Loop` is a path of the automaton of
`AgentOS.Plan.Table`.

Each procedure of the loop has one lemma, named after it, that says from which
point it starts and at which points it ends.  `Goes` states this for a procedure
in general, `Handles` for a part of the handling of a node, and `Arrives` where the
end is not a point alone.  The lemmas follow the calls of the source, from
`applyPlanStateEvent` up to one iteration (`follows_advance`), one step of an
execution (`Exec.step_path`) and a whole run (`planRun_path`).
-/

namespace AgentOS.Plan

open Kit Prog

variable {E : Host} {x : Execution} {p : Point} {w : World} {α β : Type}

/-! ## Rules for the parts of a procedure -/

variable {f : α → Workflow β} {err : Err}

section Rules

variable {R : β → Config → Prop} {X : Err → Config → Prop} {c : Config}

theorem follows_now {f : Time → Workflow β}
    (h : ∀ time, time = (E.now c.2).val → Follows (Move E) (f time) c R X) :
    Follows (Move E) (now E >>= f) c R X := h _ rfl

theorem follows_query {q : World → α} (h : Follows (Move E) (f (q c.2)) c R X) :
    Follows (Move E) (query q >>= f) c R X := h

theorem follows_ok {a : α} (h : Follows (Move E) (f a) c R X) :
    Follows (Move E) (ofExcept (.ok a) >>= f) c R X := h

theorem follows_ofExcept {r : Except Err α} (hok : ∀ a, r = .ok a → Follows (Move E) (f a) c R X)
    (herror : ∀ err, r = .error err → Follows (Move E) (fail err : Workflow β) c R X) :
    Follows (Move E) (ofExcept r >>= f) c R X := by
  cases r with
  | ok a => exact hok a rfl
  | error err => exact herror err rfl

/-- A call of an activity takes the row of its answer. -/
theorem follows_ask {answer : World → α} {act : α → Act} {a : α}
    {p' : Point} (hanswer : answer w = a) (hrow : Asks E x w p (act a) p')
    (h : ∀ arrivals, Follows (Move E) (f a) ((x, p'), asked w (act a) arrivals) R X) :
    Follows (Move E) (ask E answer act >>= f) ((x, p), w) R X := by
  subst hanswer
  have hpath : Relation.ReflTransGen (Move E) ((x, p), w)
      ((x, p'), asked w (act (answer w)) (E.arrivals (w.act Locals.step (act (answer w))))) :=
    .single (.ask hrow)
  exact .bind (Q := fun a d => a = answer w ∧ ∃ arrivals,
      d = ((x, p'), asked w (act (answer w)) arrivals)) ⟨(x, p'), hpath, rfl, _, rfl⟩
    (by rintro a d ⟨rfl, arrivals, rfl⟩; exact h arrivals)

/-- An action takes its row. -/
theorem follows_emit {act : Act} {f : Unit → Workflow β} {p' : Point} (hrow : Says E x w p act p')
    (h : Follows (Move E) (f ()) ((x, p'), w.act Locals.step act) R X) :
    Follows (Move E) (emit act >>= f) ((x, p), w) R X :=
  .bind (Q := fun _ d => d = ((x, p'), w.act Locals.step act)) (.emit (.say hrow) rfl)
    (by rintro _ d rfl; exact h)

end Rules

abbrev Point.leavingWith (err : Err) : Point := .leaving (.error err)

/-- From the point `p` the procedure leads to the point `ok` of its answer, or to the point `bad`
of its error. -/
def Goes (E : Host) (x : Execution) (w : World) (p : Point) (ok : α → Point) (bad : Err → Point)
    (procedure : Workflow α) : Prop :=
  Follows (Move E) procedure ((x, p), w) (fun a d => d.1 = (x, ok a))
    (fun err d => d.1 = (x, bad err))

theorem Goes.extend {q q' : α → Point} {r r' : Err → Point} {procedure : Workflow α}
    (h : Goes E x w p q r procedure) (hok : ∀ a v, Skips E x v (q a) (q' a))
    (hbad : ∀ err v, Skips E x v (r err) (r' err)) : Goes E x w p q' r' procedure := by
  refine Follows.extend h ?_ ?_
  · rintro a q v rfl
    exact ⟨_, .skip (hok a v), rfl⟩
  · rintro err q v rfl
    exact ⟨_, .skip (hbad err v), rfl⟩

/-- From the point `p` the procedure ends as `Q` says, or leaves the loop with its error. -/
def Arrives (E : Host) (x : Execution) (w : World) (p : Point) (Q : α → Config → Prop)
    (procedure : Workflow α) : Prop :=
  Follows (Move E) procedure ((x, p), w) Q (fun err d => d.1 = (x, .leavingWith err))

/-! ## State events -/

variable {spec : RunPlanSpec}

theorem stateEventIdempotencyKey_ok
    (hscope : validateRunPlanScope spec = .ok ()) (event : StateEvent) :
    ∃ key, stateEventIdempotencyKey E.digest spec.planID event = .ok key := by
  unfold stateEventIdempotencyKey requirePlanID
  rw [if_neg (planID_ne_of_scope hscope)]
  exact ⟨_, rfl⟩

/-- `applyPlanStateEvent` does what `Posted` says. -/
theorem posted_run (spec : RunPlanSpec) (event : StateEvent) :
    Posted E spec event w
      (match ((applyPlanStateEvent E spec event).run w).1 with
        | .ok () => none
        | .error err => some err)
      ((applyPlanStateEvent E spec event).run w).2 := by
  unfold applyPlanStateEvent
  simp only [bind, andThen, now, query, state, emit]
  cases hreduced : (reduced w (E.now w) event).2 with
  | some err =>
    have happly := hreduced
    unfold reduced at happly
    simp only [happly, orErr, fail]
    exact .refused rfl hreduced
  | none =>
    have happly := hreduced
    unfold reduced at happly
    simp only [happly, orErr, pure]
    cases hscope : validateRunPlanScope spec with
    | error err =>
      exact .unscoped rfl hreduced hscope
    | ok =>
      obtain ⟨key, hkey⟩ := stateEventIdempotencyKey_ok (E := E) hscope
        { stamped w.st (E.now w) event with
          nextLifecycleState := lifecycleForEvent
            (applied w (E.now w) event).st.state.status (stamped w.st (E.now w) event) }
      unfold applied at hkey
      simp only [ofExcept, pure, hkey, ask, arrive, bind, andThen, query, emit]
      generalize hanswer : E.persist _ = answer
      cases answer with
      | none | some err => exact .answered rfl hreduced hscope rfl

variable {event : StateEvent} {bad : Err → Point}

variable {ok : Point} {acted : Bool} {reason : String} {c : Config}

theorem follows_applyPlanStateEvent (hrow : Posts E x w p spec event ok bad) :
    Goes E x w p (fun _ => ok) bad (applyPlanStateEvent E spec event) := by
  have hposted := posted_run (E := E) (w := w) spec event
  unfold Goes Follows Yields
  generalize (applyPlanStateEvent E spec event).run w = result at hposted ⊢
  obtain ⟨outcome, v⟩ := result
  cases outcome with
  | ok _ => exact ⟨(x, ok), .single (.saved hrow hposted), rfl⟩
  | error err => exact ⟨(x, bad err), .single (.unsaved hrow hposted), rfl⟩

theorem follows_applyEvent (hrow : Posts E x w p w.st.spec event ok bad) :
    Goes E x w p (fun _ => ok) bad (applyEvent E event) :=
  .read (follows_applyPlanStateEvent hrow)

/-! ## The handling of a node -/

variable {input : List (String × Json)} {attempt : Int} {planID : String} {status : PlanNodeStatus}

section Node

variable {site : Site} {node : PlanNodeSpec} {work work' : Work}

/-- The handling of the node starts with `work` and ends with `done`, or with an
error. -/
def Handles (E : Host) (x : Execution) (site : Site) (node : PlanNodeSpec) (w : World)
    (work : Work) (done : α → Work) (procedure : Workflow α) : Prop :=
  Follows (Move E) procedure ((x, .node site node work), w)
    (fun a d => d.1 = (x, .node site node (done a)))
    (fun err d => d.1 = (x, .node site node (.broken err)))

theorem handles_applyEvent (hrow : NodePosts node w work w.st.spec event work') :
    Handles E x site node w work (fun _ => work') (applyEvent E event) :=
  follows_applyEvent (.node hrow)

theorem handles_applyNodeAttemptFailure (runID reason : String) :
    Handles E x site node w (.attemptFailed runID reason) (fun _ => .over true)
      (applyNodeAttemptFailure E node runID reason) := by
  refine .read ?_
  cases hstatus : w.st.state.nodeStatus node.nodeID with
  | none => exact .skip (.skip (.node (.unknown hstatus))) (.fail rfl)
  | some current =>
    change Follows _ (if failedAttempt current < maxNodeAttempts node.policy then _ else _) _ _ _
    by_cases hleft : failedAttempt current < maxNodeAttempts node.policy
    · rw [if_pos hleft]
      exact .skip (.skip (.node (.retried hstatus hleft))) (handles_applyEvent .close)
    · rw [if_neg hleft]
      exact .skip (.skip (.node (.exhausted hstatus hleft))) (handles_applyEvent .close)

theorem handles_applyRunBudgetUsage (status : RunStatus) :
    Handles E x site node w (.ended status) (fun _ => .charged status)
      (applyRunBudgetUsage E node status) := by
  unfold applyRunBudgetUsage
  split_ifs with hzero hnegative
  · exact .skip (.skip (.node (.free hzero))) (.ret rfl)
  · exact .skip (.skip (.node (.overdrawn hnegative))) (.fail rfl)
  · exact handles_applyEvent (.budget (by omega))

theorem evaluatePlanExpansionActivity_delta {v : Validator} {count : Int}
    {answer : Except Err (Option PlanDelta)} {expansion : PlanExpansion}
    (h : evaluatePlanExpansionActivity v spec count answer = .ok (some expansion)) :
    answer = .ok (some expansion.delta) := by
  obtain ⟨delta, hdelta, h⟩ := bind_ok h
  cases delta with
  | none => cases h
  | some delta =>
    obtain ⟨applied, -, h⟩ := bind_ok h
    obtain ⟨validation, -, h⟩ := bind_ok h
    cases h
    exact hdelta

theorem handles_applyPlanExpansion (status : RunStatus) (artifacts : List ArtifactRef) :
    Handles E x site node w (.fulfilled status artifacts)
      (fun _ => .closing (succeededEvent node status))
      (applyPlanExpansion E node artifacts) := by
  unfold applyPlanExpansion
  split_ifs with hdelta
  · exact .skip (.skip (.node (.unexpanded (by simpa using hdelta)))) (.ret rfl)
  refine .read ?_
  cases hanswer : evaluatePlanExpansionActivity (E.validator w) w.st.spec
      w.st.expansionCount (E.nextPlanDelta w) with
  | error err =>
    refine follows_ask hanswer (.node .expansionRefused) fun arrivals => ?_
    exact .fail rfl
  | ok expanded =>
    cases expanded with
    | none =>
      refine follows_ask hanswer (.node .expansionNone) fun arrivals => ?_
      exact .ret rfl
    | some expansion =>
      have hdelta' := evaluatePlanExpansionActivity_delta hanswer
      rw [hdelta'] at hanswer
      refine follows_ask (by rw [hdelta', hanswer])
        (.node (.expansionSome hanswer)) fun arrivals => ?_
      refine follows_ok (.next (follows_applyPlanStateEvent (.node .expansion)) fun _ w' => ?_)
      exact .emit (.say (.node .adopted)) rfl

theorem handles_applyNodeRunOutcome (status : RunStatus) (artifacts : List ArtifactRef) :
    Handles E x site node w (.published status artifacts) (fun _ => .over true)
      (applyNodeRunOutcome E node status artifacts) := by
  unfold applyNodeRunOutcome
  cases hstate : status.lifecycleState with
  | completed | succeeded =>
    cases hrequired : validateRequiredArtifacts node.outputs artifacts with
    | error err => exact .skip (.skip (.node .incomplete)) (handles_applyNodeAttemptFailure _ _)
    | ok =>
      refine .skip (.skip (.node (.fulfilled hrequired))) ?_
      exact .next (handles_applyPlanExpansion status artifacts) fun _ w' =>
        handles_applyEvent .close
  | failed => exact .skip (.skip (.node .incomplete)) (handles_applyNodeAttemptFailure _ _)
  | canceled => exact .skip (.skip (.node .canceled)) (handles_applyEvent .close)
  | other name => exact .skip (.skip (.node (.unfinished hstate))) (.ret rfl)

theorem publishPlanArtifactsActivity_ok
    {status : RunStatus} {stored : Option Err} {refs : List ArtifactRef}
    (h : publishPlanArtifactsActivity planID node status stored = .ok refs) :
    normalizeRunArtifacts planID node status = .ok refs := by
  obtain ⟨normal, hnormal, h⟩ := bind_ok h
  rw [hnormal]
  cases stored with
  | none =>
    split_ifs at h
    · obtain ⟨⟨⟩, -, h⟩ := bind_ok h
      exact h
    · exact h
  | some err =>
    split_ifs at h
    obtain ⟨⟨⟩, -, h⟩ := bind_ok h
    cases h

theorem handles_applyNodeRunTerminal (status : RunStatus) :
    Handles E x site node w (.ended status) (fun _ => .over true)
      (applyNodeRunTerminal E node status) := by
  refine .next (handles_applyRunBudgetUsage status) fun _ w₁ => ?_
  refine .read ?_
  cases hanswer : publishPlanArtifactsActivity w₁.st.spec.planID node status (E.publish w₁) with
  | error err =>
    exact follows_ask hanswer (.node .unpublished) fun _ => handles_applyEvent .close
  | ok artifacts =>
    cases artifacts with
    | nil =>
      exact follows_ask hanswer (.node .publishedNone) fun _ =>
        handles_applyNodeRunOutcome status []
    | cons artifact rest =>
      refine follows_ask hanswer (.node (.published (List.cons_ne_nil _ _)
        (publishPlanArtifactsActivity_ok hanswer))) fun _ => ?_
      exact .next (handles_applyEvent .artifacts) fun _ w₂ =>
        handles_applyNodeRunOutcome status (artifact :: rest)

theorem handles_applyNexusNodePromise {polled : Bool} {current : PlanNodeStatus}
    {outcome : Except NexusFailure RunStatus}
    (hsettled : (w.st.nodeRuns.get? current.runID).bind PlanNodeRun.future = some outcome) :
    Handles E x site node w (.running polled current) Work.over
      (applyNexusNodePromise E current node outcome) := by
  cases outcome with
  | error failure =>
    refine follows_emit (.node (.promiseFailed hsettled)) ?_
    exact .next (handles_applyEvent .close) fun _ _ => .ret rfl
  | ok status =>
    cases hterminal : status.lifecycleState.terminal with
    | true =>
      refine follows_emit (.node (.promiseEnded hsettled hterminal)) ?_
      simp only [hterminal, if_true]
      exact .next (handles_applyNodeRunTerminal status) fun _ _ => .ret rfl
    | false =>
      refine follows_emit (.node (.promiseLive hsettled hterminal)) ?_
      simp only [hterminal, Bool.false_eq_true, if_false]
      exact .ret rfl

theorem handles_refreshRunningPlanNode (current : PlanNodeStatus) :
    Handles E x site node w (.running true current) Work.over
      (refreshRunningPlanNode E current node) := by
  refine .read ?_
  cases hrun : w.st.nodeRuns.get? current.runID with
  | some run =>
    dsimp only
    cases hfuture : run.future with
    | none =>
      exact .skip (.skip (.node (.pending (by rw [hrun, Option.bind_some, hfuture])))) (.ret rfl)
    | some outcome =>
      exact handles_applyNexusNodePromise (by rw [hrun, Option.bind_some, hfuture])
  | none =>
    cases hanswer : E.statusNode w with
    | error err =>
      refine follows_ask hanswer (.node (.statusFailed err.text hrun)) fun _ => ?_
      exact .next (handles_applyEvent .close) fun _ _ => .ret rfl
    | ok status =>
      cases hterminal : status.lifecycleState.terminal with
      | true =>
        refine follows_ask hanswer (.node (.statusEnded hrun hterminal)) fun _ => ?_
        simp only [hterminal, if_true]
        exact .next (handles_applyNodeRunTerminal status) fun _ _ => .ret rfl
      | false =>
        refine follows_ask hanswer (.node (.statusLive hrun hterminal)) fun _ => ?_
        simp only [hterminal, Bool.false_eq_true, if_false]
        exact .ret rfl

theorem handles_cancelTimedOutNode (current : PlanNodeStatus) :
    Handles E x site node w (.running true current) (fun _ => .timedOut current)
      (cancelTimedOutNode E current) := by
  refine .read ?_
  split_ifs with hunnamed
  · exact .skip (.skip (.node (.uncancelable (.inl hunnamed)))) (.fail rfl)
  refine follows_ofExcept (fun key _ => ?_) fun err herr =>
    .skip (.skip (.node (.uncancelable (.inr herr)))) (.fail rfl)
  cases hanswer : E.controlNode w with
  | none => exact follows_ask hanswer (.node (.cancelSent hunnamed)) fun _ => .ret rfl
  | some err => exact follows_ask hanswer (.node (.cancelFailed hunnamed)) fun _ => .fail rfl

theorem handles_handleTimedOutPlanNode (current : PlanNodeStatus) :
    Handles E x site node w (.running true current) Work.over
      (handleTimedOutPlanNode E current node) := by
  refine .next (handles_cancelTimedOutNode current) fun _ w₁ => ?_
  refine follows_emit (.node (.operationCanceled ("node timed out after " ++
    toString node.policy.timeoutSeconds ++ " seconds"))) ?_
  exact .next (handles_applyNodeAttemptFailure _ _) fun _ _ => .ret rfl

theorem nodeForAttempt_nodeID {attemptNode : PlanNodeSpec}
    (h : nodeForAttempt E planID node attempt = .ok attemptNode) :
    attemptNode.nodeID = node.nodeID := by
  unfold nodeForAttempt at h
  split_ifs at h
  obtain ⟨key, -, h⟩ := bind_ok h
  cases h
  rfl

/-- The start of the node `nodeID` goes on with `work` at its copy `node`.  It ends
with the node handled, or broken. -/
def Starts (E : Host) (x : Execution) (site : Site) (nodeID : String) (node : PlanNodeSpec)
    (w : World) (work : Work) (procedure : Workflow Unit) : Prop :=
  Follows (Move E) procedure ((x, .node site node work), w)
    (fun _ d => ∃ node' : PlanNodeSpec, node'.nodeID = nodeID ∧
      d.1 = (x, .node site node' (.over true)))
    (fun err d => ∃ node' : PlanNodeSpec, node'.nodeID = nodeID ∧
      d.1 = (x, .node site node' (.broken err)))

theorem Handles.starts {nodeID : String} {work : Work} {procedure : Workflow Unit}
    (hnode : node.nodeID = nodeID)
    (h : Handles E x site node w work (fun _ => .over true) procedure) :
    Starts E x site nodeID node w work procedure :=
  .post h (fun _ _ hd => ⟨node, hnode, hd⟩) (fun _ _ hd => ⟨node, hnode, hd⟩)

theorem Handles.andStarts {nodeID : String} {part : Workflow Unit}
    {rest : Workflow Unit} (hnode : node.nodeID = nodeID)
    (h : Handles E x site node w work (fun _ => work') part)
    (hrest : ∀ w', Starts E x site nodeID node w' work' rest) :
    Starts E x site nodeID node w work (part >>= fun _ => rest) :=
  .next (.post h (fun _ _ hd => hd) (fun _ _ hd => ⟨node, hnode, hd⟩)) fun _ w' => hrest w'

theorem handles_startPlanNodeViaNexus (hnexus : x.runtime.nexusNodeRuns = true) :
    Handles E x site node w (.started attempt input) (fun _ => .over true)
      (startPlanNodeViaNexus E x.runtime node
        { node with run := { node.run with input := input } } attempt) := by
  have hbroken : ∀ err, Handles E x site node w (.started attempt input) (fun _ => .over true)
      (fail err : Workflow Unit) := fun err =>
    .skip (.skip (.node (.unlaunched hnexus))) (.fail rfl)
  have hlaunch : ∀ key, Handles E x site node w (.started attempt input) (fun _ => .over true) (do
        let endpoint ← ofExcept
          (nexusEndpointFor x.runtime.nexusPeers x.runtime.nexusEndpoint node.peer)
        emit (.startNexus node.nodeID
          { node.run with
            input := input
            accountID := w.st.spec.accountID
            projectID := w.st.spec.projectID
            idempotencyKey := key } endpoint)) := fun key =>
    follows_ofExcept (fun _ _ => .emit (.say (.node (.launched hnexus))) rfl)
      fun err _ => hbroken err
  refine .read ?_
  split_ifs with hkey
  · exact follows_ofExcept (fun key _ => hlaunch key) fun err _ => hbroken err
  · exact hlaunch _

/-- The reason of an attempt whose start failed. -/
def startFailure (attempt : Int) (err : Err) : String :=
  "start attempt " ++ toString attempt ++ " failed: " ++ err.text

theorem follows_startPlanNodeActivity :
    Goes E x w (.node site node (.started attempt input)) (fun status => .node site node
        (if status.lifecycleState.terminal then .ended status else .over true))
      (fun err => .node site node (.attemptFailed node.run.runID (startFailure attempt err)))
      (startPlanNodeActivity E { node with run := { node.run with input := input } } attempt) := by
  refine .read ?_
  refine follows_ofExcept (fun request hrequest => ?_) fun err _ =>
    .skip (.skip (.node .unrequested)) (.fail rfl)
  cases hanswer : E.startNode w with
  | error err =>
    exact follows_ask hanswer (.node (.startFailed hrequest)) fun _ => .fail rfl
  | ok status =>
    cases hnamed : startPlanNodeAnswer request status with
    | error err =>
      refine follows_ask hanswer (.node (.startForeign (startFailure attempt err)
        hrequest hnamed)) fun _ => follows_ok ?_
      simp only [hnamed]
      exact .fail rfl
    | ok named =>
      cases hterminal : named.lifecycleState.terminal with
      | true =>
        refine follows_ask hanswer (.node (.startEnded hrequest hnamed hterminal)) fun _ =>
          follows_ok ?_
        simp only [hnamed]
        exact .ret (by simp [hterminal])
      | false =>
        refine follows_ask hanswer (.node (.startLive hrequest hnamed hterminal)) fun _ =>
          follows_ok ?_
        simp only [hnamed]
        exact .ret (by simp [hterminal])

theorem handles_startResolvedPlanNode :
    Handles E x site node w (.started attempt input) (fun _ => .over true)
      (startResolvedPlanNode E x.runtime node
        { node with run := { node.run with input := input } } attempt) := by
  unfold startResolvedPlanNode
  split_ifs with hnexus
  · exact handles_startPlanNodeViaNexus hnexus
  refine .nextAttempt follows_startPlanNodeActivity (fun status w₁ => ?_) fun err w₁ =>
    handles_applyNodeAttemptFailure _ _
  dsimp only
  split_ifs
  · exact handles_applyNodeRunTerminal status
  · exact .ret rfl

/-- Where `resolvePlanNodeAttempt` ends: the node is handled, or its attempt is accepted
and starts with the resolved input. -/
def Resolved (x : Execution) (site : Site) (nodeID : String) (attempt : Int) :
    Option (PlanNodeSpec × PlanNodeSpec) → Config → Prop
  | none, d => ∃ node : PlanNodeSpec, node.nodeID = nodeID ∧ d.1 = (x, .node site node (.over true))
  | some (node, attemptNode), d => ∃ input, node.nodeID = nodeID ∧
      attemptNode = { node with run := { node.run with input := input } } ∧
      d.1 = (x, .node site node (.started attempt input))

def resolveFailure (attempt : Int) (err : Err) : String :=
  "resolve input for attempt " ++ toString attempt ++ " failed: " ++ err.text

theorem follows_resolvePlanNodeAttempt :
    Follows (Move E)
      (resolvePlanNodeAttempt E node (nextNodeAttempt w.st.state node.nodeID))
      ((x, .node site node .readied), w)
      (Resolved x site node.nodeID (nextNodeAttempt w.st.state node.nodeID))
      (fun err d => ∃ node' : PlanNodeSpec, node'.nodeID = node.nodeID ∧
        d.1 = (x, .node site node' (.broken err))) := by
  refine .read ?_
  refine follows_ofExcept (fun attemptNode hattempt => ?_) fun err herr =>
    .skip (.skip (.node (.unprepared herr))) (.fail ⟨node, rfl, rfl⟩)
  have hnode := nodeForAttempt_nodeID hattempt
  cases hanswer : E.resolveInput w with
  | error err =>
    refine follows_ask hanswer (.node (.unresolved (resolveFailure
      (nextNodeAttempt w.st.state node.nodeID) err) hattempt)) fun _ => ?_
    refine .bind (Handles.starts hnode (handles_applyNodeAttemptFailure _ _)) fun _ _ hd => ?_
    exact .ret hd
  | ok resolved =>
    obtain ⟨input, trace⟩ := resolved
    refine follows_ask hanswer (.node (.resolved hattempt)) fun _ => ?_
    refine .next (.post (handles_applyEvent .inputResolved) (fun _ _ hd => hd)
      fun _ _ hd => ⟨attemptNode, hnode, hd⟩) fun _ w₁ => ?_
    refine .next (.post (handles_applyEvent .started) (fun _ _ hd => hd)
      fun _ _ hd => ⟨attemptNode, hnode, hd⟩) fun _ w₂ => ?_
    exact .ret ⟨input, hnode, rfl, rfl⟩

theorem starts_startReadiedPlanNode :
    Starts E x site node.nodeID node w .readied (startReadiedPlanNode E x.runtime node) := by
  refine .read ?_
  refine .bind follows_resolvePlanNodeAttempt fun resolved d hd => ?_
  cases resolved with
  | none => exact .ret hd
  | some nodes =>
    obtain ⟨p', w'⟩ := d
    obtain ⟨attempted, attemptNode⟩ := nodes
    obtain ⟨input, hnode, rfl, hp⟩ := hd
    cases hp
    exact Handles.starts hnode handles_startResolvedPlanNode

theorem starts_startPlanNode :
    Starts E x site node.nodeID node w .opening (startPlanNode E x.runtime node) := by
  have hready : ∀ w', Starts E x site node.nodeID node w' .announced (do
      applyEvent E { kind := .nodeReady, nodeID := node.nodeID }
      startReadiedPlanNode E x.runtime node) := fun w' =>
    Handles.andStarts rfl (handles_applyEvent .ready) fun _ => starts_startReadiedPlanNode
  refine .read ?_
  cases hfound : mapGet w.st.validation.capabilitiesByNode node.nodeID with
  | some capability =>
    exact Handles.andStarts rfl (handles_applyEvent (.capability hfound)) hready
  | none => exact .skip (.skip (.node (.noCapability hfound))) (hready w)

end Node

/-! ## The loops over the nodes -/

/-- A loop over the node list, which is read again for each node. -/
theorem follows_overNodes {body : PlanNodeStatus → Workflow Bool} (pt : Bool → Point)
    (hbody : ∀ acted w status, status ∈ w.st.state.status.nodes →
      Goes E x w (pt acted) (fun b => pt (acted || b)) bad (body status))
    (rounds i : Nat) (acted : Bool) :
    Goes E x w (pt acted) (fun b => pt (acted || b)) bad (overNodes body rounds i) := by
  induction rounds generalizing i acted w with
  | zero => exact .ret (by simp)
  | succ rounds ih =>
    refine .read ?_
    cases hget : w.st.state.status.nodes[i]? with
    | none => exact .ret (by simp)
    | some status =>
      refine .next (hbody acted w status (List.mem_of_getElem? hget)) fun b w₁ => ?_
      refine .next (ih (i + 1) (acted || b)) fun later w₂ => ?_
      exact .ret (by simp only [Bool.or_assoc])

theorem follows_applySettledNexusNodePromise (hmem : status ∈ w.st.state.status.nodes) :
    Goes E x w .settlingNodes (fun _ => .settlingNodes) .leavingWith
      (applySettledNexusNodePromise E status) := by
  unfold applySettledNexusNodePromise
  split_ifs with hidle
  · exact .ret rfl
  obtain ⟨hrunning, hnamed⟩ : status.lifecycleState = .running ∧ status.runID ≠ "" := by
    simpa [not_or] using hidle
  refine .read ?_
  cases hsettled : (w.st.nodeRuns.get? status.runID).bind PlanNodeRun.future with
  | none => exact .ret rfl
  | some outcome =>
    refine follows_ofExcept (fun node hnode => ?_) fun err herr =>
      .skip (.skip (.settleUnknown hmem hrunning herr)) (.fail rfl)
    refine .skip (.skip (.settleNode hmem hrunning hnamed hnode)) ?_
    exact Goes.extend (handles_applyNexusNodePromise hsettled) (fun _ _ => .settleOver)
      fun _ _ => .settleBroken

theorem follows_pollRunningPlanNode {time : Time} (hmem : status ∈ w.st.state.status.nodes) :
    Goes E x w (.polling acted) (fun b => .polling (acted || b)) .failing
      (pollRunningPlanNode E time status) := by
  have hdone : ∀ {node : PlanNodeSpec} {procedure : Workflow Bool} {w : World},
      Handles E x (.poll acted) node w (.running true status) Work.over procedure →
      Goes E x w (.node (.poll acted) node (.running true status)) (fun b => .polling (acted || b))
        .failing procedure :=
    fun h => Goes.extend h (fun _ _ => .pollOver) fun _ _ => .pollBroken
  unfold pollRunningPlanNode
  by_cases hrunning : status.lifecycleState = .running
  swap
  · rw [if_pos hrunning]
    exact .ret (by simp)
  rw [if_neg (not_not_intro hrunning)]
  refine .read ?_
  refine follows_ofExcept (fun node hnode => ?_) fun err herr =>
    .skip (.skip (.pollUnknown hmem hrunning herr)) (.fail rfl)
  refine .skip (.skip (.pollNode hmem hrunning hnode)) (hdone ?_)
  split_ifs with htimeout hunnamed
  · exact handles_handleTimedOutPlanNode status
  · refine .skip (.skip (.node (.unnamed hunnamed))) ?_
    exact .next (handles_applyEvent .close) fun _ _ => .ret rfl
  · exact handles_refreshRunningPlanNode status

theorem follows_pollRunningPlanNodes :
    Goes E x w (.polling acted) (fun b => .polling (acted || b)) .failing
      (pollRunningPlanNodes E) :=
  follows_now fun _ _ => .read
    (follows_overNodes .polling (fun _ _ _ hmem => follows_pollRunningPlanNode hmem) _ _ _)

theorem follows_settleNexusNodePromises :
    Arrives E x w .settling (fun _ d => (d.1 = (x, .settling) ∧ (x.runtime.nexusNodeRuns = false ∨
        hasRunningPendingPromise d.2.st = false)) ∨ d.1 = (x, .settlingNodes))
      (settleNexusNodePromises E x.runtime) := by
  refine .read ?_
  split_ifs with hidle
  · refine .ret (.inl ⟨rfl, ?_⟩)
    simpa using hidle
  obtain ⟨hnexus, hpending⟩ :
      x.runtime.nexusNodeRuns = true ∧ hasRunningPendingPromise w.st = true := by
    simpa using hidle
  cases hanswer : E.wait w with
  | some err =>
    refine .bind (Q := fun _ _ => False) ?_ fun _ _ hfalse => hfalse.elim
    exact follows_ask hanswer (.awaitFailed hnexus hpending) fun _ => .fail rfl
  | none =>
    refine .next (p := fun _ => (x, .settlingNodes)) ?_ fun _ w₁ => ?_
    · exact follows_ask hanswer (.awaited hnexus hpending) fun _ => .ret rfl
    refine .bind (Q := fun _ d => d.1 = (x, .settlingNodes)) (.read ?_) fun _ d hd => ?_
    · exact follows_overNodes (fun _ => .settlingNodes)
        (fun _ _ _ hmem => follows_applySettledNexusNodePromise hmem) _ _ false
    · exact .ret (.inr hd)

/-! ## Controls and guards -/

theorem follows_sendControls (purpose : Purpose) (inputs : List (String × ControlRequest)) :
    Goes E x w (.controlling inputs purpose) (fun _ => .controlling [] purpose) (.stopped purpose)
      (sendControls E inputs) := by
  induction inputs generalizing w with
  | nil => exact .ret rfl
  | cons input rest ih =>
    obtain ⟨runID, control⟩ := input
    cases hanswer : E.controlNode w with
    | none => exact follows_ask hanswer .controlled fun _ => ih
    | some err =>
      exact follows_ask hanswer .controlFailed fun _ => .fail rfl

variable {control : ControlRequest} {Q : α → Config → Prop} {input : PlanWorkflowInput}
  {purpose : Purpose} {progressed : Bool} {site : GuardSite} {kind : EventKind}

theorem follows_controlActivePlanNodes (purpose : Purpose)
    (hok : ∀ inputs, controlInputs E w.st control = .ok inputs →
      CommandSkips E w p (.controlling inputs purpose))
    (herror : ∀ err, controlInputs E w.st control = .error err →
      CommandSkips E w p (.stopped purpose err)) :
    Goes E x w p (fun _ => .controlling [] purpose) (.stopped purpose)
      (controlActivePlanNodes E control) := by
  refine .read (follows_ofExcept (fun inputs hinputs => ?_) fun err herr => ?_)
  · exact .skip (.skip (.command (hok inputs hinputs))) (follows_sendControls purpose inputs)
  · exact .skip (.skip (.command (herror err herr))) (.fail rfl)

theorem follows_markCanceled (purpose : Purpose) (reason : String) (nodes : List PlanNodeStatus) :
    Goes E x w (.marking nodes purpose) (fun _ => .marking [] purpose) (.stopped purpose)
      (markCanceled E reason nodes) := by
  induction nodes generalizing w with
  | nil => exact .ret rfl
  | cons node rest ih => exact .next (follows_applyEvent .marked) fun _ _ => ih

theorem follows_markActivePlanNodesCanceled
    (hpause : purpose ≠ .pause) (hresume : purpose ≠ .resume) :
    Goes E x w (.controlling [] purpose) (fun _ => .marking [] purpose) (.stopped purpose)
      (markActivePlanNodesCanceled E reason) :=
  .read (.skip (.skip (.command (.mark hpause hresume))) (follows_markCanceled purpose _ _))

/-- Where the loop goes on after a guard ended the plan. -/
def GuardSite.after : GuardSite → Point
  | .start => .started true
  | .deadline | .close => .leaving .done

theorem Guards.ends (h : Guards w p site kind reason) : site.Ends kind := by
  cases h with
  | budgetStart | budgetClose => rfl
  | timeout => exact .inl rfl
  | expired => exact .inr rfl

theorem follows_cancelActivePlanNodesAndFail {key : String} (hguard : Guards w p site kind reason) :
    Goes E x w p (fun _ => site.after) .leavingWith
      (cancelActivePlanNodesAndFail E kind key reason) := by
  have hended : Goes E x w p (fun _ => .ended (.guard site kind reason))
      (.stopped (.guard site kind reason)) (cancelActivePlanNodesAndFail E kind key reason) := by
    refine .next (follows_controlActivePlanNodes (.guard site kind reason)
      (fun _ hinputs => .guard hguard hinputs)
      fun _ herr => .guardRefused key hguard (.inr herr)) fun _ w₁ => ?_
    refine .next (follows_markActivePlanNodesCanceled nofun nofun) fun _ w₂ => ?_
    exact follows_applyEvent (.ended ⟨rfl, hguard.ends⟩)
  refine hended.extend (fun _ _ => ?_) fun _ _ => .command .stoppedGuard
  cases site with
  | start => exact .command .endedGuardStart
  | deadline | close => exact .command (.ended nofun)

theorem requirePlanID_error (h : requirePlanID planID = .error err) : planID = "" := by
  unfold requirePlanID at h
  split_ifs at h with hempty
  exact hempty

theorem planTimeoutIdempotencyHash_error {anchorErr secondsErr : String} {anchor time : Time}
    {seconds : Int} {document : KeyDocument} (hpassed : deadlinePassed seconds anchor time = true)
    (h : planTimeoutIdempotencyHash E.digest planID anchor seconds anchorErr secondsErr document =
      .error err) : planID = "" := by
  obtain ⟨⟨hseconds, hanchor⟩, -⟩ : (0 < seconds ∧ anchor.isZero = false) ∧ _ := by
    simpa [deadlinePassed] using hpassed
  unfold planTimeoutIdempotencyHash at h
  cases hplan : requirePlanID planID with
  | error err' => exact requirePlanID_error hplan
  | ok =>
    rw [hplan] at h
    rw [if_neg (by simp [hanchor]), if_neg (by omega)] at h
    cases h

/-- A guard that does not trip leaves the configuration as it was. -/
def Guarded (x : Execution) (p : Point) (w : World) (site : GuardSite) (tripped : Prop)
    (ended : Bool) (d : Config) : Prop :=
  if ended then d.1 = (x, site.after) else d = ((x, p), w) ∧ ¬ tripped

theorem follows_applyPlanBudgetGuard (site : GuardSite)
    (hguard : ∀ reason, budgetExceeded w.st.spec.policy w.st.state.status.spentCents = true →
      Guards w p site .planFailed reason) :
    Arrives E x w p (Guarded x p w site
        (budgetExceeded w.st.spec.policy w.st.state.status.spentCents = true))
      (applyPlanBudgetGuard E) := by
  refine .read ?_
  by_cases hbudget : budgetExceeded w.st.spec.policy w.st.state.status.spentCents = true
  · simp only [hbudget, Bool.not_true, Bool.false_eq_true, if_false]
    refine follows_ofExcept (fun key _ => ?_) fun err herr => ?_
    · exact .next (follows_cancelActivePlanNodesAndFail (hguard _ hbudget)) fun _ _ => .ret rfl
    have hplan : w.st.spec.planID = "" := by
      unfold budgetExceededControlIdempotencyKey at herr
      cases hplan : requirePlanID w.st.spec.planID with
      | error err' => exact requirePlanID_error hplan
      | ok => rw [hplan] at herr; cases herr
    exact .skip (.skip (.command (.guardRefused "" (hguard "" hbudget) (.inl hplan))))
      (.skip (.skip (.command .stoppedGuard)) (.fail rfl))
  · simp only [hbudget, Bool.not_false, if_true]
    exact .ret ⟨rfl, by simp⟩

theorem follows_applyPlanDeadlineGuard (params : PlanDeadlineGuardParams)
    (hguard : ∀ time, params.expired w.st.spec.policy (params.anchor w.st.state.status) time =
      true → Guards w p .deadline params.eventKind (params.reason w.st.spec.policy))
    (hkey : ∀ time err, params.expired w.st.spec.policy (params.anchor w.st.state.status) time =
      true → params.idempotencyKey w.st.spec.planID (params.anchor w.st.state.status)
        (params.seconds w.st.spec.policy) = .error err → w.st.spec.planID = "") :
    Arrives E x w p (Guarded x p w .deadline False) (applyPlanDeadlineGuard E params) := by
  refine .read (follows_now fun time _ => ?_)
  by_cases hexpired : params.expired w.st.spec.policy (params.anchor w.st.state.status) time = true
  · simp only [hexpired, Bool.not_true, Bool.false_eq_true, if_false]
    have hguard := hguard time hexpired
    refine follows_ofExcept (fun key _ => ?_) fun err herr => ?_
    · exact .next (follows_cancelActivePlanNodesAndFail hguard) fun _ _ => .ret rfl
    · have hplan := hkey time err hexpired herr
      exact .skip (.skip (.command (.guardRefused "" hguard (.inl hplan))))
        (.skip (.skip (.command .stoppedGuard)) (.fail rfl))
  · simp only [hexpired, Bool.not_false, if_true]
    exact .ret ⟨rfl, not_false⟩

/-! ## Control requests -/

theorem follows_blockPlan (reason : String) :
    Goes E x w (.blocking reason) (fun _ => .controls) .failing (blockPlan E reason) := by
  refine .read (follows_now fun time htime => ?_)
  exact .next (follows_applyEvent (.blocked htime)) fun _ w₁ => .emit (.say .blocked) rfl

theorem follows_controlRequest (hpurpose : ControlRequest.purpose control = some purpose) :
    Goes E x w (.handlingControl control) (fun _ => .controlling [] purpose) (.stopped purpose)
      (controlActivePlanNodes E control) :=
  follows_controlActivePlanNodes purpose (fun _ hinputs => .control hpurpose hinputs)
    fun _ herr => .controlRefused hpurpose herr

theorem follows_cancelPlanFromControl (hcancel : control.operation = .cancel) :
    Goes E x w (.handlingControl control) (fun _ => .leaving .done) .failing
      (cancelPlanFromControl E control) := by
  have hpurpose : ControlRequest.purpose control = some .cancel := by
    unfold ControlRequest.purpose
    rw [hcancel]
  have hended : Goes E x w (.handlingControl control) (fun _ => .ended .cancel) (.stopped .cancel)
      (cancelPlanFromControl E control) := by
    refine .next (follows_controlRequest hpurpose) fun _ w₁ => ?_
    refine .next (follows_markActivePlanNodesCanceled nofun nofun) fun _ w₂ => ?_
    exact follows_applyEvent (.ended rfl)
  exact hended.extend (fun _ _ => .command (.ended nofun)) fun _ _ => .command .stoppedCancel

theorem follows_pausePlanFromControl (hpause : control.operation = .pause) :
    Goes E x w (.handlingControl control) (fun _ => .controls) .failing
      (pausePlanFromControl E control) := by
  have hpurpose : ControlRequest.purpose control = some .pause := by
    unfold ControlRequest.purpose
    rw [hpause]
  refine .nextAttempt (follows_controlRequest hpurpose) (fun _ w₁ => ?_) fun err w₁ => ?_
  · exact .skip (.skip (.command .pause)) (follows_blockPlan _)
  · exact .skip (.skip (.command .stoppedPause)) (follows_blockPlan _)

theorem follows_resumePlanFromControl (hresume : control.operation = .resume) :
    Goes E x w (.handlingControl control) (fun _ => .controls) .failing
      (resumePlanFromControl E control) := by
  have hpurpose : ControlRequest.purpose control = some .resume := by
    unfold ControlRequest.purpose
    rw [hresume]
  refine .nextAttempt (follows_controlRequest hpurpose) (fun _ w₁ => ?_) fun err w₁ => ?_
  · refine .skip (.skip (.command .resume)) ?_
    exact .next (follows_applyEvent .resumed) fun _ w₂ => .emit (.say .resumed) rfl
  · exact .skip (.skip (.command .stoppedResume)) (follows_blockPlan _)

/-- Where the loop goes on after a control request. -/
def afterControl (canceled : Bool) : Point :=
  if canceled then .leaving .done else .controls

theorem follows_applyPlanControl (control : ControlRequest) :
    Goes E x w (.handlingControl control) afterControl .failing (applyPlanControl E control) := by
  unfold applyPlanControl
  cases hoperation : control.operation with
  | cancel => exact .next (follows_cancelPlanFromControl hoperation) fun _ _ => .ret rfl
  | pause => exact .next (follows_pausePlanFromControl hoperation) fun _ _ => .ret rfl
  | resume => exact .next (follows_resumePlanFromControl hoperation) fun _ _ => .ret rfl
  | other name => exact .skip (.skip (.command .controlIgnored)) (.ret rfl)

theorem follows_drainPlanControlRound {msg : ControlMessage}
    {rest : List ControlMessage} (hchannel : w.st.controlCh = msg :: rest) :
    Goes E x w .controls (fun r => afterControl r.2) .failing
      (drainPlanControlRound E control msg) := by
  refine follows_emit (.receivedControl hchannel rfl) ?_
  refine follows_ofExcept (fun _ hvalid => ?_) fun err herr =>
    .skip (.skip (.command (.controlInvalid (.inl herr)))) (.fail rfl)
  split_ifs with hkey
  · exact .skip (.skip (.command (.controlInvalid (.inr hkey)))) (.fail rfl)
  refine .read ?_
  split_ifs with hseen
  · exact .skip (.skip (.command (.controlSeen (by simpa using hseen)))) (.ret rfl)
  refine follows_emit (.markedControl hvalid hkey (by simpa using hseen)) ?_
  exact .next (follows_applyPlanControl _) fun _ _ => .ret rfl

/-! ## Plan signals -/

section Signals

variable {signal : Signal}

theorem follows_refused {R : α → Config → Prop} (hrefused : SignalRefused E w.st signal) :
    Follows (Move E) (fail err : Workflow α) ((x, .handlingSignal signal), w) R
      (fun err d => d.1 = (x, .failing err)) :=
  .skip (.skip (.command (.signalRefused hrefused))) (.fail rfl)

theorem follows_applyManualNodeRetry (htype : signal.type = .planNodeRetry) :
    Follows (Move E) (applyManualNodeRetry E signal) ((x, .handlingSignal signal), w)
      (fun _ d => d.1 = (x, .unpausing) ∨
        d.1 = (x, .handlingSignal signal) ∧ manualRetryAlreadyScheduled signal d.2.st.state = true)
      (fun err d => d.1 = (x, .failing err)) := by
  refine .read ?_
  cases hscheduled : manualRetryAlreadyScheduled signal w.st.state with
  | true => exact .ret (.inr ⟨rfl, hscheduled⟩)
  | false =>
    refine follows_ofExcept (fun retry hretry => ?_) fun err herr => ?_
    · have hretried : ∀ w', Follows (Move E)
          (applyEvent E
            { kind := .nodeRetryScheduled
              nodeID := retry.node.nodeID
              runID := retry.current.runID
              reason := retry.reason
              attempt := retry.nextAttempt }) ((x, .retrying retry), w')
          (fun _ d => d.1 = (x, .unpausing) ∨ d.1 = (x, .handlingSignal signal) ∧
            manualRetryAlreadyScheduled signal d.2.st.state = true)
          (fun err d => d.1 = (x, .failing err)) := fun w' =>
        .post (follows_applyEvent .retry) (fun _ _ hd => .inl hd) fun _ _ hd => hd
      split_ifs with hstopped
      · exact .next (follows_applyEvent (.retryApproved htype hscheduled hretry hstopped))
          fun _ w₁ => hretried w₁
      · obtain ⟨hblocked, hfailed⟩ := not_or.mp hstopped
        exact .skip (.skip (.command (.retry htype hscheduled hretry hblocked hfailed)))
          (hretried w)
    · apply follows_refused
      rw [SignalRefused, htype]
      exact ⟨hscheduled, err, herr⟩

theorem follows_retryPlanNodeFromSignal (htype : signal.type = .planNodeRetry) :
    Goes E x w (.handlingSignal signal) (fun _ => .signals) .failing
      (retryPlanNodeFromSignal E signal) := by
  refine .bind (follows_applyManualNodeRetry htype) fun _ d hd => ?_
  obtain ⟨p', w'⟩ := d
  rcases hd with hp | ⟨hp, hscheduled⟩
  · cases hp
    exact .emit (.say .unpaused) rfl
  · cases hp
    exact .emit (.say (.retryScheduled htype hscheduled)) rfl

theorem follows_approvePlanFromSignal (htype : signal.type = .planApprove) :
    Goes E x w (.handlingSignal signal) (fun _ => .signals) .failing
      (approvePlanFromSignal E signal) := by
  refine .read ?_
  split_ifs with hblocked
  · apply follows_refused
    rw [SignalRefused, htype]
    exact .inl hblocked
  · refine follows_now fun decidedAt hdecided => ?_
    refine follows_ofExcept (fun decision hdecision => ?_) fun err herr => ?_
    · refine follows_now fun time _ => ?_
      refine .next (follows_applyEvent (.approved htype (not_not.mp hblocked) hdecided hdecision))
        fun _ w₁ => ?_
      exact .emit (.say .unpaused) rfl
    · apply follows_refused
      rw [SignalRefused, htype]
      exact .inr ⟨decidedAt, err, herr⟩

theorem approvalEventForSignal_decision (digest : Digest) (spec : RunPlanSpec)
    (status : RunPlanStatus) (reason : String) (time : Time) (decision : PlanApprovalDecision) :
    (approvalEventForSignal digest spec status reason time decision).decision = some decision := by
  unfold approvalEventForSignal
  split_ifs <;> rfl

theorem follows_rejectPlanFromSignal (htype : signal.type = .planReject) :
    Goes E x w (.handlingSignal signal) (fun _ => .leaving .done) .failing
      (rejectPlanFromSignal E signal) := by
  refine .read (follows_now fun decidedAt hdecided => ?_)
  refine follows_ofExcept (fun decision hdecision => ?_) fun err herr => ?_
  swap
  · apply follows_refused
    rw [SignalRefused, htype]
    exact .inl ⟨decidedAt, err, herr⟩
  refine follows_ofExcept (fun key _ => ?_) fun err herr => ?_
  swap
  · apply follows_refused
    rw [SignalRefused, htype]
    exact .inr (.inl ⟨err, herr⟩)
  rw [hdecided] at hdecision
  generalize (if decision.reason = "" then "plan rejected" else decision.reason) = reason
  refine Goes.extend (q := fun _ => .ended (.reject reason decision))
    (r := .stopped (.reject reason decision)) ?_ (fun _ _ => .command (.ended nofun))
    fun _ _ => .command .stoppedReject
  refine .next (follows_controlActivePlanNodes (.reject reason decision)
    (fun _ hinputs => .reject htype hdecision hinputs) fun _ herr => .rejectRefused htype herr)
    fun _ w₁ => ?_
  refine .next (follows_markActivePlanNodesCanceled nofun nofun) fun _ w₂ => ?_
  refine .read (follows_now fun time _ => follows_applyEvent (.ended ⟨_, ?_, rfl⟩))
  exact approvalEventForSignal_decision ..

theorem follows_sendSignal (nodes : List PlanNodeStatus) :
    Goes E x w (.forwarding nodes signal) (fun _ => .signals) .failing
      (sendSignal E signal nodes) := by
  induction nodes generalizing w with
  | nil => exact .skip (.skip (.command .forwarded)) (.ret rfl)
  | cons node rest ih =>
    unfold sendSignal
    split_ifs with hidle
    · exact .skip (.skip (.command .forwardNot)) ih
    cases hanswer : E.signalNode w with
    | none => exact follows_ask hanswer .forwarded fun _ => ih
    | some err =>
      exact follows_ask hanswer .forwardFailed fun _ => .fail rfl

/-- Where the loop goes on after a signal. -/
def afterSignal (rejected : Bool) : Point :=
  if rejected then .leaving .done else .signals

theorem follows_applyPlanSignal :
    Goes E x w (.handlingSignal signal) (fun result => afterSignal result.rejected) .failing
      (applyPlanSignal E signal) := by
  have hforward : Goes E x w (.handlingSignal signal)
      (fun (result : PlanSignalDrainResult) => afterSignal result.rejected) .failing
      (do signalActivePlanNodes E signal; pure {}) := by
    refine .next (p := fun _ => (x, .signals)) (.read ?_) fun _ _ => .ret rfl
    exact .skip (.skip (.command .forward)) (follows_sendSignal _)
  have hignored : Goes E x w (.handlingSignal signal)
      (fun (result : PlanSignalDrainResult) => afterSignal result.rejected) .failing (pure {}) :=
    .skip (.skip (.command .signalIgnored)) (.ret rfl)
  unfold applyPlanSignal
  cases htype : signal.type with
  | planNodeRetry => exact .next (follows_retryPlanNodeFromSignal htype) fun _ _ => .ret rfl
  | planApprove => exact .next (follows_approvePlanFromSignal htype) fun _ _ => .ret rfl
  | planReject => exact .next (follows_rejectPlanFromSignal htype) fun _ _ => .ret rfl
  | controlPause | controlResume | controlCancel | other => exact hignored
  | userMessage | userApproval | userReject | toolResult | humanFeedback | configPatch
  | stepModify | externalEvent | memoryPatch => exact hforward

theorem follows_drainPlanSignalsRound {msg : SignalMessage} {rest : List SignalMessage}
    (hchannel : w.st.signalCh = msg :: rest) :
    Goes E x w .signals (fun r => afterSignal r.2.rejected) .failing
      (drainPlanSignalsRound E signal msg) := by
  refine follows_emit (.receivedSignal hchannel rfl) ?_
  refine follows_ofExcept (fun _ hvalid => ?_) fun err herr =>
    .skip (.skip (.command (.signalInvalid herr))) (.fail rfl)
  refine .read ?_
  split_ifs with hseen
  · exact .skip (.skip (.command (.signalSeen (by simpa using hseen)))) (.ret rfl)
  refine follows_emit (.markedSignal hvalid (by simpa using hseen)) ?_
  exact .next follows_applyPlanSignal fun _ _ => .ret rfl

end Signals

/-! ## The schedule -/

theorem follows_failPlanWorkflowIteration {cause : Err} (out : Err → Point)
    (hrow : Posts E x w p w.st.spec { kind := .planFailed, reason := cause.text } (out cause)
      (fun err => out (.join cause err))) :
    Follows (Move E) (failPlanWorkflowIteration E cause : Workflow α) ((x, p), w) Q
      (fun err d => d.1 = (x, out err)) :=
  .nextAttempt (follows_applyEvent hrow) (fun _ _ => .fail rfl) fun _ _ => .fail rfl

theorem follows_orFailPlan {part : Workflow α}
    (hpart : Follows (Move E) part c Q (fun err d => d.1 = (x, .failing err))) :
    Follows (Move E) (orFailPlan E part) c Q (fun err d => d.1 = (x, .leaving (.error err))) := by
  let ended : Except Err α → Config → Prop
    | .ok a, d => Q a d
    | .error err, d => d.1 = (x, .failing err)
  refine .bind (.attempt (Q := ended) hpart) fun r d hd => ?_
  cases r with
  | ok a => exact .ret hd
  | error cause =>
    obtain ⟨p', w'⟩ := d
    cases hd
    exact follows_failPlanWorkflowIteration .leavingWith .failed

theorem follows_applySkippedPlanNodes (nodes : List SkippedNode) (ready : List PlanNodeSpec)
    (acted : Bool) :
    Goes E x w (.skipping nodes ready acted) (fun b => .skipping [] ready (acted || b))
      .leavingWith (applySkippedPlanNodes E nodes) := by
  induction nodes generalizing acted w with
  | nil => exact .ret (by simp)
  | cons node rest ih =>
    refine .read ?_
    cases hopen : nodeSchedulable w.st.state node.nodeID with
    | false => exact .skip (.skip (.unskipped hopen)) (ih acted)
    | true =>
      refine .next (follows_applyEvent (.skipped hopen)) fun _ w₁ => ?_
      refine .next (ih true) fun later w₂ => .ret ?_
      simp

theorem follows_startReadyPlanNode {capacity : Int} {rest : List PlanNodeSpec}
    {node : PlanNodeSpec} :
    Goes E x w (.node (.start capacity rest) node .opening) (fun _ => .startGuard capacity rest)
      .leavingWith (startReadyPlanNode E x.runtime node) := by
  have hstart : Starts E x (.start capacity rest) node.nodeID node w .opening
      (startPlanNode E x.runtime node) := starts_startPlanNode
  let done : Except Err Unit → Work
    | .ok () => .over true
    | .error err => .broken err
  refine .bind (.attempt (Q := fun r (d : Config) => ∃ node' : PlanNodeSpec,
    node'.nodeID = node.nodeID ∧
      d.1 = (x, Point.node (.start capacity rest) node' (done r))) hstart) fun r d hd => ?_
  obtain ⟨p', w'⟩ := d
  obtain ⟨node', hnode, hp⟩ := hd
  cases hp
  cases r with
  | ok => exact .skip (.skip .startOver) (.ret rfl)
  | error err =>
    have hrow : Posts E x w' (.node (.start capacity rest) node' (.broken err)) w'.st.spec
        (failedEvent node.nodeID "" err.text) (.startGuard capacity rest)
        (fun e => .leaving (.error (.join err e))) := hnode ▸ .startFailed
    exact .nextAttempt (follows_applyEvent hrow) (fun _ _ => .ret rfl) fun _ _ => .fail rfl

theorem follows_startReadyFrom (nodes : List PlanNodeSpec) (capacity : Int) (acted : Bool) :
    Goes E x w (.starting capacity nodes acted) (fun b => .started (acted || b))
      .leavingWith (startReadyFrom E x.runtime capacity nodes) := by
  induction nodes generalizing capacity acted w with
  | nil => exact .skip (.skip .started) (.ret (by simp))
  | cons node rest ih =>
    unfold startReadyFrom
    split_ifs with hfull
    · exact .skip (.skip (.full hfull)) (.ret (by simp))
    refine .read ?_
    cases hopen : nodeSchedulable w.st.state node.nodeID with
    | false => exact .skip (.skip (.unstarted hopen)) (ih capacity acted)
    | true =>
      refine .skip (.skip (.start (by omega) hopen)) ?_
      refine .next follows_startReadyPlanNode fun _ w₁ => ?_
      refine .bind (follows_applyPlanBudgetGuard .start fun _ => .budgetStart) fun ended d hd => ?_
      obtain ⟨p', w'⟩ := d
      cases ended with
      | true =>
        cases hd
        exact .ret (by simp only [Bool.or_true]; rfl)
      | false =>
        obtain ⟨hd, hbudget⟩ := hd
        cases hd
        refine .skip (.skip (.startWithin (by simpa using hbudget))) ?_
        refine .next (ih (capacity - 1) true) fun later w₂ => .ret ?_
        simp

theorem follows_applyPlanSchedulerDecision (decision : SchedulerDecision) :
    Goes E x w (.decided decision) .started .leavingWith
      (applyPlanSchedulerDecision E x.runtime decision) := by
  have hrest : ∀ w', Goes E x w' (.skipping decision.skipped decision.ready false) .started
      .leavingWith (do
        let skipped ← applySkippedPlanNodes E decision.skipped
        let started ← startReadyPlanNodes E x.runtime decision
        pure (skipped || started)) := by
    intro w'
    refine .next (follows_applySkippedPlanNodes _ _ _) fun skipped w₁ => ?_
    refine .next (p := fun b => (x, .started (skipped || b))) (.read ?_) fun _ _ => .ret rfl
    refine .skip (.skip .skipped) ?_
    exact follows_startReadyFrom _ _ _
  unfold applyPlanSchedulerDecision
  dsimp only
  split_ifs
  · exact .next (follows_applyEvent .conditions) fun _ w₁ => hrest w₁
  · exact .skip (.skip .unconditioned) (hrest w)

theorem follows_closePlanSchedule :
    Goes E x w (.closing acted) (fun done => if done then .leaving .done else .unfinished acted)
      .leavingWith (closePlanSchedule E) := by
  refine .bind (follows_applyPlanBudgetGuard .close fun _ => .budgetClose) fun ended d hd => ?_
  obtain ⟨p', w'⟩ := d
  cases ended with
  | true => exact .ret hd
  | false =>
    obtain ⟨hd, hbudget⟩ := hd
    cases hd
    have hbudget : budgetExceeded w.st.spec.policy w.st.state.status.spentCents = false := by
      simpa using hbudget
    refine .read ?_
    cases hterminal : planNodesTerminal w.st.state.status with
    | true =>
      refine .next (p := fun _ => (x, .leaving .done)) (.read ?_) fun _ _ => .ret rfl
      exact follows_applyEvent (.terminalAfter hbudget hterminal)
    | false => exact .skip (.skip (.unfinished hbudget hterminal)) (.ret rfl)

/-- Where the loop is after the schedule, with its two answers: whether it made progress,
and whether the plan is done. -/
def afterSchedule (x : Execution) (progressed : Bool) (r : Bool × Bool) (d : Config) : Prop :=
  if r.2 then d.1 = (x, .leaving .done)
  else ∃ acted, r.1 = (progressed || acted) ∧ d.1 = (x, .unfinished acted)

theorem follows_schedulePlanWorkflowNodes
    (hopen : planNodesTerminal w.st.state.status = false) (hpaused : w.st.paused = false) :
    Arrives E x w .timely (afterSchedule x progressed)
      (schedulePlanWorkflowNodes E x.runtime progressed) := by
  refine follows_emit (.decide hopen hpaused) (.read ?_)
  -- The decision reads the state of the moment, so its row goes with this world.
  generalize w.act Locals.step (.enter .decide) = w
  refine .bind (Q := fun decision d => d = ((x, .deciding), w) ∧
    E.scheduler.decide w.st.validation.plan w.st.state.status
      (planVariables w.st.spec w.st.state.status) = .ok decision) ?_ fun decision d hd => ?_
  · refine follows_orFailPlan ?_
    cases hdecision : E.scheduler.decide w.st.validation.plan w.st.state.status
        (planVariables w.st.spec w.st.state.status) with
    | ok decision => exact .ret ⟨rfl, rfl⟩
    | error err => exact .skip (.skip (.undecided hdecision)) (.fail rfl)
  obtain ⟨rfl, hdecision⟩ := hd
  refine follows_emit (.start hdecision) ?_
  refine .next (follows_applyPlanSchedulerDecision decision) fun acted w₁ => ?_
  refine follows_emit .poll ?_
  refine .next (follows_orFailPlan follows_pollRunningPlanNodes) fun polled w₂ => ?_
  refine .next (.skip (.skip .polled) follows_closePlanSchedule) fun done w₃ => ?_
  refine .ret ?_
  cases done with
  | true => rfl
  | false => exact ⟨acted || polled, by rw [Bool.or_assoc], rfl⟩

/-! ## An iteration -/

def Verdict.point : Verdict → Point
  | .go next => next.point
  | .done => .leaving .done
  | .continued next => .leaving (.continued next)

theorem follows_continuePlanWorkflowIfNeeded :
    Arrives E x w p (fun next d => d = ((x, p), w) ∧ ∀ input', next = some input' →
        w.st.state.status.lifecycleState.terminal = false ∧
          input' = continuedPlanWorkflowInput input w.st)
      (continuePlanWorkflowIfNeeded E input) := by
  refine .read (follows_query ?_)
  split_ifs with hterminal
  · exact .ret ⟨rfl, fun _ hnone => by cases hnone⟩
  split
  · exact .ret ⟨rfl, fun _ hnone => by cases hnone⟩
  · refine .ret ⟨rfl, fun input' hsome => ?_⟩
    cases hsome
    exact ⟨by simpa using hterminal, rfl⟩

theorem follows_orContinue {γ : Type} {Q : γ → Config → Prop}
    {rest : Option PlanWorkflowInput → Workflow γ} (hnone : Arrives E x w p Q (rest none))
    (hsome : w.st.state.status.lifecycleState.terminal = false →
      Arrives E x w p Q (rest (some (continuedPlanWorkflowInput input w.st)))) :
    Arrives E x w p Q (continuePlanWorkflowIfNeeded E input >>= rest) := by
  refine .bind follows_continuePlanWorkflowIfNeeded fun next d hd => ?_
  obtain ⟨rfl, hnext⟩ := hd
  cases next with
  | none => exact hnone
  | some input' =>
    obtain ⟨hterminal, rfl⟩ := hnext input' rfl
    exact hsome hterminal

theorem follows_wait {f : Unit → Workflow β} {R : β → Config → Prop}
    (hok : Asks E x w p (.wait none) ok)
    (herror : ∀ err, Asks E x w p (.wait (some err)) (.leaving (.error err)))
    (h : ∀ w', Arrives E x w' ok R (f ())) : Arrives E x w p R (wait E >>= f) := by
  cases hanswer : E.wait w with
  | none =>
    refine .next (p := fun _ => (x, ok)) ?_ fun _ w' => h w'
    exact follows_ask hanswer hok fun _ => .ret rfl
  | some err =>
    refine .bind (Q := fun _ _ => False) ?_ fun _ _ hfalse => hfalse.elim
    exact follows_ask hanswer (herror err) fun _ => .fail rfl

/-- Where the loop is after the guards before the schedule. -/
def PreSchedule.Reached (x : Execution) : PreSchedule → Config → Prop
  | .proceed, d => d.1 = (x, .timely) ∧ planNodesTerminal d.2.st.state.status = false ∧
      d.2.st.paused = false
  | .skipSchedule, d => d.1 = (x, .top)
  | .done, d => d.1 = (x, .leaving .done)
  | .continued next, d => d.1 = (x, .leaving (.continued next))

theorem follows_pausedPreSchedule (hopen : planNodesTerminal w.st.state.status = false)
    (hpaused : w.st.paused = true) :
    Arrives E x w .timely (PreSchedule.Reached x) (pausedPreSchedule E x.input) := by
  refine .bind (follows_applyPlanDeadlineGuard (planBlockedGuard E)
    (fun _ htime => .expired hopen hpaused rfl htime)
    fun _ _ htime => planTimeoutIdempotencyHash_error htime) fun ended d hd => ?_
  cases ended with
  | true => exact .ret hd
  | false =>
    obtain ⟨rfl, -⟩ := hd
    refine .skip (.skip (.paused hopen hpaused)) (follows_orContinue ?_ fun hterminal => ?_)
    · exact follows_wait .slept (fun _ => .sleepFailed) fun _ => .ret rfl
    · exact .skip (.skip (.pausedContinue hterminal)) (.ret rfl)

theorem follows_applyPlanWorkflowPreScheduleGuards :
    Arrives E x w .preSchedule (PreSchedule.Reached x)
      (applyPlanWorkflowPreScheduleGuards E x.input) := by
  refine .bind (follows_applyPlanDeadlineGuard (planTimeoutGuard E) (fun _ htime => .timeout htime)
    fun _ _ htime => planTimeoutIdempotencyHash_error htime) fun ended d hd => ?_
  cases ended with
  | true => exact .ret hd
  | false =>
    obtain ⟨rfl, -⟩ := hd
    refine .skip (.skip .timely) (.read ?_)
    cases hterminal : planNodesTerminal w.st.state.status with
    | true =>
      refine .next (p := fun _ => (x, .leaving .done)) (.read ?_) fun _ _ => .ret rfl
      exact follows_applyEvent (.terminalBefore hterminal)
    | false =>
      cases hpaused : w.st.paused with
      | true => exact follows_pausedPreSchedule hterminal hpaused
      | false => exact .ret ⟨rfl, hterminal, hpaused⟩

theorem follows_finishPlanWorkflowIteration (hacted : acted = true → progressed = true) :
    Goes E x w (.unfinished acted) Verdict.point .leavingWith
      (finishPlanWorkflowIteration E x.input progressed) := by
  refine follows_emit .finish (.read ?_)
  split_ifs with hstalled
  · rw [Bool.and_eq_true] at hstalled
    have hidle : progressed = false := by simpa using hstalled.1
    have hcount := of_decide_eq_true hstalled.2
    have hunacted : acted = false := by
      refine Bool.eq_false_iff.mpr fun hdid => ?_
      rw [hacted hdid] at hidle
      cases hidle
    subst hunacted
    exact .next (follows_applyEvent (.stalled hcount)) fun _ _ => .fail rfl
  · refine follows_orContinue ?_ fun hterminal => ?_
    · exact .skip (.skip .progressed) (.ret rfl)
    · exact .skip (.skip (.finishContinue hterminal)) (.ret rfl)
  · refine follows_orContinue ?_ fun hterminal => ?_
    · exact follows_wait .finished (fun _ => .finishFailed) fun _ => .ret rfl
    · exact .skip (.skip (.finishContinue hterminal)) (.ret rfl)

theorem follows_applyPlanIterationGuard :
    Arrives E x w .guarding (fun _ d => d.1 = (x, .guarding) ∧
        evaluateIterationPolicy d.2.st.spec.policy d.2.st.iterationCount = none)
      (applyPlanIterationGuard E) := by
  refine .read ?_
  cases hpolicy : evaluateIterationPolicy w.st.spec.policy w.st.iterationCount with
  | none => exact .ret ⟨rfl, hpolicy⟩
  | some why =>
    exact .nextAttempt (follows_applyEvent (.tripped hpolicy)) (fun _ _ => .fail rfl)
      fun _ _ => .fail rfl

theorem follows_openIteration : Goes E x w .top Verdict.point .leavingWith (openIteration E x) := by
  refine follows_emit .counted ?_
  refine .bind follows_applyPlanIterationGuard fun _ d hd => ?_
  obtain ⟨p', w₁⟩ := d
  obtain ⟨hp, hpolicy⟩ := hd
  cases hp
  refine follows_emit (.settle hpolicy) ?_
  refine .bind follows_settleNexusNodePromises fun r d hd => ?_
  obtain ⟨p', w₂⟩ := d
  rcases hd with ⟨hp, hnone⟩ | hp
  · cases hp
    exact follows_emit (.unsettled hnone) (.ret rfl)
  · cases hp
    exact follows_emit .settled (.ret rfl)

theorem follows_drainControls (control : ControlRequest) (settled paced : Bool) :
    Goes E x w .controls Verdict.point .leavingWith (drainControls E control settled paced) := by
  refine .read ?_
  cases hchannel : w.st.controlCh with
  | nil => exact follows_emit (.noControl hchannel) (.ret rfl)
  | cons msg rest =>
    refine .next (follows_orFailPlan (follows_drainPlanControlRound hchannel)) fun r w₁ => ?_
    refine .ret ?_
    obtain ⟨control', canceled⟩ := r
    cases canceled with
    | true | false => rfl

theorem follows_closeIteration (progressed paced : Bool) (hchannel : w.st.signalCh = []) :
    Goes E x w .signals Verdict.point .leavingWith (closeIteration E x progressed paced) := by
  refine follows_emit (.noSignal hchannel) ?_
  refine .bind follows_applyPlanWorkflowPreScheduleGuards fun pre d hd => ?_
  cases pre with
  | done | continued | skipSchedule => exact .ret hd
  | proceed =>
    obtain ⟨p', w₁⟩ := d
    obtain ⟨hp, hopen, hpaused⟩ := hd
    cases hp
    refine .bind (follows_schedulePlanWorkflowNodes hopen hpaused) fun r d hd => ?_
    obtain ⟨p', w₂⟩ := d
    obtain ⟨progressed', done⟩ := r
    cases done with
    | true => exact .ret hd
    | false =>
      obtain ⟨acted, hprogressed, hp⟩ := hd
      cases hp
      cases paced with
      | true => exact .skip (.skip .paced) (.ret rfl)
      | false =>
        refine follows_finishPlanWorkflowIteration fun hacted => ?_
        rw [show progressed' = _ from hprogressed, hacted, Bool.or_true]

theorem follows_drainSignals (signal : Signal) (progressed paced : Bool) :
    Goes E x w .signals Verdict.point .leavingWith (drainSignals E x signal progressed paced) := by
  refine .read ?_
  cases hchannel : w.st.signalCh with
  | nil => exact follows_closeIteration progressed paced hchannel
  | cons msg rest =>
    refine .next (follows_orFailPlan (follows_drainPlanSignalsRound hchannel)) fun r w₁ => ?_
    refine .ret ?_
    obtain ⟨signal', ⟨rejected, progressed'⟩⟩ := r
    cases rejected with
    | true | false => rfl

/-- One step of the loop goes from the point of its position to that of its verdict. -/
theorem follows_advance (position : Position) :
    Goes E x w position.point Verdict.point .leavingWith (advance E x position) := by
  cases position with
  | top => exact follows_openIteration
  | controls control settled paced => exact follows_drainControls control settled paced
  | signals signal progressed paced => exact follows_drainSignals signal progressed paced

/-! ## Executions -/

theorem follows_validatePlanAtStart :
    Goes E x w .validating (fun _ => .checked) .refused (validatePlanAtStart E x.input) := by
  refine .read ?_
  cases hanswer : validatePlanActivity (E.validator w) w.st.spec with
  | error err =>
    refine follows_ask hanswer .invalid fun _ => ?_
    exact follows_failPlanWorkflowIteration .refused .unready
  | ok validation =>
    refine follows_ask hanswer (.valid hanswer) fun _ => ?_
    cases hpeers : validatePlanNodePeers w.st.spec x.input.nexusPeers with
    | ok => exact .skip (.skip .peered) (.ret rfl)
    | error err =>
      refine .skip (.skip (.unpeered hpeers)) ?_
      exact follows_failPlanWorkflowIteration .refused .unready

theorem follows_setupPlanWorkflow (input : PlanWorkflowInput) (nexus : Bool) :
    Follows (Move E) (setupPlanWorkflow E input) ((x, .begin input), w)
      (fun _ d => d.1 = (⟨input, newPlanWorkflowRuntime input nexus⟩, .top))
      (fun err d => ∃ x', d.1 = (x', .refused err)) := by
  let x' : Execution := ⟨input, newPlanWorkflowRuntime input nexus⟩
  have hrest : ∀ w', Follows (Move E) (do
      validatePlanAtStart E input
      let l ← state
      emit (.setPaused (l.state.status.lifecycleState = .blocked))) ((x', .validating), w')
      (fun _ d => d.1 = (x', .top)) (fun err d => ∃ x', d.1 = (x', .refused err)) := by
    intro w'
    refine .next (.post (follows_validatePlanAtStart (x := x')) (fun _ _ hd => hd)
      fun _ _ hd => ⟨x', hd⟩) fun _ w₁ => ?_
    exact .read (.emit (.say .checked) rfl)
  refine follows_now fun time htime => ?_
  refine follows_ofExcept (fun state hstate => ?_) fun err herr =>
    .skip (.refuse herr) (.fail ⟨x, rfl⟩)
  refine .bind (Q := fun _ d => d.1 = (x', .opened))
    (.emit (.begin (htime ▸ (E.now w).property) hstate) rfl)
    fun _ d hd => ?_
  obtain ⟨p', w₁⟩ := d
  cases hd
  cases hcontinued : input.continued with
  | false =>
    exact .next (.post (follows_applyEvent (.begun hcontinued)) (fun _ _ hd => hd)
      fun _ _ hd => ⟨x', hd⟩) fun _ w₂ => hrest w₂
  | true => exact .skip (.skip (.continued hcontinued)) (hrest w₁)

section Drain

variable {outcome : Outcome}

theorem follows_cancelRuns (runIDs : List String) :
    Goes E x w (.leaving outcome) (fun _ => .leaving outcome) (fun _ => .leaving outcome)
      (cancelRuns runIDs) := by
  induction runIDs generalizing w with
  | nil => exact .ret rfl
  | cons runID rest ih => exact follows_emit .cancelOperation ih

theorem follows_drainResolved (runs : List (String × PlanNodeRun)) :
    Goes E x w (.leaving outcome) (fun _ => .leaving outcome) (fun _ => .leaving outcome)
      (drainResolved runs) := by
  induction runs generalizing w with
  | nil => exact .ret rfl
  | cons entry rest ih =>
    obtain ⟨runID, run⟩ := entry
    unfold drainResolved
    split_ifs
    · exact follows_emit .dropOperation ih
    · exact ih

theorem follows_drainNexusNodeRuns (outcome : Outcome) :
    Goes E x w (.leaving outcome) (fun _ => .leaving outcome) (fun _ => .leaving outcome)
      (drainNexusNodeRuns E x.runtime) := by
  refine follows_emit .drain (.read ?_)
  split_ifs
  · exact .ret rfl
  refine .next (follows_cancelRuns _) fun _ w₁ => ?_
  refine .nextAttempt (p := fun _ => (x, .leaving outcome)) (q := fun _ => (x, .leaving outcome))
    ?_ (fun _ w₂ => .read (follows_drainResolved _)) fun _ w₂ => .read (follows_drainResolved _)
  cases hanswer : E.wait w₁ with
  | none => exact follows_ask hanswer .drained fun _ => .ret rfl
  | some err => exact follows_ask hanswer .drained fun _ => .fail rfl

end Drain

/-! ## Runs -/

/-- The configuration in which an execution is between two steps. -/
def Exec.At : Exec → Config → Prop
  | .running x position w, c => c = ((x, position.point), w)
  | .returned w outcome, c => ∃ x, c = ((x, .returned outcome), w)
  | .refused w err, c => ∃ x, c = ((x, .refused err), w)

theorem Exec.At.world {e : Exec} (h : e.At c) : c.2 = e.world := by
  cases e with
  | running x position w => rw [h]; rfl
  | returned | refused => obtain ⟨x, rfl⟩ := h; rfl

/-- The configuration before the first execution. -/
def startConfig (input : PlanWorkflowInput) : Config :=
  ((⟨input, newPlanWorkflowRuntime input false⟩, .begin input), ⟨blankLocals input, []⟩)

theorem beginExecution_path (input : PlanWorkflowInput) :
    ∃ d, Relation.ReflTransGen (Move E) ((x, .begin input), w) d ∧
      (beginExecution E input w).At d := by
  have hsetup := follows_setupPlanWorkflow (E := E) (x := x) (w := w) input (E.nexusNodeRuns w)
  unfold Follows Yields at hsetup
  unfold beginExecution
  generalize (setupPlanWorkflow E input).run w = result at hsetup ⊢
  obtain ⟨outcome, v⟩ := result
  cases outcome with
  | ok =>
    obtain ⟨p', hpath, rfl⟩ := hsetup
    exact ⟨_, hpath, rfl⟩
  | error err =>
    obtain ⟨p', hpath, x', rfl⟩ := hsetup
    exact ⟨_, hpath, x', rfl⟩

theorem drainNexusNodeRuns_path (outcome : Outcome) :
    Relation.ReflTransGen (Move E) ((x, .leaving outcome), w)
      ((x, .leaving outcome), ((drainNexusNodeRuns E x.runtime).run w).2) := by
  have hdrain := follows_drainNexusNodeRuns (E := E) (x := x) (w := w) outcome
  unfold Goes Follows Yields at hdrain
  generalize (drainNexusNodeRuns E x.runtime).run w = result at hdrain ⊢
  obtain ⟨res, v⟩ := result
  cases res with
  | ok | error => obtain ⟨p', hpath, rfl⟩ := hdrain; exact hpath

theorem Exec.step_path {e : Exec} (h : e.At c) :
    ∃ d, Relation.ReflTransGen (Move E) c d ∧ (e.step E).At d := by
  cases e with
  | returned | refused => exact ⟨c, .refl, h⟩
  | running x position w =>
    obtain rfl : c = _ := h
    have hadvance := follows_advance (E := E) (x := x) (w := w) position
    unfold Goes Follows Yields at hadvance
    unfold Exec.step
    dsimp only
    generalize (advance E x position).run w = result at hadvance ⊢
    obtain ⟨outcome, v⟩ := result
    cases outcome with
    | error err =>
      obtain ⟨p', hpath, rfl⟩ := hadvance
      exact ⟨_, (hpath.trans (drainNexusNodeRuns_path _)).tail (.skip .error), x, rfl⟩
    | ok verdict =>
      obtain ⟨p', hpath, rfl⟩ := hadvance
      cases verdict with
      | go next => exact ⟨_, hpath, rfl⟩
      | done =>
        exact ⟨_, (hpath.trans (drainNexusNodeRuns_path _)).tail (.skip .done), x, rfl⟩
      | continued next =>
        have hleft := (hpath.trans (drainNexusNodeRuns_path _)).tail (.skip .continue_)
        obtain ⟨d, hbegin, hd⟩ := beginExecution_path next
        exact ⟨d, hleft.trans hbegin, hd⟩

/-- The run of the model is a path of the automaton. -/
theorem planRun_path (E : Host) (input : PlanWorkflowInput) (n : Nat) :
    ∃ c, Relation.ReflTransGen (Move E) (startConfig input) c ∧ (planRun E input n).At c := by
  induction n with
  | zero => exact beginExecution_path input
  | succ n ih =>
    obtain ⟨c, hpath, hc⟩ := ih
    obtain ⟨d, hstep, hd⟩ := Exec.step_path hc
    exact ⟨d, hpath.trans hstep, hd⟩

theorem Posted.grows {v : World}
    {answer : Option Err} (h : Posted E spec event w answer v) : w.log <:+ v.log := by
  cases h with
  | refused | unscoped => exact List.suffix_cons _ _
  | answered => exact ⟨[_, _, _], rfl⟩

/-- A move only adds to the log. -/
theorem Move.grows {d : Config} (h : Move E c d) : c.2.log <:+ d.2.log := by
  cases h with
  | skip | refuse => exact List.suffix_refl _
  | say | begin => exact List.suffix_cons _ _
  | ask => exact ⟨[_, _], rfl⟩
  | saved _ hposted | unsaved _ hposted => exact hposted.grows

theorem Move.meets {d : Config} {C : Locals × Act → Prop} (h : Move E c d) (hC : LogMeets C d.2) :
    LogMeets C c.2 := fun e he => hC e (h.grows.subset he)

end AgentOS.Plan
