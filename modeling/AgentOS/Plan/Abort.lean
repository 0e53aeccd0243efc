import AgentOS.Plan.Hand

/-!
# Ending a plan

A cancel control, a reject signal and the guards end a plan in the same way: cancel
the runs of the running nodes, mark these nodes as canceled, and apply the event that
ends the plan.  This module runs that procedure in a world whose persist and control
activities succeed, and says what it leaves.
-/

namespace AgentOS.Plan

open Kit List Locals

variable {E : Host} {input : PlanWorkflowInput} {x : Execution} {w v u : World}

/-! ## Events that are saved -/

section Rules

variable {α β : Type} {R : β → World → Prop}

theorem returns_ofExcept {a : α} {f : α → Workflow β} (h : Returns (f a) w R) :
    Returns (ofExcept (.ok a) >>= f) w R := h

theorem orFailPlan_returns {part : Workflow β} (h : Returns part w R) :
    Returns (orFailPlan E part) w R := by
  refine .bind (.attempt (Q := fun r v => ∃ a, r = .ok a ∧ R a v)
    (.post h (fun a _ ha => ⟨a, rfl, ha⟩) fun _ _ => False.elim)) ?_
  rintro _ v ⟨a, rfl, ha⟩
  exact .ret ha

end Rules

variable {event : StateEvent} {nodes : List PlanNodeStatus} {e : Locals × Act}

theorem reduced_none {time : Time} (h : (reducerPlanLifecycleForEvent event.kind).isSome = true ∨
      (reducerNodeLifecycleForEvent event.kind).isSome = true ∧
        (w.st.state.nodeStatus event.nodeID).isSome = true) : (reduced w time event).2 = none := by
  cases hreduced : (reduced w time event).2 with
  | none => rfl
  | some err =>
    have hfailed := State.apply_failed hreduced
    rcases h with hplan | ⟨hnode, hknown⟩
    · unfold reduced State.apply at hreduced
      cases hkind : event.kind <;> simp [stamped_kind, hkind, reducerPlanLifecycleForEvent]
        at hplan hreduced
    · have hnone := hfailed.unknown (.inl hnode)
      rw [stamped_nodeID] at hnone
      rw [hnone] at hknown
      cases hknown

theorem applyEvent_returns (hpersist : ∀ w, E.persist w = none)
    (hreduced : (reduced w (E.now w).val event).2 = none)
    (hscope : validateRunPlanScope w.st.spec = .ok ()) :
    Returns (applyEvent E event) w (fun _ v => Posted E w.st.spec event w none v) := by
  have hposted := posted_run (E := E) (w := w) w.st.spec event
  have hok : ((applyPlanStateEvent E w.st.spec event).run w).1 = .ok () := by
    obtain ⟨key, hkey⟩ := stateEventIdempotencyKey_ok (E := E) hscope
      { stamped w.st (E.now w) event with
        nextLifecycleState := lifecycleForEvent
          (applied w (E.now w) event).st.state.status (stamped w.st (E.now w) event) }
    unfold applied at hkey
    unfold reduced at hreduced
    unfold applyPlanStateEvent
    simp only [bind, Prog.andThen, now, Prog.query, Prog.state, Prog.emit, hreduced, orErr, pure,
      hscope, ofExcept, hkey, ask, arrive, hpersist]
  refine .read ?_
  unfold Yields
  generalize (applyPlanStateEvent E w.st.spec event).run w = r at hok hposted
  obtain ⟨res, v⟩ := r
  obtain rfl : res = .ok () := hok
  exact hposted

/-! ## The running nodes -/

/-- What the steps of an abort keep: the variables outside the node statuses, the gate,
and the log as a part of the new one. -/
structure Aborting (w v : World) : Prop where
  framed : Framed w.st v.st
  lifecycle : v.st.state.status.lifecycleState = w.st.state.status.lifecycleState
  approval : v.st.state.status.approval = w.st.state.status.approval
  grows : w.log <:+ v.log

theorem Aborting.refl (w : World) : Aborting w w :=
  ⟨⟨rfl, rfl, rfl, rfl, rfl, rfl⟩, rfl, rfl, suffix_refl _⟩

theorem Framed.trans {l l' l'' : Locals} (h : Framed l l') (h' : Framed l' l'') : Framed l l'' :=
  ⟨h'.spec.trans h.spec, h'.validation.trans h.validation,
    h'.expansionCount.trans h.expansionCount, h'.iterationCount.trans h.iterationCount,
    h'.paused.trans h.paused, h'.stage.trans h.stage⟩

theorem Aborting.trans (h : Aborting w v) (h' : Aborting v u) : Aborting w u :=
  ⟨h.framed.trans h'.framed, h'.lifecycle.trans h.lifecycle, h'.approval.trans h.approval,
    h.grows.trans h'.grows⟩

def NewIn (w v : World) (e : Locals × Act) : Prop := ∃ added, v.log = added ++ w.log ∧ e ∈ added

theorem NewIn.later (h : NewIn w v e) (hgrows : v.log <:+ u.log) : NewIn w u e := by
  obtain ⟨added, hlog, hmem⟩ := h
  obtain ⟨more, hmore⟩ := hgrows
  exact ⟨more ++ added, by rw [← hmore, hlog, append_assoc], mem_append_right _ hmem⟩

theorem NewIn.earlier (h : NewIn v u e) (hgrows : w.log <:+ v.log) : NewIn w u e := by
  obtain ⟨added, hlog, hmem⟩ := h
  obtain ⟨more, hmore⟩ := hgrows
  exact ⟨added ++ more, by rw [hlog, ← hmore, append_assoc], mem_append_left _ hmem⟩

def CancelSent (w v : World) (runID : String) : Prop :=
  ∃ l control, NewIn w v (l, .controlNode runID control none) ∧ control.operation = .cancel

theorem CancelSent.later {runID : String} (h : CancelSent w v runID) (hgrows : v.log <:+ u.log) :
    CancelSent w u runID := by
  obtain ⟨l, control, hnew, hcancel⟩ := h
  exact ⟨l, control, hnew.later hgrows, hcancel⟩

theorem sendControls_returns (hcontrol : ∀ w, E.controlNode w = none)
    (inputs : List (String × ControlRequest)) :
    Returns (sendControls E inputs) w (fun _ v => Aborting w v ∧ v.st.state = w.st.state ∧
      ∀ runID control, (runID, control) ∈ inputs →
        ∃ l, NewIn w v (l, .controlNode runID control none)) := by
  induction inputs generalizing w with
  | nil => exact .ret ⟨.refl w, rfl, fun _ _ hmem => (not_mem_nil hmem).elim⟩
  | cons entry rest ih =>
    obtain ⟨runID, control⟩ := entry
    refine .bind (Q := fun answer v => answer = none ∧
      ∃ arrivals, v = asked w (.controlNode runID control none) arrivals) ?_ ?_
    · exact ⟨hcontrol w, _, by rw [hcontrol w]; rfl⟩
    rintro _ _ ⟨rfl, arrivals, rfl⟩
    have hfirst : Aborting w (asked w (.controlNode runID control none) arrivals) :=
      ⟨⟨rfl, rfl, rfl, rfl, rfl, rfl⟩, rfl, rfl, (suffix_cons _ _).trans (suffix_cons _ _)⟩
    refine ih.post fun _ v hv => ⟨hfirst.trans hv.1, hv.2.1, fun runID' control' hmem => ?_⟩
    rcases mem_cons.mp hmem with heq | hmem
    · cases heq
      have hsent : NewIn w (asked w (.controlNode runID control none) arrivals)
          (w.st, .controlNode runID control none) :=
        ⟨[_, _], rfl, mem_cons_of_mem _ mem_cons_self⟩
      exact ⟨_, hsent.later hv.1.grows⟩
    · obtain ⟨l, hsent⟩ := hv.2.2 runID' control' hmem
      exact ⟨l, hsent.earlier hfirst.grows⟩

theorem activePlanNodeControlInputs_ok {digest : Digest} {planID : String}
    {control : ControlRequest} {controlsByNode : List (String × List ControlOperation)}
    {inputs : List (String × ControlRequest)}
    (h : activePlanNodeControlInputs digest planID control controlsByNode nodes = .ok inputs) :
    (∀ node ∈ nodes, node.lifecycleState = .running → node.runID ≠ "" →
        node.runID ∈ inputs.map Prod.fst) ∧
      ∀ sent ∈ inputs, sent.2.operation = control.operation := by
  induction nodes generalizing inputs with
  | nil =>
    cases h
    exact ⟨by simp, by simp⟩
  | cons node rest ih =>
    unfold activePlanNodeControlInputs at h
    split_ifs at h with hidle
    · obtain ⟨hruns, hoperation⟩ := ih h
      refine ⟨fun other hmem hrunning hnamed => ?_, hoperation⟩
      rcases mem_cons.mp hmem with rfl | hmem
      · exact absurd hidle (by simp [hrunning, hnamed])
      · exact hruns other hmem hrunning hnamed
    · obtain ⟨key, -, h⟩ := bind_ok h
      obtain ⟨later, hlater, h⟩ := bind_ok h
      cases h
      obtain ⟨hruns, hoperation⟩ := ih hlater
      refine ⟨fun other hmem hrunning hnamed => ?_, forall_mem_cons.mpr ⟨rfl, hoperation⟩⟩
      rcases mem_cons.mp hmem with rfl | hmem
      · exact mem_cons_self
      · exact mem_cons_of_mem _ (hruns other hmem hrunning hnamed)

theorem cancelInputs_ok (digest : Digest) {planID : String} (key : String)
    (controlsByNode : List (String × List ControlOperation)) (hplan : planID ≠ "")
    (hnamed : ∀ node ∈ nodes, node.lifecycleState = .running → node.nodeID ≠ "") :
    ∃ inputs, activePlanNodeControlInputs digest planID
      { operation := .cancel, idempotencyKey := key } controlsByNode nodes = .ok inputs := by
  induction nodes with
  | nil => exact ⟨[], rfl⟩
  | cons node rest ih =>
    obtain ⟨inputs, hinputs⟩ := ih fun other hother => hnamed other (.tail _ hother)
    unfold activePlanNodeControlInputs
    split_ifs with hidle hunsupported
    · exact ⟨inputs, hinputs⟩
    · exact absurd rfl hunsupported.1
    · rw [not_or, not_not] at hidle
      have hkey : nodeControlIdempotencyKey digest planID node.nodeID .cancel key =
          .ok (idempotencyHash digest planID (.nodeControl planID node.nodeID .cancel key)) := by
        unfold nodeControlIdempotencyKey requirePlanID requireNodeID
        rw [if_neg hplan, if_neg (hnamed node mem_cons_self hidle.1)]
        rfl
      rw [hkey, hinputs]
      exact ⟨_, rfl⟩

theorem Posted.aborting {spec : RunPlanSpec} {nodeID runID reason : String}
    (h : Posted E spec (canceledEvent nodeID runID reason) w none v) : Aborting w v := by
  obtain ⟨_, _, _, _, happlied⟩ := h.applied
  exact ⟨h.framed, happlied.lifecycle, happlied.approval, h.grows⟩

theorem markCanceled_returns (hpersist : ∀ w, E.persist w = none) (reason : String)
    (nodes : List PlanNodeStatus) (hscope : validateRunPlanScope w.st.spec = .ok ())
    (hknown : ∀ node ∈ nodes, (w.st.state.nodeStatus node.nodeID).isSome = true) :
    Returns (markCanceled E reason nodes) w (fun _ v => Aborting w v ∧
      (∀ node ∈ nodes, HasStatus v.st node.nodeID fun status =>
        status.lifecycleState = .canceled) ∧
      ∀ nodeID, (∀ node ∈ nodes, node.nodeID ≠ nodeID) →
        v.st.state.nodeStatus nodeID = w.st.state.nodeStatus nodeID) := by
  induction nodes generalizing w with
  | nil => exact .ret ⟨.refl w, by simp, fun _ _ => rfl⟩
  | cons node rest ih =>
    have hhead := hknown node mem_cons_self
    refine .bind (applyEvent_returns hpersist (reduced_none (.inr ⟨rfl, hhead⟩)) hscope) ?_
    intro _ v hposted
    have hposted : Posted E w.st.spec (canceledEvent node.nodeID node.runID reason) w none v :=
      hposted
    have hfirst := hposted.aborting
    obtain ⟨_, _, _, _, happlied⟩ := hposted.applied
    have hlookup : ∀ nodeID, v.st.state.nodeStatus nodeID =
        if nodeID = node.nodeID then (w.st.state.nodeStatus nodeID).map (State.changedNode _ _)
        else w.st.state.nodeStatus nodeID := happlied.lookup
    have hcanceled : HasStatus v.st node.nodeID fun status =>
        status.lifecycleState = .canceled := by
      obtain ⟨status, hstatus⟩ := Option.isSome_iff_exists.mp hhead
      refine hposted.hasStatus nofun rfl ⟨status, hstatus, rfl⟩ fun _ _ _ _ => ?_
      rfl
    refine (ih ?_ fun other hother => ?_).post fun _ u hu =>
      ⟨hfirst.trans hu.1, fun other hother => ?_, fun nodeID hother => ?_⟩
    · rw [hfirst.framed.spec]
      exact hscope
    · rw [hlookup]
      have hsome := hknown other (mem_cons_of_mem _ hother)
      split_ifs
      · rw [Option.isSome_map]
        exact hsome
      · exact hsome
    · rcases mem_cons.mp hother with rfl | hother
      · by_cases hagain : ∃ later ∈ rest, later.nodeID = other.nodeID
        · obtain ⟨later, hlater, hid⟩ := hagain
          rw [← hid]
          exact hu.2.1 later hlater
        · unfold HasStatus
          rw [hu.2.2 _ fun later hlater hid => hagain ⟨later, hlater, hid⟩]
          exact hcanceled
      · exact hu.2.1 other hother
    · rw [hu.2.2 nodeID (forall_mem_of_forall_mem_cons hother),
        hlookup, if_neg (Ne.symm (hother node mem_cons_self))]

/-- What an abort leaves of the nodes: every run of a running node got a cancel control,
these nodes are canceled, and the others are as they were. -/
structure Aborted (w v : World) : Prop where
  aborting : Aborting w v
  sent : ∀ node ∈ runningNodes w.st.state.status, CancelSent w v node.runID
  canceled : ∀ node ∈ runningNodes w.st.state.status,
    HasStatus v.st node.nodeID fun status => status.lifecycleState = .canceled
  kept : ∀ nodeID, (∀ node ∈ runningNodes w.st.state.status, node.nodeID ≠ nodeID) →
    v.st.state.nodeStatus nodeID = w.st.state.nodeStatus nodeID

structure Abortable (l : Locals) : Prop where
  scope : validateRunPlanScope l.spec = .ok ()
  listed : l.state.status.nodes = sortedNodeStatuses l.state.nodes
  named : l.state.Named
  launched : Launched l
  ids : ∀ nodeID, (l.state.nodeStatus nodeID).isSome = true → nodeID ≠ ""

theorem Abortable.cancelInputs {l : Locals} (h : Abortable l) (E : Host) (key : String) :
    ∃ inputs, controlInputs E l { operation := .cancel, idempotencyKey := key } = .ok inputs :=
  cancelInputs_ok E.digest key l.validation.controlsByNode (planID_ne_of_scope h.scope)
    fun _ hmem _ => h.ids _ (by rw [State.nodeStatus_of_listed h.named h.listed hmem]; rfl)

theorem cancelNodes_returns {α : Type} {rest : Workflow α} {R : α → World → Prop}
    (hpersist : ∀ w, E.persist w = none) (hcontrol : ∀ w, E.controlNode w = none)
    (habortable : Abortable w.st) (key reason : String)
    (hrest : ∀ v, Aborted w v → Returns rest v R) :
    Returns (do
      controlActivePlanNodes E { operation := .cancel, idempotencyKey := key }
      markActivePlanNodesCanceled E reason
      rest) w R := by
  obtain ⟨inputs, hinputs⟩ := habortable.cancelInputs E key
  unfold controlInputs at hinputs
  obtain ⟨hall, hcancel⟩ := activePlanNodeControlInputs_ok hinputs
  have hlookup := fun node (hmem : node ∈ w.st.state.status.nodes) =>
    State.nodeStatus_of_listed habortable.named habortable.listed hmem
  refine .bind (Q := fun _ v => Aborting w v ∧ v.st.state = w.st.state ∧
    ∀ node ∈ runningNodes w.st.state.status, CancelSent w v node.runID) (.read ?_) ?_
  · rw [hinputs]
    refine returns_ofExcept ?_
    refine (sendControls_returns hcontrol inputs).post fun _ v hv =>
      ⟨hv.1, hv.2.1, fun node hmem => ?_⟩
    obtain ⟨hmem, hrunning⟩ := mem_filter.mp hmem
    have hrunning := of_decide_eq_true hrunning
    obtain ⟨⟨runID, control⟩, hinput, hrun⟩ := mem_map.mp (hall node hmem hrunning
      (habortable.launched _ node (hlookup node hmem) hrunning))
    obtain ⟨l, hsent⟩ := hv.2.2 runID control hinput
    exact hrun ▸ ⟨l, control, hsent, hcancel _ hinput⟩
  · rintro _ v ⟨hfirst, hstate, hsent⟩
    refine .bind (Q := fun _ u => Aborted w u) (.read ?_) fun _ u hu => hrest u hu
    rw [hstate]
    have hscope : validateRunPlanScope v.st.spec = .ok () := by
      rw [hfirst.framed.spec]
      exact habortable.scope
    refine (markCanceled_returns hpersist _ _ hscope fun node hmem => ?_).post fun _ u hu =>
      ⟨hfirst.trans hu.1, fun node hmem => (hsent node hmem).later hu.1.grows, hu.2.1,
        fun nodeID hother => ?_⟩
    · rw [hstate, hlookup node (mem_filter.mp hmem).1]
      rfl
    · rw [hu.2.2 nodeID hother, hstate]

/-! ## The event that ends the plan -/

def Idle (l : Locals) : Prop :=
  ∀ nodeID status, l.state.nodeStatus nodeID = some status → status.lifecycleState ≠ .running

theorem Aborted.idle (h : Aborted w v) (hlisted : Abortable w.st) : Idle v.st := by
  intro nodeID status hstatus hrunning
  by_cases hmarked : ∃ node ∈ runningNodes w.st.state.status, node.nodeID = nodeID
  · obtain ⟨node, hmem, rfl⟩ := hmarked
    have hcanceled := (h.canceled node hmem).holds hstatus
    rw [hrunning] at hcanceled
    cases hcanceled
  · rw [h.kept nodeID fun node hmem hid => hmarked ⟨node, hmem, hid⟩] at hstatus
    have hid : status.nodeID = nodeID := hlisted.named nodeID status hstatus
    have hmem := (State.mem_listed hlisted.listed).mpr ⟨_, hstatus⟩
    exact hmarked ⟨status, mem_filter.mpr ⟨hmem, by simpa using hrunning⟩, hid⟩

/-- The plan ended with `event` after its nodes were canceled. -/
structure EndedWith (kind : EventKind) (lifecycle : PlanLifecycle) (w v : World) : Prop where
  sent : ∀ node ∈ runningNodes w.st.state.status, CancelSent w v node.runID
  canceled : ∀ node ∈ runningNodes w.st.state.status,
    HasStatus v.st node.nodeID fun status => status.lifecycleState = .canceled
  idle : Idle v.st
  lifecycle : v.st.state.status.lifecycleState = lifecycle
  applied : ∃ l event, NewIn w v (l, .apply event) ∧ event.kind = kind

variable {lifecycle : PlanLifecycle} {kind : EventKind}

theorem Aborted.endedWith (h : Aborted w v) (habortable : Abortable w.st)
    (hposted : Posted E v.st.spec event v none u)
    (hkind : reducerPlanLifecycleForEvent event.kind = some lifecycle) :
    EndedWith event.kind lifecycle w u := by
  have hlookup := hposted.lookup_plan (by rw [hkind]; rfl)
  obtain ⟨time, _, tail, _, hlog, -⟩ := hposted.effect
  have happlied : NewIn v u (v.st, .apply (stamped v.st time event)) := by
    refine ⟨tail ++ [(v.st, .apply (stamped v.st time event))], ?_, ?_⟩
    · rw [hlog, append_assoc]
      rfl
    · exact mem_append_right _ (mem_singleton_self _)
  refine ⟨fun node hnode => (h.sent node hnode).later hposted.grows, fun node hnode => ?_,
    fun nodeID status hstatus => ?_, hposted.lifecycle_saved hkind, _, _,
    happlied.earlier h.aborting.grows, rfl⟩
  · unfold HasStatus
    rw [hlookup]
    exact h.canceled node hnode
  · rw [hlookup] at hstatus
    exact h.idle habortable nodeID status hstatus

theorem EndedWith.earlier (h : EndedWith kind lifecycle v u) (hgrows : w.log <:+ v.log)
    (hstate : v.st.state = w.st.state) : EndedWith kind lifecycle w u := by
  obtain ⟨hsent, hcanceled, hidle, hlifecycle, l, event, hnew, hkind⟩ := h
  rw [hstate] at hsent hcanceled
  refine ⟨fun node hnode => ?_, hcanceled, hidle, hlifecycle, l, event, hnew.earlier hgrows, hkind⟩
  obtain ⟨l', control, hcontrol, hcancel⟩ := hsent node hnode
  exact ⟨l', control, hcontrol.earlier hgrows, hcancel⟩

theorem EndedWith.later (h : EndedWith kind lifecycle w v) (hgrows : v.log <:+ u.log)
    (hstate : u.st.state = v.st.state) : EndedWith kind lifecycle w u := by
  obtain ⟨hsent, hcanceled, hidle, hlifecycle, l, event, hnew, hkind⟩ := h
  refine ⟨fun node hnode => (hsent node hnode).later hgrows, fun node hnode => ?_,
    fun nodeID status hstatus => ?_, ?_, l, event, hnew.later hgrows, hkind⟩
  · unfold HasStatus
    rw [hstate]
    exact hcanceled node hnode
  · rw [hstate] at hstatus
    exact hidle nodeID status hstatus
  · rw [hstate]
    exact hlifecycle

/-! ## A reject signal -/

/-- The plan has no gate, or a pending gate for its present nodes and policy. -/
def gateUndecided (digest : Digest) (l : Locals) : Bool :=
  match l.state.status.approval with
  | none => true
  | some current =>
      current.lifecycleState = .pending &&
        current.gate.policyVersion = planApprovalPolicyVersion digest l.spec l.state.status

theorem planApprovalDecisionFromSignal_ok {digest : Digest} {l : Locals}
    (h : gateUndecided digest l = true) (signal : Signal) (approved : Bool) (now : Time) :
    ∃ decision, planApprovalDecisionFromSignal digest l.spec l.state.status signal approved now =
      .ok decision := by
  unfold gateUndecided at h
  unfold planApprovalDecisionFromSignal
  cases happroval : l.state.status.approval with
  | none => exact ⟨_, rfl⟩
  | some current =>
    rw [happroval] at h
    simp only [Bool.and_eq_true, decide_eq_true_eq] at h
    dsimp only
    rw [if_neg (not_not.mpr h.1), if_neg (not_not.mpr h.2)]
    exact ⟨_, rfl⟩

section

variable (hpersist : ∀ w, E.persist w = none) (hcontrol : ∀ w, E.controlNode w = none)
  (habortable : Abortable w.st)
include hpersist hcontrol habortable

theorem rejectPlanFromSignal_returns {signal : Signal}
    (htype : signal.type = .planReject) (hvalid : validatePlanSignal signal = .ok ())
    (hopen : gateUndecided E.digest w.st = true) :
    Returns (rejectPlanFromSignal E signal) w (fun _ v => EndedWith .planRejected .failed w v) := by
  obtain ⟨decision, hdecision⟩ := planApprovalDecisionFromSignal_ok hopen signal false (E.now w).val
  have hkey : planSignalCancelControlIdempotencyKey E.digest w.st.spec.planID signal =
      .ok (idempotencyHash E.digest w.st.spec.planID (.planSignalCancel w.st.spec.planID
        signal.type signal.idempotencyKey signal.actorID)) := by
    unfold planSignalCancelControlIdempotencyKey requirePlanID
    rw [if_neg (planID_ne_of_scope habortable.scope), hvalid, htype]
    rfl
  refine .read (.asking ?_)
  rw [hdecision]
  refine returns_ofExcept ?_
  rw [hkey]
  refine returns_ofExcept (cancelNodes_returns hpersist hcontrol habortable _ _ fun v hv => ?_)
  refine .read (.asking ?_)
  have hscope : validateRunPlanScope v.st.spec = .ok () := by
    rw [hv.aborting.framed.spec]
    exact habortable.scope
  refine (applyEvent_returns hpersist (reduced_none (.inl rfl)) hscope).post fun _ u hu => ?_
  exact hv.endedWith habortable hu rfl

theorem drainPlanSignalsRound_returns {into : Signal}
    {msg : SignalMessage} (htype : (msg.decodeInto into).type = .planReject)
    (hvalid : validatePlanSignal (msg.decodeInto into) = .ok ())
    (hnew : (msg.decodeInto into).idempotencyKey ∉ w.st.processedSignals)
    (hopen : gateUndecided E.digest w.st = true) :
    Returns (drainPlanSignalsRound E into msg) w (fun r v =>
      r.2.rejected = true ∧ EndedWith .planRejected .failed w v) := by
  refine .acting ?_
  rw [hvalid]
  refine returns_ofExcept (.read ?_)
  rw [if_neg]
  swap
  · simpa [step] using hnew
  generalize msg.decodeInto into = signal at *
  refine .acting ?_
  have habortable' : Abortable ((w.act step (.receiveSignal signal)).act step
      (.markSignal signal)).st :=
    ⟨habortable.scope, habortable.listed, habortable.named, habortable.launched, habortable.ids⟩
  refine .bind (Q := fun (r : PlanSignalDrainResult) v => r.rejected = true ∧
    EndedWith .planRejected .failed w v) ?_ fun r v hr => .ret hr
  unfold applyPlanSignal
  rw [htype]
  refine .bind (rejectPlanFromSignal_returns hpersist hcontrol habortable' htype hvalid hopen)
    fun _ v hv => .ret ⟨rfl, hv.earlier ?_ rfl⟩
  exact (suffix_cons _ _).trans (suffix_cons _ _)

end

/-- The log goes on from that of `v`, and the state is the same. -/
def Idles (v u : World) : Prop := u.st.state = v.st.state ∧ v.log <:+ u.log

theorem drainNexusNodeRuns_keeps (R : PlanWorkflowRuntime) (v : World) :
    Keeps (Idles v) (drainNexusNodeRuns E R) := by
  have hemit : ∀ act : Act, (∀ l : Locals, (l.step act).state = l.state) →
      Keeps (Idles v) (Prog.emit act : Workflow Unit) :=
    fun act hsame => .emit fun u hu => ⟨(hsame u.st).trans hu.1, hu.2.trans (suffix_cons _ _)⟩
  have hcancel : ∀ runs, Keeps (Idles v) (cancelRuns runs) := by
    intro runs
    induction runs with
    | nil => exact .ret ()
    | cons runID rest ih => exact .bind (hemit _ fun _ => rfl) fun _ => ih
  have hresolved : ∀ runs, Keeps (Idles v) (drainResolved runs) := by
    intro runs
    induction runs with
    | nil => exact .ret ()
    | cons entry rest ih =>
      obtain ⟨runID, run⟩ := entry
      unfold drainResolved
      split_ifs
      · exact .bind (hemit _ fun _ => rfl) fun _ => ih
      · exact .bind (.ret ()) fun _ => ih
  have hwait : Keeps (Idles v) (wait E) := by
    refine .bind (.bind (.query _) fun answer => .bind (hemit _ fun _ => rfl) fun _ =>
      .bind (.bind (.query _) fun _ => hemit _ fun _ => rfl) fun _ => .ret _) fun answer => ?_
    cases answer with
    | none => exact .ret ()
    | some err => exact .fail err
  refine .bind (hemit _ fun _ => rfl) fun _ => .bind (.query _) fun l => ?_
  split_ifs
  · exact .ret ()
  · exact .bind (hcancel _) fun _ => .bind (.attempt hwait) fun _ => .bind (.query _) fun _ =>
      hresolved _

theorem reachable_abortable (hfresh : input.continued = false) {p : Point}
    (hc : Reachable E input ((x, p), w)) (hready : PlanReady w.st) (hlisted : w.st.state.Lists) :
    Abortable w.st where
  scope := hready.1 ▸ hready.2.scope
  listed := hlisted
  named := reachable_named hc
  launched := reachable_launched hfresh hc
  ids := fun _ hsome => nodeID_ne hready (reachable_blankDeclared hfresh hc) hsome

/-- A valid reject signal that was not handled before is the next of the drain. -/
def rejectWaits : Exec → Bool
  | .running _ (.signals into _ _) w =>
      match w.st.signalCh with
      | [] => false
      | msg :: _ =>
          (msg.decodeInto into).type = .planReject &&
            (validatePlanSignal (msg.decodeInto into)).isOk &&
            !w.st.processedSignals.contains (msg.decodeInto into).idempotencyKey
  | _ => false

theorem rejectWaits_true {exec : Exec} (h : rejectWaits exec = true) :
    ∃ x into progressed paced w msg rest,
      exec = .running x (.signals into progressed paced) w ∧ w.st.signalCh = msg :: rest ∧
        (msg.decodeInto into).type = .planReject ∧
        validatePlanSignal (msg.decodeInto into) = .ok () ∧
        (msg.decodeInto into).idempotencyKey ∉ w.st.processedSignals := by
  unfold rejectWaits at h
  split at h
  · rename_i x into progressed paced w
    split at h
    · cases h
    rename_i msg rest hmsg
    simp only [Bool.and_eq_true, decide_eq_true_eq, Bool.not_eq_true', contains_eq_mem,
      decide_eq_false_iff_not] at h
    obtain ⟨⟨htype, hvalid⟩, hnew⟩ := h
    cases hresult : validatePlanSignal (msg.decodeInto into) with
    | error err =>
      rw [hresult] at hvalid
      cases hvalid
    | ok => exact ⟨x, into, progressed, paced, w, msg, rest, rfl, hmsg, htype, hresult, hnew⟩
  · cases h

theorem planRun_done {n : Nat} {position : Position} {Q : World → Prop}
    (hrun : planRun E input n = .running x position w)
    (h : Returns (advance E x position) w (fun verdict v => verdict = .done ∧ Q v)) :
    ∃ v u, Q v ∧ planRun E input (n + 1) = .returned u (.ok ()) ∧
      u.st.state = v.st.state ∧ v.log <:+ u.log := by
  obtain ⟨_, v, hsegment, rfl, hQ⟩ := h.run
  refine ⟨v, ((drainNexusNodeRuns E x.runtime).run v).2, hQ, ?_,
    (drainNexusNodeRuns_keeps x.runtime v v ⟨rfl, suffix_refl _⟩).world (fun _ _ h => h) fun _ _ h => h⟩
  rw [planRun, hrun, Exec.step, hsegment]

/-- A reject signal ends the plan, in a world whose persist and control activities
succeed, when the plan has no gate or a pending one for its present nodes. -/
theorem reject_aborts (E : Host) (r : PlanRuntime) (spec : RunPlanSpec) (n : Nat)
    (hpersist : ∀ w, E.persist w = none) (hcontrol : ∀ w, E.controlNode w = none)
    (hwaits : rejectWaits (planRun E (r.newPlanInput spec) n) = true)
    (hopen : gateUndecided E.digest (planRun E (r.newPlanInput spec) n).world.st = true) :
    ∃ v, planRun E (r.newPlanInput spec) (n + 1) = .returned v (.ok ()) ∧
      EndedWith .planRejected .failed (planRun E (r.newPlanInput spec) n).world v := by
  obtain ⟨x, into, progressed, paced, w, msg, rest, hrun, hmsg, htype, hvalid, hnew⟩ :=
    rejectWaits_true hwaits
  obtain ⟨c, hreach, hat⟩ := planRun_path E (r.newPlanInput spec) n
  rw [hrun] at hat hopen ⊢
  obtain rfl : c = ((x, .signals), w) := hat
  have habortable := reachable_abortable rfl hreach (reachable_planned hreach)
    (reachable_listed hreach)
  have hsegment : Returns (drainSignals E x into progressed paced) w
      (fun verdict v => verdict = .done ∧ EndedWith .planRejected .failed w v) := by
    refine .read ?_
    rw [hmsg]
    refine .bind (orFailPlan_returns (drainPlanSignalsRound_returns hpersist hcontrol habortable
      htype hvalid hnew hopen)) fun r v hr => ?_
    obtain ⟨signal, result⟩ := r
    exact .ret ⟨if_pos hr.1, hr.2⟩
  obtain ⟨v, u, hended, hreturned, hstate, hgrows⟩ := planRun_done hrun hsegment
  exact ⟨u, hreturned, hended.later hgrows hstate⟩

/-- Runs go on, and an operator rejects the plan while its node starts. -/
def rejectHost : Host :=
  { calmHost with
    statusNode := fun _ => .ok { lifecycleState := .other "running" }
    arrivals := fun w =>
      match w.log with
      | (_, .startNode ..) :: _ =>
          { signals := [{ type := some .planReject, idempotencyKey := some "k2",
                          actorID := some "op" }] }
      | _ => {} }

/-- A plan of one node. -/
def singlePlan : PlanWorkflowInput := planOf [nativeNode "a" "r"]

theorem reject_aborts_running :
    ∃ v, planRun rejectHost singlePlan 6 = .returned v (.ok ()) ∧
      EndedWith .planRejected .failed (planRun rejectHost singlePlan 5).world v :=
  reject_aborts rejectHost calmRuntime singlePlan.spec 5 (fun _ => rfl) (fun _ => rfl)
    (by decide +kernel) (by decide +kernel)

/-- As `rejectHost`, for a plan that was paused and approved before its node started. -/
def approvedHost : Host :=
  { rejectHost with
    arrivals := fun w =>
      match w.log with
      | (_, .validate _) :: _ =>
          { controls := [{ operation := some .pause, idempotencyKey := some "k0" }]
            signals := [{ type := some .planApprove, idempotencyKey := some "k1",
                          actorID := some "op" }] }
      | _ => rejectHost.arrivals w }

/-- The plan returned with an error, its node runs, and no control was sent. -/
def abandoned : Exec → Bool
  | .returned w (.error _) =>
      !(runningNodes w.st.state.status).isEmpty && w.log.all fun e =>
        match e.2 with
        | .controlNode .. => false
        | _ => true
  | _ => false

/-- The gate of the plan is approved, so the reject signal is refused: the plan fails and
its node goes on. -/
theorem reject_refused :
    rejectWaits (planRun approvedHost singlePlan 7) = true ∧
    (planRun approvedHost singlePlan 7).world.st.state.status.lifecycleState = .running ∧
    abandoned (planRun approvedHost singlePlan 8) = true := by
  decide +kernel

end AgentOS.Plan
