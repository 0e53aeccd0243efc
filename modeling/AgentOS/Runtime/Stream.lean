import AgentOS.Runtime.Ingest

/-!
# The stream of a plan

`SubscribePlan` of `agentos/temporal/plan_runtime.go` gives a client the events of a plan.  It
reads the events from the plan tables, subscribes to the live bus, reads again what was appended
meanwhile, and then forwards what the bus brings.
-/

namespace AgentOS.Runtime

open Kit Store List Bool

variable {Text : Type} [DecidableEq Text]

/-! ## The subscription -/

structure PlanStreamScope where
  (planID accountID projectID : String)
  (nodeID runID : String := "")
  afterSequence : Int := 0

namespace PlanStreamScope

/-- The plan of the scope. -/
def ref (scope : PlanStreamScope) : PlanRef := ⟨scope.planID, scope.accountID, scope.projectID⟩

end PlanStreamScope

def planEventMatchesSubscriptionScope (event : PlanEvent) (scope : PlanStreamScope) : Bool :=
  event.planID = scope.planID && event.accountID = scope.accountID &&
    event.projectID = scope.projectID && (scope.nodeID = "" || event.nodeID = scope.nodeID) &&
    (scope.runID = "" || event.runID = scope.runID)

def planEventMatchesScope (event : PlanEvent) (scope : PlanStreamScope) : Bool :=
  planEventMatchesSubscriptionScope event scope && decide (scope.afterSequence < event.sequence)

def validatePlanTenantAccess (ref : PlanRef) (spec : RunPlanSpec) : Except Err Unit :=
  if spec.planID ≠ ref.planID then errorf .planRouteNotFound ref.planID
  else if spec.accountID ≠ ref.accountID then errorf .planRouteNotFound ref.planID
  else if spec.projectID ≠ ref.projectID then errorf .planRouteNotFound ref.planID
  else .ok ()

def authorizePlanStreamScope (t : PlanTables) (scope : PlanStreamScope) : Except Err Unit := do
  validatePlanRef ⟨scope.planID, scope.accountID, scope.projectID, ""⟩
  match ← t.getPlan scope.planID with
  | none => errorf .planRouteNotFound scope.planID
  | some (spec, _) => validatePlanTenantAccess scope.ref spec

def listPlanEvents (t : PlanTables) (scope : PlanStreamScope) : Except Err (List PlanEvent) := do
  authorizePlanStreamScope t scope
  return (t.durableEvents.filter (planEventMatchesScope · scope)).insertionSort
    fun event later => event.sequence ≤ later.sequence

def lastPlanEventSequence (afterSequence : Int) (planEvents : List PlanEvent) : Int :=
  planEvents.foldl (fun last event => if event.sequence > last then event.sequence else last)
    afterSequence

def channelForPlan (tenant planID : String) : String :=
  "agentos:plan:" ++ (if tenant = "" then "default" else tenant) ++ ":" ++ planID

/-- Where a `SubscribePlan` stands.  Behind the two reads the subscription replays what they
found and then forwards what the bus brings. -/
inductive SubscribeCall where
  | called
  | listed (events : List PlanEvent)
  | subscribed (events : List PlanEvent)
  | streaming (rest : List PlanEvent) (replaySequence liveAfterSequence : Int)
  | failed (err : Err)

def SubscribeCall.list (t : PlanTables) (scope : PlanStreamScope) : SubscribeCall :=
  match (do
    validatePlanRef ⟨scope.planID, scope.accountID, scope.projectID, ""⟩
    let _ ← authorizePlan t scope.ref
    listPlanEvents t scope) with
  | .error err => .failed err
  | .ok events => .listed events

def SubscribeCall.catchUp (t : PlanTables) (scope : PlanStreamScope) (events : List PlanEvent) :
    SubscribeCall :=
  let replaySequence := lastPlanEventSequence scope.afterSequence events
  match listPlanEvents t { scope with afterSequence := replaySequence } with
  | .error err => .failed err
  | .ok caught =>
      .streaming (events ++ caught) replaySequence (lastPlanEventSequence replaySequence caught)

def SubscribeCall.onBus : SubscribeCall → Bool
  | .subscribed _ | .streaming .. => true
  | .called | .listed _ | .failed _ => false

/-- The subscription and its surroundings.  `bus` is what is published for the subscription and
not yet forwarded, and `published` is everything that was published. -/
structure StreamState where
  tables : PlanTables
  published : List PlanEvent := []
  bus : List PlanEvent := []
  call : SubscribeCall := .called
  received : List PlanEvent := []

variable (scope : PlanStreamScope)

def StreamState.publish (event : PlanEvent) (s : StreamState) : StreamState :=
  let heard := s.call.onBus && decide
    (channelForPlan event.accountID event.planID = channelForPlan scope.accountID scope.planID)
  { s with
    published := s.published ++ [event]
    bus := if heard then s.bus ++ [event] else s.bus }

def forwards (replaySequence liveAfterSequence : Int) (event : PlanEvent) : Bool :=
  planEventMatchesScope event { scope with afterSequence := replaySequence } &&
    !(decide (event.sequence ≤ liveAfterSequence) || !planEventMatchesSubscriptionScope event scope)

inductive StreamMove (m : Marshal Text) (scope : PlanStreamScope) :
    StreamState → StreamState → Prop
  | commit {s t} (hcall : PlanTables.Accepted m s.tables t) :
      StreamMove m scope s { s with tables := t }
  | publish {s event} (hdurable : event ∈ s.tables.durableEvents) :
      StreamMove m scope s (s.publish scope event)
  | list {s} (hcall : s.call = .called) :
      StreamMove m scope s { s with call := .list s.tables scope }
  | subscribe {s events} (hcall : s.call = .listed events) :
      StreamMove m scope s { s with call := .subscribed events }
  | catchUp {s events} (hcall : s.call = .subscribed events) :
      StreamMove m scope s { s with call := .catchUp s.tables scope events }
  | replay {s event rest replaySequence liveAfterSequence}
      (hcall : s.call = .streaming (event :: rest) replaySequence liveAfterSequence) :
      StreamMove m scope s
        { s with
          call := .streaming rest replaySequence liveAfterSequence
          received := s.received ++ [event] }
  | forward {s event rest replaySequence liveAfterSequence}
      (hcall : s.call = .streaming [] replaySequence liveAfterSequence)
      (hbus : s.bus = event :: rest) :
      StreamMove m scope s
        { s with
          bus := rest
          received :=
            if forwards scope replaySequence liveAfterSequence event then s.received ++ [event]
            else s.received }

/-- The states that the system can reach.  Before the subscription is made, the plan may have
gone on for any time. -/
def StreamReach (m : Marshal Text) (scope : PlanStreamScope) (s : StreamState) : Prop :=
  Relation.ReflTransGen (StreamMove m scope) { tables := .empty } s

/-! ## Reads -/

variable {earlier added : List PlanEvent} {events : List PlanEvent}

section Reads

variable {t : PlanTables} {scope : PlanStreamScope} {event : PlanEvent}

theorem planEventMatchesSubscriptionScope_planID
    (h : planEventMatchesSubscriptionScope event scope = true) : event.planID = scope.planID := by
  simp only [planEventMatchesSubscriptionScope, and_eq_true, decide_eq_true_eq] at h
  exact h.1.1.1.1

theorem planEventMatchesScope_iff : planEventMatchesScope event scope = true ↔
    planEventMatchesSubscriptionScope event scope = true ∧
      scope.afterSequence < event.sequence := by
  rw [planEventMatchesScope, and_eq_true, decide_eq_true_eq]

theorem filter_increasing (h : t.Sequenced) :
    (t.durableEvents.filter (planEventMatchesScope · scope)).Pairwise
      fun event later => event.sequence < later.sequence := by
  refine (h.increasing.filter _).imp_of_mem fun hevent hlater hless => hless ?_
  have hplan : ∀ {event : PlanEvent},
      event ∈ t.durableEvents.filter (planEventMatchesScope · scope) →
        event.planID = scope.planID := fun hmem =>
    planEventMatchesSubscriptionScope_planID (planEventMatchesScope_iff.mp (mem_filter.mp hmem).2).1
  rw [hplan hevent, hplan hlater]

theorem listPlanEvents_ok (h : t.Sequenced) (hlisted : listPlanEvents t scope = .ok events) :
    events = t.durableEvents.filter (planEventMatchesScope · scope) := by
  obtain ⟨⟨⟩, -, hlisted⟩ := bind_ok hlisted
  cases hlisted
  exact Pairwise.insertionSort_eq ((filter_increasing h).imp fun hless => le_of_lt hless)

theorem lastPlanEventSequence_spec (afterSequence : Int) (planEvents : List PlanEvent) :
    (lastPlanEventSequence afterSequence planEvents = afterSequence ∨
      ∃ event ∈ planEvents, event.sequence = lastPlanEventSequence afterSequence planEvents) ∧
    afterSequence ≤ lastPlanEventSequence afterSequence planEvents ∧
    ∀ event ∈ planEvents, event.sequence ≤ lastPlanEventSequence afterSequence planEvents := by
  induction planEvents generalizing afterSequence with
  | nil => exact ⟨.inl rfl, le_rfl, nofun⟩
  | cons event rest ih =>
    let next := if event.sequence > afterSequence then event.sequence else afterSequence
    have hnext : (next = afterSequence ∨ next = event.sequence) ∧ afterSequence ≤ next ∧
        event.sequence ≤ next := by
      simp only [next]
      split_ifs <;> omega
    obtain ⟨hcases, hle, hall⟩ := ih next
    have hstep : lastPlanEventSequence afterSequence (event :: rest) =
        lastPlanEventSequence next rest := foldl_cons
    rw [hstep]
    refine ⟨?_, by omega, forall_mem_cons.mpr ⟨by omega, hall⟩⟩
    rcases hcases with hsame | ⟨found, hfound, hlast⟩
    · rw [hsame]
      exact hnext.1.imp_right fun hnew => ⟨event, mem_cons_self, hnew.symm⟩
    · exact .inr ⟨found, mem_cons_of_mem _ hfound, hlast⟩

def newer (scope : PlanStreamScope) (sequence : Int) (event : PlanEvent) : Bool :=
  planEventMatchesScope event { scope with afterSequence := sequence }

theorem newer_iff {sequence : Int} :
    newer scope sequence event = true ↔
      planEventMatchesSubscriptionScope event scope = true ∧ sequence < event.sequence :=
  planEventMatchesScope_iff

theorem not_newer_last (hevent : event ∈ events) :
    ¬ newer scope (lastPlanEventSequence scope.afterSequence
      (events.filter (planEventMatchesScope · scope))) event = true := by
  intro hnewer
  obtain ⟨hscope, hless⟩ := newer_iff.mp hnewer
  obtain ⟨-, hle, hall⟩ := lastPlanEventSequence_spec scope.afterSequence
    (events.filter (planEventMatchesScope · scope))
  have hmatches : planEventMatchesScope event scope = true :=
    planEventMatchesScope_iff.mpr ⟨hscope, hle.trans_lt hless⟩
  exact absurd (hall event (mem_filter.mpr ⟨hevent, hmatches⟩)) (not_le.mpr hless)

theorem newer_of_appended {liveAfterSequence : Int}
    (hincreasing : (earlier ++ added).Pairwise fun event later =>
      event.planID = later.planID → event.sequence < later.sequence)
    (hle : scope.afterSequence ≤ liveAfterSequence)
    (hlast : liveAfterSequence = scope.afterSequence ∨ ∃ event ∈ earlier,
      planEventMatchesSubscriptionScope event scope = true ∧ event.sequence = liveAfterSequence) :
    added.filter (planEventMatchesScope · scope) = added.filter (newer scope liveAfterSequence) := by
  refine filter_congr fun event hevent => ?_
  rw [Bool.eq_iff_iff, planEventMatchesScope_iff, newer_iff]
  refine and_congr_right fun hscope => ⟨fun hafter => ?_, hle.trans_lt⟩
  rcases hlast with rfl | ⟨last, hdurable, hmatches, rfl⟩
  · exact hafter
  · exact (pairwise_append.mp hincreasing).2.2 last hdurable event hevent
      ((planEventMatchesSubscriptionScope_planID hmatches).trans
        (planEventMatchesSubscriptionScope_planID hscope).symm)

theorem catchUp_appends (hincreasing : (earlier ++ added).Pairwise fun event later =>
      event.planID = later.planID → event.sequence < later.sequence) :
    let events := earlier.filter (planEventMatchesScope · scope)
    events ++ (earlier ++ added).filter
        (newer scope (lastPlanEventSequence scope.afterSequence events)) =
      (earlier ++ added).filter (planEventMatchesScope · scope) := by
  intro events
  obtain ⟨hcases, hle, -⟩ := lastPlanEventSequence_spec scope.afterSequence events
  rw [filter_append, filter_append, filter_eq_nil_iff.mpr fun _ => not_newer_last, nil_append,
    newer_of_appended hincreasing hle]
  refine hcases.imp_right fun ⟨last, hlast, hsequence⟩ => ?_
  obtain ⟨hdurable, hmatches⟩ := mem_filter.mp hlast
  exact ⟨last, hdurable, (planEventMatchesScope_iff.mp hmatches).1, hsequence⟩

end Reads

/-! ## What the client gets -/

theorem forwards_eq_newer {scope : PlanStreamScope} {replaySequence liveAfterSequence : Int}
    (hle : replaySequence ≤ liveAfterSequence) (event : PlanEvent) :
    forwards scope replaySequence liveAfterSequence event =
      newer scope liveAfterSequence event := by
  rw [Bool.eq_iff_iff, newer_iff, forwards, and_eq_true, planEventMatchesScope_iff,
    not_eq_true', or_eq_false_iff, decide_eq_false_iff_not, not_eq_false', not_le]
  constructor
  · rintro ⟨-, hless, hscope⟩
    exact ⟨hscope, hless⟩
  · rintro ⟨hscope, hless⟩
    exact ⟨⟨hscope, hle.trans_lt hless⟩, hless, hscope⟩

/-- What a subscription has got and will get.  `streaming`: the events of the scope that the
reads found are all up to `liveAfterSequence`, and the client gets them and then the
publications of the newer ones. -/
def SubscribeCall.Consistent (s : StreamState) : SubscribeCall → Prop
  | .called | .failed _ => s.received = []
  | .listed events | .subscribed events =>
      s.received = [] ∧ ∃ earlier added, s.tables.durableEvents = earlier ++ added ∧
        events = earlier.filter (planEventMatchesScope · scope)
  | .streaming rest replaySequence liveAfterSequence =>
      scope.afterSequence ≤ liveAfterSequence ∧ replaySequence ≤ liveAfterSequence ∧
      (liveAfterSequence = scope.afterSequence ∨ ∃ event ∈ s.tables.durableEvents,
        planEventMatchesSubscriptionScope event scope = true ∧ event.sequence = liveAfterSequence) ∧
      ∃ replayed, (∀ event ∈ replayed, event.sequence ≤ liveAfterSequence) ∧
        s.tables.durableEvents.filter (planEventMatchesScope · scope) =
          replayed ++ s.tables.durableEvents.filter (newer scope liveAfterSequence) ∧
        s.received ++ rest ++ s.bus.filter (newer scope liveAfterSequence) =
          replayed ++ s.published.filter (newer scope liveAfterSequence)

structure Consistent (scope : PlanStreamScope) (s : StreamState) : Prop where
  sequenced : s.tables.Sequenced
  published : ∀ event ∈ s.published, event ∈ s.tables.durableEvents
  heard : ∀ event ∈ s.bus, event ∈ s.published
  call : s.call.Consistent scope s

section Moves

variable {m : Marshal Text} {scope : PlanStreamScope} {s : StreamState}

theorem Consistent.commit {t : PlanTables} (h : Consistent scope s)
    (hcall : PlanTables.Accepted m s.tables t) : Consistent scope { s with tables := t } := by
  obtain ⟨hsequenced, added, hadded⟩ := hcall.sequenced h.sequenced
  have hkept : ∀ event ∈ s.tables.durableEvents, event ∈ t.durableEvents :=
    fun _ hevent => hadded ▸ mem_append_left _ hevent
  have hcall := h.call
  refine ⟨hsequenced, fun event hevent => hkept event (h.published event hevent), h.heard, ?_⟩
  show s.call.Consistent scope { s with tables := t }
  generalize s.call = call at hcall ⊢
  cases call with
  | called | failed => exact hcall
  | listed events | subscribed events =>
    obtain ⟨hnone, earlier, since, hdurable, hevents⟩ := hcall
    refine ⟨hnone, earlier, since ++ added, ?_, hevents⟩
    rw [hadded, hdurable, append_assoc]
  | streaming rest replaySequence liveAfterSequence =>
    obtain ⟨hle, hreplay, hlast, replayed, hold, hsplit, hgot⟩ := hcall
    refine ⟨hle, hreplay, hlast.imp_right ?_, replayed, hold, ?_, hgot⟩
    · exact fun ⟨event, hevent, hmatches⟩ => ⟨event, hkept event hevent, hmatches⟩
    · show t.durableEvents.filter _ = _ ++ t.durableEvents.filter _
      rw [hadded, filter_append, filter_append, hsplit, append_assoc,
        newer_of_appended (hadded ▸ hsequenced.increasing) hle hlast]

theorem Consistent.publish {event : PlanEvent} (h : Consistent scope s)
    (hdurable : event ∈ s.tables.durableEvents) : Consistent scope (s.publish scope event) := by
  have hcall := h.call
  refine ⟨h.sequenced, fun found hfound => ?_, fun found hfound => ?_, ?_⟩
  · rcases mem_append.mp hfound with hold | hnew
    · exact h.published found hold
    · exact mem_singleton.mp hnew ▸ hdurable
  · simp only [StreamState.publish] at hfound
    split at hfound
    · rcases mem_append.mp hfound with hold | hnew
      · exact mem_append_left _ (h.heard found hold)
      · exact mem_append_right _ hnew
    · exact mem_append_left _ (h.heard found hfound)
  show s.call.Consistent scope (s.publish scope event)
  cases hphase : s.call with
  | called | failed | listed | subscribed =>
    rw [hphase] at hcall
    exact hcall
  | streaming rest replaySequence liveAfterSequence =>
    rw [hphase] at hcall
    obtain ⟨hle, hreplay, hlast, replayed, hold, hsplit, hgot⟩ := hcall
    refine ⟨hle, hreplay, hlast, replayed, hold, hsplit, ?_⟩
    have hbus : (s.publish scope event).bus.filter (newer scope liveAfterSequence) =
        (s.bus ++ [event]).filter (newer scope liveAfterSequence) := by
      simp only [StreamState.publish, hphase, SubscribeCall.onBus, Bool.true_and, decide_eq_true_eq]
      split_ifs with hchannel
      · rfl
      -- What is newer for the subscription is on its channel.
      have hother : ¬ newer scope liveAfterSequence event = true := by
        intro hnewer
        have hmatches := (newer_iff.mp hnewer).1
        simp only [planEventMatchesSubscriptionScope, and_eq_true, decide_eq_true_eq] at hmatches
        exact hchannel (by rw [hmatches.1.1.1.1, hmatches.1.1.1.2])
      rw [filter_append, filter_cons_of_neg hother, filter_nil, append_nil]
    show _ = replayed ++ (s.published ++ [event]).filter _
    rw [hbus, filter_append, filter_append, ← append_assoc, ← append_assoc, ← hgot]
    rfl

theorem Consistent.list (h : Consistent scope s) (hcalled : s.call = .called) :
    Consistent scope { s with call := .list s.tables scope } := by
  have hcall := h.call
  rw [hcalled] at hcall
  refine ⟨h.sequenced, h.published, h.heard, ?_⟩
  show (SubscribeCall.list s.tables scope).Consistent scope _
  unfold SubscribeCall.list
  split
  · exact hcall
  next events hread =>
  obtain ⟨⟨⟩, -, hread⟩ := bind_ok hread
  obtain ⟨plan, -, hread⟩ := bind_ok hread
  exact ⟨hcall, s.tables.durableEvents, [], (append_nil _).symm,
    listPlanEvents_ok h.sequenced hread⟩

theorem Consistent.catchUp (h : Consistent scope s) (hsubscribed : s.call = .subscribed events) :
    Consistent scope { s with call := .catchUp s.tables scope events } := by
  have hcall := h.call
  rw [hsubscribed] at hcall
  obtain ⟨hnone, earlier, added, hdurable, rfl⟩ := hcall
  refine ⟨h.sequenced, h.published, h.heard, ?_⟩
  show (SubscribeCall.catchUp s.tables scope _).Consistent scope _
  unfold SubscribeCall.catchUp
  dsimp only
  split
  · exact hnone
  next caught hread =>
  have hcaught := listPlanEvents_ok h.sequenced hread
  have hfound : earlier.filter (planEventMatchesScope · scope) ++ caught =
      s.tables.durableEvents.filter (planEventMatchesScope · scope) := by
    rw [hcaught, hdurable]
    exact catchUp_appends (hdurable ▸ h.sequenced.increasing)
  have hlive : lastPlanEventSequence (lastPlanEventSequence scope.afterSequence
        (earlier.filter (planEventMatchesScope · scope))) caught =
      lastPlanEventSequence scope.afterSequence
        (s.tables.durableEvents.filter (planEventMatchesScope · scope)) := by
    rw [← hfound]
    exact foldl_append.symm
  obtain ⟨-, hreplay, -⟩ := lastPlanEventSequence_spec (lastPlanEventSequence scope.afterSequence
    (earlier.filter (planEventMatchesScope · scope))) caught
  rw [hlive] at hreplay ⊢
  rw [hfound]
  obtain ⟨hcases, hle, hall⟩ := lastPlanEventSequence_spec scope.afterSequence
    (s.tables.durableEvents.filter (planEventMatchesScope · scope))
  set liveAfterSequence := lastPlanEventSequence scope.afterSequence
    (s.tables.durableEvents.filter (planEventMatchesScope · scope))
  -- No durable event of the scope is newer than the reads, so no published one is.
  have hnewer : ∀ event ∈ s.tables.durableEvents, ¬ newer scope liveAfterSequence event = true :=
    fun _ => not_newer_last
  have hpublished : s.published.filter (newer scope liveAfterSequence) = [] :=
    filter_eq_nil_iff.mpr fun event hevent => hnewer event (h.published event hevent)
  have hbus : s.bus.filter (newer scope liveAfterSequence) = [] :=
    filter_eq_nil_iff.mpr fun event hevent =>
      hnewer event (h.published event (h.heard event hevent))
  refine ⟨hle, hreplay, hcases.imp_right ?_, _, hall, ?_, ?_⟩
  · rintro ⟨event, hevent, hsequence⟩
    obtain ⟨hmem, hmatches⟩ := mem_filter.mp hevent
    exact ⟨event, hmem, (planEventMatchesScope_iff.mp hmatches).1, hsequence⟩
  · show s.tables.durableEvents.filter _ = _ ++ s.tables.durableEvents.filter _
    rw [filter_eq_nil_iff.mpr hnewer, append_nil]
  · show s.received ++ _ ++ s.bus.filter _ = _ ++ s.published.filter _
    rw [hnone, hbus, hpublished, nil_append]

theorem StreamMove.consistent {s' : StreamState} (h : StreamMove m scope s s')
    (hbefore : Consistent scope s) : Consistent scope s' := by
  have hcall := hbefore.call
  cases h with
  | commit haccepted => exact hbefore.commit haccepted
  | publish hdurable => exact hbefore.publish hdurable
  | list hcalled => exact hbefore.list hcalled
  | subscribe hlisted =>
    rw [hlisted] at hcall
    exact ⟨hbefore.sequenced, hbefore.published, hbefore.heard, hcall⟩
  | catchUp hsubscribed => exact hbefore.catchUp hsubscribed
  | replay hstreaming =>
    rw [hstreaming] at hcall
    obtain ⟨hle, hreplay, hlast, replayed, hold, hsplit, hgot⟩ := hcall
    refine ⟨hbefore.sequenced, hbefore.published, hbefore.heard, hle, hreplay, hlast, replayed,
      hold, hsplit, ?_⟩
    rw [← hgot]
    simp
  | forward hstreaming hbus =>
    rw [hstreaming] at hcall
    obtain ⟨hle, hreplay, hlast, replayed, hold, hsplit, hgot⟩ := hcall
    refine ⟨hbefore.sequenced, hbefore.published,
      fun found hfound => hbefore.heard found (hbus ▸ mem_cons_of_mem _ hfound), ?_⟩
    show s.call.Consistent scope _
    rw [hstreaming]
    refine ⟨hle, hreplay, hlast, replayed, hold, hsplit, ?_⟩
    rw [forwards_eq_newer hreplay]
    show _ = replayed ++ s.published.filter _
    rw [← hgot, hbus, filter_cons]
    split <;> simp

theorem StreamReach.consistent (h : StreamReach m scope s) : Consistent scope s := by
  induction h with
  | refl => exact ⟨⟨.nil, nofun⟩, nofun, nofun, rfl⟩
  | tail _ hmove ih => exact hmove.consistent ih

end Moves

/-- The publications that a subscription forwards. -/
def SubscribeCall.live : SubscribeCall → PlanEvent → Bool
  | .streaming _ _ liveAfterSequence, event => newer scope liveAfterSequence event
  | _, _ => false

def StreamState.Drained (s : StreamState) : Prop :=
  s.bus = [] ∧ ∃ replaySequence liveAfterSequence,
    s.call = .streaming [] replaySequence liveAfterSequence

/-- What a subscriber gets of a plan. -/
structure ExactlyOnce (scope : PlanStreamScope) (s : StreamState) : Prop where
  increasing : s.received.Pairwise fun event later => event.sequence < later.sequence
  inScope : ∀ event ∈ s.received,
    event ∈ s.tables.durableEvents ∧ planEventMatchesScope event scope = true
  complete : s.Drained → (∀ event ∈ s.tables.durableEvents, event ∈ s.published) →
    ∀ event ∈ s.tables.durableEvents, planEventMatchesScope event scope = true → event ∈ s.received

/-- Whatever the interleaving: when the events of the scope that are newer than the reads of the
subscription are published in the order of their sequences, each once, the client gets the
events of the scope in that order and each once, and it gets all of them that are published. -/
theorem stream_exactly_once (m : Marshal Text) (scope : PlanStreamScope) (s : StreamState)
    (hreach : StreamReach m scope s) (hordered : (s.published.filter (s.call.live scope)).Pairwise
      fun event later => event.sequence < later.sequence) : ExactlyOnce scope s := by
  have h := hreach.consistent
  have hcall := h.call
  cases hphase : s.call with
  | called | failed | listed | subscribed =>
    rw [hphase] at hcall
    have hnone : s.received = [] := by first | exact hcall | exact hcall.1
    refine ⟨hnone ▸ .nil, fun event hevent => ?_, fun ⟨_, _, _, hdrained⟩ => ?_⟩
    · rw [hnone] at hevent
      cases hevent
    · rw [hphase] at hdrained
      cases hdrained
  | streaming rest replaySequence liveAfterSequence =>
    rw [hphase] at hcall hordered
    obtain ⟨hle, -, -, replayed, hold, hsplit, hgot⟩ := hcall
    have hall : (s.received ++ rest ++ s.bus.filter (newer scope liveAfterSequence)).Pairwise
        fun event later => event.sequence < later.sequence := by
      rw [hgot, pairwise_append]
      refine ⟨?_, hordered, fun event hevent later hlater => ?_⟩
      · exact (pairwise_append.mp (hsplit ▸ filter_increasing h.sequenced)).1
      · exact (hold event hevent).trans_lt (newer_iff.mp (mem_filter.mp hlater).2).2
    refine ⟨(pairwise_append.mp (pairwise_append.mp hall).1).1, fun event hevent => ?_,
      fun ⟨hbus, _, _, hdrained⟩ hpublished event hevent hmatches => ?_⟩
    · have hmem : event ∈ replayed ++ s.published.filter (newer scope liveAfterSequence) :=
        hgot ▸ mem_append_left _ (mem_append_left _ hevent)
      rcases mem_append.mp hmem with hreplayed | hlive
      · have hfound : event ∈ s.tables.durableEvents.filter (planEventMatchesScope · scope) :=
          hsplit ▸ mem_append_left _ hreplayed
        exact mem_filter.mp hfound
      · obtain ⟨hmem, hnewer⟩ := mem_filter.mp hlive
        obtain ⟨hscope, hless⟩ := newer_iff.mp hnewer
        exact ⟨h.published event hmem, planEventMatchesScope_iff.mpr ⟨hscope, hle.trans_lt hless⟩⟩
    · rw [hphase] at hdrained
      obtain rfl : rest = [] := (SubscribeCall.streaming.inj hdrained).1
      rw [hbus, filter_nil, append_nil, append_nil] at hgot
      have hfound : event ∈ replayed ++
          s.tables.durableEvents.filter (newer scope liveAfterSequence) :=
        hsplit ▸ mem_filter.mpr ⟨hevent, hmatches⟩
      rw [hgot]
      rcases mem_append.mp hfound with hreplayed | hlive
      · exact mem_append_left _ hreplayed
      · obtain ⟨hmem, hnewer⟩ := mem_filter.mp hlive
        exact mem_append_right _ (mem_filter.mpr ⟨hpublished event hmem, hnewer⟩)

def streamTables : PlanTables :=
  match PlanTables.empty.createPlan plainMarshal 1 (requestedSpec 2000) {} with
  | .ok (t, _) => t
  | .error _ => .empty

/-- The tables with the first event of the plan. -/
def firstEvent : PlanTables × PlanEvent :=
  match streamTables.appendPlanEvent plainMarshal 2 planStarted "k" with
  | .ok stored => stored
  | .error _ => (.empty, {})

/-- The tables with a second event behind it. -/
def laterEvent : PlanTables × PlanEvent :=
  match firstEvent.1.appendPlanEvent plainMarshal 3 planStarted "k2" with
  | .ok stored => stored
  | .error _ => (.empty, {})

/-- All events of the plan. -/
def planScope : PlanStreamScope := { planID := "plan", accountID := "a", projectID := "p" }

/-- A subscription that is made between the two events and has replayed the first one, and the
publications of the second one that it hears and that it has forwarded. -/
def liveStream (published forwarded : Nat) : StreamState where
  tables := laterEvent.1
  published := replicate published laterEvent.2
  bus := replicate (published - forwarded) laterEvent.2
  call := .streaming [] 1 1
  received := firstEvent.2 :: replicate forwarded laterEvent.2

theorem liveStream_opened : StreamReach plainMarshal planScope (liveStream 0 0) := by
  let opened (call : SubscribeCall) : StreamState := { tables := firstEvent.1, call }
  have hcreated : StreamReach plainMarshal planScope { tables := streamTables } :=
    .single (.commit (.createPlan (rfl : PlanTables.empty.createPlan plainMarshal 1
      (requestedSpec 2000) {} = .ok (streamTables, _))))
  have hlisted : StreamReach plainMarshal planScope (opened (.listed [firstEvent.2])) :=
    (hcreated.tail (.commit (.appendPlanEvent (rfl : streamTables.appendPlanEvent
      plainMarshal 2 planStarted "k" = .ok (firstEvent.1, firstEvent.2))))).tail (.list rfl)
  have hstreaming : StreamReach plainMarshal planScope (opened (.streaming [firstEvent.2] 1 1)) :=
    (hlisted.tail (.subscribe rfl)).tail (.catchUp
      (rfl : (opened (.subscribed [firstEvent.2])).call = .subscribed [firstEvent.2]))
  have hreplayed : StreamReach plainMarshal planScope
      { opened (.streaming [] 1 1) with received := [firstEvent.2] } :=
    hstreaming.tail (.replay rfl)
  exact hreplayed.tail (.commit (.appendPlanEvent (rfl : firstEvent.1.appendPlanEvent
    plainMarshal 3 planStarted "k2" = .ok (laterEvent.1, laterEvent.2))))

theorem liveStream_once : StreamReach plainMarshal planScope (liveStream 1 1) := by
  have hpublished : StreamReach plainMarshal planScope (liveStream 1 0) :=
    liveStream_opened.tail (.publish (.tail _ (.head _)))
  exact hpublished.tail (.forward (rfl : (liveStream 1 0).call = .streaming [] 1 1)
    (rfl : (liveStream 1 0).bus = [laterEvent.2]))

/-- The client gets the first event from the replay and the second one live. -/
theorem stream_exactly_once_live :
    (liveStream 1 1).received = [firstEvent.2, laterEvent.2] ∧
      ExactlyOnce planScope (liveStream 1 1) :=
  ⟨rfl, stream_exactly_once plainMarshal planScope (liveStream 1 1) liveStream_once
    (pairwise_singleton _ _)⟩

/-- An event that is published again is forwarded again. -/
theorem republished_event_repeats :
    StreamReach plainMarshal planScope (liveStream 2 2) ∧
      (liveStream 2 2).received = [firstEvent.2, laterEvent.2, laterEvent.2] ∧
      ¬ ExactlyOnce planScope (liveStream 2 2) := by
  have hpublished : StreamReach plainMarshal planScope (liveStream 2 1) :=
    liveStream_once.tail (.publish (.tail _ (.head _)))
  refine ⟨hpublished.tail (.forward (rfl : (liveStream 2 1).call = .streaming [] 1 1)
    (rfl : (liveStream 2 1).bus = [laterEvent.2])), rfl, fun h => ?_⟩
  have hlive := (pairwise_cons.mp h.increasing).2
  exact absurd ((pairwise_cons.mp hlive).1 _ (.head _)) (lt_irrefl _)

end AgentOS.Runtime
