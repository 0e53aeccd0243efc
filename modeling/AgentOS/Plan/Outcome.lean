import AgentOS.Plan.Stillness

/-!
# The durable outcome of a plan

When the loop of a plan returns, the status that was persisted last should say how the plan
ended.  In a run whose persist and control activities succeed, the errors that leave the loop
without a saved end are those of the settle step and of a wait that fails.
-/

namespace AgentOS.Plan

open Kit List

variable {E : Host} {input : PlanWorkflowInput} {x : Execution} {w v : World} {p p' : Point}
  {spec : RunPlanSpec} {event : StateEvent} {answer : Option Err} {e : Locals × Act} {err : Err}
  {bad : Err → Point} {ok : Point} {c : Config} {arrivals : Arrivals}

/-! ## The persisted status -/

/-- The status that was persisted last. -/
def lastPersisted : List (Locals × Act) → Option RunPlanStatus
  | [] => none
  | (_, .persist _ status _ _ none) :: _ => some status
  | _ :: earlier => lastPersisted earlier

def SavedEnd (w : World) : Prop :=
  ∃ status, lastPersisted w.log = some status ∧ status.lifecycleState.terminal = true

def Act.persists : Act → Bool
  | .persist .. => true
  | _ => false

theorem SavedEnd.act {act : Act} (h : SavedEnd w) (hact : act.persists = false) :
    SavedEnd (w.act Locals.step act) := by
  obtain ⟨status, hlast, hterminal⟩ := h
  refine ⟨status, ?_, hterminal⟩
  cases act with
  | persist => cases hact
  | _ => exact hlast

theorem Posted.savedEnd (h : Posted E spec event w none v)
    (hends : ∃ lifecycle, reducerPlanLifecycleForEvent event.kind = some lifecycle ∧
      lifecycle.terminal = true) : SavedEnd v := by
  obtain ⟨lifecycle, hkind, hterminal⟩ := hends
  have hlifecycle := h.lifecycle_saved hkind
  cases h with
  | answered => exact ⟨_, rfl, (congrArg PlanLifecycle.terminal hlifecycle).trans hterminal⟩

/-! ## The invariant -/

/-- A wait of the loop fails. -/
def waitFails : Locals × Act → Bool
  | (l, .wait (some _)) => l.stage ≠ .drain
  | _ => false

def Recording (e : Locals × Act) : Prop := Smooth e ∧ waitFails e = false

def Recorded (w : World) : Point → Prop
  | .ended _ | .leaving .done | .leaving (.error _) | .returned _ => SavedEnd w
  | _ => True

theorem Skips.recorded (h : Skips E x w p p') (hunbroken : Unbroken w p)
    (hstays : p.stays = true → p.over = false → p'.stays = true) (hI : Recorded w p) :
    Recorded w p' := by
  cases h with
  | settleUnknown => cases hstays rfl rfl
  | settleBroken => exact hunbroken.elim
  | done | error => exact hI
  | command h =>
    cases h with
    | ended => exact hI
    | stoppedGuard => exact hunbroken.elim
    | _ => trivial
  | _ => trivial

theorem Says.recorded {act : Act} (h : Says E x w p act p') (hI : Recorded w p) :
    Recorded (w.act Locals.step act) p' := by
  cases h with
  | @drain outcome | @cancelOperation outcome | @dropOperation outcome =>
    cases outcome <;> first | exact hI.act rfl | trivial
  | _ => trivial

theorem Asks.recorded {act : Act} (h : Asks E x w p act p')
    (hstage : AtStage w.st.stage p) (hact : waitFails (w.st, act) = false) (hI : Recorded w p) :
    Recorded (asked w act arrivals) p' := by
  cases h with
  | awaitFailed => simp [waitFails, show w.st.stage = .settle from hstage] at hact
  | sleepFailed => simp [waitFails, show w.st.stage = .preSchedule from hstage] at hact
  | finishFailed => simp [waitFails, show w.st.stage = .finish from hstage] at hact
  | @drained outcome => cases outcome <;> first | exact (hI.act rfl).act rfl | trivial
  | _ => trivial

theorem Posts.recorded (h : Posts E x w p spec event ok bad)
    (hposted : Posted E spec event w none v) : Recorded v ok := by
  cases h with
  | tripped | failed | stalled => exact hposted.savedEnd ⟨_, rfl, rfl⟩
  | ended hends => exact hposted.savedEnd hends.terminal
  | terminalBefore | terminalAfter => exact hposted.savedEnd (terminalPlanEvent_terminal _)
  | _ => trivial

theorem reachable_recorded (hfresh : input.continued = false) (hzero : input.expansionCount = 0)
    (hc : Reachable E input c) (hrecording : LogMeets Recording c.2) : Recorded c.2 c.1.2 := by
  refine reach_inv trivial ?_ hc hrecording
  intro c d hc hmove hrecording hI
  have hsmooth : LogMeets Smooth d.2 := fun e he => (hrecording e he).1
  have hsmooth' := hmove.meets hsmooth
  have hsynced : Synced c.2 c.1.2 :=
    reachable_synced hfresh hzero hc fun e he => (hsmooth' e he).kept
  have hunbroken := reachable_unbroken hfresh hzero hc hsmooth'
  cases hmove with
  | skip h => exact h.recorded hunbroken (h.stays hfresh hc hsynced hunbroken).2 hI
  | say h => exact h.recorded hI
  | ask h =>
    exact h.recorded (reachable_atStage hc) (hrecording _ (mem_cons_of_mem _ mem_cons_self)).2 hI
  | saved h hposted => exact h.recorded hposted
  | unsaved h hposted =>
    have hlost := h.lost hc hposted hsmooth hsynced hunbroken
    cases h with
    | tripped | terminalBefore | terminalAfter | conditions | skipped | startFailed | failed
    | stalled => cases hlost
    | _ => trivial
  | begin | refuse => trivial

/-- Durable outcome: when the loop of a new plan returns, normally or with an error, the
status that was persisted last is terminal, if the persist and control activities succeed,
the settle step meets neither a negative spend nor a refused expansion, and no wait fails. -/
theorem outcome_durable (E : Host) (r : PlanRuntime) (spec : RunPlanSpec) (n : Nat) (w : World)
    (outcome : Except Err Unit) (hreturned : planRun E (r.newPlanInput spec) n = .returned w outcome)
    (hactivities : LogMeets (activityFailed · = false) w)
    (hsettles : LogMeets (settleFails · = false) w) (hwaits : LogMeets (waitFails · = false) w) :
    ∃ status, lastPersisted w.log = some status ∧ status.lifecycleState.terminal = true := by
  obtain ⟨c, hreach, hat⟩ := planRun_path E (r.newPlanInput spec) n
  rw [hreturned] at hat
  obtain ⟨x, rfl⟩ := hat
  exact reachable_recorded rfl rfl hreach fun e he =>
    ⟨⟨hactivities e he, hsettles e he⟩, hwaits e he⟩

/-- The status reads report a negative spend. -/
def overdrawnHost : Host :=
  { calmHost with
    statusNode := fun _ => .ok { lifecycleState := .succeeded, spentCents := -1 } }

/-- A negative spend that the poll step reads fails the plan durably. -/
theorem outcome_durable_polled :
    ∃ w outcome, planRun overdrawnHost singlePlan 3 = .returned w outcome ∧
      ∃ status, lastPersisted w.log = some status ∧ status.lifecycleState.terminal = true :=
  ⟨_, _, rfl, outcome_durable overdrawnHost calmRuntime singlePlan.spec 3 _ _ rfl
    (by decide +kernel) (by decide +kernel) (by decide +kernel)⟩

/-- The operation of the run `ra` settles while the loop waits, with an expansion that is
refused. -/
def refusingHost : Host :=
  { settlingHost 0 with
    nextPlanDelta := fun _ => .error (.external "bad delta")
    arrivals := fun w =>
      match w.log with
      | (_, .wait _) :: _ =>
          { settled :=
              [("ra", .ok
                { runID := "ra"
                  lifecycleState := .succeeded
                  artifacts := [{ artifactID := "d", name := "delta", kind := .planDelta }] })] }
      | _ => {} }

/-- The persist and control activities succeeded, the plan returned with an error, and its
persisted status is not terminal. -/
def leftOpen : Exec → Bool
  | .returned w (.error _) =>
      w.log.all (fun e => !activityFailed e) &&
        (lastPersisted w.log).any fun status => !status.lifecycleState.terminal
  | _ => false

/-- The settle step takes a negative spend, and an expansion that is refused, and returns the
error of each.  The persisted plan stays running. -/
theorem outcome_lost :
    leftOpen (planRun (settlingHost (-1)) (planOf [nativeNode "a" "ra"]) 4) = true ∧
      leftOpen (planRun refusingHost (planOf [nativeNode "a" "ra"]) 4) = true := by
  decide +kernel

end AgentOS.Plan
