import Hel.Review.Lemmas.Driver
import Mathlib.Data.List.Induction

/-!
This module contains what happens to a review that has reached a verdict or a resolution.
-/

namespace Hel

open TurnReviewPhase TurnReviewDriver Reactive

variable {call : ReviewCall} {role : String} {result : Except String String}
  {verdict : ReviewVerdict} {calls : List ReviewCall} {seed : TurnReviewSeed} {reason : String}

namespace TurnReviewDriver

def promptsOnStart (driver : TurnReviewDriver) (role : String) : Bool :=
  (role = validatorRole && driver.pendingFindings.isSome && driver.changedFunctions.isSome)
    || role = intentRole
    || (role = supervisorRole && driver.intent.isSome && driver.changedFunctions.isSome)
    || (laneById role).isSome

def failsWith (driver : TurnReviewDriver) (message : String) : Bool :=
  driver.phase ≠ .verdict (.failed message)

/-- A call that puts a settled review back to work, or that replaces its verdict. -/
def revivedBy (driver : TurnReviewDriver) : ReviewCall → Bool
  | .roleStarted role => driver.verdict?.isSome && driver.promptsOnStart role
  | .analysisCompleted result =>
    match driver.seed.tier, result with
    | .quick, .ok _ => driver.phase.settled && driver.pendingFindings.isSome
    | .quick, .error reason =>
      driver.phase.settled && driver.pendingFindings.isSome
        && driver.failsWith (unverifiedFailure reason)
    | .extended, .ok _ => driver.verdict?.isSome && driver.intent.isSome
    | .extended, .error reason =>
      driver.verdict?.isSome && driver.intent.isSome
        && driver.failsWith ("the review could not analyze the change: " ++ reason)
  | .lanesDispatched requests =>
    driver.verdict?.isSome && (validateDispatch requests).toOption.isSome
      && requests.any (fun request => !driver.launchedLanes.contains request.agentType)
  | .requestFailed message => driver.verdict?.isSome && driver.failsWith message
  | _ => false

/--
The call leaves a verdict to the user and a resolution alone, and starts nothing.
-/
structure Keeps (driver : TurnReviewDriver) (call : ReviewCall) : Prop where
  verdict : ∀ verdict, driver.phase = .verdict verdict → call.decides = false →
    (driver.call call).1.phase = .verdict verdict
  resolved : ∀ resolution, driver.phase = .resolved resolution →
    (driver.call call).1.phase = .resolved resolution
  quiet : driver.phase.settled = true → ∀ request ∈ (driver.call call).2,
    request.putsToWork = false

structure Tidy (driver : TurnReviewDriver) : Prop where
  capturing : driver.phase = .capturingDelta →
    driver.Reaped ∧ driver.pendingFindings = none ∧ driver.intent = none
  settled : driver.phase.settled = true → driver.Reaped

variable {driver : TurnReviewDriver} {requests : List ReviewSubagentRequest}

theorem Tidy.of_active (h : driver.phase.active = true) : driver.Tidy := by
  constructor
  . intro hphase
    simp [hphase, TurnReviewPhase.active] at h
  intro hsettled
  cases hphase : driver.phase <;>
    simp [hphase, TurnReviewPhase.active, TurnReviewPhase.settled] at h hsettled

theorem Tidy.of_reaped (h : driver.Reaped) (hphase : driver.phase.settled = true)
    : driver.Tidy := by
  constructor
  . intro hcapturing
    simp [hcapturing, TurnReviewPhase.settled] at hphase
  . intro _
    exact h

theorem tidy_start (seed : TurnReviewSeed) : (start seed).1.Tidy := by
  constructor
  . intro _
    exact ⟨⟨rfl, rfl, rfl⟩, rfl, rfl⟩
  . intro hsettled
    simp [start, settled] at hsettled

theorem tidy_reachVerdict (driver : TurnReviewDriver) (verdict : ReviewVerdict)
    : (driver.reachVerdict verdict).1.Tidy :=
  Tidy.of_reaped (reachVerdict_reaped _ _) (reachVerdict_settled _ _)

theorem tidy_requestFailed (h : driver.Tidy) (message : String)
    : (driver.requestFailed message).1.Tidy := by
  unfold requestFailed
  split
  . exact h
  . apply tidy_reachVerdict

/-!
### Results that reach a settled review
-/

theorem roleStarted_of_verdict (hphase : driver.phase = .verdict verdict)
    (hquiet : driver.promptsOnStart role = false) : driver.roleStarted role = (driver, []) := by
  apply roleStarted_ignored
  simpa [answersStart, promptsOnStart, finished, hphase, active] using hquiet

theorem roleStarted_active (hfinished : driver.finished = false)
    (hprompts : driver.promptsOnStart role = true)
    : (driver.roleStarted role).1.phase.active = true := by
  have hanswers : driver.answersStart role = true := by
    simp only [promptsOnStart, Bool.or_eq_true] at hprompts
    simp only [answersStart, hfinished, Bool.not_false, Bool.true_and, Bool.or_eq_true]
    tauto
  exact (roleStarted_prompts hanswers).2.1

theorem roleStarted_active_or (driver : TurnReviewDriver) (role : String)
    : driver.roleStarted role = (driver, [])
      ∨ (driver.roleStarted role).1.phase.active = true := by
  cases hanswers : driver.answersStart role with
  | true => exact .inr (roleStarted_prompts hanswers).2.1
  | false => exact .inl (roleStarted_ignored hanswers)

theorem dispatchLanes_of_launched
    (h : ∀ request ∈ requests, driver.launchedLanes.contains request.agentType = true)
    : driver.dispatchLanes requests = (driver, []) := by
  induction requests with
  | nil => rfl
  | cons request rest ih =>
    simp only [List.mem_cons, forall_eq_or_imp] at h
    unfold dispatchLanes
    split
    . apply ih h.2
    next lane hlane =>
      rw [laneById_id hlane, if_pos h.1]
      apply ih h.2

theorem dispatchLanes_active_or (driver : TurnReviewDriver) (requests : List ReviewSubagentRequest)
    : driver.dispatchLanes requests = (driver, [])
      ∨ (driver.dispatchLanes requests).1.phase.active = true := by
  induction requests generalizing driver with
  | nil =>
    left
    rfl
  | cons request rest ih =>
    unfold dispatchLanes
    split
    . apply ih
    split
    . apply ih
    right
    dsimp only
    rcases ih _ with h | h
    . rw [h]
      rfl
    . exact h

theorem validateRequests_nonblank {seen : List String} (h : validateRequests seen requests = .ok ())
    : ∀ request ∈ requests, (laneById request.agentType).isSome = true
        ∧ Text.isBlank request.hypothesis = false := by
  induction requests generalizing seen with
  | nil => simp
  | cons request rest ih =>
    unfold validateRequests at h
    split at h
    . cases h
    rename_i hknown
    split at h
    . cases h
    rename_i hblank
    split at h
    . cases h
    simp only [List.mem_cons, forall_eq_or_imp]
    refine ⟨⟨?_, by simpa using hblank⟩, ih h⟩
    simpa [Option.isSome_iff_ne_none] using hknown

theorem validateDispatch_known (h : (validateDispatch requests).toOption.isSome = true)
    : ∀ request ∈ requests, (laneById request.agentType).isSome = true := by
  unfold validateDispatch at h
  split at h
  . simp [Except.toOption] at h
  cases hvalid : validateRequests [] requests with
  | ok value => exact fun request hmem => (validateRequests_nonblank hvalid request hmem).1
  | error message =>
    rw [hvalid] at h
    simp [Except.toOption] at h

theorem dispatchLanes_launched
    (h : ∀ request ∈ requests, (laneById request.agentType).isSome = true)
    : ∀ request ∈ requests,
        (driver.dispatchLanes requests).1.launchedLanes.contains request.agentType = true := by
  induction requests generalizing driver with
  | nil => simp
  | cons request rest ih =>
    simp only [List.mem_cons, forall_eq_or_imp] at h ⊢
    unfold dispatchLanes
    split
    next hnone =>
      rw [hnone] at h
      cases h.1
    rename_i lane hlane
    have hid := laneById_id hlane
    split
    next hlaunched =>
      constructor
      . rw [(launches_dispatchLanes driver rest).launched]
        right
        rw [← hid]
        exact hlaunched
      . apply ih h.2
    next =>
      dsimp only
      constructor
      . rw [(launches_dispatchLanes _ rest).launched]
        right
        simp [startRole, markRole, BTreeMap.contains_insert, hid]
      . apply ih h.2

theorem dispatchLanes_active
    (hknown : ∀ request ∈ requests, (laneById request.agentType).isSome = true)
    {request : ReviewSubagentRequest} (hmem : request ∈ requests)
    (hnew : driver.launchedLanes.contains request.agentType = false)
    : (driver.dispatchLanes requests).1.phase.active = true := by
  have hlaunched := @dispatchLanes_launched driver _ hknown request hmem
  rcases dispatchLanes_active_or driver requests with hsame | hactive
  . rw [hsame, hnew] at hlaunched
    cases hlaunched
  . exact hactive

/-!
### One call
-/

theorem settleLane_active (driver : TurnReviewDriver) (lane : ReviewLane) (state : RoleState)
    (outcome : LaneOutcome) (finalMessage : String)
    : (driver.settleLane lane state outcome finalMessage).phase.active = true := by
  unfold settleLane recordLaneEvidence
  dsimp only
  split <;> rfl

theorem injectReports_phase (driver : TurnReviewDriver)
    : driver.injectReports.1.phase = driver.phase := by
  unfold injectReports
  split <;> rfl

theorem Reacts.tidy {reaction : Reaction} (h : Reacts driver reaction)
    (hactive : driver.phase.active = true) : reaction.1.Tidy := by
  induction h with
  | skip => exact .of_active hactive
  | prepare h _ ih =>
    apply ih
    rcases h.phase with hphase | hnext
    . rw [hphase]
      exact hactive
    . exact hnext
  | pause role _ ih => exact ih hactive
  | fail message => apply tidy_reachVerdict
  | start role | replace role other | prompt role purpose prompt => exact .of_active hactive
  | inject =>
    apply Tidy.of_active
    rw [injectReports_phase]
    exact hactive
  | settle lane state outcome finalMessage =>
    apply Tidy.of_active
    rw [injectReports_phase]
    apply settleLane_active
  | dispatch requests => exact .of_active ((launches_lanesDispatched _ _).phase hactive)

theorem tidy_startValidation_of_failed
    (hfailed : driver.analysis = .failed reason) : driver.startValidation.1.Tidy := by
  unfold startValidation
  simp only [hfailed]
  apply tidy_requestFailed
  apply Tidy.of_active rfl

theorem tidy_maybeStartSupervisor_of_failed (h : driver.Tidy)
    (hfailed : driver.analysis = .failed reason) : driver.maybeStartSupervisor.1.Tidy := by
  unfold maybeStartSupervisor
  split
  . exact h
  . simp only [hfailed]
    apply tidy_requestFailed h

theorem maybeStartSupervisor_held (h : driver.finished = true ∨ driver.intent = none
      ∨ driver.startedRoles.contains supervisorRole = true ∨ driver.analysis = .running)
    : driver.maybeStartSupervisor = (driver, []) := by
  rcases h with h | h | h | h <;> simp [maybeStartSupervisor, changedFunctions, h]

section

variable (hfinished : driver.finished = false) (hintent : driver.intent ≠ none)
  (hunstarted : driver.startedRoles.contains supervisorRole = false)

include hfinished hintent hunstarted

theorem maybeStartSupervisor_ready (packet : String)
    : { driver with analysis := .ready packet }.maybeStartSupervisor
      = ({ driver with
            analysis := .ready packet
            status := "starting the supervisor…"
            startedRoles := driver.startedRoles.insert supervisorRole () },
          [.startRole supervisorRole true]) := by
  have hfinished : { driver with analysis := .ready packet }.finished = false := hfinished
  simp [maybeStartSupervisor, changedFunctions, startRole, hfinished, hintent, hunstarted]

theorem maybeStartSupervisor_failed (reason : String)
    : { driver with analysis := .failed reason }.maybeStartSupervisor
      = { driver with analysis := .failed reason }.reachVerdict
          (.failed ("the review could not analyze the change: " ++ reason)) := by
  have hfinished : { driver with analysis := .failed reason }.finished = false := hfinished
  simp [maybeStartSupervisor, changedFunctions, hfinished, hintent, hunstarted,
    requestFailed_of_not_finished]

end

theorem Tidy.with_analysis (h : driver.Tidy) (analysis : Analysis)
    : { driver with analysis := analysis }.Tidy := by
  constructor
  . intro hphase
    have := h.capturing hphase
    exact ⟨{ this.1 with }, this.2⟩
  . intro hphase
    exact { h.settled hphase with }

theorem tidy_analysisCompleted_quick (h : driver.Tidy) (htier : driver.seed.tier = .quick)
    (hquiet : driver.revivedBy (.analysisCompleted result) = false)
    : (driver.analysisCompleted result).1.Tidy := by
  simp only [analysisCompleted, htier]
  split
  . apply h.with_analysis
  rename_i hpending
  by_cases hactive : driver.phase.active = true
  . exact (reacts_startValidation _).tidy hactive
  cases result with
  | error reason => apply tidy_startValidation_of_failed rfl
  | ok packet =>
  exfalso
  cases hphase : driver.phase with
  | capturingDelta => simp [(h.capturing hphase).2.1] at hpending
  | launchingReviewer | running roles => simp [hphase, active] at hactive
  | verdict verdict | resolved resolution => simp_all [revivedBy, settled]

theorem tidy_analysisCompleted_extended (h : driver.Tidy) (htier : driver.seed.tier = .extended)
    (hquiet : driver.revivedBy (.analysisCompleted result) = false)
    : (driver.analysisCompleted result).1.Tidy := by
  simp only [analysisCompleted, htier]
  by_cases hactive : driver.phase.active = true
  . exact (reacts_maybeStartSupervisor _).tidy hactive
  cases result with
  | error reason => apply tidy_maybeStartSupervisor_of_failed (h.with_analysis _) rfl
  | ok packet =>
  have hidle : driver.finished = true ∨ driver.intent = none := by
    cases hphase : driver.phase with
    | capturingDelta => exact Or.inr (h.capturing hphase).2.2
    | launchingReviewer | running roles => simp [hphase, active] at hactive
    | verdict verdict => simp_all [revivedBy, verdict?]
    | resolved resolution => simp [finished, hphase]
  rw [maybeStartSupervisor_held]
  . apply h.with_analysis
  . exact hidle.imp_right Or.inl

theorem tidy_roleTurnCompleted (h : driver.Tidy) (commandId answer : String)
    : (driver.roleTurnCompleted commandId answer).1.Tidy := by
  by_cases hactive : driver.phase.active = true
  . rcases roleTurnCompleted_cases driver commandId answer with hreacts | ⟨_, _, _, heq⟩
    . exact hreacts.tidy hactive
    . rw [heq]
      apply tidy_reachVerdict
  have hreaped : driver.Reaped := by
    cases hphase : driver.phase with
    | capturingDelta => exact (h.capturing hphase).1
    | launchingReviewer | running roles => simp [hphase, active] at hactive
    | verdict verdict | resolved resolution => exact h.settled (by rw [hphase]; rfl)
  have hnone : driver.awaitedRole commandId = none := by
    simp [awaitedRole, hreaped.awaited, BTreeMap.empty]
  simp only [roleTurnCompleted, hnone]
  exact h

theorem tidy_decision (h : driver.Tidy) (hdecides : call.decides = true)
    : (driver.call call).1.Tidy := by
  rcases decided_or driver hdecides with hsame | hdecided
  . rw [hsame]
    exact h
  . exact Tidy.of_reaped (hdecided.reaped h.settled) hdecided.settled

theorem tidy_call (h : driver.Tidy) (hquiet : driver.revivedBy call = false)
    : (driver.call call).1.Tidy := by
  cases call with
  | deltaCaptured deltas =>
    simp only [call, deltaCaptured]
    split
    . exact h
    rename_i hphase
    have hreaped := (h.capturing (not_not.mp hphase)).1
    split
    . apply Tidy.of_reaped _ rfl
      exact { hreaped with }
    split
    . apply Tidy.of_active rfl
    . split <;> apply Tidy.of_active rfl
  | roleStarted role =>
    rcases roleStarted_active_or driver role with hsame | hactive
    . simp only [call, hsame]
      exact h
    . apply Tidy.of_active hactive
  | analysisCompleted result =>
    cases htier : driver.seed.tier with
    | quick => apply tidy_analysisCompleted_quick h htier hquiet
    | extended => apply tidy_analysisCompleted_extended h htier hquiet
  | roleTurnCompleted commandId answer => apply tidy_roleTurnCompleted h
  | laneFailed laneId reason =>
    simp only [call, laneFailed]
    split
    . exact h
    split
    . exact h
    apply Tidy.of_active
    rw [injectReports_phase]
    apply settleLane_active
  | lanesDispatched requests =>
    simp only [call, lanesDispatched]
    split
    . exact h
    rcases dispatchLanes_active_or driver requests with hsame | hactive
    . simp only [hsame]
      exact h
    . split <;> exact Tidy.of_active hactive
  | requestFailed message => apply tidy_requestFailed h
  | forward | dismiss | cancel => exact tidy_decision h rfl

theorem keeps_of_same {next : TurnReviewDriver} (hcall : driver.call call = (next, []))
    (hphase : next.phase = driver.phase) : driver.Keeps call := by
  constructor
  . intro verdict hverdict _
    rw [hcall, hphase, hverdict]
  . intro resolution hresolution
    rw [hcall, hphase, hresolution]
  . intro _ request hmem
    rw [hcall] at hmem
    cases hmem

theorem keeps_of_decides (hdecides : call.decides = true) : driver.Keeps call := by
  rcases decided_or driver hdecides with hsame | hdecided
  . exact keeps_of_same hsame rfl
  constructor
  . intro verdict _ hresult
    simp [hdecides] at hresult
  . intro resolution hphase
    have hopen := hdecided.unresolved
    simp [finished, hphase] at hopen
  . intro _
    exact hdecided.quiet

theorem not_keeps_of_active (hphase : driver.phase = .verdict verdict)
    (hdecides : call.decides = false) (hactive : (driver.call call).1.phase.active = true)
    : ¬driver.Keeps call := by
  intro h
  rw [h.verdict verdict hphase hdecides] at hactive
  cases hactive

theorem not_keeps_of_work (hphase : driver.phase.settled = true) (request : ReviewRequest)
    (hmem : request ∈ (driver.call call).2) (hwork : request.putsToWork = true)
    : ¬driver.Keeps call := by
  intro h
  rw [h.quiet hphase request hmem] at hwork
  cases hwork

theorem keeps_iff_of_failure {failing : TurnReviewDriver} {message : String}
    (hphase : driver.phase.settled = true) (hdecides : call.decides = false)
    (hcall : driver.call call = failing.reachVerdict (.failed message))
    (hstarted : failing.startedRoles = BTreeMap.empty)
    : driver.Keeps call ↔ driver.failsWith message = false := by
  have hnext : (driver.call call).1.phase = .verdict (.failed message) := by
    rw [hcall, reachVerdict_phase]
    rfl
  have hrequests : (driver.call call).2 = [] := by
    rw [hcall]
    simp [reachVerdict, pauseEveryRole, ReviewVerdict.isClean, hstarted, BTreeMap.keys,
      BTreeMap.empty]
  simp only [failsWith, ne_eq, decide_not, Bool.not_eq_false', decide_eq_true_eq]
  constructor
  . intro h
    cases hcase : driver.phase with
    | verdict verdict => rw [← h.verdict verdict hcase hdecides, hnext]
    | resolved resolution =>
      have := h.resolved resolution hcase
      rw [hnext] at this
      cases this
    | capturingDelta | launchingReviewer | running roles =>
      simp [hcase, settled] at hphase
  . intro h
    apply keeps_of_same (Prod.ext rfl hrequests)
    rw [hnext, h]

theorem keeps_of_unsettled (h : driver.phase.settled = false) (call : ReviewCall)
    : driver.Keeps call := by
  constructor
  . intro verdict hphase
    simp [hphase, settled] at h
  . intro resolution hphase
    simp [hphase, settled] at h
  . intro hsettled
    simp [h] at hsettled

theorem revivedBy_of_unsettled (h : driver.phase.settled = false) (call : ReviewCall)
    : driver.revivedBy call = false := by
  have hverdict : driver.verdict? = none := by
    unfold verdict?
    split
    next hphase => simp [hphase, settled] at h
    next => rfl
  cases call <;> simp [revivedBy, hverdict]
  split <;> simp [h]

theorem verdict?_of_finished (h : driver.finished = true) : driver.verdict? = none := by
  rw [finished_iff] at h
  obtain ⟨resolution, hphase⟩ := h
  simp [verdict?, hphase]

theorem verdict_of_not_finished (hsettled : driver.phase.settled = true)
    (h : ¬driver.finished = true) : ∃ verdict, driver.phase = .verdict verdict := by
  cases hphase : driver.phase <;> simp_all [settled, finished]

theorem keeps_iff_analysisCompleted_quick (hreaped : driver.Reaped)
    (hsettled : driver.phase.settled = true) (htier : driver.seed.tier = .quick)
    (result : Except String String)
    : driver.Keeps (.analysisCompleted result)
        ↔ driver.revivedBy (.analysisCompleted result) = false := by
  cases hpending : driver.pendingFindings with
  | none =>
    have hkeeps : driver.Keeps (.analysisCompleted result) := by
      apply keeps_of_same
      . simp only [call, analysisCompleted, htier, hpending, Option.isNone_none, if_true]
        rfl
      . rfl
    simp only [hkeeps, true_iff]
    cases result <;> simp [revivedBy, htier, hpending]
  | some findings =>
  cases result with
  | ok packet =>
    have hwork : ¬driver.Keeps (.analysisCompleted (.ok packet)) := by
      apply not_keeps_of_work hsettled (.startRole validatorRole true) _ rfl
      simp [call, analysisCompleted, htier, hpending, startValidation, Analysis.ofResult, startRole]
    simp [hwork, revivedBy, htier, hpending, hsettled]
  | error reason =>
  have hcall : driver.call (.analysisCompleted (.error reason))
      = ({ driver with analysis := .failed reason }.markRole validatorRole "Validator"
          .failed).reachVerdict (.failed (unverifiedFailure reason)) := by
    simp only [call, analysisCompleted, htier, hpending, Option.isNone_some,
      Bool.false_eq_true, if_false, startValidation, Analysis.ofResult]
    apply requestFailed_of_not_finished rfl
  rw [keeps_iff_of_failure hsettled rfl hcall hreaped.started]
  simp [revivedBy, htier, hpending, hsettled]

theorem keeps_iff_analysisCompleted_extended (hreaped : driver.Reaped)
    (hsettled : driver.phase.settled = true) (htier : driver.seed.tier = .extended)
    (result : Except String String)
    : driver.Keeps (.analysisCompleted result)
        ↔ driver.revivedBy (.analysisCompleted result) = false := by
  by_cases hidle : driver.finished = true ∨ driver.intent = none
  . have hcall : driver.call (.analysisCompleted result)
        = ({ driver with analysis := .ofResult result }, []) := by
      simp only [call, analysisCompleted, htier]
      apply maybeStartSupervisor_held
      exact hidle.imp_right Or.inl
    have hquiet : driver.revivedBy (.analysisCompleted result) = false := by
      rcases hidle with hfinished | hintent
      . cases result <;> simp [revivedBy, htier, verdict?_of_finished hfinished]
      . cases result <;> simp [revivedBy, htier, hintent]
    simp [keeps_of_same hcall rfl, hquiet]
  simp only [not_or, Bool.not_eq_true] at hidle
  have hverdict : driver.verdict?.isSome = true := by
    cases hphase : driver.phase <;> simp_all [settled, verdict?, finished]
  have hintent : driver.intent.isSome = true := Option.isSome_iff_ne_none.mpr hidle.2
  have hunstarted : driver.startedRoles.contains supervisorRole = false := by
    rw [hreaped.started]
    rfl
  cases result with
  | ok packet =>
    have hwork : ¬driver.Keeps (.analysisCompleted (.ok packet)) := by
      apply not_keeps_of_work hsettled (.startRole supervisorRole true) _ rfl
      simp only [call, analysisCompleted, htier]
      rw [Analysis.ofResult, maybeStartSupervisor_ready hidle.1 hidle.2 hunstarted]
      apply List.mem_singleton_self
    simp [hwork, revivedBy, htier, hverdict, hintent]
  | error reason =>
  have hcall : driver.call (.analysisCompleted (.error reason))
      = { driver with analysis := .failed reason }.reachVerdict
          (.failed ("the review could not analyze the change: " ++ reason)) := by
    simp only [call, analysisCompleted, htier]
    apply maybeStartSupervisor_failed hidle.1 hidle.2 hunstarted
  rw [keeps_iff_of_failure hsettled rfl hcall hreaped.started]
  simp [revivedBy, htier, hverdict, hintent]

theorem keeps_iff_lanesDispatched (hsettled : driver.phase.settled = true)
    (requests : List ReviewSubagentRequest)
    : driver.Keeps (.lanesDispatched requests)
        ↔ driver.revivedBy (.lanesDispatched requests) = false := by
  by_cases hrefused : (driver.finished || requests.isEmpty
      || (validateDispatch requests).toOption.isNone) = true
  . have hcall : driver.call (.lanesDispatched requests) = (driver, []) := by
      simp only [call, lanesDispatched, hrefused, if_true]
    have hquiet : driver.revivedBy (.lanesDispatched requests) = false := by
      simp only [Bool.or_eq_true, List.isEmpty_iff, Option.isNone_iff_eq_none] at hrefused
      rcases hrefused with (hfinished | hempty) | hinvalid
      . simp [revivedBy, verdict?_of_finished hfinished]
      . simp [revivedBy, hempty]
      . simp [revivedBy, hinvalid]
    simp [keeps_of_same hcall rfl, hquiet]
  have hopen := hrefused
  simp only [Bool.or_eq_true, not_or] at hopen
  have hvalid : (validateDispatch requests).toOption.isSome = true := by
    simpa [Option.isSome_iff_ne_none] using hopen.2
  obtain ⟨verdict, hphase⟩ := verdict_of_not_finished hsettled hopen.1.1
  have hcall : driver.call (.lanesDispatched requests)
      = if (driver.dispatchLanes requests).2.isEmpty then
          ((driver.dispatchLanes requests).1, [])
        else
          ({ (driver.dispatchLanes requests).1 with
              status := toString
                  (driver.dispatchLanes requests).1.outstandingLanes.entries.length
                ++ " specialist lane(s) running…" },
            (driver.dispatchLanes requests).2) := by
    simp only [call, lanesDispatched, hrefused]
    rfl
  by_cases hnew : ∃ request ∈ requests,
      driver.launchedLanes.contains request.agentType = false
  . obtain ⟨request, hmem, hnew⟩ := hnew
    have hactive := dispatchLanes_active (validateDispatch_known hvalid) hmem hnew
    have hnot : ¬driver.Keeps (.lanesDispatched requests) := by
      apply not_keeps_of_active hphase rfl
      rw [hcall]
      split <;> exact hactive
    have hrevived : driver.revivedBy (.lanesDispatched requests) = true := by
      simp only [revivedBy, verdict?, hphase, Option.isSome_some, hvalid, Bool.true_and,
        List.any_eq_true]
      exact ⟨request, hmem, by simp [hnew]⟩
    simp [hnot, hrevived]
  . simp only [not_exists, not_and, Bool.not_eq_false] at hnew
    have hsame : driver.call (.lanesDispatched requests) = (driver, []) := by
      rw [hcall, dispatchLanes_of_launched hnew]
      rfl
    have hquiet : driver.revivedBy (.lanesDispatched requests) = false := by
      simp only [revivedBy, Bool.and_eq_false_iff, List.any_eq_false, Bool.not_eq_true',
        Bool.not_eq_false]
      right
      exact hnew
    simp [keeps_of_same hsame rfl, hquiet]

theorem keeps_iff (h : driver.Tidy) (call : ReviewCall)
    : driver.Keeps call ↔ driver.revivedBy call = false := by
  by_cases hsettled : driver.phase.settled = true
  swap
  . simp only [Bool.not_eq_true] at hsettled
    simp [keeps_of_unsettled hsettled, revivedBy_of_unsettled hsettled]
  have hreaped := h.settled hsettled
  cases call with
  | deltaCaptured deltas =>
    have hcall : driver.call (.deltaCaptured deltas) = (driver, []) := by
      have hphase : driver.phase ≠ .capturingDelta := by
        intro hphase
        simp [hphase, settled] at hsettled
      simp [call, deltaCaptured, hphase]
    simp [keeps_of_same hcall rfl, revivedBy]
  | roleStarted role =>
    by_cases hfinished : driver.finished = true
    . have hcall : driver.call (.roleStarted role) = (driver, []) := by
        simp [call, roleStarted, hfinished]
      simp [keeps_of_same hcall rfl, revivedBy, verdict?_of_finished hfinished]
    obtain ⟨verdict, hphase⟩ := verdict_of_not_finished hsettled hfinished
    cases hprompts : driver.promptsOnStart role with
    | true =>
      have hnot : ¬driver.Keeps (.roleStarted role) := by
        apply not_keeps_of_active hphase rfl
        apply roleStarted_active _ hprompts
        simpa using hfinished
      simp [hnot, revivedBy, verdict?, hphase, hprompts]
    | false =>
      have hcall : driver.call (.roleStarted role) = (driver, []) :=
        roleStarted_of_verdict hphase hprompts
      simp [keeps_of_same hcall rfl, revivedBy, hprompts]
  | analysisCompleted result =>
    cases htier : driver.seed.tier with
    | quick => apply keeps_iff_analysisCompleted_quick hreaped hsettled htier
    | extended => apply keeps_iff_analysisCompleted_extended hreaped hsettled htier
  | roleTurnCompleted commandId answer =>
    have hcall : driver.call (.roleTurnCompleted commandId answer) = (driver, []) := by
      simp [call, roleTurnCompleted, awaitedRole, hreaped.awaited, BTreeMap.empty]
    simp [keeps_of_same hcall rfl, revivedBy]
  | laneFailed laneId reason =>
    have hcall : driver.call (.laneFailed laneId reason) = (driver, []) := by
      simp only [call, laneFailed, hreaped.outstanding]
      split <;> rfl
    simp [keeps_of_same hcall rfl, revivedBy]
  | lanesDispatched requests => apply keeps_iff_lanesDispatched hsettled
  | requestFailed message =>
    by_cases hfinished : driver.finished = true
    . have hcall : driver.call (.requestFailed message) = (driver, []) := by
        simp [call, requestFailed, hfinished]
      simp [keeps_of_same hcall rfl, revivedBy, verdict?_of_finished hfinished]
    have hcall : driver.call (.requestFailed message) = driver.reachVerdict (.failed message) :=
      requestFailed_of_not_finished (by simpa using hfinished)
    obtain ⟨verdict, hphase⟩ := verdict_of_not_finished hsettled hfinished
    rw [keeps_iff_of_failure hsettled rfl hcall hreaped.started]
    simp [revivedBy, verdict?, hphase]
  | forward | dismiss | cancel =>
    simp only [revivedBy, iff_true]
    exact keeps_of_decides rfl

end TurnReviewDriver

/-!
### Whole reviews
-/

def review (seed : TurnReviewSeed) (calls : List ReviewCall) : Reaction :=
  ((run TurnReviewDriver.call (TurnReviewDriver.start seed).1 calls).1,
   (TurnReviewDriver.start seed).2
    ++ (run TurnReviewDriver.call (TurnReviewDriver.start seed).1 calls).2)

def Unrevived (seed : TurnReviewSeed) (calls : List ReviewCall) : Prop :=
  Along TurnReviewDriver.call (fun driver call => driver.revivedBy call = false)
    (TurnReviewDriver.start seed).1 calls

/--
After these calls the next one leaves a verdict to the user and a resolution alone, and if the
review is settled every role it ever started has been paused since.
-/
structure Final (seed : TurnReviewSeed) (calls : List ReviewCall) (call : ReviewCall) : Prop where
  keeps : (review seed calls).1.Keeps call
  paused : (review seed calls).1.phase.settled = true →
    ∀ before role fresh after, (review seed calls).2 = before ++ .startRole role fresh :: after →
      .pauseRole role ∈ after

theorem Unrevived.tidy (h : Unrevived seed calls) : (review seed calls).1.Tidy :=
  h.state_invariant (tidy_start seed)
    (fun _ _ htidy hquiet => tidy_call htidy hquiet)

theorem started_of_awake (h : Awake role (review seed calls).2)
    : (review seed calls).1.startedRoles.contains role = true := by
  induction calls using List.reverseRecOn with
  | nil => simp [review, start, run, Awake] at h
  | append_singleton calls call ih =>
    simp only [review, run_concat, ← List.append_assoc] at h ⊢
    apply accounts_call
    rw [awake_append] at h
    exact h.imp_right (And.imp_left ih)

/--
As long as nothing has revived the review, a call respects its verdict or its resolution exactly if
it is not one of those that revive it.
-/
theorem verdict_final_iff (seed : TurnReviewSeed) (calls : List ReviewCall)
    (hquiet : Unrevived seed calls) (call : ReviewCall)
    : Final seed calls call ↔ (review seed calls).1.revivedBy call = false := by
  have htidy := hquiet.tidy
  rw [← keeps_iff htidy]
  constructor
  . intro h
    exact h.keeps
  intro hkeeps
  refine ⟨hkeeps, ?_⟩
  intro hsettled before role fresh after hlog
  apply pauseRole_mem_of_not_awake _ hlog
  intro hawake
  have hstarted := started_of_awake hawake
  rw [(htidy.settled hsettled).started] at hstarted
  simp at hstarted

def plainSeed (tier : ReviewTier) : TurnReviewSeed where
  tier := tier
  task := "add a retry"
  userMessages := ["add a retry"]
  initialResult := "added a retry"
  trajectory := "edited src/lib.rs"
  baselines := BTreeMap.ofList [("/w/app", "base-tree")]
  throughOrdinal := 12
  priorReview := none

def plainDelta : RepoDelta where
  root := "/w/app"
  baselineTree := some "base-tree"
  currentTree := "new-tree"
  patch := "@@ -1 +1 @@\n+retry\n"
  diffstat := "1 file changed, 1 insertion(+)"
  changedLines := 1

def quickCalls : List ReviewCall :=
  [.deltaCaptured [plainDelta], .roleStarted reviewerRole]

theorem verdict_final_iff_of_cancelled_review
    : Unrevived (plainSeed .quick) (quickCalls ++ [.cancel])
      ∧ (review (plainSeed .quick) (quickCalls ++ [.cancel])).1.phase = .resolved .cancelled
      ∧ Final (plainSeed .quick) (quickCalls ++ [.cancel]) (.analysisCompleted (.ok "packet")) := by
  have hquiet : Unrevived (plainSeed .quick) (quickCalls ++ [.cancel]) := by
    unfold Unrevived
    decide +kernel
  refine ⟨hquiet, by decide +kernel, ?_⟩
  apply (verdict_final_iff _ _ hquiet _).mpr
  decide +kernel

def quickFindings : List ReviewCall :=
  quickCalls ++ [.roleTurnCompleted "turn-review-reviewer-1" "[P1] src/lib.rs:1 -- no bound"]

/-
A cancelled review gets a verdict from a late analysis that failed. A failed review is put back to
work by a late analysis that succeeded, and by the start of the validator that follows.
-/
theorem verdict_not_final
    : (review (plainSeed .quick) (quickFindings ++ [.cancel])).1.phase = .resolved .cancelled
      ∧ (review (plainSeed .quick)
          (quickFindings ++ [.cancel, .analysisCompleted (.error "bifrost exited")])).1.phase
        = .verdict (.failed (TurnReviewDriver.unverifiedFailure "bifrost exited"))
      ∧ (review (plainSeed .quick) (quickFindings ++ [.requestFailed "the poll failed"])).1.phase
        = .verdict (.failed "the poll failed")
      ∧ .startRole validatorRole true ∈
          ((review (plainSeed .quick) (quickFindings ++ [.requestFailed "the poll failed"])).1.call
            (.analysisCompleted (.ok "packet"))).2
      ∧ (review (plainSeed .quick)
          (quickFindings ++ [.requestFailed "the poll failed", .analysisCompleted (.ok "packet"),
            .roleStarted validatorRole])).1.phase.active = true := by
  decide +kernel

end Hel
