import Hel.Review.Lemmas.Exchange
import Hel.Review.Impl.PromptLock

/-!
This module contains where a call can take a review, as far as the lock of the prompts is concerned.
-/

namespace Hel

open TurnReviewPhase

variable {reaction : Reaction} {call : ReviewCall} {answer : String}

namespace TurnReviewPhase

def holds : TurnReviewPhase → Bool
  | .resolved _ | .verdict (.failed _) => false
  | _ => true

def isFailed : TurnReviewPhase → Bool
  | .verdict (.failed _) => true
  | _ => false

theorem holds_of_active {phase : TurnReviewPhase} (h : phase.active = true) : phase.holds = true := by
  cases phase <;> simp_all [active, holds]

theorem active_of_settled {phase : TurnReviewPhase} (h : phase.settled = true)
    : phase.active = false := by
  cases phase <;> simp_all [active, settled]

end TurnReviewPhase

def Analysis.isFailed : Analysis → Bool
  | .failed _ => true
  | _ => false

namespace TurnReviewDriver

/--
The driver itself gives the review up: an analysis that something waits for has failed, or a role
has answered with nothing.
-/
def givesUpOn (driver : TurnReviewDriver) : ReviewCall → Bool
  | .analysisCompleted (.error _) =>
    match driver.seed.tier with
    | .quick => driver.pendingFindings.isSome
    | .extended => driver.intent.isSome && !driver.startedRoles.contains supervisorRole
  | .roleTurnCompleted commandId answer =>
    match driver.awaitedRole commandId with
    | none => false
    | some role =>
      if role = reviewerRole then
        !laneReportIsClean answer && driver.analysis.isFailed
      else if role = validatorRole then
        (synthesisVerdict answer).isFailed
      else if role = intentRole then
        Text.isBlank answer
          || driver.analysis.isFailed && !driver.startedRoles.contains supervisorRole
      else if role = supervisorRole then
        driver.outstandingLanes.entries.isEmpty && driver.queuedReports.isEmpty
          && (synthesisVerdict answer).isFailed
      else
        false
  | _ => false

def resumesOn (driver : TurnReviewDriver) : ReviewCall → Bool
  | .roleStarted role => driver.phase.isFailed && driver.promptsOnStart role
  | .lanesDispatched requests =>
    driver.phase.isFailed && (validateDispatch requests).toOption.isSome
      && requests.any (fun request => !driver.launchedLanes.contains request.agentType)
  | _ => false

structure AtRest (driver : TurnReviewDriver) : Prop where
  awaited : driver.awaited = BTreeMap.empty
  outstanding : driver.outstandingLanes = BTreeMap.empty

def Restful (driver : TurnReviewDriver) : Prop :=
  driver.phase.active = false → driver.AtRest

theorem AtRest.of_reaped {driver : TurnReviewDriver} (h : driver.Reaped) : driver.AtRest :=
  ⟨h.awaited, h.outstanding⟩

/-- Where a reaction can take the driver. It closes the review exactly when it resolves it. -/
inductive Moves (driver : TurnReviewDriver) (fails acts : Prop) (reaction : Reaction) : Prop where
  | stays (hphase : reaction.1.phase = driver.phase) (hrest : driver.AtRest → reaction.1.AtRest)
      (hclose : .close ∉ reaction.2)
  | acts (hacts : acts) (hphase : reaction.1.phase.active = true) (hclose : .close ∉ reaction.2)
  | finds {synthesis : String} {evidence : ReviewPassEvidence} (hacts : acts)
      (hphase : reaction.1.phase = .verdict (.findings synthesis evidence))
      (hrest : reaction.1.AtRest) (hclose : .close ∉ reaction.2)
  | fails {reason : String} (hfails : fails) (hphase : reaction.1.phase = .verdict (.failed reason))
      (hrest : reaction.1.AtRest) (hclose : .close ∉ reaction.2)
  | ends (hphase : reaction.1.finished = true) (hrest : reaction.1.AtRest)
      (hclose : .close ∈ reaction.2)

variable {driver next : TurnReviewDriver} {fails acts : Prop}

theorem moves_same (hphase : reaction.1.phase = driver.phase)
    (hawaited : reaction.1.awaited = driver.awaited)
    (houtstanding : reaction.1.outstandingLanes = driver.outstandingLanes)
    (hclose : .close ∉ reaction.2) : Moves driver fails acts reaction := by
  refine .stays hphase ?_ hclose
  intro hrest
  constructor
  . exact hawaited.trans hrest.awaited
  . exact houtstanding.trans hrest.outstanding

theorem moves_refl : Moves driver fails acts (driver, []) :=
  moves_same rfl rfl rfl (by simp)

theorem close_notMem_pauses (roles : List String) : .close ∉ roles.map ReviewRequest.pauseRole := by
  simp

theorem attachEvidence_isFailed (driver : TurnReviewDriver) (verdict : ReviewVerdict)
    : (driver.attachEvidence verdict).isFailed = verdict.isFailed := by
  cases verdict with
  | findings synthesis evidence =>
    simp only [attachEvidence]
    split <;> rfl
  | _ => rfl

theorem moves_requestFailed {message : String} (hfinished : next.finished = false) (hfails : fails)
    : Moves driver fails acts (next.requestFailed message) := by
  rw [requestFailed_of_not_finished hfinished]
  have hphase := reachVerdict_phase next (.failed message)
  refine Moves.fails hfails hphase (.of_reaped (reachVerdict_reaped _ _)) ?_
  apply close_notMem_pauses

theorem Moves.cons {request : ReviewRequest} (hne : request ≠ .close)
    (h : Moves driver fails acts reaction)
    : Moves driver fails acts (reaction.1, request :: reaction.2) := by
  have hcons (hclose : .close ∉ reaction.2) : .close ∉ request :: reaction.2 := by
    simp [hne.symm, hclose]
  cases h with
  | stays hphase hrest hclose => exact .stays hphase hrest (hcons hclose)
  | acts hacts hphase hclose => exact .acts hacts hphase (hcons hclose)
  | finds hacts hphase hrest hclose => exact .finds hacts hphase hrest (hcons hclose)
  | fails hfails hphase hrest hclose => exact .fails hfails hphase hrest (hcons hclose)
  | ends hphase hrest hclose => exact .ends hphase hrest (List.mem_cons_of_mem _ hclose)

section Acts

variable (hacts : acts)

include hacts

theorem moves_reachVerdict {verdict : ReviewVerdict} (hfails : verdict.isFailed = true → fails)
    : Moves driver fails acts (next.reachVerdict verdict) := by
  have hrest : (next.reachVerdict verdict).1.AtRest := .of_reaped (reachVerdict_reaped _ _)
  have hphase := reachVerdict_phase next verdict
  cases verdict with
  | findings synthesis evidence =>
    refine Moves.finds hacts hphase hrest ?_
    apply close_notMem_pauses
  | clean =>
    refine Moves.ends ?_ hrest ?_
    . simp [finished, hphase, ReviewVerdict.isClean]
    . apply List.mem_append_right
      simp
  | failed reason =>
    refine Moves.fails (hfails rfl) hphase hrest ?_
    apply close_notMem_pauses

section

variable (hphase : next.phase.active = true)

include hphase

theorem moves_maybeStartSupervisor (hfails : next.analysis.isFailed = true →
      next.startedRoles.contains supervisorRole = false → fails)
    : Moves driver fails acts next.maybeStartSupervisor := by
  unfold maybeStartSupervisor
  split
  . refine Moves.acts hacts hphase ?_
    simp
  rename_i hguard
  simp only [Bool.or_eq_true, not_or, Bool.not_eq_true] at hguard
  split
  next hanalysis =>
    apply moves_requestFailed hguard.1.1.1
    apply hfails _ hguard.1.1.2
    simp [hanalysis, Analysis.isFailed]
  . refine Moves.acts hacts hphase ?_
    simp [startRole]

theorem moves_startValidation (hfails : next.analysis.isFailed = true → fails)
    : Moves driver fails acts next.startValidation := by
  unfold startValidation
  split
  . refine Moves.acts hacts hphase ?_
    simp
  next hanalysis =>
    apply moves_requestFailed rfl
    apply hfails
    simp [hanalysis, Analysis.isFailed]
  . refine Moves.acts hacts hphase ?_
    simp [startRole]

theorem moves_injectReports : Moves driver fails acts next.injectReports := by
  unfold injectReports
  split
  . refine Moves.acts hacts hphase ?_
    simp
  . refine Moves.acts hacts hphase ?_
    simp [promptRole]

theorem moves_supervisorReported
    (hfails : next.outstandingLanes.entries.isEmpty = true → next.queuedReports.isEmpty = true →
      (synthesisVerdict answer).isFailed = true → fails)
    : Moves driver fails acts (next.supervisorReported answer) := by
  unfold supervisorReported
  dsimp only
  split
  next hdone =>
    simp only [Bool.and_eq_true] at hdone
    apply moves_reachVerdict hacts
    intro hfailed
    rw [attachEvidence_isFailed] at hfailed
    exact hfails hdone.1 hdone.2 hfailed
  . exact moves_injectReports hacts hphase

theorem moves_laneReported {laneId : String}
    : Moves driver fails acts (next.laneReported laneId answer) := by
  unfold laneReported
  split
  . refine Moves.acts hacts hphase ?_
    simp
  . exact Moves.cons (by simp) (moves_injectReports hacts (settleLane_active _ _ _ _ _))

end

theorem moves_intentReported (hfails : Text.isBlank answer = true
      ∨ next.analysis.isFailed = true ∧ next.startedRoles.contains supervisorRole = false → fails)
    : Moves driver fails acts (next.intentReported answer) := by
  unfold intentReported
  dsimp only
  split
  next hblank => exact moves_requestFailed rfl (hfails (.inl hblank))
  refine Moves.cons (by simp) (moves_maybeStartSupervisor hacts rfl ?_)
  intro hanalysis hstarted
  exact hfails (.inr ⟨hanalysis, hstarted⟩)

end Acts

theorem moves_deltaCaptured (hrest : driver.Restful) (deltas : List RepoDelta)
    : Moves driver fails (driver.phase.holds = true) (driver.deltaCaptured deltas) := by
  unfold deltaCaptured
  split
  . exact moves_refl
  rename_i hphase
  have hphase : driver.phase = .capturingDelta := by
    simpa using hphase
  have hholds : driver.phase.holds = true := by
    simp [hphase, holds]
  dsimp only
  split
  . refine Moves.ends rfl ?_ ?_
    . have hidle := hrest (by simp [hphase, active])
      exact ⟨hidle.awaited, hidle.outstanding⟩
    . simp
  split
  . refine Moves.acts hholds rfl ?_
    simp [startRole]
  split
  . refine Moves.acts hholds rfl ?_
    simp [startRole]
  . refine Moves.acts hholds rfl ?_
    simp [startRole]

theorem close_notMem_roleStarted (driver : TurnReviewDriver) (role : String)
    : .close ∉ (driver.roleStarted role).2 := by
  unfold roleStarted
  repeat' split
  all_goals simp [promptRole]

theorem holds_or_failed (hfinished : driver.finished = false)
    : driver.phase.holds = true ∨ driver.phase.isFailed = true := by
  cases hphase : driver.phase with
  | verdict verdict => cases verdict <;> simp [holds, isFailed]
  | resolved resolution => simp [finished, hphase] at hfinished
  | _ => simp [holds]

theorem moves_roleStarted (role : String)
    : Moves driver fails
        (driver.phase.holds = true ∨ driver.resumesOn (.roleStarted role) = true)
        (driver.roleStarted role) := by
  rcases roleStarted_active_or driver role with hsame | hactive
  . rw [hsame]
    exact moves_refl
  refine Moves.acts ?_ hactive (close_notMem_roleStarted driver role)
  by_cases hfinished : driver.finished = true
  . -- a review that is resolved starts nothing, so this is not the case of a new phase
    have hsame : driver.roleStarted role = (driver, []) := by
      simp [roleStarted, hfinished]
    left
    rw [hsame] at hactive
    exact holds_of_active hactive
  apply (holds_or_failed (by simpa using hfinished)).imp_right
  intro hfailed
  by_contra hquiet
  have hquiet : driver.promptsOnStart role = false := by
    simpa [resumesOn, hfailed] using hquiet
  cases hphase : driver.phase with
  | verdict verdict =>
    rw [roleStarted_of_verdict hphase hquiet, hphase] at hactive
    cases hactive
  | _ => simp [hphase, isFailed] at hfailed

theorem moves_analysisCompleted (result : Except String String)
    : Moves driver
        (driver.phase.holds = true → driver.givesUpOn (.analysisCompleted result) = true) acts
        (driver.analysisCompleted result) := by
  unfold analysisCompleted
  dsimp only
  split
  next htier =>
    split
    . exact moves_same rfl rfl rfl (by simp)
    rename_i hfindings
    cases result with
    | error reason =>
      apply moves_requestFailed rfl
      intro _
      simpa [givesUpOn, htier, Option.isSome_iff_ne_none] using hfindings
    | ok packet =>
      refine moves_same rfl rfl rfl ?_
      simp [startValidation, Analysis.ofResult, startRole]
  rename_i htier
  unfold maybeStartSupervisor
  split
  . exact moves_same rfl rfl rfl (by simp)
  rename_i hguard
  simp only [Bool.or_eq_true, not_or, Bool.not_eq_true] at hguard
  cases result with
  | error reason =>
    refine moves_requestFailed hguard.1.1.1 ?_
    intro _
    simpa [givesUpOn, htier, hguard.1.1.2, Option.isSome_iff_ne_none] using hguard.1.2
  | ok packet =>
    refine moves_same rfl rfl rfl ?_
    simp [Analysis.ofResult, startRole]

theorem Restful.active_of_awaited (h : driver.Restful) {role : String}
    (hawaited : driver.awaited.contains role = true) : driver.phase.active = true := by
  by_contra hidle
  have hrest := h (by simpa using hidle)
  simp [hrest.awaited] at hawaited

theorem moves_roleTurnCompleted (hrest : driver.Restful) (commandId answer : String)
    : Moves driver (driver.givesUpOn (.roleTurnCompleted commandId answer) = true)
        (driver.phase.holds = true) (driver.roleTurnCompleted commandId answer) := by
  unfold roleTurnCompleted
  split
  . exact moves_refl
  rename_i role hrole
  have hactive := hrest.active_of_awaited (Exchange.awaitedRole_contains hrole)
  have hholds := holds_of_active hactive
  dsimp only
  split
  next hreviewer =>
    unfold reviewerReported
    split
    . apply moves_reachVerdict hholds
      nofun
    rename_i hclean
    refine moves_startValidation hholds rfl ?_
    intro hanalysis
    have hanalysis : driver.analysis.isFailed = true := hanalysis
    simp [givesUpOn, hrole, hreviewer, hclean, hanalysis]
  rename_i hreviewer
  split
  next hvalidator =>
    apply moves_reachVerdict hholds
    intro hfailed
    simp only [givesUpOn, hrole]
    rw [if_neg hreviewer, if_pos hvalidator]
    exact hfailed
  rename_i hvalidator
  split
  next hintent =>
    refine moves_intentReported hholds ?_
    intro hreason
    have hreason : Text.isBlank answer = true ∨ driver.analysis.isFailed = true
        ∧ driver.startedRoles.contains supervisorRole = false := hreason
    simp only [givesUpOn, hrole]
    rw [if_neg hreviewer, if_neg hvalidator, if_pos hintent]
    simpa using hreason
  rename_i hintent
  split
  next hsupervisor =>
    refine moves_supervisorReported hholds hactive ?_
    intro hlanes hreports hfailed
    have hlanes : driver.outstandingLanes.entries.isEmpty = true := hlanes
    have hreports : driver.queuedReports.isEmpty = true := hreports
    simp only [givesUpOn, hrole]
    rw [if_neg hreviewer, if_neg hvalidator, if_neg hintent, if_pos hsupervisor]
    simp [hlanes, hreports, hfailed]
  . apply moves_laneReported hholds
    exact hactive

theorem moves_laneFailed (hrest : driver.Restful) (laneId reason : String)
    : Moves driver fails (driver.phase.holds = true) (driver.laneFailed laneId reason) := by
  unfold laneFailed
  split
  . exact moves_refl
  split
  . exact moves_refl
  rename_i houtstanding
  have hactive : driver.phase.active = true := by
    by_contra hidle
    have hidle := hrest (by simpa using hidle)
    simp [hidle.outstanding] at houtstanding
  exact moves_injectReports (holds_of_active hactive)
    (settleLane_active _ _ _ _ _)

theorem close_notMem_dispatchLanes (driver : TurnReviewDriver)
    (requests : List ReviewSubagentRequest) : .close ∉ (driver.dispatchLanes requests).2 := by
  induction requests generalizing driver with
  | nil => simp [dispatchLanes]
  | cons request rest ih =>
    unfold dispatchLanes
    split
    . apply ih
    split
    . apply ih
    . simp [startRole, ih]

theorem moves_lanesDispatched (requests : List ReviewSubagentRequest)
    : Moves driver fails
        (driver.phase.holds = true ∨ driver.resumesOn (.lanesDispatched requests) = true)
        (driver.lanesDispatched requests) := by
  unfold lanesDispatched
  split
  . exact moves_refl
  rename_i hguard
  simp only [Bool.or_eq_true, not_or, Bool.not_eq_true] at hguard
  rcases dispatchLanes_active_or driver requests with hsame | hactive
  . simp only [hsame, List.isEmpty_nil, if_true]
    exact moves_refl
  have hacts : driver.phase.holds = true
      ∨ driver.resumesOn (.lanesDispatched requests) = true := by
    apply (holds_or_failed hguard.1.1).imp_right
    intro hfailed
    by_contra hquiet
    have hlaunched : ∀ request ∈ requests,
        driver.launchedLanes.contains request.agentType = true := by
      have hvalid : (validateDispatch requests).toOption.isSome = true := by
        simpa using hguard.2
      simpa [resumesOn, hfailed, hvalid] using hquiet
    rw [dispatchLanes_of_launched hlaunched] at hactive
    have hholds := holds_of_active hactive
    cases hphase : driver.phase <;>
      simp_all [isFailed, active]
  have hclose := close_notMem_dispatchLanes driver requests
  dsimp only
  split
  . refine Moves.acts hacts hactive ?_
    simp
  . exact Moves.acts hacts hactive hclose

theorem moves_decision (hrest : driver.Restful) (hdecides : call.decides = true)
    : Moves driver fails acts (driver.call call) := by
  rcases decided_or driver hdecides with hsame | hdecided
  . rw [hsame]
    exact moves_refl
  refine .ends hdecided.finished ?_ hdecided.closes
  rcases hdecided.reaps with ⟨hsettled, hawaited, houtstanding, _⟩ | ⟨hreaped, _⟩
  . have hidle := hrest (active_of_settled hsettled)
    exact ⟨hawaited.trans hidle.awaited, houtstanding.trans hidle.outstanding⟩
  . exact .of_reaped hreaped

theorem Moves.mono {fails' acts' : Prop} (h : Moves driver fails acts reaction)
    (hfails : fails → fails') (hacts : acts → acts') : Moves driver fails' acts' reaction := by
  cases h with
  | stays hphase hrest hclose => exact .stays hphase hrest hclose
  | acts h hphase hclose => exact .acts (hacts h) hphase hclose
  | finds h hphase hrest hclose => exact .finds (hacts h) hphase hrest hclose
  | fails h hphase hrest hclose => exact .fails (hfails h) hphase hrest hclose
  | ends hphase hrest hclose => exact .ends hphase hrest hclose

theorem moves_call (hrest : driver.Restful) (hcall : ∀ message, call ≠ .requestFailed message)
    : Moves driver (driver.phase.holds = true → driver.givesUpOn call = true)
        (driver.phase.holds = true ∨ driver.resumesOn call = true) (driver.call call) := by
  cases call with
  | deltaCaptured deltas => exact (moves_deltaCaptured hrest deltas).mono id .inl
  | roleStarted role => exact moves_roleStarted role
  | analysisCompleted result => exact moves_analysisCompleted result
  | roleTurnCompleted commandId answer =>
    exact (moves_roleTurnCompleted hrest commandId answer).mono (fun h _ => h) .inl
  | laneFailed laneId reason => exact (moves_laneFailed hrest laneId reason).mono id .inl
  | lanesDispatched requests => exact moves_lanesDispatched requests
  | requestFailed message => exact absurd rfl (hcall message)
  | forward | dismiss | cancel => exact moves_decision hrest rfl

end TurnReviewDriver

end Hel
