import Hel.Review.Impl.Host
import Hel.Review.Lemmas.Exchange

/-!
This module contains what the calls of one review do to the baseline.
-/

namespace Hel

open TurnReviewPhase List

variable {exchange : Exchange}

def TurnReviewPhase.abandoned : TurnReviewPhase → Bool
  | .verdict outcome => outcome.isFailed
  | .resolved resolution => resolution = .cancelled
  | _ => false

namespace TurnReviewDriver

/-!
### What a call leaves of the seed and of the capture
-/

structure Retains (driver next : TurnReviewDriver) : Prop where
  seed : next.seed = driver.seed
  deltas : next.deltas = driver.deltas
  captured : driver.phase ≠ .capturingDelta → next.phase ≠ .capturingDelta

variable {driver : TurnReviewDriver} {trees : BTreeMap String String}

theorem Retains.trans {before next : TurnReviewDriver} (h : Retains driver before)
    (hnext : Retains before next) : Retains driver next where
  seed := hnext.seed.trans h.seed
  deltas := hnext.deltas.trans h.deltas
  captured := fun hphase => hnext.captured (h.captured hphase)

variable (driver)

theorem retains_reachVerdict (verdict : ReviewVerdict)
    : Retains driver (driver.reachVerdict verdict).1 := by
  simp only [reachVerdict, pauseEveryRole, resolve]
  split <;> exact ⟨rfl, rfl, by simp⟩

theorem retains_injectReports : Retains driver driver.injectReports.1 := by
  unfold injectReports
  split <;> exact ⟨rfl, rfl, id⟩

variable {driver}

theorem Prepares.retains {next : TurnReviewDriver} (h : Prepares driver next)
    : Retains driver next := by
  refine ⟨h.seed, h.deltas, ?_⟩
  intro hphase
  rcases h.phase with hsame | hactive
  . rw [hsame]
    exact hphase
  intro hcapturing
  rw [hcapturing] at hactive
  cases hactive

theorem Reacts.retains {reaction : Reaction} (h : Reacts driver reaction)
    : Retains driver reaction.1 := by
  induction h with
  | skip | start role | replace role other | prompt role purpose prompt => exact ⟨rfl, rfl, id⟩
  | prepare h _ ih => exact h.retains.trans ih
  | pause role _ ih => exact ih
  | fail message => apply retains_reachVerdict
  | inject => apply retains_injectReports
  | @settle driver lane state outcome finalMessage =>
    have hsettles := settles_settleLane driver lane state outcome finalMessage
    refine Retains.trans ⟨hsettles.seed, hsettles.deltas, ?_⟩ (retains_injectReports _)
    intro _ hphase
    have hactive := hsettles.phase
    rw [hphase] at hactive
    cases hactive
  | @dispatch driver requests =>
    have hlaunches := launches_lanesDispatched driver requests
    refine ⟨hlaunches.seed, hlaunches.deltas, ?_⟩
    intro hphase
    simp only [lanesDispatched]
    split
    . exact hphase
    rcases dispatchLanes_active_or driver requests with hsame | hactive
    . simpa [hsame] using hphase
    intro hcapturing
    have hnext : (driver.dispatchLanes requests).1.phase = .capturingDelta := by
      split at hcapturing <;> exact hcapturing
    rw [hnext] at hactive
    cases hactive

theorem retains_call {call : ReviewCall}
    (h : driver.phase ≠ .capturingDelta ∨ ∀ deltas, call ≠ .deltaCaptured deltas)
    : Retains driver (driver.call call).1 := by
  rcases call_cases driver call with hreacts | ⟨_, _, next, verdict, _, hprepares, heq⟩ |
    ⟨deltas, rfl⟩ | hdecides
  . exact hreacts.retains
  . rw [heq]
    exact hprepares.retains.trans (retains_reachVerdict next verdict)
  . rcases h with hphase | hcall
    . simp only [call, deltaCaptured, ne_eq, hphase, not_false_eq_true, if_true]
      exact ⟨rfl, rfl, id⟩
    . exact absurd rfl (hcall deltas)
  . rcases decided_or driver hdecides with hsame | hdecided
    . rw [hsame]
      exact ⟨rfl, rfl, id⟩
    refine ⟨hdecided.seed, hdecided.deltas, ?_⟩
    intro _ hphase
    have hfinished := hdecided.finished
    simp [finished, hphase] at hfinished

theorem seed_call (driver : TurnReviewDriver) (call : ReviewCall)
    : (driver.call call).1.seed = driver.seed := by
  cases call with
  | deltaCaptured deltas =>
    simp only [call, deltaCaptured]
    repeat' split
    all_goals rfl
  | _ =>
  apply Retains.seed
  apply retains_call
  right
  simp

/-!
### When the baseline advances
-/

def Advances (requests : List ReviewRequest) (trees : BTreeMap String String) : Prop :=
  ∃ ordinal, .advanceBaseline trees ordinal ∈ requests

inductive Concludes (driver : TurnReviewDriver) : ReviewCall → Prop where
  | forwarded (synthesis : String) (evidence : ReviewPassEvidence)
      (h : driver.phase = .verdict (.findings synthesis evidence))
    : Concludes driver .forward
  | dismissed (verdict : ReviewVerdict) (h : driver.phase = .verdict verdict)
      (hfailed : verdict.isFailed = false)
    : Concludes driver .dismiss
  | clean (commandId answer : String)
      (h : (driver.roleTurnCompleted commandId answer).1.phase = .resolved .dismissed)
    : Concludes driver (.roleTurnCompleted commandId answer)
  | unchanged (deltas : List RepoDelta) (h : driver.phase = .capturingDelta)
      (hnone : hasChanges deltas = false)
    : Concludes driver (.deltaCaptured deltas)

theorem not_advances_nil (trees : BTreeMap String String) : ¬Advances [] trees := by
  simp [Advances]

theorem not_advances_pauses (roles : List String) (trees : BTreeMap String String)
    : ¬Advances (roles.map .pauseRole) trees := by
  simp [Advances]

theorem advances_resolve {resolution : Resolution}
    (h : Advances (driver.resolve resolution).2 trees) : trees = capturedTrees driver.deltas := by
  obtain ⟨ordinal, h⟩ := h
  simp only [resolve] at h
  split at h <;> simp at h <;> exact h.1

theorem advances_reachVerdict {verdict : ReviewVerdict}
    (h : Advances (driver.reachVerdict verdict).2 trees)
    : verdict.isClean = true ∧ trees = capturedTrees driver.deltas := by
  obtain ⟨ordinal, h⟩ := h
  simp only [reachVerdict, pauseEveryRole] at h
  split at h
  next hclean =>
    refine ⟨hclean, ?_⟩
    rcases mem_append.mp h with h | h
    . exact absurd ⟨ordinal, h⟩ (not_advances_pauses _ trees)
    . exact advances_resolve ⟨ordinal, h⟩
  next => exact absurd ⟨ordinal, h⟩ (not_advances_pauses _ trees)

theorem not_advances_injectReports (driver : TurnReviewDriver) (trees : BTreeMap String String)
    : ¬Advances driver.injectReports.2 trees := by
  unfold injectReports
  split
  . apply not_advances_nil
  . simp [Advances, promptRole, nextCommandId]

theorem not_advances_cons {request : ReviewRequest} {requests : List ReviewRequest}
    (hrequest : ∀ ordinal, request ≠ .advanceBaseline trees ordinal) (h : ¬Advances requests trees)
    : ¬Advances (request :: requests) trees := by
  rintro ⟨ordinal, hmem⟩
  rcases mem_cons.mp hmem with heq | hmem
  . exact hrequest ordinal heq.symm
  . exact h ⟨ordinal, hmem⟩

theorem Reacts.not_advances {reaction : Reaction} (h : Reacts driver reaction)
    : ¬Advances reaction.2 trees := by
  induction h with
  | skip => apply not_advances_nil
  | prepare _ _ ih => exact ih
  | pause role _ ih => exact not_advances_cons (by simp) ih
  | fail message =>
    intro h
    cases (advances_reachVerdict h).1
  | start role | replace role other | prompt role purpose prompt =>
    simp [Advances, startRole, promptRole, nextCommandId]
  | inject | settle lane state outcome finalMessage => apply not_advances_injectReports
  | dispatch requests =>
    rintro ⟨ordinal, hmem⟩
    obtain ⟨lane, heq, _⟩ := (launches_lanesDispatched _ requests).requests _ hmem
    cases heq

theorem advances_call {call : ReviewCall} (h : Advances (driver.call call).2 trees)
    : Concludes driver call ∧ trees = capturedTrees (driver.call call).1.deltas := by
  rcases call_cases driver call with hreacts |
    ⟨commandId, answer, next, verdict, rfl, hprepares, heq⟩ | ⟨deltas, rfl⟩ | hdecides
  . exact absurd h hreacts.not_advances
  . rw [heq] at h ⊢
    obtain ⟨hclean, htrees⟩ := advances_reachVerdict h
    rw [(retains_reachVerdict next verdict).deltas]
    refine ⟨Concludes.clean _ _ ?_, htrees⟩
    have hphase : (driver.call (.roleTurnCompleted commandId answer)).1.phase
        = .resolved .dismissed := by
      rw [heq, reachVerdict_phase, if_pos hclean]
    exact hphase
  . simp only [call, deltaCaptured] at h ⊢
    split at h
    . exact absurd h (not_advances_nil trees)
    rename_i hphase
    rw [if_neg hphase]
    split at h
    next hnone =>
      rw [if_pos hnone]
      refine ⟨Concludes.unchanged deltas (not_not.mp hphase) (by simpa using hnone), ?_⟩
      simp only [Advances, mem_cons, ReviewRequest.advanceBaseline.injEq, reduceCtorEq,
        not_mem_nil, or_false] at h
      obtain ⟨ordinal, htrees, _⟩ := h
      exact htrees
    next =>
      exfalso
      split at h
      . simp [Advances, startRole] at h
      split at h <;> simp [Advances, startRole] at h
  cases call with
  | forward =>
    simp only [call, forward] at h ⊢
    split at h
    next synthesis evidence hphase =>
      refine ⟨Concludes.forwarded synthesis evidence hphase, ?_⟩
      dsimp only
      obtain ⟨ordinal, hmem⟩ := h
      simp only [cons_append, nil_append, mem_cons, reduceCtorEq, false_or] at hmem
      exact advances_resolve ⟨ordinal, hmem⟩
    next => exact absurd h (not_advances_nil trees)
  | dismiss =>
    simp only [call, dismiss] at h ⊢
    split at h
    . simp [Advances] at h
    next verdict hother hphase =>
      refine ⟨Concludes.dismissed verdict hphase ?_, advances_resolve h⟩
      cases verdict with
      | findings synthesis evidence | clean => rfl
      | failed reason => exact absurd rfl (hother reason)
    next => exact absurd h (not_advances_nil trees)
  | cancel =>
    exfalso
    simp only [call, cancel] at h
    split at h
    . exact not_advances_nil trees h
    . simp [Advances, pauseEveryRole] at h
  | _ => cases hdecides

/-!
### Before the capture
-/

structure Idle (driver : TurnReviewDriver) : Prop where
  phase : driver.phase = .capturingDelta ∨ driver.phase.abandoned = true
  reaped : driver.Reaped

theorem Idle.of_abandoned (h : driver.phase.abandoned = true) (hreaped : driver.Reaped)
    : driver.Idle :=
  ⟨Or.inr h, hreaped⟩

theorem Idle.requestFailed (h : driver.Idle) (message : String)
    : (driver.requestFailed message).1.Idle ∧ (driver.requestFailed message).2 = [] := by
  unfold TurnReviewDriver.requestFailed
  split
  . exact ⟨h, rfl⟩
  constructor
  . apply Idle.of_abandoned _ (reachVerdict_reaped _ _)
    rw [reachVerdict_phase]
    rfl
  . simp [reachVerdict, pauseEveryRole, ReviewVerdict.isClean, h.reaped.started, BTreeMap.keys,
      BTreeMap.empty]

theorem Idle.roleTurnCompleted (h : driver.Idle) (commandId answer : String)
    : driver.roleTurnCompleted commandId answer = (driver, []) := by
  have hnone : driver.awaitedRole commandId = none := by
    simp [awaitedRole, h.reaped.awaited, BTreeMap.empty]
  simp [TurnReviewDriver.roleTurnCompleted, hnone]

theorem Idle.decided (h : driver.Idle) {call : ReviewCall} (hdecides : call.decides = true)
    : (driver.call call).1.Idle
      ∧ ((driver.call call).2 = [] ∨ (driver.call call).2 = [.close]) := by
  have hreaped := h.reaped
  cases call <;> simp [ReviewCall.decides] at hdecides
  . simp only [call, forward]
    split
    next hphase =>
      rcases h.phase with hcapturing | habandoned
      . simp [hphase] at hcapturing
      . simp [hphase, abandoned, ReviewVerdict.isFailed] at habandoned
    next => exact ⟨h, Or.inl rfl⟩
  . simp only [call, dismiss]
    split
    next hphase =>
      exact ⟨Idle.of_abandoned rfl { hreaped with }, Or.inr rfl⟩
    next verdict hother hphase =>
      rcases h.phase with hcapturing | habandoned
      . simp [hphase] at hcapturing
      cases verdict with
      | clean | findings synthesis evidence =>
        simp [hphase, abandoned, ReviewVerdict.isFailed] at habandoned
      | failed reason => exact absurd rfl (hother reason)
    next => exact ⟨h, Or.inl rfl⟩
  . simp only [call, cancel]
    split
    . exact ⟨h, Or.inl rfl⟩
    constructor
    . apply Idle.of_abandoned rfl
      exact ⟨rfl, rfl, rfl⟩
    . right
      simp [pauseEveryRole, hreaped.started, BTreeMap.keys, BTreeMap.empty]

theorem abandoned_call (htidy : driver.Tidy) {call : ReviewCall} (h : driver.phase.abandoned = true)
    (hquiet : driver.revivedBy call = false) : (driver.call call).1.phase.abandoned = true := by
  have hkeeps := (keeps_iff htidy call).mpr hquiet
  cases hphase : driver.phase with
  | capturingDelta | launchingReviewer | running roles =>
    simp [hphase, abandoned] at h
  | resolved resolution =>
    rw [hkeeps.resolved resolution hphase, ← hphase]
    exact h
  | verdict verdict =>
  cases hdecides : call.decides with
  | false =>
    rw [hkeeps.verdict verdict hphase hdecides, ← hphase]
    exact h
  | true =>
  rw [hphase] at h
  cases verdict with
  | clean | findings synthesis evidence => cases h
  | failed reason =>
  cases call <;> simp [ReviewCall.decides] at hdecides
  . simp only [call, forward, hphase]
    rfl
  . simp only [call, dismiss, hphase]
    rfl
  . simp only [call, cancel, finished, hphase]
    rfl

end TurnReviewDriver

/-!
### One review
-/

inductive Converses (captures : List RepoDelta → Prop) (seed : TurnReviewSeed)
    : Exchange → List (TurnReviewDriver × ReviewCall) → Prop where
  | start : Converses captures seed (Exchange.start seed) []
  | call {exchange : Exchange} {steps : List (TurnReviewDriver × ReviewCall)} {call : ReviewCall}
      {outstanding : Outstanding} (h : Converses captures seed exchange steps)
      (hanswers : Answers exchange.outstanding call outstanding)
      (hcaptures : ∀ deltas, call = .deltaCaptured deltas → captures deltas)
    : Converses captures seed (exchange.after call outstanding) (steps ++ [(exchange.driver, call)])

namespace Converses

open TurnReviewDriver Outstanding

structure Uncaptured (exchange : Exchange) (steps : List (TurnReviewDriver × ReviewCall))
    : Prop where
  idle : exchange.driver.Idle
  analysis : exchange.outstanding.analysis = false
  starts : exchange.outstanding.starts = []
  silent : exchange.outstanding.dispatching = false
  quiet : ∀ step ∈ steps, ∀ trees, ¬Advances (step.1.call step.2).2 trees

structure Captured (deltas : List RepoDelta) (exchange : Exchange)
    (steps : List (TurnReviewDriver × ReviewCall)) : Prop where
  captured : exchange.driver.deltas = deltas
  phase : exchange.driver.phase ≠ .capturingDelta
  advances : ∀ step ∈ steps, ∀ trees, Advances (step.1.call step.2).2 trees →
    Concludes step.1 step.2 ∧ trees = capturedTrees deltas

variable {steps : List (TurnReviewDriver × ReviewCall)} {outstanding : Outstanding}

theorem Uncaptured.call (h : Uncaptured exchange steps) {call : ReviewCall}
    (hanswers : outstanding.analysis = false ∧ outstanding.starts = []
      ∧ outstanding.dispatching = false) (hidle : (exchange.driver.call call).1.Idle)
    (hrequests : (exchange.driver.call call).2 = [] ∨ (exchange.driver.call call).2 = [.close])
    : Uncaptured (exchange.after call outstanding) (steps ++ [(exchange.driver, call)]) := by
  have hnote : outstanding.note (exchange.driver.call call).2 = outstanding := by
    rcases hrequests with hnil | hclose
    . rw [hnil, Exchange.note_nil]
    . rw [hclose]
      simp [note, isCapture, isAnalyze, startedRole?, promptsSupervisor, filterMap_cons]
  have hafter : (exchange.after call outstanding).outstanding = outstanding := hnote
  constructor
  . exact hidle
  . rw [hafter, hanswers.1]
  . rw [hafter, hanswers.2.1]
  . rw [hafter, hanswers.2.2]
  rw [forall_mem_append, forall_mem_singleton]
  refine ⟨h.quiet, ?_⟩
  intro trees
  rcases hrequests with hnil | hclose
  . rw [hnil]
    apply not_advances_nil
  . rw [hclose]
    simp [Advances]

theorem Uncaptured.ignored (h : Uncaptured exchange steps) {call : ReviewCall}
    (hignored : exchange.driver.call call = (exchange.driver, []))
    (hanswers : outstanding.analysis = false ∧ outstanding.starts = []
      ∧ outstanding.dispatching = false)
    : Uncaptured (exchange.after call outstanding) (steps ++ [(exchange.driver, call)]) := by
  apply h.call hanswers
  . rw [hignored]
    exact h.idle
  . left
    rw [hignored]

theorem Captured.call {deltas : List RepoDelta} (h : Captured deltas exchange steps)
    (call : ReviewCall) (outstanding : Outstanding)
    : Captured deltas (exchange.after call outstanding) (steps ++ [(exchange.driver, call)]) := by
  have hretains : Retains exchange.driver (exchange.driver.call call).1 := retains_call (Or.inl h.phase)
  have hdeltas : (exchange.driver.call call).1.deltas = deltas := hretains.deltas.trans h.captured
  constructor
  . exact hdeltas
  . exact hretains.captured h.phase
  rw [forall_mem_append, forall_mem_singleton]
  refine ⟨h.advances, ?_⟩
  intro trees hadvances
  rw [← hdeltas]
  apply advances_call hadvances

theorem Uncaptured.captured (h : Uncaptured exchange steps)
    (hphase : exchange.driver.phase = .capturingDelta) (deltas : List RepoDelta)
    (outstanding : Outstanding)
    : Captured deltas (exchange.after (.deltaCaptured deltas) outstanding)
        (steps ++ [(exchange.driver, .deltaCaptured deltas)]) := by
  have hcall : (exchange.driver.call (.deltaCaptured deltas)).1.deltas = deltas
      ∧ (exchange.driver.call (.deltaCaptured deltas)).1.phase ≠ .capturingDelta := by
    simp only [TurnReviewDriver.call, deltaCaptured, hphase, ne_eq, not_true_eq_false, if_false]
    split
    . exact ⟨rfl, by simp⟩
    split
    . exact ⟨rfl, by simp [startRole]⟩
    . split <;> exact ⟨rfl, by simp [startRole]⟩
  constructor
  . exact hcall.1
  . exact hcall.2
  rw [forall_mem_append, forall_mem_singleton]
  constructor
  . intro step hmem trees hadvances
    exact absurd hadvances (h.quiet step hmem trees)
  intro trees hadvances
  have hmoves := advances_call hadvances
  rw [hcall.1] at hmoves
  exact hmoves

theorem captured_or {captures : List RepoDelta → Prop} {seed : TurnReviewSeed}
    (h : Converses captures seed exchange steps)
    : Uncaptured exchange steps ∨ ∃ deltas, captures deltas ∧ Captured deltas exchange steps := by
  induction h with
  | start =>
    left
    constructor
    . exact ⟨Or.inl rfl, rfl, rfl, rfl⟩
    . rfl
    . rfl
    . rfl
    . intro step hmem
      cases hmem
  | @call exchange steps call outstanding h hanswers hcaptures ih =>
    rcases ih with hnone | ⟨deltas, hdeltas, hsome⟩
    swap
    . right
      exact ⟨deltas, hdeltas, hsome.call call outstanding⟩
    cases hanswers with
    | captured deltas hcapture =>
      rcases hnone.idle.phase with hphase | habandoned
      . right
        exact ⟨deltas, hcaptures deltas rfl, hnone.captured hphase deltas _⟩
      left
      have hignored : exchange.driver.call (.deltaCaptured deltas) = (exchange.driver, []) := by
        have hphase : exchange.driver.phase ≠ .capturingDelta := by
          intro hphase
          simp [hphase, abandoned] at habandoned
        simp [TurnReviewDriver.call, deltaCaptured, hphase]
      exact hnone.ignored hignored ⟨hnone.analysis, hnone.starts, hnone.silent⟩
    | notCaptured message _ | notPrompted message =>
      left
      have hfailed := hnone.idle.requestFailed message
      exact hnone.call ⟨hnone.analysis, hnone.starts, hnone.silent⟩ hfailed.1 (Or.inl hfailed.2)
    | analyzed result hanalysis => simp [hnone.analysis] at hanalysis
    | started role hstart | notStarted role message hstart hlane
    | laneNotStarted role reason hstart hlane => simp [hnone.starts] at hstart
    | turnCompleted commandId answer =>
      left
      have hignored := hnone.idle.roleTurnCompleted commandId answer
      exact hnone.ignored hignored ⟨hnone.analysis, hnone.starts, hnone.silent⟩
    | dispatched requests hdispatching => simp [hnone.silent] at hdispatching
    | decided _ hdecides =>
      left
      have hdecided := hnone.idle.decided hdecides
      exact hnone.call ⟨hnone.analysis, hnone.starts, hnone.silent⟩ hdecided.1 hdecided.2

end Converses

end Hel
