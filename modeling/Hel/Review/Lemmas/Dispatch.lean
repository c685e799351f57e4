import Hel.Review.Impl.Sidecar
import Hel.Review.Lemmas.Coverage

/-!
This module contains what the calls of an extended review do to its lanes.
-/

namespace Hel

open TurnReviewDriver TurnReviewPhase

variable {requests : List ReviewRequest} {lane : String} {reaction : Reaction} {role : String}

def Delivered (requests : List ReviewRequest) (lane : String) : Prop :=
  ∃ commandId reports outstanding,
    .promptRole supervisorRole commandId (.reportInjection reports outstanding) ∈ requests
      ∧ ∃ report ∈ reports, report.id = lane

theorem Delivered.append (h : Delivered requests lane) (more : List ReviewRequest)
    : Delivered (requests ++ more) lane := by
  obtain ⟨commandId, reports, outstanding, hmem, hreport⟩ := h
  exact ⟨commandId, reports, outstanding, List.mem_append_left more hmem, hreport⟩

def TurnReviewPhase.concluded : TurnReviewPhase → Bool
  | .verdict outcome => !outcome.isFailed
  | .resolved resolution => resolution = .forwarded || resolution = .dismissed
  | _ => false

theorem TurnReviewPhase.not_concluded_of_active {phase : TurnReviewPhase}
    (h : phase.active = true) : phase.concluded = false := by
  cases phase <;> simp_all [active, concluded]

theorem TurnReviewPhase.not_concluded_of_open {phase : TurnReviewPhase}
    (h : phase.settled = false) : phase.concluded = false := by
  cases phase <;> simp_all [settled, concluded]

namespace TurnReviewDriver

def LanesHeld (driver : TurnReviewDriver) (requests : List ReviewRequest) : Prop :=
  ∀ lane, driver.launchedLanes.contains lane = true →
    driver.outstandingLanes.contains lane = true
      ∨ (∃ report ∈ driver.queuedReports, report.id = lane)
      ∨ Delivered requests lane

structure HoldsLanes (driver : TurnReviewDriver) (reaction : Reaction) : Prop where
  launched : reaction.1.phase.settled = false → ∀ lane,
    driver.launchedLanes.contains lane = true → reaction.1.launchedLanes.contains lane = true
  held : reaction.1.phase.settled = false → ∀ requests, driver.LanesHeld requests →
    reaction.1.LanesHeld (requests ++ reaction.2)

variable {driver next : TurnReviewDriver}

theorem HoldsLanes.of_settled (h : reaction.1.phase.settled = true)
    : HoldsLanes driver reaction := by
  constructor <;> intro hopen <;> simp [h] at hopen

theorem HoldsLanes.of_same (hlaunched : reaction.1.launchedLanes = driver.launchedLanes)
    (hlanes : reaction.1.outstandingLanes = driver.outstandingLanes)
    (hqueued : reaction.1.queuedReports = driver.queuedReports) : HoldsLanes driver reaction := by
  constructor
  . intro _ lane hlane
    rw [hlaunched]
    exact hlane
  intro _ requests hheld lane hlane
  rw [hlaunched] at hlane
  rw [hlanes, hqueued]
  apply (hheld lane hlane).imp_right
  apply Or.imp_right
  intro hdelivered
  exact hdelivered.append _

theorem HoldsLanes.of_frame {before : TurnReviewDriver} (h : HoldsLanes before reaction)
    (hlaunched : before.launchedLanes = driver.launchedLanes)
    (hlanes : before.outstandingLanes = driver.outstandingLanes)
    (hqueued : before.queuedReports = driver.queuedReports) : HoldsLanes driver reaction := by
  constructor
  . intro hopen lane hlane
    rw [← hlaunched] at hlane
    apply h.launched hopen lane hlane
  intro hopen requests hheld
  apply h.held hopen
  intro lane hlane
  rw [hlaunched] at hlane
  rw [hlanes, hqueued]
  apply hheld lane hlane

theorem HoldsLanes.pause (h : HoldsLanes driver (next, requests))
    : HoldsLanes driver (next, .pauseRole role :: requests) := by
  constructor
  . exact h.launched
  intro hopen log hheld lane hlane
  apply (h.held hopen log hheld lane hlane).imp_right
  apply Or.imp_right
  rintro ⟨commandId, reports, outstanding, hmem, hreport⟩
  refine ⟨commandId, reports, outstanding, ?_, hreport⟩
  simp only [List.mem_append, List.mem_cons] at hmem ⊢
  exact hmem.imp_right Or.inr

theorem holdsLanes_injectReports (driver : TurnReviewDriver)
    : HoldsLanes driver driver.injectReports := by
  unfold injectReports
  split
  . apply HoldsLanes.of_same <;> rfl
  constructor
  . intro _ lane hlane
    exact hlane
  intro _ requests hheld lane hlane
  apply (hheld lane hlane).imp_right
  intro hlane
  right
  rcases hlane with hlane | hlane
  . exact ⟨_, _, _, List.mem_append_right _ (List.mem_singleton.mpr rfl), hlane⟩
  . apply hlane.append

theorem holdsLanes_settled (h : Settles driver next lane)
    : HoldsLanes driver next.injectReports := by
  have hinject := holdsLanes_injectReports next
  constructor
  . intro hopen other hother
    apply hinject.launched hopen
    rw [h.launched]
    exact hother
  intro hopen requests hheld
  apply hinject.held hopen
  intro other hother
  obtain ⟨outcome, message, label, hqueued⟩ := h.queued
  rw [h.launched] at hother
  rw [h.lanes, hqueued, BTreeMap.contains_remove]
  by_cases heq : other = lane
  . right
    left
    exact ⟨_, List.mem_append_right _ (List.mem_singleton.mpr rfl), heq.symm⟩
  refine (hheld other hother).imp ?_ (Or.imp_left ?_)
  . intro hmem
    simp [heq, hmem]
  . rintro ⟨report, hmem, hid⟩
    exact ⟨report, List.mem_append_left _ hmem, hid⟩

theorem holdsLanes_launches (h : Launches driver reaction) : HoldsLanes driver reaction := by
  constructor
  . intro _ lane hlane
    rw [h.launched]
    right
    exact hlane
  intro _ requests hheld lane hlane
  rw [h.launched] at hlane
  rw [h.lanes, h.queued]
  rcases hlane with hstart | hlane
  . exact Or.inl (Or.inl hstart)
  apply (hheld lane hlane).imp Or.inr
  apply Or.imp_right
  intro hdelivered
  exact hdelivered.append _

theorem Reacts.holdsLanes (h : Reacts driver reaction) : HoldsLanes driver reaction := by
  induction h with
  | skip | start role | replace role other | prompt role purpose prompt =>
    apply HoldsLanes.of_same <;> rfl
  | prepare h _ ih => exact ih.of_frame h.launched h.lanes h.queued
  | pause role _ ih => exact ih.pause
  | fail message => exact HoldsLanes.of_settled (reachVerdict_settled _ _)
  | inject => apply holdsLanes_injectReports
  | settle lane state outcome finalMessage =>
    exact holdsLanes_settled (settles_settleLane _ _ _ _ _)
  | dispatch requests => exact holdsLanes_launches (launches_lanesDispatched _ _)

theorem holdsLanes_call (driver : TurnReviewDriver) (call : ReviewCall)
    : HoldsLanes driver (driver.call call) := by
  rcases call_cases driver call with h | ⟨_, _, next, verdict, _, _, heq⟩ | ⟨deltas, rfl⟩ | hdecides
  . exact h.holdsLanes
  . rw [heq]
    exact HoldsLanes.of_settled (reachVerdict_settled _ _)
  . simp only [call, deltaCaptured]
    split
    . apply HoldsLanes.of_same <;> rfl
    split
    . apply HoldsLanes.of_settled rfl
    split
    . apply HoldsLanes.of_same <;> rfl
    . split <;> apply HoldsLanes.of_same <;> rfl
  . rcases decided_or driver hdecides with hsame | hdecided
    . rw [hsame]
      apply HoldsLanes.of_same <;> rfl
    . exact HoldsLanes.of_settled hdecided.settled

/-!
### The roles of an extended review
-/

def onRoster (role : String) : Bool :=
  role = intentRole || role = supervisorRole || (laneById role).isSome

theorem ne_of_onRoster (h : onRoster role = true) : role ≠ reviewerRole ∧ role ≠ validatorRole := by
  constructor <;> rintro rfl <;> cases h

structure Manned (reaction : Reaction) : Prop where
  tier : reaction.1.seed.tier = .extended
  awaits : ∀ role, reaction.1.awaited.contains role = true → onRoster role = true
  starts : ∀ role fresh, .startRole role fresh ∈ reaction.2 → onRoster role = true

theorem Manned.of_same (h : Manned (driver, [])) (hseed : next.seed = driver.seed)
    (hawaited : next.awaited = driver.awaited) : Manned (next, []) where
  tier := by
    rw [hseed]
    exact h.tier
  awaits := by
    intro role hrole
    rw [hawaited] at hrole
    apply h.awaits role hrole
  starts := by nofun

theorem Manned.start (h : Manned (driver, [])) (hseed : next.seed = driver.seed)
    (hawaited : next.awaited = driver.awaited) (hrole : onRoster role = true)
    : Manned ((next.startRole role true).1, [(next.startRole role true).2]) where
  tier := by
    simp only [startRole, hseed]
    exact h.tier
  awaits := by
    intro other hother
    simp only [startRole, hawaited] at hother
    apply h.awaits other hother
  starts := by
    intro other fresh hmem
    simp only [startRole, List.mem_singleton, ReviewRequest.startRole.injEq] at hmem
    rw [hmem.1]
    exact hrole

theorem Manned.prompts (h : Manned (driver, [])) (hprompts : Prompts driver role reaction)
    (hrole : onRoster role = true) : Manned reaction := by
  obtain ⟨commandId, prompt, hrequests⟩ := hprompts.requests
  constructor
  . rw [hprompts.seed]
    exact h.tier
  . intro other hother
    rw [hprompts.awaited] at hother
    simp only [Bool.or_eq_true, decide_eq_true_eq] at hother
    rcases hother with heq | hother
    . rw [heq]
      exact hrole
    . apply h.awaits other hother
  . intro other fresh hmem
    simp [hrequests] at hmem

theorem Manned.pause (h : Manned (next, requests))
    : Manned (next, .pauseRole role :: requests) where
  tier := h.tier
  awaits := h.awaits
  starts := by
    intro other fresh hmem
    simp only [List.mem_cons, reduceCtorEq, false_or] at hmem
    apply h.starts other fresh hmem

theorem Manned.reachVerdict (h : driver.seed.tier = .extended) (verdict : ReviewVerdict)
    : Manned (driver.reachVerdict verdict) := by
  constructor
  . rw [(retains_reachVerdict _ _).seed]
    exact h
  . intro role hrole
    rw [(reachVerdict_reaped _ _).awaited] at hrole
    cases hrole
  . intro role fresh hmem
    simp only [TurnReviewDriver.reachVerdict, pauseEveryRole, resolve] at hmem
    repeat' split at hmem
    all_goals simp at hmem

theorem Manned.requestFailed (h : Manned (driver, [])) (message : String)
    : Manned (driver.requestFailed message) := by
  unfold TurnReviewDriver.requestFailed
  split
  . exact h
  . exact Manned.reachVerdict h.tier _

theorem Manned.maybeStartSupervisor (h : Manned (driver, []))
    : Manned driver.maybeStartSupervisor := by
  unfold TurnReviewDriver.maybeStartSupervisor
  split
  . exact h
  split
  . apply h.requestFailed
  apply Manned.start h
  . rfl
  . rfl
  . decide

theorem Manned.injectReports (h : Manned (driver, [])) : Manned driver.injectReports := by
  by_cases hheld : driver.supervisorIdle = false ∨ driver.queuedReports = []
  . rw [injectReports_held hheld]
    exact h
  simp only [not_or, Bool.not_eq_false] at hheld
  apply h.prompts (injectReports_prompts hheld.1 hheld.2).1
  decide

theorem Manned.settled (h : Manned (driver, []))
    (hsettles : Settles driver next lane) : Manned next.injectReports :=
  (h.of_same hsettles.seed hsettles.awaited).injectReports

theorem Manned.roleTurnCompleted (h : Manned (driver, [])) (commandId answer : String)
    : Manned (driver.roleTurnCompleted commandId answer) := by
  unfold TurnReviewDriver.roleTurnCompleted
  split
  . exact h
  rename_i role hrole
  have hne := ne_of_onRoster (h.awaits role (Exchange.awaitedRole_contains hrole))
  have hawaited : Manned ({ driver with awaited := driver.awaited.remove role }, []) := by
    refine ⟨h.tier, ?_, h.starts⟩
    intro other hother
    apply h.awaits other (Exchange.contains_remove_of_contains hother)
  dsimp only
  rw [if_neg hne.1, if_neg hne.2]
  split
  . unfold intentReported
    dsimp only
    split
    . apply Manned.requestFailed
      apply hawaited.of_same <;> rfl
    apply Manned.pause
    apply Manned.maybeStartSupervisor
    apply hawaited.of_same <;> rfl
  split
  . unfold supervisorReported
    dsimp only
    split
    . apply Manned.reachVerdict
      exact h.tier
    . apply Manned.injectReports
      apply hawaited.of_same <;> rfl
  . unfold laneReported
    split
    . exact hawaited
    . apply Manned.pause
      apply hawaited.settled (settles_settleLane _ _ _ _ _)

theorem Manned.decision (h : Manned (driver, [])) {call : ReviewCall} (hdecides : call.decides = true)
    : Manned (driver.call call) := by
  rcases decided_or driver hdecides with hsame | hdecided
  . rw [hsame]
    exact h
  constructor
  . rw [hdecided.seed]
    exact h.tier
  . intro role hrole
    rcases hdecided.reaps with ⟨_, hawaited, _⟩ | ⟨hreaped, _⟩
    . rw [hawaited] at hrole
      exact h.awaits role hrole
    . rw [hreaped.awaited] at hrole
      cases hrole
  . intro role fresh hmem
    cases hdecided.quiet _ hmem

theorem Manned.call (h : Manned (driver, [])) {call : ReviewCall}
    (hstart : ∀ role, call = .roleStarted role → onRoster role = true)
    : Manned (driver.call call) := by
  cases call with
  | deltaCaptured deltas =>
    simp only [TurnReviewDriver.call, deltaCaptured]
    split
    . exact h
    split
    . refine ⟨h.tier, h.awaits, ?_⟩
      intro role fresh hmem
      simp at hmem
    rw [h.tier]
    dsimp only
    split
    all_goals
      refine ⟨h.tier, h.awaits, ?_⟩
      intro role fresh hmem
      simp only [startRole, List.mem_cons, reduceCtorEq, ReviewRequest.startRole.injEq,
        List.not_mem_nil, or_false, false_or] at hmem
      rw [hmem.1]
      decide
  | roleStarted role =>
    cases hanswers : driver.answersStart role with
    | true => apply h.prompts (roleStarted_prompts hanswers).1 (hstart role rfl)
    | false =>
      simp only [TurnReviewDriver.call, roleStarted_ignored hanswers]
      exact h
  | analysisCompleted result =>
    have htier : driver.seed.tier = .extended := h.tier
    simp only [TurnReviewDriver.call, analysisCompleted, htier]
    apply Manned.maybeStartSupervisor
    apply h.of_same <;> rfl
  | roleTurnCompleted commandId answer => apply h.roleTurnCompleted
  | laneFailed laneId reason =>
    simp only [TurnReviewDriver.call, laneFailed]
    split
    . exact h
    split
    . exact h
    . apply h.settled (settles_settleLane _ _ _ _ _)
  | lanesDispatched requests =>
    have hlaunches := launches_lanesDispatched driver requests
    constructor
    . simp only [TurnReviewDriver.call, hlaunches.seed]
      exact h.tier
    . intro role hrole
      simp only [TurnReviewDriver.call, hlaunches.awaited] at hrole
      apply h.awaits role hrole
    . intro role fresh hmem
      obtain ⟨lane, heq, hlane, _⟩ := hlaunches.requests _ hmem
      cases heq
      simp [onRoster, hlane]
  | requestFailed message => apply h.requestFailed
  | forward | dismiss | cancel => exact h.decision rfl

/-!
### Conclusions
-/

theorem Reacts.not_concluded (h : Reacts driver reaction) (hopen : driver.phase.settled = false)
    : reaction.1.phase.concluded = false := by
  induction h with
  | skip | start role | replace role other | prompt role purpose prompt =>
    exact not_concluded_of_open hopen
  | prepare h _ ih =>
    apply ih
    rcases h.phase with hsame | hactive
    . rw [hsame]
      exact hopen
    . exact Exchange.settled_eq_false_of_active hactive
  | pause role _ ih => exact ih hopen
  | fail message =>
    rw [reachVerdict_phase]
    rfl
  | inject =>
    rw [injectReports_phase]
    exact not_concluded_of_open hopen
  | settle lane state outcome finalMessage =>
    rw [injectReports_phase]
    exact not_concluded_of_active (settles_settleLane _ _ _ _ _).phase
  | @dispatch driver requests =>
    simp only [lanesDispatched]
    split
    . exact not_concluded_of_open hopen
    rcases dispatchLanes_active_or driver requests with heq | hactive
    . rw [heq]
      exact not_concluded_of_open hopen
    . split <;> exact not_concluded_of_active hactive

structure ConcludesTurn (driver : TurnReviewDriver) (call : ReviewCall) (commandId : String)
    : Prop where
  turn : ∃ answer, call = .roleTurnCompleted commandId answer
  awaited : driver.awaitedRole commandId = some supervisorRole
  lanes : driver.outstandingLanes.entries = []
  queued : driver.queuedReports = []
  quiet : ∀ request ∈ (driver.call call).2, request.putsToWork = false

theorem concludesTurn_of_roleTurnCompleted (h : Manned (driver, []))
    (hopen : driver.phase.settled = false) {commandId answer : String}
    (hphase : (driver.roleTurnCompleted commandId answer).1.phase.concluded = true)
    : ConcludesTurn driver (.roleTurnCompleted commandId answer) commandId := by
  cases hrole : driver.awaitedRole commandId with
  | none =>
    simp only [roleTurnCompleted, hrole, not_concluded_of_open hopen] at hphase
    cases hphase
  | some role =>
  have hne := ne_of_onRoster (h.awaits role (Exchange.awaitedRole_contains hrole))
  have hcall : driver.call (.roleTurnCompleted commandId answer)
      = driver.roleTurnCompleted commandId answer := rfl
  simp only [roleTurnCompleted, hrole, hne.1, hne.2, if_false] at hcall hphase
  by_cases hintent : role = intentRole
  . exfalso
    simp only [hintent, if_true, intentReported] at hphase
    split at hphase
    . rw [(reacts_requestFailed _ _).not_concluded rfl] at hphase
      cases hphase
    . rw [(reacts_maybeStartSupervisor _).not_concluded rfl] at hphase
      cases hphase
  simp only [hintent, if_false] at hcall hphase
  by_cases hsupervisor : role = supervisorRole
  . simp only [hsupervisor, if_true, supervisorReported] at hcall hphase
    split at hphase
    next hdone =>
      simp only [Bool.and_eq_true, List.isEmpty_iff] at hdone
      rw [if_pos (by simp [hdone])] at hcall
      refine ⟨⟨answer, rfl⟩, by rw [hrole, hsupervisor], hdone.1, hdone.2, ?_⟩
      rw [hcall]
      apply reachVerdict_not_putsToWork
    next =>
      rw [injectReports_phase] at hphase
      simp [not_concluded_of_open hopen] at hphase
  . exfalso
    simp only [hsupervisor, if_false, laneReported] at hphase
    split at hphase
    . simp [not_concluded_of_open hopen] at hphase
    simp [injectReports_phase, not_concluded_of_active (settles_settleLane _ _ _ _ _).phase]
      at hphase

theorem concludesTurn_of_concluded (h : Manned (driver, [])) (hopen : driver.phase.settled = false)
    {call : ReviewCall} (hphase : (driver.call call).1.phase.concluded = true)
    : ∃ commandId, ConcludesTurn driver call commandId := by
  rcases call_cases driver call with hreacts | ⟨commandId, answer, _, _, rfl, _⟩ | ⟨deltas, rfl⟩ |
    hdecides
  . simp [hreacts.not_concluded hopen] at hphase
  . exact ⟨commandId, concludesTurn_of_roleTurnCompleted h hopen hphase⟩
  . exfalso
    simp only [call, deltaCaptured] at hphase
    split at hphase
    . simp [not_concluded_of_open hopen] at hphase
    split at hphase
    . simp only [concluded] at hphase
      split at hphase <;> simp at hphase
    split at hphase
    . cases hphase
    split at hphase <;> cases hphase
  . exfalso
    rcases decided_or driver hdecides with hsame | hdecided
    . simp [hsame, not_concluded_of_open hopen] at hphase
    . rw [hdecided.cancelled hopen] at hphase
      cases hphase

end TurnReviewDriver

end Hel
