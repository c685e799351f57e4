import Hel.Data.Reactive
import Hel.Review.Impl.Driver

/-!
This module contains what every call does to the phase of a review, to the roles it has started and
to the commands it waits for.
-/

namespace Hel

open BTreeMap

variable {role : String} {requests : List ReviewRequest} {next : TurnReviewDriver}
  {before : TurnReviewDriver} {reaction : Reaction} {message : String} {fresh : Bool}

def Awake (role : String) : List ReviewRequest → Prop
  | [] => False
  | request :: rest =>
    Awake role rest ∨ (∃ fresh, request = .startRole role fresh) ∧ .pauseRole role ∉ rest

theorem awake_append (role : String) (first second : List ReviewRequest)
    : Awake role (first ++ second)
        ↔ Awake role second ∨ Awake role first ∧ .pauseRole role ∉ second := by
  induction first with
  | nil => simp [Awake]
  | cons request rest ih =>
    simp only [List.cons_append, Awake, ih, List.mem_append]
    tauto

theorem pauseRole_mem_of_not_awake (h : ¬Awake role requests) {before after : List ReviewRequest}
    (hrequests : requests = before ++ .startRole role fresh :: after)
    : .pauseRole role ∈ after := by
  rw [hrequests, awake_append] at h
  by_contra hpause
  apply h
  left
  right
  exact ⟨⟨fresh, rfl⟩, hpause⟩

theorem not_awake_of_forall (h : ∀ request ∈ requests, ∀ fresh, request ≠ .startRole role fresh)
    : ¬Awake role requests := by
  induction requests with
  | nil => simp [Awake]
  | cons request rest ih =>
    simp only [List.mem_cons, forall_eq_or_imp] at h
    simp only [Awake, not_or, not_and]
    constructor
    . apply ih h.2
    . intro ⟨fresh, heq⟩
      exact absurd heq (h.1 fresh)

def ReviewRequest.putsToWork : ReviewRequest → Bool
  | .startRole _ _ | .promptRole _ _ _ => true
  | _ => false

theorem not_awake_of_quiet (h : ∀ request ∈ requests, request.putsToWork = false)
    : ¬Awake role requests := by
  apply not_awake_of_forall
  intro request hmem fresh heq
  have hquiet := h request hmem
  rw [heq] at hquiet
  cases hquiet

theorem laneById_id {id : String} {lane : ReviewLane} (h : laneById id = some lane)
    : lane.id = id := by
  have := List.find?_some h
  simpa using this

theorem ne_of_laneById (h : (laneById role).isSome = true) {other : String}
    (hother : laneById other = none) : role ≠ other := by
  rintro rfl
  simp [hother] at h

@[simp]
theorem laneById_reviewerRole : laneById reviewerRole = none := by decide

@[simp]
theorem laneById_validatorRole : laneById validatorRole = none := by decide

@[simp]
theorem laneById_intentRole : laneById intentRole = none := by decide

@[simp]
theorem laneById_supervisorRole : laneById supervisorRole = none := by decide

namespace ReviewCall

def decides : ReviewCall → Bool
  | .forward | .dismiss | .cancel => true
  | _ => false

end ReviewCall

namespace TurnReviewPhase

def settled : TurnReviewPhase → Bool
  | .verdict _ | .resolved _ => true
  | _ => false

def active : TurnReviewPhase → Bool
  | .launchingReviewer | .running _ => true
  | _ => false

end TurnReviewPhase

namespace TurnReviewDriver

structure Reaped (driver : TurnReviewDriver) : Prop where
  awaited : driver.awaited = BTreeMap.empty
  outstanding : driver.outstandingLanes = BTreeMap.empty
  started : driver.startedRoles = BTreeMap.empty

theorem finished_iff (driver : TurnReviewDriver)
    : driver.finished = true ↔ ∃ resolution, driver.phase = .resolved resolution := by
  unfold finished
  split <;> simp_all

variable {driver : TurnReviewDriver}

theorem finished_eq_false_of_phase (h : ∀ resolution, driver.phase ≠ .resolved resolution)
    : driver.finished = false := by
  rw [← Bool.not_eq_true, finished_iff]
  rintro ⟨resolution, hphase⟩
  exact h resolution hphase

theorem finished_eq_false_of_active (h : driver.phase.active = true) : driver.finished = false := by
  apply finished_eq_false_of_phase
  intro resolution hphase
  rw [hphase] at h
  simp [TurnReviewPhase.active] at h

/-!
### Verdicts
-/

theorem reachVerdict_phase (driver : TurnReviewDriver) (verdict : ReviewVerdict)
    : (driver.reachVerdict verdict).1.phase
        = if verdict.isClean then .resolved .dismissed else .verdict verdict := by
  simp only [reachVerdict, pauseEveryRole, resolve]
  split <;> rfl

theorem reachVerdict_reaped (driver : TurnReviewDriver) (verdict : ReviewVerdict)
    : (driver.reachVerdict verdict).1.Reaped := by
  simp only [reachVerdict, pauseEveryRole, resolve]
  split <;> exact ⟨rfl, rfl, rfl⟩

theorem reachVerdict_settled (driver : TurnReviewDriver) (verdict : ReviewVerdict)
    : (driver.reachVerdict verdict).1.phase.settled = true := by
  rw [reachVerdict_phase]
  split <;> rfl

theorem pauses_not_putsToWork (roles : List String)
    : ∀ request ∈ roles.map ReviewRequest.pauseRole, request.putsToWork = false := by
  intro request hmem
  rw [List.mem_map] at hmem
  obtain ⟨role, _, rfl⟩ := hmem
  rfl

theorem resolve_not_putsToWork (driver : TurnReviewDriver) (resolution : Resolution)
    : ∀ request ∈ (driver.resolve resolution).2, request.putsToWork = false := by
  intro request hmem
  simp only [resolve] at hmem
  split at hmem
  . simp only [List.cons_append, List.nil_append, List.mem_cons, List.not_mem_nil, or_false] at hmem
    rcases hmem with rfl | rfl | rfl <;> rfl
  simp only [List.append_nil, List.cons_append, List.nil_append, List.mem_cons, List.not_mem_nil,
    or_false] at hmem
  rcases hmem with rfl | rfl <;> rfl

theorem reachVerdict_not_putsToWork (driver : TurnReviewDriver) (verdict : ReviewVerdict)
    : ∀ request ∈ (driver.reachVerdict verdict).2, request.putsToWork = false := by
  simp only [reachVerdict, pauseEveryRole]
  split
  . rw [List.forall_mem_append]
    exact ⟨pauses_not_putsToWork _, resolve_not_putsToWork _ _⟩
  . exact pauses_not_putsToWork _

theorem pauseRole_mem_reachVerdict (driver : TurnReviewDriver) (verdict : ReviewVerdict)
    (h : driver.startedRoles.contains role = true)
    : .pauseRole role ∈ (driver.reachVerdict verdict).2 := by
  have hmem : ReviewRequest.pauseRole role ∈ driver.startedRoles.keys.map .pauseRole := by
    apply List.mem_map_of_mem
    apply mem_keys_iff.mpr h
  simp only [reachVerdict, pauseEveryRole, resolve]
  split
  . apply List.mem_append_left
    exact hmem
  . exact hmem

theorem requestFailed_of_not_finished (h : driver.finished = false)
    : driver.requestFailed message = driver.reachVerdict (.failed message) := by
  simp [requestFailed, h]

/-!
### Prompts, reports and dispatches
-/

structure Prompts (driver : TurnReviewDriver) (role : String) (reaction : Reaction) : Prop where
  seed : reaction.1.seed = driver.seed
  analysis : reaction.1.analysis = driver.analysis
  intent : reaction.1.intent = driver.intent
  findings : reaction.1.pendingFindings = driver.pendingFindings
  lanes : reaction.1.outstandingLanes = driver.outstandingLanes
  started : reaction.1.startedRoles = driver.startedRoles
  awaited : ∀ other, reaction.1.awaited.contains other
    = (decide (other = role) || driver.awaited.contains other)
  requests : ∃ commandId prompt, reaction.2 = [.promptRole role commandId prompt]

def answersStart (driver : TurnReviewDriver) (role : String) : Bool :=
  !driver.finished
    && ((role = reviewerRole && driver.phase.active && !driver.awaited.contains reviewerRole)
      || (role = validatorRole && driver.pendingFindings.isSome && driver.changedFunctions.isSome)
      || role = intentRole
      || (role = supervisorRole && driver.intent.isSome && driver.changedFunctions.isSome)
      || (laneById role).isSome)

theorem prompts_promptRole (purpose : String) (prompt : ReviewPrompt)
    (hseed : before.seed = driver.seed) (hanalysis : before.analysis = driver.analysis)
    (hintent : before.intent = driver.intent)
    (hfindings : before.pendingFindings = driver.pendingFindings)
    (hlanes : before.outstandingLanes = driver.outstandingLanes)
    (hstarted : before.startedRoles = driver.startedRoles)
    (hawaited : before.awaited = driver.awaited)
    : Prompts driver role
        ((before.promptRole role purpose prompt).1, [(before.promptRole role purpose prompt).2]) where
  seed := hseed
  analysis := hanalysis
  intent := hintent
  findings := hfindings
  lanes := hlanes
  started := hstarted
  awaited := by
    intro other
    simp only [promptRole, nextCommandId, contains_insert, hawaited]
  requests := ⟨_, _, rfl⟩

theorem roleStarted_prompts (h : driver.answersStart role = true)
    : Prompts driver role (driver.roleStarted role)
      ∧ (driver.roleStarted role).1.phase.active = true
      ∧ (driver.roleStarted role).1.queuedReports = driver.queuedReports
      ∧ (driver.roleStarted role).1.supervisorIdle
        = (driver.supervisorIdle && decide (role ≠ supervisorRole)) := by
  simp only [answersStart, Bool.and_eq_true, Bool.or_eq_true, Bool.not_eq_true',
    decide_eq_true_eq] at h
  obtain ⟨hfinished, h⟩ := h
  unfold roleStarted
  simp only [hfinished, Bool.false_eq_true, if_false]
  rcases h with (((⟨⟨rfl, hactive⟩, hawaited⟩ | ⟨⟨rfl, hfindings⟩, hchanged⟩) | rfl) |
    ⟨⟨rfl, hintent⟩, hchanged⟩) | hlane
  . simp only [if_true, hawaited]
    cases hphase : driver.phase <;> simp [hphase, TurnReviewPhase.active] at hactive
    all_goals
      exact ⟨prompts_promptRole _ _ rfl rfl rfl rfl rfl rfl rfl, rfl, rfl,
        by simp [promptRole, nextCommandId, markRole, reviewerRole, supervisorRole]⟩
  . rw [Option.isSome_iff_exists] at hfindings hchanged
    obtain ⟨findings, hfindings⟩ := hfindings
    obtain ⟨changed, hchanged⟩ := hchanged
    rw [if_neg (by decide), if_pos rfl]
    simp only [hfindings, hchanged]
    exact ⟨prompts_promptRole _ _ rfl rfl rfl rfl rfl rfl rfl, rfl, rfl,
      by simp [promptRole, nextCommandId, markRole, validatorRole, supervisorRole]⟩
  . rw [if_neg (by decide), if_neg (by decide), if_pos rfl]
    exact ⟨prompts_promptRole _ _ rfl rfl rfl rfl rfl rfl rfl, rfl, rfl,
      by simp [promptRole, nextCommandId, markRole, intentRole, supervisorRole]⟩
  . rw [Option.isSome_iff_exists] at hintent hchanged
    obtain ⟨intent, hintent⟩ := hintent
    obtain ⟨changed, hchanged⟩ := hchanged
    rw [if_neg (by decide), if_neg (by decide), if_neg (by decide), if_pos rfl]
    simp only [hintent, hchanged]
    exact ⟨prompts_promptRole _ _ rfl rfl rfl rfl rfl rfl rfl, rfl, rfl,
      by simp [promptRole, nextCommandId, markRole]⟩
  . have hne {other : String} (hother : laneById other = none) := ne_of_laneById hlane hother
    rw [Option.isSome_iff_exists] at hlane
    obtain ⟨lane, hlane⟩ := hlane
    rw [if_neg (hne laneById_reviewerRole), if_neg (hne laneById_validatorRole),
      if_neg (hne laneById_intentRole), if_neg (hne laneById_supervisorRole)]
    simp only [hlane, laneById_id hlane]
    exact ⟨prompts_promptRole _ _ rfl rfl rfl rfl rfl rfl rfl, rfl, rfl,
      by simp [promptRole, nextCommandId, markRole, hne laneById_supervisorRole]⟩

theorem roleStarted_ignored (h : driver.answersStart role = false)
    : driver.roleStarted role = (driver, []) := by
  unfold roleStarted
  split
  . rfl
  rename_i hfinished
  simp only [answersStart, hfinished, Bool.not_false, Bool.true_and, Bool.or_eq_false_iff] at h
  obtain ⟨⟨⟨⟨hreviewer, hvalidator⟩, hintent⟩, hsupervisor⟩, hlane⟩ := h
  split
  next hrole =>
    split
    . simp_all [TurnReviewPhase.active]
    . simp_all [TurnReviewPhase.active]
    . rfl
  split
  . split
    . simp_all
    . rfl
  split
  . simp_all
  split
  . split
    . simp_all
    . rfl
  . simp only [Option.isSome_eq_false_iff, Option.isNone_iff_eq_none] at hlane
    simp only [hlane]

theorem injectReports_held (h : driver.supervisorIdle = false ∨ driver.queuedReports = [])
    : driver.injectReports = (driver, []) := by
  rcases h with h | h <;> simp [injectReports, h]

theorem injectReports_prompts (hidle : driver.supervisorIdle = true)
    (hqueued : driver.queuedReports ≠ [])
    : Prompts driver supervisorRole driver.injectReports
      ∧ driver.injectReports.1.phase = driver.phase
      ∧ driver.injectReports.1.queuedReports = []
      ∧ driver.injectReports.1.supervisorIdle = false := by
  unfold injectReports
  rw [if_neg (by simp [hidle, hqueued])]
  exact ⟨prompts_promptRole _ _ rfl rfl rfl rfl rfl rfl rfl, rfl, rfl, rfl⟩

structure Settles (driver next : TurnReviewDriver) (lane : String) : Prop where
  seed : next.seed = driver.seed
  deltas : next.deltas = driver.deltas
  phase : next.phase.active = true
  analysis : next.analysis = driver.analysis
  intent : next.intent = driver.intent
  lanes : next.outstandingLanes = driver.outstandingLanes.remove lane
  launched : next.launchedLanes = driver.launchedLanes
  started : next.startedRoles = driver.startedRoles
  awaited : next.awaited = driver.awaited
  idle : next.supervisorIdle = driver.supervisorIdle
  queued : ∃ outcome message label,
    next.queuedReports = driver.queuedReports ++ [⟨lane, label, outcome, message⟩]

theorem settles_settleLane (driver : TurnReviewDriver) (lane : ReviewLane) (state : RoleState)
    (outcome : LaneOutcome) (finalMessage : String)
    : Settles driver (driver.settleLane lane state outcome finalMessage) lane.id := by
  unfold settleLane recordLaneEvidence
  dsimp only
  split <;> exact ⟨rfl, rfl, rfl, rfl, rfl, rfl, rfl, rfl, rfl, rfl, ⟨_, _, _, rfl⟩⟩

structure Launches (driver : TurnReviewDriver) (reaction : Reaction) : Prop where
  seed : reaction.1.seed = driver.seed
  deltas : reaction.1.deltas = driver.deltas
  phase : driver.phase.active = true → reaction.1.phase.active = true
  analysis : reaction.1.analysis = driver.analysis
  intent : reaction.1.intent = driver.intent
  findings : reaction.1.pendingFindings = driver.pendingFindings
  queued : reaction.1.queuedReports = driver.queuedReports
  awaited : reaction.1.awaited = driver.awaited
  idle : reaction.1.supervisorIdle = driver.supervisorIdle
  requests : ∀ request ∈ reaction.2, ∃ lane, request = .startRole lane true
    ∧ (laneById lane).isSome = true ∧ driver.launchedLanes.contains lane = false
  lanes : ∀ lane, reaction.1.outstandingLanes.contains lane = true
    ↔ .startRole lane true ∈ reaction.2 ∨ driver.outstandingLanes.contains lane = true
  launched : ∀ lane, reaction.1.launchedLanes.contains lane = true
    ↔ .startRole lane true ∈ reaction.2 ∨ driver.launchedLanes.contains lane = true
  started : ∀ role, reaction.1.startedRoles.contains role = true
    ↔ .startRole role true ∈ reaction.2 ∨ driver.startedRoles.contains role = true

theorem Launches.refl (driver : TurnReviewDriver) : Launches driver (driver, []) := by
  constructor <;> simp

theorem launches_dispatchLanes (driver : TurnReviewDriver) (requests : List ReviewSubagentRequest)
    : Launches driver (driver.dispatchLanes requests) := by
  induction requests generalizing driver with
  | nil => apply Launches.refl
  | cons request rest ih =>
    unfold dispatchLanes
    split
    . apply ih
    rename_i lane hlane
    split
    . apply ih
    rename_i hnew
    have hrest := ih (({ driver with
      launchedLanes := driver.launchedLanes.insert lane.id ()
      outstandingLanes := driver.outstandingLanes.insert lane.id () }.markRole
        lane.id lane.label .pending).startRole lane.id true).1
    refine { hrest with
      phase := fun _ => hrest.phase rfl, requests := ?_, lanes := ?_, launched := ?_,
      started := ?_ }
    . intro started hmem
      rcases List.mem_cons.mp hmem with heq | hmem
      . refine ⟨lane.id, heq, ?_, by simpa using hnew⟩
        rw [laneById_id hlane, hlane]
        rfl
      obtain ⟨other, heq, hknown, hlaunched⟩ := hrest.requests started hmem
      refine ⟨other, heq, hknown, ?_⟩
      simp only [startRole, markRole, contains_insert, Bool.or_eq_false_iff]
        at hlaunched
      exact hlaunched.2
    all_goals
      intro other
      simp only [hrest.lanes, hrest.launched, hrest.started]
      simp only [startRole, markRole, contains_insert, Bool.or_eq_true, decide_eq_true_eq,
        List.mem_cons, ReviewRequest.startRole.injEq, and_true]
      tauto

theorem launches_lanesDispatched (driver : TurnReviewDriver) (requests : List ReviewSubagentRequest)
    : Launches driver (driver.lanesDispatched requests) := by
  have h := launches_dispatchLanes driver requests
  unfold lanesDispatched
  split
  . apply Launches.refl
  dsimp only
  split
  next hnil =>
    rw [List.isEmpty_iff] at hnil
    have hpair : ((driver.dispatchLanes requests).1, ([] : List ReviewRequest))
        = driver.dispatchLanes requests := Prod.ext rfl hnil.symm
    rw [hpair]
    exact h
  next => exact { h with }

/-!
### What a call comes to
-/

structure Prepares (driver next : TurnReviewDriver) : Prop where
  seed : next.seed = driver.seed
  deltas : next.deltas = driver.deltas
  phase : next.phase = driver.phase ∨ next.phase.active = true
  queued : next.queuedReports = driver.queuedReports
  lanes : next.outstandingLanes = driver.outstandingLanes
  launched : next.launchedLanes = driver.launchedLanes
  started : next.startedRoles = driver.startedRoles
  sequence : next.sequence = driver.sequence
  awaited : ∀ role id, next.awaited.get? role = some id → driver.awaited.get? role = some id

inductive Reacts : TurnReviewDriver → Reaction → Prop where
  | skip {driver : TurnReviewDriver} : Reacts driver (driver, [])
  | prepare {driver next : TurnReviewDriver} {reaction : Reaction} (h : Prepares driver next)
      (hnext : Reacts next reaction) : Reacts driver reaction
  | pause {driver : TurnReviewDriver} {reaction : Reaction} (role : String)
      (h : Reacts driver reaction) : Reacts driver (reaction.1, .pauseRole role :: reaction.2)
  | fail {driver : TurnReviewDriver} (message : String)
    : Reacts driver (driver.reachVerdict (.failed message))
  | start {driver : TurnReviewDriver} (role : String)
    : Reacts driver ((driver.startRole role true).1, [(driver.startRole role true).2])
  | replace {driver : TurnReviewDriver} (role other : String)
    : Reacts driver
        ({ driver with startedRoles := (driver.startedRoles.remove role).insert other () },
          [.pauseRole role, .startRole other true])
  | prompt {driver : TurnReviewDriver} (role purpose : String) (prompt : ReviewPrompt)
    : Reacts driver
        ((driver.promptRole role purpose prompt).1, [(driver.promptRole role purpose prompt).2])
  | inject {driver : TurnReviewDriver} : Reacts driver driver.injectReports
  | settle {driver : TurnReviewDriver} (lane : ReviewLane) (state : RoleState)
      (outcome : LaneOutcome) (finalMessage : String)
    : Reacts driver (driver.settleLane lane state outcome finalMessage).injectReports
  | dispatch {driver : TurnReviewDriver} (requests : List ReviewSubagentRequest)
    : Reacts driver (driver.lanesDispatched requests)

theorem Prepares.trans (h : Prepares driver before) (hnext : Prepares before next)
    : Prepares driver next where
  seed := hnext.seed.trans h.seed
  deltas := hnext.deltas.trans h.deltas
  phase := by
    rcases hnext.phase with hphase | hactive
    . rw [hphase]
      exact h.phase
    . exact Or.inr hactive
  queued := hnext.queued.trans h.queued
  lanes := hnext.lanes.trans h.lanes
  launched := hnext.launched.trans h.launched
  started := hnext.started.trans h.started
  sequence := hnext.sequence.trans h.sequence
  awaited := fun role id hget => h.awaited role id (hnext.awaited role id hget)

theorem prepares_note (roles : Option (List RoleStatus)) (analysis : Analysis)
    (intent : Option SupplementalContext) (findings : Option String) (idle : Bool) (status : String)
    : Prepares driver
        { driver with
          phase := (roles.map .running).getD driver.phase
          analysis := analysis
          intent := intent
          pendingFindings := findings
          supervisorIdle := idle
          status := status } := by
  refine ⟨rfl, rfl, ?_, rfl, rfl, rfl, rfl, rfl, fun _ _ hget => hget⟩
  cases roles with
  | none => exact Or.inl rfl
  | some roles => exact Or.inr rfl

theorem prepares_answered (driver : TurnReviewDriver) (role : String)
    : Prepares driver { driver with awaited := driver.awaited.remove role } := by
  refine ⟨rfl, rfl, Or.inl rfl, rfl, rfl, rfl, rfl, rfl, ?_⟩
  intro other id hget
  rw [get?_remove] at hget
  split at hget
  . cases hget
  exact hget

theorem reacts_requestFailed (driver : TurnReviewDriver) (message : String)
    : Reacts driver (driver.requestFailed message) := by
  unfold requestFailed
  split
  . exact .skip
  . exact .fail message

theorem reacts_maybeStartSupervisor (driver : TurnReviewDriver)
    : Reacts driver driver.maybeStartSupervisor := by
  unfold maybeStartSupervisor
  split
  . exact .skip
  split
  . apply reacts_requestFailed
  . exact .prepare (prepares_note none _ _ _ _ _) (.start _)

theorem reacts_startValidation (driver : TurnReviewDriver)
    : Reacts driver driver.startValidation := by
  unfold startValidation
  split
  . exact .prepare (prepares_note none _ _ _ _ _) .skip
  . exact .prepare (prepares_note (some _) _ _ _ _ _) (reacts_requestFailed _ _)
  have hstatus : Prepares driver { driver with status := "starting the validator…" } :=
    prepares_note none _ _ _ _ _
  exact .prepare hstatus (.replace reviewerRole validatorRole)

theorem reacts_roleStarted (driver : TurnReviewDriver) (role : String)
    : Reacts driver (driver.roleStarted role) := by
  unfold roleStarted
  repeat' split
  all_goals first
    | exact .skip
    | exact .prepare (prepares_note (some _) _ _ _ _ _) (.prompt _ _ _)

theorem reacts_analysisCompleted (driver : TurnReviewDriver) (result : Except String String)
    : Reacts driver (driver.analysisCompleted result) := by
  have hanalysis : Prepares driver { driver with analysis := .ofResult result } :=
    prepares_note none _ _ _ _ _
  refine .prepare hanalysis ?_
  unfold analysisCompleted
  dsimp only
  split
  . split
    . exact .skip
    . apply reacts_startValidation
  . apply reacts_maybeStartSupervisor

theorem reacts_laneFailed (driver : TurnReviewDriver) (laneId reason : String)
    : Reacts driver (driver.laneFailed laneId reason) := by
  unfold laneFailed
  split
  . exact .skip
  split
  . exact .skip
  . exact .settle _ _ _ _

theorem roleTurnCompleted_cases (driver : TurnReviewDriver) (commandId answer : String)
    : Reacts driver (driver.roleTurnCompleted commandId answer)
      ∨ ∃ next verdict, Prepares driver next
        ∧ driver.roleTurnCompleted commandId answer = next.reachVerdict verdict := by
  unfold roleTurnCompleted
  split
  . exact Or.inl .skip
  rename_i role hrole
  have hanswered := prepares_answered driver role
  dsimp only
  split
  . unfold reviewerReported
    split
    . exact Or.inr ⟨_, _, hanswered.trans (prepares_note (some _) _ _ _ _ _), rfl⟩
    . exact Or.inl (.prepare (hanswered.trans (prepares_note (some _) _ _ _ _ _))
        (reacts_startValidation _))
  split
  . exact Or.inr ⟨_, _, hanswered.trans (prepares_note (some _) _ _ _ _ _), rfl⟩
  split
  . left
    unfold intentReported
    dsimp only
    split
    . exact .prepare (hanswered.trans (prepares_note (some _) _ _ _ _ _))
        (reacts_requestFailed _ _)
    . exact .pause _ (.prepare (hanswered.trans (prepares_note (some _) _ _ _ _ _))
        (reacts_maybeStartSupervisor _))
  split
  . unfold supervisorReported
    dsimp only
    split
    . exact Or.inr ⟨_, _, hanswered.trans (prepares_note (some _) _ _ _ _ _), rfl⟩
    . exact Or.inl (.prepare (hanswered.trans (prepares_note none _ _ _ _ _)) .inject)
  left
  unfold laneReported
  split
  . exact .prepare hanswered .skip
  . exact .pause _ (.prepare hanswered (.settle _ _ _ _))

theorem call_cases (driver : TurnReviewDriver) (call : ReviewCall)
    : Reacts driver (driver.call call)
      ∨ (∃ commandId answer next verdict, call = .roleTurnCompleted commandId answer
          ∧ Prepares driver next ∧ driver.call call = next.reachVerdict verdict)
      ∨ (∃ deltas, call = .deltaCaptured deltas) ∨ call.decides = true := by
  cases call with
  | deltaCaptured deltas => exact Or.inr (Or.inr (Or.inl ⟨deltas, rfl⟩))
  | roleStarted role => exact Or.inl (reacts_roleStarted driver role)
  | analysisCompleted result => exact Or.inl (reacts_analysisCompleted driver result)
  | roleTurnCompleted commandId answer =>
    apply (roleTurnCompleted_cases driver commandId answer).imp_right
    rintro ⟨next, verdict, hprepares, heq⟩
    exact Or.inl ⟨commandId, answer, next, verdict, rfl, hprepares, heq⟩
  | laneFailed laneId reason => exact Or.inl (reacts_laneFailed driver laneId reason)
  | lanesDispatched requests => exact Or.inl (.dispatch requests)
  | requestFailed message => exact Or.inl (reacts_requestFailed driver message)
  | forward | dismiss | cancel => exact Or.inr (Or.inr (Or.inr rfl))

structure Decided (driver : TurnReviewDriver) (reaction : Reaction) : Prop where
  unresolved : driver.finished = false
  finished : reaction.1.finished = true
  cancelled : driver.phase.settled = false → reaction.1.phase = .resolved .cancelled
  seed : reaction.1.seed = driver.seed
  deltas : reaction.1.deltas = driver.deltas
  reaps : driver.phase.settled = true ∧ reaction.1.awaited = driver.awaited
      ∧ reaction.1.outstandingLanes = driver.outstandingLanes
      ∧ reaction.1.startedRoles = driver.startedRoles
    ∨ reaction.1.Reaped
      ∧ ∀ role, driver.startedRoles.contains role = true → .pauseRole role ∈ reaction.2
  quiet : ∀ request ∈ reaction.2, request.putsToWork = false
  closes : .close ∈ reaction.2

theorem Decided.settled (h : Decided driver reaction) : reaction.1.phase.settled = true := by
  obtain ⟨resolution, hphase⟩ := (finished_iff _).mp h.finished
  rw [hphase]
  rfl

theorem Decided.reaped (h : Decided driver reaction)
    (hsettled : driver.phase.settled = true → driver.Reaped) : reaction.1.Reaped := by
  rcases h.reaps with ⟨hphase, hawaited, houtstanding, hstarted⟩ | ⟨hreaped, _⟩
  . have hreaped := hsettled hphase
    exact ⟨hawaited.trans hreaped.awaited, houtstanding.trans hreaped.outstanding,
      hstarted.trans hreaped.started⟩
  . exact hreaped

theorem decided_or (driver : TurnReviewDriver) {call : ReviewCall} (hdecides : call.decides = true)
    : driver.call call = (driver, []) ∨ Decided driver (driver.call call) := by
  have hresolve (resolution : Resolution) := resolve_not_putsToWork driver resolution
  cases call with
  | forward =>
    simp only [call, forward]
    split
    next hphase =>
      right
      have hsettled : driver.phase.settled = true := by
        rw [hphase]
        rfl
      refine ⟨by simp [finished, hphase], rfl, by simp [hsettled], rfl, rfl,
        Or.inl ⟨hsettled, rfl, rfl, rfl⟩, ?_, by simp [resolve]⟩
      simp only [List.cons_append, List.nil_append, List.forall_mem_cons]
      exact ⟨rfl, rfl, hresolve .forwarded⟩
    . exact Or.inl rfl
  | dismiss =>
    simp only [call, dismiss]
    split
    next hphase =>
      right
      have hsettled : driver.phase.settled = true := by
        rw [hphase]
        rfl
      exact ⟨by simp [finished, hphase], rfl, by simp [hsettled], rfl, rfl,
        Or.inl ⟨hsettled, rfl, rfl, rfl⟩, List.forall_mem_singleton.mpr rfl, by simp⟩
    next hphase =>
      right
      have hsettled : driver.phase.settled = true := by
        rw [hphase]
        rfl
      exact ⟨by simp [finished, hphase], rfl, by simp [hsettled], rfl, rfl,
        Or.inl ⟨hsettled, rfl, rfl, rfl⟩, hresolve .dismissed, by simp [resolve]⟩
    . exact Or.inl rfl
  | cancel =>
    simp only [call, cancel]
    split
    . exact Or.inl rfl
    rename_i hfinished
    right
    refine ⟨by simpa using hfinished, rfl, fun _ => rfl, rfl, rfl, Or.inr ⟨⟨rfl, rfl, rfl⟩, ?_⟩,
      ?_, by simp⟩
    . intro role hstarted
      apply List.mem_append_left
      apply List.mem_map_of_mem
      apply mem_keys_iff.mpr hstarted
    . rw [List.forall_mem_append]
      exact ⟨pauses_not_putsToWork _, List.forall_mem_singleton.mpr rfl⟩
  | _ => cases hdecides

/-!
### Started roles
-/

def Accounts (driver : TurnReviewDriver) (reaction : Reaction) : Prop :=
  ∀ role,
    Awake role reaction.2
        ∨ driver.startedRoles.contains role = true ∧ .pauseRole role ∉ reaction.2 →
      reaction.1.startedRoles.contains role = true

theorem Accounts.of_same (hstarted : reaction.1.startedRoles = driver.startedRoles)
    (hrequests : ∀ role, ¬Awake role reaction.2) : Accounts driver reaction := by
  intro role h
  rw [hstarted]
  rcases h with h | h
  . exact absurd h (hrequests role)
  . apply h.1

theorem Accounts.of_nil (hstarted : next.startedRoles = driver.startedRoles)
    : Accounts driver (next, []) := by
  apply Accounts.of_same hstarted
  simp [Awake]

theorem Accounts.of_frame (h : Accounts before reaction)
    (hstarted : before.startedRoles = driver.startedRoles) : Accounts driver reaction := by
  intro role
  rw [← hstarted]
  apply h

theorem Accounts.cons {request : ReviewRequest}
    (hrequest : ∀ role fresh, request ≠ .startRole role fresh) (h : Accounts driver (next, requests))
    : Accounts driver (next, request :: requests) := by
  intro role hrole
  apply h role
  simp only [Awake, List.mem_cons, not_or] at hrole
  rcases hrole with (hrole | ⟨⟨_, hrole⟩, _⟩) | ⟨hstarted, _, hrole⟩
  . left
    exact hrole
  . exact absurd hrole (hrequest _ _)
  . right
    exact ⟨hstarted, hrole⟩

theorem Accounts.start
    (h : Accounts { driver with startedRoles := driver.startedRoles.insert role () }
      (next, requests)) : Accounts driver (next, .startRole role fresh :: requests) := by
  intro other hother
  apply h other
  simp only [Awake, List.mem_cons, not_or, contains_insert, Bool.or_eq_true,
    decide_eq_true_eq, ReviewRequest.startRole.injEq] at hother ⊢
  rcases hother with (hother | ⟨⟨_, heq, _⟩, hpause⟩) | ⟨hstarted, _, hpause⟩
  . left
    exact hother
  . right
    exact ⟨Or.inl heq.symm, hpause⟩
  . right
    exact ⟨Or.inr hstarted, hpause⟩

theorem Accounts.prompt {role commandId : String} {prompt : ReviewPrompt}
    (hstarted : next.startedRoles = driver.startedRoles)
    : Accounts driver (next, [.promptRole role commandId prompt]) := by
  apply Accounts.of_same hstarted
  simp [Awake]

variable (driver)

theorem accounts_reachVerdict (verdict : ReviewVerdict)
    : Accounts driver (driver.reachVerdict verdict) := by
  rintro role (h | ⟨hstarted, hpause⟩)
  . exact absurd h (not_awake_of_quiet (reachVerdict_not_putsToWork _ _))
  . exact absurd (pauseRole_mem_reachVerdict driver verdict hstarted) hpause

theorem accounts_injectReports : Accounts driver driver.injectReports := by
  unfold injectReports
  split
  . apply Accounts.of_nil rfl
  . apply Accounts.prompt rfl

theorem accounts_deltaCaptured (deltas : List RepoDelta)
    : Accounts driver (driver.deltaCaptured deltas) := by
  have hstart : ∀ (next : TurnReviewDriver) (role : String) repositories,
      next.startedRoles = driver.startedRoles →
        Accounts driver ((next.startRole role true).1,
          [.analyzeDelta repositories, (next.startRole role true).2]) := by
    intro next role repositories hsame
    apply Accounts.cons (by simp)
    apply Accounts.start
    apply Accounts.of_nil
    simp only [startRole, hsame]
  unfold deltaCaptured
  split
  . apply Accounts.of_nil rfl
  dsimp only
  split
  . apply Accounts.of_same rfl
    simp [Awake]
  split
  . apply hstart _ _ _ rfl
  split
  . apply hstart _ _ _ rfl
  . apply hstart _ _ _ rfl

variable {driver}

theorem accounts_launches (h : Launches driver reaction) : Accounts driver reaction := by
  intro role hrole
  rw [h.started]
  rcases hrole with hawake | ⟨hstarted, _⟩
  . left
    by_contra hnone
    refine not_awake_of_forall ?_ hawake
    intro request hmem fresh heq
    obtain ⟨lane, hlane, _⟩ := h.requests request hmem
    rw [hlane, ReviewRequest.startRole.injEq] at heq
    exact hnone (heq.1 ▸ hlane ▸ hmem)
  . exact Or.inr hstarted

theorem Reacts.accounts (h : Reacts driver reaction) : Accounts driver reaction := by
  induction h with
  | skip => apply Accounts.of_nil rfl
  | prepare h _ ih => exact ih.of_frame h.started
  | pause role _ ih => exact ih.cons (by simp)
  | fail message => apply accounts_reachVerdict
  | start role =>
    apply Accounts.start
    apply Accounts.of_nil rfl
  | replace role other =>
    intro role' h
    simp only [Awake, List.mem_cons, not_or, contains_insert, contains_remove,
      Bool.or_eq_true, Bool.and_eq_true, decide_eq_true_eq] at h ⊢
    rcases h with (h | h) | ⟨hstarted, hne, _⟩
    . simp only [false_or, ReviewRequest.startRole.injEq] at h
      left
      exact h.1.choose_spec.1.symm
    . simp at h
    right
    constructor
    . intro heq
      apply hne
      rw [heq]
    . exact hstarted
  | prompt role purpose prompt => apply Accounts.prompt rfl
  | inject => apply accounts_injectReports
  | settle lane state outcome finalMessage =>
    exact (accounts_injectReports _).of_frame (settles_settleLane _ _ _ _ _).started
  | dispatch requests => exact accounts_launches (launches_lanesDispatched _ _)

theorem Decided.accounts (h : Decided driver reaction) : Accounts driver reaction := by
  rcases h.reaps with ⟨_, _, _, hstarted⟩ | ⟨_, hpaused⟩
  . exact Accounts.of_same hstarted (fun _ => not_awake_of_quiet h.quiet)
  rintro role (hawake | ⟨hstarted, hpause⟩)
  . exact absurd hawake (not_awake_of_quiet h.quiet)
  . exact absurd (hpaused role hstarted) hpause

theorem accounts_call (driver : TurnReviewDriver) (call : ReviewCall)
    : Accounts driver (driver.call call) := by
  rcases call_cases driver call with h | ⟨_, _, next, verdict, _, hprepares, heq⟩ | ⟨deltas, rfl⟩ |
    hdecides
  . exact h.accounts
  . rw [heq]
    exact (accounts_reachVerdict next verdict).of_frame hprepares.started
  . apply accounts_deltaCaptured
  . rcases decided_or driver hdecides with hsame | hdecided
    . rw [hsame]
      apply Accounts.of_nil rfl
    . exact hdecided.accounts

end TurnReviewDriver

end Hel
