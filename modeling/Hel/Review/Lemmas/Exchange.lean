import Hel.Review.Finality

/-!
This module contains the conversation between a review and the results of its own requests.
-/

namespace Hel

open BTreeMap TurnReviewPhase

variable {role : String} {call : ReviewCall} {deltas : List RepoDelta}

/-- The unanswered requests of a review; `dispatching` once the supervisor may ask for lanes. -/
structure Outstanding where
  capture : Bool
  analysis : Bool
  starts : List String
  dispatching : Bool
  deriving DecidableEq

namespace Outstanding

def startedRole? : ReviewRequest → Option String
  | .startRole role _ => some role
  | _ => none

def isCapture : ReviewRequest → Bool
  | .captureDelta _ => true
  | _ => false

def isAnalyze : ReviewRequest → Bool
  | .analyzeDelta _ => true
  | _ => false

def promptsSupervisor : ReviewRequest → Bool
  | .promptRole role _ _ => role = supervisorRole
  | _ => false

def note (outstanding : Outstanding) (requests : List ReviewRequest) : Outstanding where
  capture := outstanding.capture || requests.any isCapture
  analysis := outstanding.analysis || requests.any isAnalyze
  starts := requests.filterMap startedRole? ++ outstanding.starts
  dispatching := outstanding.dispatching || requests.any promptsSupervisor

end Outstanding

/--
A call that answers an outstanding request, and what is outstanding after it. What fails fails the
review, a lane that could not be started only itself.
-/
inductive Answers (outstanding : Outstanding) : ReviewCall → Outstanding → Prop where
  | captured (deltas : List RepoDelta) (h : outstanding.capture = true)
    : Answers outstanding (.deltaCaptured deltas) { outstanding with capture := false }
  | notCaptured (message : String) (h : outstanding.capture = true)
    : Answers outstanding (.requestFailed message) { outstanding with capture := false }
  | analyzed (result : Except String String) (h : outstanding.analysis = true)
    : Answers outstanding (.analysisCompleted result) { outstanding with analysis := false }
  | started (role : String) (h : role ∈ outstanding.starts)
    : Answers outstanding (.roleStarted role)
        { outstanding with starts := outstanding.starts.erase role }
  | notStarted (role message : String) (h : role ∈ outstanding.starts)
      (hlane : laneById role = none)
    : Answers outstanding (.requestFailed message)
        { outstanding with starts := outstanding.starts.erase role }
  | laneNotStarted (role reason : String) (h : role ∈ outstanding.starts)
      (hlane : (laneById role).isSome = true)
    : Answers outstanding (.laneFailed role reason)
        { outstanding with starts := outstanding.starts.erase role }
  | notPrompted (message : String) : Answers outstanding (.requestFailed message) outstanding
  | turnCompleted (commandId answer : String)
    : Answers outstanding (.roleTurnCompleted commandId answer) outstanding
  | dispatched (requests : List ReviewSubagentRequest) (h : outstanding.dispatching = true)
    : Answers outstanding (.lanesDispatched requests) outstanding
  | decided (call : ReviewCall) (h : call.decides = true) : Answers outstanding call outstanding

structure Exchange where
  driver : TurnReviewDriver
  outstanding : Outstanding

namespace Exchange

def start (seed : TurnReviewSeed) : Exchange where
  driver := (TurnReviewDriver.start seed).1
  outstanding :=
    { capture := false, analysis := false, starts := [], dispatching := false : Outstanding }.note
      (TurnReviewDriver.start seed).2

def after (exchange : Exchange) (call : ReviewCall) (outstanding : Outstanding) : Exchange where
  driver := (exchange.driver.call call).1
  outstanding := outstanding.note (exchange.driver.call call).2

inductive Reaches (Meets : TurnReviewDriver → ReviewCall → Prop) (seed : TurnReviewSeed)
    : Exchange → Prop where
  | start : Reaches Meets seed (start seed)
  | call {exchange : Exchange} {call : ReviewCall} {outstanding : Outstanding}
      (h : Reaches Meets seed exchange) (hanswers : Answers exchange.outstanding call outstanding)
      (hmeets : Meets exchange.driver call)
    : Reaches Meets seed (exchange.after call outstanding)

/--
Something is still on its way: the capture, an analysis whose completion makes a request, the start
of a role or the answer to a prompt.
-/
def Waits (exchange : Exchange) : Prop :=
  exchange.outstanding.capture = true
    ∨ (exchange.outstanding.analysis = true
        ∧ ∀ result, (exchange.driver.analysisCompleted result).2 ≠ [])
    ∨ exchange.outstanding.starts ≠ []
    ∨ exchange.driver.awaited.entries ≠ []

end Exchange

/--
The start of the supervisor is reported once the analysis its prompt embeds is there, and no late
result revives a settled review.
-/
def TurnReviewDriver.timely (driver : TurnReviewDriver) (call : ReviewCall) : Bool :=
  !driver.revivedBy call
    && (match call with
      | .roleStarted role =>
        role ≠ supervisorRole || driver.changedFunctions.isSome || driver.phase.settled
      | _ => true)

/-!
### Stages
-/

namespace Exchange

structure Capturing (exchange : Exchange) : Prop where
  phase : exchange.driver.phase = .capturingDelta
  analysis : exchange.driver.analysis = .running
  intent : exchange.driver.intent = none
  findings : exchange.driver.pendingFindings = none
  awaited : exchange.driver.awaited = empty
  lanes : exchange.driver.outstandingLanes = empty
  started : exchange.driver.startedRoles = empty
  waits : exchange.outstanding
    = { capture := true, analysis := false, starts := [], dispatching := false }

structure Quick (exchange : Exchange) : Prop where
  tier : exchange.driver.seed.tier = .quick
  active : exchange.driver.phase.active = true
  capture : exchange.outstanding.capture = false
  analysis : exchange.driver.analysis = .running ↔ exchange.outstanding.analysis = true
  silent : exchange.outstanding.dispatching = false
  starts : ∀ role ∈ exchange.outstanding.starts, role = reviewerRole ∨ role = validatorRole
  awaits : ∀ role, exchange.driver.awaited.contains role = true →
    role = reviewerRole ∨ role = validatorRole
  reviewing : exchange.driver.pendingFindings = none →
    reviewerRole ∈ exchange.outstanding.starts
      ∨ exchange.driver.awaited.contains reviewerRole = true
  reviewer : exchange.driver.pendingFindings = none ∨ exchange.driver.analysis = .running →
    exchange.driver.startedRoles.contains reviewerRole = true
  validating : exchange.driver.pendingFindings ≠ none → exchange.driver.analysis ≠ .running →
    validatorRole ∈ exchange.outstanding.starts
      ∨ exchange.driver.awaited.contains validatorRole = true
  ready : validatorRole ∈ exchange.outstanding.starts →
    exchange.driver.pendingFindings ≠ none ∧ exchange.driver.analysis ≠ .running

structure Supervised (exchange : Exchange) : Prop where
  tier : exchange.driver.seed.tier = .extended
  active : exchange.driver.phase.active = true
  capture : exchange.outstanding.capture = false
  analysis : exchange.driver.analysis = .running ↔ exchange.outstanding.analysis = true
  starts : ∀ role ∈ exchange.outstanding.starts,
    role = intentRole ∨ role = supervisorRole
      ∨ exchange.outstanding.dispatching = true ∧ (laneById role).isSome = true
  awaits : ∀ role, exchange.driver.awaited.contains role = true →
    role = intentRole
      ∨ exchange.outstanding.dispatching = true
        ∧ (role = supervisorRole ∨ (laneById role).isSome = true)
  analysing : exchange.driver.intent = none →
    intentRole ∈ exchange.outstanding.starts ∨ exchange.driver.awaited.contains intentRole = true
  analyst : exchange.driver.startedRoles.contains supervisorRole = false →
    exchange.driver.startedRoles.contains intentRole = true
  waiting : exchange.driver.intent ≠ none →
    exchange.driver.startedRoles.contains supervisorRole = false →
      exchange.driver.analysis = .running
  intent : exchange.driver.startedRoles.contains supervisorRole = true →
    exchange.driver.intent ≠ none
  starting : exchange.driver.startedRoles.contains supervisorRole = true →
    exchange.outstanding.dispatching = false → supervisorRole ∈ exchange.outstanding.starts
  supervising : exchange.outstanding.dispatching = true →
    exchange.driver.startedRoles.contains supervisorRole = true
  busy : exchange.outstanding.dispatching = true → exchange.driver.supervisorIdle = false →
    exchange.driver.awaited.contains supervisorRole = true
  idle : exchange.outstanding.dispatching = true → exchange.driver.supervisorIdle = true →
    exchange.driver.queuedReports = [] →
      ∃ lane, exchange.driver.outstandingLanes.contains lane = true
  lanes : ∀ lane, exchange.driver.outstandingLanes.contains lane = true →
    (laneById lane).isSome = true
      ∧ (lane ∈ exchange.outstanding.starts ∨ exchange.driver.awaited.contains lane = true)

structure Extended (exchange : Exchange) : Prop extends Supervised exchange where
  delivered : exchange.outstanding.dispatching = true → exchange.driver.supervisorIdle = true →
    exchange.driver.queuedReports = []

inductive Stage (exchange : Exchange) : Prop where
  | capturing (h : exchange.Capturing)
  | quick (h : exchange.Quick)
  | extended (h : exchange.Extended)
  | settled (h : exchange.driver.phase.settled = true)

variable {driver : TurnReviewDriver} {exchange : Exchange}

theorem awaited_ne_nil (h : driver.awaited.contains role = true) : driver.awaited.entries ≠ [] := by
  intro hnil
  simp [contains, get?, hnil] at h

theorem waits_of_due
    (h : role ∈ exchange.outstanding.starts ∨ exchange.driver.awaited.contains role = true)
    : exchange.Waits :=
  Or.inr (Or.inr (h.imp List.ne_nil_of_mem awaited_ne_nil))

theorem reachVerdict_requests_ne_nil (h : driver.startedRoles.contains role = true)
    (verdict : ReviewVerdict) : (driver.reachVerdict verdict).2 ≠ [] := by
  apply List.ne_nil_of_mem
  apply TurnReviewDriver.pauseRole_mem_reachVerdict driver verdict h

theorem Quick.waits (h : exchange.Quick) : exchange.Waits := by
  by_cases hfindings : exchange.driver.pendingFindings = none
  . exact waits_of_due (h.reviewing hfindings)
  by_cases hrunning : exchange.driver.analysis = .running
  . right
    left
    refine ⟨h.analysis.mp hrunning, ?_⟩
    intro result
    have hsome : exchange.driver.pendingFindings.isNone = false := by
      simpa [Option.isSome_iff_ne_none] using hfindings
    simp only [TurnReviewDriver.analysisCompleted, h.tier, hsome, Bool.false_eq_true, if_false]
    cases result with
    | ok packet => simp [TurnReviewDriver.startValidation, Analysis.ofResult]
    | error reason =>
    simp only [TurnReviewDriver.startValidation, Analysis.ofResult]
    rw [TurnReviewDriver.requestFailed_of_not_finished rfl]
    apply reachVerdict_requests_ne_nil
    exact h.reviewer (Or.inr hrunning)
  . exact waits_of_due (h.validating hfindings hrunning)

theorem Extended.waits (h : exchange.Extended) : exchange.Waits := by
  by_cases hintent : exchange.driver.intent = none
  . exact waits_of_due (h.analysing hintent)
  cases hsupervisor : exchange.driver.startedRoles.contains supervisorRole with
  | false =>
    right
    left
    have hrunning := h.waiting hintent hsupervisor
    refine ⟨h.analysis.mp hrunning, ?_⟩
    intro result
    have hfinished := TurnReviewDriver.finished_eq_false_of_active h.active
    simp only [TurnReviewDriver.analysisCompleted, h.tier]
    cases result with
    | ok packet =>
      simp [Analysis.ofResult,
        TurnReviewDriver.maybeStartSupervisor_ready hfinished hintent hsupervisor]
    | error reason =>
    rw [Analysis.ofResult,
      TurnReviewDriver.maybeStartSupervisor_failed hfinished hintent hsupervisor]
    apply reachVerdict_requests_ne_nil
    exact h.analyst hsupervisor
  | true =>
    cases hdispatching : exchange.outstanding.dispatching with
    | false => exact waits_of_due (Or.inl (h.starting hsupervisor hdispatching))
    | true =>
    cases hidle : exchange.driver.supervisorIdle with
    | false => exact waits_of_due (Or.inr (h.busy hdispatching hidle))
    | true =>
      obtain ⟨lane, hlane⟩ := h.idle hdispatching hidle (h.delivered hdispatching hidle)
      exact waits_of_due (h.lanes lane hlane).2

theorem Stage.waits (h : exchange.Stage) (hphase : exchange.driver.phase.settled = false)
    : exchange.Waits := by
  cases h with
  | capturing h =>
    left
    rw [h.waits]
  | quick h | extended h => apply h.waits
  | settled h => simp [hphase] at h

/-!
### Steps
-/

open TurnReviewDriver Outstanding

@[simp]
theorem note_nil (outstanding : Outstanding) : outstanding.note [] = outstanding := by
  simp [note]

theorem note_prompt (outstanding : Outstanding) (role commandId : String) (prompt : ReviewPrompt)
    : outstanding.note [.promptRole role commandId prompt]
        = { outstanding with
            dispatching := outstanding.dispatching || decide (role = supervisorRole) } := by
  simp [note, isCapture, isAnalyze, startedRole?, promptsSupervisor]

theorem settled_requestFailed (h : driver.finished = false) (message : String)
    : (driver.requestFailed message).1.phase.settled = true := by
  rw [requestFailed_of_not_finished h]
  apply reachVerdict_settled

theorem settled_call (htidy : driver.Tidy) (hsettled : driver.phase.settled = true)
    (hquiet : driver.revivedBy call = false) : (driver.call call).1.phase.settled = true := by
  have hkeeps := (keeps_iff htidy call).mpr hquiet
  cases hphase : driver.phase with
  | capturingDelta | launchingReviewer | running roles =>
    simp [hphase, settled] at hsettled
  | resolved resolution =>
    rw [hkeeps.resolved resolution hphase]
    rfl
  | verdict verdict =>
  cases hdecides : call.decides with
  | false =>
    rw [hkeeps.verdict verdict hphase hdecides]
    rfl
  | true =>
  rcases decided_or driver hdecides with hsame | hdecided
  . rw [hsame]
    exact hsettled
  . exact hdecided.settled

theorem Stage.decided (h : exchange.Stage) (hdecides : call.decides = true)
    : (exchange.after call exchange.outstanding).Stage := by
  rcases decided_or exchange.driver hdecides with hsame | hdecided
  . simp only [after, hsame, note_nil]
    exact h
  . apply Stage.settled hdecided.settled

theorem Stage.unawaited (h : exchange.Stage) {commandId : String} (answer : String)
    (hawaited : exchange.driver.awaitedRole commandId = none)
    : (exchange.after (.roleTurnCompleted commandId answer) exchange.outstanding).Stage := by
  simp only [after, call, roleTurnCompleted, hawaited, note_nil]
  exact h

theorem settled_eq_false_of_active {phase : TurnReviewPhase} (h : phase.active = true)
    : phase.settled = false := by
  cases phase <;> simp_all [active, settled]

theorem quick_deltaCaptured (h : exchange.Capturing) (htier : exchange.driver.seed.tier = .quick)
    (hchanges : hasChanges deltas = true)
    : (exchange.after (.deltaCaptured deltas) { exchange.outstanding with capture := false }).Quick := by
  simp only [after, call, deltaCaptured, h.phase, ne_eq, not_true_eq_false, if_false, hchanges,
    Bool.not_true, Bool.false_eq_true, htier, h.waits]
  constructor <;> simp [startRole, note, isCapture, isAnalyze, startedRole?, promptsSupervisor,
    h.analysis, h.findings, h.awaited, h.started, contains_insert, htier,
    active, reviewerRole, validatorRole]

theorem extended_deltaCaptured (h : exchange.Capturing)
    (htier : exchange.driver.seed.tier = .extended) (hchanges : hasChanges deltas = true)
    : (exchange.after (.deltaCaptured deltas)
        { exchange.outstanding with capture := false }).Extended := by
  simp only [after, call, deltaCaptured, h.phase, ne_eq, not_true_eq_false, if_false, hchanges,
    Bool.not_true, Bool.false_eq_true, htier, h.waits]
  split
  all_goals
    constructor
    . constructor <;> simp [startRole, note, isCapture, isAnalyze, startedRole?,
        promptsSupervisor, h.analysis, h.intent, h.awaited, h.started, h.lanes,
        contains_insert, htier, active, intentRole, supervisorRole]
    . simp [note, promptsSupervisor, startRole]

theorem Capturing.step (h : exchange.Capturing) {outstanding : Outstanding}
    (hanswers : Answers exchange.outstanding call outstanding)
    : (exchange.after call outstanding).Stage := by
  have hfinished : exchange.driver.finished = false := by simp [finished, h.phase]
  cases hanswers with
  | captured deltas hcapture =>
    by_cases hchanges : hasChanges deltas = true
    . cases htier : exchange.driver.seed.tier with
      | quick => apply Stage.quick (quick_deltaCaptured h htier hchanges)
      | extended => apply Stage.extended (extended_deltaCaptured h htier hchanges)
    apply Stage.settled
    simp only [Bool.not_eq_true] at hchanges
    simp [after, call, deltaCaptured, h.phase, hchanges, settled]
  | notCaptured message hcapture | notPrompted message =>
    apply Stage.settled (settled_requestFailed hfinished message)
  | analyzed result hanalysis => simp [h.waits] at hanalysis
  | started role hstart | notStarted role message hstart hlane
  | laneNotStarted role reason hstart hlane => simp [h.waits] at hstart
  | turnCompleted commandId answer =>
    apply Stage.unawaited (.capturing h)
    simp [awaitedRole, h.awaited, empty]
  | dispatched requests hdispatching => simp [h.waits] at hdispatching
  | decided _ hdecides => exact Stage.decided (.capturing h) hdecides

variable {other : String}

theorem mem_erase_or {roles : List String} (h : other ∈ roles) (role : String)
    : other = role ∨ other ∈ roles.erase role := by
  apply (Classical.em (other = role)).imp_right
  intro hne
  exact (List.mem_erase_of_ne hne).mpr h

theorem awaitedRole_contains {commandId role : String}
    (h : driver.awaitedRole commandId = some role) : driver.awaited.contains role = true := by
  unfold awaitedRole at h
  rw [Option.map_eq_some_iff] at h
  obtain ⟨entry, hfind, heq⟩ := h
  rw [← mem_keys_iff, ← heq]
  apply List.mem_map_of_mem
  apply List.mem_of_find?_eq_some hfind

theorem Prompts.due {reaction : Reaction} {starts starts' : List String}
    (hprompts : Prompts driver role reaction)
    (hkept : ∀ other ∈ starts, other = role ∨ other ∈ starts')
    (h : other ∈ starts ∨ driver.awaited.contains other = true)
    : other ∈ starts' ∨ reaction.1.awaited.contains other = true := by
  simp only [hprompts.awaited, Bool.or_eq_true, decide_eq_true_eq]
  rcases h with hstart | hawaited
  . exact (hkept other hstart).symm.imp_right Or.inl
  . exact Or.inr (Or.inr hawaited)

theorem Quick.prompted (h : exchange.Quick) (hrole : role = reviewerRole ∨ role = validatorRole)
    {reaction : Reaction} (hprompts : Prompts exchange.driver role reaction)
    (hphase : reaction.1.phase.active = true)
    : Quick
        { driver := reaction.1
          outstanding :=
            { exchange.outstanding with starts := exchange.outstanding.starts.erase role }.note
              reaction.2 } := by
  obtain ⟨commandId, prompt, hrequests⟩ := hprompts.requests
  have hne : role ≠ supervisorRole := by
    rcases hrole with rfl | rfl <;> decide
  have hkept : ∀ other ∈ exchange.outstanding.starts,
      other = role ∨ other ∈ exchange.outstanding.starts.erase role :=
    fun other hmem => mem_erase_or hmem role
  rw [hrequests, note_prompt]
  constructor
  . exact hprompts.seed ▸ h.tier
  . exact hphase
  . exact h.capture
  . simpa [hprompts.analysis] using h.analysis
  . simpa [hne] using h.silent
  . intro other hmem
    apply h.starts other (List.mem_of_mem_erase hmem)
  . intro other hmem
    simp only [hprompts.awaited, Bool.or_eq_true, decide_eq_true_eq] at hmem
    rcases hmem with rfl | hmem
    . exact hrole
    . apply h.awaits other hmem
  . intro hfindings
    exact Prompts.due hprompts hkept (h.reviewing (hprompts.findings ▸ hfindings))
  . intro hcase
    rw [hprompts.findings, hprompts.analysis] at hcase
    simp only [hprompts.started]
    apply h.reviewer hcase
  . intro hfindings hanalysis
    exact Prompts.due hprompts hkept
      (h.validating (hprompts.findings ▸ hfindings) (hprompts.analysis ▸ hanalysis))
  . intro hstart
    simp only [hprompts.findings, hprompts.analysis]
    apply h.ready (List.mem_of_mem_erase hstart)

theorem Quick.started (h : exchange.Quick) (hstart : role ∈ exchange.outstanding.starts)
    : (exchange.after (.roleStarted role)
        { exchange.outstanding with starts := exchange.outstanding.starts.erase role }).Quick := by
  have hrole := h.starts role hstart
  have hfinished := finished_eq_false_of_active h.active
  cases hanswers : exchange.driver.answersStart role with
  | true =>
    have hprompts := roleStarted_prompts hanswers
    exact h.prompted hrole hprompts.1 hprompts.2.1
  | false =>
  have hsame : exchange.driver.call (.roleStarted role) = (exchange.driver, []) :=
    roleStarted_ignored hanswers
  have hreviewer : role = reviewerRole
      ∧ exchange.driver.awaited.contains reviewerRole = true := by
    rcases hrole with rfl | rfl
    . simp [answersStart, hfinished, h.active] at hanswers
      exact ⟨rfl, hanswers.1.1.1⟩
    have hready := h.ready hstart
    have hchanged : exchange.driver.changedFunctions.isSome = true := by
      unfold changedFunctions
      cases hanalysis : exchange.driver.analysis with
      | running => exact absurd hanalysis hready.2
      | ready packet | failed reason => rfl
    have hfindings : exchange.driver.pendingFindings.isSome = true :=
      Option.isSome_iff_ne_none.mpr hready.1
    simp [answersStart, hfinished, hfindings, hchanged] at hanswers
  simp only [after, hsame, note_nil]
  refine { h with starts := ?_, reviewing := ?_, validating := ?_, ready := ?_ }
  . intro other hmem
    apply h.starts other (List.mem_of_mem_erase hmem)
  . intro _
    exact Or.inr hreviewer.2
  . intro hfindings hanalysis
    apply (h.validating hfindings hanalysis).imp_left
    apply (List.mem_erase_of_ne _).mpr
    rw [hreviewer.1]
    decide
  . intro hmem
    apply h.ready (List.mem_of_mem_erase hmem)

theorem ofResult_ne_running (result : Except String String)
    : Analysis.ofResult result ≠ .running := by
  cases result <;> simp [Analysis.ofResult]

theorem Quick.validatorStarted (h : exchange.Quick) {next : TurnReviewDriver} {packet : String}
    (hseed : next.seed = exchange.driver.seed) (hactive : next.phase.active = true)
    (hfindings : next.pendingFindings ≠ none) (hready : next.analysis = .ready packet)
    (hawaits : ∀ role, next.awaited.contains role = true →
      exchange.driver.awaited.contains role = true)
    : Quick
        { driver := next
          outstanding := { exchange.outstanding with analysis := false }.note
            [.pauseRole reviewerRole, .startRole validatorRole true] } := by
  constructor
  . exact hseed ▸ h.tier
  . exact hactive
  . simp [note, isCapture, h.capture]
  . simp [note, isAnalyze, hready]
  . simp [note, promptsSupervisor, h.silent]
  . intro role hmem
    simp only [note, List.filterMap_cons, startedRole?, List.filterMap_nil, List.cons_append,
      List.nil_append, List.mem_cons] at hmem
    rcases hmem with heq | hmem
    . right
      exact heq
    . apply h.starts role hmem
  . intro role hmem
    apply h.awaits role (hawaits role hmem)
  . intro hnone
    exact absurd hnone hfindings
  . intro hcase
    simp [hfindings, hready] at hcase
  . intro _ _
    left
    simp [note, startedRole?]
  . intro _
    exact ⟨hfindings, by simp [hready]⟩

theorem Quick.analyzed (h : exchange.Quick) (result : Except String String)
    : (exchange.after (.analysisCompleted result)
        { exchange.outstanding with analysis := false }).Stage := by
  by_cases hfindings : exchange.driver.pendingFindings = none
  . have hcall : exchange.driver.call (.analysisCompleted result)
        = ({ exchange.driver with analysis := .ofResult result }, []) := by
      simp [call, analysisCompleted, h.tier, hfindings]
    apply Stage.quick
    simp only [after, hcall, note_nil]
    refine { h with analysis := ?_, reviewer := ?_, validating := ?_, ready := ?_ }
    . simp [ofResult_ne_running]
    . intro _
      apply h.reviewer (Or.inl hfindings)
    . intro hsome
      exact absurd hfindings hsome
    . intro hstart
      exact absurd hfindings (h.ready hstart).1
  . have hcall : exchange.driver.call (.analysisCompleted result)
        = { exchange.driver with analysis := .ofResult result }.startValidation := by
      simp [call, analysisCompleted, h.tier, hfindings]
    cases result with
    | error reason =>
      apply Stage.settled
      simp only [after, hcall, startValidation, Analysis.ofResult]
      apply settled_requestFailed rfl
    | ok packet =>
      apply Stage.quick
      simp only [after, hcall, startValidation, Analysis.ofResult, startRole]
      exact h.validatorStarted rfl h.active hfindings rfl (fun _ hmem => hmem)

theorem outstanding_of_analysed (outstanding : Outstanding) (h : outstanding.analysis = false)
    : { outstanding with analysis := false } = outstanding := by
  rw [← h]

theorem contains_remove_of_contains {awaited : BTreeMap String String} {role : String}
    (h : (awaited.remove role).contains other = true) : awaited.contains other = true := by
  rw [contains_remove] at h
  simp only [Bool.and_eq_true] at h
  exact h.2

theorem Quick.turnCompleted (h : exchange.Quick) (commandId answer : String)
    : (exchange.after (.roleTurnCompleted commandId answer) exchange.outstanding).Stage := by
  cases hawaited : exchange.driver.awaitedRole commandId with
  | none => exact Stage.unawaited (.quick h) answer hawaited
  | some role =>
  rcases h.awaits role (awaitedRole_contains hawaited) with rfl | rfl
  . simp only [after, call, roleTurnCompleted, hawaited, if_true, reviewerReported]
    split
    . apply Stage.settled
      apply reachVerdict_settled
    cases hanalysis : exchange.driver.analysis with
    | failed reason =>
      apply Stage.settled
      simp only [startValidation, markRole]
      apply settled_requestFailed rfl
    | running =>
      apply Stage.quick
      simp only [startValidation, markRole, note_nil]
      refine { h with
        active := ?_, analysis := ?_, awaits := ?_, reviewing := ?_, reviewer := ?_,
        validating := ?_, ready := ?_ }
      . rfl
      . simpa [hanalysis] using h.analysis
      . intro other hother
        apply h.awaits other (contains_remove_of_contains hother)
      . intro hreviewing
        cases hreviewing
      . intro _
        apply h.reviewer (Or.inr hanalysis)
      . intro _ hnot
        simp at hnot
      . intro hstart
        exact absurd hanalysis (h.ready hstart).2
    | ready packet =>
      apply Stage.quick
      simp only [startValidation, markRole, startRole]
      rw [← outstanding_of_analysed exchange.outstanding (by simpa [hanalysis] using h.analysis)]
      exact h.validatorStarted rfl rfl (by simp) rfl
        (fun _ hmem => contains_remove_of_contains hmem)
  . apply Stage.settled
    simp only [after, call, roleTurnCompleted, hawaited]
    rw [if_neg (by decide), if_pos trivial]
    apply reachVerdict_settled

theorem Quick.step (h : exchange.Quick) {outstanding : Outstanding}
    (hanswers : Answers exchange.outstanding call outstanding)
    : (exchange.after call outstanding).Stage := by
  have hfinished := finished_eq_false_of_active h.active
  cases hanswers with
  | captured deltas hcapture | notCaptured message hcapture => simp [h.capture] at hcapture
  | analyzed result hanalysis => apply h.analyzed
  | started role hstart => apply Stage.quick (h.started hstart)
  | notStarted role message hstart hlane =>
    apply Stage.settled (settled_requestFailed hfinished message)
  | laneNotStarted role reason hstart hlane =>
    rcases h.starts role hstart with rfl | rfl <;> simp at hlane
  | notPrompted message => apply Stage.settled (settled_requestFailed hfinished message)
  | turnCompleted commandId answer => apply h.turnCompleted
  | dispatched requests hdispatching => simp [h.silent] at hdispatching
  | decided _ hdecides =>
    exact Stage.decided (.quick h) hdecides

end Exchange

end Hel
