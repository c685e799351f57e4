import Hel.Review.Lemmas.Exchange

/-!
This module contains the proof that a review whose calls are timely always waits for something
before it has settled.
-/

namespace Hel

open List

variable {awaited : BTreeMap String String} {seed : TurnReviewSeed} {commandId : String}
  {call : ReviewCall} {role : String}

namespace Exchange

open TurnReviewDriver Outstanding

variable {driver : TurnReviewDriver} {outstanding : Outstanding}

theorem note_pause (outstanding : Outstanding) (role : String) (requests : List ReviewRequest)
    : outstanding.note (.pauseRole role :: requests) = outstanding.note requests := by
  simp [note, isCapture, isAnalyze, startedRole?, promptsSupervisor, filterMap_cons]

theorem Supervised.prompted
    {reaction : Reaction} (starts : List String)
    (h : Supervised { driver := driver, outstanding := outstanding })
    (hprompts : Prompts driver role reaction) (hphase : reaction.1.phase.active = true)
    (hrole : role = intentRole ∨ role = supervisorRole
      ∨ outstanding.dispatching = true ∧ (laneById role).isSome = true)
    (hsupervisor : role = supervisorRole → driver.startedRoles.contains supervisorRole = true)
    (hidle : reaction.1.supervisorIdle = (driver.supervisorIdle && decide (role ≠ supervisorRole)))
    (hqueued : role ≠ supervisorRole → reaction.1.queuedReports = driver.queuedReports)
    (hsub : ∀ other ∈ starts, other ∈ outstanding.starts)
    (hkept : ∀ other ∈ outstanding.starts, other = role ∨ other ∈ starts)
    : Supervised
        { driver := reaction.1
          outstanding := { outstanding with starts := starts }.note reaction.2 } := by
  obtain ⟨commandId, prompt, hrequests⟩ := hprompts.requests
  rw [hrequests, note_prompt]
  constructor
  . simpa [hprompts.seed] using h.tier
  . exact hphase
  . exact h.capture
  . simpa [hprompts.analysis] using h.analysis
  . intro other hmem
    apply (h.starts other (hsub other hmem)).imp_right
    apply Or.imp_right
    intro ⟨hdispatching, hlane⟩
    simp only at hdispatching
    simp [hdispatching, hlane]
  . intro other hmem
    simp only [hprompts.awaited, Bool.or_eq_true, decide_eq_true_eq] at hmem ⊢
    rcases hmem with rfl | hmem
    . rcases hrole with heq | heq | ⟨hdispatching, hlane⟩
      . left
        exact heq
      . right
        exact ⟨Or.inr heq, Or.inl heq⟩
      . right
        exact ⟨Or.inl hdispatching, Or.inr hlane⟩
    . exact (h.awaits other hmem).imp_right (And.imp_left Or.inl)
  . intro hintent
    exact Prompts.due hprompts hkept (h.analysing (hprompts.intent ▸ hintent))
  . simpa only [hprompts.started] using h.analyst
  . simpa only [hprompts.started, hprompts.intent, hprompts.analysis] using h.waiting
  . simpa only [hprompts.started, hprompts.intent] using h.intent
  . intro hstarted hsilent
    simp only [hprompts.started] at hstarted
    simp only [Bool.or_eq_false_iff, decide_eq_false_iff_not] at hsilent
    rcases hkept _ (h.starting hstarted hsilent.1) with heq | hmem
    . exact absurd heq.symm hsilent.2
    . exact hmem
  . intro hdispatching
    simp only [hprompts.started]
    simp only [Bool.or_eq_true, decide_eq_true_eq] at hdispatching
    rcases hdispatching with hdispatching | heq
    . apply h.supervising hdispatching
    . apply hsupervisor heq
  . intro hdispatching hbusy
    simp only [hprompts.awaited, Bool.or_eq_true, decide_eq_true_eq]
    by_cases heq : role = supervisorRole
    . left
      exact heq.symm
    right
    simp only [heq, decide_false, Bool.or_false] at hdispatching
    apply h.busy hdispatching
    simpa [hidle, heq] using hbusy
  . intro hdispatching hidle' hempty
    by_cases heq : role = supervisorRole
    . simp [hidle, heq] at hidle'
    simp only [heq, decide_false, Bool.or_false] at hdispatching
    simp only [hprompts.lanes]
    apply h.idle hdispatching
    . simpa [hidle, heq] using hidle'
    . simpa [hqueued heq] using hempty
  . intro lane hlane
    simp only [hprompts.lanes] at hlane
    obtain ⟨hknown, hwhere⟩ := h.lanes lane hlane
    exact ⟨hknown, Prompts.due hprompts hkept hwhere⟩

theorem Supervised.injected (h : Supervised { driver := driver, outstanding := outstanding })
    (hdispatching : outstanding.dispatching = true)
    : Extended
        { driver := driver.injectReports.1
          outstanding := outstanding.note driver.injectReports.2 } := by
  by_cases hheld : driver.supervisorIdle = false ∨ driver.queuedReports = []
  . rw [injectReports_held hheld]
    simp only [note_nil]
    refine ⟨h, ?_⟩
    intro _ hidle
    rcases hheld with hbusy | hempty
    . simp [hbusy] at hidle
    . exact hempty
  simp only [not_or, Bool.not_eq_false] at hheld
  obtain ⟨hprompts, hphase, hqueued, hidle⟩ := injectReports_prompts hheld.1 hheld.2
  constructor
  . apply h.prompted outstanding.starts hprompts
    . rw [hphase]
      exact h.active
    . right
      left
      rfl
    . intro _
      exact h.supervising hdispatching
    . simp [hidle]
    . intro hne
      exact absurd rfl hne
    . intro other hmem
      exact hmem
    . intro other hmem
      right
      exact hmem
  . intro _ _
    exact hqueued

variable {exchange : Exchange}

theorem Extended.startIgnored (h : exchange.Extended) (hintent : role ≠ intentRole)
    (hsupervisor : exchange.driver.startedRoles.contains supervisorRole = true →
      role ≠ supervisorRole)
    (hlane : exchange.driver.outstandingLanes.contains role = false)
    : Extended
        { exchange with outstanding :=
            { exchange.outstanding with starts := exchange.outstanding.starts.erase role } } := by
  refine { h with starts := ?_, analysing := ?_, starting := ?_, lanes := ?_ }
  . intro other hmem
    apply h.starts other (mem_of_mem_erase hmem)
  . intro hnone
    apply (h.analysing hnone).imp_left
    exact (mem_erase_of_ne hintent.symm).mpr
  . intro hstarted hsilent
    apply (mem_erase_of_ne (hsupervisor hstarted).symm).mpr
    apply h.starting hstarted hsilent
  . intro other hother
    have hne : other ≠ role := by
      rintro rfl
      simp only at hother
      simp [hlane] at hother
    obtain ⟨hknown, hwhere⟩ := h.lanes other hother
    exact ⟨hknown, hwhere.imp_left (mem_erase_of_ne hne).mpr⟩

theorem Extended.started (h : exchange.Extended) (hstart : role ∈ exchange.outstanding.starts)
    (hmeets : exchange.driver.timely (.roleStarted role) = true)
    : (exchange.after (.roleStarted role)
        { exchange.outstanding with starts := exchange.outstanding.starts.erase role }).Extended := by
  have hfinished := finished_eq_false_of_active h.active
  have hready : role = supervisorRole → exchange.driver.changedFunctions.isSome = true := by
    intro heq
    simp only [timely, heq, settled_eq_false_of_active h.active, ne_eq, not_true_eq_false,
      decide_false, Bool.false_or, Bool.or_false, Bool.and_eq_true] at hmeets
    exact hmeets.2
  cases hanswers : exchange.driver.answersStart role with
  | true =>
    obtain ⟨hprompts, hphase, hqueued, hidle⟩ := roleStarted_prompts hanswers
    constructor
    . apply h.toSupervised.prompted _ hprompts hphase (h.starts role hstart) _ hidle _
        (fun _ => mem_of_mem_erase) (fun _ hmem => mem_erase_or hmem role)
      . intro heq
        by_contra hnot
        have hintent : exchange.driver.intent ≠ none := by
          intro hnone
          simp [answersStart, hfinished, heq, hnone, supervisorRole, reviewerRole, validatorRole,
            intentRole, laneById, reviewLanes] at hanswers
        have hrunning := h.waiting hintent (by simpa using hnot)
        have := hready heq
        simp [changedFunctions, hrunning] at this
      . intro _
        exact hqueued
    . intro hdispatching hidle'
      have hidle'' : (exchange.driver.roleStarted role).1.supervisorIdle = true := hidle'
      rw [hidle] at hidle''
      simp only [Bool.and_eq_true, decide_eq_true_eq] at hidle''
      have hqueued' : (exchange.driver.call (.roleStarted role)).1.queuedReports
          = exchange.driver.queuedReports := hqueued
      simp only [after, hqueued']
      apply h.delivered _ hidle''.1
      obtain ⟨commandId, prompt, hrequests⟩ := hprompts.requests
      have hcall : (exchange.driver.call (.roleStarted role)).2
          = [.promptRole role commandId prompt] := hrequests
      simp only [after, hcall, note_prompt, hidle''.2, decide_false, Bool.or_false] at hdispatching
      exact hdispatching
  | false =>
    have hsame : exchange.driver.call (.roleStarted role) = (exchange.driver, []) :=
      roleStarted_ignored hanswers
    have hcase : role = supervisorRole ∧ exchange.driver.intent = none := by
      simp only [answersStart, hfinished, Bool.not_false, Bool.true_and, Bool.or_eq_false_iff,
        Bool.and_eq_false_iff, decide_eq_false_iff_not] at hanswers
      obtain ⟨⟨⟨_, hintent⟩, hsupervisor⟩, hlane⟩ := hanswers
      rcases h.starts role hstart with heq | heq | ⟨_, hknown⟩
      . exact absurd heq hintent
      . refine ⟨heq, ?_⟩
        rcases hsupervisor with (hne | hnone) | hchanged
        . exact absurd heq hne
        . simpa using hnone
        . simp [hready heq] at hchanged
      . simp [hknown] at hlane
    have hunstarted : exchange.driver.startedRoles.contains supervisorRole = false := by
      by_contra hnot
      exact h.intent (by simpa using hnot) hcase.2
    simp only [after, hsame, note_nil]
    apply h.startIgnored
    . rw [hcase.1]
      decide
    . simp [hunstarted]
    by_contra hlane
    have hknown := (h.lanes role (by simpa using hlane)).1
    simp [hcase.1] at hknown

theorem Supervised.supervisorStarted {next : TurnReviewDriver}
    (h : Supervised { driver := driver, outstanding := outstanding })
    (hunstarted : driver.startedRoles.contains supervisorRole = false)
    (hseed : next.seed = driver.seed) (hactive : next.phase.active = true)
    (hanalysis : next.analysis ≠ .running) (hintent : next.intent ≠ none)
    (hstarted : next.startedRoles.contains supervisorRole = true)
    (hawaits : ∀ other, next.awaited.contains other = true → driver.awaited.contains other = true)
    (hlanes : ∀ lane, next.outstandingLanes.contains lane = true → (laneById lane).isSome = true
        ∧ (lane ∈ outstanding.starts ∨ next.awaited.contains lane = true))
    : Extended
        { driver := next
          outstanding :=
            { outstanding with analysis := false }.note [.startRole supervisorRole true] } := by
  have hsilent : outstanding.dispatching = false := by
    by_contra hnot
    have := h.supervising (by simpa using hnot)
    simp [hunstarted] at this
  refine ⟨⟨hseed ▸ h.tier, hactive, ?_, ?_, ?_, ?_, ?_, ?_, ?_, ?_, ?_, ?_, ?_, ?_, ?_⟩, ?_⟩
  . simpa [note, isCapture] using h.capture
  . simp [note, isAnalyze, hanalysis]
  . intro role hmem
    simp only [note, filterMap_cons, startedRole?, filterMap_nil, cons_append,
      nil_append, mem_cons] at hmem
    rcases hmem with heq | hmem
    . right
      left
      exact heq
    apply (h.starts role hmem).imp_right
    apply Or.imp_right
    simp [hsilent]
  . intro role hother
    apply (h.awaits role (hawaits role hother)).imp_right
    simp [hsilent]
  . intro hnone
    exact absurd hnone hintent
  . simp [hstarted]
  . simp [hstarted]
  . intro _
    exact hintent
  . simp [note, startedRole?]
  . simp [hstarted]
  . simp [note, promptsSupervisor, hsilent]
  . simp [note, promptsSupervisor, hsilent]
  . intro lane hlane
    obtain ⟨hknown, hwhere⟩ := hlanes lane hlane
    refine ⟨hknown, hwhere.imp_left ?_⟩
    intro hmem
    simp [note, startedRole?, hmem]
  . simp [note, promptsSupervisor, hsilent]

theorem Extended.analyzed (h : exchange.Extended) (result : Except String String)
    : (exchange.after (.analysisCompleted result)
        { exchange.outstanding with analysis := false }).Stage := by
  have hcall : exchange.driver.call (.analysisCompleted result)
      = { exchange.driver with analysis := .ofResult result }.maybeStartSupervisor := by
    simp [call, analysisCompleted, h.tier]
  by_cases hwaiting : exchange.driver.intent = none
      ∨ exchange.driver.startedRoles.contains supervisorRole = true
  . rw [maybeStartSupervisor_held] at hcall
    on_goal 2 => exact Or.inr (hwaiting.imp_right Or.inl)
    apply Stage.extended
    simp only [after, hcall, note_nil]
    refine { h with analysis := ?_, waiting := ?_ }
    . simp [ofResult_ne_running]
    intro hintent hunstarted
    simp only at hintent hunstarted
    rcases hwaiting with hnone | hstarted
    . exact absurd hnone hintent
    . simp [hunstarted] at hstarted
  simp only [not_or, Bool.not_eq_true] at hwaiting
  have hfinished := finished_eq_false_of_active h.active
  cases result with
  | error reason =>
    apply Stage.settled
    simp only [after, hcall]
    rw [Analysis.ofResult, maybeStartSupervisor_failed hfinished hwaiting.1 hwaiting.2]
    apply reachVerdict_settled
  | ok packet =>
  apply Stage.extended
  simp only [after, hcall]
  rw [Analysis.ofResult, maybeStartSupervisor_ready hfinished hwaiting.1 hwaiting.2]
  exact h.toSupervised.supervisorStarted hwaiting.2 rfl h.active (by simp) hwaiting.1
    (by simp [BTreeMap.contains_insert]) (fun _ hmem => hmem) h.lanes

theorem Supervised.laneClosed {driver next : TurnReviewDriver}
    {lane : String} (starts : List String)
    (h : Supervised { driver := driver, outstanding := outstanding })
    (hknown : (laneById lane).isSome = true)
    (hsettles : Settles { driver with awaited := awaited } next lane)
    (hawaited : ∀ other, awaited.contains other = true → driver.awaited.contains other = true)
    (hstays : ∀ other, driver.awaited.contains other = true →
      other = lane ∨ awaited.contains other = true)
    (hsub : ∀ other ∈ starts, other ∈ outstanding.starts)
    (hkept : ∀ other ∈ outstanding.starts, other = lane ∨ other ∈ starts)
    : Supervised
        { driver := next, outstanding := { outstanding with starts := starts } } := by
  have hstartNe : ∀ other, laneById other = none → other ∈ outstanding.starts →
      other ∈ starts := by
    intro other hother hmem
    exact (hkept other hmem).resolve_left (ne_of_laneById hknown hother).symm
  have hawaitedNe : ∀ other, laneById other = none → driver.awaited.contains other = true →
      awaited.contains other = true := by
    intro other hother hmem
    exact (hstays other hmem).resolve_left (ne_of_laneById hknown hother).symm
  constructor
  . simpa [hsettles.seed] using h.tier
  . exact hsettles.phase
  . exact h.capture
  . simpa [hsettles.analysis] using h.analysis
  . intro other hmem
    apply h.starts other (hsub other hmem)
  . intro other hmem
    simp only [hsettles.awaited] at hmem
    apply h.awaits other (hawaited other hmem)
  . intro hnone
    simp only [hsettles.intent] at hnone
    simp only [hsettles.awaited]
    exact (h.analysing hnone).imp (hstartNe _ laneById_intentRole)
      (hawaitedNe _ laneById_intentRole)
  . simpa only [hsettles.started] using h.analyst
  . simpa only [hsettles.started, hsettles.intent, hsettles.analysis] using h.waiting
  . simpa only [hsettles.started, hsettles.intent] using h.intent
  . intro hstarted hsilent
    simp only [hsettles.started] at hstarted
    apply hstartNe _ laneById_supervisorRole (h.starting hstarted hsilent)
  . simpa only [hsettles.started] using h.supervising
  . intro hdispatching hbusy
    simp only [hsettles.idle] at hbusy
    simp only [hsettles.awaited]
    apply hawaitedNe _ laneById_supervisorRole (h.busy hdispatching hbusy)
  . intro _ _ hempty
    obtain ⟨outcome, message, label, hqueued⟩ := hsettles.queued
    simp [hqueued] at hempty
  . intro other hother
    simp only [hsettles.lanes, BTreeMap.contains_remove, Bool.and_eq_true, decide_eq_true_eq]
      at hother
    simp only [hsettles.awaited]
    obtain ⟨hlane, hwhere⟩ := h.lanes other hother.2
    refine ⟨hlane, ?_⟩
    apply hwhere.imp
    . intro hmem
      exact (hkept other hmem).resolve_left hother.1
    . intro hmem
      exact (hstays other hmem).resolve_left hother.1

theorem Extended.laneNotStarted (h : exchange.Extended) {role reason : String}
    (hstart : role ∈ exchange.outstanding.starts) (hlane : (laneById role).isSome = true)
    : (exchange.after (.laneFailed role reason)
        { exchange.outstanding with starts := exchange.outstanding.starts.erase role }).Extended := by
  have hsub : ∀ other ∈ exchange.outstanding.starts.erase role,
      other ∈ exchange.outstanding.starts := fun other hmem => mem_of_mem_erase hmem
  have hdispatching : exchange.outstanding.dispatching = true := by
    rcases h.starts role hstart with rfl | rfl | hcase
    . simp at hlane
    . simp at hlane
    . exact hcase.1
  obtain ⟨lane, hfound⟩ := Option.isSome_iff_exists.mp hlane
  by_cases hout : exchange.driver.outstandingLanes.contains role = true
  . have hcall : exchange.driver.call (.laneFailed role reason)
        = (exchange.driver.settleLane lane .failed (.failed reason)
            ("This lane could not run: " ++ reason)).injectReports := by
      simp [call, laneFailed, hfound, hout]
    simp only [after, hcall]
    have hsettles := settles_settleLane exchange.driver lane .failed (.failed reason)
      ("This lane could not run: " ++ reason)
    rw [laneById_id hfound] at hsettles
    have hclosed := h.toSupervised.laneClosed (exchange.outstanding.starts.erase role) hlane
      hsettles (fun _ hmem => hmem) (fun _ hmem => Or.inr hmem) hsub
      (fun _ hmem => mem_erase_or hmem role)
    exact hclosed.injected hdispatching
  . have hsame : exchange.driver.call (.laneFailed role reason) = (exchange.driver, []) := by
      simp [call, laneFailed, hfound, hout]
    simp only [after, hsame, note_nil]
    exact h.startIgnored (ne_of_laneById hlane laneById_intentRole)
      (fun _ => ne_of_laneById hlane laneById_supervisorRole) (by simpa using hout)

theorem contains_or_of_contains (removed : String) {other : String}
    (h : awaited.contains other = true)
    : other = removed ∨ (awaited.remove removed).contains other = true := by
  apply (Classical.em (other = removed)).imp_right
  intro hne
  rw [BTreeMap.contains_remove]
  simp [hne, h]

section

variable (h : exchange.Extended)

include h

theorem Extended.lanes_answered {lane : String} (hrole : laneById role = none)
    (hlane : exchange.driver.outstandingLanes.contains lane = true)
    : (laneById lane).isSome = true
      ∧ (lane ∈ exchange.outstanding.starts
        ∨ (exchange.driver.awaited.remove role).contains lane = true) := by
  obtain ⟨hknown, hwhere⟩ := h.lanes lane hlane
  refine ⟨hknown, hwhere.imp_right ?_⟩
  intro hmem
  rcases contains_or_of_contains role hmem with heq | hmem
  . simp [heq, hrole] at hknown
  . exact hmem

theorem Extended.intentReported (answer : String)
    (hawaited : exchange.driver.awaitedRole commandId = some intentRole)
    : (exchange.after (.roleTurnCompleted commandId answer) exchange.outstanding).Stage := by
  have hcall : exchange.driver.call (.roleTurnCompleted commandId answer)
      = { exchange.driver with
          awaited := exchange.driver.awaited.remove intentRole }.intentReported answer := by
    simp only [TurnReviewDriver.call, roleTurnCompleted, hawaited]
    rw [if_neg (by decide), if_neg (by decide), if_pos trivial]
  simp only [after, hcall, TurnReviewDriver.intentReported]
  split
  . apply Stage.settled
    apply settled_requestFailed rfl
  have hbusy : exchange.outstanding.dispatching = true →
      exchange.driver.supervisorIdle = false →
        (exchange.driver.awaited.remove intentRole).contains supervisorRole = true := by
    intro hdispatching hidle
    apply (contains_or_of_contains intentRole (h.busy hdispatching hidle)).resolve_left
    decide
  have hlanes := fun lane (hlane : exchange.driver.outstandingLanes.contains lane = true) =>
    h.lanes_answered laneById_intentRole hlane
  by_cases hwaiting : exchange.driver.startedRoles.contains supervisorRole = true
      ∨ exchange.driver.analysis = .running
  . apply Stage.extended
    rw [maybeStartSupervisor_held]
    on_goal 2 => exact Or.inr (Or.inr hwaiting)
    simp only [markRole, note_pause, note_nil]
    refine { h with
      active := rfl, awaits := ?_, analysing := ?_, waiting := ?_, intent := ?_, busy := hbusy,
      lanes := hlanes }
    . intro other hother
      apply h.awaits other (contains_remove_of_contains hother)
    . intro hnone
      cases hnone
    . intro _ hunstarted
      apply hwaiting.resolve_left
      simpa using hunstarted
    . intro _ hnone
      cases hnone
  simp only [not_or, Bool.not_eq_true] at hwaiting
  obtain ⟨hstarted, hrunning⟩ := hwaiting
  cases hanalysis : exchange.driver.analysis with
  | running => exact absurd hanalysis hrunning
  | failed reason =>
    apply Stage.settled
    simp only [maybeStartSupervisor, markRole, changedFunctions, finished, hstarted,
      Option.isNone_some, Bool.or_false, Bool.false_eq_true, if_false]
    apply settled_requestFailed rfl
  | ready packet =>
  apply Stage.extended
  simp only [maybeStartSupervisor, markRole, changedFunctions, finished, hstarted,
    Option.isNone_some, Bool.or_false, Bool.false_eq_true, if_false, startRole]
  rw [note_pause]
  rw [← outstanding_of_analysed exchange.outstanding (by simpa [hanalysis] using h.analysis)]
  exact h.toSupervised.supervisorStarted hstarted rfl rfl (by simp) (by simp)
    (by simp [BTreeMap.contains_insert]) (fun _ hmem => contains_remove_of_contains hmem) hlanes

theorem Extended.supervisorReported (answer : String)
    (hdispatching : exchange.outstanding.dispatching = true)
    (hawaited : exchange.driver.awaitedRole commandId = some supervisorRole)
    : (exchange.after (.roleTurnCompleted commandId answer) exchange.outstanding).Stage := by
  have hcall : exchange.driver.call (.roleTurnCompleted commandId answer)
      = { exchange.driver with
          awaited := exchange.driver.awaited.remove supervisorRole }.supervisorReported answer := by
    simp only [TurnReviewDriver.call, roleTurnCompleted, hawaited]
    rw [if_neg (by decide), if_neg (by decide), if_neg (by decide), if_pos trivial]
  simp only [after, hcall, TurnReviewDriver.supervisorReported]
  split
  . apply Stage.settled
    apply reachVerdict_settled
  rename_i hopen
  apply Stage.extended
  apply Supervised.injected _ hdispatching
  refine { h.toSupervised with
    awaits := ?_, analysing := ?_, busy := ?_, idle := ?_, lanes := ?_ }
  . intro other hother
    apply h.awaits other (contains_remove_of_contains hother)
  . intro hnone
    exact absurd hnone (h.intent (h.supervising hdispatching))
  . intro _ hidle
    cases hidle
  . intro _ _ hempty
    simp only at hempty
    simp only [hempty, isEmpty_nil, Bool.and_true, List.isEmpty_iff] at hopen
    cases hentries : exchange.driver.outstandingLanes.entries with
    | nil => exact absurd hentries hopen
    | cons entry rest =>
    refine ⟨entry.1, ?_⟩
    rw [← BTreeMap.mem_keys_iff]
    simp [BTreeMap.keys, hentries]
  . intro lane hlane
    exact h.lanes_answered laneById_supervisorRole hlane

theorem Extended.laneReported {commandId role : String} (answer : String)
    (hdispatching : exchange.outstanding.dispatching = true)
    (hawaited : exchange.driver.awaitedRole commandId = some role)
    (hlane : (laneById role).isSome = true)
    : (exchange.after (.roleTurnCompleted commandId answer) exchange.outstanding).Extended := by
  obtain ⟨lane, hfound⟩ := Option.isSome_iff_exists.mp hlane
  have hne {other : String} (hother : laneById other = none) := ne_of_laneById hlane hother
  have hcall : exchange.driver.call (.roleTurnCompleted commandId answer)
      = { exchange.driver with
          awaited := exchange.driver.awaited.remove role }.laneReported role answer := by
    simp only [TurnReviewDriver.call, roleTurnCompleted, hawaited]
    rw [if_neg (hne laneById_reviewerRole), if_neg (hne laneById_validatorRole),
      if_neg (hne laneById_intentRole), if_neg (hne laneById_supervisorRole)]
  simp only [after, hcall, TurnReviewDriver.laneReported, hfound]
  rw [note_pause]
  have hsettles := settles_settleLane
    { exchange.driver with awaited := exchange.driver.awaited.remove role } lane
    (if laneReportIsClean answer then .clean else .findings) .completed answer
  rw [laneById_id hfound] at hsettles
  have hclosed := h.toSupervised.laneClosed exchange.outstanding.starts hlane hsettles
    (fun _ hmem => contains_remove_of_contains hmem)
    (fun _ hmem => contains_or_of_contains role hmem)
    (fun _ hmem => hmem) (fun _ hmem => Or.inr hmem)
  exact hclosed.injected hdispatching

theorem Extended.turnCompleted (commandId answer : String)
    : (exchange.after (.roleTurnCompleted commandId answer) exchange.outstanding).Stage := by
  cases hawaited : exchange.driver.awaitedRole commandId with
  | none => exact Stage.unawaited (.extended h) answer hawaited
  | some role =>
  rcases h.awaits role (awaitedRole_contains hawaited) with rfl | ⟨hdispatching, rfl | hlane⟩
  . apply h.intentReported answer hawaited
  . apply h.supervisorReported answer hdispatching hawaited
  . apply Stage.extended (h.laneReported answer hdispatching hawaited hlane)

theorem Extended.dispatched (requests : List ReviewSubagentRequest)
    (hdispatching : exchange.outstanding.dispatching = true)
    : (exchange.after (.lanesDispatched requests) exchange.outstanding).Extended := by
  have hlaunches := launches_lanesDispatched exchange.driver requests
  have hstarted := h.supervising hdispatching
  unfold after
  simp only [call]
  generalize exchange.driver.lanesDispatched requests = reaction at hlaunches
  have hsupervisor : reaction.1.startedRoles.contains supervisorRole = true :=
    (hlaunches.started _).mpr (Or.inr hstarted)
  have hnone : ∀ p : ReviewRequest → Bool, (∀ role, p (.startRole role true) = false) →
      reaction.2.any p = false := by
    intro p hp
    rw [any_eq_false]
    intro request hmem
    obtain ⟨lane, heq, _⟩ := hlaunches.requests request hmem
    simp [heq, hp]
  have hcapture := hnone isCapture (fun _ => rfl)
  have hanalyze := hnone isAnalyze (fun _ => rfl)
  refine ⟨⟨?_, hlaunches.phase h.active, ?_, ?_, ?_, ?_, ?_, ?_, ?_, ?_, ?_, ?_, ?_, ?_, ?_⟩, ?_⟩
  . simpa only [hlaunches.seed] using h.tier
  . simp [note, hcapture, h.capture]
  . simp only [note, hanalyze, Bool.or_false, hlaunches.analysis]
    exact h.analysis
  . intro role hrole
    simp only [note, mem_append, hdispatching, Bool.true_or, true_and] at hrole ⊢
    rcases hrole with hrole | hrole
    . rw [mem_filterMap] at hrole
      obtain ⟨request, hrequest, heq⟩ := hrole
      obtain ⟨lane, hstart, hknown, _⟩ := hlaunches.requests request hrequest
      simp only [hstart, startedRole?, Option.some.injEq] at heq
      right
      right
      rw [← heq]
      exact hknown
    . apply (h.starts role hrole).imp_right
      apply Or.imp_right
      exact And.right
  . intro role hrole
    simp only [hlaunches.awaited] at hrole
    simp only [note, hdispatching, Bool.true_or, true_and]
    exact (h.awaits role hrole).imp_right And.right
  . intro hnone
    simp only [hlaunches.intent] at hnone
    exact absurd hnone (h.intent hstarted)
  . simp [hsupervisor]
  . simp [hsupervisor]
  . intro _
    simp only [hlaunches.intent]
    exact h.intent hstarted
  . intro _ hsilent
    simp [note, hdispatching] at hsilent
  . intro _
    exact hsupervisor
  . intro _ hbusy
    simp only [hlaunches.idle] at hbusy
    simp only [hlaunches.awaited]
    exact h.busy hdispatching hbusy
  . intro _ hidle hempty
    simp only [hlaunches.idle] at hidle
    simp only [hlaunches.queued] at hempty
    obtain ⟨lane, hlane⟩ := h.idle hdispatching hidle hempty
    exact ⟨lane, (hlaunches.lanes lane).mpr (Or.inr hlane)⟩
  . intro lane hlane
    simp only [hlaunches.awaited, note, mem_append]
    rcases (hlaunches.lanes lane).mp hlane with hstart | hold
    . obtain ⟨other, heq, hknown, _⟩ := hlaunches.requests _ hstart
      simp only [ReviewRequest.startRole.injEq, and_true] at heq
      refine ⟨by rw [heq]; exact hknown, Or.inl (Or.inl ?_)⟩
      rw [mem_filterMap]
      exact ⟨_, hstart, rfl⟩
    . obtain ⟨hknown, hwhere⟩ := h.lanes lane hold
      exact ⟨hknown, hwhere.imp_left Or.inr⟩
  . intro _ hidle
    simp only [hlaunches.idle] at hidle
    simp only [hlaunches.queued]
    exact h.delivered hdispatching hidle

theorem Extended.step (hanswers : Answers exchange.outstanding call outstanding)
    (hmeets : exchange.driver.timely call = true) : (exchange.after call outstanding).Stage := by
  have hfinished := finished_eq_false_of_active h.active
  cases hanswers with
  | captured deltas hcapture | notCaptured message hcapture => simp [h.capture] at hcapture
  | analyzed result hanalysis => apply h.analyzed
  | started role hstart => apply Stage.extended (h.started hstart hmeets)
  | notStarted role message hstart hlane =>
    apply Stage.settled (settled_requestFailed hfinished message)
  | laneNotStarted role reason hstart hlane =>
    apply Stage.extended (h.laneNotStarted hstart hlane)
  | notPrompted message => apply Stage.settled (settled_requestFailed hfinished message)
  | turnCompleted commandId answer => apply h.turnCompleted
  | dispatched requests hdispatching =>
    apply Stage.extended (h.dispatched requests hdispatching)
  | decided _ hdecides =>
    exact Stage.decided (.extended h) hdecides

end

abbrev Timely (driver : TurnReviewDriver) (call : ReviewCall) : Prop :=
  driver.timely call = true

theorem revivedBy_of_timely (h : Timely driver call) : driver.revivedBy call = false := by
  unfold Timely timely at h
  simp only [Bool.and_eq_true, Bool.not_eq_true'] at h
  exact h.1

theorem Reaches.tidy (h : Reaches Timely seed exchange) : exchange.driver.Tidy := by
  induction h with
  | start => apply tidy_start
  | call _ _ hmeets ih =>
    apply tidy_call ih (revivedBy_of_timely hmeets)

theorem Reaches.stage (h : Reaches Timely seed exchange) : exchange.Stage := by
  induction h with
  | start => exact .capturing (by constructor <;> rfl)
  | call hreaches hanswers hmeets ih =>
    cases ih with
    | capturing h | quick h => apply h.step hanswers
    | extended h => apply h.step hanswers hmeets
    | settled h =>
      apply Stage.settled
      apply settled_call hreaches.tidy h (revivedBy_of_timely hmeets)

/--
A review whose calls are timely waits for something until it has a verdict or a resolution, so once
everything it asked for has been answered it has one.
-/
theorem review_never_stuck (seed : TurnReviewSeed) (exchange : Exchange)
    (h : Reaches Timely seed exchange)
    : (exchange.driver.phase.settled = false → exchange.Waits)
      ∧ (exchange.outstanding.capture = false → exchange.outstanding.analysis = false →
          exchange.outstanding.starts = [] → exchange.driver.awaited.entries = [] →
            exchange.driver.phase.settled = true) := by
  have hwaits := h.stage.waits
  refine ⟨hwaits, ?_⟩
  intro hcapture hanalysis hstarts hawaited
  by_contra hphase
  rcases hwaits (by simpa using hphase) with hwait | hwait | hwait | hwait
  . simp [hcapture] at hwait
  . simp [hanalysis] at hwait
  . exact hwait hstarts
  . exact hwait hawaited

def begun (seed : TurnReviewSeed) (role : String) : Exchange :=
  let captured := (start seed).after (.deltaCaptured [plainDelta])
    { (start seed).outstanding with capture := false }
  captured.after (.roleStarted role)
    { captured.outstanding with starts := captured.outstanding.starts.erase role }

theorem review_never_stuck_of_prompted_reviewer
    : Reaches Timely (plainSeed .quick) (begun (plainSeed .quick) reviewerRole)
      ∧ (begun (plainSeed .quick) reviewerRole).driver.phase.settled = false
      ∧ (begun (plainSeed .quick) reviewerRole).Waits := by
  have hreaches : Reaches Timely (plainSeed .quick) (begun (plainSeed .quick) reviewerRole) := by
    apply Reaches.call
    . apply Reaches.call Reaches.start
      . apply Answers.captured
        decide
      . decide +kernel
    . apply Answers.started
      decide +kernel
    . decide +kernel
  have hphase : (begun (plainSeed .quick) reviewerRole).driver.phase.settled = false := by
    decide +kernel
  exact ⟨hreaches, hphase, (review_never_stuck _ _ hreaches).1 hphase⟩

def stranded : Exchange :=
  (begun (plainSeed .extended) supervisorRole).after (.analysisCompleted (.ok "packet"))
    { (begun (plainSeed .extended) supervisorRole).outstanding with analysis := false }

-- The supervisor is never prompted: its start came too early and its analysis too late.
theorem extended_review_stuck
    : Reaches (fun _ _ => True) (plainSeed .extended) stranded
      ∧ stranded.driver.phase = .launchingReviewer
      ∧ stranded.outstanding.capture = false
      ∧ stranded.outstanding.analysis = false
      ∧ stranded.outstanding.starts = []
      ∧ stranded.driver.awaited.entries = [] := by
  refine ⟨?_, by decide +kernel⟩
  apply Reaches.call
  . apply Reaches.call
    . apply Reaches.call Reaches.start
      . apply Answers.captured
        decide
      . trivial
    . apply Answers.started
      decide +kernel
    . trivial
  . apply Answers.analyzed
    decide +kernel
  . trivial

end Exchange

end Hel
