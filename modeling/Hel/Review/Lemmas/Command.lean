import Hel.Controller.Lemmas.Transcript
import Hel.Review.Lemmas.Driver

/-!
This module contains the ids under which a review submits its commands.
-/

namespace Hel

variable {driver next : TurnReviewDriver} {reaction : Reaction}

section Id

def reviewCommandId (purpose : String) (number : Nat) : String :=
  "turn-review-" ++ purpose ++ "-" ++ toString number

def isReviewCommand (id : String) : Bool :=
  "turn-review-".toList.isPrefixOf id.toList

theorem isReviewCommand_reviewCommandId (purpose : String) (number : Nat)
    : isReviewCommand (reviewCommandId purpose number) := by
  unfold isReviewCommand reviewCommandId
  rw [List.isPrefixOf_iff_prefix, String.toList_append, String.toList_append, String.toList_append,
    List.append_assoc, List.append_assoc]
  apply List.prefix_append

theorem number_injective {purpose purpose' : String} {number number' : Nat}
    (h : reviewCommandId purpose number = reviewCommandId purpose' number') : number = number' := by
  have hlist := congrArg String.toList h
  simp only [reviewCommandId, String.toList_append] at hlist
  exact (Text.append_toString_injective (c := '-') rfl hlist).2

end Id

def ReviewRequest.commandId? : ReviewRequest → Option String
  | .promptRole _ commandId _ => some commandId
  | .promptPrimary commandId _ => some commandId
  | _ => none

def issued (requests : List ReviewRequest) : List String :=
  requests.filterMap ReviewRequest.commandId?

theorem issued_pauses (roles : List String) : issued (roles.map ReviewRequest.pauseRole) = [] := by
  induction roles with
  | nil => rfl
  | cons role rest ih => exact ih

theorem issued_append (requests more : List ReviewRequest)
    : issued (requests ++ more) = issued requests ++ issued more :=
  List.filterMap_append

namespace TurnReviewDriver

structure Quiet (driver next : TurnReviewDriver) : Prop where
  sequence : next.sequence = driver.sequence
  awaited : ∀ role id, next.awaited.get? role = some id → driver.awaited.get? role = some id

theorem Quiet.of_eq (hsequence : next.sequence = driver.sequence)
    (hawaited : next.awaited = driver.awaited) : Quiet driver next where
  sequence := hsequence
  awaited := by
    intro role id h
    rw [← hawaited]
    exact h

theorem Quiet.trans {driver before next : TurnReviewDriver} (h : Quiet driver before)
    (hnext : Quiet before next) : Quiet driver next where
  sequence := hnext.sequence.trans h.sequence
  awaited := fun role id hget => h.awaited role id (hnext.awaited role id hget)

structure Issues (driver : TurnReviewDriver) (reaction : Reaction) : Prop where
  ids : reaction.1.sequence = driver.sequence ∧ issued reaction.2 = []
    ∨ ∃ purpose, reaction.1.sequence = driver.sequence + 1
        ∧ issued reaction.2 = [reviewCommandId purpose (driver.sequence + 1)]
  awaited : ∀ role id, reaction.1.awaited.get? role = some id →
    driver.awaited.get? role = some id ∨ isReviewCommand id

theorem Quiet.issues {requests : List ReviewRequest} (h : Quiet driver next)
    (hrequests : issued requests = []) : Issues driver (next, requests) where
  ids := Or.inl ⟨h.sequence, hrequests⟩
  awaited := fun role id hget => Or.inl (h.awaited role id hget)

theorem issues_self (driver : TurnReviewDriver) : Issues driver (driver, []) :=
  Quiet.issues (.of_eq rfl rfl) rfl

theorem Issues.after {driver before : TurnReviewDriver} (h : Issues before reaction)
    (hquiet : Quiet driver before) : Issues driver reaction where
  ids := by
    rw [← hquiet.sequence]
    exact h.ids
  awaited := fun role id hget =>
    (h.awaited role id hget).imp_left (hquiet.awaited role id)

variable (driver)

theorem issues_promptRole (role purpose : String) (prompt : ReviewPrompt)
    : Issues driver
        ((driver.promptRole role purpose prompt).1, [(driver.promptRole role purpose prompt).2]) where
  ids := Or.inr ⟨purpose, rfl, rfl⟩
  awaited := by
    intro role' id hget
    simp only [promptRole, nextCommandId, BTreeMap.get?_insert] at hget
    split at hget
    . right
      cases hget
      exact isReviewCommand_reviewCommandId purpose (driver.sequence + 1)
    . exact Or.inl hget

theorem quiet_pauseEveryRole : Quiet driver driver.pauseEveryRole.1 where
  sequence := rfl
  awaited := by nofun

theorem issued_resolve (resolution : Resolution) : issued (driver.resolve resolution).2 = [] := by
  unfold resolve
  dsimp only
  split <;> rfl

theorem issues_reachVerdict (verdict : ReviewVerdict)
    : Issues driver (driver.reachVerdict verdict) := by
  have hquiet : Quiet driver
      ({ driver with status := verdictStatus verdict, phase := .verdict verdict }.pauseEveryRole).1 := by
    have hsame : Quiet driver
        { driver with status := verdictStatus verdict, phase := .verdict verdict } :=
      .of_eq rfl rfl
    exact hsame.trans (quiet_pauseEveryRole _)
  unfold reachVerdict
  dsimp only
  split
  . refine Quiet.issues (hquiet.trans (.of_eq rfl rfl)) ?_
    rw [issued_append, issued_resolve]
    simp only [pauseEveryRole, issued_pauses, List.append_nil]
  . exact hquiet.issues (issued_pauses _)

theorem issues_deltaCaptured (deltas : List RepoDelta)
    : Issues driver (driver.deltaCaptured deltas) := by
  unfold deltaCaptured
  dsimp only
  split
  . apply issues_self
  split
  . exact Quiet.issues (.of_eq rfl rfl) rfl
  split
  . exact Quiet.issues (.of_eq rfl rfl) rfl
  . split <;> exact Quiet.issues (.of_eq rfl rfl) rfl

theorem issues_injectReports : Issues driver driver.injectReports := by
  unfold injectReports
  split
  . apply issues_self
  . exact (issues_promptRole _ _ _ _).after (.of_eq rfl rfl)

theorem quiet_settleLane (lane : ReviewLane) (state : RoleState) (outcome : LaneOutcome)
    (finalMessage : String) : Quiet driver (driver.settleLane lane state outcome finalMessage) := by
  unfold settleLane recordLaneEvidence
  dsimp only
  split <;> exact .of_eq rfl rfl

theorem issues_dispatchLanes (requests : List ReviewSubagentRequest)
    : Quiet driver (driver.dispatchLanes requests).1
        ∧ issued (driver.dispatchLanes requests).2 = [] := by
  induction requests generalizing driver with
  | nil => exact ⟨.of_eq rfl rfl, rfl⟩
  | cons request rest ih =>
    unfold dispatchLanes
    split
    . apply ih
    split
    . apply ih
    dsimp only
    constructor
    . refine Quiet.trans ?_ (ih _).1
      exact .of_eq rfl rfl
    . exact (ih _).2

theorem issues_lanesDispatched (requests : List ReviewSubagentRequest)
    : Issues driver (driver.lanesDispatched requests) := by
  unfold lanesDispatched
  split
  . apply issues_self
  dsimp only
  have hdispatch := issues_dispatchLanes driver requests
  split
  . exact hdispatch.1.issues rfl
  . exact Quiet.issues (hdispatch.1.trans (.of_eq rfl rfl)) hdispatch.2

theorem issues_forward : Issues driver driver.forward := by
  unfold forward
  split
  . refine ⟨Or.inr ⟨"forward", rfl, ?_⟩, fun role id hget => Or.inl hget⟩
    dsimp only
    rw [issued_append, issued_resolve]
    rfl
  . apply issues_self

theorem issues_dismiss : Issues driver driver.dismiss := by
  unfold dismiss
  split
  . exact Quiet.issues (.of_eq rfl rfl) rfl
  . exact Quiet.issues (.of_eq rfl rfl) (issued_resolve _ _)
  . apply issues_self

theorem issues_cancel : Issues driver driver.cancel := by
  unfold cancel
  split
  . apply issues_self
  refine Quiet.issues ((quiet_pauseEveryRole driver).trans (.of_eq rfl rfl)) ?_
  rw [issued_append]
  simp only [issued_pauses]
  rfl

variable {driver}

theorem Prepares.quiet (h : Prepares driver next) : Quiet driver next :=
  ⟨h.sequence, h.awaited⟩

theorem Reacts.issues (h : Reacts driver reaction) : Issues driver reaction := by
  induction h with
  | skip => apply issues_self
  | prepare h _ ih => exact ih.after h.quiet
  | pause role _ ih => exact ⟨ih.ids, ih.awaited⟩
  | fail message => apply issues_reachVerdict
  | start role | replace role other => exact Quiet.issues (.of_eq rfl rfl) rfl
  | prompt role purpose prompt => apply issues_promptRole
  | inject => apply issues_injectReports
  | settle lane state outcome finalMessage =>
    exact (issues_injectReports _).after (quiet_settleLane _ _ _ _ _)
  | dispatch requests => apply issues_lanesDispatched

theorem issues_call (driver : TurnReviewDriver) (call : ReviewCall)
    : Issues driver (driver.call call) := by
  rcases call_cases driver call with h | ⟨_, _, next, verdict, _, hprepares, heq⟩ | ⟨deltas, rfl⟩ |
    hdecides
  . exact h.issues
  . rw [heq]
    exact (issues_reachVerdict next verdict).after hprepares.quiet
  . apply issues_deltaCaptured
  cases call with
  | forward => apply issues_forward
  | dismiss => apply issues_dismiss
  | cancel => apply issues_cancel
  | _ => cases hdecides

end TurnReviewDriver

end Hel
