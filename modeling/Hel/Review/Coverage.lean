import Hel.Review.Lemmas.Coverage
import Mathlib.Logic.Relation

/-!
This module contains the reviews of one session, one after the other.
-/

namespace Hel

open TurnReviewDriver List

variable {deltas : List RepoDelta} {git : GitRunner} {roots : List String}
  {captures : List RepoDelta → Prop} {trees : BTreeMap String String} {root tree : String}
  {delta : RepoDelta}

namespace TurnReviewState

theorem recordAll_baselines (state : TurnReviewState) (requests : List ReviewRequest)
    : (state.recordAll requests).baselines = state.baselines
      ∨ Advances requests (state.recordAll requests).baselines := by
  induction requests generalizing state with
  | nil =>
    left
    rfl
  | cons request rest ih =>
    have hcons : state.recordAll (request :: rest) = (state.record request).recordAll rest := rfl
    rw [hcons]
    rcases ih (state.record request) with hsame | ⟨ordinal, hmem⟩
    . rw [hsame]
      cases request with
      | advanceBaseline trees ordinal =>
        right
        exact ⟨ordinal, mem_cons_self⟩
      | _ =>
        left
        rfl
    . right
      exact ⟨ordinal, mem_cons_of_mem request hmem⟩

end TurnReviewState

/-!
### What a capture holds
-/

variable {baselines : BTreeMap String String} {root : String}

theorem captureRepositoryDelta_ok
    (h : captureRepositoryDelta git baselines root = .ok delta)
    : delta.root = root
      ∧ delta.baselineTree = (baselines.get? root).filter (git.treeExists root) := by
  unfold captureRepositoryDelta at h
  cases hcurrent : withContext ("capture the working tree of " ++ root)
      (git.captureWorktreeTree root) with
  | error message =>
    rw [hcurrent] at h
    cases h
  | ok current =>
    rw [hcurrent] at h
    dsimp only [bind, Except.bind] at h
    split at h
    . split at h <;> cases h
      exact ⟨rfl, rfl⟩
    . cases h
      exact ⟨rfl, rfl⟩

theorem captureRepositoryDeltas_cons {rest : List String}
    (h : captureRepositoryDeltas git baselines (root :: rest) = .ok deltas)
    : ∃ delta others, deltas = delta :: others
        ∧ captureRepositoryDelta git baselines root = .ok delta
        ∧ captureRepositoryDeltas git baselines rest = .ok others := by
  unfold captureRepositoryDeltas at h
  cases hdelta : captureRepositoryDelta git baselines root with rw [hdelta] at h
  | error message => cases h
  | ok delta =>
    cases hothers : captureRepositoryDeltas git baselines rest with rw [hothers] at h
    | error message => cases h
    | ok others =>
      cases h
      exact ⟨delta, others, rfl, rfl, rfl⟩

section

variable (h : captureRepositoryDeltas git baselines roots = .ok deltas)

include h

theorem captureRepositoryDeltas_mem
    : ∀ delta ∈ deltas, captureRepositoryDelta git baselines delta.root = .ok delta := by
  induction roots generalizing deltas with
  | nil =>
    cases h
    simp
  | cons root rest ih =>
    obtain ⟨delta, others, rfl, hdelta, hothers⟩ := captureRepositoryDeltas_cons h
    simp only [mem_cons, forall_eq_or_imp]
    constructor
    . rw [(captureRepositoryDelta_ok hdelta).1, hdelta]
    . apply ih hothers

theorem captureRepositoryDeltas_roots : deltas.map (·.root) = roots := by
  induction roots generalizing deltas with
  | nil =>
    cases h
    rfl
  | cons root rest ih =>
    obtain ⟨delta, others, rfl, hdelta, hothers⟩ := captureRepositoryDeltas_cons h
    rw [map_cons, ih hothers, (captureRepositoryDelta_ok hdelta).1]

theorem capturedTrees_get?
    (hmem : delta ∈ deltas) : (capturedTrees deltas).get? delta.root = some delta.currentTree := by
  apply BTreeMap.get?_ofList
  . apply mem_map.mpr
    exact ⟨delta, hmem, rfl⟩
  intro tree htree
  rw [mem_map] at htree
  obtain ⟨other, hother, heq⟩ := htree
  simp only [Prod.mk.injEq] at heq
  have hcapture := captureRepositoryDeltas_mem h other hother
  rw [heq.1, captureRepositoryDeltas_mem h delta hmem] at hcapture
  cases hcapture
  exact heq.2.symm

end

/-!
### The reviews of a session
-/

/-- `recorded` is how many requests of the review took effect before the daemon stopped. -/
structure SessionReview where
  before : TurnReviewState
  seed : TurnReviewSeed
  git : GitRunner
  repositories : List String
  exchange : Exchange
  steps : List (TurnReviewDriver × ReviewCall)
  recorded : Nat
  baselines : seed.baselines = before.baselines
  converses : Converses
    (fun deltas => captureRepositoryDeltas git seed.baselines repositories = .ok deltas)
    seed exchange steps

namespace SessionReview

variable (review : SessionReview)

def requests : List ReviewRequest :=
  (start review.seed).2 ++ review.steps.flatMap (fun step => (step.1.call step.2).2)

def after : TurnReviewState :=
  review.before.recordAll (review.requests.take review.recorded)

def Completed : Prop :=
  ∃ step ∈ review.steps, Concludes step.1 step.2

def Abandoned : Prop :=
  ∃ step ∈ review.steps, (step.1.call step.2).1.phase.abandoned = true

def Reviewed (root tree tree' : String) : Prop :=
  review.Completed
    ∧ ∃ deltas,
      captureRepositoryDeltas review.git review.seed.baselines review.repositories = .ok deltas
        ∧ ∃ delta ∈ deltas, delta.root = root ∧ delta.baselineTree = some tree
          ∧ delta.currentTree = tree'

/--
The capture leaves out no repository that has a baseline, and finds the tree of each.
-/
def Complete : Prop :=
  ∀ root tree, review.before.baselines.get? root = some tree →
    root ∈ review.repositories ∧ review.git.treeExists root tree = true

def Undisturbed : Prop :=
  ∀ step ∈ review.steps, step.1.revivedBy step.2 = false

theorem advances_requests {review : SessionReview} (h : Advances review.requests trees)
    : ∃ step ∈ review.steps, Advances (step.1.call step.2).2 trees := by
  obtain ⟨ordinal, hmem⟩ := h
  rcases mem_append.mp hmem with hstart | hstep
  . simp [start] at hstart
  rw [mem_flatMap] at hstep
  obtain ⟨step, hstep, hmem⟩ := hstep
  exact ⟨step, hstep, ordinal, hmem⟩

theorem after_baselines (review : SessionReview)
    : review.after.baselines = review.before.baselines
      ∨ ∃ step ∈ review.steps, Advances (step.1.call step.2).2 review.after.baselines := by
  apply (review.before.recordAll_baselines (review.requests.take review.recorded)).imp_right
  intro ⟨ordinal, hmem⟩
  exact advances_requests ⟨ordinal, mem_of_mem_take hmem⟩

theorem reviewed_of_complete {review : SessionReview} (h : review.Complete)
    (hroot : review.before.baselines.get? root = some tree)
    : review.after.baselines.get? root = some tree
      ∨ ∃ tree', review.after.baselines.get? root = some tree'
        ∧ review.Reviewed root tree tree' := by
  rcases review.after_baselines with hsame | ⟨step, hstep, hadvances⟩
  . left
    rw [hsame, hroot]
  rcases review.converses.captured_or with hnone | ⟨deltas, hdeltas, hcaptured⟩
  . exact absurd hadvances (hnone.quiet step hstep _)
  right
  obtain ⟨hconcludes, htrees⟩ := hcaptured.advances step hstep _ hadvances
  obtain ⟨hlisted, hexists⟩ := h root tree hroot
  rw [← captureRepositoryDeltas_roots hdeltas, mem_map] at hlisted
  obtain ⟨delta, hmem, hdelta⟩ := hlisted
  refine ⟨delta.currentTree, ?_, ⟨step, hstep, hconcludes⟩, deltas, hdeltas, delta, hmem, hdelta,
    ?_, rfl⟩
  . rw [htrees, ← hdelta]
    exact capturedTrees_get? hdeltas hmem
  have hbaseline := (captureRepositoryDelta_ok (captureRepositoryDeltas_mem hdeltas delta hmem)).2
  rw [hbaseline, hdelta, review.baselines, hroot]
  simp [hexists]

end SessionReview

/-!
### Reviews that are given up
-/

namespace TurnReviewDriver

theorem Concludes.phase {driver : TurnReviewDriver} {call : ReviewCall} (h : Concludes driver call)
    : ∃ resolution, (driver.call call).1.phase = .resolved resolution
        ∧ resolution ≠ .cancelled := by
  cases h with
  | forwarded synthesis evidence h =>
    exact ⟨.forwarded, by simp [call, forward, h, resolve], by simp⟩
  | dismissed verdict h hfailed =>
    refine ⟨.dismissed, ?_, by simp⟩
    cases verdict with
    | clean | findings synthesis evidence => simp [call, dismiss, h, resolve]
    | failed reason => cases hfailed
  | clean commandId answer h => exact ⟨.dismissed, h, by simp⟩
  | unchanged deltas h hnone =>
    simp only [call, deltaCaptured, h, ne_eq, not_true_eq_false, if_false, hnone,
      Bool.not_false, if_true]
    refine ⟨_, rfl, ?_⟩
    split <;> simp

end TurnReviewDriver

structure Converses.Steady (exchange : Exchange) (steps : List (TurnReviewDriver × ReviewCall))
    : Prop where
  tidy : exchange.driver.Tidy
  given : exchange.driver.phase.abandoned = false →
    ∀ step ∈ steps, (step.1.call step.2).1.phase.abandoned = false
  moved : ∀ step ∈ steps, ∀ trees, Advances (step.1.call step.2).2 trees →
    ∃ resolution, exchange.driver.phase = .resolved resolution ∧ resolution ≠ .cancelled

theorem Converses.steady {seed : TurnReviewSeed} {exchange : Exchange}
    {steps : List (TurnReviewDriver × ReviewCall)} (h : Converses captures seed exchange steps)
    (hquiet : ∀ step ∈ steps, step.1.revivedBy step.2 = false) : Steady exchange steps := by
  induction h with
  | start =>
    constructor
    . apply tidy_start
    . intro _ step hmem
      cases hmem
    . intro step hmem
      cases hmem
  | @call exchange steps call outstanding h hanswers hcaptures ih =>
    rw [forall_mem_append, forall_mem_singleton] at hquiet
    have hsteady := ih hquiet.1
    have hcall := hquiet.2
    constructor
    . exact tidy_call hsteady.tidy hcall
    . intro hopen
      rw [forall_mem_append, forall_mem_singleton]
      refine ⟨hsteady.given ?_, hopen⟩
      cases hphase : exchange.driver.phase.abandoned with
      | false => rfl
      | true =>
      have habandoned := abandoned_call hsteady.tidy hphase hcall
      simp only [Exchange.after, habandoned] at hopen
      cases hopen
    . rw [forall_mem_append, forall_mem_singleton]
      constructor
      . intro step hmem trees hadvances
        obtain ⟨resolution, hphase, hresolution⟩ := hsteady.moved step hmem trees hadvances
        have hkeeps := (keeps_iff hsteady.tidy call).mpr hcall
        exact ⟨resolution, hkeeps.resolved resolution hphase, hresolution⟩
      . intro trees hadvances
        exact (advances_call hadvances).1.phase

namespace SessionReview

theorem baselines_of_abandoned {review : SessionReview} (hquiet : review.Undisturbed)
    (h : review.Abandoned) : review.after.baselines = review.before.baselines := by
  rcases review.after_baselines with hsame | ⟨step, hstep, hadvances⟩
  . exact hsame
  exfalso
  have hsteady := review.converses.steady hquiet
  obtain ⟨resolution, hphase, hresolution⟩ := hsteady.moved step hstep _ hadvances
  obtain ⟨other, hother, habandoned⟩ := h
  have hopen : review.exchange.driver.phase.abandoned = false := by
    simpa [hphase, TurnReviewPhase.abandoned] using hresolution
  rw [hsteady.given hopen other hother] at habandoned
  cases habandoned

end SessionReview

inductive Session (state : TurnReviewState) : List SessionReview → TurnReviewState → Prop where
  | start : Session state [] state
  | review {reviews : List SessionReview} {last : TurnReviewState} (h : Session state reviews last)
      (review : SessionReview) (active : Option String)
      (hbefore : review.before = { last with active := active })
    : Session state (reviews ++ [review]) review.after

def CoveredBy (reviews : List SessionReview) (root : String) : String → String → Prop :=
  Relation.ReflTransGen (fun tree tree' => ∃ review ∈ reviews, review.Reviewed root tree tree')

variable {reviews : List SessionReview}

theorem CoveredBy.mono {tree tree' : String}
    (h : CoveredBy reviews root tree tree') (more : List SessionReview)
    : CoveredBy (reviews ++ more) root tree tree' := by
  apply Relation.ReflTransGen.mono _ tree tree' h
  rintro first second ⟨review, hmem, hreviewed⟩
  exact ⟨review, mem_append_left more hmem, hreviewed⟩

theorem Session.covered {state last : TurnReviewState}
    (h : Session state reviews last) (hcomplete : ∀ review ∈ reviews, review.Complete)
    (hroot : state.baselines.get? root = some tree)
    : ∃ tree', last.baselines.get? root = some tree' ∧ CoveredBy reviews root tree tree' := by
  induction h with
  | start => exact ⟨tree, hroot, .refl⟩
  | @review reviews last h review active hbefore ih =>
    rw [forall_mem_append, forall_mem_singleton] at hcomplete
    obtain ⟨tree', hlast, hcovered⟩ := ih hcomplete.1
    have hopened : review.before.baselines.get? root = some tree' := by
      rw [hbefore]
      exact hlast
    rcases review.reviewed_of_complete hcomplete.2 hopened with hsame | ⟨tree'', hafter, hreviewed⟩
    . exact ⟨tree', hsame, hcovered.mono [review]⟩
    . refine ⟨tree'', hafter, (hcovered.mono [review]).tail ?_⟩
      exact ⟨review, by simp, hreviewed⟩

/--
In a session whose captures are complete, a baseline moves only over a change that a completed review
has looked at, and a review that was given up moves none.
-/
theorem review_coverage_has_no_gap {state last : TurnReviewState} {reviews : List SessionReview}
    (h : Session state reviews last) (hcomplete : ∀ review ∈ reviews, review.Complete)
    (hquiet : ∀ review ∈ reviews, review.Undisturbed)
    : (∀ review ∈ reviews, ∀ root tree, review.before.baselines.get? root = some tree →
        review.after.baselines.get? root = some tree
          ∨ ∃ tree', review.after.baselines.get? root = some tree'
            ∧ review.Reviewed root tree tree')
      ∧ (∀ review ∈ reviews, review.Abandoned → review.after.baselines = review.before.baselines)
      ∧ (∀ root tree, state.baselines.get? root = some tree →
          ∃ tree', last.baselines.get? root = some tree' ∧ CoveredBy reviews root tree tree') := by
  refine ⟨?_, ?_, ?_⟩
  . intro review hmem root tree hroot
    exact review.reviewed_of_complete (hcomplete review hmem) hroot
  . intro review hmem habandoned
    exact review.baselines_of_abandoned (hquiet review hmem) habandoned
  . intro root tree hroot
    exact h.covered hcomplete hroot

def plainGit (current : String → String) : GitRunner where
  captureWorktreeTree root := .ok (current root)
  treeExists _ _ := true
  diffBetweenTrees _ baseline current :=
    .ok (if baseline = current then "" else "@@ -1 +1 @@\n+changed\n")

def baselineSeed (state : TurnReviewState) : TurnReviewSeed :=
  { plainSeed .quick with baselines := state.baselines }

def captured (seed : TurnReviewSeed) (deltas : List RepoDelta) : Exchange :=
  (Exchange.start seed).after (.deltaCaptured deltas)
    { (Exchange.start seed).outstanding with capture := false }

theorem converses_captured (seed : TurnReviewSeed) (h : captures deltas)
    : Converses captures seed (captured seed deltas)
        [((Exchange.start seed).driver, .deltaCaptured deltas)] := by
  apply Converses.call Converses.start
  . apply Answers.captured
    rfl
  intro other heq
  cases heq
  exact h

def appState : TurnReviewState where
  baselines := BTreeMap.ofList [("/w/app", "app-1")]

def appDelta : RepoDelta where
  root := "/w/app"
  baselineTree := some "app-1"
  currentTree := "app-2"
  patch := "@@ -1 +1 @@\n+changed\n"
  diffstat := "1 file changed, 1 insertion(+)"
  changedLines := 1

def failedReview : SessionReview where
  before := appState
  seed := baselineSeed appState
  git := plainGit (fun _ => "app-2")
  repositories := ["/w/app"]
  exchange := (captured (baselineSeed appState) [appDelta]).after (.requestFailed "no harness")
    { (captured (baselineSeed appState) [appDelta]).outstanding with
      starts := (captured (baselineSeed appState) [appDelta]).outstanding.starts.erase reviewerRole }
  steps :=
    [((Exchange.start (baselineSeed appState)).driver, .deltaCaptured [appDelta]),
     ((captured (baselineSeed appState) [appDelta]).driver, .requestFailed "no harness")]
  recorded := 20
  baselines := rfl
  converses := by
    apply Converses.call (converses_captured _ (by decide +kernel))
    . apply Answers.notStarted reviewerRole
      . decide +kernel
      . decide
    . nofun

def prompted : Exchange :=
  (captured (baselineSeed failedReview.after) [appDelta]).after (.roleStarted reviewerRole)
    { (captured (baselineSeed failedReview.after) [appDelta]).outstanding with
      starts := (captured (baselineSeed failedReview.after) [appDelta]).outstanding.starts.erase
        reviewerRole }

def cleanReview : SessionReview where
  before := failedReview.after
  seed := baselineSeed failedReview.after
  git := plainGit (fun _ => "app-2")
  repositories := ["/w/app"]
  exchange := prompted.after (.roleTurnCompleted "turn-review-reviewer-1" "No findings.")
    prompted.outstanding
  steps :=
    [((Exchange.start (baselineSeed failedReview.after)).driver, .deltaCaptured [appDelta]),
     ((captured (baselineSeed failedReview.after) [appDelta]).driver, .roleStarted reviewerRole),
     (prompted.driver, .roleTurnCompleted "turn-review-reviewer-1" "No findings.")]
  recorded := 20
  baselines := rfl
  converses := by
    refine Converses.call (Converses.call (converses_captured _ (by decide +kernel))
      (Answers.started reviewerRole (by decide +kernel)) ?_) (Answers.turnCompleted _ _) ?_
    . nofun
    . nofun

theorem review_coverage_of_failed_and_clean_review
    : failedReview.after.baselines.get? "/w/app" = some "app-1"
      ∧ cleanReview.after.baselines.get? "/w/app" = some "app-2"
      ∧ CoveredBy [failedReview, cleanReview] "/w/app" "app-1" "app-2" := by
  have hsession : Session appState [failedReview, cleanReview] cleanReview.after :=
    Session.review (Session.review Session.start failedReview none rfl) cleanReview none
      (by decide +kernel)
  have hcomplete : ∀ review ∈ [failedReview, cleanReview], review.Complete := by
    intro review hmem root tree hroot
    have hlisted : ∀ root, review.before.baselines.contains root = true → root = "/w/app" := by
      intro root hcontains
      rw [← BTreeMap.mem_keys_iff] at hcontains
      have hkeys : review.before.baselines.keys = ["/w/app"] := by
        rcases mem_pair.mp hmem with rfl | rfl <;> decide +kernel
      simpa [hkeys] using hcontains
    rw [hlisted root (by simp [BTreeMap.contains, hroot])]
    rcases mem_pair.mp hmem with rfl | rfl <;> exact ⟨mem_singleton.mpr rfl, rfl⟩
  have hquiet : ∀ review ∈ [failedReview, cleanReview], review.Undisturbed := by
    intro review hmem
    rcases mem_pair.mp hmem with rfl | rfl <;> unfold SessionReview.Undisturbed <;> decide +kernel
  obtain ⟨tree, hafter, hcovered⟩ :=
    (review_coverage_has_no_gap hsession hcomplete hquiet).2.2 "/w/app" "app-1" (by decide +kernel)
  have hmoved : cleanReview.after.baselines.get? "/w/app" = some "app-2" := by decide +kernel
  cases hmoved.symm.trans hafter
  exact ⟨by decide +kernel, hmoved, hcovered⟩

def workspaceState : TurnReviewState where
  baselines := BTreeMap.ofList [("/w/app", "app-1"), ("/w/lib", "lib-1")]

def stillDelta (root : String) (baseline : Option String) (current : String) : RepoDelta where
  root := root
  baselineTree := baseline
  currentTree := current
  patch := ""
  diffstat := "0 files changed"
  changedLines := 0

def partialReview : SessionReview where
  before := workspaceState
  seed := baselineSeed workspaceState
  git := plainGit (fun _ => "app-1")
  repositories := ["/w/app"]
  exchange := captured (baselineSeed workspaceState) [stillDelta "/w/app" (some "app-1") "app-1"]
  steps :=
    [((Exchange.start (baselineSeed workspaceState)).driver,
      .deltaCaptured [stillDelta "/w/app" (some "app-1") "app-1"])]
  recorded := 20
  baselines := rfl
  converses := by
    apply converses_captured
    decide +kernel

def resumedReview : SessionReview where
  before := partialReview.after
  seed := baselineSeed partialReview.after
  git := plainGit (fun _ => "lib-2")
  repositories := ["/w/lib"]
  exchange := captured (baselineSeed partialReview.after) [stillDelta "/w/lib" none "lib-2"]
  steps :=
    [((Exchange.start (baselineSeed partialReview.after)).driver,
      .deltaCaptured [stillDelta "/w/lib" none "lib-2"])]
  recorded := 20
  baselines := rfl
  converses := by
    apply converses_captured
    decide +kernel

-- The change from `lib-1` to `lib-2` is recorded as reviewed, and no review has looked at it.
theorem review_coverage_gap
    : Session workspaceState [partialReview, resumedReview] resumedReview.after
      ∧ workspaceState.baselines.get? "/w/lib" = some "lib-1"
      ∧ partialReview.after.baselines.get? "/w/lib" = none
      ∧ resumedReview.after.baselines.get? "/w/lib" = some "lib-2"
      ∧ ¬CoveredBy [partialReview, resumedReview] "/w/lib" "lib-1" "lib-2" := by
  refine ⟨?_, by decide +kernel, by decide +kernel, by decide +kernel, ?_⟩
  . exact Session.review (Session.review Session.start partialReview none rfl) resumedReview none
      (by decide +kernel)
  intro hcovered
  have hnone : ∀ review ∈ [partialReview, resumedReview], ∀ tree tree',
      ¬review.Reviewed "/w/lib" tree tree' := by
    rintro review hmem tree tree' ⟨_, deltas, hdeltas, delta, hdelta, hroot, hbaseline, _⟩
    rcases mem_pair.mp hmem with rfl | rfl
    . have hlisted := mem_map_of_mem (f := RepoDelta.root) hdelta
      rw [captureRepositoryDeltas_roots hdeltas, hroot] at hlisted
      exact absurd hlisted (by decide)
    have hcapture := captureRepositoryDelta_ok (captureRepositoryDeltas_mem hdeltas delta hdelta)
    have hbase : resumedReview.seed.baselines.get? "/w/lib" = none := by decide +kernel
    rw [hcapture.2, hroot, hbase] at hbaseline
    cases hbaseline
  cases hcovered.cases_head with
  | inl heq => exact absurd heq (by decide)
  | inr h =>
    obtain ⟨tree, ⟨review, hmem, hreviewed⟩, _⟩ := h
    exact hnone review hmem _ _ hreviewed

end Hel
