import Hel.Review.Lemmas.PromptLock
import Hel.Worker.Plain

/-!
This module contains the lock of a session's prompts.
-/

namespace Hel

open ReviewHost TurnReviewDriver

variable {rest : List ReviewRequest} {request : ReviewRequest} {step : ReviewStep}

namespace ReviewHost

variable {driver : TurnReviewDriver} {after : ReviewSlot} {call : ReviewCall}
  {slot : ReviewSlot} {event : ActorEvent}

structure SessionView where
  locked : Bool
  review : Option ReviewSlot
  preparing : Bool
  pending : Bool
  closing : Bool
  preparations : Nat
  closings : Nat

def look (host : ReviewHost) (sessionId : String) : SessionView where
  locked := host.promptLock sessionId
  review := host.reviews sessionId
  preparing := host.preparing sessionId
  pending := (host.pendingOpen sessionId).isSome
  closing := host.closing sessionId
  preparations := host.preparations.count sessionId
  closings := host.saves.count (sessionId, .closed)

namespace SessionView

def held (view : SessionView) : Bool :=
  view.review.any (fun slot => slot.driver.phase.holds)

/-- The lock is held while a review is prepared or opened, and while an open one holds the prompts. -/
def Follows (view : SessionView) : Prop :=
  view.locked = (view.preparing || view.pending || view.held)

instance (view : SessionView) : Decidable view.Follows :=
  inferInstanceAs (Decidable (_ = _))

structure Kept (view : SessionView) : Prop where
  follows : view.Follows
  pending : view.pending = true → view.preparing = true
  exclusive : view.preparing = true → view.review = none
  once : view.preparations ≤ 1
  prepares : 0 < view.preparations → view.preparing = true ∧ view.pending = false
  closes : view.closings ≤ if view.closing then 1 else 0
  closing : view.closing = true → view.review.isSome = true ∧ view.held = false
  rest : ∀ slot, view.review = some slot → slot.driver.Restful

end SessionView

open SessionView

variable {host : ReviewHost} {sessionId other : String}

def Local (sessionId : String) (host host' : ReviewHost) : Prop :=
  ∀ other, other ≠ sessionId → host'.look other = host.look other

theorem Local.trans {before after : ReviewHost} (h : Local sessionId host before)
    (hnext : Local sessionId before after) : Local sessionId host after := by
  intro other hne
  rw [hnext other hne, h other hne]

theorem Local.kept {host' : ReviewHost} (h : Local sessionId host host')
    (hkept : ∀ other, (host.look other).Kept) (hown : (host'.look sessionId).Kept) (other : String)
    : (host'.look other).Kept := by
  by_cases heq : other = sessionId
  . rw [heq]
    exact hown
  . rw [h other heq]
    exact hkept other

theorem local_runOne (request : ReviewRequest)
    : Local sessionId host (host.runOne sessionId request) := by
  intro other hne
  unfold runOne
  repeat' split
  all_goals simp [look, setReview, setClosing, releasePrompts, hne, Ne.symm hne]

theorem local_run (requests : List ReviewRequest)
    : Local sessionId host (host.run sessionId requests) := by
  induction requests generalizing host with
  | nil => exact fun _ _ => rfl
  | cons request rest ih => exact (local_runOne request).trans ih

theorem run_of_none (h : host.reviews sessionId = none) (requests : List ReviewRequest)
    : host.run sessionId requests = host := by
  induction requests with
  | nil => rfl
  | cons request rest ih =>
    have hsame : host.runOne sessionId request = host := by
      simp [runOne, h]
    simp only [run, List.foldl_cons, hsame]
    exact ih

structure Moved (view : SessionView) (driver : TurnReviewDriver) (requests : List ReviewRequest)
    : Prop where
  review : ∃ slot, view.review = some slot ∧ slot.driver = driver
  preparing : view.preparing = false
  pending : view.pending = false
  preparations : view.preparations = 0
  closes : view.closings ≤ if view.closing then 1 else 0
  closing : view.closing = true → driver.phase.holds = false
  rest : driver.Restful
  ends : .close ∈ requests → driver.phase.holds = false
  follows : view.locked = driver.phase.holds ∨ .close ∈ requests ∧ view.closing = false

theorem Moved.kept {view : SessionView} (h : Moved view driver []) : view.Kept := by
  have ⟨slot, hreview, hdriver⟩ := h.review
  have hheld : view.held = driver.phase.holds := by
    simp [held, hreview, hdriver]
  have hfollows : view.locked = driver.phase.holds := by
    simpa using h.follows
  constructor
  . simp [Follows, h.preparing, h.pending, hheld, hfollows]
  . simp [h.pending]
  . simp [h.preparing]
  . simp [h.preparations]
  . simp [h.preparations]
  . exact h.closes
  . intro hclosing
    rw [hheld]
    exact ⟨by simp [hreview], h.closing hclosing⟩
  . intro other hother
    rw [hreview] at hother
    cases hother
    rw [hdriver]
    exact h.rest

variable {requests : List ReviewRequest}

theorem Moved.reviews (h : Moved (host.look sessionId) driver requests)
    (hdriver : after.driver = driver)
    : Moved ((host.setReview sessionId (some after)).look sessionId) driver requests :=
  { h with review := ⟨after, by simp [look, setReview], hdriver⟩ }

theorem Moved.record
    (h : Moved (host.look sessionId) driver (request :: rest))
    (hne : request ≠ .close) : Moved ((host.runOne sessionId request).look sessionId) driver rest := by
  have ⟨slot, hreview, hdriver⟩ := h.review
  have hreview : host.reviews sessionId = some slot := hreview
  have hends : .close ∈ rest → driver.phase.holds = false := by
    intro hclose
    exact h.ends (List.mem_cons_of_mem _ hclose)
  have hfollows : host.promptLock sessionId = driver.phase.holds
      ∨ .close ∈ rest ∧ host.closing sessionId = false := by
    apply h.follows.imp_right
    intro ⟨hclose, hclosing⟩
    exact ⟨by simpa [hne.symm] using hclose, hclosing⟩
  have hkept : Moved (host.look sessionId) driver rest := by
    exact { h with ends := hends, follows := hfollows }
  cases request with
  | startRole role fresh =>
    simp only [runOne, hreview]
    split
    . exact hkept.reviews hdriver
    . exact hkept
  | advanceBaseline trees ordinal | recordPriorReview prior | clearPriorReview =>
    simp only [runOne, hreview]
    exact hkept.reviews hdriver
  | close => exact absurd rfl hne
  | _ =>
    simp only [runOne, hreview]
    exact hkept

theorem Moved.close (h : Moved (host.look sessionId) driver (.close :: rest))
    : Moved ((host.runOne sessionId .close).look sessionId) driver rest
      ∨ (host.runOne sessionId .close).reviews sessionId = none
        ∧ ((host.runOne sessionId .close).look sessionId).Kept := by
  have ⟨slot, hreview, hdriver⟩ := h.review
  have hreview : host.reviews sessionId = some slot := hreview
  have hholds := h.ends List.mem_cons_self
  have hpreparing : host.preparing sessionId = false := h.preparing
  have hpending : (host.pendingOpen sessionId).isSome = false := h.pending
  have hpreparations : host.preparations.count sessionId = 0 := h.preparations
  have hcloses := h.closes
  simp only [runOne, hreview]
  split
  next hclosing =>
    left
    refine { h with ends := fun _ => hholds, follows := .inl ?_ }
    have hclosing : (host.look sessionId).closing = true := hclosing
    simpa [hclosing] using h.follows
  rename_i hclosing
  have hclosing : host.closing sessionId = false := by
    simpa using hclosing
  split
  . left
    refine { h with
      review := ⟨{ slot with state := slot.state.record .close }, ?_, hdriver⟩
      closes := ?_
      closing := fun _ => hholds
      ends := fun _ => hholds
      follows := .inl ?_ }
    . simp [look, setReview, setClosing, releasePrompts]
    . simp only [look, hclosing] at hcloses
      simpa [look, setReview, setClosing, releasePrompts] using hcloses
    . simp [look, setReview, setClosing, releasePrompts, hholds]
  . right
    constructor
    . simp [setReview, releasePrompts]
    simp only [look, hclosing] at hcloses
    constructor <;>
      simp_all [look, setReview, releasePrompts, Follows, held]

theorem Moved.run (h : Moved (host.look sessionId) driver requests)
    : ((host.run sessionId requests).look sessionId).Kept := by
  induction requests generalizing host with
  | nil => exact h.kept
  | cons request rest ih =>
    by_cases hclose : request = .close
    . subst hclose
      rcases h.close with hmoved | ⟨hnone, hkept⟩
      . exact ih hmoved
      have hsame := run_of_none hnone rest
      simp only [run, List.foldl_cons] at hsame ⊢
      rw [hsame]
      exact hkept
    . exact ih (h.record hclose)

/-- A call that the driver takes without giving a running review up or resuming a failed one. -/
def Bears (driver : TurnReviewDriver) (call : ReviewCall) : Prop :=
  (driver.phase.holds = true → driver.givesUpOn call = false) ∧ driver.resumesOn call = false

theorem requestFailed_unlocks (driver : TurnReviewDriver) (message : String)
    : (driver.requestFailed message).1.phase.holds = false
      ∧ .close ∉ (driver.requestFailed message).2 := by
  unfold requestFailed
  split
  next hfinished =>
    have ⟨resolution, hphase⟩ := (finished_iff driver).mp hfinished
    simp [hphase, TurnReviewPhase.holds]
  . rw [reachVerdict_phase]
    exact ⟨rfl, close_notMem_pauses _⟩

theorem restful_requestFailed (hrest : driver.Restful) (message : String)
    : (driver.requestFailed message).1.Restful := by
  unfold requestFailed
  split
  . exact hrest
  . intro _
    exact .of_reaped (reachVerdict_reaped _ _)

section Open

variable {slot : ReviewSlot} {driver : TurnReviewDriver} {requests : List ReviewRequest}

variable {view : SessionView}

theorem SessionView.Kept.unprepared (h : view.Kept) (hpreparing : view.preparing = false)
    : view.pending = false ∧ view.preparations = 0 := by
  constructor
  . by_contra hpending
    have := h.pending (by simpa using hpending)
    simp [hpreparing] at this
  by_contra hpositive
  have := h.prepares (by omega)
  simp [hpreparing] at this

theorem SessionView.Kept.moved (h : view.Kept)
    (hreview : view.review = some slot) : Moved view slot.driver [] := by
  have hpreparing : view.preparing = false := by
    by_contra hpreparing
    have := h.exclusive (by simpa using hpreparing)
    simp [hreview] at this
  have ⟨hpending, hpreparations⟩ := h.unprepared hpreparing
  have hheld : view.held = slot.driver.phase.holds := by
    simp [held, hreview]
  refine ⟨⟨slot, hreview, rfl⟩, hpreparing, hpending, hpreparations, h.closes, ?_,
    h.rest slot hreview, nofun, .inl ?_⟩
  . intro hclosing
    rw [← hheld]
    exact (h.closing hclosing).2
  . have := h.follows
    simpa [Follows, hpreparing, hpending, hheld] using this

variable (h : (host.look sessionId).Kept) (hreview : host.reviews sessionId = some slot)

include h hreview

theorem moved_call (hcall : ∀ message, call ≠ .requestFailed message)
    (hbears : Bears slot.driver call)
    : Moved
        ((host.setReview sessionId (some { after with driver := (slot.driver.call call).1 })).look
          sessionId)
        (slot.driver.call call).1 (slot.driver.call call).2 := by
  have hmoved := h.moved hreview
  have hlocked : (host.look sessionId).locked = slot.driver.phase.holds := by
    simpa using hmoved.follows
  have hrest := hmoved.rest
  have hmoves := moves_call hrest hcall
  have hholds (hacts : slot.driver.phase.holds = true ∨ slot.driver.resumesOn call = true)
      : slot.driver.phase.holds = true := by
    simpa [hbears.2] using hacts
  have hphase : (slot.driver.call call).1.phase.holds = slot.driver.phase.holds
      ∨ .close ∈ (slot.driver.call call).2 ∧ (slot.driver.call call).1.phase.holds = false := by
    cases hmoves with
    | stays hphase _ _ =>
      left
      rw [hphase]
    | acts hacts hphase _ =>
      left
      rw [hholds hacts]
      exact TurnReviewPhase.holds_of_active hphase
    | finds hacts hphase _ _ =>
      left
      rw [hholds hacts, hphase]
      rfl
    | fails hgives hphase _ _ =>
      left
      have hfree : slot.driver.phase.holds = false := by
        by_contra hheld
        have hheld : slot.driver.phase.holds = true := by simpa using hheld
        simp [hbears.1 hheld] at hgives
        simp [hheld] at hgives
      rw [hfree, hphase]
      rfl
    | ends hphase _ hclose =>
      right
      have ⟨resolution, hphase⟩ := (finished_iff _).mp hphase
      exact ⟨hclose, by simp [hphase, TurnReviewPhase.holds]⟩
  have hclosed (hclosing : slot.driver.phase.holds = false)
      : (slot.driver.call call).1.phase.holds = false := by
    rcases hphase with hsame | ⟨_, hfree⟩
    . rw [hsame]
      exact hclosing
    . exact hfree
  refine { hmoved with
    review := ⟨_, by simp [look, setReview]; rfl, rfl⟩
    closing := fun hclosing => hclosed (hmoved.closing hclosing)
    rest := ?_, ends := ?_, follows := ?_ }
  . intro hactive
    cases hmoves with
    | stays hphase hkeeps _ =>
      apply hkeeps
      apply hrest
      rw [← hphase]
      exact hactive
    | acts _ hphase _ => simp [hphase] at hactive
    | finds _ _ hidle _ | fails _ _ hidle _ | ends _ hidle _ => exact hidle
  . intro hclose
    cases hmoves with
    | ends hphase _ _ =>
      have ⟨resolution, hphase⟩ := (finished_iff _).mp hphase
      simp [hphase, TurnReviewPhase.holds]
    | stays _ _ hnone | acts _ _ hnone | finds _ _ _ hnone | fails _ _ _ hnone =>
      exact absurd hclose hnone
  . rcases hphase with hsame | ⟨hclose, hfree⟩
    . left
      rw [hsame]
      exact hlocked
    by_cases hclosing' : host.closing sessionId = true
    . left
      rw [hfree]
      rw [hmoved.closing hclosing'] at hlocked
      exact hlocked
    . right
      exact ⟨hclose, by simpa [look, setReview] using hclosing'⟩

theorem kept_call (hafter : after.driver = slot.driver)
    (hcall : ∀ message, call ≠ .requestFailed message) (hbears : Bears slot.driver call)
    : ((host.call sessionId after call).look sessionId).Kept := by
  have hmoved := @moved_call after call host sessionId slot h hreview hcall hbears
  unfold ReviewHost.call
  rw [hafter]
  exact hmoved.run

theorem kept_fail (hafter : after.driver = slot.driver) (message : String)
    : ((host.fail sessionId after message).look sessionId).Kept := by
  have ⟨hholds, hclose⟩ := requestFailed_unlocks slot.driver message
  have hmoved : Moved
      (((host.setReview sessionId (some { after with
          state := { after.state with active := none }
          driver := (slot.driver.requestFailed message).1 })).releasePrompts sessionId).look sessionId)
      (slot.driver.requestFailed message).1 (slot.driver.requestFailed message).2 := by
    refine { h.moved hreview with
      review := ⟨_, by simp [look, setReview, releasePrompts]; rfl, rfl⟩
      closing := fun _ => hholds
      rest := restful_requestFailed (h.rest slot hreview) message
      ends := fun _ => hholds
      follows := .inl ?_ }
    rw [hholds]
    simp [look, setReview, releasePrompts]
  unfold fail
  rw [hafter]
  exact hmoved.run

end Open

section Session

theorem local_begin (config : ReviewConfig)
    : Local sessionId host (host.begin sessionId config) := by
  intro other hne
  unfold begin
  split <;> simp [look, holdPrompts, setPreparing, hne, Ne.symm hne]

theorem local_prepared (result : Except String Prepared)
    : Local sessionId host (host.prepared sessionId result) := by
  intro other hne
  unfold prepared
  split
  . simp [look, setPreparing, releasePrompts, hne]
  split
  . simp [look, setPreparing, releasePrompts, hne]
  dsimp only
  split
  . simp [look, setPendingOpen, hne]
  . simp [look, setPreparing, releasePrompts, hne]

theorem local_setReview (slot : Option ReviewSlot)
    : Local sessionId host (host.setReview sessionId slot) := by
  intro other hne
  simp [look, setReview, hne]

theorem local_stateSaved (completion : PersistenceCompletion) (result : Except String Unit)
    : Local sessionId host (host.stateSaved sessionId completion result) := by
  intro other hne
  unfold stateSaved
  split
  . split
    . rfl
    dsimp only
    split
    . simp [look, setPreparing, releasePrompts, setPendingOpen, hne]
    . rw [local_run _ other hne]
      simp [look, setPreparing, setReview, setPendingOpen, hne]
  . simp [look, setClosing, releasePrompts, setReview, hne]

theorem local_call (slot : ReviewSlot) (call : ReviewCall)
    : Local sessionId host (host.call sessionId slot call) :=
  (local_setReview _).trans (local_run _)

theorem local_fail (slot : ReviewSlot) (message : String)
    : Local sessionId host (host.fail sessionId slot message) := by
  intro other hne
  unfold fail
  rw [local_run _ other hne]
  simp [look, setReview, releasePrompts, hne]

theorem kept_begin (h : (host.look sessionId).Kept) (config : ReviewConfig)
    : ((host.begin sessionId config).look sessionId).Kept := by
  unfold begin
  split
  . exact h
  rename_i hbegins
  have hgates : host.reviews sessionId = none ∧ host.preparing sessionId = false := by
    unfold refuseBegin at hbegins
    split at hbegins
    . cases hbegins
    rename_i hstart
    split at hbegins
    . cases hbegins
    rename_i hpreparing
    unfold refuseStart at hstart
    split at hstart
    . cases hstart
    next hreview => exact ⟨by simpa using hreview, by simpa using hpreparing⟩
  have hunprepared := h.unprepared hgates.2
  have hcloses := h.closes
  have hclosing := h.closing
  simp only [look, hgates.1] at hunprepared hcloses hclosing
  constructor <;>
    simp_all [look, holdPrompts, setPreparing, Follows, held]

theorem kept_prepared (h : (host.look sessionId).Kept) (hmem : sessionId ∈ host.preparations)
    (result : Except String Prepared)
    : (({ host with preparations := host.preparations.erase sessionId }.prepared sessionId
        result).look sessionId).Kept := by
  have hpositive : 0 < host.preparations.count sessionId := List.count_pos_iff.mpr hmem
  have ⟨hpreparing, hpending⟩ := h.prepares hpositive
  have honce := h.once
  have hreview := h.exclusive hpreparing
  have hcloses := h.closes
  have hclosing := h.closing
  have hfollows := h.follows
  simp only [look] at hpreparing hpending honce hreview hcloses hclosing hfollows
  have hcount : (host.preparations.erase sessionId).count sessionId = 0 := by
    rw [List.count_erase_self]
    omega
  have hrefused : ((({ host with preparations := host.preparations.erase sessionId }.setPreparing
      sessionId false).releasePrompts sessionId).look sessionId).Kept := by
    constructor <;>
      simp_all [look, setPreparing, releasePrompts, Follows, held]
  unfold prepared
  split
  . exact hrefused
  split
  . exact hrefused
  dsimp only
  split
  . constructor <;>
      simp_all [look, setPendingOpen, Follows, held]
  . exact hrefused

theorem kept_opened (h : (host.look sessionId).Kept) (result : Except String Unit)
    : (({ host with saves := host.saves.erase (sessionId, .opened) }.stateSaved sessionId .opened
        result).look sessionId).Kept := by
  have hcount : (host.saves.erase (sessionId, .opened)).count (sessionId, .closed)
      = host.saves.count (sessionId, .closed) := by
    apply List.count_erase_of_ne
    simp
  have hsame : look { host with saves := host.saves.erase (sessionId, .opened) } sessionId
      = host.look sessionId := by
    simp [look, hcount]
  simp only [stateSaved]
  split
  . rw [hsame]
    exact h
  rename_i pending hopen
  have hpending : (host.look sessionId).pending = true := by
    simp [look, hopen]
  have hpreparing := h.pending hpending
  have hreview := h.exclusive hpreparing
  have hpreparations : host.preparations.count sessionId = 0 := by
    by_contra hpositive
    have := (h.prepares (Nat.pos_of_ne_zero hpositive)).2
    simp [hpending] at this
  have hcloses := h.closes
  have hclosing := h.closing
  have hfollows := h.follows
  simp only [look] at hpreparing hreview hcloses hclosing hfollows
  split
  . constructor <;>
      simp_all [look, setPreparing, releasePrompts, setPendingOpen, Follows, held]
  have hmoved : Moved
      ((((({ host with saves := host.saves.erase (sessionId, .opened) }.setPendingOpen sessionId
        none).setPreparing sessionId false).setReview sessionId
        (some { epoch := pending.epoch
                driver := (start pending.prepared.seed).1
                state := pending.prepared.state })).look sessionId))
      (start pending.prepared.seed).1
      (start pending.prepared.seed).2 := by
    constructor
    . exact ⟨_, by simp [look, setReview]; rfl, rfl⟩
    . simp [look, setPendingOpen, setPreparing, setReview]
    . simp [look, setPendingOpen, setPreparing, setReview]
    . exact hpreparations
    . rw [← hcount] at hcloses
      exact hcloses
    . intro hclosing'
      have hclosing' : host.closing sessionId = true := hclosing'
      simp [hclosing', hreview] at hclosing
    . exact fun _ => ⟨rfl, rfl⟩
    . simp [start]
    . left
      simp [look, setPendingOpen, setPreparing, setReview, start, TurnReviewPhase.holds]
      simpa [Follows, hpreparing] using hfollows
  exact hmoved.run

theorem kept_closed (h : (host.look sessionId).Kept) (hmem : (sessionId, .closed) ∈ host.saves)
    (result : Except String Unit)
    : (({ host with saves := host.saves.erase (sessionId, .closed) }.stateSaved sessionId .closed
        result).look sessionId).Kept := by
  have hpositive : 0 < host.saves.count (sessionId, .closed) := List.count_pos_iff.mpr hmem
  have hcloses := h.closes
  have hclosing : host.closing sessionId = true := by
    by_contra hclosing
    simp only [look, hclosing] at hcloses
    simp at hcloses
    omega
  have hopen := (h.closing hclosing).1
  have ⟨slot, hreview⟩ := Option.isSome_iff_exists.mp hopen
  have hmoved := h.moved hreview
  have hpreparing := hmoved.preparing
  have hpending := hmoved.pending
  have hpreparations := hmoved.preparations
  simp only [look] at hpreparing hpending hpreparations hcloses
  have hcount : (host.saves.erase (sessionId, .closed)).count (sessionId, .closed) = 0 := by
    rw [List.count_erase_self]
    simp only [hclosing, if_true] at hcloses
    omega
  simp only [stateSaved]
  constructor <;>
    simp_all [look, setClosing, releasePrompts, setReview, Follows, held]

end Session

def begins (host : ReviewHost) : HostEvent → Option String
  | .start sessionId config =>
    if (host.refuseBegin sessionId config).isNone then some sessionId else none
  | .view sessionId snapshot config =>
    let seen := { host with sessions := Function.update host.sessions sessionId (some snapshot) }
    if host.finishedTurn sessionId snapshot && config.enabled
        && (seen.refuseBegin sessionId config).isNone then
      some sessionId
    else
      none
  | _ => none

section Handle

variable {codec : RelayCodec} {contentText : List ContentBlock → String}
  {chunksText : List ContentChunk → String} {host' : ReviewHost}

theorem outcome_ne_requestFailed
    (h : step.outcome codec contentText chunksText sessionId slot = .call call) (message : String)
    : call ≠ .requestFailed message := by
  intro hcall
  subst hcall
  unfold ReviewStep.outcome at h
  repeat' split at h
  all_goals cases h

theorem read_driver (step : ReviewStep) (slot : ReviewSlot)
    : (step.read codec contentText sessionId slot).driver = slot.driver := by
  unfold ReviewStep.read
  split <;> rfl

theorem kept_step (h : ∀ other, (host.look other).Kept) {epoch : Nat}
    (hbears : ∀ slot call, host.reviews sessionId = some slot → slot.epoch = epoch →
      step.outcome codec contentText chunksText sessionId slot = .call call → Bears slot.driver call)
    (other : String)
    : ((host.step codec contentText chunksText sessionId epoch step).look other).Kept := by
  unfold ReviewHost.step
  split
  . exact h other
  rename_i slot hreview
  split
  . exact h other
  rename_i hepoch
  have hepoch : slot.epoch = epoch := by
    simpa using hepoch
  have hdriver := @read_driver sessionId codec contentText step slot
  dsimp only
  split
  next call hcall =>
    apply (local_call _ call).kept h
    exact kept_call (h _) hreview hdriver (outcome_ne_requestFailed hcall)
      (hbears slot call hreview hepoch hcall)
  next message _ =>
    apply (local_fail _ message).kept h
    exact kept_fail (h _) hreview hdriver message
  . apply (local_setReview _).kept h
    exact (((h _).moved hreview).reviews hdriver).kept

theorem kept_resolve (h : ∀ other, (host.look other).Kept) (resolution : Resolution) (other : String)
    : ((host.resolve sessionId resolution).1.look other).Kept := by
  unfold resolve
  split
  . exact h other
  rename_i slot hreview
  have hcall {call : ReviewCall} (hdecides : call.decides = true)
      : ((host.call sessionId slot call).look other).Kept := by
    apply (local_call slot call).kept h
    apply kept_call (h _) hreview rfl
    . intro message hfailed
      rw [hfailed] at hdecides
      cases hdecides
    constructor
    . intro _
      cases call <;> first | rfl | cases hdecides
    . cases call <;> first | rfl | cases hdecides
  dsimp only
  repeat' split
  all_goals first
    | exact h other
    | exact hcall rfl

theorem unlocked_shutdown (h : (host.look other).Kept) : host.shutdown.promptLock other = false := by
  have hfollows := h.follows
  simp only [Follows, look] at hfollows
  simp only [shutdown]
  cases hpreparing : host.preparing other with
  | true => simp
  | false =>
  cases hreview : host.reviews other with
  | some slot => simp
  | none =>
    have hnone : (host.pendingOpen other).isSome = false := (h.unprepared hpreparing).1
    simp [hfollows, hpreparing, hnone, held, hreview]

structure Sound (host : ReviewHost) : Prop where
  follows : ∀ other, (host.look other).Follows
  kept : host.stopped = false → ∀ other, (host.look other).Kept

theorem Sound.of_kept (h : ∀ other, (host.look other).Kept) : host.Sound where
  follows := fun other => (h other).follows
  kept := fun _ => h

theorem sound_handle (h : host.Sound) {event : HostEvent}
    (hbears : ∀ sessionId epoch step slot call, event = .step sessionId epoch step →
      host.reviews sessionId = some slot → slot.epoch = epoch →
      step.outcome codec contentText chunksText sessionId slot = .call call → Bears slot.driver call)
    (hnext : host.handle codec contentText chunksText event = some host') : host'.Sound := by
  unfold handle at hnext
  split at hnext
  . cases hnext
  rename_i hgoing
  have hkept := h.kept (by simpa using hgoing)
  have hbegin (start : ReviewHost) (hstart : ∀ other, (start.look other).Kept) (sessionId : String)
      (config : ReviewConfig) : ∀ other, ((start.begin sessionId config).look other).Kept :=
    (local_begin config).kept hstart (kept_begin (hstart _) config)
  cases event with
  | view sessionId snapshot config =>
    cases hnext
    apply Sound.of_kept
    intro other
    unfold observe
    dsimp only
    split
    . exact hbegin { host with sessions := Function.update host.sessions sessionId (some snapshot) }
        hkept sessionId config other
    . exact hkept other
  | start sessionId config =>
    cases hnext
    exact Sound.of_kept (hbegin host hkept sessionId config)
  | prepared sessionId result =>
    dsimp only at hnext
    split at hnext <;> cases hnext
    rename_i hmem
    have herase : Local sessionId host
        { host with preparations := host.preparations.erase sessionId } := by
      intro other hne
      simp [look, List.count_erase_of_ne hne]
    apply Sound.of_kept
    apply (herase.trans (local_prepared result)).kept hkept
    exact kept_prepared (hkept _) hmem result
  | stateSaved sessionId completion result =>
    dsimp only at hnext
    split at hnext <;> cases hnext
    rename_i hmem
    have herase : Local sessionId host
        { host with saves := host.saves.erase (sessionId, completion) } := by
      intro other hne
      have hne : (other, PersistenceCompletion.closed) ≠ (sessionId, completion) := by
        intro hpair
        exact hne (congrArg Prod.fst hpair)
      simp [look, List.count_erase_of_ne hne]
    apply Sound.of_kept
    apply (herase.trans (local_stateSaved completion result)).kept hkept
    cases completion with
    | opened => exact kept_opened (hkept _) result
    | closed => exact kept_closed (hkept _) hmem result
  | step sessionId epoch step =>
    cases hnext
    apply Sound.of_kept
    apply kept_step hkept
    intro slot call
    exact hbears sessionId epoch step slot call rfl
  | resolve sessionId resolution =>
    cases hnext
    exact Sound.of_kept (kept_resolve hkept resolution)
  | interrupted sessionIds =>
    cases hnext
    exact h
  | persistenceStopped =>
    cases hnext
    exact Sound.of_kept hkept
  | shutdown =>
    cases hnext
    constructor
    . intro other
      have hunlocked := unlocked_shutdown (hkept other)
      simpa [Follows, held, look, shutdown] using hunlocked
    . nofun

theorem promptLock_runOne
    (h : (host.runOne sessionId request).promptLock other = true) : host.promptLock other = true := by
  unfold runOne at h
  repeat' split at h
  all_goals first
    | exact h
    | (by_cases heq : other = sessionId <;> simp_all [setReview, setClosing, releasePrompts])

theorem promptLock_run
    (h : (host.run sessionId requests).promptLock other = true) : host.promptLock other = true := by
  induction requests generalizing host with
  | nil => exact h
  | cons request rest ih => exact promptLock_runOne (ih h)

theorem promptLock_release (h : (host.releasePrompts sessionId).promptLock other = true)
    : host.promptLock other = true := by
  by_cases heq : other = sessionId <;> simp_all [releasePrompts]

theorem promptLock_call
    (h : (host.call sessionId slot call).promptLock other = true) : host.promptLock other = true := by
  unfold ReviewHost.call at h
  have hopened := promptLock_run h
  exact hopened

theorem promptLock_fail {message : String}
    (h : (host.fail sessionId slot message).promptLock other = true)
    : host.promptLock other = true := by
  unfold fail at h
  have hreleased := promptLock_run h
  exact promptLock_release hreleased

theorem promptLock_begin {config : ReviewConfig}
    (h : (host.begin sessionId config).promptLock other = true)
    : host.promptLock other = true
      ∨ other = sessionId ∧ host.refuseBegin sessionId config = none := by
  unfold begin at h
  split at h
  . exact .inl h
  rename_i hbegins
  by_cases heq : other = sessionId
  . exact .inr ⟨heq, hbegins⟩
  . left
    simpa [holdPrompts, setPreparing, heq] using h

theorem promptLock_handle {event : HostEvent}
    (hnext : host.handle codec contentText chunksText event = some host')
    (h : host'.promptLock other = true)
    : host.promptLock other = true ∨ host.begins event = some other := by
  unfold handle at hnext
  split at hnext
  . cases hnext
  cases event with
  | view sessionId snapshot config =>
    cases hnext
    unfold observe at h
    dsimp only at h
    split at h
    next hfinished =>
      apply (promptLock_begin h).imp_right
      intro ⟨heq, hbegins⟩
      simp only [Bool.and_eq_true] at hfinished
      simp [begins, hfinished.1, hfinished.2, hbegins, heq]
    . exact .inl h
  | start sessionId config =>
    cases hnext
    apply (promptLock_begin h).imp_right
    intro ⟨heq, hbegins⟩
    simp [begins, hbegins, heq]
  | prepared sessionId result =>
    left
    dsimp only at hnext
    split at hnext <;> cases hnext
    unfold prepared at h
    dsimp only at h
    repeat' split at h
    all_goals first
      | exact h
      | exact promptLock_release h
  | stateSaved sessionId completion result =>
    left
    dsimp only at hnext
    split at hnext <;> cases hnext
    unfold stateSaved at h
    dsimp only at h
    repeat' split at h
    all_goals first
      | exact h
      | exact promptLock_release h
      | (have hopened := promptLock_run h; exact hopened)
  | step sessionId epoch step =>
    left
    cases hnext
    unfold ReviewHost.step at h
    dsimp only at h
    repeat' split at h
    all_goals first
      | exact h
      | exact promptLock_call h
      | exact promptLock_fail h
  | resolve sessionId resolution =>
    left
    cases hnext
    unfold resolve at h
    dsimp only at h
    repeat' split at h
    all_goals first
      | exact h
      | exact promptLock_call h
  | interrupted sessionIds | persistenceStopped =>
    cases hnext
    exact .inl h
  | shutdown =>
    cases hnext
    simp only [shutdown, Bool.and_eq_true] at h
    exact .inl h.1

end Handle

end ReviewHost

namespace SessionActor

structure Unprompted (actor : SessionActor) : Prop where
  deferred : ∀ submit ∈ actor.deferredSubmits, submit.command.isPrompt = false
  task : ∀ submit drains, actor.task = some (.submitting submit drains) →
    submit.command.isPrompt = false

variable {actor : SessionActor}

theorem Unprompted.drain (h : ∀ submit ∈ actor.deferredSubmits, submit.command.isPrompt = false)
    : actor.drain.Unprompted := by
  unfold SessionActor.drain
  split
  next hnone => constructor <;> simp [hnone]
  rename_i submit rest hdeferred
  constructor
  . intro other hother
    apply h
    simp [hdeferred, hother]
  intro other drains htask
  cases htask
  apply h
  simp [hdeferred]

theorem Unprompted.leave (h : ∀ submit ∈ actor.deferredSubmits, submit.command.isPrompt = false)
    (drains : Bool) : (actor.leave drains).Unprompted := by
  unfold SessionActor.leave
  split
  . exact Unprompted.drain h
  . exact ⟨h, by simp⟩

theorem Unprompted.receive (h : actor.Unprompted) (retiring : Bool) (command : ActorCommand)
    : (actor.receive retiring true command).1.Unprompted := by
  unfold SessionActor.receive
  dsimp only
  split
  . exact ⟨h.deferred, h.task⟩
  split
  next commandId command =>
    split
    . exact ⟨h.deferred, h.task⟩
    rename_i hprompt
    have hprompt : command.isPrompt = false := by
      simpa using hprompt
    split
    . constructor
      . rw [List.forall_mem_append, List.forall_mem_singleton]
        exact ⟨h.deferred, hprompt⟩
      . exact h.task
    constructor
    . exact h.deferred
    intro submit drains htask
    cases htask
    exact hprompt
  all_goals
    split
    . exact ⟨h.deferred, h.task⟩
    . exact ⟨h.deferred, by simp⟩

theorem Unprompted.takeReturn (h : actor.Unprompted) (retiring : Bool) (returned : ReturnedConnection)
    : (actor.takeReturn retiring returned).1.Unprompted := by
  unfold SessionActor.takeReturn
  dsimp only
  split
  . split
    . exact ⟨by simp [refuseDeferred], h.task⟩
    . exact Unprompted.drain h.deferred
  . exact h

theorem Unprompted.deliver (h : actor.Unprompted) (drains connection : Bool) (answer : SubmitAnswer)
    : (actor.deliver drains connection answer).Unprompted := by
  unfold SessionActor.deliver
  dsimp only
  split
  . exact Unprompted.leave (by exact h.deferred) drains
  split
  . exact ⟨h.deferred, by simp⟩
  . exact Unprompted.leave (by exact h.deferred) drains

theorem Unprompted.grantLease (h : actor.Unprompted) (synced : Except String Unit) (listening : Bool)
    : (actor.grantLease synced listening).1.Unprompted := by
  unfold SessionActor.grantLease
  split
  . exact ⟨h.deferred, by simp⟩
  . dsimp only
    split <;> exact ⟨h.deferred, by simp⟩

end SessionActor

namespace ActorSystem

open SessionActor

variable {s t : ActorSystem}

theorem actor_reply (s : ActorSystem) (call : Nat) (result : Except String Nat)
    : (s.reply call result).actor = s.actor := by
  unfold reply
  split <;> rfl

theorem actor_callerNext (h : s.callerNext event = some t) : t.actor = s.actor := by
  cases event <;> simp only [callerNext] at h
  all_goals repeat' split at h
  all_goals cases h <;> rfl

theorem unprompted_stop : s.stop.actor.Unprompted := by
  constructor <;> simp [stop]

theorem unprompted_next (h : s.actor.Unprompted)
    (hheld : ∀ held, event = .receive held → held = true) (hnext : s.next event = some t)
    : t.actor.Unprompted := by
  unfold next at hnext
  split at hnext
  . rw [actor_callerNext hnext]
    exact h
  split at hnext
  . cases hnext
  unfold actorNext at hnext
  split at hnext
  . cases hnext
    exact unprompted_stop
  split at hnext
  next hidle =>
    cases event with simp only [idleNext] at hnext
    | receive held =>
      have hheld := hheld held rfl
      subst hheld
      split at hnext <;> cases hnext
      rename_i command rest _
      have hreceived := h.receive s.retirement command
      unfold receive
      dsimp only
      split
      . rw [actor_reply]
        exact hreceived
      . exact hreceived
    | takeReturn =>
      split at hnext <;> cases hnext
      rename_i returned rest _
      exact h.takeReturn s.retirement returned
    | tick =>
      split at hnext
      . cases hnext
      split at hnext <;> cases hnext
      . exact ⟨h.deferred, h.task⟩
      . exact ⟨h.deferred, by simp⟩
    | stop =>
      split at hnext <;> cases hnext
      exact unprompted_stop
    | _ => cases hnext
  next task htask =>
    cases event with simp only [taskNext] at hnext
    | ended connection =>
      split at hnext <;> cases hnext
      . exact ⟨h.deferred, by simp⟩
      . exact ⟨h.deferred, by simp⟩
      . exact Unprompted.leave (by exact h.deferred) _
    | delivered connection answer =>
      split at hnext <;> cases hnext
      exact h.deliver _ connection answer
    | leaseSynced result =>
      split at hnext <;> cases hnext
      rw [actor_reply]
      exact h.grantLease result _
    | _ => cases hnext

end ActorSystem

namespace LockSystem

open Machine SessionActor

variable {codec : RelayCodec} {contentText : List ContentBlock → String}
  {chunksText : List ContentChunk → String} {s t : LockSystem}

variable (codec contentText chunksText) in
/--
A result that comes back neither makes the driver give its review up nor resumes a failed one, and a
review begins only when the actor of its session has no prompt in hand.
-/
def Orderly (s : LockSystem) : LockEvent → Prop
  | .host event =>
    (∀ sessionId epoch step slot call, event = .step sessionId epoch step →
      s.host.reviews sessionId = some slot → slot.epoch = epoch →
      step.outcome codec contentText chunksText sessionId slot = .call call →
      ReviewHost.Bears slot.driver call)
    ∧ ∀ sessionId, s.host.begins event = some sessionId → (s.actors sessionId).actor.Unprompted
  | _ => True

def Passes (s : LockSystem) (sessionId : String) : Prop :=
  (s.passNext sessionId).isSome = true
    ∧ ∃ submit drains, (s.actors sessionId).actor.task = some (.submitting submit drains)
      ∧ submit.command.isPrompt = true

def Silent (s : LockSystem) : Prop :=
  ∀ sessionId, s.host.promptLock sessionId = true → ¬ s.Passes sessionId

structure Kept (s : LockSystem) : Prop where
  host : s.host.Sound
  actors : ∀ sessionId, s.host.promptLock sessionId = true → (s.actors sessionId).actor.Unprompted

theorem kept_actorNext {sessionId : String} (h : Kept s)
    (hnext : s.actorNext sessionId event = some t) : Kept t := by
  have hstep (hheld : ∀ held, event = .receive held → held = s.host.promptLock sessionId)
      (hmap : ((s.actors sessionId).next event).map (fun actor =>
        { s with actors := Function.update s.actors sessionId actor }) = some t) : Kept t := by
    have ⟨actor, hactor, heq⟩ := Option.map_eq_some_iff.mp hmap
    subst heq
    refine ⟨h.host, ?_⟩
    intro other hlocked
    by_cases heq : other = sessionId
    . subst heq
      have hlocked : s.host.promptLock other = true := hlocked
      simp only [Function.update_self]
      apply ActorSystem.unprompted_next (h.actors other hlocked) _ hactor
      intro held hevent
      rw [hheld held hevent, hlocked]
    . simp only [Function.update_of_ne heq]
      exact h.actors other hlocked
  cases event with
  | receive held =>
    simp only [actorNext] at hnext
    split at hnext
    next hheld =>
      apply hstep _ hnext
      intro other hother
      cases hother
      exact hheld
    . cases hnext
  | _ =>
    apply hstep _ hnext
    nofun

theorem kept_step (s : LockSystem) (event : LockEvent) (t : LockSystem) (h : Kept s)
    (horderly : Orderly codec contentText chunksText s event)
    (hstep : Step codec contentText chunksText s event t) : Kept t := by
  cases event with
  | host event =>
    have ⟨host, hnext, heq⟩ := Option.map_eq_some_iff.mp hstep
    subst heq
    refine ⟨sound_handle h.host horderly.1 hnext, ?_⟩
    intro sessionId hlocked
    rcases promptLock_handle hnext hlocked with hbefore | hbegins
    . exact h.actors sessionId hbefore
    . exact horderly.2 sessionId hbegins
  | actor sessionId event => exact kept_actorNext h hstep
  | pass sessionId =>
    simp only [Step, next, passNext] at hstep
    split at hstep
    . split at hstep <;> cases hstep
      exact h
    . cases hstep

theorem kept_start : Kept {} := by
  constructor
  . apply Sound.of_kept
    intro other
    constructor <;> simp [look, SessionView.Follows, SessionView.held]
  . nofun

/--
The lock of a session follows its review, and no prompt is passed to the relay of a session that is
locked.
-/
theorem prompt_lock_follows_review (h : Reaches (Step codec contentText chunksText)
      (Orderly codec contentText chunksText) {} s)
    : (∀ sessionId, (s.host.look sessionId).Follows) ∧ s.Silent := by
  have hkept : Kept s := h.invariant kept_step kept_start
  refine ⟨hkept.host.follows, ?_⟩
  intro sessionId hlocked ⟨_, submit, drains, htask, hprompt⟩
  have hnone := (hkept.actors sessionId hlocked).task submit drains htask
  simp [hnone] at hprompt

section Runs

def plainNext : LockSystem → LockEvent → Option LockSystem :=
  next plainCodec (fun _ => "") (fun _ => "")

def armed : ReviewConfig where
  enabled := true
  profile := some "reviewer"

def intentSeed : TurnReviewSeed :=
  { plainSeed .extended with userMessages := ["add a retry", "only for reads"] }

def beginRun : List LockEvent :=
  [.host (.view "s" (some (.empty "s")) armed), .host (.start "s" armed)]

def openRun : List LockEvent :=
  beginRun ++
    [.host (.prepared "s" (.ok { state := {}, seed := intentSeed })),
     .host (.stateSaved "s" .opened (.ok ()))]

theorem orderly_of_idle (hidle : ∀ sessionId, (s.actors sessionId).actor = {}) (event : HostEvent)
    (hstep : ∀ sessionId epoch step, event ≠ .step sessionId epoch step)
    : Orderly plainCodec (fun _ => "") (fun _ => "") s (.host event) := by
  constructor
  . intro sessionId epoch step slot call heq
    exact absurd heq (hstep sessionId epoch step)
  intro sessionId _
  rw [hidle]
  constructor <;> simp

theorem openRun_reaches
    : ∃ s, follow plainNext {} openRun = some s ∧ s.host.promptLock "s" = true
      ∧ Reaches (Step plainCodec (fun _ => "") (fun _ => ""))
        (Orderly plainCodec (fun _ => "") (fun _ => "")) {} s := by
  refine ⟨_, rfl, by decide +kernel, ?_⟩
  have hhost : ∀ label ∈ openRun, ∃ event, label = .host event
      ∧ ∀ sessionId epoch step, event ≠ .step sessionId epoch step := by
    simp [openRun, beginRun]
  refine Reaches.of_follow_keeping (P := fun s => ∀ sessionId, (s.actors sessionId).actor = {})
    ?_ ?_ (fun _ => rfl) (rfl : follow plainNext {} openRun = _)
  . intro s t label hmem hidle hnext
    have ⟨event, heq, _⟩ := hhost label hmem
    subst heq
    have ⟨host, _, ht⟩ := Option.map_eq_some_iff.mp hnext
    subst ht
    exact hidle
  . intro s label hmem hidle
    have ⟨event, heq, hstep⟩ := hhost label hmem
    subst heq
    exact orderly_of_idle hidle event hstep

theorem prompt_lock_follows_review_of_open
    : ∃ s, follow plainNext {} openRun = some s ∧ s.host.promptLock "s" = true
      ∧ (∀ sessionId, (s.host.look sessionId).Follows) ∧ s.Silent := by
  have ⟨s, hrun, hlocked, hreach⟩ := openRun_reaches
  exact ⟨s, hrun, hlocked, prompt_lock_follows_review hreach⟩

def silentTurn : RelayEvent where
  format := RELAY_EVENT_FORMAT_V2
  ordinal := 1
  previousDigest := RELAY_EVENT_GENESIS_DIGEST
  digest := ""
  recordedAtMs := 0
  commandId := some "turn-review-intent-1"
  observation := .commandCompleted "turn-review-intent-1" (.prompt "end_turn")

def emptyBrief : List LockEvent :=
  openRun ++
    [.host (.step "s" 1 (.delta (.ok [plainDelta]))),
     .host (.step "s" 1 (.roleStarted intentRole (.ok ()))),
     .host (.step "s" 1 (.roleEvents intentRole (.ok [silentTurn])))]

def latePromptRun : List LockEvent :=
  [.actor "s" .call, .actor "s" (.sendLease 0), .actor "s" (.receive false),
   .actor "s" (.leaseSynced (.ok ())), .actor "s" (.resume 0),
   .actor "s" (.send (.submit "p1" (.prompt [.null]))), .actor "s" (.receive false)]
    ++ beginRun ++
    [.actor "s" (.release 1), .actor "s" .takeReturn]

theorem emptyBrief_not_follows
    : ∃ s, follow plainNext {} emptyBrief = some s ∧ ¬ (s.host.look "s").Follows :=
  ⟨_, rfl, by decide +kernel⟩

theorem latePromptRun_passes
    : ∃ s, follow plainNext {} latePromptRun = some s ∧ s.host.promptLock "s" = true
      ∧ s.Passes "s" :=
  ⟨_, rfl, rfl, rfl, _, _, rfl, rfl⟩

theorem prompt_lock_departs_from_review
    : (∃ s, Reaches (Step plainCodec (fun _ => "") (fun _ => "")) (fun _ _ => True) {} s
        ∧ ∃ sessionId, ¬ (s.host.look sessionId).Follows)
      ∧ ∃ s, Reaches (Step plainCodec (fun _ => "") (fun _ => "")) (fun _ _ => True) {} s
        ∧ ¬ s.Silent := by
  have ⟨s, hrun, hnot⟩ := emptyBrief_not_follows
  have ⟨t, hlate, hlocked, hpasses⟩ := latePromptRun_passes
  constructor
  . exact ⟨s, Reaches.of_follow (fun _ _ _ => trivial) hrun, "s", hnot⟩
  refine ⟨t, Reaches.of_follow (fun _ _ _ => trivial) hlate, ?_⟩
  intro hsilent
  exact hsilent "s" hlocked hpasses

end Runs

end LockSystem

end Hel
