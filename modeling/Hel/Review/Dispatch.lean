import Hel.Review.Lemmas.Dispatch

/-!
This module contains the way of a lane from the supervisor's tool to its report.
-/

namespace Hel

open TurnReviewPhase TurnReviewDriver List

variable {call : ReviewCall} {epoch : Nat} {seen : List String}

structure Dispatch where
  review : Nat
  request : ReviewSubagentRequest
  deriving DecidableEq

inductive SupervisorTurn where
  | idle
  | running (commandId : String)
  | ended (commandId : String)
  deriving DecidableEq

namespace SupervisorTurn

def prompted (turn : SupervisorTurn) : ReviewRequest → SupervisorTurn
  | .promptRole role commandId _ => if role = supervisorRole then .running commandId else turn
  | _ => turn

def isRunning : SupervisorTurn → Bool
  | .running _ => true
  | _ => false

theorem foldl_prompted_of_quiet (turn : SupervisorTurn) {requests : List ReviewRequest}
    (h : ∀ request ∈ requests, request.putsToWork = false)
    : requests.foldl prompted turn = turn := by
  induction requests generalizing turn with
  | nil => rfl
  | cons request rest ih =>
    simp only [mem_cons, forall_eq_or_imp] at h
    rw [foldl_cons, ih _ h.2]
    cases request <;> simp_all [prompted, ReviewRequest.putsToWork]

end SupervisorTurn

/--
The reviews of one session and the worker's queue. `polls` are not answered and `batches` are answers
not handled, with the review that polled. `recorded` was answered as started, `launches` handed to a
driver.
-/
structure ReviewDesk where
  epoch : Nat
  exchange : Exchange
  requests : List ReviewRequest
  pending : List Dispatch
  polls : List Nat
  batches : List (Nat × List Dispatch)
  turn : SupervisorTurn
  recorded : List (Nat × String)
  launches : List (Nat × Dispatch)

inductive DeskEvent where
  | begin (seed : TurnReviewSeed)
  | dispatch (reviewers : List ReviewSubagentRequest)
  | turnEnded
  | poll
  | take (epoch : Nat)
  | collect (batch : Nat × List Dispatch)
  | pollFailed (epoch : Nat) (lost : Bool) (message : String)
  | call (call : ReviewCall)

namespace ReviewDesk

def driver (desk : ReviewDesk) : TurnReviewDriver :=
  desk.exchange.driver

def first (seed : TurnReviewSeed) : ReviewDesk where
  epoch := 1
  exchange := Exchange.start seed
  requests := (start seed).2
  pending := []
  polls := []
  batches := []
  turn := .idle
  recorded := []
  launches := []

variable (desk : ReviewDesk)

def begin (seed : TurnReviewSeed) : ReviewDesk :=
  { desk with
    epoch := desk.epoch + 1
    exchange := Exchange.start seed
    requests := (start seed).2 }

def dispatch (reviewers : List ReviewSubagentRequest) : ReviewDesk :=
  let (queue, reply) := ReviewerSidecar.recordDispatch (desk.pending.map (·.request)) reviewers
  { desk with
    pending := desk.pending ++ (queue.drop desk.pending.length).map (Dispatch.mk desk.epoch)
    recorded := desk.recorded ++ reply.started.map (desk.epoch, ·) }

def take (epoch : Nat) : ReviewDesk :=
  let (taken, pending) := ReviewerSidecar.takeDispatches desk.pending
  { desk with
    polls := desk.polls.erase epoch
    batches := (epoch, taken) :: desk.batches
    pending := pending }

def perform (call : ReviewCall) (outstanding : Outstanding) : ReviewDesk :=
  { desk with
    exchange := desk.exchange.after call outstanding
    requests := desk.requests ++ (desk.driver.call call).2
    turn := (desk.driver.call call).2.foldl SupervisorTurn.prompted desk.turn }

def collect (batch : Nat × List Dispatch) : ReviewDesk :=
  let desk := { desk with batches := desk.batches.erase batch }
  if batch.1 = desk.epoch then
    { desk.perform (.lanesDispatched (batch.2.map (·.request))) desk.exchange.outstanding with
      launches := desk.launches ++ batch.2.map (desk.epoch, ·) }
  else
    desk

def failPoll (epoch : Nat) (lost : Bool) (message : String) : ReviewDesk :=
  let desk :=
    { desk with
      polls := desk.polls.erase epoch
      pending := if lost then [] else desk.pending }
  if epoch = desk.epoch then
    desk.perform (.requestFailed message) desk.exchange.outstanding
  else
    desk

inductive Step : ReviewDesk → DeskEvent → ReviewDesk → Prop where
  | begin (desk : ReviewDesk) (seed : TurnReviewSeed) : Step desk (.begin seed) (desk.begin seed)
  | dispatch (desk : ReviewDesk) (reviewers : List ReviewSubagentRequest)
      (h : desk.turn.isRunning = true)
    : Step desk (.dispatch reviewers) (desk.dispatch reviewers)
  | turnEnded (desk : ReviewDesk) (commandId : String) (h : desk.turn = .running commandId)
    : Step desk .turnEnded { desk with turn := .ended commandId }
  | poll (desk : ReviewDesk) (h : desk.exchange.outstanding.dispatching = true)
    : Step desk .poll { desk with polls := desk.epoch :: desk.polls }
  | take (desk : ReviewDesk) (epoch : Nat) (h : epoch ∈ desk.polls)
    : Step desk (.take epoch) (desk.take epoch)
  | collect (desk : ReviewDesk) (batch : Nat × List Dispatch) (h : batch ∈ desk.batches)
    : Step desk (.collect batch) (desk.collect batch)
  | pollFailed (desk : ReviewDesk) (epoch : Nat) (lost : Bool) (message : String)
      (h : epoch ∈ desk.polls)
    : Step desk (.pollFailed epoch lost message) (desk.failPoll epoch lost message)
  | call (desk : ReviewDesk) (call : ReviewCall) (outstanding : Outstanding)
      (hanswers : Answers desk.exchange.outstanding call outstanding)
      (hlanes : ∀ requests, call ≠ .lanesDispatched requests)
      (hturn : ∀ commandId answer, call = .roleTurnCompleted commandId answer →
        desk.driver.awaitedRole commandId = some supervisorRole → desk.turn = .ended commandId)
    : Step desk (.call call) (desk.perform call outstanding)

def collected : Bool :=
  desk.pending.isEmpty
    && desk.batches.all (fun batch => decide (batch.1 ≠ desk.epoch) || batch.2.isEmpty)

/--
The turn of a supervisor that waits for no lane ends with every dispatch collected, a review begins
with an empty queue and no poll of an earlier one, and no late result revives a settled review.
-/
def orderly : DeskEvent → Bool
  | .begin _ => desk.pending.isEmpty && desk.polls.isEmpty
  | .collect batch =>
    decide (batch.1 ≠ desk.epoch)
      || !desk.driver.revivedBy (.lanesDispatched (batch.2.map (·.request)))
  | .pollFailed epoch _ message =>
    decide (epoch ≠ desk.epoch) || !desk.driver.revivedBy (.requestFailed message)
  | .call call =>
    !desk.driver.revivedBy call
      && (match call with
        | .roleTurnCompleted commandId _ =>
          desk.driver.awaitedRole commandId ≠ some supervisorRole
            || !desk.driver.outstandingLanes.entries.isEmpty
            || !desk.driver.queuedReports.isEmpty
            || desk.collected
        | _ => true)
  | _ => true

inductive Reaches (Meets : ReviewDesk → DeskEvent → Prop) : ReviewDesk → Prop where
  | first (seed : TurnReviewSeed) : Reaches Meets (first seed)
  | step {desk next : ReviewDesk} {event : DeskEvent} (h : Reaches Meets desk)
      (hmeets : Meets desk event) (hstep : Step desk event next) : Reaches Meets next

variable {desk : ReviewDesk} {requests : List ReviewSubagentRequest} {outstanding : Outstanding}

theorem Reaches.mono {Meets Meets' : ReviewDesk → DeskEvent → Prop} (h : Reaches Meets desk)
    (himp : ∀ desk event, Meets desk event → Meets' desk event) : Reaches Meets' desk := by
  induction h with
  | first seed => apply Reaches.first
  | step h hmeets hstep ih => apply Reaches.step ih (himp _ _ hmeets) hstep

/-!
### The queue
-/

structure ValidQueue (requests : List ReviewSubagentRequest) : Prop where
  known : ∀ request ∈ requests,
    (laneById request.agentType).isSome = true ∧ Text.isBlank request.hypothesis = false
  distinct : (requests.map (·.agentType)).Nodup

theorem ValidQueue.nil : ValidQueue [] := by
  constructor <;> simp

theorem validateRequests_ok (h : ValidQueue requests)
    (hseen : ∀ request ∈ requests, request.agentType ∉ seen)
    : validateRequests seen requests = .ok () := by
  induction requests generalizing seen with
  | nil => rfl
  | cons request rest ih =>
    have hknown := h.known request mem_cons_self
    have hfresh := hseen request mem_cons_self
    have hdistinct := h.distinct
    rw [map_cons, nodup_cons] at hdistinct
    unfold validateRequests
    rw [if_neg (by simp [Option.isSome_iff_ne_none.mp hknown.1]), if_neg (by simp [hknown.2]),
      if_neg hfresh]
    apply ih
    . exact ⟨fun other hmem => h.known other (mem_cons_of_mem request hmem), hdistinct.2⟩
    intro other hmem hseenOther
    rcases mem_cons.mp hseenOther with heq | hseenOther
    . apply hdistinct.1
      rw [← heq]
      apply mem_map_of_mem hmem
    . exact hseen other (mem_cons_of_mem request hmem) hseenOther

theorem validateDispatch_ok (h : ValidQueue requests) (hne : requests ≠ [])
    : validateDispatch requests = .ok () := by
  unfold validateDispatch
  rw [if_neg (by simpa using hne)]
  apply validateRequests_ok h
  simp

theorem ValidQueue.accept {pending reviewers : List ReviewSubagentRequest} (h : ValidQueue pending)
    (hvalid : ∀ request ∈ reviewers, (laneById request.agentType).isSome = true
      ∧ Text.isBlank request.hypothesis = false)
    : ValidQueue (pending ++ ReviewerSidecar.acceptDispatches pending reviewers) := by
  induction reviewers generalizing pending with
  | nil => simpa [ReviewerSidecar.acceptDispatches] using h
  | cons request rest ih =>
    simp only [mem_cons, forall_eq_or_imp] at hvalid
    unfold ReviewerSidecar.acceptDispatches
    split
    . apply ih h hvalid.2
    rename_i hnew
    have hfresh : request.agentType ∉ pending.map (·.agentType) := by
      intro hmem
      rw [mem_map] at hmem
      obtain ⟨queued, hqueued, heq⟩ := hmem
      apply hnew
      rw [any_eq_true]
      exact ⟨queued, hqueued, by simp [heq]⟩
    have hnext : ValidQueue (pending ++ [request]) := by
      constructor
      . rw [forall_mem_append, forall_mem_singleton]
        exact ⟨h.known, hvalid.1⟩
      rw [map_append, map_singleton, nodup_append]
      refine ⟨h.distinct, by simp, ?_⟩
      intro lane hlane other hother heq
      rw [mem_singleton] at hother
      apply hfresh
      rw [← hother, ← heq]
      exact hlane
    have hrest := ih hnext hvalid.2
    rw [append_assoc] at hrest
    exact hrest

theorem recordDispatch_eq (pending reviewers : List ReviewSubagentRequest)
    : ∃ accepted, (ReviewerSidecar.recordDispatch pending reviewers).1 = pending ++ accepted
        ∧ (ReviewerSidecar.recordDispatch pending reviewers).2.started = accepted.map (·.agentType)
        ∧ (ValidQueue pending → ValidQueue (pending ++ accepted)) := by
  unfold ReviewerSidecar.recordDispatch
  split
  . exact ⟨[], by simp⟩
  rename_i hvalid
  refine ⟨_, rfl, rfl, ?_⟩
  intro h
  apply h.accept
  unfold validateDispatch at hvalid
  split at hvalid
  . cases hvalid
  apply validateRequests_nonblank hvalid

variable {driver : TurnReviewDriver}

theorem lanesDispatched_launched (h : ValidQueue requests) (hfinished : driver.finished = false)
    : ∀ request ∈ requests,
        (driver.lanesDispatched requests).1.launchedLanes.contains request.agentType = true := by
  intro request hmem
  have hknown : ∀ request ∈ requests, (laneById request.agentType).isSome = true :=
    fun request hmem => (h.known request hmem).1
  have hlaunched : (driver.dispatchLanes requests).1.launchedLanes.contains request.agentType
      = true := dispatchLanes_launched hknown request hmem
  have hvalid := validateDispatch_ok h (ne_nil_of_mem hmem)
  unfold lanesDispatched
  rw [if_neg]
  . dsimp only
    split <;> exact hlaunched
  . simp [hfinished, hvalid, ne_nil_of_mem hmem, Except.toOption]

/-!
### What orderly steps keep
-/

def Recorded (lane : String) : Prop :=
  (desk.epoch, lane) ∈ desk.recorded

def Found (lane : String) : Prop :=
  (∃ dispatch ∈ desk.pending, dispatch.request.agentType = lane)
    ∨ (∃ batch ∈ desk.batches, batch.1 = desk.epoch
        ∧ ∃ dispatch ∈ batch.2, dispatch.request.agentType = lane)
    ∨ desk.driver.launchedLanes.contains lane = true

structure Steady (desk : ReviewDesk) : Prop where
  pending : ∀ dispatch ∈ desk.pending, dispatch.review = desk.epoch
  batches : ∀ batch ∈ desk.batches, batch.1 ≤ desk.epoch
    ∧ ∀ dispatch ∈ batch.2, dispatch.review = batch.1
  polls : ∀ epoch ∈ desk.polls, epoch = desk.epoch
  launches : ∀ launch ∈ desk.launches, launch.2.review = launch.1
  recorded : ∀ entry ∈ desk.recorded, entry.1 ≤ desk.epoch
  queue : ValidQueue (desk.pending.map (·.request))
  queues : ∀ batch ∈ desk.batches, ValidQueue (batch.2.map (·.request))
  tidy : desk.driver.Tidy
  manned : desk.driver.seed.tier = .extended → Manned (desk.driver, [])
    ∧ ∀ role ∈ desk.exchange.outstanding.starts, onRoster role = true
  held : desk.driver.phase.settled = false → desk.driver.LanesHeld desk.requests
  concluded : desk.driver.seed.tier = .extended → desk.driver.phase.concluded = true →
    desk.turn.isRunning = false ∧ ∀ lane, desk.Recorded lane → Delivered desk.requests lane

theorem steady_first (seed : TurnReviewSeed) : (first seed).Steady := by
  constructor
  . simp [first]
  . simp [first]
  . simp [first]
  . simp [first]
  . simp [first]
  . apply ValidQueue.nil
  . simp [first]
  . apply tidy_start
  . intro htier
    refine ⟨⟨htier, ?_, ?_⟩, ?_⟩
    . nofun
    . nofun
    . nofun
  . nofun
  . nofun

theorem Steady.begin (h : desk.Steady) (seed : TurnReviewSeed) (hpending : desk.pending = [])
    (hpolls : desk.polls = []) : (desk.begin seed).Steady := by
  have hfirst := steady_first seed
  refine { h with
    pending := ?_, batches := ?_, polls := ?_, recorded := ?_, tidy := hfirst.tidy,
    manned := hfirst.manned, held := hfirst.held, concluded := ?_ }
  . simp [ReviewDesk.begin, hpending]
  . intro batch hmem
    have hbatch := h.batches batch hmem
    exact ⟨Nat.le_succ_of_le hbatch.1, hbatch.2⟩
  . simp [ReviewDesk.begin, hpolls]
  . intro entry hmem
    exact Nat.le_succ_of_le (h.recorded entry hmem)
  . nofun

theorem dispatch_eq (desk : ReviewDesk) (reviewers : List ReviewSubagentRequest)
    : ∃ accepted, desk.dispatch reviewers
          = { desk with
              pending := desk.pending ++ accepted.map (Dispatch.mk desk.epoch)
              recorded := desk.recorded ++ accepted.map (fun request =>
                (desk.epoch, request.agentType)) }
        ∧ (ValidQueue (desk.pending.map (·.request)) →
          ValidQueue (desk.pending.map (·.request) ++ accepted)) := by
  obtain ⟨accepted, hqueue, hstarted, hvalid⟩ :=
    recordDispatch_eq (desk.pending.map (·.request)) reviewers
  refine ⟨accepted, ?_, hvalid⟩
  unfold dispatch
  have hlength : (desk.pending.map (·.request)).length = desk.pending.length := length_map _
  simp only [hqueue, hstarted, ← hlength, drop_left, map_map]
  rfl

theorem Steady.dispatch (h : desk.Steady) (hturn : desk.turn.isRunning = true)
    (reviewers : List ReviewSubagentRequest) : (desk.dispatch reviewers).Steady := by
  obtain ⟨accepted, heq, hvalid⟩ := desk.dispatch_eq reviewers
  rw [heq]
  refine { h with pending := ?_, recorded := ?_, queue := ?_, concluded := ?_ }
  . rw [forall_mem_append, forall_mem_map]
    exact ⟨h.pending, fun request _ => rfl⟩
  . rw [forall_mem_append, forall_mem_map]
    exact ⟨h.recorded, fun request _ => Nat.le_refl _⟩
  . have hmap : (desk.pending ++ accepted.map (Dispatch.mk desk.epoch)).map (·.request)
        = desk.pending.map (·.request) ++ accepted := by
      rw [map_append, map_map]
      simp [Function.comp_def]
    dsimp only
    rw [hmap]
    apply hvalid h.queue
  . intro htier hconcluded
    have hidle := (h.concluded htier hconcluded).1
    rw [hturn] at hidle
    cases hidle

theorem Steady.take (h : desk.Steady) (hpoll : epoch ∈ desk.polls) : (desk.take epoch).Steady := by
  have hepoch := h.polls epoch hpoll
  refine { h with pending := ?_, batches := ?_, polls := ?_, queue := ?_, queues := ?_ }
  . apply forall_mem_nil
  . refine forall_mem_cons.mpr ⟨⟨Nat.le_of_eq hepoch, ?_⟩, h.batches⟩
    intro dispatch hdispatch
    rw [h.pending dispatch hdispatch, hepoch]
  . intro other hmem
    apply h.polls other (mem_of_mem_erase hmem)
  . apply ValidQueue.nil
  . exact forall_mem_cons.mpr ⟨h.queue, h.queues⟩

theorem Steady.shrink (h : desk.Steady) {pending : List Dispatch} {polls : List Nat}
    {batches : List (Nat × List Dispatch)} (hpending : pending = desk.pending ∨ pending = [])
    (hpolls : polls ⊆ desk.polls) (hbatches : batches ⊆ desk.batches)
    : { desk with pending := pending, polls := polls, batches := batches }.Steady := by
  refine { h with pending := ?_, batches := ?_, polls := ?_, queue := ?_, queues := ?_ }
  . intro dispatch hmem
    rcases hpending with rfl | rfl
    . apply h.pending dispatch hmem
    . cases hmem
  . intro batch hmem
    apply h.batches batch (hbatches hmem)
  . intro epoch hmem
    apply h.polls epoch (hpolls hmem)
  . rcases hpending with rfl | rfl
    . exact h.queue
    . apply ValidQueue.nil
  . intro batch hmem
    apply h.queues batch (hbatches hmem)

theorem mem_starts_note {requests : List ReviewRequest} {role : String}
    (h : role ∈ (outstanding.note requests).starts)
    : (∃ fresh, .startRole role fresh ∈ requests) ∨ role ∈ outstanding.starts := by
  simp only [Outstanding.note, mem_append, mem_filterMap] at h
  rcases h with ⟨request, hmem, heq⟩ | hmem
  . left
    cases request <;> simp [Outstanding.startedRole?] at heq
    rw [← heq]
    exact ⟨_, hmem⟩
  . right
    exact hmem

theorem concluded_of_settled (htidy : driver.Tidy)
    (hquiet : driver.revivedBy call = false) (hsettled : driver.phase.settled = true)
    (hconcluded : (driver.call call).1.phase.concluded = true) : driver.phase.concluded = true := by
  cases hphase : driver.phase.concluded with
  | true => rfl
  | false =>
  have hkeeps := (keeps_iff htidy call).mpr hquiet
  exfalso
  cases hcase : driver.phase with
  | capturingDelta | launchingReviewer | running roles => simp [hcase, settled] at hsettled
  | resolved resolution =>
    rw [hkeeps.resolved resolution hcase, ← hcase, hphase] at hconcluded
    cases hconcluded
  | verdict verdict =>
  have habandoned : driver.phase.abandoned = true := by
    rw [hcase] at hphase ⊢
    simpa [concluded, abandoned] using hphase
  have hnext := abandoned_call htidy habandoned hquiet
  cases hcall : (driver.call call).1.phase <;>
    simp_all [concluded, abandoned]

theorem open_of_call (htidy : driver.Tidy) (hquiet : driver.revivedBy call = false)
    (hopen : (driver.call call).1.phase.settled = false) : driver.phase.settled = false := by
  cases hsettled : driver.phase.settled with
  | false => rfl
  | true =>
    rw [Exchange.settled_call htidy hsettled hquiet] at hopen
    cases hopen

theorem Steady.perform (h : desk.Steady) (hquiet : desk.driver.revivedBy call = false)
    (hstart : ∀ role, call = .roleStarted role → role ∈ desk.exchange.outstanding.starts)
    (hstarts : ∀ role ∈ outstanding.starts, role ∈ desk.exchange.outstanding.starts)
    (hturn : ∀ commandId, ConcludesTurn desk.driver call commandId → desk.turn.isRunning = false
        ∧ ∀ lane, desk.Recorded lane → desk.driver.launchedLanes.contains lane = true)
    : (desk.perform call outstanding).Steady := by
  have hholds := holdsLanes_call desk.driver call
  have htier : (desk.perform call outstanding).driver.seed = desk.driver.seed := seed_call _ call
  have hmanned : desk.driver.seed.tier = .extended → Manned (desk.driver.call call) := by
    intro hextended
    apply (h.manned hextended).1.call
    intro role heq
    apply (h.manned hextended).2 role (hstart role heq)
  refine { h with tidy := ?_, manned := ?_, held := ?_, concluded := ?_ }
  . exact tidy_call h.tidy hquiet
  . intro hextended
    rw [htier] at hextended
    have hnext := hmanned hextended
    refine ⟨⟨hnext.tier, hnext.awaits, by simp⟩, ?_⟩
    intro role hmem
    rcases mem_starts_note hmem with ⟨fresh, hmem⟩ | hmem
    . apply hnext.starts role fresh hmem
    . apply (h.manned hextended).2 role (hstarts role hmem)
  . intro hnext
    apply hholds.held hnext
    apply h.held (open_of_call h.tidy hquiet hnext)
  intro hextended hconcluded
  rw [htier] at hextended
  have hconcluded : (desk.driver.call call).1.phase.concluded = true := hconcluded
  cases hsettled : desk.driver.phase.settled with
  | true =>
    have hbefore := h.concluded hextended
      (concluded_of_settled h.tidy hquiet hsettled hconcluded)
    have hkeeps := (keeps_iff h.tidy call).mpr hquiet
    constructor
    . simp only [ReviewDesk.perform]
      rw [SupervisorTurn.foldl_prompted_of_quiet _ (hkeeps.quiet hsettled)]
      exact hbefore.1
    . intro lane hlane
      apply (hbefore.2 lane hlane).append
  | false =>
  obtain ⟨commandId, hends⟩ :=
    concludesTurn_of_concluded (h.manned hextended).1 hsettled hconcluded
  obtain ⟨hidle, hlaunched⟩ := hturn commandId hends
  constructor
  . simp only [ReviewDesk.perform]
    rw [SupervisorTurn.foldl_prompted_of_quiet _ hends.quiet]
    exact hidle
  intro lane hlane
  rcases h.held hsettled lane (hlaunched lane hlane) with hmem | ⟨report, hmem, _⟩ | hmem
  . simp [BTreeMap.contains, BTreeMap.get?, hends.lanes] at hmem
  . rw [hends.queued] at hmem
    cases hmem
  . apply hmem.append

structure Kept (desk : ReviewDesk) : Prop extends Steady desk where
  found : desk.driver.phase.settled = false → ∀ lane, desk.Recorded lane → desk.Found lane

theorem Kept.begin (h : desk.Kept) (seed : TurnReviewSeed) (hpending : desk.pending = [])
    (hpolls : desk.polls = []) : (desk.begin seed).Kept where
  toSteady := h.toSteady.begin seed hpending hpolls
  found := by
    intro _ lane hlane
    have hepoch := h.recorded _ hlane
    simp [ReviewDesk.begin] at hepoch

theorem Kept.dispatch (h : desk.Kept) (hturn : desk.turn.isRunning = true)
    (reviewers : List ReviewSubagentRequest) : (desk.dispatch reviewers).Kept where
  toSteady := h.toSteady.dispatch hturn reviewers
  found := by
    obtain ⟨accepted, heq, _⟩ := desk.dispatch_eq reviewers
    rw [heq]
    intro hopen lane hlane
    rcases mem_append.mp hlane with hlane | hlane
    . apply (h.found hopen lane hlane).imp_left
      rintro ⟨dispatch, hmem, hagent⟩
      exact ⟨dispatch, mem_append_left _ hmem, hagent⟩
    rw [mem_map] at hlane
    obtain ⟨request, hmem, hagent⟩ := hlane
    left
    refine ⟨⟨desk.epoch, request⟩, ?_, (Prod.mk.inj hagent).2⟩
    exact mem_append_right _ (mem_map_of_mem hmem)

theorem Kept.turnEnded (h : desk.Kept) (commandId : String)
    : { desk with turn := .ended commandId }.Kept where
  toSteady :=
    { h.toSteady with
      concluded := fun htier hconcluded => ⟨rfl, (h.concluded htier hconcluded).2⟩ }
  found := h.found

theorem Kept.poll (h : desk.Kept) : { desk with polls := desk.epoch :: desk.polls }.Kept where
  toSteady :=
    { h.toSteady with
      polls := by
        rw [forall_mem_cons]
        exact ⟨rfl, h.polls⟩ }
  found := h.found

theorem Kept.take (h : desk.Kept) (hpoll : epoch ∈ desk.polls) : (desk.take epoch).Kept where
  toSteady := h.toSteady.take hpoll
  found := by
    intro hopen lane hlane
    rcases h.found hopen lane hlane with hpending | ⟨batch, hmem, hbatch⟩ | hlaunched
    . right
      left
      exact ⟨(epoch, desk.pending), mem_cons_self, h.polls epoch hpoll, hpending⟩
    . right
      left
      exact ⟨batch, mem_cons_of_mem _ hmem, hbatch⟩
    . exact Or.inr (Or.inr hlaunched)

theorem Kept.perform (h : desk.Kept) (hquiet : desk.driver.revivedBy call = false)
    (hstart : ∀ role, call = .roleStarted role → role ∈ desk.exchange.outstanding.starts)
    (hstarts : ∀ role ∈ outstanding.starts, role ∈ desk.exchange.outstanding.starts)
    (hturn : ∀ commandId, ConcludesTurn desk.driver call commandId →
      desk.turn.isRunning = false ∧ desk.collected = true)
    : (desk.perform call outstanding).Kept where
  toSteady := by
    apply h.toSteady.perform hquiet hstart hstarts
    intro commandId hends
    obtain ⟨hidle, hcollected⟩ := hturn commandId hends
    refine ⟨hidle, ?_⟩
    intro lane hlane
    have hopen : desk.driver.phase.settled = false := by
      cases hsettled : desk.driver.phase.settled with
      | false => rfl
      | true =>
      have hawaited := hends.awaited
      simp [awaitedRole, (h.tidy.settled hsettled).awaited, BTreeMap.empty] at hawaited
    simp only [collected, Bool.and_eq_true, List.isEmpty_iff, all_eq_true, Bool.or_eq_true,
      decide_eq_true_eq] at hcollected
    rcases h.found hopen lane hlane with ⟨dispatch, hmem, _⟩ | ⟨batch, hmem, hepoch, hbatch⟩ |
      hlaunched
    . rw [hcollected.1] at hmem
      cases hmem
    . obtain ⟨dispatch, hdispatch, _⟩ := hbatch
      rcases hcollected.2 batch hmem with hother | hnil
      . exact absurd hepoch hother
      . rw [hnil] at hdispatch
        cases hdispatch
    . exact hlaunched
  found := by
    intro hopen lane hlane
    have hbefore := h.found (open_of_call h.tidy hquiet hopen) lane hlane
    exact hbefore.imp_right (Or.imp_right ((holdsLanes_call _ call).launched hopen lane))

theorem Kept.collect (h : desk.Kept) {batch : Nat × List Dispatch} (hbatch : batch ∈ desk.batches)
    (hquiet : batch.1 = desk.epoch →
      desk.driver.revivedBy (.lanesDispatched (batch.2.map (·.request))) = false)
    : (desk.collect batch).Kept := by
  have hshrunk : { desk with batches := desk.batches.erase batch }.Steady :=
    h.toSteady.shrink (Or.inl rfl) (List.Subset.refl _) (erase_subset)
  unfold ReviewDesk.collect
  dsimp only
  split
  next hepoch =>
    have hcall := hquiet hepoch
    constructor
    . have hperformed : ({ desk with batches := desk.batches.erase batch }.perform
          (.lanesDispatched (batch.2.map Dispatch.request)) desk.exchange.outstanding).Steady := by
        apply hshrunk.perform hcall
        . nofun
        . intro role hmem
          exact hmem
        . intro commandId hends
          obtain ⟨_, heq⟩ := hends.turn
          cases heq
      refine { hperformed with launches := ?_ }
      rw [forall_mem_append, forall_mem_map]
      refine ⟨h.launches, ?_⟩
      intro dispatch hdispatch
      dsimp only
      rw [(h.batches batch hbatch).2 dispatch hdispatch, hepoch]
    intro hopen lane hlane
    have hbefore := open_of_call h.tidy hcall hopen
    have hfinished : desk.driver.finished = false := by
      apply finished_eq_false_of_phase
      intro resolution hphase
      simp [hphase, settled] at hbefore
    rcases h.found hbefore lane hlane with hpending | ⟨other, hother, hmatch⟩ | hlaunched
    . left
      exact hpending
    . by_cases heq : other = batch
      . right
        right
        obtain ⟨_, dispatch, hdispatch, hagent⟩ := hmatch
        rw [heq] at hdispatch
        rw [← hagent]
        apply lanesDispatched_launched (h.queues batch hbatch) hfinished
        apply mem_map_of_mem hdispatch
      . right
        left
        exact ⟨other, (mem_erase_of_ne heq).mpr hother, hmatch⟩
    . right
      right
      exact (holdsLanes_call desk.driver _).launched hopen lane hlaunched
  next hepoch =>
    refine ⟨hshrunk, ?_⟩
    intro hopen lane hlane
    apply (h.found hopen lane hlane).imp_right
    apply Or.imp_left
    rintro ⟨other, hother, hmatch⟩
    refine ⟨other, (mem_erase_of_ne ?_).mpr hother, hmatch⟩
    intro heq
    rw [heq] at hmatch
    exact hepoch hmatch.1

theorem Kept.failPoll (h : desk.Kept) (hpoll : epoch ∈ desk.polls) (lost : Bool) {message : String}
    (hquiet : desk.driver.revivedBy (.requestFailed message) = false)
    : (desk.failPoll epoch lost message).Kept := by
  unfold ReviewDesk.failPoll
  dsimp only
  rw [if_pos (h.polls epoch hpoll)]
  constructor
  . apply Steady.perform
    . apply h.toSteady.shrink
      . cases lost <;> simp
      . apply erase_subset
      . apply List.Subset.refl
    . exact hquiet
    . nofun
    . intro role hmem
      exact hmem
    . intro commandId hends
      obtain ⟨answer, heq⟩ := hends.turn
      cases heq
  intro hopen
  have hsettled : (desk.driver.requestFailed message).1.phase.settled = true := by
    unfold requestFailed
    split
    next hfinished =>
      rw [finished_iff] at hfinished
      obtain ⟨resolution, hphase⟩ := hfinished
      rw [hphase]
      rfl
    next => apply reachVerdict_settled
  have hopen : (desk.driver.requestFailed message).1.phase.settled = false := hopen
  rw [hsettled] at hopen
  cases hopen

theorem starts_of_answers {next : Outstanding} (h : Answers outstanding call next)
    : (∀ role, call = .roleStarted role → role ∈ outstanding.starts)
      ∧ ∀ role ∈ next.starts, role ∈ outstanding.starts := by
  cases h with
  | started role hmem =>
    constructor
    . intro other heq
      cases heq
      exact hmem
    . intro other hother
      exact mem_of_mem_erase hother
  | notStarted role message hmem hlane | laneNotStarted role reason hmem hlane =>
    refine ⟨by simp, ?_⟩
    intro other hother
    exact mem_of_mem_erase hother
  | decided _ hdecides =>
    refine ⟨?_, fun role hrole => hrole⟩
    intro role heq
    rw [heq] at hdecides
    cases hdecides
  | _ => exact ⟨by simp, fun role hrole => hrole⟩

variable {next : ReviewDesk}

theorem Kept.step {event : DeskEvent} (h : desk.Kept)
    (horderly : desk.orderly event = true) (hstep : Step desk event next) : next.Kept := by
  cases hstep with
  | begin seed =>
    simp only [orderly, Bool.and_eq_true, List.isEmpty_iff] at horderly
    apply h.begin seed horderly.1 horderly.2
  | dispatch reviewers hturn => apply h.dispatch hturn
  | turnEnded commandId hturn => apply h.turnEnded
  | poll hdispatching => apply h.poll
  | take epoch hpoll => apply h.take hpoll
  | collect batch hbatch =>
    apply h.collect hbatch
    intro hepoch
    simpa [orderly, hepoch] using horderly
  | pollFailed epoch lost message hpoll =>
    apply h.failPoll hpoll
    simpa [orderly, h.polls epoch hpoll] using horderly
  | call call outstanding hanswers hlanes hturn =>
    have hstarts := starts_of_answers hanswers
    simp only [orderly, Bool.and_eq_true, Bool.not_eq_true'] at horderly
    apply h.perform horderly.1 hstarts.1 hstarts.2
    intro commandId hends
    obtain ⟨answer, heq⟩ := hends.turn
    refine ⟨?_, ?_⟩
    . rw [hturn commandId answer heq hends.awaited]
      rfl
    . simpa [heq, hends.awaited, hends.lanes, hends.queued] using horderly.2

/--
An extended review reaches a verdict only once every lane that was answered as started has reported
to the supervisor or failed, and it launches no dispatch of another review.
-/
theorem extended_verdict_waits_for_lanes
    (h : Reaches (fun desk event => desk.orderly event = true) desk)
    : (desk.driver.seed.tier = .extended → desk.driver.phase.concluded = true →
        ∀ lane, desk.Recorded lane → Delivered desk.requests lane)
      ∧ ∀ launch ∈ desk.launches, launch.2.review = launch.1 := by
  have hkept : desk.Kept := by
    induction h with
    | first seed => exact ⟨steady_first seed, nofun⟩
    | step h hmeets hstep ih => apply ih.step hmeets hstep
  constructor
  . intro htier hconcluded
    exact (hkept.concluded htier hconcluded).2
  . exact hkept.launches

/-!
### Running a desk
-/

def answer? (outstanding : Outstanding) : ReviewCall → Option Outstanding
  | .deltaCaptured _ =>
    if outstanding.capture then some { outstanding with capture := false } else none
  | .analysisCompleted _ =>
    if outstanding.analysis then some { outstanding with analysis := false } else none
  | .roleStarted role =>
    if role ∈ outstanding.starts then
      some { outstanding with starts := outstanding.starts.erase role }
    else
      none
  | .roleTurnCompleted _ _ | .forward | .dismiss | .cancel => some outstanding
  | _ => none

theorem answers_of_answer? {next : Outstanding} (h : answer? outstanding call = some next)
    : Answers outstanding call next ∧ ∀ requests, call ≠ .lanesDispatched requests := by
  refine ⟨?_, ?_⟩
  . cases call <;> simp only [answer?, Option.ite_none_right_eq_some, Option.some.injEq,
      reduceCtorEq] at h
    . rw [← h.2]
      exact Answers.captured _ h.1
    . rw [← h.2]
      exact Answers.started _ h.1
    . rw [← h.2]
      exact Answers.analyzed _ h.1
    . rw [← h]
      exact Answers.turnCompleted _ _
    . rw [← h]
      exact Answers.decided _ rfl
    . rw [← h]
      exact Answers.decided _ rfl
    . rw [← h]
      exact Answers.decided _ rfl
  . intro requests heq
    rw [heq] at h
    cases h

def premature : ReviewCall → Bool
  | .roleTurnCompleted commandId _ =>
    desk.driver.awaitedRole commandId = some supervisorRole && desk.turn ≠ .ended commandId
  | _ => false

def next? : DeskEvent → Option ReviewDesk
  | .begin seed => some (desk.begin seed)
  | .dispatch reviewers => if desk.turn.isRunning then some (desk.dispatch reviewers) else none
  | .turnEnded =>
    match desk.turn with
    | .running commandId => some { desk with turn := .ended commandId }
    | _ => none
  | .poll =>
    if desk.exchange.outstanding.dispatching then
      some { desk with polls := desk.epoch :: desk.polls }
    else
      none
  | .take epoch => if epoch ∈ desk.polls then some (desk.take epoch) else none
  | .collect batch => if batch ∈ desk.batches then some (desk.collect batch) else none
  | .pollFailed epoch lost message =>
    if epoch ∈ desk.polls then some (desk.failPoll epoch lost message) else none
  | .call call =>
    if desk.premature call then
      none
    else
      (answer? desk.exchange.outstanding call).map (desk.perform call)

theorem step_of_next? {event : DeskEvent} (h : desk.next? event = some next)
    : Step desk event next := by
  cases event with simp only [next?, Option.ite_none_right_eq_some, Option.some.injEq] at h
  | begin seed =>
    cases h
    apply Step.begin
  | dispatch reviewers =>
    rw [← h.2]
    exact Step.dispatch desk reviewers h.1
  | turnEnded =>
    split at h <;> cases h
    rename_i commandId hturn
    exact Step.turnEnded desk commandId hturn
  | poll =>
    rw [← h.2]
    exact Step.poll desk h.1
  | take epoch =>
    rw [← h.2]
    exact Step.take desk epoch h.1
  | collect batch =>
    rw [← h.2]
    exact Step.collect desk batch h.1
  | pollFailed epoch lost message =>
    rw [← h.2]
    exact Step.pollFailed desk epoch lost message h.1
  | call call =>
    simp only [Option.ite_none_left_eq_some, Option.map_eq_some_iff] at h
    obtain ⟨hended, outstanding, hanswer, rfl⟩ := h
    have hanswers := answers_of_answer? hanswer
    apply Step.call desk call outstanding hanswers.1 hanswers.2
    intro commandId answer heq hawaited
    rw [heq] at hended
    simpa [premature, hawaited] using hended

def follow (meets : ReviewDesk → DeskEvent → Bool) (desk : ReviewDesk)
    : List DeskEvent → Option ReviewDesk
  | [] => some desk
  | event :: rest =>
    if meets desk event then (desk.next? event).bind (fun next => follow meets next rest) else none

theorem Reaches.follow {meets : ReviewDesk → DeskEvent → Bool}
    {events : List DeskEvent} (h : Reaches (fun desk event => meets desk event = true) desk)
    (hfollow : desk.follow meets events = some next)
    : Reaches (fun desk event => meets desk event = true) next := by
  induction events generalizing desk with
  | nil =>
    cases hfollow
    exact h
  | cons event rest ih =>
    simp only [follow, Option.ite_none_right_eq_some, Option.bind_eq_some_iff] at hfollow
    obtain ⟨hmeets, between, hnext, hrest⟩ := hfollow
    exact ih (Reaches.step h hmeets (step_of_next? hnext)) hrest

def testsLane : ReviewSubagentRequest where
  agentType := "tests"
  hypothesis := "the retry has no test"

def supervisorEvents : List DeskEvent :=
  [.call (.deltaCaptured [plainDelta]), .call (.analysisCompleted (.ok "packet")),
   .call (.roleStarted supervisorRole)]

def waitingEvents : List DeskEvent :=
  supervisorEvents
    ++ [.dispatch [testsLane], .poll, .take 1, .collect (1, [⟨1, testsLane⟩]), .turnEnded,
        .call (.roleTurnCompleted "turn-review-supervisor-1" "waiting for the lane"),
        .call (.roleStarted "tests"),
        .call (.roleTurnCompleted "turn-review-tests-2" "No findings."), .turnEnded,
        .call (.roleTurnCompleted "turn-review-supervisor-3" "No material findings.")]

theorem extended_verdict_waits_for_reported_lane
    : ∃ desk, (first (plainSeed .extended)).follow orderly waitingEvents = some desk
        ∧ desk.driver.phase = .resolved .dismissed
        ∧ desk.Recorded "tests"
        ∧ Delivered desk.requests "tests" := by
  have hfacts : ((first (plainSeed .extended)).follow orderly waitingEvents).map (fun desk =>
      (desk.driver.phase, desk.driver.seed.tier, desk.epoch, desk.recorded))
      = some (.resolved .dismissed, .extended, 1, [(1, "tests")]) := by decide +kernel
  simp only [Option.map_eq_some_iff, Prod.mk.injEq] at hfacts
  obtain ⟨desk, hdesk, hphase, htier, hepoch, hrecorded⟩ := hfacts
  have hmem : desk.Recorded "tests" := by simp [Recorded, hepoch, hrecorded]
  refine ⟨desk, hdesk, hphase, hmem, ?_⟩
  apply (extended_verdict_waits_for_lanes ((Reaches.first _).follow hdesk)).1 htier
  . rw [hphase]
    rfl
  . exact hmem

def overlookedEvents : List DeskEvent :=
  supervisorEvents
    ++ [.dispatch [testsLane], .turnEnded,
        .call (.roleTurnCompleted "turn-review-supervisor-1" "No material findings.")]

def inheritedEvents : List DeskEvent :=
  overlookedEvents ++ [.begin (plainSeed .extended)] ++ supervisorEvents
    ++ [.poll, .take 2, .collect (2, [⟨1, testsLane⟩])]

def injectsReports : ReviewRequest → Bool
  | .promptRole _ _ (.reportInjection _ _) => true
  | _ => false

theorem not_delivered_of_none {requests : List ReviewRequest} {lane : String}
    (h : requests.any injectsReports = false) : ¬Delivered requests lane := by
  rintro ⟨commandId, reports, outstanding, hmem, _⟩
  rw [any_eq_false] at h
  exact h _ hmem rfl

-- The verdict of the first review does not wait for the lane, and the second review launches it.
theorem extended_verdict_overlooks_lane
    : (∃ desk, Reaches (fun _ _ => True) desk ∧ desk.driver.seed.tier = .extended
        ∧ desk.driver.phase = .resolved .dismissed
        ∧ desk.Recorded "tests"
        ∧ ¬Delivered desk.requests "tests")
      ∧ ∃ desk, Reaches (fun _ _ => True) desk
        ∧ (2, ⟨1, testsLane⟩) ∈ desk.launches
        ∧ .startRole "tests" true ∈ desk.requests := by
  have hreaches : ∀ {events desk},
      (first (plainSeed .extended)).follow (fun _ _ => true) events = some desk →
        Reaches (fun _ _ => True) desk :=
    fun hdesk => ((Reaches.first _).follow hdesk).mono (fun _ _ _ => trivial)
  constructor
  . have hfacts : ((first (plainSeed .extended)).follow (fun _ _ => true) overlookedEvents).map
        (fun desk => (desk.driver.seed.tier, desk.driver.phase,
          desk.recorded.contains (desk.epoch, "tests"), desk.requests.any injectsReports))
        = some (.extended, .resolved .dismissed, true, false) := by decide +kernel
    simp only [Option.map_eq_some_iff, Prod.mk.injEq, contains_iff_mem] at hfacts
    obtain ⟨desk, hdesk, htier, hphase, hrecorded, hnone⟩ := hfacts
    exact ⟨desk, hreaches hdesk, htier, hphase, hrecorded, not_delivered_of_none hnone⟩
  have hfacts : ((first (plainSeed .extended)).follow (fun _ _ => true) inheritedEvents).map
      (fun desk => (decide ((2, ⟨1, testsLane⟩) ∈ desk.launches),
        decide (ReviewRequest.startRole "tests" true ∈ desk.requests)))
      = some (true, true) := by decide +kernel
  simp only [Option.map_eq_some_iff, Prod.mk.injEq, decide_eq_true_eq] at hfacts
  obtain ⟨desk, hdesk, hlaunched, hstarted⟩ := hfacts
  exact ⟨desk, hreaches hdesk, hlaunched, hstarted⟩

end ReviewDesk

end Hel
