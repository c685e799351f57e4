import Hel.Worker.Safety

/-!
This module contains what an attach answers that reads the journal while the relay goes on working.
-/

namespace Hel

open RelayReplayPlan

variable {codec : RelayCodec} {origin : Origin} {sessionId : String} {w : World}
  {view : JournalView} {event : RelayEvent} {span : RelayJournalSpan}
  {spans : List RelayJournalSpan} {state : PageState}

section AtWork

variable {Accepts : RelaySnapshot → RelayCommand → Prop} {sys sys' : System}

def Working (_ : System) : Action → Prop
  | .operate _ _ => True
  | _ => False

def AtWork (codec : RelayCodec) (sessionId : String) (sys : System) (w : World) : Prop :=
  ∃ sys' op schedule, Run codec sessionId Working sys sys' ∧ sys'.running ∧
    (execute codec op (sys'.world.under schedule)).2 = w

theorem System.world_operated (sys : System) (result : Outcome (List ClaimedRelayCommand) × World)
    : (sys.operated result).world = result.2 := by
  obtain ⟨outcome, w⟩ := result
  cases outcome with
  | ok claimed | error message | crash => rfl

theorem Run.shifts (hrun : Run codec sessionId Working sys sys')
    (h : Sane codec origin Anything sessionId sys) (hguarded : origin.guarded = False)
    : Shifts sys.world sys'.world := by
  have hallowed (sys action) (_ : Working sys action) := permits_anything hguarded sys action
  induction hrun with
  | refl => exact .refl _
  | @step sys₁ action hrun henabled hworking ih =>
    have hsane := (hrun.sane hallowed h).1
    cases action with
    | operate op schedule =>
      obtain ⟨_, _, _, hshifts⟩ :=
        execute_crash hsane henabled op schedule (hallowed sys₁ _ hworking) rfl
      refine ih.trans ?_
      show Shifts sys₁.world (sys₁.operated _).world
      rw [System.world_operated]
      exact hshifts
    | stop | reopen kept schedule => cases hworking

structure Later (codec : RelayCodec) (origin : Origin) (sessionId : String) (w w' : World) :
    Prop where
  recoverable : Recoverable codec origin Anything sessionId w'
  evolves : Evolves codec origin Anything w.chronicle w'.chronicle
  shifts : Shifts w w'

theorem AtWork.later (h : AtWork codec sessionId sys w)
    (hsane : Sane codec origin Anything sessionId sys) (hguarded : origin.guarded = False)
    : Later codec origin sessionId sys.world w := by
  obtain ⟨sys', op, schedule, hrun, hrunning, hw⟩ := h
  have hallowed := permits_anything hguarded
  obtain ⟨hsane', hevolves⟩ := hrun.sane (fun sys action _ => hallowed sys action) hsane
  obtain ⟨hrecoverable, _, hevolves', hshifts⟩ :=
    execute_crash hsane' hrunning op schedule (hallowed sys' (.operate op schedule)) hw
  exact ⟨hrecoverable, hevolves.trans hevolves', (hrun.shifts hsane hguarded).trans hshifts⟩

end AtWork

section View

variable {w w' : World}

-- What may be found at a path of the journal: the file as it is, or with damaged records.
def Sees (codec : RelayCodec) (files : JournalFiles) (path : JournalFile) : Sighting → Prop
  | .absent => files.get? path = none
  | .vanished => files.get? path = none
  | .present content => ∃ original, files.get? path = some original ∧
      ∀ event, .record event ∈ content.lines → validateRelayEventSelf codec event = .ok () →
        .record event ∈ original.lines

theorem sees_of (files : JournalFiles) (visit : ReplayVisit) (path : JournalFile)
    : Sees codec files path (JournalView.of files visit path) := by
  unfold JournalView.of
  cases hget : files.get? path with
  | none => exact hget
  | some content => exact ⟨content, hget, fun _ hmem _ => hmem⟩

theorem Recoverable.genuine_of_holds {Accepts : RelaySnapshot → RelayCommand → Prop}
    (h : Recoverable codec origin Accepts sessionId w) (hholds : Holds w.disk.journal.files event)
    : Genuine codec event ∧ (event.ordinal ≤ w.held.latestOrdinal → event ∈ w.history) := by
  obtain ⟨base, hdurable⟩ := h.durable
  have hr : Recorded codec origin w.history := hdurable.valid.recorded
  rcases h.journal.files with hrep | ⟨other, next, content, htransition, hrep, _, _⟩
  . have hmem := hrep.mem_of_holds hholds
    exact ⟨hr.genuine event hmem, fun _ => hmem⟩
  have hr' : Recorded codec origin (w.history ++ [other]) :=
    (htransition.valid hdurable.valid).recorded
  have hmem := hrep.mem_of_holds hholds
  refine ⟨hr'.genuine event hmem, ?_⟩
  intro hle
  obtain ⟨hordinal, _, _⟩ := ordinal_of_applyRelayEvent (unsynced_apply htransition)
  have hmem' : event ∈ w.history ∨ event = other := by
    rw [← List.mem_singleton, ← List.mem_append]
    exact hmem
  cases hmem' with
  | inl hold => exact hold
  | inr heq =>
  have hordinal' : other.ordinal = w.held.latestOrdinal + 1 := hordinal
  rw [heq] at hle
  omega

theorem SpanRep.journalPath {history : List RelayEvent} {files : JournalFiles}
    (h : SpanRep origin history files span) : span.path = .active ∨ span.path.isSegment := by
  apply h.path.imp And.left
  intro hsegment
  rw [hsegment]
  rfl

theorem Later.viewSound (h : Live codec origin sessionId w)
    {moments : ReplayVisit → JournalFile → World} {view : JournalView}
    (hlater : ∀ visit path, Later codec origin sessionId w (moments visit path))
    (hview : ∀ visit path, Sees codec (moments visit path).disk.journal.files path (view visit path))
    : ViewSound codec w.history (replayPlan w.relay) view := by
  intro visit content event span hspan hpresent hmem hself
  obtain ⟨hrecoverable, hevolves, _⟩ := hlater visit span.path
  have hsees := hview visit span.path
  rw [hpresent] at hsees
  obtain ⟨original, hget, htrue⟩ := hsees
  obtain ⟨after, hchain⟩ := h.spans.chain
  obtain ⟨hgenuine, hin⟩ := hrecoverable.genuine_of_holds
    ⟨span.path, original, (hchain.rep hspan).journalPath, hget, htrue event hmem hself⟩
  refine ⟨hgenuine, ?_⟩
  intro hle
  have hle' : event.ordinal ≤ w.held.latestOrdinal := by
    rw [← h.snapshot]
    exact hle
  have hvalid := h.valid
  obtain ⟨events, hevents⟩ := hevolves.history_eq
  have hevents' : (moments visit span.path).history = w.history ++ events := hevents
  have hmono : w.held.latestOrdinal ≤ (moments visit span.path).held.latestOrdinal :=
    hevolves.moves_on.2.1
  have hmem' := hin (by omega)
  rw [hevents', List.mem_append] at hmem'
  cases hmem' with
  | inl hold => exact hold
  | inr hnew =>
  have hnumbered := (hrecoverable.valid.recorded).numbered
  have hhistory : (moments visit span.path).chronicle.history = w.history ++ events := hevents
  rw [hhistory, numbered_append] at hnumbered
  have hlow := (hnumbered.2.bounds hnew).1
  have hlatest : w.held.latestOrdinal = origin.ordinal + w.history.length := hvalid.latest_eq
  omega

end View

section Readable

variable (codec : RelayCodec)

inductive ReadableTo (ordinal : Nat) : List JournalLine → Prop where
  | here {event : RelayEvent} {rest : List JournalLine} :
      codec.eventLen event ≤ RELAY_EVENT_BYTE_BUDGET → validateRelayEventSelf codec event = .ok () →
      event.ordinal = ordinal → ReadableTo ordinal (.record event :: rest)
  | next {event : RelayEvent} {rest : List JournalLine} :
      codec.eventLen event ≤ RELAY_EVENT_BYTE_BUDGET → validateRelayEventSelf codec event = .ok () →
      ReadableTo ordinal rest → ReadableTo ordinal (.record event :: rest)

variable {codec} {ordinal : Nat} {lines : List JournalLine}

theorem readableTo_records {earlier : List RelayEvent} (rest : List JournalLine)
    (hearlier : ∀ e ∈ earlier, Genuine codec e) (hg : Genuine codec event)
    : ReadableTo codec event.ordinal (earlier.map .record ++ .record event :: rest) := by
  induction earlier with
  | nil => exact .here hg.len_le hg.validateSelf rfl
  | cons head tail ih =>
    have hhead := hearlier head (by simp)
    exact .next hhead.len_le hhead.validateSelf (ih (fun e he => hearlier e (List.mem_cons_of_mem _ he)))

variable {ordinal : Nat}

theorem anchorVisitor_passes (hg : Genuine codec event) (path : JournalFile) (scan : AnchorScan)
    : anchorVisitor codec path ordinal scan event (codec.eventLen event)
        = if event.ordinal = ordinal then .ok (.break { scan with digest := some event.digest })
          else .ok (.continue { scan with previous := some event }) := by
  have hchained : unchainedAfter scan.previous event = false := by
    unfold unchainedAfter
    split
    . simp [hg.format, RELAY_EVENT_FORMAT_V1, RELAY_EVENT_FORMAT_V2]
    . rfl
  unfold anchorVisitor
  rw [hg.validateSelf]
  dsimp only
  rw [hchained]
  simp only [Bool.false_eq_true, ↓reduceIte]

theorem ReadableTo.boundary (h : ReadableTo codec ordinal lines)
    (hgenuine : ∀ event, .record event ∈ lines → validateRelayEventSelf codec event = .ok () →
      Genuine codec event) (path : JournalFile) (torn : Nat)
    : visitRelayJournalLines codec path .strict (boundaryVisitor codec path) torn
        lines none = .ok none := by
  obtain ⟨event, rest, rfl, hlen, hself⟩ : ∃ event rest, lines = .record event :: rest ∧
      codec.eventLen event ≤ RELAY_EVENT_BYTE_BUDGET ∧
      validateRelayEventSelf codec event = .ok () := by
    cases h with
    | here hlen hself _ | next hlen hself _ => exact ⟨_, _, rfl, hlen, hself⟩
  have hshort : ¬ JournalLine.len codec (.record event) > RELAY_EVENT_BYTE_BUDGET :=
    Nat.not_lt.mpr hlen
  have hformat : ¬ (event.format = RELAY_EVENT_FORMAT_V1 ∧ event.previousDigest ≠ "") := by
    rw [(hgenuine event (by simp) hself).format]
    simp [RELAY_EVENT_FORMAT_V1, RELAY_EVENT_FORMAT_V2]
  rw [visitRelayJournalLines, if_neg hshort, if_neg (by simp)]
  unfold boundaryVisitor
  rw [hself]
  simp only [hformat, ↓reduceIte]

theorem ReadableTo.anchor (h : ReadableTo codec ordinal lines)
    (hgenuine : ∀ event, .record event ∈ lines → validateRelayEventSelf codec event = .ok () →
      Genuine codec event) {digest : String}
    (hdigest : ∀ event, .record event ∈ lines → validateRelayEventSelf codec event = .ok () →
      event.ordinal = ordinal → event.digest = digest)
    (path : JournalFile) (torn : Nat) (scan : AnchorScan)
    : ∃ scan', visitRelayJournalLines codec path .strict
        (anchorVisitor codec path ordinal) torn lines scan = .ok scan' ∧
        scan'.digest = some digest := by
  induction h generalizing scan with
  | @here event rest hlen hself hordinal =>
    have hshort : ¬ JournalLine.len codec (.record event) > RELAY_EVENT_BYTE_BUDGET :=
      Nat.not_lt.mpr hlen
    rw [visitRelayJournalLines, if_neg hshort, if_neg (by simp),
      anchorVisitor_passes (hgenuine event (by simp) hself), if_pos hordinal]
    exact ⟨_, rfl, by rw [hdigest event (by simp) hself hordinal]⟩
  | @next event rest hlen hself _ ih =>
    have hshort : ¬ JournalLine.len codec (.record event) > RELAY_EVENT_BYTE_BUDGET :=
      Nat.not_lt.mpr hlen
    rw [visitRelayJournalLines, if_neg hshort, if_neg (by simp),
      anchorVisitor_passes (hgenuine event (by simp) hself)]
    by_cases hordinal : event.ordinal = ordinal
    . rw [if_pos hordinal]
      exact ⟨_, rfl, by rw [hdigest event (by simp) hself hordinal]⟩
    rw [if_neg hordinal]
    exact ih (fun e he => hgenuine e (List.mem_cons_of_mem _ he))
      (fun e he => hdigest e (List.mem_cons_of_mem _ he)) _

end Readable

section Complete

variable {history : List RelayEvent} {files : JournalFiles} {plan : RelayReplayPlan}
  {after start budget : Nat}

-- The file is found as the plan knows it; only the active one may have grown.
def FoundAs (captured : JournalContent) (path : JournalFile) (sighting : Sighting) : Prop :=
  ∃ content, sighting = .present content ∧ captured.lines <+: content.lines ∧
    (path ≠ .active → content = captured)

def ViewComplete (files : JournalFiles) (plan : RelayReplayPlan) (view : JournalView)
    (after : Nat) : Prop :=
  ∀ visit, ∀ span ∈ plan.spans, after ≤ span.fileLastOrdinal → ∀ captured,
    files.get? span.path = some captured → FoundAs captured span.path (view visit span.path)

structure PlanCovers (origin : Origin) (history : List RelayEvent) (files : JournalFiles)
    (plan : RelayReplayPlan) (start : Nat) : Prop where
  chain : SpanChain origin history files start plan.latestOrdinal plan.spans
  inner : ∀ span ∈ plan.spans.dropLast, span.path ≠ .active
  cached : ∀ digest ∈ (plan.spans.map (·.fileFirstPreviousDigest)).tail, digest = none
  latest_eq : plan.latestOrdinal = frontierOf origin history

structure PlanComplete (origin : Origin) (history : List RelayEvent) (files : JournalFiles)
    (plan : RelayReplayPlan) (start : Nat) : Prop
    extends PlanCovers origin history files plan start where
  start_le : start ≤ plan.retainedThrough
  retained : plan.retainedThrough = plan.acknowledgedThrough ∨
    plan.retainedThrough = plan.recoveryFloorOrdinal

theorem SpanRep.split (h : SpanRep origin history files span) (hr : Recorded codec origin history)
    (hmem : event ∈ history) (hfirst : span.fileFirstOrdinal ≤ event.ordinal)
    (hlast : event.ordinal ≤ span.fileLastOrdinal)
    : between history (span.fileFirstOrdinal - 1) span.fileLastOrdinal
        = between history (span.fileFirstOrdinal - 1) (event.ordinal - 1)
            ++ event :: between history event.ordinal span.fileLastOrdinal := by
  have horigin := h.origin_lt
  have hsnoc : between history (span.fileFirstOrdinal - 1) event.ordinal
      = between history (span.fileFirstOrdinal - 1) (event.ordinal - 1) ++ [event] := by
    have heq : event.ordinal = event.ordinal - 1 + 1 := by omega
    have hsnoc := slice_snoc (a := span.fileFirstOrdinal - 1) hr.numbered hmem heq (by omega)
    rw [← heq] at hsnoc
    exact hsnoc
  have happend := slice_append_slice (a := span.fileFirstOrdinal - 1) (b := event.ordinal)
    (c := span.fileLastOrdinal) hr.numbered (by omega) hlast
  unfold between at hsnoc ⊢
  rw [← happend, hsnoc, List.append_assoc]
  rfl

theorem PlanCovers.uncached (h : PlanCovers origin history files plan start)
    (hspan : span ∈ plan.spans) (hlow : start < ordinal)
    (hfirst : span.fileFirstOrdinal = ordinal + 1) : span.fileFirstPreviousDigest = none := by
  have hchain := h.chain
  have hcached := h.cached
  cases hspans : plan.spans with
  | nil =>
    rw [hspans] at hspan
    cases hspan
  | cons head rest =>
  rw [hspans] at hspan hchain hcached
  rw [List.mem_cons] at hspan
  cases hspan with
  | inl heq =>
    have hle := hchain.2.2.2.1
    rw [← heq] at hle
    omega
  | inr hin => exact hcached _ (List.mem_map_of_mem hin)

theorem SpanRep.readableTo (h : SpanRep origin history files span)
    (hr : Recorded codec origin history) (hmem : event ∈ history)
    (hfirst : span.fileFirstOrdinal ≤ event.ordinal) (hlast : event.ordinal ≤ span.fileLastOrdinal)
    {captured content : JournalContent} (hget : files.get? span.path = some captured)
    (hextends : captured.lines <+: content.lines)
    : ReadableTo codec event.ordinal content.lines := by
  obtain ⟨captured', hget', hlines, _⟩ := h.content
  rw [hget, Option.some.injEq] at hget'
  obtain ⟨more, hmore⟩ := hextends
  rw [← hmore, hget', hlines, h.split hr hmem hfirst hlast, List.map_append, List.append_assoc]
  exact readableTo_records _ (genuine_between hr) (hr.genuine event hmem)

theorem SpanChain.find {through : Nat}
    (h : SpanChain origin history files after through spans) (hlow : after < ordinal)
    (hhigh : ordinal ≤ through)
    : ∃ span, spans.find? (fun span =>
        ordinal > span.afterOrdinal ∧ ordinal ≤ span.fileLastOrdinal) = some span := by
  rw [← Option.isSome_iff_exists, List.find?_isSome]
  induction spans generalizing after with
  | nil =>
    have heq : after = through := h
    omega
  | cons head rest ih =>
    by_cases hin : ordinal ≤ head.fileLastOrdinal
    . refine ⟨head, by simp, ?_⟩
      have hafter := h.2.1
      simp only [gt_iff_lt, Bool.decide_and, Bool.and_eq_true, decide_eq_true_eq]
      omega
    . obtain ⟨span, hmem, hspan⟩ := ih h.2.2.2.2 (by omega)
      exact ⟨span, List.mem_cons_of_mem _ hmem, hspan⟩

theorem readSpans_of_unreadable {through : Nat} {digest : String}
    (h : plan.readEventsAfter codec view after digest budget = .error (.unreadable through))
    : plan.readSpans codec view budget 0 plan.spans ⟨[], 0, after, digest, false⟩
        = .error (.unreadable through) := by
  unfold readEventsAfter at h
  dsimp only at h
  split at h
  next e herror => rw [herror, Except.error.inj h]
  next => split at h <;> cases h

theorem pageVisitor_of_next (hg : Genuine codec event) (hmax : event.ordinal ≤ U64_MAX)
    (hnext : event.ordinal = state.throughOrdinal + 1)
    (hafter : span.afterOrdinal ≤ state.throughOrdinal)
    (hlatest : event.ordinal ≤ plan.latestOrdinal) (hdigest : isRelayDigest state.throughDigest)
    : plan.pageVisitor codec span budget state event (codec.eventLen event)
        = .ok (.break { state with pageFull := true }) ∨
      ∃ state', plan.pageVisitor codec span budget state event (codec.eventLen event)
          = .ok (.continue state') ∧
        state'.throughOrdinal = event.ordinal ∧ state'.throughDigest = event.digest := by
  have howned : ¬ (event.ordinal ≤ span.afterOrdinal ∨ event.ordinal ≤ state.throughOrdinal) := by
    omega
  have hformat : ¬ (event.format = RELAY_EVENT_FORMAT_V1
      ∧ event.previousDigest ≠ state.throughDigest) := by
    rw [hg.format]
    simp [RELAY_EVENT_FORMAT_V1, RELAY_EVENT_FORMAT_V2]
  unfold pageVisitor
  rw [if_neg howned, if_neg (not_lt.mpr hlatest), if_neg (not_not.mpr hnext), if_neg hformat,
    validateRelayEvent_of_genuine hdigest hg hnext hmax]
  dsimp only
  split
  . exact Or.inl rfl
  . exact Or.inr ⟨_, rfl, rfl, rfl⟩

theorem foldVisitor_pageVisitor {events : List RelayEvent} {n : Nat}
    (hall : Consecutive codec n events) (span : RelayJournalSpan) (hn : n ≤ state.throughOrdinal)
    (hafter : span.afterOrdinal ≤ state.throughOrdinal)
    (hlatest : n + events.length ≤ plan.latestOrdinal) (hdigest : isRelayDigest state.throughDigest)
    : ∃ state', foldVisitor codec (plan.pageVisitor codec span budget) events state = .ok state' ∧
        isRelayDigest state'.throughDigest ∧
        (state'.pageFull = false → n + events.length ≤ state'.throughOrdinal) := by
  induction events generalizing n state with
  | nil => exact ⟨state, rfl, hdigest, fun _ => hn⟩
  | cons event rest ih =>
    have hordinal := hall.1.1
    obtain ⟨hg, hmax⟩ := hall.2 event (by simp)
    rw [List.length_cons, Nat.add_comm rest.length, ← Nat.add_assoc, ← hordinal] at hlatest ⊢
    by_cases hskip : event.ordinal ≤ state.throughOrdinal
    . have hvisit : plan.pageVisitor codec span budget state event (codec.eventLen event)
          = .ok (.continue state) := by
        unfold pageVisitor
        rw [if_pos (Or.inr hskip)]
      rw [foldVisitor_cons_of_continue hvisit]
      exact ih hall.tail (by omega) hafter hlatest hdigest
    have hle : event.ordinal ≤ plan.latestOrdinal := by omega
    rcases pageVisitor_of_next hg hmax
      (show event.ordinal = state.throughOrdinal + 1 by omega) hafter hle hdigest with
      hvisit | ⟨state', hvisit, hthrough, hdigest'⟩
    . refine ⟨{ state with pageFull := true }, by rw [foldVisitor, hvisit], hdigest, ?_⟩
      intro hopen
      cases hopen
    . rw [foldVisitor_cons_of_continue hvisit]
      exact ih hall.tail (by omega) (by omega) hlatest (hdigest' ▸ hg.isRelayDigest)

theorem SpanRep.readPage (h : SpanRep origin history files span)
    (hr : Recorded codec origin history) (hfirst : span.fileFirstOrdinal ≤ state.throughOrdinal + 1)
    (hafter : span.afterOrdinal ≤ state.throughOrdinal)
    (hlatest : span.fileLastOrdinal ≤ plan.latestOrdinal)
    (hdigest : isRelayDigest state.throughDigest)
    : ∃ state', foldVisitor codec (plan.pageVisitor codec span budget)
          (between history (span.fileFirstOrdinal - 1) span.fileLastOrdinal) state = .ok state' ∧
        isRelayDigest state'.throughDigest ∧
        (state'.pageFull = false → span.fileLastOrdinal ≤ state'.throughOrdinal) := by
  have horigin := h.origin_lt
  have hle := h.first_le
  have hlast := h.last_le
  have hlength : (between history (span.fileFirstOrdinal - 1) span.fileLastOrdinal).length
      = span.fileLastOrdinal - (span.fileFirstOrdinal - 1) :=
    hr.numbered.length_slice (by omega) (by unfold frontierOf at hlast; omega)
  have hend : span.fileFirstOrdinal - 1
      + (between history (span.fileFirstOrdinal - 1) span.fileLastOrdinal).length
      = span.fileLastOrdinal := by omega
  have hread := @foldVisitor_pageVisitor codec state plan budget _ _
    (hr.consecutive (a := span.fileFirstOrdinal - 1) (b := span.fileLastOrdinal) (by omega)) span
    (by omega) hafter (by omega) hdigest
  rw [hend] at hread
  exact hread

section

variable (hr : Recorded codec origin history) (hsound : ViewSound codec history plan view)

include hr hsound

theorem anchorDigest_of_readableTo (hmem : event ∈ history) (hle : event.ordinal ≤ plan.latestOrdinal)
    (hfind : plan.spans.find? (fun span =>
      event.ordinal > span.afterOrdinal ∧ event.ordinal ≤ span.fileLastOrdinal) = some span)
    {content : JournalContent} (hpresent : view .anchor span.path = .present content)
    (h : ReadableTo codec event.ordinal content.lines)
    : plan.anchorDigest codec view event.ordinal = .ok (some event.digest) := by
  have htrue := fun other (hin : .record other ∈ content.lines) =>
    hsound .anchor content other span (List.mem_of_find?_eq_some hfind) hpresent hin
  have hdigest : ∀ other, .record other ∈ content.lines →
      validateRelayEventSelf codec other = .ok () → other.ordinal = event.ordinal →
      other.digest = event.digest := by
    intro other hin hself hordinal
    rw [hr.numbered.unique ((htrue other hin hself).2 (by omega)) hmem hordinal]
  obtain ⟨scan, hvisit, hsome⟩ := h.anchor (fun other hin hself => (htrue other hin hself).1) hdigest
    span.path content.torn { digest := none, previous := none }
  unfold anchorDigest
  rw [hfind]
  dsimp only
  rw [hpresent, visitSighting, hvisit]
  dsimp only
  rw [hsome]

theorem readSpans_ne_unreadable (hv : ViewComplete files plan view after)
    {index : Nat} (hspans : ∀ span ∈ spans, span ∈ plan.spans)
    (hchain : SpanChain origin history files start plan.latestOrdinal spans)
    (hinner : ∀ span ∈ spans.dropLast, span.path ≠ .active)
    (hstate : PageSound codec origin history plan after budget state)
    (hstart : state.pageFull = false → start ≤ state.throughOrdinal) (recoverAfter : Nat)
    : plan.readSpans codec view budget index spans state ≠ .error (.unreadable recoverAfter) := by
  induction spans generalizing index start state with
  | nil =>
    unfold readSpans
    intro h
    cases h
  | cons span rest ih =>
    obtain ⟨hrep, hafter, hle, hfirst, hrest⟩ := hchain
    have hmem : span ∈ plan.spans := hspans span (by simp)
    have hspans' : ∀ span ∈ rest, span ∈ plan.spans :=
      fun span hin => hspans span (List.mem_cons_of_mem _ hin)
    have hinner' : ∀ span ∈ rest.dropLast, span.path ≠ .active := by
      intro other hin
      apply hinner
      cases rest with
      | nil => cases hin
      | cons next rest => exact List.mem_cons_of_mem _ hin
    unfold readSpans
    split
    next hskip =>
      apply ih hspans' hrest hinner' hstate
      intro hopen
      rw [hopen] at hskip
      simpa using hskip
    rename_i hread
    rw [not_or] at hread
    have hopen : state.pageFull = false := by simpa using hread.1
    have hbehind := hstate.after_le
    split
    next message herror =>
      split
      next hlt =>
        exfalso
        have hsegment : span.path ≠ .active := by
          apply hinner
          cases rest with
          | nil =>
            have heq : span.fileLastOrdinal = plan.latestOrdinal := hrest
            omega
          | cons next rest => exact List.mem_cons_self
        obtain ⟨captured, hget, hlines, htorn⟩ := hrep.content
        obtain ⟨content, hpresent, _, hsame⟩ := hv (.page index) span hmem (by omega) captured hget
        have horigin := hrep.origin_lt
        have hstart' := hstart hopen
        obtain ⟨state', hfold, _⟩ := hrep.readPage hr (by omega) (by omega) hlt.le
          (hstate.through.isRelayDigest hr)
        rw [hpresent, hsame hsegment, visitSighting, hlines,
          visitRelayJournalLines_records _ (genuine_between hr) htorn, hfold] at herror
        cases herror
      next => nofun
    next next hnext =>
      have hsound' := hstate.visitSpan hr hsound hmem hopen hnext
      split
      . nofun
      rename_i hcovered
      apply ih hspans' hrest hinner' hsound'
      intro hopen'
      have hbound := hrest.le
      rw [hopen'] at hcovered
      simp only [Bool.not_false, true_and] at hcovered
      omega

variable (hp : PlanComplete origin history files plan start)

include hp

theorem anchorDigest_eq (hv : ViewComplete files plan view event.ordinal)
    (hlow : start < event.ordinal) (hmem : event ∈ history)
    : plan.anchorDigest codec view event.ordinal = .ok (some event.digest) := by
  have hbounds := hr.numbered.bounds hmem
  have hlatest := hp.latest_eq
  unfold frontierOf at hlatest
  obtain ⟨span, hfind⟩ := hp.chain.find hlow (by omega)
  have hspan := List.mem_of_find?_eq_some hfind
  have howner := List.find?_some hfind
  simp only [gt_iff_lt, Bool.decide_and, Bool.and_eq_true, decide_eq_true_eq] at howner
  have hrep := hp.chain.rep hspan
  have hfirst := (hp.chain.owns hspan).2.2.2
  obtain ⟨captured, hget, _⟩ := hrep.content
  obtain ⟨content, hpresent, hextends, _⟩ := hv .anchor span hspan howner.2 captured hget
  exact anchorDigest_of_readableTo hr hsound hmem (by omega) hfind hpresent
    (hrep.readableTo hr hmem (by omega) (by omega) hget hextends)

variable (hv : ViewComplete files plan view after) (hretained : plan.retainedThrough ≤ after)

include hv hretained

theorem boundaryDigest_eq_none (hacknowledged : after ≠ plan.acknowledgedThrough)
    (hfloor : after ≠ plan.recoveryFloorOrdinal)
    : plan.boundaryDigest codec view after = .ok none := by
  unfold boundaryDigest
  split
  . rfl
  rename_i span hfind
  have hspan := List.mem_of_find?_eq_some hfind
  have hboundary := List.find?_some hfind
  simp only [Bool.decide_and, Bool.and_eq_true, decide_eq_true_eq] at hboundary
  have hrep := hp.chain.rep hspan
  have hle := hrep.first_le
  have hstart := hp.start_le
  have hchoice := hp.retained
  rw [hp.uncached hspan (by omega) hboundary.1]
  dsimp only
  obtain ⟨captured, hget, _⟩ := hrep.content
  obtain ⟨content, hpresent, hextends, _⟩ :=
    hv .boundary span hspan (by omega) captured hget
  have horigin := hrep.origin_lt
  have hlast := hrep.last_le
  unfold frontierOf at hlast
  obtain ⟨event, hmem, hordinal⟩ :=
    hr.numbered.exists (a := span.fileFirstOrdinal) (by omega) (by omega)
  have hreadable := hrep.readableTo hr hmem (by omega) (by omega) hget hextends
  rw [hpresent]
  exact hreadable.boundary
    (fun event hmem hself => (hsound _ _ _ span hspan hpresent hmem hself).1) _ _

variable (hs : PlanSound origin history plan) {digest : String}
  (hcursor : OnChain origin history after digest)

include hs hcursor

theorem digestAt_eq : plan.digestAt codec view after = .ok (some digest) := by
  by_cases hknows : plan.Knows after
  . obtain ⟨known, heq, hchain⟩ := digestAt_of_knows codec view hs (hcursor.bounds hr).1 hknows
    rw [heq, hcursor.unique hr hchain]
  rw [digestAt_iff_of_not_knows hknows]
  unfold RelayReplayPlan.Knows at hknows
  simp only [not_or] at hknows
  obtain ⟨_, _, hacknowledged, hfloor, _⟩ := hknows
  right
  refine ⟨boundaryDigest_eq_none hr hsound hp hv hretained hacknowledged hfloor, ?_⟩
  have hstart := hp.start_le
  have hchoice := hp.retained
  have hchain := hs.acknowledged.bounds hr
  cases hcursor with
  | inl horigin =>
    have hfloors := hs.floor.bounds hr
    omega
  | inr hevent =>
    obtain ⟨event, hmem, rfl, rfl⟩ := hevent
    exact anchorDigest_eq hr hsound hp hv (by omega) hmem

theorem validateCursor_eq_ok : plan.validateCursor codec view after digest = .ok () := by
  have hbounds := hcursor.bounds hr
  have hlatest := hp.latest_eq
  unfold frontierOf at hlatest
  have hlow : ¬ after < plan.retainedThrough := by omega
  have hhigh : ¬ after > plan.latestOrdinal := by omega
  unfold validateCursor validateRelayDigest
  simp only [hlow, hhigh, hcursor.isRelayDigest hr, ↓reduceIte,
    digestAt_eq hr hsound hp hv hretained hs hcursor, ne_eq, not_true_eq_false]

theorem attach_ne_desynchronized (state : RelayOperationalState) (error : RelayProtocolError)
    : plan.attach codec view after digest state ≠ .ok (.error error) := by
  have hbounds := hcursor.bounds hr
  have hlatest := hp.latest_eq
  unfold frontierOf at hlatest
  have hstart := hp.start_le
  unfold attach
  rw [validateCursor_eq_ok hr hsound hp hv hretained hs hcursor]
  dsimp only
  split
  next recoverAfter hunreadable =>
    exfalso
    refine readSpans_ne_unreadable hr hsound hv (fun _ hmem => hmem) hp.chain hp.inner
      (pageSound_start hcursor (by omega)) ?_ recoverAfter (readSpans_of_unreadable hunreadable)
    intro _
    show start ≤ after
    omega
  next => nofun
  next => split <;> nofun

end

end Complete

section Attach

variable {sys : System} {moments : ReplayVisit → JournalFile → World} {after : Nat}
  {digest : String}

structure ReplaysExactly (codec : RelayCodec) (history : List RelayEvent) (latest after : Nat)
    (events : List RelayEvent) (through : Nat) : Prop where
  events_eq : events = between history after through
  numbered : Numbered RelayEvent.ordinal after events
  through_eq : through = after + events.length
  through_le : through ≤ latest
  complete : through = latest ∨ ∃ event ∈ history, event.ordinal = through + 1 ∧
    RELAY_REPLAY_BYTE_BUDGET < bytesOf codec events + codec.eventLen event

def OnRecord (w : World) (after : Nat) (digest : String) : Prop :=
  (∃ event ∈ w.history, event.ordinal = after ∧ event.digest = digest) ∨
    after = w.relay.snapshot.retainedThrough ∧ digest = w.relay.snapshot.retainedDigest

def Corrupted (files : JournalFiles) (path : JournalFile) (sighting : Sighting) : Prop :=
  ∃ content original, sighting = .present content ∧ files.get? path = some original ∧
    content ≠ original

def NotKept (relay : DurableRelay) (after : Nat) : Prop :=
  after < relay.snapshot.retainedThrough ∨
    relay.snapshot.retainedThrough < journalFloor relay

theorem OnRecord.onChain (h : OnRecord w after digest) (hlive : Live codec origin sessionId w)
    : OnChain origin w.history after digest := by
  cases h with
  | inl hevent => exact Or.inr hevent
  | inr hretained =>
    rw [hretained.1, hretained.2, hlive.snapshot]
    exact hlive.valid.frontiers.retained.1

theorem Live.journalFloor_eq (h : Live codec origin sessionId w) {start : Nat}
    (hchain : SpanChain origin w.history w.disk.journal.files start (frontierOf origin w.history)
      w.relay.journalSpans) : journalFloor w.relay = start := by
  unfold journalFloor
  cases hspans : w.relay.journalSpans with rw [hspans] at hchain
  | nil =>
    have heq : start = frontierOf origin w.history := hchain
    rw [List.head?_nil, h.snapshot, ← h.frontierOf_eq, heq]
  | cons span rest => exact hchain.2.1

theorem Live.planCovers (h : Live codec origin sessionId w)
    : PlanCovers origin w.history w.disk.journal.files (replayPlan w.relay)
        (journalFloor w.relay) := by
  obtain ⟨start, hchain⟩ := h.spans.chain
  have hlatest : w.relay.snapshot.latestOrdinal = frontierOf origin w.history := by
    rw [h.snapshot, h.frontierOf_eq]
  constructor
  . show SpanChain _ _ _ _ w.relay.snapshot.latestOrdinal w.relay.journalSpans
    rw [h.journalFloor_eq hchain, hlatest]
    exact hchain
  . exact h.spans.inner
  . exact h.spans.cached
  . exact hlatest

theorem Live.planComplete (h : Live codec origin sessionId w)
    (hkept : journalFloor w.relay ≤ w.relay.snapshot.retainedThrough)
    : PlanComplete origin w.history w.disk.journal.files (replayPlan w.relay)
        (journalFloor w.relay) := by
  refine ⟨h.planCovers, hkept, ?_⟩
  . show w.relay.snapshot.retainedThrough = w.relay.snapshot.acknowledgedThrough ∨
      w.relay.snapshot.retainedThrough = w.relay.snapshot.recoveryFloorOrdinal
    unfold RelaySnapshot.retainedThrough
    omega

theorem Later.viewComplete
    (hlater : ∀ visit path, Later codec origin sessionId w (moments visit path))
    (hview : ∀ visit path, Sees codec (moments visit path).disk.journal.files path (view visit path))
    (hsame : ∀ visit path, (moments visit path).invalidations = w.invalidations)
    (hintact : ∀ visit, ∀ span ∈ (replayPlan w.relay).spans, after ≤ span.fileLastOrdinal →
      ¬ Corrupted (moments visit span.path).disk.journal.files span.path (view visit span.path))
    (hpaths : ∀ span ∈ (replayPlan w.relay).spans, span.path = .active ∨ span.path.isSegment)
    : ViewComplete w.disk.journal.files (replayPlan w.relay) view after := by
  intro visit span hspan hafter captured hget
  have hgrown := (hlater visit span.path).shifts.grown (hsame visit span.path)
  obtain ⟨original, horiginal, hextends, hsegment⟩ :
      ∃ original, (moments visit span.path).disk.journal.files.get? span.path = some original ∧
        captured.lines <+: original.lines ∧ (span.path ≠ .active → original = captured) := by
    cases hpath : span.path with
    | active =>
      rw [hpath] at hget hgrown
      obtain ⟨original, horiginal, hextends⟩ := hgrown.active captured hget
      exact ⟨original, horiginal, hextends, fun hne => absurd rfl hne⟩
    | segment first last =>
      rw [hpath] at hget hgrown
      exact ⟨captured, hgrown.segments first last captured hget, List.prefix_rfl, fun _ => rfl⟩
    | _ =>
      have := hpaths span hspan
      rw [hpath] at this
      simp [JournalFile.isSegment] at this
  have hsees := hview visit span.path
  have hnot := hintact visit span hspan hafter
  cases hsighting : view visit span.path with
  | absent | vanished =>
    rw [hsighting] at hsees
    have hnone : (moments visit span.path).disk.journal.files.get? span.path = none := hsees
    rw [hnone] at horiginal
    cases horiginal
  | present content =>
    have heq : content = original := by
      by_contra hne
      exact hnot ⟨content, original, hsighting, horiginal, hne⟩
    exact ⟨content, rfl, heq ▸ hextends, fun hne => heq.trans (hsegment hne)⟩

theorem attach_is_exact_or_refused_for_a_reason
    (h : Reachable codec sessionId (fun _ _ => True) sys) (hrunning : sys.running)
    (hmoments : ∀ visit path, AtWork codec sessionId sys (moments visit path))
    (hview : ∀ visit path, Sees codec (moments visit path).disk.journal.files path (view visit path))
    (after : Nat) (digest : String) (state : RelayOperationalState)
    : (∀ state' events through throughDigest,
        (replayPlan sys.world.relay).attach codec view after digest state
          = .ok (.ok (.attached state' events through throughDigest)) →
        ReplaysExactly codec sys.world.history (replayPlan sys.world.relay).latestOrdinal after events
          through) ∧
      (∀ error, (replayPlan sys.world.relay).attach codec view after digest state
          = .ok (.error error) →
        NotKept sys.world.relay after ∨ ¬ OnRecord sys.world after digest ∨
          (∃ visit path, sys.world.invalidations < (moments visit path).invalidations) ∨
          ∃ visit, ∃ span ∈ (replayPlan sys.world.relay).spans, after ≤ span.fileLastOrdinal ∧
            Corrupted (moments visit span.path).disk.journal.files span.path
              (view visit span.path)) ∧
      ∀ visit path, (moments visit path).relay.journalGeneration % 2 ^ 64
        = ((replayPlan sys.world.relay).generation
            + ((moments visit path).invalidations - sys.world.invalidations)) % 2 ^ 64 := by
  obtain ⟨origin, hguarded, hsane⟩ := h.sane
  have hlive := hsane.live hrunning
  have hr : Recorded codec origin sys.world.history := hlive.valid.recorded
  have hlater : ∀ visit path, Later codec origin sessionId sys.world (moments visit path) :=
    fun visit path => (hmoments visit path).later hsane hguarded
  have hsound := Later.viewSound hlive hlater hview
  have hplan := hlive.planSound
  have hretained := hlive.origin_le_retainedThrough
  refine ⟨?_, ?_, fun visit path => (hlater visit path).shifts.generation⟩
  . intro state' events through throughDigest hattach
    obtain ⟨_, hcursor, hexact⟩ := attach_exact hr hsound hplan hretained hattach
    have hbounds := hcursor.bounds hr
    have hevents : events = between sys.world.history after through := hexact.events
    have hafter : after ≤ through := hexact.after_le
    have hthrough := hexact.through.bounds hr
    dsimp only at hthrough
    refine ⟨hevents, ?_, ?_, hexact.through_le, ?_⟩
    . rw [hevents]
      exact numbered_slice hr.numbered hbounds.1
    . have hlength : (between sys.world.history after through).length = through - after :=
        hr.numbered.length_slice hbounds.1 hthrough.2
      rw [hevents, hlength]
      omega
    . cases hexact.complete with
      | inl heq => exact Or.inl heq
      | inr hfull =>
        obtain ⟨event, hmem, hordinal, _, hbudget⟩ := hfull
        exact Or.inr ⟨event, hmem, hordinal, hbudget⟩
  . intro error hattach
    by_contra hnone
    simp only [NotKept, not_or, not_exists, not_and, not_not, Nat.not_lt] at hnone
    obtain ⟨⟨hafter, hkept⟩, hrecord, hstill, hintact⟩ := hnone
    obtain ⟨start, hchain⟩ := hlive.spans.chain
    have hsame : ∀ visit path, (moments visit path).invalidations = sys.world.invalidations := by
      intro visit path
      have hle := (hlater visit path).shifts.le
      have hge := hstill visit path
      omega
    exact attach_ne_desynchronized hr hsound (hlive.planComplete hkept)
      (Later.viewComplete hlater hview hsame hintact (fun _ hspan => (hchain.rep hspan).journalPath))
      hafter hplan (hrecord.onChain hlive) state error hattach

theorem attach_is_exact_or_refused_for_a_reason_of_notice
    : (plainSystem [openNow, perform (.submit "notice-1" (.recordNotice "text"))]).running = true ∧
      ∀ state state' events through throughDigest,
        (replayPlan (plainSystem
            [openNow, perform (.submit "notice-1" (.recordNotice "text"))]).world.relay).attach
          plainCodec
          (.of (plainWorld [openNow, perform (.submit "notice-1" (.recordNotice "text"))]
            (.submit "notice-2" (.recordNotice "text"))).disk.journal.files)
          0 RELAY_EVENT_GENESIS_DIGEST state
          = .ok (.ok (.attached state' events through throughDigest)) →
        through = 0 + events.length := by
  have hrunning : (plainSystem
      [openNow, perform (.submit "notice-1" (.recordNotice "text"))]).running = true := by
    decide +kernel
  refine ⟨hrunning, ?_⟩
  intro state state' events through throughDigest hattach
  have hreachable : Reachable plainCodec "session-1" (fun _ _ => True)
      (plainSystem [openNow, perform (.submit "notice-1" (.recordNotice "text"))]) :=
    reachable_plainSystem (fun _ _ _ => trivial)
  have hmoments : ∀ (_ : ReplayVisit) (_ : JournalFile), AtWork plainCodec "session-1"
      (plainSystem [openNow, perform (.submit "notice-1" (.recordNotice "text"))])
      (plainWorld [openNow, perform (.submit "notice-1" (.recordNotice "text"))]
        (.submit "notice-2" (.recordNotice "text"))) :=
    fun _ _ => ⟨plainSystem [openNow, perform (.submit "notice-1" (.recordNotice "text"))],
      .submit "notice-2" (.recordNotice "text"), calm, .refl, hrunning, rfl⟩
  have hexact := (attach_is_exact_or_refused_for_a_reason hreachable hrunning hmoments
    (sees_of _) 0 RELAY_EVENT_GENESIS_DIGEST state).1
  exact (hexact state' events through throughDigest hattach).through_eq

-- An event that the relay recorded, but whose successors it does not keep.
theorem collected_cursor_is_desynchronized
    : Reachable plainCodec "session-1" (fun _ _ => True) (plainSystem (floorRun.take 7)) ∧
      (plainSystem (floorRun.take 7)).running = true ∧
      (1, plainDigest 1) ∈ (plainSystem (floorRun.take 7)).world.history.map
        (fun event => (event.ordinal, event.digest)) ∧
      ∀ state, (replayPlan (plainSystem (floorRun.take 7)).world.relay).attach plainCodec
          (.of (plainSystem (floorRun.take 7)).world.disk.journal.files) 1 (plainDigest 1) state
        = .ok (.error
            { code := .desynchronized
              message := "event 1 is no longer available; relay retained events after 4"
              retryable := false
              detail := some
                { requestedAfter := 1
                  requestedDigest := plainDigest 1
                  earliestAvailable := 4
                  earliestDigest := plainDigest 4
                  latest := 7
                  latestDigest := plainDigest 7 } }) := by
  refine ⟨reachable_plainSystem (fun _ _ _ => trivial), ?_, ?_, ?_⟩
  . decide +kernel
  . decide +kernel
  intro state
  have hretained : (replayPlan (plainSystem (floorRun.take 7)).world.relay).retainedThrough = 4 := by
    decide +kernel
  have hplan : (replayPlan (plainSystem (floorRun.take 7)).world.relay).desynchronizedDetail 1
      (plainDigest 1)
      = { requestedAfter := 1
          requestedDigest := plainDigest 1
          earliestAvailable := 4
          earliestDigest := plainDigest 4
          latest := 7
          latestDigest := plainDigest 7 } := by
    decide +kernel
  have hmessage : "event " ++ toString 1 ++ " is no longer available; relay retained events after "
      ++ toString 4 = "event 1 is no longer available; relay retained events after 4" := by
    decide +kernel
  unfold attach validateCursor
  rw [hplan, hretained, if_pos (by decide), hmessage]

end Attach

end Hel
