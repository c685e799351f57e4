import Hel.Worker.Lemmas.World

/-!
This module contains what a replay plan knows about the chain of events.
-/

namespace Hel

open RelayReplayPlan

variable {codec : RelayCodec} {origin : Origin} {history : List RelayEvent} {plan : RelayReplayPlan}
  {view : JournalView} {ordinal : Nat} {digest : String} {spans : List RelayJournalSpan}
  {state state' : PageState} {span : RelayJournalSpan} {index : Nat}

section Visit

variable {σ : Type} {path : JournalFile} {mode : JournalReadMode} {visitor : JournalVisitor σ}
  {torn : Nat}

def VisitFlow.Keeps (P Q : σ → Prop) : VisitFlow σ → Prop
  | .continue state => P state
  | .break state => Q state

theorem visitRelayJournalLines_induction {P Q : σ → Prop} {lines : List JournalLine}
    {state state' : σ}
    (h : visitRelayJournalLines codec path mode visitor torn lines state = .ok state')
    (hstate : P state) (hend : ∀ state, P state → Q state)
    (hvisit : ∀ state event flow, P state → .record event ∈ lines →
      visitor state event (codec.eventLen event) = .ok flow → flow.Keeps P Q) : Q state' := by
  induction lines generalizing state with
  | nil =>
    unfold visitRelayJournalLines at h
    split at h
    . cases h
    rw [Except.ok.injEq] at h
    exact h ▸ hend state hstate
  | cons line rest ih =>
    have hrest : ∀ state event flow, P state → .record event ∈ rest →
        visitor state event (codec.eventLen event) = .ok flow → flow.Keeps P Q :=
      fun state event flow hp hmem => hvisit state event flow hp (List.mem_cons_of_mem _ hmem)
    unfold visitRelayJournalLines at h
    split at h
    . cases h
    split at h
    . split at h
      . exact ih h hstate hrest
      . cases h
    rename_i event _
    split at h
    . exact ih h hstate hrest
    split at h
    . cases h
    next flow hflow =>
      cases h
      exact hvisit state event _ hstate (by simp) hflow
    next flow hflow =>
      exact ih h (hvisit state event _ hstate (by simp) hflow) hrest

theorem visitSighting_induction {P Q : σ → Prop} {sighting : Sighting} {state state' : σ}
    (h : visitSighting codec path mode visitor sighting state = .ok state') (hstate : P state)
    (hend : ∀ state, P state → Q state)
    (hvisit : ∀ content state event flow, sighting = .present content → P state →
      .record event ∈ content.lines →
      visitor state event (codec.eventLen event) = .ok flow → flow.Keeps P Q) : Q state' := by
  unfold visitSighting at h
  split at h
  . cases h
    exact hend state hstate
  . cases h
  next content =>
    exact visitRelayJournalLines_induction h hstate hend
      (fun state event flow => hvisit content state event flow rfl)

end Visit

section Plan

-- Whatever record of the spans' files checks out by itself was written by the relay, and it is a
-- true event of the plan unless it is newer.
def ViewSound (codec : RelayCodec) (history : List RelayEvent) (plan : RelayReplayPlan)
    (view : JournalView) : Prop :=
  ∀ visit content event, ∀ span ∈ plan.spans, view visit span.path = .present content →
    .record event ∈ content.lines → validateRelayEventSelf codec event = .ok () →
    Genuine codec event ∧ (event.ordinal ≤ plan.latestOrdinal → event ∈ history)

structure PlanSound (origin : Origin) (history : List RelayEvent) (plan : RelayReplayPlan) :
    Prop where
  latest : OnChain origin history plan.latestOrdinal plan.latestDigest
  acknowledged : OnChain origin history plan.acknowledgedThrough plan.acknowledgedDigest
  floor : OnChain origin history plan.recoveryFloorOrdinal plan.recoveryFloorDigest
  hot : ∀ cursor ∈ plan.hotDigests, OnChain origin history cursor.1 cursor.2
  previous : ∀ span ∈ plan.spans, ∀ digest, span.fileFirstPreviousDigest = some digest → digest = ""

def RelayReplayPlan.Knows (plan : RelayReplayPlan) (ordinal : Nat) : Prop :=
  ordinal = 0 ∨ ordinal = plan.latestOrdinal ∨ ordinal = plan.acknowledgedThrough ∨
    ordinal = plan.recoveryFloorOrdinal ∨ ordinal ∈ plan.hotDigests.map (·.1)

theorem digestAt_of_knows (codec : RelayCodec) (view : JournalView)
    (hp : PlanSound origin history plan) (horigin : origin.ordinal ≤ ordinal)
    (hknows : plan.Knows ordinal)
    : ∃ digest, plan.digestAt codec view ordinal = .ok (some digest) ∧
        OnChain origin history ordinal digest := by
  unfold digestAt
  split
  next hzero =>
    have hzero' : origin.ordinal = 0 := by omega
    exact ⟨_, rfl, Or.inl ⟨by omega, (origin.genesis.mp hzero').symm⟩⟩
  next hzero =>
  split
  next heq => exact ⟨_, rfl, heq ▸ hp.latest⟩
  next hlatest =>
  split
  next heq => exact ⟨_, rfl, heq ▸ hp.acknowledged⟩
  next hacknowledged =>
  split
  next heq => exact ⟨_, rfl, heq ▸ hp.floor⟩
  next hfloor =>
  split
  next hot hfind =>
    have hordinal := List.find?_some hfind
    simp only [decide_eq_true_eq] at hordinal
    exact ⟨_, rfl, hordinal ▸ hp.hot hot (List.mem_of_find?_eq_some hfind)⟩
  rename_i hnone
  simp only [RelayReplayPlan.Knows, hzero, hlatest, hacknowledged, hfloor, false_or,
    List.mem_map] at hknows
  obtain ⟨hot, hmem, hordinal⟩ := hknows
  exact absurd hordinal (by simpa using List.find?_eq_none.mp hnone hot hmem)

theorem digestAt_iff_of_not_knows (hknows : ¬ plan.Knows ordinal)
    : plan.digestAt codec view ordinal = .ok (some digest)
        ↔ plan.boundaryDigest codec view ordinal = .ok (some digest) ∨
          plan.boundaryDigest codec view ordinal = .ok none ∧
            plan.anchorDigest codec view ordinal = .ok (some digest) := by
  unfold RelayReplayPlan.Knows at hknows
  simp only [not_or, List.mem_map, not_exists, not_and] at hknows
  obtain ⟨hzero, hlatest, hacknowledged, hfloor, hcold⟩ := hknows
  unfold digestAt
  rw [if_neg hzero, if_neg hlatest, if_neg hacknowledged, if_neg hfloor]
  have hnone : plan.hotDigests.find? (·.1 = ordinal) = none := by
    simpa [List.find?_eq_none] using hcold
  rw [hnone]
  dsimp only
  split
  next hboundary => simp [hboundary]
  next hboundary => simp [hboundary]
  next hboundary => simp [hboundary]

section

variable (hv : ViewSound codec history plan view) (hp : PlanSound origin history plan)

include hv

theorem anchorDigest_sound (hle : ordinal ≤ plan.latestOrdinal)
    (h : plan.anchorDigest codec view ordinal = .ok (some digest))
    : ∃ event ∈ history, event.ordinal = ordinal ∧ event.digest = digest := by
  unfold anchorDigest at h
  split at h
  . cases h
  rename_i span hfind
  have hspan := List.mem_of_find?_eq_some hfind
  split at h
  . cases h
  rename_i scan hscan
  rw [Except.ok.injEq] at h
  have hinv : ∀ digest, scan.digest = some digest →
      ∃ event ∈ history, event.ordinal = ordinal ∧ event.digest = digest := by
    refine visitSighting_induction
      (P := fun scan : AnchorScan => scan.digest = none)
      (Q := fun scan : AnchorScan => ∀ digest, scan.digest = some digest →
        ∃ event ∈ history, event.ordinal = ordinal ∧ event.digest = digest) hscan rfl ?_ ?_
    . intro state hnone digest hsome
      rw [hnone] at hsome
      cases hsome
    intro content state event flow hpresent hstate hmem hvisit
    unfold anchorVisitor at hvisit
    split at hvisit
    . cases hvisit
    rename_i hself
    have hevent := (hv _ _ _ span hspan hpresent hmem hself).2
    split at hvisit
    . cases hvisit
    split at hvisit
    next hordinal =>
      cases hvisit
      intro digest hsome
      simp only [Option.some.injEq] at hsome
      exact ⟨event, hevent (by omega), hordinal, hsome⟩
    next =>
      cases hvisit
      exact hstate
  exact hinv digest h

include hp

theorem boundaryDigest_unchained (h : plan.boundaryDigest codec view ordinal = .ok (some digest))
    : digest = "" := by
  unfold boundaryDigest at h
  split at h
  . cases h
  rename_i span hfind
  have hspan := List.mem_of_find?_eq_some hfind
  split at h
  next cached hcached =>
    rw [Except.ok.injEq, Option.some.injEq] at h
    rw [← h]
    exact hp.previous span hspan cached hcached
  have hnone : (some digest : Option String) = none := by
    refine visitSighting_induction (P := fun state => state = none)
      (Q := fun state => state = none) h rfl (fun _ hnone => hnone) ?_
    intro content state event flow hpresent _ hmem hvisit
    unfold boundaryVisitor at hvisit
    split at hvisit
    . cases hvisit
    rename_i hself
    have hgenuine := (hv _ _ _ span hspan hpresent hmem hself).1
    have hformat : ¬ (event.format = RELAY_EVENT_FORMAT_V1 ∧ event.previousDigest ≠ "") := by
      rw [hgenuine.format]
      simp [RELAY_EVENT_FORMAT_V1, RELAY_EVENT_FORMAT_V2]
    simp only [hformat, ↓reduceIte, Except.ok.injEq] at hvisit
    rw [← hvisit]
    rfl
  cases hnone

theorem digestAt_sound (horigin : origin.ordinal ≤ ordinal) (hle : ordinal ≤ plan.latestOrdinal)
    (h : plan.digestAt codec view ordinal = .ok (some digest)) (hdigest : isRelayDigest digest)
    : OnChain origin history ordinal digest := by
  by_cases hknows : plan.Knows ordinal
  . obtain ⟨known, heq, hchain⟩ := digestAt_of_knows codec view hp horigin hknows
    rw [heq, Except.ok.injEq, Option.some.injEq] at h
    exact h ▸ hchain
  rcases (digestAt_iff_of_not_knows hknows).mp h with hboundary | ⟨_, hanchor⟩
  . rw [boundaryDigest_unchained hv hp hboundary] at hdigest
    cases hdigest
  . exact Or.inr (anchorDigest_sound hv hle hanchor)

theorem validateCursor_sound (horigin : origin.ordinal ≤ plan.retainedThrough)
    (h : plan.validateCursor codec view ordinal digest = .ok ())
    : plan.retainedThrough ≤ ordinal ∧ ordinal ≤ plan.latestOrdinal ∧
        OnChain origin history ordinal digest := by
  unfold validateCursor at h
  split at h
  . cases h
  rename_i hretained
  split at h
  . cases h
  rename_i hlatest
  split at h
  . cases h
  rename_i hvalid
  split at h
  . cases h
  . cases h
  rename_i expected hexpected
  split at h
  . cases h
  rename_i heq
  simp only [ne_eq, Decidable.not_not] at heq
  have hdigest : isRelayDigest digest := by
    unfold validateRelayDigest at hvalid
    split at hvalid
    . assumption
    . cases hvalid
  refine ⟨by omega, by omega, ?_⟩
  rw [← heq] at hexpected
  exact digestAt_sound hv hp (by omega) (by omega) hexpected hdigest

end

end Plan

section Page

variable {after budget : Nat}

def bytesOf (codec : RelayCodec) (events : List RelayEvent) : Nat :=
  (events.map codec.eventLen).sum

structure PageSound (codec : RelayCodec) (origin : Origin) (history : List RelayEvent)
    (plan : RelayReplayPlan) (after budget : Nat) (state : PageState) : Prop where
  events : state.events = between history after state.throughOrdinal
  through : OnChain origin history state.throughOrdinal state.throughDigest
  after_le : after ≤ state.throughOrdinal
  through_le : state.throughOrdinal ≤ plan.latestOrdinal
  used : state.used = bytesOf codec state.events
  full : state.pageFull → ∃ event ∈ history, event.ordinal = state.throughOrdinal + 1 ∧
    state.events ≠ [] ∧ budget < bytesOf codec state.events + codec.eventLen event

theorem readSpans_induction {P : PageState → Prop}
    (h : plan.readSpans codec view budget index spans state = .ok state') (hstate : P state)
    (hvisit : ∀ visit state next, ∀ span ∈ spans, P state → state.pageFull = false →
      visitSighting codec span.path .strict (plan.pageVisitor codec span budget)
        (view visit span.path) state = .ok next → P next) : P state' := by
  induction spans generalizing index state with
  | nil =>
    unfold readSpans at h
    cases h
    exact hstate
  | cons span rest ih =>
    have hrest := fun visit state next span hmem =>
      hvisit visit state next span (List.mem_cons_of_mem _ hmem)
    unfold readSpans at h
    split at h
    . exact ih h hstate hrest
    rename_i hopen
    rw [not_or] at hopen
    split at h
    . split at h <;> cases h
    rename_i next hnext
    have hp := hvisit _ state next span (by simp) hstate (by simpa using hopen.1) hnext
    split at h
    . cases h
    exact ih h hp hrest

structure PageExact (codec : RelayCodec) (origin : Origin) (history : List RelayEvent)
    (plan : RelayReplayPlan) (after budget : Nat) (page : RelayEventPage) : Prop where
  events : page.events = between history after page.throughOrdinal
  through : OnChain origin history page.throughOrdinal page.throughDigest
  after_le : after ≤ page.throughOrdinal
  through_le : page.throughOrdinal ≤ plan.latestOrdinal
  complete : page.throughOrdinal = plan.latestOrdinal ∨
    ∃ event ∈ history, event.ordinal = page.throughOrdinal + 1 ∧ page.events ≠ [] ∧
      budget < bytesOf codec page.events + codec.eventLen event

theorem pageSound_start (hcursor : OnChain origin history after digest)
    (hle : after ≤ plan.latestOrdinal)
    : PageSound codec origin history plan after budget
        { events := [], used := 0, throughOrdinal := after, throughDigest := digest,
          pageFull := false } := by
  constructor
  . exact (slice_of_le (Nat.le_refl _)).symm
  . exact hcursor
  . exact Nat.le_refl _
  . exact hle
  . rfl
  . nofun

section

variable (hr : Recorded codec origin history) (hv : ViewSound codec history plan view)

include hr

theorem PageSound.visit {state : PageState} {event : RelayEvent} {flow : VisitFlow PageState}
    (h : PageSound codec origin history plan after budget state) (hopen : state.pageFull = false)
    (htrue : validateRelayEventSelf codec event = .ok () →
      event.ordinal ≤ plan.latestOrdinal → event ∈ history)
    (hvisit : plan.pageVisitor codec span budget state event (codec.eventLen event) = .ok flow)
    : flow.Keeps
        (fun state => PageSound codec origin history plan after budget state ∧
          state.pageFull = false)
        (PageSound codec origin history plan after budget) := by
  unfold pageVisitor at hvisit
  split at hvisit
  . cases hvisit
    exact ⟨h, hopen⟩
  split at hvisit
  . cases hvisit
    exact h
  rename_i hlatest
  split at hvisit
  . cases hvisit
  rename_i hordinal
  simp only [ne_eq, Decidable.not_not] at hordinal
  split at hvisit
  . cases hvisit
  split at hvisit
  . cases hvisit
  rename_i hvalid
  have hevent := htrue (validateRelayEvent_eq_ok hvalid).2.2 (by omega)
  have hafter := h.after_le
  split at hvisit
  next hfull =>
    cases hvisit
    refine { h with full := ?_ }
    intro _
    simp only [Bool.not_eq_true', List.isEmpty_eq_false_iff] at hfull
    rw [h.used] at hfull
    exact ⟨event, hevent, hordinal, hfull.1, hfull.2⟩
  cases hvisit
  refine ⟨?_, hopen⟩
  constructor
  . show state.events ++ [event] = between history after event.ordinal
    rw [h.events, hordinal]
    exact (slice_snoc hr.numbered hevent hordinal hafter).symm
  . exact Or.inr ⟨event, hevent, rfl, rfl⟩
  . show after ≤ event.ordinal
    omega
  . show event.ordinal ≤ plan.latestOrdinal
    omega
  . show state.used + codec.eventLen event = bytesOf codec (state.events ++ [event])
    simp [bytesOf, h.used]
  . intro hfull
    have hfull' : state.pageFull = true := hfull
    rw [hopen] at hfull'
    cases hfull'

include hv

theorem PageSound.visitSpan {visit : ReplayVisit} (hspan : span ∈ plan.spans)
    {state next : PageState} (hstate : PageSound codec origin history plan after budget state)
    (hopen : state.pageFull = false)
    (hnext : visitSighting codec span.path .strict (plan.pageVisitor codec span budget)
      (view visit span.path) state = .ok next)
    : PageSound codec origin history plan after budget next := by
  refine visitSighting_induction
    (P := fun state => PageSound codec origin history plan after budget state ∧
      state.pageFull = false)
    hnext ⟨hstate, hopen⟩ (fun _ hp => hp.1) ?_
  intro content state event flow hpresent hp hmem hvisit
  exact hp.1.visit hr hp.2 (fun hself => (hv _ _ _ span hspan hpresent hmem hself).2) hvisit

theorem readSpans_sound
    (h : plan.readSpans codec view budget index plan.spans state = .ok state')
    (hstate : PageSound codec origin history plan after budget state)
    : PageSound codec origin history plan after budget state' := by
  apply readSpans_induction h hstate
  intro visit state next span hspan hsound hopen hnext
  exact hsound.visitSpan hr hv hspan hopen hnext

theorem readEventsAfter_exact {page : RelayEventPage}
    (hcursor : OnChain origin history after digest) (hle : after ≤ plan.latestOrdinal)
    (h : plan.readEventsAfter codec view after digest budget = .ok page)
    : PageExact codec origin history plan after budget page := by
  unfold readEventsAfter at h
  dsimp only at h
  split at h
  . cases h
  rename_i state hstate
  have hsound :=
    readSpans_sound hr hv hstate (pageSound_start hcursor hle)
  split at h
  . cases h
  rename_i hcomplete
  cases h
  refine ⟨hsound.events, hsound.through, hsound.after_le, hsound.through_le, ?_⟩
  cases hfull : state.pageFull with
  | true => exact Or.inr (hsound.full hfull)
  | false =>
  left
  rw [hfull] at hcomplete
  by_contra hne
  exact hcomplete ⟨rfl, Or.inl hne⟩

theorem attach_exact (hp : PlanSound origin history plan)
    (horigin : origin.ordinal ≤ plan.retainedThrough) {digest throughDigest : String}
    {state state' : RelayOperationalState} {events : List RelayEvent} {through : Nat}
    (h : plan.attach codec view after digest state
      = .ok (.ok (.attached state' events through throughDigest)))
    : state' = state ∧ OnChain origin history after digest ∧
        PageExact codec origin history plan after RELAY_REPLAY_BYTE_BUDGET
          { events := events, throughOrdinal := through, throughDigest := throughDigest } := by
  unfold attach at h
  split at h
  . simp at h
  rename_i hcursor
  obtain ⟨_, hle, hchain⟩ := validateCursor_sound hv hp horigin hcursor
  split at h
  . simp at h
  . cases h
  rename_i page hpage
  split at h
  . cases h
  simp only [Except.ok.injEq, RelayResponsePayload.attached.injEq] at h
  obtain ⟨hstate, hevents, hthrough, hdigest⟩ := h
  refine ⟨hstate.symm, hchain, ?_⟩
  rw [← hevents, ← hthrough, ← hdigest]
  exact readEventsAfter_exact hr hv hchain hle hpage

end

end Page

section Live

variable {sessionId : String} {w : World}

theorem SpanChain.previous {history : List RelayEvent} {files : JournalFiles} {after through : Nat}
    (h : SpanChain origin history files after through spans)
    : ∀ span ∈ spans, ∀ digest, span.fileFirstPreviousDigest = some digest → digest = "" :=
  fun _ hmem => (h.rep hmem).previous

theorem Live.planSound (h : Live codec origin sessionId w)
    : PlanSound origin w.history (replayPlan w.relay) := by
  obtain ⟨base, hdurable, _⟩ := h.durable
  have hf : Frontiers origin w.history w.held := hdurable.valid.frontiers
  obtain ⟨after, hchain⟩ := h.spans.chain
  constructor
  . show OnChain origin w.history w.relay.snapshot.latestOrdinal w.relay.snapshot.latestDigest
    rw [h.snapshot]
    exact hf.latest
  . show OnChain origin w.history w.relay.snapshot.acknowledgedThrough
      w.relay.snapshot.acknowledgedDigest
    rw [h.snapshot]
    exact hf.acknowledged
  . show OnChain origin w.history w.relay.snapshot.recoveryFloorOrdinal
      w.relay.snapshot.recoveryFloorDigest
    rw [h.snapshot]
    exact hf.floor
  . intro cursor hmem
    have hmem' : cursor ∈ w.relay.hotEvents.map (fun event => (event.ordinal, event.digest))
      ++ w.relay.replayCursors := hmem
    rw [List.mem_append, List.mem_map] at hmem'
    rcases hmem' with ⟨event, hevent, rfl⟩ | hcursor
    . exact Or.inr ⟨event, h.hot event hevent, rfl, rfl⟩
    . exact h.cursors cursor hcursor
  . exact hchain.previous

theorem Live.viewSound (h : Live codec origin sessionId w)
    : ViewSound codec w.history (replayPlan w.relay) (.of w.disk.journal.files) := by
  intro visit content event span hspan hview hmem _
  obtain ⟨after, hchain⟩ := h.spans.chain
  obtain ⟨content', hget, hlines, _⟩ := (hchain.rep hspan).content
  simp only [JournalView.of, hget, Sighting.of, Sighting.present.injEq] at hview
  rw [← hview, hlines, List.mem_map] at hmem
  obtain ⟨event', hmem, heq⟩ := hmem
  rw [JournalLine.record.injEq] at heq
  have hevent : event ∈ w.history := heq ▸ (mem_slice.mp hmem).1
  obtain ⟨base, hdurable, _⟩ := h.durable
  exact ⟨hdurable.valid.recorded.genuine event hevent, fun _ => hevent⟩

end Live

end Hel
