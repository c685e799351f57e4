import Hel.Worker.Lemmas.Chronicle

/-!
This module contains how the files of the journal represent the history of a relay and what the
readers of the journal find in such files.
-/

namespace Hel

open List

variable {events : List RelayEvent} {content : JournalContent} {span : RelayJournalSpan}
  {mode : JournalReadMode} {path : JournalFile}

section Visit

variable {σ : Type} (codec : RelayCodec) (visitor : JournalVisitor σ)

def foldVisitor : List RelayEvent → σ → Except String σ
  | [], state => .ok state
  | event :: rest, state =>
    match visitor state event (codec.eventLen event) with
    | .error e => .error e
    | .ok (.break state) => .ok state
    | .ok (.continue state) => foldVisitor rest state

variable {codec} {visitor}

theorem foldVisitor_cons_of_continue {event : RelayEvent} {rest : List RelayEvent} {state state' : σ}
    (h : visitor state event (codec.eventLen event) = .ok (.continue state'))
    : foldVisitor codec visitor (event :: rest) state = foldVisitor codec visitor rest state' := by
  rw [foldVisitor, h]

variable (visitor)

theorem visitRelayJournalLines_records {torn : Nat}
    (hgenuine : ∀ event ∈ events, Genuine codec event) (htorn : torn ≤ RELAY_EVENT_BYTE_BUDGET)
    (state : σ)
    : visitRelayJournalLines codec path mode visitor torn (events.map .record) state
        = foldVisitor codec visitor events state := by
  induction events generalizing state with
  | nil =>
    simp only [map_nil, visitRelayJournalLines, foldVisitor]
    have : ¬ torn > RELAY_EVENT_BYTE_BUDGET := by omega
    simp only [this, ↓reduceIte]
  | cons event rest ih =>
    have hevent := hgenuine event (by simp)
    have hrest : ∀ event ∈ rest, Genuine codec event := by
      intro event' hmem
      exact hgenuine event' (mem_cons_of_mem _ hmem)
    simp only [map_cons]
    unfold visitRelayJournalLines foldVisitor
    have hlen : ¬ JournalLine.len codec (.record event) > RELAY_EVENT_BYTE_BUDGET := by
      have := hevent.len_le
      simp only [JournalLine.len]
      omega
    have hself : ¬ (mode = .recover ∧ (validateRelayEventSelf codec event).toBool = false) := by
      rw [hevent.validateSelf]
      simp [Except.toBool]
    simp only [hlen, hself, ↓reduceIte]
    cases hvisit : visitor state event (codec.eventLen event) with
    | error e => rfl
    | ok flow =>
    cases flow with
    | «break» state => rfl
    | «continue» state => exact ih hrest state

theorem visitRelayJournalFile_records {files : JournalFiles} (hget : files.get? path = some content)
    (hlines : content.lines = events.map .record) (htorn : content.torn ≤ RELAY_EVENT_BYTE_BUDGET)
    (hgenuine : ∀ event ∈ events, Genuine codec event) (state : σ)
    : visitRelayJournalFile codec path mode visitor files state
        = foldVisitor codec visitor events state := by
  unfold visitRelayJournalFile
  rw [hget]
  unfold visitSighting Sighting.of
  dsimp only
  rw [hlines]
  exact visitRelayJournalLines_records visitor hgenuine htorn state

theorem foldVisitor_copyVisitor (events acc : List RelayEvent)
    : foldVisitor codec copyVisitor events acc = .ok (acc ++ events) := by
  induction events generalizing acc with
  | nil => simp [foldVisitor]
  | cons event rest ih =>
    unfold foldVisitor copyVisitor
    dsimp only
    rw [show (fun (events : List RelayEvent) (event : RelayEvent) (_ : Nat) =>
      (Except.ok (VisitFlow.continue (events ++ [event])) : Except String _)) = copyVisitor from rfl]
    rw [ih, append_assoc]
    rfl

end Visit

abbrev between (history : List RelayEvent) (a b : Nat) : List RelayEvent :=
  slice RelayEvent.ordinal history a b

section Represents

variable (origin : Origin) (history : List RelayEvent)

def frontierOf : Nat := origin.ordinal + history.length

structure SegmentRep (first last : Nat) (content : JournalContent) : Prop where
  origin_lt : origin.ordinal < first
  first_le : first ≤ last
  last_le : last ≤ frontierOf origin history
  content_eq : content = .ofEvents (between history (first - 1) last)

-- The active file holds the events after `after` and possibly a part of one more record.
structure ActiveRep (after : Nat) (content : JournalContent) : Prop where
  origin_le : origin.ordinal ≤ after
  after_le : after ≤ frontierOf origin history
  lines_eq : content.lines = (between history after (frontierOf origin history)).map .record
  torn_le : content.torn ≤ RELAY_EVENT_BYTE_BUDGET

def SegmentCovers (files : JournalFiles) (ordinal : Nat) : Prop :=
  ∃ first last, (files.get? (.segment first last)).isSome ∧ first ≤ ordinal ∧ ordinal ≤ last

def ActiveCovers (files : JournalFiles) (ordinal : Nat) : Prop :=
  ∃ content event, files.get? .active = some content ∧ .record event ∈ content.lines ∧
    event.ordinal = ordinal

-- The files hold nothing but slices of the history and all of it after `floor`.
structure JournalRep (floor : Nat) (files : JournalFiles) : Prop where
  segments : ∀ first last content, files.get? (.segment first last) = some content →
    SegmentRep origin history first last content
  active : ∀ content, files.get? .active = some content →
    ∃ after, ActiveRep origin history after content
  covers : ∀ ordinal, floor < ordinal → ordinal ≤ frontierOf origin history →
    SegmentCovers files ordinal ∨ ActiveCovers files ordinal

variable {origin history} {floor floor' : Nat} {files files' : JournalFiles}

theorem JournalRep.congr (h : JournalRep origin history floor files)
    (hactive : files'.get? .active = files.get? .active)
    (hsegment : ∀ first last, files'.get? (.segment first last) = files.get? (.segment first last))
    : JournalRep origin history floor files' := by
  constructor
  . intro first last content
    rw [hsegment]
    exact h.segments first last content
  . rw [hactive]
    exact h.active
  . unfold SegmentCovers ActiveCovers
    simp only [hsegment, hactive]
    exact h.covers

theorem JournalRep.addSegment (h : JournalRep origin history floor files) {first last : Nat}
    (hrep : SegmentRep origin history first last content)
    (hactive : files'.get? .active = files.get? .active)
    (hsegment : ∀ first' last', files'.get? (.segment first' last')
      = if first' = first ∧ last' = last then some content
        else files.get? (.segment first' last')) : JournalRep origin history floor files' := by
  constructor
  . intro first' last' content' hget
    rw [hsegment] at hget
    split at hget
    next heq =>
      rw [Option.some.injEq] at hget
      rw [heq.1, heq.2, ← hget]
      exact hrep
    next => exact h.segments first' last' content' hget
  . rw [hactive]
    exact h.active
  intro ordinal hlt hle
  cases h.covers ordinal hlt hle with
  | inl hseg =>
    obtain ⟨first', last', hsome, hbounds⟩ := hseg
    refine Or.inl ⟨first', last', ?_, hbounds⟩
    rw [hsegment]
    split
    . rfl
    . exact hsome
  | inr hact =>
    unfold ActiveCovers at hact ⊢
    rw [hactive]
    exact Or.inr hact

theorem ActiveRep.covers {after ordinal : Nat} (h : ActiveRep origin history after content)
    (hactive : files.get? .active = some content)
    (hrecorded : Numbered RelayEvent.ordinal origin.ordinal history) (hafter : after < ordinal)
    (hle : ordinal ≤ frontierOf origin history) : ActiveCovers files ordinal := by
  have horigin := h.origin_le
  obtain ⟨event, hmem, hordinal⟩ := hrecorded.exists (a := ordinal) (by omega) hle
  refine ⟨content, event, hactive, ?_, hordinal⟩
  rw [h.lines_eq, mem_map]
  refine ⟨event, ?_, rfl⟩
  rw [mem_slice]
  exact ⟨hmem, by omega, by omega⟩

theorem JournalRep.replaceActive (h : JournalRep origin history floor files) {after : Nat}
    (hrep : ActiveRep origin history after content) (hactive : files'.get? .active = some content)
    (hsegment : ∀ first last content', files'.get? (.segment first last) = some content' →
      files.get? (.segment first last) = some content')
    (hcovers : ∀ ordinal, floor < ordinal → ordinal ≤ frontierOf origin history →
      SegmentCovers files' ordinal ∨ after < ordinal)
    (hrecorded : Numbered RelayEvent.ordinal origin.ordinal history)
    : JournalRep origin history floor files' := by
  constructor
  . intro first last content' hget
    exact h.segments first last content' (hsegment first last content' hget)
  . intro content' hget
    rw [hactive, Option.some.injEq] at hget
    exact ⟨after, hget ▸ hrep⟩
  . intro ordinal hlt hle
    apply (hcovers ordinal hlt hle).imp_right
    intro hafter
    exact hrep.covers hactive hrecorded hafter hle

end Represents

section Spans

variable (origin : Origin) (history : List RelayEvent) (files : JournalFiles)

structure SpanRep (span : RelayJournalSpan) : Prop where
  origin_lt : origin.ordinal < span.fileFirstOrdinal
  first_le : span.fileFirstOrdinal ≤ span.fileLastOrdinal
  last_le : span.fileLastOrdinal ≤ frontierOf origin history
  path : span.path = .active ∧ span.fileLastOrdinal = frontierOf origin history ∨
    span.path = .segment span.fileFirstOrdinal span.fileLastOrdinal
  content : ∃ content, files.get? span.path = some content ∧
    content.lines
      = (between history (span.fileFirstOrdinal - 1) span.fileLastOrdinal).map .record ∧
    content.torn ≤ RELAY_EVENT_BYTE_BUDGET
  previous : ∀ digest, span.fileFirstPreviousDigest = some digest → digest = ""

-- The spans own the ordinals after `after` up to `through`, each a part of them.
def SpanChain (after through : Nat) : List RelayJournalSpan → Prop
  | [] => after = through
  | span :: rest =>
    SpanRep origin history files span ∧ span.afterOrdinal = after ∧
      after ≤ span.fileLastOrdinal ∧ span.fileFirstOrdinal ≤ after + 1 ∧
      SpanChain span.fileLastOrdinal through rest

variable {origin history files} {codec : RelayCodec} {after through middle : Nat}
  {spans spans' : List RelayJournalSpan}

theorem SpanChain.le (h : SpanChain origin history files after through spans) : after ≤ through := by
  induction spans generalizing after with
  | nil => exact Nat.le_of_eq h
  | cons span rest ih => exact Nat.le_trans h.2.2.1 (ih h.2.2.2.2)

theorem spanChain_append
    : SpanChain origin history files after through (spans ++ spans')
        ↔ ∃ middle, SpanChain origin history files after middle spans ∧
            SpanChain origin history files middle through spans' := by
  induction spans generalizing after with
  | nil =>
    simp only [nil_append, SpanChain]
    constructor
    . intro h
      exact ⟨after, rfl, h⟩
    . intro ⟨middle, heq, h⟩
      exact heq ▸ h
  | cons span rest ih =>
    simp only [cons_append, SpanChain, ih]
    constructor
    . intro ⟨h1, h2, h3, h4, middle, h5, h6⟩
      exact ⟨middle, ⟨h1, h2, h3, h4, h5⟩, h6⟩
    . intro ⟨middle, ⟨h1, h2, h3, h4, h5⟩, h6⟩
      exact ⟨h1, h2, h3, h4, middle, h5, h6⟩

theorem SpanChain.owns (h : SpanChain origin history files after through spans) (hmem : span ∈ spans)
    : SpanRep origin history files span ∧ after ≤ span.afterOrdinal ∧
        span.afterOrdinal ≤ span.fileLastOrdinal ∧
        span.fileFirstOrdinal ≤ span.afterOrdinal + 1 := by
  induction spans generalizing after with
  | nil => cases hmem
  | cons head rest ih =>
    obtain ⟨hrep, rfl, hle, hfirst, hrest⟩ := h
    rcases mem_cons.mp hmem with rfl | hin
    . exact ⟨hrep, Nat.le_refl _, hle, hfirst⟩
    . obtain ⟨hrep', hle', howned⟩ := ih hrest hin
      exact ⟨hrep', Nat.le_trans hle hle', howned⟩

theorem SpanChain.rep (h : SpanChain origin history files after through spans) (hmem : span ∈ spans)
    : SpanRep origin history files span :=
  (h.owns hmem).1

theorem SpanChain.congr {files' : JournalFiles}
    (h : SpanChain origin history files after through spans)
    (hcontent : ∀ span ∈ spans, ∃ content, files'.get? span.path = some content ∧ content.lines
        = (between history (span.fileFirstOrdinal - 1) span.fileLastOrdinal).map .record ∧
      content.torn ≤ RELAY_EVENT_BYTE_BUDGET)
    : SpanChain origin history files' after through spans := by
  induction spans generalizing after with
  | nil => exact h
  | cons span rest ih =>
    obtain ⟨hrep, hafter, hle, hfirst, hrest⟩ := h
    refine ⟨{ hrep with content := hcontent span (by simp) }, hafter, hle, hfirst, ?_⟩
    apply ih hrest
    intro other hmem
    exact hcontent other (mem_cons_of_mem _ hmem)

theorem genuine_between (hr : Recorded codec origin history) {a b : Nat}
    : ∀ event ∈ between history a b, Genuine codec event := by
  intro event hmem
  exact hr.genuine event (mem_slice.mp hmem).1

theorem SpanRep.visit {σ : Type} (h : SpanRep origin history files span)
    (hr : Recorded codec origin history) (mode : JournalReadMode) (visitor : JournalVisitor σ)
    (state : σ)
    : visitRelayJournalFile codec span.path mode visitor files state
        = foldVisitor codec visitor
            (between history (span.fileFirstOrdinal - 1) span.fileLastOrdinal) state := by
  obtain ⟨content, hget, hlines, htorn⟩ := h.content
  exact visitRelayJournalFile_records visitor hget hlines htorn (genuine_between hr) state

theorem foldVisitor_rewriteVisitor {retainAfter n : Nat} (acc : List RelayEvent) {written : Nat}
    (hn : Numbered RelayEvent.ordinal n events) (hretain : retainAfter ≤ written)
    (hafter : span.afterOrdinal ≤ written) (hle : n ≤ written)
    : foldVisitor codec (rewriteVisitor retainAfter span) events
          { events := acc, writtenThrough := written }
        = .ok
            { events := acc ++ slice RelayEvent.ordinal events written (n + events.length)
              writtenThrough := max written (n + events.length) } := by
  induction events generalizing n acc written with
  | nil =>
    have : max written n = written := by omega
    simp [foldVisitor, slice, this]
  | cons event rest ih =>
    obtain ⟨hordinal, hrest⟩ := hn
    have hlen : n + (event :: rest).length = n + 1 + rest.length := by
      simp only [length_cons]
      omega
    rw [hlen]
    unfold foldVisitor rewriteVisitor
    dsimp only
    by_cases hskip : event.ordinal ≤ written
    . have hor : event.ordinal ≤ span.afterOrdinal ∨ event.ordinal ≤ written := Or.inr hskip
      simp only [hor, ↓reduceIte]
      have := ih acc hrest hretain hafter (by omega)
      unfold rewriteVisitor at this
      rw [this, slice_cons_of_le hskip]
    have hnor : ¬ (event.ordinal ≤ span.afterOrdinal ∨ event.ordinal ≤ written) := by omega
    have hnot : ¬ event.ordinal ≤ retainAfter := by omega
    have heq : ¬ event.ordinal ≠ written + 1 := by omega
    simp only [hnor, hnot, heq, ↓reduceIte]
    have := ih (acc ++ [event]) hrest (Nat.le_of_not_le hnot) (by omega)
      (Nat.le_of_eq hordinal.symm)
    unfold rewriteVisitor at this
    rw [this, slice_cons_of_mem (by omega) (by omega), append_assoc]
    have hmax : max event.ordinal (n + 1 + rest.length) = max written (n + 1 + rest.length) := by
      omega
    rw [hmax]
    have hslice : slice RelayEvent.ordinal rest event.ordinal (n + 1 + rest.length)
        = slice RelayEvent.ordinal rest written (n + 1 + rest.length) := by
      symm
      apply slice_congr_left (by omega)
      intro event' hmem
      have := (hrest.bounds hmem).1
      omega
    rw [hslice]
    rfl

theorem slice_slice {l : List RelayEvent} {a b c d : Nat} (hb : b ≤ d)
    : slice RelayEvent.ordinal (slice RelayEvent.ordinal l a b) c d
        = slice RelayEvent.ordinal l (max a c) b := by
  unfold slice
  rw [filter_filter]
  apply filter_congr
  intro event _
  rw [Bool.eq_iff_iff]
  simp only [Bool.and_eq_true, decide_eq_true_eq]
  omega

theorem rewriteSpans_eq_ok (hr : Recorded codec origin history) (retainAfter : Nat)
    (h : SpanChain origin history files after through spans)
    : rewriteSpans codec files retainAfter spans
          { events := between history retainAfter (max retainAfter after)
            writtenThrough := max retainAfter after }
        = .ok
            { events := between history retainAfter (max retainAfter through)
              writtenThrough := max retainAfter through } := by
  induction spans generalizing after with
  | nil =>
    have heq : after = through := h
    rw [heq]
    rfl
  | cons span rest ih =>
    obtain ⟨hrep, hafter, hle, hfirst, hrest⟩ := h
    have horigin := hrep.origin_lt
    have hfl := hrep.first_le
    have hll := hrep.last_le
    unfold rewriteSpans
    rw [hrep.visit hr]
    have hnumbered : Numbered RelayEvent.ordinal (span.fileFirstOrdinal - 1)
        (between history (span.fileFirstOrdinal - 1) span.fileLastOrdinal) :=
      numbered_slice hr.numbered (by omega)
    have hlength : (between history (span.fileFirstOrdinal - 1) span.fileLastOrdinal).length
        = span.fileLastOrdinal - (span.fileFirstOrdinal - 1) :=
      hr.numbered.length_slice (by omega) (by unfold frontierOf at hll; omega)
    rw [foldVisitor_rewriteVisitor _ hnumbered (by omega) (by omega) (by omega)]
    dsimp only
    have hend : span.fileFirstOrdinal - 1
        + (between history (span.fileFirstOrdinal - 1) span.fileLastOrdinal).length
        = span.fileLastOrdinal := by omega
    rw [hend, slice_slice (Nat.le_refl _)]
    have hwritten : max (max retainAfter after) span.fileLastOrdinal
        = max retainAfter span.fileLastOrdinal := by omega
    rw [hwritten, ← ih hrest]
    congr 2
    by_cases hpast : span.fileLastOrdinal ≤ retainAfter
    . have h1 : max retainAfter after = retainAfter := by omega
      have h2 : max retainAfter span.fileLastOrdinal = retainAfter := by omega
      rw [h1, h2]
      have h3 : slice RelayEvent.ordinal history (max (span.fileFirstOrdinal - 1) retainAfter)
          span.fileLastOrdinal = [] := slice_of_le (by omega)
      rw [h3, append_nil]
    . have h2 : max retainAfter span.fileLastOrdinal = span.fileLastOrdinal := by omega
      have h3 : max (span.fileFirstOrdinal - 1) (max retainAfter after) = max retainAfter after := by
        omega
      rw [h2, h3]
      exact slice_append_slice hr.numbered (by omega) (by omega)

end Spans

end Hel
