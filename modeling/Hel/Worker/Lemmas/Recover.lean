import Hel.Worker.Lemmas.Append

/-!
This module contains the proof that the files of the journal lead back to the snapshot that a relay
held.
-/

namespace Hel

open List

variable {codec : RelayCodec} {origin : Origin} {history : List RelayEvent} {files : JournalFiles}
  {latest : Nat} {s s' : RelaySnapshot} {event : RelayEvent} {path : JournalFile}
  {events : List RelayEvent} {content : JournalContent} {span : RelayJournalSpan}
  {name : JournalFile} {spans : List RelayJournalSpan} {state : TailRecovery} {fuel previous : Nat}
  {n : Nat} {boundary : Nat} {capacity : Nat} {after : Nat}

section Inspect

theorem validateRelayEvent_of_genuine {digest : String} (hdigest : isRelayDigest digest)
    (hg : Genuine codec event) (hordinal : event.ordinal = n + 1) (hmax : event.ordinal ≤ U64_MAX)
    : validateRelayEvent codec n digest event = .ok () := by
  unfold validateRelayEvent validateRelayDigest
  have hlt : ¬ n ≥ U64_MAX := by omega
  have hformat : ¬ (event.format = RELAY_EVENT_FORMAT_V1 ∧ event.previousDigest ≠ digest) := by
    rw [hg.format]
    simp [RELAY_EVENT_FORMAT_V1, RELAY_EVENT_FORMAT_V2]
  simp only [hdigest, hlt, hordinal, ne_eq, not_true_eq_false, hformat, ↓reduceIte]
  exact hg.validateSelf

def Consecutive (codec : RelayCodec) (n : Nat) (events : List RelayEvent) : Prop :=
  Numbered RelayEvent.ordinal n events ∧
    ∀ event ∈ events, Genuine codec event ∧ event.ordinal ≤ U64_MAX

theorem Recorded.consecutive (hr : Recorded codec origin history) {a b : Nat}
    (ha : origin.ordinal ≤ a) : Consecutive codec a (between history a b) := by
  refine ⟨numbered_slice hr.numbered ha, ?_⟩
  intro event hmem
  have hhistory := (mem_slice.mp hmem).1
  exact ⟨hr.genuine event hhistory, hr.bounded event hhistory⟩

theorem Consecutive.tail {rest : List RelayEvent} (h : Consecutive codec n (event :: rest))
    : Consecutive codec event.ordinal rest := by
  refine ⟨?_, fun event' hmem => h.2 event' (mem_cons_of_mem _ hmem)⟩
  rw [h.1.1]
  exact h.1.2

theorem ensureByteBudget_eventLen (hg : Genuine codec event)
    : ensureByteBudget (codec.eventLen event) RELAY_EVENT_BYTE_BUDGET "relay event" = .ok () := by
  unfold ensureByteBudget
  simp only [Nat.not_lt.mpr hg.len_le, ↓reduceIte]

theorem foldVisitor_inspectVisitor {first : Option RelayEvent} {previous : RelayEvent}
    (hprevious : isRelayDigest previous.digest) (h : Consecutive codec previous.ordinal events)
    : ∃ last, foldVisitor codec (inspectVisitor codec path) events
          { first := first, previous := some previous }
        = .ok { first := first, previous := some last } ∧
          last.ordinal = previous.ordinal + events.length := by
  induction events generalizing previous with
  | nil => exact ⟨previous, rfl, rfl⟩
  | cons event rest ih =>
    obtain ⟨hg, hmax⟩ := h.2 event (by simp)
    have hvisit : inspectVisitor codec path { first := first, previous := some previous } event
        (codec.eventLen event)
        = .ok (.continue { first := first, previous := some event }) := by
      unfold inspectVisitor validateSuccessor
      simp only [ensureByteBudget_eventLen hg, validateRelayEvent_of_genuine hprevious hg h.1.1 hmax,
        Option.isSome_some, ↓reduceIte]
    rw [foldVisitor_cons_of_continue hvisit]
    obtain ⟨last, hlast, hordinal⟩ := ih hg.isRelayDigest h.tail
    refine ⟨last, hlast, ?_⟩
    rw [hordinal, h.1.1, length_cons]
    omega

structure ActiveSpan (origin : Origin) (history : List RelayEvent) (after : Nat)
    (span : RelayJournalSpan) : Prop where
  path : span.path = .active
  first : span.fileFirstOrdinal = after + 1
  last : span.fileLastOrdinal = frontierOf origin history
  previous : span.fileFirstPreviousDigest = none

theorem inspectRelayJournalFile_active (hr : Recorded codec origin history)
    (hget : files.get? .active = some content) (hrep : ActiveRep origin history after content)
    : after = frontierOf origin history ∧
          inspectRelayJournalFile codec files .active = .ok none ∨
        after < frontierOf origin history ∧ ∃ span, ActiveSpan origin history after span ∧
          inspectRelayJournalFile codec files .active = .ok (some span) := by
  have hall := hr.consecutive (b := frontierOf origin history) hrep.origin_le
  have hlength := hr.numbered.length_slice (b := frontierOf origin history) hrep.origin_le
    (Nat.le_refl _)
  unfold inspectRelayJournalFile
  rw [visitRelayJournalFile_records _ hget hrep.lines_eq hrep.torn_le (fun e he => (hall.2 e he).1)]
  cases hevents : between history after (frontierOf origin history) with
  | nil =>
    left
    unfold between at hevents
    rw [hevents] at hlength
    simp only [length_nil] at hlength
    have hle := hrep.after_le
    exact ⟨by omega, rfl⟩
  | cons event rest =>
  right
  rw [hevents] at hall
  unfold between at hevents
  rw [hevents, length_cons] at hlength
  have hle := hrep.after_le
  obtain ⟨hg, hmax⟩ := hall.2 event (by simp)
  obtain ⟨last, hlast, hordinal⟩ :=
    foldVisitor_inspectVisitor hg.isRelayDigest hall.tail
  have hvisit : inspectVisitor codec .active { first := none, previous := none } event
      (codec.eventLen event)
      = .ok (.continue { first := some event, previous := some event }) := by
    unfold inspectVisitor validateSuccessor
    simp only [ensureByteBudget_eventLen hg, hg.validateSelf, Option.isSome_none,
      Bool.false_eq_true, ↓reduceIte]
  rw [foldVisitor_cons_of_continue hvisit, hlast]
  refine ⟨by omega, _, ⟨rfl, hall.1.1, ?_, ?_⟩, rfl⟩
  . show last.ordinal = _
    rw [hordinal, hall.1.1]
    omega
  . simp [hg.previousDigest]

theorem inspectRelayJournalFile_absent (hget : files.get? .active = none)
    : inspectRelayJournalFile codec files .active = .ok none := by
  unfold inspectRelayJournalFile visitRelayJournalFile visitSighting Sighting.of
  rw [hget]

def Kept (files : JournalFiles) (ordinal : Nat) : Prop :=
  SegmentCovers files ordinal ∨ ActiveCovers files ordinal

structure FileSpan (origin : Origin) (history : List RelayEvent) (files : JournalFiles)
    (span : RelayJournalSpan) : Prop extends SpanRep origin history files span where
  uncached : span.fileFirstPreviousDigest = none

theorem SegmentRep.fileSpan {first last : Nat} (h : SegmentRep origin history first last content)
    (hget : files.get? (.segment first last) = some content)
    : ∃ span, sealedRelayJournalMetadata first last = .ok span ∧
        FileSpan origin history files span ∧ span.fileFirstOrdinal = first ∧
        span.fileLastOrdinal = last := by
  unfold sealedRelayJournalMetadata
  have hfirst := h.first_le
  have horigin := h.origin_lt
  have hvalid : ¬ (first = 0 ∨ first > last) := by omega
  simp only [hvalid, ↓reduceIte]
  refine ⟨_, rfl, ⟨?_, rfl⟩, rfl, rfl⟩
  constructor
  . exact h.origin_lt
  . exact h.first_le
  . exact h.last_le
  . exact Or.inr rfl
  . refine ⟨content, hget, ?_, ?_⟩
    . rw [h.content_eq]
      rfl
    . rw [h.content_eq]
      exact Nat.zero_le _
  . nofun

theorem ActiveRep.fileSpan (h : ActiveRep origin history after content)
    (hget : files.get? .active = some content) (hlt : after < frontierOf origin history)
    (hspan : ActiveSpan origin history after span) : FileSpan origin history files span := by
  have horigin := h.origin_le
  refine ⟨?_, hspan.previous⟩
  constructor
  . rw [hspan.first]
    omega
  . rw [hspan.first, hspan.last]
    omega
  . rw [hspan.last]
  . exact Or.inl ⟨hspan.path, hspan.last⟩
  . refine ⟨content, ?_, ?_, h.torn_le⟩
    . rw [hspan.path]
      exact hget
    . rw [hspan.first, hspan.last]
      exact h.lines_eq
  . intro digest hsome
    rw [hspan.previous] at hsome
    cases hsome

end Inspect

section FileSpans

variable {floor : Nat}

def Spanned (files : JournalFiles) (name : JournalFile) (spans : List RelayJournalSpan) : Prop :=
  match name with
  | .segment first last => ∃ span ∈ spans, span.fileFirstOrdinal = first ∧ span.fileLastOrdinal = last
  | .active => ∀ content, files.get? .active = some content → content.lines ≠ [] →
      ∃ span ∈ spans, span.path = .active ∧
        ∀ event, .record event ∈ content.lines →
          span.fileFirstOrdinal ≤ event.ordinal ∧ event.ordinal ≤ span.fileLastOrdinal
  | _ => True

theorem Spanned.mono {spans spans' : List RelayJournalSpan} (h : Spanned files name spans)
    (hsub : ∀ span ∈ spans, span ∈ spans') : Spanned files name spans' := by
  cases name with
  | segment first last =>
    obtain ⟨span, hmem, hbounds⟩ := h
    exact ⟨span, hsub span hmem, hbounds⟩
  | active =>
    intro content hget hlines
    obtain ⟨span, hmem, hspan⟩ := h content hget hlines
    exact ⟨span, hsub span hmem, hspan⟩
  | _ => trivial

structure FileSpans (origin : Origin) (history : List RelayEvent) (files : JournalFiles)
    (spans : List RelayJournalSpan) : Prop where
  rep : ∀ span ∈ spans, FileSpan origin history files span
  kept : ∀ ordinal, Kept files ordinal →
    ∃ span ∈ spans, span.fileFirstOrdinal ≤ ordinal ∧ ordinal ≤ span.fileLastOrdinal
  active : ∀ content, files.get? .active = some content → content.lines ≠ [] →
    ∃ span ∈ spans, span.path = .active

variable (hr : Recorded codec origin history) (hrep : JournalRep origin history floor files)

include hr

theorem SpanRep.kept (h : SpanRep origin history files span) {ordinal : Nat}
    (hfirst : span.fileFirstOrdinal ≤ ordinal) (hlast : ordinal ≤ span.fileLastOrdinal)
    : Kept files ordinal := by
  obtain ⟨content, hget, hlines, _⟩ := h.content
  rcases h.path with ⟨hpath, _⟩ | hpath
  . right
    have horigin := h.origin_lt
    have hle := h.last_le
    unfold frontierOf at hle
    obtain ⟨event, hmem, hordinal⟩ := hr.numbered.exists (a := ordinal) (by omega) (by omega)
    rw [hpath] at hget
    refine ⟨content, event, hget, ?_, hordinal⟩
    rw [hlines, mem_map]
    exact ⟨event, mem_slice.mpr ⟨hmem, by omega, by omega⟩, rfl⟩
  . left
    refine ⟨span.fileFirstOrdinal, span.fileLastOrdinal, ?_, hfirst, hlast⟩
    rw [← hpath, hget]
    rfl

include hrep

theorem journalFileSpans_cons (hname : (files.get? name).isSome)
    {rest : List JournalFile} (hspans : journalFileSpans codec files rest = .ok spans)
    : ∃ own, journalFileSpans codec files (name :: rest) = .ok (own ++ spans) ∧
        (∀ span ∈ own, FileSpan origin history files span) ∧ Spanned files name own := by
  rw [Option.isSome_iff_exists] at hname
  obtain ⟨content, hget⟩ := hname
  cases name with
  | active =>
    obtain ⟨after, hactive⟩ := hrep.active content hget
    unfold journalFileSpans
    rcases inspectRelayJournalFile_active hr hget hactive with
      ⟨hempty, hinspect⟩ | ⟨hlt, span, hspan, hinspect⟩
    . rw [hinspect, hspans]
      refine ⟨[], rfl, by simp, ?_⟩
      intro content' hget' hlines
      cases hget.symm.trans hget'
      rw [hactive.lines_eq, hempty] at hlines
      refine absurd ?_ hlines
      rw [map_eq_nil_iff]
      exact slice_of_le (by omega)
    rw [hinspect, hspans]
    refine ⟨[span], rfl, ?_, ?_⟩
    . rw [forall_mem_singleton]
      exact hactive.fileSpan hget hlt hspan
    intro content' hget' _
    rw [hget, Option.some.injEq] at hget'
    refine ⟨span, by simp, hspan.path, ?_⟩
    intro event hmem
    rw [← hget', hactive.lines_eq, mem_map] at hmem
    obtain ⟨event', hmem, heq⟩ := hmem
    rw [JournalLine.record.injEq] at heq
    rw [heq] at hmem
    have hbounds := (mem_slice.mp hmem).2
    rw [hspan.first, hspan.last]
    omega
  | segment first last =>
    obtain ⟨span, hspan, hrepSpan, hbounds⟩ := (hrep.segments first last content hget).fileSpan hget
    unfold journalFileSpans
    rw [hspan, hspans]
    refine ⟨[span], rfl, ?_, span, by simp, hbounds⟩
    rw [forall_mem_singleton]
    exact hrepSpan
  | activeNew | segmentNew first last | staleActive first last =>
    exact ⟨[], hspans, by simp, trivial⟩

theorem journalFileSpans_eq_ok {names : List JournalFile}
    (hnames : ∀ name ∈ names, (files.get? name).isSome)
    : ∃ spans, journalFileSpans codec files names = .ok spans ∧
        (∀ span ∈ spans, FileSpan origin history files span) ∧
        ∀ name ∈ names, Spanned files name spans := by
  induction names with
  | nil => exact ⟨[], rfl, by simp, by simp⟩
  | cons name rest ih =>
    obtain ⟨spans, hspans, hspanRep, hspanned⟩ :=
      ih (fun name hmem => hnames name (mem_cons_of_mem _ hmem))
    obtain ⟨own, hown, hownRep, hownSpanned⟩ :=
      journalFileSpans_cons hr hrep (hnames name (by simp)) hspans
    refine ⟨own ++ spans, hown, ?_, ?_⟩
    . rw [forall_mem_append]
      exact ⟨hownRep, hspanRep⟩
    rw [forall_mem_cons]
    refine ⟨hownSpanned.mono (fun span hmem => mem_append_left _ hmem), ?_⟩
    intro other hmem
    exact (hspanned other hmem).mono (fun span hmem => mem_append_right _ hmem)

theorem fileSpans_of_rep
    : ∃ spans, journalFileSpans codec files files.keys = .ok spans ∧
        FileSpans origin history files spans := by
  obtain ⟨spans, hspans, hspanRep, hspanned⟩ :=
    journalFileSpans_eq_ok hr hrep (fun name hmem => BTreeMap.mem_keys_iff.mp hmem)
  have hactive : ∀ content, files.get? .active = some content → Spanned files .active spans := by
    intro content hget
    apply hspanned
    rw [BTreeMap.mem_keys_iff, BTreeMap.contains, hget]
    rfl
  refine ⟨spans, hspans, hspanRep, ?_, ?_⟩
  . rintro ordinal (⟨first, last, hsome, hfirst, hlast⟩ | ⟨content, event, hget, hmem, hordinal⟩)
    . obtain ⟨span, hspan, heq, heq'⟩ := hspanned (.segment first last) (BTreeMap.mem_keys_iff.mpr hsome)
      exact ⟨span, hspan, by omega, by omega⟩
    obtain ⟨span, hspan, _, hbounds⟩ := hactive content hget content hget (ne_nil_of_mem hmem)
    have := hbounds event hmem
    exact ⟨span, hspan, by omega, by omega⟩
  . intro content hget hlines
    obtain ⟨span, hspan, hpath, _⟩ := hactive content hget content hget hlines
    exact ⟨span, hspan, hpath⟩

end FileSpans

section Assemble

variable {fileSpans : List RelayJournalSpan}

theorem furthestSpan_eq_none (h : furthestSpan spans = none) : spans = [] := by
  cases spans with
  | nil => rfl
  | cons span rest =>
  unfold furthestSpan at h
  split at h
  . cases h
  split at h <;> cases h

theorem furthestSpan_mem {best : RelayJournalSpan} (h : furthestSpan spans = some best)
    : best ∈ spans := by
  induction spans generalizing best with
  | nil => cases h
  | cons head rest ih =>
    unfold furthestSpan at h
    split at h
    . rw [Option.some.injEq] at h
      simp [h]
    rename_i other hother
    split at h
    . rw [Option.some.injEq] at h
      simp [h]
    . rw [Option.some.injEq] at h
      exact mem_cons_of_mem _ (h ▸ ih hother)

structure Assembled (origin : Origin) (history : List RelayEvent) (files : JournalFiles)
    (previous latest : Nat) (spans : List RelayJournalSpan) : Prop where
  chain : SpanChain origin history files previous latest spans
  wide : ∀ span ∈ spans, span.afterOrdinal < span.fileLastOrdinal
  uncached : ∀ span ∈ spans, span.fileFirstPreviousDigest = none

theorem SpanRep.setAfter (h : SpanRep origin history files span) (after : Nat)
    : SpanRep origin history files { span with afterOrdinal := after } :=
  { h with }

theorem assembleSpans_eq_ok (hrep : ∀ span ∈ fileSpans, FileSpan origin history files span)
    (hmax : ∀ span ∈ fileSpans, span.fileLastOrdinal ≤ latest)
    (hkept : ∀ ordinal, previous < ordinal → ordinal ≤ latest →
      ∃ span ∈ fileSpans, span.fileFirstOrdinal ≤ ordinal ∧ ordinal ≤ span.fileLastOrdinal)
    (hfuel : latest - previous ≤ fuel) (hle : previous ≤ latest)
    : ∃ spans, assembleSpans fileSpans latest fuel previous = .ok spans ∧
        Assembled origin history files previous latest spans := by
  induction fuel generalizing previous with
  | zero => exact ⟨[], rfl, ⟨show previous = latest by omega, by simp, by simp⟩⟩
  | succ fuel ih =>
    unfold assembleSpans
    split
    next hlt =>
      dsimp only
      cases hfurthest : furthestSpan (fileSpans.filter (fun file =>
          file.fileFirstOrdinal ≤ previous + 1 && file.fileLastOrdinal > previous)) with
      | none =>
        exfalso
        obtain ⟨span, hmem, hfirst, hlast⟩ := hkept (previous + 1) (by omega) (by omega)
        have hnil := furthestSpan_eq_none hfurthest
        rw [filter_eq_nil_iff] at hnil
        have := hnil span hmem
        simp only [Bool.and_eq_true, decide_eq_true_eq, not_and] at this
        exact this hfirst (by omega)
      | some best =>
        have hbest := furthestSpan_mem hfurthest
        rw [mem_filter] at hbest
        simp only [Bool.and_eq_true, decide_eq_true_eq] at hbest
        obtain ⟨hmem, hfirst, hforward⟩ := hbest
        have hbound := hmax best hmem
        obtain ⟨spans, hspans, hassembled⟩ := ih
          (fun ordinal hlow hhigh => hkept ordinal (by omega) hhigh) (by omega) hbound
        simp only [hspans]
        refine ⟨_, rfl, ⟨⟨(hrep best hmem).toSpanRep.setAfter previous, rfl, ?_, hfirst,
          hassembled.chain⟩, ?_, ?_⟩⟩
        . exact Nat.le_of_lt hforward
        . rw [forall_mem_cons]
          exact ⟨hforward, hassembled.wide⟩
        . rw [forall_mem_cons]
          exact ⟨(hrep best hmem).uncached, hassembled.uncached⟩
    next hge => exact ⟨[], rfl, ⟨show previous = latest by omega, by simp, by simp⟩⟩

theorem kept_of_assembleSpans (h : assembleSpans fileSpans latest fuel previous = .ok spans)
    (hfuel : latest - previous ≤ fuel)
    : ∀ ordinal, previous < ordinal → ordinal ≤ latest →
        ∃ span ∈ fileSpans, span.fileFirstOrdinal ≤ ordinal ∧ ordinal ≤ span.fileLastOrdinal := by
  induction fuel generalizing previous spans with
  | zero =>
    intro ordinal hlow hhigh
    omega
  | succ fuel ih =>
    intro ordinal hlow hhigh
    unfold assembleSpans at h
    split at h
    next hlt =>
      dsimp only at h
      split at h
      . cases h
      rename_i best hfurthest
      have hbest := furthestSpan_mem hfurthest
      rw [mem_filter] at hbest
      simp only [Bool.and_eq_true, decide_eq_true_eq] at hbest
      obtain ⟨hmem, hfirst, hforward⟩ := hbest
      split at h
      . cases h
      rename_i spans' hspans'
      by_cases hin : ordinal ≤ best.fileLastOrdinal
      . exact ⟨best, hmem, by omega, hin⟩
      . exact ih hspans' (by omega) ordinal (by omega) hhigh
    next => omega

theorem Assembled.lt_of_mem_dropLast {previous : Nat}
    (h : Assembled origin history files previous latest spans) (hmem : span ∈ spans.dropLast)
    : span.fileLastOrdinal < latest := by
  induction spans generalizing previous with
  | nil => cases hmem
  | cons head rest ih =>
    have hrest : Assembled origin history files head.fileLastOrdinal latest rest :=
      ⟨h.chain.2.2.2.2, fun span hmem => h.wide span (mem_cons_of_mem _ hmem),
        fun span hmem => h.uncached span (mem_cons_of_mem _ hmem)⟩
    cases rest with
    | nil => cases hmem
    | cons next rest =>
    rw [dropLast_cons_cons, mem_cons] at hmem
    cases hmem with
    | inl heq =>
      have hwide := hrest.wide next (by simp)
      have hafter := hrest.chain.2.1
      have hle := hrest.chain.2.2.2.2.le
      rw [heq]
      omega
    | inr hmem => exact ih hrest hmem

end Assemble

section Replay

theorem replayEvents_append {events events' : List RelayEvent}
    (h : replayEvents codec s (events ++ events') = .ok s')
    : ∃ middle, replayEvents codec s events = .ok middle ∧
        replayEvents codec middle events' = .ok s' := by
  induction events generalizing s with
  | nil => exact ⟨s, rfl, h⟩
  | cons event rest ih =>
    obtain ⟨next, happly, hrest⟩ := replayEvents_cons h
    obtain ⟨middle, hmiddle, h'⟩ := ih hrest
    refine ⟨middle, ?_, h'⟩
    rw [replayEvents, happly]
    exact hmiddle

theorem latest_of_replayEvents (h : replayEvents codec s events = .ok s')
    : events = [] ∧ s' = s ∨ ∃ last, events.getLast? = some last ∧
        s'.latestOrdinal = last.ordinal ∧ s'.latestDigest = last.digest := by
  induction events generalizing s with
  | nil =>
    simp only [replayEvents, Except.ok.injEq] at h
    exact Or.inl ⟨rfl, h.symm⟩
  | cons event rest ih =>
    right
    obtain ⟨next, happly, hrest⟩ := replayEvents_cons h
    rcases ih hrest with ⟨hnil, heq⟩ | ⟨last, hlast, hlatest⟩
    . obtain ⟨hordinal, hlatest, hdigest⟩ := ordinal_of_applyRelayEvent happly
      rw [hnil, heq]
      exact ⟨event, rfl, by omega, hdigest⟩
    refine ⟨last, ?_, hlatest⟩
    rw [getLast?_cons, hlast]
    rfl

theorem foldVisitor_tailVisitor_skip
    {events rest : List RelayEvent} (hle : ∀ event ∈ events, event.ordinal ≤ boundary)
    (hdigest : ∀ event ∈ events, event.ordinal = boundary →
      event.digest = state.snapshot.latestDigest)
    : foldVisitor codec (tailVisitor codec path boundary) (events ++ rest) state
        = foldVisitor codec (tailVisitor codec path boundary) rest
            { state with
              boundaryVerified :=
                state.boundaryVerified || events.any (·.ordinal = boundary) } := by
  induction events generalizing state with
  | nil => simp
  | cons event tail ih =>
    have htail : ∀ event ∈ tail, event.ordinal ≤ boundary :=
      fun event hmem => hle event (mem_cons_of_mem _ hmem)
    have hbound := hle event (by simp)
    rw [cons_append]
    by_cases hlt : event.ordinal < boundary
    . have hvisit : tailVisitor codec path boundary state event (codec.eventLen event)
          = .ok (.continue state) := by
        unfold tailVisitor
        simp only [hlt, ↓reduceIte]
      rw [foldVisitor_cons_of_continue hvisit]
      rw [ih htail (fun event hmem => hdigest event (mem_cons_of_mem _ hmem))]
      have hne : decide (event.ordinal = boundary) = false := by
        rw [decide_eq_false_iff_not]
        omega
      rw [any_cons, hne, Bool.false_or]
    have heq : event.ordinal = boundary := by omega
    have hsame := hdigest event (by simp) heq
    have hvisit : tailVisitor codec path boundary state event (codec.eventLen event)
        = .ok (.continue { state with boundaryVerified := true }) := by
      unfold tailVisitor
      simp only [heq, lt_self_iff_false, hsame, ne_eq, not_true_eq_false, ↓reduceIte]
    rw [foldVisitor_cons_of_continue hvisit]
    rw [@ih { state with boundaryVerified := true } htail
      (fun event hmem => hdigest event (mem_cons_of_mem _ hmem))]
    simp [heq]

theorem foldVisitor_tailVisitor_apply {next : RelaySnapshot}
    (hgt : ∀ event ∈ events, boundary < event.ordinal) (hverified : state.boundaryVerified = true)
    (hreplay : replayEvents codec state.snapshot events = .ok next)
    : foldVisitor codec (tailVisitor codec path boundary) events state
        = .ok
            { snapshot := next
              hotEvents := events.foldl (pushBounded RELAY_HOT_EVENT_CAPACITY) state.hotEvents
              boundaryVerified := true } := by
  induction events generalizing state with
  | nil =>
    simp only [replayEvents, Except.ok.injEq] at hreplay
    subst hreplay
    rw [← hverified]
    rfl
  | cons event rest ih =>
    have hlow := hgt event (by simp)
    obtain ⟨middle, happly, hrest⟩ := replayEvents_cons hreplay
    obtain ⟨hvalid, _⟩ := applyRelayEvent_eq_ok happly
    have hvisit : tailVisitor codec path boundary state event (codec.eventLen event)
        = .ok (.continue
            { state with
              snapshot := middle
              hotEvents := pushBounded RELAY_HOT_EVENT_CAPACITY state.hotEvents event }) := by
      unfold tailVisitor
      have h1 : ¬ event.ordinal < boundary := by omega
      have h2 : ¬ event.ordinal = boundary := by omega
      simp only [h1, h2, hverified, Bool.not_true, Bool.false_eq_true, hvalid, happly, ↓reduceIte]
    rw [foldVisitor_cons_of_continue hvisit]
    exact ih (fun event hmem => hgt event (mem_cons_of_mem _ hmem)) hverified hrest

end Replay

section Tail

variable {hot : List RelayEvent}

theorem mem_foldl_pushBounded (h : event ∈ events.foldl (pushBounded capacity) hot)
    : event ∈ hot ∨ event ∈ events := by
  induction events generalizing hot with
  | nil => exact Or.inl h
  | cons head rest ih =>
    rcases ih h with hmem | hmem
    . rcases mem_pushBounded hmem with hmem | heq
      . exact Or.inl hmem
      . exact Or.inr (by simp [heq])
    . exact Or.inr (mem_cons_of_mem _ hmem)

theorem getLast?_foldl_pushBounded (h : events ≠ [])
    : (events.foldl (pushBounded capacity) hot).getLast? = events.getLast? := by
  induction events generalizing hot with
  | nil => exact absurd rfl h
  | cons head rest ih =>
    cases rest with
    | nil => simp [pushBounded]
    | cons next rest =>
      rw [foldl_cons, ih (by simp), getLast?_cons_cons]

structure Tail (history : List RelayEvent) (latest through : Nat) (hot hot' : List RelayEvent) :
    Prop where
  true_events : ∀ event ∈ hot', event ∈ hot ∨ event ∈ history
  same : latest = through → hot' = hot
  last : latest < through → ∃ event, hot'.getLast? = some event ∧ event.ordinal = through

variable (hr : Recorded codec origin history)
  (hchain : OnChain origin history s.latestOrdinal s.latestDigest)

include hr hchain

theorem SpanRep.visit_tailVisitor (h : SpanRep origin history files span) (hot : List RelayEvent)
    (hfirst : span.fileFirstOrdinal ≤ s.latestOrdinal + 1)
    (hlast : s.latestOrdinal ≤ span.fileLastOrdinal) (hreplay : replayEvents codec s
      (between history s.latestOrdinal span.fileLastOrdinal) = .ok s')
    : visitRelayJournalFile codec span.path .strict
          (tailVisitor codec span.path s.latestOrdinal) files
          { snapshot := s
            hotEvents := hot
            boundaryVerified := span.fileFirstOrdinal = s.latestOrdinal + 1 }
        = .ok
            { snapshot := s'
              hotEvents := (between history s.latestOrdinal span.fileLastOrdinal).foldl
                (pushBounded RELAY_HOT_EVENT_CAPACITY) hot
              boundaryVerified := true } := by
  have horigin := h.origin_lt
  have hfrontier := h.last_le
  unfold frontierOf at hfrontier
  rw [h.visit hr]
  have hsplit := slice_append_slice (a := span.fileFirstOrdinal - 1) (b := s.latestOrdinal)
    (c := span.fileLastOrdinal) hr.numbered (by omega) hlast
  unfold between at hreplay ⊢
  rw [← hsplit]
  rw [foldVisitor_tailVisitor_skip]
  . apply foldVisitor_tailVisitor_apply
    . intro event hmem
      exact (mem_slice.mp hmem).2.1
    . -- Either the span starts behind the snapshot or it holds the event the snapshot ends with.
      dsimp only
      rw [Bool.or_eq_true, decide_eq_true_eq, any_eq_true]
      by_cases hstart : span.fileFirstOrdinal = s.latestOrdinal + 1
      . exact Or.inl hstart
      right
      obtain ⟨event, hmem, hordinal⟩ :=
        hr.numbered.exists (a := s.latestOrdinal) (by omega) (by omega)
      refine ⟨event, mem_slice.mpr ⟨hmem, by omega, by omega⟩, ?_⟩
      simpa using hordinal
    . exact hreplay
  . intro event hmem
    exact (mem_slice.mp hmem).2.2
  . intro event hmem heq
    refine OnChain.unique ?_ hr hchain
    exact Or.inr ⟨event, (mem_slice.mp hmem).1, heq, rfl⟩

theorem latest_of_replay_between {through : Nat} (hle : s.latestOrdinal ≤ through)
    (hthrough : through ≤ frontierOf origin history)
    (hreplay : replayEvents codec s (between history s.latestOrdinal through) = .ok s')
    : s'.latestOrdinal = through ∧ OnChain origin history s'.latestOrdinal s'.latestDigest := by
  have horigin := (hchain.bounds hr).1
  unfold frontierOf at hthrough
  have hlength := hr.numbered.length_slice horigin hthrough
  rcases latest_of_replayEvents hreplay with ⟨hnil, heq⟩ | ⟨last, hlast, hordinal, hdigest⟩
  . unfold between at hnil
    rw [hnil, length_nil] at hlength
    rw [heq]
    exact ⟨by omega, hchain⟩
  have hmem := mem_slice.mp (mem_of_getLast? hlast)
  have hnumbered := (numbered_slice (b := through) hr.numbered horigin).getLast? hlast
  rw [hlength] at hnumbered
  rw [hordinal, hdigest]
  exact ⟨by omega, Or.inr ⟨last, hmem.1, rfl, rfl⟩⟩

theorem recoverTail_eq_ok {after through : Nat}
    (hspans : SpanChain origin history files after through spans)
    (hthrough : through ≤ frontierOf origin history)
    (hafter : after ≤ s.latestOrdinal) (hle : s.latestOrdinal ≤ through)
    (hreplay : replayEvents codec s (between history s.latestOrdinal through) = .ok s')
    : ∃ hot', recoverTail codec files spans (s, hot) = .ok (s', hot') ∧
        Tail history s.latestOrdinal through hot hot' := by
  induction spans generalizing after s hot with
  | nil =>
    have heq : after = through := hspans
    have hempty : between history s.latestOrdinal through = [] := slice_of_le (by omega)
    rw [hempty] at hreplay
    simp only [replayEvents, Except.ok.injEq] at hreplay
    subst hreplay
    exact ⟨hot, rfl, fun _ hmem => Or.inl hmem, fun _ => rfl, fun hlt => by omega⟩
  | cons span rest ih =>
    obtain ⟨hrep, _, hspanLe, hfirst, hrest⟩ := hspans
    have hrestLe := hrest.le
    rw [recoverTail]
    split
    next hskip => exact ih hchain hrest hskip hle hreplay
    rename_i hread
    have hlow : s.latestOrdinal ≤ span.fileLastOrdinal := by omega
    have hsplit := slice_append_slice (a := s.latestOrdinal) (b := span.fileLastOrdinal)
      (c := through) hr.numbered hlow hrestLe
    unfold between at hreplay
    rw [← hsplit] at hreplay
    obtain ⟨middle, hmiddle, hreplay'⟩ := replayEvents_append hreplay
    obtain ⟨hlatest, hchain'⟩ :=
      latest_of_replay_between hr hchain hlow (Nat.le_trans hrestLe hthrough) hmiddle
    have hvisit := hrep.visit_tailVisitor hr hchain hot (by omega) hlow hmiddle
    dsimp only
    rw [hvisit]
    simp only [hlatest, ne_eq, not_true_eq_false, ↓reduceIte]
    have hmiddleReplay : replayEvents codec middle
        (between history middle.latestOrdinal through) = .ok s' := by
      rw [hlatest]
      exact hreplay'
    obtain ⟨hot', hrecover, htail⟩ := ih hchain' hrest (by omega) (by omega) hmiddleReplay
    refine ⟨hot', hrecover, ?_, ?_, ?_⟩
    . intro event hmem
      rcases htail.true_events event hmem with hmem | hmem
      . rcases mem_foldl_pushBounded hmem with hmem | hmem
        . exact Or.inl hmem
        . exact Or.inr (mem_slice.mp hmem).1
      . exact Or.inr hmem
    . intro heq
      omega
    intro hlt
    by_cases hmore : middle.latestOrdinal < through
    . exact htail.last hmore
    have heq : span.fileLastOrdinal = through := by omega
    rw [htail.same (by omega)]
    rcases latest_of_replayEvents hmiddle with ⟨_, hsame⟩ | ⟨last, hlast, hordinal, _⟩
    . rw [hsame] at hlatest
      omega
    refine ⟨last, ?_, by omega⟩
    rw [getLast?_foldl_pushBounded (ne_nil_of_mem (mem_of_getLast? hlast))]
    exact hlast

end Tail

section Recent

theorem foldVisitor_recentVisitor
    {scan : RecentScan} (h : Consecutive codec n events)
    (hprevious : ∀ previous, scan.previous = some previous →
      previous.ordinal = n ∧ isRelayDigest previous.digest)
    : ∃ previous, foldVisitor codec (recentVisitor codec span latest) events scan
        = .ok
            { previous := previous
              events := scan.events ++ events.filter (fun event =>
                event.ordinal > span.afterOrdinal ∧ event.ordinal ≤ latest) } := by
  induction events generalizing n scan with
  | nil => exact ⟨scan.previous, by simp [foldVisitor]⟩
  | cons event rest ih =>
    obtain ⟨hg, hmax⟩ := h.2 event (by simp)
    have hsuccessor : validateSuccessor codec scan.previous event = .ok () := by
      unfold validateSuccessor
      cases hp : scan.previous with
      | none => exact hg.validateSelf
      | some previous =>
        obtain ⟨hordinal, hdigest⟩ := hprevious previous hp
        exact validateRelayEvent_of_genuine hdigest hg (by rw [hordinal]; exact h.1.1) hmax
    have hvisit : recentVisitor codec span latest scan event (codec.eventLen event)
        = .ok (.continue
            { previous := some event
              events :=
                if event.ordinal > span.afterOrdinal ∧ event.ordinal ≤ latest then
                  scan.events ++ [event]
                else
                  scan.events }) := by
      unfold recentVisitor
      rw [hsuccessor]
    rw [foldVisitor_cons_of_continue hvisit]
    obtain ⟨previous, hfold⟩ := @ih event.ordinal
      { previous := some event
        events :=
          if event.ordinal > span.afterOrdinal ∧ event.ordinal ≤ latest then
            scan.events ++ [event]
          else
            scan.events } h.tail (by
      intro previous hsome
      cases hsome
      exact ⟨rfl, hg.isRelayDigest⟩)
    refine ⟨previous, ?_⟩
    rw [hfold]
    by_cases hwanted : event.ordinal > span.afterOrdinal ∧ event.ordinal ≤ latest
    . simp [hwanted]
    . simp [hwanted]

def contribution (history : List RelayEvent) (span : RelayJournalSpan) (latest : Nat) :
    List RelayEvent :=
  (between history (span.fileFirstOrdinal - 1) span.fileLastOrdinal).filter (fun event =>
    event.ordinal > span.afterOrdinal ∧ event.ordinal ≤ latest)

variable (hr : Recorded codec origin history)

include hr

theorem SpanRep.visit_recentVisitor (h : SpanRep origin history files span)
    : ∃ previous, visitRelayJournalFile codec span.path .strict (recentVisitor codec span latest)
          files { previous := none, events := [] }
        = .ok { previous := previous, events := contribution history span latest } := by
  have horigin := h.origin_lt
  rw [h.visit hr]
  have hfold := @foldVisitor_recentVisitor codec latest _ span _ { previous := none, events := [] }
    (hr.consecutive (b := span.fileLastOrdinal) (a := span.fileFirstOrdinal - 1) (by omega))
    (by intro previous hsome; cases hsome)
  exact hfold

theorem SpanRep.getLast?_contribution (h : SpanRep origin history files span)
    (hafter : span.afterOrdinal < span.fileLastOrdinal) (hlast : span.fileLastOrdinal = latest)
    : ∃ event, (contribution history span latest).getLast? = some event ∧
        event.ordinal = latest := by
  have horigin := h.origin_lt
  have hfirst := h.first_le
  have hfrontier := h.last_le
  unfold frontierOf at hfrontier
  have hlength := hr.numbered.length_slice (a := span.fileFirstOrdinal - 1)
    (b := span.fileLastOrdinal) (by omega) hfrontier
  have hnumbered := numbered_slice (b := span.fileLastOrdinal) hr.numbered
    (show origin.ordinal ≤ span.fileFirstOrdinal - 1 by omega)
  cases hget : (between history (span.fileFirstOrdinal - 1) span.fileLastOrdinal).getLast? with
  | none =>
    rw [getLast?_eq_none_iff] at hget
    unfold between at hget
    rw [hget, length_nil] at hlength
    omega
  | some event =>
  have hordinal := hnumbered.getLast? hget
  rw [hlength] at hordinal
  obtain ⟨init, hinit⟩ := getLast?_eq_some_iff.mp hget
  refine ⟨event, ?_, by omega⟩
  unfold contribution
  rw [hinit, filter_append, filter_cons_of_pos]
  . simp
  . simp only [decide_eq_true_eq]
    omega

theorem recentEvents_eq_ok (hspans : ∀ span ∈ spans, SpanRep origin history files span)
    {recent : List RelayEvent} (hrecent : recent.length < RELAY_HOT_EVENT_CAPACITY)
    : ∃ result, recentEvents codec files latest spans recent = .ok result ∧
        (∀ event ∈ result, event ∈ recent ∨ event ∈ history) ∧
        (recent ≠ [] → result.getLast? = recent.getLast?) ∧
        (recent = [] → ∀ span, spans.head? = some span → span.afterOrdinal < span.fileLastOrdinal →
          span.fileLastOrdinal = latest →
          ∃ event, result.getLast? = some event ∧ event.ordinal = latest) := by
  induction spans generalizing recent with
  | nil =>
    refine ⟨recent, rfl, fun _ hmem => Or.inl hmem, fun _ => rfl, ?_⟩
    nofun
  | cons span rest ih =>
    have hrep := hspans span (by simp)
    obtain ⟨previous, hvisit⟩ := hrep.visit_recentVisitor hr
    rw [recentEvents, hvisit]
    dsimp only
    generalize hadded : (contribution history span latest).drop
      ((contribution history span latest).length
        - (RELAY_HOT_EVENT_CAPACITY - recent.length)) = added
    have hlen : (added ++ recent).length ≤ RELAY_HOT_EVENT_CAPACITY := by
      rw [← hadded, length_append, length_drop]
      omega
    have htrue : ∀ event ∈ added ++ recent, event ∈ recent ∨ event ∈ history := by
      rw [forall_mem_append, ← hadded]
      refine ⟨?_, fun event hmem => Or.inl hmem⟩
      intro event hmem
      have hmem' := mem_of_mem_drop hmem
      unfold contribution at hmem'
      exact Or.inr (mem_slice.mp (mem_of_mem_filter hmem')).1
    have hlast : recent ≠ [] → (added ++ recent).getLast? = recent.getLast? := by
      intro hne
      rw [getLast?_append_of_ne_nil _ hne]
    have hfirst : recent = [] → span.afterOrdinal < span.fileLastOrdinal →
        span.fileLastOrdinal = latest →
        ∃ event, (added ++ recent).getLast? = some event ∧ event.ordinal = latest := by
      intro hnil hafter hlatest
      obtain ⟨event, hevent, hordinal⟩ := hrep.getLast?_contribution hr hafter hlatest
      refine ⟨event, ?_, hordinal⟩
      have hpos : 0 < (contribution history span latest).length :=
        length_pos_of_mem (mem_of_getLast? hevent)
      rw [hnil, append_nil, ← hadded, getLast?_drop, hevent]
      have hcapacity : 0 < RELAY_HOT_EVENT_CAPACITY := by decide
      rw [hnil, length_nil]
      rw [if_neg (by omega)]
    split
    next hfull =>
      refine ⟨added ++ recent, rfl, htrue, hlast, ?_⟩
      intro hnil other hhead hafter hlatest
      rw [head?_cons, Option.some.injEq] at hhead
      subst hhead
      exact hfirst hnil hafter hlatest
    rename_i hmore
    obtain ⟨result, hresult, htrue', hlast', _⟩ :=
      ih (fun span hmem => hspans span (mem_cons_of_mem _ hmem))
        (show (added ++ recent).length < RELAY_HOT_EVENT_CAPACITY by omega)
    refine ⟨result, hresult, ?_, ?_, ?_⟩
    . intro event hmem
      exact (htrue' event hmem).elim (htrue event) Or.inr
    . intro hne
      rw [hlast' (by simp [hne])]
      exact hlast hne
    intro hnil other hhead hafter hlatest
    rw [head?_cons, Option.some.injEq] at hhead
    subst hhead
    obtain ⟨event, hevent, hordinal⟩ := hfirst hnil hafter hlatest
    refine ⟨event, ?_, hordinal⟩
    rw [hlast' (ne_nil_of_mem (mem_of_getLast? hevent))]
    exact hevent

end Recent

end Hel
