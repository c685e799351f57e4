import Hel.Worker.Lemmas.Seal

/-!
This module contains the proof that appending an event keeps memory and disk of a relay in step,
wherever the append is cut off.
-/

namespace Hel

open DirectoryOp Directory List

open Program (Lands lands_bind lands_get_bind lands_modify_bind lands_ofExcept_bind lands_pure_bind)

variable {history : List RelayEvent} {files files' : JournalFiles} {event : RelayEvent}
  {codec : RelayCodec} {origin : Origin} {sessionId : String} {w w' : World} {next : RelaySnapshot}
  {content : JournalContent} {ordinal : Nat} {s : RelaySnapshot} {span : RelayJournalSpan}
  {recordedAtMs : Int}

section Snoc

variable {floor a b : Nat}

theorem frontierOf_snoc
    : frontierOf origin (history ++ [event]) = frontierOf origin history + 1 := by
  unfold frontierOf
  rw [length_append, length_singleton]
  omega

theorem between_snoc_of_lt (h : b < event.ordinal)
    : between (history ++ [event]) a b = between history a b := by
  rw [between, slice_append]
  have hnil : slice RelayEvent.ordinal [event] a b = [] := by
    apply slice_eq_nil
    intro other hmem
    rw [mem_singleton.mp hmem]
    exact Or.inr h
  rw [hnil, append_nil]

def activeLines (files : JournalFiles) : List JournalLine :=
  (files.get? .active).elim [] (·.lines)

theorem JournalRep.activeLines_eq (h : JournalRep origin history floor files)
    : ∃ after, origin.ordinal ≤ after ∧ after ≤ frontierOf origin history ∧
        activeLines files = (between history after (frontierOf origin history)).map .record := by
  unfold activeLines
  cases hget : files.get? .active with
  | none =>
    refine ⟨frontierOf origin history, by unfold frontierOf; omega, Nat.le_refl _, ?_⟩
    rw [between, slice_of_le (Nat.le_refl _)]
    rfl
  | some content =>
    obtain ⟨after, hrep⟩ := h.active content hget
    exact ⟨after, hrep.origin_le, hrep.after_le, hrep.lines_eq⟩

structure SetsActive (content : JournalContent) (files files' : JournalFiles) : Prop where
  active : files'.get? .active = some content
  others : ∀ name, name ≠ .active → files'.get? name = files.get? name

theorem SetsActive.segment (h : SetsActive content files files') (first last : Nat)
    : files'.get? (.segment first last) = files.get? (.segment first last) :=
  h.others _ (by simp)

theorem SetsActive.lines (h : SetsActive content files files')
    : activeLines files' = content.lines := by
  rw [activeLines, h.active]
  rfl

theorem JournalRep.covered_of_active (h : JournalRep origin history floor files)
    (hlt : floor < ordinal) (hle : ordinal ≤ frontierOf origin history)
    (hset : SetsActive content files files') (hlines : activeLines files ⊆ content.lines)
    : SegmentCovers files' ordinal ∨ ActiveCovers files' ordinal := by
  cases h.covers ordinal hlt hle with
  | inl hcovered =>
    left
    rw [segmentCovers_congr hset.segment]
    exact hcovered
  | inr hcovered =>
  obtain ⟨content', other, hget, hmem, hother⟩ := hcovered
  right
  refine ⟨content, other, hset.active, hlines ?_, hother⟩
  unfold activeLines
  rw [hget]
  exact hmem

theorem Frontiers.snoc (h : Frontiers origin history s)
    : Frontiers origin (history ++ [event]) s := by
  constructor
  . exact h.latest.append _
  . exact h.acknowledged.append _
  . exact h.acknowledged_le
  . exact h.floor.append _
  . exact h.floor_le
  . exact h.floor_lt
  . intro n hn
    obtain ⟨hle, d, hd, hchain⟩ := h.ready n hn
    exact ⟨hle, d, hd, hchain.append _⟩
  . intro id dispatch through hd hcommand hopen
    obtain ⟨hle, hchain⟩ := h.advances id dispatch through hd hcommand hopen
    exact ⟨hle, hchain.append _⟩

variable (hordinal : event.ordinal = frontierOf origin history + 1)

include hordinal

theorem ordinal_eq_frontierOf_snoc : event.ordinal = frontierOf origin (history ++ [event]) := by
  rw [frontierOf_snoc]
  exact hordinal

theorem SegmentRep.snoc {first last : Nat} (h : SegmentRep origin history first last content)
    : SegmentRep origin (history ++ [event]) first last content := by
  have hlast := h.last_le
  constructor
  . exact h.origin_lt
  . exact h.first_le
  . rw [frontierOf_snoc]
    omega
  . rw [between_snoc_of_lt (by omega)]
    exact h.content_eq

theorem SpanRep.snoc (h : SpanRep origin history files span) (hpath : span.path ≠ .active)
    (hfiles : ∀ name, name ≠ .active → files'.get? name = files.get? name)
    : SpanRep origin (history ++ [event]) files' span := by
  have hlast := h.last_le
  constructor
  . exact h.origin_lt
  . exact h.first_le
  . rw [frontierOf_snoc]
    omega
  . cases h.path with
    | inl hactive => exact absurd hactive.1 hpath
    | inr hsegment => exact Or.inr hsegment
  . rw [hfiles _ hpath, between_snoc_of_lt (by omega)]
    exact h.content
  . exact h.previous

theorem SpanChain.snoc {spans : List RelayJournalSpan} {after through : Nat}
    (h : SpanChain origin history files after through spans)
    (hpath : ∀ span ∈ spans, span.path ≠ .active)
    (hfiles : ∀ name, name ≠ .active → files'.get? name = files.get? name)
    : SpanChain origin (history ++ [event]) files' after through spans := by
  induction spans generalizing after with
  | nil => exact h
  | cons span rest ih =>
    obtain ⟨hrep, hafter, hle, hfirst, hrest⟩ := h
    refine ⟨hrep.snoc hordinal (hpath span (by simp)) hfiles, hafter, hle, hfirst, ?_⟩
    apply ih hrest
    intro other hmem
    exact hpath other (mem_cons_of_mem _ hmem)

variable (hr : Recorded codec origin history)

include hr

theorem between_snoc (ha : a ≤ frontierOf origin history)
    : between (history ++ [event]) a (frontierOf origin (history ++ [event]))
        = between history a (frontierOf origin history) ++ [event] := by
  rw [frontierOf_snoc, between, slice_append]
  congr 1
  . unfold slice
    apply filter_congr
    intro other hmem
    have hbounds := hr.numbered.bounds hmem
    unfold frontierOf
    rw [Bool.eq_iff_iff]
    simp only [Bool.and_eq_true, decide_eq_true_eq]
    omega
  . apply slice_eq_self
    intro other hmem
    rw [mem_singleton.mp hmem]
    omega

theorem JournalRep.snoc (h : JournalRep origin history floor files)
    (hset : SetsActive { lines := activeLines files ++ [.record event], torn := 0 } files files')
    : JournalRep origin (history ++ [event]) floor files' := by
  constructor
  . intro first last content hget
    rw [hset.segment] at hget
    exact (h.segments first last content hget).snoc hordinal
  . intro content hget
    rw [hset.active, Option.some.injEq] at hget
    obtain ⟨after, horigin, hle, hlines⟩ := h.activeLines_eq
    refine ⟨after, ?_⟩
    rw [← hget]
    constructor
    . exact horigin
    . rw [frontierOf_snoc]
      omega
    . rw [between_snoc hordinal hr hle, hlines, map_append]
      rfl
    . exact Nat.zero_le _
  . intro ordinal hlt hle
    rw [frontierOf_snoc] at hle
    by_cases hlast : ordinal = frontierOf origin history + 1
    . right
      exact ⟨_, event, hset.active, by simp, by omega⟩
    . exact h.covered_of_active hlt (by omega) hset (subset_append_left _ _)

variable (hactive : files'.get? .active
  = some { lines := activeLines files ++ [.record event], torn := 0 })

include hactive

theorem SpanRep.grow (h : SpanRep origin history files span) (hpath : span.path = .active)
    : SpanRep origin (history ++ [event]) files'
        { span with fileLastOrdinal := event.ordinal, fileLastDigest := some event.digest } := by
  have horigin := h.origin_lt
  have hfirst := h.first_le
  have hle := h.last_le
  have hlast : span.fileLastOrdinal = frontierOf origin history := by
    cases h.path with
    | inl hactive => exact hactive.2
    | inr hsegment =>
      rw [hpath] at hsegment
      cases hsegment
  constructor
  . exact horigin
  . show span.fileFirstOrdinal ≤ event.ordinal
    omega
  . exact Nat.le_of_eq (ordinal_eq_frontierOf_snoc hordinal)
  . exact Or.inl ⟨hpath, ordinal_eq_frontierOf_snoc hordinal⟩
  . refine ⟨{ lines := activeLines files ++ [.record event], torn := 0 }, ?_, ?_, Nat.zero_le _⟩
    . show files'.get? span.path = _
      rw [hpath]
      exact hactive
    obtain ⟨content, hget, hlines, _⟩ := h.content
    rw [hpath] at hget
    have hsnoc := between_snoc (a := span.fileFirstOrdinal - 1) hordinal hr (by omega)
    rw [frontierOf_snoc, ← hordinal] at hsnoc
    dsimp only
    rw [hsnoc, ← hlast, map_append, ← hlines]
    unfold activeLines
    rw [hget]
    rfl
  . exact h.previous

theorem spanRep_fresh (hg : Genuine codec event) (hempty : activeLines files = [])
    : SpanRep origin (history ++ [event]) files' (recordJournalAppend.freshSpan event) := by
  have horigin : origin.ordinal ≤ frontierOf origin history := by
    unfold frontierOf
    omega
  constructor
  . show origin.ordinal < event.ordinal
    omega
  . exact Nat.le_refl _
  . exact Nat.le_of_eq (ordinal_eq_frontierOf_snoc hordinal)
  . exact Or.inl ⟨rfl, ordinal_eq_frontierOf_snoc hordinal⟩
  . refine ⟨_, hactive, ?_, Nat.zero_le _⟩
    have hsnoc := between_snoc (a := frontierOf origin history) hordinal hr (Nat.le_refl _)
    have hnil : between history (frontierOf origin history) (frontierOf origin history) = [] :=
      slice_of_le (Nat.le_refl _)
    rw [frontierOf_snoc, ← hordinal, hnil, nil_append] at hsnoc
    have hfirst : event.ordinal - 1 = frontierOf origin history := by omega
    simp only [recordJournalAppend.freshSpan, hfirst, hsnoc, hempty]
    rfl
  . intro digest hdigest
    simp only [recordJournalAppend.freshSpan, hg.previousDigest] at hdigest
    cases hdigest

end Snoc

structure World.Appended (event : RelayEvent) (next : RelaySnapshot) (w w' : World) : Prop where
  relay : w'.relay = w.relay
  history : w'.history = w.history ++ [event]
  held : w'.held = next
  collected : w'.collected = w.collected
  invalidations : w'.invalidations = w.invalidations
  stateFile : w'.disk.stateFile = w.disk.stateFile
  seed : w'.disk.seed = w.disk.seed
  calm : w.Calm → w'.Calm
  settled : w'.disk.journal.pending = []
  active : w'.disk.journal.files.get? .active
    = some { lines := activeLines w.disk.journal.files ++ [.record event], torn := 0 }
  others : ∀ name, name ≠ .active →
    w'.disk.journal.files.get? name = w.disk.journal.files.get? name

section Write

variable (Accepts : RelaySnapshot → RelayCommand → Prop)

theorem Consistent.frontierOf_eq (h : Consistent codec origin sessionId w)
    : frontierOf origin w.history = w.held.latestOrdinal := by
  obtain ⟨base, hdurable, _⟩ := h.durable
  exact hdurable.valid.latest_eq.symm

theorem JournalRep.torn {floor : Nat} (h : JournalRep origin history floor files) {torn : Nat}
    (htorn : torn ≤ RELAY_EVENT_BYTE_BUDGET)
    (hset : SetsActive { lines := activeLines files, torn := torn } files files')
    : JournalRep origin history floor files' := by
  constructor
  . intro first last content
    rw [hset.segment]
    exact h.segments first last content
  . intro content hget
    rw [hset.active, Option.some.injEq] at hget
    obtain ⟨after, horigin, hle, hlines⟩ := h.activeLines_eq
    refine ⟨after, ?_⟩
    rw [← hget]
    exact ⟨horigin, hle, hlines, htorn⟩
  . intro ordinal hlt hle
    exact h.covered_of_active hlt hle hset (List.Subset.refl _)

theorem Recoverable.of_untouched (h : Consistent codec origin sessionId w) (hw : w.Untouched w')
    (hjournal : w'.disk.journal.Survives (fun files =>
      JournalRep origin w.history w.collected files ∨
        Unsynced codec origin Accepts w.chronicle files))
    : Recoverable codec origin Accepts sessionId w' := by
  obtain ⟨base, hdurable, _⟩ := h.durable
  refine ⟨⟨base, hdurable.undisturbed hw.toUndisturbed⟩, ?_⟩
  rw [hw.history, hw.collected, hw.chronicle]
  exact hjournal

-- The chronicle `c` can take `event` and holds `next` then.
structure Appendable (codec : RelayCodec) (origin : Origin)
    (Accepts : RelaySnapshot → RelayCommand → Prop) (c : Chronicle) (event : RelayEvent)
    (next : RelaySnapshot) : Prop where
  genuine : Genuine codec event
  ordinal : event.ordinal = frontierOf origin c.history + 1
  applies : applyRelayEvent codec c.held event = .ok next
  transition : Transition codec origin Accepts c
    { c with history := c.history ++ [event], held := next }

section

variable {Accepts} (h : Consistent codec origin sessionId w)
  (ha : Appendable codec origin Accepts w.chronicle event next)
include h ha

theorem Appendable.unsynced
    (hset : SetsActive { lines := activeLines w.disk.journal.files ++ [.record event], torn := 0 }
      w.disk.journal.files files') : Unsynced codec origin Accepts w.chronicle files' :=
  ⟨event, next, _, ha.transition, h.rep.snoc ha.ordinal h.recorded hset, hset.active, by simp⟩

theorem Appendable.rep_of_torn {tornBytes : Nat} (hset : SetsActive (.write codec event tornBytes
      { lines := activeLines w.disk.journal.files, torn := 0 }) w.disk.journal.files files')
    : JournalRep origin w.history w.collected files' ∨
        Unsynced codec origin Accepts w.chronicle files' := by
  unfold JournalContent.write at hset
  rw [if_pos rfl, Nat.zero_add] at hset
  split at hset
  next htorn =>
    left
    exact h.rep.torn (Nat.le_trans htorn ha.genuine.len_le) hset
  next =>
    right
    exact ha.unsynced h hset

end

theorem untouched_journal (w : World) (journal : Directory JournalFile JournalContent)
    (schedule : Schedule) (hcalm : w.Calm → schedule = w.schedule)
    : w.Untouched
        { w with disk := { w.disk with journal := journal }, schedule := schedule } := by
  refine ⟨⟨rfl, rfl, rfl, rfl, rfl, rfl, rfl, rfl, rfl, ?_⟩, rfl⟩
  intro h
  rw [hcalm h]
  exact ⟨h.steady, h.writes⟩

theorem lines_write (codec : RelayCodec) (event : RelayEvent) (bytes : Nat)
    (content : JournalContent) : content.lines <+: (content.write codec event bytes).lines := by
  unfold JournalContent.write
  split
  . exact prefix_rfl
  split
  . exact prefix_append _ _
  . exact prefix_append _ _

theorem SetsActive.grown (h : SetsActive content files files')
    (hlines : activeLines files <+: content.lines) : Grown files files' := by
  constructor
  . intro first last content hget
    rw [h.segment]
    exact hget
  intro content' hget
  refine ⟨content, h.active, ?_⟩
  rw [activeLines, hget] at hlines
  exact hlines

theorem setsActive_update {d : Directory JournalFile JournalContent} (hsettled : d.pending = [])
    (hread : d.read? .active = some content) (f : JournalContent → JournalContent)
    : SetsActive (f content) d.files (d.update .active f).files := by
  unfold read? at hread
  rw [files_of_pending_nil (d := d.update .active f) hsettled]
  rw [files_of_pending_nil hsettled] at hread ⊢
  constructor
  . simp only [update, BTreeMap.get?_modify, hread, ↓reduceIte, Option.map_some]
  . intro name hne
    simp only [update, BTreeMap.get?_modify, hne, ↓reduceIte]

theorem setsActive_create (files : JournalFiles) (content : JournalContent)
    : SetsActive content files (apply files (.create .active content)) := by
  constructor
  . rw [get?_apply_create]
    rfl
  . intro name hne
    rw [get?_apply_create, if_neg hne]

-- How the write of a record ends: with the record in the active file, or in a crash before it.
def WritesRecord (codec : RelayCodec) (origin : Origin)
    (Accepts : RelaySnapshot → RelayCommand → Prop) (sessionId : String) (event : RelayEvent)
    (next : RelaySnapshot) (w : World) : Prop :=
  Lands (fun _ => False)
    (fun w' => Recoverable codec origin Accepts sessionId w' ∧ w.Untouched w' ∧
      Grown w.disk.journal.files w'.disk.journal.files ∧ ¬ w.Calm)
    (fun _ w' => w.Appended event next w')
    (writeRecord codec event w)

section

variable {Accepts} (h : Consistent codec origin sessionId w)
  (ha : Appendable codec origin Accepts w.chronicle event next)
include h ha

theorem writeRecord_existing (hread : w.disk.journal.read? .active = some content)
    : WritesRecord codec origin Accepts sessionId event next w := by
  have htorn := h.untorn content hread
  have hlines : activeLines w.disk.journal.files = content.lines :=
    congrArg (·.elim [] (·.lines)) hread
  unfold WritesRecord writeRecord
  apply lands_get_bind
  simp only [hread]
  apply lands_diskStep
  . intro hne
    let journal := w.disk.journal.update .active (·.write codec event w.schedule.tornBytes)
    have hw := untouched_journal w journal w.schedule (fun _ => rfl)
    have hpending : journal.pending = [] := h.settled
    have hset := setsActive_update h.settled hread (·.write codec event w.schedule.tornBytes)
    refine ⟨Recoverable.of_untouched Accepts h hw ?_, hw, ?_, fun hcalm => hne hcalm.steady⟩
    . refine survives_of_pending_nil (d := journal) hpending ?_
      rw [← files_of_pending_nil hpending]
      apply ha.rep_of_torn h
      rw [hlines, ← htorn]
      exact hset
    . apply hset.grown
      rw [hlines]
      exact lines_write codec event w.schedule.tornBytes content
  intro schedule hschedule
  have hset := setsActive_update h.settled hread (·.write codec event (codec.eventLen event + 1))
  have hwhole : content.write codec event (codec.eventLen event + 1)
      = { lines := content.lines ++ [.record event], torn := 0 } := by
    simp [JournalContent.write, htorn]
  exact
    { relay := rfl
      history := rfl
      held := by
        have happly : applyRelayEvent codec w.held event = .ok next := ha.applies
        simp only [World.recordDurable, World.mapJournal, happly]
      collected := rfl
      invalidations := rfl
      stateFile := rfl
      seed := rfl
      calm := by
        intro hcalm
        rw [hschedule hcalm]
        exact ⟨hcalm.steady, hcalm.writes⟩
      settled := h.settled
      active := by
        rw [hlines, ← hwhole]
        exact hset.active
      others := hset.others }

theorem writeRecord_fresh (hread : w.disk.journal.read? .active = none)
    : WritesRecord codec origin Accepts sessionId event next w := by
  have hlines : activeLines w.disk.journal.files = [] := congrArg (·.elim [] (·.lines)) hread
  have hstable : w.disk.journal.files = w.disk.journal.stable :=
    files_of_pending_nil h.settled
  have hcreate : ∀ content,
      SetsActive content w.disk.journal.files (apply w.disk.journal.files (.create .active content)) :=
    setsActive_create w.disk.journal.files
  have hsurvives : ∀ content, (∀ files', SetsActive content w.disk.journal.files files' →
      JournalRep origin w.history w.collected files' ∨
        Unsynced codec origin Accepts w.chronicle files') →
      (w.disk.journal.perform (.create .active content)).Survives (fun files =>
        JournalRep origin w.history w.collected files ∨
          Unsynced codec origin Accepts w.chronicle files) := by
    intro content hrep
    refine survives_perform_of_pending_nil h.settled ?_ ?_
    . rw [← hstable]
      exact Or.inl h.rep
    . rw [← hstable]
      exact hrep _ (hcreate content)
  have hfresh : ∀ content, Grown w.disk.journal.files
      (w.disk.journal.perform (.create .active content)).files := by
    intro content
    rw [files_perform]
    apply (hcreate content).grown
    rw [hlines]
    exact nil_prefix
  unfold WritesRecord writeRecord
  apply lands_get_bind
  simp only [hread]
  refine lands_bind (Q := fun _ w' => w.Untouched w' ∧ w'.relay = w.relay ∧
    w'.disk.journal = w.disk.journal.perform (.create .active (.ofEvents [event]))) ?_ ?_
  . apply lands_diskStep
    . intro hne
      have hw := untouched_journal w
        (w.disk.journal.perform (.create .active
          (.write codec event w.schedule.tornBytes (.ofEvents []))))
        w.schedule (fun _ => rfl)
      refine ⟨Recoverable.of_untouched Accepts h hw ?_, hw, hfresh _, fun hcalm => hne hcalm.steady⟩
      apply hsurvives
      intro files' hset
      apply ha.rep_of_torn h
      rw [hlines]
      exact hset
    . intro schedule hschedule
      exact ⟨untouched_journal w _ schedule hschedule, rfl, rfl⟩
  intro _ w₁ ⟨hw₁, hrelay₁, hjournal₁⟩
  have hset₁ : SetsActive (.ofEvents [event]) w.disk.journal.files w₁.disk.journal.files := by
    rw [hjournal₁, files_perform]
    apply hcreate
  apply lands_diskStep
  . intro hne
    refine ⟨Recoverable.of_untouched Accepts h hw₁ ?_, hw₁, ?_,
      fun hcalm => hne (hw₁.calm hcalm).steady⟩
    . dsimp only [id]
      rw [hjournal₁]
      apply hsurvives
      intro files' hset
      right
      apply ha.unsynced h
      rw [hlines]
      exact hset
    . dsimp only [id]
      rw [hjournal₁]
      exact hfresh _
  intro schedule hschedule
  exact
    { relay := hrelay₁
      history := by
        show w₁.history ++ [event] = _
        rw [hw₁.history]
      held := by
        have happly : applyRelayEvent codec w.held event = .ok next := ha.applies
        simp only [World.recordDurable, World.mapJournal, hw₁.held, happly]
      collected := hw₁.collected
      invalidations := congrArg Prod.snd hw₁.era
      stateFile := hw₁.stateFile
      seed := hw₁.seed
      calm := by
        intro hcalm
        have hcalm₁ := hw₁.calm hcalm
        rw [hschedule hcalm₁]
        exact ⟨hcalm₁.steady, hcalm₁.writes⟩
      settled := rfl
      active := by
        show w₁.disk.journal.sync.files.get? .active = _
        rw [files_sync, hlines]
        exact hset₁.active
      others := by
        intro name hne
        show w₁.disk.journal.sync.files.get? name = _
        rw [files_sync]
        exact hset₁.others name hne }

theorem writeRecord_lands : WritesRecord codec origin Accepts sessionId event next w := by
  cases hread : w.disk.journal.read? .active with
  | none => exact writeRecord_fresh h ha hread
  | some content => exact writeRecord_existing h ha hread

end

end Write

section Publish

variable {Accepts : RelaySnapshot → RelayCommand → Prop}

theorem World.Appended.sets (h : w.Appended event next w')
    : SetsActive { lines := activeLines w.disk.journal.files ++ [.record event], torn := 0 }
        w.disk.journal.files w'.disk.journal.files :=
  ⟨h.active, h.others⟩

theorem World.Appended.chronicle (h : w.Appended event next w')
    : w'.chronicle = { w.chronicle with history := w.history ++ [event], held := next } := by
  unfold World.chronicle
  rw [h.history, h.held, h.collected]

theorem recordJournalAppend_cases (relay : DurableRelay) (event : RelayEvent)
    : (∃ inner span, relay.journalSpans = inner ++ [span] ∧ span.path = .active ∧
        recordJournalAppend relay event
          = { relay with
              journalSpans := inner ++ [{ span with
                fileLastOrdinal := event.ordinal
                fileLastDigest := some event.digest }] }) ∨
      (∀ span, relay.journalSpans.getLast? = some span → span.path ≠ .active) ∧
        recordJournalAppend relay event
          = { relay with
              journalSpans := relay.journalSpans ++ [recordJournalAppend.freshSpan event] } := by
  unfold recordJournalAppend
  cases hlast : relay.journalSpans.getLast? with
  | none =>
    right
    refine ⟨?_, rfl⟩
    nofun
  | some span =>
  by_cases hpath : span.path = .active
  . left
    obtain ⟨inner, hspans⟩ := getLast?_eq_some_iff.mp hlast
    refine ⟨inner, span, hspans, hpath, ?_⟩
    simp only [hpath, ↓reduceIte, hspans, dropLast_concat]
  right
  refine ⟨?_, ?_⟩
  . intro other hother
    cases hother
    exact hpath
  . simp only [hpath, ↓reduceIte]

theorem SpansRep.appended (h : SpansRep origin w) (relay : DurableRelay)
    (hr : Recorded codec origin w.history) (hg : Genuine codec event)
    (hordinal : event.ordinal = frontierOf origin w.history + 1) (hw : w.Appended event next w')
    (hspans : relay.journalSpans = w.relay.journalSpans)
    : SpansRep origin { w' with relay := recordJournalAppend relay event } := by
  obtain ⟨after, hchain⟩ := h.chain
  have hinner := h.inner
  cases recordJournalAppend_cases relay event with
  | inl hgrow =>
    obtain ⟨inner, span, heq, hpath, hrelay⟩ := hgrow
    rw [hrelay]
    rw [← hspans, heq] at hchain
    rw [← hspans, heq, dropLast_concat] at hinner
    obtain ⟨middle, hfirst, hrep, hafter, hle, hstart, hrest⟩ := spanChain_append.mp hchain
    have hlast : span.fileLastOrdinal = frontierOf origin w.history := hrest
    constructor
    . refine ⟨after, ?_⟩
      show SpanChain origin w'.history w'.disk.journal.files after
        (frontierOf origin w'.history) (inner ++ [_])
      rw [hw.history, spanChain_append]
      refine ⟨middle, hfirst.snoc hordinal hinner hw.others, ?_⟩
      refine ⟨hrep.grow hordinal hr hw.active hpath, hafter, ?_, hstart,
        ordinal_eq_frontierOf_snoc hordinal⟩
      show middle ≤ event.ordinal
      omega
    . dsimp only
      rw [dropLast_concat]
      exact hinner
    . intro content _ _
      exact ⟨_, getLast?_concat, hpath⟩
    . have hcached := h.cached
      rw [← hspans, heq, map_append] at hcached
      dsimp only
      rw [map_append]
      exact hcached
  | inr hfresh =>
  obtain ⟨hnone, hrelay⟩ := hfresh
  rw [hrelay, hspans]
  rw [hspans] at hnone
  have hempty : activeLines w.disk.journal.files = [] := by
    unfold activeLines
    cases hget : w.disk.journal.files.get? .active with
    | none => rfl
    | some content =>
    by_contra hlines
    obtain ⟨span, hlast, hpath⟩ := h.last content hget hlines
    exact hnone span hlast hpath
  have hsegments : ∀ span ∈ w.relay.journalSpans, span.path ≠ .active := by
    intro span hmem
    cases hlast : w.relay.journalSpans.getLast? with
    | none =>
      rw [getLast?_eq_none_iff.mp hlast] at hmem
      cases hmem
    | some last =>
    obtain ⟨inner, heq⟩ := getLast?_eq_some_iff.mp hlast
    rw [heq, dropLast_concat] at hinner
    rw [heq, mem_append, mem_singleton] at hmem
    rcases hmem with hmem | rfl
    . exact hinner span hmem
    . exact hnone span hlast
  constructor
  . refine ⟨after, ?_⟩
    show SpanChain origin w'.history w'.disk.journal.files after
      (frontierOf origin w'.history) (w.relay.journalSpans ++ [_])
    rw [hw.history, spanChain_append]
    refine ⟨frontierOf origin w.history, hchain.snoc hordinal hsegments hw.others, ?_⟩
    refine ⟨spanRep_fresh hordinal hr hw.active hg hempty, ?_, ?_, Nat.le_of_eq hordinal,
      ordinal_eq_frontierOf_snoc hordinal⟩
    . show event.ordinal - 1 = _
      omega
    . show _ ≤ event.ordinal
      omega
  . dsimp only
    rw [dropLast_concat]
    exact hsegments
  . intro content _ _
    exact ⟨_, getLast?_concat, rfl⟩
  intro digest hmem
  dsimp only at hmem
  rw [map_append] at hmem
  have hnone : (recordJournalAppend.freshSpan event).fileFirstPreviousDigest = none := by
    simp [recordJournalAppend.freshSpan, hg.previousDigest]
  cases hdigests : w.relay.journalSpans.map (·.fileFirstPreviousDigest) with
  | nil =>
    rw [hdigests] at hmem
    cases hmem
  | cons first rest =>
  have hcached := h.cached
  rw [hdigests] at hmem hcached
  rw [cons_append, tail_cons, mem_append] at hmem
  cases hmem with
  | inl hold => exact hcached digest hold
  | inr hnew =>
    rw [map_singleton, mem_singleton, hnone] at hnew
    exact hnew

theorem mem_pushBounded {α : Type} {capacity : Nat} {items : List α} {item x : α}
    (h : x ∈ pushBounded capacity items item) : x ∈ items ∨ x = item := by
  unfold pushBounded at h
  rw [mem_append, mem_singleton] at h
  apply h.imp_left
  intro hmem
  split at hmem
  . exact mem_of_mem_tail hmem
  . exact hmem

theorem World.Appended.shifts (h : w.Appended event next w') (relay : DurableRelay)
    (hgeneration : relay.journalGeneration = w'.relay.journalGeneration)
    : Shifts w { w' with relay := relay } := by
  apply Shifts.of_grown
  . show (relay.journalGeneration, w'.invalidations) = w.era
    rw [hgeneration, h.relay, h.invalidations]
    rfl
  . exact h.sets.grown (prefix_append _ _)

theorem publishAppend_frame {relay relay' : DurableRelay} {encodedLen : Nat}
    (h : publishAppend relay next event encodedLen = relay')
    : relay'.journalGeneration = relay.journalGeneration ∧ relay'.snapshot = next ∧
        relay'.replayCursors = relay.replayCursors ∧
        relay'.unpersistedJournalBytes = relay.unpersistedJournalBytes + encodedLen ∧
        relay'.journalSpans
          = (recordJournalAppend { relay with snapshot := next } event).journalSpans ∧
        ∀ other ∈ relay'.hotEvents, other ∈ relay.hotEvents ∨ other = event := by
  subst h
  unfold publishAppend
  obtain ⟨_, _, _, _, hrelay⟩ | ⟨_, hrelay⟩ :=
    recordJournalAppend_cases { relay with snapshot := next } event
  all_goals
    rw [hrelay]
    exact ⟨rfl, rfl, rfl, rfl, rfl, fun _ => mem_pushBounded⟩

theorem Durable.appended {base : RelaySnapshot} (h : Durable codec origin sessionId base w)
    (htransition : Transition codec origin Accepts w.chronicle w'.chronicle)
    (hordinal : event.ordinal = frontierOf origin w.history + 1)
    (happly : applyRelayEvent codec w.held event = .ok next)
    (hchronicle : w'.chronicle = { w.chronicle with history := w.history ++ [event], held := next })
    (hstateFile : w'.disk.stateFile = w.disk.stateFile) (hseed : w'.disk.seed = w.disk.seed)
    : Durable codec origin sessionId base w' := by
  have hr : Recorded codec origin w.history := h.valid.recorded
  have hbase : base.latestOrdinal ≤ frontierOf origin w.history :=
    (h.frontiers.latest.bounds hr).2
  rw [hchronicle] at htransition
  have hset : Durable codec origin sessionId base
      { w with history := w.history ++ [event], held := next } := { h with
    valid := htransition.valid h.valid
    identity := (applyRelayEvent_keeps happly).2.trans h.identity
    frontiers := h.frontiers.snoc
    replay := by
      rw [between_snoc hordinal hr hbase]
      exact replayEvents_snoc h.replay happly
    retained_le := fun hguarded =>
      Nat.le_trans (h.retained_le hguarded) (htransition.retained_le h.valid hguarded) }
  exact hset.congr hchronicle hstateFile hseed

theorem Live.appended (h : Live codec origin sessionId w)
    (ha : Appendable codec origin Accepts w.chronicle event next) (hw : w.Appended event next w')
    {encodedLen : Nat} (hlen : 0 < encodedLen)
    : Live codec origin sessionId
        { w' with relay := publishAppend w'.relay next event encodedLen } := by
  obtain ⟨base, hdurable, _⟩ := h.durable
  obtain ⟨_, hsnapshot, hcursors, hbytes, hspans, hhot⟩ :=
    publishAppend_frame (rfl : publishAppend w'.relay next event encodedLen = _)
  constructor
  . constructor
    . have hdurable' := hdurable.appended (hw.chronicle ▸ ha.transition) ha.ordinal ha.applies
        hw.chronicle hw.stateFile hw.seed
      refine ⟨base, hdurable'.congr rfl rfl rfl, ?_⟩
      intro hzero
      dsimp only at hzero
      omega
    . exact hw.settled
    . show JournalRep origin w'.history w'.collected w'.disk.journal.files
      rw [hw.history, hw.collected]
      exact h.rep.snoc ha.ordinal hdurable.valid.recorded hw.sets
    . intro content hread
      unfold read? at hread
      dsimp only at hread
      rw [hw.active, Option.some.injEq] at hread
      rw [← hread]
    . have hrep := h.spans.appended { w'.relay with snapshot := next }
        hdurable.valid.recorded ha.genuine ha.ordinal hw (by rw [hw.relay])
      exact hrep.congr rfl rfl hspans
    . intro other hmem
      show other ∈ w'.history
      rw [hw.history, mem_append, mem_singleton]
      apply (hhot other hmem).imp_left
      rw [hw.relay]
      apply h.hot other
    . intro cursor hmem
      dsimp only at hmem ⊢
      rw [hcursors, hw.relay] at hmem
      rw [hw.history]
      exact (h.cursors cursor hmem).append _
  . show (publishAppend w'.relay next event encodedLen).snapshot = w'.held
    rw [hsnapshot, hw.held]

end Publish

structure Fits (codec : RelayCodec) (s : RelaySnapshot) : Prop where
  compact : codec.snapshotLen s ≤ RELAY_SNAPSHOT_BYTE_BUDGET
  pretty : codec.snapshotPrettyLen s ≤ RELAY_SNAPSHOT_BYTE_BUDGET
  operational : codec.operationalStateLen s.operationalState ≤ RELAY_STATE_BYTE_BUDGET

section Append

variable (Accepts : RelaySnapshot → RelayCommand → Prop) {commandId : Option String}
  {o : RelayObservation}

structure Journaled (codec : RelayCodec) (commandId : Option String) (o : RelayObservation)
    (c c' : Chronicle) (event : RelayEvent) : Prop where
  genuine : Genuine codec event
  commandId_eq : event.commandId = commandId
  observation_eq : event.observation = o
  apply_eq : applyRelayEvent codec c.held event = .ok c'.held
  history_eq : c'.history = c.history ++ [event]
  collected_eq : c'.collected = c.collected

theorem Journaled.transition {c c' : Chronicle} (h : Journaled codec commandId o c c' event)
    (hadm : c.held.Admissible o) (hpermitted : Permitted codec origin Accepts c o)
    : Transition codec origin Accepts c c' := by
  have hc' : c' = { c with history := c.history ++ [event], held := c'.held } := by
    cases c'
    simp only [Chronicle.mk.injEq]
    exact ⟨h.history_eq, trivial, h.collected_eq⟩
  rw [hc']
  rw [← h.observation_eq] at hadm hpermitted
  exact .journal h.genuine hadm hpermitted h.apply_eq

structure Accommodates (codec : RelayCodec) (commandId : Option String) (o : RelayObservation)
    (w : World) : Prop where
  calm : w.Calm
  ordinal_lt : w.held.latestOrdinal < U64_MAX
  identifier : ∀ id ∈ commandId, isIdentifier id
  applies : ∀ recordedAtMs, ∃ next,
    applyRelayEvent codec w.held
      (stampEvent codec (w.held.latestOrdinal + 1) recordedAtMs commandId o) = .ok next ∧
    Fits codec next

theorem observationLen_clampObservation (codec : RelayCodec) (o : RelayObservation)
    : codec.observationLen (clampObservation codec o RELAY_OBSERVATION_BYTE_BUDGET)
        ≤ RELAY_OBSERVATION_BYTE_BUDGET := by
  unfold clampObservation
  split
  . assumption
  . exact codec.shorten_le o

theorem eventLen_stampEvent (recordedAtMs : Int) (hordinal : ordinal ≤ U64_MAX)
    (hid : ∀ id ∈ commandId, isIdentifier id)
    (ho : codec.observationLen o ≤ RELAY_OBSERVATION_BYTE_BUDGET)
    : codec.eventLen (stampEvent codec ordinal recordedAtMs commandId o)
        ≤ RELAY_EVENT_BYTE_BUDGET := by
  have hle := codec.eventLen_le (stampEvent codec ordinal recordedAtMs commandId o) rfl rfl
    (codec.digestV2_isRelayDigest _ _ _ _) hordinal hid
  have hbudget : RELAY_OBSERVATION_BYTE_BUDGET + RELAY_EVENT_ENVELOPE_RESERVE
      = RELAY_EVENT_BYTE_BUDGET := by decide
  have hobservation : (stampEvent codec ordinal recordedAtMs commandId o).observation = o := rfl
  rw [hobservation] at hle
  omega

theorem genuine_stampEvent
    (hlen : codec.eventLen (stampEvent codec ordinal recordedAtMs commandId o)
      ≤ RELAY_EVENT_BYTE_BUDGET)
    : Genuine codec (stampEvent codec ordinal recordedAtMs commandId o) :=
  ⟨rfl, hlen⟩

theorem applyRelayEvent_stampEvent {s next : RelaySnapshot}
    (hdigest : isRelayDigest s.latestDigest) (hlt : s.latestOrdinal < U64_MAX)
    (hlen : codec.eventLen (stampEvent codec (s.latestOrdinal + 1) recordedAtMs commandId o)
      ≤ RELAY_EVENT_BYTE_BUDGET)
    (h : s.applyObservation (s.latestOrdinal + 1)
      (codec.digestV2 (s.latestOrdinal + 1) recordedAtMs commandId o) o = .ok next)
    : applyRelayEvent codec s
          (stampEvent codec (s.latestOrdinal + 1) recordedAtMs commandId o)
        = .ok
            { next with
              latestOrdinal := s.latestOrdinal + 1
              latestDigest := codec.digestV2 (s.latestOrdinal + 1) recordedAtMs commandId o } := by
  have hself := (genuine_stampEvent hlen).validateSelf
  have hvalid : validateRelayEvent codec s.latestOrdinal s.latestDigest
      (stampEvent codec (s.latestOrdinal + 1) recordedAtMs commandId o) = .ok () := by
    unfold validateRelayEvent validateRelayDigest
    have hmax : ¬ s.latestOrdinal ≥ U64_MAX := by omega
    simp only [hdigest, ↓reduceIte, hmax, hself]
    simp [stampEvent, RELAY_EVENT_FORMAT_V1, RELAY_EVENT_FORMAT_V2]
  unfold applyRelayEvent
  rw [hvalid]
  simp only [stampEvent, h]

theorem applyObservation_of_not_changesState {digest : String}
    (h : observationChangesState o = false) : s.applyObservation ordinal digest o = .ok s := by
  cases o with
  | sessionUpdate update =>
    cases update <;> first
      | rfl
      | simp [observationChangesState] at h
  | _ => first
    | rfl
    | simp [observationChangesState] at h

theorem stageSnapshot_ne_error {s next : RelaySnapshot} {message : String}
    (happly : applyRelayEvent codec s event = .ok next) (hfits : Fits codec next)
    : stageSnapshot codec s event ≠ .error message := by
  intro h
  unfold stageSnapshot at h
  split at h
  . rw [happly] at h
    simp only [bind, Except.bind] at h
    split at h
    next herror => exact ensureByteBudget_ne_error hfits.compact herror
    split at h
    next herror => exact ensureByteBudget_ne_error hfits.operational herror
    next => cases h
  . cases h

theorem stageSnapshot_eq_ok {staged : Option RelaySnapshot}
    (h : stageSnapshot codec s event = .ok staged)
    : (∃ next, staged = some next ∧ applyRelayEvent codec s event = .ok next) ∨
        staged = none ∧ observationChangesState event.observation = false := by
  unfold stageSnapshot at h
  split at h
  . left
    cases happly : applyRelayEvent codec s event with rw [happly] at h
    | error e => cases h
    | ok next =>
      simp only [bind, Except.bind] at h
      split at h
      . cases h
      split at h
      . cases h
      simp only [pure, Except.pure, Except.ok.injEq] at h
      exact ⟨next, h.symm, rfl⟩
  next hchanges =>
    right
    simp only [pure, Except.pure, Except.ok.injEq] at h
    exact ⟨h.symm, by simpa using hchanges⟩

theorem stageSnapshot_applies {staged : Option RelaySnapshot}
    (hdigest : isRelayDigest s.latestDigest) (hlt : s.latestOrdinal < U64_MAX)
    (hlen : codec.eventLen (stampEvent codec (s.latestOrdinal + 1) recordedAtMs commandId o)
      ≤ RELAY_EVENT_BYTE_BUDGET)
    (h : stageSnapshot codec s (stampEvent codec (s.latestOrdinal + 1) recordedAtMs commandId o)
      = .ok staged)
    : ∃ next,
        applyRelayEvent codec s (stampEvent codec (s.latestOrdinal + 1) recordedAtMs commandId o)
          = .ok next ∧
        staged.elim (applyRelayEvent codec s
          (stampEvent codec (s.latestOrdinal + 1) recordedAtMs commandId o)) .ok = .ok next := by
  rcases stageSnapshot_eq_ok h with ⟨next, rfl, happly⟩ | ⟨rfl, hsame⟩
  . exact ⟨next, happly, rfl⟩
  . have happly := applyRelayEvent_stampEvent hdigest hlt hlen
      (applyObservation_of_not_changesState hsame)
    exact ⟨_, happly, happly⟩

theorem Live.persistWhen_lands {due : Prop} [Decidable due] {ordinal : Nat}
    (h : Live codec origin sessionId w)
    : Lands
        (fun w' => Live codec origin sessionId w' ∧ w'.chronicle = w.chronicle ∧ Shifts w w' ∧
          ¬ (w.Calm ∧ codec.snapshotPrettyLen w.held ≤ RELAY_SNAPSHOT_BYTE_BUDGET))
        (fun w' => Live codec origin sessionId w' ∧ w'.chronicle = w.chronicle ∧ Shifts w w' ∧
          ¬ w.Calm)
        (fun result w' => Live codec origin sessionId w' ∧ w'.chronicle = w.chronicle ∧
          Shifts w w' ∧ (w.Calm → w'.Calm) ∧ result = ordinal)
        ((do
          if due then
            persistSnapshot codec
          pure ordinal : RelayM Nat) w) := by
  split
  . refine lands_bind h.persistSnapshot_lands ?_
    intro _ w' ⟨hlive, hcalm, hsame, hshifts, _⟩
    exact ⟨hlive, hsame, hshifts, hcalm, rfl⟩
  . exact ⟨h, rfl, .refl w, id, rfl⟩

theorem appendRelayEvent_lands {observation : RelayObservation} (h : Live codec origin sessionId w)
    (ho : clampObservation codec observation RELAY_OBSERVATION_BYTE_BUDGET = o)
    (hadm : w.held.Admissible o) (hpermitted : Permitted codec origin Accepts w.chronicle o)
    : Lands
        (fun w' => Live codec origin sessionId w' ∧ Shifts w w' ∧ (w'.chronicle = w.chronicle ∨
            ∃ event, Journaled codec commandId o w.chronicle w'.chronicle event) ∧
          ¬ Accommodates codec commandId o w)
        (fun w' => Recoverable codec origin Accepts sessionId w' ∧ Shifts w w' ∧
          w'.relay.snapshot = w'.held ∧
          (w'.chronicle = w.chronicle ∨
            ∃ event, Journaled codec commandId o w.chronicle w'.chronicle event) ∧
          ¬ w.Calm)
        (fun ordinal w' => Live codec origin sessionId w' ∧ Shifts w w' ∧ (w.Calm → w'.Calm) ∧
          ∃ event, ordinal = event.ordinal ∧
            Journaled codec commandId o w.chronicle w'.chronicle event)
        (appendRelayEvent codec commandId observation w) := by
  obtain ⟨base, hdurable, _⟩ := h.durable
  have hv := hdurable.valid
  have hdigest : isRelayDigest w.held.latestDigest := hv.frontiers.latest.isRelayDigest hv.recorded
  have hfrontier := h.frontierOf_eq
  unfold appendRelayEvent
  apply lands_get_bind
  rw [h.snapshot]
  split
  next hmax =>
    refine ⟨h, .refl w, Or.inl rfl, ?_⟩
    intro hroom
    exact absurd hroom.ordinal_lt (by omega)
  rename_i hmax
  have hlt : w.held.latestOrdinal < U64_MAX := by omega
  rw [ho]
  have hobservation := observationLen_clampObservation codec observation
  rw [ho] at hobservation
  apply lands_epochMillis_bind
  intro recordedAtMs schedule hcalm₁
  have hlive₁ := h.schedule schedule
  apply lands_ofExcept_bind
  . intro message herror
    refine ⟨hlive₁, .of_same rfl rfl, Or.inl rfl, ?_⟩
    intro hroom
    have hlen := eventLen_stampEvent recordedAtMs hlt hroom.identifier hobservation
    exact ensureByteBudget_ne_error hlen herror
  intro _ hbudget
  have hlen := le_of_ensureByteBudget hbudget
  have hg := genuine_stampEvent hlen
  apply lands_ofExcept_bind
  . intro message herror
    refine ⟨hlive₁, .of_same rfl rfl, Or.inl rfl, ?_⟩
    intro hroom
    obtain ⟨next, happly, hfits⟩ := hroom.applies recordedAtMs
    exact stageSnapshot_ne_error happly hfits herror
  intro staged hstaged
  obtain ⟨next, happly, helim⟩ := stageSnapshot_applies hdigest hlt hlen hstaged
  generalize hevent : stampEvent codec (w.held.latestOrdinal + 1) recordedAtMs commandId o = event
    at hlen hg hstaged happly helim
  have hcommand : event.commandId = commandId := by rw [← hevent]; rfl
  have hobserved : event.observation = o := by rw [← hevent]; rfl
  have hjournaled : ∀ c' : Chronicle, c'.history = w.history ++ [event] → c'.held = next →
      c'.collected = w.collected → Journaled codec commandId o w.chronicle c' event :=
    fun c' h1 h2 h3 => ⟨hg, hcommand, hobserved, by rw [h2]; exact happly, h1, h3⟩
  have ha : Appendable codec origin Accepts w.chronicle event next := by
    refine ⟨hg, ?_, happly, (hjournaled _ rfl rfl rfl).transition Accepts hadm hpermitted⟩
    show event.ordinal = frontierOf origin w.history + 1
    rw [hfrontier, ← hevent]
    rfl
  refine lands_bind ((sealActiveSegmentIfNeeded_lands Accepts hlive₁.toConsistent).mono
    (fun _ _ hq => hq) (fun _ hfalse => hfalse.elim) ?_) ?_
  . intro w₂ ⟨hrecoverable, hw₂, hshifts₂, hcalm⟩
    exact ⟨hrecoverable, hshifts₂.of_schedule, hw₂.snapshot_eq_held h.snapshot,
      Or.inl hw₂.chronicle, fun hc => hcalm (hcalm₁ hc)⟩
  intro _ w₂ ⟨hconsistent₂, hw₂, hshifts₂⟩
  have hshifts₂ := hshifts₂.of_schedule
  have hlive₂ : Live codec origin sessionId w₂ :=
    { toConsistent := hconsistent₂, snapshot := hw₂.snapshot_eq_held h.snapshot }
  have ha₂ : Appendable codec origin Accepts w₂.chronicle event next := by
    rw [hw₂.chronicle]
    exact ha
  refine lands_bind ((writeRecord_lands hconsistent₂ ha₂).mono (fun _ _ hq => hq)
    (fun _ hfalse => hfalse.elim) ?_) ?_
  . intro w₃ ⟨hrecoverable, hw₃, hgrown, hcalm⟩
    exact ⟨hrecoverable, Shifts.trans hshifts₂ (.of_grown hw₃.era hgrown),
      hw₃.snapshot_eq_held hlive₂.snapshot, Or.inl (hw₃.chronicle.trans hw₂.chronicle),
      fun hc => hcalm (hw₂.calm (hcalm₁ hc))⟩
  intro _ w₃ hw₃
  rw [helim]
  apply lands_pure_bind
  apply lands_modify_bind
  have hchronicle₃ := hw₃.chronicle
  rw [hw₂.chronicle, hw₂.history] at hchronicle₃
  have hlive₃ := hlive₂.appended ha₂ hw₃ (Nat.succ_pos (codec.eventLen event))
  have hshifts₃ : Shifts w { w₃ with
      relay := publishAppend w₃.relay next event (codec.eventLen event + 1) } :=
    Shifts.trans hshifts₂ (hw₃.shifts _ (publishAppend_frame rfl).1)
  have hcalm₃ (hc : w.Calm) : World.Calm { w₃ with
      relay := publishAppend w₃.relay next event (codec.eventLen event + 1) } := by
    have hc := hw₃.calm (hw₂.calm (hcalm₁ hc))
    exact ⟨hc.steady, hc.writes⟩
  have hdone : ∀ w' : World, w'.chronicle = w₃.chronicle →
      Journaled codec commandId o w.chronicle w'.chronicle event := by
    intro w' hw'
    rw [hw', hchronicle₃]
    exact hjournaled _ rfl rfl rfl
  apply lands_get_bind
  refine hlive₃.persistWhen_lands.mono ?_ ?_ ?_
  . intro ordinal w' ⟨hlive, hsame, hshifts, hcalm, hordinal⟩
    exact ⟨hlive, hshifts₃.trans hshifts, fun hc => hcalm (hcalm₃ hc), event, hordinal,
      hdone w' hsame⟩
  . intro w' ⟨hlive, hsame, hshifts, hno⟩
    refine ⟨hlive, hshifts₃.trans hshifts, Or.inr ⟨event, hdone w' hsame⟩, ?_⟩
    intro hroom
    obtain ⟨next', happly', hfits⟩ := hroom.applies recordedAtMs
    rw [hevent] at happly'
    cases happly.symm.trans happly'
    refine hno ⟨hcalm₃ hroom.calm, ?_⟩
    show codec.snapshotPrettyLen w₃.held ≤ _
    rw [hw₃.held]
    exact hfits.pretty
  . intro w' ⟨hlive, hsame, hshifts, hno⟩
    exact ⟨hlive.toConsistent.recoverable, hshifts₃.trans hshifts, hlive.snapshot,
      Or.inr ⟨event, hdone w' hsame⟩, fun hc => hno (hcalm₃ hc)⟩

end Append

end Hel
