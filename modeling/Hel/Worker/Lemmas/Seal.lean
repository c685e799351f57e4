import Hel.Worker.Lemmas.Persist

/-!
This module contains the rules for operations on the files of the journal and the proof that sealing
the active segment neither fails nor loses an event.
-/

namespace Hel

open DirectoryOp Directory List

open Program (Lands lands_bind lands_get_bind lands_modify_bind lands_ofExcept_bind lands_pure_bind)

variable {E C : World → Prop} {files' : JournalFiles} {inner : List RelayJournalSpan}
  {span : RelayJournalSpan}
  {f : Directory JournalFile JournalContent → Directory JournalFile JournalContent}
  {name : JournalFile} {first last : Nat}

structure World.Undisturbed (w w' : World) : Prop where
  history : w'.history = w.history
  held : w'.held = w.held
  collected : w'.collected = w.collected
  stateFile : w'.disk.stateFile = w.disk.stateFile
  seed : w'.disk.seed = w.disk.seed
  snapshot : w'.relay.snapshot = w.relay.snapshot
  hotEvents : w'.relay.hotEvents = w.relay.hotEvents
  replayCursors : w'.relay.replayCursors = w.relay.replayCursors
  unpersisted : w'.relay.unpersistedJournalBytes = w.relay.unpersistedJournalBytes
  calm : w.Calm → w'.Calm

structure World.Untouched (w w' : World) : Prop extends World.Undisturbed w w' where
  era : w'.era = w.era

namespace World.Undisturbed

variable {w w' w'' : World}

theorem refl (w : World) : w.Undisturbed w :=
  ⟨rfl, rfl, rfl, rfl, rfl, rfl, rfl, rfl, rfl, fun h => h⟩

theorem trans (h : w.Undisturbed w') (h' : w'.Undisturbed w'') : w.Undisturbed w'' where
  history := h'.history.trans h.history
  held := h'.held.trans h.held
  collected := h'.collected.trans h.collected
  stateFile := h'.stateFile.trans h.stateFile
  seed := h'.seed.trans h.seed
  snapshot := h'.snapshot.trans h.snapshot
  hotEvents := h'.hotEvents.trans h.hotEvents
  replayCursors := h'.replayCursors.trans h.replayCursors
  unpersisted := h'.unpersisted.trans h.unpersisted
  calm := h'.calm ∘ h.calm

theorem chronicle (h : w.Undisturbed w') : w'.chronicle = w.chronicle := by
  unfold World.chronicle
  rw [h.history, h.held, h.collected]

theorem snapshot_eq_held (h : w.Undisturbed w') (hsnapshot : w.relay.snapshot = w.held)
    : w'.relay.snapshot = w'.held := by
  rw [h.snapshot, h.held]
  exact hsnapshot

end World.Undisturbed

namespace World.Untouched

variable {w w' w'' : World}

theorem refl (w : World) : w.Untouched w :=
  ⟨.refl w, rfl⟩

theorem trans (h : w.Untouched w') (h' : w'.Untouched w'') : w.Untouched w'' :=
  ⟨h.toUndisturbed.trans h'.toUndisturbed, h'.era.trans h.era⟩

end World.Untouched

section Untouched

variable {codec : RelayCodec} {origin : Origin} {Accepts : RelaySnapshot → RelayCommand → Prop}
  {sessionId : String} {w w' : World} {base : RelaySnapshot}

theorem Durable.undisturbed (h : Durable codec origin sessionId base w) (hw : w.Undisturbed w')
    : Durable codec origin sessionId base w' :=
  h.congr hw.chronicle hw.stateFile hw.seed

theorem Consistent.undisturbed (h : Consistent codec origin sessionId w) (hw : w.Undisturbed w')
    (hsettled : w'.disk.journal.pending = [])
    (hrep : JournalRep origin w.history w.collected w'.disk.journal.files)
    (huntorn : ∀ content, w'.disk.journal.read? .active = some content → content.torn = 0)
    (hspans : SpansRep origin w') : Consistent codec origin sessionId w' := by
  obtain ⟨base, hdurable, hpersisted⟩ := h.durable
  constructor
  . refine ⟨base, hdurable.undisturbed hw, ?_⟩
    rw [hw.unpersisted, hw.held]
    exact hpersisted
  . exact hsettled
  . rw [hw.history, hw.collected]
    exact hrep
  . exact huntorn
  . exact hspans
  . rw [hw.hotEvents, hw.history]
    exact h.hot
  . rw [hw.replayCursors, hw.history]
    exact h.cursors

theorem Consistent.recoverable_of_untouched (h : Consistent codec origin sessionId w)
    (hw : w.Untouched w')
    (hjournal : w'.disk.journal.Survives (JournalRep origin w.history w.collected))
    : Recoverable codec origin Accepts sessionId w' := by
  obtain ⟨base, hdurable, _⟩ := h.durable
  refine ⟨⟨base, hdurable.undisturbed hw.toUndisturbed⟩, ?_⟩
  rw [hw.history, hw.collected]
  exact hjournal.mono (fun _ hrep => Or.inl hrep)

theorem lands_journalStep {Q : Unit → World → Prop} (hcrash : ¬ w.Calm → C w)
    (hok : ∀ w', w.Untouched w' → w'.relay = w.relay → w'.disk.journal = f w.disk.journal → Q () w')
    : Lands E C Q (diskStep (·.mapJournal f) id w) := by
  apply lands_diskStep
  . intro hne
    exact hcrash (fun hcalm => hne hcalm.steady)
  intro schedule hschedule
  refine hok _ ⟨⟨rfl, rfl, rfl, rfl, rfl, rfl, rfl, rfl, rfl, ?_⟩, rfl⟩ rfl rfl
  intro hcalm
  rw [hschedule hcalm]
  exact ⟨hcalm.steady, hcalm.writes⟩

theorem lands_journalStep_bind {β : Type} {R : β → World → Prop} {k : Unit → RelayM β}
    (hcrash : ¬ w.Calm → C w)
    (hok : ∀ w', w.Untouched w' → w'.relay = w.relay → w'.disk.journal = f w.disk.journal →
      Lands E C R (k () w')) : Lands E C R ((diskStep (·.mapJournal f) id >>= k) w) := by
  refine lands_bind (Q := fun _ w' =>
    w.Untouched w' ∧ w'.relay = w.relay ∧ w'.disk.journal = f w.disk.journal) ?_ ?_
  . apply lands_journalStep hcrash
    intro w' hw' hrelay hjournal
    exact ⟨hw', hrelay, hjournal⟩
  . intro _ w' ⟨hw', hrelay, hjournal⟩
    exact hok w' hw' hrelay hjournal

-- A file is written under a temporary name and then renamed; `P` holds after a crash at any time.
theorem lands_publish_bind {β : Type} {R : β → World → Prop}
    {k : Unit → RelayM β} {P : JournalFiles → Prop} {temporary name : JournalFile}
    {content : JournalContent} (hsettled : w.disk.journal.pending = [])
    (hP : P w.disk.journal.files) (hcongr : ∀ files files', P files →
      (∀ name', name' ≠ temporary → files'.get? name' = files.get? name') → P files')
    (hrename : ∀ files, P files → files.get? temporary = some content →
      P (DirectoryOp.apply files (.rename temporary name)))
    (hcrash : ∀ w', w.Untouched w' → w'.disk.journal.Survives P → ¬ w.Calm → C w')
    (hok : ∀ w', w.Untouched w' → w'.relay = w.relay → w'.disk.journal.Survives P →
      (∀ name', w'.disk.journal.files.get? name' = if name' = name then some content
          else if name' = temporary then none
          else w.disk.journal.files.get? name') →
      Lands E C R (k () w'))
    : Lands E C R
        ((writeFile temporary content >>= fun _ =>
          journalOp (.rename temporary name) >>= k) w) := by
  rw [files_of_pending_nil hsettled] at hP
  apply lands_journalStep_bind
  . exact hcrash w (.refl w) (survives_of_pending_nil hsettled hP)
  intro w₁ hw₁ hrelay₁ hjournal₁
  have hstaged := survives_write content hsettled hP hcongr
  rw [← hjournal₁] at hstaged
  apply lands_journalStep_bind
  . intro hcalm
    exact hcrash w₁ hw₁ (hstaged.mono (fun _ h => h.1)) (fun h => hcalm (hw₁.calm h))
  intro w₂ hw₂ hrelay₂ hjournal₂
  apply hok w₂ (hw₁.trans hw₂) (hrelay₂.trans hrelay₁)
  . rw [hjournal₂]
    exact survives_publish hstaged hrename
  intro name'
  rw [hjournal₂, hjournal₁]
  exact files_publish hsettled name'

theorem undisturbed_setGeneration (w : World) (generation invalidations : Nat)
    : w.Undisturbed
        { w with
          relay := { w.relay with journalGeneration := generation }
          invalidations := invalidations } :=
  ⟨rfl, rfl, rfl, rfl, rfl, rfl, rfl, rfl, rfl, fun h => ⟨h.steady, h.writes⟩⟩

theorem untouched_setSpans (w : World) (spans : List RelayJournalSpan)
    : w.Untouched { w with relay := { w.relay with journalSpans := spans } } :=
  ⟨⟨rfl, rfl, rfl, rfl, rfl, rfl, rfl, rfl, rfl, fun h => ⟨h.steady, h.writes⟩⟩, rfl⟩

end Untouched

section Files

variable {origin : Origin} {history : List RelayEvent} {floor : Nat} {files : JournalFiles}
  {content : JournalContent}

def JournalFile.IsTemporary : JournalFile → Prop
  | .activeNew => True
  | .segmentNew _ _ => True
  | _ => False

theorem get?_segment_of_temporary
    (hget : ∀ name', name' ≠ name → files'.get? name' = files.get? name') (hname : name.IsTemporary)
    (first last : Nat) : files'.get? (.segment first last) = files.get? (.segment first last) := by
  apply hget
  intro heq
  rw [← heq] at hname
  exact hname

theorem JournalRep.congr_temporary (h : JournalRep origin history floor files)
    (hget : ∀ name', name' ≠ name → files'.get? name' = files.get? name') (hname : name.IsTemporary)
    : JournalRep origin history floor files' := by
  apply h.congr
  . apply hget
    intro heq
    rw [← heq] at hname
    exact hname
  . exact get?_segment_of_temporary hget hname

def AllSealed (origin : Origin) (history : List RelayEvent) (floor : Nat) (files : JournalFiles) :
    Prop :=
  ∀ ordinal, floor < ordinal → ordinal ≤ frontierOf origin history → SegmentCovers files ordinal

theorem segmentCovers_congr {ordinal : Nat}
    (hsegment : ∀ first last, files'.get? (.segment first last) = files.get? (.segment first last))
    : SegmentCovers files' ordinal ↔ SegmentCovers files ordinal := by
  unfold SegmentCovers
  simp only [hsegment]

theorem JournalRep.rename_active {after : Nat} (h : JournalRep origin history floor files)
    (hr : Numbered RelayEvent.ordinal origin.ordinal history)
    (hstaged : files.get? .activeNew = some content) (hrep : ActiveRep origin history after content)
    (hcovers : ∀ ordinal, floor < ordinal → ordinal ≤ frontierOf origin history →
      SegmentCovers files ordinal ∨ after < ordinal)
    : JournalRep origin history floor
        (DirectoryOp.apply files (.rename .activeNew .active)) := by
  have hsegment : ∀ first last,
      (DirectoryOp.apply files (.rename .activeNew .active)).get? (.segment first last)
        = files.get? (.segment first last) := by
    intro first last
    rw [get?_apply_rename]
    simp [hstaged]
  apply h.replaceActive hrep _ _ _ hr
  . rw [get?_apply_rename]
    simp [hstaged]
  . intro first last content'
    rw [hsegment]
    exact id
  . intro ordinal hlt hle
    rw [segmentCovers_congr hsegment]
    exact hcovers ordinal hlt hle

theorem JournalRep.allSealed (h : JournalRep origin history floor files)
    (hactive : ∃ content, files.get? .active = some content ∧
      content.lines = (between history (first - 1) last).map .record)
    (hsegment : (files.get? (.segment first last)).isSome)
    : AllSealed origin history floor files := by
  intro ordinal hlt hle
  cases h.covers ordinal hlt hle with
  | inl hcovered => exact hcovered
  | inr hcovered =>
  obtain ⟨content, hget, hlines⟩ := hactive
  obtain ⟨content', event, hget', hmem, hordinal⟩ := hcovered
  cases hget.symm.trans hget'
  rw [hlines, mem_map] at hmem
  obtain ⟨event', hmem, heq⟩ := hmem
  rw [JournalLine.record.injEq] at heq
  have hbounds := mem_slice.mp hmem
  rw [heq, hordinal] at hbounds
  exact ⟨first, last, hsegment, by omega, by omega⟩

theorem AllSealed.congr (h : AllSealed origin history floor files)
    (hsegment : ∀ first last, files'.get? (.segment first last) = files.get? (.segment first last))
    : AllSealed origin history floor files' := by
  intro ordinal hlt hle
  rw [segmentCovers_congr hsegment]
  exact h ordinal hlt hle

theorem activeRep_nil (horigin : origin.ordinal ≤ frontierOf origin history)
    : ActiveRep origin history (frontierOf origin history) (.ofEvents []) := by
  constructor
  . exact horigin
  . exact Nat.le_refl _
  . rw [between, slice_of_le (Nat.le_refl _)]
    rfl
  . exact Nat.zero_le _

end Files

section Seal

variable {codec : RelayCodec} {origin : Origin} (Accepts : RelaySnapshot → RelayCommand → Prop)
  {sessionId : String} {w w' : World}

theorem Consistent.recorded (h : Consistent codec origin sessionId w)
    : Recorded codec origin w.history := by
  obtain ⟨base, hdurable, _⟩ := h.durable
  exact hdurable.valid.recorded

theorem SpansRep.sealed
    (h : SpansRep origin w) (content : JournalContent)
    (hspans : w.relay.journalSpans = inner ++ [span]) (hhistory : w'.history = w.history)
    (hspans' : w'.relay.journalSpans
      = inner ++ [{ span with path := .segment span.fileFirstOrdinal span.fileLastOrdinal }])
    (hcontent : content
      = .ofEvents (between w.history (span.fileFirstOrdinal - 1) span.fileLastOrdinal))
    (hactive : w'.disk.journal.files.get? .active = some (.ofEvents []))
    (hsegment : ∀ first last, w'.disk.journal.files.get? (.segment first last)
      = if first = span.fileFirstOrdinal ∧ last = span.fileLastOrdinal then some content
        else w.disk.journal.files.get? (.segment first last)) : SpansRep origin w' := by
  obtain ⟨after, hchain⟩ := h.chain
  have hinner := h.inner
  rw [hspans, dropLast_concat] at hinner
  rw [hspans, spanChain_append] at hchain
  obtain ⟨middle, hfirst, hrep, hrest⟩ := hchain
  constructor
  . refine ⟨after, ?_⟩
    rw [hhistory, hspans', spanChain_append]
    refine ⟨middle, ?_, ?_⟩
    . -- An inner span describes a segment, whose file is still there.
      refine hfirst.congr ?_
      intro other hmem
      have hother := hfirst.rep hmem
      obtain ⟨old, hget, hlines, htorn⟩ := hother.content
      have hpath : other.path = .segment other.fileFirstOrdinal other.fileLastOrdinal := by
        cases hother.path with
        | inl hactive => exact absurd hactive.1 (hinner other hmem)
        | inr hsegment => exact hsegment
      rw [hpath] at hget ⊢
      rw [hsegment]
      split
      next heq =>
        refine ⟨content, rfl, ?_⟩
        rw [hcontent, heq.1, heq.2]
        exact ⟨rfl, Nat.zero_le _⟩
      next => exact ⟨old, hget, hlines, htorn⟩
    . refine ⟨{ hrep with path := Or.inr rfl, content := ⟨content, ?_, ?_⟩ }, hrest⟩
      . rw [hsegment]
        simp
      . rw [hcontent]
        exact ⟨rfl, Nat.zero_le _⟩
  . rw [hspans', dropLast_concat]
    exact hinner
  . intro content' hread hlines
    unfold read? at hread
    cases hactive.symm.trans hread
    exact absurd rfl hlines
  . have hcached := h.cached
    rw [hspans, map_append] at hcached
    rw [hspans', map_append]
    exact hcached

theorem setSpanPath_last (inner : List RelayJournalSpan) (span : RelayJournalSpan)
    (path : JournalFile)
    : setSpanPath (inner ++ [span]) inner.length path = inner ++ [{ span with path := path }] := by
  unfold setSpanPath
  induction inner with
  | nil => rfl
  | cons head rest ih =>
    rw [cons_append, length_cons, modify_succ_cons, ih]
    rfl

theorem sealActiveRelaySegment_lands (h : Consistent codec origin sessionId w)
    (hspans : w.relay.journalSpans = inner ++ [span]) (hpath : span.path = .active)
    : Lands (fun _ => False)
        (fun w' => Recoverable codec origin Accepts sessionId w' ∧ w.Untouched w' ∧ ¬ w.Calm)
        (fun _ w' => Consistent codec origin sessionId w' ∧ w.Untouched w')
        (sealActiveRelaySegment codec inner.length span w) := by
  have hr := h.recorded
  have hrep : SpanRep origin w.history w.disk.journal.files span := by
    obtain ⟨after, hchain⟩ := h.spans.chain
    exact hchain.rep (by simp [hspans])
  let events := between w.history (span.fileFirstOrdinal - 1) span.fileLastOrdinal
  have hcopy : visitRelayJournalFile codec .active .strict copyVisitor w.disk.journal.files []
      = .ok events := by
    have hvisit := hrep.visit hr .strict copyVisitor []
    rw [hpath, foldVisitor_copyVisitor, nil_append] at hvisit
    exact hvisit
  have hsegment : SegmentRep origin w.history span.fileFirstOrdinal span.fileLastOrdinal
      (.ofEvents events) :=
    ⟨hrep.origin_lt, hrep.first_le, hrep.last_le, rfl⟩
  unfold sealActiveRelaySegment
  apply lands_get_bind
  rw [hcopy]
  apply lands_pure_bind
  refine lands_publish_bind (P := JournalRep origin w.history w.collected) h.settled h.rep ?_ ?_ ?_ ?_
  . intro files files' hf hget
    exact hf.congr_temporary hget trivial
  . intro files hf hstaged
    apply hf.addSegment hsegment
    . rw [get?_apply_rename]
      simp [hstaged]
    intro first last
    rw [get?_apply_rename]
    simp [hstaged]
  . intro w' hw' hsurvives hcalm
    exact ⟨h.recoverable_of_untouched hw' hsurvives, hw', hcalm⟩
  intro w₁ hw₁ hrelay₁ hsurvives₁ hfiles₁
  apply lands_journalStep_bind
  . intro hcalm
    exact ⟨h.recoverable_of_untouched hw₁ hsurvives₁, hw₁, fun h => hcalm (hw₁.calm h)⟩
  intro w₂ hw₂ hrelay₂ hjournal₂
  have hw₂ := hw₁.trans hw₂
  have hfiles₂ : w₂.disk.journal.files = w₁.disk.journal.files := by
    rw [hjournal₂, files_sync]
  have hrep₂ : JournalRep origin w.history w.collected w₂.disk.journal.files := by
    rw [hfiles₂]
    exact hsurvives₁.files
  have hsealed : AllSealed origin w.history w.collected w₂.disk.journal.files := by
    obtain ⟨content, hget, hlines, _⟩ := hrep.content
    apply hrep₂.allSealed ⟨content, ?_, hlines⟩ (by simp [hfiles₂, hfiles₁])
    rw [hfiles₂, hfiles₁, ← hget, hpath]
    simp
  refine lands_publish_bind
    (P := fun files => JournalRep origin w.history w.collected files ∧
      AllSealed origin w.history w.collected files) ?_ ⟨hrep₂, hsealed⟩ ?_ ?_ ?_ ?_
  . rw [hjournal₂]
    exact pending_sync _
  . intro files files' ⟨hf, hs⟩ hget
    exact ⟨hf.congr_temporary hget trivial, hs.congr (get?_segment_of_temporary hget trivial)⟩
  . intro files ⟨hf, hs⟩ hstaged
    have hnil : ActiveRep origin w.history (frontierOf origin w.history) (.ofEvents []) :=
      activeRep_nil (by unfold frontierOf; omega)
    refine ⟨hf.rename_active hr.numbered hstaged hnil ?_, ?_⟩
    . intro ordinal hlt hle
      exact Or.inl (hs ordinal hlt hle)
    apply hs.congr
    intro first last
    rw [get?_apply_rename]
    simp [hstaged]
  . intro w' hw' hsurvives hcalm
    exact ⟨h.recoverable_of_untouched (hw₂.trans hw') (hsurvives.mono (fun _ h => h.1)),
      hw₂.trans hw', fun h => hcalm (hw₂.calm h)⟩
  intro w₃ hw₃ hrelay₃ hsurvives₃ hfiles₃
  have hw₃ := hw₂.trans hw₃
  have hspans₃ : w₃.relay.journalSpans = inner ++ [span] := by
    rw [hrelay₃, hrelay₂, hrelay₁, hspans]
  apply lands_modify_bind
  have hw₄ := hw₃.trans (untouched_setSpans w₃ (setSpanPath w₃.relay.journalSpans inner.length
      (.segment span.fileFirstOrdinal span.fileLastOrdinal)))
  apply lands_journalStep
  . intro hcalm
    refine ⟨?_, hw₄, fun h => hcalm (hw₄.calm h)⟩
    exact h.recoverable_of_untouched hw₄ (hsurvives₃.mono (fun _ h => h.1))
  intro w₅ hw₅ hrelay₅ hjournal₅
  have hw₅ := hw₄.trans hw₅
  have hfiles₅ : ∀ name, w₅.disk.journal.files.get? name
      = if name = .active then some (.ofEvents [])
        else if name = .activeNew then none
        else w₁.disk.journal.files.get? name := by
    intro name
    rw [hjournal₅, files_sync]
    show w₃.disk.journal.files.get? name = _
    rw [hfiles₃, hfiles₂]
  refine ⟨h.undisturbed hw₅.toUndisturbed ?_ ?_ ?_ ?_, hw₅⟩
  . rw [hjournal₅]
    exact pending_sync _
  . rw [hjournal₅, files_sync]
    exact hsurvives₃.files.1
  . intro content hread
    unfold read? at hread
    rw [hfiles₅] at hread
    simp only [↓reduceIte, Option.some.injEq] at hread
    rw [← hread]
    rfl
  . refine h.spans.sealed (.ofEvents events) hspans hw₅.history ?_ rfl ?_ ?_
    . rw [hrelay₅]
      show setSpanPath w₃.relay.journalSpans _ _ = _
      rw [hspans₃, setSpanPath_last]
    . rw [hfiles₅]
      simp
    . intro first last
      rw [hfiles₅, hfiles₁]
      simp

theorem findIdx?_active (hinner : ∀ other ∈ inner, other.path ≠ .active)
    (hpath : span.path = .active)
    : (inner ++ [span]).findIdx? (·.path = .active) = some inner.length := by
  induction inner with
  | nil => simp [hpath]
  | cons head rest ih =>
    have hhead := hinner head (by simp)
    have hrest := ih (fun other hmem => hinner other (mem_cons_of_mem _ hmem))
    rw [cons_append, findIdx?_cons]
    simp [hhead, hrest]

theorem lines_ne_nil_of_byteLen {content : JournalContent} (htorn : content.torn = 0)
    (hlen : ¬ content.byteLen codec < RELAY_SEGMENT_BYTE_LIMIT) : content.lines ≠ [] := by
  intro hnil
  apply hlen
  simp [JournalContent.byteLen, hnil, htorn, RELAY_SEGMENT_BYTE_LIMIT]

theorem sealActiveSegmentIfNeeded_lands (h : Consistent codec origin sessionId w)
    : Lands (fun _ => False)
        (fun w' => Recoverable codec origin Accepts sessionId w' ∧ w.Undisturbed w' ∧
          Shifts w w' ∧ ¬ w.Calm)
        (fun _ w' => Consistent codec origin sessionId w' ∧ w.Undisturbed w' ∧ Shifts w w')
        (sealActiveSegmentIfNeeded codec w) := by
  unfold sealActiveSegmentIfNeeded
  apply lands_get_bind
  cases hread : w.disk.journal.read? .active with
  | none => exact ⟨h, .refl w, .refl w⟩
  | some content =>
  by_cases hlen : content.byteLen codec < RELAY_SEGMENT_BYTE_LIMIT
  . simp only [hlen, ↓reduceIte]
    exact ⟨h, .refl w, .refl w⟩
  have hlines := lines_ne_nil_of_byteLen (h.untorn content hread) hlen
  obtain ⟨span, hlast, hpath⟩ := h.spans.last content hread hlines
  obtain ⟨inner, hspans⟩ := getLast?_eq_some_iff.mp hlast
  have hinner := h.spans.inner
  rw [hspans, dropLast_concat] at hinner
  have hindex : w.relay.journalSpans.findIdx? (·.path = .active) = some inner.length := by
    rw [hspans]
    exact findIdx?_active hinner hpath
  have hget : w.relay.journalSpans[inner.length]? = some span := by
    rw [hspans]
    simp
  simp only [hlen, ↓reduceIte, hindex]
  apply lands_modify_bind
  simp only [hget]
  have hw := undisturbed_setGeneration w ((w.relay.journalGeneration + 1) % 2 ^ 64)
    (w.invalidations + 1)
  have hconsistent := h.undisturbed hw h.settled h.rep h.untorn
    (h.spans.congr rfl rfl rfl)
  refine (sealActiveRelaySegment_lands Accepts hconsistent hspans hpath).mono ?_ ?_ ?_
  . intro _ w' ⟨hc, hw'⟩
    exact ⟨hc, hw.trans hw'.toUndisturbed, .of_invalidated hw'.era⟩
  . exact fun _ hfalse => hfalse
  intro w' ⟨hrecoverable, hw', hcalm⟩
  exact ⟨hrecoverable, hw.trans hw'.toUndisturbed, .of_invalidated hw'.era,
    fun h => hcalm (hw.calm h)⟩

end Seal

end Hel
