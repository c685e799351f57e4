import Hel.Worker.Lemmas.Room

/-!
This module contains the proof that garbage collection only removes events and commands that every
reader is done with.
-/

namespace Hel

open Program (Lands lands_bind lands_get_bind lands_modify_bind lands_ofExcept_bind lands_pure_bind)

variable {codec : RelayCodec} {origin : Origin} {sessionId : String} {w w' : World}
  {retainAfter : Nat} {names : List JournalFile} {s : RelaySnapshot}

section Rewrite

variable (Accepts : RelaySnapshot → RelayCommand → Prop) {history : List RelayEvent}
  {files : JournalFiles}

theorem SpanChain.covers {spans : List RelayJournalSpan} {after through ordinal : Nat}
    (h : SpanChain origin history files after through spans) (hr : Recorded codec origin history)
    (hlt : after < ordinal) (hle : ordinal ≤ through)
    : SegmentCovers files ordinal ∨ ActiveCovers files ordinal := by
  induction spans generalizing after with
  | nil =>
    have heq : after = through := h
    omega
  | cons span rest ih =>
    obtain ⟨hrep, hafter, hlast, hfirst, hrest⟩ := h
    by_cases hin : ordinal ≤ span.fileLastOrdinal
    . obtain ⟨content, hget, hlines, _⟩ := hrep.content
      cases hrep.path with
      | inl hactive =>
        right
        have horigin := hrep.origin_lt
        have hfrontier := hrep.last_le
        obtain ⟨event, hmem, hordinal⟩ :=
          hr.numbered.exists (a := ordinal) (by omega) (by unfold frontierOf at hfrontier; omega)
        rw [hactive.1] at hget
        refine ⟨content, event, hget, ?_, hordinal⟩
        rw [hlines, List.mem_map]
        exact ⟨event, mem_slice.mpr ⟨hmem, by omega, by omega⟩, rfl⟩
      | inr hsegment =>
        left
        rw [hsegment] at hget
        exact ⟨span.fileFirstOrdinal, span.fileLastOrdinal, by simp [hget], by omega, hin⟩
    . exact ih hrest (by omega)

theorem mem_keys_isSegment {name : JournalFile} (h : name ∈ names.filter (·.isSegment))
    : ∃ first last, name = .segment first last := by
  rw [List.mem_filter] at h
  cases name with
  | segment first last => exact ⟨first, last, rfl⟩
  | _ => cases h.2

theorem unlinkAll_lands {E C : World → Prop} {P : JournalFiles → Prop}
    (hunlink : ∀ files name, name ∈ names → P files → P (DirectoryOp.apply files (.unlink name)))
    (hP : w.disk.journal.Survives P)
    (hC : ∀ w', w.Untouched w' → w'.disk.journal.Survives P → ¬ w.Calm → C w')
    : Lands E C
        (fun _ w' => w.Untouched w' ∧ w'.relay = w.relay ∧ w'.disk.journal.Survives P)
        (unlinkAll names w) := by
  induction names generalizing w with
  | nil => exact ⟨.refl w, rfl, hP⟩
  | cons name rest ih =>
    unfold unlinkAll
    apply lands_journalStep_bind
    . exact hC w (.refl w) hP
    intro w₁ hw₁ hrelay₁ hjournal₁
    have hP₁ : w₁.disk.journal.Survives P := by
      rw [hjournal₁]
      exact Directory.survives_perform hP (fun _ h => h) (fun files => hunlink files name (by simp))
    refine (ih ?_ hP₁ ?_).mono ?_ (fun _ h => h) (fun _ h => h)
    . intro files other hmem
      exact hunlink files other (List.mem_cons_of_mem _ hmem)
    . intro w' hw' hsurvives hcalm
      exact hC w' (hw₁.trans hw') hsurvives (fun h => hcalm (hw₁.calm h))
    . intro _ w' ⟨hw', hrelay, hsurvives⟩
      exact ⟨hw₁.trans hw', hrelay.trans hrelay₁, hsurvives⟩

theorem rewrittenSpans_cases {events : List RelayEvent}
    (h : Numbered RelayEvent.ordinal retainAfter events)
    (hgenuine : ∀ event ∈ events, Genuine codec event)
    : events = [] ∧ rewrittenSpans retainAfter events = [] ∨
        events ≠ [] ∧ ∃ span, rewrittenSpans retainAfter events = [span] ∧ span.path = .active ∧
          span.fileFirstOrdinal = retainAfter + 1 ∧
          span.fileLastOrdinal = retainAfter + events.length ∧ span.afterOrdinal = retainAfter ∧
          span.fileFirstPreviousDigest = some "" := by
  cases events with
  | nil => exact Or.inl ⟨rfl, rfl⟩
  | cons first rest =>
  right
  refine ⟨by simp, ?_⟩
  cases hlast : (first :: rest).getLast? with
  | none => simp at hlast
  | some last =>
  obtain ⟨inner, heq⟩ := List.getLast?_eq_some_iff.mp hlast
  have hnumbered := h
  rw [heq, numbered_append] at hnumbered
  unfold rewrittenSpans
  simp only [List.head?_cons, hlast]
  refine ⟨_, rfl, rfl, h.1, ?_, rfl, ?_⟩
  . rw [heq, List.length_append, List.length_singleton]
    exact hnumbered.2.1
  . rw [(hgenuine first (by simp)).previousDigest]

theorem rewrittenSpans_rep (hr : Recorded codec origin w.history)
    (horigin : origin.ordinal ≤ retainAfter) (hle : retainAfter ≤ frontierOf origin w.history)
    (hspans : w.relay.journalSpans = rewrittenSpans retainAfter
      (between w.history retainAfter (frontierOf origin w.history)))
    (hactive : w.disk.journal.files.get? .active
      = some (.ofEvents (between w.history retainAfter (frontierOf origin w.history))))
    : SpansRep origin w := by
  have hnumbered : Numbered RelayEvent.ordinal retainAfter
      (between w.history retainAfter (frontierOf origin w.history)) :=
    numbered_slice hr.numbered horigin
  have hlength : (between w.history retainAfter (frontierOf origin w.history)).length
      = frontierOf origin w.history - retainAfter :=
    hr.numbered.length_slice horigin (Nat.le_refl _)
  cases rewrittenSpans_cases hnumbered (genuine_between hr) with
  | inl hnil =>
    rw [hnil.2] at hspans
    constructor
    . rw [hspans]
      exact ⟨_, rfl⟩
    . rw [hspans]
      nofun
    . intro content hread hlines
      unfold Directory.read? at hread
      rw [hactive, hnil.1, Option.some.injEq] at hread
      rw [← hread] at hlines
      exact absurd rfl hlines
    . rw [hspans]
      simp
  | inr hone =>
  obtain ⟨hne, span, hsingle, hpath, hfirst, hlast, hafter, hprevious⟩ := hone
  rw [hsingle] at hspans
  have hpos : 0 < (between w.history retainAfter (frontierOf origin w.history)).length :=
    List.length_pos_iff.mpr hne
  have hlast' : span.fileLastOrdinal = frontierOf origin w.history := by omega
  constructor
  . refine ⟨retainAfter, ?_⟩
    rw [hspans]
    refine ⟨?_, hafter, by omega, by omega, hlast'⟩
    constructor
    . omega
    . omega
    . omega
    . exact Or.inl ⟨hpath, hlast'⟩
    . rw [hpath, hlast', hfirst, Nat.add_sub_cancel]
      exact ⟨_, hactive, rfl, Nat.zero_le _⟩
    . intro digest hdigest
      rw [hprevious, Option.some.injEq] at hdigest
      exact hdigest.symm
  . rw [hspans]
    nofun
  . intro content _ _
    rw [hspans]
    exact ⟨span, rfl, hpath⟩
  . rw [hspans]
    simp

theorem retainedThrough_bounds (h : Frontiers origin history s) (hr : Recorded codec origin history)
    : origin.ordinal ≤ s.retainedThrough ∧ s.retainedThrough ≤ s.latestOrdinal := by
  have hack := (h.acknowledged.bounds hr).1
  have hfloor := (h.floor.bounds hr).1
  have hle := h.acknowledged_le
  unfold RelaySnapshot.retainedThrough
  omega

theorem Live.retained_bounds (h : Live codec origin sessionId w)
    : origin.ordinal ≤ w.held.retainedThrough ∧
        w.held.retainedThrough ≤ frontierOf origin w.history := by
  rw [h.frontierOf_eq]
  exact retainedThrough_bounds h.valid.frontiers h.valid.recorded

-- While its journal is rewritten, no older plan of the relay is valid.
def World.collecting (w : World) (retainAfter : Nat) : World :=
  { w with
    relay := { w.relay with journalGeneration := (w.relay.journalGeneration + 1) % 2 ^ 64 }
    collected := retainAfter
    invalidations := w.invalidations + 1 }

theorem Live.collect (h : Live codec origin sessionId w)
    (hretain : retainAfter = w.held.retainedThrough)
    (hunpersisted : w.relay.unpersistedJournalBytes = 0)
    (hcovers : ∀ ordinal, retainAfter < ordinal → ordinal ≤ frontierOf origin w.history →
      SegmentCovers w.disk.journal.files ordinal ∨ ActiveCovers w.disk.journal.files ordinal)
    : Live codec origin sessionId (w.collecting retainAfter) := by
  obtain ⟨base, hdurable, hpersisted⟩ := h.durable
  have hbounds := h.retained_bounds
  rw [← hretain, h.frontierOf_eq] at hbounds
  constructor
  . constructor
    . refine ⟨base, ?_, hpersisted⟩
      constructor
      . exact ⟨hdurable.valid.recorded, hdurable.valid.latest_eq, hdurable.valid.frontiers,
          hdurable.valid.sound, hdurable.valid.bounded, hdurable.valid.steady,
          fun _ => Nat.le_of_eq hretain⟩
      . exact hdurable.identity
      . exact hdurable.stored
      . exact hdurable.frontiers
      . exact hdurable.replay
      . rw [hpersisted hunpersisted]
        exact hbounds.2
      . exact hbounds.1
      . rw [hdurable.base_eq (hpersisted hunpersisted)]
        exact fun _ => Nat.le_of_eq hretain
      . exact hdurable.retained_le
    . exact h.settled
    . exact { h.rep with covers := hcovers }
    . exact h.untorn
    . exact h.spans.congr rfl rfl rfl
    . exact h.hot
    . exact h.cursors
  . exact h.snapshot

theorem evolves_of_collecting (hretain : retainAfter = w.held.retainedThrough)
    (hw : (w.collecting retainAfter).Untouched w')
    : Evolves codec origin Accepts w.chronicle w'.chronicle := by
  rw [hw.chronicle, hretain]
  exact .single .collect

theorem Live.halted_of_collecting (h : Live codec origin sessionId (w.collecting retainAfter))
    (hretain : retainAfter = w.held.retainedThrough)
    (hw : (w.collecting retainAfter).Untouched w')
    (hsurvives : w'.disk.journal.Survives (JournalRep origin w.history retainAfter))
    (hcalm : ¬ (w.collecting retainAfter).Calm) : Halted codec origin Accepts sessionId w w' where
  recoverable := h.toConsistent.recoverable_of_untouched hw hsurvives
  snapshot := hw.snapshot_eq_held h.snapshot
  evolves := evolves_of_collecting Accepts hretain hw
  shifts := .of_invalidated hw.era
  reason := fun hc => hcalm ⟨hc.steady, hc.writes⟩

theorem Live.chain_start_le {after : Nat} (h : Live codec origin sessionId w)
    (hchain : SpanChain origin w.history w.disk.journal.files after (frontierOf origin w.history)
      w.relay.journalSpans)
    (hfloor : journalFloor w.relay < retainAfter) (hle : retainAfter ≤ frontierOf origin w.history)
    : after ≤ retainAfter := by
  unfold journalFloor at hfloor
  cases hspans : w.relay.journalSpans with
  | nil =>
    rw [hspans, List.head?_nil] at hfloor
    dsimp only at hfloor
    rw [h.snapshot, ← h.frontierOf_eq] at hfloor
    omega
  | cons span rest =>
    rw [hspans, List.head?_cons] at hfloor
    rw [hspans] at hchain
    have := hchain.2.1
    dsimp only at hfloor
    omega

-- The active file holds everything, so the segments may go one by one.
theorem JournalRep.unlink_segment {collected first last : Nat} {active : JournalContent}
    (h : JournalRep origin history collected files) (hget : files.get? .active = some active)
    (hactive : ActiveRep origin history collected active) (hr : Recorded codec origin history)
    : JournalRep origin history collected (DirectoryOp.apply files (.unlink (.segment first last))) ∧
      (DirectoryOp.apply files (.unlink (.segment first last))).get? .active = some active := by
  have hget' : (DirectoryOp.apply files (.unlink (.segment first last))).get? .active
      = some active := by
    rw [DirectoryOp.get?_apply_unlink]
    simp only [reduceCtorEq, ↓reduceIte]
    exact hget
  refine ⟨h.replaceActive hactive hget' ?_ ?_ hr.numbered, hget'⟩
  . intro first' last' content hsome
    rw [DirectoryOp.get?_apply_unlink] at hsome
    split at hsome
    . cases hsome
    exact hsome
  . intro ordinal hlt _
    exact Or.inr hlt

theorem rewriteRelayJournal_does (h : Live codec origin sessionId w)
    (hretain : retainAfter = w.held.retainedThrough)
    (hunpersisted : w.relay.unpersistedJournalBytes = 0)
    (hfloor : journalFloor w.relay < retainAfter)
    : Does codec origin Accepts sessionId True
        (fun _ w' => w'.chronicle = { w.chronicle with collected := retainAfter } ∧
          w'.relay.unpersistedJournalBytes = 0)
        w (rewriteRelayJournal codec retainAfter) := by
  have hr := h.toConsistent.recorded
  have hbounds := h.retained_bounds
  rw [← hretain] at hbounds
  obtain ⟨after, hchain⟩ := h.spans.chain
  have hafter := h.chain_start_le hchain hfloor hbounds.2
  have hrewrite := rewriteSpans_eq_ok hr retainAfter hchain
  rw [Nat.max_eq_left hafter, Nat.max_eq_right hbounds.2] at hrewrite
  have hnil : between w.history retainAfter retainAfter = [] := slice_of_le (Nat.le_refl _)
  rw [hnil] at hrewrite
  unfold Does rewriteRelayJournal
  apply lands_modify_bind
  apply lands_get_bind
  dsimp only
  rw [hrewrite]
  apply lands_pure_bind
  apply lands_modify_bind
  have hlive₁ := h.collect hretain hunpersisted
    (fun ordinal hlt hle => hchain.covers hr (Nat.lt_of_le_of_lt hafter hlt) hle)
  let kept := between w.history retainAfter (frontierOf origin w.history)
  have hactive : ActiveRep origin w.history retainAfter (.ofEvents kept) :=
    ⟨hbounds.1, hbounds.2, rfl, Nat.zero_le _⟩
  show Lands _ _ _ ((writeFile .activeNew _ >>= fun _ =>
    journalOp (.rename .activeNew .active) >>= _) (w.collecting retainAfter))
  refine lands_publish_bind (P := JournalRep origin w.history retainAfter) hlive₁.settled
    hlive₁.rep ?_ ?_ (fun _ => hlive₁.halted_of_collecting Accepts hretain) ?_
  . intro files files' hf hget
    exact hf.congr_temporary hget trivial
  . intro files hf hstaged
    refine hf.rename_active hr.numbered hstaged hactive ?_
    intro ordinal hlt _
    exact Or.inr hlt
  intro w₂ hw₂ hrelay₂ hsurvives₂ hfiles₂
  apply lands_modify_bind
  have hw₃ := hw₂.trans (untouched_setSpans w₂ (rewrittenSpans retainAfter kept))
  apply lands_journalStep_bind
  . intro hcalm
    exact hlive₁.halted_of_collecting Accepts hretain hw₃ hsurvives₂ (fun hc => hcalm (hw₃.calm hc))
  intro w₄ hw₄ hrelay₄ hjournal₄
  have hw₄ := hw₃.trans hw₄
  apply lands_get_bind
  have hunlink : ∀ files name, name ∈ w₄.disk.journal.files.keys.filter (·.isSegment) →
      JournalRep origin w.history retainAfter files ∧ files.get? .active = some (.ofEvents kept) →
      JournalRep origin w.history retainAfter (DirectoryOp.apply files (.unlink name)) ∧
        (DirectoryOp.apply files (.unlink name)).get? .active = some (.ofEvents kept) := by
    intro files name hmem ⟨hf, hget⟩
    obtain ⟨first, last, rfl⟩ := mem_keys_isSegment hmem
    exact hf.unlink_segment hget hactive hr
  have hsurvives₄ : w₄.disk.journal.Survives (fun files =>
      JournalRep origin w.history retainAfter files ∧ files.get? .active = some (.ofEvents kept)) := by
    rw [hjournal₄]
    refine Directory.survives_of_pending_nil rfl ⟨hsurvives₂.files, ?_⟩
    show w₂.disk.journal.files.get? .active = _
    rw [hfiles₂]
    rfl
  refine lands_bind (unlinkAll_lands hunlink hsurvives₄ ?_) ?_
  . intro w' hw' hsurvives hcalm
    exact hlive₁.halted_of_collecting Accepts hretain (hw₄.trans hw') (hsurvives.mono (fun _ h => h.1))
      (fun hc => hcalm (hw₄.calm hc))
  intro _ w₅ ⟨hw₅, hrelay₅, hsurvives₅⟩
  have hw₅ := hw₄.trans hw₅
  apply lands_journalStep
  . intro hcalm
    exact hlive₁.halted_of_collecting Accepts hretain hw₅ (hsurvives₅.mono (fun _ h => h.1))
      (fun hc => hcalm (hw₅.calm hc))
  intro w₆ hw₆ hrelay₆ hjournal₆
  have hw₆ := hw₅.trans hw₆
  have hactive₆ : w₆.disk.journal.files.get? .active = some (.ofEvents kept) := by
    rw [hjournal₆, Directory.files_sync]
    exact hsurvives₅.files.2
  have hhistory₆ : w₆.history = w.history := hw₆.history
  have hspans₆ : SpansRep origin w₆ := by
    apply rewrittenSpans_rep
    . rw [hhistory₆]
      exact hr
    . exact hbounds.1
    . rw [hhistory₆]
      exact hbounds.2
    . rw [hhistory₆, hrelay₆, hrelay₅, hrelay₄]
    . rw [hhistory₆]
      exact hactive₆
  have hlive₆ : Live codec origin sessionId w₆ := by
    refine ⟨hlive₁.toConsistent.undisturbed hw₆.toUndisturbed ?_ ?_ ?_ hspans₆,
      hw₆.snapshot_eq_held hlive₁.snapshot⟩
    . rw [hjournal₆]
      rfl
    . rw [hjournal₆, Directory.files_sync]
      exact hsurvives₅.files.1
    . intro content hread
      unfold Directory.read? at hread
      cases hactive₆.symm.trans hread
      rfl
  refine ⟨⟨⟨hlive₆, evolves_of_collecting Accepts hretain hw₆, ?_⟩, .of_invalidated hw₆.era⟩, ?_, ?_⟩
  . intro hc
    apply hw₆.calm
    exact ⟨hc.steady, hc.writes⟩
  . rw [hw₆.chronicle]
    rfl
  . rw [hw₆.unpersisted]
    exact hunpersisted

end Rewrite

section Collect

variable {Accepts : RelaySnapshot → RelayCommand → Prop}

theorem prune_of_isEmpty (h : (prunableCommandIds s s.retainedThrough).isEmpty) : prune s = s := by
  unfold prune
  rw [List.isEmpty_iff.mp h]
  rfl

theorem collectEvents_does (h : Live codec origin sessionId w)
    : Does codec origin Accepts sessionId
        (codec.snapshotPrettyLen w.held ≤ RELAY_SNAPSHOT_BYTE_BUDGET)
        (fun _ w' => w'.history = w.history ∧ w'.held = w.held)
        w (collectEvents codec w.held.retainedThrough) := by
  have hrewrite : ∀ w₁, Live codec origin sessionId w₁ → w₁.chronicle = w.chronicle →
      w₁.relay.unpersistedJournalBytes = 0 →
      journalFloor w₁.relay < w.held.retainedThrough →
      Does codec origin Accepts sessionId
        (codec.snapshotPrettyLen w.held ≤ RELAY_SNAPSHOT_BYTE_BUDGET)
        (fun _ w' => w'.history = w.history ∧ w'.held = w.held)
        w₁ (rewriteRelayJournal codec w.held.retainedThrough) := by
    intro w₁ hlive hchronicle hunpersisted hfloor
    simp only [World.chronicle, Chronicle.mk.injEq] at hchronicle
    refine (rewriteRelayJournal_does Accepts hlive (by rw [hchronicle.2.1]) hunpersisted hfloor).mono
      (fun _ _ => trivial) ?_
    rintro _ w' _ ⟨hw', _⟩
    simp only [World.chronicle, Chronicle.mk.injEq] at hw'
    exact ⟨hw'.1.trans hchronicle.1, hw'.2.1.trans hchronicle.2.1⟩
  unfold collectEvents
  apply does_get_bind
  split
  next hfloor =>
    dsimp only
    split
    next =>
      refine does_bind (persistSnapshot_does h) ?_
      rintro _ w₁ hadvanced ⟨hchronicle, hrelay⟩
      apply hrewrite w₁ hadvanced.live hchronicle
      . rw [hrelay]
      unfold journalFloor at hfloor ⊢
      rw [hrelay]
      exact hfloor
    next hzero => exact hrewrite w h rfl (by omega) hfloor
  next => exact does_pure h ⟨rfl, rfl⟩

theorem collectCommands_does (Accepts : RelaySnapshot → RelayCommand → Prop)
    (h : Live codec origin sessionId w)
    : Does codec origin Accepts sessionId
        (codec.snapshotPrettyLen (prune w.held) ≤ RELAY_SNAPSHOT_BYTE_BUDGET)
        (fun _ w' => w'.history = w.history ∧ w'.held = prune w.held)
        w (collectCommands codec w.held.retainedThrough) := by
  unfold collectCommands
  apply does_get_bind
  dsimp only
  rw [h.snapshot]
  split
  next =>
    have hforget : Evolves codec origin Accepts w.chronicle { w.chronicle with held := prune w.held } :=
      forget_evolves (nodup_prunableCommandIds _ _) (fun _ => mem_prunableCommandIds)
    refine (commitSnapshot_does h hforget).mono (fun _ hfits => hfits) ?_
    rintro _ w' _ ⟨hw', _⟩
    simp only [World.chronicle, Chronicle.mk.injEq] at hw'
    exact ⟨hw'.1, hw'.2.1⟩
  next hnone =>
    refine does_pure h ⟨rfl, ?_⟩
    rw [prune_of_isEmpty]
    simp only [not_or, Bool.not_eq_true', Bool.not_eq_false] at hnone
    exact hnone.1

theorem garbageCollectRelayHistory_does (h : Live codec origin sessionId w)
    : Does codec origin Accepts sessionId (Room codec 1 w.held)
        (fun _ w' => w'.history = w.history ∧ w'.held = prune w.held)
        w (garbageCollectRelayHistory codec) := by
  unfold garbageCollectRelayHistory
  apply does_get_bind
  dsimp only
  rw [h.snapshot]
  refine does_bind ((collectEvents_does h).pre (fun _ hroom => hroom.fits.pretty)) ?_
  intro _ w₁ hadvanced₁ ⟨hhistory₁, hheld₁⟩
  have hcommands := collectCommands_does Accepts hadvanced₁.live
  rw [hheld₁] at hcommands
  refine does_bind (hcommands.pre ?_) ?_
  . intro _ hroom
    exact (hroom.step (.prune w.held)).fits.pretty
  intro _ w₂ hadvanced₂ ⟨hhistory₂, hheld₂⟩
  refine does_modifyRelay hadvanced₂.live rfl rfl ?_ hadvanced₂.live.cursors rfl rfl
    ⟨hhistory₂.trans hhistory₁, hheld₂⟩
  intro event hmem
  exact hadvanced₂.live.hot event (List.mem_of_mem_filter hmem)

end Collect

end Hel
