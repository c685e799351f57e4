import Hel.Worker.Lemmas.Recover
import Hel.Worker.Lemmas.Record

/-!
This module contains the specification of opening a relay from its directory.
-/

namespace Hel

open List

variable {codec : RelayCodec} {origin : Origin} {Accepts : RelaySnapshot → RelayCommand → Prop}
  {sessionId : String} {w w' : World} {base : RelaySnapshot} {spans : List RelayJournalSpan}

section Journal

variable {history : List RelayEvent} {files : JournalFiles} {base held : RelaySnapshot}
  {floor : Nat}

theorem SpanChain.getLast? {after through : Nat}
    (h : SpanChain origin history files after through spans)
    : (spans.getLast?.map (·.fileLastOrdinal)).getD after = through := by
  induction spans generalizing after with
  | nil => exact h
  | cons span rest ih =>
    have hrest := ih h.2.2.2.2
    cases rest with
    | nil => exact hrest
    | cons next rest =>
    rw [getLast?_cons_cons]
    cases hlast : (next :: rest).getLast? with
    | none => simp at hlast
    | some last =>
      rw [hlast] at hrest
      exact hrest

structure Reopened (origin : Origin) (history : List RelayEvent) (files : JournalFiles)
    (base held : RelaySnapshot) (opened : OpenedJournal) : Prop where
  snapshot : opened.snapshot = held
  chain : SpanChain origin history files base.retainedThrough (frontierOf origin history) opened.spans
  inner : ∀ span ∈ opened.spans.dropLast, span.path ≠ .active
  last : ∀ content, files.get? .active = some content → content.lines ≠ [] →
    ∃ span, opened.spans.getLast? = some span ∧ span.path = .active
  uncached : ∀ span ∈ opened.spans, span.fileFirstPreviousDigest = none
  hot : ∀ event ∈ opened.hotEvents, event ∈ history
  stale : opened.staleActive = none

theorem SpanRep.last_of_active {span : RelayJournalSpan} (h : SpanRep origin history files span)
    (hpath : span.path = .active) : span.fileLastOrdinal = frontierOf origin history := by
  rcases h.path with hactive | hsegment
  . exact hactive.2
  . rw [hpath] at hsegment
    cases hsegment

theorem recentTail_eq_ok (hr : Recorded codec origin history)
    (hassembled : Assembled origin history files base.retainedThrough (frontierOf origin history)
      spans)
    (hlatest : held.latestOrdinal = frontierOf origin history) {tail : List RelayEvent}
    (htail : Tail history base.latestOrdinal (frontierOf origin history) [] tail)
    (hle : base.latestOrdinal ≤ frontierOf origin history)
    : ∃ hotEvents, recentTail codec files held spans tail = .ok hotEvents ∧
        (∀ event ∈ hotEvents, event ∈ history) ∧
        (base.retainedThrough < frontierOf origin history →
          ∃ event, hotEvents.getLast? = some event ∧ event.ordinal = frontierOf origin history) := by
  unfold recentTail
  split
  next =>
    have hcapacity : ([] : List RelayEvent).length < RELAY_HOT_EVENT_CAPACITY := by decide
    obtain ⟨result, hresult, htrue, _, hlast⟩ := recentEvents_eq_ok
      hr (fun span hmem => hassembled.chain.rep (mem_reverse.mp hmem)) hcapacity
    refine ⟨result, hresult, ?_, ?_⟩
    . intro event hmem
      exact (htrue event hmem).resolve_left not_mem_nil
    intro hlt
    have hspan := hassembled.chain.getLast?
    cases hget : spans.getLast? with rw [hget] at hspan
    | none =>
      simp only [Option.map_none, Option.getD_none] at hspan
      omega
    | some span =>
      simp only [Option.map_some, Option.getD_some] at hspan
      rw [hlatest] at hlast
      apply hlast rfl span
      . rw [head?_reverse]
        exact hget
      . exact hassembled.wide span (mem_of_getLast? hget)
      . exact hspan
  next hfull =>
    refine ⟨tail, rfl, ?_, ?_⟩
    . intro event hmem
      exact (htail.true_events event hmem).resolve_left not_mem_nil
    intro _
    apply htail.last
    by_contra hge
    rw [htail.same (by omega)] at hfull
    exact hfull (by decide)

theorem frontierUnread_eq_none (hr : Recorded codec origin history)
    (hchain : OnChain origin history held.latestOrdinal held.latestDigest)
    {hotEvents : List RelayEvent} (hhot : ∀ event ∈ hotEvents, event ∈ history) {retained : Nat}
    (hlast : retained < held.latestOrdinal →
      ∃ event, hotEvents.getLast? = some event ∧ event.ordinal = held.latestOrdinal)
    : frontierUnread retained held hotEvents = none := by
  unfold frontierUnread
  split
  next hlt =>
    obtain ⟨event, hevent, hordinal⟩ := hlast hlt
    have hmem := hhot event (mem_of_getLast? hevent)
    have hdigest : event.digest = held.latestDigest :=
      OnChain.unique (Or.inr ⟨event, hmem, hordinal, rfl⟩) hr hchain
    rw [hevent]
    simp [hordinal, hdigest]
  next => rfl

theorem placeActive_eq {fileSpans spans : List RelayJournalSpan}
    (hspans : FileSpans origin history files fileSpans)
    (hassembled : Assembled origin history files base.retainedThrough (frontierOf origin history)
      spans)
    : ∃ placed, placeActive fileSpans spans (frontierOf origin history) = (placed, none) ∧
        SpanChain origin history files base.retainedThrough (frontierOf origin history) placed ∧
        (∀ span ∈ placed.dropLast, span.path ≠ .active) ∧
        (∀ content, files.get? .active = some content → content.lines ≠ [] →
          ∃ span, placed.getLast? = some span ∧ span.path = .active) ∧
        ∀ span ∈ placed, span.fileFirstPreviousDigest = none := by
  have hinner : ∀ span ∈ spans.dropLast, span.path ≠ .active := by
    intro span hmem hpath
    have hlt := hassembled.lt_of_mem_dropLast hmem
    have hrep := hassembled.chain.rep (dropLast_subset _ hmem)
    rw [hrep.last_of_active hpath] at hlt
    exact Nat.lt_irrefl _ hlt
  unfold placeActive
  split
  next hnone =>
    refine ⟨spans, rfl, hassembled.chain, hinner, ?_, hassembled.uncached⟩
    intro content hget hlines
    obtain ⟨span, hmem, hpath⟩ := hspans.active content hget hlines
    rw [find?_eq_none] at hnone
    exact absurd (hnone span hmem) (by simp [hpath])
  rename_i activeFile hfind
  have hmem := mem_of_find?_eq_some hfind
  have hpath : activeFile.path = .active := by
    have := find?_some hfind
    simpa using this
  have hrep := hspans.rep activeFile hmem
  have hlast := hrep.last_of_active hpath
  split
  next hany =>
    refine ⟨spans, rfl, hassembled.chain, hinner, ?_, hassembled.uncached⟩
    intro _ _ _
    rw [any_eq_true] at hany
    obtain ⟨span, hspan, hactive⟩ := hany
    simp only [decide_eq_true_eq] at hactive
    have hne : spans ≠ [] := ne_nil_of_mem hspan
    refine ⟨spans.getLast hne, getLast?_eq_some_getLast hne, ?_⟩
    rw [← dropLast_concat_getLast hne, mem_append, mem_singleton] at hspan
    rcases hspan with hspan | heq
    . exact absurd hactive (hinner span hspan)
    . rw [← heq]
      exact hactive
  rename_i hnone
  refine ⟨_, rfl, ?_, ?_, ?_, ?_⟩
  . rw [spanChain_append]
    refine ⟨frontierOf origin history, hassembled.chain, hrep.toSpanRep.setAfter _, rfl, ?_, ?_, ?_⟩
    . exact Nat.le_of_eq hlast.symm
    . have hfirst := hrep.first_le
      dsimp only
      omega
    . exact hlast
  . intro span hspan hactive
    rw [dropLast_concat] at hspan
    apply hnone
    rw [any_eq_true]
    exact ⟨span, hspan, by simp [hactive]⟩
  . intro _ _ _
    exact ⟨_, getLast?_concat, hpath⟩
  . rw [forall_mem_append, forall_mem_singleton]
    exact ⟨hassembled.uncached, hrep.uncached⟩

section

variable (hf : Frontiers origin history base)

include hf

theorem Frontiers.retained
    : OnChain origin history base.retainedThrough base.retainedDigest ∧
        base.retainedThrough ≤ base.latestOrdinal := by
  refine ⟨?_, Nat.le_trans (Nat.min_le_left _ _) hf.acknowledged_le⟩
  unfold RelaySnapshot.retainedThrough RelaySnapshot.retainedDigest
  split
  next hle =>
    rw [Nat.min_eq_left hle]
    exact hf.acknowledged
  next hlt =>
    rw [Nat.min_eq_right (by omega)]
    exact hf.floor

theorem frontierMissing_eq_none {latest : Nat} (hlatest : base.latestOrdinal ≤ latest)
    : frontierMissing base latest = none := by
  have hack := hf.acknowledged_le
  have hfloor := hf.floor_le
  have hle : ∀ ordinal, ordinal ≤ base.latestOrdinal → ¬ ordinal > latest := by
    intro ordinal hordinal
    omega
  unfold frontierMissing
  simp only [Nat.not_lt.mpr hlatest, hle _ hack, hle _ hfloor, decide_false, Bool.and_false,
    Bool.false_eq_true, ↓reduceIte]

variable (hr : Recorded codec origin history)

include hr

theorem frontierConflict_eq_none : frontierConflict base = none := by
  have hretained := hf.retained.1
  have hsame : ∀ ordinal digest, OnChain origin history ordinal digest →
      (decide (ordinal = base.retainedThrough) && decide (digest ≠ base.retainedDigest)) = false := by
    intro ordinal digest hchain
    by_cases heq : ordinal = base.retainedThrough
    . rw [heq] at hchain
      have hdigest := hchain.unique hr hretained
      simp [hdigest]
    . simp [heq]
  unfold frontierConflict
  simp only [hsame _ _ hf.latest, hsame _ _ hf.acknowledged, hsame _ _ hf.floor,
    Bool.false_eq_true, ↓reduceIte]

theorem Frontiers.retained_lt
    : base.retainedThrough < frontierOf origin history ∨ history = [] ∧
        base.retainedThrough = frontierOf origin history := by
  have hretained := hf.retained.2
  have hlatest := (hf.latest.bounds hr).2
  have hfloor := hf.floor_lt
  have hmin : base.retainedThrough ≤ base.recoveryFloorOrdinal := Nat.min_le_right _ _
  unfold frontierOf
  by_cases hlt : base.retainedThrough < origin.ordinal + history.length
  . exact Or.inl hlt
  right
  have hlength : history.length = 0 := by omega
  exact ⟨length_eq_zero_iff.mp hlength, by omega⟩

variable (hrep : JournalRep origin history floor files)

include hrep in
theorem kept_of_readRelayJournal (hfloor : floor ≤ base.latestOrdinal) {opened : OpenedJournal}
    (h : readRelayJournal codec files base = .ok opened)
    : ∀ ordinal, base.retainedThrough < ordinal → ordinal ≤ frontierOf origin history →
        Kept files ordinal := by
  intro ordinal hlow hhigh
  by_cases hnew : floor < ordinal
  . exact hrep.covers ordinal hnew hhigh
  obtain ⟨fileSpans, hfileSpans, hspans⟩ := fileSpans_of_rep hr hrep
  unfold readRelayJournal at h
  rw [hfileSpans] at h
  dsimp only at h
  rw [frontierConflict_eq_none hf hr] at h
  unfold recoverJournal at h
  dsimp only at h
  split at h
  . cases h
  rename_i spans hassemble
  split at h
  . cases h
  rename_i hmissing
  have hreach : base.latestOrdinal ≤ journalLatest fileSpans base.retainedThrough := by
    by_contra hlt
    unfold frontierMissing at hmissing
    rw [if_pos (by omega)] at hmissing
    cases hmissing
  obtain ⟨span, hmem, hfirst, hlast⟩ := kept_of_assembleSpans hassemble (Nat.le_refl _)
    ordinal hlow (by omega)
  exact (hspans.rep span hmem).kept hr hfirst hlast

variable (hkept : ∀ ordinal, base.retainedThrough < ordinal → ordinal ≤ frontierOf origin history →
  Kept files ordinal)

include hkept

theorem journalLatest_eq {fileSpans : List RelayJournalSpan}
    (hspans : FileSpans origin history files fileSpans)
    : journalLatest fileSpans base.retainedThrough = frontierOf origin history := by
  unfold journalLatest
  rcases hf.retained_lt hr with hlt | ⟨hnil, heq⟩
  . obtain ⟨span, hmem, _, hlast⟩ := hspans.kept _ (hkept _ hlt (Nat.le_refl _))
    have hle := (hspans.rep span hmem).last_le
    have hmax : (fileSpans.map (·.fileLastOrdinal)).max? = some (frontierOf origin history) := by
      rw [max?_eq_some_iff]
      constructor
      . rw [mem_map]
        exact ⟨span, hmem, by omega⟩
      intro ordinal hordinal
      rw [mem_map] at hordinal
      obtain ⟨other, hother, rfl⟩ := hordinal
      exact (hspans.rep other hother).last_le
    rw [hmax]
    rfl
  have hempty : fileSpans = [] := by
    cases fileSpans with
    | nil => rfl
    | cons span rest =>
    have hrep := hspans.rep span (by simp)
    have h1 := hrep.origin_lt
    have h2 := hrep.first_le
    have h3 := hrep.last_le
    rw [hnil] at h3
    simp only [frontierOf, length_nil] at h3
    omega
  rw [hempty]
  exact heq

include hrep

theorem readRelayJournal_eq_ok
    (hreplay : replayEvents codec base
      (between history base.latestOrdinal (frontierOf origin history)) = .ok held)
    : ∃ opened, readRelayJournal codec files base = .ok opened ∧
        Reopened origin history files base held opened := by
  have hlatestLe : base.latestOrdinal ≤ frontierOf origin history := (hf.latest.bounds hr).2
  obtain ⟨hlatest, hchain⟩ :=
    latest_of_replay_between hr hf.latest hlatestLe (Nat.le_refl _) hreplay
  obtain ⟨fileSpans, hfileSpans, hspans⟩ := fileSpans_of_rep hr hrep
  have hjournalLatest := journalLatest_eq hf hr hkept hspans
  obtain ⟨spans, hassemble, hassembled⟩ := assembleSpans_eq_ok
    hspans.rep
    (fun span hmem => (hspans.rep span hmem).last_le)
    (fun ordinal hlow hhigh => hspans.kept ordinal (hkept ordinal hlow hhigh)) (Nat.le_refl _)
    (Nat.le_trans hf.retained.2 hlatestLe)
  obtain ⟨tail, hrecover, htail⟩ := recoverTail_eq_ok hr hf.latest hassembled.chain
    (Nat.le_refl _) hf.retained.2 hlatestLe hreplay
  obtain ⟨hotEvents, hrecent, hhot, hlast⟩ :=
    recentTail_eq_ok hr hassembled hlatest htail hlatestLe
  have hunread : frontierUnread base.retainedThrough held hotEvents = none := by
    apply frontierUnread_eq_none hr hchain hhot
    rw [hlatest]
    exact hlast
  obtain ⟨placed, hplaced, hplacedChain, hinner, hactive, huncached⟩ := placeActive_eq hspans hassembled
  unfold readRelayJournal recoverJournal
  simp only [hfileSpans, frontierConflict_eq_none hf hr, hjournalLatest, hassemble,
    frontierMissing_eq_none hf hlatestLe, hrecover, hrecent, hunread, hassembled.chain.getLast?,
    hplaced]
  exact ⟨_, rfl, rfl, hplacedChain, hinner, hactive, huncached, hhot, rfl⟩

end

end Journal

section Restart

open Program (Lands lands_bind lands_get_bind lands_ofExcept_bind lands_pure_bind)

structure Restartable (codec : RelayCodec) (origin : Origin) (sessionId : String)
    (base : RelaySnapshot) (w : World) : Prop where
  durable : Durable codec origin sessionId base w
  settled : w.disk.journal.pending = []
  rep : JournalRep origin w.history w.collected w.disk.journal.files

theorem Restartable.recoverable (h : Restartable codec origin sessionId base w)
    : Recoverable codec origin Accepts sessionId w := by
  refine ⟨⟨base, h.durable⟩, ?_⟩
  have hrep := h.rep
  rw [Directory.files_of_pending_nil h.settled] at hrep
  exact Directory.survives_of_pending_nil h.settled (Or.inl hrep)

def Covered (origin : Origin) (base : RelaySnapshot) (w : World) : Prop :=
  ∀ ordinal, base.retainedThrough < ordinal → ordinal ≤ frontierOf origin w.history →
    Kept w.disk.journal.files ordinal

theorem kept_congr {files files' : JournalFiles}
    (hsegment : ∀ first last, files'.get? (.segment first last) = files.get? (.segment first last))
    (hactive : activeLines files' = activeLines files) (ordinal : Nat)
    : Kept files' ordinal ↔ Kept files ordinal := by
  have hcovers : ∀ files : JournalFiles, ActiveCovers files ordinal ↔
      ∃ event, .record event ∈ activeLines files ∧ event.ordinal = ordinal := by
    intro files
    unfold ActiveCovers activeLines
    cases hget : files.get? .active with
    | none | some content => simp
  unfold Kept
  rw [hcovers, hcovers, hactive, segmentCovers_congr hsegment]

structure Repaired (w w' : World) : Prop where
  untouched : w.Untouched w'
  settled : w'.disk.journal.pending = []
  segments : ∀ first last, w'.disk.journal.files.get? (.segment first last)
    = w.disk.journal.files.get? (.segment first last)
  lines : activeLines w'.disk.journal.files = activeLines w.disk.journal.files
  untorn : ∀ content, w'.disk.journal.read? .active = some content → content.torn = 0

theorem Restartable.repaired (h : Restartable codec origin sessionId base w) (hw : Repaired w w')
    : Restartable codec origin sessionId base w' := by
  refine ⟨h.durable.undisturbed hw.untouched.toUndisturbed, hw.settled, ?_⟩
  rw [hw.untouched.history, hw.untouched.collected]
  constructor
  . intro first last content hget
    rw [hw.segments] at hget
    exact h.rep.segments first last content hget
  . intro content hget
    have hlines := hw.lines
    obtain ⟨after, horigin, hle, hrep⟩ := h.rep.activeLines_eq
    rw [hrep, activeLines, hget] at hlines
    refine ⟨after, horigin, hle, hlines, ?_⟩
    rw [hw.untorn content hget]
    exact Nat.zero_le _
  . intro ordinal hlow hhigh
    exact (kept_congr hw.segments hw.lines ordinal).mpr (h.rep.covers ordinal hlow hhigh)

theorem repairTornTail_lands (hsettled : w.disk.journal.pending = [])
    : Lands (fun _ => False) (fun w' => w' = w ∧ ¬ w.Calm) (fun _ w' => Repaired w w')
        (repairTornTail w) := by
  have hsame : (∀ content, w.disk.journal.read? .active = some content → content.torn = 0) →
      Repaired w w :=
    fun huntorn => ⟨.refl w, hsettled, fun _ _ => rfl, rfl, huntorn⟩
  unfold repairTornTail
  apply lands_get_bind
  cases hread : w.disk.journal.read? .active with
  | none =>
    apply hsame
    intro content hcontent
    rw [hread] at hcontent
    cases hcontent
  | some content =>
  dsimp only
  split
  next htorn =>
    apply lands_journalStep
    . intro hcalm
      exact ⟨rfl, hcalm⟩
    intro w' hw _ hjournal
    have hset : SetsActive { content with torn := 0 } w.disk.journal.files w'.disk.journal.files := by
      rw [hjournal, Directory.files_sync]
      exact setsActive_update hsettled hread ({ · with torn := 0 })
    refine ⟨hw, by rw [hjournal]; rfl, hset.segment, ?_, ?_⟩
    . unfold Directory.read? at hread
      rw [hset.lines, activeLines, hread]
      rfl
    intro content' hcontent'
    unfold Directory.read? at hcontent'
    rw [hset.active, Option.some.injEq] at hcontent'
    rw [← hcontent']
  next htorn =>
    apply hsame
    intro content' hcontent'
    cases hread.symm.trans hcontent'
    omega

theorem inspect_eq_ok (h : Restartable codec origin sessionId base w)
    : ∃ span, inspectRelayJournalFile codec w.disk.journal.files .active = .ok span := by
  cases hget : w.disk.journal.files.get? .active with
  | none => exact ⟨none, inspectRelayJournalFile_absent hget⟩
  | some content =>
  obtain ⟨after, hrep⟩ := h.rep.active content hget
  rcases inspectRelayJournalFile_active h.durable.valid.recorded hget hrep with
    ⟨_, hnone⟩ | ⟨_, span, _, hsome⟩
  . exact ⟨none, hnone⟩
  . exact ⟨some span, hsome⟩

theorem openRelayJournal_lands (h : Restartable codec origin sessionId base w)
    : Lands
        (fun w' => Restartable codec origin sessionId base w' ∧ w.Untouched w' ∧
          ¬ Covered origin base w)
        (fun w' => w' = w ∧ ¬ w.Calm)
        (fun opened w' => Restartable codec origin sessionId base w' ∧ Repaired w w' ∧
          Covered origin base w ∧
          Reopened origin w'.history w'.disk.journal.files base w'.held opened)
        (openRelayJournal codec base w) := by
  obtain ⟨span, hinspect⟩ := inspect_eq_ok h
  unfold openRelayJournal
  apply lands_get_bind
  rw [hinspect]
  apply lands_pure_bind
  refine lands_bind ((repairTornTail_lands h.settled).mono (fun _ _ hq => hq)
    (fun _ hfalse => hfalse.elim) (fun _ hc => hc)) ?_
  intro _ w₁ hrepaired
  have h₁ := h.repaired hrepaired
  have hr := h₁.durable.valid.recorded
  have hcovered : Covered origin base w ↔ ∀ ordinal, base.retainedThrough < ordinal →
      ordinal ≤ frontierOf origin w₁.history → Kept w₁.disk.journal.files ordinal := by
    unfold Covered
    simp only [hrepaired.untouched.history, kept_congr hrepaired.segments hrepaired.lines]
  apply lands_get_bind
  apply lands_ofExcept_bind
  . intro message herror
    refine ⟨h₁, hrepaired.untouched, ?_⟩
    intro hkept
    obtain ⟨opened, hopened, _⟩ := readRelayJournal_eq_ok h₁.durable.frontiers hr h₁.rep
      (hcovered.mp hkept) h₁.durable.replay
    rw [hopened] at herror
    cases herror
  intro opened hok
  have hkept := kept_of_readRelayJournal h₁.durable.frontiers hr h₁.rep h₁.durable.collected_le hok
  obtain ⟨opened', hopened, hreopened⟩ :=
    readRelayJournal_eq_ok h₁.durable.frontiers hr h₁.rep hkept h₁.durable.replay
  cases hok.symm.trans hopened
  rw [hreopened.stale]
  exact ⟨h₁, hrepaired, hcovered.mpr hkept, hreopened⟩

end Restart

section Load

open Program (Lands lands_bind lands_get_bind lands_modify_bind lands_ofExcept_bind lands_pure_bind)

variable {w w' w'' : World} {α β : Type} {P P' : Prop} {Q : α → World → Prop} {R : β → World → Prop}

structure Shut (codec : RelayCodec) (origin : Origin)
    (Accepts : RelaySnapshot → RelayCommand → Prop) (sessionId : String) (w w' : World) : Prop where
  recoverable : Recoverable codec origin Accepts sessionId w'
  evolves : Evolves codec origin Accepts w.chronicle w'.chronicle

def Opens (codec : RelayCodec) (origin : Origin) (Accepts : RelaySnapshot → RelayCommand → Prop)
    (sessionId : String) (P : Prop) (Q : α → World → Prop) (w : World) (x : RelayM α) : Prop :=
  Lands (fun w' => Shut codec origin Accepts sessionId w w' ∧ ¬ (w.Calm ∧ P))
    (fun w' => Shut codec origin Accepts sessionId w w' ∧ ¬ w.Calm)
    (fun value w' => Resumed codec origin Accepts sessionId w w' ∧ Q value w') (x w)

theorem Does.opens {x : RelayM α} (h : Does codec origin Accepts sessionId P Q w x)
    : Opens codec origin Accepts sessionId P Q w x := by
  refine Lands.mono h (fun _ _ hq => ⟨hq.1.toResumed, hq.2⟩) ?_ ?_
  . intro w' hrefused
    exact ⟨⟨hrefused.live.toConsistent.recoverable, hrefused.evolves⟩, hrefused.reason⟩
  . intro w' hhalted
    exact ⟨⟨hhalted.recoverable, hhalted.evolves⟩, hhalted.reason⟩

theorem opens_bind {x : RelayM α} {f : α → RelayM β}
    (hx : Opens codec origin Accepts sessionId P Q w x)
    (hf : ∀ value w', Resumed codec origin Accepts sessionId w w' → Q value w' →
      Opens codec origin Accepts sessionId P R w' (f value))
    : Opens codec origin Accepts sessionId P R w (x >>= f) := by
  refine lands_bind hx ?_
  intro value w' ⟨hadvanced, hq⟩
  refine Lands.mono (hf value w' hadvanced hq) ?_ ?_ ?_
  . intro value' w'' ⟨hadvanced', hr⟩
    exact ⟨hadvanced.trans hadvanced', hr⟩
  . intro w'' ⟨hshut, hreason⟩
    refine ⟨⟨hshut.recoverable, hadvanced.evolves.trans hshut.evolves⟩, ?_⟩
    intro ⟨hcalm, hp⟩
    exact hreason ⟨hadvanced.calm hcalm, hp⟩
  . intro w'' ⟨hshut, hreason⟩
    refine ⟨⟨hshut.recoverable, hadvanced.evolves.trans hshut.evolves⟩, ?_⟩
    intro hcalm
    exact hreason (hadvanced.calm hcalm)

theorem Opens.mono {Q' : α → World → Prop} {x : RelayM α}
    (h : Opens codec origin Accepts sessionId P Q w x) (hP : w.Calm → P' → P)
    (hQ : ∀ value w', Resumed codec origin Accepts sessionId w w' → Q value w' → Q' value w')
    : Opens codec origin Accepts sessionId P' Q' w x := by
  refine Lands.mono h ?_ ?_ (fun _ hc => hc)
  . intro value w' ⟨hadvanced, hq⟩
    exact ⟨hadvanced, hQ value w' hadvanced hq⟩
  intro w' ⟨hshut, hreason⟩
  refine ⟨hshut, ?_⟩
  intro ⟨hcalm, hp⟩
  exact hreason ⟨hcalm, hP hcalm hp⟩

theorem validateRelayDigest_eq_ok {digest description : String} (h : isRelayDigest digest)
    : validateRelayDigest digest description = .ok () := by
  unfold validateRelayDigest
  rw [if_pos h]

theorem validateRelaySnapshotFrontiers_eq_ok {history : List RelayEvent}
    (hr : Recorded codec origin history) (hf : Frontiers origin history base)
    : validateRelaySnapshotFrontiers base = .ok () := by
  have hack := hf.acknowledged_le
  have hfloor := hf.floor_le
  have hgenesis : ∀ ordinal digest, OnChain origin history ordinal digest →
      ¬ ((ordinal = 0) ≠ (digest = RELAY_EVENT_GENESIS_DIGEST)) :=
    fun _ _ hchain hne => hne (propext (hchain.genesis hr))
  unfold validateRelaySnapshotFrontiers
  rw [validateRelayDigest_eq_ok (hf.latest.isRelayDigest hr),
    validateRelayDigest_eq_ok (hf.acknowledged.isRelayDigest hr),
    validateRelayDigest_eq_ok (hf.floor.isRelayDigest hr)]
  rw [if_neg (Nat.not_lt.mpr hack), if_neg (Nat.not_lt.mpr hfloor)]
  dsimp only [bind, Except.bind]
  rw [if_neg (hgenesis _ _ hf.latest), if_neg (hgenesis _ _ hf.acknowledged),
    if_neg (hgenesis _ _ hf.floor)]
  rfl

end Load

section Open

open Program (Lands lands_bind lands_get_bind lands_modify_bind lands_ofExcept_bind lands_pure_bind)

variable {base stored : RelaySnapshot} {opened : OpenedJournal}

theorem Restartable.withMemory (h : Restartable codec origin sessionId base w)
    (relay : DurableRelay) (schedule : Schedule)
    : Restartable codec origin sessionId base { w with relay := relay, schedule := schedule } := by
  exact ⟨h.durable.congr rfl rfl rfl, h.settled, h.rep⟩

theorem Reopened.live
    (h : Reopened origin w.history w.disk.journal.files stored w.held opened)
    (hw : Restartable codec origin sessionId base w)
    (hpersisted : base.latestOrdinal = w.held.latestOrdinal)
    (huntorn : ∀ content, w.disk.journal.read? .active = some content → content.torn = 0)
    : Live codec origin sessionId { w with relay := opened.relay } := by
  refine { toConsistent := ?_, snapshot := h.snapshot }
  constructor
  . exact ⟨base, (hw.withMemory opened.relay w.schedule).durable, fun _ => hpersisted⟩
  . exact hw.settled
  . exact hw.rep
  . exact huntorn
  . refine ⟨⟨_, h.chain⟩, h.inner, h.last, ?_⟩
    intro digest hmem
    obtain ⟨span, hspan, heq⟩ := mem_map.mp (mem_of_mem_tail hmem)
    rw [← heq]
    exact h.uncached span hspan
  . exact h.hot
  . nofun

theorem Restartable.shut (h : Restartable codec origin sessionId base w')
    (hchronicle : w'.chronicle = w.chronicle) : Shut codec origin Accepts sessionId w w' := by
  refine ⟨h.recoverable, ?_⟩
  rw [hchronicle]
  exact .refl

theorem persistIf_opens {fresh : Bool} (h : Restartable codec origin sessionId base w)
    (hopened : Reopened origin w.history w.disk.journal.files stored w.held opened)
    (hpersisted : fresh = false → base.latestOrdinal = w.held.latestOrdinal)
    (huntorn : ∀ content, w.disk.journal.read? .active = some content → content.torn = 0)
    : Opens codec origin Accepts sessionId (Fits codec w.held)
        (fun _ w' => w'.chronicle = w.chronicle)
        { w with relay := opened.relay } (persistIf codec fresh) := by
  unfold persistIf
  split
  . unfold persistSnapshot
    apply lands_get_bind
    refine lands_bind ((persistRelaySnapshot_lands codec opened.snapshot).mono (fun _ _ hq => hq)
      ?_ ?_) ?_
    . intro w' ⟨⟨schedule, heq⟩, hno⟩
      rw [heq]
      refine ⟨(h.withMemory opened.relay schedule).shut rfl, ?_⟩
      intro ⟨hcalm, hfits⟩
      rw [hopened.snapshot] at hno
      exact hno ⟨hcalm, hfits.pretty⟩
    . intro w' ⟨⟨schedule, heq⟩, hno⟩
      rw [heq]
      exact ⟨(h.withMemory opened.relay schedule).shut rfl, hno⟩
    intro _ w' ⟨⟨schedule, hschedule, heq⟩, hfits⟩
    subst heq
    rw [hopened.snapshot] at hfits ⊢
    have hdurable := h.durable.persisted h.durable.valid rfl hfits opened.relay schedule
    have hlive := Reopened.live (w := w.persisted w.held opened.relay schedule) hopened
      ⟨hdurable, h.settled, h.rep⟩ rfl huntorn
    refine ⟨⟨hlive, .refl, ?_⟩, rfl⟩
    intro hcalm
    rw [hschedule hcalm]
    exact ⟨hcalm.steady, hcalm.writes⟩
  next hfresh =>
    have hlive := Reopened.live hopened h (hpersisted (by simpa using hfresh)) huntorn
    exact ⟨.refl hlive, rfl⟩

theorem Opens.after {α : Type} {P : Prop} {Q : α → World → Prop} {x : RelayM α}
    (h : Opens codec origin Accepts sessionId P Q w' x) (hchronicle : w'.chronicle = w.chronicle)
    (hcalm : w.Calm → w'.Calm)
    : Lands (fun w'' => Shut codec origin Accepts sessionId w w'' ∧ ¬ (w.Calm ∧ P))
        (fun w'' => Shut codec origin Accepts sessionId w w'' ∧ ¬ w.Calm)
        (fun value w'' => Resumed codec origin Accepts sessionId w w'' ∧ Q value w'') (x w') := by
  refine Lands.mono h ?_ ?_ ?_
  . intro value w'' ⟨hadvanced, hq⟩
    refine ⟨⟨hadvanced.live, ?_, hadvanced.calm ∘ hcalm⟩, hq⟩
    rw [← hchronicle]
    exact hadvanced.evolves
  . intro w'' ⟨hshut, hreason⟩
    refine ⟨⟨hshut.recoverable, ?_⟩, fun ⟨hc, hp⟩ => hreason ⟨hcalm hc, hp⟩⟩
    rw [← hchronicle]
    exact hshut.evolves
  . intro w'' ⟨hshut, hreason⟩
    refine ⟨⟨hshut.recoverable, ?_⟩, fun hc => hreason (hcalm hc)⟩
    rw [← hchronicle]
    exact hshut.evolves

theorem loadRelay_opens (h : Restartable codec origin sessionId base w)
    : Opens codec origin Accepts sessionId (Covered origin base w ∧ Fits codec w.held)
        (fun _ w' => w'.chronicle = w.chronicle ∧ Covered origin base w) w
        (loadRelay codec sessionId) := by
  have hr := h.durable.valid.recorded
  unfold loadRelay
  apply lands_get_bind
  rw [h.durable.stored]
  apply lands_pure_bind
  rw [validateRelaySnapshotFrontiers_eq_ok hr h.durable.frontiers]
  apply lands_pure_bind
  refine lands_bind ((openRelayJournal_lands h).mono (fun _ _ hq => hq) ?_ ?_) ?_
  . intro w' ⟨hw', huntouched, hno⟩
    exact ⟨hw'.shut huntouched.chronicle, fun ⟨_, hcovered, _⟩ => hno hcovered⟩
  . intro w' ⟨heq, hno⟩
    rw [heq]
    exact ⟨h.shut rfl, hno⟩
  intro opened w₁ ⟨h₁, hrepaired, hcovered, hopened⟩
  have hchronicle := hrepaired.untouched.chronicle
  have hheld : w₁.held = w.held := hrepaired.untouched.held
  have hcalm := hrepaired.untouched.calm
  apply lands_ofExcept_bind
  . intro message herror
    refine ⟨h₁.shut hchronicle, ?_⟩
    intro ⟨_, _, hfits⟩
    rw [hopened.snapshot, hheld] at herror
    exact ensureByteBudget_ne_error hfits.operational herror
  intro _ _
  apply lands_modify_bind
  refine Opens.after (Opens.mono (persistIf_opens h₁ hopened ?_ hrepaired.untorn) ?_ ?_)
    hchronicle (fun hc => ⟨(hcalm hc).steady, (hcalm hc).writes⟩)
  . intro hfresh
    rw [hopened.snapshot] at hfresh
    simp only [Bool.or_eq_false_iff, decide_eq_false_iff_not] at hfresh
    have hbounds : base.latestOrdinal ≤ origin.ordinal + w₁.history.length :=
      (h₁.durable.frontiers.latest.bounds h₁.durable.valid.recorded).2
    have hlatest : w₁.held.latestOrdinal = origin.ordinal + w₁.history.length :=
      h₁.durable.valid.latest_eq
    have := hfresh.2
    omega
  . intro _ ⟨_, hfits⟩
    rw [hheld]
    exact hfits
  . intro _ w' _ hw'
    exact ⟨hw'.trans hchronicle, hcovered⟩

end Open

end Hel
