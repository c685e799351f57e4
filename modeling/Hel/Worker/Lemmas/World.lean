import Hel.Worker.Impl.Open
import Hel.Worker.Lemmas.Evolution
import Hel.Worker.Lemmas.Files

/-!
This module contains the invariant that ties the memory of a relay to its disk, what is left of it
when the process crashes, and the rules for the steps on the disk.
-/

namespace Hel

open Program (Lands lands_bind lands_get_bind lands_modify_bind lands_ofExcept_bind lands_pure_bind)

variable {event : RelayEvent} {size budget : Nat} {w' : World}

def replayEvents (codec : RelayCodec) : RelaySnapshot → List RelayEvent → Except String RelaySnapshot
  | s, [] => .ok s
  | s, event :: rest =>
    match applyRelayEvent codec s event with
    | .error e => .error e
    | .ok s => replayEvents codec s rest

theorem replayEvents_cons {codec : RelayCodec} {s s' : RelaySnapshot} {rest : List RelayEvent}
    (h : replayEvents codec s (event :: rest) = .ok s')
    : ∃ next, applyRelayEvent codec s event = .ok next ∧
        replayEvents codec next rest = .ok s' := by
  rw [replayEvents] at h
  split at h
  . cases h
  next next happly => exact ⟨next, happly, h⟩

theorem replayEvents_snoc {codec : RelayCodec} {s s' next : RelaySnapshot}
    {events : List RelayEvent} (h : replayEvents codec s events = .ok s')
    (happly : applyRelayEvent codec s' event = .ok next)
    : replayEvents codec s (events ++ [event]) = .ok next := by
  induction events generalizing s with
  | nil =>
    simp only [replayEvents, Except.ok.injEq] at h
    subst h
    simp only [List.nil_append, replayEvents, happly]
  | cons head rest ih =>
    simp only [List.cons_append, replayEvents] at h ⊢
    split at h
    . cases h
    exact ih h

def World.chronicle (w : World) : Chronicle where
  history := w.history
  held := w.held
  collected := w.collected

structure World.Calm (w : World) : Prop where
  steady : w.schedule.crashAfter = none
  writes : w.schedule.persistFails = []

structure Grown (files files' : JournalFiles) : Prop where
  segments : ∀ first last content, files.get? (.segment first last) = some content →
    files'.get? (.segment first last) = some content
  active : ∀ content, files.get? .active = some content →
    ∃ content', files'.get? .active = some content' ∧ content.lines <+: content'.lines

theorem Grown.refl (files : JournalFiles) : Grown files files :=
  ⟨fun _ _ _ h => h, fun content h => ⟨content, h, List.prefix_rfl⟩⟩

theorem Grown.trans {files files' files'' : JournalFiles} (h : Grown files files')
    (h' : Grown files' files'') : Grown files files'' := by
  constructor
  . intro first last content hget
    exact h'.segments first last content (h.segments first last content hget)
  intro content hget
  obtain ⟨content', hget', hle⟩ := h.active content hget
  obtain ⟨content'', hget'', hle'⟩ := h'.active content' hget'
  exact ⟨content'', hget'', hle.trans hle'⟩

structure Shifts (w w' : World) : Prop where
  le : w.invalidations ≤ w'.invalidations
  generation : w'.relay.journalGeneration % 2 ^ 64
    = (w.relay.journalGeneration + (w'.invalidations - w.invalidations)) % 2 ^ 64
  grown : w'.invalidations = w.invalidations → Grown w.disk.journal.files w'.disk.journal.files

def World.era (w : World) : Nat × Nat :=
  (w.relay.journalGeneration, w.invalidations)

theorem Shifts.of_grown {w w' : World} (hera : w'.era = w.era)
    (h : Grown w.disk.journal.files w'.disk.journal.files) : Shifts w w' := by
  unfold World.era at hera
  rw [Prod.mk.injEq] at hera
  refine ⟨by omega, ?_, fun _ => h⟩
  rw [hera.1, hera.2, Nat.sub_self, Nat.add_zero]

theorem Shifts.of_same {w w' : World} (hera : w'.era = w.era) (h : w'.disk.journal = w.disk.journal)
    : Shifts w w' :=
  .of_grown hera (by rw [h]; exact .refl _)

theorem Shifts.of_invalidated {w w' : World}
    (h : w'.era = ((w.relay.journalGeneration + 1) % 2 ^ 64, w.invalidations + 1))
    : Shifts w w' := by
  unfold World.era at h
  rw [Prod.mk.injEq] at h
  refine ⟨by omega, ?_, fun hsame => by omega⟩
  rw [h.1, h.2, Nat.mod_mod, Nat.add_sub_cancel_left]

theorem Shifts.of_schedule {w w' : World} {schedule : Schedule}
    (h : Shifts { w with schedule := schedule } w') : Shifts w w' :=
  ⟨h.le, h.generation, h.grown⟩

theorem Shifts.refl (w : World) : Shifts w w :=
  .of_same rfl rfl

theorem Shifts.trans {w w' w'' : World} (h : Shifts w w') (h' : Shifts w' w'') : Shifts w w'' := by
  have hle := h.le
  have hle' := h'.le
  have hgeneration := h.generation
  have hgeneration' := h'.generation
  refine ⟨by omega, by omega, ?_⟩
  intro hsame
  exact (h.grown (by omega)).trans (h'.grown (by omega))

section Invariant

variable (codec : RelayCodec) (origin : Origin) (Accepts : RelaySnapshot → RelayCommand → Prop)
  (sessionId : String)

structure Durable (base : RelaySnapshot) (w : World) : Prop where
  valid : w.chronicle.Valid codec origin
  identity : w.held.identity = (RELAY_STATE_VERSION, sessionId)
  stored : storedSnapshot codec sessionId w.disk = .ok base
  frontiers : Frontiers origin w.history base
  replay : replayEvents codec base
    (between w.history base.latestOrdinal (frontierOf origin w.history)) = .ok w.held
  collected_le : w.collected ≤ base.latestOrdinal
  origin_le : origin.ordinal ≤ w.collected
  kept : origin.guarded → w.collected ≤ base.retainedThrough
  retained_le : origin.guarded → base.retainedThrough ≤ w.held.retainedThrough

structure SpansRep (w : World) : Prop where
  chain : ∃ after, SpanChain origin w.history w.disk.journal.files after
    (frontierOf origin w.history) w.relay.journalSpans
  inner : ∀ span ∈ w.relay.journalSpans.dropLast, span.path ≠ .active
  last : ∀ content, w.disk.journal.read? .active = some content → content.lines ≠ [] →
    ∃ span, w.relay.journalSpans.getLast? = some span ∧ span.path = .active
  cached : ∀ digest ∈ (w.relay.journalSpans.map (·.fileFirstPreviousDigest)).tail, digest = none

-- What holds between two steps of a running relay, whatever its memory says of its commands.
structure Consistent (w : World) : Prop where
  durable : ∃ base, Durable codec origin sessionId base w ∧
    (w.relay.unpersistedJournalBytes = 0 → base.latestOrdinal = w.held.latestOrdinal)
  settled : w.disk.journal.pending = []
  rep : JournalRep origin w.history w.collected w.disk.journal.files
  untorn : ∀ content, w.disk.journal.read? .active = some content → content.torn = 0
  spans : SpansRep origin w
  hot : ∀ event ∈ w.relay.hotEvents, event ∈ w.history
  cursors : ∀ cursor ∈ w.relay.replayCursors, OnChain origin w.history cursor.1 cursor.2

structure Live (w : World) : Prop extends Consistent codec origin sessionId w where
  snapshot : w.relay.snapshot = w.held

def Unsynced (c : Chronicle) (files : JournalFiles) : Prop :=
  ∃ event next content,
    Transition codec origin Accepts c { c with history := c.history ++ [event], held := next } ∧
    JournalRep origin (c.history ++ [event]) c.collected files ∧
    files.get? .active = some content ∧ content.lines.getLast? = some (.record event)

structure Recoverable (w : World) : Prop where
  durable : ∃ base, Durable codec origin sessionId base w
  journal : w.disk.journal.Survives (fun files =>
    JournalRep origin w.history w.collected files ∨
      Unsynced codec origin Accepts w.chronicle files)

end Invariant

section Schedule

variable {codec : RelayCodec} {origin : Origin} {Accepts : RelaySnapshot → RelayCommand → Prop}
  {sessionId : String} {w : World} {base : RelaySnapshot}

theorem Durable.congr (h : Durable codec origin sessionId base w)
    (hchronicle : w'.chronicle = w.chronicle) (hstateFile : w'.disk.stateFile = w.disk.stateFile)
    (hseed : w'.disk.seed = w.disk.seed) : Durable codec origin sessionId base w' := by
  have hhistory : w'.history = w.history := congrArg Chronicle.history hchronicle
  have hheld : w'.held = w.held := congrArg Chronicle.held hchronicle
  have hcollected : w'.collected = w.collected := congrArg Chronicle.collected hchronicle
  constructor
  . rw [hchronicle]
    exact h.valid
  . rw [hheld]
    exact h.identity
  . have hstored := h.stored
    unfold storedSnapshot at hstored ⊢
    rw [hstateFile, hseed]
    exact hstored
  . rw [hhistory]
    exact h.frontiers
  . rw [hhistory, hheld]
    exact h.replay
  . rw [hcollected]
    exact h.collected_le
  . rw [hcollected]
    exact h.origin_le
  . rw [hcollected]
    exact h.kept
  . rw [hheld]
    exact h.retained_le

theorem Durable.base_eq (h : Durable codec origin sessionId base w)
    (heq : base.latestOrdinal = w.held.latestOrdinal) : base = w.held := by
  have hlatest : w.held.latestOrdinal = frontierOf origin w.history := h.valid.latest_eq
  have hreplay := h.replay
  have hnil : between w.history base.latestOrdinal (frontierOf origin w.history) = [] :=
    slice_of_le (by omega)
  rw [hnil, replayEvents, Except.ok.injEq] at hreplay
  exact hreplay

theorem Durable.schedule (h : Durable codec origin sessionId base w) (schedule : Schedule)
    : Durable codec origin sessionId base { w with schedule := schedule } :=
  h.congr rfl rfl rfl

theorem SpansRep.congr (h : SpansRep origin w) (hhistory : w'.history = w.history)
    (hjournal : w'.disk.journal = w.disk.journal)
    (hspans : w'.relay.journalSpans = w.relay.journalSpans) : SpansRep origin w' := by
  constructor
  . rw [hhistory, hjournal, hspans]
    exact h.chain
  . rw [hspans]
    exact h.inner
  . rw [hjournal, hspans]
    exact h.last
  . rw [hspans]
    exact h.cached

theorem Consistent.schedule (h : Consistent codec origin sessionId w) (schedule : Schedule)
    : Consistent codec origin sessionId { w with schedule := schedule } := by
  obtain ⟨base, hdurable, hpersisted⟩ := h.durable
  constructor
  . exact ⟨base, hdurable.schedule schedule, hpersisted⟩
  . exact h.settled
  . exact h.rep
  . exact h.untorn
  . exact h.spans.congr rfl rfl rfl
  . exact h.hot
  . exact h.cursors

theorem Live.schedule (h : Live codec origin sessionId w) (schedule : Schedule)
    : Live codec origin sessionId { w with schedule := schedule } :=
  { toConsistent := h.toConsistent.schedule schedule, snapshot := h.snapshot }

theorem Consistent.recoverable (h : Consistent codec origin sessionId w)
    : Recoverable codec origin Accepts sessionId w := by
  obtain ⟨base, hdurable, _⟩ := h.durable
  constructor
  . exact ⟨base, hdurable⟩
  have hrep := h.rep
  rw [Directory.files_of_pending_nil h.settled] at hrep
  exact Directory.survives_of_pending_nil h.settled (Or.inl hrep)

end Schedule

theorem ensureByteBudget_ne_error {description message : String} (hle : size ≤ budget)
    : ensureByteBudget size budget description ≠ .error message := by
  unfold ensureByteBudget
  have : ¬ size > budget := by omega
  simp only [this, ↓reduceIte]
  nofun

theorem le_of_ensureByteBudget {description : String}
    (h : ensureByteBudget size budget description = .ok ()) : size ≤ budget := by
  unfold ensureByteBudget at h
  split at h
  . cases h
  omega

section Steps

variable {E C : World → Prop} {w : World}

theorem lands_diskStep {Q : Unit → World → Prop} {effect torn : World → World}
    (hcrash : w.schedule.crashAfter ≠ none → C (torn w))
    (hok : ∀ schedule : Schedule, (w.Calm → schedule = w.schedule) →
      Q () (effect { w with schedule := schedule })) : Lands E C Q (diskStep effect torn w) := by
  unfold diskStep
  split
  next h => exact hcrash (by simp [h])
  next n h =>
    apply hok
    intro hcalm
    rw [hcalm.steady] at h
    cases h
  next h => exact hok w.schedule (fun _ => rfl)

theorem lands_epochMillis_bind {β : Type} {R : β → World → Prop} {k : Int → RelayM β}
    (h : ∀ (now : Int) (schedule : Schedule), (w.Calm → { w with schedule := schedule }.Calm) →
      Lands E C R (k now { w with schedule := schedule })) : Lands E C R ((epochMillis >>= k) w) :=
  h (w.schedule.clock w.schedule.ticks) { w.schedule with ticks := w.schedule.ticks + 1 }
    (fun hcalm => ⟨hcalm.steady, hcalm.writes⟩)

theorem persistRelaySnapshot_lands (codec : RelayCodec) (next : RelaySnapshot)
    : Lands
        (fun w' => (∃ schedule, w' = { w with schedule := schedule }) ∧
          ¬ (w.Calm ∧ codec.snapshotPrettyLen next ≤ RELAY_SNAPSHOT_BYTE_BUDGET))
        (fun w' => (∃ schedule, w' = { w with schedule := schedule }) ∧ ¬ w.Calm)
        (fun _ w' => (∃ schedule, (w.Calm → schedule = w.schedule) ∧ w' = { w with
            disk := { w.disk with stateFile := some next }
            held := next
            schedule := schedule }) ∧
          codec.snapshotPrettyLen next ≤ RELAY_SNAPSHOT_BYTE_BUDGET)
        (persistRelaySnapshot codec next w) := by
  unfold persistRelaySnapshot
  apply lands_ofExcept_bind
  . intro message herror
    refine ⟨⟨w.schedule, rfl⟩, ?_⟩
    intro ⟨_, hle⟩
    exact ensureByteBudget_ne_error hle herror
  intro _ hok
  have hle := le_of_ensureByteBudget hok
  apply lands_get_bind
  apply lands_modify_bind
  split
  next hfail =>
    refine ⟨⟨_, rfl⟩, ?_⟩
    intro ⟨hcalm, _⟩
    rw [hcalm.writes] at hfail
    simp at hfail
  rename_i hfail
  apply lands_diskStep
  . intro hcrash
    refine ⟨⟨_, rfl⟩, ?_⟩
    intro hcalm
    exact hcrash hcalm.steady
  intro schedule hschedule
  refine ⟨⟨schedule, ?_, rfl⟩, hle⟩
  intro hcalm
  rw [hschedule ⟨hcalm.steady, by simp [hcalm.writes]⟩]
  dsimp only
  rw [hcalm.writes, List.tail_nil, ← hcalm.writes]

end Steps

end Hel
