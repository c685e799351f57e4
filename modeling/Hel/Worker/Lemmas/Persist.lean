import Hel.Worker.Lemmas.World

/-!
This module contains the specifications of the operations that write the snapshot of a relay.
-/

namespace Hel

open Program (Lands lands_bind lands_get_bind lands_modify_bind lands_ofExcept_bind lands_pure_bind)

variable {codec : RelayCodec} {origin : Origin} {Accepts : RelaySnapshot → RelayCommand → Prop}
  {sessionId : String} {w : World} {base next : RelaySnapshot}

theorem storedSnapshot_some {disk : Disk} {s : RelaySnapshot} (hfile : disk.stateFile = some s)
    (hidentity : s.identity = (RELAY_STATE_VERSION, sessionId))
    (hfits : codec.snapshotPrettyLen s ≤ RELAY_SNAPSHOT_BYTE_BUDGET)
    : storedSnapshot codec sessionId disk = .ok s := by
  simp only [RelaySnapshot.identity, Prod.mk.injEq] at hidentity
  unfold storedSnapshot
  rw [hfile]
  dsimp only
  have hbudget : ensureByteBudget (codec.snapshotPrettyLen s) RELAY_SNAPSHOT_BYTE_BUDGET
      "relay snapshot" = .ok () := by
    unfold ensureByteBudget
    have : ¬ codec.snapshotPrettyLen s > RELAY_SNAPSHOT_BYTE_BUDGET := by omega
    simp only [this, ↓reduceIte]
  rw [hbudget]
  dsimp only
  rw [hidentity.1, hidentity.2]
  simp only [gt_iff_lt, Nat.lt_irrefl, ↓reduceIte, ne_eq, not_true_eq_false]
  cases s
  simp_all

def World.persisted (w : World) (next : RelaySnapshot) (relay : DurableRelay)
    (schedule : Schedule) : World :=
  { w with
    relay := relay
    disk := { w.disk with stateFile := some next }
    held := next
    schedule := schedule }

theorem Consistent.withMemory (h : Consistent codec origin sessionId w) (relay : DurableRelay)
    (hspans : relay.journalSpans = w.relay.journalSpans)
    (hhot : ∀ event ∈ relay.hotEvents, event ∈ w.history)
    (hcursors : ∀ cursor ∈ relay.replayCursors, OnChain origin w.history cursor.1 cursor.2)
    (hunpersisted : relay.unpersistedJournalBytes = w.relay.unpersistedJournalBytes)
    : Consistent codec origin sessionId { w with relay := relay } := by
  obtain ⟨base, hdurable, hpersisted⟩ := h.durable
  constructor
  . exact ⟨base, hdurable.congr rfl rfl rfl, fun hzero => hpersisted (hunpersisted ▸ hzero)⟩
  . exact h.settled
  . exact h.rep
  . exact h.untorn
  . exact h.spans.congr rfl rfl hspans
  . exact hhot
  . exact hcursors

-- Either `next` is written and is the memory's snapshot, or only the schedule went on.
def Commits (codec : RelayCodec) (origin : Origin) (sessionId : String) (next : RelaySnapshot)
    (w : World) (x : RelayM Unit) : Prop :=
  Lands
    (fun w' => (∃ schedule, w' = { w with schedule := schedule }) ∧
      ¬ (w.Calm ∧ codec.snapshotPrettyLen next ≤ RELAY_SNAPSHOT_BYTE_BUDGET))
    (fun w' => (∃ schedule, w' = { w with schedule := schedule }) ∧ ¬ w.Calm)
    (fun _ w' => Live codec origin sessionId w' ∧ (w.Calm → w'.Calm) ∧
      ∃ schedule, w' = w.persisted next
        { w.relay with snapshot := next, unpersistedJournalBytes := 0 } schedule)
    (x w)

section

variable (hv : Chronicle.Valid codec origin { w.chronicle with held := next })
  (hidentity : next.identity = w.held.identity)
  (hfits : codec.snapshotPrettyLen next ≤ RELAY_SNAPSHOT_BYTE_BUDGET)

include hv hidentity hfits

theorem Durable.persisted (h : Durable codec origin sessionId base w) (relay : DurableRelay)
    (schedule : Schedule)
    : Durable codec origin sessionId next (w.persisted next relay schedule) := by
  have hlatest : next.latestOrdinal = origin.ordinal + w.history.length := hv.latest_eq
  constructor
  . exact hv
  . exact hidentity.trans h.identity
  . exact storedSnapshot_some rfl (hidentity.trans h.identity) hfits
  . exact hv.frontiers
  . show replayEvents codec next (between w.history next.latestOrdinal
      (frontierOf origin w.history)) = .ok next
    rw [between, frontierOf, slice_of_le hlatest.ge]
    rfl
  . show w.collected ≤ next.latestOrdinal
    have hbounds : base.latestOrdinal ≤ origin.ordinal + w.history.length :=
      (h.frontiers.latest.bounds h.valid.recorded).2
    have hcollected := h.collected_le
    omega
  . exact h.origin_le
  . exact hv.kept
  . exact fun _ => Nat.le_refl _

variable (h : Consistent codec origin sessionId w)

include h

theorem Consistent.persisted (relay : DurableRelay)
    (hspans : relay.journalSpans = w.relay.journalSpans)
    (hhot : relay.hotEvents = w.relay.hotEvents)
    (hcursors : relay.replayCursors = w.relay.replayCursors) (schedule : Schedule)
    : Consistent codec origin sessionId (w.persisted next relay schedule) := by
  obtain ⟨base, hdurable, _⟩ := h.durable
  constructor
  . exact ⟨next, hdurable.persisted hv hidentity hfits relay schedule, fun _ => rfl⟩
  . exact h.settled
  . exact h.rep
  . exact h.untorn
  . exact h.spans.congr rfl rfl hspans
  . simp only [World.persisted, hhot]
    exact h.hot
  . simp only [World.persisted, hcursors]
    exact h.cursors

theorem Commits.done {schedule : Schedule} (hschedule : w.Calm → schedule = w.schedule)
    : Commits codec origin sessionId next w (fun w => (.ok (), w.persisted next
        { w.relay with snapshot := next, unpersistedJournalBytes := 0 } schedule)) := by
  refine ⟨?_, ?_, schedule, rfl⟩
  . refine { toConsistent := ?_, snapshot := rfl }
    exact h.persisted hv hidentity hfits
      { w.relay with snapshot := next, unpersistedJournalBytes := 0 } rfl rfl rfl schedule
  intro hcalm
  rw [hschedule hcalm]
  exact ⟨hcalm.steady, hcalm.writes⟩

omit hfits in
theorem commitSnapshot_commits
    : Commits codec origin sessionId next w (commitSnapshot codec next) := by
  unfold Commits commitSnapshot
  apply lands_bind (persistRelaySnapshot_lands codec next)
  intro _ w' hw'
  obtain ⟨⟨schedule, hschedule, heq⟩, hfits⟩ := hw'
  subst heq
  exact Commits.done hv hidentity hfits h hschedule

end

theorem persistSnapshot_commits (h : Consistent codec origin sessionId w)
    (hv : Chronicle.Valid codec origin { w.chronicle with held := w.relay.snapshot })
    (hidentity : w.relay.snapshot.identity = w.held.identity)
    : Commits codec origin sessionId w.relay.snapshot w (persistSnapshot codec) := by
  unfold Commits persistSnapshot
  apply lands_get_bind
  refine lands_bind (persistRelaySnapshot_lands codec w.relay.snapshot) ?_
  intro _ w' hw'
  obtain ⟨⟨schedule, hschedule, heq⟩, hfits⟩ := hw'
  subst heq
  exact Commits.done hv hidentity hfits h hschedule

theorem Live.persistSnapshot_lands (h : Live codec origin sessionId w)
    : Lands
        (fun w' => Live codec origin sessionId w' ∧ w'.chronicle = w.chronicle ∧ Shifts w w' ∧
          ¬ (w.Calm ∧ codec.snapshotPrettyLen w.held ≤ RELAY_SNAPSHOT_BYTE_BUDGET))
        (fun w' => Live codec origin sessionId w' ∧ w'.chronicle = w.chronicle ∧ Shifts w w' ∧
          ¬ w.Calm)
        (fun _ w' => Live codec origin sessionId w' ∧ (w.Calm → w'.Calm) ∧
          w'.chronicle = w.chronicle ∧ Shifts w w' ∧
          w'.relay = { w.relay with unpersistedJournalBytes := 0 })
        (persistSnapshot codec w) := by
  obtain ⟨base, hdurable, _⟩ := h.durable
  have hv : Chronicle.Valid codec origin { w.chronicle with held := w.relay.snapshot } := by
    rw [h.snapshot]
    exact hdurable.valid
  refine Lands.mono (persistSnapshot_commits h.toConsistent hv (by rw [h.snapshot])) ?_ ?_ ?_
  . intro _ w' ⟨hlive, hcalm, schedule, heq⟩
    refine ⟨hlive, hcalm, ?_, ?_, ?_⟩
    . rw [heq]
      simp only [World.chronicle, World.persisted, h.snapshot]
    . rw [heq]
      exact .of_same rfl rfl
    . rw [heq]
      rfl
  . intro w' ⟨⟨schedule, heq⟩, hno⟩
    rw [h.snapshot] at hno
    rw [heq]
    exact ⟨h.schedule schedule, rfl, .of_same rfl rfl, hno⟩
  . intro w' ⟨⟨schedule, heq⟩, hno⟩
    rw [heq]
    exact ⟨h.schedule schedule, rfl, .of_same rfl rfl, hno⟩

end Hel
