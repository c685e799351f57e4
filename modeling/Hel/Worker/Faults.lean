import Hel.Worker.Recovery

/-!
This module contains operations of a relay on a disk that fails under them.
-/

namespace Hel

variable {codec : RelayCodec} {sessionId : String} {sys : System} {w : World}
  {kept : List (DirectoryOp JournalFile JournalContent)}

/--
An operation on a disk that fails where its schedule has a crash. The error is returned, and the
process goes on with what it has in memory.
-/
def failing {α : Type} (x : RelayM α) : RelayM α :=
  fun w =>
    match x w with
    | (.crash, w) =>
      (.error "input/output error", { w with schedule := { w.schedule with crashAfter := none } })
    | result => result

/-- The active segment holds whole records with consecutive ordinals, and every mode reads them. -/
def Readable (codec : RelayCodec) (files : JournalFiles) : Prop :=
  ∀ content, files.get? .active = some content → ∃ after events,
    content.lines = events.map .record ∧ Numbered RelayEvent.ordinal after events ∧
      ∀ mode, visitRelayJournalFile codec .active mode copyVisitor files [] = .ok events

theorem JournalRep.readable {origin : Origin} {history : List RelayEvent} {floor : Nat}
    {files : JournalFiles} (h : JournalRep origin history floor files)
    (hr : Recorded codec origin history) : Readable codec files := by
  intro content hget
  obtain ⟨after, hactive⟩ := h.active content hget
  refine ⟨after, _, hactive.lines_eq, numbered_slice hr.numbered hactive.origin_le, ?_⟩
  intro mode
  rw [visitRelayJournalFile_records copyVisitor hget hactive.lines_eq hactive.torn_le
    (genuine_between hr), foldVisitor_copyVisitor, List.nil_append]

theorem Recoverable.readable {origin : Origin} (h : Recoverable codec origin Anything sessionId w)
    : Readable codec w.disk.journal.files := by
  have hvalid := h.valid
  rcases h.journal.files with hrep | ⟨event, next, _, htransition, hrep, _, _⟩
  . exact hrep.readable hvalid.recorded
  . exact hrep.readable (htransition.valid hvalid).recorded

/-- A failure leaves the journal as a crash would: readable, and with every event that was kept. -/
theorem failed_append_leaves_readable (h : Reachable codec sessionId FloorSafeStep sys)
    (hrunning : sys.running) (op : RelayOp) (schedule : Schedule)
    (hsafe : FloorSafeStep sys (.operate op schedule))
    (hw : (failing (execute codec op) (sys.world.under schedule)).2 = w)
    : Readable codec w.disk.journal.files ∧
      ∀ kept, kept.Sublist w.disk.journal.pending → Reopens codec sessionId w kept calm := by
  obtain ⟨origin, hguarded, hsane⟩ := reachable_sane True h permits_floorSafe
  have hpermits : Permits Anything origin.guarded sys (.operate op schedule) := by
    rw [hguarded]
    exact permits_floorSafe sys _ hsafe
  have hcrash := (execute_crash hsane hrunning op schedule hpermits rfl).1
  have hrecoverable : Recoverable codec origin Anything sessionId w := by
    rw [← hw]
    unfold failing
    split
    next w' heq =>
      rw [heq] at hcrash
      exact ⟨hcrash.durable.imp fun _ hdurable => hdurable.schedule _, hcrash.journal⟩
    next => exact hcrash
  refine ⟨hrecoverable.readable, fun kept hkept => ?_⟩
  exact hrecoverable.reopens (hguarded ▸ trivial) hkept rfl rfl

-- A second warning fails after so many bytes of its record and its newline.
def failedWarning (bytes : Nat) : Outcome (List ClaimedRelayCommand) × World :=
  failing (execute plainCodec warn) ((plainSystem [openNow, perform warn]).world.under
    { calm with crashAfter := some 0, tornBytes := bytes })

theorem failed_append_leaves_readable_of_part
    : (failedWarning 1).1 = .error "input/output error" ∧
      Readable plainCodec (failedWarning 1).2.disk.journal.files ∧
      Reopens plainCodec "session-1" (failedWarning 1).2 [] calm := by
  have hreachable : Reachable plainCodec "session-1" FloorSafeStep
      (plainSystem [openNow, perform warn]) := by
    apply reachable_plainSystem
    simp [openNow, perform, warn, FloorSafeStep]
  obtain ⟨hreadable, hreopens⟩ := failed_append_leaves_readable hreachable rfl warn
    { calm with crashAfter := some 0, tornBytes := 1 } trivial rfl
  exact ⟨rfl, hreadable, hreopens [] (List.nil_sublist _)⟩

def servedAfter (bytes : Nat) : Outcome (List ClaimedRelayCommand) × World :=
  execute plainCodec warn ((failedWarning bytes).2.under calm)

-- The record behind a part of another one is no line of its own, and one behind a whole record that
-- was not synced has the same ordinal.
theorem append_after_failure_unreadable
    : (servedAfter 1).1 = .ok [] ∧
      (openRelay plainCodec "session-1" ((servedAfter 1).2.recovered plainCodec [] calm)).1
        = .error "parse relay journal active.jsonl" ∧
      visitRelayJournalFile plainCodec .active .strict copyVisitor
          (servedAfter 1).2.disk.journal.files []
        = .error "parse relay journal active.jsonl" ∧
      (servedAfter 2).1 = .ok [] ∧
      (openRelay plainCodec "session-1" ((servedAfter 2).2.recovered plainCodec [] calm)).1
        = .error "validate relay journal active.jsonl" := by
  decide +kernel

end Hel
