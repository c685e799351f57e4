import Hel.Data.Directory
import Hel.Data.Program
import Hel.Worker.Impl.Replay

/-!
This module contains the durable storage of the relay.
-/

namespace Hel

structure DurableRelay where
  snapshot : RelaySnapshot
  journalSpans : List RelayJournalSpan
  hotEvents : List RelayEvent
  replayCursors : List (Nat × String)
  unpersistedJournalBytes : Nat
  journalGeneration : Nat

inductive CanonicalQueuedCommandKind where
  | prompt
  | setConfig (key value : String)
  deriving DecidableEq

structure CanonicalQueuedPrompt where
  commandId : String
  kind : CanonicalQueuedCommandKind
  content : List ContentBlock
  queuedAtMs : Int
  deriving DecidableEq

structure RestoredRelaySeed where
  eventFrontier : Nat
  eventFrontierDigest : String
  queuedPrompts : List CanonicalQueuedPrompt
  deriving DecidableEq

/-- The directory of a relay. `relay-state.json` is replaced atomically, so it is one value. -/
structure Disk where
  journal : Directory JournalFile JournalContent
  stateFile : Option RelaySnapshot
  seed : Option RestoredRelaySeed

/-- What the environment does to an operation: the clock, write errors and where it crashes. -/
structure Schedule where
  clock : Nat → Int
  ticks : Nat
  persistFails : List Bool
  crashAfter : Option Nat
  tornBytes : Nat

/--
No operation reads the bookkeeping: `history` holds every event that was durably appended, `held` the
snapshot in force at the last durable write and `collected` where the journal was last rewritten.
-/
structure World where
  relay : DurableRelay
  disk : Disk
  schedule : Schedule
  history : List RelayEvent
  held : RelaySnapshot
  collected : Nat
  invalidations : Nat

abbrev RelayM := Program World

open Program (fail get modify ofExcept)

def epochMillis : RelayM Int :=
  fun w =>
    (.ok (w.schedule.clock w.schedule.ticks),
      { w with schedule := { w.schedule with ticks := w.schedule.ticks + 1 } })

def modifyRelay (f : DurableRelay → DurableRelay) : RelayM Unit :=
  modify (fun w => { w with relay := f w.relay })

def diskStep (effect torn : World → World) : RelayM Unit :=
  fun w =>
    match w.schedule.crashAfter with
    | some 0 => (.crash, torn w)
    | some (n + 1) =>
      (.ok (), effect { w with schedule := { w.schedule with crashAfter := some n } })
    | none => (.ok (), effect w)

def World.mapJournal (w : World)
    (f : Directory JournalFile JournalContent → Directory JournalFile JournalContent) : World :=
  { w with disk := { w.disk with journal := f w.disk.journal } }

def journalOp (op : DirectoryOp JournalFile JournalContent) : RelayM Unit :=
  diskStep (·.mapJournal (·.perform op)) id

def writeFile (name : JournalFile) (content : JournalContent) : RelayM Unit :=
  diskStep (·.mapJournal (·.write name content)) id

def syncDirectory : RelayM Unit :=
  diskStep (·.mapJournal (·.sync)) id

variable (codec : RelayCodec)

def persistRelaySnapshot (snapshot : RelaySnapshot) : RelayM Unit := do
  ofExcept
    (ensureByteBudget (codec.snapshotPrettyLen snapshot) RELAY_SNAPSHOT_BYTE_BUDGET "relay snapshot")
  let w ← get
  modify (fun w =>
    { w with schedule := { w.schedule with persistFails := w.schedule.persistFails.tail } })
  if w.schedule.persistFails.headD false then
    fail "write relay-state.json"
  else
    diskStep
      (fun w => { w with disk := { w.disk with stateFile := some snapshot }, held := snapshot }) id

def persistSnapshot : RelayM Unit := do
  let w ← get
  persistRelaySnapshot codec w.relay.snapshot
  modifyRelay ({ · with unpersistedJournalBytes := 0 })

def commitSnapshot (next : RelaySnapshot) : RelayM Unit := do
  persistRelaySnapshot codec next
  modifyRelay ({ · with snapshot := next, unpersistedJournalBytes := 0 })

def invalidateReplayPlans : RelayM Unit :=
  modify (fun w =>
    { w with
      relay := { w.relay with journalGeneration := (w.relay.journalGeneration + 1) % 2 ^ 64 }
      invalidations := w.invalidations + 1 })

def copyVisitor : JournalVisitor (List RelayEvent) :=
  fun events event _ => .ok (.continue (events ++ [event]))

def setSpanPath (spans : List RelayJournalSpan) (index : Nat) (path : JournalFile) :
    List RelayJournalSpan :=
  spans.modify index ({ · with path := path })

def sealActiveRelaySegment (index : Nat) (metadata : RelayJournalSpan) : RelayM Unit := do
  let w ← get
  let first := metadata.fileFirstOrdinal
  let last := metadata.fileLastOrdinal
  let events ←
    ofExcept (visitRelayJournalFile codec .active .strict copyVisitor w.disk.journal.files [])
  writeFile (.segmentNew first last) (.ofEvents events)
  journalOp (.rename (.segmentNew first last) (.segment first last))
  -- The sealed copy must be durable before the active segment is replaced.
  syncDirectory
  writeFile .activeNew (.ofEvents [])
  journalOp (.rename .activeNew .active)
  modifyRelay (fun relay =>
    { relay with
      journalSpans := setSpanPath relay.journalSpans index (.segment first last) })
  syncDirectory

def sealActiveSegmentIfNeeded : RelayM Unit := do
  let w ← get
  match w.disk.journal.read? .active with
  | none => pure ()
  | some content =>
    if content.byteLen codec < RELAY_SEGMENT_BYTE_LIMIT then
      pure ()
    else
      match w.relay.journalSpans.findIdx? (·.path = .active) with
      | none => fail "active relay segment has data but no journal metadata"
      | some index =>
        invalidateReplayPlans
        match w.relay.journalSpans[index]? with
        | none => fail "active relay segment has data but no journal metadata"
        | some metadata => sealActiveRelaySegment codec index metadata

def World.recordDurable (w : World) (codec : RelayCodec) (event : RelayEvent) : World :=
  { w with
    history := w.history ++ [event]
    held :=
      match applyRelayEvent codec w.held event with
      | .ok s => s
      | .error _ => w.held }

/--
The first bytes of a record and its newline reach the end of a file, all of them or as many as were
written before a failure. Behind a part of another record they complete a line that is no record.
-/
def JournalContent.write (event : RelayEvent) (bytes : Nat)
    (content : JournalContent) : JournalContent :=
  if bytes ≤ codec.eventLen event then
    { content with torn := content.torn + bytes }
  else if content.torn = 0 then
    { content with lines := content.lines ++ [.record event] }
  else
    { lines := content.lines ++ [.garbage (content.torn + codec.eventLen event)], torn := 0 }

def writeRecord (event : RelayEvent) : RelayM Unit := do
  let w ← get
  match w.disk.journal.read? .active with
  | some _ =>
    diskStep
      (fun w =>
        (w.mapJournal (·.update .active
          (·.write codec event (codec.eventLen event + 1)))).recordDurable codec event)
      (fun w => w.mapJournal (·.update .active (·.write codec event w.schedule.tornBytes)))
  | none =>
    diskStep
      (·.mapJournal (·.perform (.create .active (.ofEvents [event]))))
      (fun w =>
        w.mapJournal (·.perform (.create .active
          (.write codec event w.schedule.tornBytes (.ofEvents [])))))
    diskStep (fun w => (w.mapJournal (·.sync)).recordDurable codec event) id

variable (relay : DurableRelay)

def recordJournalAppend (event : RelayEvent) : DurableRelay :=
  match relay.journalSpans.getLast? with
  | some span =>
    if span.path = .active then
      { relay with
        journalSpans := relay.journalSpans.dropLast ++
          [{ span with
              fileLastOrdinal := event.ordinal
              fileLastDigest := some event.digest }] }
    else
      { relay with journalSpans := relay.journalSpans ++ [freshSpan] }
  | none => { relay with journalSpans := relay.journalSpans ++ [freshSpan] }
where
  freshSpan : RelayJournalSpan :=
    { path := .active
      fileFirstOrdinal := event.ordinal
      fileFirstPreviousDigest := if event.previousDigest ≠ "" then some event.previousDigest else none
      fileLastOrdinal := event.ordinal
      fileLastDigest := some event.digest
      afterOrdinal := event.ordinal - 1 }

def pushHotEvent (event : RelayEvent) : DurableRelay :=
  { relay with hotEvents := pushBounded RELAY_HOT_EVENT_CAPACITY relay.hotEvents event }

def stampEvent (ordinal : Nat) (recordedAtMs : Int) (commandId : Option String)
    (observation : RelayObservation) : RelayEvent where
  format := RELAY_EVENT_FORMAT_V2
  ordinal := ordinal
  previousDigest := ""
  digest := codec.digestV2 ordinal recordedAtMs commandId observation
  recordedAtMs := recordedAtMs
  commandId := commandId
  observation := observation

def stageSnapshot (snapshot : RelaySnapshot) (event : RelayEvent) :
    Except String (Option RelaySnapshot) :=
  if observationChangesState event.observation then do
    let next ← applyRelayEvent codec snapshot event
    ensureByteBudget (codec.snapshotLen next) RELAY_SNAPSHOT_BYTE_BUDGET "relay snapshot"
    ensureByteBudget (codec.operationalStateLen next.operationalState) RELAY_STATE_BYTE_BUDGET
      "relay operational state"
    pure (some next)
  else
    pure none

def publishAppend (next : RelaySnapshot) (event : RelayEvent) (encodedLen : Nat) : DurableRelay :=
  let relay := recordJournalAppend { relay with snapshot := next } event
  let relay := pushHotEvent relay event
  { relay with unpersistedJournalBytes := relay.unpersistedJournalBytes + encodedLen }

def appendRelayEvent (commandId : Option String) (observation : RelayObservation) : RelayM Nat := do
  let w ← get
  let snapshot := w.relay.snapshot
  if snapshot.latestOrdinal ≥ U64_MAX then
    fail "relay event ordinal exhausted"
  else
    let observation := clampObservation codec observation RELAY_OBSERVATION_BYTE_BUDGET
    let recordedAtMs ← epochMillis
    let event := stampEvent codec (snapshot.latestOrdinal + 1) recordedAtMs commandId observation
    ofExcept (ensureByteBudget (codec.eventLen event) RELAY_EVENT_BYTE_BUDGET "relay event")
    let staged ← ofExcept (stageSnapshot codec snapshot event)
    sealActiveSegmentIfNeeded codec
    writeRecord codec event
    let next ← ofExcept (staged.elim (applyRelayEvent codec snapshot event) .ok)
    modifyRelay (publishAppend · next event (codec.eventLen event + 1))
    let w ← get
    if staged.isSome ∨ w.relay.unpersistedJournalBytes ≥ RELAY_SNAPSHOT_LAG_BYTE_LIMIT then
      persistSnapshot codec
    pure event.ordinal

structure Rewrite where
  events : List RelayEvent
  writtenThrough : Nat

def rewriteVisitor (retainAfter : Nat) (span : RelayJournalSpan) : JournalVisitor Rewrite :=
  fun state event _ =>
    if event.ordinal ≤ span.afterOrdinal ∨ event.ordinal ≤ state.writtenThrough then
      .ok (.continue state)
    else if event.ordinal ≤ retainAfter then
      .ok (.continue { state with writtenThrough := event.ordinal })
    else if event.ordinal ≠ state.writtenThrough + 1 then
      .error
        ("relay journal rewrite has a gap: expected " ++ toString (state.writtenThrough + 1)
          ++ ", found " ++ toString event.ordinal)
    else
      .ok (.continue { events := state.events ++ [event], writtenThrough := event.ordinal })

def rewriteSpans (codec : RelayCodec) (files : JournalFiles) (retainAfter : Nat) :
    List RelayJournalSpan → Rewrite → Except String Rewrite
  | [], state => .ok state
  | span :: rest, state =>
    match visitRelayJournalFile codec span.path .strict (rewriteVisitor retainAfter span) files
        state with
    | .error e => .error e
    | .ok state => rewriteSpans codec files retainAfter rest state

def rewrittenSpans (retainAfter : Nat) (events : List RelayEvent) : List RelayJournalSpan :=
  match events.head?, events.getLast? with
  | some first, some last =>
    [{ path := .active
       fileFirstOrdinal := first.ordinal
       fileFirstPreviousDigest := some first.previousDigest
       fileLastOrdinal := last.ordinal
       fileLastDigest := some last.digest
       afterOrdinal := retainAfter }]
  | _, _ => []

def unlinkAll : List JournalFile → RelayM Unit
  | [] => pure ()
  | name :: rest => do
    journalOp (.unlink name)
    unlinkAll rest

def rewriteRelayJournal (retainAfter : Nat) : RelayM Unit := do
  invalidateReplayPlans
  let w ← get
  let rewrite ←
    ofExcept
      (rewriteSpans codec w.disk.journal.files retainAfter w.relay.journalSpans
        { events := [], writtenThrough := retainAfter })
  modify ({ · with collected := retainAfter })
  writeFile .activeNew (.ofEvents rewrite.events)
  journalOp (.rename .activeNew .active)
  modifyRelay ({ · with journalSpans := rewrittenSpans retainAfter rewrite.events })
  -- The replacement must be durable before any segment with the same events goes away.
  syncDirectory
  let w ← get
  unlinkAll (w.disk.journal.files.keys.filter (·.isSegment))
  syncDirectory

def prunableCommandIds (snapshot : RelaySnapshot) (through : Nat) : List String :=
  (snapshot.handledCommands.entries.filter (fun entry =>
    match entry.2.terminalOrdinal with
    | some terminal => terminal ≤ through
    | none => false)).map (·.1)

def forgetCommand (s : RelaySnapshot) (commandId : String) : RelaySnapshot :=
  { s with
    handledCommands := s.handledCommands.remove commandId
    dispatches := s.dispatches.remove commandId }

def journalFloor : Nat :=
  match relay.journalSpans.head? with
  | some span => span.afterOrdinal
  | none => relay.snapshot.latestOrdinal

def collectEvents (through : Nat) : RelayM Unit := do
  let w ← get
  if through > journalFloor w.relay then
    -- Recovery replays from the retained frontier of the snapshot file, so that comes first.
    if w.relay.unpersistedJournalBytes > 0 then
      persistSnapshot codec
    rewriteRelayJournal codec through

def collectCommands (through : Nat) : RelayM Unit := do
  let w ← get
  let prunable := prunableCommandIds w.relay.snapshot through
  if !prunable.isEmpty ∨ w.relay.unpersistedJournalBytes > 0 then
    commitSnapshot codec (prunable.foldl forgetCommand w.relay.snapshot)

def garbageCollectRelayHistory : RelayM Unit := do
  let w ← get
  let through := w.relay.snapshot.retainedThrough
  collectEvents codec through
  collectCommands codec through
  modifyRelay (fun relay =>
    { relay with hotEvents := relay.hotEvents.filter (fun event => event.ordinal > through) })

end Hel
