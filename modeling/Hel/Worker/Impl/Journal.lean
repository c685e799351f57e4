import Hel.Worker.Impl.Codec
import Mathlib.Data.Prod.Lex

/-!
This module contains the files of the relay journal and the functions that read them.
-/

namespace Hel

inductive JournalFile where
  | active
  | activeNew
  | segment (first last : Nat)
  | segmentNew (first last : Nat)
  | staleActive (first last : Nat)

namespace JournalFile

def rank : JournalFile → ℕ ×ₗ ℕ ×ₗ ℕ
  | .active => toLex (0, toLex (0, 0))
  | .activeNew => toLex (1, toLex (0, 0))
  | .segment first last => toLex (2, toLex (first, last))
  | .segmentNew first last => toLex (3, toLex (first, last))
  | .staleActive first last => toLex (4, toLex (first, last))

theorem rank_injective : Function.Injective rank := by
  intro a b h
  cases a <;> cases b <;> simp_all [rank]

instance : LinearOrder JournalFile := LinearOrder.lift' rank rank_injective

def display : JournalFile → String
  | .active => "active.jsonl"
  | .activeNew => "active.jsonl.new"
  | .segment first last => "segment-" ++ toString first ++ "-" ++ toString last ++ ".jsonl.gz"
  | .segmentNew first last =>
    "segment-" ++ toString first ++ "-" ++ toString last ++ ".jsonl.gz.new"
  | .staleActive first last => "stale-active-" ++ toString first ++ "-" ++ toString last ++ ".jsonl"

def isSegment : JournalFile → Bool
  | .segment _ _ => true
  | _ => false

end JournalFile

inductive JournalLine where
  | record (event : RelayEvent)
  | garbage (bytes : Nat)
  deriving DecidableEq

variable (codec : RelayCodec)

def JournalLine.len : JournalLine → Nat
  | .record event => codec.eventLen event
  | .garbage bytes => bytes

/-- `torn` counts the bytes after the last newline. -/
structure JournalContent where
  lines : List JournalLine
  torn : Nat
  deriving DecidableEq

def JournalContent.ofEvents (events : List RelayEvent) : JournalContent where
  lines := events.map .record
  torn := 0

def JournalContent.byteLen (content : JournalContent) : Nat :=
  (content.lines.map (fun line => line.len codec + 1)).sum + content.torn

abbrev JournalFiles := BTreeMap JournalFile JournalContent

structure RelayJournalSpan where
  path : JournalFile
  fileFirstOrdinal : Nat
  fileFirstPreviousDigest : Option String
  fileLastOrdinal : Nat
  fileLastDigest : Option String
  afterOrdinal : Nat

inductive JournalReadMode where
  | strict
  | repairTail
  | recover
  deriving DecidableEq

inductive VisitFlow (σ : Type) where
  | continue (state : σ)
  | break (state : σ)

abbrev JournalVisitor (σ : Type) := σ → RelayEvent → Nat → Except String (VisitFlow σ)

section Visit

variable {σ : Type} (codec : RelayCodec) (path : JournalFile) (mode : JournalReadMode)
  (visitor : JournalVisitor σ) (torn : Nat)

def visitRelayJournalLines : List JournalLine → σ → Except String σ
  | [], state =>
    -- A torn tail ends the scan without being parsed.
    if torn > RELAY_EVENT_BYTE_BUDGET then
      .error ("read relay journal " ++ path.display)
    else
      .ok state
  | line :: rest, state =>
    if line.len codec > RELAY_EVENT_BYTE_BUDGET then
      .error ("read relay journal " ++ path.display)
    else
      match line with
      | .garbage bytes =>
        -- An empty line is no record.
        if bytes = 0 ∨ mode = .recover then
          visitRelayJournalLines rest state
        else
          .error ("parse relay journal " ++ path.display)
      | .record event =>
        -- Recovery skips a record that does not recompute its own digest.
        if mode = .recover ∧ (validateRelayEventSelf codec event).toBool = false then
          visitRelayJournalLines rest state
        else
          match visitor state event (codec.eventLen event) with
          | .error e => .error e
          | .ok (.break state) => .ok state
          | .ok (.continue state) => visitRelayJournalLines rest state

/-- What a reader finds at a path: the existence check and the opening of the file are two steps. -/
inductive Sighting where
  | absent
  | vanished
  | present (content : JournalContent)
  deriving DecidableEq

def Sighting.of : Option JournalContent → Sighting
  | none => .absent
  | some content => .present content

def visitSighting (sighting : Sighting) (state : σ) : Except String σ :=
  match sighting with
  | .absent => .ok state
  | .vanished => .error ("open " ++ path.display)
  | .present content =>
    visitRelayJournalLines codec path mode visitor content.torn content.lines state

def visitRelayJournalFile (files : JournalFiles) (state : σ) : Except String σ :=
  visitSighting codec path mode visitor (.of (files.get? path)) state

end Visit

structure Inspection where
  first : Option RelayEvent
  previous : Option RelayEvent

def validateSuccessor (previous : Option RelayEvent) (event : RelayEvent) : Except String Unit :=
  match previous with
  | some previous => validateRelayEvent codec previous.ordinal previous.digest event
  | none => validateRelayEventSelf codec event

def inspectVisitor (path : JournalFile) : JournalVisitor Inspection :=
  fun state event encodedLen =>
    match ensureByteBudget encodedLen RELAY_EVENT_BYTE_BUDGET "relay event" with
    | .error e => .error e
    | .ok () =>
      match validateSuccessor codec state.previous event with
      | .error _ => .error ("validate relay journal " ++ path.display)
      | .ok () =>
        .ok (.continue
          { first := if state.previous.isSome then state.first else some event
            previous := some event })

def inspectRelayJournalFile (files : JournalFiles) (path : JournalFile) :
    Except String (Option RelayJournalSpan) :=
  match visitRelayJournalFile codec path .repairTail (inspectVisitor codec path) files
      { first := none, previous := none } with
  | .error e => .error e
  | .ok { first := some first, previous := some last } =>
    .ok (some
      { path := path
        fileFirstOrdinal := first.ordinal
        fileFirstPreviousDigest := if first.previousDigest ≠ "" then some first.previousDigest else none
        fileLastOrdinal := last.ordinal
        fileLastDigest := some last.digest
        afterOrdinal := 0 })
  | .ok _ => .ok none

def sealedRelayJournalMetadata (first last : Nat) : Except String RelayJournalSpan :=
  if first = 0 ∨ first > last then
    .error
      ("invalid sealed relay segment range " ++ toString first ++ "-" ++ toString last)
  else
    .ok
      { path := .segment first last
        fileFirstOrdinal := first
        fileFirstPreviousDigest := none
        fileLastOrdinal := last
        fileLastDigest := none
        afterOrdinal := 0 }

def journalFileSpans (codec : RelayCodec) (files : JournalFiles) :
    List JournalFile → Except String (List RelayJournalSpan)
  | [] => .ok []
  | .active :: rest =>
    match inspectRelayJournalFile codec files .active with
    | .error e => .error e
    | .ok span =>
      match journalFileSpans codec files rest with
      | .error e => .error e
      | .ok spans => .ok (span.toList ++ spans)
  | .segment first last :: rest =>
    match sealedRelayJournalMetadata first last with
    | .error e => .error e
    | .ok span =>
      match journalFileSpans codec files rest with
      | .error e => .error e
      | .ok spans => .ok (span :: spans)
  | _ :: rest => journalFileSpans codec files rest

def furthestSpan : List RelayJournalSpan → Option RelayJournalSpan
  | [] => none
  | span :: rest =>
    match furthestSpan rest with
    | none => some span
    | some best =>
      if span.fileLastOrdinal > best.fileLastOrdinal
          ∨ span.fileLastOrdinal = best.fileLastOrdinal ∧ span.path = .active ∧ best.path ≠ .active
      then
        some span
      else
        some best

/--
Cover the ordinals after `previousOrdinal` up to `journalLatest`. Every step moves forward, so
`journalLatest - previousOrdinal` steps are enough.
-/
def assembleSpans (files : List RelayJournalSpan) (journalLatest : Nat) :
    (fuel : Nat) → (previousOrdinal : Nat) → Except String (List RelayJournalSpan)
  | 0, _ => .ok []
  | fuel + 1, previousOrdinal =>
    if previousOrdinal < journalLatest then
      let candidates := files.filter (fun file =>
        file.fileFirstOrdinal ≤ previousOrdinal + 1 && file.fileLastOrdinal > previousOrdinal)
      match furthestSpan candidates with
      | none => .error ("relay journal has a gap after event " ++ toString previousOrdinal)
      | some candidate =>
        match assembleSpans files journalLatest fuel candidate.fileLastOrdinal with
        | .error e => .error e
        | .ok spans => .ok ({ candidate with afterOrdinal := previousOrdinal } :: spans)
    else
      .ok []

structure TailRecovery where
  snapshot : RelaySnapshot
  hotEvents : List RelayEvent
  boundaryVerified : Bool

def pushBounded {α : Type} (capacity : Nat) (items : List α) (item : α) : List α :=
  (if items.length = capacity then items.tail else items) ++ [item]

def tailVisitor (path : JournalFile) (boundary : Nat) : JournalVisitor TailRecovery :=
  fun state event _ =>
    if event.ordinal < boundary then
      .ok (.continue state)
    else if event.ordinal = boundary then
      if event.digest ≠ state.snapshot.latestDigest then
        .error
          ("overlapping relay journal " ++ path.display ++ " conflicts at event "
            ++ toString event.ordinal)
      else
        .ok (.continue { state with boundaryVerified := true })
    else if !state.boundaryVerified then
      .error
        ("overlapping relay journal " ++ path.display ++ " does not contain boundary event "
          ++ toString boundary)
    else
      match validateRelayEvent codec state.snapshot.latestOrdinal state.snapshot.latestDigest event with
      | .error _ => .error "validate relay journal recovery tail"
      | .ok () =>
        match applyRelayEvent codec state.snapshot event with
        | .error e => .error e
        | .ok snapshot =>
          .ok (.continue
            { state with
              snapshot := snapshot
              hotEvents := pushBounded RELAY_HOT_EVENT_CAPACITY state.hotEvents event })

def recoverTail (codec : RelayCodec) (files : JournalFiles) :
    List RelayJournalSpan → RelaySnapshot × List RelayEvent →
      Except String (RelaySnapshot × List RelayEvent)
  | [], state => .ok state
  | span :: rest, (snapshot, hotEvents) =>
    if span.fileLastOrdinal ≤ snapshot.latestOrdinal then
      recoverTail codec files rest (snapshot, hotEvents)
    else
      let state : TailRecovery :=
        { snapshot := snapshot
          hotEvents := hotEvents
          boundaryVerified := span.fileFirstOrdinal = snapshot.latestOrdinal + 1 }
      match visitRelayJournalFile codec span.path .strict
          (tailVisitor codec span.path snapshot.latestOrdinal) files state with
      | .error e => .error e
      | .ok state =>
        if state.snapshot.latestOrdinal ≠ span.fileLastOrdinal then
          .error
            ("relay journal " ++ span.path.display ++ " ended at event "
              ++ toString state.snapshot.latestOrdinal ++ ", expected "
              ++ toString span.fileLastOrdinal)
        else
          recoverTail codec files rest (state.snapshot, state.hotEvents)

structure RecentScan where
  previous : Option RelayEvent
  events : List RelayEvent

def recentVisitor (span : RelayJournalSpan) (latestOrdinal : Nat) : JournalVisitor RecentScan :=
  fun state event _ =>
    match validateSuccessor codec state.previous event with
    | .error _ => .error ("validate relay journal " ++ span.path.display)
    | .ok () =>
      .ok (.continue
        { previous := some event
          events :=
            if event.ordinal > span.afterOrdinal ∧ event.ordinal ≤ latestOrdinal then
              state.events ++ [event]
            else
              state.events })

def recentEvents (codec : RelayCodec) (files : JournalFiles) (latestOrdinal : Nat) :
    (spansLatestFirst : List RelayJournalSpan) → (recent : List RelayEvent) →
      Except String (List RelayEvent)
  | [], recent => .ok recent
  | span :: rest, recent =>
    match visitRelayJournalFile codec span.path .strict
        (recentVisitor codec span latestOrdinal) files
        { previous := none, events := [] } with
    | .error e => .error e
    | .ok scan =>
      let wanted := RELAY_HOT_EVENT_CAPACITY - recent.length
      let recent := scan.events.drop (scan.events.length - wanted) ++ recent
      if recent.length = RELAY_HOT_EVENT_CAPACITY then
        .ok recent
      else
        recentEvents codec files latestOrdinal rest recent

def frontierConflict (s : RelaySnapshot) : Option String :=
  let conflicts (ordinal : Nat) (digest : String) : Bool :=
    ordinal = s.retainedThrough && digest ≠ s.retainedDigest
  if conflicts s.latestOrdinal s.latestDigest then
    some "relay snapshot digest conflicts with retained frontier"
  else if conflicts s.acknowledgedThrough s.acknowledgedDigest then
    some "relay acknowledgement digest conflicts with retained frontier"
  else if conflicts s.recoveryFloorOrdinal s.recoveryFloorDigest then
    some "relay recovery floor digest conflicts with retained frontier"
  else
    none

def frontierMissing (s : RelaySnapshot) (journalLatest : Nat) : Option String :=
  let missing (ordinal : Nat) : Bool :=
    ordinal > s.retainedThrough && ordinal > journalLatest
  if journalLatest < s.latestOrdinal then
    some
      ("relay snapshot frontier " ++ toString s.latestOrdinal ++ " is ahead of retained journal "
        ++ toString journalLatest)
  else if missing s.latestOrdinal then
    some ("relay snapshot event " ++ toString s.latestOrdinal ++ " is not retained")
  else if missing s.acknowledgedThrough then
    some ("relay acknowledgement event " ++ toString s.acknowledgedThrough ++ " is not retained")
  else if missing s.recoveryFloorOrdinal then
    some ("relay recovery floor event " ++ toString s.recoveryFloorOrdinal ++ " is not retained")
  else
    none

def frontierUnread (retainedThrough : Nat) (s : RelaySnapshot) (hotEvents : List RelayEvent) :
    Option String :=
  if s.latestOrdinal > retainedThrough then
    match hotEvents.getLast? with
    | none =>
      some ("relay journal is missing snapshot frontier event " ++ toString s.latestOrdinal)
    | some latest =>
      if latest.ordinal ≠ s.latestOrdinal ∨ latest.digest ≠ s.latestDigest then
        some ("relay snapshot digest conflicts with journal event " ++ toString s.latestOrdinal)
      else
        none
  else
    none

structure OpenedJournal where
  snapshot : RelaySnapshot
  spans : List RelayJournalSpan
  hotEvents : List RelayEvent
  staleActive : Option RelayJournalSpan

def journalLatest (fileSpans : List RelayJournalSpan) (retainedThrough : Nat) : Nat :=
  (fileSpans.map (·.fileLastOrdinal)).max?.getD retainedThrough

def recentTail (files : JournalFiles) (recovered : RelaySnapshot)
    (spans : List RelayJournalSpan) (tailEvents : List RelayEvent) : Except String (List RelayEvent) :=
  if tailEvents.length < RELAY_HOT_EVENT_CAPACITY then
    recentEvents codec files recovered.latestOrdinal spans.reverse []
  else
    .ok tailEvents

def placeActive (fileSpans spans : List RelayJournalSpan) (reached : Nat) :
    List RelayJournalSpan × Option RelayJournalSpan :=
  match fileSpans.find? (·.path = .active) with
  | none => (spans, none)
  | some activeFile =>
    if spans.any (·.path = .active) then
      (spans, none)
    else if activeFile.fileLastOrdinal = reached then
      (spans ++ [{ activeFile with afterOrdinal := reached }], none)
    else if activeFile.fileLastOrdinal < reached then
      (spans, some activeFile)
    else
      (spans, none)

def recoverJournal (files : JournalFiles) (snapshot : RelaySnapshot)
    (fileSpans : List RelayJournalSpan) : Except String OpenedJournal :=
  let retainedThrough := snapshot.retainedThrough
  let latest := journalLatest fileSpans retainedThrough
  match assembleSpans fileSpans latest (latest - retainedThrough) retainedThrough with
  | .error e => .error e
  | .ok spans =>
    match frontierMissing snapshot latest with
    | some message => .error message
    | none =>
      match recoverTail codec files spans (snapshot, []) with
      | .error e => .error e
      | .ok (recovered, tailEvents) =>
        match recentTail codec files recovered spans tailEvents with
        | .error e => .error e
        | .ok hotEvents =>
          match frontierUnread retainedThrough recovered hotEvents with
          | some message => .error message
          | none =>
            let reached := (spans.getLast?.map (·.fileLastOrdinal)).getD retainedThrough
            let placed := placeActive fileSpans spans reached
            .ok
              { snapshot := recovered
                spans := placed.1
                hotEvents := hotEvents
                staleActive := placed.2 }

def readRelayJournal (files : JournalFiles) (snapshot : RelaySnapshot) :
    Except String OpenedJournal :=
  match journalFileSpans codec files files.keys with
  | .error e => .error e
  | .ok fileSpans =>
    match frontierConflict snapshot with
    | some message => .error message
    | none => recoverJournal codec files snapshot fileSpans

end Hel
