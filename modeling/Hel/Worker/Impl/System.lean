import Hel.Worker.Impl.Open

/-!
This module contains the whole relay over time.
-/

namespace Hel

open Program (get)

inductive RelayOp where
  | submit (commandId : String) (command : RelayCommand)
  | claim (acpSessionConfigured : Bool) (maximum : Nat)
  | claimUserShells (maximumRuns : Nat)
  | completed (commandId : String) (outcome : RelayCommandOutcome)
  | rejected (commandId message : String)
  | interrupted (commandId message : String)
  | checkpointReady (commandId : String)
  | cancelBarrier (commandId : String)
  | observe (observation : RelayObservation) (fromAgent : observation.fromAgent)
  | reportClosed
  | acknowledge (throughOrdinal : Nat) (throughDigest : String)
  | installContext (text : String)
  | attach (afterOrdinal : Nat) (afterDigest : String)

variable (codec : RelayCodec)

def reportClosed : RelayM Unit := do
  let w ← get
  match w.relay.snapshot.execution with
  | .closed => do
    let _ ← recordObservation codec .closed
    pure ()
  | _ => pure ()

def execute : RelayOp → RelayM (List ClaimedRelayCommand)
  | .submit commandId command => do
    let _ ← submitCommand codec commandId command
    pure []
  | .claim acpSessionConfigured maximum =>
    claimPendingCommandsUpTo codec acpSessionConfigured maximum
  | .claimUserShells maximumRuns => claimPendingUserShellCommandsUpTo codec maximumRuns
  | .completed commandId outcome => do
    let _ ← recordCommandCompleted codec commandId outcome
    pure []
  | .rejected commandId message => do
    let _ ← recordCommandRejected codec commandId message
    pure []
  | .interrupted commandId message => do
    let _ ← recordCommandInterrupted codec commandId message
    pure []
  | .checkpointReady commandId => do
    let _ ← recordCheckpointReady codec commandId
    pure []
  | .cancelBarrier commandId => do
    let _ ← cancelCheckpointBarrierOnDisconnect codec commandId
    pure []
  | .observe observation _ => do
    let _ ← recordObservation codec observation
    pure []
  | .reportClosed => do
    reportClosed codec
    pure []
  | .acknowledge throughOrdinal throughDigest => do
    let _ ← acknowledge codec throughOrdinal throughDigest
    pure []
  | .installContext text => do
    installPromptContext codec text
    pure []
  | .attach afterOrdinal afterDigest => do
    let _ ← attachRelay codec afterOrdinal afterDigest
    pure []

structure System where
  world : World
  running : Bool
  handedOut : List ClaimedRelayCommand

inductive Action where
  | operate (op : RelayOp) (schedule : Schedule)
  | stop
  -- The pending operations of the directory that the crash kept.
  | reopen (kept : List (DirectoryOp JournalFile JournalContent)) (schedule : Schedule)

namespace World

def under (w : World) (schedule : Schedule) : World :=
  { w with schedule := schedule }

def crashed (w : World) (kept : List (DirectoryOp JournalFile JournalContent)) : World :=
  w.mapJournal (fun d => { stable := kept.foldl DirectoryOp.apply d.stable, pending := [] })

-- A record that reached the disk although its append did not return belongs to the history.
def adoptSurvivor (codec : RelayCodec) (w : World) : World :=
  match (w.disk.journal.read? .active).bind (·.lines.getLast?) with
  | some (.record event) =>
    if event.ordinal = w.held.latestOrdinal + 1 then
      match applyRelayEvent codec w.held event with
      | .ok next => { w with history := w.history ++ [event], held := next }
      | .error _ => w
    else
      w
  | _ => w

def recovered (codec : RelayCodec) (w : World)
    (kept : List (DirectoryOp JournalFile JournalContent)) (schedule : Schedule) : World :=
  ((w.crashed kept).adoptSurvivor codec).under schedule

end World

namespace System

def operated (sys : System) : Outcome (List ClaimedRelayCommand) × World → System
  | (.ok claimed, w) => { world := w, running := true, handedOut := sys.handedOut ++ claimed }
  | (.error _, w) => { sys with world := w, running := true }
  | (.crash, w) => { sys with world := w, running := false }

def opened (sys : System) : Outcome Unit × World → System
  | (.ok (), w) => { sys with world := w, running := true }
  | (.error _, w) => { sys with world := w, running := false }
  | (.crash, w) => { sys with world := w, running := false }

def initial (sessionId : String) (seed : Option RestoredRelaySeed) (memory : DurableRelay)
    (schedule : Schedule) : Except String System :=
  match initialSnapshot sessionId seed with
  | .error e => .error e
  | .ok snapshot =>
    .ok
      { world :=
          { relay := memory
            disk := { journal := Directory.empty, stateFile := none, seed := seed }
            schedule := schedule
            history := []
            held := snapshot
            collected := snapshot.latestOrdinal
            invalidations := 0 }
        running := false
        handedOut := [] }

end System

def System.enabled (sys : System) : Action → Bool
  | .operate _ _ => sys.running
  | .stop => true
  | .reopen kept _ => !sys.running && kept.isSublist sys.world.disk.journal.pending

def System.next (sessionId : String) (sys : System) : Action → System
  | .operate op schedule => sys.operated (execute codec op (sys.world.under schedule))
  | .stop => { sys with running := false }
  | .reopen kept schedule =>
    sys.opened (openRelay codec sessionId (sys.world.recovered codec kept schedule))

inductive Run (codec : RelayCodec) (sessionId : String) (Allowed : System → Action → Prop) :
    System → System → Prop where
  | refl {sys : System} : Run codec sessionId Allowed sys sys
  | step {start sys : System} {action : Action} :
      Run codec sessionId Allowed start sys → sys.enabled action → Allowed sys action →
      Run codec sessionId Allowed start (sys.next codec sessionId action)

def System.follow (codec : RelayCodec) (sessionId : String) : System → List Action → Option System
  | sys, [] => some sys
  | sys, action :: rest =>
    if sys.enabled action then follow codec sessionId (sys.next codec sessionId action) rest else none

def Reachable (sessionId : String) (Allowed : System → Action → Prop) (sys : System) : Prop :=
  ∃ seed memory schedule start, System.initial sessionId seed memory schedule = .ok start ∧
    Run codec sessionId Allowed start sys

end Hel
