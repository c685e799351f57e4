import Hel.Worker.Lemmas.System

/-!
This module contains a codec under which everything is small enough to be written and whose digests
can be computed, and what runs of a relay under it come to.
-/

namespace Hel

variable {Allowed : System → Action → Prop} {actions : List Action}

section Codec

def PLAIN_DIGEST_STEM : String :=
  "111111111111111111111111111111111111111111111111111111111111111"

def plainDigest (ordinal : Nat) : String :=
  PLAIN_DIGEST_STEM ++ Nat.repr (ordinal % 10)

theorem isRelayDigest_plainDigest (ordinal : Nat) : isRelayDigest (plainDigest ordinal) := by
  have hall : ∀ n : Fin 10, isRelayDigest (PLAIN_DIGEST_STEM ++ Nat.repr n.val) := by
    decide +kernel
  exact hall ⟨ordinal % 10, Nat.mod_lt _ (by omega)⟩

theorem plainDigest_ne_genesis (ordinal : Nat)
    : plainDigest ordinal ≠ RELAY_EVENT_GENESIS_DIGEST := by
  have hall : ∀ n : Fin 10,
      PLAIN_DIGEST_STEM ++ Nat.repr n.val ≠ RELAY_EVENT_GENESIS_DIGEST := by
    decide +kernel
  exact hall ⟨ordinal % 10, Nat.mod_lt _ (by omega)⟩

def uniformCodec (len : Nat) (hpos : 0 < len) (hle : len ≤ RELAY_OBSERVATION_BYTE_BUDGET) :
    RelayCodec where
  digestV1 := fun ordinal _ _ _ _ => plainDigest ordinal
  digestV2 := fun ordinal _ _ _ => plainDigest ordinal
  commandLen := fun _ => 1
  observationLen := fun _ => len
  eventLen := fun _ => len
  snapshotLen := fun _ => 1
  snapshotPrettyLen := fun _ => 1
  operationalStateLen := fun _ => 1
  shorten := fun _ _ => .warning ""
  updateToolCall := fun call _ => call
  digestV2_isRelayDigest := fun ordinal _ _ _ => isRelayDigest_plainDigest ordinal
  digestV2_ne_genesis := fun ordinal _ _ _ => plainDigest_ne_genesis ordinal
  eventLen_le := fun _ _ _ _ _ _ => Nat.le_add_right _ _
  eventLen_pos := fun _ => hpos
  shorten_le := fun _ => hle
  shortened := fun _ observation _ => .dropped observation ""
  compact_fits := fun _ _ => hle
  queued_fits := fun _ _ _ _ _ => hle
  notice_fits := fun _ _ => hle
  interruptedShell_fits := fun _ _ _ _ _ _ => hle
  queueChanged_fits := fun _ _ _ _ _ _ _ => hle

def plainCodec : RelayCodec := uniformCodec 1 (by decide) (by decide)

theorem fits_plainCodec (s : RelaySnapshot) : Fits plainCodec s := by
  constructor
  . show 1 ≤ RELAY_SNAPSHOT_BYTE_BUDGET
    decide
  . show 1 ≤ RELAY_SNAPSHOT_BYTE_BUDGET
    decide
  . show 1 ≤ RELAY_STATE_BYTE_BUDGET
    decide

theorem room_plainCodec {n : Nat} {s : RelaySnapshot} (h : s.latestOrdinal + n < U64_MAX)
    : Room plainCodec n s := by
  induction n generalizing s with
  | zero => exact ⟨fits_plainCodec s, h⟩
  | succ n ih =>
    refine ⟨⟨fits_plainCodec s, by omega⟩, ?_⟩
    intro s' hstep
    apply ih
    have hle := hstep.latest_le
    omega

end Codec

section Runs

def calm : Schedule where
  clock := fun ticks => ticks
  ticks := 0
  persistFails := []
  crashAfter := none
  tornBytes := 0

def plainMemory : DurableRelay where
  snapshot := .new "session-1"
  journalSpans := []
  hotEvents := []
  replayCursors := []
  unpersistedJournalBytes := 0
  journalGeneration := 0

def plainStart : System where
  world :=
    { relay := plainMemory
      disk := { journal := Directory.empty, stateFile := none, seed := none }
      schedule := calm
      history := []
      held := .new "session-1"
      collected := 0
      invalidations := 0 }
  running := false
  handedOut := []

def systemUnder (codec : RelayCodec) (actions : List Action) : System :=
  (plainStart.follow codec "session-1" actions).getD plainStart

theorem reachable_systemUnder {codec : RelayCodec}
    (hallowed : ∀ action ∈ actions, ∀ sys, Allowed sys action)
    : Reachable codec "session-1" Allowed (systemUnder codec actions) := by
  refine ⟨none, plainMemory, calm, plainStart, rfl, ?_⟩
  unfold systemUnder
  cases h : plainStart.follow codec "session-1" actions with
  | none => exact .refl
  | some sys => exact run_of_follow h hallowed

def plainSystem (actions : List Action) : System :=
  systemUnder plainCodec actions

theorem reachable_plainSystem (hallowed : ∀ action ∈ actions, ∀ sys, Allowed sys action)
    : Reachable plainCodec "session-1" Allowed (plainSystem actions) :=
  reachable_systemUnder hallowed

def plainWorld (actions : List Action) (op : RelayOp) : World :=
  (execute plainCodec op ((plainSystem actions).world.under calm)).2

def openNow : Action := .reopen [] calm

def perform (op : RelayOp) : Action := .operate op calm

def warn : RelayOp := .observe (.warning "") (RelayObservation.fromAgent_warning "")

theorem running_openNow : (plainSystem [openNow]).running = true := by
  decide +kernel

end Runs

end Hel
