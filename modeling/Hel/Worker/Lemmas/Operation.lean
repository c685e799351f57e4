import Hel.Worker.Lemmas.Append

/-!
This module contains the specification that the operations of a relay share.
-/

namespace Hel

open Program (Lands lands_bind lands_get_bind lands_modify_bind lands_ofExcept_bind lands_pure_bind)

section Does

variable (codec : RelayCodec) (origin : Origin) (Accepts : RelaySnapshot → RelayCommand → Prop)
  (sessionId : String)

structure Resumed (w w' : World) : Prop where
  live : Live codec origin sessionId w'
  evolves : Evolves codec origin Accepts w.chronicle w'.chronicle
  calm : w.Calm → w'.Calm

structure Advanced (w w' : World) : Prop extends Resumed codec origin Accepts sessionId w w' where
  shifts : Shifts w w'

structure Refused (P : Prop) (w w' : World) : Prop where
  live : Live codec origin sessionId w'
  evolves : Evolves codec origin Accepts w.chronicle w'.chronicle
  shifts : Shifts w w'
  reason : ¬ (w.Calm ∧ P)

structure Halted (w w' : World) : Prop where
  recoverable : Recoverable codec origin Accepts sessionId w'
  snapshot : w'.relay.snapshot = w'.held
  evolves : Evolves codec origin Accepts w.chronicle w'.chronicle
  shifts : Shifts w w'
  reason : ¬ w.Calm

def Does {α : Type} (P : Prop) (Q : α → World → Prop) (w : World) (x : RelayM α) : Prop :=
  Lands (Refused codec origin Accepts sessionId P w) (Halted codec origin Accepts sessionId w)
    (fun value w' => Advanced codec origin Accepts sessionId w w' ∧ Q value w') (x w)

def Sustains {α : Type} (w : World) (x : RelayM α) : Prop :=
  Does codec origin Accepts sessionId False (fun _ _ => True) w x

end Does

section Rules

variable {codec : RelayCodec} {origin : Origin} {Accepts : RelaySnapshot → RelayCommand → Prop}
  {sessionId : String} {w w' w'' : World} {α β : Type} {P P' : Prop} {Q Q' : α → World → Prop}
  {R : β → World → Prop}

theorem Resumed.refl (h : Live codec origin sessionId w)
    : Resumed codec origin Accepts sessionId w w :=
  ⟨h, .refl, fun hcalm => hcalm⟩

theorem Resumed.trans (h : Resumed codec origin Accepts sessionId w w')
    (h' : Resumed codec origin Accepts sessionId w' w'')
    : Resumed codec origin Accepts sessionId w w'' :=
  ⟨h'.live, h.evolves.trans h'.evolves, h'.calm ∘ h.calm⟩

theorem Advanced.trans (h : Advanced codec origin Accepts sessionId w w')
    (h' : Advanced codec origin Accepts sessionId w' w'')
    : Advanced codec origin Accepts sessionId w w'' :=
  ⟨h.toResumed.trans h'.toResumed, h.shifts.trans h'.shifts⟩

theorem Live.valid (h : Live codec origin sessionId w) : w.chronicle.Valid codec origin := by
  obtain ⟨base, hdurable, _⟩ := h.durable
  exact hdurable.valid

variable {x : RelayM α}

theorem Does.mono (h : Does codec origin Accepts sessionId P Q w x)
    (hP : w.Calm → P' → P) (hQ : ∀ value w', Advanced codec origin Accepts sessionId w w' →
      Q value w' → Q' value w') : Does codec origin Accepts sessionId P' Q' w x := by
  refine Lands.mono h ?_ ?_ (fun _ hc => hc)
  . intro value w' ⟨hadvanced, hq⟩
    exact ⟨hadvanced, hQ value w' hadvanced hq⟩
  intro w' hrefused
  refine ⟨hrefused.live, hrefused.evolves, hrefused.shifts, ?_⟩
  intro ⟨hcalm, hp⟩
  exact hrefused.reason ⟨hcalm, hP hcalm hp⟩

theorem Does.pre (h : Does codec origin Accepts sessionId P Q w x)
    (hP : w.Calm → P' → P) : Does codec origin Accepts sessionId P' Q w x :=
  h.mono hP fun _ _ _ hq => hq

theorem Does.unpromised (h : Does codec origin Accepts sessionId P Q w x)
    : Does codec origin Accepts sessionId False Q w x :=
  h.pre fun _ hfalse => hfalse.elim

theorem Does.sustains (h : Does codec origin Accepts sessionId P Q w x)
    : Sustains codec origin Accepts sessionId w x :=
  h.unpromised.mono (fun _ hfalse => hfalse) fun _ _ _ _ => trivial

theorem Does.weaken (h : Does codec origin (fun _ _ => False) sessionId P Q w x)
    : Does codec origin Accepts sessionId P
        (fun value w' =>
          Evolves codec origin (fun _ _ => False) w.chronicle w'.chronicle ∧ Q value w') w x := by
  refine Lands.mono h ?_ ?_ ?_
  . intro value w' ⟨hadvanced, hq⟩
    exact ⟨⟨⟨hadvanced.live, hadvanced.evolves.weaken, hadvanced.calm⟩, hadvanced.shifts⟩,
      hadvanced.evolves, hq⟩
  . intro w' hrefused
    exact ⟨hrefused.live, hrefused.evolves.weaken, hrefused.shifts, hrefused.reason⟩
  intro w' hhalted
  refine ⟨⟨hhalted.recoverable.durable, ?_⟩, hhalted.snapshot, hhalted.evolves.weaken,
    hhalted.shifts, hhalted.reason⟩
  refine hhalted.recoverable.journal.mono ?_
  intro files hfiles
  cases hfiles with
  | inl hrep => exact Or.inl hrep
  | inr hunsynced =>
    obtain ⟨event, next, content, htransition, hrest⟩ := hunsynced
    exact Or.inr ⟨event, next, content, htransition.weaken, hrest⟩

theorem does_bind {f : α → RelayM β} (hx : Does codec origin Accepts sessionId P Q w x)
    (hf : ∀ value w', Advanced codec origin Accepts sessionId w w' → Q value w' →
      Does codec origin Accepts sessionId P R w' (f value))
    : Does codec origin Accepts sessionId P R w (x >>= f) := by
  refine lands_bind hx ?_
  intro value w' ⟨hadvanced, hq⟩
  refine Lands.mono (hf value w' hadvanced hq) ?_ ?_ ?_
  . intro value' w'' ⟨hadvanced', hr⟩
    exact ⟨hadvanced.trans hadvanced', hr⟩
  . intro w'' hrefused
    refine ⟨hrefused.live, hadvanced.evolves.trans hrefused.evolves,
      hadvanced.shifts.trans hrefused.shifts, ?_⟩
    intro ⟨hcalm, hp⟩
    exact hrefused.reason ⟨hadvanced.calm hcalm, hp⟩
  . intro w'' hhalted
    refine ⟨hhalted.recoverable, hhalted.snapshot, hadvanced.evolves.trans hhalted.evolves,
      hadvanced.shifts.trans hhalted.shifts, ?_⟩
    intro hcalm
    exact hhalted.reason (hadvanced.calm hcalm)

theorem does_pure {value : α} (h : Live codec origin sessionId w) (hq : Q value w)
    : Does codec origin Accepts sessionId P Q w (pure value) :=
  ⟨⟨.refl h, .refl w⟩, hq⟩

theorem does_fail {message : String} (h : Live codec origin sessionId w) (hp : w.Calm → ¬ P)
    : Does codec origin Accepts sessionId P Q w (Program.fail message) :=
  ⟨h, .refl, .refl w, fun ⟨hcalm, hP⟩ => hp hcalm hP⟩

theorem does_get_bind {f : World → RelayM β} (h : Does codec origin Accepts sessionId P R w (f w))
    : Does codec origin Accepts sessionId P R w (Program.get >>= f) := h

variable (h : Live codec origin sessionId w)

include h

theorem does_ofExcept_bind {r : Except String α} {f : α → RelayM β}
    (he : ∀ message, r = .error message → w.Calm → ¬ P)
    (hf : ∀ value, r = .ok value → Does codec origin Accepts sessionId P R w (f value))
    : Does codec origin Accepts sessionId P R w (Program.ofExcept r >>= f) := by
  cases r with
  | error message => exact does_fail h (he message rfl)
  | ok value => exact hf value rfl

theorem does_modifyRelay {Q : Unit → World → Prop} {g : DurableRelay → DurableRelay}
    (hsnapshot : (g w.relay).snapshot = w.relay.snapshot)
    (hspans : (g w.relay).journalSpans = w.relay.journalSpans)
    (hhot : ∀ event ∈ (g w.relay).hotEvents, event ∈ w.history)
    (hcursors : ∀ cursor ∈ (g w.relay).replayCursors, OnChain origin w.history cursor.1 cursor.2)
    (hunpersisted : (g w.relay).unpersistedJournalBytes = w.relay.unpersistedJournalBytes)
    (hgeneration : (g w.relay).journalGeneration = w.relay.journalGeneration)
    (hQ : Q () { w with relay := g w.relay })
    : Does codec origin Accepts sessionId P Q w (modifyRelay g) := by
  refine ⟨⟨⟨?_, .refl, fun hcalm => ⟨hcalm.steady, hcalm.writes⟩⟩, .of_same ?_ rfl⟩, hQ⟩
  . exact
      { toConsistent := h.toConsistent.withMemory _ hspans hhot hcursors hunpersisted
        snapshot := hsnapshot.trans h.snapshot }
  show ((g w.relay).journalGeneration, w.invalidations) = w.era
  rw [hgeneration]
  rfl

theorem does_epochMillis_bind {f : Int → RelayM β}
    (hf : ∀ now w', Advanced codec origin Accepts sessionId w w' → w'.chronicle = w.chronicle →
      w'.relay = w.relay → Does codec origin Accepts sessionId P R w' (f now))
    : Does codec origin Accepts sessionId P R w (epochMillis >>= f) := by
  refine does_bind (Q := fun _ w' => w'.chronicle = w.chronicle ∧ w'.relay = w.relay) ?_ ?_
  . exact ⟨⟨⟨h.schedule _, .refl, fun hcalm => ⟨hcalm.steady, hcalm.writes⟩⟩, .of_same rfl rfl⟩, rfl,
      rfl⟩
  . intro now w' hadvanced ⟨hchronicle, hrelay⟩
    exact hf now w' hadvanced hchronicle hrelay

theorem appendRelayEvent_does {commandId : Option String} {o observation : RelayObservation}
    (ho : clampObservation codec observation RELAY_OBSERVATION_BYTE_BUDGET = o)
    (hadm : w.held.Admissible o) (hpermitted : Permitted codec origin Accepts w.chronicle o)
    : Does codec origin Accepts sessionId (Accommodates codec commandId o w)
        (fun ordinal w' => ∃ event, ordinal = event.ordinal ∧
          Journaled codec commandId o w.chronicle w'.chronicle event)
        w (appendRelayEvent codec commandId observation) := by
  have hevolves : ∀ w' : World, (w'.chronicle = w.chronicle ∨
      ∃ event, Journaled codec commandId o w.chronicle w'.chronicle event) →
      Evolves codec origin Accepts w.chronicle w'.chronicle := by
    intro w' hw'
    cases hw' with
    | inl hsame =>
      rw [hsame]
      exact .refl
    | inr hjournaled =>
      obtain ⟨event, hjournaled⟩ := hjournaled
      exact .single (hjournaled.transition Accepts hadm hpermitted)
  refine (appendRelayEvent_lands Accepts h ho hadm hpermitted).mono ?_ ?_ ?_
  . intro ordinal w' ⟨hlive, hshifts, hcalm, event, hordinal, hjournaled⟩
    exact ⟨⟨⟨hlive, hevolves w' (Or.inr ⟨event, hjournaled⟩), hcalm⟩, hshifts⟩, event, hordinal,
      hjournaled⟩
  . intro w' ⟨hlive, hshifts, hw', hroom⟩
    exact ⟨hlive, hevolves w' hw', hshifts, fun ⟨_, h⟩ => hroom h⟩
  . intro w' ⟨hrecoverable, hshifts, hsnapshot, hw', hcalm⟩
    exact ⟨hrecoverable, hsnapshot, hevolves w' hw', hshifts, hcalm⟩

theorem commitSnapshot_does {next : RelaySnapshot}
    (hevolves : Evolves codec origin Accepts w.chronicle { w.chronicle with held := next })
    : Does codec origin Accepts sessionId
        (codec.snapshotPrettyLen next ≤ RELAY_SNAPSHOT_BYTE_BUDGET)
        (fun _ w' => w'.chronicle = { w.chronicle with held := next } ∧
          w'.relay = { w.relay with snapshot := next, unpersistedJournalBytes := 0 })
        w (commitSnapshot codec next) := by
  have hv := hevolves.valid h.valid
  refine Lands.mono (commitSnapshot_commits hv hevolves.moves_on.1 h.toConsistent) ?_ ?_ ?_
  . intro _ w' ⟨hlive, hcalm, schedule, heq⟩
    have hchronicle : w'.chronicle = { w.chronicle with held := next } := by
      rw [heq]
      rfl
    refine ⟨⟨⟨hlive, ?_, hcalm⟩, ?_⟩, hchronicle, ?_⟩
    . rw [hchronicle]
      exact hevolves
    . rw [heq]
      exact .of_same rfl rfl
    . rw [heq]
      rfl
  . intro w' ⟨⟨schedule, heq⟩, hno⟩
    rw [heq]
    exact ⟨h.schedule schedule, .refl, .of_same rfl rfl, hno⟩
  . intro w' ⟨⟨schedule, heq⟩, hno⟩
    rw [heq]
    exact ⟨(h.schedule schedule).toConsistent.recoverable, h.snapshot, .refl, .of_same rfl rfl, hno⟩

theorem persistSnapshot_does
    : Does codec origin Accepts sessionId
        (codec.snapshotPrettyLen w.held ≤ RELAY_SNAPSHOT_BYTE_BUDGET)
        (fun _ w' => w'.chronicle = w.chronicle ∧
          w'.relay = { w.relay with unpersistedJournalBytes := 0 })
        w (persistSnapshot codec) := by
  have hevolves : ∀ w' : World, w'.chronicle = w.chronicle →
      Evolves codec origin Accepts w.chronicle w'.chronicle := by
    intro w' hw'
    rw [hw']
    exact .refl
  refine h.persistSnapshot_lands.mono ?_ ?_ ?_
  . intro _ w' ⟨hlive, hcalm, hsame, hshifts, hrelay⟩
    exact ⟨⟨⟨hlive, hevolves w' hsame, hcalm⟩, hshifts⟩, hsame, hrelay⟩
  . intro w' ⟨hlive, hsame, hshifts, hno⟩
    exact ⟨hlive, hevolves w' hsame, hshifts, hno⟩
  . intro w' ⟨hlive, hsame, hshifts, hno⟩
    exact ⟨hlive.toConsistent.recoverable, hlive.snapshot, hevolves w' hsame, hshifts, hno⟩

end Rules

end Hel
