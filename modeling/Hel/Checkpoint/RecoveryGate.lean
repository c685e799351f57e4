import Mathlib.Data.List.Basic
import Hel.Data.Machine

/-!
This module contains the gate between recovery copies and foreground operations.
-/

namespace Hel

open List

structure RecoveryCopy where
  session : String
  cancelled : Bool := false
  executing : Bool := true

inductive RecoveryLoop where
  | idle
  | tested (session : String)
  | ended
  deriving DecidableEq

-- `waiting` and `held` are the counted reservations, before and after the `Ok` of their call.
structure RecoveryGate where
  busy : List RecoveryCopy := []
  waiting : List String := []
  held : List String := []
  loop : RecoveryLoop := .idle
  cancelled : Bool := false
  dropped : Bool := false

inductive RecoveryStep where
  | observe (session : String)
  | consider (session : String) (due : Bool)
  | complete (session : String)
  | finish (session : String)
  | reserve (session : String)
  | cancelBusy (session : String)
  | grant (session : String)
  | giveUp (session : String)
  | release (session : String)
  | cancel
  | cancelAll

namespace RecoveryGate

open Machine

def busySessions (gate : RecoveryGate) : List String :=
  gate.busy.map (·.session)

def tryStart (gate : RecoveryGate) (session : String) : Option RecoveryGate :=
  if session ∈ gate.busySessions ∨ session ∈ gate.waiting ∨ session ∈ gate.held then none
  else some { gate with busy := { session } :: gate.busy }

def next (gate : RecoveryGate) : RecoveryStep → Option RecoveryGate
  | .observe session =>
    if gate.loop = .idle then
      some { gate with loop := if gate.cancelled then .ended else .tested session }
    else none
  | .consider session due =>
    if gate.loop = .tested session then
      some { (if due then gate.tryStart session else none).getD gate with loop := .idle }
    else none
  | .complete session =>
    some { gate with busy := gate.busy.map fun copy =>
      { copy with executing := copy.executing && copy.session != session } }
  | .finish session =>
    if gate.loop = .idle ∧ ∃ copy ∈ gate.busy, copy.session = session ∧ copy.executing = false then
      some { gate with busy := gate.busy.filter (·.session ≠ session) }
    else none
  | .reserve session => some { gate with waiting := session :: gate.waiting }
  | .cancelBusy session =>
    some { gate with busy := gate.busy.map fun copy =>
      { copy with cancelled := copy.cancelled || copy.session == session } }
  | .grant session =>
    if session ∈ gate.waiting ∧ session ∉ gate.busySessions then
      some { gate with waiting := gate.waiting.erase session, held := session :: gate.held }
    else none
  | .giveUp session => some { gate with waiting := gate.waiting.erase session }
  | .release session => some { gate with held := gate.held.erase session }
  | .cancel => some { gate with cancelled := true }
  | .cancelAll =>
    if gate.cancelled then
      some { gate with busy := gate.busy.map ({ · with cancelled := true }), dropped := true }
    else none

structure Yields (gate : RecoveryGate) : Prop where
  reserved : ∀ copy ∈ gate.busy, copy.executing = true → copy.session ∉ gate.held
  single : ((gate.busy.filter (·.executing)).map (·.session)).Nodup
  stopped : gate.dropped = true →
    ∀ copy ∈ gate.busy, copy.executing = true → copy.cancelled = true

structure Kept (gate : RecoveryGate) : Prop where
  distinct : gate.busySessions.Nodup
  reserved : gate.busySessions.Disjoint gate.held
  stopped : gate.dropped = true → gate.cancelled = true
    ∧ (∀ session, gate.loop ≠ .tested session) ∧ ∀ copy ∈ gate.busy, copy.cancelled = true

variable {gate gate' : RecoveryGate}

theorem Kept.yields (h : gate.Kept) : gate.Yields := by
  constructor
  . intro copy hcopy _
    apply h.reserved (mem_map_of_mem hcopy)
  . apply List.Nodup.sublist _ h.distinct
    apply filter_sublist.map
  . intro hdropped copy hcopy _
    apply (h.stopped hdropped).2.2 copy hcopy

theorem Kept.map (h : gate.Kept) {f : RecoveryCopy → RecoveryCopy}
    (hsession : ∀ copy, (f copy).session = copy.session)
    (hcancelled : ∀ copy, copy.cancelled = true → (f copy).cancelled = true)
    : Kept { gate with busy := gate.busy.map f } := by
  have hbusy : busySessions { gate with busy := gate.busy.map f } = gate.busySessions := by
    simp only [busySessions, map_map, Function.comp_def, hsession]
  refine ⟨hbusy ▸ h.distinct, hbusy ▸ h.reserved, ?_⟩
  intro hdropped
  have ⟨hflag, hloop, hall⟩ := h.stopped hdropped
  refine ⟨hflag, hloop, forall_mem_map.mpr ?_⟩
  intro copy hcopy
  apply hcancelled copy (hall copy hcopy)

/-- A loop past the test of its flag may start a copy after all of them were cancelled. -/
def Settled (gate : RecoveryGate) (step : RecoveryStep) : Prop :=
  step = .cancelAll → ∀ session, gate.loop ≠ .tested session

theorem Kept.step {step : RecoveryStep} (h : gate.Kept) (hsettled : gate.Settled step)
    (hnext : gate.next step = some gate') : gate'.Kept := by
  cases step <;> simp only [next, Option.ite_none_right_eq_some, Option.some.injEq] at hnext
  case observe session =>
    obtain ⟨-, rfl⟩ := hnext
    refine ⟨h.distinct, h.reserved, ?_⟩
    intro hdropped
    have ⟨hflag, _, hall⟩ := h.stopped hdropped
    simp only [hflag]
    refine ⟨trivial, ?_, hall⟩
    intro _ h
    cases h
  case consider session due =>
    obtain ⟨hloop, rfl⟩ := hnext
    have hlive {p : Prop} (hdropped : gate.dropped = true) : p := by
      cases (h.stopped hdropped).2.1 session hloop
    have hold : Kept { gate with loop := .idle } := ⟨h.distinct, h.reserved, hlive⟩
    cases due
    . exact hold
    simp only [if_true, tryStart]
    split
    . exact hold
    next hfree =>
    rw [not_or, not_or] at hfree
    refine ⟨?_, ?_, hlive⟩
    . apply nodup_cons.mpr ⟨hfree.1, h.distinct⟩
    . apply disjoint_cons_left.mpr ⟨hfree.2.2, h.reserved⟩
  case complete session =>
    subst hnext
    apply h.map
    . intros
      rfl
    . intro _ hold
      exact hold
  case finish session =>
    obtain ⟨-, rfl⟩ := hnext
    have hsub : busySessions { gate with busy := gate.busy.filter (·.session ≠ session) }
        |>.Sublist gate.busySessions := filter_sublist.map _
    refine ⟨h.distinct.sublist hsub, disjoint_of_subset_left hsub.subset h.reserved, ?_⟩
    intro hdropped
    have ⟨hflag, hloop, hall⟩ := h.stopped hdropped
    refine ⟨hflag, hloop, ?_⟩
    intro copy hcopy
    apply hall copy (mem_of_mem_filter hcopy)
  case cancelBusy session =>
    subst hnext
    apply h.map
    . intros
      rfl
    . intro copy hold
      simp only [hold, Bool.true_or]
  case grant session =>
    obtain ⟨⟨-, hfree⟩, rfl⟩ := hnext
    exact ⟨h.distinct, disjoint_cons_right.mpr ⟨hfree, h.reserved⟩, h.stopped⟩
  case release session =>
    subst hnext
    exact ⟨h.distinct, disjoint_of_subset_right erase_subset h.reserved, h.stopped⟩
  case cancel =>
    subst hnext
    refine ⟨h.distinct, h.reserved, ?_⟩
    intro hdropped
    exact ⟨rfl, (h.stopped hdropped).2⟩
  case cancelAll =>
    obtain ⟨hflag, rfl⟩ := hnext
    have hmap := h.map (f := ({ · with cancelled := true })) (fun _ => rfl) (fun _ _ => rfl)
    refine ⟨hmap.distinct, hmap.reserved, ?_⟩
    intro _
    refine ⟨hflag, hsettled rfl, forall_mem_map.mpr ?_⟩
    intros
    rfl
  all_goals
    subst hnext
    exact ⟨h.distinct, h.reserved, h.stopped⟩

abbrev Step (gate : RecoveryGate) (step : RecoveryStep) (gate' : RecoveryGate) : Prop :=
  gate.next step = some gate'

theorem recovery_copies_yield (h : Reaches Step Settled {} gate) : gate.Yields := by
  apply Kept.yields
  apply h.invariant (P := Kept)
  . intro gate step gate' hkept hsettled hnext
    apply hkept.step hsettled hnext
  . refine ⟨nodup_nil, disjoint_nil_left _, ?_⟩
    intro h
    cases h

theorem recovery_copies_yield_dropped
    : ∃ gate, Reaches Step Settled {} gate ∧ gate.busySessions = ["s"] ∧ gate.held = ["t"]
        ∧ gate.dropped = true ∧ gate.Yields := by
  have hgranted : Reaches Step Settled {} _ := .of_follow (by simp [Settled])
    (rfl : follow next {} [.observe "s", .consider "s" true, .reserve "t", .grant "t", .cancel] = some _)
  have hdropped := hgranted.step (fun _ => nofun) (rfl : next _ .cancelAll = some _)
  exact ⟨_, hdropped, rfl, rfl, rfl, recovery_copies_yield hdropped⟩

-- The drop runs between the test of the flag and the start of the copy.
theorem recovery_copy_outlives_drop
    : ∃ gate, follow next {} [.observe "s", .cancel, .cancelAll, .consider "s" true]
        = some gate ∧ ¬ gate.Yields := by
  refine ⟨_, rfl, ?_⟩
  intro h
  cases h.stopped rfl _ mem_cons_self rfl

end RecoveryGate

end Hel
