import Mathlib.Algebra.GroupWithZero.Nat
import Hel.Data.Machine

/-!
This module contains the guard of the viewer code.
-/

namespace Hel

def U32_MAX : Nat := 2 ^ 32 - 1

def MAX_CODE_FAILURES : Nat := 5

-- Times and durations are in nanoseconds.
def CODE_LOCKOUT_BASE : Nat := 30 * 10 ^ 9

def CODE_LOCKOUT_CAP : Nat := 60 * 60 * 10 ^ 9

def codeLockout (lockouts : Nat) : Nat :=
  let multiplier := if lockouts - 1 < 32 then 2 ^ (lockouts - 1) else U32_MAX
  min (CODE_LOCKOUT_BASE * multiplier) CODE_LOCKOUT_CAP

structure CodeGuard where
  failures : Nat := 0
  lockouts : Nat := 0
  lockedUntil : Option Nat := none
  deriving DecidableEq

namespace CodeGuard

def running (guard : CodeGuard) (now : Nat) : Bool :=
  guard.lockedUntil.any (now < ·)

def lockedAt (guard : CodeGuard) (now : Nat) : CodeGuard × Bool :=
  if guard.running now then (guard, true)
  else if guard.lockedUntil.isSome then ({ guard with lockedUntil := none, failures := 0 }, false)
  else (guard, false)

def recordFailureAt (guard : CodeGuard) (now : Nat) : CodeGuard :=
  let failures := min (guard.failures + 1) U32_MAX
  if failures < MAX_CODE_FAILURES then
    { guard with failures := failures }
  else
    let lockouts := min (guard.lockouts + 1) U32_MAX
    { failures := 0, lockouts := lockouts, lockedUntil := some (now + codeLockout lockouts) }

end CodeGuard

/--
The guard and the requests between two of their steps: `tested` have found it open, `wrong` and
`right` have compared their code. The other fields record what has happened.
-/
structure CodeDesk where
  guard : CodeGuard := {}
  now : Nat := 0
  tested : Nat := 0
  wrong : Nat := 0
  right : Nat := 0
  guesses : Nat := 0
  began : Nat := 0
  number : Nat := 0
  intruded : Bool := false
  deriving DecidableEq

inductive CodeStep where
  | wait (duration : Nat)
  | test
  | compare (correct : Bool)
  | record
  | reset
  deriving DecidableEq

namespace CodeDesk

def next (desk : CodeDesk) : CodeStep → Option CodeDesk
  | .wait duration => some { desk with now := desk.now + duration }
  | .test =>
    let (guard, locked) := desk.guard.lockedAt desk.now
    some { desk with guard := guard, tested := if locked then desk.tested else desk.tested + 1 }
  | .compare correct =>
    if desk.tested = 0 then none
    else
      let intruded := desk.intruded || desk.guard.running desk.now
      if correct then
        some { desk with tested := desk.tested - 1, right := desk.right + 1, intruded := intruded }
      else
        some { desk with
          tested := desk.tested - 1
          wrong := desk.wrong + 1
          guesses := desk.guesses + 1
          intruded := intruded }
  | .record =>
    if desk.wrong = 0 then none
    else
      let desk :=
        { desk with guard := desk.guard.recordFailureAt desk.now, wrong := desk.wrong - 1 }
      if desk.guard.failures = 0 then
        some { desk with guesses := 0, began := desk.now, number := desk.number + 1 }
      else
        some desk
  | .reset =>
    if desk.right = 0 then none
    else some { desk with guard := {}, right := desk.right - 1, number := 0 }

def Step (desk : CodeDesk) (label : CodeStep) (desk' : CodeDesk) : Prop :=
  desk.next label = some desk'

/--
A request looks at the guard while no other one is under way, and the right code is given while no
wrong one counts.
-/
def Alone (desk : CodeDesk) : CodeStep → Prop
  | .test => desk.tested + desk.wrong + desk.right = 0
  | .compare true => desk.guesses = 0
  | _ => True

def Bounded (desk : CodeDesk) : Prop :=
  desk.guesses ≤ MAX_CODE_FAILURES ∧ desk.intruded = false
    ∧ ∀ expiry, desk.guard.lockedUntil = some expiry →
      expiry = desk.began + min (CODE_LOCKOUT_BASE * 2 ^ (desk.number - 1)) CODE_LOCKOUT_CAP

structure Kept (desk : CodeDesk) : Prop where
  flight : desk.tested + desk.wrong + desk.right ≤ 1
  unlocked : 0 < desk.tested + desk.wrong + desk.right → desk.guard.lockedUntil = none
  failures : desk.guard.failures < MAX_CODE_FAILURES
  locked : desk.guard.lockedUntil ≠ none → desk.guard.failures = 0
  counts : desk.guesses = desk.guard.failures + desk.wrong
  right : 0 < desk.right → desk.guesses = 0
  lockouts : desk.guard.lockouts = min desk.number U32_MAX
  bounded : desk.Bounded

theorem codeLockout_eq (n : Nat)
    : codeLockout (min (n + 1) U32_MAX) = min (CODE_LOCKOUT_BASE * 2 ^ n) CODE_LOCKOUT_CAP := by
  by_cases hn : n < 32
  . have hmin : min (n + 1) U32_MAX = n + 1 := by
      unfold U32_MAX
      omega
    simp [codeLockout, hmin, hn]
  have hmin : ¬min (n + 1) U32_MAX - 1 < 32 := by
    unfold U32_MAX
    omega
  have hpow : 2 ^ 32 ≤ 2 ^ n := Nat.pow_le_pow_right (by omega) (by omega)
  simp only [codeLockout, hmin, if_false]
  unfold CODE_LOCKOUT_BASE CODE_LOCKOUT_CAP U32_MAX
  omega

variable {desk desk' : CodeDesk} {label : CodeStep}

theorem Kept.not_running (h : desk.Kept) (hflight : 0 < desk.tested + desk.wrong + desk.right)
    : desk.guard.running desk.now = false := by
  simp [CodeGuard.running, h.unlocked hflight]

theorem Kept.test (h : desk.Kept) (halone : desk.Alone .test) (hnext : desk.next .test = some desk')
    : desk'.Kept := by
  have halone : desk.tested + desk.wrong + desk.right = 0 := halone
  simp only [next, CodeGuard.lockedAt] at hnext
  split at hnext
  . cases hnext
    exact { h with }
  split at hnext
  next hsome =>
    have hzero := h.locked (by simpa [Option.isSome_iff_ne_none] using hsome)
    cases hnext
    have hcounts := h.counts
    have hguesses := h.bounded.1
    refine ⟨?_, fun _ => rfl, Nat.succ_pos 4, fun _ => rfl, ?_, ?_, h.lockouts, hguesses,
      h.bounded.2.1, nofun⟩
    all_goals
      simp only [Bool.false_eq_true, if_false]
      omega
  next hnone =>
    cases hnext
    have hnone : desk.guard.lockedUntil = none := by simpa using hnone
    refine { h with flight := ?_, unlocked := fun _ => hnone }
    simp
    omega

theorem Kept.compare {correct : Bool} (h : desk.Kept) (halone : desk.Alone (.compare correct))
    (hnext : desk.next (.compare correct) = some desk') : desk'.Kept := by
  obtain ⟨hguesses, hintruded, hlasts⟩ := h.bounded
  have hflight := h.flight
  have hfailures := h.failures
  have hcounts := h.counts
  simp only [next] at hnext
  split at hnext
  . cases hnext
  rename_i htested
  have hunlocked := h.unlocked (by omega)
  have hintruded : (desk.intruded || desk.guard.running desk.now) = false := by
    rw [hintruded, h.not_running (by omega)]
    rfl
  cases correct with
  | true =>
    have halone : desk.guesses = 0 := halone
    cases hnext
    refine { h with
      flight := ?_, unlocked := fun _ => hunlocked, right := fun _ => halone,
      bounded := ⟨hguesses, hintruded, hlasts⟩ }
    dsimp only
    omega
  | false =>
  cases hnext
  refine { h with
    flight := ?_, unlocked := fun _ => hunlocked, counts := ?_, right := ?_
    bounded := ⟨?_, hintruded, hlasts⟩ }
  all_goals
    dsimp only
    unfold MAX_CODE_FAILURES at *
    omega

theorem Kept.record (h : desk.Kept) (hnext : desk.next .record = some desk') : desk'.Kept := by
  obtain ⟨hguesses, hintruded, hlasts⟩ := h.bounded
  have hflight := h.flight
  have hfailures := h.failures
  have hcounts := h.counts
  simp only [next, CodeGuard.recordFailureAt] at hnext
  split at hnext
  . cases hnext
  rename_i hwrong
  have hunlocked := h.unlocked (by omega)
  have hmin : min (desk.guard.failures + 1) U32_MAX = desk.guard.failures + 1 := by
    unfold MAX_CODE_FAILURES at hfailures
    unfold U32_MAX
    omega
  rw [hmin] at hnext
  split at hnext
  next hfew =>
    rw [if_neg (by simp)] at hnext
    cases hnext
    refine { h with
      flight := ?_, unlocked := fun _ => hunlocked, failures := hfew, locked := absurd hunlocked
      counts := ?_, right := ?_
      bounded := ⟨hguesses, hintruded, hlasts⟩ }
    all_goals
      dsimp only
      omega
  rename_i hmany
  rw [if_pos rfl] at hnext
  cases hnext
  have hlockouts : min (desk.guard.lockouts + 1) U32_MAX = min (desk.number + 1) U32_MAX := by
    rw [h.lockouts]
    omega
  refine ⟨?_, ?_, Nat.succ_pos 4, fun _ => rfl, ?_, fun _ => rfl, hlockouts, Nat.zero_le _,
    hintruded, ?_⟩
  . dsimp only
    omega
  . dsimp only
    omega
  . dsimp only
    omega
  . intro expiry hexpiry
    cases hexpiry
    rw [hlockouts, codeLockout_eq]
    rfl

theorem Kept.reset (h : desk.Kept) (hnext : desk.next .reset = some desk') : desk'.Kept := by
  obtain ⟨hguesses, hintruded, _⟩ := h.bounded
  have hflight := h.flight
  simp only [next] at hnext
  split at hnext
  . cases hnext
  rename_i hright
  have hzero := h.right (by omega)
  cases hnext
  refine ⟨?_, fun _ => rfl, Nat.succ_pos 4, fun _ => rfl, ?_, fun _ => hzero, by simp, hguesses,
    hintruded, nofun⟩
  all_goals
    dsimp only
    omega

theorem Kept.next (h : desk.Kept) (halone : desk.Alone label) (hnext : desk.next label = some desk')
    : desk'.Kept := by
  cases label with
  | wait duration =>
    cases hnext
    exact { h with }
  | test => exact h.test halone hnext
  | compare correct => exact h.compare halone hnext
  | record => exact h.record hnext
  | reset => exact h.reset hnext

theorem code_guessing_is_bounded (h : Machine.Reaches Step Alone {} desk) : desk.Bounded := by
  have hkept : desk.Kept := by
    apply h.invariant (P := Kept)
    . intro s label t hkept halone hnext
      exact hkept.next halone hnext
    . exact ⟨by decide, by decide, by decide, by decide, by decide, by decide, by decide,
        by decide, rfl, nofun⟩
  exact hkept.bounded

theorem code_guessing_is_bounded_after_lockout
    : ∃ desk, Machine.Reaches Step Alone {} desk ∧ desk.number = 1 ∧ desk.Bounded := by
  have guess {desk desk' : CodeDesk} (h : Machine.Reaches Step Alone {} desk)
      (hidle : Alone desk .test)
      (hfollow : Machine.follow next desk [.test, .compare false, .record] = some desk')
      : Machine.Reaches Step Alone {} desk' := by
    obtain ⟨tested, htest, hfollow⟩ := Option.bind_eq_some_iff.mp hfollow
    obtain ⟨compared, hcompare, hfollow⟩ := Option.bind_eq_some_iff.mp hfollow
    obtain ⟨_, hrecord, hfollow⟩ := Option.bind_eq_some_iff.mp hfollow
    cases hfollow
    have htested : Machine.Reaches Step Alone {} tested := h.step hidle htest
    have hcompared : Machine.Reaches Step Alone {} compared :=
      htested.step (show Alone _ (.compare false) from trivial) hcompare
    exact hcompared.step (show Alone _ .record from trivial) hrecord
  have hlocked := guess (guess (guess (guess (guess .refl rfl rfl) rfl rfl) rfl rfl) rfl rfl) rfl rfl
  exact ⟨_, hlocked, rfl, code_guessing_is_bounded hlocked⟩

-- Five requests are served one after the other, and seven at the same time once the lockout is over.
def rush : List CodeStep :=
  (List.replicate 5 [.test, .compare false, .record]).flatten ++ [.wait CODE_LOCKOUT_BASE]
    ++ List.replicate 7 .test ++ List.replicate 6 (.compare false)

theorem code_guessing_outruns_guard
    : (Machine.follow next {} rush).map (fun desk => (desk.number, desk.guesses)) = some (1, 6)
      ∧ (Machine.follow next {} (rush ++ List.replicate 5 .record ++ [.compare false])).map
          (fun desk => (desk.number, desk.intruded)) = some (2, true) := by
  decide

end CodeDesk

end Hel
