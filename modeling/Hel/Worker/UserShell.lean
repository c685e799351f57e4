import Hel.Data.Machine
import Hel.Worker.Impl.Event

/-!
This module contains the task of one user shell beside the calls that cancel it, and when a cancel
that was requested takes effect.
-/

namespace Hel

inductive UserShellCancelOutcome where
  | requested
  | alreadyRequested
  | notRunning
  deriving DecidableEq

inductive UserShellStage where
  | selecting
  | reaping
  | draining
  | finished
  | ended
  deriving DecidableEq

-- `cancellation` is the entry of the registry and says whether it still has its sender; `killed`
-- says that the process group was signalled.
structure UserShell where
  cancellation : Option Bool := some true
  requested : Bool := false
  running : Bool := true
  signaled : Bool := false
  killed : Bool := false
  timedOut : Bool := false
  wasCancelled : Bool := false
  readFailed : Bool := false
  stage : UserShellStage := .selecting
  result : Option UserShellStatus := none
  deriving DecidableEq

inductive UserShellStep where
  | exit (signaled : Bool)
  | selectExit
  | selectCancel
  | selectTimeout
  | reaped
  | readFailed
  | drained
  | ended
  | cancel
  | completed

namespace UserShell

def status (shell : UserShell) : UserShellStatus :=
  if shell.readFailed then .failed
  else if shell.timedOut then .timedOut
  else if shell.wasCancelled then .cancelled
  else if shell.signaled then .signaled
  else .exited

def cancel (shell : UserShell) : UserShellCancelOutcome × UserShell :=
  match shell.cancellation with
  | none => (.notRunning, shell)
  | some false => (.alreadyRequested, shell)
  | some true =>
    -- The receiver is dropped when the task ends, after it has sent its last event.
    if shell.stage = .ended then (.alreadyRequested, { shell with cancellation := some false })
    else (.requested, { shell with cancellation := some false, requested := true })

def next (shell : UserShell) : UserShellStep → Option UserShell
  | .exit signaled =>
    if shell.running then some { shell with running := false, signaled := signaled } else none
  | .selectExit =>
    if shell.stage = .selecting ∧ shell.running = false then some { shell with stage := .draining }
    else none
  | .selectCancel =>
    if shell.stage = .selecting ∧ shell.requested then
      some { shell with wasCancelled := true, killed := true, stage := .reaping }
    else none
  | .selectTimeout =>
    if shell.stage = .selecting then
      some { shell with timedOut := true, killed := true, stage := .reaping }
    else none
  | .reaped =>
    if shell.stage = .reaping then
      some { shell with
        running := false, signaled := shell.signaled || shell.running, stage := .draining }
    else none
  | .readFailed => if shell.stage = .draining then some { shell with readFailed := true } else none
  | .drained =>
    if shell.stage = .draining then
      some { shell with stage := .finished, result := some shell.status }
    else none
  | .ended => if shell.stage = .finished then some { shell with stage := .ended } else none
  | .cancel => some shell.cancel.2
  | .completed => if shell.result.isSome then some { shell with cancellation := none } else none

/-- A cancel reaches the task while it selects, and the task then takes no other branch. -/
def Heard (shell : UserShell) : UserShellStep → Prop
  | .cancel => shell.cancellation = some true → shell.stage = .selecting ∨ shell.stage = .ended
  | .selectExit | .selectTimeout => shell.requested = false
  | _ => True

abbrev Reaches (Allowed : UserShell → UserShellStep → Prop) : UserShell → Prop :=
  Machine.Reaches (fun shell step after => shell.next step = some after) Allowed {}

structure Kept (shell : UserShell) : Prop where
  heard : shell.requested = true → shell.stage = .selecting ∨ shell.wasCancelled = true
  killed : shell.wasCancelled = true → shell.killed = true ∧ shell.timedOut = false
  selecting : shell.stage = .selecting → shell.wasCancelled = false ∧ shell.timedOut = false
  result : ∀ status, shell.result = some status → shell.stage ≠ .selecting
    ∧ (shell.wasCancelled = true → status = .cancelled ∨ status = .failed)
  finished : shell.stage = .finished ∨ shell.stage = .ended → shell.result.isSome = true
  taken : shell.cancellation = some false → shell.requested = true ∨ shell.result.isSome = true
  removed : shell.cancellation = none → shell.result.isSome = true

variable {shell after : UserShell} {step : UserShellStep}

theorem status_of_wasCancelled (h : shell.wasCancelled = true) (htimedOut : shell.timedOut = false)
    : shell.status = .cancelled ∨ shell.status = .failed := by
  unfold status
  cases shell.readFailed <;> simp [h, htimedOut]

theorem Kept.next (h : shell.Kept) (hheard : shell.Heard step)
    (hnext : shell.next step = some after) : after.Kept := by
  obtain ⟨h1, h2, h3, h4, h5, h6, h7⟩ := h
  cases step with
  | cancel =>
    cases hnext
    simp only [cancel]
    split
    . exact ⟨h1, h2, h3, h4, h5, h6, h7⟩
    . exact ⟨h1, h2, h3, h4, h5, h6, h7⟩
    rename_i hsender
    split
    next hended => exact ⟨h1, h2, h3, h4, h5, fun _ => .inr (h5 (.inr hended)), nofun⟩
    next hended =>
      have hstage := (hheard hsender).resolve_right hended
      exact ⟨fun _ => .inl hstage, h2, h3, h4, h5, fun _ => .inl rfl, nofun⟩
  | drained =>
    simp only [UserShell.next, Option.ite_none_right_eq_some] at hnext
    obtain ⟨hstage, hnext⟩ := hnext
    cases hnext
    refine ⟨?_, h2, nofun, ?_, fun _ => rfl, fun _ => .inr rfl, fun _ => rfl⟩
    . intro hrequested
      right
      simpa [hstage] using h1 hrequested
    intro status hstatus
    cases hstatus
    refine ⟨nofun, fun hcancelled => ?_⟩
    exact status_of_wasCancelled hcancelled (h2 hcancelled).2
  | _ =>
    simp only [UserShell.next, Option.ite_none_right_eq_some] at hnext
    obtain ⟨hguard, hnext⟩ := hnext
    cases hnext
    constructor <;> simp_all [Heard]

/--
A cancel that is heard kills the shell before its last event and shows in the result, and one that
requests nothing follows such a cancel or the last event.
-/
theorem requested_cancel_takes_effect (h : Reaches Heard shell)
    : (∀ status, shell.result = some status → shell.requested = true →
        shell.killed = true ∧ (status = .cancelled ∨ status = .failed))
      ∧ (shell.cancel.1 = .alreadyRequested → shell.requested = true ∨ shell.result.isSome = true)
      ∧ (shell.cancel.1 = .notRunning → shell.result.isSome = true) := by
  have hkept : shell.Kept := by
    apply h.invariant (fun _ _ _ h hheard hnext => h.next hheard hnext)
    constructor <;> simp
  refine ⟨?_, ?_, ?_⟩
  . intro status hresult hrequested
    have ⟨hstage, hstatus⟩ := hkept.result status hresult
    have hcancelled := (hkept.heard hrequested).resolve_left hstage
    exact ⟨(hkept.killed hcancelled).1, hstatus hcancelled⟩
  . unfold cancel
    split
    . nofun
    next htaken => exact fun _ => hkept.taken htaken
    split
    next hended => exact fun _ => .inr (hkept.finished (.inr hended))
    . nofun
  . unfold cancel
    split
    next hremoved => exact fun _ => hkept.removed hremoved
    . nofun
    . split <;> nofun

theorem requested_cancel_takes_effect_of_running
    : ∃ shell, Reaches Heard shell ∧ shell.requested = true ∧ shell.result = some .cancelled
        ∧ shell.killed = true := by
  have hrequested : Reaches Heard _ :=
    .single (show Heard {} .cancel from fun _ => .inl rfl) rfl
  have hkilled := hrequested.step (show Heard _ .selectCancel from trivial) rfl
  have hreaped := hkilled.step (show Heard _ .reaped from trivial) rfl
  have hdrained := hreaped.step (show Heard _ .drained from trivial) rfl
  exact ⟨_, hdrained, rfl, rfl, ((requested_cancel_takes_effect hdrained).1 _ rfl rfl).1⟩

-- The shell has exited and a background child keeps its pipes open.
theorem requested_cancel_is_lost
    : ∃ shell, Machine.follow next {} [.exit false, .selectExit] = some shell
      ∧ shell.cancel.1 = .requested
      ∧ ∃ after, Machine.follow next shell [.cancel, .drained] = some after
        ∧ after.killed = false ∧ after.result = some .exited :=
  ⟨_, rfl, rfl, _, rfl, rfl, rfl⟩

end UserShell

end Hel
