import Hel.Daemon.Impl.Lifecycle
import Hel.Data.Machine

/-!
This module contains how the phone cancels an action it started.
-/

namespace Hel

inductive PhoneAction where
  | new
  | close
  | resume
  deriving DecidableEq

def PhoneAction.kind? : PhoneAction → Option LifecycleKind
  | .new => none
  | .close => some .close
  | .resume => some .resume

inductive PhoneNewActionState where
  | active
  | cancelRequested
  | commitGranted
  deriving DecidableEq

structure PhoneActionControl where
  cancelled : Bool := false
  newGate : Option PhoneNewActionState

namespace PhoneActionControl

def forAction (action : PhoneAction) : PhoneActionControl where
  newGate := if action = .new then some .active else none

def requestCancel (control : PhoneActionControl) : Option PhoneActionControl :=
  match control.newGate with
  | none => if control.cancelled then none else some { control with cancelled := true }
  | some .active => some { control with newGate := some .cancelRequested }
  | some _ => none

def grantNewCommit (control : PhoneActionControl) : Option PhoneActionControl :=
  if control.newGate = some .active then some { control with newGate := some .commitGranted }
  else none

end PhoneActionControl

-- `awaited` says that the phone's task waits for this operation.
structure SessionLifecycle where
  kind : LifecycleKind
  cancelled : Bool := false
  running : Bool := true
  result : Bool := false
  awaited : Bool := false

def SessionLifecycle.startOrJoin (entry : Option SessionLifecycle) (kind : LifecycleKind)
    : Option SessionLifecycle :=
  match entry.filter (fun active => active.kind = kind || !active.result) with
  | some active => if active.kind = kind then some active else none
  | none => some { kind }

inductive PhoneTask where
  | admitted
  | checked
  | waiting
  | committing
  | ended
  deriving DecidableEq

inductive CancelHandling where
  | idle
  | requested
  | stored
  deriving DecidableEq

-- `connected` says that the session of a New action is Running.
structure PhoneRun where
  action : PhoneAction
  control : PhoneActionControl := .forAction action
  tracked : Bool := action ≠ .new
  task : PhoneTask := .admitted
  handling : CancelHandling := .idle
  accepted : Bool := false
  connected : Bool := false
  lifecycle : Option SessionLifecycle := none

inductive PhoneStep where
  | request
  | store
  | cancelLifecycle
  | check
  | publish
  | join
  | grant
  | connect
  | giveUp
  | completed
  | client (kind : LifecycleKind)
  | finish (result : Bool)
  | remove

namespace PhoneRun

open Machine SessionLifecycle

def next (run : PhoneRun) : PhoneStep → Option PhoneRun
  | .request =>
    if run.tracked ∧ run.handling = .idle then
      some (match run.control.requestCancel with
        | some control => { run with control, handling := .requested }
        | none => run)
    else none
  | .store =>
    if run.handling = .requested then
      some { run with control := { run.control with cancelled := true }, handling := .stored }
    else none
  | .cancelLifecycle =>
    if run.handling = .stored then
      some { run with
        lifecycle := run.lifecycle.map ({ · with cancelled := true })
        handling := .idle
        accepted := true }
    else none
  | .check =>
    if run.task = .admitted then
      some { run with task := if run.control.cancelled then .ended else .checked }
    else none
  | .publish =>
    if run.action = .new ∧ run.task = .checked then some { run with tracked := true } else none
  | .join =>
    if run.task = .checked then
      run.action.kind?.map fun kind =>
        match startOrJoin run.lifecycle kind with
        | some active =>
          { run with lifecycle := some { active with awaited := true }, task := .waiting }
        | none => { run with task := .ended }
    else none
  | .grant =>
    if run.tracked ∧ run.task = .checked then
      some (match run.control.grantNewCommit with
        | some control => { run with control, task := .committing }
        | none => { run with task := .ended })
    else none
  | .connect =>
    if run.task = .committing then some { run with connected := true, task := .ended } else none
  | .giveUp => some { run with task := .ended }
  | .completed => if run.task = .ended then some { run with tracked := false } else none
  | .client kind => some { run with lifecycle := (startOrJoin run.lifecycle kind).or run.lifecycle }
  | .finish result =>
    some { run with lifecycle := run.lifecycle.map fun active =>
      { active with running := false, result := active.result || (active.running && result) } }
  | .remove => some { run with lifecycle := run.lifecycle.filter (!·.result) }

/-- What an accepted Cancel leaves: no session that runs, and no operation that is not told. -/
structure Heard (run : PhoneRun) : Prop where
  flag : run.control.cancelled = true
  connected : run.connected = false
  operation : ∀ active, run.lifecycle = some active → active.awaited = true →
    active.running = true → active.cancelled = true

structure Kept (run : PhoneRun) : Prop where
  kind : run.control.newGate = none ↔ run.action ≠ .new
  flag : run.accepted = true ∨ run.handling = .stored → run.control.cancelled = true
  gate : run.accepted = true ∨ run.handling ≠ .idle →
    run.control.newGate = none ∨ run.control.newGate = some .cancelRequested
  granted : run.task = .committing ∨ run.connected = true →
    run.control.newGate = some .commitGranted
  checked : run.accepted = true → run.task = .checked → run.control.newGate ≠ none
  operation : run.accepted = true → ∀ active, run.lifecycle = some active →
    active.awaited = true → active.running = true → active.cancelled = true

/-- A Cancel is not answered between the check of the flag and the entry in the map. -/
def Timely (run : PhoneRun) (step : PhoneStep) : Prop :=
  step = .cancelLifecycle → run.action ≠ .new → run.task ≠ .checked

abbrev Step (run : PhoneRun) (step : PhoneStep) (run' : PhoneRun) : Prop :=
  run.next step = some run'

variable {run run' : PhoneRun}

theorem Kept.heard (h : run.Kept) (haccepted : run.accepted = true) : run.Heard := by
  refine ⟨h.flag (Or.inl haccepted), ?_, h.operation haccepted⟩
  by_contra hconnected
  have hgranted := h.granted (Or.inr (by simpa using hconnected))
  rcases h.gate (Or.inl haccepted) with hgate | hgate
  all_goals simp [hgate] at hgranted

theorem Kept.setTask (h : run.Kept) {task : PhoneTask} (htask : task ≠ .committing)
    (hchecked : task = .checked → run.accepted = true → run.control.newGate ≠ none)
    : Kept { run with task } := by
  refine ⟨h.kind, h.flag, h.gate, ?_, ?_, h.operation⟩
  . rintro (hcommitting | hconnected)
    . cases htask hcommitting
    . apply h.granted (Or.inr hconnected)
  . intro haccepted hcase
    apply hchecked hcase haccepted

theorem Kept.setLifecycle (h : run.Kept) {entry : Option SessionLifecycle}
    (hentry : ∀ active, entry = some active → active.awaited = true → active.running = true →
      active.cancelled = true ∨ run.lifecycle = some active)
    : Kept { run with lifecycle := entry } := by
  refine ⟨h.kind, h.flag, h.gate, h.granted, h.checked, ?_⟩
  intro haccepted active hactive hawaited hrunning
  rcases hentry active hactive hawaited hrunning with hcancelled | hold
  . exact hcancelled
  . apply h.operation haccepted active hold hawaited hrunning

theorem startOrJoin_cases {entry : Option SessionLifecycle} {kind : LifecycleKind}
    {active : SessionLifecycle} (h : startOrJoin entry kind = some active)
    : entry = some active ∨ active = { kind } := by
  unfold startOrJoin at h
  split at h
  next hentry =>
    split at h <;> cases h
    exact Or.inl (Option.filter_eq_some_iff.mp hentry).1
  next =>
    cases h
    exact Or.inr rfl

theorem Kept.step {step : PhoneStep} (h : run.Kept) (htimely : run.Timely step)
    (hnext : run.next step = some run') : run'.Kept := by
  have ⟨hkind, hflag, hgate, hgranted, hchecked, hoperation⟩ := h
  cases step <;> simp only [next, Option.ite_none_right_eq_some, Option.some.injEq] at hnext
  case request =>
    obtain ⟨⟨-, hidle⟩, rfl⟩ := hnext
    unfold PhoneActionControl.requestCancel
    constructor <;> grind
  case store =>
    obtain ⟨hrequested, rfl⟩ := hnext
    refine ⟨hkind, fun _ => rfl, ?_, hgranted, hchecked, hoperation⟩
    intro _
    apply hgate
    simp [hrequested]
  case cancelLifecycle =>
    obtain ⟨hstored, rfl⟩ := hnext
    refine ⟨hkind, fun _ => hflag (Or.inr hstored), ?_, hgranted, ?_, ?_⟩
    . intro _
      apply hgate
      simp [hstored]
    . intro _ htask hgate
      apply htimely rfl (hkind.mp hgate) htask
    . intro _ active hactive _ _
      obtain ⟨_, _, rfl⟩ := Option.map_eq_some_iff.mp hactive
      rfl
  case check =>
    obtain ⟨-, rfl⟩ := hnext
    apply h.setTask
    . split <;> simp
    . intro hcase haccepted
      simp [hflag (Or.inl haccepted)] at hcase
  case join =>
    obtain ⟨htask, hnext⟩ := hnext
    obtain ⟨kind, haction, rfl⟩ := Option.map_eq_some_iff.mp hnext
    have hgated : run.action ≠ .new := by
      rintro hnew
      simp [hnew, PhoneAction.kind?] at haction
    constructor <;> grind
  case grant =>
    obtain ⟨-, rfl⟩ := hnext
    unfold PhoneActionControl.grantNewCommit
    constructor <;> grind
  case connect =>
    obtain ⟨htask, rfl⟩ := hnext
    refine ⟨hkind, hflag, hgate, fun _ => hgranted (Or.inl htask), ?_, hoperation⟩
    simp
  case giveUp =>
    subst hnext
    apply h.setTask <;> simp
  case client kind =>
    subst hnext
    apply h.setLifecycle
    intro active hactive hawaited _
    rcases Option.or_eq_some_iff.mp hactive with hstart | ⟨-, hold⟩
    . rcases startOrJoin_cases hstart with hold | rfl
      . exact Or.inr hold
      . cases hawaited
    . exact Or.inr hold
  case finish result =>
    subst hnext
    apply h.setLifecycle
    simp
  case remove =>
    subst hnext
    apply h.setLifecycle
    intro active hactive _ _
    exact Or.inr (Option.filter_eq_some_iff.mp hactive).1
  all_goals
    obtain ⟨-, rfl⟩ := hnext
    exact ⟨hkind, hflag, hgate, hgranted, hchecked, hoperation⟩

theorem accepted_cancel_heard {action : PhoneAction}
    (h : Reaches Step Timely { action } run) (haccepted : run.accepted = true) : run.Heard := by
  apply Kept.heard _ haccepted
  apply h.invariant (P := Kept)
  . intro run step run' hkept htimely hnext
    apply hkept.step htimely hnext
  . constructor <;> simp [PhoneActionControl.forAction]

theorem accepted_cancel_heard_closing
    : ∃ run, Reaches Step Timely { action := .close } run ∧ run.accepted = true
        ∧ run.lifecycle.isSome ∧ run.Heard := by
  have hstored : Reaches Step Timely { action := .close } _ :=
    .of_follow (by simp [Timely]) (rfl : follow next _ [.check, .request, .join, .store] = some _)
  have hreaches := hstored.step (fun _ _ => by decide) (rfl : next _ .cancelLifecycle = some _)
  exact ⟨_, hreaches, rfl, rfl, accepted_cancel_heard hreaches rfl⟩

-- The loop answers between the check of the flag and the entry in the map.
theorem accepted_cancel_lost : ∃ run, follow next { action := .close }
          [.check, .request, .store, .cancelLifecycle, .join] = some run
        ∧ run.accepted = true ∧ ¬ run.Heard := by
  refine ⟨_, rfl, rfl, ?_⟩
  intro h
  cases h.operation _ rfl rfl rfl

end PhoneRun

end Hel
