import Mathlib.Algebra.BigOperators.Ring.Finset
import Mathlib.Algebra.Order.BigOperators.Group.Finset
import Hel.Review.Impl.Admission

/-!
This module contains the admission of specialist lanes.
-/

namespace Hel

open ReviewerRole

variable {config : ReviewerLaunchConfig}

def laneIds : Finset String :=
  (reviewLanes.map (·.id)).toFinset

theorem isLane_iff {role : String} : isLane role ↔ role ∈ laneIds := by
  simp [isLane, laneById, laneIds, List.find?_isSome]

namespace ReviewerRole

def slots (state : ReviewerRole) : Nat :=
  (match state.running with
    | some running => running.laneSlot.toNat
    | none => 0)
  + (match state.dispatch with
    | some ⟨_, .starting _ (.launching laneSlot)⟩ => laneSlot.toNat
    | _ => 0)

def isStarting (state : ReviewerRole) : Bool :=
  match state.dispatch with
  | some ⟨_, .dispatching (.start _)⟩ | some ⟨_, .starting _ _⟩ => true
  | _ => false

def holdsSlot (state : ReviewerRole) : Bool :=
  match state.running with
  | some running => running.laneSlot
  | none => false

-- Until its harness is launched, a role that is being started does not run. Only lanes take slots.
def Clear (state : ReviewerRole) (role : String) : Prop :=
  match state.dispatch with
  | some ⟨_, .starting _ .preparing⟩ | some ⟨_, .starting _ (.launching _)⟩ => state.running = none
  | some ⟨_, .starting _ .acquiring⟩ => state.running = none ∧ isLane role
  | _ => True

end ReviewerRole

def ReviewerAction.isStart : ReviewerAction → Bool
  | .start _ => true
  | _ => false

namespace ReviewerSidecar

def occupied (s : ReviewerSidecar) (role : String) : Bool :=
  (s.roles role).running.isSome || (s.roles role).isStarting
    || s.waiting.any (fun waiting => waiting.role = role && waiting.action.isStart)

structure Sound (s : ReviewerSidecar) : Prop where
  slots : s.laneSlots + ∑ lane ∈ laneIds, (s.roles lane).slots = maxParallelLanes
  clear : ∀ role, (s.roles role).Clear role
  lanes : ∀ role, isLane role = false → (s.roles role).slots = 0
  few : (laneIds.filter (fun lane => s.occupied lane)).card ≤ maxParallelLanes

structure Changes (s t : ReviewerSidecar) (role : String) : Prop where
  others : ∀ other, other ≠ role → t.roles other = s.roles other
  slots : t.laneSlots + (t.roles role).slots = s.laneSlots + (s.roles role).slots
  clear : (t.roles role).Clear role
  lanes : isLane role = false → (t.roles role).slots = 0
  occupied : ∀ other, t.occupied other → s.occupied other

variable {s t : ReviewerSidecar} {role : String}

theorem Changes.sum (h : Changes s t role) (hsound : Sound s)
    : t.laneSlots + ∑ lane ∈ laneIds, (t.roles lane).slots
      = s.laneSlots + ∑ lane ∈ laneIds, (s.roles lane).slots := by
  have hslots := h.slots
  by_cases hlane : role ∈ laneIds
  . have hrest : ∑ lane ∈ laneIds.erase role, (t.roles lane).slots
        = ∑ lane ∈ laneIds.erase role, (s.roles lane).slots := by
      apply Finset.sum_congr rfl
      intro other hother
      rw [h.others other (Finset.ne_of_mem_erase hother)]
    rw [← Finset.add_sum_erase _ _ hlane, ← Finset.add_sum_erase _ _ hlane, hrest]
    omega
  have hnot : isLane role = false := by
    simpa using (not_congr isLane_iff).mpr hlane
  have hrest : ∑ lane ∈ laneIds, (t.roles lane).slots = ∑ lane ∈ laneIds, (s.roles lane).slots := by
    apply Finset.sum_congr rfl
    intro other hother
    rw [h.others other (fun heq => hlane (heq ▸ hother))]
  have hbefore := hsound.lanes role hnot
  have hafter := h.lanes hnot
  omega

theorem Changes.sound (h : Changes s t role) (hsound : Sound s) : Sound t where
  slots := by
    rw [h.sum hsound]
    exact hsound.slots
  clear := by
    intro other
    by_cases heq : other = role
    . rw [heq]
      exact h.clear
    . rw [h.others other heq]
      exact hsound.clear other
  lanes := by
    intro other hnot
    by_cases heq : other = role
    . rw [heq] at hnot ⊢
      exact h.lanes hnot
    . rw [h.others other heq]
      exact hsound.lanes other hnot
  few := by
    apply Nat.le_trans _ hsound.few
    apply Finset.card_le_card
    apply Finset.monotone_filter_right
    intro lane _ hoccupied
    exact h.occupied lane hoccupied

theorem changes_of_update {state : ReviewerRole} (hroles : t.roles = Function.update s.roles role state)
    (hwaiting : t.waiting = s.waiting)
    (hslots : t.laneSlots + state.slots = s.laneSlots + (s.roles role).slots) (hclear : state.Clear role)
    (hlanes : isLane role = false → state.slots = 0)
    (hoccupied : state.running.isSome || state.isStarting → s.occupied role) : Changes s t role where
  others := by
    intro other hne
    simp [hroles, hne]
  slots := by
    simpa [hroles] using hslots
  clear := by
    simpa [hroles] using hclear
  lanes := by
    simpa [hroles] using hlanes
  occupied := by
    intro other hother
    by_cases heq : other = role
    . subst heq
      simp only [occupied, hroles, hwaiting, Function.update_self, Bool.or_eq_true] at hother
      rcases hother with hstate | hqueued
      . exact hoccupied (by simpa using hstate)
      . simp [occupied, hqueued]
    . simpa [occupied, hroles, hwaiting, heq] using hother

section Pause

variable (s role)

theorem pause_roles
    : (s.pause role).roles = Function.update s.roles role { s.roles role with running := none } := by
  unfold pause
  split
  next hnone =>
    have hsame : { s.roles role with running := none } = s.roles role := by
      rw [← hnone]
    rw [hsame, Function.update_eq_self]
  . rfl

theorem pause_waiting : (s.pause role).waiting = s.waiting := by
  unfold pause
  split <;> rfl

theorem pause_slots
    : (s.pause role).laneSlots + (ReviewerRole.mk none (s.roles role).dispatch).slots
      = s.laneSlots + (s.roles role).slots := by
  unfold pause
  split
  next hnone => simp [slots, hnone]
  next running hrunning =>
    simp only [releaseSlot, setRole, slots, hrunning]
    omega

end Pause

section Steps

variable {request : Nat} {task : RoleTask}

theorem changes_setTask {next : RoleTask} (hsound : Sound s)
    (hslots : (ReviewerRole.mk (s.roles role).running (some ⟨request, next⟩)).slots
      = (s.roles role).slots)
    (hclear : (ReviewerRole.mk (s.roles role).running (some ⟨request, next⟩)).Clear role)
    (hstarting : (s.roles role).isStarting) : Changes s (s.setTask role request next) role := by
  refine changes_of_update rfl rfl ?_ hclear ?_ ?_
  . exact congrArg (s.laneSlots + ·) hslots
  . intro hnot
    rw [hslots]
    exact hsound.lanes role hnot
  . simp [occupied, hstarting]

theorem changes_answer (hsound : Sound s)
    (hslots : (ReviewerRole.mk (s.roles role).running none).slots = (s.roles role).slots)
    : Changes s (s.answer role request) role := by
  refine changes_of_update rfl rfl ?_ trivial ?_ ?_
  . exact congrArg (s.laneSlots + ·) hslots
  . intro hnot
    rw [hslots]
    exact hsound.lanes role hnot
  intro hrunning
  have hrunning : (s.roles role).running.isSome := by
    simpa [isStarting] using hrunning
  simp [occupied, hrunning]

theorem changes_pause_answer
    (hslots : (ReviewerRole.mk none (s.roles role).dispatch).slots = 0)
    : Changes s ((s.pause role).answer role request) role := by
  have hroles : ((s.pause role).answer role request).roles = Function.update s.roles role {} := by
    simp [answer, setRole, pause_roles]
  refine changes_of_update hroles (pause_waiting s role) ?_ trivial (fun _ => rfl) ?_
  . have hpause := pause_slots s role
    simp only [hslots] at hpause
    simpa [answer, setRole, slots] using hpause
  . nofun

theorem changes_start (hsound : Sound s)
    (hdispatch : (s.roles role).dispatch = some ⟨request, .dispatching (.start config)⟩)
    : Changes s (s.start role request config) role := by
  have hstarting : (s.roles role).isStarting := by
    simp [isStarting, hdispatch]
  unfold start
  split
  . split
    . refine changes_setTask hsound ?_ trivial hstarting
      simp [slots, hdispatch]
    have hroles : ((s.pause role).setTask role request (.starting config .preparing)).roles
        = Function.update s.roles role
          { running := none, dispatch := some ⟨request, .starting config .preparing⟩ } := by
      simp [setTask, setRole, pause_roles]
    refine changes_of_update hroles (pause_waiting s role) ?_ rfl (fun _ => rfl) ?_
    . have hpause := pause_slots s role
      simpa [setTask, setRole, slots, hdispatch] using hpause
    . simp [occupied, hstarting]
  next hnone =>
    refine changes_setTask hsound ?_ hnone hstarting
    simp [slots, hdispatch]

theorem changes_proceedStart {stage : StartStage} (hsound : Sound s)
    (hdispatch : (s.roles role).dispatch = some ⟨request, .starting config stage⟩)
    (hnext : s.proceedStart role request config stage = some t) : Changes s t role := by
  have hclear := hsound.clear role
  have hstarting : (s.roles role).isStarting := by
    simp [isStarting, hdispatch]
  simp only [ReviewerRole.Clear, hdispatch] at hclear
  cases stage with
  | preparing =>
    simp only [proceedStart] at hnext
    split at hnext <;> cases hnext
    next hlane =>
      refine changes_setTask hsound ?_ ⟨hclear, hlane⟩ hstarting
      simp [slots, hdispatch]
    . refine changes_setTask hsound ?_ hclear hstarting
      simp [slots, hdispatch]
  | acquiring =>
    simp only [proceedStart] at hnext
    split at hnext <;> cases hnext
    next hfree =>
      refine changes_of_update rfl rfl ?_ hclear.1 ?_ ?_
      . simp [setTask, setRole, slots, hclear.1, hdispatch]
        omega
      . simp [hclear.2]
      . simp [occupied, hstarting]
  | launching laneSlot =>
    cases hnext
    have hslots : (s.roles role).slots = laneSlot.toNat := by
      simp [slots, hclear, hdispatch]
    refine changes_of_update rfl rfl ?_ trivial ?_ ?_
    . simp [setRole, slots, hclear, hdispatch]
    . intro hnot
      have hzero := hsound.lanes role hnot
      rw [hslots] at hzero
      simp [slots, hzero]
    . simp [occupied, hstarting]
  | opening =>
    cases hnext
    refine changes_setTask hsound ?_ trivial hstarting
    simp [slots, hdispatch]
  | configuring =>
    cases hnext
    apply changes_answer hsound
    simp [slots, hdispatch]

theorem changes_proceed (hsound : Sound s) (hnext : s.proceed role = some t) : Changes s t role := by
  unfold proceed at hnext
  split at hnext
  . cases hnext
  next hdispatch =>
    cases hnext
    exact changes_start hsound hdispatch
  next hdispatch =>
    cases hnext
    apply changes_pause_answer
    simp [slots, hdispatch]
  next hdispatch =>
    cases hnext
    apply changes_answer hsound
    simp [slots, hdispatch]
  next hdispatch => exact changes_proceedStart hsound hdispatch hnext

theorem changes_fail (hsound : Sound s) (hnext : s.fail role = some t) : Changes s t role := by
  have hclear := hsound.clear role
  unfold fail at hnext
  split at hnext <;> cases hnext
  next hdispatch =>
    apply changes_answer hsound
    simp [slots, hdispatch]
  next hdispatch =>
    apply changes_answer hsound
    simp [slots, hdispatch]
  next request _ laneSlot hdispatch =>
    simp only [ReviewerRole.Clear, hdispatch] at hclear
    refine changes_of_update rfl rfl ?_ trivial ?_ ?_
    . simp [answer, setRole, releaseSlot, slots, hclear, hdispatch]
    . intro _
      simp [releaseSlot, slots, hclear]
    . simp [releaseSlot, hclear, isStarting]
  next hdispatch =>
    apply changes_pause_answer
    simp [slots, hdispatch]
  next hdispatch =>
    apply changes_answer hsound
    simp [slots, hdispatch]

theorem sound_lock {request : Nat} (hsound : Sound s) (hnext : s.lock request = some t) : Sound t := by
  unfold lock at hnext
  split at hnext
  . cases hnext
  rename_i waiting hfind
  have hmem := List.mem_of_find?_eq_some hfind
  have herase (role : String)
      (h : (s.waiting.erase waiting).any (fun other => other.role = role && other.action.isStart))
      : s.waiting.any (fun other => other.role = role && other.action.isStart) := by
    have ⟨other, hother, hstart⟩ := List.any_eq_true.mp h
    exact List.any_eq_true.mpr ⟨other, List.mem_of_mem_erase hother, hstart⟩
  dsimp only at hnext
  split at hnext
  . cases hnext
    have hchanges : Changes s
        { s with waiting := s.waiting.erase waiting, answered := s.answered ++ [request] }
        waiting.role := by
      refine ⟨fun _ _ => rfl, rfl, hsound.clear _, hsound.lanes _, ?_⟩
      intro role hoccupied
      simp only [occupied, Bool.or_eq_true] at hoccupied ⊢
      exact hoccupied.imp_right (herase role)
    exact hchanges.sound hsound
  split at hnext <;> cases hnext
  rename_i hnone
  have hsame : (ReviewerRole.mk (s.roles waiting.role).running
      (some ⟨request, .dispatching waiting.action⟩)).slots = (s.roles waiting.role).slots := by
    simp [ReviewerRole.slots, hnone]
  have hchanges : Changes s
      ({ s with waiting := s.waiting.erase waiting }.setTask waiting.role request
        (.dispatching waiting.action)) waiting.role := by
    constructor
    . intro other hne
      simp [setTask, setRole, hne]
    . simpa [setTask, setRole] using hsame
    . simp [setTask, setRole, ReviewerRole.Clear]
    . intro hnot
      have hzero := hsound.lanes _ hnot
      simpa [setTask, setRole, hsame] using hzero
    intro role hoccupied
    by_cases heq : role = waiting.role
    . subst heq
      simp only [occupied, setTask, setRole, Function.update_self, Bool.or_eq_true]
        at hoccupied ⊢
      rcases hoccupied with (hrunning | hstarting) | hqueued
      . exact .inl (.inl hrunning)
      . right
        refine List.any_eq_true.mpr ⟨waiting, hmem, ?_⟩
        simp only [ReviewerRole.isStarting] at hstarting
        split at hstarting <;> simp_all [ReviewerAction.isStart]
      . exact .inr (herase _ hqueued)
    . simp only [occupied, setTask, setRole, Function.update_of_ne heq, Bool.or_eq_true]
        at hoccupied ⊢
      exact hoccupied.imp_right (herase role)
  exact hchanges.sound hsound

theorem sound_next {event : SidecarEvent} (hsound : Sound s) (hnext : s.next event = some t)
    : Sound t := by
  cases event with
  | lock request => exact sound_lock hsound hnext
  | proceed role => exact (changes_proceed hsound hnext).sound hsound
  | fail role => exact (changes_fail hsound hnext).sound hsound

end Steps

theorem slots_le (hsound : Sound s) (lane : String)
    : (s.roles lane).slots ≤ if s.occupied lane then 1 else 0 := by
  have hclear := hsound.clear lane
  cases hrunning : (s.roles lane).running with
  | none =>
    cases hdispatch : (s.roles lane).dispatch with
    | none => simp [slots, hrunning, hdispatch]
    | some dispatch =>
    have ⟨request, task⟩ := dispatch
    cases task with
    | dispatching action => simp [slots, hrunning, hdispatch]
    | starting config stage =>
    have hoccupied : s.occupied lane := by
      simp [occupied, isStarting, hdispatch]
    cases stage with
    | launching laneSlot =>
      simpa [slots, hrunning, hdispatch, hoccupied] using laneSlot.toNat_le
    | _ => simp [slots, hrunning, hdispatch]
  | some running =>
    have hoccupied : s.occupied lane := by
      simp [occupied, hrunning]
    have hnone : (s.roles lane).slots = running.laneSlot.toNat := by
      simp only [slots, hrunning]
      split
      next hdispatch => simp [Clear, hdispatch, hrunning] at hclear
      . rfl
    rw [hnone, if_pos hoccupied]
    exact running.laneSlot.toNat_le

theorem free_of_acquiring {request : Nat} (hsound : Sound s)
    (hdispatch : (s.roles role).dispatch = some ⟨request, .starting config .acquiring⟩)
    : 0 < s.laneSlots := by
  have hclear := hsound.clear role
  simp only [Clear, hdispatch] at hclear
  have hoccupied : s.occupied role := by
    simp [occupied, isStarting, hdispatch]
  have hlt : ∑ lane ∈ laneIds, (s.roles lane).slots
      < ∑ lane ∈ laneIds, if s.occupied lane then 1 else 0 := by
    apply Finset.sum_lt_sum
    . intro lane _
      exact slots_le hsound lane
    . refine ⟨role, isLane_iff.mp hclear.2, ?_⟩
      simp [slots, hclear.1, hdispatch, hoccupied]
  have hfew := hsound.few
  have hslots := hsound.slots
  rw [Finset.card_filter] at hfew
  omega

theorem sound_start : Sound {} where
  slots := by
    simp [slots]
  clear := by
    intro _
    trivial
  lanes := by
    intro _ _
    rfl
  few := by
    simp [occupied, isStarting]

end ReviewerSidecar

namespace LaneSystem

open Machine

/-- A lane's start is sent only if, with it, no more lanes run or are being started than fit. -/
def Admits (s : LaneSystem) : LaneEvent → Prop
  | .request => ∀ role config,
      s.desk.actor.task = some (.serving (.reviewer (some role) (.start config))) →
      (laneIds.filter (fun lane => s.sidecar.occupied lane ∨ lane = role)).card ≤ maxParallelLanes
  | _ => True

/--
The actor waits for the start of a lane, the start for a slot, and every slot is held by a lane that
only a command to this actor can end.
-/
def Stuck (s : LaneSystem) : Prop :=
  ∃ request role config, s.exchange = some request
    ∧ s.desk.actor.task = some (.serving (.reviewer (some role) (.start config)))
    ∧ (s.sidecar.roles role).dispatch = some ⟨request, .starting config .acquiring⟩
    ∧ s.sidecar.laneSlots = 0
    ∧ (laneIds.filter (fun lane => (s.sidecar.roles lane).holdsSlot)).card = maxParallelLanes

theorem sound_requestNext {s t : LaneSystem} (hsound : s.sidecar.Sound) (hadmits : s.Admits .request)
    (hnext : s.requestNext = some t) : t.sidecar.Sound := by
  unfold requestNext at hnext
  split at hnext <;> cases hnext
  rename_i role action _ htask
  refine ⟨hsound.slots, hsound.clear, hsound.lanes, ?_⟩
  have hsubset (lane : String) (hlane : lane ∈ laneIds)
      (hoccupied : ReviewerSidecar.occupied { s.sidecar with
        waiting := s.sidecar.waiting
          ++ [ReviewerRequest.mk s.nextRequest (role.getD reviewerRole) action] } lane)
      : s.sidecar.occupied lane
        ∨ (∃ config, action = .start config) ∧ role = some lane := by
    simp only [ReviewerSidecar.occupied, List.any_append, Bool.or_eq_true] at hoccupied ⊢
    rcases hoccupied with hrole | hqueued | hadded
    . exact .inl (.inl hrole)
    . exact .inl (.inr hqueued)
    right
    simp only [List.any_cons, List.any_nil, Bool.or_false, Bool.and_eq_true,
      decide_eq_true_eq] at hadded
    refine ⟨?_, ?_⟩
    . cases action <;> simp_all [ReviewerAction.isStart]
    cases role with
    | none =>
      simp only [Option.getD_none] at hadded
      exact absurd (hadded.1 ▸ hlane) (by decide +kernel)
    | some role => simpa using hadded.1
  by_cases hstart : (∃ config, action = .start config) ∧ role.isSome
  . have ⟨⟨config, haction⟩, hrole⟩ := hstart
    have ⟨lane, hrole⟩ := Option.isSome_iff_exists.mp hrole
    subst haction hrole
    apply Nat.le_trans _ (hadmits lane config htask)
    apply Finset.card_le_card
    apply Finset.monotone_filter_right
    intro other hother hoccupied
    apply (hsubset other hother hoccupied).imp_right
    intro h
    exact (Option.some.inj h.2).symm
  . apply Nat.le_trans _ hsound.few
    apply Finset.card_le_card
    apply Finset.monotone_filter_right
    intro other hother hoccupied
    rcases hsubset other hother hoccupied with h | ⟨haction, hrole⟩
    . exact h
    . exact absurd ⟨haction, by simp [hrole]⟩ hstart

theorem sound_step (s : LaneSystem) (event : LaneEvent) (t : LaneSystem) (hsound : s.sidecar.Sound)
    (hadmits : s.Admits event) (hstep : Step s event t) : t.sidecar.Sound := by
  cases event with
  | actor event =>
    simp only [Step, next, actorNext] at hstep
    split at hstep
    . cases hstep
    have ⟨desk, _, heq⟩ := Option.map_eq_some_iff.mp hstep
    rw [← heq]
    exact hsound
  | request => exact sound_requestNext hsound hadmits hstep
  | worker event =>
    have ⟨sidecar, hnext, heq⟩ := Option.map_eq_some_iff.mp hstep
    rw [← heq]
    exact ReviewerSidecar.sound_next hsound hnext
  | answer =>
    simp only [Step, next, answerNext] at hstep
    split at hstep
    . split at hstep
      . have ⟨desk, _, heq⟩ := Option.map_eq_some_iff.mp hstep
        rw [← heq]
        exact hsound
      . cases hstep
    . cases hstep

/-- If lanes are started only when they fit, no start ever finds all slots taken. -/
theorem lane_admission_never_stuck {s : LaneSystem} (h : Reaches Step Admits {} s)
    : ¬ s.Stuck ∧ ∀ role request config,
        (s.sidecar.roles role).dispatch = some ⟨request, .starting config .acquiring⟩ →
        0 < s.sidecar.laneSlots := by
  have hsound : s.sidecar.Sound :=
    h.invariant (P := fun s => s.sidecar.Sound) sound_step ReviewerSidecar.sound_start
  constructor
  . intro ⟨request, role, config, _, _, hdispatch, hnone, _⟩
    have := ReviewerSidecar.free_of_acquiring hsound hdispatch
    omega
  . intro role request config hdispatch
    exact ReviewerSidecar.free_of_acquiring hsound hdispatch

section Runs

variable {s t : LaneSystem}

def laneConfig : ReviewerLaunchConfig where
  profileId := "reviewer"
  harness := .codex
  generation := 0

def startLane (lane : String) : List LaneEvent :=
  [.actor (.send (.reviewer (some lane) (.start laneConfig))), .actor (.receive false), .request]

def serveLane (request : Nat) (lane : String) : List LaneEvent :=
  .worker (.lock request) :: List.replicate 6 (.worker (.proceed lane)) ++ [.answer]

def fourLanes : List LaneEvent :=
  startLane "control_flow" ++ serveLane 0 "control_flow"
    ++ startLane "duplication" ++ serveLane 1 "duplication"
    ++ startLane "error_handling" ++ serveLane 2 "error_handling"
    ++ startLane "tests"
    ++ [.worker (.lock 3), .worker (.proceed "tests"), .worker (.proceed "tests")]

theorem lane_admission_never_stuck_of_first_lane
    : ∃ s : LaneSystem,
      (s.sidecar.roles "control_flow").dispatch = some ⟨0, .starting laneConfig .acquiring⟩
      ∧ ¬ s.Stuck ∧ 0 < s.sidecar.laneSlots := by
  have hasked : ∃ s, Reaches Step Admits {} s
      ∧ s.desk.actor.task = some (.serving (.reviewer (some "control_flow") (.start laneConfig)))
      ∧ (laneIds.filter (fun lane => s.sidecar.occupied lane ∨ lane = "control_flow")).card
        ≤ maxParallelLanes
      ∧ ∃ t, follow next s [.request] = some t
        ∧ ∃ u, follow next t [.worker (.lock 0), .worker (.proceed "control_flow"),
            .worker (.proceed "control_flow")] = some u
          ∧ (u.sidecar.roles "control_flow").dispatch
            = some ⟨0, .starting laneConfig .acquiring⟩ := by
    refine ⟨_, Reaches.of_follow ?_ (rfl : follow next {}
      [.actor (.send (.reviewer (some "control_flow") (.start laneConfig))),
        .actor (.receive false)] = _), rfl, by decide +kernel, _, rfl, _, rfl, rfl⟩
    intro s event hmem
    rcases List.mem_pair.mp hmem with rfl | rfl <;> trivial
  have ⟨s, hbegin, htask, hfits, t, hrequest, u, hworker, hdispatch⟩ := hasked
  have hadmits : Admits s .request := by
    intro role config hother
    rw [htask] at hother
    cases hother
    exact hfits
  have hrequested : Reaches Step Admits s t := by
    have ⟨t', hstep, heq⟩ := Option.bind_eq_some_iff.mp hrequest
    cases heq
    exact Reaches.single hadmits hstep
  have hserved : Reaches Step Admits t u := by
    apply Reaches.of_follow _ hworker
    intro s event hmem
    simp only [List.mem_cons, List.not_mem_nil, or_false] at hmem
    rcases hmem with rfl | rfl | rfl <;> trivial
  have hsafe := lane_admission_never_stuck ((hbegin.trans hrequested).trans hserved)
  exact ⟨u, hdispatch, hsafe.1, hsafe.2 _ _ _ hdispatch⟩

theorem lane_admission_stuck : ∃ s, Reaches Step (fun _ _ => True) {} s ∧ s.Stuck := by
  have hrun : ∃ s, follow next {} fourLanes = some s ∧ s.exchange = some 3
      ∧ s.desk.actor.task = some (.serving (.reviewer (some "tests") (.start laneConfig)))
      ∧ (s.sidecar.roles "tests").dispatch = some ⟨3, .starting laneConfig .acquiring⟩
      ∧ s.sidecar.laneSlots = 0
      ∧ (laneIds.filter (fun lane => (s.sidecar.roles lane).holdsSlot)).card
        = maxParallelLanes := by
    refine ⟨_, rfl, ?_⟩
    decide +kernel
  have ⟨s, hrun, hstuck⟩ := hrun
  exact ⟨s, Reaches.of_follow (fun _ _ _ => trivial) hrun, 3, "tests", laneConfig, hstuck⟩

end Runs

end LaneSystem

end Hel
