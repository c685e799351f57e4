import Hel.Session.Impl.Callers

/-!
This module contains what the steps of a session actor and its callers keep about a lease.
-/

namespace Hel

open SessionActor ActorLifecycle

variable {returned : ReturnedConnection} {result : Except String Nat} {call : Nat}
  {connection : Bool} {leaseId : Nat} {event : ActorEvent} {actor : SessionActor} {task : ActorTask}
  {rest : List ReturnedConnection} {lifecycle : ActorLifecycle} {state : Option LeaseCall}
  {retiring : Bool}

def ActorTask.isDraining : ActorTask → Bool
  | .submitting _ drains | .catchingUp drains => drains
  | _ => false

namespace ActorSystem

open Machine

def Held (s : ActorSystem) (leaseId : Nat) : Prop :=
  leaseId ∈ s.leases ∨ (∃ returned ∈ s.releases, returned.leaseId = leaseId)
    ∨ ∃ call, s.calls call = some (.replied (.ok leaseId))

def Returnable (s : ActorSystem) : Prop :=
  s.stopped = false → ∀ leaseId, s.actor.lifecycle.activeLease = some leaseId → s.Held leaseId

def Accounted (s : ActorSystem) : Prop :=
  s.deferred = s.answered.map Prod.fst ++ s.inFlight ++ s.actor.deferredSubmits

/-- A call whose answer has granted it the lease is not dropped before it reads the answer. -/
def Polled (s : ActorSystem) : ActorEvent → Prop
  | .dropCall call => ∀ leaseId, s.calls call ≠ some (.replied (.ok leaseId))
  | _ => True

def Owed (_ : ActorSystem) : ActorEvent → Prop
  | .resume _ | .release _ | .takeReturn | .ended _ | .delivered _ _ => True
  | _ => False

def Settling (s : ActorSystem) : Prop :=
  ∃ t, Reaches Step Owed s t ∧ t.answered.map Prod.fst = s.deferred

-- What a step of the actor keeps about the actor itself: `busy` and `waits` say when submissions may
-- be deferred, which is what makes the return of the lease enough to drain them.
structure Tidy (actor : SessionActor) : Prop where
  busy : actor.lifecycle.isLeased → actor.task = none
  waits : actor.deferredSubmits ≠ [] →
    actor.lifecycle.isLeased ∨ ∃ task, actor.task = some task ∧ task.isDraining

structure Kept (s : ActorSystem) : Prop where
  returnable : s.Returnable
  accounted : s.Accounted
  tidy : s.stopped = false → Tidy s.actor
  ended : s.stopped → s.actor.deferredSubmits = [] ∧ s.inFlight = []
  fresh : ∀ call, s.nextCall ≤ call → s.calls call = none

section Actor

variable {actor : SessionActor}

theorem Tidy.drain (h : actor.lifecycle.isLeased = false) : Tidy actor.drain := by
  unfold SessionActor.drain
  split
  next hnone => constructor <;> simp [h, hnone]
  next => constructor <;> simp [h, ActorTask.isDraining]

@[simp]
theorem drain_lifecycle : actor.drain.lifecycle = actor.lifecycle := by
  unfold drain
  split <;> rfl

inductive Received (actor : SessionActor) (lifecycle : ActorLifecycle) : SessionActor → Prop where
  | rejected : Received actor lifecycle { actor with lifecycle := lifecycle }
  | deferred (submit : DeferredSubmit) (hleased : actor.lifecycle.isLeased)
      : Received actor lifecycle
          { actor with
            lifecycle := lifecycle, deferredSubmits := actor.deferredSubmits ++ [submit] }
  | taken (task : ActorTask) (hleased : actor.lifecycle.isLeased = false)
      (hdrains : task.isDraining = false)
      : Received actor lifecycle { actor with lifecycle := lifecycle, task := some task }

theorem receive_received (retiring held : Bool) (command : ActorCommand)
    : Received actor (actor.lifecycle.setRetirementRequested retiring)
        (actor.receive retiring held command).1 := by
  unfold SessionActor.receive
  dsimp only
  split
  . apply Received.rejected
  split
  . split
    . apply Received.rejected
    split
    next hleased =>
      apply Received.deferred
      exact hleased
    rename_i hleased
    apply Received.taken
    . simpa [isLeased, setRetirementRequested] using hleased
    . rfl
  all_goals
    split
    . apply Received.rejected
    rename_i hleased
    apply Received.taken
    . simpa [isLeased, setRetirementRequested] using hleased
    . rfl

theorem takeReturn_other (h : actor.lifecycle.activeLease ≠ some returned.leaseId)
    : actor.takeReturn retiring returned = (actor, []) := by
  simp [takeReturn, returnLease, h]

theorem takeReturn_matched (h : actor.lifecycle.activeLease = some returned.leaseId)
    : actor.takeReturn retiring returned =
        let actor := { actor with
          lifecycle := { actor.lifecycle with activeLease := none }
          connection := returned.connection }
        if retiring then actor.refuseDeferred targetChanging else (actor.drain, []) := by
  simp [takeReturn, returnLease, h]

end Actor

section Callers

variable {s t : ActorSystem}

theorem Held.of_calls {leaseId call : Nat} (h : s.Held leaseId)
    (hcall : ∀ leaseId, s.calls call ≠ some (.replied (.ok leaseId)))
    : (s.setCall call state).Held leaseId := by
  apply h.imp_right
  apply Or.imp_right
  intro ⟨other, hother⟩
  refine ⟨other, ?_⟩
  have hne : other ≠ call := by
    intro heq
    apply hcall leaseId
    rwa [← heq]
  simpa [setCall, hne] using hother

structure Frame (s t : ActorSystem) : Prop where
  actor : t.actor = s.actor
  stopped : t.stopped = s.stopped
  deferred : t.deferred = s.deferred
  answered : t.answered = s.answered

theorem Kept.frame (h : Kept s) (hframe : Frame s t)
    (hheld : s.stopped = false → ∀ leaseId, s.Held leaseId → t.Held leaseId)
    (hfresh : ∀ call, t.nextCall ≤ call → t.calls call = none) : Kept t where
  returnable := by
    intro hgoing leaseId hactive
    rw [hframe.stopped] at hgoing
    rw [hframe.actor] at hactive
    apply hheld hgoing
    exact h.returnable hgoing leaseId hactive
  accounted := by
    have := h.accounted
    simp only [Accounted, inFlight] at this ⊢
    rw [hframe.deferred, hframe.answered, hframe.actor]
    exact this
  tidy := by
    rw [hframe.stopped, hframe.actor]
    exact h.tidy
  ended := by
    have := h.ended
    simp only [inFlight] at this ⊢
    rw [hframe.stopped, hframe.actor]
    exact this
  fresh := hfresh

theorem fresh_setCall (h : ∀ call, s.nextCall ≤ call → s.calls call = none)
    (hold : s.calls call ≠ none ∨ state = none)
    : ∀ other, s.nextCall ≤ other → (s.setCall call state).calls other = none := by
  intro other hle
  by_cases heq : other = call
  . have hnone := h other hle
    rw [heq] at hnone
    simpa [setCall, heq, hnone] using hold
  . simpa [setCall, heq] using h other hle

theorem kept_rest {commands : List ActorCommand} (h : Kept s) : Kept { s with commands := commands } :=
  h.frame ⟨rfl, rfl, rfl, rfl⟩ (fun _ _ hheld => hheld) h.fresh

theorem Kept.setCall (h : Kept s) (hcall : ∀ leaseId, s.calls call ≠ some (.replied (.ok leaseId)))
    (hold : s.calls call ≠ none ∨ state = none) : Kept (s.setCall call state) := by
  refine h.frame ⟨rfl, rfl, rfl, rfl⟩ ?_ (fresh_setCall h.fresh hold)
  intro _ leaseId hheld
  exact hheld.of_calls hcall

theorem kept_reply (h : Kept s) : Kept (s.reply call result) := by
  unfold reply
  split
  next hwaiting =>
    apply h.setCall
    . simp [hwaiting]
    . simp [hwaiting]
  . exact h

theorem Held.of_giveBack {leaseId other : Nat} (h : s.Held leaseId)
    (hgoing : s.stopped = false) : (s.giveBack other connection).Held leaseId := by
  rcases h with hlease | hreturned | hcall
  . by_cases heq : leaseId = other
    . apply Or.inr
      apply Or.inl
      exact ⟨⟨leaseId, connection⟩, by simp [giveBack, hgoing, heq], rfl⟩
    . apply Or.inl
      simpa [giveBack, List.mem_erase_of_ne heq] using hlease
  . apply Or.inr
    apply Or.inl
    have ⟨returned, hmem, hid⟩ := hreturned
    exact ⟨returned, by simp [giveBack, hgoing, hmem], hid⟩
  . exact Or.inr (Or.inr hcall)

theorem kept_sendLease (h : Kept s) (hnext : s.callerNext (.sendLease call) = some t) : Kept t := by
  simp only [callerNext] at hnext
  split at hnext
  next hsending =>
    have hcall : ∀ leaseId, s.calls call ≠ some (.replied (.ok leaseId)) := by
      simp [hsending]
    split at hnext <;> cases hnext
    . exact h.setCall hcall (.inr rfl)
    . exact kept_rest (h.setCall hcall (.inl (by simp [hsending])))
  . cases hnext

theorem kept_resume (h : Kept s) (hnext : s.callerNext (.resume call) = some t) : Kept t := by
  simp only [callerNext] at hnext
  split at hnext <;> cases hnext
  next leaseId hreplied =>
    refine h.frame ⟨rfl, rfl, rfl, rfl⟩ ?_ (fresh_setCall h.fresh (.inr rfl))
    intro _ other hheld
    by_cases heq : other = leaseId
    . exact .inl (by simp [heq])
    rcases hheld with hlease | hreturned | ⟨holder, hholder⟩
    . exact .inl (by simp [hlease])
    . exact .inr (.inl hreturned)
    have hne : holder ≠ call := by
      intro hsame
      simp [hsame, hreplied] at hholder
      exact heq hholder.symm
    exact .inr (.inr ⟨holder, by simpa [setCall, hne] using hholder⟩)
  next hreplied => exact h.setCall (by simp [hreplied]) (.inr rfl)

theorem kept_giveBack (h : Kept s) : Kept (s.giveBack leaseId connection) := by
  refine h.frame ⟨rfl, rfl, rfl, rfl⟩ ?_ h.fresh
  intro hgoing other hheld
  exact hheld.of_giveBack hgoing

theorem kept_call (h : Kept s) (hnext : s.callerNext .call = some t) : Kept t := by
  cases hnext
  refine h.frame ⟨rfl, rfl, rfl, rfl⟩ ?_ ?_
  . -- a new call has a number that no call had
    intro _ leaseId hheld
    have hnew : s.calls s.nextCall = none := h.fresh s.nextCall (Nat.le_refl _)
    exact hheld.of_calls (by simp [hnew])
  intro call hle
  have hle : s.nextCall + 1 ≤ call := hle
  have hne : call ≠ s.nextCall := by omega
  simpa [setCall, hne] using h.fresh call (by omega)

theorem kept_callerNext (h : Kept s) (hpolled : Polled s event)
    (hnext : s.callerNext event = some t) : Kept t := by
  cases event with
  | call => exact kept_call h hnext
  | sendLease call => exact kept_sendLease h hnext
  | resume call => exact kept_resume h hnext
  | dropCall call =>
    cases hnext
    exact h.setCall hpolled (.inr rfl)
  | release leaseId | dropLease leaseId =>
    simp only [callerNext] at hnext
    split at hnext <;> cases hnext
    exact kept_giveBack h
  | send command =>
    simp only [callerNext] at hnext
    split at hnext
    . cases hnext
    split at hnext <;> cases hnext
    exact kept_rest h
  | retire requested =>
    cases hnext
    exact h.frame ⟨rfl, rfl, rfl, rfl⟩ (fun _ _ hheld => hheld) h.fresh
  | _ => cases hnext

end Callers

section Actions

variable {s t : ActorSystem}

theorem kept_stop (h : Kept s) : Kept s.stop where
  returnable := by nofun
  accounted := by
    have := h.accounted
    simp only [Accounted] at this
    simp [Accounted, stop, inFlight, this, Function.comp_def]
  tidy := by nofun
  ended := by
    simp [stop, inFlight]
  fresh := by
    intro call hle
    simp [stop, h.fresh call hle]

theorem kept_of_going (hgoing : t.stopped = false)
    (hheld : ∀ leaseId, t.actor.lifecycle.activeLease = some leaseId → t.Held leaseId)
    (haccounted : t.Accounted) (htidy : Tidy t.actor)
    (hfresh : ∀ call, t.nextCall ≤ call → t.calls call = none) : Kept t where
  returnable := fun _ => hheld
  accounted := haccounted
  tidy := fun _ => htidy
  ended := by
    intro hstopped
    simp [hgoing] at hstopped
  fresh := hfresh

theorem activeLease_of_free (h : lifecycle.isLeased = false) : lifecycle.activeLease = none := by
  simpa [isLeased] using h

theorem kept_of_free (hgoing : t.stopped = false) (hfree : t.actor.lifecycle.isLeased = false)
    (hempty : t.actor.deferredSubmits = []) (haccounted : t.Accounted)
    (hfresh : ∀ call, t.nextCall ≤ call → t.calls call = none) : Kept t := by
  apply kept_of_going hgoing _ haccounted _ hfresh
  . simp [activeLease_of_free hfree]
  . constructor <;> simp [hfree, hempty]

theorem Kept.accounted_idle (h : Kept s) (hidle : s.actor.task = none)
    : s.deferred = s.answered.map Prod.fst ++ s.actor.deferredSubmits := by
  simpa [Accounted, inFlight, hidle] using h.accounted

theorem inFlight_drain (hactor : s.actor = actor.drain)
    : s.inFlight ++ s.actor.deferredSubmits = actor.deferredSubmits := by
  cases hdeferred : actor.deferredSubmits <;>
    simp [inFlight, hactor, drain, hdeferred]

theorem isLeased_of_task (htidy : Tidy s.actor) (htask : s.actor.task = some task)
    : s.actor.lifecycle.isLeased = false := by
  by_contra hleased
  have := htidy.busy (by simpa using hleased)
  simp [htask] at this

theorem deferredSubmits_of_task (htidy : Tidy s.actor) (htask : s.actor.task = some task)
    (hdrains : task.isDraining = false) : s.actor.deferredSubmits = [] := by
  by_contra hne
  have := htidy.waits hne
  simp [isLeased_of_task htidy htask, htask, hdrains] at this

section Going

variable (h : Kept s) (hgoing : s.stopped = false)

include h hgoing

section Idle

variable (hidle : s.actor.task = none)

include hidle

theorem kept_received {requested : Bool}
    (hreceived : Received s.actor (s.actor.lifecycle.setRetirementRequested requested) actor)
    : Kept { s with
        actor := actor
        deferred := s.deferred ++ actor.deferredSubmits.drop s.actor.deferredSubmits.length } := by
  have htidy := h.tidy hgoing
  have haccounted := h.accounted_idle hidle
  have hheld := h.returnable hgoing
  cases hreceived with
  | rejected =>
    refine kept_of_going hgoing hheld ?_ ?_ h.fresh
    . simp [Accounted, inFlight, hidle, haccounted]
    . exact ⟨htidy.busy, htidy.waits⟩
  | deferred submit hleased =>
    refine kept_of_going hgoing hheld ?_ ?_ h.fresh
    . simp [Accounted, inFlight, hidle, haccounted]
    . exact ⟨htidy.busy, fun _ => .inl hleased⟩
  | taken task hleased hdrains =>
  have hempty : s.actor.deferredSubmits = [] := by
    by_contra hne
    have := htidy.waits hne
    simp [hleased, hidle] at this
  refine kept_of_free hgoing hleased hempty ?_ h.fresh
  cases task with
  | submitting submit drains =>
    cases hdrains
    simp [Accounted, inFlight, haccounted]
  | _ => simp [Accounted, inFlight, haccounted]

theorem kept_receive {held : Bool} {command : ActorCommand} : Kept (s.receive held command) := by
  have hbase := kept_received h hgoing hidle (receive_received s.retirement held command)
  unfold receive
  dsimp only
  split
  . exact kept_reply hbase
  . exact hbase

theorem kept_takeReturn (hreleases : s.releases = returned :: rest)
    : Kept { s with
        actor := (s.actor.takeReturn s.retirement returned).1
        releases := rest
        answered := s.answered ++ (s.actor.takeReturn s.retirement returned).2 } := by
  have haccounted := h.accounted_idle hidle
  by_cases hmatched : s.actor.lifecycle.activeLease = some returned.leaseId
  . rw [takeReturn_matched hmatched]
    dsimp only
    split
    . refine kept_of_going hgoing (by simp [refuseDeferred]) ?_ ?_ h.fresh
      . simp [Accounted, inFlight, hidle, haccounted, refuseDeferred, Function.comp_def]
      . constructor <;> simp [refuseDeferred, isLeased]
    . refine kept_of_going hgoing (by simp) ?_ (Tidy.drain rfl) h.fresh
      simp only [Accounted, List.append_nil, List.append_assoc]
      rw [inFlight_drain rfl, haccounted]
  rw [takeReturn_other hmatched]
  refine kept_of_going hgoing ?_ ?_ (h.tidy hgoing) h.fresh
  . -- another lease came back, so the holder of this one is still there
    intro leaseId hactive
    apply (h.returnable hgoing leaseId hactive).imp_right
    apply Or.imp_left
    intro ⟨other, hmem, hid⟩
    refine ⟨other, ?_, hid⟩
    rw [hreleases] at hmem
    cases hmem with
    | head => exact absurd (hid ▸ hactive) hmatched
    | tail _ hmem => exact hmem
  . simp [Accounted, inFlight, hidle, haccounted]

theorem kept_tick {task : Option ActorTask}
    (hlease : lifecycle.activeLease = s.actor.lifecycle.activeLease)
    (htask : task = none ∨ task = some .tick ∧ lifecycle.isLeased = false)
    : Kept { s with actor := { s.actor with lifecycle := lifecycle, task := task } } := by
  have htidy := h.tidy hgoing
  have hleased : lifecycle.isLeased = s.actor.lifecycle.isLeased := by
    simp [isLeased, hlease]
  have haccounted := h.accounted_idle hidle
  refine kept_of_going hgoing ?_ ?_ ?_ h.fresh
  . intro leaseId hactive
    apply h.returnable hgoing leaseId
    rw [← hlease]
    exact hactive
  . rcases htask with htask | ⟨htask, _⟩ <;> simp [Accounted, inFlight, htask, haccounted]
  constructor
  . intro hbusy
    rcases htask with htask | ⟨_, hfree⟩
    . exact htask
    . simp [hfree] at hbusy
  intro hne
  have hwaits := htidy.waits hne
  simp only [hidle] at hwaits
  rw [← hleased] at hwaits
  left
  simpa using hwaits

theorem kept_idleNext (hnext : s.idleNext event = some t) : Kept t := by
  cases event with simp only [idleNext] at hnext
  | receive held =>
    split at hnext <;> cases hnext
    rename_i rest _
    exact kept_receive (@kept_rest s rest h) hgoing hidle
  | takeReturn =>
    split at hnext <;> cases hnext
    rename_i hreleases
    exact kept_takeReturn h hgoing hidle hreleases
  | tick =>
    split at hnext
    . cases hnext
    split at hnext <;> cases hnext
    . exact kept_tick h hgoing hidle rfl (.inl hidle)
    next hfree => exact kept_tick h hgoing hidle rfl (.inr ⟨rfl, by simpa using hfree⟩)
  | stop =>
    split at hnext <;> cases hnext
    exact kept_stop h
  | _ => cases hnext

end Idle

theorem kept_leave {answered : List (DeferredSubmit × SubmitAnswer)} {drains : Bool}
    (hfree : actor.lifecycle.isLeased = false)
    (hdrains : drains = false → actor.deferredSubmits = [])
    (haccounted : s.deferred = answered.map Prod.fst ++ actor.deferredSubmits)
    : Kept { s with actor := actor.leave drains, answered := answered } := by
  unfold leave
  split
  . refine kept_of_going hgoing ?_ ?_ (Tidy.drain hfree) h.fresh
    . simp [activeLease_of_free hfree]
    . simp only [Accounted, List.append_assoc]
      rw [inFlight_drain rfl, haccounted]
  next hlast =>
    refine kept_of_free hgoing hfree (hdrains (by simpa using hlast)) ?_ h.fresh
    simp [Accounted, inFlight, haccounted]

section Task

variable (htask : s.actor.task = some task)

include htask

theorem kept_ended (hnext : s.taskNext task (.ended connection) = some t) : Kept t := by
  have htidy := h.tidy hgoing
  have hfree := isLeased_of_task htidy htask
  have haccounted := h.accounted
  have hleave (hdrains : task.isDraining = false)
      (hflight : s.inFlight = []) : Kept { s with
        actor := { s.actor with connection := connection, task := none } } := by
    have hempty := deferredSubmits_of_task htidy htask hdrains
    refine kept_of_free hgoing hfree hempty ?_ h.fresh
    simp only [Accounted, hflight] at haccounted
    simpa [Accounted, inFlight] using haccounted
  simp only [taskNext] at hnext
  split at hnext <;> cases hnext
  . exact hleave rfl (by simp [inFlight, htask])
  . exact hleave rfl (by simp [inFlight, htask])
  refine kept_leave h hgoing hfree ?_ ?_
  . intro hlast
    exact deferredSubmits_of_task htidy htask hlast
  . simpa [Accounted, inFlight, htask] using haccounted

theorem kept_delivered {answer : SubmitAnswer}
    (hnext : s.taskNext task (.delivered connection answer) = some t) : Kept t := by
  have htidy := h.tidy hgoing
  have hfree := isLeased_of_task htidy htask
  simp only [taskNext] at hnext
  split at hnext <;> cases hnext
  rename_i submit drains
  have hlast : drains = false → s.actor.deferredSubmits = [] := by
    intro hlast
    exact deferredSubmits_of_task htidy htask hlast
  have haccounted : s.deferred =
      (if drains then s.answered ++ [(submit, answer)] else s.answered).map Prod.fst
        ++ s.actor.deferredSubmits := by
    have := h.accounted
    cases drains <;> simpa [Accounted, inFlight, htask] using this
  generalize (if drains then s.answered ++ [(submit, answer)] else s.answered) = answered
    at haccounted
  unfold deliver
  dsimp only
  split
  . exact kept_leave h hgoing hfree hlast haccounted
  split
  . refine kept_of_going hgoing ?_ ?_ ?_ h.fresh
    . simp [activeLease_of_free hfree]
    . simpa [Accounted, inFlight] using haccounted
    constructor
    . simp [hfree]
    intro hne
    right
    refine ⟨_, rfl, ?_⟩
    by_contra hdrains
    exact hne (hlast (by simpa [ActorTask.isDraining] using hdrains))
  . exact kept_leave h hgoing hfree hlast haccounted

theorem kept_leaseSynced {result : Except String Unit}
    (hnext : s.taskNext task (.leaseSynced result) = some t) : Kept t := by
  have htidy := h.tidy hgoing
  have hfree := isLeased_of_task htidy htask
  simp only [taskNext] at hnext
  split at hnext <;> cases hnext
  rename_i call
  have hempty : s.actor.deferredSubmits = [] := deferredSubmits_of_task htidy htask rfl
  have haccounted : s.deferred = s.answered.map Prod.fst := by
    simpa [Accounted, inFlight, htask, hempty] using h.accounted
  unfold grantLease
  split
  . apply kept_reply
    refine kept_of_free hgoing hfree hempty ?_ h.fresh
    simp [Accounted, inFlight, haccounted, hempty]
  dsimp only
  split
  next hwaiting =>
    have hcall : s.calls call = some .waiting := by
      unfold isWaiting at hwaiting
      split at hwaiting
      . assumption
      . cases hwaiting
    simp only [reply, hcall]
    refine kept_of_going hgoing ?_ ?_ ?_ ?_
    . intro leaseId hactive
      cases hactive
      exact .inr (.inr ⟨call, by simp [setCall]⟩)
    . simp [Accounted, inFlight, setCall, haccounted, hempty]
    . constructor <;> simp [setCall, hempty]
    . exact fresh_setCall h.fresh (.inl (by simp [hcall]))
  . apply kept_reply
    refine kept_of_free hgoing hfree hempty ?_ h.fresh
    simp [Accounted, inFlight, haccounted, hempty]

theorem kept_taskNext (hnext : s.taskNext task event = some t) : Kept t := by
  cases event with
  | ended connection => exact kept_ended h hgoing htask hnext
  | delivered connection answer => exact kept_delivered h hgoing htask hnext
  | leaseSynced result => exact kept_leaseSynced h hgoing htask hnext
  | _ => cases hnext

end Task

theorem kept_actorNext (hnext : s.actorNext event = some t) : Kept t := by
  unfold actorNext at hnext
  split at hnext
  . cases hnext
    exact kept_stop h
  split at hnext
  next hidle => exact kept_idleNext h hgoing hidle hnext
  next htask => exact kept_taskNext h hgoing htask hnext

end Going

theorem kept_step (s : ActorSystem) (event : ActorEvent) (t : ActorSystem) (h : Kept s)
    (hpolled : Polled s event) (hstep : Step s event t) : Kept t := by
  unfold Step next at hstep
  split at hstep
  . exact kept_callerNext h hpolled hstep
  split at hstep
  . cases hstep
  next hgoing => exact kept_actorNext h (by simpa using hgoing) hstep

theorem kept_start : Kept {} := by
  refine kept_of_going rfl ?_ rfl ?_ ?_
  . nofun
  . constructor
    . nofun
    . intro hne
      exact absurd rfl hne
  . intro _ _
    rfl

end Actions

section Draining

variable {s t : ActorSystem}

def Drained (s : ActorSystem) : Prop :=
  s.actor.deferredSubmits = [] ∧ s.inFlight = []

def Drains (s : ActorSystem) : Prop :=
  ∃ t, Reaches Step Owed s t ∧ t.Drained ∧ t.deferred = s.deferred

theorem Drains.step (event : ActorEvent) (howed : Owed s event) (hstep : Step s event t)
    (hsame : t.deferred = s.deferred) (h : Drains t) : Drains s := by
  have ⟨u, hreach, hdrained, hdeferred⟩ := h
  refine ⟨u, ?_, hdrained, hdeferred.trans hsame⟩
  have hfirst : Reaches Step Owed s t := Reaches.single howed hstep
  exact hfirst.trans hreach

section

variable (hgoing : s.stopped = false)

include hgoing

theorem step_of_task (htask : s.actor.task = some task)
    (hcaller : isCallerEvent event = false) (hevent : event ≠ .abort)
    (hnext : s.taskNext task event = some t) : Step s event t := by
  simp only [Step, next, hcaller, hgoing]
  cases event <;> simp_all [actorNext]

theorem step_takeReturn (hidle : s.actor.task = none) (hreleases : s.releases = returned :: rest)
    : Step s .takeReturn { s with
        actor := (s.actor.takeReturn s.retirement returned).1
        releases := rest
        answered := s.answered ++ (s.actor.takeReturn s.retirement returned).2 } := by
  simp [Step, next, isCallerEvent, hgoing, actorNext, hidle, idleNext, hreleases]

theorem drains_drain {deferred : List DeferredSubmit} (actor : SessionActor)
    (hdeferred : actor.deferredSubmits = deferred) (hactor : s.actor = actor.drain) : Drains s := by
  induction deferred generalizing s actor with
  | nil =>
    refine ⟨s, .refl, ?_, rfl⟩
    simp [Drained, inFlight, hactor, drain, hdeferred]
  | cons submit rest ih =>
    have htask : s.actor.task = some (.submitting submit true) := by
      simp [hactor, drain, hdeferred]
    have hrest : s.actor.deferredSubmits = rest := by
      simp [hactor, drain, hdeferred]
    refine Drains.step (.delivered false (.error "relay submission failed")) trivial
      (step_of_task hgoing htask rfl nofun rfl) rfl ?_
    exact ih hgoing { s.actor with connection := false } hrest rfl

theorem drains_of_returned {releases : List ReturnedConnection} (hidle : s.actor.task = none)
    (hactive : s.actor.lifecycle.activeLease = some leaseId) (hreleases : s.releases = releases)
    (hmem : ∃ returned ∈ releases, returned.leaseId = leaseId) : Drains s := by
  induction releases generalizing s with
  | nil => simp at hmem
  | cons returned rest ih =>
    refine Drains.step .takeReturn trivial
      (step_takeReturn hgoing hidle hreleases) rfl ?_
    by_cases hmatched : s.actor.lifecycle.activeLease = some returned.leaseId
    . rw [takeReturn_matched hmatched]
      dsimp only
      split
      . refine ⟨_, .refl, ?_, rfl⟩
        simp [Drained, inFlight, refuseDeferred, hidle]
      . exact drains_drain hgoing _ rfl rfl
    rw [takeReturn_other hmatched]
    refine ih hgoing hidle hactive rfl ?_
    have ⟨other, hother, hid⟩ := hmem
    refine ⟨other, ?_, hid⟩
    cases hother with
    | head => exact absurd (hid ▸ hactive) hmatched
    | tail _ hother => exact hother

theorem drains_of_lease (hidle : s.actor.task = none)
    (hactive : s.actor.lifecycle.activeLease = some leaseId) (hlease : leaseId ∈ s.leases)
    : Drains s := by
  have hstep : Step s (.release leaseId) (s.giveBack leaseId true) := by
    simp [Step, next, isCallerEvent, callerNext, hlease]
  refine Drains.step (.release leaseId) trivial hstep rfl ?_
  refine drains_of_returned hgoing hidle hactive rfl ?_
  exact ⟨⟨leaseId, true⟩, by simp [giveBack, hgoing], rfl⟩

theorem drains_of_held (hidle : s.actor.task = none)
    (hactive : s.actor.lifecycle.activeLease = some leaseId) (hheld : s.Held leaseId) : Drains s := by
  rcases hheld with hlease | hreturned | ⟨call, hcall⟩
  . exact drains_of_lease hgoing hidle hactive hlease
  . exact drains_of_returned hgoing hidle hactive rfl hreturned
  have hstep : Step s (.resume call)
      { s.setCall call none with leases := s.leases ++ [leaseId] } := by
    simp [Step, next, isCallerEvent, callerNext, hcall]
  refine Drains.step (.resume call) trivial hstep rfl ?_
  refine drains_of_lease hgoing hidle hactive ?_
  simp

end

theorem Kept.drains (h : Kept s) : Drains s := by
  by_cases hstopped : s.stopped
  . exact ⟨s, .refl, h.ended hstopped, rfl⟩
  have hgoing : s.stopped = false := by simpa using hstopped
  have htidy := h.tidy hgoing
  cases htask : s.actor.task with
  | none =>
    by_cases hempty : s.actor.deferredSubmits = []
    . exact ⟨s, .refl, ⟨hempty, by simp [inFlight, htask]⟩, rfl⟩
    have hleased : s.actor.lifecycle.isLeased := by
      simpa [htask] using htidy.waits hempty
    have ⟨leaseId, hactive⟩ := Option.isSome_iff_exists.mp hleased
    exact drains_of_held hgoing htask hactive (h.returnable hgoing leaseId hactive)
  | some task =>
  by_cases hdrains : task.isDraining
  . cases task with
    | submitting submit drains =>
      cases hdrains
      refine Drains.step (.delivered false (.error "relay submission failed")) trivial
        (step_of_task hgoing htask rfl nofun rfl) rfl ?_
      exact drains_drain hgoing { s.actor with connection := false } rfl rfl
    | catchingUp drains =>
      cases hdrains
      refine Drains.step (.ended false) trivial
        (step_of_task hgoing htask rfl nofun rfl) rfl ?_
      exact drains_drain hgoing { s.actor with connection := false } rfl rfl
    | _ => cases hdrains
  . have hdrains : task.isDraining = false := by simpa using hdrains
    refine ⟨s, .refl, ⟨deferredSubmits_of_task htidy htask hdrains, ?_⟩, rfl⟩
    cases task with
    | submitting submit drains =>
      cases hdrains
      simp [inFlight, htask]
    | _ => simp [inFlight, htask]

theorem polled_of_owed (h : Owed s event) : Polled s event := by
  cases event <;> trivial

theorem Kept.settling (h : Kept s) : Settling s := by
  have ⟨t, hreach, hdrained, hsame⟩ := h.drains
  have hkept : Kept t := by
    refine hreach.invariant ?_ h
    intro s event t h howed hstep
    exact kept_step s event t h (polled_of_owed howed) hstep
  refine ⟨t, hreach, ?_⟩
  have haccounted := hkept.accounted
  simp only [Accounted, hdrained.1, hdrained.2, List.append_nil] at haccounted
  rw [← haccounted, hsame]

end Draining

end ActorSystem
end Hel
