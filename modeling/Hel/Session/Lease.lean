import Hel.Session.Lemmas.Lease

/-!
This module contains the lease of a session's connection.
-/

namespace Hel
variable {event : ActorEvent} {connection : Bool} {other : Nat} {call : Nat}

namespace ActorSystem

open Machine

/--
If no call is dropped between the answer that grants it the lease and its next poll, an actor is
leased only while someone can return the lease, and answers deferred submissions in turn.
-/
theorem leased_only_while_returnable {s : ActorSystem} (h : Reaches Step Polled {} s)
    : s.Returnable ∧ s.Accounted ∧ s.Settling := by
  have hkept : Kept s := h.invariant kept_step kept_start
  exact ⟨hkept.returnable, hkept.accounted, hkept.settling⟩

section Leak

variable {s t : ActorSystem}

def latePrompt : DeferredSubmit := ⟨"p1", .prompt [.null]⟩

def leaseRun : List ActorEvent :=
  [.call, .sendLease 0, .receive false, .leaseSynced (.ok ()), .send (.submit "p1" (.prompt [.null])),
   .receive false]

def droppedRun : List ActorEvent :=
  leaseRun ++ [.dropCall 0]

theorem leased_only_while_returnable_of_lease
    : ∃ s, follow next {} leaseRun = some s ∧ s.actor.lifecycle.activeLease = some 1
      ∧ s.deferred = [latePrompt] ∧ s.Returnable ∧ s.Accounted ∧ s.Settling := by
  refine ⟨_, rfl, rfl, rfl, ?_⟩
  apply leased_only_while_returnable
  refine Reaches.of_follow ?_ (rfl : follow next {} leaseRun = _)
  intro s event hmem
  simp only [leaseRun, List.mem_cons, List.not_mem_nil, or_false] at hmem
  rcases hmem with rfl | rfl | rfl | rfl | rfl | rfl <;> trivial

structure Leaked (leaseId : Nat) (submit : DeferredSubmit) (s : ActorSystem) : Prop where
  active : s.actor.lifecycle.activeLease = some leaseId
  lost : ¬ s.Held leaseId
  idle : s.actor.task = none
  deferred : submit ∈ s.actor.deferredSubmits

variable {leaseId : Nat} {submit : DeferredSubmit}

theorem Leaked.frame (h : Leaked leaseId submit s) (hactor : t.actor = s.actor)
    (hheld : t.Held leaseId → s.Held leaseId) : Leaked leaseId submit t where
  active := by
    rw [hactor]
    exact h.active
  lost := fun hlost => h.lost (hheld hlost)
  idle := by
    rw [hactor]
    exact h.idle
  deferred := by
    rw [hactor]
    exact h.deferred

theorem held_setCall (state : Option LeaseCall) (hstate : state ≠ some (.replied (.ok leaseId)))
    (h : (s.setCall call state).Held leaseId) : s.Held leaseId := by
  apply h.imp_right
  apply Or.imp_right
  intro ⟨other, hother⟩
  refine ⟨other, ?_⟩
  by_cases heq : other = call
  . simp [setCall, heq, hstate] at hother
  . simpa [setCall, heq] using hother

theorem held_giveBack (hne : leaseId ≠ other)
    (h : (s.giveBack other connection).Held leaseId) : s.Held leaseId := by
  rcases h with hlease | ⟨returned, hmem, hid⟩ | hcall
  . exact .inl (List.mem_of_mem_erase hlease)
  . apply Or.inr
    apply Or.inl
    refine ⟨returned, ?_, hid⟩
    simp only [giveBack] at hmem
    split at hmem
    . exact hmem
    rcases List.mem_append.mp hmem with hmem | hmem
    . exact hmem
    simp only [List.mem_singleton] at hmem
    rw [hmem] at hid
    exact absurd hid.symm hne
  . exact .inr (.inr hcall)

section

variable (h : Leaked leaseId submit s)

include h

theorem leaked_giveBack
    (hlease : other ∈ s.leases) : Leaked leaseId submit (s.giveBack other connection) := by
  have hne : leaseId ≠ other := by
    intro heq
    apply h.lost
    exact .inl (heq ▸ hlease)
  exact h.frame rfl (held_giveBack hne)

theorem leaked_callerNext (hnext : s.callerNext event = some t) : Leaked leaseId submit t := by
  cases event with simp only [callerNext] at hnext
  | call =>
    cases hnext
    refine h.frame rfl ?_
    intro hheld
    have hheld : (s.setCall s.nextCall (some .sending)).Held leaseId := hheld
    exact held_setCall _ (by simp) hheld
  | sendLease call =>
    split at hnext
    . split at hnext <;> cases hnext
      . exact h.frame rfl (held_setCall none (by simp))
      refine h.frame rfl ?_
      intro hheld
      have hheld : (s.setCall call (some .waiting)).Held leaseId := hheld
      exact held_setCall _ (by simp) hheld
    . cases hnext
  | resume call =>
    split at hnext <;> cases hnext
    next other hreplied =>
      refine h.frame rfl ?_
      rintro (hlease | hrest)
      . rcases List.mem_append.mp hlease with hlease | hlease
        . exact .inl hlease
        . simp only [List.mem_singleton] at hlease
          exact .inr (.inr ⟨call, by rw [hlease, hreplied]⟩)
      . have hrest : (s.setCall call none).Held leaseId := .inr hrest
        exact held_setCall none (by simp) hrest
    . exact h.frame rfl (held_setCall none (by simp))
  | dropCall call =>
    cases hnext
    exact h.frame rfl (held_setCall none (by simp))
  | release other | dropLease other =>
    split at hnext <;> cases hnext
    rename_i hlease
    exact leaked_giveBack h hlease
  | send command =>
    split at hnext
    . cases hnext
    split at hnext <;> cases hnext
    exact h.frame rfl id
  | retire requested =>
    cases hnext
    exact h.frame rfl id
  | _ => cases hnext

theorem leaked_reply {message : String}
    : Leaked leaseId submit (s.reply call (.error message)) := by
  unfold reply
  split
  . exact h.frame rfl (held_setCall (some (.replied (.error message))) (by simp))
  . exact h

theorem leaked_receive {held : Bool} {command : ActorCommand}
    : Leaked leaseId submit (s.receive held command) := by
  have hreceived : Received s.actor _ _ := receive_received s.retirement held command
  have hbase : Leaked leaseId submit { s with
      actor := (s.actor.receive s.retirement held command).1
      deferred := s.deferred ++ (s.actor.receive s.retirement held command).1.deferredSubmits.drop
        s.actor.deferredSubmits.length } := by
    generalize (s.actor.receive s.retirement held command).1 = actor at hreceived ⊢
    cases hreceived with
    | rejected => exact ⟨h.active, h.lost, h.idle, h.deferred⟩
    | deferred other _ =>
      exact ⟨h.active, h.lost, h.idle, List.mem_append_left _ h.deferred⟩
    | taken _ hleased _ => simp [ActorLifecycle.isLeased, h.active] at hleased
  unfold receive
  dsimp only
  split
  . exact leaked_reply hbase
  . exact hbase

theorem leaked_idleNext (hnext : s.idleNext event = some t) : Leaked leaseId submit t := by
  have hleased : s.actor.lifecycle.isLeased := by
    simp [ActorLifecycle.isLeased, h.active]
  cases event with simp only [idleNext] at hnext
  | receive held =>
    split at hnext <;> cases hnext
    apply leaked_receive
    exact h.frame rfl id
  | takeReturn =>
    split at hnext <;> cases hnext
    rename_i returned rest hreleases
    have hother : s.actor.lifecycle.activeLease ≠ some returned.leaseId := by
      intro hmatched
      apply h.lost
      rw [h.active] at hmatched
      cases hmatched
      exact .inr (.inl ⟨returned, by simp [hreleases], rfl⟩)
    rw [takeReturn_other hother]
    refine h.frame rfl ?_
    apply Or.imp_right
    apply Or.imp_left
    rintro ⟨other, hmem, hid⟩
    exact ⟨other, by simp [hreleases, hmem], hid⟩
  | tick =>
    split at hnext
    . cases hnext
    split at hnext
    . cases hnext
      exact ⟨h.active, h.lost, h.idle, h.deferred⟩
    next hfree => exact absurd hleased hfree
  | stop =>
    have hleased : (s.actor.lifecycle.setRetirementRequested s.retirement).isLeased := hleased
    simp [ActorLifecycle.shouldStop, hleased] at hnext
  | _ => cases hnext

end

theorem leaked_step (s : ActorSystem) (event : ActorEvent) (t : ActorSystem)
    (h : s.stopped ∨ Leaked leaseId submit s) (hstep : Step s event t)
    : t.stopped ∨ Leaked leaseId submit t := by
  unfold Step next at hstep
  split at hstep
  . rcases h with hstopped | h
    . left
      cases event <;> simp only [callerNext] at hstep <;> first
        | (cases hstep; exact hstopped)
        | (repeat' split at hstep) <;> cases hstep <;> exact hstopped
    . exact .inr (leaked_callerNext h hstep)
  split at hstep
  . cases hstep
  rename_i hgoing
  rcases h with hstopped | h
  . exact absurd hstopped hgoing
  unfold actorNext at hstep
  split at hstep
  . cases hstep
    exact .inl rfl
  . simp only [h.idle] at hstep
    exact .inr (leaked_idleNext h hstep)

theorem leaked_droppedRun
    : ∃ s, follow next {} droppedRun = some s ∧ s.stopped = false ∧ Leaked 1 latePrompt s := by
  refine ⟨_, rfl, rfl, rfl, ?_, rfl, List.mem_cons_self⟩
  rintro (hlease | ⟨returned, hmem, _⟩ | ⟨call, hcall⟩)
  . cases hlease
  . cases hmem
  . cases call with
    | zero | succ call => cases hcall

theorem leased_after_dropped_call
    : ∃ s, Reaches Step (fun _ _ => True) {} s ∧ ¬ s.Returnable
      ∧ ∀ t, Reaches Step (fun _ _ => True) s t → t.stopped
        ∨ t.actor.lifecycle.activeLease = some 1 ∧ latePrompt ∈ t.actor.deferredSubmits := by
  have ⟨s, hrun, hgoing, hleaked⟩ := leaked_droppedRun
  refine ⟨s, Reaches.of_follow (fun _ _ _ => trivial) hrun, ?_, ?_⟩
  . intro hreturnable
    exact hleaked.lost (hreturnable hgoing 1 hleaked.active)
  intro t hreach
  have hend : t.stopped ∨ Leaked 1 latePrompt t :=
    hreach.invariant (fun s event t h _ hstep => leaked_step s event t h hstep) (.inr hleaked)
  apply hend.imp_right
  intro h
  exact ⟨h.active, h.deferred⟩

end Leak

end ActorSystem
end Hel
