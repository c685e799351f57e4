import Hel.Worker.Lemmas.Submit

/-!
This module contains which commands the journal of a relay mentions, and that it comes to mention a
command only when the command is queued.
-/

namespace Hel

variable {codec : RelayCodec} {origin : Origin} {Accepts : RelaySnapshot → RelayCommand → Prop}
  {id : String} {event : RelayEvent}

def RelayObservation.mentions (id : String) : RelayObservation → Bool
  | .commandQueued id' _ _ => id' = id
  | .commandCompleted id' _ => id' = id
  | _ => false

def RelayEvent.enqueues (event : RelayEvent) (id : String) : Bool :=
  match event.observation with
  | .commandQueued id' _ _ => id' = id
  | _ => false

namespace Chronicle

def Mentions (c : Chronicle) (id : String) : Prop :=
  (∃ event ∈ c.history, event.observation.mentions id) ∨
    (c.held.handledCommands.get? id).isSome

def journaled (c c' : Chronicle) : List RelayEvent :=
  c'.history.drop c.history.length

end Chronicle

section Mention

variable {c c' c'' : Chronicle}

def Queues (event : RelayEvent) : Prop :=
  ∃ id command createdAtMs, event.observation = .commandQueued id command createdAtMs

theorem Evolves.queues_none (h : Evolves codec origin (fun _ _ => False) c c')
    : ∃ events, c'.history = c.history ++ events ∧ ∀ event ∈ events, ¬ Queues event := by
  induction h with
  | refl => exact ⟨[], by simp, by simp⟩
  | tail _ hstep ih =>
    obtain ⟨events, hevents, hnone⟩ := ih
    cases hstep with
    | @journal event next _ _ hpermitted _ =>
      refine ⟨events ++ [event], by rw [hevents, List.append_assoc], ?_⟩
      rw [List.forall_mem_append, List.forall_mem_singleton]
      refine ⟨hnone, ?_⟩
      intro ⟨id, command, createdAtMs, hqueued⟩
      rw [hqueued] at hpermitted
      exact hpermitted.1
    | _ => exact ⟨events, hevents, hnone⟩

theorem journaled_eq {events : List RelayEvent} (h : c'.history = c.history ++ events)
    : c.journaled c' = events := by
  unfold Chronicle.journaled
  rw [h, List.drop_left]

theorem journaled_trans (h : Evolves codec origin Accepts c c')
    (h' : Evolves codec origin Accepts c' c'')
    : c.journaled c'' = c.journaled c' ++ c'.journaled c'' := by
  obtain ⟨events, hevents⟩ := h.history_eq
  obtain ⟨events', hevents'⟩ := h'.history_eq
  rw [journaled_eq hevents, journaled_eq hevents']
  apply journaled_eq
  rw [hevents', hevents, List.append_assoc]

theorem mentions_of_admissible (hv : c.Valid codec origin)
    (hadm : c.held.Admissible event.observation) (h : event.observation.mentions id)
    : c.Mentions id ∨ event.enqueues id := by
  unfold RelayEvent.enqueues
  cases ho : event.observation with
  | commandQueued id' command createdAtMs =>
    rw [ho] at h
    exact Or.inr h
  | commandCompleted id' outcome =>
    rw [ho] at h hadm
    obtain ⟨dispatch, hd, _⟩ := hadm
    obtain ⟨handled, hh, _⟩ := hv.sound.aligned.handled_of_dispatch hd
    simp only [RelayObservation.mentions, decide_eq_true_eq] at h
    rw [h] at hh
    exact Or.inl (Or.inr (by rw [hh]; rfl))
  | _ =>
    rw [ho] at h
    cases h

theorem handled_of_journal {next : RelaySnapshot} (hv : c.Valid codec origin)
    (hadm : c.held.Admissible event.observation)
    (happly : applyRelayEvent codec c.held event = .ok next) (hnext : next.Sound)
    (h : (next.handledCommands.get? id).isSome)
    : (c.held.handledCommands.get? id).isSome ∨ event.enqueues id := by
  obtain ⟨handled', hh'⟩ := Option.isSome_iff_exists.mp h
  obtain ⟨dispatch', hd', _⟩ := hnext.aligned.dispatch_of_handled hh'
  obtain ⟨_, t, ht, heq⟩ := applyRelayEvent_eq_ok happly
  have hprogress := RelaySnapshot.progresses_applyObservation hv.sound hadm ht
  have hd'' : t.dispatches.get? id = some dispatch' := by
    rw [heq] at hd'
    exact hd'
  cases hold : c.held.dispatches.get? id with
  | none =>
    obtain ⟨_, createdAtMs, ho⟩ := hprogress.fresh id dispatch' hold hd''
    right
    unfold RelayEvent.enqueues
    rw [ho]
    simp
  | some dispatch =>
    obtain ⟨handled, hh, _⟩ := hv.sound.aligned.handled_of_dispatch hold
    left
    rw [hh]
    rfl

theorem Transition.mentions (h : Transition codec origin Accepts c c') (hv : c.Valid codec origin)
    (hid : c'.Mentions id) : c.Mentions id ∨ ∃ event ∈ c.journaled c', event.enqueues id := by
  have hv' := h.valid hv
  have hquiet : c'.history = c.history →
      ((c'.held.handledCommands.get? id).isSome → (c.held.handledCommands.get? id).isSome) →
      c.Mentions id := by
    intro hhistory hhandled
    cases hid with
    | inl hid =>
      rw [hhistory] at hid
      exact Or.inl hid
    | inr hid => exact Or.inr (hhandled hid)
  cases h with
  | @journal event next hgenuine hadm hpermitted happly =>
    have hjournaled : c.journaled { c with history := c.history ++ [event], held := next }
        = [event] := journaled_eq rfl
    rw [hjournaled]
    have hor : c.Mentions id ∨ event.enqueues id := by
      cases hid with
      | inl hid =>
        obtain ⟨other, hmem, hmentions⟩ := hid
        rw [List.mem_append, List.mem_singleton] at hmem
        cases hmem with
        | inl hmem => exact Or.inl (Or.inl ⟨other, hmem, hmentions⟩)
        | inr heq =>
          rw [heq] at hmentions
          exact mentions_of_admissible hv hadm hmentions
      | inr hid => exact (handled_of_journal hv hadm happly hv'.sound hid).imp_left Or.inr
    exact hor.imp_right (fun henqueues => ⟨event, by simp, henqueues⟩)
  | @claim id' accepted dispatch hd hstate hbarrier =>
    left
    apply hquiet rfl
    obtain ⟨_, _, hframe⟩ := claimCommand_frame c.held id' accepted dispatch.command
    rw [hframe]
    exact fun hsome => hsome
  | acknowledge | context | reclose | collect => exact Or.inl (hquiet rfl (fun hsome => hsome))
  | @forget id' =>
    left
    apply hquiet rfl
    simp only [forgetCommand, BTreeMap.get?_remove]
    split
    . intro hsome
      cases hsome
    . exact fun hsome => hsome

theorem Evolves.mentions (h : Evolves codec origin Accepts c c') (hv : c.Valid codec origin)
    (hid : c'.Mentions id) : c.Mentions id ∨ ∃ event ∈ c.journaled c', event.enqueues id := by
  induction h with
  | refl => exact Or.inl hid
  | tail hpath hstep ih =>
    rw [journaled_trans hpath (.single hstep)]
    cases hstep.mentions (Evolves.valid hpath hv) hid with
    | inl hold =>
      apply (ih hold).imp_right
      intro ⟨event, hmem, henqueues⟩
      exact ⟨event, List.mem_append_left _ hmem, henqueues⟩
    | inr hnew =>
      obtain ⟨event, hmem, henqueues⟩ := hnew
      exact Or.inr ⟨event, List.mem_append_right _ hmem, henqueues⟩

theorem queues_of_enqueues (h : event.enqueues id) : Queues event := by
  unfold RelayEvent.enqueues at h
  split at h
  next id' command createdAtMs ho => exact ⟨id', command, createdAtMs, ho⟩
  next => cases h

theorem Evolves.mentions_quiet (h : Evolves codec origin (fun _ _ => False) c c')
    (hv : c.Valid codec origin) (hid : c'.Mentions id) : c.Mentions id := by
  cases Evolves.mentions h hv hid with
  | inl hold => exact hold
  | inr hnew =>
  obtain ⟨event, hmem, henqueues⟩ := hnew
  obtain ⟨events, hevents, hnone⟩ := Evolves.queues_none h
  rw [journaled_eq hevents] at hmem
  exact absurd (queues_of_enqueues henqueues) (hnone event hmem)

end Mention

section Submitted

variable {c c' : Chronicle} {command : RelayCommand}
  {response : Except RelayProtocolError RelayResponsePayload}

theorem Submitted.evolves (h : Submitted codec origin Accepts c id command response c')
    : Evolves codec origin Accepts c c' := by
  cases h with
  | repeated _ _ hevolves => exact Evolves.weaken hevolves
  | conflicting | refused => exact .refl
  | accepted _ htransition _ _ hevolves => exact .head htransition (Evolves.weaken hevolves)

theorem Submitted.mentions (h : Submitted codec origin Accepts c id command response c')
    (hv : c.Valid codec origin) {id' : String} (hid : c'.Mentions id')
    : c.Mentions id' ∨ id' = id := by
  cases h with
  | repeated _ _ hevolves => exact Or.inl (Evolves.mentions_quiet hevolves hv hid)
  | conflicting | refused => exact Or.inl hid
  | @accepted event createdAtMs c₁ _ hnone htransition hhistory ho hevolves =>
  have hid₁ := Evolves.mentions_quiet hevolves (htransition.valid hv) hid
  apply (htransition.mentions hv hid₁).imp_right
  intro ⟨other, hmem, henqueues⟩
  rw [journaled_eq hhistory, List.mem_singleton] at hmem
  rw [hmem] at henqueues
  unfold RelayEvent.enqueues at henqueues
  rw [ho] at henqueues
  simp only [decide_eq_true_eq] at henqueues
  exact henqueues.symm

end Submitted

end Hel
