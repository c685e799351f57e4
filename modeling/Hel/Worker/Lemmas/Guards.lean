import Hel.Worker.Impl.Open
import Hel.Worker.Lemmas.Apply

/-!
This module contains the proof that the guards of the relay only let commands start that the ledger
lets start.
-/

namespace Hel

open Ledger List

variable {entry : Nat × String} {maximumRuns : Nat}

theorem BTreeMap.mem_values_of_get? {κ α : Type} [LinearOrder κ] {m : BTreeMap κ α} {key : κ}
    {value : α} (h : m.get? key = some value) : value ∈ m.values := by
  unfold BTreeMap.values
  rw [mem_map]
  exact ⟨(key, value), BTreeMap.mem_entries_iff.mpr h, rfl⟩

namespace RelaySnapshot

variable {s : RelaySnapshot} {id : String} {dispatch : RelayDispatchRecord}

theorem not_of_anyDispatch {p : RelayDispatchRecord → Bool} (h : anyDispatch s p = false)
    (hd : s.dispatches.get? id = some dispatch) : p dispatch = false := by
  unfold anyDispatch at h
  rw [any_eq_false] at h
  simpa using h dispatch (BTreeMap.mem_values_of_get? hd)

theorem not_closing_of_closeRequested (h : closeRequested s = false) : ¬ s.ledger.closing := by
  intro ⟨id, e, he, hclose, hphase⟩
  obtain ⟨dispatch, hd, hcommand, hdp⟩ := dispatch_of_entry he
  unfold closeRequested pendingCloseBarrierId at h
  rw [Option.isSome_eq_false_iff, Option.isNone_iff_eq_none, findSome?_eq_none_iff] at h
  have hnone := h dispatch (BTreeMap.mem_values_of_get? hd)
  rw [← hcommand] at hclose
  rw [← hdp] at hphase
  have hopen : dispatch.state.isTerminal = false := by
    rw [Ne, RelayDispatchState.phase_eq_settled] at hphase
    simpa using hphase
  cases hc : dispatch.command with
  | close barrier expected => simp [hopen, hc] at hnone
  | _ => simp [hc, RelayCommand.isClose] at hclose

theorem Sound.startable_of_effectful (hs : s.Sound) (hbarrier : s.checkpointBarrier = none)
    (hd : s.dispatches.get? id = some dispatch) (hstate : dispatch.state = .queued)
    (heffect : Ledger.effectful dispatch.command) (hqueue : dispatch.command.isQueueEntry = false)
    : ∃ e, s.ledger.Startable id e ∧ e.command = dispatch.command := by
  obtain ⟨e, he, hphase, hcommand⟩ := hs.entry_of_queued hd hstate
  refine ⟨e, ⟨he, hphase, ?_, ?_, ?_⟩, hcommand⟩
  . intro hentry
    rw [hcommand, hqueue] at hentry
    cases hentry
  . intro hbegin
    rw [hcommand] at hbegin
    rw [not_effectful_of_isBeginCheckpoint hbegin] at heffect
    cases heffect
  . intro _
    exact hbarrier

theorem Sound.startable_of_isRelayLocal (hs : s.Sound)
    (hd : s.dispatches.get? id = some dispatch) (hstate : dispatch.state = .queued)
    (hlocal : dispatch.command.isRelayLocal)
    : ∃ e, s.ledger.Startable id e ∧ e.command = dispatch.command := by
  obtain ⟨e, he, hphase, hcommand⟩ := hs.entry_of_queued hd hstate
  have hplain : dispatch.command.isQueueEntry = false ∧ dispatch.command.isBeginCheckpoint = false ∧
      effectful dispatch.command = false := by
    cases hc : dispatch.command with
    | removeQueuedPrompt _ | clearQueuedPrompts | completeCheckpoint _ | releaseCheckpoint _
    | advanceRecoveryFloor _ | recordNotice _ => exact ⟨rfl, rfl, rfl⟩
    | _ => simp [hc, RelayCommand.isRelayLocal] at hlocal
  rw [← hcommand] at hplain
  refine ⟨e, ⟨he, hphase, ?_, ?_, ?_⟩, hcommand⟩
  . intro hentry
    simp [hplain.1] at hentry
  . intro hbegin
    simp [hplain.2.1] at hbegin
  . intro heffect
    simp [hplain.2.2] at heffect

theorem Sound.queue_idle (hs : s.Sound) (hactive : s.activePrompt = none)
    (hconfig : promotedConfigInProgress s = false)
    : ∀ id e, s.ledger.entry id = some e → e.command.isQueueEntry → e.phase ≠ .started := by
  intro id e he hentry hphase
  cases hprompt : e.command.isPrompt with
  | true =>
    have hsome := hs.invariant.active_complete id e he hphase hprompt
    have hnone : s.ledger.active = none := by
      show s.activePromptId = none
      unfold activePromptId
      rw [hactive]
      rfl
    rw [hnone] at hsome
    cases hsome
  | false =>
    obtain ⟨dispatch, hd, hcommand, hdp⟩ := dispatch_of_entry he
    rw [hphase, RelayDispatchState.phase_eq_started] at hdp
    have hno := not_of_anyDispatch hconfig hd
    rw [← hcommand] at hentry hprompt
    cases hc : dispatch.command with
    | setConfig key value => simp [hc, hdp] at hno
    | prompt blocks => simp [hc, RelayCommand.isPrompt] at hprompt
    | _ => simp [hc, RelayCommand.isQueueEntry] at hentry

theorem Sound.startable_of_promotable (hs : s.Sound) (h : promotable s = some id)
    : ∃ e, s.ledger.Startable id e ∧ e.command.isQueueEntry := by
  unfold promotable at h
  split at h
  . cases h
  rename_i hguard
  simp only [Bool.or_eq_true, decide_eq_true_eq, not_or, Bool.not_eq_true, Option.isSome_eq_false_iff,
    Option.isNone_iff_eq_none] at hguard
  obtain ⟨⟨⟨⟨⟨hactive, hconfig⟩, hbarrier⟩, _⟩, _⟩, hclose⟩ := hguard
  split at h
  . cases h
  rename_i queued hhead
  dsimp only at h
  split at h
  . cases h
  cases h
  have hmem : (queued.commandId, queued.payload.command) ∈ s.ledger.queue := by
    show _ ∈ s.queuedPrompts.map _
    rw [mem_map]
    exact ⟨queued, mem_of_mem_head? hhead, rfl⟩
  obtain ⟨hentry, n, hn⟩ := hs.invariant.queue_sound _ hmem
  refine ⟨_, ⟨hn, rfl, ?_, ?_, ?_⟩, hentry⟩
  . intro _
    exact ⟨not_closing_of_closeRequested hclose, hs.queue_idle hactive hconfig⟩
  . intro hbegin
    have heffect := effectful_of_isQueueEntry hentry
    rw [not_effectful_of_isBeginCheckpoint hbegin] at heffect
    cases heffect
  . intro _
    exact hbarrier

theorem Sound.startable_of_beginCheckpoint (hs : s.Sound) (hbarrier : s.checkpointBarrier = none)
    (hidle : effectfulCommandInProgress s = false)
    (hd : s.dispatches.get? id = some dispatch) (hstate : dispatch.state = .queued)
    (hbegin : dispatch.command.isBeginCheckpoint)
    : ∃ e, s.ledger.Startable id e ∧ e.command = dispatch.command := by
  obtain ⟨e, he, hphase, hcommand⟩ := hs.entry_of_queued hd hstate
  have heffect := not_effectful_of_isBeginCheckpoint hbegin
  refine ⟨e, ⟨he, hphase, ?_, ?_, ?_⟩, hcommand⟩
  . intro hentry
    rw [hcommand] at hentry
    rw [effectful_of_isQueueEntry hentry] at heffect
    cases heffect
  . intro _
    refine ⟨hbarrier, ?_⟩
    intro id' e' he' heffect' hphase'
    obtain ⟨dispatch', hd', hcommand', hdp⟩ := dispatch_of_entry he'
    rw [hphase', RelayDispatchState.phase_eq_started] at hdp
    unfold effectfulCommandInProgress at hidle
    rw [Bool.or_eq_false_iff] at hidle
    have hno := not_of_anyDispatch hidle.2 hd'
    rw [← hcommand'] at heffect'
    unfold effectful at heffect'
    simp [heffect', hdp] at hno
  . intro heffect'
    rw [hcommand, heffect] at heffect'
    cases heffect'

theorem mem_acceptedWhere {p : String → RelayDispatchRecord → Bool}
    : entry ∈ acceptedWhere s p
        ↔ ∃ dispatch handled, s.dispatches.get? entry.2 = some dispatch ∧ p entry.2 dispatch ∧
            s.handledCommands.get? entry.2 = some handled ∧ handled.acceptedOrdinal = entry.1 := by
  unfold acceptedWhere
  simp only [mem_filterMap, mem_filter, Option.map_eq_some_iff]
  constructor
  . rintro ⟨⟨key, dispatch⟩, ⟨hmem, hp⟩, handled, hh, rfl⟩
    exact ⟨dispatch, handled, BTreeMap.mem_entries_iff.mp hmem, hp, hh, rfl⟩
  rintro ⟨dispatch, handled, hd, hp, hh, heq⟩
  refine ⟨(entry.2, dispatch), ⟨BTreeMap.mem_entries_iff.mpr hd, hp⟩, handled, hh, ?_⟩
  rw [heq]

theorem nodup_acceptedWhere (s : RelaySnapshot) (p : String → RelayDispatchRecord → Bool)
    : ((acceptedWhere s p).map (·.2)).Nodup := by
  have hsorted : (s.dispatches.entries.filter (fun entry => p entry.1 entry.2)).Pairwise
      (fun a b => a.1 < b.1) := s.dispatches.sorted.filter _
  unfold acceptedWhere
  rw [List.Nodup, pairwise_map, pairwise_filterMap]
  refine hsorted.imp ?_
  intro a b hlt x hx y hy
  obtain ⟨_, _, rfl⟩ := Option.map_eq_some_iff.mp hx
  obtain ⟨_, _, rfl⟩ := Option.map_eq_some_iff.mp hy
  exact ne_of_lt hlt

theorem mem_of_foldl_pick {α : Type} {pick : Option α → α → Option α}
    (hpick : ∀ best entry, pick best entry = some entry ∨ pick best entry = best)
    {entries : List α} {best : Option α} {entry : α} (h : entries.foldl pick best = some entry)
    : entry ∈ entries ∨ best = some entry := by
  induction entries generalizing best with
  | nil => exact Or.inr h
  | cons head rest ih =>
    rcases ih h with hmem | hsome
    . exact Or.inl (mem_cons_of_mem _ hmem)
    rcases hpick best head with heq | heq
    . rw [heq, Option.some.injEq] at hsome
      exact Or.inl (by simp [hsome])
    . exact Or.inr (heq ▸ hsome)

theorem nextQueuedCheckpoint_mem (h : nextQueuedCheckpoint s = some entry)
    : entry ∈ acceptedWhere s (fun _ dispatch =>
        dispatch.state = .queued && dispatch.command.isBeginCheckpoint) := by
  refine (mem_of_foldl_pick ?_ h).resolve_right (by rintro ⟨⟩)
  intro best entry
  cases best with
  | none => exact Or.inl rfl
  | some best =>
  dsimp only
  split
  . exact Or.inl rfl
  . exact Or.inr rfl

def Waiting (s : RelaySnapshot) (id : String) : Prop :=
  ∃ dispatch, s.dispatches.get? id = some dispatch ∧ dispatch.state = .queued ∧
    Ledger.effectful dispatch.command ∧ dispatch.command.isQueueEntry = false

theorem waiting_of_queuedControlsBefore {ordinal : Nat} (h : id ∈ queuedControlsBefore s ordinal)
    : Waiting s id := by
  unfold queuedControlsBefore at h
  simp only [mem_map, mem_insertionSort, mem_filter] at h
  obtain ⟨entry, ⟨hmem, _⟩, rfl⟩ := h
  obtain ⟨dispatch, _, hd, hp, _, _⟩ := mem_acceptedWhere.mp hmem
  simp only [Bool.and_eq_true, decide_eq_true_eq, Bool.not_eq_true'] at hp
  refine ⟨dispatch, hd, hp.1.1, ?_, hp.2⟩
  unfold effectful
  rw [hp.1.2]
  rfl

theorem nodup_queuedControlsBefore (s : RelaySnapshot) (ordinal : Nat)
    : (queuedControlsBefore s ordinal).Nodup := by
  unfold queuedControlsBefore
  refine ((perm_insertionSort _ _).map _).nodup_iff.mpr ?_
  exact (nodup_acceptedWhere s _).sublist (filter_sublist.map _)

theorem mem_shellSelection (h : entry ∈ shellSelection s maximumRuns)
    : ∃ dispatch handled, s.dispatches.get? entry.2 = some dispatch ∧ dispatch.state = .queued ∧
        (dispatch.command.kind = .cancelUserShell ∨ dispatch.command.kind = .runUserShell) ∧
        s.handledCommands.get? entry.2 = some handled ∧ handled.acceptedOrdinal = entry.1 := by
  unfold shellSelection sortAccepted at h
  simp only [mem_insertionSort, mem_append] at h
  cases h with
  | inl hcancel =>
    obtain ⟨dispatch, handled, hd, hp, hh, haccepted⟩ := mem_acceptedWhere.mp hcancel
    simp only [Bool.and_eq_true, decide_eq_true_eq] at hp
    exact ⟨dispatch, handled, hd, hp.1, Or.inl hp.2, hh, haccepted⟩
  | inr hrun =>
  have hmem := mem_of_mem_take hrun
  rw [mem_insertionSort, mem_filter] at hmem
  obtain ⟨dispatch, handled, hd, hp, hh, haccepted⟩ := mem_acceptedWhere.mp hmem.1
  simp only [Bool.and_eq_true, decide_eq_true_eq] at hp
  exact ⟨dispatch, handled, hd, hp.1.1, Or.inr hp.1.2, hh, haccepted⟩

theorem waiting_of_shellSelection (h : entry ∈ shellSelection s maximumRuns)
    : Waiting s entry.2 := by
  obtain ⟨dispatch, _, hd, hstate, hkind, _⟩ := mem_shellSelection h
  refine ⟨dispatch, hd, hstate, ?_⟩
  cases hc : dispatch.command with
  | runUserShell _ | cancelUserShell _ => exact ⟨rfl, rfl⟩
  | _ => simp [hc, RelayCommand.kind] at hkind

theorem nodup_shellSelection (s : RelaySnapshot) (maximumRuns : Nat)
    : ((shellSelection s maximumRuns).map (·.2)).Nodup := by
  unfold shellSelection sortAccepted
  refine ((perm_insertionSort _ _).map _).nodup_iff.mpr ?_
  rw [map_append, nodup_append]
  refine ⟨?_, ?_, ?_⟩
  . exact ((perm_insertionSort _ _).map _).nodup_iff.mpr (nodup_acceptedWhere s _)
  . refine List.Nodup.sublist ((take_sublist _ _).map _) ?_
    refine ((perm_insertionSort _ _).map _).nodup_iff.mpr ?_
    exact (nodup_acceptedWhere s _).sublist (filter_sublist.map _)
  intro a ha b hb heq
  rw [mem_map] at ha hb
  obtain ⟨x, hx, rfl⟩ := ha
  obtain ⟨y, hy, rfl⟩ := hb
  rw [mem_insertionSort] at hx
  have hy := mem_of_mem_take hy
  rw [mem_insertionSort, mem_filter] at hy
  obtain ⟨dispatch, _, hd, hp, _⟩ := mem_acceptedWhere.mp hx
  obtain ⟨dispatch', _, hd', hp', _⟩ := mem_acceptedWhere.mp hy.1
  rw [heq, hd', Option.some.injEq] at hd
  subst hd
  simp only [Bool.and_eq_true, decide_eq_true_eq] at hp hp'
  rw [hp.2] at hp'
  simp at hp'

end RelaySnapshot

end Hel
