import Hel.Worker.Impl.Snapshot
import Mathlib.Logic.Function.Basic

/-!
This module contains an abstract model of the commands of a relay.
-/

namespace Hel

open RelayCommand

variable {c : RelayCommand} {id : String}

inductive Phase where
  | queued
  | started
  | settled
  deriving DecidableEq

@[ext]
structure LedgerEntry where
  command : RelayCommand
  phase : Phase
  accepted : Nat

@[ext]
structure Ledger where
  entry : String → Option LedgerEntry
  queue : List (String × RelayCommand)
  active : Option String
  execution : RelayExecutionState
  barrier : Option String
  latest : Nat

namespace Ledger

def accepted (l : Ledger) (id : String) : Nat :=
  ((l.entry id).map (·.accepted)).getD 0

def effectful (command : RelayCommand) : Bool :=
  command.isEffectfulAcp || command.isEffectfulUserShell

structure Invariant (l : Ledger) : Prop where
  accepted_le : ∀ id e, l.entry id = some e → e.accepted ≤ l.latest
  queue_nodup : (l.queue.map (·.1)).Nodup
  queue_sorted : l.queue.Pairwise (fun a b => l.accepted a.1 ≤ l.accepted b.1)
  queue_sound : ∀ q ∈ l.queue,
    q.2.isQueueEntry ∧ ∃ n, l.entry q.1 = some { command := q.2, phase := .queued, accepted := n }
  queue_complete : ∀ id e, l.entry id = some e → e.phase = .queued → e.command.isQueueEntry →
    id ∈ l.queue.map (·.1)
  active_sound : ∀ id, l.active = some id →
    ∃ e, l.entry id = some e ∧ e.phase = .started ∧ e.command.isPrompt
  active_complete : ∀ id e, l.entry id = some e → e.phase = .started → e.command.isPrompt →
    l.active = some id
  running_iff : l.execution = .running ↔ l.active.isSome
  single : ∀ id e id' e', l.entry id = some e → l.entry id' = some e' →
    e.phase = .started → e'.phase = .started → e.command.isQueueEntry → e'.command.isQueueEntry →
    id = id'
  barrier_sound : ∀ id, l.barrier = some id →
    ∃ e, l.entry id = some e ∧ e.phase = .started ∧ e.command.isBeginCheckpoint
  barrier_complete : ∀ id e, l.entry id = some e → e.phase = .started →
    e.command.isBeginCheckpoint → l.barrier = some id
  quiet : l.barrier.isSome → ∀ id e, l.entry id = some e → effectful e.command →
    e.phase ≠ .started
  close_idle : ∀ id e, l.entry id = some e → e.command.isClose → e.phase ≠ .settled →
    ∀ id' e', l.entry id' = some e' → e'.command.isQueueEntry → e'.phase ≠ .started
  close_last : ∀ id e, l.entry id = some e → e.command.isClose → e.phase ≠ .settled →
    ∀ id' e', l.entry id' = some e' → id' ≠ id → e.accepted ≤ e'.accepted →
      e'.command.isCompleteCheckpoint

theorem isQueueEntry_of_isPrompt (h : c.isPrompt) : c.isQueueEntry := by
  cases c <;> simp_all [isPrompt, isQueueEntry]

theorem not_isPrompt_of_not_isQueueEntry (h : c.isQueueEntry = false) : c.isPrompt = false := by
  cases c <;> simp_all [isPrompt, isQueueEntry]

theorem effectful_of_isQueueEntry (h : c.isQueueEntry) : effectful c := by
  cases c <;> simp_all [isQueueEntry, effectful, isEffectfulAcp]

section References

variable {l : Ledger} {id : String} {e : LedgerEntry}

theorem Invariant.queue_ne (h : l.Invariant) (he : l.entry id = some e) (hphase : e.phase ≠ .queued)
    : ∀ q ∈ l.queue, q.1 ≠ id := by
  intro q hq heq
  obtain ⟨_, n, hn⟩ := h.queue_sound q hq
  rw [heq, he, Option.some.injEq] at hn
  rw [hn] at hphase
  exact hphase rfl

theorem Invariant.queue_ne_of_not_isQueueEntry (h : l.Invariant) (he : l.entry id = some e)
    (hc : e.command.isQueueEntry = false) : ∀ q ∈ l.queue, q.1 ≠ id := by
  intro q hq heq
  obtain ⟨hentry, n, hn⟩ := h.queue_sound q hq
  rw [heq, he, Option.some.injEq] at hn
  simp [hn, hentry] at hc

theorem Invariant.active_ne (h : l.Invariant) (he : l.entry id = some e)
    (hc : e.command.isPrompt = false ∨ e.phase ≠ .started) : l.active ≠ some id := by
  intro hactive
  obtain ⟨e', he', hphase, hprompt⟩ := h.active_sound id hactive
  cases he.symm.trans he'
  simp_all

theorem Invariant.barrier_ne (h : l.Invariant) (he : l.entry id = some e)
    (hc : e.command.isBeginCheckpoint = false ∨ e.phase ≠ .started) : l.barrier ≠ some id := by
  intro hb
  obtain ⟨e', he', hphase, hbegin⟩ := h.barrier_sound id hb
  cases he.symm.trans he'
  simp_all

end References

def enroll (l : Ledger) (id : String) (command : RelayCommand) : Ledger where
  entry := Function.update l.entry id
    (some { command := command, phase := .queued, accepted := l.latest + 1 })
  queue := if command.isQueueEntry then l.queue ++ [(id, command)] else l.queue
  active := l.active
  execution := if command.isClose then .closing else l.execution
  barrier := l.barrier
  latest := l.latest + 1

def closing (l : Ledger) : Prop :=
  ∃ id e, l.entry id = some e ∧ e.command.isClose ∧ e.phase ≠ .settled

variable {l : Ledger}

theorem Invariant.active_none_of_no_started (h : l.Invariant)
    (hnone : ∀ id e, l.entry id = some e → e.command.isQueueEntry → e.phase ≠ .started)
    : l.active = none := by
  cases hactive : l.active with
  | none => rfl
  | some id =>
    obtain ⟨e, he, hphase, hprompt⟩ := h.active_sound id hactive
    exact absurd hphase (hnone id e he (isQueueEntry_of_isPrompt hprompt))

theorem Invariant.active_none_of_barrier (h : l.Invariant) (hb : l.barrier.isSome)
    : l.active = none := by
  apply h.active_none_of_no_started
  intro id e he hqueue
  exact h.quiet hb id e he (effectful_of_isQueueEntry hqueue)

section Enroll

variable {l : Ledger} {id : String} {command : RelayCommand}

theorem entry_enroll (id' : String)
    : (l.enroll id command).entry id'
        = if id' = id then
            some { command := command, phase := .queued, accepted := l.latest + 1 }
          else
            l.entry id' := by
  simp [enroll, Function.update_apply]

theorem accepted_enroll_of_ne {id' : String} (h : id' ≠ id)
    : (l.enroll id command).accepted id' = l.accepted id' := by
  simp [accepted, entry_enroll, h]

theorem not_mem_queue_of_entry_none (h : l.Invariant) (hid : l.entry id = none)
    : ∀ q ∈ l.queue, q.1 ≠ id := by
  intro q hq heq
  obtain ⟨_, n, hn⟩ := h.queue_sound q hq
  rw [heq, hid] at hn
  cases hn

theorem Invariant.enroll (h : l.Invariant) (hid : l.entry id = none)
    (hclosing : l.closing → command.isCompleteCheckpoint)
    (hclose : command.isClose → l.barrier.isSome) : (l.enroll id command).Invariant where
  accepted_le := by
    intro id' e he
    have := h.accepted_le
    grind [entry_enroll, enroll]
  queue_nodup := by
    have hfresh := not_mem_queue_of_entry_none h hid
    have := h.queue_nodup
    grind [enroll]
  queue_sorted := by
    have hfresh := not_mem_queue_of_entry_none h hid
    have hold : l.queue.Pairwise (fun a b =>
        (l.enroll id command).accepted a.1 ≤ (l.enroll id command).accepted b.1) := by
      apply h.queue_sorted.imp_of_mem
      intro a b ha hb hab
      rw [accepted_enroll_of_ne (hfresh a ha)]
      rw [accepted_enroll_of_ne (hfresh b hb)]
      exact hab
    have hlast : ∀ q ∈ l.queue,
        (l.enroll id command).accepted q.1 ≤ (l.enroll id command).accepted id := by
      intro q hq
      rw [accepted_enroll_of_ne (hfresh q hq)]
      obtain ⟨_, n, hn⟩ := h.queue_sound q hq
      have hle : n ≤ l.latest := h.accepted_le q.1 _ hn
      simp only [accepted, hn, entry_enroll]
      simp only [Option.map_some, Option.getD_some, ↓reduceIte]
      omega
    show (if command.isQueueEntry then l.queue ++ [(id, command)] else l.queue).Pairwise _
    split
    . rw [List.pairwise_append]
      simp only [List.pairwise_singleton, List.mem_singleton]
      exact ⟨hold, trivial, fun a ha b hb => by rw [hb]; exact hlast a ha⟩
    . exact hold
  queue_sound := by
    have hfresh := not_mem_queue_of_entry_none h hid
    have := h.queue_sound
    intro q hq
    grind [entry_enroll, enroll]
  queue_complete := by
    have := h.queue_complete
    intro id' e he
    grind [entry_enroll, enroll]
  active_sound := by
    have := h.active_sound
    intro id' hactive
    grind [entry_enroll, enroll]
  active_complete := by
    have := h.active_complete
    intro id' e he
    grind [entry_enroll, enroll]
  running_iff := by
    have := h.running_iff
    have := h.active_none_of_barrier
    grind [enroll]
  single := by
    have := h.single
    intro id₁ e₁ id₂ e₂
    grind [entry_enroll]
  barrier_sound := by
    have := h.barrier_sound
    intro id' hb
    grind [entry_enroll, enroll]
  barrier_complete := by
    have := h.barrier_complete
    intro id' e he
    grind [entry_enroll, enroll]
  quiet := by
    have := h.quiet
    intro hb id' e he
    grind [entry_enroll, enroll]
  close_idle := by
    have := h.close_idle
    have := h.quiet
    intro id₁ e₁ h₁ hc hp id₂ e₂ h₂
    grind [entry_enroll, effectful_of_isQueueEntry]
  close_last := by
    have := h.close_last
    have := h.accepted_le
    intro id₁ e₁ h₁ hc hp id₂ e₂ h₂
    grind [entry_enroll, closing]

end Enroll

def start (l : Ledger) (id : String) (e : LedgerEntry) : Ledger where
  entry := Function.update l.entry id (some { e with phase := .started })
  queue := l.queue.filter (·.1 ≠ id)
  active := if e.command.isPrompt then some id else l.active
  execution :=
    if e.command.isPrompt then .running
    else if e.command.isClose then .closing
    else l.execution
  barrier := if e.command.isBeginCheckpoint then some id else l.barrier
  latest := l.latest

structure Startable (l : Ledger) (id : String) (e : LedgerEntry) : Prop where
  entry : l.entry id = some e
  queued : e.phase = .queued
  queueEntry : e.command.isQueueEntry →
    ¬ l.closing ∧ ∀ id' e', l.entry id' = some e' → e'.command.isQueueEntry → e'.phase ≠ .started
  barrier : e.command.isBeginCheckpoint →
    l.barrier = none ∧ ∀ id' e', l.entry id' = some e' → effectful e'.command → e'.phase ≠ .started
  effect : effectful e.command → l.barrier = none

section Start

variable {l : Ledger} {id : String} {e : LedgerEntry}

theorem entry_start (id' : String)
    : (l.start id e).entry id'
        = if id' = id then some { e with phase := .started } else l.entry id' := by
  simp [start, Function.update_apply]

theorem accepted_start (he : l.entry id = some e) (id' : String)
    : (l.start id e).accepted id' = l.accepted id' := by
  unfold accepted
  rw [entry_start]
  split
  next heq => simp [heq, he]
  next => rfl

theorem not_effectful_of_isBeginCheckpoint (h : c.isBeginCheckpoint) : effectful c = false := by
  cases c <;> simp_all [isBeginCheckpoint, effectful, isEffectfulAcp, isEffectfulUserShell]

theorem Invariant.start (h : l.Invariant) (hs : l.Startable id e) : (l.start id e).Invariant where
  accepted_le := by
    intro id' e' he'
    have := h.accepted_le
    have := hs.entry
    grind [entry_start, Ledger.start]
  queue_nodup := by
    exact h.queue_nodup.sublist (List.filter_sublist.map _)
  queue_sorted := by
    simp only [accepted_start hs.entry]
    exact h.queue_sorted.filter _
  queue_sound := by
    have := h.queue_sound
    intro q hq
    grind [entry_start, Ledger.start]
  queue_complete := by
    have hcomplete := h.queue_complete
    intro id' e' he' hphase hqueue
    rw [entry_start] at he'
    split at he'
    next => grind
    rename_i hne
    have hmem := hcomplete id' e' he' hphase hqueue
    simp only [Ledger.start, List.mem_map, List.mem_filter] at hmem ⊢
    grind
  active_sound := by
    have := h.active_sound
    have := hs.entry
    have := hs.queued
    intro id' hactive
    grind [entry_start, Ledger.start]
  active_complete := by
    have := h.active_complete
    have := hs.queueEntry
    intro id' e' he'
    grind [entry_start, Ledger.start, isQueueEntry_of_isPrompt]
  running_iff := by
    have := h.running_iff
    have := hs.queueEntry
    have := h.close_idle
    have := h.active_none_of_no_started
    have := hs.entry
    have := hs.queued
    grind [Ledger.start]
  single := by
    have := h.single
    have := hs.queueEntry
    have := hs.entry
    intro id₁ e₁ id₂ e₂
    grind [entry_start]
  barrier_sound := by
    have := h.barrier_sound
    have := hs.entry
    have := hs.queued
    intro id' hb
    grind [entry_start, Ledger.start]
  barrier_complete := by
    have := h.barrier_complete
    have := hs.barrier
    intro id' e' he'
    grind [entry_start, Ledger.start]
  quiet := by
    have := h.quiet
    have := hs.barrier
    have := hs.effect
    intro hb id' e' he'
    grind [entry_start, Ledger.start, not_effectful_of_isBeginCheckpoint]
  close_idle := by
    have := h.close_idle
    have := hs.queueEntry
    have := hs.entry
    have := hs.queued
    intro id₁ e₁ h₁ hc hp id₂ e₂ h₂
    grind [entry_start, closing]
  close_last := by
    have := h.close_last
    have := hs.entry
    have := hs.queued
    intro id₁ e₁ h₁ hc hp id₂ e₂ h₂
    grind [entry_start]

end Start

def settle (l : Ledger) (ids : List String) (execution : RelayExecutionState) : Ledger where
  entry := fun id =>
    if id ∈ ids then (l.entry id).map ({ · with phase := .settled }) else l.entry id
  queue := l.queue.filter (·.1 ∉ ids)
  active := l.active.filter (· ∉ ids)
  execution := execution
  barrier := l.barrier.filter (· ∉ ids)
  latest := l.latest

section Settle

variable {l : Ledger} {ids : List String} {execution : RelayExecutionState}

theorem entry_settle_of_mem (h : id ∈ ids)
    : (l.settle ids execution).entry id = (l.entry id).map ({ · with phase := .settled }) := by
  simp [settle, h]

theorem entry_settle_of_not_mem (h : id ∉ ids)
    : (l.settle ids execution).entry id = l.entry id := by
  simp [settle, h]

theorem entry_settle_cases {e : LedgerEntry} (h : (l.settle ids execution).entry id = some e)
    : ∃ e₀, l.entry id = some e₀ ∧ e.command = e₀.command ∧ e.accepted = e₀.accepted ∧
        (e.phase = .settled ∨ id ∉ ids ∧ e = e₀) := by
  by_cases hmem : id ∈ ids
  . rw [entry_settle_of_mem hmem] at h
    cases he : l.entry id with
    | none => simp [he] at h
    | some e₀ =>
    simp only [he, Option.map_some, Option.some.injEq] at h
    subst h
    simp
  . rw [entry_settle_of_not_mem hmem] at h
    exact ⟨e, h, rfl, rfl, Or.inr ⟨hmem, rfl⟩⟩

theorem accepted_settle (id : String) : (l.settle ids execution).accepted id = l.accepted id := by
  unfold accepted
  by_cases hmem : id ∈ ids
  . rw [entry_settle_of_mem hmem]
    cases l.entry id <;> simp
  . rw [entry_settle_of_not_mem hmem]

theorem Invariant.settle (h : l.Invariant)
    (hrun : execution = .running ↔ (l.settle ids execution).active.isSome)
    : (l.settle ids execution).Invariant where
  accepted_le := by
    intro id e he
    obtain ⟨e₀, he₀, _, haccepted, _⟩ := entry_settle_cases he
    rw [haccepted]
    exact h.accepted_le id e₀ he₀
  queue_nodup := by
    exact h.queue_nodup.sublist (List.filter_sublist.map _)
  queue_sorted := by
    simp only [accepted_settle]
    exact h.queue_sorted.filter _
  queue_sound := by
    intro q hq
    simp only [Ledger.settle, List.mem_filter, decide_eq_true_eq] at hq
    rw [entry_settle_of_not_mem hq.2]
    exact h.queue_sound q hq.1
  queue_complete := by
    intro id e he hphase hqueue
    obtain ⟨e₀, he₀, hcommand, _, hsettled⟩ := entry_settle_cases he
    have := h.queue_complete id e₀ he₀
    simp only [Ledger.settle, List.mem_map, List.mem_filter] at *
    grind
  active_sound := by
    intro id hactive
    simp only [Ledger.settle, Option.filter_eq_some_iff, decide_eq_true_eq] at hactive
    rw [entry_settle_of_not_mem hactive.2]
    exact h.active_sound id hactive.1
  active_complete := by
    intro id e he hphase hprompt
    obtain ⟨e₀, he₀, hcommand, _, hsettled⟩ := entry_settle_cases he
    have := h.active_complete id e₀ he₀
    grind [Ledger.settle]
  running_iff := hrun
  single := by
    intro id₁ e₁ id₂ e₂ h₁ h₂
    obtain ⟨e₁', he₁, hc₁, _, hs₁⟩ := entry_settle_cases h₁
    obtain ⟨e₂', he₂, hc₂, _, hs₂⟩ := entry_settle_cases h₂
    have := h.single id₁ e₁' id₂ e₂' he₁ he₂
    grind
  barrier_sound := by
    intro id hb
    simp only [Ledger.settle, Option.filter_eq_some_iff, decide_eq_true_eq] at hb
    rw [entry_settle_of_not_mem hb.2]
    exact h.barrier_sound id hb.1
  barrier_complete := by
    intro id e he hphase hbegin
    obtain ⟨e₀, he₀, hcommand, _, hsettled⟩ := entry_settle_cases he
    have := h.barrier_complete id e₀ he₀
    grind [Ledger.settle]
  quiet := by
    intro hb id e he
    obtain ⟨e₀, he₀, hcommand, _, hsettled⟩ := entry_settle_cases he
    have hbarrier : l.barrier.isSome := by
      simp only [Ledger.settle, Option.isSome_filter] at hb
      exact Option.isSome_of_any hb
    have := h.quiet hbarrier id e₀ he₀
    grind
  close_idle := by
    intro id₁ e₁ h₁ hc hp id₂ e₂ h₂
    obtain ⟨e₁', he₁, hc₁, _, hs₁⟩ := entry_settle_cases h₁
    obtain ⟨e₂', he₂, hc₂, _, hs₂⟩ := entry_settle_cases h₂
    have := h.close_idle id₁ e₁' he₁
    grind
  close_last := by
    intro id₁ e₁ h₁ hc hp id₂ e₂ h₂
    obtain ⟨e₁', he₁, hc₁, ha₁, hs₁⟩ := entry_settle_cases h₁
    obtain ⟨e₂', he₂, hc₂, ha₂, hs₂⟩ := entry_settle_cases h₂
    have := h.close_last id₁ e₁' he₁
    grind

end Settle

def forget (l : Ledger) (id : String) : Ledger :=
  { l with entry := Function.update l.entry id none }

theorem entry_forget {id id' : String} {e : LedgerEntry}
    : (l.forget id).entry id' = some e ↔ id' ≠ id ∧ l.entry id' = some e := by
  simp only [forget, Function.update_apply]
  split <;> simp_all

theorem Invariant.forget (h : l.Invariant) (hid : ∀ e, l.entry id = some e → e.phase = .settled)
    : (l.forget id).Invariant := by
  have hkeep : ∀ id' e, l.entry id' = some e → e.phase ≠ .settled →
      (l.forget id).entry id' = some e := by
    intro id' e he hphase
    rw [entry_forget]
    refine ⟨?_, he⟩
    intro heq
    exact hphase (hid e (heq ▸ he))
  have hqueue : ∀ q ∈ l.queue, (l.forget id).accepted q.1 = l.accepted q.1 := by
    intro q hq
    obtain ⟨_, n, hn⟩ := h.queue_sound q hq
    have := hkeep q.1 _ hn (by simp)
    simp [accepted, this, hn]
  constructor
  case accepted_le =>
    intro id' e he
    exact h.accepted_le id' e (entry_forget.mp he).2
  case queue_nodup => exact h.queue_nodup
  case queue_sorted =>
    apply h.queue_sorted.imp_of_mem
    intro a b ha hb hab
    rw [hqueue a ha]
    rw [hqueue b hb]
    exact hab
  case queue_sound =>
    intro q hq
    obtain ⟨hentry, n, hn⟩ := h.queue_sound q hq
    exact ⟨hentry, n, hkeep q.1 _ hn (by simp)⟩
  case queue_complete =>
    intro id' e he
    exact h.queue_complete id' e (entry_forget.mp he).2
  case active_sound =>
    intro id' hactive
    obtain ⟨e, he, hphase, hprompt⟩ := h.active_sound id' hactive
    exact ⟨e, hkeep id' e he (by simp [hphase]), hphase, hprompt⟩
  case active_complete =>
    intro id' e he
    exact h.active_complete id' e (entry_forget.mp he).2
  case running_iff => exact h.running_iff
  case single =>
    intro id₁ e₁ id₂ e₂ h₁ h₂
    exact h.single id₁ e₁ id₂ e₂ (entry_forget.mp h₁).2 (entry_forget.mp h₂).2
  case barrier_sound =>
    intro id' hb
    obtain ⟨e, he, hphase, hbegin⟩ := h.barrier_sound id' hb
    exact ⟨e, hkeep id' e he (by simp [hphase]), hphase, hbegin⟩
  case barrier_complete =>
    intro id' e he
    exact h.barrier_complete id' e (entry_forget.mp he).2
  case quiet =>
    intro hb id' e he
    exact h.quiet hb id' e (entry_forget.mp he).2
  case close_idle =>
    intro id₁ e₁ h₁ hclose hphase id₂ e₂ h₂
    exact h.close_idle id₁ e₁ (entry_forget.mp h₁).2 hclose hphase id₂ e₂ (entry_forget.mp h₂).2
  case close_last =>
    intro id₁ e₁ h₁ hclose hphase id₂ e₂ h₂
    exact h.close_last id₁ e₁ (entry_forget.mp h₁).2 hclose hphase id₂ e₂ (entry_forget.mp h₂).2

theorem Invariant.advance (h : l.Invariant) {latest : Nat} (hle : l.latest ≤ latest)
    : { l with latest := latest }.Invariant :=
  { h with accepted_le := fun id e he => le_trans (h.accepted_le id e he) hle }

end Ledger

end Hel
