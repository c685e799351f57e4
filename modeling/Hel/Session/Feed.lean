import Mathlib.Data.String.Basic
import Mathlib.Logic.Function.Basic
import Hel.Data.BTreeMap
import Hel.Data.Machine

/-!
This module contains the coalesced feed of session updates.
-/

namespace Hel

inductive FeedStage where
  | idle
  | polling (stage : FeedStage)
  | waiting
  | probing
  deriving DecidableEq

-- `waking` counts the senders between their insert and their wake; `sent` and `delivered` are what
-- was ever sent and taken of each session.
structure UpdateFeed (α : Type) where
  pending : BTreeMap String α := .empty
  wake : Bool := false
  waking : Nat := 0
  stage : FeedStage := .idle
  sent : String → List α := fun _ => []
  delivered : String → List α := fun _ => []

inductive FeedStep (α : Type) where
  | insert (session : String) (view : α)
  | wake
  | recv
  | tryRecv
  | cancel
  | poll
  | listen

namespace UpdateFeed

open Machine

variable {α : Type}

def record (log : String → List α) (session : String) (view : α) : String → List α :=
  Function.update log session (log session ++ [view])

def next (feed : UpdateFeed α) : FeedStep α → Option (UpdateFeed α)
  | .insert session view =>
    some { feed with
      pending := feed.pending.insert session view
      waking := feed.waking + 1
      sent := record feed.sent session view }
  | .wake =>
    if 0 < feed.waking then some { feed with wake := true, waking := feed.waking - 1 } else none
  | .recv => if feed.stage = .idle then some { feed with stage := .polling .waiting } else none
  | .tryRecv => if feed.stage = .idle then some { feed with stage := .polling .probing } else none
  | .cancel => if feed.stage = .waiting then some { feed with stage := .idle } else none
  | .poll =>
    match feed.stage, feed.pending.entries with
    | .polling _, (session, view) :: _ =>
      some { feed with
        pending := feed.pending.remove session
        stage := .idle
        delivered := record feed.delivered session view }
    | .polling stage, [] => some { feed with stage }
    | _, _ => none
  | .listen =>
    match feed.stage, feed.wake with
    | .waiting, true => some { feed with wake := false, stage := .polling .waiting }
    | .probing, true => some { feed with wake := false, stage := .polling .idle }
    | .probing, false => some { feed with stage := .idle }
    | _, _ => none

/-- Everything delivered of a session and then what is pending of it. -/
def trail (feed : UpdateFeed α) (session : String) : List α :=
  feed.delivered session ++ (feed.pending.get? session).toList

structure Kept (feed : UpdateFeed α) : Prop where
  trail : ∀ session, (feed.trail session).Sublist (feed.sent session)
    ∧ (feed.trail session).getLast? = (feed.sent session).getLast?
  awake : feed.stage = .waiting → feed.pending.entries ≠ [] → feed.wake = true ∨ 0 < feed.waking

variable {feed feed' : UpdateFeed α} {session : String} {view : α}

theorem next_cases {step : FeedStep α} (h : feed.next step = some feed')
    : (∃ session view, feed' = { feed with
        pending := feed.pending.insert session view
        waking := feed.waking + 1
        sent := record feed.sent session view }) ∨
      (∃ session view rest, feed.pending.entries = (session, view) :: rest ∧ feed' = { feed with
        pending := feed.pending.remove session
        stage := .idle
        delivered := record feed.delivered session view }) ∨
      ∃ wake waking stage, feed' = { feed with wake, waking, stage } ∧
        (stage = .waiting → feed.pending.entries = [] ∨ wake = true) := by
  cases step with
  | insert session view =>
    cases h
    exact Or.inl ⟨session, view, rfl⟩
  | wake =>
    cases (Option.ite_none_right_eq_some.mp h).2
    exact Or.inr (Or.inr ⟨_, _, _, rfl, fun _ => Or.inr rfl⟩)
  | recv | tryRecv | cancel =>
    cases (Option.ite_none_right_eq_some.mp h).2
    exact Or.inr (Or.inr ⟨_, _, _, rfl, nofun⟩)
  | poll =>
    simp only [next] at h
    split at h <;> cases h
    next hentries => exact Or.inr (Or.inl ⟨_, _, _, hentries, rfl⟩)
    next hentries => exact Or.inr (Or.inr ⟨_, _, _, rfl, fun _ => Or.inl hentries⟩)
  | listen =>
    simp only [next] at h
    split at h <;> cases h
    all_goals exact Or.inr (Or.inr ⟨_, _, _, rfl, nofun⟩)

theorem trail_deliver {rest : List (String × α)} (h : feed.pending.entries = (session, view) :: rest)
    : trail { feed with
        pending := feed.pending.remove session
        stage := .idle
        delivered := record feed.delivered session view } = feed.trail := by
  have hget : feed.pending.get? session = some view := by
    apply BTreeMap.mem_entries_iff.mp
    rw [h]
    apply List.mem_cons_self
  funext other
  simp only [trail, record, BTreeMap.get?_remove, Function.update_apply]
  split
  next heq => simp [heq, hget]
  next => rfl

theorem Kept.next {step : FeedStep α} (h : feed.Kept) (hnext : feed.next step = some feed')
    : feed'.Kept := by
  obtain ⟨session, view, rfl⟩ | ⟨_, _, _, hentries, rfl⟩ | ⟨_, _, _, rfl, hwake⟩ := next_cases hnext
  . refine ⟨?_, fun _ _ => Or.inr (Nat.succ_pos _)⟩
    intro other
    have hother := h.trail other
    simp only [UpdateFeed.trail, record, BTreeMap.get?_insert, Function.update_apply] at hother ⊢
    split
    next heq =>
      subst heq
      simp only [Option.toList_some, List.getLast?_concat, and_true]
      apply List.Sublist.append _ (List.Sublist.refl _)
      apply (List.sublist_append_left _ _).trans hother.1
    next => exact hother
  . refine ⟨?_, nofun⟩
    rw [trail_deliver hentries]
    apply h.trail
  . refine ⟨h.trail, ?_⟩
    intro hstage hne
    exact Or.inl ((hwake hstage).resolve_left hne)

/--
Updates are skipped but never reordered, the latest one is never lost, and a receive only sleeps
over a pending update while its sender is about to wake it.
-/
theorem feed_keeps_latest
    (h : Reaches (fun feed step feed' => next feed step = some feed') (fun _ _ => True) {} feed)
    : (∀ session, (feed.delivered session).Sublist (feed.sent session)) ∧
      (feed.pending.entries = [] → ∀ session,
        (feed.delivered session).getLast? = (feed.sent session).getLast?) ∧
      (feed.stage = .waiting → feed.pending.entries ≠ [] → feed.wake = true ∨ 0 < feed.waking) := by
  have hkept : feed.Kept := by
    apply h.invariant (P := Kept)
    . intro _ _ _ hkept _ hnext
      apply hkept.next hnext
    . refine ⟨fun _ => ⟨List.Sublist.refl _, rfl⟩, ?_⟩
      intro hstage
      cases hstage
  refine ⟨?_, ?_, hkept.awake⟩
  . intro session
    apply (List.sublist_append_left _ _).trans (hkept.trail session).1
  . intro hempty session
    have hlast := (hkept.trail session).2
    simp only [trail, BTreeMap.get?, hempty, List.lookup_nil, Option.toList_none,
      List.append_nil] at hlast
    exact hlast

theorem feed_keeps_latest_of_two
    : ∃ feed : UpdateFeed Nat, feed.sent "a" = [0, 1] ∧ feed.delivered "a" = [1] ∧
      (feed.delivered "a").getLast? = (feed.sent "a").getLast? := by
  have hrun : follow next ({} : UpdateFeed Nat)
      [.insert "a" 0, .wake, .insert "a" 1, .recv, .poll] = some _ := rfl
  refine ⟨_, ?_, ?_, (feed_keeps_latest (.of_follow (fun _ _ _ => trivial) hrun)).2.1 rfl "a"⟩
  all_goals rfl

def Skips (session : String) (feed : UpdateFeed α) (step : FeedStep α) : Prop :=
  ∀ feed', feed.next step = some feed' → feed'.delivered session = feed.delivered session

structure Waits (session : String) (start feed : UpdateFeed α) : Prop where
  pending : (feed.pending.get? session).isSome
  behind : ∀ other, session ≤ other → feed.delivered other = start.delivered other
  ahead : ∀ other, (feed.trail other).length + (start.sent other).length
    ≤ (start.trail other).length + (feed.sent other).length

-- What is taken first comes before the session in the order of the keys, or is its own update.
theorem Waits.next {start : UpdateFeed α} {step : FeedStep α} (h : Waits session start feed)
    (hnext : feed.next step = some feed')
    : Waits session start feed' ∨
        (start.delivered session).length < (feed'.delivered session).length := by
  obtain ⟨key, view, rfl⟩ | ⟨first, view, rest, hentries, rfl⟩ | ⟨_, _, _, rfl, _⟩ :=
    next_cases hnext
  . refine Or.inl ⟨?_, h.behind, ?_⟩
    . rw [BTreeMap.get?_insert]
      split
      . rfl
      . exact h.pending
    . intro other
      have hother := h.ahead other
      simp only [trail, record, BTreeMap.get?_insert, Function.update_apply, List.length_append]
        at hother ⊢
      split
      next heq =>
        subst heq
        simp only [Option.toList_some, List.length_append, List.length_singleton]
        omega
      next => exact hother
  . by_cases heq : session = first
    . right
      rw [heq, ← h.behind first heq.le]
      simp [record]
    have hlt : first < session := by
      obtain ⟨pending, hpending⟩ := Option.isSome_iff_exists.mp h.pending
      have hsorted := feed.pending.sorted
      have hmem := BTreeMap.mem_entries_iff.mpr hpending
      rw [hentries] at hsorted hmem
      cases hmem with
      | head => exact absurd rfl heq
      | tail _ hrest => exact (List.pairwise_cons.mp hsorted).1 _ hrest
    refine Or.inl ⟨?_, ?_, ?_⟩
    . rw [BTreeMap.get?_remove, if_neg heq]
      exact h.pending
    . intro other hother
      rw [← h.behind other hother]
      exact Function.update_of_ne (ne_of_gt (lt_of_lt_of_le hlt hother)) _ _
    . rw [trail_deliver hentries]
      exact h.ahead
  . exact Or.inl ⟨h.pending, h.behind, h.ahead⟩

theorem length_delivered_le {step : FeedStep α} (hnext : feed.next step = some feed')
    : (feed.delivered session).length ≤ (feed'.delivered session).length := by
  obtain ⟨_, _, rfl⟩ | ⟨first, view, _, _, rfl⟩ | ⟨_, _, _, rfl, _⟩ := next_cases hnext
  . rfl
  . simp only [record, Function.update_apply]
    split
    next heq => simp [heq]
    next => rfl
  . rfl

/--
An update waits only for updates of sessions with smaller ids, and for each of those at most as
often as it had one pending or has sent one since.
-/
theorem update_waits_for_smaller_sessions {start : UpdateFeed α}
    (hpending : (start.pending.get? session).isSome)
    (hrun : Reaches (fun feed step feed' => next feed step = some feed') (fun _ _ => True) start feed)
    (hwaits : feed.delivered session = start.delivered session)
    : (feed.pending.get? session).isSome ∧
      (∀ other, session < other → feed.delivered other = start.delivered other) ∧
      ∀ other, (feed.delivered other).length + (start.sent other).length
        ≤ (start.trail other).length + (feed.sent other).length := by
  have hkept : Waits session start feed ∨
      (start.delivered session).length < (feed.delivered session).length := by
    apply hrun.invariant (P := fun feed => Waits session start feed ∨
      (start.delivered session).length < (feed.delivered session).length)
    . rintro feed _ feed' (h | hlt) _ hnext
      . apply h.next hnext
      . exact Or.inr (Nat.lt_of_lt_of_le hlt (length_delivered_le hnext))
    . exact Or.inl ⟨hpending, fun _ _ => rfl, fun _ => Nat.le_refl _⟩
  have h := hkept.resolve_right (by simp [hwaits])
  refine ⟨h.pending, fun other hother => h.behind other hother.le, ?_⟩
  intro other
  have hother := h.ahead other
  rw [trail, List.length_append] at hother
  omega

theorem update_waits_for_smaller_sessions_of_loud
    : ∃ feed : UpdateFeed Nat, feed.delivered "a" = [1, 2] ∧ feed.delivered "c" = [] ∧
      (feed.pending.get? "b").isSome := by
  let start : UpdateFeed Nat := { pending := (BTreeMap.empty.insert "b" 0).insert "c" 0 }
  have hrun : follow next start
      [.insert "a" 1, .recv, .poll, .insert "a" 2, .recv, .poll] = some _ := rfl
  have h := @update_waits_for_smaller_sessions Nat _ "b" start rfl
    (.of_follow (fun _ _ _ => trivial) hrun) rfl
  exact ⟨_, rfl, h.2.1 "c" (by decide), h.1⟩

end UpdateFeed

end Hel
