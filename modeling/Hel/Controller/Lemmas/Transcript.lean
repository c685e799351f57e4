import Hel.Controller.Impl.Projection

/-!
This module contains how the items of a transcript are named.
-/

namespace Hel

open List

variable {stableId : String} {item : TranscriptItem} {n : Nat} {word : List Char}

inductive ItemKind where
  | user
  | agent
  | thought
  | tool
  | terminalOutput
  | plan
  | planProposal
  | system
  deriving DecidableEq

def TranscriptBody.kind : TranscriptBody → ItemKind
  | .user _ => .user
  | .agent _ _ => .agent
  | .thought _ _ => .thought
  | .tool _ => .tool
  | .terminalOutput _ => .terminalOutput
  | .plan _ => .plan
  | .planProposal _ _ => .planProposal
  | .system _ => .system

def idScheme (stableId : String) : String :=
  String.ofList (stableId.toList.takeWhile (· ≠ ':'))

def ItemKind.ofId (stableId : String) : Option ItemKind :=
  match idScheme stableId with
  | "user" => some .user
  | "agent" => some .agent
  | "thought" => some .thought
  | "tool" => some .tool
  | "terminal" => some .terminalOutput
  | "plan" => some .plan
  | "plan-proposal" => some .planProposal
  | "system" => some .system
  | "shell" => some .system
  | _ => none

section Ids

theorem idScheme_shell (id : String) : idScheme (userShellItemId id) = "shell" := by
  unfold idScheme userShellItemId
  rw [String.toList_append]
  rfl

theorem idScheme_system (id : String) : idScheme ("system:" ++ id) = "system" := by
  unfold idScheme
  rw [String.toList_append]
  rfl

@[simp]
theorem ofId_user (id : String) : ItemKind.ofId (userItemId id) = some .user := by
  unfold ItemKind.ofId idScheme userItemId
  rw [String.toList_append]
  rfl

@[simp]
theorem ofId_shell (id : String) : ItemKind.ofId (userShellItemId id) = some .system := by
  unfold ItemKind.ofId
  rw [idScheme_shell]
  rfl

@[simp]
theorem ofId_tool (id : String) : ItemKind.ofId (toolItemId id) = some .tool := by
  unfold ItemKind.ofId idScheme toolItemId
  rw [String.toList_append]
  rfl

@[simp]
theorem ofId_terminal (id : String) : ItemKind.ofId (terminalItemId id) = some .terminalOutput := by
  unfold ItemKind.ofId idScheme terminalItemId
  rw [String.toList_append]
  rfl

@[simp]
theorem ofId_plan (ordinal : Nat) : ItemKind.ofId (planItemId ordinal) = some .plan := by
  unfold ItemKind.ofId idScheme planItemId
  rw [String.toList_append]
  rfl

@[simp]
theorem ofId_planProposal (ordinal : Nat)
    : ItemKind.ofId (planProposalItemId ordinal) = some .planProposal := by
  unfold ItemKind.ofId idScheme planProposalItemId
  rw [String.toList_append]
  rfl

theorem ofId_system_append (id : String) : ItemKind.ofId ("system:" ++ id) = some .system := by
  unfold ItemKind.ofId
  rw [idScheme_system]
  rfl

@[simp]
theorem ofId_system (ordinal : Nat) : ItemKind.ofId (systemItemId ordinal) = some .system :=
  ofId_system_append _

theorem noticeItemId_eq (id : String) : noticeItemId id = "system:" ++ ("notice:" ++ id) := by
  unfold noticeItemId
  rw [← String.append_assoc]
  rfl

theorem sessionRestartItemId_eq (ordinal : Nat)
    : sessionRestartItemId ordinal = "system:" ++ ("session-restarted:" ++ toString ordinal) := by
  unfold sessionRestartItemId
  rw [← String.append_assoc]
  rfl

@[simp]
theorem ofId_notice (id : String) : ItemKind.ofId (noticeItemId id) = some .system := by
  rw [noticeItemId_eq]
  exact ofId_system_append _

@[simp]
theorem ofId_sessionRestart (ordinal : Nat)
    : ItemKind.ofId (sessionRestartItemId ordinal) = some .system := by
  rw [sessionRestartItemId_eq]
  exact ofId_system_append _

@[simp]
theorem ofId_stream (agent : Bool) (id : String)
    : ItemKind.ofId (streamItemId agent id) = some (if agent then .agent else .thought) := by
  unfold ItemKind.ofId idScheme streamItemId
  rw [String.toList_append]
  cases agent <;> rfl

theorem append_left_injective {p a b : String} (h : p ++ a = p ++ b) : a = b := by
  have hlist := congrArg String.toList h
  rw [String.toList_append, String.toList_append, append_right_inj] at hlist
  exact String.toList_inj.mp hlist

theorem toString_ne_append {c : Char} {rest : String}
    (hc : c.isDigit = false) : toString n ≠ String.ofList (c :: word) ++ rest := by
  intro h
  have hlist := congrArg String.toList h
  rw [String.toList_append, String.toList_ofList] at hlist
  have hdigit : c.isDigit = true := by
    apply Text.isDigit_of_mem_toString
    rw [hlist]
    exact mem_cons_self
  rw [hc] at hdigit
  cases hdigit

end Ids

section Numbered

def numberedIds (ordinal : Nat) : List String :=
  [planItemId ordinal, planProposalItemId ordinal, systemItemId ordinal,
    sessionRestartItemId ordinal]

theorem systemItemId_ne_sessionRestartItemId (m n : Nat)
    : systemItemId m ≠ sessionRestartItemId n := by
  rw [sessionRestartItemId_eq]
  intro h
  have := append_left_injective (show "system:" ++ toString m = _ from h)
  exact toString_ne_append (by decide) this

theorem noticeItemId_ne_systemItemId (id : String) (n : Nat) : noticeItemId id ≠ systemItemId n := by
  rw [noticeItemId_eq]
  intro h
  have := append_left_injective (show _ = "system:" ++ toString n from h)
  exact toString_ne_append (by decide) this.symm

theorem noticeItemId_ne_sessionRestartItemId (id : String) (n : Nat)
    : noticeItemId id ≠ sessionRestartItemId n := by
  rw [noticeItemId_eq, sessionRestartItemId_eq]
  intro h
  have hlist := congrArg String.toList (append_left_injective h)
  rw [String.toList_append, String.toList_append] at hlist
  cases hlist

theorem ofId_of_mem_numberedIds (h : stableId ∈ numberedIds n)
    : ItemKind.ofId stableId = some .plan ∨ ItemKind.ofId stableId = some .planProposal
        ∨ ItemKind.ofId stableId = some .system := by
  simp only [numberedIds, mem_cons, not_mem_nil, or_false] at h
  rcases h with h | h | h | h <;> simp [h]

theorem idScheme_of_mem_numberedIds (h : stableId ∈ numberedIds n)
    (hkind : ItemKind.ofId stableId = some .system) : idScheme stableId = "system" := by
  simp only [numberedIds, mem_cons, not_mem_nil, or_false] at h
  rcases h with h | h | h | h
  . simp [h] at hkind
  . simp [h] at hkind
  . rw [h]
    exact idScheme_system _
  . rw [h, sessionRestartItemId_eq]
    exact idScheme_system _

theorem userShellItemId_not_mem_numberedIds (id : String) (n : Nat)
    : userShellItemId id ∉ numberedIds n := by
  intro h
  have := idScheme_of_mem_numberedIds h (ofId_shell id)
  rw [idScheme_shell] at this
  exact absurd this (by decide)

theorem noticeItemId_not_mem_numberedIds (id : String) (n : Nat)
    : noticeItemId id ∉ numberedIds n := by
  intro h
  simp only [numberedIds, mem_cons, not_mem_nil, or_false] at h
  rcases h with h | h | h | h
  . have := ofId_notice id
    simp [h] at this
  . have := ofId_notice id
    simp [h] at this
  . exact noticeItemId_ne_systemItemId id n h
  . exact noticeItemId_ne_sessionRestartItemId id n h

theorem number_unique {m n : Nat} (hm : stableId ∈ numberedIds m)
    (hn : stableId ∈ numberedIds n) : m = n := by
  simp only [numberedIds, mem_cons, not_mem_nil, or_false] at hm hn
  rcases hm with rfl | rfl | rfl | rfl <;> rcases hn with hn | hn | hn | hn
  all_goals
    have hkind := congrArg ItemKind.ofId hn
    simp at hkind
  . exact Text.toString_injective (append_left_injective hn)
  . exact Text.toString_injective (append_left_injective hn)
  . exact Text.toString_injective (append_left_injective hn)
  . exact absurd hn (systemItemId_ne_sessionRestartItemId m n)
  . exact absurd hn.symm (systemItemId_ne_sessionRestartItemId n m)
  . exact Text.toString_injective (append_left_injective hn)

end Numbered

section Proper

structure TranscriptItem.Proper (item : TranscriptItem) (through : Nat) : Prop where
  named : ItemKind.ofId item.stableId = some item.body.kind
  numbered : ∀ n, through < n → item.stableId ∉ numberedIds n
  positive : 0 < item.position
  le_through : item.position ≤ through
  content : item.latestContentEventOrdinal.isSome = item.body.isAgent
  latest : ∀ ordinal ∈ item.latestContentEventOrdinal, item.position ≤ ordinal ∧ ordinal ≤ through
  changed : item.createdAtMs ≤ item.lastChangedAtMs

theorem TranscriptItem.Proper.mono {through through' : Nat} (h : item.Proper through)
    (hle : through ≤ through') : item.Proper through' where
  named := h.named
  numbered := fun n hn => h.numbered n (by omega)
  positive := h.positive
  le_through := by
    have := h.le_through
    omega
  content := h.content
  latest := fun ordinal hordinal => by
    have := h.latest ordinal hordinal
    omega
  changed := h.changed

theorem mem_of_idScheme {c : Char}
    (h : idScheme stableId = String.ofList (c :: word)) : c ∈ stableId.toList := by
  have hlist := congrArg String.toList h
  unfold idScheme at hlist
  rw [String.toList_ofList, String.toList_ofList] at hlist
  apply (takeWhile_sublist _).subset
  rw [hlist]
  exact mem_cons_self

theorem not_isBlank_of_ofId {kind : ItemKind}
    (h : ItemKind.ofId stableId = some kind) : Text.isBlank stableId = false := by
  have hletter : ∃ c ∈ stableId.toList, Text.isWhitespace c = false := by
    unfold ItemKind.ofId at h
    split at h
    next heq => exact ⟨'u', mem_of_idScheme heq, by decide⟩
    next heq => exact ⟨'a', mem_of_idScheme heq, by decide⟩
    next heq => exact ⟨'t', mem_of_idScheme heq, by decide⟩
    next heq => exact ⟨'t', mem_of_idScheme heq, by decide⟩
    next heq => exact ⟨'t', mem_of_idScheme heq, by decide⟩
    next heq => exact ⟨'p', mem_of_idScheme heq, by decide⟩
    next heq => exact ⟨'p', mem_of_idScheme heq, by decide⟩
    next heq => exact ⟨'s', mem_of_idScheme heq, by decide⟩
    next heq => exact ⟨'s', mem_of_idScheme heq, by decide⟩
    next => cases h
  obtain ⟨c, hmem, hc⟩ := hletter
  unfold Text.isBlank
  rw [all_eq_false]
  exact ⟨c, hmem, by simp [hc]⟩

theorem TranscriptItem.Proper.validate {through : Nat}
    (h : item.Proper through) : item.validate through = .ok () := by
  unfold TranscriptItem.validate
  have hblank := not_isBlank_of_ofId h.named
  have hposition : ¬(item.position = 0 ∨ item.position > through) := by
    have := h.positive
    have := h.le_through
    omega
  have hchanged : ¬item.lastChangedAtMs < item.createdAtMs := by
    have := h.changed
    omega
  simp only [hblank, Bool.false_eq_true, if_false, hposition, hchanged]
  have hcontent := h.content
  cases hlatest : item.latestContentEventOrdinal with rw [hlatest] at hcontent
  | none =>
    rw [← hcontent]
    rfl
  | some ordinal =>
    rw [← hcontent]
    have := h.latest ordinal hlatest
    have hordinal : ¬(ordinal < item.position ∨ ordinal > through) := by omega
    simp only [Option.isSome_some, hordinal, if_false]

theorem isAgent_eq (body : TranscriptBody) : body.isAgent = decide (body.kind = .agent) := by
  cases body <;> rfl

end Proper

end Hel
