import Mathlib.Data.List.Induction
import Mathlib.Order.Lattice
import Mathlib.Tactic.Tauto

/-!
This module contains a finite map represented by its entries in key order. The order of the keys is
part of the type, so two maps with the same entries are equal and iteration order is determined.
-/

/--
A finite map from `κ` to `α`: a list of entries whose keys strictly increase.
-/
structure BTreeMap (κ α : Type) [LinearOrder κ] where
  entries : List (κ × α)
  sorted : entries.Pairwise (fun a b => a.1 < b.1)
  deriving DecidableEq

namespace BTreeMap

variable {κ α : Type} [LinearOrder κ] {key : κ} {value : α} {entries : List (κ × α)}

def empty : BTreeMap κ α where
  entries := []
  sorted := List.Pairwise.nil

instance : Inhabited (BTreeMap κ α) := ⟨empty⟩

variable (m : BTreeMap κ α)

def get? (key : κ) : Option α :=
  m.entries.lookup key

def contains (key : κ) : Bool :=
  (m.get? key).isSome

def keys : List κ :=
  m.entries.map (·.1)

def values : List α :=
  m.entries.map (·.2)

def insertEntry (key : κ) (value : α) : List (κ × α) → List (κ × α)
  | [] => [(key, value)]
  | entry :: rest =>
    if key < entry.1 then
      (key, value) :: entry :: rest
    else if key = entry.1 then
      (key, value) :: rest
    else
      entry :: insertEntry key value rest

theorem mem_insertEntry_iff (h : entries.Pairwise (fun a b => a.1 < b.1)) {entry : κ × α}
    : entry ∈ insertEntry key value entries
        ↔ entry = (key, value) ∨ (entry.1 ≠ key ∧ entry ∈ entries) := by
  induction entries with
  | nil => simp [insertEntry]
  | cons head rest ih =>
    have hhead : ∀ e ∈ rest, head.1 < e.1 := List.pairwise_cons.mp h |>.1
    unfold insertEntry
    split
    next hlt =>
      have hne : entry = head ∨ entry ∈ rest → entry.1 ≠ key := by
        rintro (rfl | hmem)
        . exact ne_of_gt hlt
        . exact ne_of_gt (lt_trans hlt (hhead _ hmem))
      simp only [List.mem_cons]
      tauto
    rename_i hlt
    split
    next heq =>
      have hne : entry ∈ rest → entry.1 ≠ key := by
        intro hmem
        exact heq ▸ ne_of_gt (hhead _ hmem)
      have hself : entry = head → entry.1 = key := by
        rintro rfl
        exact heq.symm
      simp only [List.mem_cons]
      tauto
    next hne =>
      have hself : entry = head → entry.1 ≠ key := by
        rintro rfl
        exact Ne.symm hne
      simp only [List.mem_cons, ih h.of_cons]
      tauto

theorem insertEntry_sorted (h : entries.Pairwise (fun a b => a.1 < b.1))
    : (insertEntry key value entries).Pairwise (fun a b => a.1 < b.1) := by
  induction entries with
  | nil => simp [insertEntry]
  | cons head rest ih =>
    have hhead : ∀ entry ∈ rest, head.1 < entry.1 := List.pairwise_cons.mp h |>.1
    unfold insertEntry
    split
    next hlt =>
      refine h.cons ?_
      intro entry hmem
      rcases List.mem_cons.mp hmem with hmem | hmem
      . simpa [hmem] using hlt
      . exact lt_trans hlt (hhead _ hmem)
    rename_i hlt
    split
    next heq =>
      refine h.of_cons.cons ?_
      intro entry hmem
      simpa [heq] using hhead _ hmem
    rename_i hne
    refine (ih h.of_cons).cons ?_
    intro entry hmem
    rcases (mem_insertEntry_iff h.of_cons).mp hmem with hmem | hmem
    . simpa [hmem] using lt_of_le_of_ne (not_lt.mp hlt) (Ne.symm hne)
    . exact hhead _ hmem.2

def insert (key : κ) (value : α) : BTreeMap κ α where
  entries := insertEntry key value m.entries
  sorted := insertEntry_sorted m.sorted

def remove (key : κ) : BTreeMap κ α where
  entries := m.entries.filter (fun entry => entry.1 ≠ key)
  sorted := m.sorted.filter _

def modify (key : κ) (f : α → α) : BTreeMap κ α where
  entries := m.entries.map (fun entry => if entry.1 = key then (entry.1, f entry.2) else entry)
  sorted := by
    refine m.sorted.map _ ?_
    intro a b hab
    split <;> split <;> simpa using hab

def ofList (entries : List (κ × α)) : BTreeMap κ α :=
  entries.foldl (fun m entry => m.insert entry.1 entry.2) empty

@[simp]
theorem get?_empty (key : κ) : (empty : BTreeMap κ α).get? key = none := rfl

theorem lookup_eq_some_iff (h : entries.Pairwise (fun a b => a.1 < b.1))
    : entries.lookup key = some value ↔ (key, value) ∈ entries := by
  induction entries with
  | nil => simp
  | cons head rest ih =>
    obtain ⟨key', value'⟩ := head
    by_cases heq : key = key'
    . subst heq
      have hnot : (key, value) ∉ rest :=
        fun hmem => lt_irrefl key ((List.pairwise_cons.mp h).1 (key, value) hmem)
      simp only [List.lookup_cons_self, Option.some.injEq, List.mem_cons, Prod.mk.injEq, true_and,
        hnot, or_false]
      exact eq_comm
    . have hbeq : (key == key') = false := by simpa using heq
      simp [List.lookup_cons, hbeq, ih h.of_cons, heq]

variable {m : BTreeMap κ α}

theorem mem_entries_iff : (key, value) ∈ m.entries ↔ m.get? key = some value :=
  (lookup_eq_some_iff m.sorted).symm

theorem get?_eq_some_of_mem_iff {m' : BTreeMap κ α} {key key' : κ}
    (h : ∀ value, (key, value) ∈ m.entries ↔ (key', value) ∈ m'.entries)
    : m.get? key = m'.get? key' := by
  refine Option.ext ?_
  intro value
  rw [← mem_entries_iff, ← mem_entries_iff]
  exact h value

@[simp]
theorem get?_insert_self (m : BTreeMap κ α) (key : κ) (value : α)
    : (m.insert key value).get? key = some value := by
  rw [← mem_entries_iff]
  exact (mem_insertEntry_iff m.sorted).mpr (Or.inl rfl)

theorem get?_insert_of_ne (m : BTreeMap κ α) {key key' : κ} (value : α) (h : key' ≠ key)
    : (m.insert key value).get? key' = m.get? key' := by
  apply get?_eq_some_of_mem_iff
  intro value'
  simp [insert, mem_insertEntry_iff m.sorted, h]

theorem get?_insert (m : BTreeMap κ α) (key key' : κ) (value : α)
    : (m.insert key value).get? key' = if key' = key then some value else m.get? key' := by
  split
  next h => rw [h, get?_insert_self]
  next h => exact get?_insert_of_ne m value h

theorem get?_remove (m : BTreeMap κ α) (key key' : κ)
    : (m.remove key).get? key' = if key' = key then none else m.get? key' := by
  split
  next h =>
    rw [Option.eq_none_iff_forall_ne_some]
    intro value hsome
    rw [← mem_entries_iff] at hsome
    simp [remove, h] at hsome
  next h =>
    apply get?_eq_some_of_mem_iff
    intro value
    simp [remove, h]

theorem get?_modify (m : BTreeMap κ α) (key key' : κ) (f : α → α)
    : (m.modify key f).get? key' = if key' = key then (m.get? key').map f else m.get? key' := by
  refine Option.ext ?_
  intro value
  rw [← mem_entries_iff]
  simp only [modify, List.mem_map, Prod.exists]
  split
  next h =>
    simp only [Option.map_eq_some_iff, ← mem_entries_iff]
    constructor
    . rintro ⟨k, v, hmem, heq⟩
      split at heq
      . simp only [Prod.mk.injEq] at heq
        exact ⟨v, by simpa [← heq.1] using hmem, heq.2⟩
      . simp_all
    . rintro ⟨v, hmem, heq⟩
      exact ⟨key', v, hmem, by simp [h, heq]⟩
  next h =>
    rw [← mem_entries_iff]
    constructor
    . rintro ⟨k, v, hmem, heq⟩
      split at heq
      . simp_all
      . simpa [heq] using hmem
    . intro hmem
      exact ⟨key', value, hmem, by simp [h]⟩

@[simp]
theorem contains_empty (key : κ) : (empty : BTreeMap κ α).contains key = false := rfl

theorem contains_insert (m : BTreeMap κ α) (key key' : κ) (value : α)
    : (m.insert key value).contains key' = (decide (key' = key) || m.contains key') := by
  unfold contains
  rw [get?_insert]
  split <;> simp_all

theorem contains_remove (m : BTreeMap κ α) (key key' : κ)
    : (m.remove key).contains key' = (decide (key' ≠ key) && m.contains key') := by
  unfold contains
  rw [get?_remove]
  split <;> simp_all

theorem mem_keys_iff : key ∈ m.keys ↔ m.contains key = true := by
  unfold keys contains
  rw [List.mem_map, Option.isSome_iff_exists]
  constructor
  . intro ⟨entry, hmem, heq⟩
    exact ⟨entry.2, mem_entries_iff.mp (by rw [← heq]; exact hmem)⟩
  . intro ⟨value, hget⟩
    exact ⟨(key, value), mem_entries_iff.mpr hget, rfl⟩

theorem ofList_concat (entries : List (κ × α)) (entry : κ × α)
    : ofList (entries ++ [entry]) = (ofList entries).insert entry.1 entry.2 := by
  simp [ofList]

theorem get?_ofList (h : (key, value) ∈ entries)
    (hunique : ∀ other, (key, other) ∈ entries → other = value)
    : (ofList entries).get? key = some value := by
  induction entries using List.reverseRecOn with
  | nil => cases h
  | append_singleton entries entry ih =>
    rw [ofList_concat, get?_insert]
    split
    next heq =>
      rw [hunique entry.2 (by simp [heq])]
    rename_i hne
    apply ih
    . rcases List.mem_append.mp h with hmem | hmem
      . exact hmem
      rw [List.mem_singleton] at hmem
      rw [← hmem] at hne
      exact absurd rfl hne
    . intro other hmem
      apply hunique other (List.mem_append_left _ hmem)

def filterMap (m : BTreeMap κ α) (f : κ → α → Option α) : BTreeMap κ α where
  entries := m.entries.filterMap (fun entry => (f entry.1 entry.2).map (entry.1, ·))
  sorted := by
    refine m.sorted.filterMap _ ?_
    intro a b hab a' ha b' hb
    obtain ⟨_, _, rfl⟩ := Option.map_eq_some_iff.mp ha
    obtain ⟨_, _, rfl⟩ := Option.map_eq_some_iff.mp hb
    exact hab

theorem get?_filterMap (m : BTreeMap κ α) (f : κ → α → Option α) (key : κ)
    : (m.filterMap f).get? key = (m.get? key).bind (f key) := by
  apply Option.ext
  intro value
  rw [← mem_entries_iff, Option.bind_eq_some_iff]
  simp [filterMap, mem_entries_iff]

def sweep (p : κ → α → Bool) : BTreeMap κ α :=
  m.filterMap (fun key value => if p key value then none else some value)

theorem get?_sweep (m : BTreeMap κ α) (p : κ → α → Bool) (key : κ)
    : (m.sweep p).get? key = (m.get? key).filter (fun value => !p key value) := by
  unfold sweep
  rw [get?_filterMap]
  cases m.get? key with
  | none => rfl
  | some value => cases hp : p key value <;> simp [hp, Option.filter]

end BTreeMap

abbrev BTreeSet (κ : Type) [LinearOrder κ] := BTreeMap κ Unit
