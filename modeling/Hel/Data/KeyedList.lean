import Mathlib.Data.List.Nodup

/-!
This module contains lists whose elements have distinct keys. Putting an element with a known key
replaces the old one in its place; an element with a new key goes to the end.
-/

structure KeyedList {κ α : Type} (key : α → κ) where
  items : List α
  nodup : (items.map key).Nodup
  deriving DecidableEq

namespace KeyedList

open List

inductive Change (κ α : Type) where
  | put (a : α)
  | erase (k : κ)

namespace Change

variable {κ α : Type} {key : α → κ}

def puts (changes : List (Change κ α)) : List α :=
  changes.filterMap (fun
    | .put a => some a
    | .erase _ => none)

def erasures (changes : List (Change κ α)) : List κ :=
  changes.filterMap (fun
    | .put _ => none
    | .erase k => some k)

@[simp]
theorem puts_put (a : α) (rest : List (Change κ α)) : puts (.put a :: rest) = a :: puts rest := rfl

@[simp]
theorem erasures_erase (k : κ) (rest : List (Change κ α))
    : erasures (.erase k :: rest) = k :: erasures rest := rfl

structure Apart (key : α → κ) (changes : List (Change κ α)) : Prop where
  nodup : ((puts changes).map key).Nodup
  disjoint : ∀ k ∈ erasures changes, k ∉ (puts changes).map key

variable {rest : List (Change κ α)} {a : α}

theorem Apart.head_put (h : Apart key (.put a :: rest))
    : key a ∉ (puts rest).map key ∧ key a ∉ erasures rest := by
  have hnodup := h.nodup
  rw [puts_put, map_cons, nodup_cons] at hnodup
  refine ⟨hnodup.1, ?_⟩
  intro hmem
  apply h.disjoint _ hmem
  rw [puts_put]
  exact mem_map_of_mem mem_cons_self

theorem Apart.head_erase {k : κ} (h : Apart key (.erase k :: rest)) : k ∉ (puts rest).map key := by
  apply h.disjoint
  rw [erasures_erase]
  exact mem_cons_self

theorem Apart.of_cons {change : Change κ α} (h : Apart key (change :: rest)) : Apart key rest := by
  have hnodup := h.nodup
  have hdisjoint := h.disjoint
  cases change with
  | put a =>
    rw [puts_put, map_cons] at hnodup hdisjoint
    exact ⟨(nodup_cons.mp hnodup).2,
      fun k hk hmem => hdisjoint k hk (mem_cons_of_mem _ hmem)⟩
  | erase k =>
    exact ⟨hnodup, fun k' hk => hdisjoint k' (mem_cons_of_mem _ hk)⟩

end Change

variable {κ α : Type} [DecidableEq κ] {key : α → κ}

def empty : KeyedList key where
  items := []
  nodup := nodup_nil

variable (l : KeyedList key)

def keys : List κ :=
  l.items.map key

def get? (k : κ) : Option α :=
  l.items.find? (fun a => key a = k)

def erase (k : κ) : KeyedList key where
  items := l.items.filter (fun a => key a ≠ k)
  nodup := l.nodup.sublist (filter_sublist.map key)

def replaced (key : α → κ) (a : α) (items : List α) : List α :=
  items.map (fun b => if key b = key a then a else b)

theorem map_key_replaced (a : α) (items : List α)
    : (replaced key a items).map key = items.map key := by
  unfold replaced
  rw [map_map]
  apply map_congr_left
  intro b _
  dsimp only [Function.comp_apply]
  split
  next h => exact h.symm
  next => rfl

def put (a : α) : KeyedList key where
  items := if key a ∈ l.items.map key then replaced key a l.items else l.items ++ [a]
  nodup := by
    split
    . rw [map_key_replaced]
      exact l.nodup
    next h =>
      rw [map_append, map_singleton, ← concat_eq_append]
      apply l.nodup.concat h

section Get

variable {l : KeyedList key} {a b : α} {k : κ}

theorem get?_eq_some : l.get? k = some a ↔ a ∈ l.items ∧ key a = k := by
  constructor
  . intro h
    have hkey := find?_some h
    exact ⟨mem_of_find?_eq_some h, by simpa using hkey⟩
  intro ⟨hmem, hkey⟩
  cases h : l.get? k with
  | none =>
    have hnone := find?_eq_none.mp h a hmem
    simp [hkey] at hnone
  | some b =>
    have hb : key b = k := by simpa using find?_some h
    rw [inj_on_of_nodup_map l.nodup (mem_of_find?_eq_some h) hmem (hb.trans hkey.symm)]

theorem get?_eq_none : l.get? k = none ↔ k ∉ l.keys := by
  unfold get? keys
  rw [find?_eq_none, mem_map]
  simp

theorem get?_of_mem (h : a ∈ l.items) : l.get? (key a) = some a :=
  get?_eq_some.mpr ⟨h, rfl⟩

theorem mem_keys_iff : k ∈ l.keys ↔ ∃ a, l.get? k = some a := by
  unfold keys
  rw [mem_map]
  constructor
  . intro ⟨a, hmem, hkey⟩
    exact ⟨a, get?_eq_some.mpr ⟨hmem, hkey⟩⟩
  . intro ⟨a, h⟩
    exact ⟨a, get?_eq_some.mp h⟩

theorem eq_of_key_eq (ha : a ∈ l.items) (hb : b ∈ l.items) (h : key a = key b) : a = b := by
  have hget := get?_of_mem ha
  rw [h, get?_of_mem hb, Option.some.injEq] at hget
  exact hget.symm

theorem mem_erase : a ∈ (l.erase k).items ↔ a ∈ l.items ∧ key a ≠ k := by
  simp [erase]

theorem mem_put : b ∈ (l.put a).items ↔ b = a ∨ b ∈ l.items ∧ key b ≠ key a := by
  unfold put
  dsimp only
  split
  next hmem =>
    unfold replaced
    rw [mem_map]
    constructor
    . intro ⟨c, hc, heq⟩
      split at heq
      . exact Or.inl heq.symm
      next hne =>
        subst heq
        exact Or.inr ⟨hc, hne⟩
    . rintro (rfl | ⟨hb, hne⟩)
      . obtain ⟨c, hc, hkey⟩ := mem_map.mp hmem
        exact ⟨c, hc, if_pos hkey⟩
      . exact ⟨b, hb, if_neg hne⟩
  next hmem =>
    have hne : b ∈ l.items → key b ≠ key a := fun hb heq => hmem (heq ▸ mem_map_of_mem hb)
    rw [mem_append, mem_singleton]
    tauto

theorem get?_put (l : KeyedList key) (a : α) (k : κ)
    : (l.put a).get? k = if k = key a then some a else l.get? k := by
  refine Option.ext ?_
  intro b
  rw [get?_eq_some, mem_put]
  split
  . simp only [Option.some.injEq]
    grind
  . rw [get?_eq_some]
    grind

theorem get?_erase (l : KeyedList key) (k k' : κ)
    : (l.erase k).get? k' = if k' = k then none else l.get? k' := by
  refine Option.ext ?_
  intro b
  rw [get?_eq_some, mem_erase]
  split
  . grind
  . rw [get?_eq_some]
    grind

end Get

section Change

def change (l : KeyedList key) : Change κ α → KeyedList key
  | .put a => l.put a
  | .erase k => l.erase k

def changeAll (l : KeyedList key) (changes : List (Change κ α)) : KeyedList key :=
  changes.foldl change l

def revised (key : α → κ) (puts : List α) (b : α) : α :=
  (puts.find? (fun a => key a = key b)).getD b

theorem revised_of_not_mem {puts : List α} {b : α} (h : key b ∉ puts.map key)
    : revised key puts b = b := by
  unfold revised
  have hnone : puts.find? (fun a => key a = key b) = none := by
    rw [find?_eq_none]
    intro a ha heq
    apply h
    rw [← of_decide_eq_true heq]
    exact mem_map_of_mem ha
  rw [hnone]
  rfl

theorem revised_cons (a : α) (puts : List α) (b : α)
    : revised key (a :: puts) b = if key b = key a then a else revised key puts b := by
  unfold revised
  rw [find?_cons]
  split
  next heq => simp only [eq_comm.mp (of_decide_eq_true heq), if_true, Option.getD_some]
  next hne =>
    have : key b ≠ key a := fun h => of_decide_eq_false hne h.symm
    simp only [this, if_false]

theorem key_revised (puts : List α) (b : α) : key (revised key puts b) = key b := by
  unfold revised
  cases h : puts.find? (fun a => key a = key b) with
  | none => rfl
  | some a => simpa using find?_some h

theorem revised_mem {puts : List α} {b : α} (h : key b ∈ puts.map key)
    : revised key puts b ∈ puts := by
  unfold revised
  cases hfind : puts.find? (fun a => key a = key b) with
  | none =>
    obtain ⟨a, ha, heq⟩ := mem_map.mp h
    rw [find?_eq_none] at hfind
    exact absurd (decide_eq_true heq) (hfind a ha)
  | some a => exact mem_of_find?_eq_some hfind

variable {l : KeyedList key}

theorem items_put_of_mem (h : key a ∈ l.keys)
    : (l.put a).items = l.items.map (fun b => if key b = key a then a else b) := by
  unfold put
  exact if_pos h

theorem items_put_of_not_mem (h : key a ∉ l.keys) : (l.put a).items = l.items ++ [a] := by
  unfold put
  exact if_neg h

theorem keys_put_of_mem (h : key a ∈ l.keys) : (l.put a).keys = l.keys := by
  unfold keys
  rw [items_put_of_mem h]
  exact map_key_replaced a l.items

theorem keys_put_of_not_mem (h : key a ∉ l.keys) : (l.put a).keys = l.keys ++ [key a] := by
  unfold keys
  rw [items_put_of_not_mem h, map_append]
  rfl

theorem mem_keys_erase {k k' : κ} : k' ∈ (l.erase k).keys ↔ k' ∈ l.keys ∧ k' ≠ k := by
  unfold keys
  constructor
  . intro h
    obtain ⟨a, ha, rfl⟩ := mem_map.mp h
    rw [mem_erase] at ha
    exact ⟨mem_map_of_mem ha.1, ha.2⟩
  . intro ⟨hmem, hne⟩
    obtain ⟨a, ha, rfl⟩ := mem_map.mp hmem
    exact mem_map_of_mem (mem_erase.mpr ⟨ha, hne⟩)

theorem items_changeAll {changes : List (Change κ α)} (h : Change.Apart key changes)
    (l : KeyedList key)
    : (l.changeAll changes).items
        =
      (l.items.filter (fun b => key b ∉ Change.erasures changes)).map
          (revised key (Change.puts changes))
        ++ (Change.puts changes).filter (fun a => key a ∉ l.keys) := by
  induction changes generalizing l with
  | nil =>
    have hrevised : revised key ([] : List α) = id := by
      funext b
      rfl
    simp [changeAll, Change.puts, Change.erasures, hrevised]
  | cons change rest ih =>
    have hrest := ih h.of_cons
    cases change with
    | put a =>
      obtain ⟨hputs, herased⟩ := h.head_put
      have hself : revised key (Change.puts rest) a = a := revised_of_not_mem hputs
      have hkeep : ∀ b ∈ Change.puts rest, key b ≠ key a := by
        intro b hb heq
        apply hputs
        rw [← heq]
        exact mem_map_of_mem hb
      show ((l.put a).changeAll rest).items = _
      rw [hrest]
      show _ = (l.items.filter (fun b => key b ∉ Change.erasures rest)).map
          (revised key (a :: Change.puts rest))
        ++ (a :: Change.puts rest).filter (fun b => key b ∉ l.keys)
      by_cases hmem : key a ∈ l.keys
      . rw [items_put_of_mem hmem, keys_put_of_mem hmem, filter_cons_of_neg (by simpa using hmem)]
        congr 1
        rw [filter_map, map_map]
        have hfilter : l.items.filter
              ((fun b => decide (key b ∉ Change.erasures rest))
                ∘ fun b => if key b = key a then a else b)
            = l.items.filter (fun b => decide (key b ∉ Change.erasures rest)) := by
          apply filter_congr
          intro b _
          dsimp only [Function.comp_apply]
          split
          next heq => rw [heq]
          next => rfl
        rw [hfilter]
        apply map_congr_left
        intro b _
        dsimp only [Function.comp_apply]
        rw [revised_cons]
        split
        next => exact hself
        next => rfl
      . rw [items_put_of_not_mem hmem, keys_put_of_not_mem hmem,
          filter_cons_of_pos (by simpa using hmem), filter_append, map_append,
          filter_cons_of_pos (by simpa using herased), filter_nil, map_cons, hself,
          map_nil, append_assoc, singleton_append]
        congr 1
        . apply map_congr_left
          intro b hb
          rw [revised_cons, if_neg]
          intro heq
          apply hmem
          rw [← heq]
          exact mem_map_of_mem (mem_of_mem_filter hb)
        . congr 1
          apply filter_congr
          intro b hb
          simp [hkeep b hb]
    | erase k =>
      have hputs := h.head_erase
      show ((l.erase k).changeAll rest).items = _
      rw [hrest]
      show _ = (l.items.filter (fun b => key b ∉ k :: Change.erasures rest)).map
          (revised key (Change.puts rest))
        ++ (Change.puts rest).filter (fun b => key b ∉ l.keys)
      congr 1
      . unfold erase
        rw [filter_filter]
        congr 1
        apply filter_congr
        intro b _
        simp [Bool.and_comm]
      apply filter_congr
      intro b hb
      have hne : key b ≠ k := by
        intro heq
        apply hputs
        rw [← heq]
        exact mem_map_of_mem hb
      simp [mem_keys_erase, hne]

theorem mem_changeAll {changes : List (Change κ α)} (h : Change.Apart key changes)
    : a ∈ (l.changeAll changes).items
        ↔
      a ∈ Change.puts changes
        ∨ a ∈ l.items ∧ key a ∉ Change.erasures changes ∧ key a ∉ (Change.puts changes).map key := by
  rw [items_changeAll h, mem_append, mem_map, mem_filter]
  constructor
  . intro hmem
    cases hmem with
    | inl hmem =>
      obtain ⟨b, hb, heq⟩ := hmem
      rw [mem_filter, decide_eq_true_eq] at hb
      by_cases hput : key b ∈ (Change.puts changes).map key
      . have := revised_mem hput
        rw [heq] at this
        exact Or.inl this
      rw [revised_of_not_mem hput] at heq
      rw [heq] at hb hput
      exact Or.inr ⟨hb.1, hb.2, hput⟩
    | inr hmem => exact Or.inl hmem.1
  intro hmem
  cases hmem with
  | inl hput =>
    by_cases hkey : key a ∈ l.keys
    . obtain ⟨b, hb, heq⟩ := mem_map.mp hkey
      refine Or.inl ⟨b, ?_, ?_⟩
      . rw [mem_filter, decide_eq_true_eq]
        refine ⟨hb, ?_⟩
        intro herased
        apply h.disjoint _ herased
        rw [heq]
        exact mem_map_of_mem hput
      . have hmem : key b ∈ (Change.puts changes).map key := by
          rw [heq]
          exact mem_map_of_mem hput
        apply inj_on_of_nodup_map h.nodup (revised_mem hmem) hput
        exact (key_revised _ b).trans heq
    . exact Or.inr ⟨hput, by simpa using hkey⟩
  | inr hold =>
    refine Or.inl ⟨a, ?_, revised_of_not_mem hold.2.2⟩
    rw [mem_filter, decide_eq_true_eq]
    exact ⟨hold.1, hold.2.1⟩

end Change

end KeyedList
