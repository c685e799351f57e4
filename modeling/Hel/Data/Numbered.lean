import Mathlib.Data.List.Nodup

/-!
This module contains lists whose elements carry consecutive numbers and the slices of such a list
between two numbers.
-/

variable {α : Type}

def Numbered (num : α → Nat) : Nat → List α → Prop
  | _, [] => True
  | n, x :: rest => num x = n + 1 ∧ Numbered num (n + 1) rest

def slice (num : α → Nat) (l : List α) (a b : Nat) : List α :=
  l.filter (fun x => a < num x && num x ≤ b)

section

variable {num : α → Nat} {n a a' b c : Nat} {l l' : List α} {x y : α}

theorem numbered_append
    : Numbered num n (l ++ l') ↔ Numbered num n l ∧ Numbered num (n + l.length) l' := by
  induction l generalizing n with
  | nil => simp [Numbered]
  | cons x rest ih =>
    simp only [List.cons_append, Numbered, ih, List.length_cons]
    rw [and_assoc]
    have : n + 1 + rest.length = n + (rest.length + 1) := by omega
    rw [this]

theorem numbered_iff : Numbered num n l ↔ l.map num = List.range' (n + 1) l.length := by
  induction l generalizing n with
  | nil => simp [Numbered]
  | cons x rest ih => simp [Numbered, ih, List.range'_succ]

theorem Numbered.bounds (h : Numbered num n l) (hx : x ∈ l) : n < num x ∧ num x ≤ n + l.length := by
  have hmem : num x ∈ l.map num := List.mem_map_of_mem hx
  rw [numbered_iff.mp h, List.mem_range'_1] at hmem
  omega

theorem Numbered.exists (h : Numbered num n l) (ha : n < a) (ha' : a ≤ n + l.length)
    : ∃ x ∈ l, num x = a := by
  rw [← List.mem_map, numbered_iff.mp h, List.mem_range'_1]
  omega

theorem Numbered.pairwise (h : Numbered num n l) : l.Pairwise (fun x y => num x < num y) := by
  rw [← List.pairwise_map, numbered_iff.mp h]
  exact List.pairwise_lt_range'

theorem Numbered.unique (h : Numbered num n l) (hx : x ∈ l) (hy : y ∈ l) (heq : num x = num y)
    : x = y := by
  apply List.inj_on_of_nodup_map _ hx hy heq
  rw [numbered_iff.mp h]
  exact List.nodup_range'

theorem nodup_of_pairwise (h : l.Pairwise (fun x y => num x < num y)) : l.Nodup :=
  h.imp (fun hlt heq => Nat.ne_of_lt hlt (congrArg num heq))

theorem Numbered.nodup (h : Numbered num n l) : l.Nodup := nodup_of_pairwise h.pairwise

theorem eq_of_mem_iff (num : α → Nat) (h : l.Pairwise (fun x y => num x < num y))
    (h' : l'.Pairwise (fun x y => num x < num y)) (hmem : ∀ x, x ∈ l ↔ x ∈ l') : l = l' := by
  refine List.Perm.eq_of_pairwise ?_ h h' ?_
  . intro x y _ _ hxy hyx
    omega
  . rw [List.perm_ext_iff_of_nodup (nodup_of_pairwise h) (nodup_of_pairwise h')]
    exact hmem

theorem Numbered.getLast? (h : Numbered num n l) (hx : l.getLast? = some x)
    : num x = n + l.length := by
  obtain ⟨rest, rfl⟩ := List.getLast?_eq_some_iff.mp hx
  rw [numbered_append] at h
  rw [h.2.1, List.length_append]
  simp
  omega

theorem mem_slice : x ∈ slice num l a b ↔ x ∈ l ∧ a < num x ∧ num x ≤ b := by
  simp [slice]

theorem slice_append : slice num (l ++ l') a b = slice num l a b ++ slice num l' a b := by
  simp [slice]

theorem slice_eq_nil (h : ∀ x ∈ l, num x ≤ a ∨ b < num x) : slice num l a b = [] := by
  unfold slice
  rw [List.filter_eq_nil_iff]
  intro x hx
  have := h x hx
  simp only [Bool.and_eq_true, decide_eq_true_eq]
  omega

theorem slice_of_le (h : b ≤ a) : slice num l a b = [] := by
  apply slice_eq_nil
  intro x _
  omega

theorem slice_eq_self (h : ∀ x ∈ l, a < num x ∧ num x ≤ b) : slice num l a b = l := by
  unfold slice
  rw [List.filter_eq_self]
  intro x hx
  have := h x hx
  simp only [Bool.and_eq_true, decide_eq_true_eq]
  omega

theorem slice_congr_left (hle : a ≤ a') (h : ∀ x ∈ l, a' < num x)
    : slice num l a b = slice num l a' b := by
  apply List.filter_congr
  intro x hx
  have := h x hx
  have hlow : decide (a < num x) = decide (a' < num x) := by
    rw [decide_eq_decide]
    omega
  rw [hlow]

theorem slice_cons_of_le (h : num x ≤ a) : slice num (x :: l) a b = slice num l a b := by
  apply List.filter_cons_of_neg
  simp only [Bool.and_eq_true, decide_eq_true_eq]
  omega

theorem slice_cons_of_mem (h : a < num x) (h' : num x ≤ b)
    : slice num (x :: l) a b = x :: slice num l a b := by
  apply List.filter_cons_of_pos
  simp [h, h']

theorem Numbered.pairwise_slice (h : Numbered num n l)
    : (slice num l a b).Pairwise (fun x y => num x < num y) := h.pairwise.filter _

theorem Numbered.map_slice (h : Numbered num n l) (hn : n ≤ a)
    : (slice num l a b).map num = List.range' (a + 1) (min b (n + l.length) - a) := by
  apply eq_of_mem_iff id
  . rw [List.pairwise_map]
    exact h.pairwise_slice
  . exact List.pairwise_lt_range'
  intro m
  rw [List.mem_map, List.mem_range'_1]
  constructor
  . rintro ⟨x, hx, rfl⟩
    rw [mem_slice] at hx
    have := h.bounds hx.1
    omega
  . intro hm
    obtain ⟨x, hx, rfl⟩ := h.exists (a := m) (by omega) (by omega)
    exact ⟨x, mem_slice.mpr ⟨hx, by omega⟩, rfl⟩

theorem Numbered.length_slice_eq (h : Numbered num n l) (hn : n ≤ a)
    : (slice num l a b).length = min b (n + l.length) - a := by
  rw [← List.length_map, h.map_slice hn, List.length_range']

theorem numbered_slice (h : Numbered num n l) (hn : n ≤ a) : Numbered num a (slice num l a b) := by
  rw [numbered_iff, h.map_slice hn, h.length_slice_eq hn]

theorem Numbered.length_slice (h : Numbered num n l) (hn : n ≤ a) (hb : b ≤ n + l.length)
    : (slice num l a b).length = b - a := by
  rw [h.length_slice_eq hn, Nat.min_eq_left hb]

theorem slice_append_slice (h : Numbered num n l) (hab : a ≤ b) (hbc : b ≤ c)
    : slice num l a b ++ slice num l b c = slice num l a c := by
  refine eq_of_mem_iff num (List.pairwise_append.mpr ⟨h.pairwise_slice, h.pairwise_slice, ?_⟩)
    h.pairwise_slice ?_
  . intro x hx y hy
    rw [mem_slice] at hx hy
    omega
  . intro x
    rw [List.mem_append, mem_slice, mem_slice, mem_slice, ← and_or_left, and_congr_right_iff]
    omega

theorem slice_snoc (h : Numbered num n l) (hx : x ∈ l) (hnum : num x = b + 1) (hab : a ≤ b)
    : slice num l a (b + 1) = slice num l a b ++ [x] := by
  have hlast : slice num l b (b + 1) = [x] := by
    apply eq_of_mem_iff num h.pairwise_slice (List.pairwise_singleton _ x)
    intro y
    rw [mem_slice, List.mem_singleton]
    constructor
    . intro hy
      exact h.unique hy.1 hx (by omega)
    . rintro rfl
      exact ⟨hx, by omega⟩
  rw [← slice_append_slice h hab (Nat.le_succ b), hlast]

end
