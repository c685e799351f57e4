import Hel.Data.BTreeMap

/-!
This module contains a directory of a crash-prone file system. Operations on names take effect at
once for running programs but are durable only after the directory was synced. A crash keeps an
arbitrary selection of the operations since the last sync, in their order.
-/

inductive DirectoryOp (ν β : Type) where
  | create (name : ν) (content : β)
  | rename (source target : ν)
  | unlink (name : ν)
  deriving DecidableEq

namespace DirectoryOp

variable {ν β : Type} [LinearOrder ν]

def apply (files : BTreeMap ν β) : DirectoryOp ν β → BTreeMap ν β
  | .create name content => files.insert name content
  | .rename source target =>
    match files.get? source with
    | some content => (files.remove source).insert target content
    | none => files
  | .unlink name => files.remove name

theorem get?_apply_create (files : BTreeMap ν β) (name name' : ν) (content : β)
    : (apply files (.create name content)).get? name'
        = if name' = name then some content else files.get? name' := by
  unfold apply
  rw [BTreeMap.get?_insert]

theorem get?_apply_unlink (files : BTreeMap ν β) (name name' : ν)
    : (apply files (.unlink name)).get? name' = if name' = name then none else files.get? name' := by
  unfold apply
  rw [BTreeMap.get?_remove]

theorem get?_apply_rename (files : BTreeMap ν β) (source target name : ν)
    : (apply files (.rename source target)).get? name
        = if (files.get? source).isNone then files.get? name
          else if name = target then files.get? source
          else if name = source then none
          else files.get? name := by
  simp only [apply]
  split
  next content h =>
    rw [BTreeMap.get?_insert, BTreeMap.get?_remove]
    simp [h]
  next h => simp [h]

end DirectoryOp

structure Directory (ν β : Type) [LinearOrder ν] where
  stable : BTreeMap ν β
  pending : List (DirectoryOp ν β)

namespace Directory

variable {ν β : Type} [LinearOrder ν]

def empty : Directory ν β where
  stable := BTreeMap.empty
  pending := []

variable (d : Directory ν β)

def files : BTreeMap ν β :=
  d.pending.foldl DirectoryOp.apply d.stable

def read? (name : ν) : Option β :=
  d.files.get? name

def perform (op : DirectoryOp ν β) : Directory ν β :=
  { d with pending := d.pending ++ [op] }

def sync : Directory ν β where
  stable := d.files
  pending := []

def update (name : ν) (f : β → β) : Directory ν β :=
  { d with stable := d.stable.modify name f }

def write (name : ν) (content : β) : Directory ν β :=
  if d.stable.contains name then
    d.update name (fun _ => content)
  else
    d.perform (.create name content)

@[simp]
theorem files_of_pending_nil {d : Directory ν β} (h : d.pending = []) : d.files = d.stable := by
  simp [files, h]

@[simp]
theorem pending_sync (d : Directory ν β) : d.sync.pending = [] := rfl

@[simp]
theorem files_sync (d : Directory ν β) : d.sync.files = d.files := rfl

@[simp]
theorem pending_perform (d : Directory ν β) (op : DirectoryOp ν β)
    : (d.perform op).pending = d.pending ++ [op] := rfl

@[simp]
theorem files_perform (d : Directory ν β) (op : DirectoryOp ν β)
    : (d.perform op).files = op.apply d.files := by
  simp [files, perform]

def Survives (P : BTreeMap ν β → Prop) (d : Directory ν β) : Prop :=
  ∀ kept : List (DirectoryOp ν β), kept.Sublist d.pending → P (kept.foldl DirectoryOp.apply d.stable)

section Survives

variable {P P' : BTreeMap ν β → Prop} {d : Directory ν β}

theorem Survives.files (h : Survives P d) : P d.files :=
  h d.pending (List.Sublist.refl _)

theorem Survives.mono (h : Survives P d) (himp : ∀ files, P files → P' files) : Survives P' d :=
  fun kept hkept => himp _ (h kept hkept)

theorem survives_of_pending_nil (hpending : d.pending = []) (h : P d.stable) : Survives P d := by
  intro kept hkept
  rw [hpending, List.sublist_nil] at hkept
  rw [hkept]
  exact h

variable {op : DirectoryOp ν β}

theorem survives_perform (h : Survives P d)
    (hlost : ∀ files, P files → P' files) (hkept : ∀ files, P files → P' (op.apply files))
    : Survives P' (d.perform op) := by
  intro kept hsub
  rw [pending_perform, List.sublist_append_iff] at hsub
  obtain ⟨before, last, rfl, hbefore, hlast⟩ := hsub
  rw [List.foldl_append]
  rw [List.sublist_cons_iff, List.sublist_nil] at hlast
  rcases hlast with rfl | ⟨rest, rfl, hrest⟩
  . exact hlost _ (h before hbefore)
  . rw [List.sublist_nil.mp hrest]
    exact hkept _ (h before hbefore)

theorem survives_perform_of_pending_nil (hpending : d.pending = [])
    (hlost : P d.stable) (hkept : P (op.apply d.stable)) : Survives P (d.perform op) := by
  have hstable : Survives (· = d.stable) d := survives_of_pending_nil hpending rfl
  refine survives_perform hstable ?_ ?_
  . rintro _ rfl
    exact hlost
  . rintro _ rfl
    exact hkept

variable {name : ν}

theorem survives_write (content : β) (hpending : d.pending = []) (h : P d.stable)
    (hcongr : ∀ files files', P files →
      (∀ name', name' ≠ name → files'.get? name' = files.get? name') → P files')
    : Survives (fun files => P files ∧ (files.get? name = none ∨ files.get? name = some content))
        (d.write name content) := by
  unfold write
  split
  next hname =>
    refine survives_of_pending_nil (d := d.update name (fun _ => content)) hpending
      ⟨hcongr _ _ h ?_, Or.inr ?_⟩
    . intro name' hne
      simp only [update, BTreeMap.get?_modify, hne, ↓reduceIte]
    simp only [update, BTreeMap.get?_modify, ↓reduceIte]
    rw [BTreeMap.contains] at hname
    obtain ⟨old, hold⟩ := Option.isSome_iff_exists.mp hname
    rw [hold, Option.map_some]
  next hname =>
    have hnone : d.stable.get? name = none := by
      rw [BTreeMap.contains] at hname
      simpa using hname
    refine survives_perform_of_pending_nil hpending ⟨h, Or.inl hnone⟩
      ⟨hcongr _ _ h ?_, Or.inr (BTreeMap.get?_insert_self _ _ _)⟩
    intro name' hne
    exact BTreeMap.get?_insert_of_ne _ _ hne

theorem survives_publish {temporary : ν} {content : β} (h : Survives
      (fun files => P files ∧ (files.get? temporary = none ∨ files.get? temporary = some content)) d)
    (hrename : ∀ files, P files → files.get? temporary = some content →
      P (DirectoryOp.apply files (.rename temporary name)))
    : Survives P (d.perform (.rename temporary name)) := by
  refine survives_perform h (fun _ hfiles => hfiles.1) ?_
  rintro files ⟨hP, hnone | hsome⟩
  . simp only [DirectoryOp.apply, hnone]
    exact hP
  . exact hrename _ hP hsome

theorem files_write {content : β} (hpending : d.pending = []) (name' : ν)
    : (d.write name content).files.get? name'
        = if name' = name then some content else d.files.get? name' := by
  unfold write
  split
  next hname =>
    rw [files_of_pending_nil (d := d.update name _) hpending, files_of_pending_nil hpending]
    simp only [update, BTreeMap.get?_modify]
    split
    next heq =>
      rw [BTreeMap.contains] at hname
      obtain ⟨old, hold⟩ := Option.isSome_iff_exists.mp hname
      rw [heq, hold, Option.map_some]
    next => rfl
  next => rw [files_perform, DirectoryOp.get?_apply_create]

theorem files_publish {temporary : ν} {content : β} (hpending : d.pending = []) (name' : ν)
    : ((d.write temporary content).perform (.rename temporary name)).files.get? name'
        = if name' = name then some content
          else if name' = temporary then none
          else d.files.get? name' := by
  rw [files_perform, DirectoryOp.get?_apply_rename]
  simp only [files_write hpending, ↓reduceIte]
  simp only [Option.isNone_some, Bool.false_eq_true, ↓reduceIte]
  split
  . rfl
  split
  . rfl
  . rfl

end Survives

end Directory
