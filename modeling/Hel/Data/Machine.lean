import Mathlib.Logic.Relation

/-!
This module contains machines whose steps carry a label: what they reach by the steps that are
allowed, and the rule for what holds in everything reached.
-/

namespace Machine

variable {σ ι : Type}

inductive Reaches (Step : σ → ι → σ → Prop) (Allowed : σ → ι → Prop) (start : σ) : σ → Prop where
  | refl : Reaches Step Allowed start start
  | step {s t : σ} {label : ι} :
      Reaches Step Allowed start s → Allowed s label → Step s label t →
      Reaches Step Allowed start t

variable {Step : σ → ι → σ → Prop} {Allowed Allowed' : σ → ι → Prop} {start s t : σ}

theorem Reaches.single {label : ι} (hallowed : Allowed s label) (hstep : Step s label t)
    : Reaches Step Allowed s t :=
  .step .refl hallowed hstep

theorem Reaches.trans (h : Reaches Step Allowed start s) (h' : Reaches Step Allowed s t)
    : Reaches Step Allowed start t := by
  induction h' with
  | refl => exact h
  | step _ hallowed hstep ih => exact .step ih hallowed hstep

theorem Reaches.invariant {P : σ → Prop} (h : Reaches Step Allowed start s)
    (hstep : ∀ s label t, P s → Allowed s label → Step s label t → P t) (hstart : P start) : P s := by
  induction h with
  | refl => exact hstart
  | step _ hallowed hnext ih => exact hstep _ _ _ ih hallowed hnext

def follow (next : σ → ι → Option σ) (s : σ) : List ι → Option σ
  | [] => some s
  | label :: rest => (next s label).bind (follow next · rest)

theorem Reaches.of_follow_keeping {next : σ → ι → Option σ} {labels : List ι} {P : σ → Prop}
    (hkeep : ∀ s t, ∀ label ∈ labels, P s → next s label = some t → P t)
    (hallowed : ∀ s, ∀ label ∈ labels, P s → Allowed s label) (hstart : P s)
    (h : follow next s labels = some t)
    : Reaches (fun s label t => next s label = some t) Allowed s t := by
  induction labels generalizing s with
  | nil =>
    cases h
    exact .refl
  | cons label rest ih =>
    have ⟨u, hnext, hrest⟩ := Option.bind_eq_some_iff.mp h
    have hfirst : Reaches (fun s label t => next s label = some t) Allowed s u :=
      Reaches.single (hallowed s label List.mem_cons_self hstart) hnext
    apply hfirst.trans
    apply ih _ _ _ hrest
    . intro s t label hmem
      exact hkeep s t label (List.mem_cons_of_mem _ hmem)
    . intro s label hmem
      exact hallowed s label (List.mem_cons_of_mem _ hmem)
    . exact hkeep s u label List.mem_cons_self hstart hnext

theorem Reaches.of_follow {next : σ → ι → Option σ} {labels : List ι}
    (hallowed : ∀ s, ∀ label ∈ labels, Allowed s label) (h : follow next s labels = some t)
    : Reaches (fun s label t => next s label = some t) Allowed s t := by
  apply Reaches.of_follow_keeping (P := fun _ => True) _ _ trivial h
  . intros
    trivial
  . intro s label hmem _
    exact hallowed s label hmem

end Machine
