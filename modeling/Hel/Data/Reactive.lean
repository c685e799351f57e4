import Mathlib.Tactic.Tauto

/-!
This module contains machines that answer every input with a list of outputs, and the rules to
reason about their runs.
-/

namespace Reactive

variable {σ ι ω : Type}

def run (react : σ → ι → σ × List ω) (s : σ) : List ι → σ × List ω
  | [] => (s, [])
  | input :: rest =>
    ((run react (react s input).1 rest).1,
     (react s input).2 ++ (run react (react s input).1 rest).2)

def Along (react : σ → ι → σ × List ω) (P : σ → ι → Prop) (s : σ) : List ι → Prop
  | [] => True
  | input :: rest => P s input ∧ Along react P (react s input).1 rest

def decideAlong (react : σ → ι → σ × List ω) (P : σ → ι → Prop)
    [∀ s input, Decidable (P s input)] (s : σ)
    : (inputs : List ι) → Decidable (Along react P s inputs)
  | [] => isTrue trivial
  | input :: rest =>
    have := decideAlong react P (react s input).1 rest
    inferInstanceAs (Decidable (P s input ∧ Along react P (react s input).1 rest))

instance (react : σ → ι → σ × List ω) (P : σ → ι → Prop) [∀ s input, Decidable (P s input)]
    (s : σ) (inputs : List ι) : Decidable (Along react P s inputs) :=
  decideAlong react P s inputs

variable {react : σ → ι → σ × List ω} {P : σ → ι → Prop}

theorem run_concat (s : σ) (inputs : List ι) (input : ι)
    : run react s (inputs ++ [input])
        = ((react (run react s inputs).1 input).1,
           (run react s inputs).2 ++ (react (run react s inputs).1 input).2) := by
  induction inputs generalizing s with
  | nil => simp [run]
  | cons first rest ih => simp [run, ih]

theorem Along.state_invariant {I : σ → Prop} {s : σ} {inputs : List ι}
    (halong : Along react P s inputs) (hstart : I s)
    (hstep : ∀ s input, I s → P s input → I (react s input).1) : I (run react s inputs).1 := by
  induction inputs generalizing s with
  | nil => simpa [run] using hstart
  | cons input rest ih =>
    simp only [run]
    apply ih halong.2
    apply hstep s input hstart halong.1

end Reactive
