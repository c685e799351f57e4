/-!
This module contains programs over an explicit state that return, fail with a message or are cut off
by a crash, together with the rules to reason about them.
-/

inductive Outcome (α : Type) where
  | ok (value : α)
  | error (message : String)
  | crash
  deriving DecidableEq

def Outcome.message? {α : Type} : Outcome α → Option String
  | .error message => some message
  | _ => none

inductive Fate where
  | ok
  | error (message : String)
  | crash
  deriving DecidableEq

def Program (σ α : Type) := σ → Outcome α × σ

namespace Program

variable {σ α β : Type} {value : α} {message : String} {w : σ} {R : β → σ → Prop}

def pure (value : α) : Program σ α :=
  fun w => (.ok value, w)

def bind (x : Program σ α) (f : α → Program σ β) : Program σ β :=
  fun w =>
    match x w with
    | (.ok value, w') => f value w'
    | (.error message, w') => (.error message, w')
    | (.crash, w') => (.crash, w')

instance : Monad (Program σ) where
  pure := pure
  bind := bind

def fail (message : String) : Program σ α :=
  fun w => (.error message, w)

def get : Program σ σ :=
  fun w => (.ok w, w)

def modify (f : σ → σ) : Program σ Unit :=
  fun w => (.ok (), f w)

def crash : Program σ α :=
  fun w => (.crash, w)

def step : Fate → Program σ Unit
  | .ok => pure ()
  | .error message => fail message
  | .crash => crash

def ensure (b : Bool) (message : String) : Program σ Unit :=
  if b then pure () else fail message

def expect (value : Option α) (message : String) : Program σ α :=
  match value with
  | some value => pure value
  | none => fail message

def guarded (b : Bool) (x : Program σ Unit) : Program σ Unit :=
  if b then x else pure ()

def whenSome (value : Option α) (f : α → Program σ Unit) : Program σ Unit :=
  match value with
  | some value => f value
  | none => pure ()

def attempt (x : Program σ α) : Program σ (Except String α) :=
  fun w =>
    match x w with
    | (.ok value, w') => (.ok (.ok value), w')
    | (.error message, w') => (.ok (.error message), w')
    | (.crash, w') => (.crash, w')

def context (message : String) (x : Program σ α) : Program σ α :=
  fun w =>
    match x w with
    | (.error cause, w') => (.error s!"{message}: {cause}", w')
    | result => result

def ofExcept : Except String α → Program σ α
  | .ok value => pure value
  | .error message => fail message

/--
A result satisfies `Q` if the program returned, `E` if it failed and `C` if it crashed.
-/
def Lands (E C : σ → Prop) (Q : α → σ → Prop) : Outcome α × σ → Prop
  | (.ok value, w) => Q value w
  | (.error _, w) => E w
  | (.crash, w) => C w

variable {E C : σ → Prop}

theorem bind_apply (x : Program σ α) (f : α → Program σ β) (w : σ)
    : (x >>= f) w
        = match x w with
          | (.ok value, w') => f value w'
          | (.error message, w') => (.error message, w')
          | (.crash, w') => (.crash, w') := rfl

section Run

variable {x : Program σ α} {f : α → Program σ β} {w w' : σ}

theorem bind_of_ok (h : x w = (.ok value, w')) : (x >>= f) w = f value w' := by
  rw [bind_apply, h]

@[simp]
theorem bind_bind {γ : Type} {g : β → Program σ γ}
    : ((x >>= f) >>= g) w = (x >>= fun value => f value >>= g) w := by
  simp only [bind_apply]
  match x w with
  | (.ok value, w') => rfl
  | (.error message, w') => rfl
  | (.crash, w') => rfl

@[simp]
theorem get_bind {f : σ → Program σ β} : (get >>= f) w = f w w := rfl

@[simp]
theorem modify_bind {g : σ → σ} {f : Unit → Program σ β} : (modify g >>= f) w = f () (g w) := rfl

@[simp]
theorem modify_apply {g : σ → σ} : modify g w = (.ok (), g w) := rfl

@[simp]
theorem pure_apply : (Pure.pure value : Program σ α) w = (.ok value, w) := rfl

@[simp]
theorem step_ok : (step .ok : Program σ Unit) w = (.ok (), w) := rfl

@[simp]
theorem ensure_true : (ensure true message : Program σ Unit) w = (.ok (), w) := rfl

@[simp]
theorem expect_some : (expect (some value) message : Program σ α) w = (.ok value, w) := rfl

@[simp]
theorem pure_bind : ((Pure.pure value : Program σ α) >>= f) w = f value w := rfl

@[simp]
theorem step_ok_bind {f : Unit → Program σ β} : (step .ok >>= f) w = f () w := rfl

@[simp]
theorem ensure_true_bind {f : Unit → Program σ β} : (ensure true message >>= f) w = f () w := rfl

@[simp]
theorem ensure_false_bind {f : Unit → Program σ β}
    : (ensure false message >>= f) w = (.error message, w) := rfl

@[simp]
theorem expect_some_bind : (expect (some value) message >>= f) w = f value w := rfl

@[simp]
theorem ofExcept_ok_bind : (ofExcept (.ok value) >>= f) w = f value w := rfl

@[simp]
theorem guarded_true {x : Program σ Unit} : guarded true x = x := rfl

@[simp]
theorem guarded_false_bind {x : Program σ Unit} {f : Unit → Program σ β}
    : (guarded false x >>= f) w = f () w := rfl

@[simp]
theorem whenSome_none_bind {g : α → Program σ Unit} {f : Unit → Program σ β}
    : (whenSome none g >>= f) w = f () w := rfl

@[simp]
theorem guarded_false {x : Program σ Unit} : guarded false x w = (.ok (), w) := rfl

@[simp]
theorem whenSome_some {f : α → Program σ Unit} : whenSome (some value) f = f value := rfl

@[simp]
theorem whenSome_none {f : α → Program σ Unit} : whenSome none f w = (.ok (), w) := rfl

theorem context_of_ok (h : x w = (.ok value, w')) : context message x w = (.ok value, w') := by
  unfold context
  rw [h]

theorem context_ok_iff : (context message x w).1 = .ok value ↔ (x w).1 = .ok value := by
  unfold context
  match x w with
  | (.ok _, w') => rfl
  | (.error cause, w') => simp
  | (.crash, w') => rfl

theorem attempt_of_ok (h : x w = (.ok value, w')) : attempt x w = (.ok (.ok value), w') := by
  unfold attempt
  rw [h]

theorem attempt_of_error (h : x w = (.error message, w'))
    : attempt x w = (.ok (.error message), w') := by
  unfold attempt
  rw [h]

end Run

variable {Q : α → σ → Prop} {r : Outcome α × σ}

theorem Lands.mono {Q' : α → σ → Prop} {E' C' : σ → Prop}
    (h : Lands E C Q r) (hq : ∀ value w, Q value w → Q' value w) (he : ∀ w, E w → E' w)
    (hc : ∀ w, C w → C' w) : Lands E' C' Q' r := by
  match r with
  | (.ok value, w) => exact hq value w h
  | (.error _, w) => exact he w h
  | (.crash, w) => exact hc w h

variable {f : α → Program σ β}

theorem lands_bind {x : Program σ α}
    (hx : Lands E C Q (x w)) (hf : ∀ value w', Q value w' → Lands E C R (f value w'))
    : Lands E C R ((x >>= f) w) := by
  rw [bind_apply]
  generalize x w = r at hx
  match r with
  | (.ok value, w') => exact hf value w' hx
  | (.error _, w') => exact hx
  | (.crash, w') => exact hx

theorem lands_get_bind {f : σ → Program σ β} (h : Lands E C R (f w w))
    : Lands E C R ((get >>= f) w) := h

theorem lands_modify_bind {g : σ → σ} {f : Unit → Program σ β} (h : Lands E C R (f () (g w)))
    : Lands E C R ((modify g >>= f) w) := h

theorem lands_pure_bind (h : Lands E C R (f value w)) : Lands E C R ((Pure.pure value >>= f) w) := h

theorem lands_ofExcept_bind {r : Except String α} (he : ∀ message, r = .error message → E w)
    (hf : ∀ value, r = .ok value → Lands E C R (f value w))
    : Lands E C R ((ofExcept r >>= f) w) := by
  cases r with
  | error message => exact he message rfl
  | ok value => exact hf value rfl

theorem Lands.cases (h : Lands E E Q r) : (∃ value, r.1 = .ok value ∧ Q value r.2) ∨ E r.2 := by
  match r with
  | (.ok value, w) => exact .inl ⟨value, rfl, h⟩
  | (.error _, w) => exact .inr h
  | (.crash, w) => exact .inr h

end Program
