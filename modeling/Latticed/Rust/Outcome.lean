import Mathlib.Data.List.Basic

/-!
# Results of Rust functions

A call of a Rust function returns `Ok`, returns `Err`, or panics.  `Outcome` keeps the three
apart, so that "the `expect` is unreachable" and "the handler does not panic" are statements about
the value of a definition.
-/

namespace Latticed

namespace Rust

/-- What a call of a Rust function comes to. -/
inductive Outcome (ε α : Type*) where
  /-- `Ok(a)`. -/
  | ok (a : α)
  /-- `Err(e)`. -/
  | err (e : ε)
  /-- A panic with its message. -/
  | panic (message : String)
  deriving DecidableEq, Repr

namespace Outcome

variable {ε α β : Type*}

/-- The `?` operator: go on with the value of an `Ok`, hand anything else to the caller. -/
def andThen : Outcome ε α → (α → Outcome ε β) → Outcome ε β
  | ok a, f => f a
  | err e, _ => err e
  | panic m, _ => panic m

/-- A `Result` that was computed without a panic. -/
def ofExcept : Except ε α → Outcome ε α
  | .ok a => ok a
  | .error e => err e

/-- `Result::map_err`. -/
def mapErr {ε' : Type*} (f : ε → ε') : Outcome ε α → Outcome ε' α
  | ok a => ok a
  | err e => err (f e)
  | panic m => panic m

/-- `Option::expect`. -/
def expect (message : String) : Option α → Outcome ε α
  | some a => ok a
  | none => panic message

@[simp] theorem andThen_ok (a : α) (f : α → Outcome ε β) : (ok a).andThen f = f a := rfl
@[simp] theorem andThen_err (e : ε) (f : α → Outcome ε β) : (err e).andThen f = err e := rfl
@[simp] theorem andThen_panic (m : String) (f : α → Outcome ε β) :
    (panic m : Outcome ε α).andThen f = panic m := rfl
@[simp] theorem expect_some (m : String) (a : α) : expect m (some a) = (ok a : Outcome ε α) := rfl
@[simp] theorem expect_none (m : String) : expect m none = (panic m : Outcome ε α) := rfl

theorem andThen_eq_ok {x : Outcome ε α} {f : α → Outcome ε β} {b : β} :
    x.andThen f = ok b ↔ ∃ a, x = ok a ∧ f a = ok b := by
  cases x <;> simp

/-- `?` on an `Ok`. -/
theorem ofExcept_andThen (a : α) (f : α → Outcome ε β) : (ofExcept (.ok a)).andThen f = f a := rfl

theorem ofExcept_eq_ok {x : Except ε α} {a : α} : ofExcept x = ok a ↔ x = .ok a := by
  cases x <;> simp [ofExcept]

theorem mapErr_eq_ok {ε' : Type*} {f : ε → ε'} {x : Outcome ε α} {a : α} :
    x.mapErr f = ok a ↔ x = ok a := by
  cases x <;> simp [mapErr]

theorem ofExcept_ne_panic {x : Except ε α} {why : String} : ofExcept x ≠ panic why := by
  cases x <;> simp [ofExcept]

theorem mapErr_eq_panic {ε' : Type*} {f : ε → ε'} {x : Outcome ε α} {why : String} :
    x.mapErr f = panic why ↔ x = panic why := by
  cases x <;> simp [mapErr]

/-- A panic is that of the first part, or that of the second one after the first. -/
theorem andThen_eq_panic {x : Outcome ε α} {f : α → Outcome ε β} {why : String} :
    x.andThen f = panic why ↔ x = panic why ∨ ∃ a, x = ok a ∧ f a = panic why := by
  cases x <;> simp

theorem ofExcept_bind (x : Except ε α) (f : α → Except ε β) :
    ofExcept (x.bind f) = (ofExcept x).andThen fun a => ofExcept (f a) := by
  cases x <;> rfl

theorem ofExcept_mapError {ε' : Type*} (f : ε → ε') (x : Except ε α) :
    ofExcept (x.mapError f) = (ofExcept x).mapErr f := by
  cases x <;> rfl

end Outcome

/-- `?` on results that cannot panic. -/
theorem bind_eq_ok.{u, v} {ε : Type u} {α β : Type v} {x : Except ε α} {f : α → Except ε β} {b : β} :
    (x >>= f) = .ok b ↔ ∃ a, x = .ok a ∧ f a = .ok b := by
  cases x with
  | error e => exact ⟨fun h => (by cases h), fun ⟨_, h, _⟩ => (by cases h)⟩
  | ok a => exact ⟨fun h => ⟨a, rfl, h⟩, fun ⟨_, ha, h⟩ => (by cases ha; exact h)⟩

/-- `Result::map_err` keeps an `Ok`. -/
theorem mapError_eq_ok {ε ε' α : Type*} {f : ε → ε'} {x : Except ε α} {a : α} :
    x.mapError f = .ok a ↔ x = .ok a := by
  cases x <;> simp [Except.mapError]

theorem mapError_mapError {ε ε' ε'' α : Type*} (f : ε → ε') (g : ε' → ε'') (x : Except ε α) :
    (x.mapError f).mapError g = x.mapError fun e => g (f e) := by
  cases x <;> rfl

/-- `Result::map` is `Ok` only of an `Ok`. -/
theorem map_eq_ok {ε α β : Type*} {f : α → β} {x : Except ε α} {b : β} :
    x.map f = .ok b ↔ ∃ a, x = .ok a ∧ f a = b := by
  cases x <;> simp [Except.map]

/-- `Result::and_then` is `Ok` only of an `Ok`. -/
theorem exceptBind_eq_ok {ε α β : Type*} {x : Except ε α} {f : α → Except ε β} {b : β} :
    x.bind f = .ok b ↔ ∃ a, x = .ok a ∧ f a = .ok b := by
  cases x <;> simp [Except.bind]

end Rust

end Latticed
