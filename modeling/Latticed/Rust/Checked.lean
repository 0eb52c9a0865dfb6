import Latticed.Rust.Text
import Mathlib.Algebra.BigOperators.Group.List.Basic

/-!
# Checked arithmetic

`checked_add` and `checked_mul` of `u64`, and the product of several numbers.  What they return is the
exact result.

* `checkedAdd_eq_some`, `checkedMul_eq_some` : there is a result iff the exact one fits, and it is that.
* `checkedProduct_toNat` : a product that does not overflow on the way is the product.
* `checkedProduct_isSome` : it does not overflow iff the products on the way fit.
-/

namespace Latticed

namespace Rust

/-- `u64::checked_add`. -/
def checkedAdd (a b : UInt64) : Option UInt64 :=
  if a.toNat + b.toNat < 2 ^ 64 then some (a + b) else none

/-- `u64::checked_mul`. -/
def checkedMul (a b : UInt64) : Option UInt64 :=
  if a.toNat * b.toNat < 2 ^ 64 then some (a * b) else none

/-- The product of these numbers, one after the other. -/
def checkedProduct (ds : List UInt64) : Option UInt64 := ds.foldlM checkedMul 1

variable {a b c : UInt64}

theorem checkedAdd_eq_some : checkedAdd a b = some c ↔ c.toNat = a.toNat + b.toNat := by
  have hc := c.toNat_lt
  unfold checkedAdd
  split_ifs with hlt
  · rw [Option.some.injEq, ← UInt64.toNat_inj, UInt64.toNat_add, Nat.mod_eq_of_lt hlt]
    exact eq_comm
  · exact ⟨fun h => (by cases h), fun h => absurd hc (by omega)⟩

theorem checkedMul_eq_some : checkedMul a b = some c ↔ c.toNat = a.toNat * b.toNat := by
  have hc := c.toNat_lt
  unfold checkedMul
  split_ifs with hlt
  · rw [Option.some.injEq, ← UInt64.toNat_inj, UInt64.toNat_mul, Nat.mod_eq_of_lt hlt]
    exact eq_comm
  · exact ⟨fun h => (by cases h), fun h => absurd hc (by omega)⟩

theorem foldlM_checkedMul {ds : List UInt64} (h : ds.foldlM checkedMul a = some c) :
    c.toNat = a.toNat * (ds.map UInt64.toNat).prod := by
  induction ds generalizing a with
  | nil =>
    obtain rfl := Option.some.inj h
    simp
  | cons d ds ih =>
    obtain ⟨b, hb, hc⟩ := Option.bind_eq_some_iff.1 h
    rw [ih hc, checkedMul_eq_some.1 hb, List.map_cons, List.prod_cons, Nat.mul_assoc]

/-- **A product that is found is the product.** -/
theorem checkedProduct_toNat {ds : List UInt64} (h : checkedProduct ds = some c) :
    c.toNat = (ds.map UInt64.toNat).prod := by
  have := foldlM_checkedMul h
  rwa [UInt64.toNat_one, Nat.one_mul] at this

/-- Every product on the way fits in 64 bits. -/
def ProductsFit : ℕ → List ℕ → Prop
  | _, [] => True
  | a, d :: ds => a * d < 2 ^ 64 ∧ ProductsFit (a * d) ds

theorem foldlM_checkedMul_isSome {ds : List UInt64} :
    (∃ c, ds.foldlM checkedMul a = some c) ↔ ProductsFit a.toNat (ds.map UInt64.toNat) := by
  induction ds generalizing a with
  | nil => exact iff_of_true ⟨a, rfl⟩ trivial
  | cons d ds ih =>
    rw [List.map_cons, ProductsFit]
    constructor
    · rintro ⟨c, hc⟩
      obtain ⟨b, hb, hc⟩ := Option.bind_eq_some_iff.1 hc
      have hmul := checkedMul_eq_some.1 hb
      rw [← hmul]
      exact ⟨b.toNat_lt, ih.1 ⟨c, hc⟩⟩
    · rintro ⟨hfit, hrest⟩
      have hmul : (a * d).toNat = a.toNat * d.toNat := by
        rw [UInt64.toNat_mul, Nat.mod_eq_of_lt hfit]
      rw [← hmul] at hrest
      obtain ⟨c, hc⟩ := ih.2 hrest
      exact ⟨c, Option.bind_eq_some_iff.2 ⟨a * d, checkedMul_eq_some.2 hmul, hc⟩⟩

/-- **When a product is found.** -/
theorem checkedProduct_isSome {ds : List UInt64} :
    (∃ c, checkedProduct ds = some c) ↔ ProductsFit 1 (ds.map UInt64.toNat) :=
  foldlM_checkedMul_isSome

/-- A wrapping product is the product where it fits. -/
theorem foldl_mul_toNat (ds : List UInt64) (a : UInt64) :
    (ds.foldl (· * ·) a).toNat = a.toNat * (ds.map UInt64.toNat).prod % 2 ^ 64 := by
  induction ds generalizing a with
  | nil => simp [Nat.mod_eq_of_lt a.toNat_lt]
  | cons d ds ih =>
    rw [List.foldl_cons, ih, UInt64.toNat_mul, Nat.mod_mul_mod, List.map_cons, List.prod_cons,
      Nat.mul_assoc]

/-- A wrapping sum is the sum where it fits. -/
theorem foldl_add_toNat (ns : List UInt64) (a : UInt64) :
    (ns.foldl (· + ·) a).toNat = (a.toNat + (ns.map UInt64.toNat).sum) % 2 ^ 64 := by
  induction ns generalizing a with
  | nil => simp [Nat.mod_eq_of_lt a.toNat_lt]
  | cons n ns ih =>
    rw [List.foldl_cons, ih, UInt64.toNat_add, Nat.mod_add_mod, List.map_cons, List.sum_cons,
      Nat.add_assoc]

end Rust

end Latticed
