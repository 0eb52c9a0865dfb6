import Mathlib.Algebra.BigOperators.Group.List.Basic
import Mathlib.Tactic.Linarith

/-!
# Cutting a range into consecutive pieces

`Splits ps a z` says that the range `a..z` can be cut into `ps.length` consecutive non-empty
pieces, the `i`-th of which satisfies the `i`-th predicate of `ps`.  It is the recursion a
scheduler or a dynamic program works with; `splits_iff_sizes` is the same statement about the
list of the sizes of the pieces.
-/

namespace Latticed

namespace Contiguous

/-- `a..z` is cut into consecutive non-empty pieces `s..e`, each satisfying the predicate at its
place in the list. -/
def Splits : List (ℕ → ℕ → Prop) → ℕ → ℕ → Prop
  | [], a, z => a = z
  | p :: ps, a, z => ∃ b, a < b ∧ p a b ∧ Splits ps b z

variable {p : ℕ → ℕ → Prop} {ps : List (ℕ → ℕ → Prop)} {a z : ℕ}

@[simp] theorem splits_nil : Splits [] a z ↔ a = z := Iff.rfl

theorem splits_cons : Splits (p :: ps) a z ↔ ∃ b, a < b ∧ p a b ∧ Splits ps b z := Iff.rfl

/-- Every piece takes at least one position. -/
theorem Splits.add_length_le (h : Splits ps a z) : a + ps.length ≤ z := by
  induction ps generalizing a with
  | nil => exact (splits_nil.1 h).le
  | cons p ps ih =>
    obtain ⟨b, hab, -, hb⟩ := h
    have := ih hb
    rw [List.length_cons]
    omega

theorem Splits.le (h : Splits ps a z) : a ≤ z := by
  have := h.add_length_le
  omega

/-- `sizes` describes a cutting of `a..z`: one positive size per predicate, adding up to the
whole range, and each piece satisfies its predicate. -/
structure IsCutting (ps : List (ℕ → ℕ → Prop)) (a z : ℕ) (sizes : List ℕ) : Prop where
  length_eq : sizes.length = ps.length
  pos : ∀ n ∈ sizes, 1 ≤ n
  sum_eq : a + sizes.sum = z
  piece : ∀ (i : ℕ) (p : ℕ → ℕ → Prop), ps[i]? = some p →
    p (a + (sizes.take i).sum) (a + (sizes.take (i + 1)).sum)

theorem isCutting_nil : IsCutting [] a a [] :=
  ⟨rfl, by simp, by simp, fun i p h => by simp at h⟩

theorem IsCutting.cons {b : ℕ} {sizes : List ℕ} (hab : a < b) (hp : p a b)
    (h : IsCutting ps b z sizes) : IsCutting (p :: ps) a z ((b - a) :: sizes) where
  length_eq := by simp [h.length_eq]
  pos n hn := by
    rcases List.mem_cons.1 hn with rfl | hn
    · omega
    · exact h.pos n hn
  sum_eq := by
    have := h.sum_eq
    rw [List.sum_cons]
    omega
  piece i q hq := by
    have hb : a + (b - a) = b := by omega
    cases i with
    | zero =>
      obtain rfl : p = q := by simpa using hq
      simpa [hb] using hp
    | succ i =>
      have := h.piece i q (by simpa using hq)
      simpa [← Nat.add_assoc, hb] using this

theorem IsCutting.tail {n : ℕ} {sizes : List ℕ} (h : IsCutting (p :: ps) a z (n :: sizes)) :
    a < a + n ∧ p a (a + n) ∧ IsCutting ps (a + n) z sizes := by
  have hn := h.pos n List.mem_cons_self
  refine ⟨by omega, by simpa using h.piece 0 p rfl, ?_⟩
  refine ⟨by simpa using h.length_eq, fun m hm => h.pos m (List.mem_cons_of_mem _ hm), ?_, ?_⟩
  · have := h.sum_eq
    rw [List.sum_cons] at this
    omega
  · intro i q hq
    have := h.piece (i + 1) q (by simpa using hq)
    simpa [Nat.add_assoc] using this

/-- The recursive and the list form agree. -/
theorem splits_iff_sizes : Splits ps a z ↔ ∃ sizes, IsCutting ps a z sizes := by
  induction ps generalizing a with
  | nil =>
    constructor
    · rintro rfl
      exact ⟨[], isCutting_nil⟩
    · rintro ⟨sizes, h⟩
      have hs : sizes = [] := List.eq_nil_of_length_eq_zero h.length_eq
      simpa [hs] using h.sum_eq
  | cons p ps ih =>
    constructor
    · rintro ⟨b, hab, hp, hb⟩
      obtain ⟨sizes, hs⟩ := ih.1 hb
      exact ⟨_, hs.cons hab hp⟩
    · rintro ⟨sizes, h⟩
      cases sizes with
      | nil => cases h.length_eq
      | cons n sizes =>
        obtain ⟨hlt, hp, ht⟩ := h.tail
        exact ⟨a + n, hlt, hp, ih.2 ⟨sizes, ht⟩⟩

end Contiguous

end Latticed
