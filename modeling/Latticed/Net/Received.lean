import Latticed.Engine.Samples
import Latticed.Net.Wire
import Mathlib.Data.Nat.ModEq

/-!
# Hidden states off the wire

A peer's hidden states come out of a derived `Deserialize`, which does not check that the buffer has the
size of the shape, as `Activation::new` does.  `to_tensor` is the only check that they meet.

* `toTensor_ok_iff` : `to_tensor` takes the states whose whole elements are as many as the shape has.
* `validation_agrees_iff` : when the two checks accept the same, and every byte is used.
-/

namespace Latticed

namespace Net

open Engine Rust Rust.Postcard

/-- `Tensor::from_vec` takes as many values as the shape has. -/
def CountsValues (C : Candle) : Prop :=
  ∀ values shape, (∃ x, C.fromVec values shape = .ok x) ↔
    values.length = shape.1 * shape.2.1 * shape.2.2

/-- The elements of the shape. -/
def elements (a : Activation) : ℕ := a.nTokens.toNat * a.hiddenDim.toNat

/-- The bytes of the shape. -/
def shapeBytes (a : Activation) : ℕ := elements a * a.dtype.size

/-- `to_tensor` takes the states. -/
def Converts (C : Candle) (a : Activation) : Prop := ∃ x, toTensor C a = .ok x

/-- `Activation::new` takes the same fields. -/
def Constructs (a : Activation) : Prop :=
  ∃ b, Activation.new a.nTokens a.hiddenDim a.dtype a.data = .ok b

/-- After the bytes of the shape there is part of another element. -/
def PartialElement (a : Activation) : Prop :=
  shapeBytes a < a.data.length ∧ a.data.length < shapeBytes a + a.dtype.size

/-- The buffer has the size of the shape in 64 bits only. -/
def Wraps (a : Activation) : Prop :=
  a.data.length ≠ shapeBytes a ∧ a.data.length ≡ shapeBytes a [MOD 2 ^ 64]

variable {C : Candle} {a : Activation}

instance : Decidable (PartialElement a) := inferInstanceAs (Decidable (_ ∧ _))

instance : Decidable (Wraps a) := inferInstanceAs (Decidable (_ ∧ _))

theorem size_pos (dtype : WireDtype) : 0 < dtype.size := by
  cases dtype <;> decide

/-- **What `to_tensor` takes**: it looks at whole elements only. -/
theorem toTensor_ok_iff (hC : CountsValues C) :
    Converts C a ↔ a.data.length / a.dtype.size = elements a := by
  have hcount (values : List F32) (hlen : values.length = a.data.length / a.dtype.size) :
      (∃ x, (C.fromVec values (1, a.nTokens.toNat, a.hiddenDim.toNat)).mapError EngineError.engine =
        .ok x) ↔ a.data.length / a.dtype.size = elements a := by
    simp only [mapError_eq_ok]
    rw [hC, hlen, Nat.one_mul, elements]
  unfold Converts toTensor
  cases hdtype : a.dtype with
  | f16 => exact hdtype ▸ hcount _ (by simp [chunksExact, hdtype, WireDtype.size])
  | f32 => exact hdtype ▸ hcount _ (by simp [chunksExact, hdtype, WireDtype.size])

/-- What `Activation::new` takes: the size is compared in 64 bits. -/
theorem new_ok_iff : Constructs a ↔ a.data.length ≡ shapeBytes a [MOD 2 ^ 64] := by
  have hwant : a.data.length.toUInt64 =
      a.nTokens.toUInt64 * a.hiddenDim.toUInt64 * a.dtype.size.toUInt64 ↔
      a.data.length ≡ shapeBytes a [MOD 2 ^ 64] := by
    rw [← UInt64.toNat_inj]
    simp [Nat.ModEq, shapeBytes, elements]
  unfold Constructs Activation.new
  dsimp only
  split_ifs with h
  · exact ⟨fun ⟨b, hb⟩ => (by cases hb), fun hmod => absurd (hwant.2 hmod) h⟩
  · exact ⟨fun _ => hwant.1 (not_not.1 h), fun _ => ⟨_, rfl⟩⟩

/-- Whole elements as many as the shape has: the bytes of the shape, and at most part of another. -/
theorem whole_elements_iff : a.data.length / a.dtype.size = elements a ↔
    a.data.length = shapeBytes a ∨ PartialElement a := by
  rw [Nat.div_eq_iff (size_pos a.dtype), PartialElement, shapeBytes]
  have := size_pos a.dtype
  omega

/-- **When the check of states off the wire is the constructor's**, and what is taken is used to the last
byte. -/
theorem validation_agrees_iff (C : Candle) (hC : CountsValues C) (a : Activation) :
    ((Converts C a ↔ Constructs a) ∧ (Converts C a ↔ a.data.length = shapeBytes a) ∧
      (Converts C a → (chunksExact a.dtype.size a.data).flatten = a.data)) ↔
    ¬ PartialElement a ∧ ¬ Wraps a := by
  have hconverts : Converts C a ↔ a.data.length = shapeBytes a ∨ PartialElement a :=
    (toTensor_ok_iff hC).trans whole_elements_iff
  constructor
  · rintro ⟨hnew, hsize, -⟩
    constructor
    · intro hextra
      have hexact := hsize.1 (hconverts.2 (Or.inr hextra))
      exact absurd hexact hextra.1.ne'
    · rintro ⟨hne, hmod⟩
      exact hne (hsize.1 (hnew.2 (new_ok_iff.2 hmod)))
  · rintro ⟨hextra, hwraps⟩
    have hsize : Converts C a ↔ a.data.length = shapeBytes a :=
      hconverts.trans (or_iff_left hextra)
    refine ⟨?_, hsize, fun hok => flatten_chunksExact (size_pos a.dtype) (hsize.1 hok)⟩
    rw [hsize, new_ok_iff]
    exact ⟨fun heq => heq ▸ Nat.ModEq.refl _, fun hmod => by_contra fun hne => hwraps ⟨hne, hmod⟩⟩

theorem countsValues_tally (layers : UInt32) : CountsValues (tally layers) := by
  intro values shape
  simp only [tally]
  split_ifs with h
  · exact iff_of_true ⟨values, rfl⟩ h
  · exact iff_of_false (fun ⟨x, hx⟩ => by cases hx) h

/-- Two numbers in full: the checks agree. -/
theorem validation_agrees_twoNumbers :
    let a : Activation := ⟨2, 1, .f16, [0, 60, 0, 64]⟩
    (Converts (tally 2) a ↔ Constructs a) ∧ (Converts (tally 2) a ↔ a.data.length = shapeBytes a) ∧
      (Converts (tally 2) a → (chunksExact a.dtype.size a.data).flatten = a.data) :=
  (validation_agrees_iff (tally 2) (countsValues_tally 2) _).2 ⟨by decide, by decide⟩

/-- One number and a byte too many. -/
def strayByte : Activation := ⟨1, 1, .f16, [0, 60, 7]⟩

/-- `2 ^ 62` numbers, which are none of the `2 ^ 64` bytes that they take. -/
def noBytes : Activation := ⟨2147483648, 2147483648, .f32, []⟩

/-- **The checks of states off the wire** take the stray byte, and the constructor takes `2 ^ 62` numbers
without a byte. -/
theorem validation_differs : (¬ ∀ C, CountsValues C → ∀ bytes pos a,
    Step.wire.decode bytes = .ok (.prefill pos (.hidden a)) →
      (Converts C a ↔ Constructs a) ∧ (Converts C a ↔ a.data.length = shapeBytes a)) ∧
    Constructs noBytes ∧ ¬ Converts (tally 2) noBytes := by
  have hC := countsValues_tally 2
  refine ⟨fun h => ?_, new_ok_iff.2 (by decide), fun hok => ?_⟩
  · have hdecode := Step.wire.decode_write (a := .prefill 0 (.hidden strayByte)) (by decide)
    have hok : Converts (tally 2) strayByte := (toTensor_ok_iff hC).2 (by decide)
    exact absurd ((h (tally 2) hC _ _ _ hdecode).2.1 hok) (by decide)
  · exact absurd ((toTensor_ok_iff hC).1 hok) (by decide)

end Net

end Latticed
