import Latticed.Daemon.Plan
import Latticed.Rust.Checked

/-!
# The size of the KV cache

`kv_bytes` multiplies figures of the header and a ceiling that a peer asked for in a `u64`.  The planner
checks the dimensions of the model first, and multiplies the same figures in a `u128`.

* `kvBytesChecked_ok_iff` : when `kv_bytes` does not overflow.
* `kv_figures_iff` : when it has no fault and says what the planner says.
-/

namespace Latticed

namespace Daemon

open Engine Rust

/-- `kv_bytes` in a build that checks for overflow. -/
def kvBytesChecked (f : ModelFacts) (layers maxContext : UInt32) (dtype : KvDtype) :
    Outcome EngineError UInt64 :=
  f.headDim.andThen fun headDim =>
    Outcome.expect "attempt to multiply with overflow" (checkedProduct [2, f.kvHeads.toUInt64,
      UInt64.ofNat headDim, maxContext.toUInt64, layers.toUInt64, UInt64.ofNat dtype.size])

/-- `kv_bytes` does not divide by zero, and no product leaves the `u64`. -/
def Faultless (f : ModelFacts) (layers maxContext : UInt32) : Prop :=
  (∃ headDim, f.headDim = .ok headDim) ∧ ∃ bytes, kvBytesChecked f layers maxContext .f16 = .ok bytes

/-- Where `build` supports the dimensions, `kv_bytes` is the charge of `build` for each layer. -/
def AgreesWithPlan (f : ModelFacts) (layers maxContext : UInt32) : Prop :=
  ∀ inventory, inventory.facts = f → unsupported inventory = false →
    ∃ bytes, f.kvBytes layers maxContext .f16 = .ok bytes ∧
      bytes.toNat = layers.toNat * kvCharge f maxContext

/-- `per_token`, with no limit to its size. -/
def perToken (f : ModelFacts) : ℕ := 2 * f.kvHeads.toNat * (f.hiddenDim.toNat / f.heads.toNat)

/-- There are heads, and the bytes of one layer and of all layers fit in 64 bits.  Without layers or
context the figures of one token have to fit all the same. -/
def KvFits (f : ModelFacts) (layers maxContext : UInt32) : Prop :=
  f.heads ≠ 0 ∧ perToken f * max maxContext.toNat 1 < 2 ^ 64 ∧
    perToken f * maxContext.toNat * layers.toNat * 2 < 2 ^ 64

variable {f : ModelFacts} {layers maxContext : UInt32}

instance : Decidable (KvFits f layers maxContext) := inferInstanceAs (Decidable (_ ∧ _))

theorem headDim_of_ne (h : f.heads ≠ 0) : f.headDim = .ok (f.hiddenDim.toNat / f.heads.toNat) :=
  if_neg h

theorem headDim_lt (f : ModelFacts) : f.hiddenDim.toNat / f.heads.toNat < 2 ^ 64 := by
  have hdim := f.hiddenDim.toNat_lt
  have hle := Nat.div_le_self f.hiddenDim.toNat f.heads.toNat
  omega

/-- The products of `kv_bytes`, one after the other. -/
theorem productsFit_iff {p c n : ℕ} : (p < 2 ^ 64 ∧ p * c < 2 ^ 64 ∧ p * c * n < 2 ^ 64 ∧
    p * c * n * 2 < 2 ^ 64) ↔ p * max c 1 < 2 ^ 64 ∧ p * c * n * 2 < 2 ^ 64 := by
  constructor
  · rintro ⟨hp, hpc, -, hall⟩
    refine ⟨?_, hall⟩
    rcases le_total c 1 with hc | hc
    · rwa [max_eq_right hc, Nat.mul_one]
    · rwa [max_eq_left hc]
  · rintro ⟨hmax, hall⟩
    have hone : p * 1 ≤ p * max c 1 := Nat.mul_le_mul_left p (le_max_right c 1)
    have hcontext : p * c ≤ p * max c 1 := Nat.mul_le_mul_left p (le_max_left c 1)
    refine ⟨by omega, by omega, by omega, hall⟩

/-- **When `kv_bytes` does not overflow.** -/
theorem kvBytesChecked_ok_iff (hheads : f.heads ≠ 0) :
    (∃ bytes, kvBytesChecked f layers maxContext .f16 = .ok bytes) ↔
      perToken f * max maxContext.toNat 1 < 2 ^ 64 ∧
        perToken f * maxContext.toNat * layers.toNat * 2 < 2 ^ 64 := by
  have hkv := f.kvHeads.toNat_lt
  have hfound : (∃ bytes, kvBytesChecked f layers maxContext .f16 = .ok bytes) ↔
      ∃ bytes, checkedProduct [2, f.kvHeads.toUInt64,
        UInt64.ofNat (f.hiddenDim.toNat / f.heads.toNat), maxContext.toUInt64, layers.toUInt64,
        UInt64.ofNat 2] = some bytes := by
    unfold kvBytesChecked
    rw [headDim_of_ne hheads, Outcome.andThen_ok, KvDtype.size]
    generalize checkedProduct _ = product
    cases product <;> simp
  rw [hfound, checkedProduct_isSome, ← productsFit_iff]
  have hdim : (UInt64.ofNat (f.hiddenDim.toNat / f.heads.toNat)).toNat =
      f.hiddenDim.toNat / f.heads.toNat := UInt64.toNat_ofNat_of_lt' (headDim_lt f)
  simp only [List.map_cons, List.map_nil, ProductsFit, hdim, UInt32.toNat_toUInt64, perToken]
  constructor
  · rintro ⟨-, -, h1, h2, h3, h4, -⟩
    exact ⟨by simpa using h1, by simpa using h2, by simpa using h3, by simpa using h4⟩
  · rintro ⟨h1, h2, h3, h4⟩
    exact ⟨by decide, by simp; omega, by simpa using h1, by simpa using h2, by simpa using h3,
      by simpa using h4, trivial⟩

/-- Where nothing overflows, the figure is the charge of the planner. -/
theorem KvFits.agrees (h : KvFits f layers maxContext) : AgreesWithPlan f layers maxContext := by
  obtain ⟨hheads, -, hall⟩ := h
  rintro inventory - -
  refine ⟨_, by rw [ModelFacts.kvBytes, headDim_of_ne hheads, Outcome.andThen_ok], ?_⟩
  have hproduct : 2 * f.kvHeads.toNat * (f.hiddenDim.toNat / f.heads.toNat) * maxContext.toNat *
      layers.toNat * KvDtype.f16.size < 2 ^ 64 := hall
  rw [UInt64.toNat_ofNat_of_lt' hproduct, kvCharge, UInt32.toNat_div, KvDtype.size]
  ring

/-- **The KV figures agree and cannot fault** iff the model has heads and the products fit. -/
theorem kv_figures_iff (metadata : Metadata) (facts : ModelFacts)
    (first last maxContext : UInt32) : ModelFacts.read metadata = .ok facts → first ≤ last →
      last ≤ facts.layers →
      (Faultless facts (last - first) maxContext ∧ AgreesWithPlan facts (last - first) maxContext ↔
        KvFits facts (last - first) maxContext) := by
  intro _ _ _
  constructor
  · rintro ⟨⟨⟨headDim, hdim⟩, hbytes⟩, -⟩
    have hheads : facts.heads ≠ 0 := by
      intro hzero
      rw [ModelFacts.headDim, if_pos hzero] at hdim
      cases hdim
    exact ⟨hheads, (kvBytesChecked_ok_iff hheads).1 hbytes⟩
  · intro h
    exact ⟨⟨⟨_, headDim_of_ne h.1⟩, (kvBytesChecked_ok_iff h.1).2 h.2⟩, h.agrees⟩

/-- The header of a llama model with these dimensions. -/
def header (layers hiddenDim heads kvHeads : UInt32) : Metadata :=
  [("general.architecture", .plain (.string "llama")), ("llama.block_count", .plain (.u32 layers)),
    ("llama.embedding_length", .plain (.u32 hiddenDim)), ("llama.attention.head_count", .plain (.u32 heads)),
    ("llama.attention.head_count_kv", .plain (.u32 kvHeads)), ("llama.context_length", .plain (.u64 2048))]

/-- A model of 22 layers, on one device. -/
theorem kv_figures_tiny : Faultless ⟨"llama", 22, 2048, 32, 4, 2048⟩ 22 2048 ∧
    AgreesWithPlan ⟨"llama", 22, 2048, 32, 4, 2048⟩ 22 2048 :=
  (kv_figures_iff (header 22 2048 32 4) ⟨"llama", 22, 2048, 32, 4, 2048⟩ 0 22 2048 rfl (by decide)
    (by decide)).2 (by decide)

/-- **A header without heads ends the division, and one that the planner supports may leave the `u64`**:
one layer, `2 ^ 31` numbers wide, at a ceiling of `2 ^ 31` positions, takes `2 ^ 64` bytes, which
`kv_bytes` says are none. -/
theorem kv_figures_fault :
    let headless : ModelFacts := ⟨"llama", 1, 64, 0, 1, 2048⟩
    let wide : ModelFacts := ⟨"llama", 1, 2147483648, 1, 1, 2048⟩
    (ModelFacts.read (header 1 64 0 1) = .ok headless ∧ ¬ Faultless headless 1 2048) ∧
      ModelFacts.read (header 1 2147483648 1 1) = .ok wide ∧
      unsupported ⟨wide, [0], 0⟩ = false ∧ ¬ Faultless wide 1 2147483648 ∧
      wide.kvBytes 1 2147483648 .f16 = .ok 0 ∧ kvCharge wide 2147483648 = 2 ^ 64 := by
  intro headless wide
  refine ⟨⟨rfl, ?_⟩, rfl, by decide, ?_, by decide, by decide⟩
  · rintro ⟨⟨headDim, hdim⟩, -⟩
    cases hdim
  · rintro ⟨-, hbytes⟩
    exact absurd ((kvBytesChecked_ok_iff (by decide)).1 hbytes) (by decide)

end Daemon

end Latticed
