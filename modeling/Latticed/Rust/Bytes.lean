import Mathlib.Data.List.Basic
import Mathlib.Tactic.Ring

/-!
# Little-endian numbers

`to_le_bytes` and `from_le_bytes` for an arbitrary number of bytes.
-/

namespace Latticed

namespace Rust

/-- The `k` low bytes of `n`, least significant first. -/
def toLeBytes : ℕ → ℕ → List UInt8
  | 0, _ => []
  | k + 1, n => UInt8.ofNat n :: toLeBytes k (n / 256)

/-- The number whose bytes, least significant first, are given. -/
def ofLeBytes : List UInt8 → ℕ
  | [] => 0
  | b :: bs => b.toNat + 256 * ofLeBytes bs

/-- `slice::chunks_exact`: what is left over at the end is dropped. -/
def chunksExact (k : ℕ) (bytes : List UInt8) : List (List UInt8) :=
  (List.range (bytes.length / k)).map fun i => (bytes.drop (k * i)).take k

@[simp] theorem length_toLeBytes (k n : ℕ) : (toLeBytes k n).length = k := by
  induction k generalizing n with
  | zero => rfl
  | succ k ih => simp [toLeBytes, ih]

theorem ofLeBytes_toLeBytes {k n : ℕ} (h : n < 256 ^ k) : ofLeBytes (toLeBytes k n) = n := by
  induction k generalizing n with
  | zero => simp [toLeBytes, ofLeBytes, Nat.lt_one_iff.1 h]
  | succ k ih =>
    have hq : n / 256 < 256 ^ k := by
      rw [Nat.div_lt_iff_lt_mul (by decide), ← Nat.pow_succ]
      exact h
    rw [toLeBytes, ofLeBytes, ih hq]
    have : (UInt8.ofNat n).toNat = n % 256 := UInt8.toNat_ofNat'
    omega

theorem ofLeBytes_lt (bytes : List UInt8) : ofLeBytes bytes < 256 ^ bytes.length := by
  induction bytes with
  | nil => simp [ofLeBytes]
  | cons b bytes ih =>
    have := b.toNat_lt
    rw [ofLeBytes, List.length_cons, Nat.pow_succ]
    omega

/-- The bytes of the number that some bytes make are those bytes. -/
theorem toLeBytes_ofLeBytes (bytes : List UInt8) :
    toLeBytes bytes.length (ofLeBytes bytes) = bytes := by
  induction bytes with
  | nil => rfl
  | cons b bytes ih =>
    have := b.toNat_lt
    have hb : UInt8.ofNat (b.toNat + 256 * ofLeBytes bytes) = b := by
      apply UInt8.toNat_inj.1
      rw [UInt8.toNat_ofNat']
      omega
    rw [ofLeBytes, List.length_cons, toLeBytes, hb,
      show (b.toNat + 256 * ofLeBytes bytes) / 256 = ofLeBytes bytes by omega, ih]

/-- Chunks that were laid out one after the other are found again. -/
theorem chunksExact_flatMap {α : Type*} {k : ℕ} (hk : 0 < k) (f : α → List UInt8)
    (hf : ∀ a, (f a).length = k) (xs : List α) : chunksExact k (xs.flatMap f) = xs.map f := by
  have hlen : (xs.flatMap f).length = k * xs.length := by
    induction xs with
    | nil => rfl
    | cons x xs ih => rw [List.flatMap_cons, List.length_append, hf, ih, List.length_cons]; ring
  unfold chunksExact
  rw [hlen, Nat.mul_div_cancel_left _ hk]
  clear hlen
  induction xs with
  | nil => rfl
  | cons x xs ih =>
    have hdrop (i : ℕ) : ((x :: xs).flatMap f).drop (k * (i + 1)) =
        (xs.flatMap f).drop (k * i) := by
      rw [List.flatMap_cons, Nat.mul_add, Nat.mul_one, Nat.add_comm, ← List.drop_drop,
        List.drop_left' (hf x)]
    rw [List.length_cons, List.range_succ_eq_map, List.map_cons, List.map_cons, List.map_map, ← ih]
    congr 1
    · rw [Nat.mul_zero, List.drop_zero, List.flatMap_cons, List.take_left' (hf x)]
    · apply List.map_congr_left
      intro i _
      show (((x :: xs).flatMap f).drop (k * (i + 1))).take k = _
      rw [hdrop]

/-- Where the chunks end with the bytes, they are all the bytes. -/
theorem flatten_chunksExact {k n : ℕ} (hk : 0 < k) {bytes : List UInt8}
    (h : bytes.length = n * k) : (chunksExact k bytes).flatten = bytes := by
  have hflatten (n : ℕ) : ((List.range n).map fun i => (bytes.drop (k * i)).take k).flatten =
      bytes.take (k * n) := by
    induction n with
    | zero => simp
    | succ n ih =>
      rw [List.range_succ, List.map_append, List.flatten_append, ih, Nat.mul_succ, List.take_add]
      simp
  rw [chunksExact, h, Nat.mul_div_cancel _ hk, hflatten, Nat.mul_comm, ← h, List.take_length]

end Rust

end Latticed
