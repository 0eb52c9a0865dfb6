import Latticed.Rust.Outcome
import Mathlib.Data.List.TakeWhile
import Mathlib.Tactic.Ring

/-!
# Strings

Rust strings are UTF-8 and are indexed by bytes: `&s[..n]` panics unless `n` is a character
boundary.  `sliceTo` keeps that panic.  The file also has `str::trim`, the unsigned `str::parse`,
the decimal and hexadecimal rendering of numbers, the `hex` crate, and lists that are joined and split at
a character.
-/

namespace Latticed

namespace Rust

/-- `Debug`: what `{:?}` shows of a value. -/
class Debug (α : Type) where
  debug : α → String

/-- The characters that make up the first `n` bytes, if `n` is a character boundary. -/
def takeBytes : ℕ → List Char → Option (List Char)
  | 0, _ => some []
  | _ + 1, [] => none
  | n + 1, c :: cs =>
    if c.utf8Size ≤ n + 1 then (takeBytes (n + 1 - c.utf8Size) cs).map (c :: ·) else none

/-- `&s[..n]`. -/
def sliceTo {ε : Type*} (s : String) (n : ℕ) : Outcome ε String :=
  match takeBytes n s.toList with
  | some cs => .ok (String.ofList cs)
  | none => .panic "byte index is not a char boundary"

theorem size_ofList_cons (c : Char) (cs : List Char) :
    (String.ofList (c :: cs)).utf8ByteSize = c.utf8Size + (String.ofList cs).utf8ByteSize := by
  rw [String.ofList_cons, String.utf8ByteSize_append, String.utf8ByteSize_singleton]

/-- A character takes at most four bytes. -/
theorem size_ofList_le (cs : List Char) : (String.ofList cs).utf8ByteSize ≤ 4 * cs.length := by
  induction cs with
  | nil => exact le_rfl
  | cons c cs ih =>
    have := c.utf8Size_le_four
    rw [size_ofList_cons, List.length_cons]
    omega

theorem size_takeBytes {n : ℕ} {cs ds : List Char} (h : takeBytes n cs = some ds) :
    (String.ofList ds).utf8ByteSize = n := by
  induction cs generalizing n ds with
  | nil =>
    cases n with
    | zero =>
      obtain rfl := Option.some.inj h
      rfl
    | succ n => cases h
  | cons c cs ih =>
    cases n with
    | zero =>
      obtain rfl := Option.some.inj h
      rfl
    | succ n =>
      rw [takeBytes] at h
      split_ifs at h with hle
      obtain ⟨es, hes, rfl⟩ := Option.map_eq_some_iff.1 h
      rw [size_ofList_cons, ih hes]
      omega

/-- What is sliced off has as many bytes as was asked for. -/
theorem size_sliceTo {ε : Type*} {s t : String} {n : ℕ}
    (h : (sliceTo s n : Outcome ε String) = .ok t) : t.utf8ByteSize = n := by
  rw [sliceTo] at h
  cases htake : takeBytes n s.toList with
  | none =>
    rw [htake] at h
    cases h
  | some cs =>
    rw [htake] at h
    obtain rfl := Outcome.ok.inj h
    exact size_takeBytes htake

/-- `str::parse` for an unsigned type whose values lie below `bound`. -/
def parseUnsigned (bound : ℕ) (s : List Char) : Option ℕ :=
  let digits := match s with
    | '+' :: rest => rest
    | _ => s
  let push (n : ℕ) (c : Char) : Option ℕ :=
    if c.isDigit then some (10 * n + (c.toNat - 48)) else none
  if digits = [] then none else (digits.foldlM push 0).filter (· < bound)

/-- A wider type parses the same number. -/
theorem parseUnsigned_of_lt {bound bound' n : ℕ} {s : List Char}
    (h : parseUnsigned bound s = some n) (hlt : n < bound') : parseUnsigned bound' s = some n := by
  unfold parseUnsigned at h ⊢
  dsimp only at h ⊢
  split_ifs at h ⊢ with hnil
  obtain ⟨hn, -⟩ := Option.filter_eq_some_iff.1 h
  exact Option.filter_eq_some_iff.2 ⟨hn, by simpa using hlt⟩

/-- Digits are read as the number they stand for. -/
theorem parseUnsigned_digits {bound : ℕ} {cs : List Char} (hne : cs ≠ [])
    (hdigits : ∀ c ∈ cs, c.isDigit = true) :
    parseUnsigned bound cs = (some (Nat.ofDigitChars 10 cs 0)).filter (· < bound) := by
  have hplus : ∀ rest, cs ≠ '+' :: rest := by
    rintro rest rfl
    exact absurd (hdigits '+' List.mem_cons_self) (by decide)
  have hpush (n : ℕ) : cs.foldlM (fun n c => if c.isDigit = true then some (10 * n + (c.toNat - 48))
      else none) n = some (Nat.ofDigitChars 10 cs n) := by
    clear hne hplus
    induction cs generalizing n with
    | nil => rfl
    | cons c cs ih =>
      rw [List.foldlM_cons, if_pos (hdigits c List.mem_cons_self), Nat.ofDigitChars_cons]
      exact ih (fun c' hc' => hdigits c' (List.mem_cons_of_mem _ hc')) _
  unfold parseUnsigned
  dsimp only
  split
  · exact absurd rfl (hplus _)
  · rw [if_neg hne, hpush]

/-- **A number that is written down is read back.** -/
theorem parseUnsigned_toString {bound n : ℕ} (h : n < bound) :
    parseUnsigned bound (toString n).toList = some n := by
  rw [Nat.toString_eq_repr, Nat.toList_repr, parseUnsigned_digits Nat.toDigits_ne_nil
    fun c hc => Nat.isDigit_of_mem_toDigits (by decide) (by decide) hc, Nat.ofDigitChars_ten_toDigits]
  exact Option.filter_some_pos (by simpa using h)

/-- `str::as_bytes`. -/
def asBytes (s : String) : List UInt8 := s.toUTF8.data.toList

theorem asBytes_injective {s t : String} (h : asBytes s = asBytes t) : s = t :=
  String.toByteArray_inj.1 (ByteArray.ext (Array.toList_inj.1 h))

theorem length_asBytes (s : String) : (asBytes s).length = s.utf8ByteSize := rfl

/-- `from_utf8` of the bytes of a string. -/
theorem fromUTF8_asBytes (s : String) : String.fromUTF8? ⟨(asBytes s).toArray⟩ = some s :=
  dif_pos s.isValidUTF8

/-- `char::is_whitespace`: the Unicode property `White_Space`. -/
def isWhitespace (c : Char) : Bool :=
  (9 ≤ c.val ∧ c.val ≤ 13) ∨ c.val = 0x20 ∨ c.val = 0x85 ∨ c.val = 0xA0 ∨ c.val = 0x1680 ∨
    (0x2000 ≤ c.val ∧ c.val ≤ 0x200A) ∨ c.val = 0x2028 ∨ c.val = 0x2029 ∨ c.val = 0x202F ∨
    c.val = 0x205F ∨ c.val = 0x3000

/-- `str::trim`. -/
def trim (s : String) : String :=
  String.ofList (((s.toList.dropWhile isWhitespace).reverse.dropWhile isWhitespace).reverse)

theorem isWhitespace_of_isDigit {c : Char} (h : c.isDigit = true) : isWhitespace c = false := by
  simp only [Char.isDigit, Bool.and_eq_true, decide_eq_true_eq, ge_iff_le,
    UInt32.le_iff_toNat_le] at h
  obtain ⟨h48, h57⟩ := h
  change 48 ≤ c.val.toNat at h48
  change c.val.toNat ≤ 57 at h57
  simp only [isWhitespace, UInt32.le_iff_toNat_le, ← UInt32.toNat_inj, decide_eq_false_iff_not,
    UInt32.reduceToNat]
  omega

theorem dropWhile_of_isDigit {cs : List Char} (h : ∀ c ∈ cs, c.isDigit = true) :
    cs.dropWhile isWhitespace = cs := by
  rw [List.dropWhile_eq_self_iff]
  intro hlen
  simp [isWhitespace_of_isDigit (h _ (List.getElem_mem hlen))]

/-- There is nothing to trim from a string of digits. -/
theorem trim_of_isDigit {s : String} (h : ∀ c ∈ s.toList, c.isDigit = true) : trim s = s := by
  rw [trim, dropWhile_of_isDigit h,
    dropWhile_of_isDigit fun c hc => h c (List.mem_reverse.1 hc), List.reverse_reverse,
    String.ofList_toList]

/-- The last `k` decimal digits of `n`, most significant first. -/
def decimalDigits : ℕ → ℕ → List Char
  | 0, _ => []
  | k + 1, n => decimalDigits k (n / 10) ++ [Nat.digitChar (n % 10)]

@[simp] theorem length_decimalDigits (k n : ℕ) : (decimalDigits k n).length = k := by
  induction k generalizing n with
  | zero => rfl
  | succ k ih => simp [decimalDigits, ih]

theorem isDigit_of_mem_decimalDigits {k n : ℕ} {c : Char} (h : c ∈ decimalDigits k n) :
    c.isDigit = true := by
  induction k generalizing n with
  | zero => cases h
  | succ k ih =>
    rcases List.mem_append.1 h with h | h
    · exact ih h
    · have hlt : n % 10 < 10 := Nat.mod_lt n (by decide)
      rw [List.mem_singleton.1 h]
      generalize n % 10 = d at hlt
      revert d
      decide

/-- The last `k` hexadecimal digits of `n`, most significant first. -/
def hexDigits : ℕ → ℕ → List Char
  | 0, _ => []
  | k + 1, n => hexDigits k (n / 16) ++ [Nat.digitChar (n % 16)]

/-- `k` lower-case hexadecimal digits. -/
def hex (k n : ℕ) : String := String.ofList (hexDigits k n)

@[simp] theorem length_hexDigits (k n : ℕ) : (hexDigits k n).length = k := by
  induction k generalizing n with
  | zero => rfl
  | succ k ih => simp [hexDigits, ih]

theorem size_hex_le (k n : ℕ) : (hex k n).utf8ByteSize ≤ 4 * k := by
  have := size_ofList_le (hexDigits k n)
  rwa [length_hexDigits] at this

/-- The value of a hexadecimal digit. -/
def hexValue (b : UInt8) : Option ℕ :=
  if 48 ≤ b ∧ b ≤ 57 then some (b.toNat - 48)
  else if 97 ≤ b ∧ b ≤ 102 then some (b.toNat - 87)
  else if 65 ≤ b ∧ b ≤ 70 then some (b.toNat - 55)
  else none

/-- `hex::encode`. -/
def hexEncode (bytes : List UInt8) : String :=
  String.ofList (bytes.flatMap fun b => hexDigits 2 b.toNat)

/-- The bytes that pairs of digits stand for. -/
def hexPairs : List UInt8 → Option (List UInt8)
  | [] => some []
  | [_] => none
  | high :: low :: rest =>
    match hexValue high, hexValue low with
    | some h, some l => (hexPairs rest).map (UInt8.ofNat (16 * h + l) :: ·)
    | _, _ => none

/-- `hex::decode_to_slice`, into `n` bytes. -/
def hexDecode (n : ℕ) (text : String) : Option (Vector UInt8 n) :=
  (hexPairs (asBytes text)).bind fun bytes =>
    if h : bytes.length = n then some ⟨bytes.toArray, by simpa using h⟩ else none

theorem asBytes_ofList (cs : List Char) :
    asBytes (String.ofList cs) = cs.flatMap String.utf8EncodeChar := by
  show (String.ofList cs).toByteArray.data.toList = _
  rw [String.toByteArray_ofList, List.utf8Encode, List.data_toByteArray]

/-- A digit is one byte, and is read back. -/
theorem hexValue_digitChar {d : ℕ} (h : d < 16) :
    ∃ b, String.utf8EncodeChar (Nat.digitChar d) = [b] ∧ hexValue b = some d := by
  refine ⟨(String.utf8EncodeChar (Nat.digitChar d)).headD 0, ?_⟩
  revert d
  decide

/-- The digits of a number, one byte each. -/
theorem exists_hexDigits (k n : ℕ) : ∃ bytes, asBytes (hex k n) = bytes ∧ bytes.length = k ∧
    ∃ digits, bytes.mapM hexValue = some digits ∧ digits.foldl (16 * · + ·) 0 = n % 16 ^ k := by
  refine ⟨_, rfl, ?_⟩
  rw [hex, asBytes_ofList]
  induction k generalizing n with
  | zero => exact ⟨rfl, [], rfl, (Nat.mod_one n).symm⟩
  | succ k ih =>
    obtain ⟨hlength, digits, hdigits, hvalue⟩ := ih (n / 16)
    obtain ⟨b, hb, hd⟩ := hexValue_digitChar (Nat.mod_lt n (show 0 < 16 by decide))
    rw [hexDigits, List.flatMap_append, List.flatMap_singleton, hb]
    refine ⟨by rw [List.length_append, hlength, List.length_singleton], digits ++ [n % 16], ?_, ?_⟩
    · rw [List.mapM_append, hdigits]
      simp [hd]
    · rw [List.foldl_append, hvalue, List.foldl_cons, List.foldl_nil, pow_succ', Nat.mod_mul, add_comm]

theorem hexPairs_hexEncode (bytes : List UInt8) :
    hexPairs (asBytes (hexEncode bytes)) = some bytes := by
  rw [hexEncode, asBytes_ofList]
  induction bytes with
  | nil => rfl
  | cons b bytes ih =>
    have hb := b.toNat_lt
    obtain ⟨high, hhigh, hh⟩ := hexValue_digitChar (show b.toNat / 16 % 16 < 16 by omega)
    obtain ⟨low, hlow, hl⟩ := hexValue_digitChar (show b.toNat % 16 < 16 by omega)
    have hdigits : (hexDigits 2 b.toNat).flatMap String.utf8EncodeChar = [high, low] := by
      simp [hexDigits, hhigh, hlow]
    have hbyte : 16 * (b.toNat / 16 % 16) + b.toNat % 16 = b.toNat := by omega
    rw [List.flatMap_cons, List.flatMap_append, hdigits, List.cons_append, List.cons_append,
      List.nil_append, hexPairs, hh, hl, ih]
    show some (UInt8.ofNat _ :: bytes) = _
    rw [hbyte, UInt8.ofNat_toNat]

/-- **What is written in hexadecimal digits is read back.** -/
theorem hexDecode_hexEncode {n : ℕ} (v : Vector UInt8 n) :
    hexDecode n (hexEncode v.toList) = some v := by
  unfold hexDecode
  rw [hexPairs_hexEncode, Option.bind_some, dif_pos Vector.length_toList]
  exact congrArg some (Vector.toArray_inj.1 (Array.toArray_toList))

/-! ### Joined lists -/

/-- `join`. -/
def joinChar (c : Char) (parts : List String) : String := (String.singleton c).intercalate parts

/-- `split`. -/
def splitChar (c : Char) (text : String) : List String := (text.split c).toList.map (·.copy)

theorem not_mem_of_mem_splitOn {α : Type*} [DecidableEq α] {a : α} {xs l : List α}
    (h : l ∈ xs.splitOn a) : a ∉ l := by
  induction xs generalizing l with
  | nil =>
    rw [List.splitOn_nil, List.mem_singleton] at h
    simp [h]
  | cons x xs ih =>
    rw [List.splitOn_cons_eq_if_modifyHead] at h
    obtain ⟨first, rest, hsplit⟩ := List.exists_cons_of_ne_nil (List.splitOn_ne_nil a xs)
    rw [hsplit] at h ih
    split_ifs at h with heq
    · rcases List.mem_cons.1 h with rfl | h
      · simp
      · exact ih h
    · rw [List.modifyHead_cons] at h
      rcases List.mem_cons.1 h with rfl | h
      · have hfirst := ih List.mem_cons_self
        simp only [List.mem_cons, not_or]
        exact ⟨fun hax => heq (by simp [hax]), hfirst⟩
      · exact ih (List.mem_cons_of_mem _ h)

/-- **A list that was joined is split again** just if its parts do not have the character. -/
theorem splitChar_joinChar {c : Char} {parts : List String} (hne : parts ≠ []) :
    splitChar c (joinChar c parts) = parts ↔ ∀ s ∈ parts, c ∉ s.toList := by
  constructor
  · intro h s hs
    rw [← h, splitChar, String.toList_split_char] at hs
    obtain ⟨cs, hcs, rfl⟩ := List.mem_map.1 hs
    rw [String.toList_ofList]
    exact not_mem_of_mem_splitOn hcs
  · intro h
    rw [splitChar, joinChar, String.toList_split_intercalate h, if_neg hne]

end Rust

end Latticed
