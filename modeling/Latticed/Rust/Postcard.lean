import Latticed.Rust.Bytes
import Latticed.Rust.Text

/-!
# The postcard format

Numbers are varints, lists and strings carry their length, the fields of a record follow one
another, and a value of an enumeration opens with the number of its variant.  Nothing says where a
value ends but the value itself, so a reader hands back the bytes it did not use.

A `Wire` is a type's writer and reader together with the fact that the reader undoes the writer; the
combinators build one from the fields of a record or the variants of an enumeration.

* `Wire.read_write` : what was written is read back, and the bytes after it stay.
* `Wire.decode_encode` : `from_bytes` of `to_allocvec`.
* `length_writeVarint_mono` : a larger number takes no fewer bytes.
* `Wire.decode_error` : `from_bytes` fails with one of four errors.
-/

namespace Latticed

namespace Rust

namespace Postcard

/-- `Error::DeserializeUnexpectedEnd`. -/
def unexpectedEnd : String := "Hit the end of buffer, expected more data"

/-- `Error::DeserializeBadVarint`. -/
def badVarint : String :=
  "Found a varint that didn't terminate. Is the usize too big for this platform?"

/-- `Error::DeserializeBadUtf8`. -/
def badUtf8 : String := "Tried to parse invalid utf-8"

/-- `Error::SerdeDeCustom`: what the derived readers of enumerations say of a variant they do not
have. -/
def serdeDeCustom : String := "Serde Deserialization Error"

/-- The errors of `from_bytes`. -/
def errors : List String := [unexpectedEnd, badVarint, badUtf8, serdeDeCustom]

/-- A varint of at most `k` bytes: seven bits a byte, low bits first, the high bit set on every byte
but the last. -/
def writeVarint : ℕ → ℕ → List UInt8
  | 0, _ => []
  | k + 1, n =>
    if n < 128 then [UInt8.ofNat n]
    else UInt8.ofNat (n % 128 + 128) :: writeVarint k (n / 128)

/-- Reads a varint of at most `k` bytes. -/
def readVarint : ℕ → List UInt8 → Except String (ℕ × List UInt8)
  | 0, _ => .error badVarint
  | _ + 1, [] => .error unexpectedEnd
  | k + 1, b :: bs =>
    if b.toNat < 128 then .ok (b.toNat, bs)
    else (readVarint k bs).map fun (n, rest) => (b.toNat - 128 + 128 * n, rest)

/-- Reads a varint of a type with `bits` bits. -/
def readBounded (k bits : ℕ) (bytes : List UInt8) : Except String (ℕ × List UInt8) :=
  (readVarint k bytes).bind fun (n, rest) =>
    if n < 2 ^ bits then .ok (n, rest) else .error badVarint

theorem readVarint_writeVarint {k n : ℕ} (h : n < 128 ^ (k + 1)) (rest : List UInt8) :
    readVarint (k + 1) (writeVarint (k + 1) n ++ rest) = .ok (n, rest) := by
  induction k generalizing n with
  | zero =>
    have : (UInt8.ofNat n).toNat = n % 256 := UInt8.toNat_ofNat'
    rw [writeVarint, if_pos (by omega), List.singleton_append, readVarint, if_pos (by omega), this,
      Nat.mod_eq_of_lt (by omega)]
  | succ k ih =>
    rw [writeVarint]
    split_ifs with hn
    · have : (UInt8.ofNat n).toNat = n % 256 := UInt8.toNat_ofNat'
      rw [List.singleton_append, readVarint, if_pos (by omega), this, Nat.mod_eq_of_lt (by omega)]
    · have hq : n / 128 < 128 ^ (k + 1) := by
        rw [Nat.div_lt_iff_lt_mul (by decide), ← Nat.pow_succ]
        exact h
      have : (UInt8.ofNat (n % 128 + 128)).toNat = (n % 128 + 128) % 256 := UInt8.toNat_ofNat'
      rw [List.cons_append, readVarint, if_neg (by omega), ih hq]
      simp only [Except.map, this]
      rw [show (n % 128 + 128) % 256 - 128 + 128 * (n / 128) = n by omega]

theorem readBounded_writeVarint {k bits n : ℕ} (hk : bits ≤ 7 * (k + 1)) (h : n < 2 ^ bits)
    (rest : List UInt8) :
    readBounded (k + 1) bits (writeVarint (k + 1) n ++ rest) = .ok (n, rest) := by
  have hn : n < 128 ^ (k + 1) :=
    calc n < 2 ^ bits := h
      _ ≤ 2 ^ (7 * (k + 1)) := Nat.pow_le_pow_right (by decide) hk
      _ = 128 ^ (k + 1) := by rw [Nat.pow_mul]
  rw [readBounded, readVarint_writeVarint hn]
  exact if_pos h

/-- A varint is never empty. -/
theorem length_writeVarint_pos (k n : ℕ) : 0 < (writeVarint (k + 1) n).length := by
  rw [writeVarint]
  split_ifs <;> simp

theorem length_writeVarint_le (k n : ℕ) : (writeVarint k n).length ≤ k := by
  induction k generalizing n with
  | zero => exact le_rfl
  | succ k ih =>
    rw [writeVarint]
    split_ifs
    · simp
    · simpa using ih (n / 128)

/-- A larger number takes no fewer bytes. -/
theorem length_writeVarint_mono {k m n : ℕ} (h : m ≤ n) :
    (writeVarint k m).length ≤ (writeVarint k n).length := by
  induction k generalizing m n with
  | zero => exact le_rfl
  | succ k ih =>
    rw [writeVarint, writeVarint]
    split_ifs with hm hn hn
    · exact le_rfl
    · simp
    · omega
    · simpa using ih (Nat.div_le_div_right h)

/-- `to_allocvec` and `from_bytes` of a type, and that they fit together. -/
structure Wire (α : Type) where
  write : α → List UInt8
  read : List UInt8 → Except String (α × List UInt8)
  /-- No value in memory takes `2 ^ 64` bytes. -/
  read_write : ∀ a rest, (write a).length < 2 ^ 64 → read (write a ++ rest) = .ok (a, rest)

namespace Wire

variable {α β : Type}

/-- `from_bytes`: bytes after the value are ignored. -/
def decode (w : Wire α) (bytes : List UInt8) : Except String α := (w.read bytes).map Prod.fst

/-- **`from_bytes` undoes `to_allocvec`.** -/
theorem decode_write (w : Wire α) {a : α} (h : (w.write a).length < 2 ^ 64) :
    w.decode (w.write a) = .ok a := by
  have := w.read_write a [] h
  rw [List.append_nil] at this
  rw [decode, this]
  rfl

/-- An unsigned type of `bits` bits, as a varint of at most `k + 1` bytes. -/
def number (k bits : ℕ) (toNat : α → ℕ) (ofNat : ℕ → α) (hk : bits ≤ 7 * (k + 1))
    (hlt : ∀ a, toNat a < 2 ^ bits) (hof : ∀ a, ofNat (toNat a) = a) : Wire α where
  write a := writeVarint (k + 1) (toNat a)
  read bytes := (readBounded (k + 1) bits bytes).map fun (n, rest) => (ofNat n, rest)
  read_write a rest _ := by
    rw [readBounded_writeVarint hk (hlt a)]
    simp [Except.map, hof]

/-- `u16`. -/
def u16 : Wire UInt16 :=
  number 2 16 UInt16.toNat UInt16.ofNat (by decide) UInt16.toNat_lt fun _ => UInt16.ofNat_toNat

/-- `u32`. -/
def u32 : Wire UInt32 :=
  number 4 32 UInt32.toNat UInt32.ofNat (by decide) UInt32.toNat_lt fun _ => UInt32.ofNat_toNat

/-- `u64`. -/
def u64 : Wire UInt64 :=
  number 9 64 UInt64.toNat UInt64.ofNat (by decide) UInt64.toNat_lt fun _ => UInt64.ofNat_toNat

/-- The next `n` bytes. -/
def take (n : ℕ) (bytes : List UInt8) : Except String (List UInt8 × List UInt8) :=
  if bytes.length < n then .error unexpectedEnd else .ok (bytes.take n, bytes.drop n)

theorem take_append (bytes rest : List UInt8) :
    take bytes.length (bytes ++ rest) = .ok (bytes, rest) := by
  simp [take]

/-- `serde_bytes`: a length, then that many bytes. -/
def bytes : Wire (List UInt8) where
  write a := writeVarint 10 a.length ++ a
  read bytes := (readBounded 10 64 bytes).bind fun (n, rest) => take n rest
  read_write a rest h := by
    have hlen : a.length < 2 ^ 64 := by
      rw [List.length_append] at h
      omega
    rw [List.append_assoc, readBounded_writeVarint (by decide) hlen]
    exact take_append a rest

/-- A wire for a type that is laid out like another. -/
def map (w : Wire β) (into : α → β) (of : β → α) (h : ∀ a, of (into a) = a) : Wire α where
  write a := w.write (into a)
  read bytes := (w.read bytes).map fun (b, rest) => (of b, rest)
  read_write a rest hlen := by
    rw [w.read_write (into a) rest hlen]
    simp [Except.map, h]

/-- Two fields, one after the other. -/
def pair (v : Wire α) (w : Wire β) : Wire (α × β) where
  write ab := v.write ab.1 ++ w.write ab.2
  read bytes := (v.read bytes).bind fun (a, rest) =>
    (w.read rest).map fun (b, rest) => ((a, b), rest)
  read_write ab rest h := by
    rw [List.length_append] at h
    rw [List.append_assoc, v.read_write ab.1 _ (by omega)]
    simp only [Except.bind, w.read_write ab.2 rest (by omega), Except.map]

/-- A string: its length in bytes, then its UTF-8. -/
def string : Wire String where
  write s := bytes.write (asBytes s)
  read input := (bytes.read input).bind fun (utf8, rest) =>
    match String.fromUTF8? ⟨utf8.toArray⟩ with
    | some s => .ok (s, rest)
    | none => .error badUtf8
  read_write s rest h := by
    rw [bytes.read_write (asBytes s) rest h]
    simp only [Except.bind, fromUTF8_asBytes]

/-- `[u8; n]`: the bytes themselves. -/
def array (n : ℕ) : Wire (Vector UInt8 n) where
  write v := v.toList
  read bytes := if h : n ≤ bytes.length then .ok (⟨(bytes.take n).toArray, by simpa⟩, bytes.drop n)
    else .error unexpectedEnd
  read_write v rest _ := by
    have hlen : v.toList.length = n := v.length_toList
    rw [dif_pos (by rw [List.length_append]; omega)]
    simp only [List.take_left' hlen, List.drop_left' hlen]
    congr 2

/-- `n` values, one after the other. -/
def readMany (w : Wire α) : ℕ → List UInt8 → Except String (List α × List UInt8)
  | 0, bytes => .ok ([], bytes)
  | n + 1, bytes => (w.read bytes).bind fun (a, rest) =>
    (readMany w n rest).map fun (as, rest) => (a :: as, rest)

theorem readMany_flatMap (w : Wire α) (as : List α) (rest : List UInt8)
    (h : (as.flatMap w.write).length < 2 ^ 64) :
    readMany w as.length (as.flatMap w.write ++ rest) = .ok (as, rest) := by
  induction as with
  | nil => rfl
  | cons a as ih =>
    rw [List.flatMap_cons, List.length_append] at h
    rw [List.length_cons, readMany, List.flatMap_cons, List.append_assoc,
      w.read_write a _ (by omega)]
    simp only [Except.bind, ih (by omega), Except.map]

theorem length_le_flatMap {w : Wire α} (hw : ∀ a, 0 < (w.write a).length) (as : List α) :
    as.length ≤ (as.flatMap w.write).length := by
  induction as with
  | nil => exact le_rfl
  | cons a as ih =>
    have := hw a
    rw [List.flatMap_cons, List.length_append, List.length_cons]
    omega

/-- A `Vec`: how many, then the values, each of which takes at least one byte. -/
def list (w : Wire α) (hw : ∀ a, 0 < (w.write a).length) : Wire (List α) where
  write as := writeVarint 10 as.length ++ as.flatMap w.write
  read bytes := (readBounded 10 64 bytes).bind fun (n, rest) => readMany w n rest
  read_write as rest h := by
    rw [List.length_append] at h
    have hlen := length_le_flatMap hw as
    rw [List.append_assoc, readBounded_writeVarint (by decide) (show as.length < 2 ^ 64 by omega)]
    exact readMany_flatMap w as rest (by omega)

/-- An enumeration: the number of the variant, then its fields. -/
def enum (tag : α → ℕ) (body : α → List UInt8)
    (branch : ℕ → List UInt8 → Except String (α × List UInt8)) (htag : ∀ a, tag a < 2 ^ 32)
    (h : ∀ a rest, (body a).length < 2 ^ 64 → branch (tag a) (body a ++ rest) = .ok (a, rest)) :
    Wire α where
  write a := writeVarint 5 (tag a) ++ body a
  read bytes := (readBounded 5 32 bytes).bind fun (n, rest) => branch n rest
  read_write a rest hlen := by
    rw [List.length_append] at hlen
    rw [List.append_assoc, readBounded_writeVarint (by decide) (htag a)]
    exact h a rest (by omega)

/-- The fields of a variant, read into the enumeration. -/
def fields (w : Wire β) (make : β → α) (bytes : List UInt8) : Except String (α × List UInt8) :=
  (w.read bytes).map fun (b, rest) => (make b, rest)

theorem fields_write (w : Wire β) (make : β → α) {b : β} (rest : List UInt8)
    (h : (w.write b).length < 2 ^ 64) :
    w.fields make (w.write b ++ rest) = .ok (make b, rest) := by
  rw [fields, w.read_write b rest h]
  rfl

/-! ### How reading fails -/

/-- What fails does so with an error of `from_bytes`. -/
def FailsKnown {α : Type*} (x : Except String α) : Prop := ∀ e, x = .error e → e ∈ errors

theorem FailsKnown.ok {α : Type*} (a : α) : FailsKnown (.ok a) := fun _ h => (by cases h)

theorem FailsKnown.of_mem {α : Type*} {e : String} (h : e ∈ errors) :
    FailsKnown (.error e : Except String α) := by
  rintro _ ⟨⟩
  exact h

theorem FailsKnown.bind {α β : Type*} {x : Except String α} {f : α → Except String β}
    (hx : FailsKnown x) (hf : ∀ a, FailsKnown (f a)) : FailsKnown (x.bind f) := by
  cases x with
  | ok a => exact hf a
  | error e => exact .of_mem (hx e rfl)

theorem FailsKnown.map {α β : Type*} {x : Except String α} {f : α → β} (hx : FailsKnown x) :
    FailsKnown (x.map f) := by
  cases x with
  | ok a => exact .ok (f a)
  | error e => exact .of_mem (hx e rfl)

theorem failsKnown_readVarint (k : ℕ) (bytes : List UInt8) : FailsKnown (readVarint k bytes) := by
  induction k generalizing bytes with
  | zero => exact .of_mem (by decide)
  | succ k ih =>
    cases bytes with
    | nil => exact .of_mem (by decide)
    | cons b bs =>
      rw [readVarint]
      split_ifs
      · exact .ok _
      · exact (ih bs).map

theorem failsKnown_readBounded (k bits : ℕ) (bytes : List UInt8) :
    FailsKnown (readBounded k bits bytes) := by
  refine (failsKnown_readVarint k bytes).bind fun (n, rest) => ?_
  dsimp only
  split_ifs
  · exact .ok _
  · exact .of_mem (by decide)

theorem failsKnown_take (n : ℕ) (bytes : List UInt8) : FailsKnown (take n bytes) := by
  rw [take]
  split_ifs
  · exact .of_mem (by decide)
  · exact .ok _

/-- Reading fails with an error of `from_bytes` only. -/
def Known (w : Wire α) : Prop := ∀ bytes, FailsKnown (w.read bytes)

theorem known_u16 : u16.Known := fun bytes => (failsKnown_readBounded 3 16 bytes).map

theorem known_u32 : u32.Known := fun bytes => (failsKnown_readBounded 5 32 bytes).map

theorem known_bytes : bytes.Known := fun input =>
  (failsKnown_readBounded 10 64 input).bind fun (n, rest) => failsKnown_take n rest

theorem Known.map {w : Wire β} (hw : w.Known) {into : α → β} {of : β → α}
    (h : ∀ a, of (into a) = a) : (w.map into of h).Known := fun bytes => (hw bytes).map

theorem Known.pair {v : Wire α} {w : Wire β} (hv : v.Known) (hw : w.Known) : (v.pair w).Known :=
  fun bytes => (hv bytes).bind fun (_, rest) => (hw rest).map

theorem known_string : string.Known := by
  intro input
  refine (known_bytes input).bind fun (utf8, rest) => ?_
  dsimp only
  split
  · exact .ok _
  · exact .of_mem (by decide)

theorem known_array (n : ℕ) : (array n).Known := by
  intro bytes
  rw [array]
  dsimp only
  split_ifs
  · exact .ok _
  · exact .of_mem (by decide)

theorem Known.readMany {w : Wire α} (hw : w.Known) (n : ℕ) (bytes : List UInt8) :
    FailsKnown (w.readMany n bytes) := by
  induction n generalizing bytes with
  | zero => exact .ok _
  | succ n ih => exact (hw bytes).bind fun (_, rest) => (ih rest).map

theorem Known.list {w : Wire α} (hw : w.Known) (h : ∀ a, 0 < (w.write a).length) :
    (w.list h).Known := fun bytes =>
  (failsKnown_readBounded 10 64 bytes).bind fun (n, rest) => hw.readMany n rest

theorem known_enum {tag : α → ℕ} {body : α → List UInt8}
    {branch : ℕ → List UInt8 → Except String (α × List UInt8)} {htag : ∀ a, tag a < 2 ^ 32}
    {h : ∀ a rest, (body a).length < 2 ^ 64 → branch (tag a) (body a ++ rest) = .ok (a, rest)}
    (hbranch : ∀ n rest, FailsKnown (branch n rest)) : (enum tag body branch htag h).Known :=
  fun bytes => (failsKnown_readBounded 5 32 bytes).bind fun (n, rest) => hbranch n rest

theorem Known.fields {w : Wire β} (hw : w.Known) (make : β → α) (bytes : List UInt8) :
    FailsKnown (w.fields make bytes) := (hw bytes).map

/-- **`from_bytes` fails with one of four errors.** -/
theorem decode_error {w : Wire α} (hw : w.Known) {bytes : List UInt8} {e : String}
    (h : w.decode bytes = .error e) : e ∈ errors := (hw bytes).map e h

end Wire

end Postcard

end Rust

end Latticed
