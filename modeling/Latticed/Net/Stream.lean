import Latticed.Net.Identity
import Latticed.Rust.Bytes
import Latticed.Rust.Outcome

/-!
# Stream headers

Every stream opens by saying what it is: a fixed header of twenty bytes with a magic number, the
version of the protocol, the kind of the stream, a session and a generation.

* `StreamHeader.decode_encode` : headers round-trip.
* `StreamHeader.decode_iff_encode` : what `decode` accepts is what `encode` writes.
-/

namespace Latticed

namespace Net

open Rust

/-- `u32::from_le_bytes(*b"LTCS")`. -/
def magic : ℕ := ofLeBytes [0x4c, 0x54, 0x43, 0x53]

/-- The protocol version. -/
def version : ℕ := 1

/-- `HEADER_LEN`. -/
def headerLen : ℕ := 20

/-- What a stream carries. -/
inductive StreamKind where
  | control
  | activation
  | bulk
  | probe
  | inferenceRpc
  deriving DecidableEq, Repr

/-- `kind as u16`. -/
def StreamKind.toWire : StreamKind → ℕ
  | control => 1
  | activation => 2
  | bulk => 3
  | probe => 4
  | inferenceRpc => 5

/-- `StreamKind::from_wire`. -/
def StreamKind.fromWire : ℕ → Except NetError StreamKind
  | 1 => .ok control
  | 2 => .ok activation
  | 3 => .ok bulk
  | 4 => .ok probe
  | 5 => .ok inferenceRpc
  | other => .error (.streamHeader ("unknown stream kind " ++ toString other))

/-- The declaration a stream opens with. -/
structure StreamHeader where
  kind : StreamKind
  session : UInt64
  generation : UInt32
  deriving DecidableEq, Repr

/-- `StreamHeader::control`. -/
def StreamHeader.control : StreamHeader := ⟨.control, 0, 0⟩

/-- `StreamHeader::encode`. -/
def StreamHeader.encode (h : StreamHeader) : Bytes :=
  toLeBytes 4 magic ++ toLeBytes 2 version ++ toLeBytes 2 h.kind.toWire ++
    toLeBytes 8 h.session.toNat ++ toLeBytes 4 h.generation.toNat

/-- The bytes `i..j` of a header, read as a number. -/
def field (bytes : Bytes) (i j : ℕ) : ℕ := ofLeBytes ((bytes.take j).drop i)

/-- `StreamHeader::decode`. -/
def StreamHeader.decode (bytes : Bytes) : Except NetError StreamHeader :=
  if field bytes 0 4 ≠ magic then .error (.streamHeader "not a lattice stream")
  else if field bytes 4 6 ≠ version then
    .error (.streamHeader ("stream protocol v" ++ toString (field bytes 4 6) ++
      ", this device speaks v" ++ toString version))
  else
    (StreamKind.fromWire (field bytes 6 8)).map fun kind =>
      { kind, session := UInt64.ofNat (field bytes 8 16),
        generation := UInt32.ofNat (field bytes 16 20) }

@[simp] theorem StreamHeader.length_encode (h : StreamHeader) : h.encode.length = headerLen := by
  simp [encode, headerLen]

@[simp] theorem StreamKind.fromWire_toWire (k : StreamKind) : fromWire k.toWire = .ok k := by
  cases k <;> rfl

theorem StreamKind.fromWire_eq_ok {n : ℕ} {k : StreamKind} :
    fromWire n = .ok k ↔ n = k.toWire := by
  constructor
  · intro h
    unfold fromWire at h
    split at h <;> cases h <;> rfl
  · rintro rfl
    exact fromWire_toWire k

/-- What `decode` asks of the fields. -/
theorem StreamHeader.decode_eq_ok {bytes : Bytes} {h : StreamHeader} :
    decode bytes = .ok h ↔ field bytes 0 4 = magic ∧ field bytes 4 6 = version ∧
      field bytes 6 8 = h.kind.toWire ∧ UInt64.ofNat (field bytes 8 16) = h.session ∧
      UInt32.ofNat (field bytes 16 20) = h.generation := by
  obtain ⟨kind, session, generation⟩ := h
  unfold decode
  split_ifs with hmagic hversion
  · exact ⟨fun hok => (by cases hok), fun hfields => absurd hfields.1 hmagic⟩
  · exact ⟨fun hok => (by cases hok), fun hfields => absurd hfields.2.1 hversion⟩
  · rw [map_eq_ok]
    constructor
    · rintro ⟨k, hkind, heq⟩
      cases heq
      exact ⟨not_not.1 hmagic, not_not.1 hversion, StreamKind.fromWire_eq_ok.1 hkind, rfl, rfl⟩
    · rintro ⟨-, -, hkind, rfl, rfl⟩
      exact ⟨kind, StreamKind.fromWire_eq_ok.2 hkind, rfl⟩

/-! ### Round trip -/

/-- A field does not depend on the bytes after it. -/
theorem field_left {xs ys : Bytes} {i j : ℕ} (h : j ≤ xs.length) :
    field (xs ++ ys) i j = field xs i j := by
  rw [field, field, List.take_append_of_le_length h]

/-- The field that was written last is the number it was written from. -/
theorem field_last {xs : Bytes} {i j k n : ℕ} (hi : xs.length = i) (hk : i + k = j)
    (hn : n < 256 ^ k) : field (xs ++ toLeBytes k n) i j = n := by
  have hlen : (xs ++ toLeBytes k n).length = j := by
    rw [List.length_append, length_toLeBytes, hi, hk]
  rw [field, ← hlen, List.take_length, List.drop_left' hi, ofLeBytes_toLeBytes hn]

/-- **Headers round-trip.** -/
theorem StreamHeader.decode_encode (h : StreamHeader) : decode h.encode = .ok h := by
  have hmagic : field h.encode 0 4 = magic := by
    rw [encode, field_left (by simp), field_left (by simp), field_left (by simp),
      field_left (by simp)]
    exact @field_last [] 0 4 4 magic rfl rfl (by decide)
  have hversion : field h.encode 4 6 = version := by
    rw [encode, field_left (by simp), field_left (by simp), field_left (by simp)]
    exact field_last (by simp) rfl (by decide)
  have hkind : field h.encode 6 8 = h.kind.toWire := by
    rw [encode, field_left (by simp), field_left (by simp)]
    exact field_last (by simp) rfl (by cases h.kind <;> decide)
  have hsession : field h.encode 8 16 = h.session.toNat := by
    rw [encode, field_left (by simp)]
    exact field_last (by simp) rfl h.session.toNat_lt
  have hgeneration : field h.encode 16 20 = h.generation.toNat := by
    rw [encode]
    exact field_last (by simp) rfl h.generation.toNat_lt
  refine decode_eq_ok.2 ⟨hmagic, hversion, hkind, ?_, ?_⟩
  · rw [hsession, UInt64.ofNat_toNat]
  · rw [hgeneration, UInt32.ofNat_toNat]

/-! ### Every byte counts -/

theorem length_field {bytes : Bytes} {i j k : ℕ} (hk : i + k = j) (hj : j ≤ bytes.length) :
    ((bytes.take j).drop i).length = k := by
  rw [List.length_drop, List.length_take, min_eq_left hj]
  omega

/-- The bytes of a field are those of its number. -/
theorem toLeBytes_field {bytes : Bytes} {i j k : ℕ} (hk : i + k = j) (hj : j ≤ bytes.length) :
    toLeBytes k (field bytes i j) = (bytes.take j).drop i := by
  have h := toLeBytes_ofLeBytes ((bytes.take j).drop i)
  rwa [length_field hk hj] at h

theorem field_lt {bytes : Bytes} {i j k : ℕ} (hk : i + k = j) (hj : j ≤ bytes.length) :
    field bytes i j < 256 ^ k := by
  have h := ofLeBytes_lt ((bytes.take j).drop i)
  rwa [length_field hk hj] at h

/-- The fields up to `i` and the one after them. -/
theorem take_append_field (bytes : Bytes) {i j : ℕ} (h : i ≤ j) :
    bytes.take i ++ (bytes.take j).drop i = bytes.take j := by
  have := List.take_append_drop i (bytes.take j)
  rwa [List.take_take, min_eq_left h] at this

/-- **What decodes is what was written.** -/
theorem StreamHeader.encode_of_decode {bytes : Bytes} (hlen : bytes.length = headerLen)
    {h : StreamHeader} (hok : decode bytes = .ok h) : bytes = h.encode := by
  obtain ⟨hmagic, hversion, hkind, hsession, hgeneration⟩ := decode_eq_ok.1 hok
  have hall : bytes.length = 20 := hlen
  have hsession' : h.session.toNat = field bytes 8 16 := by
    rw [← hsession]
    exact UInt64.toNat_ofNat_of_lt' (field_lt (k := 8) rfl (by omega))
  have hgeneration' : h.generation.toNat = field bytes 16 20 := by
    rw [← hgeneration]
    exact UInt32.toNat_ofNat_of_lt' (field_lt (k := 4) rfl (by omega))
  rw [encode, ← hmagic, ← hversion, ← hkind, hsession', hgeneration',
    toLeBytes_field (i := 0) rfl (by omega), toLeBytes_field (i := 4) rfl (by omega),
    toLeBytes_field (i := 6) rfl (by omega), toLeBytes_field (i := 8) rfl (by omega),
    toLeBytes_field (i := 16) rfl (by omega), List.drop_zero]
  -- the fields follow one another without a gap
  rw [take_append_field bytes (by decide : 4 ≤ 6), take_append_field bytes (by decide : 6 ≤ 8),
    take_append_field bytes (by decide : 8 ≤ 16), take_append_field bytes (by decide : 16 ≤ 20),
    List.take_of_length_le (by omega)]

/-- **Headers are a bijection onto what `decode` accepts**: of all strings of twenty bytes, the one that
`encode` writes decodes to a header, and no other one does. -/
theorem StreamHeader.decode_iff_encode :
    (∀ (b : Vector UInt8 headerLen) (h : StreamHeader),
      decode b.toList = .ok h ↔ b.toList = h.encode) ∧
    ∀ h : StreamHeader, decode h.encode = .ok h ∧
      ∃! b : Vector UInt8 headerLen, decode b.toList = .ok h := by
  have hiff (b : Vector UInt8 headerLen) (h : StreamHeader) :
      decode b.toList = .ok h ↔ b.toList = h.encode := by
    constructor
    · exact encode_of_decode b.length_toList
    · intro heq
      rw [heq]
      exact h.decode_encode
  refine ⟨hiff, fun h => ⟨h.decode_encode, ?_⟩⟩
  have hlist : (⟨h.encode.toArray, h.length_encode⟩ : Vector UInt8 headerLen).toList = h.encode := by
    simp [Vector.toList]
  refine ⟨⟨h.encode.toArray, h.length_encode⟩, (hiff _ h).2 hlist, fun b hb => ?_⟩
  apply Vector.toList_inj.1
  rw [hlist]
  exact (hiff b h).1 hb

end Net

end Latticed
