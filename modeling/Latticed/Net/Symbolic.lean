import Latticed.Net.Pairing

/-!
# A symbolic implementation of the primitives

The laws of `Ideal` hold of no real hash, whose tags have a fixed size.  They hold of symbolic
terms: a tag is the pair of its key and its input, and a SPAKE2 secret is the code with the two
messages.
-/

namespace Latticed

namespace Net

namespace Symbolic

/-- Two byte strings in one: the length of the first in unary, then both. -/
def pack (a b : Bytes) : Bytes := List.replicate a.length 1 ++ 0 :: (a ++ b)

/-- The two byte strings of `pack`. -/
def unpack (bytes : Bytes) : Bytes × Bytes :=
  let len := (bytes.takeWhile (· = 1)).length
  let rest := bytes.drop (len + 1)
  (rest.take len, rest.drop len)

theorem takeWhile_replicate_append (n : ℕ) (rest : Bytes) :
    (List.replicate n 1 ++ 0 :: rest).takeWhile (· = 1) = List.replicate n 1 := by
  induction n with
  | zero => simp
  | succ n ih => rw [List.replicate_succ, List.cons_append, List.takeWhile_cons_of_pos (by simp), ih]

theorem unpack_pack (a b : Bytes) : unpack (pack a b) = (a, b) := by
  have hdrop : (List.replicate a.length 1 ++ 0 :: (a ++ b)).drop (a.length + 1) = a ++ b := by
    simp [List.drop_append]
  simp only [unpack, pack, takeWhile_replicate_append, List.length_replicate, hdrop,
    List.take_left, List.drop_left]

theorem pack_inj {a b a' b' : Bytes} (h : pack a b = pack a' b') : (a, b) = (a', b') := by
  rw [← unpack_pack a b, h, unpack_pack]

/-- A string from its UTF-8 bytes. -/
def ofBytes (bytes : Bytes) : Except String String :=
  match String.fromUTF8? ⟨bytes.toArray⟩ with
  | some s => .ok s
  | none => .error "invalid UTF-8"

theorem ofBytes_asBytes (s : String) : ofBytes (Rust.asBytes s) = .ok s := by
  rw [ofBytes, Rust.fromUTF8_asBytes]

/-- The body of a confirmation as bytes. -/
def encodeBody (b : ConfirmBody) : Bytes :=
  pack b.publicKey.toList (pack (Rust.asBytes b.name) (Rust.asBytes b.platform))

/-- The body with the given bytes. -/
def decodeBody (bytes : Bytes) : Except String ConfirmBody :=
  let (publicKey, rest) := unpack bytes
  let (name, platform) := unpack rest
  if h : publicKey.toArray.size = 32 then do
    return ⟨⟨publicKey.toArray, h⟩, ← ofBytes name, ← ofBytes platform⟩
  else .error "not a key"

theorem decodeBody_encodeBody (b : ConfirmBody) : decodeBody (encodeBody b) = .ok b := by
  have h : b.publicKey.toList.toArray.size = 32 := by simp
  simp only [decodeBody, encodeBody, unpack_pack, dif_pos h, ofBytes_asBytes]
  rfl

/-- A confirmation as bytes. -/
def encodeConfirm (c : Confirm (Bytes × Bytes)) : Bytes := pack c.body (pack c.mac.1 c.mac.2)

/-- The confirmation with the given bytes. -/
def decodeConfirm (bytes : Bytes) : Except String (Confirm (Bytes × Bytes)) :=
  .ok ⟨(unpack bytes).1, unpack (unpack bytes).2⟩

theorem decodeConfirm_encodeConfirm (c : Confirm (Bytes × Bytes)) :
    decodeConfirm (encodeConfirm c) = .ok c := by
  simp [decodeConfirm, encodeConfirm, unpack_pack]

/-- The symbolic secret: both messages, smaller first, and the password. -/
def secret (self : Bytes × Bytes) (message : Bytes) : Option Bytes :=
  if message.length = 1 then
    some ((ordered self.2 message).1 ++ (ordered self.2 message).2 ++ self.1)
  else none

/-- A symbolic SPAKE2 message is one byte, the scalar. -/
@[reducible] def primitives : Primitives where
  Spake := Bytes × Bytes
  Scalar := UInt8
  Tag := Bytes × Bytes
  tagEq := inferInstance
  startSymmetric password _ scalar := ((password, [scalar]), [scalar])
  finish := secret
  hmac key input := (key, input)
  tagBytes t := pack t.1 t.2
  sha256 bytes := Vector.replicate 32 (bytes.foldl (· + ·) 0)
  encodeBody := encodeBody
  decodeBody := decodeBody
  decodeBody_encodeBody := decodeBody_encodeBody
  encodeConfirm := encodeConfirm
  decodeConfirm := decodeConfirm
  decodeConfirm_encodeConfirm := decodeConfirm_encodeConfirm

theorem mk_ordered (a b : Bytes) : s((ordered a b).1, (ordered a b).2) = s(a, b) := by
  unfold ordered
  split_ifs
  · rfl
  · exact Sym2.eq_swap

theorem length_ordered {a b : Bytes} (ha : a.length = 1) (hb : b.length = 1) :
    (ordered a b).1.length = 1 ∧ (ordered a b).2.length = 1 := by
  unfold ordered
  split_ifs
  · exact ⟨ha, hb⟩
  · exact ⟨hb, ha⟩

theorem ordered_append_inj {a b a' b' x x' : Bytes} (ha : a.length = 1) (hb : b.length = 1)
    (ha' : a'.length = 1) (hb' : b'.length = 1)
    (h : (ordered a b).1 ++ (ordered a b).2 ++ x = (ordered a' b').1 ++ (ordered a' b').2 ++ x') :
    s(a, b) = s(a', b') ∧ x = x' := by
  obtain ⟨h1, h2⟩ := length_ordered ha hb
  obtain ⟨h1', h2'⟩ := length_ordered ha' hb'
  obtain ⟨hmessages, hx⟩ := List.append_inj h (by simp [h1, h2, h1', h2'])
  obtain ⟨hfirst, hsecond⟩ := List.append_inj hmessages (h1.trans h1'.symm)
  exact ⟨by rw [← mk_ordered a, ← mk_ordered a', hfirst, hsecond], hx⟩

/-- A symbolic secret stands for the two messages and the password. -/
theorem secret_agree {a a' : UInt8} {x x' m m' k k' : Bytes} (hk : secret (x, [a]) m = some k)
    (hk' : secret (x', [a']) m' = some k') : k = k' ↔ x = x' ∧ s([a], m) = s([a'], m') := by
  simp only [secret, Option.ite_none_right_eq_some, Option.some.injEq] at hk hk'
  obtain ⟨hm, rfl⟩ := hk
  obtain ⟨hm', rfl⟩ := hk'
  constructor
  · intro h
    exact (ordered_append_inj rfl hm rfl hm' h).symm
  · rintro ⟨rfl, hpair⟩
    rw [ordered_eq_of_pair hpair]

instance : @Ideal primitives :=
  letI := primitives
  { finish_message := fun _ _ _ _ _ => ⟨_, rfl⟩
    finish_agree := fun hk hk' => (secret_agree hk hk').trans
      (and_congr_left' ⟨fun h => PairingCode.ext_text (Rust.asBytes_injective h),
        congrArg fun c : PairingCode => Rust.asBytes c.text⟩)
    hmac_injective := fun h => Prod.mk.inj h
    tagBytes_injective := pack_inj }

/-- A key of one byte, written as 32 copies of it. -/
instance : PublicKey UInt8 where
  toBytes k := Vector.replicate 32 k
  fromBytes bytes := .ok bytes[0]
  deviceId k := ⟨k.toNat, k.toNat_lt.trans (by decide)⟩
  fromBytes_toBytes k := by simp

/-- The code 000123. -/
def code : PairingCode := .generate 123

/-- A device that was given the code. -/
def laptop : @Party primitives UInt8 :=
  letI := primitives
  ⟨code, (1 : UInt8), Vector.replicate 32 7, 10, "laptop", "macos-aarch64"⟩

/-- Another device with the same code, at the other end of the same connection. -/
def desktop : @Party primitives UInt8 :=
  letI := primitives
  ⟨code, (2 : UInt8), Vector.replicate 32 7, 20, "desktop", "linux-x86_64"⟩

theorem laptop_answer : letI := primitives
    ∃ st c, laptop.answer desktop.message = .ok (st, c) ∧ (encodeConfirm c).length ≤ maxFrame :=
  letI := primitives
  ⟨_, _, Party.answer_eq_ok.2 ⟨by decide, _, rfl, rfl, rfl⟩, by decide +kernel⟩

theorem desktop_answer : letI := primitives
    ∃ st c, desktop.answer laptop.message = .ok (st, c) ∧ (encodeConfirm c).length ≤ maxFrame :=
  letI := primitives
  ⟨_, _, Party.answer_eq_ok.2 ⟨by decide, _, rfl, rfl, rfl⟩, by decide +kernel⟩

end Symbolic

end Net

end Latticed
