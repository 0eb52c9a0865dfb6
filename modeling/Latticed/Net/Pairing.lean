import Latticed.Net.Codec
import Latticed.Net.Tls
import Latticed.Net.Trust
import Latticed.Rust.Outcome

/-!
# Pairing over a short code

Both devices run the same exchange: a symmetric SPAKE2 message each, then a confirmation each that
carries the device's key, name and platform under a MAC.  The MAC key is derived from the SPAKE2
secret and the MAC covers the ordered SPAKE2 messages, the channel binding and the body.

SPAKE2, HMAC, SHA-256 and postcard are other packages: the class `Primitives` is what the exchange
uses of them.  What an ideal implementation would satisfy on top of that is the class `Ideal`.

* `Party.answer_eq_ok`, `AwaitingConfirm.finish_eq_ok` : what it takes for the two steps to succeed.
* `Party.tag_eq_iff` : two sessions compute the same tag iff they have the same code, messages,
  binding and body.
* `Party.finish_of_mac` : what a device learns from a confirmation with the MAC of a session.
* `Party.learns_both_iff` : two sessions whose messages are delivered unmodified both succeed iff
  codes and bindings are equal, and keys and messages differ.
-/

namespace Latticed

namespace Net

/-! ### The code -/

/-- The six digits the user reads from one screen and types into the other. -/
structure PairingCode where
  text : String
  /-- Six bytes, all of them ASCII digits. -/
  valid : text.toList.length = 6 ∧ text.toList.all Char.isDigit

namespace PairingCode

@[ext] theorem ext_text {c d : PairingCode} (h : c.text = d.text) : c = d := by
  cases c
  cases d
  cases h
  rfl

instance : DecidableEq PairingCode := fun c d =>
  decidable_of_iff (c.text = d.text) ⟨ext_text, congrArg text⟩

/-- `generate`, given the number that is drawn. -/
def generate (n : Fin 1000000) : PairingCode where
  text := String.ofList (Rust.decimalDigits 6 n)
  valid := by
    rw [String.toList_ofList, List.all_eq_true]
    exact ⟨Rust.length_decimalDigits 6 n, fun _ h => Rust.isDigit_of_mem_decimalDigits h⟩

/-- `parse`. -/
def parse (text : String) : Except NetError PairingCode :=
  let trimmed := Rust.trim text
  if h : trimmed.toList.length = 6 ∧ trimmed.toList.all Char.isDigit then .ok ⟨trimmed, h⟩
  else .error .malformedPairingCode

/-- A code that is shown is a code that can be typed in. -/
theorem parse_text (code : PairingCode) : parse code.text = .ok code := by
  unfold parse
  rw [Rust.trim_of_isDigit (List.all_eq_true.1 code.valid.2), dif_pos code.valid]

end PairingCode

/-! ### What other packages provide -/

/-- The identity a device claims in its confirmation. -/
structure ConfirmBody where
  publicKey : Bytes32
  name : String
  platform : String
  deriving DecidableEq

/-- Identity claim plus the MAC proving the sender knew the code. -/
structure Confirm (Tag : Type) where
  body : Bytes
  mac : Tag
  deriving DecidableEq

/-- What the exchange uses of spake2, hmac, sha2 and postcard. -/
class Primitives where
  /-- `Spake2<Ed25519Group>`: the state between the two messages. -/
  Spake : Type
  /-- The scalar that `start_symmetric` draws. -/
  Scalar : Type
  /-- The output of HMAC (`[u8; 32]`). -/
  Tag : Type
  tagEq : DecidableEq Tag
  /-- `Spake2::start_symmetric` with a password and an identity: the state and the message. -/
  startSymmetric : Bytes → Bytes → Scalar → Spake × Bytes
  /-- `Spake2::finish`: the shared secret, unless the message is not one of SPAKE2. -/
  finish : Spake → Bytes → Option Bytes
  /-- HMAC of a key and an input. -/
  hmac : Bytes → Bytes → Tag
  /-- The bytes of a tag. -/
  tagBytes : Tag → Bytes
  sha256 : Bytes → Bytes32
  /-- postcard for `ConfirmBody`; serialising it does not fail. -/
  encodeBody : ConfirmBody → Bytes
  decodeBody : Bytes → Except String ConfirmBody
  decodeBody_encodeBody : ∀ b, decodeBody (encodeBody b) = .ok b
  /-- postcard for `Confirm`; serialising it does not fail. -/
  encodeConfirm : Confirm Tag → Bytes
  decodeConfirm : Bytes → Except String (Confirm Tag)
  decodeConfirm_encodeConfirm : ∀ c, decodeConfirm (encodeConfirm c) = .ok c

open Primitives

instance [P : Primitives] : DecidableEq P.Tag := P.tagEq

variable [P : Primitives]

/-- `PAIRING_CONTEXT`. -/
def pairingContext : Bytes := Rust.asBytes "lattice-pairing-v1"

/-- `CONFIRM_LABEL`. -/
def confirmLabel : Bytes := Rust.asBytes "lattice-pairing-confirm-v1"

/-- `derive`. -/
def derive (shared label : Bytes) : P.Tag := hmac shared label

/-- `tag`: the transcript and the body are hashed one after the other. -/
def tag (key : P.Tag) (transcript body : Bytes) : P.Tag := hmac (tagBytes key) (transcript ++ body)

/-! ### The exchange -/

/-- Awaiting the peer's SPAKE2 message. -/
structure Pairing [P : Primitives] where
  spake : P.Spake
  ours : Bytes
  channelBinding : Bytes32

/-- Awaiting the peer's identity confirmation. -/
structure AwaitingConfirm [P : Primitives] (Key : Type) where
  macKey : P.Tag
  transcript : Bytes
  ourPublicKey : Key

/-- `Pairing::start`: the state and the message to send. -/
def Pairing.start (code : PairingCode) (scalar : P.Scalar) (channelBinding : Bytes32) :
    Pairing × Bytes :=
  let (spake, ours) := startSymmetric (Rust.asBytes code.text) pairingContext scalar
  (⟨spake, ours, channelBinding⟩, ours)

variable {Key : Type} [PublicKey Key]

/-- `Pairing::key_exchange`: the next state and the confirmation to send. -/
def Pairing.keyExchange (self : Pairing) (peerMessage : Bytes) (key : Key)
    (name platform : String) : Except NetError (AwaitingConfirm Key × Confirm P.Tag) :=
  -- a message that is bounced back would have us agree a key with ourselves
  if peerMessage = self.ours then .error .pairingReflected
  else match finish self.spake peerMessage with
    | none => .error .pairingFailed
    | some shared =>
      let messages := ordered self.ours peerMessage
      let transcript := messages.1 ++ messages.2 ++ self.channelBinding.toList
      let macKey := derive shared confirmLabel
      let body := encodeBody ⟨PublicKey.toBytes key, name, platform⟩
      .ok (⟨macKey, transcript, key⟩, ⟨body, tag macKey transcript body⟩)

/-- `AwaitingConfirm::finish`; `now` is the clock. -/
def AwaitingConfirm.finish [DecidableEq Key] (self : AwaitingConfirm Key) (confirm : Confirm P.Tag)
    (now : UInt64) : Except NetError (PairedPeer Key) :=
  if tag self.macKey self.transcript confirm.body ≠ confirm.mac then .error .pairingFailed
  else match decodeBody confirm.body with
    | .error why => .error (.postcard why)
    | .ok body => match PublicKey.fromBytes (K := Key) body.publicKey with
      | .error _ => .error .pairingFailed
      | .ok publicKey =>
        if publicKey = self.ourPublicKey then .error .pairingReflected
        else .ok (.new publicKey body.name body.platform now)

theorem AwaitingConfirm.finish_eq_ok [DecidableEq Key] {self : AwaitingConfirm Key}
    {confirm : Confirm P.Tag} {now : UInt64} {peer : PairedPeer Key} :
    self.finish confirm now = .ok peer ↔
      tag self.macKey self.transcript confirm.body = confirm.mac ∧
        ∃ body k, decodeBody confirm.body = .ok body ∧ PublicKey.fromBytes body.publicKey = .ok k ∧
          k ≠ self.ourPublicKey ∧ peer = .new k body.name body.platform now := by
  unfold AwaitingConfirm.finish
  by_cases hmac : tag self.macKey self.transcript confirm.body = confirm.mac
  · rw [if_neg (not_not.2 hmac)]
    cases hbody : decodeBody confirm.body with
    | error why => simp
    | ok body =>
      cases hkey : PublicKey.fromBytes (K := Key) body.publicKey with
      | error why => simp [hkey]
      | ok k =>
        by_cases hown : k = self.ourPublicKey
        · simp [hmac, hkey, hown]
        · simp [hmac, hkey, hown, eq_comm]
  · simp [hmac]

/-! ### Sessions of honest devices -/

/-- What an honest device puts into one pairing session. -/
structure Party [P : Primitives] (Key : Type) where
  code : PairingCode
  scalar : P.Scalar
  channelBinding : Bytes32
  key : Key
  name : String
  platform : String

namespace Party

/-- The state after `Pairing::start`. -/
def pairing (p : Party Key) : Pairing := (Pairing.start p.code p.scalar p.channelBinding).1

/-- The SPAKE2 message it sends. -/
def message (p : Party Key) : Bytes := (Pairing.start p.code p.scalar p.channelBinding).2

/-- What it does with a SPAKE2 message it receives. -/
def answer (p : Party Key) (peerMessage : Bytes) :
    Except NetError (AwaitingConfirm Key × Confirm P.Tag) :=
  p.pairing.keyExchange peerMessage p.key p.name p.platform

/-- The transcript when the given message was received. -/
def transcript (p : Party Key) (peerMessage : Bytes) : Bytes :=
  (ordered p.message peerMessage).1 ++ (ordered p.message peerMessage).2 ++
    p.channelBinding.toList

/-- The body of its confirmation. -/
def body (p : Party Key) : Bytes := encodeBody ⟨PublicKey.toBytes p.key, p.name, p.platform⟩

/-- `p` gets the messages of `q` unmodified, `q` gets that of `p`, and `p` finishes with `peer`. -/
def Learns [DecidableEq Key] (p q : Party Key) (now : UInt64) (peer : PairedPeer Key) : Prop :=
  ∃ st c st' c', p.answer q.message = .ok (st, c) ∧ q.answer p.message = .ok (st', c') ∧
    st.finish c' now = .ok peer

variable {p q : Party Key} {m m' : Bytes} {st st' : AwaitingConfirm Key} {c c' : Confirm P.Tag}

theorem answer_eq_ok : p.answer m = .ok (st, c) ↔
    m ≠ p.message ∧ ∃ shared, finish p.pairing.spake m = some shared ∧
      st = ⟨derive shared confirmLabel, p.transcript m, p.key⟩ ∧
      c = ⟨p.body, tag (derive shared confirmLabel) (p.transcript m) p.body⟩ := by
  change (if m = p.message then _ else _) = _ ↔ _
  by_cases hm : m = p.message
  · simp [hm]
  · rw [if_neg hm]
    cases hs : finish p.pairing.spake m with
    | none => simp
    | some shared =>
      simp only [Except.ok.injEq, Prod.mk.injEq, ne_eq, hm, not_false_eq_true, true_and,
        Option.some.injEq, exists_eq_left']
      exact and_congr eq_comm eq_comm

end Party

/-- The idealised model of SPAKE2 and HMAC. -/
class Ideal [P : Primitives] : Prop where
  /-- The messages of honest devices are SPAKE2 messages. -/
  finish_message : ∀ (c d : PairingCode) (r s : P.Scalar) (b : Bytes32),
    ∃ shared, finish (Pairing.start c r b).1.spake (Pairing.start d s b).2 = some shared
  /-- Two sessions agree on a secret iff they used the same code and the same two messages. -/
  finish_agree : ∀ {c d : PairingCode} {r s : P.Scalar} {b b' : Bytes32} {m m' k k' : Bytes},
    finish (Pairing.start c r b).1.spake m = some k →
    finish (Pairing.start d s b').1.spake m' = some k' →
    (k = k' ↔ c = d ∧ s((Pairing.start c r b).2, m) = s((Pairing.start d s b').2, m'))
  /-- A tag determines the key and the input. -/
  hmac_injective : ∀ {k k' x x' : Bytes}, hmac k x = hmac k' x' → k = k' ∧ x = x'
  tagBytes_injective : ∀ {t t' : P.Tag}, tagBytes t = tagBytes t' → t = t'

namespace Party

variable {p q : Party Key} {m m' : Bytes} {st st' : AwaitingConfirm Key} {c c' : Confirm P.Tag}

/-- **Same tag, same session**: the tag a session expects for a body is the MAC another session sent
iff they agree on the code, the two messages, the binding and the body. -/
theorem tag_eq_iff [Ideal] (hp : p.answer m = .ok (st, c)) (hq : q.answer m' = .ok (st', c'))
    (body : Bytes) : tag st.macKey st.transcript body = c'.mac ↔
      p.code = q.code ∧ s(p.message, m) = s(q.message, m') ∧
        p.channelBinding = q.channelBinding ∧ body = q.body := by
  obtain ⟨-, k, hk, rfl, -⟩ := answer_eq_ok.1 hp
  obtain ⟨-, k', hk', -, rfl⟩ := answer_eq_ok.1 hq
  have hagree : k = k' ↔ p.code = q.code ∧ s(p.message, m) = s(q.message, m') :=
    Ideal.finish_agree hk hk'
  constructor
  · intro h
    obtain ⟨hkey, hinput⟩ := Ideal.hmac_injective h
    have hsecret : k = k' := (Ideal.hmac_injective (Ideal.tagBytes_injective hkey)).1
    obtain ⟨hcode, hpair⟩ := hagree.1 hsecret
    -- the messages are the same in the same order, so the rest of the input is too
    simp only [transcript, ordered_eq_of_pair hpair, List.append_assoc, List.append_cancel_left_eq]
      at hinput
    obtain ⟨hbinding, hbody⟩ := List.append_inj hinput (by simp)
    exact ⟨hcode, hpair, Vector.toList_inj.1 hbinding, hbody⟩
  · rintro ⟨hcode, hpair, hbinding, rfl⟩
    have hsecret : k = k' := hagree.2 ⟨hcode, hpair⟩
    simp only [transcript, ordered_eq_of_pair hpair, hbinding, hsecret]

/-- **What is learned from a confirmation whose MAC a session sent.** -/
theorem finish_of_mac [Ideal] [DecidableEq Key] (hp : p.answer m = .ok (st, c))
    (hq : q.answer m' = .ok (st', c')) {confirm : Confirm P.Tag} (hmac : confirm.mac = c'.mac)
    {now : UInt64} {peer : PairedPeer Key} (h : st.finish confirm now = .ok peer) :
    p.code = q.code ∧ s(p.message, m) = s(q.message, m') ∧ p.channelBinding = q.channelBinding ∧
      q.key ≠ p.key ∧ peer = .new q.key q.name q.platform now := by
  obtain ⟨htag, b, k, hb, hk, hne, rfl⟩ := AwaitingConfirm.finish_eq_ok.1 h
  obtain ⟨hcode, hpair, hbinding, hbody⟩ := (tag_eq_iff hp hq _).1 (htag.trans hmac)
  rw [hbody, body, decodeBody_encodeBody] at hb
  obtain rfl := Except.ok.inj hb
  rw [PublicKey.fromBytes_toBytes] at hk
  obtain rfl := Except.ok.inj hk
  obtain ⟨-, shared, -, rfl, -⟩ := answer_eq_ok.1 hp
  exact ⟨hcode, hpair, hbinding, hne, rfl⟩

/-- A session that agrees with another on everything but the key accepts its confirmation. -/
theorem finish_eq_of_agree [Ideal] [DecidableEq Key] (hp : p.answer m = .ok (st, c))
    (hq : q.answer m' = .ok (st', c')) (hcode : p.code = q.code)
    (hpair : s(p.message, m) = s(q.message, m')) (hbinding : p.channelBinding = q.channelBinding)
    (hkey : q.key ≠ p.key) (now : UInt64) :
    st.finish c' now = .ok (.new q.key q.name q.platform now) := by
  have hbody : c'.body = q.body := by
    obtain ⟨-, shared, -, -, rfl⟩ := answer_eq_ok.1 hq
    rfl
  obtain ⟨-, shared, -, hst, -⟩ := answer_eq_ok.1 hp
  refine AwaitingConfirm.finish_eq_ok.2 ⟨?_, ⟨PublicKey.toBytes q.key, q.name, q.platform⟩, q.key,
    ?_, PublicKey.fromBytes_toBytes q.key, by rwa [hst], rfl⟩
  · exact (tag_eq_iff hp hq _).2 ⟨hcode, hpair, hbinding, hbody⟩
  · rw [hbody, body, decodeBody_encodeBody]

/-- **Unmodified delivery**: both sessions succeed iff their codes and bindings are equal and their
keys and messages differ. -/
theorem learns_both_iff [Ideal] [DecidableEq Key] (p q : Party Key) (now now' : UInt64) :
    ((∃ peer, p.Learns q now peer) ∧ ∃ peer, q.Learns p now' peer) ↔
      p.code = q.code ∧ p.channelBinding = q.channelBinding ∧ p.key ≠ q.key ∧
        p.message ≠ q.message := by
  constructor
  · rintro ⟨⟨peer, st, c, st', c', hp, hq, h⟩, -⟩
    obtain ⟨hcode, -, hbinding, hkey, -⟩ := finish_of_mac hp hq rfl h
    exact ⟨hcode, hbinding, hkey.symm, (answer_eq_ok.1 hq).1⟩
  · rintro ⟨hcode, hbinding, hkey, hmessage⟩
    obtain ⟨k, hk⟩ : ∃ k, finish p.pairing.spake q.message = some k := by
      have := Ideal.finish_message p.code q.code p.scalar q.scalar p.channelBinding
      rwa [show (Pairing.start q.code q.scalar p.channelBinding).2 = q.message from rfl] at this
    obtain ⟨k', hk'⟩ : ∃ k, finish q.pairing.spake p.message = some k := by
      have := Ideal.finish_message q.code p.code q.scalar p.scalar q.channelBinding
      rwa [show (Pairing.start p.code p.scalar q.channelBinding).2 = p.message from rfl] at this
    have hp := answer_eq_ok.2 ⟨hmessage.symm, k, hk, rfl, rfl⟩
    have hq := answer_eq_ok.2 ⟨hmessage, k', hk', rfl, rfl⟩
    exact ⟨⟨_, _, _, _, _, hp, hq,
        finish_eq_of_agree hp hq hcode Sym2.eq_swap hbinding hkey.symm now⟩,
      ⟨_, _, _, _, _, hq, hp,
        finish_eq_of_agree hq hp hcode.symm Sym2.eq_swap hbinding.symm hkey now'⟩⟩

end Party

/-! ### The exchange over a connection -/

/-- `MAX_FRAME`: pairing messages are small and fixed-shape. -/
def maxFrame : ℕ := 4096

/-- What the connection lets happen during an exchange. -/
structure ExchangeIo where
  /-- `control_stream`, and what will arrive on it. -/
  stream : Except NetError Recv
  /-- Writing the message, and then the confirmation. -/
  sendMessage : Except NetError Unit
  sendConfirm : Except NetError Unit

/-- `pairing::exchange`. -/
def exchange [DecidableEq Key] (io : ExchangeIo) (p : Party Key) (now : UInt64) :
    Except NetError (PairedPeer Key) := do
  let recv ← io.stream
  let _ ← writeFrame p.message
  let _ ← io.sendMessage
  let (peerMessage, recv) ← readFrame recv maxFrame
  let (awaiting, confirm) ← p.answer peerMessage
  let _ ← writeFrame (encodeConfirm confirm)
  let _ ← io.sendConfirm
  let (frame, _) ← readFrame recv maxFrame
  let peerConfirm ← (decodeConfirm frame).mapError NetError.postcard
  awaiting.finish peerConfirm now

/-- The peer's messages arrive, and its confirmation passes and names the key `k`: the peer knows
the code. -/
def Confirms (io : ExchangeIo) (p : Party Key) (k : Key) (name platform : String) : Prop :=
  ∃ r₀ r₁ r₂ m frame ours oursConfirm st c confirm, io.stream = .ok r₀ ∧
    writeFrame p.message = .ok ours ∧ io.sendMessage = .ok () ∧
    readFrame r₀ maxFrame = .ok (m, r₁) ∧ p.answer m = .ok (st, c) ∧
    writeFrame (encodeConfirm c) = .ok oursConfirm ∧ io.sendConfirm = .ok () ∧
    readFrame r₁ maxFrame = .ok (frame, r₂) ∧ decodeConfirm frame = .ok confirm ∧
    tag st.macKey st.transcript confirm.body = confirm.mac ∧
    (∃ bytes, decodeBody confirm.body = .ok ⟨bytes, name, platform⟩ ∧
      PublicKey.fromBytes bytes = .ok k) ∧ k ≠ p.key

/-- **When an exchange succeeds.** -/
theorem exchange_eq_ok [DecidableEq Key] {io : ExchangeIo} {p : Party Key} {now : UInt64}
    {peer : PairedPeer Key} : exchange io p now = .ok peer ↔
      ∃ k name platform, Confirms io p k name platform ∧ peer = .new k name platform now := by
  have hmap : ∀ {x : Except String (Confirm P.Tag)} {c}, x.mapError NetError.postcard = .ok c ↔
      x = .ok c := fun {x c} => by cases x <;> simp [Except.mapError]
  simp only [exchange, Rust.bind_eq_ok, hmap]
  constructor
  · rintro ⟨r₀, h₀, ours, h₁, ⟨⟩, h₂, ⟨m, r₁⟩, h₃, ⟨st, c⟩, h₄, oc, h₅, ⟨⟩, h₆, ⟨frame, r₂⟩, h₇,
      confirm, h₈, hfinish⟩
    obtain ⟨hmac, body, k, hbody, hk, hne, rfl⟩ := AwaitingConfirm.finish_eq_ok.1 hfinish
    obtain ⟨-, shared, -, hst, -⟩ := Party.answer_eq_ok.1 h₄
    rw [hst] at hne
    exact ⟨k, body.name, body.platform, ⟨r₀, r₁, r₂, m, frame, ours, oc, st, c, confirm, h₀, h₁, h₂,
      h₃, h₄, h₅, h₆, h₇, h₈, hmac, ⟨body.publicKey, hbody, hk⟩, hne⟩, rfl⟩
  · rintro ⟨k, name, platform, ⟨r₀, r₁, r₂, m, frame, ours, oc, st, c, confirm, h₀, h₁, h₂, h₃, h₄,
      h₅, h₆, h₇, h₈, hmac, ⟨bytes, hbody, hk⟩, hne⟩, rfl⟩
    have hst : st.ourPublicKey = p.key := by
      obtain ⟨-, shared, -, rfl, -⟩ := Party.answer_eq_ok.1 h₄
      rfl
    exact ⟨r₀, h₀, ours, h₁, (), h₂, (m, r₁), h₃, (st, c), h₄, oc, h₅, (), h₆, (frame, r₂), h₇,
      confirm, h₈, AwaitingConfirm.finish_eq_ok.2 ⟨hmac, _, k, hbody, hk, by rwa [hst], rfl⟩⟩

/-- **An exchange succeeds when the other side runs it too**, with the same code and binding, another
key and another message, and the frames fit. -/
theorem exchange_of_honest [Ideal] [DecidableEq Key] {io : ExchangeIo} {p q : Party Key}
    (hcode : p.code = q.code) (hbinding : p.channelBinding = q.channelBinding)
    (hkey : p.key ≠ q.key) {st st' : AwaitingConfirm Key} {c c' : Confirm P.Tag}
    (hp : p.answer q.message = .ok (st, c)) (hq : q.answer p.message = .ok (st', c'))
    {ours oursConfirm : Bytes} (hours : writeFrame p.message = .ok ours)
    (hoursConfirm : writeFrame (encodeConfirm c) = .ok oursConfirm)
    {theirs theirsConfirm : Bytes} (htheirs : writeFrame q.message = .ok theirs)
    (htheirsConfirm : writeFrame (encodeConfirm c') = .ok theirsConfirm)
    (hlen : q.message.length ≤ maxFrame) (hlenConfirm : (encodeConfirm c').length ≤ maxFrame)
    {r : Recv} {more : Bytes} (hr : io.stream = .ok r)
    (hbytes : r.bytes = theirs ++ (theirsConfirm ++ more)) (hsend : io.sendMessage = .ok ())
    (hsendConfirm : io.sendConfirm = .ok ()) (now : UInt64) :
    exchange io p now = .ok (.new q.key q.name q.platform now) := by
  obtain ⟨r₁, hread₁, hr₁, -⟩ := readFrame_writeFrame htheirs hlen hbytes
  obtain ⟨r₂, hread₂, -, -⟩ := readFrame_writeFrame htheirsConfirm hlenConfirm hr₁
  have hfinish := Party.finish_eq_of_agree hp hq hcode Sym2.eq_swap hbinding hkey.symm now
  obtain ⟨hmac, body, k, hbody, hk, hne, heq⟩ := AwaitingConfirm.finish_eq_ok.1 hfinish
  obtain ⟨-, shared, -, hst, -⟩ := Party.answer_eq_ok.1 hp
  rw [hst] at hne
  exact exchange_eq_ok.2 ⟨k, body.name, body.platform, ⟨r, r₁, r₂, q.message, encodeConfirm c', ours,
    oursConfirm, st, c, c', hr, hours, hsend, hread₁, hp, hoursConfirm, hsendConfirm, hread₂,
    decodeConfirm_encodeConfirm c', hmac, ⟨body.publicKey, hbody, hk⟩, hne⟩, heq⟩

/-- A connection can carry an exchange between two devices with the same code to its end. -/
theorem exists_exchange [Ideal] [DecidableEq Key] {p q : Party Key} (hcode : p.code = q.code)
    (hbinding : p.channelBinding = q.channelBinding) (hkey : p.key ≠ q.key)
    {st st' : AwaitingConfirm Key} {c c' : Confirm P.Tag}
    (hp : p.answer q.message = .ok (st, c)) (hq : q.answer p.message = .ok (st', c'))
    (hfits : ∀ bytes ∈ [p.message, q.message, encodeConfirm c, encodeConfirm c'],
      bytes.length ≤ maxFrame) (now : UInt64) :
    ∃ io, exchange io p now = .ok (.new q.key q.name q.platform now) := by
  have hwrite : ∀ bytes : Bytes, bytes.length ≤ maxFrame →
      writeFrame bytes = .ok (Rust.toLeBytes 4 bytes.length ++ bytes) := fun bytes h =>
    writeFrame_of_lt (h.trans_lt (by decide))
  simp only [List.mem_cons, List.not_mem_nil, or_false, forall_eq_or_imp, forall_eq] at hfits
  obtain ⟨h₁, h₂, h₃, h₄⟩ := hfits
  let r : Recv := ⟨[Rust.toLeBytes 4 q.message.length ++ q.message,
    Rust.toLeBytes 4 (encodeConfirm c').length ++ encodeConfirm c'], "connection lost"⟩
  exact ⟨⟨.ok r, .ok (), .ok ()⟩, exchange_of_honest hcode hbinding hkey hp hq (hwrite _ h₁)
    (hwrite _ h₃) (hwrite _ h₂) (hwrite _ h₄) h₂ h₄ rfl
    (show r.bytes = _ ++ (_ ++ []) by simp [r, Recv.bytes]) rfl rfl now⟩

end Net

end Latticed
