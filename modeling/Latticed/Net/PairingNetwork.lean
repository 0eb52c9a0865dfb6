import Latticed.LTS.Basic
import Latticed.Net.Symbolic
import Mathlib.Logic.Function.Basic

/-!
# Pairing against a hostile network

Any number of pairing sessions of honest devices run at once.  The network delivers what it likes:
any bytes as a SPAKE2 message, and any confirmation that it can make.  A MAC under the key of a
session can only be computed by that session's key holders, so a confirmation that carries one was
taken from a confirmation that some session sent (`State.Unforged`).

* `authentic_of_reachable` : what a session learns was said by a session with the same code, the
  same two messages and the same channel binding.
-/

namespace Latticed

namespace Net

namespace PairingNetwork

variable [P : Primitives] {Key : Type} [PublicKey Key] [DecidableEq Key]

/-- How far a session has come. -/
inductive Phase (Key : Type) where
  /-- Awaiting the peer's SPAKE2 message. -/
  | started
  /-- `key_exchange` returned an error. -/
  | refused (error : NetError)
  /-- The confirmation is sent, and the peer's is awaited. -/
  | awaiting (peerMessage : Bytes) (state : AwaitingConfirm Key) (confirm : Confirm P.Tag)
  /-- `finish` returned. -/
  | finished (peerMessage : Bytes) (state : AwaitingConfirm Key) (confirm : Confirm P.Tag)
      (result : Except NetError (PairedPeer Key))

/-- One run of the exchange by an honest device. -/
structure Session (Key : Type) where
  party : Party Key
  phase : Phase Key

/-- The sessions that were started, by number. -/
abbrev State (Key : Type) := ℕ → Option (Session Key)

/-- What a session received and made of it, once it has sent its confirmation. -/
def Session.exchanged (s : Session Key) : Option (Bytes × AwaitingConfirm Key × Confirm P.Tag) :=
  match s.phase with
  | .awaiting m st c | .finished m st c _ => some (m, st, c)
  | _ => none

/-- What the session learned. -/
def Session.learned (s : Session Key) : Option (PairedPeer Key) :=
  match s.phase with
  | .finished _ _ _ (.ok peer) => some peer
  | _ => none

/-- What a session does with a SPAKE2 message. -/
def receive (p : Party Key) (peerMessage : Bytes) : Phase Key :=
  match p.answer peerMessage with
  | .error e => .refused e
  | .ok (st, c) => .awaiting peerMessage st c

/-- The network can make this confirmation: if its MAC is a tag under the key of a session, it was
copied from a confirmation that was sent. -/
def Unforged (s : State Key) (confirm : Confirm P.Tag) : Prop :=
  ∀ n session m st c input, s n = some session → session.exchanged = some (m, st, c) →
    confirm.mac = Primitives.hmac (Primitives.tagBytes st.macKey) input →
    ∃ n' session' m' st' c', s n' = some session' ∧ session'.exchanged = some (m', st', c') ∧
      confirm.mac = c'.mac

/-- What happens. -/
inductive Act (Key : Type) where
  | start (n : ℕ) (party : Party Key)
  | message (n : ℕ) (peerMessage : Bytes)
  | confirm (n : ℕ) (confirm : Confirm P.Tag) (now : UInt64)

/-- The steps of the sessions under the control of the network. -/
inductive Step : State Key → Act Key → State Key → Prop
  | start {s : State Key} {n : ℕ} (party : Party Key) : s n = none →
      Step s (.start n party) (Function.update s n (some ⟨party, .started⟩))
  | message {s : State Key} {n : ℕ} {party : Party Key} (peerMessage : Bytes) :
      s n = some ⟨party, .started⟩ →
      Step s (.message n peerMessage) (Function.update s n (some ⟨party, receive party peerMessage⟩))
  | confirm {s : State Key} {n : ℕ} {party : Party Key} {m : Bytes} {st : AwaitingConfirm Key}
      {c : Confirm P.Tag} (confirm : Confirm P.Tag) (now : UInt64) :
      s n = some ⟨party, .awaiting m st c⟩ → Unforged s confirm →
      Step s (.confirm n confirm now)
        (Function.update s n (some ⟨party, .finished m st c (st.finish confirm now)⟩))

/-- Honest sessions and a hostile network. -/
def system (Key : Type) [PublicKey Key] [DecidableEq Key] : System (State Key) (Act Key) where
  start s := s = fun _ => none
  step := Step

/-- A session said this: it sent its confirmation with the given code, messages and binding, and
named this key, name and platform in it. -/
def Said (s : State Key) (code : PairingCode) (messages : Sym2 Bytes) (binding : Bytes32)
    (peer : PairedPeer Key) : Prop :=
  ∃ n session m st c, s n = some session ∧ session.exchanged = some (m, st, c) ∧
    session.party.code = code ∧ s(session.party.message, m) = messages ∧
    session.party.channelBinding = binding ∧ peer.publicKey = session.party.key ∧
    peer.name = session.party.name ∧ peer.platform = session.party.platform

/-- Everything a session learned was said to it, and not by its own device. -/
def Session.Authentic (s : State Key) (session : Session Key) : Prop :=
  ∀ m st c peer, session.exchanged = some (m, st, c) → session.learned = some peer →
    Said s session.party.code s(session.party.message, m) session.party.channelBinding peer ∧
      peer.publicKey ≠ session.party.key

/-- What a session has exchanged is what its party answers. -/
def Session.Faithful (session : Session Key) : Prop :=
  ∀ m st c, session.exchanged = some (m, st, c) → session.party.answer m = .ok (st, c)

omit [DecidableEq Key] in
theorem exchanged_receive {p : Party Key} {m m' : Bytes} {st : AwaitingConfirm Key}
    {c : Confirm P.Tag}
    (h : (Session.mk p (receive p m)).exchanged = some (m', st, c)) : p.answer m' = .ok (st, c) := by
  unfold receive at h
  cases ha : p.answer m with
  | error e => simp [ha, Session.exchanged] at h
  | ok r =>
    obtain ⟨st', c'⟩ := r
    simp only [ha, Session.exchanged, Option.some.injEq, Prod.mk.injEq] at h
    obtain ⟨rfl, rfl, rfl⟩ := h
    exact ha

omit [DecidableEq Key] in
theorem learned_receive (p : Party Key) (m : Bytes) :
    (Session.mk p (receive p m)).learned = none := by
  unfold receive
  cases p.answer m <;> rfl

omit [PublicKey Key] [DecidableEq Key] in
/-- What holds of all sessions, and of a session in its new state, holds of all of them after. -/
theorem forall_update {s : State Key} {n : ℕ} {x : Session Key} {R : Session Key → Prop}
    (h : ∀ k y, s k = some y → R y) (hx : R x) :
    ∀ k y, Function.update s n (some x) k = some y → R y := by
  intro k y hk
  by_cases hkn : k = n
  · subst hkn
    rw [Function.update_self] at hk
    exact Option.some.inj hk ▸ hx
  · rw [Function.update_of_ne hkn] at hk
    exact h k y hk

theorem faithful_step {s s' : State Key} {act : Act Key}
    (h : ∀ n session, s n = some session → session.Faithful) (hs : Step s act s') :
    ∀ n session, s' n = some session → session.Faithful := by
  cases hs with
  | start party hn => exact forall_update h fun m st c hex => by cases hex
  | message peerMessage hn => exact forall_update h fun m st c hex => exchanged_receive hex
  | confirm confirm now hn _ => exact forall_update h fun m st c hex => h _ _ hn m st c hex

/-- A session keeps its party and what it has exchanged. -/
theorem Step.keeps {s s' : State Key} {act : Act Key} (hs : Step s act s') {n : ℕ}
    {session : Session Key} {x : Bytes × AwaitingConfirm Key × Confirm P.Tag}
    (hn : s n = some session) (hex : session.exchanged = some x) :
    ∃ session', s' n = some session' ∧ session'.party = session.party ∧
      session'.exchanged = some x := by
  cases hs with
  | @start k party hk =>
    have hnk : n ≠ k := by
      rintro rfl
      rw [hk] at hn
      cases hn
    exact ⟨session, (Function.update_of_ne hnk _ _).trans hn, rfl, hex⟩
  | @message k party peerMessage hk =>
    have hnk : n ≠ k := by
      rintro rfl
      obtain rfl := Option.some.inj (hk.symm.trans hn)
      cases hex
    exact ⟨session, (Function.update_of_ne hnk _ _).trans hn, rfl, hex⟩
  | @confirm k party m st c confirm now hk _ =>
    by_cases hnk : n = k
    · subst hnk
      obtain rfl := Option.some.inj (hk.symm.trans hn)
      exact ⟨_, Function.update_self _ _ _, rfl, hex⟩
    · exact ⟨session, (Function.update_of_ne hnk _ _).trans hn, rfl, hex⟩

theorem Said.step {s s' : State Key} {act : Act Key} (hs : Step s act s') {code : PairingCode}
    {messages : Sym2 Bytes} {binding : Bytes32} {peer : PairedPeer Key}
    (h : Said s code messages binding peer) : Said s' code messages binding peer := by
  obtain ⟨n, session, m, st, c, hn, hex, hsaid⟩ := h
  obtain ⟨session', hn', hparty, hex'⟩ := hs.keeps hn hex
  exact ⟨n, session', m, st, c, hn', hex', hparty ▸ hsaid⟩

/-- A session that finishes well learns what a session said: its own key guards the confirmation. -/
theorem said_of_finish [Ideal] {s : State Key}
    (h : ∀ n session, s n = some session → session.Faithful) {n : ℕ} {session : Session Key}
    {m : Bytes} {st : AwaitingConfirm Key} {c confirm : Confirm P.Tag} {now : UInt64}
    {peer : PairedPeer Key} (hn : s n = some session) (hex : session.exchanged = some (m, st, c))
    (hconfirm : Unforged s confirm) (hfinish : st.finish confirm now = .ok peer) :
    Said s session.party.code s(session.party.message, m) session.party.channelBinding peer ∧
      peer.publicKey ≠ session.party.key := by
  have hmac := (AwaitingConfirm.finish_eq_ok.1 hfinish).1
  obtain ⟨k, sender, m', st', c', hk, hex', hmac'⟩ := hconfirm n session m st c _ hn hex hmac.symm
  obtain ⟨hcode, hpair, hbinding, hkey, rfl⟩ :=
    Party.finish_of_mac (h n session hn m st c hex) (h k sender hk m' st' c' hex') hmac' hfinish
  exact ⟨⟨k, sender, m', st', c', hk, hex', hcode.symm, hpair.symm, hbinding.symm, rfl, rfl, rfl⟩,
    hkey⟩

theorem authentic_step [Ideal] {s s' : State Key} {act : Act Key}
    (hf : ∀ n session, s n = some session → session.Faithful)
    (h : ∀ n session, s n = some session → session.Authentic s) (hs : Step s act s') :
    ∀ n session, s' n = some session → session.Authentic s' := by
  have hold : ∀ n session, s n = some session → session.Authentic s' := by
    intro n session hn m st c peer hex hlearned
    obtain ⟨hsaid, hne⟩ := h n session hn m st c peer hex hlearned
    exact ⟨hsaid.step hs, hne⟩
  cases hs with
  | start party hn => exact forall_update hold fun m st c peer hex => by cases hex
  | message peerMessage hn =>
    refine forall_update hold fun m st c peer _ hlearned => ?_
    rw [learned_receive] at hlearned
    cases hlearned
  | @confirm n party m₀ st₀ c₀ confirm now hn hconfirm =>
    have hstep := Step.confirm confirm now hn hconfirm
    refine forall_update hold fun m st c peer hex hlearned => ?_
    obtain ⟨rfl, rfl, rfl⟩ : m₀ = m ∧ st₀ = st ∧ c₀ = c := by
      simpa [Session.exchanged] using hex
    cases hfinish : st₀.finish confirm now with
    | error e => simp [Session.learned, hfinish] at hlearned
    | ok peer' =>
      obtain rfl : peer' = peer := by simpa [Session.learned, hfinish] using hlearned
      -- the tag can only have been made by the party that answered
      obtain ⟨hsaid, hne⟩ := said_of_finish hf hn rfl hconfirm hfinish
      rw [hfinish] at hstep
      exact ⟨hsaid.step hstep, hne⟩

theorem authentic_of_reachable [Ideal] {s : State Key} (h : (system Key).Reachable s) :
    ∀ n session, s n = some session → session.Authentic s := by
  refine (System.Reachable.invariant (I := fun s =>
    (∀ n session, s n = some session → session.Faithful) ∧
      ∀ n session, s n = some session → session.Authentic s) ?_ ?_ h).2
  · rintro s rfl
    exact ⟨fun n session hn => (by cases hn), fun n session hn => (by cases hn)⟩
  · rintro s act s' ⟨hf, ha⟩ hs
    exact ⟨faithful_step hf hs, authentic_step hf ha hs⟩

/-- A network that delivers everything lets two sessions that agree succeed. -/
theorem exists_learned [Ideal] (p q : Party Key) (hcode : p.code = q.code)
    (hbinding : p.channelBinding = q.channelBinding) (hkey : p.key ≠ q.key)
    (hmessage : p.message ≠ q.message) (now : UInt64) :
    ∃ (s : State Key) (m : Bytes) (st : AwaitingConfirm Key) (c : Confirm P.Tag),
      (system Key).Reachable s ∧
        s 0 = some ⟨p, .finished m st c (.ok (.new q.key q.name q.platform now))⟩ := by
  obtain ⟨⟨peer, st, c, st', c', hp, hq, hfinish⟩, -⟩ :=
    (Party.learns_both_iff p q now now).2 ⟨hcode, hbinding, hkey, hmessage⟩
  obtain ⟨-, -, -, -, rfl⟩ := Party.finish_of_mac hp hq rfl hfinish
  have hrp : receive p q.message = .awaiting q.message st c := by rw [receive, hp]
  have hrq : receive q p.message = .awaiting p.message st' c' := by rw [receive, hq]
  have h : (system Key).Reachable fun _ => none := System.Reachable.start rfl
  replace h := h.step (Step.start (n := 0) p rfl)
  replace h := h.step (Step.start (n := 1) q rfl)
  replace h := h.step (Step.message (n := 0) q.message rfl)
  replace h := h.step (Step.message (n := 1) p.message rfl)
  rw [hrp, hrq] at h
  replace h := h.step (Step.confirm (n := 0) c' now rfl
    fun _ _ _ _ _ _ _ _ _ => ⟨1, _, p.message, st', c', rfl, rfl, rfl⟩)
  rw [hfinish] at h
  exact ⟨_, q.message, st, c, h, rfl⟩

/-- **Pairing is authentic**: against any network, what a session learns was said by a session with
the same code, messages and binding, and not under its own key; and two sessions whose messages
are delivered unmodified both succeed iff their codes and bindings are equal and their keys and
messages differ. -/
theorem pairing_authentic [Ideal] :
    (∀ s : State Key, (system Key).Reachable s →
        ∀ n session, s n = some session → session.Authentic s) ∧
      ∀ (p q : Party Key) (now now' : UInt64),
        ((∃ peer, p.Learns q now peer) ∧ ∃ peer, q.Learns p now' peer) ↔
          p.code = q.code ∧ p.channelBinding = q.channelBinding ∧ p.key ≠ q.key ∧
            p.message ≠ q.message :=
  ⟨fun _ => authentic_of_reachable, Party.learns_both_iff⟩

omit P in
/-- A laptop learns of the desktop with the same code. -/
theorem pairing_authentic_laptop :
    letI := Symbolic.primitives
    ∃ (s : State UInt8) (session : Session UInt8) (peer : PairedPeer UInt8),
      s 0 = some session ∧ session.learned = some peer ∧ peer.name = "desktop" ∧
        session.Authentic s ∧ ∃ peer, Symbolic.laptop.Learns Symbolic.desktop 0 peer := by
  let _ := Symbolic.primitives
  have hcode : Symbolic.laptop.code = Symbolic.desktop.code := rfl
  have hbinding : Symbolic.laptop.channelBinding = Symbolic.desktop.channelBinding := rfl
  have hkey : Symbolic.laptop.key ≠ Symbolic.desktop.key := by decide
  have hmessage : Symbolic.laptop.message ≠ Symbolic.desktop.message := by decide
  obtain ⟨s, m, st, c, hs, h0⟩ :=
    exists_learned Symbolic.laptop Symbolic.desktop hcode hbinding hkey hmessage 0
  exact ⟨s, _, _, h0, rfl, rfl, pairing_authentic.1 s hs 0 _ h0,
    ((pairing_authentic.2 _ _ 0 0).2 ⟨hcode, hbinding, hkey, hmessage⟩).1⟩

end PairingNetwork

end Net

end Latticed
