import Latticed.Daemon.Pair
import Latticed.LTS.Basic

/-!
# A pairing session between two honest devices

Both devices run `pairing_session::exchange` over one connection: the exchange on one stream, then
`saved` on another.  Each stream delivers its frames in order; either side may give up at any
moment (the timeout, or a connection that is lost), and saving the trust store may fail.

* `mutual_of_reachable` : when one side has returned `Ok`, both stores hold the other device.
* `untouched_of_reachable` : when the codes differ no store changes and no side returns `Ok`.
-/

namespace Latticed

namespace Daemon

open Net

variable [P : Primitives] {Key : Type} [PublicKey Key] [DecidableEq Key]

/-- Two devices with a connection between them. -/
structure Encounter (Key : Type) where
  code : Side → PairingCode
  scalar : Side → P.Scalar
  key : Side → Key
  name : Side → String
  platform : Side → String
  /-- The certificate each side presents. -/
  cert : Side → Bytes

namespace Encounter

/-- How far a side has come. -/
inductive Phase (Key : Type) where
  | start
  /-- Our SPAKE2 message is sent. -/
  | awaitMessage
  /-- Our confirmation is sent. -/
  | awaitConfirm (state : AwaitingConfirm Key)
  /-- The peer is inserted and saved. -/
  | inserted (id : DeviceId)
  /-- `saved` is sent. -/
  | awaitSaved (id : DeviceId)
  /-- The peer's `saved` is read. -/
  | awaitEnd (id : DeviceId)
  /-- The end of the peer's stream is read. -/
  | awaitStopped (id : DeviceId)
  | returned (result : Except String DeviceId)

/-- One side: its program counter, its trust store, and the frames it has sent on each stream. -/
structure Local (Key : Type) where
  phase : Phase Key
  store : TrustStore Key
  sent : List Bytes
  sentSaved : List Bytes

/-- Both sides. -/
abbrev State (Key : Type) := Side → Local Key

variable (T : Encounter Key)

/-- A side as a party of the exchange; both ends of the connection derive the same binding. -/
def party (side : Side) : Party Key where
  code := T.code side
  scalar := T.scalar side
  channelBinding := channelBinding P.sha256 (T.cert side) (T.cert side.other)
  key := T.key side
  name := T.name side
  platform := T.platform side

/-- `conn.peer_id()`. -/
def peerId (side : Side) : DeviceId := PublicKey.deviceId (T.key side.other)

/-- Returns an error. -/
def Local.fail (l : Local Key) (why : String) : Local Key :=
  { l with phase := .returned (.error why) }

/-- The peer's SPAKE2 message is read: `key_exchange`, then our confirmation is written. -/
def onMessage (side : Side) (l : Local Key) (message : Bytes) : Local Key :=
  match (T.party side).answer message with
  | .error _ => l.fail "pairing failed: check the six-digit code on the master"
  | .ok (st, c) =>
    { l with phase := .awaitConfirm st, sent := l.sent ++ [Primitives.encodeConfirm c] }

/-- The peer's confirmation is read: `finish`, then the peer is checked and inserted. -/
def onConfirm (side : Side) (l : Local Key) (st : AwaitingConfirm Key) (frame : Bytes)
    (now : UInt64) (save : Except NetError Unit) : Local Key :=
  match Primitives.decodeConfirm frame with
  | .error _ => l.fail "pairing failed: check the six-digit code on the master"
  | .ok confirm => match st.finish confirm now with
    | .error _ => l.fail "pairing failed: check the six-digit code on the master"
    | .ok peer =>
      let (inserted, pinned) := Attempt.pin (T.peerId side) save l.store peer
      { l with
        store := inserted.getD l.store
        phase := match pinned with
          | .error why => .returned (.error why)
          | .ok id => .inserted id }

/-- The peer's `saved` is read. -/
def onSaved (l : Local Key) (id : DeviceId) (frame : Bytes) : Local Key :=
  if frame = Attempt.saved then { l with phase := .awaitEnd id }
  else l.fail "peer did not confirm saving the pairing"

/-- What happens at a side. -/
inductive Event where
  | send
  | message
  | confirm
  | sendSaved
  | saved
  | ended
  | stopped
  /-- The side gives up: the timeout, a lost connection, or any stream error. -/
  | giveUp
  deriving DecidableEq, Repr

/-- What a side can do, given what the other has sent.  The `k`-th read of a stream takes the
`k`-th frame the other side sent on it, and frames above the ceiling are refused. -/
inductive Move (side : Side) (l other : Local Key) : Event → Local Key → Prop
  | send : l.phase = .start →
      Move side l other .send
        { l with phase := .awaitMessage, sent := l.sent ++ [(T.party side).message] }
  | message (m : Bytes) : l.phase = .awaitMessage → other.sent[0]? = some m →
      m.length ≤ maxFrame → Move side l other .message (T.onMessage side l m)
  | confirm (st : AwaitingConfirm Key) (frame : Bytes) (now : UInt64)
      (save : Except NetError Unit) : l.phase = .awaitConfirm st → other.sent[1]? = some frame →
      frame.length ≤ maxFrame → Move side l other .confirm (T.onConfirm side l st frame now save)
  | sendSaved (id : DeviceId) : l.phase = .inserted id →
      Move side l other .sendSaved
        { l with phase := .awaitSaved id, sentSaved := l.sentSaved ++ [Attempt.saved] }
  | saved (id : DeviceId) (frame : Bytes) : l.phase = .awaitSaved id →
      other.sentSaved[0]? = some frame → frame.length ≤ Attempt.saved.length →
      Move side l other .saved (onSaved l id frame)
  | ended (id : DeviceId) : l.phase = .awaitEnd id → other.sentSaved.length = 1 →
      Move side l other .ended { l with phase := .awaitStopped id }
  | stopped (id : DeviceId) : l.phase = .awaitStopped id →
      Move side l other .stopped { l with phase := .returned (.ok id) }
  | giveUp (why : String) : (∀ result, l.phase ≠ .returned result) →
      Move side l other .giveUp (l.fail why)

/-- One side moves. -/
inductive Step : State Key → Side × Event → State Key → Prop
  | move {s : State Key} {side : Side} {event : Event} {l : Local Key} :
      T.Move side (s side) (s side.other) event l → Step s (side, event) (Function.update s side l)

/-- The connection is up. -/
def init (stores : Side → TrustStore Key) : State Key :=
  fun side => ⟨.start, stores side, [], []⟩

/-- The two devices, started with any trust stores. -/
def system (stores : Side → TrustStore Key) : System (State Key) (Side × Event) where
  start s := s = init stores
  step := T.Step

/-- The store holds the other device: its key, its name and its platform, paired directly. -/
def Holds (side : Side) (store : TrustStore Key) : Prop :=
  ∃ now, store.get (T.peerId side) =
    some (.new (T.key side.other) (T.name side.other) (T.platform side.other) now)

/-- A side has inserted the other device. -/
def PhaseOk (side : Side) (l : Local Key) : Prop :=
  match l.phase with
  | .start => l.sent = []
  | .awaitMessage => l.sent.length = 1
  | .awaitConfirm st => ∃ c, (T.party side).answer (T.party side.other).message = .ok (st, c)
  | .inserted id | .awaitSaved id | .awaitEnd id | .awaitStopped id | .returned (.ok id) =>
    id = T.peerId side ∧ T.Holds side l.store
  | .returned (.error _) => True

/-- What holds at a side, whatever the other one does. -/
structure Own (side : Side) (l : Local Key) : Prop where
  message : ∀ m, l.sent[0]? = some m → m = (T.party side).message
  confirm : ∀ frame, l.sent[1]? = some frame → ∃ st c,
    (T.party side).answer (T.party side.other).message = .ok (st, c) ∧
      frame = Primitives.encodeConfirm c
  saved : l.sentSaved ≠ [] → T.Holds side l.store
  phase : T.PhaseOk side l

variable {T}

omit [DecidableEq Key] in
theorem Own.fail {side : Side} {l : Local Key} (h : T.Own side l) (why : String) :
    T.Own side (l.fail why) :=
  ⟨h.message, h.confirm, h.saved, trivial⟩

omit [DecidableEq Key] in
theorem Own.onMessage {side : Side} {l : Local Key} (h : T.Own side l)
    (hphase : l.phase = .awaitMessage) :
    T.Own side (T.onMessage side l (T.party side.other).message) := by
  have hlen : l.sent.length = 1 := by simpa [PhaseOk, hphase] using h.phase
  unfold Encounter.onMessage
  cases ha : (T.party side).answer (T.party side.other).message with
  | error e => exact h.fail _
  | ok r =>
    obtain ⟨st, c⟩ := r
    refine ⟨fun m hm => h.message m ?_, fun frame hframe => ⟨st, c, ha, ?_⟩, h.saved, ⟨c, ha⟩⟩
    · rwa [List.getElem?_append_left (by omega)] at hm
    · rw [List.getElem?_append_right (by omega), hlen] at hframe
      exact (Option.some.inj hframe).symm

/-- What a side learns from the other's confirmation. -/
theorem finish_eq [Ideal] {side : Side} {st st' : AwaitingConfirm Key} {c c' : Confirm P.Tag}
    (hp : (T.party side).answer (T.party side.other).message = .ok (st, c))
    (hq : (T.party side.other).answer (T.party side).message = .ok (st', c')) {now : UInt64}
    {peer : PairedPeer Key} (h : st.finish c' now = .ok peer) :
    T.code side = T.code side.other ∧
      peer = .new (T.key side.other) (T.name side.other) (T.platform side.other) now := by
  obtain ⟨hcode, -, -, -, hpeer⟩ := Party.finish_of_mac hp hq rfl h
  exact ⟨hcode, hpeer⟩

/-- The confirmation of the other side is refused, or its device is inserted. -/
theorem onConfirm_cases [Ideal] {side : Side} {l : Local Key} {st st' : AwaitingConfirm Key}
    {c c' : Confirm P.Tag} (hp : (T.party side).answer (T.party side.other).message = .ok (st, c))
    (hq : (T.party side.other).answer (T.party side).message = .ok (st', c')) (now : UInt64)
    (save : Except NetError Unit) :
    (∃ why, T.onConfirm side l st (Primitives.encodeConfirm c') now save = l.fail why) ∨
      T.code side = T.code side.other ∧ ∃ store phase,
        T.onConfirm side l st (Primitives.encodeConfirm c') now save =
          { l with store := store, phase := phase } ∧ T.Holds side store ∧
        (phase = .inserted (T.peerId side) ∨ ∃ why, phase = .returned (.error why)) := by
  unfold Encounter.onConfirm
  simp only [Primitives.decodeConfirm_encodeConfirm]
  cases hfinish : st.finish c' now with
  | error e => exact Or.inl ⟨_, rfl⟩
  | ok peer =>
    obtain ⟨hcode, rfl⟩ := finish_eq hp hq hfinish
    have hid : (PairedPeer.new (T.key side.other) (T.name side.other) (T.platform side.other)
        now).deviceId = T.peerId side := rfl
    simp only [Attempt.pin_of_eq hid, Option.getD_some]
    refine Or.inr ⟨hcode, _, _, rfl, ⟨now, TrustStore.get_insert_self l.store _ save⟩, ?_⟩
    cases save with
    | error e => exact Or.inr ⟨_, rfl⟩
    | ok u => exact Or.inl rfl

/-- **A side keeps what holds of it**, and a store that holds the other device goes on holding it. -/
theorem Own.move [Ideal] {side : Side} {l other l' : Local Key} {event : Event}
    (h : T.Own side l) (ho : T.Own side.other other) (hmove : T.Move side l other event l') :
    T.Own side l' ∧ (T.Holds side l.store → T.Holds side l'.store) := by
  have hphase := h.phase
  unfold PhaseOk at hphase
  cases hmove with
  | send hstart =>
    rw [hstart] at hphase
    refine ⟨⟨fun m hm => ?_, fun frame hframe => ?_, h.saved, ?_⟩, id⟩
    · simpa [hphase, eq_comm] using hm
    · simp [hphase] at hframe
    · simp [PhaseOk, hphase]
  | message m hawait hm _ =>
    obtain rfl := ho.message m hm
    refine ⟨h.onMessage hawait, fun hs => ?_⟩
    unfold Encounter.onMessage
    cases (T.party side).answer (T.party side.other).message with
    | error e => exact hs
    | ok r => exact hs
  | confirm st frame now save hawait hframe _ =>
    rw [hawait] at hphase
    obtain ⟨c, hp⟩ := hphase
    -- what is read was sent by the other side of this exchange
    obtain ⟨st', c', hq, rfl⟩ := ho.confirm frame hframe
    rw [Side.other_other] at hq
    rcases onConfirm_cases (l := l) hp hq now save with
      ⟨why, heq⟩ | ⟨-, store, phase, heq, hholds, hres⟩ <;> rw [heq]
    · exact ⟨h.fail why, id⟩
    · refine ⟨⟨h.message, h.confirm, fun _ => hholds, ?_⟩, fun _ => hholds⟩
      rcases hres with rfl | ⟨why, rfl⟩
      · exact ⟨rfl, hholds⟩
      · trivial
  | sendSaved id hinserted =>
    rw [hinserted] at hphase
    exact ⟨⟨h.message, h.confirm, fun _ => hphase.2, hphase⟩, fun hs => hs⟩
  | saved id frame hawait _ _ =>
    rw [hawait] at hphase
    unfold onSaved
    split_ifs
    · exact ⟨⟨h.message, h.confirm, h.saved, hphase⟩, fun hs => hs⟩
    · exact ⟨h.fail _, fun hs => hs⟩
  | ended id hawait _ =>
    rw [hawait] at hphase
    exact ⟨⟨h.message, h.confirm, h.saved, hphase⟩, fun hs => hs⟩
  | stopped id hawait =>
    rw [hawait] at hphase
    exact ⟨⟨h.message, h.confirm, h.saved, hphase⟩, fun hs => hs⟩
  | giveUp why _ => exact ⟨h.fail why, id⟩

/-- The side has read the other's `saved`. -/
def Local.Told (l : Local Key) : Prop :=
  match l.phase with
  | .awaitEnd _ | .awaitStopped _ | .returned (.ok _) => True
  | _ => False

theorem not_told_onConfirm (side : Side) (l : Local Key) (st : AwaitingConfirm Key)
    (frame : Bytes) (now : UInt64) (save : Except NetError Unit) :
    ¬ (T.onConfirm side l st frame now save).Told := by
  unfold Encounter.onConfirm
  cases Primitives.decodeConfirm frame with
  | error e => exact not_false
  | ok confirm =>
    dsimp only
    cases st.finish confirm now with
    | error e => exact not_false
    | ok peer =>
      dsimp only
      rcases Attempt.pin (T.peerId side) save l.store peer with ⟨store, why | id⟩ <;>
        exact not_false

/-- A side is told by a frame that the other has sent. -/
theorem Move.told {side : Side} {l other l' : Local Key} {event : Event}
    (hmove : T.Move side l other event l') (h : l'.Told) : l.Told ∨ other.sentSaved ≠ [] := by
  cases hmove with
  | send hstart => exact absurd h not_false
  | message m hawait _ _ =>
    unfold Encounter.onMessage at h
    cases ha : (T.party side).answer m <;> simp [ha, Local.fail, Local.Told] at h
  | confirm st frame now save hawait _ _ =>
    exact absurd h (not_told_onConfirm side l st frame now save)
  | sendSaved id hinserted => exact absurd h not_false
  | saved id frame hawait hframe _ =>
    refine Or.inr fun hnil => ?_
    simp [hnil] at hframe
  | ended id hawait _ => exact Or.inl (by rw [Local.Told, hawait]; trivial)
  | stopped id hawait => exact Or.inl (by rw [Local.Told, hawait]; trivial)
  | giveUp why _ => exact absurd h not_false

/-- Both sides in order, and whoever was told is held by the other. -/
structure Mutual (T : Encounter Key) (s : State Key) : Prop where
  own : ∀ side, T.Own side (s side)
  told : ∀ side, (s side).Told → T.Holds side.other (s side.other).store

theorem Mutual.step [Ideal] {s s' : State Key} {event : Side × Event} (h : T.Mutual s)
    (hs : T.Step s event s') : T.Mutual s' := by
  obtain @⟨side, event, l, hmove⟩ := hs
  obtain ⟨hown, hstore⟩ := (h.own side).move (h.own side.other) hmove
  have hne : side.other ≠ side := Side.other_ne side
  refine ⟨fun t => ?_, fun t ht => ?_⟩
  · rcases Side.eq_or_eq_other t side with rfl | rfl
    · rwa [Function.update_self]
    · rw [Function.update_of_ne hne]
      exact h.own _
  · rcases Side.eq_or_eq_other t side with rfl | rfl
    · rw [Function.update_self] at ht
      rw [Function.update_of_ne hne]
      rcases hmove.told ht with hold | hsaved
      · exact h.told t hold
      · exact (h.own t.other).saved hsaved
    · rw [Function.update_of_ne hne] at ht
      have hheld := h.told _ ht
      rw [Side.other_other] at hheld ⊢
      rw [Function.update_self]
      exact hstore hheld

theorem mutual_of_reachable [Ideal] {stores : Side → TrustStore Key} {s : State Key}
    (h : (T.system stores).Reachable s) : T.Mutual s := by
  refine h.invariant ?_ fun _ _ _ hs hstep => hs.step hstep
  rintro s rfl
  exact ⟨fun side => ⟨by simp [init], by simp [init], by simp [init], rfl⟩,
    fun side htold => absurd htold not_false⟩

/-- No side has got past the confirmation, and its store is as it was. -/
def Untouched (stores : Side → TrustStore Key) (side : Side) (l : Local Key) : Prop :=
  l.store = stores side ∧ match l.phase with
    | .start | .awaitMessage | .awaitConfirm _ | .returned (.error _) => True
    | _ => False

theorem Untouched.move [Ideal] {stores : Side → TrustStore Key} {side : Side}
    {l other l' : Local Key} {event : Event} (hcode : T.code side ≠ T.code side.other)
    (hown : T.Own side l) (ho : T.Own side.other other) (h : Untouched stores side l)
    (hmove : T.Move side l other event l') : Untouched stores side l' := by
  obtain ⟨hstore, hphase⟩ := h
  have hok := hown.phase
  unfold PhaseOk at hok
  cases hmove with
  | send hstart => exact ⟨hstore, trivial⟩
  | message m hawait _ _ =>
    unfold Encounter.onMessage
    cases (T.party side).answer m with
    | error e => exact ⟨hstore, trivial⟩
    | ok r => exact ⟨hstore, trivial⟩
  | confirm st frame now save hawait hframe _ =>
    rw [hawait] at hok
    obtain ⟨c, hp⟩ := hok
    obtain ⟨st', c', hq, rfl⟩ := ho.confirm frame hframe
    rw [Side.other_other] at hq
    rcases onConfirm_cases (l := l) hp hq now save with ⟨why, heq⟩ | ⟨hsame, -⟩
    · rw [heq]
      exact ⟨hstore, trivial⟩
    · exact absurd hsame hcode
  | sendSaved id hinserted => rw [hinserted] at hphase; exact hphase.elim
  | saved id frame hawait _ _ => rw [hawait] at hphase; exact hphase.elim
  | ended id hawait _ => rw [hawait] at hphase; exact hphase.elim
  | stopped id hawait => rw [hawait] at hphase; exact hphase.elim
  | giveUp why _ => exact ⟨hstore, trivial⟩

theorem untouched_of_reachable [Ideal] {stores : Side → TrustStore Key} {s : State Key}
    (hcode : T.code .a ≠ T.code .b) (h : (T.system stores).Reachable s) (side : Side) :
    Untouched stores side (s side) := by
  have hcode' : ∀ side, T.code side ≠ T.code side.other := fun side => by
    cases side
    · exact hcode
    · exact hcode.symm
  induction h generalizing side with
  | start hs =>
    obtain rfl := hs
    exact ⟨rfl, trivial⟩
  | step hreach hs ih =>
    have hinv := mutual_of_reachable hreach
    obtain @⟨t, event, l, hmove⟩ := hs
    rcases Side.eq_or_eq_other side t with rfl | rfl
    · rw [Function.update_self]
      exact (ih side).move (hcode' side) (hinv.own side) (hinv.own side.other) hmove
    · rw [Function.update_of_ne (Side.other_ne t)]
      exact ih _

/-! ### A session that succeeds -/

/-- The state of both sides. -/
def both (la lb : Local Key) : State Key
  | .a => la
  | .b => lb

theorem reachable_moveA {stores : Side → TrustStore Key} {la lb l : Local Key} {event : Event}
    (h : (T.system stores).Reachable (both la lb)) (hmove : T.Move .a la lb event l) :
    (T.system stores).Reachable (both l lb) := by
  have heq : Function.update (both la lb) .a l = both l lb := by
    funext side
    cases side <;> rfl
  have hstep : T.Step (both la lb) (.a, event) _ := Step.move hmove
  exact heq ▸ h.step hstep

theorem reachable_moveB {stores : Side → TrustStore Key} {la lb l : Local Key} {event : Event}
    (h : (T.system stores).Reachable (both la lb)) (hmove : T.Move .b lb la event l) :
    (T.system stores).Reachable (both la l) := by
  have heq : Function.update (both la lb) .b l = both la l := by
    funext side
    cases side <;> rfl
  have hstep : T.Step (both la lb) (.b, event) _ := Step.move hmove
  exact heq ▸ h.step hstep

omit [DecidableEq Key] in
theorem onMessage_eq {side : Side} {m : Bytes} {st : AwaitingConfirm Key} {c : Confirm P.Tag}
    (h : (T.party side).answer m = .ok (st, c)) (l : Local Key) :
    T.onMessage side l m =
      { l with phase := .awaitConfirm st, sent := l.sent ++ [Primitives.encodeConfirm c] } := by
  rw [onMessage, h]

theorem onConfirm_eq {side : Side} {st : AwaitingConfirm Key} {c : Confirm P.Tag} {now : UInt64}
    {peer : PairedPeer Key} (h : st.finish c now = .ok peer) (hid : peer.deviceId = T.peerId side)
    (l : Local Key) :
    T.onConfirm side l st (Primitives.encodeConfirm c) now (.ok ()) =
      { l with phase := .inserted (T.peerId side), store := (l.store.insert peer (.ok ())).1 } := by
  simp only [onConfirm, Primitives.decodeConfirm_encodeConfirm, h, Attempt.pin_of_eq hid,
    Option.getD_some]

/-- With the same code, frames that fit and saves that succeed, a run ends with `Ok`. -/
theorem exists_success [Ideal] (T : Encounter Key) (stores : Side → TrustStore Key)
    {st st' : AwaitingConfirm Key} {c c' : Confirm P.Tag}
    (hp : (T.party .a).answer (T.party .b).message = .ok (st, c))
    (hq : (T.party .b).answer (T.party .a).message = .ok (st', c'))
    (hcode : T.code .a = T.code .b) (hkey : T.key .a ≠ T.key .b)
    (hfits : ∀ bytes ∈ [(T.party .a).message, (T.party .b).message, Primitives.encodeConfirm c,
      Primitives.encodeConfirm c'], bytes.length ≤ maxFrame) :
    ∃ s, (T.system stores).Reachable s ∧ (s .a).phase = .returned (.ok (T.peerId .a)) := by
  simp only [List.mem_cons, List.not_mem_nil, or_false, forall_eq_or_imp, forall_eq] at hfits
  obtain ⟨h₁, h₂, h₃, h₄⟩ := hfits
  have hbinding : (T.party .a).channelBinding = (T.party .b).channelBinding :=
    channelBinding_comm _ _ _
  have hfa := Party.finish_eq_of_agree hp hq hcode Sym2.eq_swap hbinding hkey.symm 0
  have hfb := Party.finish_eq_of_agree hq hp hcode.symm Sym2.eq_swap hbinding.symm hkey 0
  have h : (T.system stores).Reachable
      (both ⟨.start, stores .a, [], []⟩ ⟨.start, stores .b, [], []⟩) :=
    System.Reachable.start (funext fun side => by cases side <;> rfl)
  replace h := reachable_moveA h (.send rfl)
  replace h := reachable_moveB h (.send rfl)
  replace h := reachable_moveA h (.message _ rfl rfl h₂)
  replace h := reachable_moveB h (.message _ rfl (by rw [onMessage_eq hp]; rfl) h₁)
  rw [onMessage_eq hp, onMessage_eq hq] at h
  replace h := reachable_moveA h (.confirm st _ 0 (.ok ()) rfl rfl h₄)
  rw [onConfirm_eq hfa rfl] at h
  replace h := reachable_moveB h (.confirm st' _ 0 (.ok ()) rfl rfl h₃)
  rw [onConfirm_eq hfb rfl] at h
  replace h := reachable_moveA h (.sendSaved _ rfl)
  replace h := reachable_moveB h (.sendSaved _ rfl)
  replace h := reachable_moveA h (.saved _ _ rfl rfl le_rfl)
  rw [onSaved, if_pos rfl] at h
  replace h := reachable_moveA h (.ended _ rfl rfl)
  replace h := reachable_moveA h (.stopped _ rfl)
  exact ⟨_, h, rfl⟩

/-- **Pairing success is mutual**: when one side has returned `Ok`, it names the other device and
both stores hold the other device; and when the codes differ neither store changes and neither
side returns `Ok`. -/
theorem session_mutual [Ideal] (T : Encounter Key) (stores : Side → TrustStore Key) {s : State Key}
    (h : (T.system stores).Reachable s) :
    (∀ side id, (s side).phase = .returned (.ok id) →
        id = T.peerId side ∧ ∀ t, T.Holds t (s t).store) ∧
      (T.code .a ≠ T.code .b → ∀ side, (s side).store = stores side ∧
        ∀ id, (s side).phase ≠ .returned (.ok id)) := by
  have hinv := mutual_of_reachable h
  refine ⟨fun side id hphase => ?_, fun hcode side => ?_⟩
  · have hok := (hinv.own side).phase
    rw [PhaseOk, hphase] at hok
    have htold : (s side).Told := by
      rw [Local.Told, hphase]
      trivial
    refine ⟨hok.1, fun t => ?_⟩
    rcases Side.eq_or_eq_other t side with rfl | rfl
    · exact hok.2
    · exact hinv.told side htold
  · obtain ⟨hstore, hphase⟩ := untouched_of_reachable hcode h side
    refine ⟨hstore, fun id hreturned => ?_⟩
    rw [hreturned] at hphase
    exact hphase

/-- A laptop and a desktop with the code 000123. -/
def desk : letI := Symbolic.primitives; Encounter UInt8 :=
  letI := Symbolic.primitives
  { code := fun _ => Symbolic.code
    scalar := Side.pick (1 : UInt8) (2 : UInt8)
    key := Side.pick 10 20
    name := Side.pick "laptop" "desktop"
    platform := Side.pick "macos-aarch64" "linux-x86_64"
    cert := Side.pick [1] [2] }

omit P in
/-- The laptop's success means that both stores hold the other. -/
theorem session_mutual_desk :
    letI := Symbolic.primitives
    ∃ s : State UInt8, (s .a).phase = .returned (.ok (desk.peerId .a)) ∧
      ∀ t, desk.Holds t (s t).store := by
  let _ := Symbolic.primitives
  have hp := (Party.answer_eq_ok (p := desk.party .a) (m := (desk.party .b).message)).2
    ⟨by decide, _, rfl, rfl, rfl⟩
  have hq := (Party.answer_eq_ok (p := desk.party .b) (m := (desk.party .a).message)).2
    ⟨by decide, _, rfl, rfl, rfl⟩
  obtain ⟨s, hs, hok⟩ := exists_success desk (fun _ => .empty) hp hq rfl (by decide)
    (by decide +kernel)
  exact ⟨s, hok, ((session_mutual desk _ hs).1 .a _ hok).2⟩

end Encounter

end Daemon

end Latticed
