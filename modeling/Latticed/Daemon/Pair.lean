import Latticed.Net.Symbolic

/-!
# The three ways to pair

`host_pairing` and `pair` are commands of the user; `pairing_session::exchange` is what a master
and a worker run.  All three run `pairing::exchange` over a connection and insert the peer it
returns into a trust store.  The key in the peer's confirmation and the key that authenticated the
connection are chosen by the peer, and only `pairing_session::exchange` compares them.

* `pins_connection_iff` : when the record that is inserted has the id of the connection's key.
-/

namespace Latticed

namespace Daemon

open Net

variable [P : Primitives] {Key : Type} [PublicKey Key] [DecidableEq Key]

/-- An established connection. -/
structure Channel where
  /-- `peer_id`: the id of the key that authenticated the connection. -/
  peerId : DeviceId
  /-- `channel_binding`. -/
  binding : Bytes32
  /-- What it lets happen during the exchange. -/
  io : ExchangeIo

/-- What every entry point reads. -/
structure Attempt (Key : Type) where
  /-- This device. -/
  key : Key
  name : String
  platform : String
  scalar : P.Scalar
  conn : Channel
  now : UInt64
  /-- The outcome of writing the trust store. -/
  save : Except NetError Unit

/-- What an entry point does: the record it inserts with the store after that, and its result. -/
structure Paired (Key : Type) where
  inserted : Option (PairedPeer Key × TrustStore Key)
  result : Except String DeviceId

namespace Attempt

variable (a : Attempt Key)

/-- This device in the exchange. -/
def party (code : PairingCode) : Party Key :=
  ⟨code, a.scalar, a.conn.binding, a.key, a.name, a.platform⟩

/-- What both commands do over their connection; `load` is the outcome of `TrustStore::load`. -/
def pairOver (code : PairingCode) (load : Except NetError (TrustStore Key)) : Paired Key :=
  match exchange a.conn.io (a.party code) a.now with
  | .error _ =>
    ⟨none, .error "pairing failed — wrong code, or someone is between the two devices"⟩
  | .ok peer => match load with
    | .error e => ⟨none, .error e.display⟩
    | .ok store =>
      let (store, saved) := store.insert peer a.save
      ⟨some (peer, store), (saved.mapError NetError.display).map fun _ => peer.deviceId⟩

/-- `host_pairing`, once a device has connected; the code is drawn. -/
def hostPairing (drawn : Fin 1000000) (load : Except NetError (TrustStore Key)) : Paired Key :=
  a.pairOver (.generate drawn) load

/-- `pair`, once the connection is up; the code is typed in. -/
def pair (code : String) (load : Except NetError (TrustStore Key)) : Paired Key :=
  match PairingCode.parse code with
  | .error e => ⟨none, .error e.display⟩
  | .ok code => a.pairOver code load

/-- What happens on the second control stream of `pairing_session::exchange`, and whether the two
halves of the session end before the timeout. -/
structure SavingIo where
  exchangeInTime : Bool
  savingInTime : Bool
  stream : Except NetError Recv
  sendSaved : Except NetError Unit
  finish : Except String Unit
  /-- The peer finished its half of the stream. -/
  finished : Bool
  /-- `stopped`: the code with which the peer stopped our half, if it did. -/
  stopped : Except String (Option ℕ)

/-- `SAVED`. -/
def saved : Bytes := Rust.asBytes "saved"

/-- The end of `pairing_session::exchange`: both sides say that they have saved the other. -/
def confirmSaved (io : SavingIo) (id : DeviceId) : Except String DeviceId := do
  if io.savingInTime = false then throw "pairing did not finish within 30 seconds"
  let recv ← io.stream.mapError NetError.display
  let _ ← (writeFrame saved).mapError NetError.display
  let _ ← io.sendSaved.mapError NetError.display
  let _ ← io.finish.mapError fun _ => "finishing pairing confirmation"
  let (answer, recv) ← (readFrame recv saved.length).mapError NetError.display
  if answer ≠ saved then throw "peer did not confirm saving the pairing"
  -- read_to_end(0)
  if recv.bytes ≠ [] ∨ io.finished = false then
    throw "reading the end of pairing confirmation"
  match io.stopped with
  | .error _ => throw "delivering pairing confirmation"
  | .ok (some _) => throw "peer stopped the pairing confirmation"
  | .ok none => return id

/-- What `pairing_session::exchange` does with the peer that the exchange returned: the store if the
peer was inserted, and the result so far. -/
def pin (peerId : DeviceId) (save : Except NetError Unit) (store : TrustStore Key)
    (peer : PairedPeer Key) : Option (TrustStore Key) × Except String DeviceId :=
  if peer.deviceId ≠ peerId then
    (none, .error "paired identity did not match the connection's device key")
  else match store.insert peer save with
    | (store, .error _) => (some store, .error "saving the paired device")
    | (store, .ok ()) => (some store, .ok peer.deviceId)

/-- `pairing_session::exchange`. -/
def session (code : PairingCode) (store : TrustStore Key) (io : SavingIo) : Paired Key :=
  if io.exchangeInTime = false then ⟨none, .error "pairing did not finish within 30 seconds"⟩
  else match exchange a.conn.io (a.party code) a.now with
    | .error _ => ⟨none, .error "pairing failed: check the six-digit code on the master"⟩
    | .ok peer =>
      let (inserted, pinned) := pin a.conn.peerId a.save store peer
      ⟨inserted.map (peer, ·), pinned.bind (confirmSaved io)⟩

omit P [PublicKey Key] [DecidableEq Key] in
theorem pin_fst {peerId : DeviceId} {save : Except NetError Unit} {store store' : TrustStore Key}
    {peer : PairedPeer Key} : (pin peerId save store peer).1 = some store' ↔
      peer.deviceId = peerId ∧ (store.insert peer save).1 = store' := by
  unfold pin
  by_cases h : peer.deviceId = peerId
  · cases save <;> simp [h, TrustStore.insert]
  · simp [h]

omit P [PublicKey Key] [DecidableEq Key] in
theorem pin_of_eq {peerId : DeviceId} {peer : PairedPeer Key} (h : peer.deviceId = peerId)
    (save : Except NetError Unit) (store : TrustStore Key) :
    pin peerId save store peer = (some (store.insert peer save).1, match save with
      | .error _ => .error "saving the paired device"
      | .ok () => .ok peerId) := by
  subst h
  cases save <;> simp [pin, TrustStore.insert]

omit P [PublicKey Key] [DecidableEq Key] in
/-- Confirming does not change who was paired with. -/
theorem confirmSaved_id {io : SavingIo} {id id' : DeviceId} (h : confirmSaved io id = .ok id') :
    id' = id := by
  unfold confirmSaved at h
  split_ifs at h
  · cases h
  obtain ⟨recv, -, h⟩ := Rust.bind_eq_ok.1 h
  obtain ⟨_, -, h⟩ := Rust.bind_eq_ok.1 h
  obtain ⟨_, -, h⟩ := Rust.bind_eq_ok.1 h
  obtain ⟨_, -, h⟩ := Rust.bind_eq_ok.1 h
  obtain ⟨⟨answer, recv'⟩, -, h⟩ := Rust.bind_eq_ok.1 h
  dsimp only at h
  by_cases hanswer : answer = saved
  · by_cases hend : recv'.bytes ≠ [] ∨ io.finished = false
    · simp only [hanswer, hend, ne_eq, not_true_eq_false, ↓reduceIte] at h
      cases h
    · simp only [hanswer, hend, ne_eq, not_true_eq_false, ↓reduceIte] at h
      rcases hstopped : io.stopped with why | _ | code <;> simp only [hstopped] at h <;> cases h
      rfl
  · simp only [hanswer, ne_eq, not_false_eq_true, ↓reduceIte] at h
    cases h

end Attempt

/-- The entry points, with what each of them reads besides an `Attempt`. -/
inductive EntryPoint (Key : Type) where
  | hostPairing (drawn : Fin 1000000) (load : Except NetError (TrustStore Key))
  | pair (code : String) (load : Except NetError (TrustStore Key))
  | session (code : PairingCode) (store : TrustStore Key) (io : Attempt.SavingIo)

namespace EntryPoint

/-- Runs an entry point. -/
def run : EntryPoint Key → Attempt Key → Paired Key
  | .hostPairing drawn load, a => a.hostPairing drawn load
  | .pair code load, a => a.pair code load
  | .session code store io, a => a.session code store io

/-- The record that is inserted has the id of the key that authenticated the connection. -/
def PinsConnection (e : EntryPoint Key) (a : Attempt Key) : Prop :=
  ∀ peer store, (e.run a).inserted = some (peer, store) → peer.deviceId = a.conn.peerId

/-- The entry point compares the key in the confirmation with the connection's. -/
def ComparesKeys : EntryPoint Key → Prop
  | .session _ _ _ => True
  | _ => False

/-- The code the device uses, and the store it inserts into, when it has both. -/
def Uses : EntryPoint Key → PairingCode → TrustStore Key → Prop
  | .hostPairing drawn load, code, store => code = .generate drawn ∧ load = .ok store
  | .pair text load, code, store => PairingCode.parse text = .ok code ∧ load = .ok store
  | .session code store _, code', store' => code' = code ∧ store' = store

end EntryPoint

theorem Attempt.pairOver_inserted {a : Attempt Key} {code : PairingCode}
    {load : Except NetError (TrustStore Key)} {peer : PairedPeer Key} :
    (∃ store, (a.pairOver code load).inserted = some (peer, store)) ↔
      exchange a.conn.io (a.party code) a.now = .ok peer ∧ ∃ store, load = .ok store := by
  unfold pairOver
  cases exchange a.conn.io (a.party code) a.now with
  | error e => simp
  | ok p =>
    cases load with
    | error e => simp
    | ok store => simp [TrustStore.insert, eq_comm]

theorem Attempt.pair_inserted {a : Attempt Key} {text : String}
    {load : Except NetError (TrustStore Key)} {peer : PairedPeer Key} :
    (∃ store, (a.pair text load).inserted = some (peer, store)) ↔
      ∃ code, PairingCode.parse text = .ok code ∧
        exchange a.conn.io (a.party code) a.now = .ok peer ∧ ∃ store, load = .ok store := by
  unfold pair
  cases PairingCode.parse text with
  | error e => simp
  | ok code => simp [Attempt.pairOver_inserted]

/-- The session compares the keys before it inserts. -/
theorem Attempt.deviceId_of_session {a : Attempt Key} {code : PairingCode} {store : TrustStore Key}
    {io : SavingIo} {peer : PairedPeer Key} {store' : TrustStore Key}
    (h : (a.session code store io).inserted = some (peer, store')) :
    peer.deviceId = a.conn.peerId := by
  unfold session at h
  split_ifs at h with htime
  cases hexchange : exchange a.conn.io (a.party code) a.now with
  | error e => simp [hexchange] at h
  | ok p =>
    simp only [hexchange, Option.map_eq_some_iff, Prod.mk.injEq] at h
    obtain ⟨store'', hpin, rfl, rfl⟩ := h
    exact (pin_fst.1 hpin).1

/-- The session returns the id of the connection. -/
theorem Attempt.result_of_session {a : Attempt Key} {code : PairingCode} {store : TrustStore Key}
    {io : SavingIo} {id : DeviceId} (h : (a.session code store io).result = .ok id) :
    id = a.conn.peerId := by
  unfold session at h
  split_ifs at h
  cases hexchange : exchange a.conn.io (a.party code) a.now with
  | error e => simp [hexchange] at h
  | ok peer =>
    simp only [hexchange] at h
    obtain ⟨id', hpin, hconfirm⟩ := Rust.exceptBind_eq_ok.1 h
    rw [confirmSaved_id hconfirm]
    by_cases hpeer : peer.deviceId = a.conn.peerId
    · rw [pin_of_eq hpeer] at hpin
      cases hsave : a.save <;> simp_all
    · simp [pin, hpeer] at hpin

/-- The two commands insert what the exchange returns, whatever its key. -/
theorem EntryPoint.pinsConnection_command {run : Paired Key} {a : Attempt Key}
    {uses : PairingCode → TrustStore Key → Prop}
    (hrun : ∀ peer, (∃ store, run.inserted = some (peer, store)) ↔
      ∃ code, exchange a.conn.io (a.party code) a.now = .ok peer ∧ ∃ store, uses code store) :
    (∀ peer store, run.inserted = some (peer, store) → peer.deviceId = a.conn.peerId) ↔
      ∀ code store k name platform, uses code store →
        Confirms a.conn.io (a.party code) k name platform →
        PublicKey.deviceId k = a.conn.peerId := by
  constructor
  · intro h code store k name platform huses hconfirms
    obtain ⟨store', hinserted⟩ := (hrun (.new k name platform a.now)).2
      ⟨code, exchange_eq_ok.2 ⟨k, name, platform, hconfirms, rfl⟩, store, huses⟩
    exact h _ _ hinserted
  · intro h peer store hinserted
    obtain ⟨code, hexchange, store', huses⟩ := (hrun peer).1 ⟨store, hinserted⟩
    obtain ⟨k, name, platform, hconfirms, rfl⟩ := exchange_eq_ok.1 hexchange
    exact h code store' k name platform huses hconfirms

/-- **When pairing pins the connection's own identity**: the entry point compares the keys, or every
key the peer can confirm with is the connection's. -/
theorem pins_connection_iff (e : EntryPoint Key) (a : Attempt Key) :
    e.PinsConnection a ↔ e.ComparesKeys ∨ ∀ code store k name platform, e.Uses code store →
      Confirms a.conn.io (a.party code) k name platform →
      PublicKey.deviceId k = a.conn.peerId := by
  unfold EntryPoint.PinsConnection
  cases e with
  | hostPairing drawn load =>
    simp only [EntryPoint.run, EntryPoint.ComparesKeys, EntryPoint.Uses, false_or, Attempt.hostPairing]
    refine EntryPoint.pinsConnection_command fun peer => Attempt.pairOver_inserted.trans ⟨?_, ?_⟩
    · rintro ⟨h, store, hload⟩
      exact ⟨_, h, store, rfl, hload⟩
    · rintro ⟨code, h, store, rfl, hload⟩
      exact ⟨h, store, hload⟩
  | pair text load =>
    simp only [EntryPoint.run, EntryPoint.ComparesKeys, EntryPoint.Uses, false_or]
    refine EntryPoint.pinsConnection_command fun peer => Attempt.pair_inserted.trans ⟨?_, ?_⟩
    · rintro ⟨code, hparse, h, store, hload⟩
      exact ⟨code, h, store, hparse, hload⟩
    · rintro ⟨code, h, store, hparse, hload⟩
      exact ⟨code, hparse, h, store, hload⟩
  | session code store io =>
    exact iff_of_true (fun _ _ h => Attempt.deviceId_of_session h) (Or.inl trivial)

omit P in
/-- **Another key than the connection's**: whoever was told the code connects with the key 30 and
confirms the key 20, and both commands pin the key 20. -/
theorem pins_connection_fails :
    letI := Symbolic.primitives
    ∃ a : Attempt UInt8, a.conn.peerId = 30 ∧
      (∃ peer store, ((EntryPoint.hostPairing 123 (.ok .empty)).run a).inserted =
        some (peer, store) ∧ peer.deviceId = 20) ∧
      ∃ peer store, ((EntryPoint.pair (PairingCode.generate 123).text (.ok .empty)).run a).inserted =
        some (peer, store) ∧ peer.deviceId = 20 := by
  let _ := Symbolic.primitives
  obtain ⟨st, c, hp, hlen⟩ := Symbolic.laptop_answer
  obtain ⟨st', c', hq, hlen'⟩ := Symbolic.desktop_answer
  obtain ⟨io, hexchange⟩ := exists_exchange (p := Symbolic.laptop) (q := Symbolic.desktop) rfl rfl
    (by decide) hp hq (by simpa using ⟨by decide, by decide, hlen, hlen'⟩) 0
  let a : Attempt UInt8 :=
    ⟨10, "laptop", "macos-aarch64", (1 : UInt8), ⟨30, Vector.replicate 32 7, io⟩, 0, .ok ()⟩
  obtain ⟨store, hhost⟩ : ∃ store, (a.hostPairing 123 (.ok .empty)).inserted = some (_, store) :=
    Attempt.pairOver_inserted.2 ⟨hexchange, _, rfl⟩
  obtain ⟨store', hpair⟩ : ∃ store, (a.pair _ (.ok .empty)).inserted = some (_, store) :=
    Attempt.pair_inserted.2 ⟨_, PairingCode.parse_text (.generate 123), hexchange, _, rfl⟩
  exact ⟨a, rfl, ⟨_, store, hhost, by decide⟩, _, store', hpair, by decide⟩

end Daemon

end Latticed
