import Mathlib.Data.List.Sort
import Latticed.Net.Mesh

/-!
# Dialling a device

A device advertises the addresses it is reachable on.  Discovery is not authenticated, so any trusted
device may answer at any of them.  `Mesh::connect` asks who answered and goes on to the next address
when it was somebody else.

* `mem_usable` : the addresses that are dialled are the advertised ones that are IPv4.
* `Mesh.connect_peerId` : a connection that `Mesh::connect` returns is one to the device that was asked
  for.
-/

namespace Latticed

namespace Net

/-- `SocketAddr`: how it prints, and what is asked of it before it is dialled. -/
structure SocketAddr where
  text : String
  isIpv4 : Bool
  isLoopback : Bool
  deriving DecidableEq

/-- `usable`: the advertised addresses this device can dial, loopback last. -/
def usable (addrs : List SocketAddr) : List SocketAddr :=
  (addrs.filter (·.isIpv4)).insertionSort (·.isLoopback ≤ ·.isLoopback)

theorem mem_usable {addrs : List SocketAddr} {a : SocketAddr} :
    a ∈ usable addrs ↔ a ∈ addrs ∧ a.isIpv4 = true := by
  rw [usable, List.mem_insertionSort, List.mem_filter]

/-- `DiscoveredPeer`, as far as dialling reads it. -/
structure DiscoveredPeer where
  deviceId : DeviceId
  addrs : List SocketAddr

/-- `PeerEvent`. -/
inductive PeerEvent where
  | found (peer : DiscoveredPeer)
  | lost (id : DeviceId)

/-- What comes of dialling an address once. -/
structure Dialled (Key : Type) where
  /-- The number of the connection, if there is one. -/
  number : ℕ
  /-- The key of the device that answers, or why no handshake is finished. -/
  answer : Except NetError Key
  /-- How the transport reports a key that the policy refuses. -/
  refusal : NetError

variable {Key : Type} [PublicKey Key]

/-- `Endpoint::connect`; `policy` is `PeerPolicy::accept`. -/
def Dialled.connect (policy : Key → Bool) (d : Dialled Key) : Except NetError Connection :=
  match d.answer with
  | .error e => .error e
  | .ok key => if policy key then .ok ⟨d.number, PublicKey.deviceId key, .dialer⟩
      else .error d.refusal

/-- A connection comes about iff a device with a trusted key answers. -/
theorem Dialled.connect_eq_ok {policy : Key → Bool} {d : Dialled Key} {c : Connection} :
    d.connect policy = .ok c ↔ ∃ key, d.answer = .ok key ∧ policy key = true ∧
      c = ⟨d.number, PublicKey.deviceId key, .dialer⟩ := by
  unfold connect
  constructor
  · intro h
    cases hanswer : d.answer with
    | error e =>
      rw [hanswer] at h
      cases h
    | ok key =>
      rw [hanswer] at h
      dsimp only at h
      split_ifs at h with hkey
      cases h
      exact ⟨key, rfl, hkey, rfl⟩
  · rintro ⟨key, hanswer, hkey, rfl⟩
    rw [hanswer]
    exact if_pos hkey

namespace Mesh

/-- The loop of `connect`; `dial n` is what comes of the attempt after `n` others. -/
def connectFrom (m : Mesh) (policy : Key → Bool) (dial : ℕ → SocketAddr → Dialled Key)
    (peer : DeviceId) : ℕ → Option NetError → List SocketAddr → Mesh × Except NetError Connection
  | _, last, [] => (m, .error (last.getD (.stream ("no address known for " ++ peer.display))))
  | n, _, addr :: addrs =>
    match (dial n addr).connect policy with
    | .ok conn =>
      -- an address can be stale or reassigned, so who answered matters
      if conn.peerId = peer then
        let (m, conn) := m.adopt conn
        (m, .ok conn)
      else
        let why := addr.text ++ " answered as " ++ conn.peerId.display ++ ", expected " ++ peer.display
        m.connectFrom policy dial peer (n + 1) (some (.stream why)) addrs
    | .error e => m.connectFrom policy dial peer (n + 1) (some e) addrs

/-- `connect`. -/
def connect (m : Mesh) (policy : Key → Bool) (dial : ℕ → SocketAddr → Dialled Key)
    (peer : DeviceId) (addrs : List SocketAddr) : Mesh × Except NetError Connection :=
  match m.get peer with
  | some live => (m, .ok live)
  | none => m.connectFrom policy dial peer 0 none addrs

/-- Every connection is registered under the device it leads to. -/
def Keyed (m : Mesh) : Prop := ∀ id c, m.peers id = some c → c.peerId = id

theorem new_keyed (localId : DeviceId) : (new localId).Keyed := by
  intro id c h
  cases h

theorem Keyed.get {m : Mesh} (h : m.Keyed) {peer : DeviceId} {c : Connection}
    (hget : m.get peer = some c) : c.peerId = peer :=
  h peer c (get_eq_some.1 hget).1

theorem Keyed.register {m : Mesh} (h : m.Keyed) (conn : Connection) : (m.register conn).Keyed := by
  intro id c hc
  by_cases hid : id = conn.peerId
  · subst hid
    rw [register_peers_self] at hc
    cases hc
    rfl
  · rw [register_peers_of_ne m conn hid] at hc
    exact h id c hc

/-- `adopt` returns a connection to the device at the other end of the one it is given. -/
theorem Keyed.adopt {m : Mesh} (h : m.Keyed) (conn : Connection) :
    (m.adopt conn).1.Keyed ∧ (m.adopt conn).2.peerId = conn.peerId := by
  rcases m.adopt_cases conn with ⟨existing, hget, -, heq⟩ | ⟨existing, -, -, heq⟩ | ⟨-, heq⟩
  · rw [heq]
    exact ⟨h, h.get hget⟩
  · rw [heq]
    exact ⟨Keyed.register (m := m.close existing.number) h conn, rfl⟩
  · rw [heq]
    exact ⟨h.register conn, rfl⟩

theorem Keyed.connectFrom {m : Mesh} (h : m.Keyed) {policy : Key → Bool}
    {dial : ℕ → SocketAddr → Dialled Key} {peer : DeviceId} {n : ℕ} {last : Option NetError}
    {addrs : List SocketAddr} : (m.connectFrom policy dial peer n last addrs).1.Keyed ∧
      ∀ c, (m.connectFrom policy dial peer n last addrs).2 = .ok c → c.peerId = peer := by
  induction addrs generalizing n last with
  | nil => exact ⟨h, fun c hc => (by cases hc)⟩
  | cons addr addrs ih =>
    rw [Mesh.connectFrom]
    cases (dial n addr).connect policy with
    | error e => exact ih
    | ok conn =>
      dsimp only
      split_ifs with hpeer
      · obtain ⟨hkeyed, hadopt⟩ := h.adopt conn
        refine ⟨hkeyed, fun c hc => ?_⟩
        cases hc
        exact hadopt.trans hpeer
      · exact ih

/-- **Who answered matters**: a connection that `connect` returns leads to the device that was asked
for, whoever answers where. -/
theorem connect_peerId {m : Mesh} (h : m.Keyed) (policy : Key → Bool)
    (dial : ℕ → SocketAddr → Dialled Key) (peer : DeviceId) (addrs : List SocketAddr) :
    (m.connect policy dial peer addrs).1.Keyed ∧
      ∀ c, (m.connect policy dial peer addrs).2 = .ok c → c.peerId = peer := by
  unfold connect
  cases hget : m.get peer with
  | some live =>
    refine ⟨h, fun c hc => ?_⟩
    cases hc
    exact h.get hget
  | none => exact h.connectFrom

end Mesh

end Net

end Latticed
