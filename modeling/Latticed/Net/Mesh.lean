import Mathlib.Data.Finset.Max
import Latticed.LTS.Basic
import Latticed.Net.Identity

/-!
# The connection registry

A `Mesh` keeps one connection per peer.  Two devices may dial each other at the same time and end
up with several connections; `adopt` settles that on each side without talking, by keeping the
connection whose dialer has the lower id.

`Meeting` is the system of two devices that adopt the same connections, each in its own order,
while the closes of each side reach the other at any time.  The comment on `adopt` says that both
sides discard the same connections.  `agreement_iff` says when they do: always iff exactly one of
the connections was dialled by the lowest device that dialled any.  Two connections with the same
dialer are a tie that each side breaks by the order in which it sees them.
-/

namespace Latticed

namespace Net

/-- Which side opened a connection. -/
inductive Role where
  | dialer
  | listener
  deriving DecidableEq, Repr

/-- One device's end of a connection. -/
structure Connection where
  /-- Tells connections apart (`Arc::ptr_eq`). -/
  number : ℕ
  peerId : DeviceId
  role : Role
  deriving DecidableEq, Repr

/-- The registry of one device, and the connections that are closed as far as this device knows. -/
structure Mesh where
  localId : DeviceId
  peers : DeviceId → Option Connection
  closed : List ℕ

namespace Mesh

/-- A registry with no connections. -/
def new (localId : DeviceId) : Mesh := ⟨localId, fun _ => none, []⟩

variable (m : Mesh)

/-- `is_live`: there is no `close_reason`. -/
def isLive (conn : Connection) : Bool := conn.number ∉ m.closed

/-- The registered connection to a peer, if it is live. -/
def get (peer : DeviceId) : Option Connection := (m.peers peer).filter m.isLive

/-- `dialer_of`: which device opened this connection. -/
def dialerOf (conn : Connection) : DeviceId :=
  match conn.role with
  | .dialer => m.localId
  | .listener => conn.peerId

/-- `conn.inner.close`, or the close of the other side arriving. -/
def close (number : ℕ) : Mesh := { m with closed := number :: m.closed }

/-- `peers.insert`. -/
def register (conn : Connection) : Mesh :=
  { m with peers := Function.update m.peers conn.peerId (some conn) }

/-- `adopt`. -/
def adopt (conn : Connection) : Mesh × Connection :=
  match m.get conn.peerId with
  | some existing =>
    if m.dialerOf existing ≤ m.dialerOf conn then (m.close conn.number, existing)
    else ((m.close existing.number).register conn, conn)
  | none => (m.register conn, conn)

@[simp] theorem close_localId (n : ℕ) : (m.close n).localId = m.localId := rfl
@[simp] theorem close_peers (n : ℕ) : (m.close n).peers = m.peers := rfl
@[simp] theorem close_closed (n : ℕ) : (m.close n).closed = n :: m.closed := rfl
@[simp] theorem register_localId (c : Connection) : (m.register c).localId = m.localId := rfl
@[simp] theorem register_closed (c : Connection) : (m.register c).closed = m.closed := rfl
@[simp] theorem register_peers_self (c : Connection) :
    (m.register c).peers c.peerId = some c := by simp [register]
@[simp] theorem register_peers_of_ne (c : Connection) {id : DeviceId} (h : id ≠ c.peerId) :
    (m.register c).peers id = m.peers id := Function.update_of_ne h _ _

variable {m}

theorem get_eq_some {peer : DeviceId} {c : Connection} :
    m.get peer = some c ↔ m.peers peer = some c ∧ c.number ∉ m.closed := by
  simp [get, isLive]

/-- **What `adopt` can do**: discard the new connection for a live one that wins, replace a live one
that loses, or register the new one where there was none. -/
theorem adopt_cases (m : Mesh) (conn : Connection) :
    (∃ existing, m.get conn.peerId = some existing ∧ m.dialerOf existing ≤ m.dialerOf conn ∧
        m.adopt conn = (m.close conn.number, existing)) ∨
      (∃ existing, m.get conn.peerId = some existing ∧ m.dialerOf conn < m.dialerOf existing ∧
        m.adopt conn = ((m.close existing.number).register conn, conn)) ∨
      (m.get conn.peerId = none ∧ m.adopt conn = (m.register conn, conn)) := by
  unfold adopt
  cases hget : m.get conn.peerId with
  | none => exact Or.inr (Or.inr ⟨rfl, rfl⟩)
  | some existing =>
    by_cases hle : m.dialerOf existing ≤ m.dialerOf conn
    · exact Or.inl ⟨existing, rfl, hle, if_pos hle⟩
    · exact Or.inr (Or.inl ⟨existing, rfl, not_le.1 hle, if_neg hle⟩)

end Mesh

/-! ### Two devices with several connections between them -/

/-- A connection between the two devices. -/
structure Link where
  number : ℕ
  dialer : Side
  deriving DecidableEq, Repr

/-- Two devices and the connections that were established between them. -/
structure Meeting where
  id : Side → DeviceId
  id_ne : id .a ≠ id .b
  links : List Link
  nonempty : links ≠ []
  /-- Different connections have different numbers. -/
  nodup : (links.map Link.number).Nodup

namespace Meeting

/-- The registries of both devices and the connections each has still to adopt. -/
structure State where
  mesh : Side → Mesh
  pending : Side → List Link

/-- What happens. -/
inductive Act where
  /-- A device adopts a connection. -/
  | adopt (side : Side) (link : Link)
  /-- The close of a connection reaches a device. -/
  | deliver (side : Side) (number : ℕ)

variable (T : Meeting)

/-- The end of a connection at a device. -/
def endAt (side : Side) (link : Link) : Connection where
  number := link.number
  peerId := T.id side.other
  role := if link.dialer = side then .dialer else .listener

/-- Both registries are empty and nothing is adopted yet. -/
def init : State where
  mesh side := Mesh.new (T.id side)
  pending _ := T.links

/-- A device adopts a connection. -/
def adoptAt (s : State) (side : Side) (link : Link) : State where
  mesh := Function.update s.mesh side ((s.mesh side).adopt (T.endAt side link)).1
  pending := Function.update s.pending side ((s.pending side).filter (· ≠ link))

/-- A device learns that a connection is closed. -/
def State.deliverAt (s : State) (side : Side) (number : ℕ) : State :=
  { s with mesh := Function.update s.mesh side ((s.mesh side).close number) }

/-- The steps of the two devices.  What is closed at one device and not yet at the other is a
close in flight. -/
inductive Step : State → Act → State → Prop
  | adopt {s : State} (side : Side) (link : Link) : link ∈ s.pending side →
      Step s (.adopt side link) (T.adoptAt s side link)
  | deliver {s : State} (side : Side) (number : ℕ) : number ∈ (s.mesh side.other).closed →
      Step s (.deliver side number) (s.deliverAt side number)

/-- The two devices as a transition system. -/
def system : System State Act where
  start s := s = T.init
  step := T.Step

/-- Everything is adopted, and every close has reached the other side. -/
def State.Complete (s : State) : Prop :=
  (∀ side, s.pending side = []) ∧
    ∀ n, n ∈ (s.mesh .a).closed ↔ n ∈ (s.mesh .b).closed

/-- Both devices hold the same connection for each other, and it is open. -/
def Agree (s : State) : Prop :=
  ∃ link ∈ T.links, ∀ side, (s.mesh side).get (T.id side.other) = some (T.endAt side link)

/-- `w` is the only connection of the lowest device that dialled any. -/
def Winner (w : Link) : Prop :=
  w ∈ T.links ∧ ∀ link ∈ T.links, link ≠ w → T.id w.dialer < T.id link.dialer

variable {T}

@[simp] theorem adoptAt_mesh_self (s : State) (side : Side) (link : Link) :
    (T.adoptAt s side link).mesh side = ((s.mesh side).adopt (T.endAt side link)).1 := by
  simp [adoptAt]

@[simp] theorem adoptAt_pending_self (s : State) (side : Side) (link : Link) :
    (T.adoptAt s side link).pending side = (s.pending side).filter (· ≠ link) := by
  simp [adoptAt]

theorem adoptAt_mesh_of_ne (s : State) {t side : Side} (h : t ≠ side) (link : Link) :
    (T.adoptAt s side link).mesh t = s.mesh t := Function.update_of_ne h _ _

theorem adoptAt_pending_of_ne (s : State) {t side : Side} (h : t ≠ side) (link : Link) :
    (T.adoptAt s side link).pending t = s.pending t := Function.update_of_ne h _ _

@[simp] theorem deliverAt_mesh_self (s : State) (side : Side) (n : ℕ) :
    (s.deliverAt side n).mesh side = (s.mesh side).close n := by
  simp [State.deliverAt]

theorem deliverAt_mesh_of_ne (s : State) {t side : Side} (h : t ≠ side) (n : ℕ) :
    (s.deliverAt side n).mesh t = s.mesh t := Function.update_of_ne h _ _

@[simp] theorem deliverAt_pending (s : State) (side : Side) (n : ℕ) :
    (s.deliverAt side n).pending = s.pending := rfl

theorem eq_of_number_eq {l l' : Link} (hl : l ∈ T.links) (hl' : l' ∈ T.links)
    (h : l.number = l'.number) : l = l' :=
  List.inj_on_of_nodup_map T.nodup hl hl' h

@[simp] theorem endAt_number (side : Side) (link : Link) :
    (T.endAt side link).number = link.number := rfl

@[simp] theorem endAt_peerId (side : Side) (link : Link) :
    (T.endAt side link).peerId = T.id side.other := rfl

/-- Both ends of a connection agree on who dialled it. -/
theorem dialerOf_endAt {m : Mesh} {side : Side} (hm : m.localId = T.id side) (link : Link) :
    m.dialerOf (T.endAt side link) = T.id link.dialer := by
  rcases Side.eq_or_eq_other link.dialer side with h | h
  · simp [Mesh.dialerOf, endAt, h, hm]
  · simp [Mesh.dialerOf, endAt, h]

/-- What holds at each device in every reachable state: the registry only holds connections of the
list that the device has adopted. -/
structure Wf (T : Meeting) (side : Side) (m : Mesh) (pending : List Link) : Prop where
  localId : m.localId = T.id side
  subset : ∀ l ∈ pending, l ∈ T.links
  entry : ∀ c, m.peers (T.id side.other) = some c →
    ∃ l ∈ T.links, l ∉ pending ∧ c = T.endAt side l

theorem wf_init (side : Side) : Wf T side (T.init.mesh side) (T.init.pending side) where
  localId := rfl
  subset _ h := h
  entry c h := by simp [init, Mesh.new] at h

/-- **What `adopt` does to the entry for the other device**, in terms of the connections. -/
theorem Wf.adopt_cases {side : Side} {m : Mesh} {ps : List Link} (h : Wf T side m ps)
    (link : Link) :
    (∃ l ∈ T.links, l ∉ ps ∧ m.peers (T.id side.other) = some (T.endAt side l) ∧
        l.number ∉ m.closed ∧ T.id l.dialer ≤ T.id link.dialer ∧
        (m.adopt (T.endAt side link)).1 = m.close link.number) ∨
      (∃ l ∈ T.links, l ∉ ps ∧ m.peers (T.id side.other) = some (T.endAt side l) ∧
        l.number ∉ m.closed ∧ T.id link.dialer < T.id l.dialer ∧
        (m.adopt (T.endAt side link)).1 = (m.close l.number).register (T.endAt side link)) ∨
      ((∀ c, m.peers (T.id side.other) = some c → c.number ∈ m.closed) ∧
        (m.adopt (T.endAt side link)).1 = m.register (T.endAt side link)) := by
  rcases m.adopt_cases (T.endAt side link) with
    ⟨c, hget, hle, heq⟩ | ⟨c, hget, hlt, heq⟩ | ⟨hget, heq⟩
  · obtain ⟨hc, hlive⟩ := Mesh.get_eq_some.1 hget
    obtain ⟨l, hl, hps, rfl⟩ := h.entry c hc
    rw [dialerOf_endAt h.localId, dialerOf_endAt h.localId] at hle
    exact Or.inl ⟨l, hl, hps, hc, hlive, hle, by rw [heq]; rfl⟩
  · obtain ⟨hc, hlive⟩ := Mesh.get_eq_some.1 hget
    obtain ⟨l, hl, hps, rfl⟩ := h.entry c hc
    rw [dialerOf_endAt h.localId, dialerOf_endAt h.localId] at hlt
    exact Or.inr (Or.inl ⟨l, hl, hps, hc, hlive, hlt, by rw [heq]; rfl⟩)
  · refine Or.inr (Or.inr ⟨fun c hc => ?_, by rw [heq]⟩)
    by_contra hlive
    rw [endAt_peerId, Mesh.get_eq_some.2 ⟨hc, hlive⟩] at hget
    cases hget

theorem Wf.close {side : Side} {m : Mesh} {ps : List Link} (h : Wf T side m ps) (n : ℕ) :
    Wf T side (m.close n) ps :=
  ⟨h.localId, h.subset, h.entry⟩

/-- Taking a connection off the list of those still to adopt. -/
theorem Wf.take {side : Side} {m : Mesh} {ps : List Link} (h : Wf T side m ps) (link : Link) :
    Wf T side m (ps.filter (· ≠ link)) := by
  refine ⟨h.localId, fun l hl => h.subset l (List.mem_filter.1 hl).1, fun c hc => ?_⟩
  obtain ⟨l, hl, hps, rfl⟩ := h.entry c hc
  exact ⟨l, hl, fun hin => hps (List.mem_filter.1 hin).1, rfl⟩

theorem Wf.register {side : Side} {m : Mesh} {ps : List Link} (h : Wf T side m ps) {link : Link}
    (hlink : link ∈ T.links) :
    Wf T side (m.register (T.endAt side link)) (ps.filter (· ≠ link)) := by
  refine ⟨h.localId, (h.take link).subset, fun c hc => ⟨link, hlink, by simp, ?_⟩⟩
  have := m.register_peers_self (T.endAt side link)
  rw [endAt_peerId, hc] at this
  exact Option.some.inj this

theorem Wf.adopt {side : Side} {m : Mesh} {ps : List Link} (h : Wf T side m ps) {link : Link}
    (hlink : link ∈ ps) :
    Wf T side (m.adopt (T.endAt side link)).1 (ps.filter (· ≠ link)) := by
  have hmem := h.subset link hlink
  rcases h.adopt_cases link with
    ⟨l, -, -, -, -, -, heq⟩ | ⟨l, -, -, -, -, -, heq⟩ | ⟨-, heq⟩ <;> rw [heq]
  · exact (h.take link).close link.number
  · exact (h.close l.number).register hmem
  · exact h.register hmem

/-- A property of each device on its own is kept by a step when `adopt` keeps it and when the close
of a connection that the other side has closed keeps it. -/
theorem step_sides {P : Side → Mesh → List Link → Prop} {s s' : State} {act : Act}
    (hs : T.Step s act s') (h : ∀ side, P side (s.mesh side) (s.pending side))
    (hadopt : ∀ side, ∀ link ∈ s.pending side, P side ((s.mesh side).adopt (T.endAt side link)).1
      ((s.pending side).filter (· ≠ link)))
    (hclose : ∀ side, ∀ n ∈ (s.mesh side.other).closed,
      P side ((s.mesh side).close n) (s.pending side)) :
    ∀ side, P side (s'.mesh side) (s'.pending side) := by
  intro t
  cases hs with
  | adopt side link hlink =>
    by_cases ht : t = side
    · subst ht
      rw [adoptAt_mesh_self, adoptAt_pending_self]
      exact hadopt t link hlink
    · rw [adoptAt_mesh_of_ne s ht, adoptAt_pending_of_ne s ht]
      exact h t
  | deliver side n hn =>
    rw [deliverAt_pending]
    by_cases ht : t = side
    · subst ht
      rw [deliverAt_mesh_self]
      exact hclose t n hn
    · rw [deliverAt_mesh_of_ne s ht]
      exact h t

/-! ### One connection of the lowest dialer -/

/-- The winner is open at this device, and registered once it is adopted. -/
structure Holds (T : Meeting) (w : Link) (side : Side) (m : Mesh) (pending : List Link) :
    Prop where
  alive : w.number ∉ m.closed
  entry : w ∉ pending → m.peers (T.id side.other) = some (T.endAt side w)

theorem Holds.close {w : Link} {side : Side} {m : Mesh} {ps : List Link} (h : Holds T w side m ps)
    {n : ℕ} (hn : n ≠ w.number) : Holds T w side (m.close n) ps :=
  ⟨by simpa [hn.symm] using h.alive, h.entry⟩

theorem Holds.adopt {w : Link} (hw : T.Winner w) {side : Side} {m : Mesh} {ps : List Link}
    (hwf : Wf T side m ps) (h : Holds T w side m ps) {link : Link} (hlink : link ∈ ps) :
    Holds T w side (m.adopt (T.endAt side link)).1 (ps.filter (· ≠ link)) := by
  have hmem := hwf.subset link hlink
  have hnum : ∀ l ∈ T.links, l ≠ w → l.number ≠ w.number :=
    fun l hl hne heq => hne (eq_of_number_eq hl hw.1 heq)
  rcases hwf.adopt_cases link with
    ⟨l, hl, hps, hpeer, -, hle, heq⟩ | ⟨l, hl, hps, hpeer, -, hlt, heq⟩ | ⟨hdead, heq⟩ <;> rw [heq]
  · -- the connection held wins, so the new one is not the winner
    have hne : link ≠ w := by
      rintro rfl
      exact absurd hle (not_le.2 (hw.2 l hl (by rintro rfl; exact hps hlink)))
    refine (Holds.mk h.alive fun hnot => h.entry fun hin => hnot ?_).close (hnum link hmem hne)
    exact List.mem_filter.2 ⟨hin, by simpa using hne.symm⟩
  · -- the connection held loses, so it is not the winner
    have hne : l ≠ w := by
      rintro rfl
      exact absurd (hw.2 link hmem (by rintro rfl; exact hps hlink)) (not_lt.2 hlt.le)
    refine ⟨by simpa [(hnum l hl hne).symm] using h.alive, fun hnot => ?_⟩
    by_cases hlw : link = w
    · subst hlw
      exact Mesh.register_peers_self _ (T.endAt side link)
    · have hin : w ∉ ps := fun hin => hnot (List.mem_filter.2 ⟨hin, by simpa using Ne.symm hlw⟩)
      rw [h.entry hin] at hpeer
      have := congrArg Connection.number (Option.some.inj hpeer)
      exact absurd this.symm (hnum l hl hne)
  · refine ⟨h.alive, fun hnot => ?_⟩
    by_cases hlw : link = w
    · subst hlw
      exact Mesh.register_peers_self _ (T.endAt side link)
    -- the winner is registered and open, so there is a live entry
    · have hin : w ∉ ps := fun hin => hnot (List.mem_filter.2 ⟨hin, by simpa using Ne.symm hlw⟩)
      exact absurd (hdead _ (h.entry hin)) h.alive

theorem holds_of_reachable {w : Link} (hw : T.Winner w) {s : State} (h : T.system.Reachable s)
    (side : Side) : Holds T w side (s.mesh side) (s.pending side) := by
  refine (System.Reachable.invariant
    (I := fun s => (∀ side, Wf T side (s.mesh side) (s.pending side)) ∧
      ∀ side, Holds T w side (s.mesh side) (s.pending side)) ?_ ?_ h).2 side
  · rintro s rfl
    exact ⟨wf_init, fun t => ⟨by simp [init, Mesh.new], fun hnot => absurd hw.1 hnot⟩⟩
  · rintro s act s' ⟨hwf, hs⟩ hstep
    refine ⟨step_sides hstep hwf (fun t link hlink => (hwf t).adopt hlink)
      (fun t n _ => (hwf t).close n), step_sides hstep hs ?_ ?_⟩
    · exact fun t link hlink => Holds.adopt hw (hwf t) (hs t) hlink
    · intro t n hn
      exact (hs t).close (by rintro rfl; exact (hs t.other).alive hn)

/-- With a single connection of the lowest dialer the two devices agree on it. -/
theorem Winner.agree {w : Link} (hw : T.Winner w) {s : State} (h : T.system.Reachable s)
    (hdone : s.Complete) : T.Agree s := by
  refine ⟨w, hw.1, fun side => Mesh.get_eq_some.2 ?_⟩
  have := holds_of_reachable hw h side
  exact ⟨this.entry (by simp [hdone.1 side]), this.alive⟩

/-! ### Several connections of the lowest dialer -/

/-- No connection was dialled by a lower device. -/
def Least (T : Meeting) (c : Link) : Prop :=
  c ∈ T.links ∧ ∀ link ∈ T.links, T.id c.dialer ≤ T.id link.dialer

theorem exists_least (T : Meeting) : ∃ c, T.Least c := by
  obtain ⟨c, hc, hle⟩ := T.links.toFinset.exists_min_image (fun l => T.id l.dialer)
    (List.toFinset_nonempty_iff _ |>.2 T.nonempty)
  exact ⟨c, List.mem_toFinset.1 hc, fun l hl => hle l (List.mem_toFinset.2 hl)⟩

/-- Without a winner two connections share the lowest dialer. -/
theorem exists_tie (h : ¬ ∃ w, T.Winner w) : ∃ c d, T.Least c ∧ T.Least d ∧ c ≠ d := by
  obtain ⟨c, hc⟩ := T.exists_least
  have hnot : ¬ ∀ link ∈ T.links, link ≠ c → T.id c.dialer < T.id link.dialer :=
    fun hall => h ⟨c, hc.1, hall⟩
  push Not at hnot
  obtain ⟨d, hd, hne, hle⟩ := hnot
  exact ⟨c, d, hc, ⟨hd, fun l hl => hle.trans (hc.2 l hl)⟩, hne.symm⟩

/-- The device has adopted `c` and holds it open. -/
structure Settled (T : Meeting) (c : Link) (side : Side) (m : Mesh) (pending : List Link) :
    Prop where
  adopted : c ∉ pending
  alive : c.number ∉ m.closed
  entry : m.peers (T.id side.other) = some (T.endAt side c)

/-- A connection that is not beaten stays while others are adopted: a tie goes to the one held. -/
theorem Settled.adopt {c : Link} (hc : T.Least c) {side : Side} {m : Mesh} {ps : List Link}
    (hwf : Wf T side m ps) (h : Settled T c side m ps) {link : Link} (hlink : link ∈ ps) :
    Settled T c side (m.adopt (T.endAt side link)).1 (ps.filter (· ≠ link)) := by
  have hmem := hwf.subset link hlink
  have hout : c ∉ ps.filter (· ≠ link) := fun hin => h.adopted (List.mem_filter.1 hin).1
  rcases hwf.adopt_cases link with
    ⟨l, -, -, -, -, -, heq⟩ | ⟨l, hl, -, hpeer, -, hlt, -⟩ | ⟨hdead, -⟩
  · have hne : c.number ≠ link.number :=
      fun hnum => h.adopted (eq_of_number_eq hc.1 hmem hnum ▸ hlink)
    rw [heq]
    exact ⟨hout, by simpa [hne] using h.alive, h.entry⟩
  · rw [h.entry] at hpeer
    have hcl : c = l :=
      eq_of_number_eq hc.1 hl (congrArg Connection.number (Option.some.inj hpeer))
    exact absurd (hc.2 link hmem) (not_le.2 (hcl ▸ hlt))
  · exact absurd (hdead _ h.entry) h.alive

/-- A device with nothing registered settles on the first connection it adopts. -/
theorem settled_register {c : Link} {side : Side} {m : Mesh} (ps : List Link)
    (hpeers : m.peers (T.id side.other) = none) (hclosed : m.closed = []) :
    Settled T c side (m.adopt (T.endAt side c)).1 (ps.filter (· ≠ c)) := by
  have hget : m.get (T.endAt side c).peerId = none := by simp [Mesh.get, hpeers]
  have heq : (m.adopt (T.endAt side c)).1 = m.register (T.endAt side c) := by
    simp only [Mesh.adopt, hget]
  rw [heq]
  exact ⟨by simp, by simp [hclosed], m.register_peers_self (T.endAt side c)⟩

/-- A device that has settled can adopt all the rest and stay settled, the other one idle. -/
theorem leads_adoptAll {c : Link} (hc : T.Least c) {side : Side} (k : ℕ) :
    ∀ {s : State}, (s.pending side).length = k → Wf T side (s.mesh side) (s.pending side) →
      Settled T c side (s.mesh side) (s.pending side) →
      ∃ s', T.system.Leads s s' ∧ s'.pending side = [] ∧
        Settled T c side (s'.mesh side) [] ∧
        s'.mesh side.other = s.mesh side.other ∧ s'.pending side.other = s.pending side.other := by
  induction k using Nat.strong_induction_on with
  | h k ih =>
    intro s hk hwf hs
    rcases hps : s.pending side with _ | ⟨link, rest⟩
    · exact ⟨s, System.Leads.refl s, hps, hps ▸ hs, rfl, rfl⟩
    · have hlink : link ∈ s.pending side := by simp [hps]
      have hlt : ((s.pending side).filter (· ≠ link)).length < k := by
        rw [← hk, List.length_filter_lt_length_iff_exists]
        exact ⟨link, hlink, by simp⟩
      obtain ⟨s', hleads, hempty, hset, hmesh, hpend⟩ := ih _ hlt
        (congrArg List.length (adoptAt_pending_self s side link))
        (by simpa using hwf.adopt hlink) (by simpa using hs.adopt hc hwf hlink)
      refine ⟨s', (System.Leads.single (Step.adopt side _ hlink)).trans hleads, hempty, hset, ?_, ?_⟩
      · rw [hmesh, adoptAt_mesh_of_ne s side.other_ne]
      · rw [hpend, adoptAt_pending_of_ne s side.other_ne]

/-- A device that has adopted nothing can settle on any connection of the lowest dialer. -/
theorem leads_settled {c : Link} (hc : T.Least c) (side : Side) {s : State}
    (hmesh : s.mesh side = Mesh.new (T.id side)) (hpend : s.pending side = T.links) :
    ∃ s', T.system.Leads s s' ∧ s'.pending side = [] ∧ Settled T c side (s'.mesh side) [] ∧
      s'.mesh side.other = s.mesh side.other ∧ s'.pending side.other = s.pending side.other := by
  have hlink : c ∈ s.pending side := hpend ▸ hc.1
  have hwf : Wf T side (s.mesh side) (s.pending side) := by
    rw [hmesh, hpend]
    exact wf_init side
  have hset : Settled T c side ((s.mesh side).adopt (T.endAt side c)).1 _ :=
    settled_register (s.pending side) (by simp [hmesh, Mesh.new]) (by simp [hmesh, Mesh.new])
  obtain ⟨s', hleads, hempty, hset', hm, hp⟩ := leads_adoptAll hc _
    (congrArg List.length (adoptAt_pending_self s side c))
    (by simpa using hwf.adopt hlink) (by simpa using hset)
  refine ⟨s', (System.Leads.single (Step.adopt side _ hlink)).trans hleads, hempty, hset', ?_, ?_⟩
  · rw [hm, adoptAt_mesh_of_ne s side.other_ne]
  · rw [hp, adoptAt_pending_of_ne s side.other_ne]

/-- Any closes of the other side can be delivered, and nothing else changes. -/
theorem leads_deliver (side : Side) (ns : List ℕ) :
    ∀ {s : State}, (∀ n ∈ ns, n ∈ (s.mesh side.other).closed) →
      ∃ s', T.system.Leads s s' ∧ s'.pending = s.pending ∧
        (s'.mesh side).peers = (s.mesh side).peers ∧
        (∀ n, n ∈ (s'.mesh side).closed ↔ n ∈ ns ∨ n ∈ (s.mesh side).closed) ∧
        s'.mesh side.other = s.mesh side.other := by
  induction ns with
  | nil => exact fun {s} _ => ⟨s, System.Leads.refl s, rfl, rfl, by simp, rfl⟩
  | cons n ns ih =>
    intro s hns
    obtain ⟨s₁, hleads, hpend, hpeers, hclosed, hother⟩ :=
      @ih s fun k hk => hns k (by simp [hk])
    have hn : n ∈ (s₁.mesh side.other).closed := hother ▸ hns n (by simp)
    refine ⟨_, hleads.step (Step.deliver side n hn), hpend, ?_, fun k => ?_, ?_⟩
    · simpa using hpeers
    · simp [hclosed, or_assoc]
    · rw [deliverAt_mesh_of_ne s₁ side.other_ne, hother]

/-- **A tie can split the devices**: with two connections of the lowest dialer there is a run after
which each device holds another one. -/
theorem exists_disagreement {c d : Link} (hc : T.Least c) (hd : T.Least d) (hne : c ≠ d) :
    ∃ s, T.system.Reachable s ∧ s.Complete ∧ ¬ T.Agree s := by
  obtain ⟨s₁, h₁, hp₁, hset₁, hm₁, hq₁⟩ := leads_settled hc .a (s := T.init) rfl rfl
  -- each side adopts its own of the two first, and then all closes arrive
  obtain ⟨s₂, h₂, hp₂, hset₂, hm₂, hq₂⟩ := leads_settled hd .b (s := s₁) hm₁ hq₁
  obtain ⟨s₃, h₃, hp₃, hpeers₃, hcl₃, hm₃⟩ :=
    leads_deliver (T := T) .b (s₂.mesh .a).closed (s := s₂) fun _ h => h
  obtain ⟨s₄, h₄, hp₄, hpeers₄, hcl₄, hm₄⟩ :=
    leads_deliver (T := T) .a (s₃.mesh .b).closed (s := s₃) fun _ h => h
  simp only [Side.other] at hm₁ hq₁ hm₂ hq₂ hm₃ hm₄
  refine ⟨s₄, ?_, ⟨fun side => ?_, fun n => ?_⟩, ?_⟩
  · exact (System.Reachable.start rfl).leads (((h₁.trans h₂).trans h₃).trans h₄)
  · rw [hp₄, hp₃]
    cases side with
    | a => rw [hq₂, hp₁]
    | b => exact hp₂
  · rw [hcl₄, hm₄, hm₃, hcl₃]
    tauto
  · rintro ⟨l, -, hl⟩
    have ha := (Mesh.get_eq_some.1 (hl .a)).1
    have hb := (Mesh.get_eq_some.1 (hl .b)).1
    simp only [Side.other] at ha hb
    have hset₁' := hset₁.entry
    have hset₂' := hset₂.entry
    simp only [Side.other] at hset₁' hset₂'
    rw [hpeers₄, hm₃, hm₂, hset₁'] at ha
    rw [hm₄, hpeers₃, hset₂'] at hb
    have hca := congrArg Connection.number (Option.some.inj ha)
    have hdb := congrArg Connection.number (Option.some.inj hb)
    exact hne (eq_of_number_eq hc.1 hd.1 (hca.trans hdb.symm))

/-- **When two devices agree**: whatever the order of adoptions and closes, both registries end
with the same open connection, iff exactly one connection was dialled by the lowest device that
dialled any. -/
theorem agreement_iff (T : Meeting) :
    (∀ s, T.system.Reachable s → s.Complete → T.Agree s) ↔ ∃ w, T.Winner w := by
  refine ⟨fun h => ?_, fun ⟨w, hw⟩ s hs hdone => hw.agree hs hdone⟩
  by_contra hnone
  obtain ⟨c, d, hc, hd, hne⟩ := exists_tie hnone
  obtain ⟨s, hs, hdone, hnot⟩ := exists_disagreement hc hd hne
  exact hnot (h s hs hdone)

/-- Device 1 dials device 2 twice. -/
def twoDials : Meeting where
  id := Side.pick 1 2
  id_ne := by decide
  links := [⟨0, .a⟩, ⟨1, .a⟩]
  nonempty := by decide
  nodup := by decide

/-- Device 1 adopts the two connections in one order and device 2 in the other, and each learns what
the other closed. -/
def crossed : State :=
  let first : Link := ⟨0, .a⟩
  let second : Link := ⟨1, .a⟩
  let s := twoDials.adoptAt (twoDials.adoptAt twoDials.init .a first) .b second
  let s := twoDials.adoptAt (twoDials.adoptAt s .a second) .b first
  (s.deliverAt .a first.number).deliverAt .b second.number

theorem reachable_crossed : twoDials.system.Reachable crossed := by
  have h : twoDials.system.Reachable twoDials.init := System.Reachable.start rfl
  replace h := h.step (Step.adopt .a ⟨0, .a⟩ (by decide))
  replace h := h.step (Step.adopt .b ⟨1, .a⟩ (by decide))
  replace h := h.step (Step.adopt .a ⟨1, .a⟩ (by decide))
  replace h := h.step (Step.adopt .b ⟨0, .a⟩ (by decide))
  replace h := h.step (Step.deliver .a 0 (by decide))
  exact h.step (Step.deliver .b 1 (by decide))

/-- **Two dials of one device**: each side closes what the other keeps, and no open connection is
left. -/
theorem agreement_fails : ∃ s, twoDials.system.Reachable s ∧ s.Complete ∧ ¬ twoDials.Agree s ∧
    ∀ side, (s.mesh side).get (twoDials.id side.other) = none := by
  have hget : ∀ side, (crossed.mesh side).get (twoDials.id side.other) = none := fun side => by
    cases side <;> decide
  refine ⟨crossed, reachable_crossed, ⟨fun side => by cases side <;> decide, fun n => ?_⟩, ?_, hget⟩
  · change n ∈ [0, 1] ↔ n ∈ [1, 0]
    simp [or_comm]
  · rintro ⟨l, -, hl⟩
    have := hl .a
    rw [hget] at this
    cases this

end Meeting

end Net

end Latticed
