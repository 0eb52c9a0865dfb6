import Latticed.Net.Dial
import Latticed.Net.Symbolic

/-!
# Which connections a registry leaves open

A registry is handed every connection its device dials or accepts, and may be told to forget a peer;
the other side can close any connection at any time.  A connection that `adopt` was given and that is
neither registered nor closed would go on being used by the peer without anybody noticing.

* `Mesh.connect_cases` : to the registry, dialling a device is the connection it adopts, if any.
* `Registry.open_registered` : after any run, what was adopted and is open is registered.
-/

namespace Latticed

namespace Net

namespace Mesh

variable {Key : Type} [PublicKey Key]

/-- `forget`. -/
def forget (m : Mesh) (peer : DeviceId) : Mesh :=
  match m.peers peer with
  | some conn => { m.close conn.number with peers := Function.update m.peers peer none }
  | none => m

/-- `accept`; `incoming` is what the endpoint yields. -/
def accept (m : Mesh) (incoming : Option (Except NetError Connection)) :
    Mesh × Option (Except NetError Connection) :=
  match incoming with
  | none => (m, none)
  | some (.error e) => (m, some (.error e))
  | some (.ok conn) =>
    let (m, conn) := m.adopt conn
    (m, some (.ok conn))

/-- **What `forget` does**: it closes the connection to the peer, if there is one, and drops it. -/
theorem forget_cases (m : Mesh) (peer : DeviceId) :
    (m.peers peer = none ∧ m.forget peer = m) ∨
      ∃ c, m.peers peer = some c ∧ (m.forget peer).closed = c.number :: m.closed ∧
        (m.forget peer).peers = Function.update m.peers peer none := by
  unfold forget
  cases m.peers peer with
  | none => exact Or.inl ⟨rfl, rfl⟩
  | some c => exact Or.inr ⟨c, rfl, rfl, rfl⟩

/-! ### What is adopted when a device is dialled -/

/-- The first of the connections to be dialled that leads to the peer; `dial n` is what comes of the
attempt after `n` others. -/
def reached (policy : Key → Bool) (dial : ℕ → SocketAddr → Dialled Key) (peer : DeviceId) :
    ℕ → List SocketAddr → Option Connection
  | _, [] => none
  | n, addr :: addrs =>
    match (dial n addr).connect policy with
    | .ok conn => if conn.peerId = peer then some conn else reached policy dial peer (n + 1) addrs
    | .error _ => reached policy dial peer (n + 1) addrs

variable {policy : Key → Bool} {dial : ℕ → SocketAddr → Dialled Key} {peer : DeviceId} {n : ℕ}
  {addrs : List SocketAddr} {m : Mesh} {c : Connection}

theorem connectFrom_cases (m : Mesh) (policy : Key → Bool) (dial : ℕ → SocketAddr → Dialled Key)
    (peer : DeviceId) (n : ℕ) (last : Option NetError) (addrs : List SocketAddr) :
    (∃ c, reached policy dial peer n addrs = some c ∧
      m.connectFrom policy dial peer n last addrs = ((m.adopt c).1, .ok (m.adopt c).2)) ∨
    (reached policy dial peer n addrs = none ∧
      ∃ e, m.connectFrom policy dial peer n last addrs = (m, .error e)) := by
  induction addrs generalizing n last with
  | nil => exact Or.inr ⟨rfl, _, rfl⟩
  | cons addr addrs ih =>
    rw [reached, connectFrom]
    cases (dial n addr).connect policy with
    | error e => exact ih (n + 1) (some e)
    | ok conn =>
      dsimp only
      split_ifs
      · exact Or.inl ⟨conn, rfl, rfl⟩
      · exact ih (n + 1) _

/-- **What `connect` can do**: return the live connection it has, adopt one it dials, or fail. -/
theorem connect_cases (m : Mesh) (policy : Key → Bool) (dial : ℕ → SocketAddr → Dialled Key)
    (peer : DeviceId) (addrs : List SocketAddr) :
    (∃ c, m.get peer = some c ∧ m.connect policy dial peer addrs = (m, .ok c)) ∨
    (m.get peer = none ∧ ∃ c, reached policy dial peer 0 addrs = some c ∧
      m.connect policy dial peer addrs = ((m.adopt c).1, .ok (m.adopt c).2)) ∨
    (m.get peer = none ∧ reached policy dial peer 0 addrs = none ∧
      ∃ e, m.connect policy dial peer addrs = (m, .error e)) := by
  unfold connect
  cases m.get peer with
  | some live => exact Or.inl ⟨live, rfl, rfl⟩
  | none =>
    rcases m.connectFrom_cases policy dial peer 0 none addrs with h | h
    · exact Or.inr (Or.inl ⟨rfl, h⟩)
    · exact Or.inr (Or.inr ⟨rfl, h⟩)

/-- **The connection `adopt` returns is the registered one.** -/
theorem Keyed.adopt_registered (h : m.Keyed) (conn : Connection) :
    (m.adopt conn).1.peers (m.adopt conn).2.peerId = some (m.adopt conn).2 := by
  rcases m.adopt_cases conn with ⟨existing, hget, -, heq⟩ | ⟨existing, -, -, heq⟩ | ⟨-, heq⟩
  · rw [heq, h.get hget]
    exact (get_eq_some.1 hget).1
  · rw [heq]
    exact register_peers_self _ conn
  · rw [heq]
    exact register_peers_self m conn

end Mesh

/-! ### Runs of one registry -/

/-- What can happen to a registry.  A `connect` whose dials are waited for while other things happen is,
to the registry, the `adopt` it ends with. -/
inductive RegistryEvent (Key : Type) where
  | adopt (conn : Connection)
  | forget (peer : DeviceId)
  | connect (policy : Key → Bool) (dial : ℕ → SocketAddr → Dialled Key) (peer : DeviceId)
      (addrs : List SocketAddr)
  | accept (incoming : Option (Except NetError Connection))
  /-- The other side closes a connection. -/
  | closed (number : ℕ)

variable {Key : Type} [PublicKey Key]

namespace RegistryEvent

/-- The connection an event hands to `adopt`. -/
def adopts (m : Mesh) : RegistryEvent Key → Option Connection
  | .adopt conn => some conn
  | .connect policy dial peer addrs =>
    if m.get peer = none then Mesh.reached policy dial peer 0 addrs else none
  | .accept incoming => incoming.bind Except.toOption
  | .forget _ => none
  | .closed _ => none

/-- What an event does, and the connection it returns. -/
def perform (m : Mesh) : RegistryEvent Key → Mesh × Option Connection
  | .adopt conn => ((m.adopt conn).1, some (m.adopt conn).2)
  | .forget peer => (m.forget peer, none)
  | .connect policy dial peer addrs =>
    ((m.connect policy dial peer addrs).1, (m.connect policy dial peer addrs).2.toOption)
  | .accept incoming => ((m.accept incoming).1, (m.accept incoming).2.bind Except.toOption)
  | .closed number => (m.close number, none)

/-- **What an event can do**: it adopts a connection and returns the one that is registered, returns the
live one that is registered already, forgets a peer, closes a connection, or does nothing. -/
theorem perform_cases (m : Mesh) (event : RegistryEvent Key) :
    (∃ c, event.adopts m = some c ∧ event.perform m = ((m.adopt c).1, some (m.adopt c).2)) ∨
    (event.adopts m = none ∧ ((∃ peer c, m.get peer = some c ∧ event.perform m = (m, some c)) ∨
      (∃ peer, event.perform m = (m.forget peer, none)) ∨
      (∃ number, event.perform m = (m.close number, none)) ∨ event.perform m = (m, none))) := by
  cases event with
  | adopt conn => exact Or.inl ⟨conn, rfl, rfl⟩
  | forget peer => exact Or.inr ⟨rfl, Or.inr (Or.inl ⟨peer, rfl⟩)⟩
  | connect policy dial peer addrs =>
    simp only [adopts, perform]
    rcases m.connect_cases policy dial peer addrs with
      ⟨c, hget, heq⟩ | ⟨hget, c, hreached, heq⟩ | ⟨hget, hreached, e, heq⟩
    · rw [heq, if_neg (by simp [hget])]
      exact Or.inr ⟨rfl, Or.inl ⟨peer, c, hget, rfl⟩⟩
    · rw [heq, if_pos hget]
      exact Or.inl ⟨c, hreached, rfl⟩
    · rw [heq, if_pos hget]
      exact Or.inr ⟨hreached, Or.inr (Or.inr (Or.inr rfl))⟩
  | accept incoming =>
    match incoming with
    | none => exact Or.inr ⟨rfl, Or.inr (Or.inr (Or.inr rfl))⟩
    | some (.error e) => exact Or.inr ⟨rfl, Or.inr (Or.inr (Or.inr rfl))⟩
    | some (.ok conn) => exact Or.inl ⟨conn, rfl, rfl⟩
  | closed number => exact Or.inr ⟨rfl, Or.inr (Or.inr (Or.inl ⟨number, rfl⟩))⟩

end RegistryEvent

/-- A registry, and every connection it was ever handed. -/
structure Registry where
  mesh : Mesh
  adopted : List Connection

namespace Registry

/-- What an event does to the registry. -/
def step (s : Registry) (event : RegistryEvent Key) : Registry :=
  ⟨(event.perform s.mesh).1, s.adopted ++ (event.adopts s.mesh).toList⟩

/-- The registry of a device after some events. -/
def after (localId : DeviceId) (events : List (RegistryEvent Key)) : Registry :=
  events.foldl step ⟨Mesh.new localId, []⟩

/-- The connection was handed to the registry and nobody has closed it. -/
def Open (s : Registry) (c : Connection) : Prop := c ∈ s.adopted ∧ c.number ∉ s.mesh.closed

/-- What holds after every run. -/
structure Wf (s : Registry) : Prop where
  keyed : s.mesh.Keyed
  entry : ∀ id c, s.mesh.peers id = some c → c ∈ s.adopted
  registered : ∀ c, s.Open c → s.mesh.peers c.peerId = some c

variable {s s' : Registry}

theorem Wf.close (h : s.Wf) (number : ℕ) : Wf ⟨s.mesh.close number, s.adopted⟩ where
  keyed := h.keyed
  entry := h.entry
  registered c hc := h.registered c ⟨hc.1, fun hin => hc.2 (List.mem_cons_of_mem _ hin)⟩

theorem Wf.forget (h : s.Wf) (peer : DeviceId) : Wf ⟨s.mesh.forget peer, s.adopted⟩ := by
  rcases s.mesh.forget_cases peer with ⟨-, heq⟩ | ⟨c, hc, hclosed, hpeers⟩
  · rw [heq]
    exact h
  · have hsub : ∀ id d, (s.mesh.forget peer).peers id = some d → s.mesh.peers id = some d := by
      intro id d hd
      rw [hpeers] at hd
      by_cases hid : id = peer
      · subst hid
        rw [Function.update_self] at hd
        cases hd
      · rwa [Function.update_of_ne hid] at hd
    refine ⟨fun id d hd => h.keyed id d (hsub id d hd), fun id d hd => h.entry id d (hsub id d hd),
      fun d hd => ?_⟩
    obtain ⟨hnumber, hopen⟩ : d.number ≠ c.number ∧ d.number ∉ s.mesh.closed := by
      have hnot := hd.2
      rw [hclosed, List.mem_cons, not_or] at hnot
      exact hnot
    have hentry := h.registered d ⟨hd.1, hopen⟩
    -- an open connection to the peer is the one that `forget` has just closed
    have hne : d.peerId ≠ peer := by
      rintro rfl
      rw [hc] at hentry
      exact hnumber (congrArg Connection.number (Option.some.inj hentry)).symm
    rwa [hpeers, Function.update_of_ne hne]

/-- The entries after `adopt` are connections that were adopted. -/
theorem Wf.adopt_entry (h : s.Wf) {c d : Connection} {id : DeviceId}
    (hd : (s.mesh.adopt c).1.peers id = some d) : d ∈ s.adopted ++ [c] := by
  have hregister (m : Mesh) (hm : m.peers = s.mesh.peers) (hd : (m.register c).peers id = some d) :
      d ∈ s.adopted ++ [c] := by
    by_cases hid : id = c.peerId
    · subst hid
      rw [Mesh.register_peers_self] at hd
      exact List.mem_append_right _ (List.mem_singleton.2 (Option.some.inj hd).symm)
    · rw [Mesh.register_peers_of_ne m c hid, hm] at hd
      exact List.mem_append_left _ (h.entry id d hd)
  rcases s.mesh.adopt_cases c with ⟨existing, -, -, heq⟩ | ⟨existing, -, -, heq⟩ | ⟨-, heq⟩
  · rw [heq] at hd
    exact List.mem_append_left _ (h.entry id d hd)
  · rw [heq] at hd
    exact hregister (s.mesh.close existing.number) rfl hd
  · rw [heq] at hd
    exact hregister s.mesh rfl hd

theorem Wf.adopt (h : s.Wf) (c : Connection) : Wf ⟨(s.mesh.adopt c).1, s.adopted ++ [c]⟩ := by
  refine ⟨(h.keyed.adopt c).1, fun id d => h.adopt_entry, fun d hd => ?_⟩
  obtain ⟨hmem, hopen⟩ := hd
  -- a connection that was open before is the entry for its peer, so it leads elsewhere if another is
  have hother (hin : d ∈ s.adopted) (hlive : d.number ∉ s.mesh.closed)
      (hget : s.mesh.get c.peerId ≠ some d) : d.peerId ≠ c.peerId := by
    intro hpeer
    rw [← hpeer] at hget
    exact hget (Mesh.get_eq_some.2 ⟨h.registered d ⟨hin, hlive⟩, hlive⟩)
  rcases s.mesh.adopt_cases c with
    ⟨existing, hget, -, heq⟩ | ⟨existing, hget, -, heq⟩ | ⟨hget, heq⟩
  · rw [heq] at hopen ⊢
    obtain ⟨hnumber, hlive⟩ := not_or.1 (fun hin => hopen (List.mem_cons.2 hin))
    rcases List.mem_append.1 hmem with hin | hin
    · exact h.registered d ⟨hin, hlive⟩
    · exact absurd (congrArg Connection.number (List.mem_singleton.1 hin)) hnumber
  · rw [heq] at hopen ⊢
    obtain ⟨hnumber, hlive⟩ := not_or.1 (fun hin => hopen (List.mem_cons.2 hin))
    rcases List.mem_append.1 hmem with hin | hin
    · have hne : s.mesh.get c.peerId ≠ some d := by
        rw [hget]
        exact fun hsame => hnumber (congrArg Connection.number (Option.some.inj hsame)).symm
      rw [Mesh.register_peers_of_ne _ c (hother hin hlive hne)]
      exact h.registered d ⟨hin, hlive⟩
    · rw [List.mem_singleton.1 hin]
      exact Mesh.register_peers_self _ c
  · rw [heq] at hopen ⊢
    rcases List.mem_append.1 hmem with hin | hin
    · rw [Mesh.register_peers_of_ne _ c (hother hin hopen (by rw [hget]; exact nofun))]
      exact h.registered d ⟨hin, hopen⟩
    · rw [List.mem_singleton.1 hin]
      exact Mesh.register_peers_self _ c

theorem Wf.step (h : s.Wf) (event : RegistryEvent Key) : (s.step event).Wf := by
  unfold Registry.step
  rcases event.perform_cases s.mesh with ⟨c, hc, heq⟩ | ⟨hnone, hquiet⟩
  · rw [heq, hc]
    exact h.adopt c
  · rw [hnone, Option.toList_none, List.append_nil]
    rcases hquiet with ⟨peer, c, -, heq⟩ | ⟨peer, heq⟩ | ⟨number, heq⟩ | heq
    · rw [heq]
      exact h
    · rw [heq]
      exact h.forget peer
    · rw [heq]
      exact h.close number
    · rw [heq]
      exact h

theorem after_wf (localId : DeviceId) (events : List (RegistryEvent Key)) :
    (after localId events).Wf := by
  have hnew : Wf ⟨Mesh.new localId, []⟩ := by
    refine ⟨Mesh.new_keyed localId, fun id c hc => ?_, fun c hc => ?_⟩
    · cases hc
    · cases hc.1
  exact foldl_mono (P := Wf) (fun s event h => h.step event) events hnew

/-- **No open connection outside the registry**: after any run, what was adopted and is open is the
entry for its peer, so there is one for each peer, everything else is closed, and a connection that an
event returns is registered. -/
theorem open_registered (localId : DeviceId) (events : List (RegistryEvent Key)) :
    let s := after localId events
    (∀ c, s.Open c → s.mesh.peers c.peerId = some c) ∧
    (∀ c d, s.Open c → s.Open d → c.peerId = d.peerId → c = d) ∧
    (∀ c ∈ s.adopted, s.mesh.peers c.peerId ≠ some c → c.number ∈ s.mesh.closed) ∧
    ∀ (event : RegistryEvent Key) (c : Connection), (event.perform s.mesh).2 = some c →
      (event.perform s.mesh).1.peers c.peerId = some c := by
  intro s
  have hwf : s.Wf := after_wf localId events
  refine ⟨hwf.registered, fun c d hc hd hpeer => ?_, fun c hc hne => ?_, fun event c hc => ?_⟩
  · have hentry := hwf.registered c hc
    rw [hpeer, hwf.registered d hd] at hentry
    exact (Option.some.inj hentry).symm
  · exact not_not.1 fun hopen => hne (hwf.registered c ⟨hc, hopen⟩)
  · rcases event.perform_cases s.mesh with
      ⟨new, -, heq⟩ | ⟨-, ⟨peer, live, hget, heq⟩ | ⟨peer, heq⟩ | ⟨number, heq⟩ | heq⟩ <;>
      rw [heq] at hc ⊢ <;> cases hc
    · exact hwf.keyed.adopt_registered new
    · rw [hwf.keyed.get hget]
      exact (Mesh.get_eq_some.1 hget).1

/-- Device 1 dials device 2, which dials it as well. -/
def bothDial : List (RegistryEvent UInt8) :=
  [.connect (fun _ => true) (fun _ _ => ⟨0, .ok 2, .rejected⟩) 2 [⟨"10.0.0.2:4433", true, false⟩],
    .accept (some (.ok ⟨1, 2, .listener⟩))]

/-- The connection that device 1 dialled is the one that stays. -/
theorem open_registered_bothDial : (after 1 bothDial).adopted = [⟨0, 2, .dialer⟩, ⟨1, 2, .listener⟩] ∧
    (after 1 bothDial).mesh.peers 2 = some ⟨0, 2, .dialer⟩ ∧
    (1 : ℕ) ∈ (after 1 bothDial).mesh.closed := by
  have hadopted : (after 1 bothDial).adopted = [⟨0, 2, .dialer⟩, ⟨1, 2, .listener⟩] := by decide
  obtain ⟨hregistered, -, hclosed, -⟩ := open_registered 1 bothDial
  refine ⟨hadopted, hregistered ⟨0, 2, .dialer⟩ ⟨by decide, by decide⟩, ?_⟩
  exact hclosed ⟨1, 2, .listener⟩ (by decide) (by decide)

end Registry

end Net

end Latticed
