import Latticed.Daemon.Introductions
import Latticed.Net.TrustFile

/-!
# The master's registry of workers

A worker announces itself with `RegisterWorker`; the master's `workers` loop takes these announcements
one by one, enters the connection in the registry in place of whatever the device had there, and sends a
roster over every connection of the registry.  A task for each announcement waits for its connection to
close, and removes it if the registry still has that very connection.

* `Latest.step` : a connection that is open stays in the registry as long as it is the latest one of its
  device that was taken.
* `keepsLive_iff` : a device with an open connection keeps an open one in the registry iff no event
  overtakes another connection of its device: a closed connection is taken, or the one in the registry
  closes, while the device has another one open.
* `late_announcement` : an announcement that is handled after the worker has reconnected.
-/

namespace Latticed

namespace Daemon

open Net

/-- `MASTER_BUSY`. -/
def masterBusy : String := "master is busy; retry shortly"

/-- A connection that the master has accepted. -/
structure Conn (Key : Type) where
  /-- The key the peer is authenticated by. -/
  peerKey : Key
  isOpen : Bool
  deriving DecidableEq

/-- `peer_id`. -/
def Conn.peerId {Key : Type} [PublicKey Key] (c : Conn Key) : DeviceId := PublicKey.deviceId c.peerKey

/-- `Joined`: the number of a connection, and the port the worker listens on. -/
structure Joined where
  conn : ℕ
  port : UInt16
  deriving DecidableEq, Repr

/-- What the `workers` loop does next. -/
inductive WorkersPhase (Key : Type) where
  /-- It takes an announcement. -/
  | recv
  /-- The connection is in the registry, and the trust store is read. -/
  | readStore (joined : Joined)
  /-- The connections of the registry are read, and the tasks are spawned. -/
  | spawn (joined : Joined) (peers : List (PairedPeer Key))

/-- The connections of the master, and what the `workers` loop and its tasks share. -/
structure Registry (Key : Type) where
  conns : ℕ → Option (Conn Key)
  /-- The channel that the handlers send to. -/
  events : List Joined
  phase : WorkersPhase Key
  live : Std.ExtTreeMap DeviceId ℕ
  /-- The tasks that send a roster over a connection. -/
  requests : List (ℕ × List Introduction)
  /-- The tasks that wait for a connection to close. -/
  cleanups : List ℕ
  /-- The announcements that were taken: their devices and connections, the latest first. -/
  taken : List (DeviceId × ℕ)

/-- What happens at the master. -/
inductive RegistryEvent (Key : Type) where
  /-- A connection is accepted. -/
  | accept (conn : ℕ) (peerKey : Key)
  /-- The handler of a connection handles `RegisterWorker`. -/
  | register (conn : ℕ) (port : UInt16)
  | recv
  | readStore (peers : List (PairedPeer Key))
  | spawn
  /-- A roster is answered, or the connection is lost. -/
  | finish (request : ℕ)
  | close (conn : ℕ)
  | cleanup (task : ℕ)

namespace Registry

variable {Key : Type}

/-- The master has just started. -/
def empty : Registry Key where
  conns := fun _ => none
  events := []
  phase := .recv
  live := ∅
  requests := []
  cleanups := []
  taken := []

/-- The connection has not closed. -/
def isOpen (r : Registry Key) (conn : ℕ) : Bool := (r.conns conn).any (·.isOpen)

/-- `MasterHandler::handle` on `RegisterWorker`: the channel holds 32 announcements. -/
def register (r : Registry Key) (conn : ℕ) (port : UInt16) : Response × Registry Key :=
  if port ≠ 0 then
    if r.events.length < 32 then (.workerRegistered, { r with events := r.events ++ [⟨conn, port⟩] })
    else (.refused masterBusy, r)
  else (.refused "worker port must be nonzero", r)

/-- The connection that the registry has for a device. -/
def current (r : Registry Key) (id : DeviceId) : Option ℕ := r.live[id]?

variable [PublicKey Key]

/-- The rosters that are sent when everyone in `peers` is trusted. -/
def rosters (r : Registry Key) (peers : List (PairedPeer Key)) : List (ℕ × List Introduction) :=
  r.live.toList.filterMap fun (_, conn) =>
    (r.conns conn).map fun c => (conn, rosterFor c.peerId peers)

/-- One event.  What cannot happen changes nothing. -/
def step (r : Registry Key) : RegistryEvent Key → Registry Key
  | .accept conn peerKey =>
    match r.conns conn with
    | none => { r with conns := Function.update r.conns conn (some ⟨peerKey, true⟩) }
    | some _ => r
  | .register conn port =>
    match r.conns conn with
    | none => r
    | some _ => (r.register conn port).2
  | .recv =>
    match r.phase, r.events with
    | .recv, joined :: rest =>
      match r.conns joined.conn with
      | none => r
      | some c =>
        { r with
          events := rest
          phase := .readStore joined
          live := r.live.insert c.peerId joined.conn
          taken := (c.peerId, joined.conn) :: r.taken }
    | _, _ => r
  | .readStore peers =>
    match r.phase with
    | .readStore joined => { r with phase := .spawn joined peers }
    | _ => r
  | .spawn =>
    match r.phase with
    | .spawn joined peers =>
      { r with
        phase := .recv
        requests := r.requests ++ r.rosters peers
        cleanups := r.cleanups ++ [joined.conn] }
    | _ => r
  | .finish request => { r with requests := r.requests.eraseIdx request }
  | .close conn =>
    { r with conns := Function.update r.conns conn ((r.conns conn).map ({ · with isOpen := false })) }
  | .cleanup task =>
    match r.cleanups[task]? with
    | none => r
    | some conn =>
      match r.conns conn with
      | some ⟨peerKey, false⟩ =>
        { r with
          -- only the connection that has closed is removed, not a newer one of the device
          live := if r.current (PublicKey.deviceId peerKey) = some conn then
            r.live.erase (PublicKey.deviceId peerKey) else r.live
          cleanups := r.cleanups.eraseIdx task }
      | _ => r

/-- The master after these events. -/
def run (events : List (RegistryEvent Key)) : Registry Key := events.foldl step empty

/-- The announcements that were taken and whose rosters have been sent. -/
def announced (r : Registry Key) : List (DeviceId × ℕ) :=
  match r.phase with
  | .recv => r.taken
  | _ => r.taken.tail

/-- A device with an open connection whose announcement was taken has an open connection in the
registry. -/
def KeepsLive (r : Registry Key) : Prop :=
  ∀ id conn, (id, conn) ∈ r.taken → r.isOpen conn = true →
    ∃ conn', r.current id = some conn' ∧ r.isOpen conn' = true

/-- The device of this connection has another connection that was taken and is open. -/
def OpenElsewhere (r : Registry Key) (id : DeviceId) (conn : ℕ) : Prop :=
  ∃ other, other ≠ conn ∧ (id, other) ∈ r.taken ∧ r.isOpen other = true

/-- The event takes a connection that has closed, or closes the one in the registry, while the device
has another one open. -/
def Overtakes (r : Registry Key) : RegistryEvent Key → Prop
  | .recv => ∃ joined rest c, r.phase = .recv ∧ r.events = joined :: rest ∧
      r.conns joined.conn = some c ∧ c.isOpen = false ∧ r.OpenElsewhere c.peerId joined.conn
  | .close conn => ∃ c, r.conns conn = some c ∧ c.isOpen = true ∧
      r.current c.peerId = some conn ∧ r.OpenElsewhere c.peerId conn
  | _ => False

/-- Connections that were taken exist and belong to their devices, and so do those in the registry. -/
structure Wf (r : Registry Key) : Prop where
  taken : ∀ id conn, (id, conn) ∈ r.taken → ∃ c, r.conns conn = some c ∧ c.peerId = id
  live : ∀ id conn, r.current id = some conn → ∃ c, r.conns conn = some c ∧ c.peerId = id

/-! ### One event -/

section Step

variable {r : Registry Key} {e : RegistryEvent Key} {id : DeviceId} {conn : ℕ}

omit [PublicKey Key] in
theorem isOpen_iff : r.isOpen conn = true ↔ ∃ c, r.conns conn = some c ∧ c.isOpen = true := by
  simp [isOpen, Option.any_eq_true]

/-- **What an event can do** to the connections, the registry and the list of what was taken. -/
theorem step_cases (r : Registry Key) (e : RegistryEvent Key) :
    ((r.step e).conns = r.conns ∧ (r.step e).live = r.live ∧ (r.step e).taken = r.taken) ∨
    (∃ conn peerKey, e = .accept conn peerKey ∧ r.conns conn = none ∧
      r.step e = { r with conns := Function.update r.conns conn (some ⟨peerKey, true⟩) }) ∨
    (∃ joined rest c, e = .recv ∧ r.phase = .recv ∧ r.events = joined :: rest ∧
      r.conns joined.conn = some c ∧
      r.step e = { r with
        events := rest
        phase := .readStore joined
        live := r.live.insert c.peerId joined.conn
        taken := (c.peerId, joined.conn) :: r.taken }) ∨
    (∃ conn c, e = .close conn ∧ r.conns conn = some c ∧
      r.step e = { r with conns := Function.update r.conns conn (some { c with isOpen := false }) }) ∨
    ∃ task conn c, e = .cleanup task ∧ r.conns conn = some c ∧ c.isOpen = false ∧
      r.current c.peerId = some conn ∧
      r.step e = { r with
        live := r.live.erase c.peerId
        cleanups := r.cleanups.eraseIdx task } := by
  cases e with
  | accept conn peerKey =>
    cases hconn : r.conns conn with
    | none => exact Or.inr (Or.inl ⟨conn, peerKey, rfl, hconn, by simp [step, hconn]⟩)
    | some c => exact Or.inl (by simp [step, hconn])
  | register conn port =>
    refine Or.inl ?_
    cases hconn : r.conns conn with
    | none => simp [step, hconn]
    | some c =>
      simp only [step, hconn, register]
      split_ifs <;> simp
  | recv =>
    cases hphase : r.phase with
    | recv =>
      cases hevents : r.events with
      | nil => exact Or.inl (by simp [step, hphase, hevents])
      | cons joined rest =>
        cases hconn : r.conns joined.conn with
        | none => exact Or.inl (by simp [step, hphase, hevents, hconn])
        | some c =>
          refine Or.inr (Or.inr (Or.inl ⟨joined, rest, c, rfl, rfl, rfl, hconn, ?_⟩))
          simp [step, hphase, hevents, hconn]
    | readStore joined => exact Or.inl (by simp [step, hphase])
    | spawn joined peers => exact Or.inl (by simp [step, hphase])
  | readStore peers =>
    refine Or.inl ?_
    cases hphase : r.phase <;> simp [step, hphase]
  | spawn =>
    refine Or.inl ?_
    cases hphase : r.phase <;> simp [step, hphase]
  | finish request => exact Or.inl ⟨rfl, rfl, rfl⟩
  | close conn =>
    cases hconn : r.conns conn with
    | none =>
      refine Or.inl ⟨?_, rfl, rfl⟩
      simp [step, hconn, Function.update_eq_self_iff]
    | some c =>
      refine Or.inr (Or.inr (Or.inr (Or.inl ⟨conn, c, rfl, hconn, ?_⟩)))
      simp [step, hconn]
  | cleanup task =>
    cases htask : r.cleanups[task]? with
    | none => exact Or.inl (by simp [step, htask])
    | some conn =>
      rcases hconn : r.conns conn with _ | ⟨peerKey, _ | _⟩
      · exact Or.inl (by simp [step, htask, hconn])
      · by_cases hcurrent : r.current (PublicKey.deviceId peerKey) = some conn
        · refine Or.inr (Or.inr (Or.inr (Or.inr
            ⟨task, conn, ⟨peerKey, false⟩, rfl, hconn, rfl, hcurrent, ?_⟩)))
          simp [step, htask, hconn, hcurrent, Conn.peerId]
        · exact Or.inl (by simp [step, htask, hconn, hcurrent])
      · exact Or.inl (by simp [step, htask, hconn])

theorem current_insert (m : Std.ExtTreeMap DeviceId ℕ) (id id' : DeviceId) (conn : ℕ) :
    (m.insert id conn)[id']? = if id = id' then some conn else m[id']? := by
  simp [Std.ExtTreeMap.getElem?_insert, Std.LawfulEqCmp.compare_eq_iff_eq]

theorem current_erase (m : Std.ExtTreeMap DeviceId ℕ) (id id' : DeviceId) :
    (m.erase id)[id']? = if id = id' then none else m[id']? := by
  simp [Std.ExtTreeMap.getElem?_erase, Std.LawfulEqCmp.compare_eq_iff_eq]

theorem wf_empty : (empty : Registry Key).Wf where
  taken := by simp [empty]
  live := by simp [empty, current]

/-- A connection keeps its key, and one that has closed stays closed. -/
theorem conns_step {c : Conn Key} (hconn : r.conns conn = some c) (e : RegistryEvent Key) :
    ∃ c', (r.step e).conns conn = some c' ∧ c'.peerKey = c.peerKey ∧
      (c'.isOpen = true → c.isOpen = true) := by
  rcases r.step_cases e with ⟨hconns, -, -⟩ | ⟨new, peerKey, -, hnone, hstep⟩ |
    ⟨joined, rest, c', -, -, -, -, hstep⟩ | ⟨closed, c', -, hclosed, hstep⟩ |
    ⟨task, closed, c', -, -, -, -, hstep⟩
  · exact ⟨c, by rw [hconns, hconn], rfl, id⟩
  · have hne : conn ≠ new := by
      rintro rfl
      cases hnone.symm.trans hconn
    exact ⟨c, by simp [hstep, Function.update_of_ne hne, hconn], rfl, id⟩
  · exact ⟨c, by simp [hstep, hconn], rfl, id⟩
  · by_cases heq : conn = closed
    · subst heq
      obtain rfl : c = c' := Option.some.inj (hconn.symm.trans hclosed)
      exact ⟨{ c with isOpen := false }, by simp [hstep], rfl, by simp⟩
    · exact ⟨c, by simp [hstep, Function.update_of_ne heq, hconn], rfl, id⟩
  · exact ⟨c, by simp [hstep, hconn], rfl, id⟩

theorem Wf.step (h : r.Wf) (e : RegistryEvent Key) : (r.step e).Wf := by
  -- connections stay those of their devices, so only new entries count
  have hkept : ∀ {id conn}, (∃ c, r.conns conn = some c ∧ c.peerId = id) →
      ∃ c, (r.step e).conns conn = some c ∧ c.peerId = id := by
    rintro id conn ⟨c, hconn, rfl⟩
    obtain ⟨c', hconn', hkey, -⟩ := conns_step hconn e
    exact ⟨c', hconn', by simp [Conn.peerId, hkey]⟩
  constructor
  · intro id conn hmem
    refine hkept ?_
    rcases r.step_cases e with ⟨-, -, htaken⟩ | ⟨new, peerKey, -, -, hstep⟩ |
      ⟨joined, rest, c, -, -, -, hconn, hstep⟩ | ⟨closed, c, -, -, hstep⟩ |
      ⟨task, closed, c, -, -, -, -, hstep⟩
    · exact h.taken id conn (htaken ▸ hmem)
    · exact h.taken id conn (by simpa [hstep] using hmem)
    · simp only [hstep, List.mem_cons, Prod.mk.injEq] at hmem
      rcases hmem with ⟨rfl, rfl⟩ | hmem
      · exact ⟨c, hconn, rfl⟩
      · exact h.taken id conn hmem
    · exact h.taken id conn (by simpa [hstep] using hmem)
    · exact h.taken id conn (by simpa [hstep] using hmem)
  · intro id conn hcurrent
    refine hkept ?_
    rcases r.step_cases e with ⟨-, hlive, -⟩ | ⟨new, peerKey, -, -, hstep⟩ |
      ⟨joined, rest, c, -, -, -, hconn, hstep⟩ | ⟨closed, c, -, -, hstep⟩ |
      ⟨task, closed, c, -, -, -, -, hstep⟩
    · exact h.live id conn (by simpa [Registry.current, hlive] using hcurrent)
    · exact h.live id conn (by simpa [Registry.current, hstep] using hcurrent)
    · simp only [Registry.current, hstep, current_insert] at hcurrent
      split_ifs at hcurrent with hid
      · cases hcurrent
        exact ⟨c, hconn, hid⟩
      · exact h.live id conn hcurrent
    · exact h.live id conn (by simpa [Registry.current, hstep] using hcurrent)
    · simp only [Registry.current, hstep, current_erase] at hcurrent
      split_ifs at hcurrent
      exact h.live id conn hcurrent

/-- What an event leaves open was open, or has just been accepted. -/
theorem isOpen_step (h : (r.step e).isOpen conn = true) :
    r.isOpen conn = true ∨ r.conns conn = none := by
  obtain ⟨c', hconn', hopen⟩ := isOpen_iff.1 h
  cases hconn : r.conns conn with
  | none => exact Or.inr rfl
  | some c =>
    obtain ⟨c'', hconn'', -, hwas⟩ := conns_step hconn e
    obtain rfl : c' = c'' := Option.some.inj (hconn'.symm.trans hconn'')
    exact Or.inl (isOpen_iff.2 ⟨c, hconn, hwas hopen⟩)

theorem Wf.wasOpen (h : r.Wf) (hmem : (id, conn) ∈ r.taken) (hopen : (r.step e).isOpen conn = true) :
    r.isOpen conn = true := by
  -- what was taken exists, so it has not been accepted just now
  obtain ⟨c, hconn, -⟩ := h.taken id conn hmem
  rcases isOpen_step hopen with hwas | hnew
  · exact hwas
  · cases hnew.symm.trans hconn

/-- A connection that was open stays open until it closes. -/
theorem isOpen_step_of_ne (h : r.isOpen conn = true) (hne : e ≠ .close conn) :
    (r.step e).isOpen conn = true := by
  rcases r.step_cases e with ⟨hconns, -, -⟩ | ⟨new, peerKey, -, hnone, hstep⟩ |
    ⟨joined, rest, c, -, -, -, -, hstep⟩ | ⟨closed, c, rfl, -, hstep⟩ |
    ⟨task, closed, c, -, -, -, -, hstep⟩
  · simpa [isOpen, hconns] using h
  · have hold : conn ≠ new := by
      rintro rfl
      simp [isOpen, hnone] at h
    simpa [isOpen, hstep, Function.update_of_ne hold] using h
  · simpa [isOpen, hstep] using h
  · have hold : conn ≠ closed := fun heq => hne (heq ▸ rfl)
    simpa [isOpen, hstep, Function.update_of_ne hold] using h
  · simpa [isOpen, hstep] using h

/-- After a connection has been overtaken, the one in the registry is closed. -/
theorem Overtakes.breaks (h : r.Overtakes e) : ¬ (r.step e).KeepsLive := by
  intro hkeeps
  cases e with
  | recv =>
    obtain ⟨joined, rest, c, hphase, hevents, hconn, hclosed, other, hne, hmem, hopen⟩ := h
    obtain ⟨conn, hcurrent, hlive⟩ := hkeeps c.peerId other
      (by simp [step, hphase, hevents, hconn, hmem]) (isOpen_step_of_ne hopen (by simp))
    obtain rfl : joined.conn = conn := by
      simpa [Registry.current, step, hphase, hevents, hconn, current_insert] using hcurrent
    simp [isOpen, step, hphase, hevents, hconn, hclosed] at hlive
  | close closed =>
    obtain ⟨c, hconn, -, hcurrent, other, hne, hmem, hopen⟩ := h
    obtain ⟨conn, hcurrent', hlive⟩ := hkeeps c.peerId other hmem
      (isOpen_step_of_ne hopen (by simpa using hne.symm))
    obtain rfl : closed = conn := Option.some.inj (hcurrent.symm.trans hcurrent')
    simp [isOpen, step, hconn] at hlive
  | accept conn peerKey => exact h
  | register conn port => exact h
  | readStore peers => exact h
  | spawn => exact h
  | finish request => exact h
  | cleanup task => exact h

/-- Any other event leaves every device an open connection. -/
theorem KeepsLive.step (hkeeps : r.KeepsLive) (hwf : r.Wf) (h : ¬ r.Overtakes e) :
    (r.step e).KeepsLive := by
  intro id conn hmem hopen
  rcases r.step_cases e with ⟨hconns, hlive, htaken⟩ | ⟨new, peerKey, rfl, hnone, hstep⟩ |
    ⟨joined, rest, c, rfl, hphase, hevents, hconn, hstep⟩ | ⟨closed, c, rfl, hconn, hstep⟩ |
    ⟨task, closed, c, rfl, hconn, hclosed, hcurrent, hstep⟩
  · simp only [isOpen, Registry.current, hconns, hlive, htaken] at hmem hopen ⊢
    exact hkeeps id conn hmem hopen
  · have hold : (id, conn) ∈ r.taken := by simpa [hstep] using hmem
    obtain ⟨conn', hcurrent, hlive⟩ := hkeeps id conn hold (hwf.wasOpen hold hopen)
    exact ⟨conn', by simpa [Registry.current, hstep] using hcurrent,
      isOpen_step_of_ne hlive (by simp)⟩
  · simp only [hstep, List.mem_cons, Prod.mk.injEq, isOpen] at hmem hopen
    simp only [Registry.current, hstep, current_insert, isOpen]
    by_cases hid : c.peerId = id
    · refine ⟨joined.conn, if_pos hid, ?_⟩
      by_contra hclosed
      rcases hmem with ⟨-, rfl⟩ | hold
      · exact hclosed hopen
      · refine h ⟨joined, rest, c, hphase, hevents, hconn, by simpa [hconn] using hclosed,
          conn, ?_, hid ▸ hold, hopen⟩
        rintro rfl
        exact hclosed hopen
    · simp only [if_neg hid]
      rcases hmem with ⟨rfl, -⟩ | hold
      · exact absurd rfl hid
      · exact hkeeps id conn hold hopen
  · have hold : (id, conn) ∈ r.taken := by simpa [hstep] using hmem
    have hne : conn ≠ closed := by
      rintro rfl
      simp [isOpen, hstep] at hopen
    have hwas := hwf.wasOpen hold hopen
    obtain ⟨conn', hcurrent, hlive⟩ := hkeeps id conn hold hwas
    refine ⟨conn', by simpa [Registry.current, hstep] using hcurrent, isOpen_step_of_ne hlive ?_⟩
    -- the registry would have the connection that closes, while this one is open
    rintro ⟨⟩
    obtain ⟨c', hconn', rfl⟩ := hwf.live id closed hcurrent
    obtain rfl : c = c' := Option.some.inj (hconn.symm.trans hconn')
    exact h ⟨c, hconn, by simpa [isOpen, hconn] using hlive, hcurrent, conn, hne, hold, hwas⟩
  · have hold : (id, conn) ∈ r.taken := by simpa [hstep] using hmem
    obtain ⟨conn', hcurrent', hlive⟩ := hkeeps id conn hold (hwf.wasOpen hold hopen)
    -- the connection that is removed has closed
    have hid : c.peerId ≠ id := by
      rintro rfl
      obtain rfl : closed = conn' := Option.some.inj (hcurrent.symm.trans hcurrent')
      simp [isOpen, hconn, hclosed] at hlive
    exact ⟨conn', by simpa [Registry.current, hstep, current_erase, hid] using hcurrent',
      isOpen_step_of_ne hlive (by simp)⟩

end Step

/-! ### Rosters -/

theorem mem_rosters {r : Registry Key} {peers : List (PairedPeer Key)} {conn : ℕ}
    {roster : List Introduction} : (conn, roster) ∈ r.rosters peers ↔
      ∃ id c, r.current id = some conn ∧ r.conns conn = some c ∧ roster = rosterFor c.peerId peers := by
  simp only [rosters, List.mem_filterMap, Prod.exists, Option.map_eq_some_iff, Prod.mk.injEq,
    Std.ExtTreeMap.mem_toList_iff_getElem?_eq_some]
  constructor
  · rintro ⟨id, conn', hcurrent, c, hconn, rfl, rfl⟩
    exact ⟨id, c, hcurrent, hconn, rfl⟩
  · rintro ⟨id, c, hcurrent, hconn, rfl⟩
    exact ⟨id, conn, hcurrent, c, hconn, rfl, rfl⟩

theorem requests_eq (r : Registry Key) {e : RegistryEvent Key} (hspawn : e ≠ .spawn)
    (hfinish : ∀ n, e ≠ .finish n) : (r.step e).requests = r.requests := by
  cases e with
  | spawn => exact absurd rfl hspawn
  | finish n => exact absurd rfl (hfinish n)
  | close conn => rfl
  | accept conn peerKey =>
    simp only [step]
    split <;> rfl
  | register conn port =>
    simp only [step, register]
    split <;> [rfl; (split_ifs <;> rfl)]
  | recv =>
    simp only [step]
    split <;> [(split <;> rfl); rfl]
  | readStore peers =>
    simp only [step]
    split <;> rfl
  | cleanup task =>
    simp only [step]
    split <;> [rfl; (split <;> rfl)]

/-- Requests are sent when an announcement has been entered. -/
theorem requests_step {r : Registry Key} {e : RegistryEvent Key} {request : ℕ × List Introduction}
    (h : request ∈ (r.step e).requests) : request ∈ r.requests ∨
      ∃ joined peers, e = .spawn ∧ r.phase = .spawn joined peers ∧ request ∈ r.rosters peers := by
  by_cases hspawn : e = .spawn
  · subst hspawn
    cases hphase : r.phase with
    | spawn joined peers =>
      simp only [step, hphase, List.mem_append] at h
      exact h.imp_right fun h => ⟨joined, peers, rfl, rfl, h⟩
    | recv => exact Or.inl (by simpa [step, hphase] using h)
    | readStore joined => exact Or.inl (by simpa [step, hphase] using h)
  · by_cases hfinish : ∃ n, e = .finish n
    · obtain ⟨n, rfl⟩ := hfinish
      exact Or.inl (List.mem_of_mem_eraseIdx h)
    · rw [requests_eq r hspawn fun n heq => hfinish ⟨n, heq⟩] at h
      exact Or.inl h

/-- The loop has the records that it read, and takes no announcement meanwhile. -/
theorem phase_step {r : Registry Key} {e : RegistryEvent Key} {joined : Joined}
    {peers : List (PairedPeer Key)} (h : (r.step e).phase = .spawn joined peers) :
    (r.phase = .spawn joined peers ∨ e = .readStore peers) ∧ (r.step e).taken = r.taken := by
  cases e with
  | readStore records =>
    cases hphase : r.phase with
    | readStore joined' =>
      simp only [step, hphase, WorkersPhase.spawn.injEq] at h
      exact ⟨Or.inr (by rw [h.2]), by simp [step, hphase]⟩
    | recv => simp [step, hphase] at h
    | spawn joined' peers' => exact ⟨Or.inl (by simpa [step, hphase] using h), by simp [step, hphase]⟩
  | spawn =>
    cases hphase : r.phase <;> simp [step, hphase] at h
  | finish n => exact ⟨Or.inl h, rfl⟩
  | close conn => exact ⟨Or.inl h, rfl⟩
  | accept conn peerKey =>
    simp only [step] at h ⊢
    split at h <;> exact ⟨Or.inl h, rfl⟩
  | register conn port =>
    simp only [step, register] at h ⊢
    split at h <;> [skip; split_ifs at h ⊢] <;> exact ⟨Or.inl h, rfl⟩
  | recv =>
    simp only [step] at h ⊢
    split at h <;> [split at h; skip]
    · exact ⟨Or.inl h, rfl⟩
    · cases h
    · exact ⟨Or.inl h, rfl⟩
  | cleanup task =>
    simp only [step] at h ⊢
    split at h <;> [skip; split at h] <;> exact ⟨Or.inl h, rfl⟩

theorem announced_step {r : Registry Key} {e : RegistryEvent Key} (h : e ≠ .spawn) :
    (r.step e).announced = r.announced := by
  cases e with
  | spawn => exact absurd rfl h
  | recv =>
    cases hphase : r.phase with
    | recv =>
      simp only [step, hphase]
      split
      · split <;> simp [announced, hphase]
      · rfl
    | readStore joined => simp [step, hphase]
    | spawn joined peers => simp [step, hphase]
  | readStore peers =>
    cases hphase : r.phase <;> simp [step, hphase, announced]
  | finish n => rfl
  | close conn => rfl
  | accept conn peerKey =>
    simp only [step]
    split <;> rfl
  | register conn port =>
    simp only [step, register]
    split <;> [rfl; (split_ifs <;> rfl)]
  | cleanup task =>
    simp only [step]
    split <;> [rfl; (split <;> rfl)]

omit [PublicKey Key] in
theorem announced_subset {r : Registry Key} {entry : DeviceId × ℕ} (h : entry ∈ r.announced) :
    entry ∈ r.taken := by
  unfold announced at h
  split at h
  · exact h
  · exact List.mem_of_mem_tail h

/-- When the rosters of an announcement are sent, all that was taken has been announced. -/
theorem announced_spawn {r : Registry Key} {joined : Joined} {peers : List (PairedPeer Key)}
    (h : r.phase = .spawn joined peers) : (r.step .spawn).announced = r.taken := by
  simp [step, h, announced]

/-! ### Runs -/

theorem run_concat (events : List (RegistryEvent Key)) (e : RegistryEvent Key) :
    run (events ++ [e]) = (run events).step e := by
  simp [run]

omit [PublicKey Key] in
theorem keepsLive_empty : (empty : Registry Key).KeepsLive := by
  intro id conn hmem
  simp [empty] at hmem

/-- The connection of a device that was taken last is in the registry as long as it is open. -/
def Latest (r : Registry Key) : Prop :=
  ∀ id conn, r.taken.lookup id = some conn → r.isOpen conn = true → r.current id = some conn

theorem mem_of_lookup {entries : List (DeviceId × ℕ)} {id : DeviceId} {conn : ℕ}
    (h : entries.lookup id = some conn) : (id, conn) ∈ entries := by
  obtain ⟨newer, older, heq, -⟩ := List.lookup_eq_some_iff.1 h
  simp [heq]

theorem Latest.step {r : Registry Key} (h : r.Latest) (hwf : r.Wf) (e : RegistryEvent Key) :
    (r.step e).Latest := by
  intro id conn hlatest hopen
  -- an entry that was the latest one before was in the registry before
  have hbefore (hold : r.taken.lookup id = some conn) : r.current id = some conn :=
    h id conn hold (hwf.wasOpen (mem_of_lookup hold) hopen)
  rcases r.step_cases e with ⟨-, hlive, htaken⟩ | ⟨new, peerKey, -, -, hstep⟩ |
    ⟨joined, rest, c, -, -, -, -, hstep⟩ | ⟨closed, c, -, -, hstep⟩ |
    ⟨task, closed, c, -, hconn, hclosed, hcurrent, hstep⟩
  · simpa [Registry.current, hlive] using hbefore (htaken ▸ hlatest)
  · simpa [Registry.current, hstep] using hbefore (by simpa [hstep] using hlatest)
  · simp only [hstep, List.lookup_cons] at hlatest
    simp only [Registry.current, hstep, current_insert]
    by_cases hid : c.peerId = id
    · simpa [hid] using hlatest
    · rw [beq_eq_false_iff_ne.2 (Ne.symm hid)] at hlatest
      rw [if_neg hid]
      exact hbefore hlatest
  · simpa [Registry.current, hstep] using hbefore (by simpa [hstep] using hlatest)
  · have hcurrent' := hbefore (by simpa [hstep] using hlatest)
    have hid : c.peerId ≠ id := by
      rintro rfl
      obtain rfl : closed = conn := Option.some.inj (hcurrent.symm.trans hcurrent')
      simp [isOpen, hstep, hconn, hclosed] at hopen
    simpa [Registry.current, hstep, current_erase, hid] using hcurrent'

end Registry

open Registry in
/-- **A device keeps an open connection in the registry** all along iff no event overtakes a connection
of its device. -/
theorem keepsLive_iff {Key : Type} [PublicKey Key] (events : List (RegistryEvent Key)) :
    (∀ before after, events = before ++ after → (run before).KeepsLive) ↔
      ∀ before e after, events = before ++ e :: after → ¬ (run before).Overtakes e := by
  constructor
  · intro h before e after heq hovertakes
    refine hovertakes.breaks ?_
    rw [← run_concat]
    exact h (before ++ [e]) after (by simp [heq])
  · intro h before after heq
    refine foldl_guarded (P := fun r : Registry Key => r.Wf ∧ r.KeepsLive)
      (G := fun r e => ¬ r.Overtakes e)
      (fun r e hno hr => ⟨hr.1.step e, hr.2.step hr.1 hno⟩) ⟨wf_empty, keepsLive_empty⟩ ?_ |>.2
    intro before' e after' heq'
    exact h before' e (after' ++ after) (by simp [heq, heq'])

open Registry in
/-- A worker reconnects.  The announcement that came over its first connection is handled only then, and is
taken after that connection was lost: the registry has the connection that was lost. -/
theorem late_announcement :
    let events : List (RegistryEvent UInt8) :=
      [.accept 0 7, .accept 1 7,
        .register 1 48211, .recv, .readStore [.new 7 "worker" "linux" 0], .spawn,
        .register 0 48211, .close 0, .recv, .readStore [.new 7 "worker" "linux" 0], .spawn]
    let r := run events
    (7, 1) ∈ r.taken ∧ r.isOpen 1 = true ∧ r.current 7 = some 0 ∧ r.isOpen 0 = false ∧
      ¬ r.KeepsLive := by
  intro events r
  have hmem : (7, 1) ∈ r.taken := by decide
  have hcurrent : r.current 7 = some 0 := by decide
  refine ⟨hmem, by decide, hcurrent, by decide, ?_⟩
  intro h
  obtain ⟨conn, hlive, hopen⟩ := h 7 1 hmem (by decide)
  obtain rfl : 0 = conn := Option.some.inj (hcurrent.symm.trans hlive)
  revert hopen
  decide

end Daemon

end Latticed
