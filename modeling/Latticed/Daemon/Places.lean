import Latticed.Daemon.Generate
import Latticed.Net.Dial
import Latticed.Net.Symbolic
import Latticed.Net.Trust
import Mathlib.Data.List.Destutter

/-!
# The devices a plan names

Before a chain is opened, `dial_places` opens one connection for every device the plan names: it browses
for the devices, and takes the first of a device's addresses at which somebody answers whom this device
trusts.  Unlike `Mesh::connect` it does not ask who that was.

* `dialled_advertised` : the addresses that are dialled for a device were advertised under its id.
* `runs_on_named_iff` : every connection leads to the device it is kept for iff the first accepted answer at
  the addresses of every device that is dialled is its own.
* `dialPlaces_complete` : when `dial_places` returns, every place has a connection.
-/

namespace Latticed

namespace Daemon

open Net

variable {Key : Type} [PublicKey Key]

/-! ### Looking for devices -/

/-- The addresses that were found, by device. -/
abbrev Located := Std.ExtTreeMap DeviceId (List SocketAddr)

/-- The loop of `locate`, over the events that come before the deadline. -/
def locateFrom (wanted : List DeviceId) : Located → List PeerEvent → Located
  | found, [] => found
  | found, event :: events =>
    if wanted.length ≤ found.size then found
    else match event with
      | .found peer =>
        let addrs := usable peer.addrs
        -- a record with nothing dialable in it is ignored, a fuller one may come
        if wanted.contains peer.deviceId && !addrs.isEmpty then
          locateFrom wanted (found.insert peer.deviceId addrs) events
        else locateFrom wanted found events
      | .lost _ => locateFrom wanted found events

/-- `locate`. -/
def locate (wanted : List DeviceId) (events : List PeerEvent) : Located :=
  locateFrom wanted ∅ events

/-- These addresses were advertised under this id. -/
def Advertised (events : List PeerEvent) (id : DeviceId) (addrs : List SocketAddr) : Prop :=
  ∃ peer, .found peer ∈ events ∧ peer.deviceId = id ∧ addrs = usable peer.addrs ∧ addrs ≠ []

theorem locateFrom_advertised {wanted : List DeviceId} {found : Located} {events : List PeerEvent}
    {id : DeviceId} {addrs : List SocketAddr} (h : (locateFrom wanted found events)[id]? = some addrs) :
    found[id]? = some addrs ∨ Advertised events id addrs := by
  induction events generalizing found with
  | nil => exact Or.inl h
  | cons event events ih =>
    have hlater : found[id]? = some addrs ∨ Advertised events id addrs →
        found[id]? = some addrs ∨ Advertised (event :: events) id addrs :=
      Or.imp_right fun ⟨peer, hmem, hpeer⟩ => ⟨peer, List.mem_cons_of_mem _ hmem, hpeer⟩
    unfold locateFrom at h
    dsimp only at h
    split_ifs at h with hall
    · exact Or.inl h
    · cases event with
      | lost gone => exact hlater (ih h)
      | found peer =>
        dsimp only at h
        split_ifs at h with hnew
        · rw [Bool.and_eq_true] at hnew
          rcases ih h with hfound | ⟨peer', hmem, hpeer'⟩
          · rw [Std.ExtTreeMap.getElem?_insert] at hfound
            split_ifs at hfound with hid
            · cases hfound
              refine Or.inr ⟨peer, List.mem_cons_self, Std.LawfulEqCmp.compare_eq_iff_eq.1 hid, rfl, ?_⟩
              intro hnil
              rw [hnil] at hnew
              cases hnew.2
            · exact Or.inl hfound
          · exact Or.inr ⟨peer', List.mem_cons_of_mem _ hmem, hpeer'⟩
        · exact hlater (ih h)

theorem locate_advertised {wanted : List DeviceId} {events : List PeerEvent} {id : DeviceId}
    {addrs : List SocketAddr} (h : (locate wanted events)[id]? = some addrs) :
    Advertised events id addrs :=
  (locateFrom_advertised h).resolve_left (by simp)

/-- **Nothing is dialled for a device that was not advertised for it**: not that this makes it true. -/
theorem dialled_advertised {wanted : List DeviceId} {events : List PeerEvent} {id : DeviceId}
    {addrs : List SocketAddr} (h : (locate wanted events)[id]? = some addrs) {a : SocketAddr}
    (ha : a ∈ usable addrs) : a.isIpv4 = true ∧
      ∃ peer, .found peer ∈ events ∧ peer.deviceId = id ∧ a ∈ peer.addrs := by
  obtain ⟨peer, hpeer, hid, rfl, -⟩ := locate_advertised h
  obtain ⟨hmem, hipv4⟩ := mem_usable.1 ha
  exact ⟨hipv4, peer, hpeer, hid, (mem_usable.1 hmem).1⟩

/-! ### Dialling -/

/-- An endpoint; dropping it tears its connections down. -/
structure Endpoint where
  number : ℕ
  deriving DecidableEq

/-- One turn of the loop of `connect_any`. -/
structure DialAttempt (Key : Type) extends Dialled Key where
  /-- `Endpoint::bind`. -/
  bind : Except NetError Endpoint

/-- The loop of `connect_any`; `dial n` is what comes of the attempt after `n` others. -/
def connectAnyFrom (policy : Key → Bool) (dial : ℕ → SocketAddr → DialAttempt Key) :
    ℕ → List String → List SocketAddr → Except String (Endpoint × Connection)
  | _, failures, [] =>
    .error ("could not reach that device:\n" ++ "\n".intercalate failures)
  | n, failures, addr :: addrs =>
    let attempt := dial n addr
    match attempt.bind with
    | .error e => .error e.display
    | .ok endpoint =>
      match attempt.connect policy with
      | .ok conn => .ok (endpoint, conn)
      | .error e => connectAnyFrom policy dial (n + 1)
          (failures ++ ["  " ++ addr.text ++ ": " ++ e.display]) addrs

/-- `connect_any`: tries each address in turn. -/
def connectAny (policy : Key → Bool) (dial : ℕ → SocketAddr → DialAttempt Key)
    (addrs : List SocketAddr) : Except String (Endpoint × Connection) :=
  if addrs.isEmpty then .error "no reachable address for that device"
  else connectAnyFrom policy dial 0 [] addrs

/-- The connections, by the device they are kept for. -/
abbrev Connections := DeviceId → Option Connection

/-- The loop of `dial_places`, with the endpoints and connections that are kept when it ends. -/
def dialFrom [DecidableEq Key] (store : TrustStore Key) (located : Located)
    (dial : DeviceId → ℕ → SocketAddr → DialAttempt Key) :
    List DeviceId → List Endpoint → Connections → Except String Unit × List Endpoint × Connections
  | [], endpoints, peers => (.ok (), endpoints, peers)
  | id :: wanted, endpoints, peers =>
    match located[id]? with
    | none => (.error (id.display ++ " is not on the network"), endpoints, peers)
    | some addrs =>
      match connectAny store.isTrusted (dial id) (usable addrs) with
      | .error _ => (.error ("connecting to " ++ id.display), endpoints, peers)
      | .ok (endpoint, conn) =>
        dialFrom store located dial wanted (endpoints ++ [endpoint])
          (Function.update peers id (some conn))

/-- The device a place is on, if it is not this one. -/
def Placement.peer? (p : Placement) : Option DeviceId :=
  match p.host with
  | .peer id => some id
  | .here => none

/-- The devices the plan names, each once. -/
def wantedIn (places : List Placement) : List DeviceId :=
  ((places.filterMap Placement.peer?).insertionSort (· ≤ ·)).destutter (· ≠ ·)

/-- `dial_places`, given what loading the trust store and browsing come to.  What it has kept is dropped
when it fails. -/
def dialPlaces [DecidableEq Key] (loaded : Except NetError (TrustStore Key))
    (browsed : Except String (List PeerEvent)) (dial : DeviceId → ℕ → SocketAddr → DialAttempt Key)
    (places : List Placement) : Except String Unit × List Endpoint × Connections :=
  let wanted := wantedIn places
  if wanted.isEmpty then (.ok (), [], fun _ => none)
  else match loaded with
    | .error e => (.error e.display, [], fun _ => none)
    | .ok store =>
      match browsed with
      | .error e => (.error e, [], fun _ => none)
      | .ok events => dialFrom store (locate wanted events) dial wanted [] fun _ => none

/-- `peers.get(&id)` in `Pipeline::open`: the connection a place is opened on. -/
def Placement.connection (p : Placement) (peers : Connections) : Option Connection :=
  p.peer?.bind peers

/-! ### To whom the connections lead -/

/-- An endpoint can be bound. -/
def DialAttempt.Binds (a : DialAttempt Key) : Prop := ∃ endpoint, a.bind = .ok endpoint

/-- The first answer at these addresses that the policy accepts is given with this key. -/
inductive AnsweredBy (policy : Key → Bool) (dial : ℕ → SocketAddr → DialAttempt Key) :
    ℕ → List SocketAddr → Key → Prop
  | here {n : ℕ} {addr : SocketAddr} {addrs : List SocketAddr} {key : Key} :
      (dial n addr).Binds → (dial n addr).answer = .ok key → policy key = true →
        AnsweredBy policy dial n (addr :: addrs) key
  | next {n : ℕ} {addr : SocketAddr} {addrs : List SocketAddr} {key : Key} :
      (dial n addr).Binds → (∀ k, (dial n addr).answer = .ok k → policy k = false) →
        AnsweredBy policy dial (n + 1) addrs key → AnsweredBy policy dial n (addr :: addrs) key

variable {policy : Key → Bool} {dial : ℕ → SocketAddr → DialAttempt Key} {n : ℕ}
  {addrs : List SocketAddr} {failures : List String}

theorem AnsweredBy.connects {key : Key} (h : AnsweredBy policy dial n addrs key) :
    ∃ endpoint conn, connectAnyFrom policy dial n failures addrs = .ok (endpoint, conn) ∧
      conn.peerId = PublicKey.deviceId key := by
  induction h generalizing failures with
  | @here n addr addrs key hbinds hanswer hkey =>
    obtain ⟨endpoint, hendpoint⟩ := hbinds
    refine ⟨endpoint, ⟨(dial n addr).number, PublicKey.deviceId key, .dialer⟩, ?_, rfl⟩
    rw [connectAnyFrom, hendpoint]
    dsimp only
    rw [Dialled.connect_eq_ok.2 ⟨key, hanswer, hkey, rfl⟩]
  | @next n addr addrs key hbinds hrefused _ ih =>
    obtain ⟨endpoint, hendpoint⟩ := hbinds
    rw [connectAnyFrom, hendpoint]
    dsimp only
    cases hconn : (dial n addr).connect policy with
    | error e => exact ih
    | ok conn =>
      obtain ⟨k, hanswer, hkey, -⟩ := Dialled.connect_eq_ok.1 hconn
      rw [hrefused k hanswer] at hkey
      cases hkey

omit [PublicKey Key] in
theorem AnsweredBy.accepted {key : Key} (h : AnsweredBy policy dial n addrs key) :
    policy key = true := by
  induction h with
  | here _ _ hkey => exact hkey
  | next _ _ _ ih => exact ih

theorem answeredBy_of_connects {endpoint : Endpoint} {conn : Connection}
    (h : connectAnyFrom policy dial n failures addrs = .ok (endpoint, conn)) :
    ∃ key, AnsweredBy policy dial n addrs key ∧ conn.peerId = PublicKey.deviceId key := by
  induction addrs generalizing n failures with
  | nil => cases h
  | cons addr addrs ih =>
    rw [connectAnyFrom] at h
    cases hbind : (dial n addr).bind with
    | error e =>
      rw [hbind] at h
      cases h
    | ok endpoint' =>
      rw [hbind] at h
      dsimp only at h
      cases hconn : (dial n addr).connect policy with
      | ok conn' =>
        rw [hconn] at h
        cases h
        obtain ⟨key, hanswer, hkey, rfl⟩ := Dialled.connect_eq_ok.1 hconn
        exact ⟨key, .here ⟨_, hbind⟩ hanswer hkey, rfl⟩
      | error e =>
        rw [hconn] at h
        obtain ⟨key, hanswered, hid⟩ := ih h
        refine ⟨key, .next ⟨_, hbind⟩ (fun k hk => ?_) hanswered, hid⟩
        by_contra hkey
        have hok := Dialled.connect_eq_ok.2 ⟨k, hk, Bool.eq_true_of_not_eq_false hkey, rfl⟩
        rw [hconn] at hok
        cases hok

/-- **What `connect_any` comes to**: a connection to whoever gives the first answer that is accepted. -/
theorem connectAny_iff {id : DeviceId} :
    (∃ endpoint conn, connectAny policy dial addrs = .ok (endpoint, conn) ∧ conn.peerId = id) ↔
      ∃ key, AnsweredBy policy dial 0 addrs key ∧ PublicKey.deviceId key = id := by
  unfold connectAny
  cases addrs with
  | nil =>
    constructor
    · rintro ⟨_, _, h, -⟩
      cases h
    · rintro ⟨_, h, -⟩
      cases h
  | cons addr addrs =>
    constructor
    · rintro ⟨endpoint, conn, h, rfl⟩
      obtain ⟨key, hanswered, hid⟩ := answeredBy_of_connects h
      exact ⟨key, hanswered, hid.symm⟩
    · rintro ⟨key, hanswered, rfl⟩
      exact hanswered.connects

section DialFrom

variable [DecidableEq Key] {store : TrustStore Key} {located : Located}
  {dials : DeviceId → ℕ → SocketAddr → DialAttempt Key} {wanted : List DeviceId}
  {endpoints : List Endpoint} {peers : Connections}

/-- A device was found, and the first answer at its addresses that is accepted is given with this
key. -/
def Reached (store : TrustStore Key) (located : Located)
    (dials : DeviceId → ℕ → SocketAddr → DialAttempt Key) (id : DeviceId) (key : Key) : Prop :=
  ∃ addrs, located[id]? = some addrs ∧ AnsweredBy store.isTrusted (dials id) 0 (usable addrs) key

/-- The device is dialled: those that come before it are reached. -/
def InTurn (store : TrustStore Key) (located : Located)
    (dials : DeviceId → ℕ → SocketAddr → DialAttempt Key) (wanted : List DeviceId) (id : DeviceId) : Prop :=
  ∃ before after, wanted = before ++ id :: after ∧
    ∀ d ∈ before, ∃ key, Reached store located dials d key

/-- Who gives the first answer is determined. -/
theorem Reached.unique {id : DeviceId} {key key' : Key} (h : Reached store located dials id key)
    (h' : Reached store located dials id key') :
    PublicKey.deviceId key = PublicKey.deviceId key' := by
  obtain ⟨addrs, haddrs, hanswered⟩ := h
  obtain ⟨addrs', haddrs', hanswered'⟩ := h'
  rw [haddrs] at haddrs'
  cases haddrs'
  obtain ⟨endpoint, conn, hconn, hid⟩ := connectAny_iff.2 ⟨key, hanswered, rfl⟩
  obtain ⟨endpoint', conn', hconn', hid'⟩ := connectAny_iff.2 ⟨key', hanswered', rfl⟩
  rw [hconn] at hconn'
  cases hconn'
  exact hid.symm.trans hid'

/-- One turn of the loop of `dial_places`: it ends there, or the device is reached and the loop goes on. -/
theorem dialFrom_cons (id : DeviceId) :
    ((∃ e, dialFrom store located dials (id :: wanted) endpoints peers =
        (.error e, endpoints, peers)) ∧ ∀ key, ¬ Reached store located dials id key) ∨
      ∃ endpoint conn key, Reached store located dials id key ∧
        conn.peerId = PublicKey.deviceId key ∧
        dialFrom store located dials (id :: wanted) endpoints peers =
          dialFrom store located dials wanted (endpoints ++ [endpoint])
            (Function.update peers id (some conn)) := by
  rw [dialFrom]
  cases haddrs : located[id]? with
  | none =>
    refine Or.inl ⟨⟨_, rfl⟩, ?_⟩
    rintro key ⟨addrs, haddrs', -⟩
    rw [haddrs] at haddrs'
    cases haddrs'
  | some addrs =>
    dsimp only
    cases hconn : connectAny store.isTrusted (dials id) (usable addrs) with
    | error e =>
      refine Or.inl ⟨⟨_, rfl⟩, ?_⟩
      rintro key ⟨addrs', haddrs', hanswered⟩
      rw [haddrs] at haddrs'
      cases haddrs'
      obtain ⟨endpoint, conn, hok, -⟩ := connectAny_iff.2 ⟨key, hanswered, rfl⟩
      rw [hconn] at hok
      cases hok
    | ok pair =>
      obtain ⟨key, hanswered, hid⟩ := connectAny_iff.1 ⟨pair.1, pair.2, hconn, rfl⟩
      exact Or.inr ⟨pair.1, pair.2, key, ⟨addrs, haddrs, hanswered⟩, hid.symm, rfl⟩

/-- What the loop keeps was there before, or leads to whoever answered first. -/
theorem dialFrom_sound {id : DeviceId} {conn : Connection}
    (h : (dialFrom store located dials wanted endpoints peers).2.2 id = some conn) :
    peers id = some conn ∨ InTurn store located dials wanted id ∧
      ∃ key, Reached store located dials id key ∧ conn.peerId = PublicKey.deviceId key := by
  induction wanted generalizing endpoints peers with
  | nil => exact Or.inl h
  | cons first wanted ih =>
    rcases @dialFrom_cons _ _ _ store located dials wanted endpoints peers first with
      ⟨⟨e, heq⟩, -⟩ | ⟨endpoint, conn', key, hreached, hkey, heq⟩
    · rw [heq] at h
      exact Or.inl h
    · rw [heq] at h
      rcases ih h with hkept | ⟨⟨before, after, rfl, hbefore⟩, hid⟩
      · by_cases hfirst : id = first
        · subst hfirst
          rw [Function.update_self] at hkept
          cases hkept
          exact Or.inr ⟨⟨[], wanted, rfl, by simp⟩, key, hreached, hkey⟩
        · rw [Function.update_of_ne hfirst] at hkept
          exact Or.inl hkept
      · refine Or.inr ⟨⟨first :: before, after, rfl, ?_⟩, hid⟩
        rw [List.forall_mem_cons]
        exact ⟨⟨key, hreached⟩, hbefore⟩

/-- A connection that is kept stays, or is replaced by one that leads to the same device. -/
theorem dialFrom_keeps {id d : DeviceId}
    (hd : ∀ key, Reached store located dials id key → PublicKey.deviceId key = d)
    (h : ∃ conn, peers id = some conn ∧ conn.peerId = d) :
    ∃ conn, (dialFrom store located dials wanted endpoints peers).2.2 id = some conn ∧
      conn.peerId = d := by
  induction wanted generalizing endpoints peers with
  | nil => exact h
  | cons first wanted ih =>
    rcases @dialFrom_cons _ _ _ store located dials wanted endpoints peers first with
      ⟨⟨e, heq⟩, -⟩ | ⟨endpoint, conn, key, hreached, hkey, heq⟩
    · rw [heq]
      exact h
    · rw [heq]
      refine ih ?_
      -- a second connection for the device leads to whoever answers first, as the first one does
      by_cases hfirst : id = first
      · subst hfirst
        exact ⟨conn, Function.update_self _ _ _, hkey.trans (hd key hreached)⟩
      · rwa [Function.update_of_ne hfirst]

/-- A device that is dialled and reached has a connection, to whoever answered first. -/
theorem dialFrom_complete {id : DeviceId} {key : Key} (hturn : InTurn store located dials wanted id)
    (hreached : Reached store located dials id key) :
    ∃ conn, (dialFrom store located dials wanted endpoints peers).2.2 id = some conn ∧
      conn.peerId = PublicKey.deviceId key := by
  obtain ⟨before, after, rfl, hbefore⟩ := hturn
  induction before generalizing endpoints peers with
  | nil =>
    rcases @dialFrom_cons _ _ _ store located dials after endpoints peers id with
      ⟨-, hnot⟩ | ⟨endpoint, conn, key', hreached', hkey, heq⟩
    · exact absurd hreached (hnot key)
    · rw [List.nil_append, heq]
      exact dialFrom_keeps (fun k hk => hk.unique hreached)
        ⟨conn, Function.update_self _ _ _, hkey.trans (hreached'.unique hreached)⟩
  | cons first before ih =>
    rw [List.forall_mem_cons] at hbefore
    obtain ⟨⟨k, hk⟩, hrest⟩ := hbefore
    rcases @dialFrom_cons _ _ _ store located dials (before ++ id :: after) endpoints peers first with
      ⟨-, hnot⟩ | ⟨endpoint, conn, key', -, -, heq⟩
    · exact absurd hk (hnot k)
    · rw [List.cons_append, heq]
      exact ih hrest

/-- The loop comes to its end when every device has a connection. -/
theorem dialFrom_all (h : (dialFrom store located dials wanted endpoints peers).1 = .ok ()) :
    ∀ id ∈ wanted, ∃ conn,
      (dialFrom store located dials wanted endpoints peers).2.2 id = some conn := by
  have hreached : ∀ id ∈ wanted, ∃ key, Reached store located dials id key := by
    induction wanted generalizing endpoints peers with
    | nil => simp
    | cons first wanted ih =>
      rcases @dialFrom_cons _ _ _ store located dials wanted endpoints peers first with
        ⟨⟨e, heq⟩, -⟩ | ⟨endpoint, conn, key, hfirst, -, heq⟩
      · rw [heq] at h
        cases h
      · rw [heq] at h
        rw [List.forall_mem_cons]
        exact ⟨⟨key, hfirst⟩, ih h⟩
  intro id hid
  obtain ⟨before, after, rfl⟩ := List.append_of_mem hid
  obtain ⟨key, hkey⟩ := hreached id hid
  obtain ⟨conn, hconn, -⟩ := dialFrom_complete
    ⟨before, after, rfl, fun d hd => hreached d (List.mem_append_left _ hd)⟩ hkey
  exact ⟨conn, hconn⟩

end DialFrom

/-- **Which connections lead to the devices they are kept for**: all of them do, and every place is opened
on a connection to its own host, iff every device that is dialled gives the first accepted answer at
its addresses itself. -/
theorem runs_on_named_iff [DecidableEq Key] (loaded : Except NetError (TrustStore Key))
    (browsed : Except String (List PeerEvent)) (dials : DeviceId → ℕ → SocketAddr → DialAttempt Key)
    (places : List Placement) :
    ((∀ id conn, (dialPlaces loaded browsed dials places).2.2 id = some conn → conn.peerId = id) ∧
        ∀ p ∈ places, ∀ conn, p.connection (dialPlaces loaded browsed dials places).2.2 = some conn →
          p.host = .peer conn.peerId) ↔
      ∀ store events, loaded = .ok store → browsed = .ok events →
        ∀ id, InTurn store (locate (wantedIn places) events) dials (wantedIn places) id →
          ∀ key, Reached store (locate (wantedIn places) events) dials id key →
            PublicKey.deviceId key = id := by
  -- a place is opened on the connection that is kept for its host
  have hplaces : (∀ id conn, (dialPlaces loaded browsed dials places).2.2 id = some conn →
        conn.peerId = id) →
      ∀ p ∈ places, ∀ conn, p.connection (dialPlaces loaded browsed dials places).2.2 = some conn →
        p.host = .peer conn.peerId := by
    intro h p _ conn hconn
    unfold Placement.connection Placement.peer? at hconn
    cases hhost : p.host with
    | here =>
      rw [hhost] at hconn
      cases hconn
    | peer id =>
      rw [hhost] at hconn
      rw [h id conn hconn]
  rw [and_iff_left_of_imp hplaces]
  clear hplaces
  unfold dialPlaces
  dsimp only
  constructor
  · rintro h store events rfl rfl id hturn key hreached
    have hwanted : ¬ (wantedIn places).isEmpty = true := by
      obtain ⟨before, after, heq, -⟩ := hturn
      rw [heq]
      simp
    rw [if_neg hwanted] at h
    -- a device that is dialled and reached has a connection to whoever answered first
    obtain ⟨conn, hconn, hid⟩ := dialFrom_complete hturn hreached
    exact hid.symm.trans (h id conn hconn)
  · intro h id conn hconn
    by_cases hempty : (wantedIn places).isEmpty = true
    · rw [if_pos hempty] at hconn
      cases hconn
    · rw [if_neg hempty] at hconn
      cases loaded with
      | error e => cases hconn
      | ok store =>
        cases browsed with
        | error e => cases hconn
        | ok events =>
          rcases dialFrom_sound hconn with hnone | ⟨hturn, key, hreached, hid⟩
          · cases hnone
          · exact hid.trans (h store events rfl rfl id hturn key hreached)

/-! ### Every place has a connection -/

theorem mem_destutter'_ne {α : Type} [DecidableEq α] {l : List α} {a x : α} (h : x ∈ a :: l) :
    x ∈ l.destutter' (· ≠ ·) a := by
  induction l generalizing a with
  | nil => exact h
  | cons b l ih =>
    by_cases hab : a = b
    · subst hab
      rw [List.destutter'_cons_neg _ (not_not.2 rfl)]
      exact ih (by simpa using h)
    · rw [List.destutter'_cons_pos _ hab]
      rcases List.mem_cons.1 h with rfl | h
      · exact List.mem_cons_self
      · exact List.mem_cons_of_mem _ (ih h)

theorem mem_wantedIn {places : List Placement} {p : Placement} {id : DeviceId} (hp : p ∈ places)
    (hhost : p.host = .peer id) : id ∈ wantedIn places := by
  have hmem : id ∈ (places.filterMap Placement.peer?).insertionSort (· ≤ ·) := by
    rw [List.mem_insertionSort, List.mem_filterMap]
    refine ⟨p, hp, ?_⟩
    unfold Placement.peer?
    rw [hhost]
  unfold wantedIn
  cases hsorted : (places.filterMap Placement.peer?).insertionSort (· ≤ ·) with
  | nil =>
    rw [hsorted] at hmem
    cases hmem
  | cons first rest =>
    rw [hsorted] at hmem
    exact mem_destutter'_ne hmem

/-- **Every place has a connection** once `dial_places` returns. -/
theorem dialPlaces_complete [DecidableEq Key] {loaded : Except NetError (TrustStore Key)}
    {browsed : Except String (List PeerEvent)} {dials : DeviceId → ℕ → SocketAddr → DialAttempt Key}
    {places : List Placement} (h : (dialPlaces loaded browsed dials places).1 = .ok ())
    {p : Placement} (hp : p ∈ places) {id : DeviceId} (hhost : p.host = .peer id) :
    ∃ conn, p.connection (dialPlaces loaded browsed dials places).2.2 = some conn := by
  have hwanted := mem_wantedIn hp hhost
  have hempty : ¬ (wantedIn places).isEmpty = true := by
    intro hnil
    rw [List.isEmpty_iff.1 hnil] at hwanted
    cases hwanted
  unfold Placement.connection Placement.peer?
  rw [hhost]
  show ∃ conn, (dialPlaces loaded browsed dials places).2.2 id = some conn
  unfold dialPlaces at h ⊢
  dsimp only at h ⊢
  rw [if_neg hempty] at h ⊢
  cases loaded with
  | error e => cases h
  | ok store =>
    cases browsed with
    | error e => cases h
    | ok events => exact dialFrom_all h id hwanted

/-- The laptop (2) is looked for, and the tablet (3), which is trusted too, answers at its address. -/
theorem runs_on_another :
    let store : TrustStore UInt8 :=
      ((TrustStore.empty.insert (.new 2 "laptop" "linux" 0) (.ok ())).1.insert
        (.new 3 "tablet" "linux" 0) (.ok ())).1
    let addr : SocketAddr := ⟨"192.168.1.20:47900", true, false⟩
    let place : Placement := ⟨0, 2, .peer 2⟩
    let dialled := dialPlaces (.ok store) (.ok [.found ⟨2, [addr]⟩])
      (fun _ _ _ => ⟨⟨0, .ok 3, .rejected⟩, .ok ⟨0⟩⟩) [place]
    dialled.1 = .ok () ∧ dialled.2.2 2 = some ⟨0, 3, .dialer⟩ ∧
      place.connection dialled.2.2 = some ⟨0, 3, .dialer⟩ := by
  intro store addr place dialled
  exact ⟨rfl, rfl, rfl⟩

end Daemon

end Latticed
