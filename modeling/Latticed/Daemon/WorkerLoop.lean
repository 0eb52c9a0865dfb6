import Latticed.Daemon.Pair
import Latticed.Daemon.Places
import Latticed.Daemon.Workers

/-!
# The worker looks for its master

A worker looks for a master until it finds one, pairs with it if it has to, registers, lets this master
use its GPU until the connection ends, and starts again.  Where the master is comes from an option, from
the record of the last master, or from discovery, which is not authenticated; who it is must not change.

* `findTarget_wanted`, `findTarget_keeps` : the next target is the device that is wanted, and goes on being
  wanted.
* `Worker.turn_spec` : a turn of the loop authorizes nobody else.
* `worker_never_switches` : one run authorizes one master.
-/

namespace Latticed

namespace Daemon

open Net Rust

/-! ### Where the master may be -/

/-- What `std::net` provides. -/
structure StdNet where
  Ip : Type
  parseSocketAddr : String → Option SocketAddr
  parseIpv4 : String → Option Ip
  /-- `SocketAddr::new`. -/
  new : Ip → UInt16 → SocketAddr
  ip : SocketAddr → Ip
  port : SocketAddr → UInt16
  isUnspecified : Ip → Bool

/-- `Target`. -/
structure Target where
  id : Option DeviceId
  addrs : List SocketAddr
  pairingPort : UInt16
  deriving DecidableEq

/-- `WorkerOptions`, as far as the loop reads them. -/
structure WorkerOptions where
  master : Option String
  code : Option String
  pairingPort : UInt16

/-- `explicit_address`. -/
def explicitAddress (std : StdNet) (text : String) : Except String (Option SocketAddr) :=
  let addr := (std.parseSocketAddr text).or ((std.parseIpv4 text).map (std.new · 47900))
  if addr.any fun a => !a.isIpv4 || std.port a = 0 || std.isUnspecified (std.ip a) then
    .error "--master requires a usable IPv4 address and nonzero port"
  else .ok addr

/-- `DeviceId::from_str`: sixteen hexadecimal digits. -/
def deviceIdFromStr (text : String) : Option DeviceId :=
  let bytes := asBytes text
  if bytes.length = 16 then
    (bytes.mapM hexValue).map fun digits => .ofNat (2 ^ 64) (digits.foldl (16 * · + ·) 0)
  else none

/-- `DiscoveredPeer`, as far as a worker reads it. -/
structure SeenPeer extends DiscoveredPeer where
  role : Option String
  protocol : UInt16
  pairingPort : Option UInt16

/-- `PeerEvent`, with what a worker reads. -/
inductive SeenEvent where
  | found (peer : SeenPeer)
  | lost (id : DeviceId)

/-- The loop of `browse`. -/
def browseStep (self : DeviceId) (peers : Std.ExtTreeMap DeviceId SeenPeer) :
    SeenEvent → Std.ExtTreeMap DeviceId SeenPeer
  | .found peer => if peer.deviceId ≠ self then peers.insert peer.deviceId peer else peers
  | .lost id => peers.erase id

/-- `browse`, over the events that come before the deadline. -/
def browse (self : DeviceId) (events : List SeenEvent) : List SeenPeer :=
  ((events.foldl (browseStep self) ∅).toList).map (·.2)

/-- `lattice_net::discovery::PROTOCOL_VERSION`. -/
def protocolVersion : UInt16 := 1

/-- `select_master`. -/
def selectMaster (peers : List SeenPeer) (wanted : Option DeviceId) :
    Except String (Option SeenPeer) :=
  match peers.filter fun peer => peer.role = some "master" ∧ peer.protocol = protocolVersion ∧
      wanted.all (peer.deviceId = ·) ∧ peer.addrs.any (·.isIpv4) with
  | [] => .ok none
  | [first] => .ok (some first)
  | first :: second :: _ => .error ("multiple masters found (" ++ first.deviceId.display ++ " and " ++
      second.deviceId.display ++ "); choose one with --master <device-id>")

/-- The end of `find_target`, when no address was given. -/
def findById (options : WorkerOptions) (saved : Option Target) (self : DeviceId)
    (requested : Option DeviceId) (browsed : Except String (List SeenEvent)) :
    Except String (Option Target) :=
  if requested = some self then .error "the selected master is this device"
  else browsed.bind fun events => (selectMaster (browse self events) requested).map fun
    | some peer => some
        { id := some peer.deviceId
          addrs := usable peer.addrs
          pairingPort := peer.pairingPort.getD options.pairingPort }
    | none => saved.filter (·.id = requested)

/-- `find_target`. -/
def findTarget (std : StdNet) (options : WorkerOptions) (saved : Option Target) (self : DeviceId)
    (browsed : Except String (List SeenEvent)) : Except String (Option Target) :=
  match options.master with
  | some text =>
    match explicitAddress std text with
    | .error why => .error why
    | .ok (some addr) => .ok (some
        { id := (saved.filter (·.addrs.contains addr)).bind (·.id)
          addrs := [addr]
          pairingPort := options.pairingPort })
    | .ok none =>
      match deviceIdFromStr text with
      | none => .error "--master must be a device ID or IPv4[:port]"
      | some id => findById options saved self (some id) browsed
  | none => findById options saved self (saved.bind (·.id)) browsed

/-- `read_saved`: there may be no file at `path`, or what is in it does not decode. -/
def readSaved (std : StdNet) (path : String) (decode : Bytes → Except String Target)
    (file : Except String (Option Bytes)) : Except String (Option Target) :=
  match file with
  | .error why => .error why
  | .ok none => .ok none
  | .ok (some bytes) =>
    match decode bytes with
    | .error _ => .error "reading saved master"
    | .ok target =>
      if target.id.isNone ∨ target.addrs = [] ∨ target.pairingPort = 0 ∨
          target.addrs.any fun a => !a.isIpv4 || std.port a = 0 then
        .error ("saved master is invalid; remove " ++ path ++ " and reconnect")
      else .ok (some target)

/-! ### Who the master is -/

/-- The device that the next target has to be, if the option or the record of the last master says so. -/
def wanted (std : StdNet) (options : WorkerOptions) (saved : Option Target) : Option DeviceId :=
  match options.master with
  | some text =>
    match explicitAddress std text with
    | .error _ => none
    | .ok (some addr) => (saved.filter (·.addrs.contains addr)).bind (·.id)
    | .ok none => deviceIdFromStr text
  | none => saved.bind (·.id)

section Targets

variable {std : StdNet} {options : WorkerOptions} {saved : Option Target} {self : DeviceId}
  {requested : Option DeviceId} {browsed : Except String (List SeenEvent)} {target : Target}
  {id want : DeviceId}

theorem selectMaster_wanted {peers : List SeenPeer} {peer : SeenPeer}
    (h : selectMaster peers (some want) = .ok (some peer)) : peer.deviceId = want := by
  simp only [selectMaster] at h
  split at h
  · cases h
  · next first hfirst =>
    cases h
    have hmem : peer ∈ [peer] := List.mem_singleton_self peer
    rw [← hfirst] at hmem
    have hcandidate := (List.mem_filter.1 hmem).2
    simp only [decide_eq_true_eq, Option.all_some] at hcandidate
    exact hcandidate.2.2.1
  · cases h

theorem findById_wanted (h : findById options saved self requested browsed = .ok (some target))
    (hwant : requested = some want) : target.id = some want := by
  subst hwant
  simp only [findById] at h
  split_ifs at h
  obtain ⟨events, -, h⟩ := exceptBind_eq_ok.1 h
  obtain ⟨found, hfound, h⟩ := map_eq_ok.1 h
  cases found with
  | some peer =>
    cases h
    exact congrArg some (selectMaster_wanted hfound)
  | none =>
    have hsaved := Option.filter_eq_some_iff.1 h
    simpa using hsaved.2

/-- **The next target is the device that is wanted.** -/
theorem findTarget_wanted (h : findTarget std options saved self browsed = .ok (some target))
    (hwant : wanted std options saved = some want) : target.id = some want := by
  simp only [findTarget] at h
  simp only [wanted] at hwant
  cases hmaster : options.master with
  | none =>
    simp only [hmaster] at h hwant
    exact findById_wanted h hwant
  | some text =>
    simp only [hmaster] at h hwant
    rcases hexplicit : explicitAddress std text with why | _ | addr <;>
      simp only [hexplicit] at h hwant
    · cases h
    · simp only [hwant] at h
      exact findById_wanted h rfl
    · cases h
      exact hwant

/-- **A target goes on being wanted** when it is recorded with the id of whoever was reached there. -/
theorem findTarget_keeps (h : findTarget std options saved self browsed = .ok (some target))
    (hid : ∀ want, target.id = some want → id = want) :
    wanted std options (some { target with id := some id }) = some id := by
  simp only [findTarget] at h
  simp only [wanted]
  cases hmaster : options.master with
  | none => rfl
  | some text =>
    simp only [hmaster] at h
    rcases hexplicit : explicitAddress std text with why | _ | addr <;> simp only [hexplicit] at h ⊢
    · cases h
    · cases hfrom : deviceIdFromStr text with
      | none => simp [hfrom] at h
      | some want =>
        simp only [hfrom] at h
        rw [hid want (findById_wanted h rfl)]
    · cases h
      simp [Option.filter]

end Targets

/-! ### Connecting -/

variable {Key : Type}

/-- A handshake, and what other requests do to the trust store before it. -/
structure Handshake (Key : Type) extends Dialled Key where
  others : List (TrustEvent Key)

/-- A worker. -/
structure Worker (Key : Type) where
  std : StdNet
  options : WorkerOptions
  key : Key
  name : String
  platform : String

namespace Worker

variable [PublicKey Key] {w : Worker Key}

/-- The id of this device. -/
def id (w : Worker Key) : DeviceId := PublicKey.deviceId w.key

/-- What other requests make of the trust store. -/
def change (w : Worker Key) (store : TrustStore Key) (others : List (TrustEvent Key)) :
    TrustStore Key :=
  others.foldl (trustStep w.id) store

/-- The loop of `Service::connect`, with the trust store that it leaves. -/
def connectFrom [DecidableEq Key] (w : Worker Key) (expected : Option DeviceId)
    (dial : ℕ → SocketAddr → Handshake Key) :
    ℕ → List String → TrustStore Key → List SocketAddr → Except String Connection × TrustStore Key
  | _, failures, store, [] => (.error ("could not connect:\n" ++ "\n".intercalate failures), store)
  | n, failures, store, addr :: addrs =>
    let store := w.change store (dial n addr).others
    match (dial n addr).connect store.isTrusted with
    | .ok conn =>
      if expected.all (conn.peerId = ·) then (.ok conn, store)
      else
        let why := addr.text ++ ": identity differs from the selected master"
        w.connectFrom expected dial (n + 1) (failures ++ [why]) store addrs
    | .error error =>
      let why := addr.text ++ ": " ++ error.display
      w.connectFrom expected dial (n + 1) (failures ++ [why]) store addrs

/-- `Service::connect`. -/
def connect [DecidableEq Key] (w : Worker Key) (store : TrustStore Key) (addrs : List SocketAddr)
    (expected : Option DeviceId) (dial : ℕ → SocketAddr → Handshake Key) :
    Except String Connection × TrustStore Key :=
  w.connectFrom expected dial 0 [] store addrs

theorem knows_change {store : TrustStore Key} {id : DeviceId} (others : List (TrustEvent Key))
    (h : knows store id = true) : knows (w.change store others) id = true :=
  foldl_mono (P := fun store => knows store id = true) (fun _ _ => knows_trustStep) others h

/-- **A connection** is one to the device that was expected, at one of the addresses, and to one that is
trusted. -/
theorem connectFrom_ok [DecidableEq Key] {store store' : TrustStore Key} {conn : Connection}
    {expected : Option DeviceId} {dial : ℕ → SocketAddr → Handshake Key} {n : ℕ}
    {failures : List String} {addrs : List SocketAddr}
    (h : w.connectFrom expected dial n failures store addrs = (.ok conn, store')) :
    (∀ want, expected = some want → conn.peerId = want) ∧ knows store' conn.peerId = true ∧
      ∃ m, ∃ addr ∈ addrs, ∃ key, (dial m addr).answer = .ok key ∧
        PublicKey.deviceId key = conn.peerId := by
  induction addrs generalizing n failures store with
  | nil => simp [connectFrom] at h
  | cons addr addrs ih =>
    have hlater {n : ℕ} {failures : List String} {store : TrustStore Key}
        (h : w.connectFrom expected dial n failures store addrs = (.ok conn, store')) :
        (∀ want, expected = some want → conn.peerId = want) ∧ knows store' conn.peerId = true ∧
          ∃ m, ∃ addr' ∈ addr :: addrs, ∃ key, (dial m addr').answer = .ok key ∧
            PublicKey.deviceId key = conn.peerId := by
      obtain ⟨hexpected, hknows, m, addr', hmem, hanswer⟩ := ih h
      exact ⟨hexpected, hknows, m, addr', List.mem_cons_of_mem _ hmem, hanswer⟩
    rw [connectFrom] at h
    cases hconn : (dial n addr).connect (w.change store (dial n addr).others).isTrusted with
    | error e =>
      simp only [hconn] at h
      exact hlater h
    | ok conn' =>
      simp only [hconn] at h
      split_ifs at h with hexpected
      · obtain ⟨rfl, rfl⟩ : conn' = conn ∧ w.change store (dial n addr).others = store' := by
          simpa using h
        obtain ⟨key, hanswer, htrusted, rfl⟩ := Dialled.connect_eq_ok.1 hconn
        refine ⟨?_, knows_of_isTrusted htrusted, n, addr, List.mem_cons_self, key, hanswer, rfl⟩
        rintro want rfl
        simpa using hexpected
      · exact hlater h

end Worker

/-! ### A turn of the loop -/

variable [P : Primitives]

/-- What pairing meets outside the worker. -/
structure PairingTry (Key : Type) where
  /-- The line the user types. -/
  stdin : Except String String
  /-- The attempts of `connect_any`. -/
  dial : ℕ → SocketAddr → DialAttempt Key
  /-- What other requests do to the trust store before the record is inserted. -/
  others : List (TrustEvent Key)
  scalar : P.Scalar
  binding : Bytes32
  io : ExchangeIo
  now : UInt64
  save : Except NetError Unit
  saving : Attempt.SavingIo

/-- What comes of `RegisterWorker`. -/
inductive Registration where
  | answered (answer : Except String Response)
  | timedOut

/-- What one turn of the loop meets outside the worker. -/
structure Turn (Key : Type) where
  browsed : Except String (List SeenEvent)
  /-- What other requests have done to the trust store before it is read. -/
  others : List (TrustEvent Key)
  dial : ℕ → SocketAddr → Handshake Key
  pairing : PairingTry Key
  /-- The attempts after pairing. -/
  redial : ℕ → SocketAddr → Handshake Key
  registration : Registration
  /-- How the answer prints. -/
  shown : String
  /-- What other requests do to the trust store before the master is authorized. -/
  meanwhile : List (TrustEvent Key)
  /-- `write_saved`. -/
  write : Except String Unit

/-- A call of `authorize_master`, with the connection and the trust store at that time. -/
structure AuthorizeCall (Key : Type) where
  master : Option DeviceId
  conn : Connection
  store : TrustStore Key

/-- What the loop keeps from turn to turn, and what it has called `authorize_master` and `write_saved` with,
the latest first. -/
structure WorkerRun (Key : Type) where
  suppliedCode : Option PairingCode
  saved : Option Target
  store : TrustStore Key
  calls : List (AuthorizeCall Key)
  written : List Target

/-- Why a registration is to be tried again, if it is; nothing when the loop gives up. -/
def Registration.retry : Registration → Option (Option String)
  | .answered (.ok .workerRegistered) => some none
  | .answered (.ok (.refused why)) => if why = masterBusy then some (some why) else none
  | .answered (.error error) => some (some ("Master disconnected during registration: " ++ error))
  | .timedOut => some (some "Master registration timed out")
  | .answered (.ok _) => none

namespace Worker

variable [PublicKey Key] [DecidableEq Key]

/-- The addresses at which the master is to be paired with. -/
def pairingAddrs (w : Worker Key) (target : Target) : List SocketAddr :=
  target.addrs.map fun addr => w.std.new (w.std.ip addr) target.pairingPort

/-- The middle of `pair`: the connection on which codes are exchanged. -/
def pairConn (w : Worker Key) (target : Target) (dial : ℕ → SocketAddr → DialAttempt Key) :
    Except String Connection :=
  match connectAny (fun _ => true) dial (w.pairingAddrs target) with
  | .error why => .error why
  | .ok (_, conn) =>
    if target.id.any (conn.peerId ≠ ·) then
      .error "pairing endpoint identity differs from the selected master"
    else .ok conn

/-- The end of `pair`: codes are exchanged, and the master is recorded. -/
def pairOver (w : Worker Key) (store : TrustStore Key)
    (conn : Connection) (code : PairingCode) (t : PairingTry Key) :
    Outcome String DeviceId × TrustStore Key :=
  let store := w.change store t.others
  let attempt : Attempt Key :=
    { key := w.key
      name := w.name
      platform := w.platform
      scalar := t.scalar
      conn := { peerId := conn.peerId, binding := t.binding, io := t.io }
      now := t.now
      save := t.save }
  let paired := attempt.session code store t.saving
  (.ofExcept paired.result, (paired.inserted.map (·.2)).getD store)

/-- `pair`: the id of the master that was paired with, and the trust store. -/
def pair (w : Worker Key) (store : TrustStore Key) (target : Target) (code : Option PairingCode)
    (t : PairingTry Key) : Outcome String DeviceId × TrustStore Key :=
  if target.addrs = [] then
    (.panic "index out of bounds: the len is 0 but the index is 0", store)
  else
    let code : Except String PairingCode := match code with
      | some code => .ok code
      | none => t.stdin.bind fun input => (PairingCode.parse input).mapError fun _ =>
        "enter the master's code, or pass --code for a noninteractive start"
    match code with
    | .error why => (.err why, store)
    | .ok code =>
      match w.pairConn target t.dial with
      | .error why => (.err why, store)
      | .ok conn => w.pairOver store conn code t

/-- The end of a turn: registration and what follows it. -/
def register (w : Worker Key) (s : WorkerRun Key) (target : Target) (conn : Connection)
    (t : Turn Key) : Outcome String Unit × WorkerRun Key :=
  match t.registration.retry with
  | none => (.err ("master did not accept worker registration: " ++ t.shown ++
      "; run the updated latticed master on that device"), s)
  | some (some _) => (.ok (), { s with saved := some { target with id := some conn.peerId } })
  | some none =>
    let store := w.change s.store t.meanwhile
    let target := { target with id := some conn.peerId }
    let s := { s with
      store
      calls := ⟨some conn.peerId, conn, store⟩ :: s.calls
      written := target :: s.written }
    match t.write with
    | .error why => (.err why, s)
    | .ok () => (.ok (), { s with
        saved := some target
        -- the connection has closed
        calls := ⟨none, conn, s.store⟩ :: s.calls })

/-- The connection to the target, unless a code was given: then the two are paired first. -/
def firstConnection (w : Worker Key) (s : WorkerRun Key) (target : Target)
    (dial : ℕ → SocketAddr → Handshake Key) : Except String Connection × TrustStore Key :=
  if s.suppliedCode.isNone then w.connect s.store target.addrs target.id dial
  else (.error "pairing requested", s.store)

/-- One turn of the loop of `run_inner`. -/
def turn (w : Worker Key) (s : WorkerRun Key) (t : Turn Key) : Outcome String Unit × WorkerRun Key :=
  match findTarget w.std w.options s.saved w.id t.browsed with
  | .error why => (.err why, s)
  | .ok none => (.ok (), s)
  | .ok (some target) =>
    let s := { s with store := w.change s.store t.others }
    let trusted := target.id.any (knows s.store)
    match w.firstConnection s target t.dial with
    | (.ok conn, store) => w.register { s with store } target conn t
    | (.error _, store) =>
      if trusted ∧ s.suppliedCode.isNone then (.ok (), { s with store })
      else
        match w.pair store target s.suppliedCode t.pairing with
        | (.panic message, store) => (.panic message, { s with suppliedCode := none, store })
        | (.err error, store) => (.err ("could not pair with the master: " ++ error ++
            "; check its current code and rerun latticed worker"),
            { s with suppliedCode := none, store })
        | (.ok id, store) =>
          let target := { target with id := some id }
          let s := { s with suppliedCode := none, saved := some target }
          match w.connect store target.addrs target.id t.redial with
          | (.error _, store) => (.ok (), { s with store })
          | (.ok conn, store) => w.register { s with store } target conn t

/-- The loop of `run_inner`, as long as it goes on. -/
def turns (w : Worker Key) (s : WorkerRun Key) : List (Turn Key) → Outcome String Unit × WorkerRun Key
  | [] => (.ok (), s)
  | t :: rest =>
    match w.turn s t with
    | (.ok (), s) => w.turns s rest
    | ended => ended

/-- `run_inner`, from the record of the last master and the trust store on. -/
def runInner (w : Worker Key) (path : String) (decode : Bytes → Except String Target)
    (file : Except String (Option Bytes)) (store : TrustStore Key) (outside : List (Turn Key)) :
    Outcome String Unit × WorkerRun Key :=
  match w.options.code.mapM PairingCode.parse with
  | .error e => (.err e.display, ⟨none, none, store, [], []⟩)
  | .ok suppliedCode =>
    match readSaved w.std path decode file with
    | .error why => (.err why, ⟨suppliedCode, none, store, [], []⟩)
    | .ok saved => w.turns ⟨suppliedCode, saved, store, [], []⟩ outside

end Worker

/-! ### One master -/

namespace Worker

variable [PublicKey Key] [DecidableEq Key] {w : Worker Key} {s : WorkerRun Key} {t : Turn Key}
  {store store' : TrustStore Key} {id want : DeviceId} {conn : Connection} {target : Target}

/-- A device whose key has this id has finished a handshake in this turn. -/
def Authenticates (t : Turn Key) (id : DeviceId) : Prop :=
  ∃ n addr key, ((t.dial n addr).answer = .ok key ∨ (t.redial n addr).answer = .ok key) ∧
    PublicKey.deviceId key = id

/-- The device that the next target has to be. -/
def Wants (w : Worker Key) (s : WorkerRun Key) : Option DeviceId := wanted w.std w.options s.saved

omit P [DecidableEq Key] in
/-- Codes are exchanged with the master that was selected. -/
theorem pairConn_ok {dial : ℕ → SocketAddr → DialAttempt Key} (h : w.pairConn target dial = .ok conn)
    (hwant : target.id = some want) : conn.peerId = want := by
  unfold pairConn at h
  split at h
  · cases h
  · split_ifs at h with hother
    cases h
    simpa [hwant] using hother

/-- A master that is paired with is the one that was selected. -/
theorem pair_ok {code : Option PairingCode} {p : PairingTry Key}
    (h : w.pair store target code p = (.ok id, store')) (hwant : target.id = some want) :
    id = want := by
  simp only [pair] at h
  split_ifs at h
  · cases h
  · split at h
    · cases h
    · split at h
      · cases h
      · next conn hconn =>
        obtain ⟨hresult, -⟩ := Prod.mk.inj h
        rw [← pairConn_ok hconn hwant]
        exact Attempt.result_of_session (Outcome.ofExcept_eq_ok.1 hresult)

/-- What has come of a turn: it authorizes only who is wanted, somebody who has finished a handshake and is
trusted, and this device is wanted from then on; and so is whoever was wanted before. -/
structure Pins (w : Worker Key) (s : WorkerRun Key) (t : Turn Key)
    (r : Outcome String Unit × WorkerRun Key) : Prop where
  wants : r.1 = .ok () → ∀ want, w.Wants s = some want → w.Wants r.2 = some want
  calls : ∃ new, r.2.calls = new ++ s.calls ∧ (∀ a ∈ new, ∀ b ∈ new, a.conn = b.conn) ∧
    ∀ a ∈ new, ∀ id, a.master = some id → (∀ want, w.Wants s = some want → id = want) ∧
      a.conn.peerId = id ∧ knows a.store id = true ∧ Authenticates t id ∧
      (r.1 = .ok () → w.Wants r.2 = some id)

omit [DecidableEq Key] in
/-- A turn that records and authorizes nobody. -/
theorem pins_same {s' : WorkerRun Key} (hsaved : s'.saved = s.saved) (hcalls : s'.calls = s.calls)
    (result : Outcome String Unit) : w.Pins s t (result, s') where
  wants := fun _ want h => by simpa [Wants, hsaved] using h
  calls := ⟨[], hcalls, by simp, by simp⟩

omit [DecidableEq Key] in
/-- A turn that comes to registration. -/
theorem pins_register {s' : WorkerRun Key} (hcalls : s'.calls = s.calls)
    (hknows : knows s'.store conn.peerId = true) (hauth : Authenticates t conn.peerId)
    (hwants : ∀ want, w.Wants s = some want → conn.peerId = want)
    (hkeeps : wanted w.std w.options (some { target with id := some conn.peerId }) =
      some conn.peerId) : w.Pins s t (w.register s' target conn t) := by
  have hknows' : knows (w.change s'.store t.meanwhile) conn.peerId = true := knows_change _ hknows
  simp only [register]
  rcases t.registration.retry with _ | _ | reason
  · exact ⟨by simp, [], hcalls, by simp, by simp⟩
  · cases t.write with
    | error why =>
      refine ⟨by simp, [⟨some conn.peerId, conn, w.change s'.store t.meanwhile⟩],
        by simp [hcalls], by simp, ?_⟩
      simpa using ⟨hwants, hknows', hauth⟩
    | ok u =>
      refine ⟨fun _ want h => ?_, [⟨none, conn, w.change s'.store t.meanwhile⟩,
        ⟨some conn.peerId, conn, w.change s'.store t.meanwhile⟩], by simp [hcalls], by simp, ?_⟩
      · exact hkeeps.trans (congrArg some (hwants want h))
      · simpa using ⟨hwants, hknows', hauth, hkeeps⟩
  · refine ⟨fun _ want h => ?_, [], hcalls, by simp, by simp⟩
    exact hkeeps.trans (congrArg some (hwants want h))

/-- **A turn pins the master.** -/
theorem turn_spec (w : Worker Key) (s : WorkerRun Key) (t : Turn Key) : w.Pins s t (w.turn s t) := by
  simp only [turn]
  cases hfind : findTarget w.std w.options s.saved w.id t.browsed with
  | error why => exact pins_same rfl rfl _
  | ok found =>
    cases found with
    | none => exact pins_same rfl rfl _
    | some target =>
      have htarget : ∀ want, w.Wants s = some want → target.id = some want :=
        fun want => findTarget_wanted hfind
      have hkeeps (id : DeviceId) (hid : ∀ want, target.id = some want → id = want) :=
        findTarget_keeps hfind hid
      dsimp only
      let s' : WorkerRun Key := { s with store := w.change s.store t.others }
      rcases hfirst : w.firstConnection s' target t.dial with ⟨why | conn, store⟩
      · dsimp only
        split_ifs
        · apply pins_same <;> rfl
        · rcases hpair : w.pair store target s.suppliedCode t.pairing with
            ⟨id | error | message, store'⟩
          · have hid : ∀ want, target.id = some want → id = want := fun want => pair_ok hpair
            dsimp only
            rcases hredial : w.connect store' target.addrs (some id) t.redial with
              ⟨why | conn, store''⟩
            · refine ⟨fun _ want h => ?_, [], rfl, by simp, by simp⟩
              exact (hkeeps id hid).trans (congrArg some (hid want (htarget want h)))
            · obtain ⟨hexpected, hknows, n, addr, -, key, hanswer, hkey⟩ := connectFrom_ok hredial
              obtain rfl : conn.peerId = id := hexpected id rfl
              exact pins_register rfl hknows ⟨n, addr, key, Or.inr hanswer, hkey⟩
                (fun want h => hid want (htarget want h)) (hkeeps _ hid)
          · apply pins_same <;> rfl
          · apply pins_same <;> rfl
      · -- no code was given, so the connection is to the target
        simp only [firstConnection] at hfirst
        split_ifs at hfirst
        · obtain ⟨hexpected, hknows, n, addr, -, key, hanswer, hkey⟩ := connectFrom_ok hfirst
          exact pins_register rfl hknows ⟨n, addr, key, Or.inl hanswer, hkey⟩
            (fun want h => hexpected want (htarget want h)) (hkeeps _ hexpected)
        · cases hfirst

/-- **A run pins the master**: it authorizes whoever was wanted at first, and nobody else. -/
theorem turns_spec (w : Worker Key) (s : WorkerRun Key) (outside : List (Turn Key)) :
    ∃ new, (w.turns s outside).2.calls = new ++ s.calls ∧
      (∀ a ∈ new, ∀ id, a.master = some id → (∀ want, w.Wants s = some want → id = want) ∧
        a.conn.peerId = id ∧ knows a.store id = true ∧ ∃ t ∈ outside, Authenticates t id) ∧
      ∀ a ∈ new, ∀ b ∈ new, ∀ id id', a.master = some id → b.master = some id' → id = id' := by
  induction outside generalizing s with
  | nil => exact ⟨[], rfl, by simp, by simp⟩
  | cons t rest ih =>
    obtain ⟨hwants, first, hfirst, hconn, hcalls⟩ := w.turn_spec s t
    have hone : ∀ a ∈ first, ∀ b ∈ first, ∀ id id', a.master = some id → b.master = some id' →
        id = id' := by
      intro a ha b hb id id' hid hid'
      rw [← (hcalls a ha id hid).2.1, ← (hcalls b hb id' hid').2.1, hconn a ha b hb]
    have hgenuine : ∀ a ∈ first, ∀ id, a.master = some id →
        (∀ want, w.Wants s = some want → id = want) ∧ a.conn.peerId = id ∧
          knows a.store id = true ∧ ∃ t' ∈ t :: rest, Authenticates t' id := by
      intro a ha id hid
      obtain ⟨hwant, hpeer, hknows, hauth, -⟩ := hcalls a ha id hid
      exact ⟨hwant, hpeer, hknows, t, List.mem_cons_self, hauth⟩
    simp only [turns]
    rcases hturn : w.turn s t with ⟨u | why | message, s'⟩
    · simp only [hturn] at hwants hfirst hcalls
      obtain ⟨later, hlater, hgenuine', hsame⟩ := ih s'
      refine ⟨later ++ first, by simp [hlater, hfirst], ?_, ?_⟩
      · intro a ha id hid
        rcases List.mem_append.1 ha with ha | ha
        · obtain ⟨hwant, hpeer, hknows, t', ht', hauth⟩ := hgenuine' a ha id hid
          exact ⟨fun want h => hwant want (hwants trivial want h), hpeer, hknows, t',
            List.mem_cons_of_mem _ ht', hauth⟩
        · exact hgenuine a ha id hid
      · -- what the first turn authorizes is wanted in the later ones
        have hacross : ∀ a ∈ later, ∀ b ∈ first, ∀ id id', a.master = some id →
            b.master = some id' → id = id' := by
          intro a ha b hb id id' hid hid'
          exact (hgenuine' a ha id hid).1 id' ((hcalls b hb id' hid').2.2.2.2 trivial)
        intro a ha b hb id id' hid hid'
        rcases List.mem_append.1 ha with ha | ha <;> rcases List.mem_append.1 hb with hb | hb
        · exact hsame a ha b hb id id' hid hid'
        · exact hacross a ha b hb id id' hid hid'
        · exact (hacross b hb a ha id' id hid' hid).symm
        · exact hone a ha b hb id id' hid hid'
    · rw [hturn] at hfirst
      exact ⟨first, hfirst, hgenuine, hone⟩
    · rw [hturn] at hfirst
      exact ⟨first, hfirst, hgenuine, hone⟩

end Worker

open Worker in
/-- **The worker never switches masters.**  All masters that one run authorizes are the same device; it has
authenticated itself by its key and is in the trust store; it is the one that `--master` names by its id,
and without `--master` the one that was saved. -/
theorem worker_never_switches {Key : Type} [PublicKey Key] [DecidableEq Key] (w : Worker Key)
    (path : String) (decode : Bytes → Except String Target) (file : Except String (Option Bytes))
    (store : TrustStore Key) (outside : List (Turn Key)) :
    let calls := (w.runInner path decode file store outside).2.calls
    (∀ a ∈ calls, ∀ id, a.master = some id →
      a.conn.peerId = id ∧ knows a.store id = true ∧ ∃ t ∈ outside, Authenticates t id) ∧
    (∀ a ∈ calls, ∀ b ∈ calls, ∀ id id', a.master = some id → b.master = some id' → id = id') ∧
    (∀ text want, w.options.master = some text → explicitAddress w.std text = .ok none →
      deviceIdFromStr text = some want → ∀ a ∈ calls, ∀ id, a.master = some id → id = want) ∧
    ∀ target want, w.options.master = none → readSaved w.std path decode file = .ok (some target) →
      target.id = some want → ∀ a ∈ calls, ∀ id, a.master = some id → id = want := by
  intro calls
  have hrun : calls = [] ∨ ∃ code saved, readSaved w.std path decode file = .ok saved ∧
      calls = (w.turns ⟨code, saved, store, [], []⟩ outside).2.calls := by
    simp only [calls, runInner]
    cases w.options.code.mapM PairingCode.parse with
    | error e => exact Or.inl rfl
    | ok code =>
      cases hsaved : readSaved w.std path decode file with
      | error why => exact Or.inl rfl
      | ok saved => exact Or.inr ⟨code, saved, rfl, rfl⟩
  rcases hrun with hnone | ⟨code, saved, hsaved, hturns⟩
  · simp [hnone]
  obtain ⟨new, hnew, hgenuine, hsame⟩ := w.turns_spec ⟨code, saved, store, [], []⟩ outside
  obtain rfl : calls = new := by simpa [hnew] using hturns
  refine ⟨fun a ha id hid => (hgenuine a ha id hid).2, hsame, ?_, ?_⟩
  · intro text want htext haddr hwant a ha id hid
    exact (hgenuine a ha id hid).1 want (by simp [Wants, wanted, htext, haddr, hwant])
  · intro target want hmaster hsaved' hwant a ha id hid
    cases hsaved.symm.trans hsaved'
    exact (hgenuine a ha id hid).1 want (by simp [Wants, wanted, hmaster, hwant])

/-- A network with one address. -/
def homeNet : StdNet :=
  ⟨Unit, fun _ => none, fun _ => none, fun _ _ => ⟨"192.168.7.40:47900", true, false⟩, fun _ => (),
    fun _ => 47900, fun _ => false⟩

/-- A worker that is told which master to use, or that uses the one it saved. -/
def homeWorker (master : Option String) : Worker UInt8 :=
  ⟨homeNet, ⟨master, none, 47901⟩, 2, "laptop", "linux"⟩

/-- The master that was saved. -/
def homeMaster : Target := ⟨some 7, [⟨"192.168.7.40:47900", true, false⟩], 47901⟩

/-- A turn in which the saved master answers, and is lost again. -/
def homeTurn : @Turn Symbolic.primitives UInt8 :=
  letI := Symbolic.primitives
  let answers : ℕ → SocketAddr → Handshake UInt8 := fun _ _ => ⟨⟨0, .ok 7, .rejected⟩, []⟩
  let pairing : PairingTry UInt8 :=
    { stdin := .error "closed"
      dial := fun _ _ => ⟨⟨0, .error .rejected, .rejected⟩, .ok ⟨0⟩⟩
      others := []
      scalar := (1 : UInt8)
      binding := Vector.replicate 32 0
      io := ⟨.error .rejected, .ok (), .ok ()⟩
      now := 0
      save := .ok ()
      saving := ⟨false, false, .error .rejected, .ok (), .ok (), false, .ok none⟩ }
  ⟨.ok [], [], answers, pairing, answers, .answered (.ok .workerRegistered),
    "Ok(Ok(WorkerRegistered))", [], .ok ()⟩

omit P in
/-- A worker reconnects to the master that was saved, and loses it twice: to no other one, whether or not
it is told which master to use. -/
theorem worker_never_switches_home :
    letI := Symbolic.primitives
    let store : TrustStore UInt8 := (TrustStore.empty.insert (.new 7 "desk" "linux" 0) (.ok ())).1
    let calls (master : Option String) := ((homeWorker master).runInner "worker-master.json"
      (fun _ => .ok homeMaster) (.ok (some [])) store [homeTurn, homeTurn]).2.calls
    (∀ master ∈ [none, some "0000000000000007"],
      (calls master).map (·.master) = [none, some 7, none, some 7]) ∧
    (∀ a ∈ calls (some "0000000000000007"), ∀ id, a.master = some id → id = 7) ∧
    ∀ a ∈ calls none, ∀ id, a.master = some id → id = 7 := by
  let _ := Symbolic.primitives
  intro store calls
  refine ⟨by decide, ?_, ?_⟩
  · exact (worker_never_switches (homeWorker (some "0000000000000007")) "worker-master.json"
      (fun _ => .ok homeMaster) (.ok (some [])) store [homeTurn, homeTurn]).2.2.1
      "0000000000000007" 7 rfl rfl (by decide)
  · exact (worker_never_switches (homeWorker none) "worker-master.json" (fun _ => .ok homeMaster)
      (.ok (some [])) store [homeTurn, homeTurn]).2.2.2 homeMaster 7 rfl rfl rfl

end Daemon

end Latticed
