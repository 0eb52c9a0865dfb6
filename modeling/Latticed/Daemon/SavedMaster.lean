import Latticed.Daemon.WorkerLoop

/-!
# The record of the last master

A worker writes down the master that it has registered with, and reads the record when it is started again.
Only the reader checks it: a record without an id, without addresses, with a port that is zero or with an
address that is not IPv4 ends the start.

* `Target.readSaved_written` : what the reader accepts.
* `findTarget_dialable` : what the loop may have for a target.
* `Worker.turn_sound` : a turn keeps to such targets, and writes only what the reader accepts.
* `saved_master_loads` : a worker can read what it has written.
-/

namespace Latticed

namespace Daemon

open Net Rust

/-! ### What discovery finds -/

/-- `mdns_sd::ResolvedService`. -/
structure ResolvedService (std : StdNet) where
  /-- `get_property_val_str`. -/
  txt : String → Option String
  addresses : List std.Ip
  port : UInt16

/-- The port that a record names for pairing, if it names one: what is not a port, or is zero, spoils the
record. -/
def readPairingPort : Option String → Option (Option UInt16)
  | some value => (((parseUnsigned UInt16.size value.toList).map UInt16.ofNat).filter (· ≠ 0)).map some
  | none => some none

/-- `to_peer`: a record that misses or mangles any field is dropped. -/
def toPeer (std : StdNet) (svc : ResolvedService std) : Option SeenPeer := do
  let deviceId ← (svc.txt "id").bind deviceIdFromStr
  let _ ← svc.txt "name"
  let _ ← svc.txt "platform"
  let _ ← (svc.txt "mem").bind fun text => parseUnsigned UInt64.size text.toList
  let protocol ← (svc.txt "proto").bind fun text => parseUnsigned UInt16.size text.toList
  let pairingPort ← readPairingPort (svc.txt "pairing_port")
  some
    { deviceId
      addrs := svc.addresses.map (std.new · svc.port)
      role := svc.txt "role"
      protocol := .ofNat protocol
      pairingPort }

/-- `mdns_sd::ServiceEvent`. -/
inductive ServiceEvent (std : StdNet) where
  | serviceResolved (svc : ResolvedService std)
  | serviceRemoved (fullname : String)
  | other

/-- `device_id_from_fullname`. -/
def deviceIdFromFullname (fullname : String) : Option DeviceId :=
  deviceIdFromStr (String.ofList (fullname.toList.takeWhile (· ≠ '.')))

/-- What `next_event` makes of an event: most are skipped. -/
def nextEvent {std : StdNet} : ServiceEvent std → Option SeenEvent
  | .serviceResolved svc => (toPeer std svc).map .found
  | .serviceRemoved fullname => (deviceIdFromFullname fullname).map .lost
  | .other => none

/-- The events of a turn are made of what the resolver reports. -/
def Resolved (std : StdNet) (browsed : Except String (List SeenEvent)) : Prop :=
  ∀ events, browsed = .ok events → ∃ services : List (ServiceEvent std),
    events = services.filterMap nextEvent

/-! ### Targets -/

/-- A place where the loop may look for a master.  Its addresses have ports, or none of them has. -/
structure Target.Dialable (std : StdNet) (target : Target) : Prop where
  addrs : target.addrs ≠ []
  ipv4 : ∀ a ∈ target.addrs, a.isIpv4 = true
  ports : (∀ a ∈ target.addrs, std.port a = 0) ∨ ∀ a ∈ target.addrs, std.port a ≠ 0
  pairingPort : target.pairingPort ≠ 0

/-- What the reader accepts. -/
structure Target.Loads (std : StdNet) (target : Target) : Prop where
  id : target.id ≠ none
  addrs : target.addrs ≠ []
  ipv4 : ∀ a ∈ target.addrs, a.isIpv4 = true
  ports : ∀ a ∈ target.addrs, std.port a ≠ 0
  pairingPort : target.pairingPort ≠ 0

section Targets

variable {std : StdNet} {options : WorkerOptions} {saved : Option Target} {self : DeviceId}
  {requested : Option DeviceId} {browsed : Except String (List SeenEvent)} {target : Target}
  {path : String} {decode : Bytes → Except String Target} {bytes : Bytes}

/-- **What the reader accepts.** -/
theorem Target.readSaved_written (h : decode bytes = .ok target) :
    readSaved std path decode (.ok (some bytes)) = .ok (some target) ↔ target.Loads std := by
  rw [readSaved, h]
  dsimp only
  split_ifs with hinvalid
  · refine iff_of_false (fun heq => by cases heq) fun hloads => ?_
    obtain hid | haddrs | hport | hany := hinvalid
    · exact hloads.id (Option.isNone_iff_eq_none.1 hid)
    · exact hloads.addrs haddrs
    · exact hloads.pairingPort hport
    · obtain ⟨a, ha, hbad⟩ := List.any_eq_true.1 hany
      simp [hloads.ipv4 a ha, hloads.ports a ha] at hbad
  · simp only [not_or, List.any_eq_true, not_exists, not_and] at hinvalid
    obtain ⟨hid, haddrs, hport, hall⟩ := hinvalid
    refine iff_of_true rfl ⟨fun hnone => hid (by rw [hnone]; rfl), haddrs, fun a ha => ?_,
      fun a ha hzero => hall a ha (by simp [hzero]), hport⟩
    by_contra hv6
    exact hall a ha (by simp [hv6])

/-- What the reader returns is something that it accepts. -/
theorem Target.Loads.of_readSaved {file : Except String (Option Bytes)}
    (h : readSaved std path decode file = .ok (some target)) : target.Loads std := by
  cases file with
  | error why => cases h
  | ok content =>
    cases content with
    | none => cases h
    | some bytes =>
      cases hdecode : decode bytes with
      | error why =>
        rw [readSaved, hdecode] at h
        cases h
      | ok read =>
        have hsame : read = target := by
          rw [readSaved, hdecode] at h
          dsimp only at h
          split_ifs at h
          exact Option.some.inj (Except.ok.inj h)
        subst hsame
        exact (Target.readSaved_written hdecode).1 h

theorem Target.Loads.dialable (h : target.Loads std) : target.Dialable std :=
  ⟨h.addrs, h.ipv4, Or.inr h.ports, h.pairingPort⟩

/-- Where a master has answered, the target can be read back. -/
theorem Target.Dialable.loads (h : target.Dialable std) {a : SocketAddr} (ha : a ∈ target.addrs)
    (hport : std.port a ≠ 0) (id : DeviceId) :
    Target.Loads std { target with id := some id } :=
  ⟨Option.some_ne_none id, h.addrs, h.ipv4, h.ports.resolve_left fun hzero => hport (hzero a ha),
    h.pairingPort⟩

theorem Target.Dialable.withId (h : target.Dialable std) (id : Option DeviceId) :
    Target.Dialable std { target with id } :=
  ⟨h.addrs, h.ipv4, h.ports, h.pairingPort⟩

/-! ### What the loop may have for a target -/

theorem browse_found {events : List SeenEvent} {peer : SeenPeer} (h : peer ∈ browse self events) :
    .found peer ∈ events := by
  have hfold (peers : Std.ExtTreeMap DeviceId SeenPeer) (events : List SeenEvent) {id : DeviceId}
      (hpeer : (events.foldl (browseStep self) peers)[id]? = some peer) :
      peers[id]? = some peer ∨ .found peer ∈ events := by
    induction events generalizing peers with
    | nil => exact Or.inl hpeer
    | cons event events ih =>
      rcases ih _ hpeer with hstep | hmem
      · cases event with
        | found other =>
          simp only [browseStep] at hstep
          split_ifs at hstep
          · rw [Std.ExtTreeMap.getElem?_insert] at hstep
            split_ifs at hstep
            · cases hstep
              exact Or.inr List.mem_cons_self
            · exact Or.inl hstep
          · exact Or.inl hstep
        | lost gone =>
          simp only [browseStep, Std.ExtTreeMap.getElem?_erase] at hstep
          split_ifs at hstep
          exact Or.inl hstep
      · exact Or.inr (List.mem_cons_of_mem _ hmem)
  obtain ⟨⟨id, peer'⟩, hmem, rfl⟩ := List.mem_map.1 h
  exact (hfold ∅ events (Std.ExtTreeMap.mem_toList_iff_getElem?_eq_some.1 hmem)).resolve_left
    (by simp)

theorem selectMaster_mem {peers : List SeenPeer} {wanted : Option DeviceId} {peer : SeenPeer}
    (h : selectMaster peers wanted = .ok (some peer)) :
    peer ∈ peers ∧ ∃ a ∈ peer.addrs, a.isIpv4 = true := by
  simp only [selectMaster] at h
  split at h
  · cases h
  · next first hfirst =>
    cases h
    have hmem : peer ∈ [peer] := List.mem_singleton_self peer
    rw [← hfirst] at hmem
    obtain ⟨hpeer, hcandidate⟩ := List.mem_filter.1 hmem
    simp only [decide_eq_true_eq, List.any_eq_true] at hcandidate
    exact ⟨hpeer, hcandidate.2.2.2⟩
  · cases h

/-- `SocketAddr::new` keeps the port. -/
def StdNet.KeepsPort (std : StdNet) : Prop := ∀ ip port, std.port (std.new ip port) = port

theorem toPeer_addrs (hstd : std.KeepsPort) {svc : ResolvedService std} {peer : SeenPeer}
    (h : toPeer std svc = some peer) :
    (∀ a ∈ peer.addrs, std.port a = svc.port) ∧ ∀ port, peer.pairingPort = some port → port ≠ 0 := by
  simp only [toPeer, Option.bind_eq_bind, Option.bind_eq_some_iff] at h
  obtain ⟨deviceId, -, _, -, _, -, _, -, protocol, -, pairingPort, hpairing, h⟩ := h
  cases h
  constructor
  · intro a ha
    obtain ⟨ip, -, rfl⟩ := List.mem_map.1 ha
    exact hstd ip svc.port
  · rintro port rfl
    unfold readPairingPort at hpairing
    split at hpairing
    · obtain ⟨port', hparse, heq⟩ := Option.map_eq_some_iff.1 hpairing
      cases heq
      simpa using (Option.filter_eq_some_iff.1 hparse).2
    · cases hpairing

/-- `--pairing-port` is parsed with `range(1..)`. -/
def WorkerOptions.Parsed (options : WorkerOptions) : Prop := options.pairingPort ≠ 0

theorem findById_dialable (hstd : std.KeepsPort) (hoptions : options.Parsed)
    (hbrowsed : Resolved std browsed) (hsaved : ∀ t, saved = some t → t.Dialable std)
    (h : findById options saved self requested browsed = .ok (some target)) :
    target.Dialable std := by
  simp only [findById] at h
  split_ifs at h
  obtain ⟨events, hevents, h⟩ := exceptBind_eq_ok.1 h
  obtain ⟨found, hfound, h⟩ := map_eq_ok.1 h
  cases found with
  | none => exact hsaved target (Option.filter_eq_some_iff.1 h).1
  | some peer =>
    cases h
    obtain ⟨hmem, a, ha, hipv4⟩ := selectMaster_mem hfound
    obtain ⟨services, rfl⟩ := hbrowsed events hevents
    obtain ⟨service, -, hservice⟩ := List.mem_filterMap.1 (browse_found hmem)
    cases service with
    | other => cases hservice
    | serviceRemoved fullname =>
      obtain ⟨id, -, hlost⟩ := Option.map_eq_some_iff.1 hservice
      cases hlost
    | serviceResolved svc =>
      obtain ⟨peer', hpeer, heq⟩ := Option.map_eq_some_iff.1 hservice
      cases heq
      obtain ⟨hports, hpairing⟩ := toPeer_addrs hstd hpeer
      refine ⟨List.ne_nil_of_mem (mem_usable.2 ⟨ha, hipv4⟩), fun b hb => (mem_usable.1 hb).2, ?_, ?_⟩
      · by_cases hzero : svc.port = 0
        · exact Or.inl fun b hb => (hports b (mem_usable.1 hb).1).trans hzero
        · exact Or.inr fun b hb heq => hzero ((hports b (mem_usable.1 hb).1).symm.trans heq)
      · cases hport : peer.pairingPort with
        | none => exact hoptions
        | some port => exact hpairing port hport

/-- **What the loop may have for a target.** -/
theorem findTarget_dialable (hstd : std.KeepsPort) (hoptions : options.Parsed)
    (hbrowsed : Resolved std browsed) (hsaved : ∀ t, saved = some t → t.Dialable std)
    (h : findTarget std options saved self browsed = .ok (some target)) : target.Dialable std := by
  simp only [findTarget] at h
  split at h
  · next text =>
    split at h
    · cases h
    · next addr haddr =>
      cases h
      have hgood : addr.isIpv4 = true ∧ std.port addr ≠ 0 := by
        simp only [explicitAddress] at haddr
        split_ifs at haddr with hbad
        rw [Except.ok.inj haddr] at hbad
        simp only [Option.any_some, Bool.or_eq_true, not_or, decide_eq_true_eq] at hbad
        exact ⟨by simpa using hbad.1.1, hbad.1.2⟩
      refine ⟨List.cons_ne_nil _ _, fun a ha => ?_, Or.inr fun a ha => ?_, hoptions⟩
      · rw [List.mem_singleton.1 ha]
        exact hgood.1
      · rw [List.mem_singleton.1 ha]
        exact hgood.2
    · split at h
      · cases h
      · exact findById_dialable hstd hoptions hbrowsed hsaved h
  · exact findById_dialable hstd hoptions hbrowsed hsaved h

end Targets

/-! ### What the loop writes -/

variable {Key : Type} {std : StdNet}

/-- Nobody answers on port 0. -/
def PortZeroFails (std : StdNet) (dial : ℕ → SocketAddr → Handshake Key) : Prop :=
  ∀ n addr, std.port addr = 0 → ∃ why, (dial n addr).answer = .error why

/-- What a turn meets is of this world: discovery reports what `to_peer` makes of records, and nobody
answers on port 0. -/
structure Turn.Genuine [Primitives] (std : StdNet) (t : Turn Key) : Prop where
  browsed : Resolved std t.browsed
  dial : PortZeroFails std t.dial
  redial : PortZeroFails std t.redial

/-- The record that the loop goes by is of a place where it may look, and what it has written can be read
back. -/
structure WorkerRun.Sound (std : StdNet) (s : WorkerRun Key) : Prop where
  saved : ∀ target, s.saved = some target → target.Dialable std
  written : ∀ target ∈ s.written, target.Loads std

namespace Worker

variable [PublicKey Key] [DecidableEq Key] {w : Worker Key} {s : WorkerRun Key}
  {store store' : TrustStore Key} {target : Target} {conn : Connection} {expected : Option DeviceId}
  {dial : ℕ → SocketAddr → Handshake Key}

/-- A connection is to an address that has a port. -/
theorem connect_port {addrs : List SocketAddr} (hdial : PortZeroFails w.std dial)
    (h : w.connect store addrs expected dial = (.ok conn, store')) :
    ∃ a ∈ addrs, w.std.port a ≠ 0 := by
  obtain ⟨-, -, n, addr, hmem, key, hanswer, -⟩ := connectFrom_ok h
  refine ⟨addr, hmem, fun hzero => ?_⟩
  obtain ⟨why, hfails⟩ := hdial n addr hzero
  rw [hfails] at hanswer
  cases hanswer

variable [Primitives] {t : Turn Key}

omit [DecidableEq Key] in
/-- Registration records and writes the target that was reached. -/
theorem register_sound (hs : s.Sound w.std) (htarget : target.Dialable w.std) {a : SocketAddr}
    (ha : a ∈ target.addrs) (hport : w.std.port a ≠ 0) :
    (w.register s target conn t).2.Sound w.std := by
  have hloads := htarget.loads ha hport conn.peerId
  have hsaved : ∀ t', some { target with id := some conn.peerId } = some t' →
      Target.Dialable w.std t' := by
    rintro t' heq
    cases heq
    exact hloads.dialable
  have hwritten : ∀ t' ∈ { target with id := some conn.peerId } :: s.written, t'.Loads w.std :=
    List.forall_mem_cons.2 ⟨hloads, hs.written⟩
  unfold register
  split
  · exact hs
  · exact ⟨hsaved, hs.written⟩
  · cases t.write with
    | error why => exact ⟨hs.saved, hwritten⟩
    | ok u => exact ⟨hsaved, hwritten⟩

/-- **A turn keeps to places where it may look, and writes what can be read back.** -/
theorem turn_sound (hstd : w.std.KeepsPort) (hoptions : w.options.Parsed) (ht : t.Genuine w.std)
    (hs : s.Sound w.std) : (w.turn s t).2.Sound w.std := by
  unfold turn
  split
  · exact hs
  · exact hs
  · next target hfind =>
    have htarget : target.Dialable w.std :=
      findTarget_dialable hstd hoptions ht.browsed hs.saved hfind
    dsimp only
    split
    · next conn store hfirst =>
      unfold firstConnection at hfirst
      split_ifs at hfirst
      · obtain ⟨a, ha, hport⟩ := connect_port ht.dial hfirst
        exact register_sound ⟨hs.saved, hs.written⟩ htarget ha hport
      · cases hfirst
    · split_ifs
      · exact ⟨hs.saved, hs.written⟩
      · split
        · exact ⟨hs.saved, hs.written⟩
        · exact ⟨hs.saved, hs.written⟩
        · next id store' hpair =>
          have hpaired : ∀ t', some { target with id := some id } = some t' →
              Target.Dialable w.std t' := by
            rintro t' heq
            cases heq
            exact htarget.withId _
          split
          · exact ⟨hpaired, hs.written⟩
          · next conn store'' hredial =>
            obtain ⟨a, ha, hport⟩ := connect_port ht.redial hredial
            exact register_sound ⟨hpaired, hs.written⟩ (htarget.withId _) ha hport

/-- A run writes what can be read back. -/
theorem turns_sound (hstd : w.std.KeepsPort) (hoptions : w.options.Parsed) {outside : List (Turn Key)}
    (houtside : ∀ t ∈ outside, t.Genuine w.std) (hs : s.Sound w.std) :
    (w.turns s outside).2.Sound w.std := by
  induction outside generalizing s with
  | nil => exact hs
  | cons t rest ih =>
    obtain ⟨ht, hrest⟩ := List.forall_mem_cons.1 houtside
    have hturn := turn_sound hstd hoptions ht hs
    unfold turns
    rcases hresult : w.turn s t with ⟨u | why | message, s'⟩
    · rw [hresult] at hturn
      exact ih hrest hturn
    · rwa [hresult] at hturn
    · rwa [hresult] at hturn

end Worker

/-- What may be in the file when the worker is started again: what was there, or a target that was
written. -/
def LeftBy (encode : Target → Bytes) (file : Except String (Option Bytes)) (written : List Target)
    (left : Except String (Option Bytes)) : Prop :=
  left = file ∨ ∃ target ∈ written, left = .ok (some (encode target))

/-- **A saved master can be loaded.**  Every target that a worker writes is read back as it was, so a worker
that could start can start again. -/
theorem saved_master_loads {Key : Type} [Primitives] [PublicKey Key] [DecidableEq Key] (w : Worker Key)
    (path : String) (encode : Target → Bytes) (decode : Bytes → Except String Target)
    (file : Except String (Option Bytes)) (store : TrustStore Key) (outside : List (Turn Key))
    (hstd : w.std.KeepsPort) (hoptions : w.options.Parsed)
    (houtside : ∀ t ∈ outside, t.Genuine w.std)
    (hjson : ∀ target ∈ (w.runInner path decode file store outside).2.written,
      decode (encode target) = .ok target) :
    let written := (w.runInner path decode file store outside).2.written
    (∀ target ∈ written,
      readSaved w.std path decode (.ok (some (encode target))) = .ok (some target)) ∧
    ∀ left, LeftBy encode file written left → (∃ saved, readSaved w.std path decode file = .ok saved) →
      ∃ saved, readSaved w.std path decode left = .ok saved := by
  intro written
  have hsound : (w.runInner path decode file store outside).2.Sound w.std := by
    unfold Worker.runInner
    split
    · exact ⟨by simp, by simp⟩
    · split
      · exact ⟨by simp, by simp⟩
      · next saved hsaved =>
        refine Worker.turns_sound hstd hoptions houtside ⟨?_, by simp⟩
        rintro target rfl
        exact (Target.Loads.of_readSaved hsaved).dialable
  have hreads : ∀ target ∈ written,
      readSaved w.std path decode (.ok (some (encode target))) = .ok (some target) :=
    fun target hmem => (Target.readSaved_written (hjson target hmem)).2 (hsound.written target hmem)
  refine ⟨hreads, ?_⟩
  rintro left (rfl | ⟨target, hmem, rfl⟩) hfile
  · exact hfile
  · exact ⟨some target, hreads target hmem⟩

/-! ### A master on the network -/

/-- `std::net` on the texts of IPv4 addresses. -/
def textNet : StdNet where
  Ip := String
  parseSocketAddr _ := none
  parseIpv4 _ := none
  new ip port := ⟨ip ++ ":" ++ port.toNat.repr, true, ip = "127.0.0.1"⟩
  ip addr := String.ofList (addr.text.toList.takeWhile (· ≠ ':'))
  port addr :=
    .ofNat (Nat.ofDigitChars 10 (addr.text.toList.reverse.takeWhile Char.isDigit).reverse 0)
  isUnspecified ip := ip = "0.0.0.0"

theorem textNet_keepsPort : textNet.KeepsPort := by
  intro (ip : String) port
  have htext : (ip ++ ":" ++ port.toNat.repr).toList.reverse =
      (Nat.toDigits 10 port.toNat).reverse ++ ':' :: ip.toList.reverse := by
    simp
  have hdigits : ∀ c ∈ (Nat.toDigits 10 port.toNat).reverse, c.isDigit = true := fun c hc =>
    Nat.isDigit_of_mem_toDigits (by decide) (by decide) (List.mem_reverse.1 hc)
  show UInt16.ofNat (Nat.ofDigitChars 10
    ((ip ++ ":" ++ port.toNat.repr).toList.reverse.takeWhile Char.isDigit).reverse 0) = port
  rw [htext, List.takeWhile_append_of_pos hdigits, List.takeWhile_cons_of_neg (by decide),
    List.append_nil, List.reverse_reverse, Nat.ofDigitChars_ten_toDigits, UInt16.ofNat_toNat]

/-- A master advertises itself. -/
def advertised : ResolvedService textNet where
  txt key := List.lookup key [("id", "0000000000000007"), ("name", "desk"), ("platform", "linux-x86_64"),
    ("mem", "17179869184"), ("proto", "1"), ("role", "master"), ("pairing_port", "47901")]
  addresses := ["192.168.7.40"]
  port := 47900

/-- The master at its address. -/
def advertisedTarget : Target := ⟨some 7, [textNet.new "192.168.7.40" 47900], 47901⟩

/-- The record of the target. -/
def advertisedRecord : Bytes :=
  let zero := "    0,\n"
  asBytes ("\x7b\n  \"id\": [\n" ++ zero ++ zero ++ zero ++ zero ++ zero ++ zero ++ zero ++
    "    7\n  ],\n  \"addrs\": [\n    \"192.168.7.40:47900\"\n  ],\n" ++
    "  \"pairing_port\": 47901\n\x7d")

section

local instance : Primitives := Symbolic.primitives

/-- Device 7 answers wherever there is a port. -/
def desk (_ : ℕ) (addr : SocketAddr) : Handshake UInt8 :=
  ⟨⟨0, if textNet.port addr = 0 then .error .rejected else .ok 7, .rejected⟩, []⟩

theorem desk_portZeroFails : PortZeroFails textNet desk :=
  fun _ _ hzero => ⟨.rejected, if_pos hzero⟩

/-- The master is found, answers, and registers the worker. -/
def firstTurn : Turn UInt8 where
  browsed := .ok ([.serviceResolved advertised].filterMap nextEvent)
  others := []
  dial := desk
  pairing :=
    { stdin := .error "closed"
      dial := fun _ _ => ⟨⟨0, .error .rejected, .rejected⟩, .ok ⟨0⟩⟩
      others := []
      scalar := (1 : UInt8)
      binding := Vector.replicate 32 0
      io := ⟨.error .rejected, .ok (), .ok ()⟩
      now := 0
      save := .ok ()
      saving := ⟨false, false, .error .rejected, .ok (), .ok (), false, .ok none⟩ }
  redial := desk
  registration := .answered (.ok .workerRegistered)
  shown := "Ok(Ok(WorkerRegistered))"
  meanwhile := []
  write := .ok ()

/-- A worker that is paired with device 7 finds it by discovery, and can read the record it makes. -/
theorem saved_master_loads_advertised :
    readSaved textNet "worker-master.json" (fun bytes => if bytes = advertisedRecord then
      .ok advertisedTarget else .error "expected value at line 1 column 1")
      (.ok (some advertisedRecord)) = .ok (some advertisedTarget) := by
  let w : Worker UInt8 := ⟨textNet, ⟨none, none, 47901⟩, 2, "laptop", "linux"⟩
  let store : TrustStore UInt8 := (TrustStore.empty.insert (.new 7 "desk" "linux" 0) (.ok ())).1
  let decode : Bytes → Except String Target := fun bytes =>
    if bytes = advertisedRecord then .ok advertisedTarget
    else .error "expected value at line 1 column 1"
  have hwritten : (w.runInner "worker-master.json" decode (.ok none) store [firstTurn]).2.written =
      [advertisedTarget] := by
    decide +kernel
  have hgenuine : ∀ t ∈ [firstTurn], t.Genuine textNet := by
    intro t ht
    rw [List.mem_singleton.1 ht]
    refine ⟨fun events hevents => ⟨[.serviceResolved advertised], ?_⟩, desk_portZeroFails,
      desk_portZeroFails⟩
    exact (Except.ok.inj hevents).symm
  have hjson : ∀ target ∈ (w.runInner "worker-master.json" decode (.ok none) store
      [firstTurn]).2.written, decode advertisedRecord = .ok target := by
    rw [hwritten]
    intro target ht
    rw [List.mem_singleton.1 ht]
    exact if_pos rfl
  have hloads := (saved_master_loads w "worker-master.json" (fun _ => advertisedRecord) decode
    (.ok none) store [firstTurn] textNet_keepsPort (show (47901 : UInt16) ≠ 0 by decide)
    hgenuine hjson).1
  rw [hwritten] at hloads
  exact hloads advertisedTarget List.mem_cons_self

end

end Daemon

end Latticed
