import Latticed.Daemon.SavedMaster
import Latticed.LTS.Writes

/-!
# Announcing a device

A device publishes its identity and its ports, and says whether it is a master or a worker; it withdraws
the record when it stops.  A worker that looks for its master listens for a while to what the network
says.

* `toPeer_advertised` : what is published is read back, unless the pairing port is zero.
* `mem_browse` : a worker knows what each device has announced last, if it was not withdrawn.
* `worker_finds_master` : which master a worker finds.
-/

namespace Latticed

namespace Daemon

open Net Rust

/-! ### What is published -/

/-- `Advertisement`. -/
structure Advertisement where
  deviceId : DeviceId
  name : String
  platform : String
  totalMemory : UInt64
  port : UInt16

/-- `mdns_sd::ServiceInfo`. -/
structure ServiceInfo where
  instanceName : String
  hostName : String
  port : UInt16
  txt : List (String × String)

/-- `SERVICE_TYPE`. -/
def serviceType : String := "_lattice._tcp.local."

/-- `advertise_role`: what is registered. -/
def advertiseRole (ad : Advertisement) (role : String) (pairingPort : Option UInt16) : ServiceInfo where
  instanceName := ad.deviceId.display
  hostName := ad.deviceId.display ++ ".local."
  port := ad.port
  txt :=
    [("id", ad.deviceId.display), ("name", ad.name), ("platform", ad.platform),
      ("mem", toString ad.totalMemory), ("proto", toString protocolVersion)] ++
    (if role.isEmpty then [] else [("role", role)]) ++
    (pairingPort.map fun port => ("pairing_port", toString port)).toList

/-- `advertise`. -/
def advertise (ad : Advertisement) : ServiceInfo := advertiseRole ad "" none

/-- `Service::start`: a device that pairs is a master. -/
def advertiseService (ad : Advertisement) (pairingPort : Option UInt16) : ServiceInfo :=
  advertiseRole ad (if pairingPort.isSome then "master" else "worker") pairingPort

/-- The name under which the record is known. -/
def ServiceInfo.fullname (info : ServiceInfo) : String := info.instanceName ++ "." ++ serviceType

/-! ### Reading it back -/

/-- The resolver hands on what was registered. -/
structure Carries {std : StdNet} (info : ServiceInfo) (svc : ResolvedService std) : Prop where
  txt : ∀ key, svc.txt key = info.txt.lookup key
  port : svc.port = info.port

/-- **An id that is shown is read back.** -/
theorem deviceIdFromStr_display (id : DeviceId) : deviceIdFromStr id.display = some id := by
  obtain ⟨bytes, hbytes, hlength, digits, hdigits, hvalue⟩ := exists_hexDigits 16 id.val
  unfold deviceIdFromStr DeviceId.display
  rw [hbytes, if_pos hlength, hdigits, Option.map_some, hvalue]
  have hlt : id.val < 16 ^ 16 := id.isLt
  rw [Nat.mod_eq_of_lt hlt]
  exact congrArg some (Fin.ofNat_val_eq_self id)

theorem dot_not_mem_hexDigits (k n : ℕ) : '.' ∉ hexDigits k n := by
  induction k generalizing n with
  | zero => exact List.not_mem_nil
  | succ k ih =>
    rw [hexDigits, List.mem_append, not_or, List.mem_singleton]
    have hdigit : ∀ d < 16, '.' ≠ Nat.digitChar d := by decide
    exact ⟨ih (n / 16), hdigit _ (Nat.mod_lt n (by decide))⟩

/-- The device is known by the name of its record. -/
theorem deviceIdFromFullname_fullname (ad : Advertisement) (role : String) (pairingPort : Option UInt16) :
    deviceIdFromFullname (advertiseRole ad role pairingPort).fullname = some ad.deviceId := by
  have hname : ((advertiseRole ad role pairingPort).fullname).toList =
      hexDigits 16 ad.deviceId.val ++ '.' :: serviceType.toList := by
    simp [ServiceInfo.fullname, advertiseRole, DeviceId.display, hex]
  have hdigits : ∀ c ∈ hexDigits 16 ad.deviceId.val, decide (c ≠ '.') = true := fun c hc =>
    decide_eq_true fun heq => dot_not_mem_hexDigits 16 _ (heq ▸ hc)
  unfold deviceIdFromFullname
  rw [hname, List.takeWhile_append_of_pos hdigits, List.takeWhile_cons_of_neg (by decide),
    List.append_nil]
  exact deviceIdFromStr_display ad.deviceId

/-- A port is read back, unless it is zero. -/
theorem readPairingPort_toString (port : UInt16) :
    readPairingPort (some (toString port)) = if port = 0 then none else some (some port) := by
  have hparse : parseUnsigned UInt16.size (toString port).toList = some port.toNat :=
    parseUnsigned_toString port.toNat_lt
  unfold readPairingPort
  dsimp only
  rw [hparse, Option.map_some, UInt16.ofNat_toNat]
  split_ifs with hzero
  · simp [hzero]
  · simp [Option.filter, hzero]

variable {std : StdNet} {ad : Advertisement} {role : String} {pairingPort : Option UInt16}
  {svc : ResolvedService std}

/-- What a worker reads of an announcement. -/
def Advertisement.peer (std : StdNet) (ad : Advertisement) (role : String)
    (pairingPort : Option UInt16) (addresses : List std.Ip) : SeenPeer where
  deviceId := ad.deviceId
  addrs := addresses.map (std.new · ad.port)
  role := if role.isEmpty then none else some role
  protocol := protocolVersion
  pairingPort

/-- What is said in any case. -/
theorem lookup_required (ad : Advertisement) (role : String) (pairingPort : Option UInt16) :
    let txt := (advertiseRole ad role pairingPort).txt
    txt.lookup "id" = some ad.deviceId.display ∧ txt.lookup "name" = some ad.name ∧
      txt.lookup "platform" = some ad.platform ∧
      txt.lookup "mem" = some (toString ad.totalMemory) ∧
      txt.lookup "proto" = some (toString protocolVersion) := by
  simp [advertiseRole, List.lookup_cons]

/-- What is said of the role and of the pairing port. -/
theorem lookup_optional (ad : Advertisement) (role : String) (pairingPort : Option UInt16) :
    (advertiseRole ad role pairingPort).txt.lookup "role" =
        (if role.isEmpty then none else some role) ∧
      (advertiseRole ad role pairingPort).txt.lookup "pairing_port" = pairingPort.map toString := by
  unfold advertiseRole
  cases pairingPort <;> by_cases hrole : role.isEmpty = true <;> simp [hrole, List.lookup_cons]

/-- **What is published is read back**, unless it spoils itself by a pairing port that is zero. -/
theorem toPeer_advertised (h : Carries (advertiseRole ad role pairingPort) svc) :
    toPeer std svc =
      if pairingPort = some 0 then none else some (ad.peer std role pairingPort svc.addresses) := by
  have hmemory : parseUnsigned UInt64.size (toString ad.totalMemory).toList =
      some ad.totalMemory.toNat := parseUnsigned_toString ad.totalMemory.toNat_lt
  have hprotocol : parseUnsigned UInt16.size (toString protocolVersion).toList = some 1 :=
    parseUnsigned_toString (by decide)
  obtain ⟨hrole, hpairing⟩ := lookup_optional ad role pairingPort
  have hport : svc.port = ad.port := h.port
  have hread : readPairingPort (pairingPort.map toString) =
      if pairingPort = some 0 then none else some pairingPort := by
    cases pairingPort with
    | none => rfl
    | some port => simpa using readPairingPort_toString port
  obtain ⟨hid, hname, hplatform, hmem, hproto⟩ := lookup_required ad role pairingPort
  unfold toPeer
  simp only [h.txt, hid, hname, hplatform, hmem, hproto, hrole, hpairing, hread, hport, Option.bind_some,
    deviceIdFromStr_display, hmemory, hprotocol, Advertisement.peer]
  split_ifs <;> rfl

/-! ### What a worker hears -/

/-- What a device says of itself, and where it is. -/
structure Announcement (std : StdNet) where
  ad : Advertisement
  role : String
  pairingPort : Option UInt16
  addresses : List std.Ip

/-- What is read of it. -/
def Announcement.peer {std : StdNet} (a : Announcement std) : SeenPeer :=
  a.ad.peer std a.role a.pairingPort a.addresses

/-- What happens on the network. -/
inductive LanEvent (std : StdNet) where
  | announced (a : Announcement std)
  | withdrawn (ad : Advertisement) (role : String) (pairingPort : Option UInt16)
  /-- Something that is not from a device. -/
  | noise

/-- What the resolver reports of it. -/
inductive Heard {std : StdNet} : LanEvent std → ServiceEvent std → Prop
  | announced {a : Announcement std} {svc : ResolvedService std} :
      Carries (advertiseRole a.ad a.role a.pairingPort) svc → svc.addresses = a.addresses →
      Heard (.announced a) (.serviceResolved svc)
  | withdrawn (ad : Advertisement) (role : String) (pairingPort : Option UInt16) :
      Heard (.withdrawn ad role pairingPort)
        (.serviceRemoved (advertiseRole ad role pairingPort).fullname)
  | noise {e : ServiceEvent std} : nextEvent e = none → Heard .noise e

/-- What a worker makes of it. -/
def LanEvent.seen {std : StdNet} : LanEvent std → Option SeenEvent
  | .announced a => if a.pairingPort = some 0 then none else some (.found a.peer)
  | .withdrawn ad _ _ => some (.lost ad.deviceId)
  | .noise => none

theorem Heard.nextEvent_eq {l : LanEvent std} {e : ServiceEvent std} (h : Heard l e) :
    nextEvent e = l.seen := by
  cases h with
  | announced hcarries haddresses =>
    unfold nextEvent LanEvent.seen Announcement.peer
    dsimp only
    rw [toPeer_advertised hcarries, haddresses]
    split_ifs <;> rfl
  | withdrawn ad role pairingPort =>
    unfold nextEvent LanEvent.seen
    dsimp only
    rw [deviceIdFromFullname_fullname, Option.map_some]
  | noise hskipped => exact hskipped

theorem filterMap_heard {lan : List (LanEvent std)} {services : List (ServiceEvent std)}
    (h : List.Forall₂ Heard lan services) : services.filterMap nextEvent = lan.filterMap LanEvent.seen := by
  induction h with
  | nil => rfl
  | cons hheard hrest ih => rw [List.filterMap_cons, List.filterMap_cons, hheard.nextEvent_eq, ih]

/-- What an event does to what a worker knows of the devices. -/
def browseChange (self : DeviceId) : SeenEvent → Option (DeviceId × Option SeenPeer)
  | .found peer => if peer.deviceId ≠ self then some (peer.deviceId, some peer) else none
  | .lost id => some (id, none)

theorem browse_eq_replay (self : DeviceId) (events : List SeenEvent) :
    browse self events = ((replay (browseChange self) events).toList).map Prod.snd := by
  have hstep : browseStep self = fun peers e => applyWrite peers (browseChange self e) := by
    funext peers e
    cases e with
    | found peer =>
      unfold browseStep browseChange
      dsimp only
      split_ifs <;> rfl
    | lost id => rfl
  rw [browse, hstep, replay]

variable {self : DeviceId} {events : List SeenEvent} {peer : SeenPeer}

/-- A record is kept under the id that is in it. -/
theorem deviceId_of_lastWritten {id : DeviceId} (h : LastWritten (browseChange self) events id peer) :
    peer.deviceId = id := by
  obtain ⟨before, e, after, -, heffect, -⟩ := h
  cases e with
  | found q =>
    unfold browseChange at heffect
    dsimp only at heffect
    split_ifs at heffect
    obtain ⟨rfl, hq⟩ := Prod.mk.inj (Option.some.inj heffect)
    rw [Option.some.inj hq]
  | lost id' => simp [browseChange] at heffect

/-- **What a worker knows of the devices**: what each of them has announced last. -/
theorem mem_browse : peer ∈ browse self events ↔
    LastWritten (browseChange self) events peer.deviceId peer := by
  rw [browse_eq_replay, List.mem_map]
  constructor
  · rintro ⟨⟨id, p⟩, hmem, rfl⟩
    rw [Std.ExtTreeMap.mem_toList_iff_getElem?_eq_some, getElem?_replay] at hmem
    rwa [deviceId_of_lastWritten hmem]
  · intro h
    refine ⟨(peer.deviceId, peer), ?_, rfl⟩
    rwa [Std.ExtTreeMap.mem_toList_iff_getElem?_eq_some, getElem?_replay]

/-- There is one record for a device. -/
theorem nodup_browse : ((browse self events).map (·.deviceId)).Nodup := by
  have hkeys : (browse self events).map (·.deviceId) =
      ((replay (browseChange self) events).toList).map Prod.fst := by
    rw [browse_eq_replay, List.map_map]
    refine List.map_congr_left fun entry hmem => ?_
    rw [Std.ExtTreeMap.mem_toList_iff_getElem?_eq_some, getElem?_replay] at hmem
    exact deviceId_of_lastWritten hmem
  rw [hkeys, Std.ExtTreeMap.map_fst_toList_eq_keys]
  exact Std.ExtTreeMap.nodup_keys

/-! ### Which master is found -/

/-- `select_master` may take the device. -/
structure Eligible (requested : Option DeviceId) (peer : SeenPeer) : Prop where
  role : peer.role = some "master"
  protocol : peer.protocol = protocolVersion
  wanted : ∀ want, requested = some want → peer.deviceId = want
  ipv4 : ∃ a ∈ peer.addrs, a.isIpv4 = true

variable {requested : Option DeviceId} {peers : List SeenPeer}

theorem mem_filter_eligible : peer ∈ (peers.filter fun peer => peer.role = some "master" ∧
      peer.protocol = protocolVersion ∧ requested.all (peer.deviceId = ·) ∧
      peer.addrs.any (·.isIpv4)) ↔ peer ∈ peers ∧ Eligible requested peer := by
  rw [List.mem_filter, decide_eq_true_eq]
  refine and_congr_right fun _ => ⟨?_, ?_⟩
  · rintro ⟨hrole, hprotocol, hall, hany⟩
    refine ⟨hrole, hprotocol, fun want hwant => ?_, List.any_eq_true.1 hany⟩
    rw [hwant, Option.all_some, decide_eq_true_eq] at hall
    exact hall
  · rintro ⟨hrole, hprotocol, hwanted, hany⟩
    refine ⟨hrole, hprotocol, ?_, List.any_eq_true.2 hany⟩
    cases hrequested : requested with
    | none => rfl
    | some want => exact decide_eq_true (hwanted want hrequested)

/-- **`select_master`** takes the only one that it may take. -/
theorem selectMaster_spec (hnodup : (peers.map (·.deviceId)).Nodup) :
    (selectMaster peers requested = .ok none ↔ ∀ p ∈ peers, ¬ Eligible requested p) ∧
      ∀ peer, selectMaster peers requested = .ok (some peer) ↔
        (peer ∈ peers ∧ Eligible requested peer) ∧
          ∀ p ∈ peers, Eligible requested p → p.deviceId = peer.deviceId := by
  have hmem (p : SeenPeer) := @mem_filter_eligible p requested peers
  have hdistinct := hnodup.sublist ((List.filter_sublist (p := fun peer : SeenPeer =>
    peer.role = some "master" ∧ peer.protocol = protocolVersion ∧ requested.all (peer.deviceId = ·) ∧
      peer.addrs.any (·.isIpv4)) (l := peers)).map (·.deviceId))
  unfold selectMaster
  simp only [← hmem, ← and_imp]
  generalize List.filter _ peers = candidates at hmem hdistinct
  match candidates with
  | [] => simp
  | [first] =>
    refine ⟨iff_of_false (fun h => nomatch h) fun h => ?_, fun peer => ⟨?_, ?_⟩⟩
    · exact h first (List.mem_singleton.2 rfl)
    · rintro ⟨⟩
      exact ⟨List.mem_singleton.2 rfl, fun p hp => by rw [List.mem_singleton.1 hp]⟩
    · rintro ⟨hpeer, -⟩
      rw [List.mem_singleton.1 hpeer]
  | first :: second :: rest =>
    refine ⟨iff_of_false (fun h => nomatch h) fun h => ?_, fun peer => iff_of_false (fun h => nomatch h) ?_⟩
    · exact h first List.mem_cons_self
    · rintro ⟨-, hunique⟩
      have hsame : first.deviceId = second.deviceId := (hunique first List.mem_cons_self).trans
        (hunique second (List.mem_cons_of_mem _ List.mem_cons_self)).symm
      rw [List.map_cons, List.nodup_cons] at hdistinct
      exact hdistinct.1 (hsame ▸ List.mem_map_of_mem List.mem_cons_self)

/-- What an event on the network does to what a worker knows of the devices. -/
def LanEvent.change (self : DeviceId) : LanEvent std → Option (DeviceId × Option (Announcement std))
  | .announced a =>
    if a.pairingPort = some 0 ∨ a.ad.deviceId = self then none else some (a.ad.deviceId, some a)
  | .withdrawn ad _ _ => some (ad.deviceId, none)
  | .noise => none

theorem seen_change (self : DeviceId) (l : LanEvent std) : l.seen.bind (browseChange self) =
    (l.change self).map fun (id, a) => (id, a.map Announcement.peer) := by
  cases l with
  | announced a =>
    by_cases hport : a.pairingPort = some 0
    · simp [LanEvent.seen, LanEvent.change, hport]
    · by_cases hself : a.ad.deviceId = self <;>
        simp [LanEvent.seen, LanEvent.change, browseChange, hport, hself, Announcement.peer,
          Advertisement.peer]
  | withdrawn ad role pairingPort => rfl
  | noise => rfl

/-- The device is announced as a master that the worker may take, and this is the last that was heard of
it. -/
structure Offers (lan : List (LanEvent std)) (me : DeviceId) (requested : Option DeviceId)
    (a : Announcement std) : Prop where
  last : LastWritten (LanEvent.change me) lan a.ad.deviceId a
  role : a.role = "master"
  requested : ∀ want, requested = some want → a.ad.deviceId = want
  ipv4 : ∃ ip ∈ a.addresses, (std.new ip a.ad.port).isIpv4 = true

/-- Where the worker looks for the master then. -/
def Announcement.target (a : Announcement std) (options : WorkerOptions) : Target where
  id := some a.ad.deviceId
  addrs := usable (a.addresses.map (std.new · a.ad.port))
  pairingPort := a.pairingPort.getD options.pairingPort

theorem eligible_peer {a : Announcement std} : Eligible requested a.peer ↔
    a.role = "master" ∧ (∀ want, requested = some want → a.ad.deviceId = want) ∧
      ∃ ip ∈ a.addresses, (std.new ip a.ad.port).isIpv4 = true := by
  have hrole : a.peer.role = some "master" ↔ a.role = "master" := by
    unfold Announcement.peer Advertisement.peer
    dsimp only
    split_ifs with hempty
    · refine iff_of_false nofun ?_
      rintro heq
      rw [heq] at hempty
      cases hempty
    · exact Option.some_inj
  have hipv4 : (∃ addr ∈ a.peer.addrs, addr.isIpv4 = true) ↔
      ∃ ip ∈ a.addresses, (std.new ip a.ad.port).isIpv4 = true := by
    simp [Announcement.peer, Advertisement.peer]
  exact ⟨fun h => ⟨hrole.1 h.role, h.wanted, hipv4.1 h.ipv4⟩,
    fun ⟨hmaster, hwanted, hany⟩ => ⟨hrole.2 hmaster, rfl, hwanted, hipv4.2 hany⟩⟩

/-- What the worker may take is what is offered. -/
theorem eligible_browse {lan : List (LanEvent std)} :
    (peer ∈ browse self (lan.filterMap LanEvent.seen) ∧ Eligible requested peer) ↔
      ∃ a : Announcement std, a.peer = peer ∧ Offers lan self requested a := by
  have hchange : (fun l : LanEvent std => l.seen.bind (browseChange self)) =
      fun l => (l.change self).map fun (id, a) => (id, a.map Announcement.peer) :=
    funext (seen_change self)
  rw [mem_browse, lastWritten_filterMap, hchange, lastWritten_map]
  constructor
  · rintro ⟨⟨a, hlast, rfl⟩, heligible⟩
    obtain ⟨hrole, hrequested, hipv4⟩ := eligible_peer.1 heligible
    exact ⟨a, rfl, hlast, hrole, hrequested, hipv4⟩
  · rintro ⟨a, rfl, hlast, hrole, hrequested, hipv4⟩
    exact ⟨⟨a, hlast, rfl⟩, eligible_peer.2 ⟨hrole, hrequested, hipv4⟩⟩

variable {options : WorkerOptions} {saved : Option Target} {target : Target}

/-- Whom `find_target` looks for, when no address was given. -/
def Requests (std : StdNet) (options : WorkerOptions) (saved : Option Target)
    (requested : Option DeviceId) : Prop :=
  match options.master with
  | none => requested = saved.bind (·.id)
  | some text => explicitAddress std text = .ok none ∧
    ∃ id, deviceIdFromStr text = some id ∧ requested = some id

theorem findTarget_requests {browsed : Except String (List SeenEvent)}
    (h : Requests std options saved requested) :
    findTarget std options saved self browsed = findById options saved self requested browsed := by
  unfold Requests at h
  unfold findTarget
  cases hmaster : options.master with
  | none =>
    rw [hmaster] at h
    rw [h]
  | some text =>
    rw [hmaster] at h
    obtain ⟨haddr, id, hid, rfl⟩ := h
    dsimp only
    rw [haddr]
    dsimp only
    rw [hid]

/-- What `select_master` takes is what is offered alone. -/
theorem selectMaster_offers (self : DeviceId) (requested : Option DeviceId)
    (lan : List (LanEvent std)) :
    (selectMaster (browse self (lan.filterMap LanEvent.seen)) requested = .ok none ↔
        ∀ a, ¬ Offers lan self requested a) ∧
      ∀ peer, selectMaster (browse self (lan.filterMap LanEvent.seen)) requested = .ok (some peer) ↔
        ∃ a : Announcement std, a.peer = peer ∧ Offers lan self requested a ∧
          ∀ b, Offers lan self requested b → b.ad.deviceId = a.ad.deviceId := by
  obtain ⟨hnone, hsome⟩ := @selectMaster_spec requested _
    (@nodup_browse self (lan.filterMap LanEvent.seen))
  constructor
  · refine hnone.trans ⟨fun h a ha => ?_, fun h peer hpeer heligible => ?_⟩
    · obtain ⟨hmem, heligible⟩ := eligible_browse.2 ⟨a, rfl, ha⟩
      exact h _ hmem heligible
    · obtain ⟨a, -, ha⟩ := eligible_browse.1 ⟨hpeer, heligible⟩
      exact h a ha
  · intro peer
    refine (hsome peer).trans ⟨?_, ?_⟩
    · rintro ⟨hpeer, hunique⟩
      obtain ⟨a, rfl, ha⟩ := eligible_browse.1 hpeer
      refine ⟨a, rfl, ha, fun b hb => ?_⟩
      obtain ⟨hmem, heligible⟩ := eligible_browse.2 ⟨b, rfl, hb⟩
      exact hunique _ hmem heligible
    · rintro ⟨a, rfl, ha, hunique⟩
      refine ⟨eligible_browse.2 ⟨a, rfl, ha⟩, fun p hp heligible => ?_⟩
      obtain ⟨b, rfl, hb⟩ := eligible_browse.1 ⟨hp, heligible⟩
      exact hunique b hb

/-- A target is found in what was heard, or is the one that was saved. -/
theorem findTarget_eq_some {lan : List (LanEvent std)} {services : List (ServiceEvent std)}
    (hheard : List.Forall₂ Heard lan services) (hrequested : Requests std options saved requested)
    (self : DeviceId) (target : Target) :
    findTarget std options saved self (.ok (services.filterMap nextEvent)) = .ok (some target) ↔
      requested ≠ some self ∧
        ((∃ a, Offers lan self requested a ∧
            (∀ b, Offers lan self requested b → b.ad.deviceId = a.ad.deviceId) ∧
            target = a.target options) ∨
          (∀ a, ¬ Offers lan self requested a) ∧ saved = some target ∧ target.id = requested) := by
  obtain ⟨hnone, hsome⟩ := selectMaster_offers self requested lan
  rw [findTarget_requests hrequested, filterMap_heard hheard, findById]
  split_ifs with hself
  · exact iff_of_false (fun h => by cases h) fun h => h.1 hself
  rw [and_iff_right hself]
  dsimp only [Except.bind]
  constructor
  · intro h
    cases hselect : selectMaster (browse self (lan.filterMap LanEvent.seen)) requested with
    | error why =>
      rw [hselect] at h
      cases h
    | ok found =>
      rw [hselect] at h
      cases found with
      | none =>
        obtain ⟨hsaved, hid⟩ := Option.filter_eq_some_iff.1 (Except.ok.inj h)
        exact .inr ⟨hnone.1 hselect, hsaved, of_decide_eq_true hid⟩
      | some peer =>
        obtain ⟨a, rfl, ha, hunique⟩ := (hsome peer).1 hselect
        exact .inl ⟨a, ha, hunique, (Option.some.inj (Except.ok.inj h)).symm⟩
  · rintro (⟨a, ha, hunique, rfl⟩ | ⟨hunoffered, rfl, hid⟩)
    · rw [(hsome a.peer).2 ⟨a, rfl, ha, hunique⟩]
      rfl
    · rw [hnone.2 hunoffered]
      exact congrArg Except.ok (Option.filter_some_pos (by simpa using hid))

/-- No target is found when nobody offers itself, and the one that was saved is not whom the worker looks
for. -/
theorem findTarget_eq_none {lan : List (LanEvent std)} {services : List (ServiceEvent std)}
    (hheard : List.Forall₂ Heard lan services) (hrequested : Requests std options saved requested)
    (self : DeviceId) :
    findTarget std options saved self (.ok (services.filterMap nextEvent)) = .ok none ↔
      requested ≠ some self ∧ (∀ a, ¬ Offers lan self requested a) ∧
        ∀ target, saved = some target → target.id ≠ requested := by
  obtain ⟨hnone, hsome⟩ := selectMaster_offers self requested lan
  rw [findTarget_requests hrequested, filterMap_heard hheard, findById]
  split_ifs with hself
  · exact iff_of_false (fun h => by cases h) fun h => h.1 hself
  rw [and_iff_right hself]
  dsimp only [Except.bind]
  cases hselect : selectMaster (browse self (lan.filterMap LanEvent.seen)) requested with
  | error why =>
    refine iff_of_false (fun h => by cases h) fun h => ?_
    rw [hnone.2 h.1] at hselect
    cases hselect
  | ok found =>
    cases found with
    | none =>
      rw [and_iff_right (hnone.1 hselect)]
      constructor
      · rintro h target rfl hid
        have hkept : (some target).filter (·.id = requested) = some target :=
          Option.filter_some_pos (by simpa using hid)
        rw [hkept] at h
        cases h
      · intro h
        refine congrArg Except.ok (Option.filter_eq_none_iff.2 fun target htarget => ?_)
        simpa using h target htarget
    | some peer =>
      obtain ⟨a, -, ha, -⟩ := (hsome peer).1 hselect
      exact iff_of_false (fun h => by cases h) fun h => h.1 a ha

/-- It is an error to look for oneself, and that several devices offer themselves. -/
theorem findTarget_eq_error {lan : List (LanEvent std)} {services : List (ServiceEvent std)}
    (hheard : List.Forall₂ Heard lan services) (hrequested : Requests std options saved requested)
    (self : DeviceId) :
    (∃ why, findTarget std options saved self (.ok (services.filterMap nextEvent)) = .error why) ↔
      requested = some self ∨ ∃ a b, Offers lan self requested a ∧ Offers lan self requested b ∧
        b.ad.deviceId ≠ a.ad.deviceId := by
  have hsome := findTarget_eq_some hheard hrequested self
  have hnone := findTarget_eq_none hheard hrequested self
  generalize findTarget std options saved self (.ok (services.filterMap nextEvent)) = found at hsome hnone
  constructor
  · rintro ⟨why, rfl⟩
    by_contra hnot
    obtain ⟨hself, hone⟩ := not_or.1 hnot
    -- what is left is a target or none
    by_cases hany : ∃ a, Offers lan self requested a
    · obtain ⟨a, ha⟩ := hany
      cases (hsome (a.target options)).2 ⟨hself, .inl ⟨a, ha, fun b hb => by
        by_contra hne
        exact hone ⟨a, b, ha, hb, hne⟩, rfl⟩⟩
    · have hunoffered : ∀ a, ¬ Offers lan self requested a := fun a ha => hany ⟨a, ha⟩
      by_cases hsaved : ∃ target, saved = some target ∧ target.id = requested
      · obtain ⟨target, heq, hid⟩ := hsaved
        cases (hsome target).2 ⟨hself, .inr ⟨hunoffered, heq, hid⟩⟩
      · cases hnone.2 ⟨hself, hunoffered, fun target heq hid => hsaved ⟨target, heq, hid⟩⟩
  · rintro h
    cases found with
    | error why => exact ⟨why, rfl⟩
    | ok t =>
      cases t with
      | none =>
        obtain ⟨hself, hunoffered, -⟩ := hnone.1 rfl
        rcases h with h | ⟨a, b, ha, -, -⟩
        · exact absurd h hself
        · exact absurd ha (hunoffered a)
      | some target =>
        obtain ⟨hself, ⟨c, -, hunique, -⟩ | ⟨hunoffered, -⟩⟩ := (hsome target).1 rfl
        · rcases h with h | ⟨a, b, ha, hb, hne⟩
          · exact absurd h hself
          · exact absurd ((hunique b hb).trans (hunique a ha).symm) hne
        · rcases h with h | ⟨a, b, ha, -, -⟩
          · exact absurd h hself
          · exact absurd ha (hunoffered a)

/-- **Which master a worker finds**, when it is not told an address: the one that offers itself, if there is
only one, at the addresses and the pairing port that it has announced; when nobody does, the master that
was saved, if it is the one the worker looks for, and otherwise none.  It is an error to look for oneself,
and that several offer themselves. -/
theorem worker_finds_master {lan : List (LanEvent std)} {services : List (ServiceEvent std)}
    (hheard : List.Forall₂ Heard lan services) (hrequested : Requests std options saved requested)
    (self : DeviceId) :
    let found := findTarget std options saved self (.ok (services.filterMap nextEvent))
    (∀ target, found = .ok (some target) ↔ requested ≠ some self ∧
      ((∃ a, Offers lan self requested a ∧
          (∀ b, Offers lan self requested b → b.ad.deviceId = a.ad.deviceId) ∧
          target = a.target options) ∨
        (∀ a, ¬ Offers lan self requested a) ∧ saved = some target ∧ target.id = requested)) ∧
    (found = .ok none ↔ requested ≠ some self ∧ (∀ a, ¬ Offers lan self requested a) ∧
      ∀ target, saved = some target → target.id ≠ requested) ∧
    ((∃ why, found = .error why) ↔ requested = some self ∨
      ∃ a b, Offers lan self requested a ∧ Offers lan self requested b ∧
        b.ad.deviceId ≠ a.ad.deviceId) := by
  intro found
  exact ⟨findTarget_eq_some hheard hrequested self, findTarget_eq_none hheard hrequested self,
    findTarget_eq_error hheard hrequested self⟩

/-- What the desk announces when it starts as a master. -/
def deskAnnouncement : Announcement textNet :=
  ⟨⟨7, "desk", "linux-x86_64", 17179869184, 47900⟩, "master", some 47901, ["192.168.7.40"]⟩

/-- A worker that was never paired hears the desk, and finds it. -/
theorem worker_finds_master_desk :
    let info := advertiseService deskAnnouncement.ad (some 47901)
    let svc : ResolvedService textNet := ⟨fun key => info.txt.lookup key, ["192.168.7.40"], info.port⟩
    findTarget textNet ⟨none, none, 47901⟩ none 2 (.ok ([.serviceResolved svc].filterMap nextEvent)) =
      .ok (some advertisedTarget) := by
  intro info svc
  have hlast (b : Announcement textNet) : LastWritten (LanEvent.change 2)
      [.announced deskAnnouncement] b.ad.deviceId b ↔ deskAnnouncement = b := by
    rw [← List.nil_append [LanEvent.announced deskAnnouncement], lastWritten_concat]
    refine ⟨?_, ?_⟩
    · rintro (heffect | ⟨⟨before, e, after, hsplit, -⟩, -⟩)
      · exact Option.some.inj (Prod.mk.inj (Option.some.inj heffect)).2
      · simp at hsplit
    · rintro rfl
      exact .inl rfl
  have hoffers : Offers [.announced deskAnnouncement] 2 none deskAnnouncement :=
    ⟨(hlast _).2 rfl, rfl, nofun, "192.168.7.40", List.mem_singleton.2 rfl, rfl⟩
  have hheard : List.Forall₂ Heard [.announced deskAnnouncement] [.serviceResolved svc] :=
    .cons (.announced ⟨fun _ => rfl, rfl⟩ rfl) .nil
  have hrequests : Requests textNet ⟨none, none, 47901⟩ none none := rfl
  refine ((worker_finds_master hheard hrequests 2).1 _).2 ⟨nofun, .inl ⟨_, hoffers, ?_, ?_⟩⟩
  · intro b hb
    rw [(hlast b).1 hb.last]
  · decide

end Daemon

end Latticed
