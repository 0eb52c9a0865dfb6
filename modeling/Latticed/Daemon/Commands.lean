import Latticed.Daemon.Announce
import Latticed.Daemon.Places

/-!
# What the command line names

A placement is given as `first-last@where`; a device to pair with or to measure is given by an address or
by its id, and then looked for on the network.

* `Placement.fromStr_eq_ok` : which texts are placements.
* `Placement.fromStr_text` : what is written is read back.
* `resolve_eq_ok` : where a device is found.
-/

namespace Latticed

namespace Daemon

open Net Rust

/-! ### Placements -/

/-- `split_once`. -/
def splitOnce (c : Char) : List Char → Option (List Char × List Char)
  | [] => none
  | x :: xs => if x = c then some ([], xs) else (splitOnce c xs).map fun (a, b) => (x :: a, b)

/-- `Host`, as it is written. -/
def Host.fromChars (host : List Char) : Except String Host :=
  let text := String.ofList host
  if text = "local" ∨ text = "here" then .ok .here
  else match deviceIdFromStr text with
    | none => .error "device id"
    | some id => .ok (.peer id)

/-- `Placement::from_str`. -/
def Placement.fromStr [Debug String] (text : String) : Except String Placement :=
  match splitOnce '@' text.toList with
  | none => .error (Debug.debug text ++ " is not first-last@where")
  | some (range, host) =>
    match splitOnce '-' range with
    | none => .error (Debug.debug (String.ofList range) ++ " is not first-last")
    | some (first, last) =>
      match parseUnsigned UInt32.size first with
      | none => .error "first layer"
      | some first =>
        match parseUnsigned UInt32.size last with
        | none => .error "last layer"
        | some last => (Host.fromChars host).map fun host => ⟨.ofNat first, .ofNat last, host⟩

theorem splitOnce_eq_some {c : Char} {cs a b : List Char} :
    splitOnce c cs = some (a, b) ↔ cs = a ++ c :: b ∧ c ∉ a := by
  induction cs generalizing a with
  | nil => simp [splitOnce]
  | cons x xs ih =>
    unfold splitOnce
    split_ifs with hx
    · subst hx
      constructor
      · rintro ⟨⟩
        exact ⟨rfl, List.not_mem_nil⟩
      · rintro ⟨hsplit, hnot⟩
        cases a with
        | nil => rw [(List.cons.inj hsplit).2]
        | cons y a =>
          rw [(List.cons.inj hsplit).1] at hnot
          exact absurd List.mem_cons_self hnot
    · rw [Option.map_eq_some_iff]
      constructor
      · rintro ⟨⟨a', b'⟩, hrest, hpair⟩
        obtain ⟨rfl, rfl⟩ := Prod.mk.inj hpair
        obtain ⟨rfl, hnot⟩ := ih.1 hrest
        refine ⟨rfl, fun hmem => ?_⟩
        rcases List.mem_cons.1 hmem with rfl | hmem
        exacts [hx rfl, hnot hmem]
      · rintro ⟨hsplit, hnot⟩
        cases a with
        | nil => exact absurd (List.cons.inj hsplit).1 hx
        | cons y a =>
          obtain ⟨rfl, rfl⟩ := List.cons.inj hsplit
          exact ⟨(a, b), ih.2 ⟨rfl, fun hmem => hnot (List.mem_cons_of_mem _ hmem)⟩, rfl⟩

theorem isDigit_of_foldlM {cs : List Char} {m k : ℕ} (h : cs.foldlM (fun n c => if c.isDigit = true then
    some (10 * n + (c.toNat - 48)) else none) m = some k) : ∀ c ∈ cs, c.isDigit = true := by
  induction cs generalizing m with
  | nil => exact fun c hc => nomatch hc
  | cons c cs ih =>
    rw [List.foldlM_cons] at h
    obtain ⟨next, hnext, hrest⟩ := Option.bind_eq_some_iff.1 h
    split_ifs at hnext with hc
    exact List.forall_mem_cons.2 ⟨hc, ih hrest⟩

/-- A number that is read has no other characters. -/
theorem chars_of_parseUnsigned {bound n : ℕ} {cs : List Char} (h : parseUnsigned bound cs = some n) :
    n < bound ∧ ∀ c ∈ cs, c.isDigit = true ∨ c = '+' := by
  unfold parseUnsigned at h
  dsimp only at h
  split_ifs at h
  obtain ⟨hfold, hlt⟩ := Option.filter_eq_some_iff.1 h
  refine ⟨of_decide_eq_true hlt, fun c hc => ?_⟩
  split at hfold
  · rcases List.mem_cons.1 hc with rfl | hrest
    · exact .inr rfl
    · exact .inl (isDigit_of_foldlM hfold c hrest)
  · exact .inl (isDigit_of_foldlM hfold c hc)

/-- The host is written like this. -/
def Host.Reads (host : List Char) (h : Host) : Prop :=
  h = .here ∧ (String.ofList host = "local" ∨ String.ofList host = "here") ∨
    ∃ id, h = .peer id ∧ deviceIdFromStr (String.ofList host) = some id

theorem Host.fromChars_eq_ok {host : List Char} {h : Host} :
    Host.fromChars host = .ok h ↔ h.Reads host := by
  unfold Host.fromChars Host.Reads
  dsimp only
  split_ifs with hhere
  · have hnone : deviceIdFromStr (String.ofList host) = none := by
      obtain heq | heq := hhere <;> rw [heq] <;> decide
    constructor
    · rintro ⟨⟩
      exact .inl ⟨rfl, hhere⟩
    · rintro (⟨rfl, -⟩ | ⟨id, -, hid⟩)
      · rfl
      · rw [hnone] at hid
        cases hid
  · cases hread : deviceIdFromStr (String.ofList host) with
    | none =>
      refine iff_of_false (fun h => by cases h) ?_
      rintro (⟨-, hhost⟩ | ⟨id, -, hid⟩)
      exacts [hhere hhost, by cases hid]
    | some id =>
      constructor
      · rintro ⟨⟩
        exact .inr ⟨id, rfl, rfl⟩
      · rintro (⟨-, hhost⟩ | ⟨id', rfl, hid⟩)
        · exact absurd hhost hhere
        · rw [Option.some.inj hid]

/-- The placement is written like this. -/
def Placement.Reads (text : String) (p : Placement) : Prop :=
  ∃ first last host, text.toList = first ++ '-' :: last ++ '@' :: host ∧
    parseUnsigned UInt32.size first = some p.firstLayer.toNat ∧
    parseUnsigned UInt32.size last = some p.lastLayer.toNat ∧ p.host.Reads host

theorem Placement.reads_of_fromStr [Debug String] {text : String} {p : Placement}
    (h : Placement.fromStr text = .ok p) : Placement.Reads text p := by
  unfold Placement.fromStr at h
  -- each part has to be there, or the text is refused
  split at h
  · cases h
  rename_i range host hat
  split at h
  · cases h
  rename_i first last hhyphen
  split at h
  · cases h
  rename_i n hfirst
  split at h
  · cases h
  rename_i m hlast
  obtain ⟨read, hhost, rfl⟩ := map_eq_ok.1 h
  have hn : (UInt32.ofNat n).toNat = n := UInt32.toNat_ofNat_of_lt' (chars_of_parseUnsigned hfirst).1
  have hm : (UInt32.ofNat m).toNat = m := UInt32.toNat_ofNat_of_lt' (chars_of_parseUnsigned hlast).1
  refine ⟨first, last, host, ?_, hfirst.trans (by rw [hn]), hlast.trans (by rw [hm]),
    Host.fromChars_eq_ok.1 hhost⟩
  rw [(splitOnce_eq_some.1 hat).1, (splitOnce_eq_some.1 hhyphen).1]

/-- A number has no separator in it. -/
theorem not_mem_of_parseUnsigned {cs : List Char} {n : ℕ} (h : parseUnsigned UInt32.size cs = some n) :
    '@' ∉ cs ∧ '-' ∉ cs := by
  have hchars := (chars_of_parseUnsigned h).2
  refine ⟨fun hc => ?_, fun hc => ?_⟩ <;> exact absurd (hchars _ hc) (by decide)

theorem Placement.Reads.fromStr [Debug String] {text : String} {p : Placement}
    (h : Placement.Reads text p) : Placement.fromStr text = .ok p := by
  obtain ⟨first, last, host, htext, hfirst, hlast, hhost⟩ := h
  obtain ⟨hfirstAt, hfirstHyphen⟩ := not_mem_of_parseUnsigned hfirst
  have hlastAt := (not_mem_of_parseUnsigned hlast).1
  have hat : splitOnce '@' text.toList = some (first ++ '-' :: last, host) := by
    refine splitOnce_eq_some.2 ⟨htext, fun hmem => ?_⟩
    rcases List.mem_append.1 hmem with hmem | hmem
    · exact hfirstAt hmem
    · rcases List.mem_cons.1 hmem with heq | hmem
      · exact absurd heq (by decide)
      · exact hlastAt hmem
  have hhyphen : splitOnce '-' (first ++ '-' :: last) = some (first, last) :=
    splitOnce_eq_some.2 ⟨rfl, hfirstHyphen⟩
  unfold Placement.fromStr
  rw [hat]
  dsimp only
  rw [hhyphen]
  dsimp only
  rw [hfirst, hlast]
  dsimp only
  rw [Host.fromChars_eq_ok.2 hhost, UInt32.ofNat_toNat, UInt32.ofNat_toNat]
  rfl

/-- **Which texts are placements**: two numbers of 32 bits with a hyphen between them, and after an at sign
a word for this device or the id of another. -/
theorem Placement.fromStr_eq_ok [Debug String] {text : String} {p : Placement} :
    Placement.fromStr text = .ok p ↔
      ∃ first last host, text.toList = first ++ '-' :: last ++ '@' :: host ∧
      parseUnsigned UInt32.size first = some p.firstLayer.toNat ∧
      parseUnsigned UInt32.size last = some p.lastLayer.toNat ∧ p.host.Reads host :=
  ⟨reads_of_fromStr, Reads.fromStr⟩

/-- A placement, as it is given on the command line. -/
def Placement.text (p : Placement) : String :=
  toString p.firstLayer ++ "-" ++ toString p.lastLayer ++ "@" ++
    match p.host with
    | .here => "local"
    | .peer id => id.display

/-- **What is written is read back.** -/
theorem Placement.fromStr_text [Debug String] (p : Placement) :
    Placement.fromStr p.text = .ok p := by
  have hhost : ∃ host, p.text.toList =
      (toString p.firstLayer).toList ++ '-' :: (toString p.lastLayer).toList ++ '@' :: host ∧
        p.host.Reads host := by
    unfold Placement.text Host.Reads
    cases p.host with
    | here => exact ⟨"local".toList, by simp, .inl ⟨rfl, .inl (by simp)⟩⟩
    | peer id => exact ⟨id.display.toList, by simp, .inr ⟨id, rfl, by simp [deviceIdFromStr_display]⟩⟩
  obtain ⟨host, htext, hreads⟩ := hhost
  exact Reads.fromStr ⟨_, _, host, htext, parseUnsigned_toString p.firstLayer.toNat_lt,
    parseUnsigned_toString p.lastLayer.toNat_lt, hreads⟩

/-! ### Devices -/

/-- The loop of `resolve`, over the events that come before the deadline; `seen` : the device is there, but
has no address that can be dialled. -/
def resolveFrom (wanted self : DeviceId) (seen : Bool) : List PeerEvent → Except String (List SocketAddr)
  | [] =>
    if wanted = self then .error (wanted.display ++ " is this device")
    else if seen then .error (wanted.display ++ " is on the network but advertised no address this " ++
      "device can reach — pass a host:port instead")
    else .error ("could not find " ++ wanted.display ++
      " on the network — pass a host:port instead")
  | .found peer :: events =>
    if peer.deviceId = wanted then
      if (usable peer.addrs).isEmpty then resolveFrom wanted self true events
      else .ok (usable peer.addrs)
    else resolveFrom wanted self seen events
  | .lost _ :: events => resolveFrom wanted self seen events

/-- `resolve`. -/
def resolve (std : StdNet) (target : String) (self : DeviceId)
    (browsed : Except String (List PeerEvent)) : Except String (List SocketAddr) :=
  match std.parseSocketAddr target with
  | some addr => .ok [addr]
  | none =>
    match deviceIdFromStr target with
    | none => .error "target must be a host:port or a device id"
    | some wanted => browsed.bind (resolveFrom wanted self false)

/-- The first record of the device that can be dialled is this one. -/
def FirstUsable (wanted : DeviceId) (events : List PeerEvent) (addrs : List SocketAddr) : Prop :=
  addrs ≠ [] ∧ ∃ before peer after, events = before ++ .found peer :: after ∧ peer.deviceId = wanted ∧
    addrs = usable peer.addrs ∧ ∀ p, .found p ∈ before → p.deviceId = wanted → usable p.addrs = []

variable {wanted self : DeviceId} {addrs : List SocketAddr} {std : StdNet} {target : String}

/-- An event that is not such a record is passed over. -/
theorem firstUsable_cons {e : PeerEvent} {events : List PeerEvent}
    (h : ∀ p, e = .found p → p.deviceId = wanted → usable p.addrs = []) :
    FirstUsable wanted (e :: events) addrs ↔ FirstUsable wanted events addrs := by
  refine and_congr_right fun hne => ⟨?_, ?_⟩
  · rintro ⟨before, peer, after, hsplit, hid, haddrs, hbefore⟩
    cases before with
    | nil =>
      rw [haddrs, h peer (List.cons.inj hsplit).1 hid] at hne
      exact absurd rfl hne
    | cons first before =>
      obtain ⟨rfl, rfl⟩ := List.cons.inj hsplit
      exact ⟨before, peer, after, rfl, hid, haddrs, fun p hp => hbefore p (List.mem_cons_of_mem _ hp)⟩
  · rintro ⟨before, peer, after, rfl, hid, haddrs, hbefore⟩
    refine ⟨e :: before, peer, after, rfl, hid, haddrs, fun p hp hpid => ?_⟩
    rcases List.mem_cons.1 hp with rfl | hp
    · exact h p rfl hpid
    · exact hbefore p hp hpid

theorem resolveFrom_eq_ok {seen : Bool} {events : List PeerEvent} :
    resolveFrom wanted self seen events = .ok addrs ↔ FirstUsable wanted events addrs := by
  induction events generalizing seen with
  | nil =>
    unfold resolveFrom
    refine iff_of_false (fun h => ?_) ?_
    · split_ifs at h
    · rintro ⟨-, before, peer, after, hsplit, -⟩
      simp at hsplit
  | cons e events ih =>
    cases e with
    | lost id => exact ih.trans (firstUsable_cons fun p heq => by cases heq).symm
    | found peer =>
      unfold resolveFrom
      split_ifs with hid hempty
      · refine ih.trans (firstUsable_cons ?_).symm
        rintro p ⟨⟩ -
        exact List.isEmpty_iff.1 hempty
      · rw [List.isEmpty_iff] at hempty
        constructor
        · rintro ⟨⟩
          exact ⟨hempty, [], peer, events, rfl, hid, rfl, fun p hp => nomatch hp⟩
        · rintro ⟨hne, before, found, after, hsplit, hfound, rfl, hbefore⟩
          cases before with
          | nil =>
            obtain ⟨⟨⟩, rfl⟩ := List.cons.inj hsplit
            rfl
          | cons first before =>
            obtain ⟨rfl, rfl⟩ := List.cons.inj hsplit
            exact absurd (hbefore peer List.mem_cons_self hid) hempty
      · refine ih.trans (firstUsable_cons ?_).symm
        rintro p ⟨⟩ hpid
        exact absurd hpid hid

/-- **Where a device is found**: at the address that was given, or where the first of its records says that
has an address that can be dialled; a record without one is passed over, and so is everything that is
withdrawn.  A device that advertises itself finds itself. -/
theorem resolve_eq_ok {browsed : Except String (List PeerEvent)} :
    resolve std target self browsed = .ok addrs ↔
      (∃ addr, std.parseSocketAddr target = some addr ∧ addrs = [addr]) ∨
        std.parseSocketAddr target = none ∧ ∃ wanted events, deviceIdFromStr target = some wanted ∧
          browsed = .ok events ∧ FirstUsable wanted events addrs := by
  unfold resolve
  cases hparse : std.parseSocketAddr target with
  | some addr => simp [eq_comm]
  | none =>
    cases hid : deviceIdFromStr target with
    | none => simp
    | some wanted =>
      cases browsed with
      | error why =>
        refine iff_of_false (fun h => by cases h) ?_
        rintro (⟨addr, ⟨⟩, -⟩ | ⟨-, wanted', events, -, ⟨⟩, -⟩)
      | ok events =>
        refine resolveFrom_eq_ok.trans ⟨fun h => .inr ⟨rfl, wanted, events, rfl, rfl, h⟩, ?_⟩
        rintro (⟨addr, ⟨⟩, -⟩ | ⟨-, wanted', events', ⟨⟩, ⟨⟩, h⟩)
        exact h

end Daemon

end Latticed
