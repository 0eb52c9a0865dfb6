import Latticed.Net.TrustHandles
import Latticed.Rust.Iter
import Latticed.Rust.Json

/-!
# Trust survives a restart

The trusted devices are written as a list of objects: a device id is eight numbers, a key is a string of
hexadecimal digits, and the device that vouched is left out where there is none.  A store that is loaded is
made of the list again.

* `PairedPeer.format` : how a record is written, and that it is read back.
* `SerdeJson.trustJson_roundTrips` : what is written is read back, if documents are.
* `get_run_iff` : the record of a device is that of the last call on it, if this was an insert.
* `trust_survives_restart` : the store that is loaded is the store in memory, and what it trusts.
-/

namespace Latticed

namespace Net

open Rust

/-! ### Records -/

/-- How a `DeviceId` is written: its eight bytes. -/
def DeviceId.format : Format DeviceId :=
  (Format.u8.array 8).convert
    (fun id => ⟨(toLeBytes 8 id.val).reverse.toArray, by simp⟩)
    (fun bytes => .ok (.ofNat (2 ^ 64) (ofLeBytes bytes.toList.reverse))) fun id => by
      have hlt : id.val < 256 ^ 8 := id.isLt
      simp [ofLeBytes_toLeBytes hlt]

variable {Key : Type} [PublicKey Key]

/-- `verifying_key_hex`. -/
def keyFormat : Format Key :=
  Format.string.convert (fun key => hexEncode (PublicKey.toBytes key).toList)
    (fun text => match hexDecode 32 text with
      | some bytes => PublicKey.fromBytes bytes
      | none => .error "invalid hexadecimal digits") fun key => by
      rw [hexDecode_hexEncode]
      exact PublicKey.fromBytes_toBytes key

/-- The fields of a record. -/
def PairedPeer.fieldNames : List String :=
  ["device_id", "public_key", "name", "platform", "paired_at", "introduced_by"]

/-- The fields of a record as they are written: who vouched is left out where nobody did. -/
def PairedPeer.written (p : PairedPeer Key) : List (String × Json) :=
  [("device_id", DeviceId.format.write p.deviceId), ("public_key", keyFormat.write p.publicKey),
    ("name", Format.string.write p.name), ("platform", Format.string.write p.platform),
    ("paired_at", Format.u64.write p.pairedAt)] ++
    (p.introducedBy.map fun by_ => ("introduced_by", DeviceId.format.write by_)).toList

/-- A record, from its fields. -/
def PairedPeer.ofFields (fields : List (String × Json)) : Except String (PairedPeer Key) := do
  let deviceId ← DeviceId.format.required fields "device_id"
  let publicKey ← keyFormat.required fields "public_key"
  let name ← Format.string.required fields "name"
  let platform ← Format.string.required fields "platform"
  let pairedAt ← Format.u64.required fields "paired_at"
  let introducedBy ← DeviceId.format.optional fields "introduced_by"
  .ok { deviceId, publicKey, name, platform, pairedAt, introducedBy }

theorem PairedPeer.ofFields_written (p : PairedPeer Key) : ofFields p.written = .ok p := by
  have hnames : (p.written.map (·.1)).Nodup := by
    unfold written
    cases p.introducedBy with
    | none => exact (by decide : ["device_id", "public_key", "name", "platform", "paired_at"].Nodup)
    | some by_ => exact (by decide : fieldNames.Nodup)
  have hmem {member : String × Json} (h : member ∈ p.written.take 5) : member ∈ p.written :=
    List.mem_of_mem_take h
  have hintroduced : DeviceId.format.optional p.written "introduced_by" = .ok p.introducedBy := by
    cases hby : p.introducedBy with
    | none =>
      refine Format.optional_absent _ ?_
      unfold written
      rw [hby]
      exact (by decide : "introduced_by" ∉ ["device_id", "public_key", "name", "platform", "paired_at"])
    | some by_ =>
      -- an id is not written as `null`
      refine Format.optional_write _ hnames ?_ nofun
      unfold written
      rw [hby]
      exact List.mem_append_right _ (List.mem_singleton_self _)
  unfold ofFields
  rw [Format.required_write _ hnames (hmem (.head _)),
    Format.required_write _ hnames (hmem (.tail _ (.head _))),
    Format.required_write _ hnames (hmem (.tail _ (.tail _ (.head _)))),
    Format.required_write _ hnames (hmem (.tail _ (.tail _ (.tail _ (.head _))))),
    Format.required_write _ hnames (hmem (.tail _ (.tail _ (.tail _ (.tail _ (.head _)))))),
    hintroduced]
  rfl

/-- How a record is written. -/
def PairedPeer.format : Format (PairedPeer Key) where
  write p := .object p.written
  read value := (value.fields fieldNames).bind ofFields
  read_write p := p.ofFields_written

/-! ### The file -/

/-- `serde_json`, on documents. -/
structure SerdeJson where
  /-- `to_vec_pretty`. -/
  print : Json → Except String Bytes
  /-- `from_slice`. -/
  parse : Bytes → Except String Json

/-- A document that is printed is parsed again. -/
def SerdeJson.RoundTrips (serde : SerdeJson) : Prop :=
  ∀ value bytes, serde.print value = .ok bytes → serde.parse bytes = .ok value

/-- The file of trusted devices. -/
def SerdeJson.trustJson (serde : SerdeJson) : TrustJson Key where
  encode peers := serde.print (PairedPeer.format.list.write peers)
  decode bytes := (serde.parse bytes).bind PairedPeer.format.list.read

/-- **What is written is read back**, if documents are. -/
theorem SerdeJson.trustJson_roundTrips {serde : SerdeJson} (h : serde.RoundTrips) :
    (serde.trustJson : TrustJson Key).RoundTrips := by
  intro peers bytes hbytes
  show (serde.parse bytes).bind _ = _
  rw [h _ _ hbytes]
  exact PairedPeer.format.list.read_write peers

/-! ### One store -/

/-- A record that `PairedPeer::new` or `introduced` has made. -/
def PairedPeer.Made (p : PairedPeer Key) : Prop :=
  ∃ key name platform now, p = .new key name platform now ∨
    ∃ by_, p = .introduced key name platform now by_

theorem PairedPeer.Made.deviceId_eq {p : PairedPeer Key} (h : p.Made) :
    p.deviceId = PublicKey.deviceId p.publicKey := by
  obtain ⟨key, name, platform, now, rfl | ⟨by_, rfl⟩⟩ := h
  · rfl
  · rfl

section Runs

variable {json : TrustJson Key} {σ : Handles Unit Key} {calls : List (HandleCall Unit Key)}
  {call last : HandleCall Unit Key} {id : DeviceId}

/-- The device that a call is about. -/
def HandleCall.device : HandleCall Unit Key → Option DeviceId
  | .load _ => none
  | .insert _ peer => some peer.deviceId
  | .remove _ id => some id

/-- The last call on the device. -/
def LastOn (id : DeviceId) (calls : List (HandleCall Unit Key)) (last : HandleCall Unit Key) : Prop :=
  ∃ before after, calls = before ++ last :: after ∧ last.device = some id ∧
    ∀ call ∈ after, call.device ≠ some id

omit [PublicKey Key] in
theorem not_lastOn_nil : ¬ LastOn id [] last := by
  rintro ⟨before, after, heq, -⟩
  simp at heq

omit [PublicKey Key] in
theorem lastOn_concat : LastOn id (calls ++ [call]) last ↔
    if call.device = some id then call = last else LastOn id calls last := by
  constructor
  · rintro ⟨before, after, heq, hlast, hafter⟩
    rcases List.eq_nil_or_concat' after with rfl | ⟨after, final, rfl⟩
    · obtain ⟨rfl, rfl⟩ : calls = before ∧ call = last := by simpa using List.append_inj' heq rfl
      rw [if_pos hlast]
    · rw [← List.cons_append, ← List.append_assoc] at heq
      obtain ⟨rfl, rfl⟩ : calls = before ++ last :: after ∧ call = final := by
        simpa using List.append_inj' heq rfl
      rw [if_neg (hafter call (by simp))]
      exact ⟨before, after, rfl, hlast, fun c hc => hafter c (by simp [hc])⟩
  · split_ifs with hid
    · rintro rfl
      exact ⟨calls, [], rfl, hid, by simp⟩
    · rintro ⟨before, after, rfl, hlast, hafter⟩
      refine ⟨before, after ++ [call], by simp, hlast, ?_⟩
      simpa [or_imp, forall_and, hid] using hafter

omit [PublicKey Key] in
/-- The record that a call leaves for a device. -/
theorem get_written (p : PairedPeer Key) : ((σ.written (σ.handle ()) call).get id = some p) ↔
    if call.device = some id then call = .insert () p else (σ.handle ()).get id = some p := by
  cases call with
  | load => exact Iff.rfl
  | insert _ peer =>
    unfold Handles.written HandleCall.device
    dsimp only
    rw [TrustStore.get_insert]
    simp only [Option.some.injEq]
    split_ifs with hid
    · simp
    · exact Iff.rfl
  | remove _ gone =>
    unfold Handles.written HandleCall.device
    simp only [Option.some.injEq]
    split_ifs with hheld hid hid
    · rw [TrustStore.get_erase, if_pos hid]
      simp
    · rw [TrustStore.get_erase, if_neg hid]
    · -- a device that is not known is not removed
      subst hid
      rw [Option.isSome_iff_ne_none, not_not] at hheld
      simp [hheld]
    · exact Iff.rfl

omit [PublicKey Key] in
/-- The store in memory after a call is what the file holds. -/
theorem handle_step (hload : TrustStore.load json σ.file = .ok (σ.handle ())) :
    (σ.step json call).handle () = σ.written (σ.handle ()) call := by
  cases call with
  | load h =>
    unfold Handles.step Handles.written
    dsimp only
    rw [hload]
    exact Function.update_self h (σ.handle h) σ.handle
  | insert h peer =>
    unfold Handles.step Handles.written
    dsimp only
    exact Function.update_self h _ σ.handle
  | remove h gone =>
    unfold Handles.step Handles.written TrustStore.removeSaved
    dsimp only
    rw [Function.update_self]
    split_ifs
    · rfl
    · rfl

open Handles in
omit [PublicKey Key] in
/-- **What a run leaves**: the file holds the store in memory, and the record of a device is that of the last
call on it, if this was an insert. -/
theorem get_run_iff (hjson : json.RoundTrips)
    (hsucceed : AllSucceed json (loaded none .empty) calls) :
    TrustStore.load json (run json (loaded none .empty) calls).file =
        .ok ((run json (loaded none .empty) calls).handle ()) ∧
      ∀ id p, ((run json (loaded none .empty) calls).handle ()).get id = some p ↔
        LastOn id calls (.insert () p) := by
  induction calls using List.reverseRecOn with
  | nil =>
    refine ⟨rfl, fun id p => ?_⟩
    show (TrustStore.empty.get id = some p) ↔ _
    rw [TrustStore.get_empty]
    exact iff_of_false nofun not_lastOn_nil
  | append_singleton calls call ih =>
    have hbefore : AllSucceed json (loaded none .empty) calls := fun before c rest heq =>
      hsucceed before c (rest ++ [call]) (by simp [heq])
    obtain ⟨hload, hget⟩ := ih hbefore
    have hsound := run_sound hjson rfl hbefore
    obtain ⟨-, hwritten⟩ := hsound.step hjson (hsucceed calls call [] (by simp)) hload
    rw [run_concat, handle_step hload]
    refine ⟨hwritten, fun id p => ?_⟩
    rw [get_written, lastOn_concat, hget]

end Runs

open Handles in
/-- **Trust survives a restart.**  After any calls that succeed, from an empty directory on, the store that is
loaded is the one in memory, every record is filed under the id of its key, and a key is trusted iff the last
call on its device inserted a record of this very key. -/
theorem trust_survives_restart [DecidableEq Key] {serde : SerdeJson} (hserde : serde.RoundTrips)
    (calls : List (HandleCall Unit Key)) (hmade : ∀ peer, .insert () peer ∈ calls → peer.Made)
    (hsucceed : AllSucceed serde.trustJson (loaded none .empty) calls) :
    let σ := run serde.trustJson (loaded none .empty) calls
    TrustStore.load serde.trustJson σ.file = .ok (σ.handle ()) ∧
    (∀ id peer, (σ.handle ()).get id = some peer →
      peer.deviceId = id ∧ PublicKey.deviceId peer.publicKey = id) ∧
    ∀ key, (σ.handle ()).isTrusted key = true ↔
      ∃ peer, LastOn (PublicKey.deviceId key) calls (.insert () peer) ∧ peer.publicKey = key := by
  intro σ
  obtain ⟨hload, hget⟩ := get_run_iff (SerdeJson.trustJson_roundTrips hserde) hsucceed
  refine ⟨hload, fun id peer hpeer => ?_, fun key => ?_⟩
  · obtain ⟨before, after, rfl, hdevice, -⟩ := (hget id peer).1 hpeer
    have hid : peer.deviceId = id := Option.some.inj hdevice
    exact ⟨hid, (hmade peer (by simp)).deviceId_eq.symm.trans hid⟩
  · rw [TrustStore.isTrusted_eq_true]
    exact exists_congr fun peer => and_congr_left fun _ => hget _ peer

/-! ### Two keys of one device -/

section

/-- Keys whose ids are the same. -/
local instance twins : PublicKey Bool where
  toBytes key := Vector.replicate 32 (if key then 1 else 0)
  fromBytes bytes := .ok (bytes.toList.any (·.toNat == 1))
  deviceId _ := ⟨7, by decide⟩
  fromBytes_toBytes key := by cases key <;> rfl

/-- A laptop that was paired with, and the same laptop with a new key that another device vouched for. -/
def firstLaptop : PairedPeer Bool := .new true "laptop" "linux-x86_64" 0

def secondLaptop : PairedPeer Bool := .introduced false "laptop" "linux-x86_64" 0 9

/-- How an id is printed: all its bytes but the last one are zero. -/
def idText (indent last : String) : String :=
  let zero := indent ++ "  0,\n"
  "[\n" ++ zero ++ zero ++ zero ++ zero ++ zero ++ zero ++ zero ++ indent ++ "  " ++ last ++ "\n" ++
    indent ++ "]"

/-- How the list of a laptop is printed. -/
def laptopText (key vouched : String) : String :=
  "[\n  \x7b\n    \"device_id\": " ++ idText "    " "7" ++ ",\n    \"public_key\": \"" ++ key ++
    "\",\n    \"name\": \"laptop\",\n    \"platform\": \"linux-x86_64\",\n    \"paired_at\": 0" ++
      vouched ++ "\n  \x7d\n]"

/-- The documents of the two laptops, with their texts. -/
def laptopDocuments : List (Json × Bytes) :=
  [(PairedPeer.format.list.write [firstLaptop], asBytes (laptopText
      "0101010101010101010101010101010101010101010101010101010101010101" "")),
    (PairedPeer.format.list.write [secondLaptop], asBytes (laptopText
      "0000000000000000000000000000000000000000000000000000000000000000"
      (",\n    \"introduced_by\": " ++ idText "    " "9")))]

/-- The serializer on these documents. -/
def laptopSerde : SerdeJson where
  print value :=
    match laptopDocuments.lookup value with
    | some bytes => .ok bytes
    | none => .error "not a sample"
  parse bytes :=
    match laptopDocuments.find? (·.2 = bytes) with
    | some entry => .ok entry.1
    | none => .error "expected value at line 1 column 1"

theorem laptopSerde_roundTrips : laptopSerde.RoundTrips := by
  have hall : ∀ entry ∈ laptopDocuments, laptopSerde.parse entry.2 = .ok entry.1 := by decide +kernel
  intro value bytes h
  unfold laptopSerde at h
  dsimp only at h
  cases hlookup : laptopDocuments.lookup value with
  | none =>
    rw [hlookup] at h
    cases h
  | some found =>
    rw [hlookup] at h
    cases h
    exact hall _ (mem_of_lookup_eq_some hlookup)

/-- The calls that pair with the laptop, load the file, and record the laptop again. -/
def laptopCalls : List (HandleCall Unit Bool) :=
  [.insert () firstLaptop, .load (), .insert () secondLaptop]

open Handles in
/-- The laptop comes back with a new key, and only this one is trusted. -/
theorem trust_survives_restart_laptop :
    let σ := run laptopSerde.trustJson (loaded none .empty) laptopCalls
    TrustStore.load laptopSerde.trustJson σ.file = .ok (σ.handle ()) ∧
      (σ.handle ()).isTrusted false = true ∧ (σ.handle ()).isTrusted true = false := by
  intro σ
  have hmade : ∀ peer, .insert () peer ∈ laptopCalls → peer.Made := by
    intro peer hpeer
    obtain rfl | rfl : peer = firstLaptop ∨ peer = secondLaptop := by simpa [laptopCalls] using hpeer
    · exact ⟨_, _, _, _, Or.inl rfl⟩
    · exact ⟨_, _, _, _, Or.inr ⟨_, rfl⟩⟩
  have hinsert (σ : Handles Unit Bool) (peer : PairedPeer Bool)
      (hresult : ((σ.handle ()).insertSaved laptopSerde.trustJson σ.file peer none).result = .ok ()) :
      Succeeds laptopSerde.trustJson σ (.insert () peer) := hresult
  have hsucceed : AllSucceed laptopSerde.trustJson (loaded none .empty) laptopCalls := by
    refine guarded_cons (hinsert _ _ ?_) (guarded_cons
      ⟨_, @TrustStore.load_of_decode _ _ _ [firstLaptop] ?_⟩ (guarded_cons (hinsert _ _ ?_) guarded_nil))
    all_goals decide +kernel
  obtain ⟨hload, -, htrusted⟩ :=
    trust_survives_restart laptopSerde_roundTrips laptopCalls hmade hsucceed
  have hlast : LastOn 7 laptopCalls (.insert () secondLaptop) :=
    ⟨[.insert () firstLaptop, .load ()], [], rfl, rfl, nofun⟩
  exact ⟨hload, (htrusted false).2 ⟨secondLaptop, hlast, rfl⟩, by decide +kernel⟩

end

end Net

end Latticed
