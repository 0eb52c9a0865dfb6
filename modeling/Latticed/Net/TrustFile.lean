import Latticed.Net.Symbolic
import Latticed.LTS.Basic

/-!
# The file of trusted devices

A store is read from `trusted_devices.json`, and every change of it writes the whole file: the store
is changed first, and the file is emptied before it is written.

* `TrustStore.load_save` : what was saved is what is loaded.
* `save_cases` : what a save leaves in the file.
* `atomic_iff` : when a change that fails leaves the store and the file as they were.
-/

namespace Latticed

namespace Net

variable {Key : Type}

/-! ### Reading and writing -/

/-- `serde_json`, on lists of records. -/
structure TrustJson (Key : Type) where
  /-- `to_vec_pretty`. -/
  encode : List (PairedPeer Key) → Except String Bytes
  /-- `from_slice`. -/
  decode : Bytes → Except String (List (PairedPeer Key))

/-- What is written is read back. -/
def TrustJson.RoundTrips (json : TrustJson Key) : Prop :=
  ∀ peers bytes, json.encode peers = .ok bytes → json.decode bytes = .ok peers

/-- A document that was cut off is none: the bracket that closes it comes last. -/
def TrustJson.RefusesCut (json : TrustJson Key) : Prop :=
  ∀ peers bytes k, json.encode peers = .ok bytes → k < bytes.length →
    ∃ why, json.decode (bytes.take k) = .error why

/-- How the file system may fail a save. -/
inductive SaveFault where
  | createDir (why : String)
  | create (why : String)
  /-- Writing stops after this many bytes, if there are more. -/
  | write (written : ℕ) (why : String)
  deriving DecidableEq

/-- What a change comes to: the store, the file, and what the call returns. -/
structure Change (Key α : Type) where
  store : TrustStore Key
  file : Option Bytes
  result : Except NetError α

namespace TrustStore

/-- `self.peers.values()`. -/
def records (s : TrustStore Key) : List (PairedPeer Key) := s.peers.toList.map (·.2)

/-- The store of these records.  Of two records of one device the later one counts. -/
def ofRecords (peers : List (PairedPeer Key)) : TrustStore Key :=
  peers.foldl (fun s p => (s.insert p (.ok ())).1) empty

/-- `load`.  There is no file at first. -/
def load (json : TrustJson Key) : Option Bytes → Except NetError (TrustStore Key)
  | none => .ok empty
  | some bytes => ((json.decode bytes).mapError .trustStore).map ofRecords

/-- `save`.  The file is emptied when it is opened for writing. -/
def save (json : TrustJson Key) (s : TrustStore Key) (file : Option Bytes)
    (fault : Option SaveFault) : Option Bytes × Except NetError Unit :=
  match fault, json.encode s.records with
  | some (.createDir why), _ => (file, .error (.io why))
  | _, .error why => (file, .error (.trustStore why))
  | some (.create why), .ok _ => (file, .error (.io why))
  | some (.write written why), .ok bytes =>
    if written < bytes.length then (some (bytes.take written), .error (.io why))
    else (some bytes, .ok ())
  | none, .ok bytes => (some bytes, .ok ())

/-- `insert`, with the file. -/
def insertSaved (json : TrustJson Key) (s : TrustStore Key) (file : Option Bytes)
    (peer : PairedPeer Key) (fault : Option SaveFault) : Change Key Unit :=
  let saved := save json (s.insert peer (.ok ())).1 file fault
  let (store, result) := s.insert peer saved.2
  { store, file := saved.1, result }

/-- The store without a record for this device. -/
def erase (s : TrustStore Key) (id : DeviceId) : TrustStore Key := ⟨s.peers.erase id⟩

/-- `remove`, with the file. -/
def removeSaved (json : TrustJson Key) (s : TrustStore Key) (file : Option Bytes) (id : DeviceId)
    (fault : Option SaveFault) : Change Key Bool :=
  if (s.get id).isSome then
    let saved := save json (s.erase id) file fault
    { store := s.erase id, file := saved.1, result := saved.2.map fun _ => true }
  else { store := s, file, result := .ok false }

theorem get_erase (s : TrustStore Key) (id id' : DeviceId) :
    (s.erase id).get id' = if id = id' then none else s.get id' := by
  simp [erase, get, Std.ExtTreeMap.getElem?_erase, Std.LawfulEqCmp.compare_eq_iff_eq]

/-! ### What was saved is what is loaded -/

/-- Every record is filed under the id it carries. -/
def Keyed (s : TrustStore Key) : Prop := ∀ id p, s.get id = some p → p.deviceId = id

variable {s : TrustStore Key} {json : TrustJson Key}

theorem Keyed.insert (h : s.Keyed) (p : PairedPeer Key) (r : Except NetError Unit) :
    (s.insert p r).1.Keyed := by
  intro id q hget
  rw [get_insert] at hget
  split_ifs at hget with hid
  · cases hget
    exact hid
  · exact h id q hget

theorem Keyed.erase (h : s.Keyed) (id : DeviceId) : (s.erase id).Keyed := by
  intro id' q hget
  rw [get_erase] at hget
  split_ifs at hget
  exact h id' q hget

theorem keyed_empty : (empty : TrustStore Key).Keyed := by
  intro id p hget
  rw [get_empty] at hget
  cases hget

theorem foldl_keyed (peers : List (PairedPeer Key)) (h : s.Keyed) :
    (peers.foldl (fun s p => (s.insert p (.ok ())).1) s).Keyed :=
  foldl_mono (P := Keyed) (fun _ p h => h.insert p _) peers h

theorem load_keyed {file : Option Bytes} (h : load json file = .ok s) : s.Keyed := by
  cases file with
  | none =>
    cases h
    exact keyed_empty
  | some bytes =>
    obtain ⟨peers, -, rfl⟩ := Rust.map_eq_ok.1 h
    exact foldl_keyed peers keyed_empty

theorem get_foldl_of_ne {peers : List (PairedPeer Key)} {id : DeviceId}
    (h : ∀ p ∈ peers, p.deviceId ≠ id) :
    (peers.foldl (fun s p => (s.insert p (.ok ())).1) s).get id = s.get id := by
  induction peers generalizing s with
  | nil => rfl
  | cons p rest ih =>
    rw [List.foldl_cons, ih fun q hq => h q (List.mem_cons_of_mem _ hq),
      get_insert_of_ne (h p List.mem_cons_self)]

theorem get_foldl_of_mem {peers : List (PairedPeer Key)} {p : PairedPeer Key} (hp : p ∈ peers)
    (h : peers.Pairwise fun p q => p.deviceId ≠ q.deviceId) :
    (peers.foldl (fun s p => (s.insert p (.ok ())).1) s).get p.deviceId = some p := by
  induction peers generalizing s with
  | nil => cases hp
  | cons q rest ih =>
    obtain ⟨hq, hrest⟩ := List.pairwise_cons.1 h
    rcases List.mem_cons.1 hp with rfl | hp
    · rw [List.foldl_cons, get_foldl_of_ne fun q' hmem heq => hq q' hmem heq.symm,
        get_insert_self]
    · exact ih hp hrest

theorem mem_records {p : PairedPeer Key} (h : s.Keyed) :
    p ∈ s.records ↔ s.get p.deviceId = some p := by
  unfold records
  rw [List.mem_map]
  constructor
  · rintro ⟨⟨id, q⟩, hmem, rfl⟩
    have hget : s.get id = some q := Std.ExtTreeMap.mem_toList_iff_getElem?_eq_some.1 hmem
    rw [h id q hget]
    exact hget
  · exact fun hget => ⟨(p.deviceId, p), Std.ExtTreeMap.mem_toList_iff_getElem?_eq_some.2 hget, rfl⟩

theorem records_pairwise (h : s.Keyed) :
    s.records.Pairwise fun p q => p.deviceId ≠ q.deviceId := by
  unfold records
  rw [List.pairwise_map]
  refine s.peers.distinct_keys_toList.imp_of_mem ?_
  rintro ⟨id, p⟩ ⟨id', q⟩ hp hq hne heq
  have hid := h id p (Std.ExtTreeMap.mem_toList_iff_getElem?_eq_some.1 hp)
  have hid' := h id' q (Std.ExtTreeMap.mem_toList_iff_getElem?_eq_some.1 hq)
  refine hne (Std.LawfulEqCmp.compare_eq_iff_eq.2 ?_)
  exact hid.symm.trans (heq.trans hid')

theorem ofRecords_records (h : s.Keyed) : ofRecords s.records = s := by
  ext1 id
  unfold ofRecords
  cases hget : s.get id with
  | some p =>
    obtain rfl := h id p hget
    exact get_foldl_of_mem ((mem_records h).2 hget) (records_pairwise h)
  | none =>
    refine (get_foldl_of_ne ?_).trans (get_empty id)
    rintro p hp rfl
    rw [(mem_records h).1 hp] at hget
    cases hget

/-- A file that decodes is loaded. -/
theorem load_of_decode {file : Option Bytes} {peers : List (PairedPeer Key)}
    (h : file.map json.decode = some (.ok peers)) : load json file = .ok (ofRecords peers) := by
  obtain ⟨bytes, rfl, hdecode⟩ := Option.map_eq_some_iff.1 h
  show ((json.decode bytes).mapError NetError.trustStore).map ofRecords = _
  rw [hdecode]
  rfl

/-- **What was saved is what is loaded.** -/
theorem load_save (hjson : json.RoundTrips) (h : s.Keyed) {bytes : Bytes}
    (hbytes : json.encode s.records = .ok bytes) : load json (some bytes) = .ok s := by
  have hdecode : (some bytes).map json.decode = some (.ok s.records) :=
    congrArg some (hjson _ _ hbytes)
  rw [load_of_decode hdecode, ofRecords_records h]

/-- A save that is not disturbed and succeeds writes the records. -/
theorem save_ok {file : Option Bytes} (h : (save json s file none).2 = .ok ()) :
    ∃ bytes, json.encode s.records = .ok bytes ∧ (save json s file none).1 = some bytes := by
  unfold save at h ⊢
  cases hbytes : json.encode s.records with
  | error why =>
    rw [hbytes] at h
    cases h
  | ok bytes => exact ⟨bytes, rfl, rfl⟩

/-- **A store that was saved is loaded.** -/
theorem load_saved (hjson : json.RoundTrips) (h : s.Keyed) {file : Option Bytes}
    (hsaved : (save json s file none).2 = .ok ()) : load json (save json s file none).1 = .ok s := by
  obtain ⟨bytes, hbytes, hfile⟩ := save_ok hsaved
  rw [hfile]
  exact load_save hjson h hbytes

end TrustStore

/-! ### Changes that fail -/

section Atomic

variable [PublicKey Key] [DecidableEq Key] {json : TrustJson Key}

/-- A change that fails leaves the store and the file as they were. -/
def Atomic {α : Type} (json : TrustJson Key) (s : TrustStore Key) (change : Change Key α) : Prop :=
  ∀ e, change.result = .error e →
    (∀ id, change.store.get id = s.get id) ∧
      (∀ key, change.store.isTrusted key = s.isTrusted key) ∧
      TrustStore.load json change.file = .ok s

/-- The records can be printed, and the file system takes all of what is printed. -/
def Saves (json : TrustJson Key) (s : TrustStore Key) (fault : Option SaveFault) : Prop :=
  ∃ bytes, json.encode s.records = .ok bytes ∧
    ∀ f, fault = some f → ∃ written why, f = .write written why ∧ bytes.length ≤ written

/-- The save fails before the file is opened. -/
def Unopened (json : TrustJson Key) (s : TrustStore Key) (fault : Option SaveFault) : Prop :=
  (∃ why, fault = some (.createDir why)) ∨ (∃ why, fault = some (.create why)) ∨
    ∃ why, json.encode s.records = .error why

omit [PublicKey Key] [DecidableEq Key] in
/-- **What a save does**: it succeeds, it fails with the file untouched, or it leaves a part of what it was
to write. -/
theorem save_cases (json : TrustJson Key) (s : TrustStore Key) (file : Option Bytes)
    (fault : Option SaveFault) :
    (Saves json s fault ∧ (TrustStore.save json s file fault).2 = .ok ()) ∨
      (¬ Saves json s fault ∧ (∃ e, (TrustStore.save json s file fault).2 = .error e) ∧
        ((Unopened json s fault ∧ (TrustStore.save json s file fault).1 = file) ∨
          (¬ Unopened json s fault ∧ ∃ bytes k, json.encode s.records = .ok bytes ∧
            k < bytes.length ∧ (TrustStore.save json s file fault).1 = some (bytes.take k)))) := by
  unfold TrustStore.save Saves Unopened
  cases hbytes : json.encode s.records with
  | error why =>
    have hnot : ¬ ∃ bytes, (Except.error why : Except String Bytes) = .ok bytes ∧
        ∀ f, fault = some f → ∃ written why, f = .write written why ∧ bytes.length ≤ written := by
      rintro ⟨bytes, h, -⟩
      cases h
    refine Or.inr ⟨hnot, ?_⟩
    obtain _ | _ | _ | _ := fault
    · exact ⟨⟨_, rfl⟩, Or.inl ⟨Or.inr (Or.inr ⟨_, rfl⟩), rfl⟩⟩
    · exact ⟨⟨_, rfl⟩, Or.inl ⟨Or.inr (Or.inr ⟨_, rfl⟩), rfl⟩⟩
    · exact ⟨⟨_, rfl⟩, Or.inl ⟨Or.inr (Or.inr ⟨_, rfl⟩), rfl⟩⟩
    · exact ⟨⟨_, rfl⟩, Or.inl ⟨Or.inr (Or.inr ⟨_, rfl⟩), rfl⟩⟩
  | ok bytes =>
    cases fault with
    | none => exact Or.inl ⟨⟨bytes, rfl, fun f h => (by cases h)⟩, rfl⟩
    | some f =>
      cases f with
      | createDir why =>
        refine Or.inr ⟨?_, ⟨_, rfl⟩, Or.inl ⟨Or.inl ⟨_, rfl⟩, rfl⟩⟩
        rintro ⟨_, -, h⟩
        obtain ⟨written, why', hf, -⟩ := h _ rfl
        cases hf
      | create why =>
        refine Or.inr ⟨?_, ⟨_, rfl⟩, Or.inl ⟨Or.inr (Or.inl ⟨_, rfl⟩), rfl⟩⟩
        rintro ⟨_, -, h⟩
        obtain ⟨written, why', hf, -⟩ := h _ rfl
        cases hf
      | write written why =>
        dsimp only
        -- a write that is not short has written everything, and the save is one that succeeds
        split_ifs with hshort
        · refine Or.inr ⟨?_, ⟨_, rfl⟩, Or.inr ⟨?_, bytes, written, rfl, hshort, rfl⟩⟩
          · rintro ⟨bytes', heq, h⟩
            obtain ⟨written', why', hf, hlen⟩ := h _ rfl
            cases heq
            cases hf
            omega
          · rintro (⟨_, h⟩ | ⟨_, h⟩ | ⟨_, h⟩) <;> cases h
        · refine Or.inl ⟨⟨bytes, rfl, fun f h => ?_⟩, rfl⟩
          cases h
          exact ⟨written, why, rfl, by omega⟩

/-- **When an insert is atomic.** -/
theorem insert_atomic_iff (hjson : json.RefusesCut) (s : TrustStore Key) (file : Option Bytes)
    (peer : PairedPeer Key) (fault : Option SaveFault) :
    Atomic json s (s.insertSaved json file peer fault) ↔
      Saves json (s.insert peer (.ok ())).1 fault ∨
        (s.get peer.deviceId = some peer ∧ TrustStore.load json file = .ok s ∧
          Unopened json (s.insert peer (.ok ())).1 fault) := by
  have hresult : (s.insertSaved json file peer fault).result =
      (TrustStore.save json (s.insert peer (.ok ())).1 file fault).2 := rfl
  have hfile : (s.insertSaved json file peer fault).file =
      (TrustStore.save json (s.insert peer (.ok ())).1 file fault).1 := rfl
  have hstore (id : DeviceId) : (s.insertSaved json file peer fault).store.get id =
      if peer.deviceId = id then some peer else s.get id :=
    TrustStore.get_insert s peer (.ok ()) id
  rcases save_cases json (s.insert peer (.ok ())).1 file fault with
    ⟨hsaves, hok⟩ | ⟨hnot, ⟨e, he⟩, hsaved⟩
  · refine ⟨fun _ => Or.inl hsaves, fun _ e he => ?_⟩
    rw [hresult, hok] at he
    cases he
  · constructor
    · intro hatomic
      obtain ⟨hget, -, hload⟩ := hatomic e (hresult.trans he)
      have hpeer := hget peer.deviceId
      rw [hstore, if_pos rfl] at hpeer
      rw [hfile] at hload
      rcases hsaved with ⟨hunopened, hsame⟩ | ⟨-, bytes, k, hbytes, hk, hcut⟩
      · rw [hsame] at hload
        exact Or.inr ⟨hpeer.symm, hload, hunopened⟩
      · -- the file was cut off, so it does not load
        obtain ⟨why, hwhy⟩ := hjson _ bytes k hbytes hk
        rw [hcut] at hload
        change ((json.decode (bytes.take k)).mapError NetError.trustStore).map _ = _ at hload
        rw [hwhy] at hload
        cases hload
    · rintro (hsaves | ⟨hpeer, hload, hunopened⟩)
      · exact absurd hsaves hnot
      · have hget (id : DeviceId) :
            (s.insertSaved json file peer fault).store.get id = s.get id := by
          rw [hstore]
          split_ifs with hid
          · rw [← hid, hpeer]
          · rfl
        -- the record was there already, so the store is as it was
        have hsame : (s.insertSaved json file peer fault).store = s := TrustStore.ext_get hget
        rcases hsaved with ⟨-, hkept⟩ | ⟨hopened, -⟩
        · intro e' _
          refine ⟨hget, fun key => by rw [hsame], ?_⟩
          rw [hfile, hkept]
          exact hload
        · exact absurd hunopened hopened

/-- **When a removal is atomic.** -/
theorem remove_atomic_iff (s : TrustStore Key) (file : Option Bytes) (id : DeviceId)
    (fault : Option SaveFault) :
    Atomic json s (s.removeSaved json file id fault) ↔
      s.get id = none ∨ Saves json (s.erase id) fault := by
  unfold TrustStore.removeSaved
  cases hheld : s.get id with
  | none => exact ⟨fun _ => Or.inl rfl, fun _ e he => (by cases he)⟩
  | some peer =>
    have hsome : (some peer).isSome = true := rfl
    rw [if_pos hsome]
    rcases save_cases json (s.erase id) file fault with
      ⟨hsaves, hok⟩ | ⟨hnot, ⟨e, he⟩, -⟩
    · refine ⟨fun _ => Or.inr hsaves, fun _ e he => ?_⟩
      dsimp only at he
      rw [hok] at he
      cases he
    · constructor
      · intro hatomic
        have hfails : ((TrustStore.save json (s.erase id) file fault).2.map fun _ => true) =
            .error e := by
          rw [he]
          rfl
        have hget := (hatomic e hfails).1 id
        rw [TrustStore.get_erase, if_pos rfl, hheld] at hget
        cases hget
      · rintro (hnone | hsaves)
        · cases hnone
        · exact absurd hsaves hnot

/-- **When a change that fails leaves everything as it was**: when its save succeeds after all, when there
is nothing to remove, or when the record that is inserted was there already, the file held the store, and
the save fails before it opens the file. -/
theorem atomic_iff (hjson : json.RefusesCut) (s : TrustStore Key) (file : Option Bytes)
    (fault : Option SaveFault) :
    (∀ peer, Atomic json s (s.insertSaved json file peer fault) ↔
      Saves json (s.insert peer (.ok ())).1 fault ∨
        (s.get peer.deviceId = some peer ∧ TrustStore.load json file = .ok s ∧
          Unopened json (s.insert peer (.ok ())).1 fault)) ∧
      ∀ id, Atomic json s (s.removeSaved json file id fault) ↔
        s.get id = none ∨ Saves json (s.erase id) fault :=
  ⟨fun peer => insert_atomic_iff hjson s file peer fault,
    fun id => remove_atomic_iff s file id fault⟩

end Atomic

/-! ### Two devices -/

/-- The records of two devices that were paired with directly. -/
def laptop : PairedPeer UInt8 := .new 1 "laptop" "linux-x86_64" 0

def tablet : PairedPeer UInt8 := .new 2 "tablet" "linux-x86_64" 0

/-- How a record is printed; `id` and `key` are the last byte of the device id and the bytes of the
key. -/
def recordText (id key name : String) : String :=
  "  \x7b\n    \"device_id\": [\n      0,\n      0,\n      0,\n      0,\n      0,\n      0,\n      0,\n      " ++
    id ++ "\n    ],\n    \"public_key\": \"" ++ key ++ "\",\n    \"name\": \"" ++ name ++
    "\",\n    \"platform\": \"linux-x86_64\",\n    \"paired_at\": 0\n  \x7d"

/-- The documents with none of the two devices, with the first, and with both. -/
def sampleTexts : List (List (PairedPeer UInt8) × Bytes) :=
  let first := recordText "1" "0101010101010101010101010101010101010101010101010101010101010101"
    "laptop"
  let second := recordText "2" "0202020202020202020202020202020202020202020202020202020202020202"
    "tablet"
  [([], Rust.asBytes "[]"), ([laptop], Rust.asBytes ("[\n" ++ first ++ "\n]")),
    ([laptop, tablet], Rust.asBytes ("[\n" ++ first ++ ",\n" ++ second ++ "\n]"))]

/-- The serializer on these documents. -/
def sampleJson : TrustJson UInt8 where
  encode peers :=
    match sampleTexts.lookup peers with
    | some bytes => .ok bytes
    | none => .error "not a sample"
  decode bytes :=
    match sampleTexts.find? (·.2 = bytes) with
    | some entry => .ok entry.1
    | none => .error "expected value at line 1 column 1"

theorem encode_sampleJson {peers : List (PairedPeer UInt8)} {bytes : Bytes}
    (h : sampleJson.encode peers = .ok bytes) : (peers, bytes) ∈ sampleTexts := by
  unfold sampleJson at h
  dsimp only at h
  cases hlookup : sampleTexts.lookup peers with
  | none =>
    rw [hlookup] at h
    cases h
  | some found =>
    rw [hlookup] at h
    cases h
    obtain ⟨before, after, heq, -⟩ := List.lookup_eq_some_iff.1 hlookup
    rw [heq]
    simp

theorem sampleJson_roundTrips : sampleJson.RoundTrips := by
  have hall : ∀ entry ∈ sampleTexts, sampleJson.decode entry.2 = .ok entry.1 := by decide +kernel
  exact fun peers bytes h => hall _ (encode_sampleJson h)

theorem sampleJson_refusesCut : sampleJson.RefusesCut := by
  -- none of the documents begins another one
  have hall : ∀ entry ∈ sampleTexts, ∀ other ∈ sampleTexts,
      other.2.length < entry.2.length → entry.2.take other.2.length ≠ other.2 := by
    decide +kernel
  intro peers bytes k h hk
  unfold sampleJson
  dsimp only
  cases hfind : sampleTexts.find? (·.2 = bytes.take k) with
  | none => exact ⟨_, rfl⟩
  | some other =>
    have hmem := List.mem_of_find?_eq_some hfind
    have heq : other.2 = bytes.take k := by simpa using List.find?_some hfind
    have hlen : other.2.length = k := by
      rw [heq, List.length_take]
      omega
    refine absurd ?_ (hall _ (encode_sampleJson h) other hmem (by rw [hlen]; exact hk))
    rw [hlen]
    exact heq.symm

/-- The laptop is paired with again, and the file cannot be opened. -/
theorem insert_again_atomic :
    let known : TrustStore UInt8 := (TrustStore.empty.insert laptop (.ok ())).1
    let file := sampleTexts.lookup [laptop]
    Atomic sampleJson known
      (known.insertSaved sampleJson file laptop (some (.create "Permission denied"))) := by
  intro known file
  have hdecode : file.map sampleJson.decode = some (.ok [laptop]) := by decide +kernel
  have hload : TrustStore.load sampleJson file = .ok known := TrustStore.load_of_decode hdecode
  have hunopened : Unopened sampleJson (known.insert laptop (.ok ())).1
      (some (.create "Permission denied")) := Or.inr (Or.inl ⟨_, rfl⟩)
  exact ((atomic_iff sampleJson_refusesCut known file _).1 laptop).2
    (Or.inr ⟨TrustStore.get_insert_self _ _ _, hload, hunopened⟩)

/-- **A device whose record could not be saved is trusted**, and a write that stops leaves a file that does
not load. -/
theorem failed_insert_trusted :
    (∃ e, (TrustStore.empty.insertSaved sampleJson none laptop
        (some (.createDir "Permission denied"))).result = .error e) ∧
      (TrustStore.empty.insertSaved sampleJson none laptop
        (some (.createDir "Permission denied"))).store.isTrusted 1 = true ∧
      TrustStore.empty.isTrusted (1 : UInt8) = false ∧
      ∃ e, TrustStore.load sampleJson (TrustStore.empty.insertSaved sampleJson none laptop
        (some (.write 1 "No space left on device"))).file = .error e := by
  have hdecode : ((TrustStore.empty.insertSaved sampleJson none laptop
      (some (.write 1 "No space left on device"))).file.map sampleJson.decode) =
        some (.error "expected value at line 1 column 1") := by
    decide +kernel
  obtain ⟨bytes, hbytes, hfails⟩ := Option.map_eq_some_iff.1 hdecode
  refine ⟨⟨_, rfl⟩, by decide, by decide, .trustStore "expected value at line 1 column 1", ?_⟩
  · rw [hbytes]
    show ((sampleJson.decode bytes).mapError NetError.trustStore).map _ = _
    rw [hfails]
    rfl

end Net

end Latticed
