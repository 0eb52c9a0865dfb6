import Latticed.Net.Identity

/-!
# The set of devices this one has paired with

A `TrustStore` maps device ids to records.  `insert` changes the map first and saves the file
afterwards, so a failing save is reported while the record stays in memory: the outcome of the
save is an argument of the operations.
-/

namespace Latticed

namespace Net

/-- What is remembered about a trusted device. -/
structure PairedPeer (Key : Type) where
  deviceId : DeviceId
  publicKey : Key
  name : String
  platform : String
  pairedAt : UInt64
  /-- Which device vouched for this one, if the user did not pair with it directly. -/
  introducedBy : Option DeviceId
  deriving DecidableEq, Repr

variable {Key : Type}

namespace PairedPeer

variable [PublicKey Key]

/-- Paired directly by the user, over a code; `now` is the clock. -/
def new (publicKey : Key) (name platform : String) (now : UInt64) : PairedPeer Key where
  deviceId := PublicKey.deviceId publicKey
  publicKey := publicKey
  name := name
  platform := platform
  pairedAt := now
  introducedBy := none

/-- Vouched for by a device the user already paired with. -/
def introduced (publicKey : Key) (name platform : String) (now : UInt64) (by_ : DeviceId) :
    PairedPeer Key :=
  { new publicKey name platform now with introducedBy := some by_ }

@[simp] theorem new_deviceId (k : Key) (n p : String) (t : UInt64) :
    (new k n p t).deviceId = PublicKey.deviceId k := rfl

@[simp] theorem new_introducedBy (k : Key) (n p : String) (t : UInt64) :
    (new k n p t).introducedBy = none := rfl

@[simp] theorem introduced_deviceId (k : Key) (n p : String) (t : UInt64) (v : DeviceId) :
    (introduced k n p t v).deviceId = PublicKey.deviceId k := rfl

@[simp] theorem introduced_introducedBy (k : Key) (n p : String) (t : UInt64) (v : DeviceId) :
    (introduced k n p t v).introducedBy = some v := rfl

end PairedPeer

/-- The trusted devices, in the order of their ids. -/
structure TrustStore (Key : Type) where
  peers : Std.ExtTreeMap DeviceId (PairedPeer Key)

namespace TrustStore

/-- The store of a device that has paired with nobody. -/
def empty : TrustStore Key := ⟨∅⟩

/-- `get`. -/
def get (s : TrustStore Key) (id : DeviceId) : Option (PairedPeer Key) := s.peers[id]?

/-- `insert`.  Re-pairing a known device replaces its record. -/
def insert (s : TrustStore Key) (peer : PairedPeer Key) (save : Except NetError Unit) :
    TrustStore Key × Except NetError Unit :=
  (⟨s.peers.insert peer.deviceId peer⟩, save)

/-- `is_trusted`. -/
def isTrusted [PublicKey Key] [DecidableEq Key] (s : TrustStore Key) (key : Key) : Bool :=
  (s.get (PublicKey.deviceId key)).any fun p => p.publicKey = key

@[simp] theorem get_empty (id : DeviceId) : (empty : TrustStore Key).get id = none := by
  simp [empty, get]

@[simp] theorem insert_snd (s : TrustStore Key) (p : PairedPeer Key) (r : Except NetError Unit) :
    (s.insert p r).2 = r := rfl

theorem get_insert (s : TrustStore Key) (p : PairedPeer Key) (r : Except NetError Unit)
    (id : DeviceId) : (s.insert p r).1.get id = if p.deviceId = id then some p else s.get id := by
  simp [insert, get, Std.ExtTreeMap.getElem?_insert, Std.LawfulEqCmp.compare_eq_iff_eq]

@[simp] theorem get_insert_self (s : TrustStore Key) (p : PairedPeer Key)
    (r : Except NetError Unit) : (s.insert p r).1.get p.deviceId = some p := by
  rw [get_insert, if_pos rfl]

theorem get_insert_of_ne {s : TrustStore Key} {p : PairedPeer Key} {r : Except NetError Unit}
    {id : DeviceId} (h : p.deviceId ≠ id) : (s.insert p r).1.get id = s.get id := by
  rw [get_insert, if_neg h]

/-- A key is trusted iff it is the one on record for its device. -/
theorem isTrusted_eq_true [PublicKey Key] [DecidableEq Key] {s : TrustStore Key} {key : Key} :
    s.isTrusted key = true ↔ ∃ p, s.get (PublicKey.deviceId key) = some p ∧ p.publicKey = key := by
  rw [isTrusted, Option.any_eq_true]
  simp only [decide_eq_true_eq]

/-- Stores with the same records are the same. -/
@[ext] theorem ext_get {s t : TrustStore Key} (h : ∀ id, s.get id = t.get id) : s = t := by
  cases s
  cases t
  exact congrArg mk (Std.ExtTreeMap.ext_getElem? h)

end TrustStore

end Net

end Latticed
