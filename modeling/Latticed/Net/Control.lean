import Latticed.Engine.Abi
import Latticed.Net.Trust

/-!
# The control plane

Small request/response exchanges between devices, one stream each.
-/

namespace Latticed

namespace Net

open Engine

/-- A GPU as the inference engine reports it. -/
structure GpuDevice where
  name : String
  description : String
  kind : String
  totalMemory : UInt64
  freeMemory : UInt64
  deriving DecidableEq, Repr

/-- What a worker answers about its engine. -/
structure EngineCapabilities where
  revision : String
  device : GpuDevice
  busy : Bool
  deriving DecidableEq, Repr

/-- One device's identity as vouched for by another. -/
structure Introduction where
  publicKey : Bytes32
  name : String
  platform : String
  deriving DecidableEq

/-- What one device asks of another. -/
inductive Request where
  | hello
  | provision (peers : List Introduction)
  | loadShard (spec : ShardSpec)
  | registerWorker (port : UInt16)
  | inferenceInfo
  deriving DecidableEq

/-- The answer to a request. -/
inductive Response where
  | identity (deviceId : DeviceId) (name platform : String)
  | provisioned (added alreadyKnown : ℕ)
  | shardLoaded (weightBytes kvBytes : UInt64)
  | refused (why : String)
  | workerRegistered
  | inferenceInfo (info : EngineCapabilities)
  deriving DecidableEq, Repr

variable {Key : Type} [PublicKey Key]

/-- `Introduction::of`. -/
def Introduction.of (peer : PairedPeer Key) : Introduction where
  publicKey := PublicKey.toBytes peer.publicKey
  name := peer.name
  platform := peer.platform

/-- `Introduction::into_peer`: rejects a key that is not a valid Ed25519 point. -/
def Introduction.intoPeer (i : Introduction) (introducedBy : DeviceId) (now : UInt64) :
    Except NetError (PairedPeer Key) :=
  match PublicKey.fromBytes i.publicKey with
  | .error e => .error (.certificate ("introduced key is unusable: " ++ e))
  | .ok key => .ok (.introduced key i.name i.platform now introducedBy)

end Net

end Latticed
