import Latticed.Rust.Text
import Mathlib.Order.Fin.Basic

/-!
# Device identities and the errors of the network crate

A device is known by its `DeviceId`, the first eight bytes of the SHA-256 of its Ed25519 public
key.  The key type and these two functions are not part of the repository: they are the class
`PublicKey`, and nothing in the development assumes that two keys have different ids.
-/

namespace Latticed

namespace Net

/-- Byte strings. -/
abbrev Bytes := List UInt8

/-- `[u8; 32]`. -/
abbrev Bytes32 := Vector UInt8 32

/-- `DeviceId`: eight bytes, read big-endian, so that the derived order is the order of numbers. -/
abbrev DeviceId := Fin (2 ^ 64)

instance DeviceId.neZero : NeZero (2 ^ 64) := ⟨by decide⟩

instance DeviceId.transCmp : Std.TransCmp (compare : DeviceId → DeviceId → Ordering) :=
  inferInstance

/-- A device id as the user sees it: sixteen hexadecimal digits. -/
def DeviceId.display (id : DeviceId) : String := Rust.hex 16 id.val

/-- `ed25519_dalek::VerifyingKey` and `DeviceId::from_public_key`. -/
class PublicKey (K : Type) where
  /-- `VerifyingKey::to_bytes`. -/
  toBytes : K → Bytes32
  /-- `VerifyingKey::from_bytes`: not every string of 32 bytes is a curve point. -/
  fromBytes : Bytes32 → Except String K
  /-- `DeviceId::from_public_key`. -/
  deviceId : K → DeviceId
  /-- A key read back from its own bytes is that key. -/
  fromBytes_toBytes : ∀ k, fromBytes (toBytes k) = .ok k

/-- The errors of the network crate that the modelled functions return. -/
inductive NetError where
  | io (why : String)
  | trustStore (why : String)
  | malformedPairingCode
  | pairingFailed
  | pairingReflected
  | postcard (why : String)
  | certificate (why : String)
  | rejected
  | stream (why : String)
  | streamHeader (why : String)
  deriving DecidableEq, Repr

/-- The text of an error. -/
def NetError.display : NetError → String
  | io why => "io: " ++ why
  | trustStore why => "trusted-devices file is corrupt: " ++ why
  | malformedPairingCode => "pairing code must be six digits"
  | pairingFailed => "pairing failed: wrong code, or someone is between the two devices"
  | pairingReflected => "pairing message was reflected back at us"
  | postcard why => "codec: " ++ why
  | certificate why => "certificate: " ++ why
  | rejected => "peer refused the connection: it has not paired with this device"
  | stream why => why
  | streamHeader why => "stream header: " ++ why

end Net

end Latticed
