import Latticed.Net.Activation
import Latticed.Net.Control
import Latticed.Rust.Postcard

/-!
# The messages of the protocol, as bytes

The postcard wires of what crosses an activation stream and of control requests.  The variants of an
enumeration are numbered in the order in which the source declares them.
-/

namespace Latticed

open Rust.Postcard

namespace Engine

/-- How a `WireDtype` is written. -/
def WireDtype.wire : Wire WireDtype :=
  .enum (fun | .f16 => 0 | .f32 => 1) (fun _ => [])
    (fun
      | 0, rest => .ok (.f16, rest)
      | 1, rest => .ok (.f32, rest)
      | _, _ => .error serdeDeCustom)
    (fun dtype => by cases dtype <;> simp) (fun dtype rest _ => by cases dtype <;> rfl)

/-- How a `KvDtype` is written. -/
def KvDtype.wire : Wire KvDtype :=
  .enum (fun | .f16 => 0) (fun _ => [])
    (fun
      | 0, rest => .ok (.f16, rest)
      | _, _ => .error serdeDeCustom)
    (fun dtype => by cases dtype; simp) (fun dtype rest _ => by cases dtype; rfl)

/-- How an `Activation` is written. -/
def Activation.wire : Wire Activation :=
  (Wire.u32.pair (Wire.u32.pair (WireDtype.wire.pair Wire.bytes))).map
    (fun a => (a.nTokens, a.hiddenDim, a.dtype, a.data))
    (fun (nTokens, hiddenDim, dtype, data) => { nTokens, hiddenDim, dtype, data }) fun _ => rfl

/-- How an `f32` is written: the four bytes of its bits. -/
def F32.wire : Wire F32 :=
  (Wire.array 4).map (fun x => ⟨(Rust.toLeBytes 4 x.toNat).toArray, by simp⟩)
    (fun v => UInt32.ofNat (Rust.ofLeBytes v.toList)) fun x => by
      simp [Rust.ofLeBytes_toLeBytes (show x.toNat < 256 ^ 4 from x.toNat_lt)]

/-- How a `Vec<u32>` is written. -/
def tokensWire : Wire (List UInt32) :=
  Wire.u32.list fun a => length_writeVarint_pos 4 a.toNat

/-- How a `Vec<f32>` is written. -/
def logitsWire : Wire (List F32) :=
  F32.wire.list fun a => by simp [F32.wire, Wire.map, Wire.array]

/-- How a `Payload` is written. -/
def Payload.wire : Wire Payload :=
  .enum (fun | .tokens _ => 0 | .hidden _ => 1 | .logits _ => 2)
    (fun
      | .tokens ids => tokensWire.write ids
      | .hidden a => Activation.wire.write a
      | .logits values => logitsWire.write values)
    (fun
      | 0, rest => tokensWire.fields .tokens rest
      | 1, rest => Activation.wire.fields .hidden rest
      | 2, rest => logitsWire.fields .logits rest
      | _, _ => .error serdeDeCustom)
    (fun p => by cases p <;> simp) fun p rest h => by
      cases p <;> exact Wire.fields_write _ _ rest h

/-- How a `ShardSpec` is written. -/
def ShardSpec.wire : Wire ShardSpec :=
  (Wire.string.pair (Wire.u32.pair (Wire.u32.pair (Wire.u32.pair
      (KvDtype.wire.pair WireDtype.wire))))).map
    (fun s => (s.modelHash, s.firstLayer, s.lastLayer, s.maxContext, s.kvDtype, s.wireDtype))
    (fun (modelHash, firstLayer, lastLayer, maxContext, kvDtype, wireDtype) =>
      { modelHash, firstLayer, lastLayer, maxContext, kvDtype, wireDtype }) fun _ => rfl

theorem WireDtype.known_wire : WireDtype.wire.Known := by
  refine Wire.known_enum fun n rest => ?_
  match n with
  | 0 => exact .ok _
  | 1 => exact .ok _
  | _ + 2 => exact .of_mem (by decide)

theorem KvDtype.known_wire : KvDtype.wire.Known := by
  refine Wire.known_enum fun n rest => ?_
  match n with
  | 0 => exact .ok _
  | _ + 1 => exact .of_mem (by decide)

theorem ShardSpec.known_wire : ShardSpec.wire.Known :=
  (Wire.known_string.pair (Wire.known_u32.pair (Wire.known_u32.pair (Wire.known_u32.pair
    (KvDtype.known_wire.pair WireDtype.known_wire))))).map _

end Engine

namespace Net

open Engine

/-- How a `Step` is written. -/
def Step.wire : Wire Step :=
  .enum (fun | .prefill .. => 0 | .decode .. => 1 | .done => 2)
    (fun
      | .prefill pos input => (Wire.u32.pair Payload.wire).write (pos, input)
      | .decode pos input => (Wire.u32.pair Payload.wire).write (pos, input)
      | .done => [])
    (fun
      | 0, rest => (Wire.u32.pair Payload.wire).fields (fun (pos, input) => .prefill pos input) rest
      | 1, rest => (Wire.u32.pair Payload.wire).fields (fun (pos, input) => .decode pos input) rest
      | 2, rest => .ok (.done, rest)
      | _, _ => .error serdeDeCustom)
    (fun s => by cases s <;> simp) fun s rest h => by
      cases s with
      | prefill pos input => exact Wire.fields_write _ _ rest h
      | decode pos input => exact Wire.fields_write _ _ rest h
      | done => rfl

/-- How a `StepResult` is written. -/
def StepResult.wire : Wire StepResult :=
  .enum (fun | .output _ => 0 | .failed _ => 1)
    (fun
      | .output p => Payload.wire.write p
      | .failed why => Wire.string.write why)
    (fun
      | 0, rest => Payload.wire.fields .output rest
      | 1, rest => Wire.string.fields .failed rest
      | _, _ => .error serdeDeCustom)
    (fun r => by cases r <;> simp) fun r rest h => by
      cases r <;> exact Wire.fields_write _ _ rest h

/-- `MAX_CONTROL_FRAME`. -/
def maxControlFrame : ℕ := 64 * 2 ^ 10

/-- How an `Introduction` is written. -/
def Introduction.wire : Wire Introduction :=
  ((Wire.array 32).pair (Wire.string.pair Wire.string)).map
    (fun i => (i.publicKey, i.name, i.platform))
    (fun (publicKey, name, platform) => { publicKey, name, platform }) fun _ => rfl

/-- How a `Vec<Introduction>` is written. -/
def introductionsWire : Wire (List Introduction) :=
  Introduction.wire.list fun i => by simp [Introduction.wire, Wire.map, Wire.pair, Wire.array]

theorem introductionsWire_known : introductionsWire.Known :=
  Wire.Known.list (((Wire.known_array 32).pair (Wire.known_string.pair Wire.known_string)).map _) _

/-- How a `Request` is written. -/
def Request.wire : Wire Request :=
  .enum
    (fun
      | .hello => 0
      | .provision _ => 1
      | .loadShard _ => 2
      | .registerWorker _ => 3
      | .inferenceInfo => 4)
    (fun
      | .hello => []
      | .provision peers => introductionsWire.write peers
      | .loadShard spec => ShardSpec.wire.write spec
      | .registerWorker port => Wire.u16.write port
      | .inferenceInfo => [])
    (fun
      | 0, rest => .ok (.hello, rest)
      | 1, rest => introductionsWire.fields .provision rest
      | 2, rest => ShardSpec.wire.fields .loadShard rest
      | 3, rest => Wire.u16.fields .registerWorker rest
      | 4, rest => .ok (.inferenceInfo, rest)
      | _, _ => .error serdeDeCustom)
    (fun r => by cases r <;> simp) fun r rest h => by
      cases r with
      | hello => rfl
      | provision peers => exact Wire.fields_write _ _ rest h
      | loadShard spec => exact Wire.fields_write _ _ rest h
      | registerWorker port => exact Wire.fields_write _ _ rest h
      | inferenceInfo => rfl

/-- **A request that cannot be read fails with an error of `from_bytes`.** -/
theorem Request.known_wire : Request.wire.Known := by
  refine Wire.known_enum fun n rest => ?_
  match n with
  | 0 => exact .ok _
  | 1 => exact introductionsWire_known.fields Request.provision rest
  | 2 => exact ShardSpec.known_wire.fields Request.loadShard rest
  | 3 => exact Wire.known_u16.fields Request.registerWorker rest
  | 4 => exact .ok _
  | _ + 5 => exact .of_mem (by decide)

/-- How a `GpuDevice` is written. -/
def GpuDevice.write (d : GpuDevice) : Bytes :=
  Wire.string.write d.name ++ Wire.string.write d.description ++ Wire.string.write d.kind ++
    Wire.u64.write d.totalMemory ++ Wire.u64.write d.freeMemory

/-- How a `Response` is written.  A `DeviceId` is its eight bytes, highest first. -/
def Response.write : Response → Bytes
  | .identity deviceId name platform =>
    writeVarint 5 0 ++ (Rust.toLeBytes 8 deviceId.val).reverse ++ Wire.string.write name ++
      Wire.string.write platform
  | .provisioned added alreadyKnown =>
    writeVarint 5 1 ++ writeVarint 5 added ++ writeVarint 5 alreadyKnown
  | .shardLoaded weightBytes kvBytes =>
    writeVarint 5 2 ++ Wire.u64.write weightBytes ++ Wire.u64.write kvBytes
  | .refused why => writeVarint 5 3 ++ Wire.string.write why
  | .workerRegistered => writeVarint 5 4
  | .inferenceInfo info =>
    writeVarint 5 5 ++ Wire.string.write info.revision ++ info.device.write ++
      [if info.busy then 1 else 0]

/-- `write_frame` can write the response. -/
def Response.Fits (response : Response) : Prop := response.write.length < 2 ^ 32

/-- A refusal fits unless its words do not. -/
theorem Response.fits_refused {why : String} (h : why.utf8ByteSize ≤ 2 ^ 31) :
    (Response.refused why).Fits := by
  have htag := length_writeVarint_le 5 3
  have hlen := length_writeVarint_le 10 why.utf8ByteSize
  show (writeVarint 5 3 ++ (writeVarint 10 (Rust.asBytes why).length ++ Rust.asBytes why)).length < _
  rw [List.length_append, List.length_append, Rust.length_asBytes why]
  omega

theorem Response.fits_provisioned (added alreadyKnown : ℕ) :
    (Response.provisioned added alreadyKnown).Fits := by
  have htag := length_writeVarint_le 5 1
  have hadded := length_writeVarint_le 5 added
  have hknown := length_writeVarint_le 5 alreadyKnown
  show (writeVarint 5 1 ++ writeVarint 5 added ++ writeVarint 5 alreadyKnown).length < _
  rw [List.length_append, List.length_append]
  omega

theorem Response.fits_shardLoaded (weightBytes kvBytes : UInt64) :
    (Response.shardLoaded weightBytes kvBytes).Fits := by
  have htag := length_writeVarint_le 5 2
  have hweights := length_writeVarint_le 10 weightBytes.toNat
  have hkv := length_writeVarint_le 10 kvBytes.toNat
  show (writeVarint 5 2 ++ writeVarint 10 weightBytes.toNat ++ writeVarint 10 kvBytes.toNat).length
    < _
  rw [List.length_append, List.length_append]
  omega

end Net

end Latticed
