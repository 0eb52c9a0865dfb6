import Latticed.Net.Codec
import Latticed.Net.Wire

/-!
# Responses, read back

What a device answers to a control request, as the one that asked reads it.

* `Response.read_write` : a response that was written is read back, and the bytes after it stay.
* `received_frame` : what `control::request` makes of the frame that it is answered with.
-/

namespace Latticed

namespace Net

open Rust Rust.Postcard

/-- `Error::DeserializeBadBool`. -/
def badBool : String := "Found a bool that wasn't 0 or 1"

/-- How a `bool` is written. -/
def boolWire : Wire Bool where
  write b := [if b then 1 else 0]
  read
    | [] => .error unexpectedEnd
    | b :: rest => if b = 0 then .ok (false, rest) else if b = 1 then .ok (true, rest) else .error badBool
  read_write b rest _ := by cases b <;> rfl

/-- Eight bytes make an id. -/
theorem ofLeBytes_id (v : Vector UInt8 8) : ofLeBytes v.toList.reverse < 2 ^ 64 := by
  have hlt := ofLeBytes_lt v.toList.reverse
  rw [List.length_reverse, Vector.length_toList] at hlt
  exact hlt

theorem size_idBytes (id : DeviceId) : (toLeBytes 8 id.val).reverse.toArray.size = 8 := by
  rw [List.size_toArray, List.length_reverse, length_toLeBytes]

/-- The eight bytes of an id, highest first. -/
def idBytes (id : DeviceId) : Vector UInt8 8 := ⟨(toLeBytes 8 id.val).reverse.toArray, size_idBytes id⟩

theorem ofLeBytes_idBytes (id : DeviceId) :
    (⟨ofLeBytes (idBytes id).toList.reverse, ofLeBytes_id _⟩ : DeviceId) = id := by
  have hlt : id.val < 256 ^ 8 := id.isLt
  apply Fin.ext
  show ofLeBytes (toLeBytes 8 id.val).reverse.reverse = id.val
  rw [List.reverse_reverse, ofLeBytes_toLeBytes hlt]

/-- How a `DeviceId` is written. -/
def deviceIdWire : Wire DeviceId :=
  (Wire.array 8).map idBytes (fun v => ⟨ofLeBytes v.toList.reverse, ofLeBytes_id v⟩) ofLeBytes_idBytes

/-- How a `GpuDevice` is written. -/
def GpuDevice.wire : Wire GpuDevice :=
  (Wire.string.pair (Wire.string.pair (Wire.string.pair (Wire.u64.pair Wire.u64)))).map
    (fun d => (d.name, d.description, d.kind, d.totalMemory, d.freeMemory))
    (fun (name, description, kind, totalMemory, freeMemory) =>
      { name, description, kind, totalMemory, freeMemory }) fun _ => rfl

/-- How an `EngineCapabilities` is written. -/
def EngineCapabilities.wire : Wire EngineCapabilities :=
  (Wire.string.pair (GpuDevice.wire.pair boolWire)).map (fun c => (c.revision, c.device, c.busy))
    (fun (revision, device, busy) => { revision, device, busy }) fun _ => rfl

/-- Reads the fields of a variant of `Response`. -/
def Response.readFields : ℕ → Bytes → Except String (Response × Bytes)
  | 0 => (deviceIdWire.pair (Wire.string.pair Wire.string)).fields
      fun (id, name, platform) => .identity id name platform
  | 1 => (Wire.u32.pair Wire.u32).fields
      fun (added, alreadyKnown) => .provisioned added.toNat alreadyKnown.toNat
  | 2 => (Wire.u64.pair Wire.u64).fields fun (weightBytes, kvBytes) => .shardLoaded weightBytes kvBytes
  | 3 => Wire.string.fields .refused
  | 4 => fun rest => .ok (.workerRegistered, rest)
  | 5 => EngineCapabilities.wire.fields .inferenceInfo
  | _ => fun _ => .error serdeDeCustom

/-- Reads a `Response`. -/
def Response.read (bytes : Bytes) : Except String (Response × Bytes) :=
  (readBounded 5 32 bytes).bind fun (n, rest) => Response.readFields n rest

/-- The counts are `u32`s. -/
def Response.Counted : Response → Prop
  | .provisioned added alreadyKnown => added < 2 ^ 32 ∧ alreadyKnown < 2 ^ 32
  | _ => True

/-- A variant is read as its fields. -/
theorem Response.read_variant {α : Type} (w : Wire α) (n : ℕ) (make : α → Response) (a : α)
    (hn : n < 2 ^ 32) (hfields : Response.readFields n = w.fields make) {response : Response}
    (hmake : make a = response) (hwrite : response.write = writeVarint 5 n ++ w.write a)
    (hlen : response.write.length < 2 ^ 64) (rest : Bytes) :
    Response.read (response.write ++ rest) = .ok (response, rest) := by
  rw [hwrite, List.length_append] at hlen
  rw [hwrite, List.append_assoc, read, readBounded_writeVarint (by decide) hn]
  show readFields n (w.write a ++ rest) = _
  rw [hfields, Wire.fields_write w make rest (by omega), hmake]

/-- **A response that was written is read back**, and the bytes after it stay. -/
theorem Response.read_write {response : Response} (hcounted : response.Counted)
    (hlen : response.write.length < 2 ^ 64) (rest : Bytes) :
    Response.read (response.write ++ rest) = .ok (response, rest) := by
  cases response with
  | identity id name platform =>
    refine read_variant (deviceIdWire.pair (Wire.string.pair Wire.string)) 0
      (fun (id, name, platform) => .identity id name platform) (id, name, platform) (by decide) rfl rfl
      ?_ hlen rest
    simp [write, Wire.pair, deviceIdWire, idBytes, Wire.map, Wire.array]
  | provisioned added alreadyKnown =>
    obtain ⟨hadded, hknown⟩ := hcounted
    have h₁ : (UInt32.ofNat added).toNat = added := UInt32.toNat_ofNat_of_lt' hadded
    have h₂ : (UInt32.ofNat alreadyKnown).toNat = alreadyKnown := UInt32.toNat_ofNat_of_lt' hknown
    refine read_variant (Wire.u32.pair Wire.u32) 1
      (fun (added, alreadyKnown) => .provisioned added.toNat alreadyKnown.toNat)
      (UInt32.ofNat added, UInt32.ofNat alreadyKnown) (by decide) rfl ?_ ?_ hlen rest
    · show provisioned (UInt32.ofNat added).toNat (UInt32.ofNat alreadyKnown).toNat = _
      rw [h₁, h₂]
    · show _ = writeVarint 5 1 ++ (writeVarint 5 (UInt32.ofNat added).toNat ++
        writeVarint 5 (UInt32.ofNat alreadyKnown).toNat)
      rw [h₁, h₂, ← List.append_assoc]
      rfl
  | shardLoaded weightBytes kvBytes =>
    refine read_variant (Wire.u64.pair Wire.u64) 2
      (fun (weightBytes, kvBytes) => .shardLoaded weightBytes kvBytes) (weightBytes, kvBytes) (by decide)
      rfl rfl ?_ hlen rest
    simp [write, Wire.pair]
  | refused why => exact read_variant Wire.string 3 .refused why (by decide) rfl rfl rfl hlen rest
  | workerRegistered => rfl
  | inferenceInfo info =>
    refine read_variant EngineCapabilities.wire 5 .inferenceInfo info (by decide) rfl rfl ?_ hlen rest
    simp [write, EngineCapabilities.wire, GpuDevice.wire, GpuDevice.write, Wire.map, Wire.pair, boolWire]

/-- `postcard::from_bytes`. -/
def Response.decode (bytes : Bytes) : Except String Response := (Response.read bytes).map Prod.fst

theorem Response.decode_write {response : Response} (hcounted : response.Counted)
    (hlen : response.write.length < 2 ^ 64) : Response.decode response.write = .ok response := by
  have hread := Response.read_write hcounted hlen []
  rw [List.append_nil] at hread
  rw [decode, hread]
  rfl

/-- `control::request`: what it makes of what arrives. -/
def received (r : Recv) : Except NetError Response :=
  match readFrame r maxControlFrame with
  | .error e => .error e
  | .ok (bytes, _) => (Response.decode bytes).mapError .postcard

/-- A frame above the ceiling is refused. -/
theorem readFrame_of_gt {payload frame more : Bytes} {r : Recv} {max : ℕ}
    (hframe : writeFrame payload = .ok frame) (hmax : max < payload.length)
    (h : r.bytes = frame ++ more) :
    readFrame r max = .error (.stream ("peer announced a " ++ toString payload.length ++
      " byte frame, ceiling is " ++ toString max)) := by
  unfold writeFrame at hframe
  split_ifs at hframe with hlt
  obtain rfl := Except.ok.inj hframe
  rw [List.append_assoc] at h
  obtain ⟨r', hheader, -, -⟩ := Recv.readExact_append h
  rw [length_toLeBytes] at hheader
  have hlen : ofLeBytes (toLeBytes 4 payload.length) = payload.length :=
    ofLeBytes_toLeBytes (show payload.length < 256 ^ 4 from hlt)
  rw [readFrame, hheader]
  simp only [hlen, if_pos hmax]

/-- **A frame with a response** is received, if it is below the ceiling. -/
theorem received_frame {response : Response} {frame more : Bytes} {r : Recv}
    (hcounted : response.Counted) (hframe : writeFrame response.write = .ok frame)
    (h : r.bytes = frame ++ more) :
    received r = if response.write.length ≤ maxControlFrame then .ok response
      else .error (.stream ("peer announced a " ++ toString response.write.length ++
        " byte frame, ceiling is " ++ toString maxControlFrame)) := by
  split_ifs with hle
  · obtain ⟨r', hread, -, -⟩ := readFrame_writeFrame hframe hle h
    have hmax : maxControlFrame = 64 * 2 ^ 10 := rfl
    rw [received, hread]
    show (Response.decode response.write).mapError NetError.postcard = _
    rw [Response.decode_write hcounted (by omega)]
    rfl
  · rw [received, readFrame_of_gt hframe (not_le.1 hle) h]

end Net

end Latticed
