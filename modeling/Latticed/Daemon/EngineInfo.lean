import Latticed.Daemon.Pipes
import Latticed.Net.TrustRestart
import Latticed.Rust.JsonText

/-!
# The GPUs of the engine

`lattice-engine-info` prints what the inference engine finds, and the daemon reads it.  The one is written
in another language than the other, and prints its strings itself.

* `helperOutput_document` : what is printed is a text of the list of the devices.
* `devices_listed` : the daemon finds the devices that the engine has found.
-/

namespace Latticed

namespace Daemon

open Net Rust

/-! ### What is printed -/

/-- `ggml_backend_dev_type`. -/
inductive DeviceType where
  | gpu
  | igpu
  | cpu
  | accel
  | meta_
  deriving DecidableEq

/-- The `kind` of a device that is printed. -/
def DeviceType.kind : DeviceType → Option String
  | gpu => some "gpu"
  | igpu => some "igpu"
  | cpu => some "cpu"
  | accel => some "accelerator"
  | meta_ => none

/-- A device of `ggml`, with the name of what provides it.  Strings end where a zero is. -/
structure GgmlDevice where
  provider : String
  type : DeviceType
  name : String
  description : String
  memoryTotal : UInt64
  memoryFree : UInt64
  name_ended : 0 ∉ asBytes name
  description_ended : 0 ∉ asBytes description

/-- `print_json_string`, for a byte. -/
def printByte (b : UInt8) : Bytes :=
  if b = 0x22 then [0x5C, 0x22]
  else if b = 0x5C then [0x5C, 0x5C]
  else if b = 0x08 then [0x5C, 0x62]
  else if b = 0x0C then [0x5C, 0x66]
  else if b = 0x0A then [0x5C, 0x6E]
  else if b = 0x0D then [0x5C, 0x72]
  else if b = 0x09 then [0x5C, 0x74]
  else if b < 0x20 then 0x5C :: 0x75 :: asBytes (hex 4 b.toNat)
  else [b]

/-- `print_json_string`. -/
def printJsonString (value : String) : Bytes :=
  0x22 :: (((asBytes value).takeWhile (· ≠ 0)).flatMap printByte ++ [0x22])

/-- What is printed for a device. -/
def GgmlDevice.print (d : GgmlDevice) (kind : String) : Bytes :=
  asBytes "\x7b\"name\":" ++ printJsonString d.name ++ asBytes ",\"description\":" ++
    printJsonString d.description ++ asBytes ",\"kind\":\"" ++ asBytes kind ++
    asBytes "\",\"total_memory\":" ++ asBytes (toString d.memoryTotal.toNat) ++
    asBytes ",\"free_memory\":" ++ asBytes (toString d.memoryFree.toNat) ++ asBytes "\x7d"

/-- The loop of `main`. -/
def printDevices (first : Bool) : List GgmlDevice → Bytes
  | [] => []
  | d :: rest =>
    if d.provider = "RPC" then printDevices first rest
    else match d.type.kind with
      | none => printDevices first rest
      | some kind =>
        (if first then [] else asBytes ",") ++ d.print kind ++ printDevices false rest

/-- What `lattice-engine-info` prints. -/
def helperOutput (found : List GgmlDevice) : Bytes :=
  asBytes "[" ++ printDevices true found ++ asBytes "]\n"

/-! ### What is read -/

/-- The fields of a device. -/
def gpuFieldNames : List String := ["name", "description", "kind", "total_memory", "free_memory"]

/-- The fields of a device as they are written. -/
def gpuWritten (g : GpuDevice) : List (String × Json) :=
  [("name", Format.string.write g.name), ("description", Format.string.write g.description),
    ("kind", Format.string.write g.kind), ("total_memory", Format.u64.write g.totalMemory),
    ("free_memory", Format.u64.write g.freeMemory)]

/-- A device, from its fields. -/
def gpuOfFields (fields : List (String × Json)) : Except String GpuDevice := do
  let name ← Format.string.required fields "name"
  let description ← Format.string.required fields "description"
  let kind ← Format.string.required fields "kind"
  let totalMemory ← Format.u64.required fields "total_memory"
  let freeMemory ← Format.u64.required fields "free_memory"
  .ok { name, description, kind, totalMemory, freeMemory }

theorem gpuOfFields_written (g : GpuDevice) : gpuOfFields (gpuWritten g) = .ok g := by
  have hnames : ((gpuWritten g).map (·.1)).Nodup := (by decide : gpuFieldNames.Nodup)
  unfold gpuOfFields
  rw [Format.required_write _ hnames (.head _), Format.required_write _ hnames (.tail _ (.head _)),
    Format.required_write _ hnames (.tail _ (.tail _ (.head _))),
    Format.required_write _ hnames (.tail _ (.tail _ (.tail _ (.head _)))),
    Format.required_write _ hnames (.tail _ (.tail _ (.tail _ (.tail _ (.head _)))))]
  rfl

/-- How a `GpuDevice` is written as a document. -/
def gpuFormat : Format GpuDevice where
  write g := .object (gpuWritten g)
  read value := (value.fields gpuFieldNames).bind gpuOfFields
  read_write g := by
    rw [Json.fields, Except.bind]
    exact gpuOfFields_written g

/-- `serde_json::from_slice`, of a list of devices. -/
def decodeGpus (serde : SerdeJson) (bytes : Bytes) : Except String (List GpuDevice) :=
  (serde.parse bytes).bind gpuFormat.list.read

/-! ### Strings -/

theorem stringText_printByte (b : UInt8) {text value : Bytes} (hrest : StringText text value) :
    StringText (printByte b ++ text) (b :: value) := by
  unfold printByte
  split_ifs with h1 h2 h3 h4 h5 h6 h7 h8
  · exact .escape (by rw [h1]; decide) hrest
  · exact .escape (by rw [h2]; decide) hrest
  · exact .escape (by rw [h3]; decide) hrest
  · exact .escape (by rw [h4]; decide) hrest
  · exact .escape (by rw [h5]; decide) hrest
  · exact .escape (by rw [h6]; decide) hrest
  · exact .escape (by rw [h7]; decide) hrest
  · exact .code (UInt8.lt_of_lt_of_le h8 (by decide)) hrest
  · exact .plain ⟨UInt8.not_lt.1 h8, h1, h2⟩ hrest

/-- **What is printed for a string** is a text of it. -/
theorem printJsonString_text {value : String} (h : 0 ∉ asBytes value) (depth : ℕ) :
    JsonText depth (printJsonString value) (.string value) := by
  have hwhole : (asBytes value).takeWhile (· ≠ 0) = asBytes value :=
    List.takeWhile_eq_self_iff.2 fun b hb => decide_eq_true fun hzero => h (hzero ▸ hb)
  have hbody (bytes : Bytes) : StringText (bytes.flatMap printByte) bytes := by
    induction bytes with
    | nil => exact .nil
    | cons b bytes ih => exact stringText_printByte b ih
  rw [printJsonString, hwhole]
  exact .string (hbody _)

example : printJsonString "a\"b\n" = asBytes "\"a\\\"b\\n\"" := by decide +kernel

/-! ### Devices -/

/-- The device, as the daemon knows it. -/
def GgmlDevice.gpu (d : GgmlDevice) (kind : String) : GpuDevice :=
  ⟨d.name, d.description, kind, d.memoryTotal, d.memoryFree⟩

/-- The devices that are printed, with their kinds. -/
def shown : List GgmlDevice → List (GgmlDevice × String)
  | [] => []
  | d :: rest =>
    if d.provider = "RPC" then shown rest
    else match d.type.kind with
      | none => shown rest
      | some kind => (d, kind) :: shown rest

/-- The devices that the engine has itself. -/
def listed (found : List GgmlDevice) : List GpuDevice := (shown found).map fun (d, kind) => d.gpu kind

theorem kind_of_mem_shown {found : List GgmlDevice} {d : GgmlDevice} {kind : String}
    (h : (d, kind) ∈ shown found) : d.type.kind = some kind := by
  induction found with
  | nil => cases h
  | cons e rest ih =>
    unfold shown at h
    split_ifs at h with hrpc
    · exact ih h
    · cases hkind : e.type.kind with
      | none =>
        rw [hkind] at h
        exact ih h
      | some k =>
        rw [hkind] at h
        rcases List.mem_cons.1 h with heq | hrest
        · obtain ⟨rfl, rfl⟩ := Prod.mk.inj heq
          exact hkind
        · exact ih hrest

/-- A kind is printed as it is. -/
theorem kind_text {type : DeviceType} {kind : String} (h : type.kind = some kind) :
    StringText (asBytes kind) (asBytes kind) := by
  refine stringText_of_plain ?_
  cases type <;> cases h <;> decide +kernel

/-- The names of the fields are printed as they are. -/
theorem field_text {name : String} (h : name ∈ gpuFieldNames) : StringText (asBytes name) (asBytes name) := by
  have hall : ∀ name ∈ gpuFieldNames, ∀ b ∈ asBytes name, PlainByte b := by decide +kernel
  exact stringText_of_plain (hall name h)

/-- **What is printed for a device** is a text of it. -/
theorem GgmlDevice.print_text (d : GgmlDevice) {kind : String} (h : d.type.kind = some kind) (depth : ℕ) :
    JsonText (depth + 1) (d.print kind) (gpuFormat.write (d.gpu kind)) := by
  have hname : asBytes "\x7b\"name\":" = 0x7B :: keyText (asBytes "name") := by decide +kernel
  have hdescription : asBytes ",\"description\":" = 0x2C :: keyText (asBytes "description") := by
    decide +kernel
  have hkind : asBytes ",\"kind\":\"" = 0x2C :: (keyText (asBytes "kind") ++ [0x22]) := by decide +kernel
  have htotal : asBytes "\",\"total_memory\":" = [0x22, 0x2C] ++ keyText (asBytes "total_memory") := by
    decide +kernel
  have hfree : asBytes ",\"free_memory\":" = 0x2C :: keyText (asBytes "free_memory") := by decide +kernel
  have hend : asBytes "\x7d" = [0x7D] := by decide +kernel
  have hmembers : MembersText depth _ (gpuWritten (d.gpu kind)) :=
    .cons (field_text (.head _)) (printJsonString_text d.name_ended depth)
      (.cons (field_text (.tail _ (.head _))) (printJsonString_text d.description_ended depth)
        (.cons (field_text (.tail _ (.tail _ (.head _)))) (.string (kind_text h))
          (.cons (field_text (.tail _ (.tail _ (.tail _ (.head _))))) (.number d.memoryTotal.toNat_lt)
            (.one (field_text (.tail _ (.tail _ (.tail _ (.tail _ (.head _))))))
              (.number d.memoryFree.toNat_lt))
            (List.cons_ne_nil _ _)) (List.cons_ne_nil _ _)) (List.cons_ne_nil _ _)) (List.cons_ne_nil _ _)
  have hobject : JsonText (depth + 1) _ (gpuFormat.write (d.gpu kind)) := .object hmembers
  unfold GgmlDevice.print
  rw [hname, hdescription, hkind, htotal, hfree, hend]
  simpa only [List.append_assoc, List.cons_append, List.nil_append, GgmlDevice.gpu] using hobject

/-! ### The list -/

theorem printDevices_false (found : List GgmlDevice) :
    printDevices false found = (shown found).flatMap fun x => 0x2C :: x.1.print x.2 := by
  have hcomma : asBytes "," = [0x2C] := by decide +kernel
  induction found with
  | nil => rfl
  | cons d rest ih =>
    rw [printDevices, shown]
    by_cases hrpc : d.provider = "RPC"
    · rw [if_pos hrpc, if_pos hrpc]
      exact ih
    · rw [if_neg hrpc, if_neg hrpc]
      cases d.type.kind with
      | none => exact ih
      | some kind =>
        dsimp only
        rw [if_neg Bool.false_ne_true, List.flatMap_cons, ih, hcomma]
        rfl

/-- The first device has no comma before it. -/
theorem printDevices_true (found : List GgmlDevice) (depth : ℕ) :
    ItemsText (depth + 1) (printDevices true found) ((listed found).map gpuFormat.write) := by
  induction found with
  | nil => exact .nil
  | cons d rest ih =>
    rw [listed, printDevices, shown]
    by_cases hrpc : d.provider = "RPC"
    · rw [if_pos hrpc, if_pos hrpc]
      exact ih
    · rw [if_neg hrpc, if_neg hrpc]
      cases hkind : d.type.kind with
      | none => exact ih
      | some kind =>
        have hitems := @itemsText_flatMap (GgmlDevice × String) (depth + 1) (fun x => x.1.print x.2)
          (fun x => gpuFormat.write (x.1.gpu x.2)) (d, kind) (shown rest) ?_
        · dsimp only
          rw [if_pos rfl, List.nil_append, printDevices_false, List.map_map]
          exact hitems
        · intro x hx
          rcases List.mem_cons.1 hx with rfl | hx
          · exact d.print_text hkind depth
          · exact x.1.print_text (kind_of_mem_shown hx) depth

/-- **What is printed** is a text of the list of the devices. -/
theorem helperOutput_document (found : List GgmlDevice) :
    JsonDocument 2 (helperOutput found) (gpuFormat.list.write (listed found)) := by
  have hspace : ∀ b ∈ ([0x0A] : Bytes), b ∈ jsonSpaces :=
    List.forall_mem_singleton.2 (.tail _ (.tail _ (.head _)))
  refine ⟨[], 0x5B :: (printDevices true found ++ [0x5D]), [0x0A], ?_, nofun, hspace, ?_⟩
  · have hopen : asBytes "[" = [0x5B] := by decide +kernel
    have hclose : asBytes "]\n" = [0x5D, 0x0A] := by decide +kernel
    rw [helperOutput, hopen, hclose]
    simp only [List.append_assoc, List.cons_append, List.nil_append]
  · exact .array (printDevices_true found 0)

/-- **The devices that the engine has found are the devices that the daemon finds**: what is printed is a
text of their list, and where that is read as this list, and is not too long, the daemon has it, whatever
pieces it comes in. -/
theorem devices_listed (found : List GgmlDevice) :
    JsonDocument 2 (helperOutput found) (gpuFormat.list.write (listed found)) ∧
      ∀ (serde : SerdeJson) (lossy : Bytes → String) (out err : List Chunk)
        (polls : List (Except String (Option Bool) × Bool)),
        serde.parse (helperOutput found) = .ok (gpuFormat.list.write (listed found)) →
        said out = helperOutput found → (helperOutput found).length ≤ mebibyte → EndsWell polls →
          devices lossy (decodeGpus serde) ⟨.ok (), out.map .ok, err.map .ok, polls⟩ =
            .ok (listed found) := by
  refine ⟨helperOutput_document found, fun serde lossy out err polls hparse hsaid hshort hwell => ?_⟩
  have hkept : (said out).take mebibyte = helperOutput found := by
    rw [hsaid, List.take_of_length_le hshort]
  have hdecode : decodeGpus serde (helperOutput found) = .ok (listed found) := by
    rw [decodeGpus, hparse]
    exact gpuFormat.list.read_write (listed found)
  rw [devices_of_endsWell hwell, hkept]
  exact mapError_eq_ok.2 hdecode

section

/-- A GPU and the processor beside it, and a GPU of another machine. -/
def sampleDevices : List GgmlDevice :=
  [⟨"Metal", .gpu, "MTL0", "the \"big\" one", 100, 60, by decide +kernel, by decide +kernel⟩,
    ⟨"RPC", .gpu, "RPC0", "far away", 100, 60, by decide +kernel, by decide +kernel⟩,
    ⟨"CPU", .cpu, "CPU", "", 200, 50, by decide +kernel, by decide +kernel⟩]

/-- What is printed for them. -/
def sampleText : Bytes :=
  asBytes ("[\x7b\"name\":\"MTL0\",\"description\":\"the \\\"big\\\" one\",\"kind\":\"gpu\"," ++
    "\"total_memory\":100,\"free_memory\":60\x7d,\x7b\"name\":\"CPU\",\"description\":\"\"," ++
    "\"kind\":\"cpu\",\"total_memory\":200,\"free_memory\":50\x7d]\n")

/-- The GPUs that the daemon finds in it. -/
def sampleGpus : List GpuDevice :=
  [⟨"MTL0", "the \"big\" one", "gpu", 100, 60⟩, ⟨"CPU", "", "cpu", 200, 50⟩]

/-- The parser on this text. -/
def sampleSerde : SerdeJson where
  print _ := .error "not a sample"
  parse bytes :=
    if bytes = sampleText then .ok (gpuFormat.list.write sampleGpus)
    else .error "expected value at line 1 column 1"

/-- The text comes in two pieces, and the helper ends after it has been looked at once. -/
theorem devices_listed_sample :
    devices (fun _ => "") (decodeGpus sampleSerde)
        ⟨.ok (), [⟨sampleText.take 20, by decide +kernel⟩, ⟨sampleText.drop 20, by decide +kernel⟩].map .ok,
          [].map .ok, [(.ok none, false), (.ok (some true), false)]⟩ =
      .ok sampleGpus := by
  have htext : helperOutput sampleDevices = sampleText := by decide +kernel
  have hlisted : listed sampleDevices = sampleGpus := rfl
  have hparse : sampleSerde.parse (helperOutput sampleDevices) =
      .ok (gpuFormat.list.write (listed sampleDevices)) := by
    rw [htext, hlisted]
    unfold sampleSerde
    dsimp only
    rw [if_pos rfl]
  exact (devices_listed sampleDevices).2 sampleSerde _ _ _ _ hparse (by decide +kernel)
    (by decide +kernel) ⟨[(.ok none, false)], false, [], rfl, by simp⟩

end

end Daemon

end Latticed
