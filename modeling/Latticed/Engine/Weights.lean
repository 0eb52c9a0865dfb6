import Latticed.Engine.Inventory
import Latticed.Rust.Iter

/-!
# What a range of layers weighs

A shard reports the bytes it holds resident, from the same table of tensors as the planner but by a
computation of its own: it wraps where the planner's overflows, and reads layer numbers as `u32`.

* `shardWeightBytes_toNat` : of a model the planner accepts, what is reported is the sum of the range's
  layers, the embedding at its first layer and the head at its last, up to overflow.
* `shardBytes_le` : a range weighs no more than all the tensors, unless it is the whole of a model whose
  output is tied to the embedding.
-/

namespace Latticed

namespace Engine

open Rust

/-- The tensors are a map: no two have the same name. -/
def Content.Keyed (content : Content) : Prop := (content.tensorInfos.map Prod.fst).Nodup

instance (content : Content) : Decidable content.Keyed := inferInstanceAs (Decidable (List.Nodup _))

/-- The elements of the tensor of this name, if there is one. -/
def Content.elements (content : Content) (name : String) : ℕ :=
  ((content.tensorInfos.lookup name).map TensorInfo.elements).getD 0

/-- The bytes of the tensor of this name, if there is one. -/
def Content.bytes (content : Content) (name : String) : ℕ :=
  ((content.tensorInfos.lookup name).map TensorInfo.bytes).getD 0

/-- The tensor the logits come from: the embedding, where it is tied. -/
def Content.outputName (content : Content) : String :=
  if (content.tensorInfos.lookup "output.weight").isSome then "output.weight"
  else "token_embd.weight"

/-- The bytes of the layers from `first` to `last`. -/
def ModelInventory.rangeBytes (inv : ModelInventory) (first last : ℕ) : ℕ :=
  (((inv.layerBytes.take last).drop first).map UInt64.toNat).sum

/-- The bytes of a range: its layers, the embedding as single floats if it starts with the first layer,
and the norm and the output if it ends with the last. -/
def shardBytes (content : Content) (inv : ModelInventory) (first last : UInt32) : ℕ :=
  inv.rangeBytes first.toNat last.toNat +
    (if first = 0 then 4 * content.elements "token_embd.weight" else 0) +
    if last = inv.facts.layers then
      content.bytes "output_norm.weight" + content.bytes content.outputName
    else 0

variable {content : Content} {inv : ModelInventory} {name : String} {info : TensorInfo}
  {tensors : List (String × TensorInfo)}

/-! ### One tensor -/

theorem TensorInfo.elemCount_toNat {bytes : UInt64} (h : info.checkedBytes = some bytes) :
    info.elemCount.toNat = info.elements := by
  obtain ⟨elements, -, hprod, -⟩ := elements_of_checkedBytes h
  have hlt := elements.toNat_lt
  rw [elemCount, foldl_mul_toNat, UInt64.toNat_one, Nat.one_mul]
  rw [hprod] at hlt
  exact Nat.mod_eq_of_lt hlt

/-- A tensor that the planner accepts weighs the same on both sides. -/
theorem TensorInfo.quantized_toNat {bytes : UInt64} (h : info.checkedBytes = some bytes) :
    info.quantized.toNat = info.bytes := by
  have hbytes := bytes.toNat_lt
  rw [checkedBytes_toNat h] at hbytes
  rw [quantized, UInt64.toNat_mul, UInt64.toNat_div, elemCount_toNat h]
  exact Nat.mod_eq_of_lt hbytes

theorem blockText_eq_some {text : List Char} : blockText name = some text ↔
    ∃ rest, name.toList = 'b' :: 'l' :: 'k' :: '.' :: rest ∧ rest.takeWhile (· ≠ '.') = text := by
  unfold blockText
  split
  · rename_i rest hname
    simp [hname]
  · rename_i hnot
    constructor
    · intro h
      cases h
    · rintro ⟨rest, hname, -⟩
      exact absurd hname (hnot rest)

/-- A tensor of a layer the planner knows is in the range iff its layer is. -/
theorem inRange_iff {layers first last : UInt32} (hlast : last ≤ layers)
    (h : ∀ index, blockText name = some index →
      ∃ i < layers.toNat, parseUnsigned UInt64.size index = some i) :
    inRange name first last = true ↔
      ∃ i, destination name = some (some i) ∧ first.toNat ≤ i ∧ i < last.toNat := by
  have hlast' := UInt32.le_iff_toNat_le.1 hlast
  have hlayers := layers.toNat_lt
  unfold inRange
  split
  · rename_i rest hname
    have htext : blockText name = some (rest.takeWhile (· ≠ '.')) :=
      blockText_eq_some.2 ⟨rest, hname, rfl⟩
    obtain ⟨i, hi, hparse⟩ := h _ htext
    have hnarrow : parseUnsigned UInt32.size (rest.takeWhile (· ≠ '.')) = some i :=
      parseUnsigned_of_lt hparse (hi.trans hlayers)
    have hdest : destination name = some (some i) := by
      rw [destination, htext]
      dsimp only
      rw [hparse]
      rfl
    rw [hnarrow, hdest]
    simp
  · rename_i hnot
    have hnone : blockText name = none := by
      rw [Option.eq_none_iff_forall_ne_some]
      intro text htext
      obtain ⟨rest, hname, -⟩ := blockText_eq_some.1 htext
      exact hnot rest hname
    simp [destination, hnone]

/-! ### Sums over layers -/

/-- What some layers are charged is what the tensors that name one of them weigh. -/
theorem sum_charged_range (first last : ℕ) (tensors : List (String × TensorInfo)) :
    ∑ i ∈ Finset.Ico first last, charged tensors (some i) =
      ((tensors.filter fun t => (destination t.1).any fun d =>
        d.any fun i => first ≤ i ∧ i < last).map fun t => t.2.bytes).sum := by
  induction tensors with
  | nil => simp [charged]
  | cons t rest ih =>
    obtain ⟨name, info⟩ := t
    simp only [charged_cons, Finset.sum_add_distrib, ih]
    rcases hdest : destination name with _ | _ | i
    · simp [hdest]
    · simp [hdest]
    · simp only [Option.some.injEq, Finset.sum_ite_eq, Finset.mem_Ico]
      by_cases hin : first ≤ i ∧ i < last
      · simp [hdest, hin]
      · simp only [hin, if_false, Nat.zero_add]
        rw [List.filter_cons_of_neg (by simpa [hdest] using hin)]

theorem rangeBytes_eq (h : inv.Conserves content) {first last : ℕ}
    (hlast : last ≤ inv.layerBytes.length) :
    inv.rangeBytes first last =
      ∑ i ∈ Finset.Ico first last, charged content.tensorInfos (some i) :=
  sum_drop_take _ _ (fun i n hi => (h.layer i n hi).1) hlast

/-! ### What is reported -/

section Reported

variable (h : ModelInventory.read content = .ok inv)

include h

theorem accepted_of_mem {t : String × TensorInfo} (ht : t ∈ content.tensorInfos) :
    ∃ bytes, t.2.checkedBytes = some bytes := by
  obtain ⟨-, -, -, -, hcharges, -⟩ := ModelInventory.read_eq_ok.1 h
  obtain ⟨bytes, -, -, hbytes, -⟩ := hcharges.accepted t ht
  exact ⟨bytes, hbytes⟩

theorem quantized_toNat (name : String) : (content.quantized name).toNat = content.bytes name := by
  unfold Content.quantized Content.bytes
  cases hlookup : content.tensorInfos.lookup name with
  | none => rfl
  | some info =>
    obtain ⟨bytes, hbytes⟩ := accepted_of_mem h (mem_of_lookup_eq_some hlookup)
    exact TensorInfo.quantized_toNat hbytes

/-- The blocks of a range weigh what its layers are charged. -/
theorem blocks_toNat (hkeyed : content.Keyed) {first last : UInt32} (hlast : last ≤ inv.facts.layers) :
    (((content.tensorInfos.filter fun (name, _) => inRange name first last).map fun (name, _) =>
      content.quantized name).map UInt64.toNat).sum = inv.rangeBytes first.toNat last.toNat := by
  have hconserves := ModelInventory.conserves_of_read h
  have hlast' : last.toNat ≤ inv.layerBytes.length := by
    rw [hconserves.length]
    exact UInt32.le_iff_toNat_le.1 hlast
  rw [rangeBytes_eq hconserves hlast', sum_charged_range, List.map_map]
  congr 1
  have hfilter : (content.tensorInfos.filter fun t => inRange t.1 first last) =
      content.tensorInfos.filter fun t => (destination t.1).any fun d =>
        d.any fun i => first.toNat ≤ i ∧ i < last.toNat := by
    refine List.filter_congr fun t ht => Bool.eq_iff_iff.2 ?_
    rw [inRange_iff hlast fun index hindex => hconserves.length ▸ hconserves.block t ht index hindex]
    simp [Option.any_eq_true]
  rw [← hfilter]
  refine List.map_congr_left fun t ht => ?_
  -- no other tensor has this name
  have hlookup := lookup_of_mem hkeyed (List.mem_of_mem_filter ht)
  show (content.quantized t.1).toNat = _
  rw [quantized_toNat h, Content.bytes, hlookup]
  rfl

/-- **What a shard reports is the bytes of its range**, up to overflow. -/
theorem shardWeightBytes_toNat (hkeyed : content.Keyed) (spec : ShardSpec)
    (hlast : spec.lastLayer ≤ inv.facts.layers) :
    (shardWeightBytes content spec inv.facts.layers).toNat =
      shardBytes content inv spec.firstLayer spec.lastLayer % 2 ^ 64 := by
  have hembedding : (if spec.firstLayer = 0 then
      ((content.tensorInfos.lookup "token_embd.weight").map fun info : TensorInfo =>
        info.elemCount * 4).getD 0 else 0).toNat =
      (if spec.firstLayer = 0 then 4 * content.elements "token_embd.weight" else 0) % 2 ^ 64 := by
    unfold Content.elements
    split_ifs
    · cases hlookup : content.tensorInfos.lookup "token_embd.weight" with
      | none => rfl
      | some info =>
        obtain ⟨bytes, hbytes⟩ := accepted_of_mem h (mem_of_lookup_eq_some hlookup)
        show (info.elemCount * 4).toNat = 4 * info.elements % 2 ^ 64
        rw [UInt64.toNat_mul, TensorInfo.elemCount_toNat hbytes, Nat.mul_comm]
        rfl
    · rfl
  have hhead : (if spec.lastLayer = inv.facts.layers then
      content.quantized "output_norm.weight" + content.quantized content.outputName else 0).toNat =
      (if spec.lastLayer = inv.facts.layers then
        content.bytes "output_norm.weight" + content.bytes content.outputName else 0) % 2 ^ 64 := by
    split_ifs
    · rw [UInt64.toNat_add, quantized_toNat h, quantized_toNat h]
    · rfl
  unfold shardWeightBytes shardBytes
  dsimp only
  rw [UInt64.toNat_add, UInt64.toNat_add, foldl_add_toNat, blocks_toNat h hkeyed hlast, hembedding]
  unfold Content.outputName at hhead ⊢
  rw [hhead, UInt64.toNat_zero, Nat.zero_add]
  simp only [Nat.add_mod, Nat.mod_mod]

end Reported

/-! ### Without overflow -/

/-- What a tensor takes in memory: the embedding lands as single floats. -/
def residentBytes (name : String) (info : TensorInfo) : ℕ :=
  if name = "token_embd.weight" then 4 * info.elements else info.bytes

/-- What all tensors take. -/
def Content.residentBytes (content : Content) : ℕ :=
  (content.tensorInfos.map fun t => Engine.residentBytes t.1 t.2).sum

/-- The output is tied to the embedding. -/
def Content.Tied (content : Content) : Prop := content.tensorInfos.lookup "output.weight" = none

/-- What is stored takes no more than single floats. -/
theorem TensorInfo.bytes_le (info : TensorInfo) : info.bytes ≤ 4 * info.elements := by
  have hblocks := Nat.div_mul_le_self info.elements info.ggmlDtype.blockSize.toNat
  calc info.bytes
      ≤ info.elements / info.ggmlDtype.blockSize.toNat * (4 * info.ggmlDtype.blockSize.toNat) :=
        Nat.mul_le_mul_left _ info.ggmlDtype.typeSize_le
    _ = 4 * (info.elements / info.ggmlDtype.blockSize.toNat * info.ggmlDtype.blockSize.toNat) := by ring
    _ ≤ 4 * info.elements := Nat.mul_le_mul_left 4 hblocks

theorem Content.bytes_le (content : Content) (name : String) :
    content.bytes name ≤ 4 * content.elements name := by
  unfold bytes elements
  cases content.tensorInfos.lookup name with
  | none => exact Nat.zero_le _
  | some info => exact info.bytes_le

/-- The tensors at the two ends of a model. -/
def endNames : Finset String := {"token_embd.weight", "output_norm.weight", "output.weight"}

/-- The embedding as single floats, and the tensors of the head. -/
theorem endBytes_le (content : Content) :
    4 * content.elements "token_embd.weight" + (content.bytes "output_norm.weight" +
        content.bytes "output.weight") ≤
      ((content.tensorInfos.filter fun t => t.1 ∈ endNames).map fun t => residentBytes t.1 t.2).sum := by
  refine le_trans (le_of_eq ?_) (sum_lookup_le residentBytes endNames content.tensorInfos)
  rw [endNames, Finset.sum_insert (by decide), Finset.sum_insert (by decide), Finset.sum_singleton]
  unfold Content.elements Content.bytes residentBytes
  congr 1
  cases content.tensorInfos.lookup "token_embd.weight" <;> simp

/-- The tensors of these layers. -/
theorem rangeBytes_resident (h : inv.Conserves content) {a b : ℕ} (hb : b ≤ inv.layerBytes.length) :
    inv.rangeBytes a b = ((content.tensorInfos.filter fun t => (destination t.1).any fun d =>
      d.any fun i => a ≤ i ∧ i < b).map fun t => residentBytes t.1 t.2).sum := by
  rw [rangeBytes_eq h hb, sum_charged_range]
  congr 1
  refine List.map_congr_left fun t ht => ?_
  rw [residentBytes, if_neg]
  intro hname
  have hdest := (List.mem_filter.1 ht).2
  rw [hname] at hdest
  cases hdest

/-- The layers and the two ends have different tensors. -/
theorem rangeBytes_add_endBytes_le (h : inv.Conserves content) {a b : ℕ}
    (hb : b ≤ inv.layerBytes.length) :
    inv.rangeBytes a b + (4 * content.elements "token_embd.weight" +
      (content.bytes "output_norm.weight" + content.bytes "output.weight")) ≤ content.residentBytes := by
  have hsum := sum_filter_add_le (fun t : String × TensorInfo => residentBytes t.1 t.2)
    (fun t => (destination t.1).any fun d => d.any fun i => a ≤ i ∧ i < b)
    (fun t => t.1 ∈ endNames) content.tensorInfos ?_
  · rw [← rangeBytes_resident h hb] at hsum
    exact (Nat.add_le_add_left (endBytes_le content) _).trans hsum
  · -- the tensors at the ends belong to no layer
    intro t _ ht
    rw [decide_eq_false_iff_not]
    intro hmem
    simp only [endNames, Finset.mem_insert, Finset.mem_singleton] at hmem
    rcases hmem with hname | hname | hname <;> rw [hname] at ht <;> cases ht

/-- **No range weighs more than all the tensors**, but for a whole model that keeps its embedding twice. -/
theorem shardBytes_le (h : inv.Conserves content) {first last : UInt32}
    (hlast : last ≤ inv.facts.layers) (hpart : ¬ (first = 0 ∧ last = inv.facts.layers ∧ content.Tied)) :
    shardBytes content inv first last ≤ content.residentBytes := by
  have hlast' : last.toNat ≤ inv.layerBytes.length := by
    rw [h.length]
    exact UInt32.le_iff_toNat_le.1 hlast
  have hsum := @rangeBytes_add_endBytes_le _ _ h first.toNat last.toNat hlast'
  have hembedding := content.bytes_le "token_embd.weight"
  unfold shardBytes
  by_cases htied : content.Tied
  · have houtput : content.bytes content.outputName = content.bytes "token_embd.weight" := by
      rw [Content.outputName, if_neg]
      rw [Content.Tied] at htied
      simp [htied]
    -- at one end the embedding is there once
    rw [houtput]
    split_ifs with hfirst hend <;> first | omega | exact absurd ⟨hfirst, hend, htied⟩ hpart
  · have houtput : content.bytes content.outputName = content.bytes "output.weight" := by
      rw [Content.outputName, if_pos (Option.isSome_iff_ne_none.2 htied)]
    rw [houtput]
    split_ifs <;> omega

end Engine

end Latticed
