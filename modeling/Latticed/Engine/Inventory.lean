import Latticed.Engine.CandleShard
import Latticed.Rust.Checked
import Latticed.Rust.Iter
import Mathlib.Algebra.BigOperators.Intervals

/-!
# The bytes of a model

The planner charges every tensor of a model to the layer in its name, and all the others to the output.
The tensors are in a map, so they come in any order; sums and products are checked for overflow.

* `chargeAll_eq_ok` : the loop over the tensors succeeds iff each can be charged and the exact sums fit,
  which says nothing of the order.
* `ModelInventory.read_conserves` : no byte is lost or charged twice.
* `ModelInventory.read_perm` : the order of the tensors makes no difference.
-/

namespace Latticed

namespace Engine

open Rust

/-! ### Reading the inventory -/

/-- `name.strip_prefix("blk.")`, up to the next dot. -/
def blockText (name : String) : Option (List Char) :=
  match name.toList with
  | 'b' :: 'l' :: 'k' :: '.' :: rest => some (rest.takeWhile (· ≠ '.'))
  | _ => none

/-- Bytes of a tensor as it is stored, if they are a number of whole blocks and do not overflow. -/
def TensorInfo.checkedBytes (info : TensorInfo) : Option UInt64 :=
  (checkedProduct info.shape).bind fun elements =>
    if elements = 0 ∨ elements % info.ggmlDtype.blockSize ≠ 0 then none
    else checkedMul (elements / info.ggmlDtype.blockSize) info.ggmlDtype.typeSize

/-- What a tensor of this name is charged to: a layer, or `none` for the output. -/
def destination (name : String) : Option (Option ℕ) :=
  match blockText name with
  | some index => (parseUnsigned UInt64.size index).map some
  | none => some none

/-- The bytes of each layer, and of the output. -/
abbrev Cells := List UInt64 × UInt64

/-- The cell of a layer or of the output. -/
def Cells.cell (cells : Cells) : Option ℕ → Option UInt64
  | none => some cells.2
  | some index => cells.1[index]?

/-- Assignment to a cell. -/
def Cells.put (cells : Cells) : Option ℕ → UInt64 → Cells
  | none, n => (cells.1, n)
  | some index, n => (cells.1.set index n, cells.2)

/-- The body of the loop of `ModelInventory::read`. -/
def charge (cells : Cells) (name : String) (info : TensorInfo) : Option Cells :=
  info.checkedBytes.bind fun bytes =>
    (destination name).bind fun d =>
      (cells.cell d).bind fun n => (checkedAdd n bytes).map (cells.put d)

/-- The loop of `ModelInventory::read`. -/
def chargeAll (cells : Cells) : List (String × TensorInfo) → Except EngineError Cells
  | [] => .ok cells
  | (name, info) :: rest =>
    match charge cells name info with
    | none => .error (.engine ("invalid tensor size or layer index: " ++ name))
    | some cells => chargeAll cells rest

/-- The file is one of several. -/
def splitFile (metadata : Metadata) : Except EngineError Bool :=
  if (metadata.lookup "split.count").isSome then (u32At metadata "split.count").map (1 < ·)
  else .ok false

namespace ModelInventory

/-- `ModelInventory::read`. -/
def read (content : Content) : Except EngineError ModelInventory := do
  let split ← splitFile content.metadata
  if split then
    .error (.engine "split GGUF files are not supported; use a single-file GGUF")
  else
    let facts ← ModelFacts.read content.metadata
    if facts.arch ≠ "llama" then .error (.unsupportedArch facts.arch)
    else if facts.layers = 0 ∨ facts.layers > 4096 then
      .error (.engine "model must have between 1 and 4096 layers")
    else
      let (layerBytes, outputBytes) ←
        chargeAll (List.replicate facts.layers.toNat 0, 0) content.tensorInfos
      if layerBytes.contains 0 then
        .error (.engine "GGUF is missing weights for a transformer layer")
      else return { facts, layerBytes, outputBytes }

end ModelInventory

/-! ### What is charged -/

/-- The elements of a tensor. -/
def TensorInfo.elements (info : TensorInfo) : ℕ := (info.shape.map UInt64.toNat).prod

/-- The bytes of a tensor. -/
def TensorInfo.bytes (info : TensorInfo) : ℕ :=
  info.elements / info.ggmlDtype.blockSize.toNat * info.ggmlDtype.typeSize.toNat

/-- The bytes of the tensors that a layer or the output is charged. -/
def charged (tensors : List (String × TensorInfo)) (d : Option ℕ) : ℕ :=
  ((tensors.filter fun t => destination t.1 = some d).map fun t => t.2.bytes).sum

/-- Charging the tensors leads from some cells to others, whatever their order. -/
structure Charges (tensors : List (String × TensorInfo)) (before after : Cells) : Prop where
  length : after.1.length = before.1.length
  accepted : ∀ t ∈ tensors, ∃ bytes d n,
    t.2.checkedBytes = some bytes ∧ destination t.1 = some d ∧ before.cell d = some n
  sum : ∀ d n, before.cell d = some n →
    ∃ n', after.cell d = some n' ∧ n'.toNat = n.toNat + charged tensors d

variable {name : String} {info : TensorInfo} {tensors : List (String × TensorInfo)}
  {cells before mid after : Cells} {d d' : Option ℕ} {n bytes : UInt64}

theorem TensorInfo.elements_of_checkedBytes (h : info.checkedBytes = some bytes) :
    ∃ elements, checkedProduct info.shape = some elements ∧ elements.toNat = info.elements ∧
      0 < info.elements ∧ info.ggmlDtype.blockSize.toNat ∣ info.elements ∧
      checkedMul (elements / info.ggmlDtype.blockSize) info.ggmlDtype.typeSize = some bytes := by
  obtain ⟨elements, helements, h⟩ := Option.bind_eq_some_iff.1 h
  have hprod : elements.toNat = info.elements := checkedProduct_toNat helements
  split_ifs at h with hbad
  obtain ⟨hzero, hblock⟩ := not_or.1 hbad
  refine ⟨elements, helements, hprod, ?_, ?_, h⟩
  · rw [← hprod]
    exact Nat.pos_of_ne_zero fun hz => hzero (UInt64.toNat_inj.1 hz)
  · rw [← hprod]
    apply Nat.dvd_of_mod_eq_zero
    rw [← UInt64.toNat_mod, not_not.1 hblock]
    rfl

/-- The bytes that are charged are the bytes of the tensor. -/
theorem TensorInfo.checkedBytes_toNat (h : info.checkedBytes = some bytes) :
    bytes.toNat = info.bytes := by
  obtain ⟨elements, -, hprod, -, -, hmul⟩ := elements_of_checkedBytes h
  rw [checkedMul_eq_some.1 hmul, UInt64.toNat_div, hprod]
  rfl

theorem charged_cons (name : String) (info : TensorInfo) (rest : List (String × TensorInfo))
    (d : Option ℕ) : charged ((name, info) :: rest) d =
      (if destination name = some d then info.bytes else 0) + charged rest d := by
  unfold charged
  by_cases h : destination name = some d
  · simp [h]
  · simp [h]

/-! ### The loop -/

namespace Cells

theorem ext_cell {cells cells' : Cells} (hlen : cells.1.length = cells'.1.length)
    (h : ∀ d n, cells.cell d = some n → cells'.cell d = some n) : cells = cells' := by
  obtain ⟨layers, output⟩ := cells
  obtain ⟨layers', output'⟩ := cells'
  obtain rfl := Option.some.inj (h none output rfl)
  refine congrArg (·, output') ?_
  refine List.ext_getElem hlen fun i hi hi' => ?_
  have := h (some i) layers[i] (List.getElem?_eq_getElem hi)
  exact Option.some.inj ((List.getElem?_eq_getElem hi').symm.trans this) |>.symm

theorem length_put (cells : Cells) (d : Option ℕ) (n : UInt64) :
    (cells.put d n).1.length = cells.1.length := by
  cases d with
  | none => rfl
  | some index => exact List.length_set

theorem cell_put (h : cells.cell d = some n) (m : UInt64) (d' : Option ℕ) :
    (cells.put d m).cell d' = if d = d' then some m else cells.cell d' := by
  cases d with
  | none => cases d' <;> simp [put, cell]
  | some index =>
    cases d' with
    | none => simp [put, cell]
    | some index' =>
      have hlt : index < cells.1.length := (List.getElem?_eq_some_iff.1 h).1
      simp only [put, cell, List.getElem?_set, hlt, if_true, Option.some.injEq]

end Cells

open Cells

theorem charge_eq_some : charge cells name info = some after ↔ ∃ bytes d n m,
    info.checkedBytes = some bytes ∧ destination name = some d ∧ cells.cell d = some n ∧
      m.toNat = n.toNat + bytes.toNat ∧ cells.put d m = after := by
  simp only [charge, Option.bind_eq_some_iff, Option.map_eq_some_iff, checkedAdd_eq_some]
  constructor
  · rintro ⟨bytes, hbytes, d, hd, n, hn, m, hm, hafter⟩
    exact ⟨bytes, d, n, m, hbytes, hd, hn, hm, hafter⟩
  · rintro ⟨bytes, d, n, m, hbytes, hd, hn, hm, hafter⟩
    exact ⟨bytes, hbytes, d, hd, n, hn, m, hm, hafter⟩

/-- One tensor is charged, and then the others are. -/
theorem Charges.uncons (h : Charges ((name, info) :: tensors) before after) :
    ∃ mid, charge before name info = some mid ∧ Charges tensors mid after := by
  obtain ⟨bytes, d, n, hbytes, hd, hn⟩ := h.accepted _ List.mem_cons_self
  have hexact := TensorInfo.checkedBytes_toNat hbytes
  obtain ⟨total, htotal, hsum⟩ := h.sum d n hn
  rw [charged_cons, if_pos hd, ← hexact] at hsum
  -- what the cell holds in the end bounds what it holds now
  have hfits : n.toNat + bytes.toNat < 2 ^ 64 := by
    have := total.toNat_lt
    omega
  have hm : (n + bytes).toNat = n.toNat + bytes.toNat := by
    rw [UInt64.toNat_add, Nat.mod_eq_of_lt hfits]
  refine ⟨before.put d (n + bytes), charge_eq_some.2 ⟨bytes, d, n, _, hbytes, hd, hn, hm, rfl⟩, ?_⟩
  have hcell := cell_put hn (n + bytes)
  refine ⟨h.length.trans (length_put _ _ _).symm, fun t ht => ?_, fun d' n' hn' => ?_⟩
  · obtain ⟨bytes', d', n', hbytes', hd', hn'⟩ := h.accepted t (List.mem_cons_of_mem _ ht)
    refine ⟨bytes', d', if d = d' then n + bytes else n', hbytes', hd', ?_⟩
    rw [hcell, hn']
    split_ifs <;> rfl
  · rw [hcell] at hn'
    split_ifs at hn' with heq
    · subst heq
      obtain rfl := Option.some.inj hn'
      exact ⟨total, htotal, by rw [hsum, hm, Nat.add_assoc]⟩
    · obtain ⟨m, hm', hsum'⟩ := h.sum d' n' hn'
      rw [charged_cons, if_neg (by rw [hd]; exact fun h => heq (Option.some.inj h)),
        Nat.zero_add] at hsum'
      exact ⟨m, hm', hsum'⟩

theorem Charges.cons {mid : Cells} (hcharge : charge before name info = some mid)
    (h : Charges tensors mid after) : Charges ((name, info) :: tensors) before after := by
  obtain ⟨bytes, d, n, m, hbytes, hd, hn, hm, rfl⟩ := charge_eq_some.1 hcharge
  have hexact := TensorInfo.checkedBytes_toNat hbytes
  have hcell := cell_put hn m
  refine ⟨h.length.trans (length_put _ _ _), fun t ht => ?_, fun d' n' hn' => ?_⟩
  · rcases List.mem_cons.1 ht with rfl | ht
    · exact ⟨bytes, d, n, hbytes, hd, hn⟩
    · obtain ⟨bytes', d', n', hbytes', hd', hn'⟩ := h.accepted t ht
      rw [hcell] at hn'
      split_ifs at hn' with heq
      · exact ⟨bytes', d', n, hbytes', hd', heq ▸ hn⟩
      · exact ⟨bytes', d', n', hbytes', hd', hn'⟩
  · rw [charged_cons, hd]
    by_cases heq : d = d'
    · subst heq
      obtain rfl : n = n' := Option.some.inj (hn.symm.trans hn')
      obtain ⟨total, htotal, hsum⟩ := h.sum d m (by rw [hcell, if_pos rfl])
      exact ⟨total, htotal, by rw [hsum, hm, if_pos rfl, hexact, Nat.add_assoc]⟩
    · obtain ⟨total, htotal, hsum⟩ := h.sum d' n' (by rw [hcell, if_neg heq, hn'])
      exact ⟨total, htotal, by rw [hsum, if_neg (by simpa using heq), Nat.zero_add]⟩

/-- Charging one tensor, then the others. -/
theorem charges_cons : Charges ((name, info) :: tensors) before after ↔
    ∃ mid, charge before name info = some mid ∧ Charges tensors mid after :=
  ⟨Charges.uncons, fun ⟨_, hcharge, h⟩ => h.cons hcharge⟩

/-- **When the loop succeeds**, and with what. -/
theorem chargeAll_eq_ok : chargeAll before tensors = .ok after ↔ Charges tensors before after := by
  induction tensors generalizing before with
  | nil =>
    constructor
    · rintro ⟨⟩
      exact ⟨rfl, fun t ht => (by cases ht), fun d n hn => ⟨n, hn, rfl⟩⟩
    · intro h
      refine congrArg Except.ok (ext_cell h.length.symm fun d n hn => ?_)
      obtain ⟨m, hm, hsum⟩ := h.sum d n hn
      obtain rfl : m = n := UInt64.toNat_inj.1 hsum
      exact hm
  | cons t rest ih =>
    obtain ⟨name, info⟩ := t
    rw [charges_cons, chargeAll]
    cases charge before name info with
    | none => simp
    | some mid => simpa using ih

theorem Charges.perm (h : Charges tensors before after) {tensors' : List (String × TensorInfo)}
    (hperm : tensors'.Perm tensors) : Charges tensors' before after := by
  refine ⟨h.length, fun t ht => h.accepted t (hperm.mem_iff.1 ht), fun d n hn => ?_⟩
  obtain ⟨m, hm, hsum⟩ := h.sum d n hn
  refine ⟨m, hm, ?_⟩
  rw [hsum, charged, charged, ((hperm.filter _).map _).sum_eq]

/-- What the layers and the output are charged is all there is. -/
theorem sum_charged {layers : ℕ} (h : ∀ t ∈ tensors, ∃ d, destination t.1 = some d ∧
    ∀ i, d = some i → i < layers) :
    ∑ i ∈ Finset.range layers, charged tensors (some i) + charged tensors none =
      (tensors.map fun t => t.2.bytes).sum := by
  induction tensors with
  | nil => simp [charged]
  | cons t rest ih =>
    obtain ⟨name, info⟩ := t
    have hrest := ih fun t ht => h t (List.mem_cons_of_mem _ ht)
    obtain ⟨d, hd, hlt⟩ := h _ List.mem_cons_self
    simp only [charged_cons, hd, Finset.sum_add_distrib, List.map_cons, List.sum_cons]
    cases d with
    | none =>
      simp only [Option.some.injEq, reduceCtorEq, if_false, Finset.sum_const_zero, if_true]
      omega
    | some i =>
      have hmem : i ∈ Finset.range layers := Finset.mem_range.2 (hlt i rfl)
      simp only [Option.some.injEq, Finset.sum_ite_eq, hmem, if_true, reduceCtorEq, if_false]
      omega

namespace ModelInventory

variable {content : Content} {inv : ModelInventory}

theorem read_eq_ok : read content = .ok inv ↔
    splitFile content.metadata = .ok false ∧ ModelFacts.read content.metadata = .ok inv.facts ∧
      inv.facts.arch = "llama" ∧ ¬ (inv.facts.layers = 0 ∨ inv.facts.layers > 4096) ∧
      Charges content.tensorInfos (List.replicate inv.facts.layers.toNat 0, 0)
        (inv.layerBytes, inv.outputBytes) ∧ 0 ∉ inv.layerBytes := by
  unfold read
  constructor
  · intro h
    obtain ⟨split, hsplit, h⟩ := bind_eq_ok.1 h
    split_ifs at h with hsingle
    obtain ⟨facts, hfacts, h⟩ := bind_eq_ok.1 h
    split_ifs at h with harch hlayers
    obtain ⟨⟨layerBytes, outputBytes⟩, hcharges, h⟩ := bind_eq_ok.1 h
    dsimp only at h
    split_ifs at h with hzero
    cases h
    refine ⟨?_, hfacts, not_not.1 harch, hlayers, chargeAll_eq_ok.1 hcharges, by simpa using hzero⟩
    rw [hsplit, Bool.eq_false_iff.2 hsingle]
  · rintro ⟨hsplit, hfacts, harch, hlayers, hcharges, hzero⟩
    refine bind_eq_ok.2 ⟨false, hsplit, ?_⟩
    rw [if_neg Bool.false_ne_true]
    refine bind_eq_ok.2 ⟨inv.facts, hfacts, ?_⟩
    rw [if_neg (not_not.2 harch), if_neg hlayers]
    refine bind_eq_ok.2 ⟨_, chargeAll_eq_ok.2 hcharges, ?_⟩
    dsimp only
    rw [if_neg (by simpa using hzero)]
    rfl

/-- The inventory accounts for every byte of the tensors, once. -/
structure Conserves (content : Content) (inv : ModelInventory) : Prop where
  length : inv.layerBytes.length = inv.facts.layers.toNat
  total : (inv.layerBytes.map UInt64.toNat).sum + inv.outputBytes.toNat =
    (content.tensorInfos.map fun t => t.2.bytes).sum
  /-- A name that starts with `blk.` names a layer. -/
  block : ∀ t ∈ content.tensorInfos, ∀ index, blockText t.1 = some index →
    ∃ i < inv.layerBytes.length, parseUnsigned UInt64.size index = some i
  /-- Every layer is charged the tensors that name it, and is charged something. -/
  layer : ∀ i n, inv.layerBytes[i]? = some n →
    n.toNat = charged content.tensorInfos (some i) ∧ 0 < n.toNat
  output : inv.outputBytes.toNat = charged content.tensorInfos none

theorem Conserves.sum_layerBytes (h : ∀ i n, inv.layerBytes[i]? = some n →
    n.toNat = charged content.tensorInfos (some i) ∧ 0 < n.toNat) :
    (inv.layerBytes.map UInt64.toNat).sum =
      ∑ i ∈ Finset.range inv.layerBytes.length, charged content.tensorInfos (some i) := by
  rw [Finset.range_eq_Ico, ← Rust.sum_drop_take UInt64.toNat _ (fun i n hi => (h i n hi).1) le_rfl,
    List.drop_zero, List.take_length]

theorem conserves_of_read (h : read content = .ok inv) : Conserves content inv := by
  obtain ⟨-, -, -, -, hcharges, hzero⟩ := read_eq_ok.1 h
  have hlength : inv.layerBytes.length = inv.facts.layers.toNat :=
    hcharges.length.trans List.length_replicate
  have hdest (t : String × TensorInfo) (ht : t ∈ content.tensorInfos) :
      ∃ d, destination t.1 = some d ∧ ∀ i, d = some i → i < inv.layerBytes.length := by
    obtain ⟨bytes, d, n, -, hd, hn⟩ := hcharges.accepted t ht
    refine ⟨d, hd, ?_⟩
    rintro i rfl
    have hlt := (List.getElem?_eq_some_iff.1 hn).1
    rwa [List.length_replicate, ← hlength] at hlt
  have hlayer (i : ℕ) (n : UInt64) (hi : inv.layerBytes[i]? = some n) :
      n.toNat = charged content.tensorInfos (some i) ∧ 0 < n.toNat := by
    have hlt := (List.getElem?_eq_some_iff.1 hi).1
    obtain ⟨m, hm, hsum⟩ := hcharges.sum (some i) 0
      (List.getElem?_replicate_of_lt (hlength ▸ hlt))
    obtain rfl := Option.some.inj (hi.symm.trans hm)
    refine ⟨hsum.trans (Nat.zero_add _), Nat.pos_of_ne_zero fun hz => hzero ?_⟩
    obtain rfl : n = 0 := UInt64.toNat_inj.1 hz
    exact List.mem_of_getElem? hi
  have houtput : inv.outputBytes.toNat = charged content.tensorInfos none := by
    obtain ⟨m, hm, hsum⟩ := hcharges.sum none 0 rfl
    obtain rfl := Option.some.inj hm
    exact hsum.trans (Nat.zero_add _)
  refine ⟨hlength, ?_, fun t ht index hindex => ?_, hlayer, houtput⟩
  · rw [Conserves.sum_layerBytes hlayer, houtput, sum_charged hdest]
  · obtain ⟨d, hd, hlt⟩ := hdest t ht
    rw [destination, hindex] at hd
    obtain ⟨i, hi, rfl⟩ := Option.map_eq_some_iff.1 hd
    exact ⟨i, hlt i rfl, hi⟩

/-- The order of the tensors makes no difference. -/
theorem read_perm {tensorInfos : List (String × TensorInfo)}
    (hperm : tensorInfos.Perm content.tensorInfos) :
    read { content with tensorInfos } = .ok inv ↔ read content = .ok inv := by
  rw [read_eq_ok, read_eq_ok]
  constructor
  · rintro ⟨hsplit, hfacts, harch, hlayers, hcharges, hzero⟩
    exact ⟨hsplit, hfacts, harch, hlayers, hcharges.perm hperm.symm, hzero⟩
  · rintro ⟨hsplit, hfacts, harch, hlayers, hcharges, hzero⟩
    exact ⟨hsplit, hfacts, harch, hlayers, hcharges.perm hperm, hzero⟩

/-- **The inventory of a model conserves bytes**, and does not depend on the order of the tensors. -/
theorem read_conserves (content : Content) :
    (∀ inv, read content = .ok inv → Conserves content inv) ∧
      ∀ tensorInfos, tensorInfos.Perm content.tensorInfos → ∀ inv,
        read { content with tensorInfos } = .ok inv ↔ read content = .ok inv :=
  ⟨fun _ h => conserves_of_read h, fun _ hperm _ => read_perm hperm⟩

end ModelInventory

/-- Blocks of 32 quants of four bits, with a scale. -/
def fourBits : GgmlDType := ⟨32, 18, by decide, by decide⟩

/-- Half floats. -/
def halves : GgmlDType := ⟨1, 2, by decide, by decide⟩

/-- Two layers and an embedding that is the head as well. -/
def twoLayers : Content where
  metadata := [("general.architecture", .plain (.string "llama")),
    ("llama.block_count", .plain (.u32 2)), ("llama.embedding_length", .plain (.u32 32)),
    ("llama.attention.head_count", .plain (.u32 1)), ("llama.context_length", .plain (.u32 128))]
  tensorInfos := [("blk.0.attn_q.weight", ⟨fourBits, [32, 2]⟩), ("blk.1.attn_q.weight", ⟨halves, [32, 2]⟩),
    ("token_embd.weight", ⟨halves, [32, 4]⟩)]

/-- The inventory of the two layers. -/
def twoLayersInventory : ModelInventory where
  facts := ⟨"llama", 2, 32, 1, 1, 128⟩
  layerBytes := [36, 128]
  outputBytes := 256

theorem read_twoLayers : ModelInventory.read twoLayers = .ok twoLayersInventory := by decide +kernel

/-- Quantised blocks and tied embeddings are counted, in whichever order they come. -/
theorem twoLayers_conserved : ModelInventory.Conserves twoLayers twoLayersInventory ∧
    ModelInventory.read { twoLayers with tensorInfos := twoLayers.tensorInfos.reverse } =
      .ok twoLayersInventory :=
  have h := ModelInventory.read_conserves twoLayers
  ⟨h.1 _ read_twoLayers, (h.2 _ (List.reverse_perm _) _).2 read_twoLayers⟩

end Engine

end Latticed
