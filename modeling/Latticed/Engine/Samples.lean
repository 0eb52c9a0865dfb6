import Latticed.Engine.Calls

/-!
# Three small engines

`blank` has empty tensors and never fails; `tally` computes with numbers, so that its logits tell
which blocks were applied and what was in the caches; `checked` is `tally` with the checks of the
tensor library.

* `openFile_blank`, `run_blank` : a blank shard opens for every range of the model, and runs whatever
  it takes.
* `checkedPositions`, `checksMasks_checked`, `boundary_checked` : `checked` has the laws that are relied
  on.
-/

namespace Latticed

namespace Engine

open Rust

/-- The header of a model with `layers` layers. -/
def blankHeader (layers : UInt32) : Content where
  metadata := [("general.architecture", .plain (.string "llama")),
    ("llama.attention.head_count", .plain (.u32 1)), ("llama.block_count", .plain (.u32 layers)),
    ("llama.embedding_length", .plain (.u32 0)), ("llama.context_length", .plain (.u32 0))]
  tensorInfos := []

/-- The figures of the blank model. -/
def blankFacts (layers : UInt32) : ModelFacts where
  arch := "llama"
  layers := layers
  hiddenDim := 0
  heads := 1
  kvHeads := 1
  trainContext := 0

/-- An engine whose tensors are empty and whose operations never fail. -/
def blank (layers : UInt32) : Candle where
  File := Unit
  QTensor := Unit
  Tensor := Unit
  KvCache := Unit
  Mask := Unit
  Parameters := Unit
  Embedding := Unit
  Head := Unit
  LayerWeights := Unit
  archDebug := String.quote
  hashFile _ := .ok "0000000000000000"
  content _ := .ok (blankHeader layers)
  parameters _ := .ok ()
  tensor _ _ := .ok ()
  embedding _ _ := .ok ()
  head _ _ _ := .ok ()
  layerWeights _ _ _ := .ok ()
  newTokens _ := .ok ()
  fromVec _ _ := .ok ()
  dims3 _ := .ok (1, 0, 0)
  toVecF16 _ := .ok []
  toVecF32 _ := .ok []
  rowToVec _ := .ok []
  f16ToF32 _ := 0
  embed _ _ := .ok ()
  buildCausalMask _ _ := .ok ()
  project _ _ _ := .ok ((), ())
  cat _ _ := .ok ()
  attend _ _ _ _ _ := .ok ()
  output _ _ _ := .ok ()

/-- An engine on lists of numbers, one for each position: block `i` replaces each of them by ten times
the sum of its cache, plus `i`. -/
def tally (layers : UInt32) : Candle where
  File := Unit
  QTensor := Unit
  Tensor := List UInt32
  KvCache := List UInt32
  Mask := Unit
  Parameters := Unit
  Embedding := Unit
  Head := Unit
  LayerWeights := UInt32
  archDebug := String.quote
  hashFile _ := .ok "0000000000000000"
  content _ := .ok (blankHeader layers)
  parameters _ := .ok ()
  tensor _ _ := .ok ()
  embedding _ _ := .ok ()
  head _ _ _ := .ok ()
  layerWeights _ _ i := .ok (UInt32.ofNat i)
  newTokens ids := .ok ids
  fromVec values shape :=
    if values.length = shape.1 * shape.2.1 * shape.2.2 then .ok values else .error "shape mismatch"
  dims3 x := .ok (1, x.length, 1)
  toVecF16 x := .ok (x.map (·.toUInt16))
  toVecF32 x := .ok x
  rowToVec x := .ok x
  f16ToF32 v := v.toUInt32
  embed _ ids := .ok ids
  buildCausalMask _ _ := .ok ()
  project _ x _ := .ok (x, x)
  cat cached new := .ok (cached ++ new)
  attend layer _ q kv _ := .ok (q.map fun _ => 10 * kv.foldl (· + ·) 0 + layer)
  output _ x i := .ok [x.getD i 0]

variable {b : UInt32}

theorem readFile_blank (b : UInt32) (file : (blank b).File) :
    ModelFacts.readFile file = .ok (blankFacts b) := rfl

theorem readEnds_blank (file : (blank b).File) {first last : ℕ} (hfirst : first ≤ last)
    (hlast : last ≤ b.toNat) :
    ∃ ends, readEnds (blankHeader b) file first last = .ok ends ∧ ends.headCount = 1 := by
  have hheads : mdU32 (blankHeader b).metadata "llama.attention.head_count" = .ok 1 := rfl
  have hblocks : mdU32 (blankHeader b).metadata "llama.block_count" = .ok b := rfl
  have hrange : ¬ (last > b.toNat ∨ first > last) := by omega
  refine ⟨⟨1, (), if first = 0 then some () else none,
    if last = b.toNat then some () else none⟩, ?_, rfl⟩
  rw [readEnds, hheads, hblocks]
  show (if _ then _ else _) = _
  rw [if_neg hrange]
  by_cases hembedding : first = 0 <;> by_cases hhead : last = b.toNat <;>
    simp only [hembedding, hhead, if_true, if_false] <;> rfl

theorem readLayers_blank (file : (blank b).File) {ends : Ends (blank b)} (h : ends.headCount = 1)
    (is : List ℕ) : ∃ layers, readLayers ends file is = .ok layers := by
  induction is with
  | nil => exact ⟨[], rfl⟩
  | cons i rest ih =>
    obtain ⟨layers, hlayers⟩ := ih
    refine ⟨{ index := i, weights := (), kvCache := none } :: layers, ?_⟩
    show (if ends.headCount = 0 then _ else _) = _
    rw [if_neg (by rw [h]; decide), hlayers]
    rfl

theorem openFile_blank (file : (blank b).File) {spec : ShardSpec}
    (hfirst : spec.firstLayer ≤ spec.lastLayer) (hlast : spec.lastLayer ≤ b) :
    ∃ shard, CandleShard.openFile file spec = .ok shard := by
  have hrange : ¬ (spec.lastLayer > (blankFacts b).layers ∨ spec.firstLayer > spec.lastLayer) :=
    not_or.2 ⟨UInt32.not_lt.2 hlast, UInt32.not_lt.2 hfirst⟩
  obtain ⟨ends, hends, hheads⟩ := readEnds_blank file (UInt32.le_iff_toNat_le.1 hfirst)
    (UInt32.le_iff_toNat_le.1 hlast)
  obtain ⟨layers, hlayers⟩ := readLayers_blank file hheads
    (List.range' spec.firstLayer.toNat (spec.lastLayer.toNat - spec.firstLayer.toNat))
  have hmodel : ShardModel.fromGguf (blankHeader b) file spec.firstLayer.toNat
      spec.lastLayer.toNat = .ok ⟨ends.tokEmbeddings, layers, ends.head, .empty⟩ := by
    rw [ShardModel.fromGguf, hends]
    show (readLayers _ _ _).andThen _ = _
    rw [hlayers]
    rfl
  refine ⟨⟨⟨ends.tokEmbeddings, layers, ends.head, .empty⟩, blankFacts b, spec,
    shardWeightBytes (blankHeader b) spec b, none⟩, ?_⟩
  have hcontent : (blank b).content file = .ok (blankHeader b) := rfl
  have hread : ModelFacts.read (blankHeader b).metadata = .ok (blankFacts b) := rfl
  unfold CandleShard.openFile
  rw [hcontent, Except.mapError, Outcome.ofExcept_andThen, hread, Outcome.ofExcept_andThen,
    if_neg (by simp [blankFacts]), if_neg hrange, hmodel]
  rfl

theorem forward_blank (m : ShardModel (blank b)) (x : (blank b).Tensor) (indexPos : ℕ) :
    ∃ out, (m.forward x indexPos).result = .ok out := by
  have henter : ∃ start, m.enter x = .ok (start, 0) := by
    unfold ShardModel.enter
    cases m.tokEmbeddings <;> exact ⟨_, rfl⟩
  obtain ⟨start, hstart⟩ := henter
  have hmask : (m.maskFor 0 indexPos).1 = .ok (some ()) := by
    show ((m.masks.get 0 indexPos).1).map some = _
    rw [Masks.get_fst]
    rfl
  have hlayer (mask : Option (blank b).Mask) (layer : Layer (blank b)) (u : Unit)
      (x : (blank b).Tensor) : ∃ y, (layer.forward mask indexPos u x).result = .ok y := by
    unfold Layer.forward Layer.extend
    cases layer.kvCache with
    | none => exact ⟨(), rfl⟩
    | some cached => by_cases hpos : indexPos = 0 <;> simp only [hpos, if_true, if_false] <;>
        exact ⟨(), rfl⟩
  rcases hget : m.maskFor 0 indexPos with ⟨mask, masks⟩
  rw [hget] at hmask
  obtain rfl : mask = .ok (some ()) := hmask
  obtain ⟨out, hout⟩ := relay_total (hlayer (some ())) m.layers () start
  have hfinish : ∃ final, m.finish 0 out = .ok final := by
    unfold ShardModel.finish
    cases m.head <;> exact ⟨_, rfl⟩
  obtain ⟨final, hfinal⟩ := hfinish
  refine ⟨final, ?_⟩
  unfold ShardModel.forward
  rw [hstart]
  dsimp only
  rw [hget]
  dsimp only
  rw [Call.lift_result, hout]
  exact hfinal

/-- A shard runs what it takes. -/
theorem run_blank {s : CandleShard (blank b)} {payload : Payload}
    (h : payload.EntersAt s.spec.firstLayer) (pos : UInt32) :
    ∃ y, (s.run payload pos).result = .ok y := by
  have hin : ∃ x, s.input payload = .ok x := by
    unfold CandleShard.input
    cases hown : s.ownsEmbedding with
    | true =>
      cases payload with
      | tokens ids => exact ⟨(), rfl⟩
      | hidden activation => exact absurd (CandleShard.ownsEmbedding_iff.1 hown) h
      | logits values => exact h.elim
    | false =>
      cases payload with
      | tokens ids =>
        exact absurd (hown.symm.trans (CandleShard.ownsEmbedding_iff.2 h)) Bool.false_ne_true
      | hidden activation => exact ⟨(), rfl⟩
      | logits values => exact h.elim
  have hout (out : (blank b).Tensor) : ∃ y, s.output out = .ok y := by
    unfold CandleShard.output
    split_ifs
    · exact ⟨_, rfl⟩
    · cases hwire : s.spec.wireDtype <;> exact ⟨_, rfl⟩
  obtain ⟨x, hx⟩ := hin
  obtain ⟨out, hforward⟩ := forward_blank s.model x pos.toNat
  obtain ⟨y, hy⟩ := hout out
  refine ⟨y, ?_⟩
  unfold CandleShard.run
  rw [hx]
  dsimp only
  rw [Call.lift_result, hforward]
  exact hy

/-! ### An engine with the checks of the tensor library -/

/-- The values in their only shape: a batch of one, with one number for each position. -/
def shaped (values : List UInt32) (shape : ℕ × ℕ × ℕ) : Except String (List UInt32) :=
  if shape = (1, values.length, 1) then .ok values else .error "shape mismatch"

/-- Queries and keys of positions that the tables of the rotary embedding cover. -/
def rotary (x : List UInt32) (indexPos : ℕ) : Except String (List UInt32 × List UInt32) :=
  if indexPos + x.length ≤ MAX_SEQ_LEN then .ok (x, x) else .error "narrow out of bounds"

/-- Attention with a mask, if there is one, that has the shape of the queries and the keys. -/
def attention (layer : UInt32) (q kv : List UInt32) (mask : Option (ℕ × ℕ)) :
    Except String (List UInt32) :=
  if mask.all (· = (q.length, kv.length)) then
    .ok (q.map fun _ => 10 * kv.foldl (· + ·) 0 + layer)
  else .error "cannot broadcast"

/-- `tally` with these checks. -/
def checked (layers : UInt32) : Candle :=
  { tally layers with
    Mask := ℕ × ℕ
    fromVec := shaped
    buildCausalMask := fun seqLen indexPos => .ok (seqLen, indexPos + seqLen)
    project := fun _ x indexPos => rotary x indexPos
    attend := fun layer _ q kv mask => attention layer q kv mask }

section

variable {values x y q kv : List UInt32} {shape : ℕ × ℕ × ℕ} {pos : ℕ}

theorem shaped_eq_ok : shaped values shape = .ok x ↔ shape = (1, x.length, 1) ∧ values = x := by
  unfold shaped
  split_ifs with h
  · exact ⟨fun hok => by cases hok; exact ⟨h, rfl⟩, fun ⟨_, hx⟩ => congrArg Except.ok hx⟩
  · refine ⟨fun hok => (by cases hok), fun ⟨hshape, hx⟩ => absurd ?_ h⟩
    rw [hx, hshape]

theorem rotary_eq_ok {r : List UInt32 × List UInt32} :
    rotary x pos = .ok r ↔ pos + x.length ≤ MAX_SEQ_LEN ∧ (x, x) = r := by
  unfold rotary
  split_ifs with h
  · exact ⟨fun hok => ⟨h, Except.ok.inj hok⟩, fun ⟨_, hr⟩ => congrArg Except.ok hr⟩
  · exact ⟨fun hok => (by cases hok), fun ⟨hbound, _⟩ => absurd hbound h⟩

theorem attention_length {layer : UInt32} {mask : Option (ℕ × ℕ)}
    (h : attention layer q kv mask = .ok y) : y.length = q.length := by
  unfold attention at h
  split_ifs at h
  cases h
  exact List.length_map _

end

/-- The positions a cache of `checked` holds are its numbers. -/
def checkedPositions (layers : UInt32) : (checked layers).Positions where
  held := List.length
  embed e ids x y hx hy := by
    cases hx
    cases hy
    exact ⟨1, by decide, rfl⟩
  fromVec values shape x h := by
    obtain ⟨rfl, -⟩ := shaped_eq_ok.1 h
    rfl
  block weights x pos q new kv mask y hproject hattend := by
    obtain ⟨-, h⟩ := rotary_eq_ok.1 hproject
    obtain ⟨rfl, -⟩ := Prod.mk.inj h
    have hlen := attention_length hattend
    exact congrArg (fun n => Except.ok (1, n, 1)) hlen
  held_new weights x pos q new shape hproject hdims := by
    obtain ⟨-, h⟩ := rotary_eq_ok.1 hproject
    obtain ⟨-, rfl⟩ := Prod.mk.inj h
    cases hdims
    rfl
  held_cat cached new kv h := by
    cases h
    exact List.length_append

theorem checksMasks_checked (layers : UInt32) : (checkedPositions layers).ChecksMasks := by
  intro weights x q kv seqLen indexPos mask y hmask hattend _
  change attention weights q kv (some mask) = .ok y at hattend
  cases hmask
  unfold attention at hattend
  split_ifs at hattend with hshape
  have hpair : (seqLen, indexPos + seqLen) = (q.length, kv.length) := of_decide_eq_true hshape
  exact (congrArg Prod.snd hpair).symm

theorem boundary_checked (layers : UInt32) : (checked layers).Boundary where
  toShapes := (checkedPositions layers).toShapes
  narrow weights x pos r shape hproject hdims := by
    cases hdims
    exact (rotary_eq_ok.1 hproject).1
  readBack x shape hdims := by
    cases hdims
    exact ⟨x, rfl, by simp, shaped_eq_ok.2 ⟨rfl, rfl⟩⟩

/-- A shard of the model of `checked`, as it is opened. -/
def checkedShard (layers firstLayer lastLayer : UInt32) : CandleShard (checked layers) where
  model :=
    { tokEmbeddings := if firstLayer = 0 then some () else none
      layers := (List.range' firstLayer.toNat (lastLayer.toNat - firstLayer.toNat)).map fun i =>
        { index := i, weights := UInt32.ofNat i, kvCache := none }
      head := if lastLayer = layers then some () else none
      masks := .empty }
  facts := blankFacts layers
  spec := ⟨"0000000000000000", firstLayer, lastLayer, 8, .f16, .f32⟩
  weightBytes := 0
  active := none

end Engine

end Latticed
