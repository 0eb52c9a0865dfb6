import Latticed.Engine.Abi
import Latticed.Rust.Relay

/-!
# The layers of a shard

A shard reads the tensors of its own range of layers and nothing else, runs its input through them
in order, and keeps the keys and values of what it has seen in one cache per layer.  The tensor
library is a parameter: `Candle` names the operations that are used of it.

* `Masks.get_fst` : remembering causal masks does not change them.
* `ShardModel.fromGguf_indices` : a loaded shard has the layers it was asked for, in order.
* `ShardModel.forward_indices` : running a shard applies these layers, in order, and keeps them.
-/

namespace Latticed

namespace Engine

open Rust

/-- The tensor library: the types it works with, and what is asked of it.  Each operation may fail,
with the text of its error. -/
structure Candle where
  /-- A GGUF file. -/
  File : Type
  /-- A tensor as the file stores it. -/
  QTensor : Type
  /-- A tensor to compute with. -/
  Tensor : Type
  /-- The keys and values of the positions a layer has seen. -/
  KvCache : Type
  /-- A causal mask. -/
  Mask : Type
  /-- The figures of the header that layers are built with. -/
  Parameters : Type
  /-- The embedding. -/
  Embedding : Type
  /-- The final norm and the output projection. -/
  Head : Type
  /-- The tensors of one block. -/
  LayerWeights : Type
  /-- How `{:?}` prints the architecture of a model. -/
  archDebug : String → String
  /-- The digest of the file, in hexadecimal. -/
  hashFile : File → Except EngineError String
  /-- Opening the file and reading its header. -/
  content : File → Except String Content
  /-- Reading the figures. -/
  parameters : Metadata → Except String Parameters
  /-- Reading a tensor by its name. -/
  tensor : File → String → Except String QTensor
  /-- Dequantizing the embedding. -/
  embedding : Parameters → QTensor → Except String Embedding
  /-- The head, from its norm and its output projection. -/
  head : Parameters → QTensor → QTensor → Except String Head
  /-- Reading the tensors of block `i`. -/
  layerWeights : Parameters → File → ℕ → Except String LayerWeights
  /-- A batch of one with these token ids. -/
  newTokens : List UInt32 → Except String Tensor
  /-- A tensor with these values and this shape. -/
  fromVec : List F32 → ℕ × ℕ × ℕ → Except String Tensor
  /-- The shape of a tensor that has three dimensions. -/
  dims3 : Tensor → Except String (ℕ × ℕ × ℕ)
  /-- All the values, flattened, as `f16`. -/
  toVecF16 : Tensor → Except String (List F16)
  /-- All the values, flattened, as `f32`. -/
  toVecF32 : Tensor → Except String (List F32)
  /-- The values of a batch of one row, as `f32`. -/
  rowToVec : Tensor → Except String (List F32)
  /-- Widening an `f16`. -/
  f16ToF32 : F16 → F32
  /-- The embedding of token ids. -/
  embed : Embedding → Tensor → Except String Tensor
  /-- The mask of `seqLen` positions that follow `indexPos` others. -/
  buildCausalMask : ℕ → ℕ → Except String Mask
  /-- Norm, projections and rotary embedding at a position: the queries, and the new keys and
  values. -/
  project : LayerWeights → Tensor → ℕ → Except String (Tensor × KvCache)
  /-- Keys and values, one after the other. -/
  cat : KvCache → KvCache → Except String KvCache
  /-- Attention of the queries over keys and values, the residual, and the feed-forward block. -/
  attend : LayerWeights → Tensor → Tensor → KvCache → Option Mask → Except String Tensor
  /-- The logits of the position with this index. -/
  output : Head → Tensor → ℕ → Except String Tensor

/-- The text of an error. -/
def Candle.display (C : Candle) (e : EngineError) : String := e.display C.archDebug

variable {C : Candle}

/-! ### One layer -/

/-- A layer with its cache.  `index` says which block of the model it is: the source keeps that in
the names of the tensors it reads. -/
structure Layer (C : Candle) where
  index : ℕ
  weights : C.LayerWeights
  kvCache : Option C.KvCache

/-- The keys and values a layer attends to: the cached ones followed by the new ones, except at
position 0, which starts over. -/
def Layer.extend (layer : Layer C) (indexPos : ℕ) (new : C.KvCache) : Except String C.KvCache :=
  match layer.kvCache with
  | none => .ok new
  | some cached => if indexPos = 0 then .ok new else C.cat cached new

/-- The body of the loop of `ShardModel::forward`.  The cache is written before attention runs. -/
def Layer.forward (mask : Option C.Mask) (indexPos : ℕ) (layer : Layer C) (_ : Unit)
    (x : C.Tensor) : Call (Layer C × Unit) ℕ String C.Tensor :=
  let unchanged (e : String) : Call (Layer C × Unit) ℕ String C.Tensor :=
    ⟨.error e, (layer, ()), [layer.index]⟩
  match C.project layer.weights x indexPos with
  | .error e => unchanged e
  | .ok (q, new) =>
    match layer.extend indexPos new with
    | .error e => unchanged e
    | .ok kv =>
      ⟨C.attend layer.weights x q kv mask, ({ layer with kvCache := some kv }, ()), [layer.index]⟩

@[simp] theorem Layer.forward_index (mask : Option C.Mask) (indexPos : ℕ) (layer : Layer C)
    (u : Unit) (x : C.Tensor) : (layer.forward mask indexPos u x).state.1.index = layer.index := by
  unfold Layer.forward
  cases C.project layer.weights x indexPos with
  | error e => rfl
  | ok p =>
    dsimp only
    cases layer.extend indexPos p.2 <;> rfl

@[simp] theorem Layer.forward_trace (mask : Option C.Mask) (indexPos : ℕ) (layer : Layer C)
    (u : Unit) (x : C.Tensor) : (layer.forward mask indexPos u x).trace = [layer.index] := by
  unfold Layer.forward
  cases C.project layer.weights x indexPos with
  | error e => rfl
  | ok p =>
    dsimp only
    cases layer.extend indexPos p.2 <;> rfl

/-! ### The masks -/

/-- The masks built so far, by the number of queries and the number of keys. -/
structure Masks (C : Candle) where
  entries : List ((ℕ × ℕ) × C.Mask)
  /-- Each is the mask of its queries, which follow the other keys. -/
  built : ∀ key mask, entries.lookup key = some mask →
    C.buildCausalMask key.1 (key.2 - key.1) = .ok mask

/-- `HashMap::new`. -/
def Masks.empty : Masks C := ⟨[], fun _ _ h => by cases h⟩

/-- `ShardModel::mask`: the mask, and the masks to remember. -/
def Masks.get (masks : Masks C) (seqLen indexPos : ℕ) : Except String C.Mask × Masks C :=
  match masks.entries.lookup (seqLen, indexPos + seqLen) with
  | some mask => (.ok mask, masks)
  | none =>
    match h : C.buildCausalMask seqLen indexPos with
    | .error e => (.error e, masks)
    | .ok mask =>
      (.ok mask, ⟨((seqLen, indexPos + seqLen), mask) :: masks.entries, by
        intro key m hm
        rw [List.lookup_cons] at hm
        split at hm
        · rename_i hkey
          obtain rfl := eq_of_beq hkey
          obtain rfl := Option.some.inj hm
          rw [Nat.add_sub_cancel]
          exact h
        · exact masks.built key m hm⟩)

/-- **Remembering masks does not change them.** -/
theorem Masks.get_fst (masks : Masks C) (seqLen indexPos : ℕ) :
    (masks.get seqLen indexPos).1 = C.buildCausalMask seqLen indexPos := by
  unfold Masks.get
  cases hlookup : masks.entries.lookup (seqLen, indexPos + seqLen) with
  | some mask =>
    have := masks.built _ _ hlookup
    rw [Nat.add_sub_cancel] at this
    exact this.symm
  | none =>
    dsimp only
    split
    · rename_i h
      exact h.symm
    · rename_i h
      exact h.symm

/-! ### Loading -/

/-- A shard's tensors and caches. -/
structure ShardModel (C : Candle) where
  /-- Present only on the shard that holds layer 0. -/
  tokEmbeddings : Option C.Embedding
  layers : List (Layer C)
  /-- Present only on the shard that holds the final layer. -/
  head : Option C.Head
  masks : Masks C

/-- `md_get(key)?.to_u32()?`.  Unlike `u32At`, this refuses a `U64`. -/
def mdU32 (metadata : Metadata) (key : String) : Except String UInt32 :=
  match metadata.lookup key with
  | none => .error ("cannot find " ++ key ++ " in metadata")
  | some ⟨.u8 v, _, _, _⟩ => .ok v.toUInt32
  | some ⟨.u16 v, _, _, _⟩ => .ok v.toUInt32
  | some ⟨.u32 v, _, _, _⟩ => .ok v
  | some v => .error v.notU32

/-- What a shard loads besides its layers. -/
structure Ends (C : Candle) where
  headCount : UInt32
  parameters : C.Parameters
  tokEmbeddings : Option C.Embedding
  head : Option C.Head

/-- The tensor of the output projection.  With tied embeddings it is the embedding, which is not
read twice. -/
def readOutput (file : C.File) (embeddingQ : Option C.QTensor) : Except String C.QTensor :=
  match C.tensor file "output.weight", embeddingQ with
  | .ok q, _ => .ok q
  | .error _, some q => .ok q
  | .error _, none => C.tensor file "token_embd.weight"

/-- The first half of `ShardModel::from_gguf`. -/
def readEnds (content : Content) (file : C.File) (firstLayer lastLayer : ℕ) :
    Except String (Ends C) := do
  let headCount ← mdU32 content.metadata "llama.attention.head_count"
  let blockCount ← mdU32 content.metadata "llama.block_count"
  let parameters ← C.parameters content.metadata
  if lastLayer > blockCount.toNat ∨ firstLayer > lastLayer then
    .error ("layers " ++ toString firstLayer ++ ".." ++ toString lastLayer ++ " outside a " ++
      toString blockCount ++ "-layer model")
  else
    let embeddingQ ←
      if firstLayer = 0 then (C.tensor file "token_embd.weight").map some else .ok none
    let tokEmbeddings ← match embeddingQ with
      | some q => (C.embedding parameters q).map some
      | none => .ok none
    let head ←
      if lastLayer = blockCount.toNat then do
        let norm ← C.tensor file "output_norm.weight"
        let output ← readOutput file embeddingQ
        (C.head parameters norm output).map some
      else .ok none
    return { headCount, parameters, tokEmbeddings, head }

/-- The loop of `ShardModel::from_gguf`. -/
def readLayers (ends : Ends C) (file : C.File) : List ℕ → Outcome String (List (Layer C))
  | [] => .ok []
  | i :: rest =>
    (Outcome.ofExcept (C.layerWeights ends.parameters file i)).andThen fun weights =>
      -- `head_dim: embedding_length / head_count`
      if ends.headCount = 0 then .panic "attempt to divide by zero"
      else (readLayers ends file rest).andThen fun layers =>
        .ok ({ index := i, weights, kvCache := none } :: layers)

/-- `ShardModel::from_gguf`: loads the tensors for layers `firstLayer..lastLayer` and nothing
else. -/
def ShardModel.fromGguf (content : Content) (file : C.File) (firstLayer lastLayer : ℕ) :
    Outcome String (ShardModel C) :=
  (Outcome.ofExcept (readEnds content file firstLayer lastLayer)).andThen fun ends =>
    (readLayers ends file (List.range' firstLayer (lastLayer - firstLayer))).andThen fun layers =>
      .ok { tokEmbeddings := ends.tokEmbeddings, layers, head := ends.head, masks := .empty }

/-- The blocks of the model a shard holds. -/
def ShardModel.indices (m : ShardModel C) : List ℕ := m.layers.map Layer.index

theorem readLayers_index {ends : Ends C} {file : C.File} {is : List ℕ} {layers : List (Layer C)}
    (h : readLayers ends file is = .ok layers) : layers.map Layer.index = is := by
  induction is generalizing layers with
  | nil => cases h; rfl
  | cons i rest ih =>
    rw [readLayers] at h
    obtain ⟨weights, -, h⟩ := Outcome.andThen_eq_ok.1 h
    split_ifs at h
    obtain ⟨tail, htail, h⟩ := Outcome.andThen_eq_ok.1 h
    cases h
    rw [List.map_cons, ih htail]

/-- **A loaded shard has the layers it was asked for.** -/
theorem ShardModel.fromGguf_indices {content : Content} {file : C.File} {firstLayer lastLayer : ℕ}
    {m : ShardModel C} (h : fromGguf content file firstLayer lastLayer = .ok m) :
    m.indices = List.range' firstLayer (lastLayer - firstLayer) := by
  obtain ⟨ends, -, h⟩ := Outcome.andThen_eq_ok.1 h
  obtain ⟨layers, hlayers, h⟩ := Outcome.andThen_eq_ok.1 h
  cases h
  exact readLayers_index hlayers

/-! ### Running -/

/-- The layer with an empty cache. -/
def Layer.cleared (layer : Layer C) : Layer C := { layer with kvCache := none }

/-- `clear_kv_cache`. -/
def ShardModel.clearKvCache (m : ShardModel C) : ShardModel C :=
  { m with layers := m.layers.map Layer.cleared }

/-- `seq_len - 1`, as a release build computes it. -/
def lastPosition (seqLen : ℕ) : ℕ := (UInt64.ofNat seqLen - 1).toNat

/-- The end of `ShardModel::forward`: logits of the final position on the shard that owns the head,
hidden states of every position on any other. -/
def ShardModel.finish (m : ShardModel C) (seqLen : ℕ) (x : C.Tensor) : Except String C.Tensor :=
  match m.head with
  | none => .ok x
  | some head => C.output head x (lastPosition seqLen)

/-- The mask for `seqLen` positions, if there is more than one. -/
def ShardModel.maskFor (m : ShardModel C) (seqLen indexPos : ℕ) :
    Except String (Option C.Mask) × Masks C :=
  if seqLen = 1 then (.ok none, m.masks)
  else
    let (mask, masks) := m.masks.get seqLen indexPos
    (mask.map some, masks)

/-- The start of `ShardModel::forward`: the hidden states the layers begin with, and their number. -/
def ShardModel.enter (m : ShardModel C) (x : C.Tensor) : Except String (C.Tensor × ℕ) := do
  let layerIn ← match m.tokEmbeddings with
    | some embeddings => C.embed embeddings x
    | none => .ok x
  let (_, seqLen, _) ← C.dims3 layerIn
  return (layerIn, seqLen)

/-- `ShardModel::forward`; its trace is the layers it applies. -/
def ShardModel.forward (m : ShardModel C) (x : C.Tensor) (indexPos : ℕ) :
    Call (ShardModel C) ℕ String C.Tensor :=
  match m.enter x with
  | .error e => .pure (.error e) m
  | .ok (layerIn, seqLen) =>
    match m.maskFor seqLen indexPos with
    | (.error e, masks) => .pure (.error e) { m with masks }
    | (.ok mask, masks) =>
      (relay (Layer.forward mask indexPos) m.layers () layerIn).lift
        (fun after => { m with masks, layers := after.1 }) (·.bind (m.finish seqLen))

theorem relay_layers (mask : Option C.Mask) (indexPos : ℕ) (layers : List (Layer C))
    (x : C.Tensor) :
    (relay (Layer.forward mask indexPos) layers () x).state.1.map Layer.index =
        layers.map Layer.index ∧
      ∀ y, (relay (Layer.forward mask indexPos) layers () x).result = .ok y →
        (relay (Layer.forward mask indexPos) layers () x).trace = layers.map Layer.index := by
  have hfit : AllFit (fun i (layer : Layer C) (_ : Unit) => layer.index = i)
      (layers.map Layer.index) layers () := by
    induction layers with
    | nil => exact .nil
    | cons layer layers ih => exact .cons rfl ih
  have hrun (i : ℕ) (layer : Layer C) (u : Unit) (x : C.Tensor) (hi : layer.index = i) :
      (layer.forward mask indexPos u x).state.1.index = i ∧
        ∀ y, (layer.forward mask indexPos u x).result = .ok y →
          (layer.forward mask indexPos u x).trace = [i] :=
    ⟨(layer.forward_index mask indexPos u x).trans hi, fun y _ => by rw [Layer.forward_trace, hi]⟩
  obtain ⟨hstate, htrace⟩ := relay_fits (x := x) hrun (fun _ _ _ _ _ _ _ h => h) hfit
  refine ⟨?_, fun y hy => (htrace y hy).trans (List.flatMap_singleton' _)⟩
  generalize layers.map Layer.index = plan at hstate
  generalize (relay (Layer.forward mask indexPos) layers () x).state.1 = after at hstate
  clear htrace hfit
  induction hstate with
  | nil => rfl
  | cons h _ ih => rw [List.map_cons, h, ih]

/-- **Running a shard keeps its layers, and applies each of them once, in order.** -/
theorem ShardModel.forward_indices (m : ShardModel C) (x : C.Tensor) (indexPos : ℕ) :
    (m.forward x indexPos).state.indices = m.indices ∧
      ∀ y, (m.forward x indexPos).result = .ok y → (m.forward x indexPos).trace = m.indices := by
  unfold ShardModel.forward
  cases m.enter x with
  | error e => exact ⟨rfl, fun y hy => by cases hy⟩
  | ok p =>
    dsimp only
    rcases m.maskFor p.2 indexPos with ⟨_ | mask, masks⟩
    · exact ⟨rfl, fun y hy => by cases hy⟩
    · obtain ⟨hstate, htrace⟩ := relay_layers mask indexPos m.layers p.1
      refine ⟨hstate, fun y hy => ?_⟩
      cases hres : (relay (Layer.forward mask indexPos) m.layers () p.1).result with
      | error e =>
        rw [Call.lift_result, hres] at hy
        cases hy
      | ok z => exact htrace z hres

/-! ### What a run depends on -/

/-- Equal but for the masks that are remembered. -/
def ShardModel.Agrees (m n : ShardModel C) : Prop := ∃ masks, n = { m with masks }

theorem ShardModel.Agrees.refl (m : ShardModel C) : m.Agrees m := ⟨m.masks, rfl⟩

theorem ShardModel.Agrees.symm {m n : ShardModel C} (h : m.Agrees n) : n.Agrees m := by
  obtain ⟨masks, rfl⟩ := h
  exact ⟨m.masks, rfl⟩

theorem ShardModel.Agrees.trans {m n k : ShardModel C} (h : m.Agrees n) (h' : n.Agrees k) :
    m.Agrees k := by
  obtain ⟨masks, rfl⟩ := h
  obtain ⟨masks', rfl⟩ := h'
  exact ⟨masks', rfl⟩

theorem ShardModel.Agrees.clearKvCache {m n : ShardModel C} (h : m.Agrees n) :
    m.clearKvCache.Agrees n.clearKvCache := by
  obtain ⟨masks, rfl⟩ := h
  exact ⟨masks, rfl⟩

/-- **What a run returns does not depend on the masks that are remembered.** -/
theorem ShardModel.Agrees.forward {m n : ShardModel C} (h : m.Agrees n) (x : C.Tensor)
    (indexPos : ℕ) : (n.forward x indexPos).result = (m.forward x indexPos).result ∧
      (m.forward x indexPos).state.Agrees (n.forward x indexPos).state := by
  obtain ⟨masks, rfl⟩ := h
  have henter : ({ m with masks } : ShardModel C).enter x = m.enter x := rfl
  have hmask (seqLen : ℕ) : (({ m with masks } : ShardModel C).maskFor seqLen indexPos).1 =
      (m.maskFor seqLen indexPos).1 := by
    unfold ShardModel.maskFor
    split_ifs
    · rfl
    · show (masks.get seqLen indexPos).1.map some = (m.masks.get seqLen indexPos).1.map some
      rw [Masks.get_fst, Masks.get_fst]
  unfold ShardModel.forward
  rw [henter]
  cases m.enter x with
  | error e => exact ⟨rfl, masks, rfl⟩
  | ok start =>
    -- a mask that is remembered is the one that would be built
    have hmask := hmask start.2
    dsimp only
    rcases hn : ({ m with masks } : ShardModel C).maskFor start.2 indexPos with ⟨mask, masks'⟩
    rcases hm : m.maskFor start.2 indexPos with ⟨mask', masks''⟩
    rw [hn, hm] at hmask
    obtain rfl : mask = mask' := hmask
    cases mask with
    | error e => exact ⟨rfl, masks', rfl⟩
    | ok mask => exact ⟨rfl, masks', rfl⟩

theorem Layer.forward_cleared (mask : Option C.Mask) (indexPos : ℕ) (layer : Layer C) (u : Unit)
    (x : C.Tensor) : (layer.forward mask indexPos u x).state.1.cleared = layer.cleared := by
  unfold Layer.forward
  cases C.project layer.weights x indexPos with
  | error e => rfl
  | ok p =>
    dsimp only
    cases layer.extend indexPos p.2 <;> rfl

theorem relay_cleared (mask : Option C.Mask) (indexPos : ℕ) (layers : List (Layer C))
    (x : C.Tensor) : (relay (Layer.forward mask indexPos) layers () x).state.1.map Layer.cleared =
      layers.map Layer.cleared := by
  induction layers generalizing x with
  | nil => rfl
  | cons layer layers ih =>
    have hlayer := layer.forward_cleared mask indexPos () x
    rw [relay]
    cases (layer.forward mask indexPos () x).result with
    | error e =>
      dsimp only
      rw [List.map_cons, List.map_cons, hlayer]
    | ok y =>
      dsimp only
      rw [List.map_cons, List.map_cons, hlayer, ih y]

/-- **A run changes nothing but caches and masks.** -/
theorem ShardModel.forward_clearKvCache (m : ShardModel C) (x : C.Tensor) (indexPos : ℕ) :
    m.clearKvCache.Agrees (m.forward x indexPos).state.clearKvCache := by
  unfold ShardModel.forward
  cases m.enter x with
  | error e => exact .refl _
  | ok start =>
    dsimp only
    rcases m.maskFor start.2 indexPos with ⟨_ | mask, masks⟩
    · exact ⟨masks, rfl⟩
    · refine ⟨masks, ?_⟩
      have hlayers := relay_cleared mask indexPos m.layers start.1
      exact congrArg (fun layers => ShardModel.mk m.tokEmbeddings layers m.head masks) hlayers

end Engine

end Latticed
