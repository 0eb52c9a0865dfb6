import Latticed.Engine.Samples
import Latticed.LTS.Basic

/-!
# A split model says what the whole model says

The same calls are made to a shard with all the layers and to a chain of shards that hold consecutive
ranges of them.  Between two shards of the chain the hidden states are written out as bytes and read
in again.

* `openFile_inv` : what a shard that opened has read.
* `cross_boundary` : hidden states that are sent as `f32` arrive as they were.
* `Split.feed` : a call to the chain runs the layers of its shards one after the other.
* `split_equivalence` : the chain answers as the whole shard, up to the first call that fails.
-/

namespace Latticed

namespace Engine

open Rust

variable {C : Candle}

/-! ### What is read from the file -/

/-- What the loader reads as a figure, the planner reads as the same one. -/
theorem u32At_of_mdU32 {metadata : Metadata} {key : String} {n : UInt32}
    (h : mdU32 metadata key = .ok n) : u32At metadata key = .ok n := by
  unfold mdU32 at h
  unfold u32At
  cases hvalue : metadata.lookup key with
  | none => rw [hvalue] at h; cases h
  | some v =>
    rw [hvalue] at h
    obtain ⟨held, valueType, notString, notU32⟩ := v
    cases held with
    | u8 v => exact congrArg Except.ok (Except.ok.inj h)
    | u16 v => exact congrArg Except.ok (Except.ok.inj h)
    | u32 v => exact congrArg Except.ok (Except.ok.inj h)
    | u64 v => cases h
    | string s => cases h
    | other => cases h

theorem ModelFacts.read_layers {metadata : Metadata} {facts : ModelFacts} {blockCount : UInt32}
    (h : ModelFacts.read metadata = .ok facts) (harch : facts.arch = "llama")
    (hcount : mdU32 metadata "llama.block_count" = .ok blockCount) : facts.layers = blockCount := by
  obtain ⟨arch, -, h⟩ := bind_eq_ok.1 h
  obtain ⟨heads, -, h⟩ := bind_eq_ok.1 h
  obtain ⟨layers, hlayers, h⟩ := bind_eq_ok.1 h
  obtain ⟨hiddenDim, -, h⟩ := bind_eq_ok.1 h
  obtain ⟨trainContext, -, h⟩ := bind_eq_ok.1 h
  cases h
  obtain rfl : arch = "llama" := harch
  have hkey : "llama" ++ ".block_count" = "llama.block_count" := by decide
  rw [hkey] at hlayers
  exact Except.ok.inj (hlayers.symm.trans (u32At_of_mdU32 hcount))

/-- What the ends of a shard are read from. -/
structure ReadsEnds (content : Content) (file : C.File) (firstLayer lastLayer : ℕ)
    (blockCount : UInt32) (ends : Ends C) : Prop where
  headCount : mdU32 content.metadata "llama.attention.head_count" = .ok ends.headCount
  count : mdU32 content.metadata "llama.block_count" = .ok blockCount
  parameters : C.parameters content.metadata = .ok ends.parameters
  embedding : firstLayer = 0 → ∃ q e, C.tensor file "token_embd.weight" = .ok q ∧
    C.embedding ends.parameters q = .ok e ∧ ends.tokEmbeddings = some e
  noEmbedding : firstLayer ≠ 0 → ends.tokEmbeddings = none
  head : lastLayer = blockCount.toNat → ∃ norm output hd,
    C.tensor file "output_norm.weight" = .ok norm ∧ readOutput file none = .ok output ∧
      C.head ends.parameters norm output = .ok hd ∧ ends.head = some hd
  noHead : lastLayer ≠ blockCount.toNat → ends.head = none

/-- With tied embeddings it makes no difference whether the embedding was read before. -/
theorem readOutput_some {file : C.File} {q : C.QTensor}
    (h : C.tensor file "token_embd.weight" = .ok q) :
    readOutput file (some q) = readOutput file none := by
  unfold readOutput
  cases C.tensor file "output.weight" with
  | ok output => rfl
  | error e => exact h.symm

theorem readEnds_inv {content : Content} {file : C.File} {firstLayer lastLayer : ℕ} {ends : Ends C}
    (h : readEnds content file firstLayer lastLayer = .ok ends) :
    ∃ blockCount, ReadsEnds content file firstLayer lastLayer blockCount ends := by
  obtain ⟨headCount, hheads, h⟩ := bind_eq_ok.1 h
  obtain ⟨blockCount, hblocks, h⟩ := bind_eq_ok.1 h
  obtain ⟨parameters, hparameters, h⟩ := bind_eq_ok.1 h
  refine ⟨blockCount, ?_⟩
  -- the embedding is read first, and the head may reuse it
  have hhead (embeddingQ : Option C.QTensor) (tokEmbeddings : Option C.Embedding)
      (hsame : readOutput file embeddingQ = readOutput file none)
      (h : (if lastLayer = blockCount.toNat then do
          let norm ← C.tensor file "output_norm.weight"
          let output ← readOutput file embeddingQ
          let head ← (C.head parameters norm output).map some
          pure { headCount, parameters, tokEmbeddings, head }
        else do
          let head ← Except.ok none
          pure { headCount, parameters, tokEmbeddings, head }) = Except.ok ends)
      (hembedding : firstLayer = 0 → ∃ q e, C.tensor file "token_embd.weight" = .ok q ∧
        C.embedding parameters q = .ok e ∧ tokEmbeddings = some e)
      (hnone : firstLayer ≠ 0 → tokEmbeddings = none) :
      ReadsEnds content file firstLayer lastLayer blockCount ends := by
    split_ifs at h with hlast
    · obtain ⟨norm, hnorm, h⟩ := bind_eq_ok.1 h
      obtain ⟨output, houtput, h⟩ := bind_eq_ok.1 h
      obtain ⟨head, hhead, h⟩ := bind_eq_ok.1 h
      obtain ⟨hd, hbuilt, rfl⟩ := map_eq_ok.1 hhead
      cases h
      exact ⟨hheads, hblocks, hparameters, hembedding, hnone,
        fun _ => ⟨norm, output, hd, hnorm, hsame ▸ houtput, hbuilt, rfl⟩,
        fun hnot => absurd hlast hnot⟩
    · cases h
      exact ⟨hheads, hblocks, hparameters, hembedding, hnone, fun hlast' => absurd hlast' hlast,
        fun _ => rfl⟩
  by_cases hrange : lastLayer > blockCount.toNat ∨ firstLayer > lastLayer
  · rw [if_pos hrange] at h
    cases h
  rw [if_neg hrange] at h
  by_cases hfirst : firstLayer = 0
  · rw [if_pos hfirst] at h
    obtain ⟨embeddingQ, hq, h⟩ := bind_eq_ok.1 h
    obtain ⟨q, hread, rfl⟩ := map_eq_ok.1 hq
    obtain ⟨tokEmbeddings, he, h⟩ := bind_eq_ok.1 h
    obtain ⟨e, hembedding, rfl⟩ := map_eq_ok.1 he
    exact hhead _ _ (readOutput_some hread) h (fun _ => ⟨q, e, hread, hembedding, rfl⟩)
      fun hnot => absurd hfirst hnot
  · rw [if_neg hfirst] at h
    exact hhead none none rfl h (fun h => absurd h hfirst) fun _ => rfl

theorem readLayers_congr {ends ends' : Ends C} (hheads : ends.headCount = ends'.headCount)
    (hparameters : ends.parameters = ends'.parameters) (file : C.File) (is : List ℕ) :
    readLayers ends file is = readLayers ends' file is := by
  induction is with
  | nil => rfl
  | cons i rest ih => rw [readLayers, readLayers, hheads, hparameters, ih]

theorem readLayers_append {ends : Ends C} {file : C.File} {is js : List ℕ}
    {layers layers' : List (Layer C)} (h : readLayers ends file is = .ok layers)
    (h' : readLayers ends file js = .ok layers') :
    readLayers ends file (is ++ js) = .ok (layers ++ layers') := by
  induction is generalizing layers with
  | nil =>
    cases h
    exact h'
  | cons i rest ih =>
    rw [readLayers] at h
    obtain ⟨weights, hweights, h⟩ := Outcome.andThen_eq_ok.1 h
    split_ifs at h with hzero
    obtain ⟨tail, htail, h⟩ := Outcome.andThen_eq_ok.1 h
    cases h
    rw [List.cons_append, readLayers, hweights, ih htail]
    simp [hzero]

/-- What a shard that opened has read. -/
structure Opened (file : C.File) (spec : ShardSpec) (s : CandleShard C) (content : Content)
    (blockCount : UInt32) (ends : Ends C) : Prop where
  header : C.content file = .ok content
  reads : ReadsEnds content file spec.firstLayer.toNat spec.lastLayer.toNat blockCount ends
  layers : readLayers ends file (List.range' spec.firstLayer.toNat
    (spec.lastLayer.toNat - spec.firstLayer.toNat)) = .ok s.model.layers
  count : s.facts.layers = blockCount
  embedding : s.model.tokEmbeddings = ends.tokEmbeddings
  head : s.model.head = ends.head
  spec : s.spec = spec
  active : s.active = none

theorem openFile_inv {file : C.File} {spec : ShardSpec} {s : CandleShard C}
    (h : CandleShard.openFile file spec = .ok s) :
    ∃ content blockCount ends, Opened file spec s content blockCount ends := by
  obtain ⟨content, hcontent, h⟩ := Outcome.andThen_eq_ok.1 h
  obtain ⟨facts, hfacts, h⟩ := Outcome.andThen_eq_ok.1 h
  split_ifs at h with harch
  obtain ⟨model, hmodel, h⟩ := Outcome.andThen_eq_ok.1 h
  obtain ⟨ends, hends, hmodel⟩ := Outcome.andThen_eq_ok.1 (Outcome.mapErr_eq_ok.1 hmodel)
  obtain ⟨layers, hlayers, hmodel⟩ := Outcome.andThen_eq_ok.1 hmodel
  cases h
  cases hmodel
  obtain ⟨blockCount, hreads⟩ := readEnds_inv (Outcome.ofExcept_eq_ok.1 hends)
  refine ⟨content, blockCount, ends, mapError_eq_ok.1 (Outcome.ofExcept_eq_ok.1 hcontent), hreads,
    hlayers, ?_, rfl, rfl, rfl, rfl⟩
  exact ModelFacts.read_layers (Outcome.ofExcept_eq_ok.1 hfacts) (not_not.1 harch)
    hreads.count

/-! ### Crossing a boundary -/

/-- **Hidden states that are sent as `f32` arrive as they were.** -/
theorem cross_boundary (laws : C.Boundary) {x : C.Tensor} {n hidden : ℕ}
    (hdims : C.dims3 x = .ok (1, n, hidden)) (hn : n < 2 ^ 32) (hhidden : hidden < 2 ^ 32) :
    ∃ activation, fromTensor x .f32 = .ok activation ∧ toTensor C activation = .ok x := by
  obtain ⟨values, hvalues, hlen, hread⟩ := laws.readBack x _ hdims
  let data := values.flatMap fun v => toLeBytes 4 v.toNat
  have hn' : (UInt32.ofNat n).toNat = n := UInt32.toNat_ofNat_of_lt' hn
  have hhidden' : (UInt32.ofNat hidden).toNat = hidden := UInt32.toNat_ofNat_of_lt' hhidden
  have hdata : data.length = n * hidden * 4 := by
    have : ∀ vs : List F32, (vs.flatMap fun v => toLeBytes 4 v.toNat).length = vs.length * 4 := by
      intro vs
      induction vs with
      | nil => rfl
      | cons v vs ih => simp [List.flatMap_cons, ih]; omega
    rw [this, hlen, Nat.one_mul]
  refine ⟨⟨UInt32.ofNat n, UInt32.ofNat hidden, .f32, data⟩, ?_, ?_⟩
  · unfold fromTensor
    rw [hdims, hvalues]
    show Activation.new _ _ _ data = _
    have hsize : data.length.toUInt64 = (UInt32.ofNat n).toUInt64 *
        (UInt32.ofNat hidden).toUInt64 * (WireDtype.size .f32).toUInt64 := by
      rw [← UInt64.toNat_inj]
      simp [hdata, hn', hhidden', WireDtype.size]
    unfold Activation.new
    exact if_neg (not_not_intro hsize)
  · have hchunks : (chunksExact 4 data).map (fun c => UInt32.ofNat (ofLeBytes c)) = values := by
      rw [chunksExact_flatMap (by decide) _ (fun v : F32 => length_toLeBytes 4 v.toNat),
        List.map_map]
      conv_rhs => rw [← List.map_id values]
      apply List.map_congr_left
      intro v _
      show UInt32.ofNat (ofLeBytes (toLeBytes 4 v.toNat)) = v
      rw [ofLeBytes_toLeBytes (by have := v.toNat_lt; omega), UInt32.ofNat_toNat]
    unfold toTensor
    dsimp only
    rw [hchunks, hn', hhidden', hread]
    rfl

/-! ### The chain -/

/-- One shard of a chain: it makes the call on what the shard before it returned. -/
def stepIn (f : Feed) (s : CandleShard C) (_ : Unit) (payload : Payload) :
    Call (CandleShard C × Unit) ℕ EngineError Payload :=
  (s.feed { f with input := payload }).lift (·, ()) id

/-- A call to the whole shard: what it returns, if it returns, and what it leaves. -/
def callWhole (s : CandleShard C) (f : Feed) : Option Payload × CandleShard C :=
  ((s.feed f).result.toOption, (s.feed f).state)

/-- A call to a chain of shards. -/
def callChain (parts : List (CandleShard C)) (f : Feed) : Option Payload × List (CandleShard C) :=
  let call := relay (stepIn f) parts () f.input
  (call.result.toOption, call.state.1)

/-- Shards that hold consecutive ranges of the model in the file, from layer `a` to the last one, none
of them empty, and send hidden states as `f32`. -/
inductive Loaded (file : C.File) (layers : UInt32) : UInt32 → List (CandleShard C) → Prop
  | nil : Loaded file layers layers []
  | cons {a : UInt32} {spec : ShardSpec} {s : CandleShard C} {parts : List (CandleShard C)} :
    CandleShard.openFile file spec = .ok s → spec.wireDtype = .f32 → spec.firstLayer = a →
    a < spec.lastLayer → Loaded file layers spec.lastLayer parts →
    Loaded file layers a (s :: parts)

/-! ### One call -/

/-- The layers a call finds, when it finds these and this session. -/
def readyLayers (active : Option UInt64) (f : Feed) (layers : List (Layer C)) : List (Layer C) :=
  if f.isPrefill = true ∧ (active ≠ some f.session ∨ f.pos = 0) then layers.map Layer.cleared
  else layers

theorem readyLayers_append (active : Option UInt64) (f : Feed) (layers layers' : List (Layer C)) :
    readyLayers active f (layers ++ layers') =
      readyLayers active f layers ++ readyLayers active f layers' := by
  unfold readyLayers
  split_ifs
  · exact List.map_append
  · rfl

theorem readyLayers_ne_nil {active : Option UInt64} {f : Feed} {layers : List (Layer C)}
    (h : layers ≠ []) : readyLayers active f layers ≠ [] := by
  unfold readyLayers
  split_ifs
  · exact fun hnil => h (List.map_eq_nil_iff.1 hnil)
  · exact h

/-- A shard of a chain: whether it is the first and the last, what its ends are, and that it has the
session the others have. -/
structure Part (active : Option UInt64) (embedding : Option C.Embedding) (head : Option C.Head)
    (first last : Bool) (s : CandleShard C) : Prop where
  active : s.active = active
  wire : last = false → s.spec.wireDtype = .f32
  ownsEmbedding : s.ownsEmbedding = first
  tokEmbeddings : s.model.tokEmbeddings = if first then embedding else none
  ownsHead : s.ownsHead = last
  head : s.model.head = if last then head else none
  nonempty : s.model.layers ≠ []

/-- Shards that hold these layers, one after the other. -/
inductive Split (active : Option UInt64) (embedding : Option C.Embedding) (head : Option C.Head) :
    Bool → List (Layer C) → List (CandleShard C) → Prop
  | last {first : Bool} {s : CandleShard C} : Part active embedding head first true s →
    Split active embedding head first s.model.layers [s]
  | cons {first : Bool} {s : CandleShard C} {layers : List (Layer C)}
    {parts : List (CandleShard C)} : Part active embedding head first false s →
    Split active embedding head false layers parts →
    Split active embedding head first (s.model.layers ++ layers) (s :: parts)

variable {active : Option UInt64} {embedding : Option C.Embedding} {head : Option C.Head}
  {first last : Bool} {f : Feed} {payload : Payload} {layerIn : C.Tensor} {n hidden : ℕ}
  {mask : Option C.Mask}

/-- The end of a run: the logits of the last position, or the hidden states as they are. -/
def finishAt (head : Option C.Head) (seqLen : ℕ) (x : C.Tensor) : Except String C.Tensor :=
  match head with
  | none => .ok x
  | some head => C.output head x (lastPosition seqLen)

/-- **A call to one shard**, once its hidden states and its mask are known. -/
theorem Part.feed {s : CandleShard C} (h : Part active embedding head first last s)
    (hadmits : f.isPrefill = true ∨ active = some f.session) {x : C.Tensor}
    (hinput : s.input payload = .ok x) (henter : s.model.enter x = .ok (layerIn, n))
    (hmask : maskOf C n f.pos.toNat = .ok mask) :
    let through := relay (Layer.forward mask f.pos.toNat)
      (readyLayers active f s.model.layers) () layerIn
    (∀ y, (stepIn f s () payload).result = .ok y ↔ ∃ z out, through.result = .ok z ∧
      finishAt s.model.head n z = .ok out ∧ s.output out = .ok y) ∧
    (stepIn f s () payload).state.1.model.layers = through.state.1 ∧
    Part (some f.session) embedding head first last (stepIn f s () payload).state.1 := by
  intro through
  obtain rfl := h.active
  let g : Feed := { f with input := payload }
  have hadm : s.Admits g := hadmits
  have hlayers : (s.ready g).model.layers = readyLayers s.active f s.model.layers := by
    unfold CandleShard.ready readyLayers
    by_cases hempties : s.Empties g
    · have hcond : f.isPrefill = true ∧ (s.active ≠ some f.session ∨ f.pos = 0) := hempties
      rw [if_pos hempties, if_pos hcond]
      rfl
    · have hcond : ¬ (f.isPrefill = true ∧ (s.active ≠ some f.session ∨ f.pos = 0)) := hempties
      rw [if_neg hempties, if_neg hcond]
  have hready := CandleShard.ready_eq hadm
  have hinput' : (s.ready g).input payload = .ok x := by
    rw [hready]
    exact hinput
  have henter' : (s.ready g).model.enter x = .ok (layerIn, n) := by
    rw [hready]
    exact henter
  obtain ⟨masks, hrun⟩ := CandleShard.run_of_masked hinput' henter' hmask
  have hstep : stepIn f s () payload = ((s.ready g).run payload f.pos).lift (·, ()) id :=
    congrArg (Call.lift (·, ()) id) (CandleShard.feed_eq hadm)
  have hne : through.state.1 ≠ [] := by
    intro hnil
    have hkept := (relay_layers mask f.pos.toNat (readyLayers s.active f s.model.layers) layerIn).1
    rw [hnil, List.map_nil] at hkept
    exact readyLayers_ne_nil h.nonempty (List.map_eq_nil_iff.1 hkept.symm)
  rw [hstep, hrun, hready, hlayers]
  refine ⟨fun y => ?_, rfl, ?_⟩
  · exact CandleShard.finished_eq_ok
  · exact ⟨rfl, h.wire, h.ownsEmbedding, h.tokEmbeddings, h.ownsHead, h.head, hne⟩

/-- A shard that is not the last sends on what its layers make of the hidden states, and the next one
reads just that. -/
theorem Part.sends (laws : C.Boundary) {s : CandleShard C}
    (h : Part active embedding head first false s) (hdims : C.dims3 layerIn = .ok (1, n, hidden))
    (hhidden : hidden < 2 ^ 32) {z : C.Tensor}
    (hz : (relay (Layer.forward mask f.pos.toNat) (readyLayers active f s.model.layers) ()
      layerIn).result = .ok z) :
    finishAt s.model.head n z = .ok z ∧ C.dims3 z = .ok (1, n, hidden) ∧
      ∃ activation, s.output z = .ok (.hidden activation) ∧ toTensor C activation = .ok z := by
  have hdims' : C.dims3 z = .ok (1, n, hidden) := (laws.toShapes.relay hz).trans hdims
  have hn : n < 2 ^ 32 := by
    -- the first layer of the shard has narrowed its tables to these positions
    have hready : readyLayers active f s.model.layers ≠ [] := readyLayers_ne_nil h.nonempty
    obtain ⟨layer, rest, hlayers⟩ := List.exists_cons_of_ne_nil hready
    rw [hlayers] at hz
    obtain ⟨y, hlayer, -⟩ := relay_cons_ok.1 hz
    obtain ⟨q, new, kv, hproject, -, -⟩ := Layer.forward_eq_ok hlayer
    have hnarrow := laws.narrow _ _ _ _ _ hproject hdims
    have hmax : MAX_SEQ_LEN < 2 ^ 32 := by decide
    dsimp only at hnarrow
    omega
  obtain ⟨activation, hfrom, hto⟩ := cross_boundary laws hdims' hn hhidden
  refine ⟨?_, hdims', activation, ?_, hto⟩
  · rw [h.head]
    rfl
  · unfold CandleShard.output
    rw [h.ownsHead, h.wire rfl, hfrom]
    rfl

/-- The shards after the first take hidden states as they come. -/
theorem Part.takes {s : CandleShard C} (h : Part active embedding head false last s)
    {activation : Activation} {z : C.Tensor} (hto : toTensor C activation = .ok z)
    (hdims : C.dims3 z = .ok (1, n, hidden)) :
    s.input (.hidden activation) = .ok z ∧ s.model.enter z = .ok (z, n) := by
  constructor
  · unfold CandleShard.input
    rw [h.ownsEmbedding]
    exact hto
  · unfold ShardModel.enter
    rw [h.tokEmbeddings]
    show (C.dims3 z >>= _) = _
    rw [hdims]
    rfl

/-- The logits at the end of the chain. -/
def logitsOf (out : C.Tensor) : Except EngineError Payload :=
  ((C.rowToVec out).mapError .engine).map .logits

theorem Part.output {s : CandleShard C} (h : Part active embedding head first true s)
    (out : C.Tensor) : s.output out = logitsOf out := by
  unfold CandleShard.output
  rw [h.ownsHead]
  rfl

/-- **What comes out of the layers of a shard goes into the next one's**, boundary or not. -/
theorem Part.passes (laws : C.Boundary) {s : CandleShard C}
    (h : Part active embedding head first false s)
    (hadmits : f.isPrefill = true ∨ active = some f.session) {x : C.Tensor}
    (hinput : s.input payload = .ok x) (henter : s.model.enter x = .ok (layerIn, n))
    (hmask : maskOf C n f.pos.toNat = .ok mask) (hdims : C.dims3 layerIn = .ok (1, n, hidden))
    (hhidden : hidden < 2 ^ 32) {z : C.Tensor}
    (hz : (relay (Layer.forward mask f.pos.toNat) (readyLayers active f s.model.layers) ()
      layerIn).result = .ok z) :
    ∃ activation, (∀ y, (stepIn f s () payload).result = .ok y ↔ y = .hidden activation) ∧
      ∀ t last, Part active embedding head false last t →
        ∃ x, t.input (.hidden activation) = .ok x ∧ t.model.enter x = .ok (z, n) := by
  obtain ⟨hfinish, hdims', activation, houtput, hto⟩ := h.sends laws hdims hhidden hz
  refine ⟨activation, fun y => ?_, fun t last ht => ⟨z, ht.takes hto hdims'⟩⟩
  rw [(h.feed hadmits hinput henter hmask).1 y]
  constructor
  · rintro ⟨z', out, hz', hfinish', houtput'⟩
    obtain rfl := Except.ok.inj (hz.symm.trans hz')
    obtain rfl := Except.ok.inj (hfinish.symm.trans hfinish')
    exact (Except.ok.inj (houtput.symm.trans houtput')).symm
  · rintro rfl
    exact ⟨z, z, hz, hfinish, houtput⟩

/-- **A call to a chain** runs all its layers one after the other, and leaves a chain of the layers they
left. -/
theorem Split.feed (laws : C.Boundary) {layers : List (Layer C)} {parts : List (CandleShard C)}
    (h : Split active embedding head first layers parts)
    (hadmits : f.isPrefill = true ∨ active = some f.session)
    (hent : ∀ s last, Part active embedding head first last s →
      ∃ x, s.input payload = .ok x ∧ s.model.enter x = .ok (layerIn, n))
    (hdims : C.dims3 layerIn = .ok (1, n, hidden)) (hhidden : hidden < 2 ^ 32)
    (hmask : maskOf C n f.pos.toNat = .ok mask) :
    let through := relay (Layer.forward mask f.pos.toNat) (readyLayers active f layers) () layerIn
    ∀ y, ((relay (stepIn f) parts () payload).result = .ok y ↔ ∃ z out, through.result = .ok z ∧
      finishAt head n z = .ok out ∧ logitsOf out = .ok y) ∧
      ((relay (stepIn f) parts () payload).result = .ok y →
        Split (some f.session) embedding head first through.state.1
          (relay (stepIn f) parts () payload).state.1) := by
  intro through y
  induction h generalizing payload layerIn with
  | @last first s hpart =>
    obtain ⟨x, hinput, henter⟩ := hent s true hpart
    obtain ⟨hok, hlayers, hpart'⟩ := hpart.feed hadmits hinput henter hmask
    have hhead : s.model.head = head := hpart.head
    constructor
    · rw [relay_cons_ok]
      constructor
      · rintro ⟨y', hy', hnil⟩
        cases hnil
        obtain ⟨z, out, hz, hfinish, houtput⟩ := (hok y).1 hy'
        exact ⟨z, out, hz, hhead ▸ hfinish, (hpart.output out).symm.trans houtput⟩
      · rintro ⟨z, out, hz, hfinish, houtput⟩
        exact ⟨y, (hok y).2 ⟨z, out, hz, hhead ▸ hfinish, (hpart.output out).trans houtput⟩, rfl⟩
    · intro hrun
      obtain ⟨y', hy', -⟩ := relay_cons_ok.1 hrun
      rw [relay_cons_state hy']
      show Split _ _ _ _ through.state.1 [_]
      rw [← hlayers]
      exact .last hpart'
  | @cons first s layers parts hpart hrest ih =>
    obtain ⟨x, hinput, henter⟩ := hent s false hpart
    obtain ⟨hok, hlayers, hpart'⟩ := hpart.feed hadmits hinput henter hmask
    have happend : readyLayers active f (s.model.layers ++ layers) =
      readyLayers active f s.model.layers ++ readyLayers active f layers :=
        readyLayers_append active f s.model.layers layers
    have hdims' {z : C.Tensor} (hz : (relay (Layer.forward mask f.pos.toNat)
        (readyLayers active f s.model.layers) () layerIn).result = .ok z) :
        C.dims3 z = .ok (1, n, hidden) := (laws.toShapes.relay hz).trans hdims
    constructor
    · rw [relay_cons_ok]
      constructor
      · rintro ⟨y', hy', hrun⟩
        obtain ⟨z, -, hz, -, -⟩ := (hok y').1 hy'
        obtain ⟨activation, hsent, htaken⟩ :=
          hpart.passes laws hadmits hinput henter hmask hdims hhidden hz
        obtain rfl := (hsent y').1 hy'
        obtain ⟨z', out, hz', hfinish, houtput⟩ := (ih htaken (hdims' hz)).1.1 hrun
        refine ⟨z', out, ?_, hfinish, houtput⟩
        show (relay _ (readyLayers active f (s.model.layers ++ layers)) () layerIn).result = _
        rw [happend]
        exact relay_append_ok.2 ⟨z, hz, hz'⟩
      · rintro ⟨z', out, hz', hfinish, houtput⟩
        change (relay _ (readyLayers active f (s.model.layers ++ layers)) () layerIn).result = _ at hz'
        rw [happend] at hz'
        obtain ⟨z, hz, hz'⟩ := relay_append_ok.1 hz'
        obtain ⟨activation, hsent, htaken⟩ :=
          hpart.passes laws hadmits hinput henter hmask hdims hhidden hz
        exact ⟨_, (hsent _).2 rfl, (ih htaken (hdims' hz)).1.2 ⟨z', out, hz', hfinish, houtput⟩⟩
    · intro hrun
      obtain ⟨y', hy', hrun'⟩ := relay_cons_ok.1 hrun
      obtain ⟨z, -, hz, -, -⟩ := (hok y').1 hy'
      obtain ⟨activation, hsent, htaken⟩ :=
        hpart.passes laws hadmits hinput henter hmask hdims hhidden hz
      obtain rfl := (hsent y').1 hy'
      rw [relay_cons_state hy']
      show Split _ _ _ _
        (relay _ (readyLayers active f (s.model.layers ++ layers)) () layerIn).state.1 _
      rw [happend, relay_append_state hz, ← hlayers]
      exact .cons hpart' ((ih htaken (hdims' hz)).2 hrun')

/-! ### Runs of calls -/

/-- First shards are entered alike. -/
theorem Part.enters_same {last' : Bool} {s t : CandleShard C}
    (hs : Part active embedding head true last s) (ht : Part active embedding head true last' t)
    {x : C.Tensor} (hinput : s.input payload = .ok x) :
    t.input payload = .ok x ∧ t.model.enter x = s.model.enter x := by
  constructor
  · unfold CandleShard.input at hinput ⊢
    rw [hs.ownsEmbedding] at hinput
    rw [ht.ownsEmbedding]
    cases payload with
    | tokens ids => exact hinput
    | hidden activation => cases hinput
    | logits values => cases hinput
  · unfold ShardModel.enter
    rw [hs.tokEmbeddings, ht.tokEmbeddings]

/-- The shape of the embedded tokens. -/
theorem Part.enters_dims (laws : C.Boundary) {e : C.Embedding} {s : CandleShard C}
    (h : Part active (some e) head true last s) {x : C.Tensor} (hinput : s.input payload = .ok x)
    (henter : s.model.enter x = .ok (layerIn, n)) :
    ∃ hidden < 2 ^ 32, C.dims3 layerIn = .ok (1, n, hidden) := by
  unfold CandleShard.input at hinput
  rw [h.ownsEmbedding] at hinput
  unfold ShardModel.enter at henter
  rw [h.tokEmbeddings] at henter
  obtain ⟨embedded, hembed, henter⟩ := bind_eq_ok.1 henter
  obtain ⟨shape, hdims, henter⟩ := bind_eq_ok.1 henter
  cases henter
  cases payload with
  | tokens ids =>
    obtain ⟨hidden, hlt, hshape⟩ := laws.embed e ids x layerIn (mapError_eq_ok.1 hinput) hembed
    obtain rfl := Except.ok.inj (hdims.symm.trans hshape)
    exact ⟨hidden, hlt, hshape⟩
  | hidden activation => cases hinput
  | logits values => cases hinput

/-- The first shard of a chain. -/
theorem Split.starts {layers : List (Layer C)} {parts : List (CandleShard C)}
    (h : Split active embedding head first layers parts) :
    ∃ s rest last, parts = s :: rest ∧ Part active embedding head first last s := by
  cases h with
  | last hpart => exact ⟨_, _, true, rfl, hpart⟩
  | cons hpart _ => exact ⟨_, _, false, rfl, hpart⟩

/-- A chain that answers was admitted, entered and masked. -/
theorem Split.entered {layers : List (Layer C)} {parts : List (CandleShard C)}
    (h : Split active embedding head true layers parts) {y : Payload}
    (hok : (relay (stepIn f) parts () f.input).result = .ok y) :
    (f.isPrefill = true ∨ active = some f.session) ∧ ∃ x layerIn n mask,
      (∀ s last, Part active embedding head true last s →
        s.input f.input = .ok x ∧ s.model.enter x = .ok (layerIn, n)) ∧
      maskOf C n f.pos.toNat = .ok mask := by
  obtain ⟨s, rest, last, rfl, hpart⟩ := h.starts
  obtain ⟨y', hy', -⟩ := relay_cons_ok.1 hok
  have hfeed : (s.feed f).result = .ok y' := hy'
  have hadm := CandleShard.admits_of_ok hfeed
  rw [CandleShard.feed_eq hadm] at hfeed
  obtain ⟨r⟩ := CandleShard.run_eq_ok.1 hfeed
  have hinput : s.input f.input = .ok r.x := by
    rw [← r.input]
    unfold CandleShard.ready
    split_ifs <;> rfl
  have henter : s.model.enter r.x = .ok (r.layerIn, r.seqLen) := by
    rw [← r.enter]
    unfold CandleShard.ready
    split_ifs <;> rfl
  refine ⟨hpart.active ▸ hadm, r.x, r.layerIn, r.seqLen, r.mask, fun t last' ht => ?_, r.masked⟩
  obtain ⟨htinput, htenter⟩ := hpart.enters_same ht hinput
  exact ⟨htinput, htenter.trans henter⟩

/-- The whole shard and a chain that holds its layers. -/
structure Chained (whole : CandleShard C) (parts : List (CandleShard C)) : Prop where
  embedding : ∃ e, whole.model.tokEmbeddings = some e
  alone : Part whole.active whole.model.tokEmbeddings whole.model.head true true whole
  parts : Split whole.active whole.model.tokEmbeddings whole.model.head true whole.model.layers parts

/-- The whole shard is a chain of one. -/
theorem callWhole_eq (whole : CandleShard C) (f : Feed) :
    (callWhole whole f).1 = (callChain [whole] f).1 := by
  show (whole.feed f).result.toOption = (relay (stepIn f) [whole] () f.input).result.toOption
  have hstep : (stepIn f whole () f.input).result = (whole.feed f).result := rfl
  rw [relay]
  cases hres : (whole.feed f).result with
  | error e =>
    rw [hres] at hstep
    rw [hstep]
  | ok y =>
    rw [hres] at hstep
    rw [hstep]
    rfl

theorem toOption_eq_some {ε α : Type*} {x : Except ε α} {a : α} :
    x.toOption = some a ↔ x = .ok a := by
  cases x <;> simp [Except.toOption]

/-- What a chain of these layers returns does not depend on where they are cut. -/
theorem Split.same_answer (laws : C.Boundary) {e : C.Embedding} {layers : List (Layer C)}
    {parts parts' : List (CandleShard C)} (h : Split active (some e) head true layers parts)
    (h' : Split active (some e) head true layers parts') {y : Payload}
    (hok : (relay (stepIn f) parts () f.input).result = .ok y) :
    (relay (stepIn f) parts' () f.input).result = .ok y := by
  obtain ⟨hadmits, x, layerIn, n, mask, hent, hmask⟩ := h.entered hok
  obtain ⟨s, -, last, -, hpart⟩ := h.starts
  obtain ⟨hinput, henter⟩ := hent s last hpart
  obtain ⟨hidden, hhidden, hdims⟩ := hpart.enters_dims laws hinput henter
  have hent' (s : CandleShard C) (last : Bool) (hs : Part active (some e) head true last s) :
      ∃ x, s.input f.input = .ok x ∧ s.model.enter x = .ok (layerIn, n) := ⟨x, hent s last hs⟩
  exact (h'.feed laws hadmits hent' hdims hhidden hmask y).1.2
    ((h.feed laws hadmits hent' hdims hhidden hmask y).1.1 hok)

theorem Chained.answer (laws : C.Boundary) {whole : CandleShard C} {parts : List (CandleShard C)}
    (h : Chained whole parts) (f : Feed) : (callWhole whole f).1 = (callChain parts f).1 := by
  obtain ⟨⟨e, he⟩, hwhole, hparts⟩ := h
  rw [he] at hwhole hparts
  rw [callWhole_eq]
  apply Option.ext
  intro y
  show Except.toOption _ = some y ↔ Except.toOption _ = some y
  rw [toOption_eq_some, toOption_eq_some]
  constructor
  · exact Split.same_answer laws (.last hwhole) hparts
  · exact Split.same_answer laws hparts (.last hwhole)

/-- **After an answer the chain holds the layers of the whole shard again.** -/
theorem Chained.next (laws : C.Boundary) {whole : CandleShard C} {parts : List (CandleShard C)}
    (h : Chained whole parts) {f : Feed} {y : Payload} (hok : (callWhole whole f).1 = some y) :
    Chained (callWhole whole f).2 (callChain parts f).2 := by
  have hchain : (relay (stepIn f) parts () f.input).result = .ok y :=
    toOption_eq_some.1 ((h.answer laws f).symm.trans hok)
  obtain ⟨⟨e, he⟩, hwhole, hparts⟩ := h
  rw [he] at hwhole hparts
  obtain ⟨hadmits, x, layerIn, n, mask, hent, hmask⟩ := hparts.entered hchain
  obtain ⟨hinput, henter⟩ := hent whole true hwhole
  obtain ⟨hidden, hhidden, hdims⟩ := hwhole.enters_dims laws hinput henter
  obtain ⟨-, hlayers, hpart⟩ := hwhole.feed (f := f) hadmits hinput henter hmask
  have hsplit := (hparts.feed laws hadmits (fun s last hs => ⟨x, hent s last hs⟩) hdims hhidden
    hmask y).2 hchain
  have hactive : (whole.feed f).state.active = some f.session := hpart.active
  have htok : (whole.feed f).state.model.tokEmbeddings = some e := hpart.tokEmbeddings
  have hhead : (whole.feed f).state.model.head = whole.model.head := hpart.head
  refine ⟨⟨e, htok⟩, ?_, ?_⟩
  · show Part (whole.feed f).state.active (whole.feed f).state.model.tokEmbeddings
      (whole.feed f).state.model.head true true (whole.feed f).state
    rw [hactive, htok, hhead]
    exact hpart
  · show Split (whole.feed f).state.active (whole.feed f).state.model.tokEmbeddings
      (whole.feed f).state.model.head true (whole.feed f).state.model.layers _
    rw [hactive, htok, hhead]
    change (whole.feed f).state.model.layers = _ at hlayers
    rw [hlayers]
    exact hsplit

/-! ### Shards of one file -/

theorem Loaded.le {file : C.File} {layers a : UInt32} {parts : List (CandleShard C)}
    (h : Loaded file layers a parts) :
    a.toNat ≤ layers.toNat ∧ (parts ≠ [] → a.toNat < layers.toNat) := by
  induction h with
  | nil => exact ⟨le_rfl, fun h => absurd rfl h⟩
  | cons _ _ _ hlt _ ih =>
    have := UInt32.lt_iff_toNat_lt.1 hlt
    exact ⟨by omega, fun _ => by omega⟩

/-- **A shard of a chain has the ends of the whole shard**, or none. -/
theorem Opened.part {file : C.File} {spec spec' : ShardSpec} {whole s : CandleShard C}
    {content : Content} {blockCount : UInt32} {ends ends' : Ends C}
    (hwhole : Opened file spec whole content blockCount ends) (hfirst : spec.firstLayer = 0)
    (hlast : spec.lastLayer = blockCount) (hopened : Opened file spec' s content blockCount ends')
    (hwire : spec'.wireDtype = .f32) (hlt : spec'.firstLayer.toNat < spec'.lastLayer.toNat) :
    Part none ends.tokEmbeddings ends.head (decide (spec'.firstLayer = 0))
      (decide (spec'.lastLayer = blockCount)) s := by
  have hparameters := Except.ok.inj (hopened.reads.parameters.symm.trans hwhole.reads.parameters)
  have hembedding : s.model.tokEmbeddings =
      if decide (spec'.firstLayer = 0) then ends.tokEmbeddings else none := by
    rw [hopened.embedding]
    by_cases hzero : spec'.firstLayer = 0
    · obtain ⟨q, e, hq, he, hsome⟩ := hopened.reads.embedding (by rw [hzero]; rfl)
      obtain ⟨q', e', hq', he', hsome'⟩ := hwhole.reads.embedding (by rw [hfirst]; rfl)
      obtain rfl := Except.ok.inj (hq.symm.trans hq')
      rw [hparameters] at he
      obtain rfl := Except.ok.inj (he.symm.trans he')
      rw [hsome, hsome', if_pos (decide_eq_true hzero)]
    · rw [if_neg (by simpa using hzero)]
      exact hopened.reads.noEmbedding fun hnat => hzero (UInt32.toNat_inj.1 hnat)
  have hhead : s.model.head =
      if decide (spec'.lastLayer = blockCount) then ends.head else none := by
    rw [hopened.head]
    by_cases hend : spec'.lastLayer = blockCount
    · obtain ⟨norm, output, hd, hn, ho, hb, hsome⟩ := hopened.reads.head (by rw [hend])
      obtain ⟨norm', output', hd', hn', ho', hb', hsome'⟩ := hwhole.reads.head (by rw [hlast])
      obtain rfl := Except.ok.inj (hn.symm.trans hn')
      obtain rfl := Except.ok.inj (ho.symm.trans ho')
      rw [hparameters] at hb
      obtain rfl := Except.ok.inj (hb.symm.trans hb')
      rw [hsome, hsome', if_pos (decide_eq_true hend)]
    · rw [if_neg (by simpa using hend)]
      exact hopened.reads.noHead fun hnat => hend (UInt32.toNat_inj.1 hnat)
  refine ⟨hopened.active, fun _ => by rw [hopened.spec]; exact hwire, ?_, hembedding, ?_, hhead,
    fun hnil => ?_⟩
  · rw [← hopened.spec]
    rfl
  · rw [← hopened.spec, ← hopened.count]
    rfl
  · have hindices := readLayers_index hopened.layers
    rw [hnil, List.map_nil] at hindices
    have := congrArg List.length hindices
    rw [List.length_range', List.length_nil] at this
    omega

/-- **The shards of a chain hold the layers the whole shard holds**, and its ends. -/
theorem Loaded.split {file : C.File} {spec : ShardSpec} {whole : CandleShard C} {content : Content}
    {blockCount : UInt32} {ends : Ends C} (hwhole : Opened file spec whole content blockCount ends)
    (hfirst : spec.firstLayer = 0) (hlast : spec.lastLayer = blockCount) {a : UInt32}
    {parts : List (CandleShard C)} (h : Loaded file blockCount a parts) (hne : parts ≠ []) :
    ∃ layers, readLayers ends file (List.range' a.toNat (blockCount.toNat - a.toNat)) = .ok layers ∧
      Split none ends.tokEmbeddings ends.head (decide (a = 0)) layers parts := by
  induction h with
  | nil => exact absurd rfl hne
  | @cons a spec' s rest hopen hwire ha hlt hrest ih =>
    subst ha
    have hlt' := UInt32.lt_iff_toNat_lt.1 hlt
    -- every shard reads the header of the one file
    obtain ⟨content', blockCount', ends', hopened⟩ := openFile_inv hopen
    obtain rfl := Except.ok.inj (hwhole.header.symm.trans hopened.header)
    obtain rfl := Except.ok.inj (hwhole.reads.count.symm.trans hopened.reads.count)
    have hpart := hwhole.part hfirst hlast hopened hwire hlt'
    have hheads := Except.ok.inj (hopened.reads.headCount.symm.trans hwhole.reads.headCount)
    have hparameters := Except.ok.inj (hopened.reads.parameters.symm.trans hwhole.reads.parameters)
    have hlayers := hopened.layers
    rw [readLayers_congr hheads hparameters] at hlayers
    by_cases hnil : rest = []
    · subst hnil
      cases hrest
      refine ⟨s.model.layers, hlayers, ?_⟩
      rw [decide_eq_true (rfl : spec'.lastLayer = spec'.lastLayer)] at hpart
      exact .last hpart
    -- the next shards hold what follows, so this one is not the last
    · obtain ⟨layers, hread, hsplit⟩ := ih hnil
      have hrange := hrest.le.2 hnil
      have hstart : spec'.firstLayer.toNat + (spec'.lastLayer.toNat - spec'.firstLayer.toNat) =
          spec'.lastLayer.toNat := by omega
      refine ⟨s.model.layers ++ layers, ?_, ?_⟩
      · have hall := readLayers_append hlayers (hstart.symm ▸ hread)
        rw [List.range'_append_1] at hall
        rw [← hall]
        congr 2
        omega
      · have hnotlast : ¬ spec'.lastLayer = blockCount := fun heq => by rw [heq] at hrange; omega
        have hnotfirst : ¬ spec'.lastLayer = 0 := fun heq => by rw [heq] at hlt'; simp at hlt'
        rw [decide_eq_false hnotlast] at hpart
        rw [decide_eq_false hnotfirst] at hsplit
        exact .cons hpart hsplit

/-- A whole shard and the shards of a chain that were just loaded. -/
theorem Loaded.chained {file : C.File} {spec : ShardSpec} {whole : CandleShard C}
    {parts : List (CandleShard C)} (hopen : CandleShard.openFile file spec = .ok whole)
    (hfirst : spec.firstLayer = 0) (hlast : spec.lastLayer = whole.facts.layers)
    (hpos : 0 < whole.facts.layers) (h : Loaded file whole.facts.layers 0 parts) :
    Chained whole parts := by
  obtain ⟨content, blockCount, ends, hopened⟩ := openFile_inv hopen
  have hcount := hopened.count
  rw [hcount] at h hlast hpos
  have hne : parts ≠ [] := by
    rintro rfl
    cases h
    exact absurd (UInt32.lt_iff_toNat_lt.1 hpos) (Nat.lt_irrefl _)
  obtain ⟨layers, hread, hsplit⟩ := h.split hopened hfirst hlast hne
  have hlayers := hopened.layers
  rw [hfirst, hlast] at hlayers
  obtain rfl := Outcome.ok.inj (hread.symm.trans hlayers)
  obtain ⟨q, e, -, -, hsome⟩ := hopened.reads.embedding (by rw [hfirst]; rfl)
  obtain ⟨s, rest, last, -, hpart⟩ := hsplit.starts
  refine ⟨⟨e, hopened.embedding.trans hsome⟩, ⟨rfl, fun h => (by cases h), ?_, rfl, ?_, rfl, ?_⟩, ?_⟩
  · exact CandleShard.ownsEmbedding_iff.2 (by rw [hopened.spec, hfirst])
  · exact CandleShard.ownsHead_iff.2 (by rw [hopened.spec, hlast, hcount])
  · intro hnil
    have hindices := readLayers_index hread
    rw [hnil, List.map_nil] at hindices
    have hlen := congrArg List.length hindices
    rw [List.length_range', List.length_nil] at hlen
    have := UInt32.lt_iff_toNat_lt.1 hpos
    exact absurd hlen (by simp at this ⊢; omega)
  · rw [hopened.active, hopened.embedding, hopened.head]
    exact hsplit

theorem feed_runs (s : CandleShard C) (f : Feed) : RunsShard s f.input (s.feed f) := by
  unfold CandleShard.feed
  split_ifs
  · exact s.prefill_spec f.session f.pos f.input
  · exact s.decode_spec f.session f.pos f.input

/-- A shard with the last layer answers with logits. -/
theorem callWhole_logits {whole : CandleShard C} (hlast : whole.spec.lastLayer = whole.facts.layers)
    {calls : List Feed} {y : Payload} (hy : some y ∈ outcomes callWhole whole calls) :
    ∃ values, y = .logits values := by
  refine outcomes_forall (I := fun s : CandleShard C => s.spec.lastLayer = s.facts.layers)
    (Q := fun y => ∃ values, y = Payload.logits values) (fun s f b hs hb => ?_) hlast hy
  have hruns := feed_runs s f
  refine ⟨?_, ?_⟩
  · have hleaves := hruns.leaves b (toOption_eq_some.1 hb)
    cases b with
    | tokens ids => exact hleaves.elim
    | hidden activation => exact absurd hs hleaves
    | logits values => exact ⟨values, rfl⟩
  · show (s.feed f).state.spec.lastLayer = (s.feed f).state.facts.layers
    rw [hruns.same.spec, hruns.same.facts]
    exact hs

/-- **A split model says what the whole model says**: for every cut of the layers into ranges and every
sequence of calls, the chain of shards gives the same logits as the shard that holds all layers, up to
and including the first call that fails. -/
theorem split_equivalence (laws : C.Boundary) {file : C.File} {spec : ShardSpec}
    {whole : CandleShard C} {parts : List (CandleShard C)}
    (hopen : CandleShard.openFile file spec = .ok whole) (hfirst : spec.firstLayer = 0)
    (hlast : spec.lastLayer = whole.facts.layers) (hpos : 0 < whole.facts.layers)
    (hparts : Loaded file whole.facts.layers 0 parts) (calls : List Feed) :
    outcomes callChain parts calls = outcomes callWhole whole calls ∧
      ∀ y, some y ∈ outcomes callWhole whole calls → ∃ values, y = .logits values := by
  obtain ⟨content, blockCount, ends, hopened⟩ := openFile_inv hopen
  constructor
  · exact (outcomes_eq (R := Chained) (fun _ _ f h => h.answer laws f)
      (fun _ _ _ _ h hok => h.next laws hok) (Loaded.chained hopen hfirst hlast hpos hparts)
      calls).symm
  · exact fun y hy => callWhole_logits (by rw [hopened.spec, hlast]) hy

/-- A prompt and one more token, through two shards of a layer each. -/
theorem split_equivalence_two_layers :
    let whole := checkedShard 2 0 2
    let parts := [checkedShard 2 0 1, checkedShard 2 1 2]
    let calls : List Feed := [⟨true, 1, 0, .tokens [3, 4]⟩, ⟨false, 1, 2, .tokens [5]⟩]
    outcomes callChain parts calls = outcomes callWhole whole calls ∧
      outcomes callWhole whole calls = [some (.logits [1401]), some (.logits [2601])] := by
  intro whole parts calls
  have hopen : CandleShard.openFile (C := checked 2) () whole.spec = .ok whole := rfl
  have hfirst : CandleShard.openFile (C := checked 2) () (checkedShard 2 0 1).spec =
      .ok (checkedShard 2 0 1) := rfl
  have hsecond : CandleShard.openFile (C := checked 2) () (checkedShard 2 1 2).spec =
      .ok (checkedShard 2 1 2) := rfl
  have hparts : Loaded (C := checked 2) () 2 0 parts :=
    .cons hfirst rfl rfl (by decide) (.cons hsecond rfl rfl (by decide) .nil)
  constructor
  · exact (split_equivalence (boundary_checked 2) hopen rfl rfl (by decide) hparts calls).1
  · rfl

end Engine

end Latticed
