import Latticed.Engine.Llama
import Latticed.Rust.Bytes
import Latticed.Rust.Text

/-!
# A shard

A shard holds a contiguous range of layers and has one KV cache, so one session at a time.  What it
takes and returns follows from which end of the model it owns.

* `CandleShard.openFile_eq_ok` : a shard opens with the range it was asked for, and no session.
* `CandleShard.run_spec` : a shard that runs applies each layer of its range once, in order, and is
  otherwise the shard it was.
-/

namespace Latticed

namespace Engine

open Rust

variable {C : Candle}

/-! ### What a shard weighs -/

/-- `in_range`: the tensor belongs to a block of the range. -/
def inRange (name : String) (firstLayer lastLayer : UInt32) : Bool :=
  match name.toList with
  | 'b' :: 'l' :: 'k' :: '.' :: rest =>
    match parseUnsigned UInt32.size (rest.takeWhile (· ≠ '.')) with
    | some index => firstLayer.toNat ≤ index ∧ index < lastLayer.toNat
    | none => false
  | _ => false

/-- `shape.elem_count()`, as a release build computes it. -/
def TensorInfo.elemCount (info : TensorInfo) : UInt64 := info.shape.foldl (· * ·) 1

/-- Bytes of a tensor as it is stored. -/
def TensorInfo.quantized (info : TensorInfo) : UInt64 :=
  info.elemCount / info.ggmlDtype.blockSize * info.ggmlDtype.typeSize

/-- Bytes of the tensor of this name as it is stored, if there is one. -/
def Content.quantized (content : Content) (name : String) : UInt64 :=
  ((content.tensorInfos.lookup name).map TensorInfo.quantized).getD 0

/-- `shard_weight_bytes`: what the shard holds resident. -/
def shardWeightBytes (content : Content) (spec : ShardSpec) (layers : UInt32) : UInt64 :=
  let blocks := ((content.tensorInfos.filter fun (name, _) =>
    inRange name spec.firstLayer spec.lastLayer).map fun (name, _) => content.quantized name).foldl
      (· + ·) 0
  -- the embedding lands as f32, whatever it was quantized to
  let embedding := if spec.firstLayer = 0 then
      ((content.tensorInfos.lookup "token_embd.weight").map fun info => info.elemCount * 4).getD 0
    else 0
  let output := if (content.tensorInfos.lookup "output.weight").isSome then "output.weight"
    else "token_embd.weight"
  let head := if spec.lastLayer = layers then
      content.quantized "output_norm.weight" + content.quantized output
    else 0
  blocks + embedding + head

/-! ### The shard -/

/-- A shard. -/
structure CandleShard (C : Candle) where
  model : ShardModel C
  facts : ModelFacts
  spec : ShardSpec
  weightBytes : UInt64
  /-- One KV cache means one session. -/
  active : Option UInt64

/-- `ModelFacts::read_file`. -/
def ModelFacts.readFile (file : C.File) : Except EngineError ModelFacts := do
  let content ← (C.content file).mapError .engine
  ModelFacts.read content.metadata

/-- `CandleShard::open`. -/
def CandleShard.openFile (file : C.File) (spec : ShardSpec) : Outcome EngineError (CandleShard C) :=
  (Outcome.ofExcept ((C.content file).mapError .engine)).andThen fun content =>
    (Outcome.ofExcept (ModelFacts.read content.metadata)).andThen fun facts =>
      if facts.arch ≠ "llama" then .err (.unsupportedArch facts.arch)
      else if spec.lastLayer > facts.layers ∨ spec.firstLayer > spec.lastLayer then
        .err (.unsupportedRange (spec.firstLayer, spec.lastLayer) facts.layers)
      else
        ((ShardModel.fromGguf content file spec.firstLayer.toNat spec.lastLayer.toNat).mapErr
          .engine).andThen fun model =>
            .ok { model, facts, spec, weightBytes := shardWeightBytes content spec facts.layers,
                  active := none }

namespace CandleShard

/-- `owns_embedding`. -/
def ownsEmbedding (s : CandleShard C) : Bool := s.spec.firstLayer = 0

/-- `owns_head`. -/
def ownsHead (s : CandleShard C) : Bool := s.spec.lastLayer = s.facts.layers

theorem ownsEmbedding_iff {s : CandleShard C} : s.ownsEmbedding = true ↔ s.spec.firstLayer = 0 :=
  decide_eq_true_iff

theorem ownsHead_iff {s : CandleShard C} : s.ownsHead = true ↔ s.spec.lastLayer = s.facts.layers :=
  decide_eq_true_iff

/-- The weights and the cache a loaded shard reports: the fields of `stats` that are sent on. -/
def stats (s : CandleShard C) : Outcome EngineError (UInt64 × UInt64) :=
  (s.facts.kvBytes s.spec.layers s.spec.maxContext s.spec.kvDtype).andThen fun kvBytes =>
    .ok (s.weightBytes, kvBytes)

end CandleShard

/-- `to_tensor`: hidden states off the wire. -/
def toTensor (C : Candle) (activation : Activation) : Except EngineError C.Tensor :=
  let values := match activation.dtype with
    | .f16 => (chunksExact 2 activation.data).map fun c => C.f16ToF32 (UInt16.ofNat (ofLeBytes c))
    | .f32 => (chunksExact 4 activation.data).map fun c => UInt32.ofNat (ofLeBytes c)
  (C.fromVec values (1, activation.nTokens.toNat, activation.hiddenDim.toNat)).mapError .engine

/-- `from_tensor`: hidden states for the wire. -/
def fromTensor (out : C.Tensor) (dtype : WireDtype) : Except EngineError Activation := do
  let (_, nTokens, hiddenDim) ← (C.dims3 out).mapError .engine
  let data ← match dtype with
    | .f16 => ((C.toVecF16 out).mapError .engine).map (·.flatMap fun v => toLeBytes 2 v.toNat)
    | .f32 => ((C.toVecF32 out).mapError .engine).map (·.flatMap fun v => toLeBytes 4 v.toNat)
  Activation.new (UInt32.ofNat nTokens) (UInt32.ofNat hiddenDim) dtype data

namespace CandleShard

/-- The first half of `run`: tokens on the shard that owns the embedding, hidden states on any
other. -/
def input (s : CandleShard C) (payload : Payload) : Except EngineError C.Tensor :=
  match payload, s.ownsEmbedding with
  | .tokens ids, true => (C.newTokens ids).mapError .engine
  | .hidden activation, false => toTensor C activation
  | other, _ => .error (.wrongPayload (s.spec.firstLayer, s.spec.lastLayer) other.kind)

/-- The second half of `run`: logits from the shard that owns the head, hidden states from any
other. -/
def output (s : CandleShard C) (out : C.Tensor) : Except EngineError Payload :=
  if s.ownsHead then ((C.rowToVec out).mapError .engine).map .logits
  else (fromTensor out s.spec.wireDtype).map .hidden

/-- `run`. -/
def run (s : CandleShard C) (payload : Payload) (pos : UInt32) :
    Call (CandleShard C) ℕ EngineError Payload :=
  match s.input payload with
  | .error e => .pure (.error e) s
  | .ok x =>
    (s.model.forward x pos.toNat).lift (fun model => { s with model }) fun result =>
      (result.mapError .engine).bind s.output

/-- The shard with an empty cache, given to `session` or to nobody. -/
def cleared (s : CandleShard C) (session : Option UInt64) : CandleShard C :=
  { s with model := s.model.clearKvCache, active := session }

/-- `prefill`. -/
def prefill (s : CandleShard C) (session : UInt64) (posStart : UInt32) (payload : Payload) :
    Call (CandleShard C) ℕ EngineError Payload :=
  if s.active ≠ some session ∨ posStart = 0 then (s.cleared (some session)).run payload posStart
  else s.run payload posStart

/-- `decode`. -/
def decode (s : CandleShard C) (session : UInt64) (pos : UInt32) (payload : Payload) :
    Call (CandleShard C) ℕ EngineError Payload :=
  if s.active ≠ some session then .pure (.error (.unknownSession session)) s
  else s.run payload pos

/-- `drop_session`. -/
def dropSession (s : CandleShard C) (session : UInt64) : CandleShard C :=
  if s.active = some session then s.cleared none else s

end CandleShard

/-! ### What running a shard does -/

/-- The payload a shard whose range starts at `firstLayer` takes. -/
def Payload.EntersAt (firstLayer : UInt32) : Payload → Prop
  | tokens _ => firstLayer = 0
  | hidden _ => firstLayer ≠ 0
  | logits _ => False

/-- The payload a shard whose range ends at `lastLayer`, of `layers` layers, returns. -/
def Payload.LeavesAt (lastLayer layers : UInt32) : Payload → Prop
  | tokens _ => False
  | hidden _ => lastLayer ≠ layers
  | logits _ => lastLayer = layers

/-- The shards hold the same layers of the same model. -/
structure SameShard (s s' : CandleShard C) : Prop where
  spec : s'.spec = s.spec
  facts : s'.facts = s.facts
  indices : s'.model.indices = s.model.indices

theorem SameShard.refl (s : CandleShard C) : SameShard s s := ⟨rfl, rfl, rfl⟩

theorem SameShard.trans {s s' s'' : CandleShard C} (h : SameShard s s') (h' : SameShard s' s'') :
    SameShard s s'' :=
  ⟨h'.spec.trans h.spec, h'.facts.trans h.facts, h'.indices.trans h.indices⟩

/-- What a call on a shard that may run does: it leaves the shard it was, and if it returns it has
applied every layer of the range once, in order. -/
structure RunsShard (s : CandleShard C) (payload : Payload)
    (call : Call (CandleShard C) ℕ EngineError Payload) : Prop where
  same : SameShard s call.state
  trace : ∀ y, call.result = .ok y → call.trace = s.model.indices
  enters : ∀ y, call.result = .ok y → payload.EntersAt s.spec.firstLayer
  leaves : ∀ y, call.result = .ok y → y.LeavesAt s.spec.lastLayer s.facts.layers

/-- A call that fails before it starts. -/
theorem RunsShard.failed (s : CandleShard C) (payload : Payload) (e : EngineError) :
    RunsShard s payload (.pure (.error e) s) :=
  ⟨.refl s, fun y h => (by cases h), fun y h => (by cases h), fun y h => (by cases h)⟩

namespace CandleShard

/-- A shard opens with the range it was asked for, and no session. -/
theorem openFile_eq_ok {file : C.File} {spec : ShardSpec} {s : CandleShard C}
    (h : openFile file spec = .ok s) :
    s.spec = spec ∧ ModelFacts.readFile file = .ok s.facts ∧ s.active = none ∧
      s.model.indices = List.range' spec.firstLayer.toNat
        (spec.lastLayer.toNat - spec.firstLayer.toNat) := by
  obtain ⟨content, hcontent, h⟩ := Outcome.andThen_eq_ok.1 h
  obtain ⟨facts, hfacts, h⟩ := Outcome.andThen_eq_ok.1 h
  split_ifs at h
  obtain ⟨model, hmodel, h⟩ := Outcome.andThen_eq_ok.1 h
  cases h
  refine ⟨rfl, ?_, rfl, ShardModel.fromGguf_indices (Outcome.mapErr_eq_ok.1 hmodel)⟩
  exact bind_eq_ok.2 ⟨content, Outcome.ofExcept_eq_ok.1 hcontent, Outcome.ofExcept_eq_ok.1 hfacts⟩

theorem input_enters {s : CandleShard C} {payload : Payload} {x : C.Tensor}
    (h : s.input payload = .ok x) : payload.EntersAt s.spec.firstLayer := by
  unfold input at h
  cases hown : s.ownsEmbedding with
  | true =>
    rw [hown] at h
    cases payload with
    | tokens ids => exact ownsEmbedding_iff.1 hown
    | hidden activation => cases h
    | logits values => cases h
  | false =>
    rw [hown] at h
    cases payload with
    | hidden activation =>
      intro hzero
      rw [ownsEmbedding_iff.2 hzero] at hown
      cases hown
    | tokens ids => cases h
    | logits values => cases h

theorem output_leaves {s : CandleShard C} {out : C.Tensor} {y : Payload}
    (h : s.output out = .ok y) : y.LeavesAt s.spec.lastLayer s.facts.layers := by
  unfold output at h
  split_ifs at h with hown
  · obtain ⟨values, -, rfl⟩ := map_eq_ok.1 h
    exact ownsHead_iff.1 hown
  · obtain ⟨activation, -, rfl⟩ := map_eq_ok.1 h
    exact fun hend => hown (ownsHead_iff.2 hend)

/-- **A shard that runs applies each layer of its range once, in order.** -/
theorem run_spec (s : CandleShard C) (payload : Payload) (pos : UInt32) :
    RunsShard s payload (s.run payload pos) := by
  unfold run
  cases hin : s.input payload with
  | error e => exact .failed s payload e
  | ok x =>
    obtain ⟨hindices, htrace⟩ := s.model.forward_indices x pos.toNat
    refine ⟨⟨rfl, rfl, hindices⟩, fun y h => ?_, fun y _ => input_enters hin, fun y h => ?_⟩
    · obtain ⟨out, hout, -⟩ := exceptBind_eq_ok.1 h
      exact htrace out (mapError_eq_ok.1 hout)
    · obtain ⟨out, -, hy⟩ := exceptBind_eq_ok.1 h
      exact output_leaves hy

theorem cleared_same (s : CandleShard C) (session : Option UInt64) :
    SameShard s (s.cleared session) := by
  refine ⟨rfl, rfl, ?_⟩
  show List.map _ (List.map _ _) = _
  rw [List.map_map]
  rfl

theorem prefill_spec (s : CandleShard C) (session : UInt64) (pos : UInt32) (payload : Payload) :
    RunsShard s payload (s.prefill session pos payload) := by
  unfold prefill
  split_ifs
  · have hsame := s.cleared_same (some session)
    obtain ⟨hafter, htrace, henters, hleaves⟩ :=
      (s.cleared (some session)).run_spec payload pos
    exact ⟨hsame.trans hafter, fun y h => (htrace y h).trans hsame.indices, henters, hleaves⟩
  · exact s.run_spec payload pos

theorem decode_spec (s : CandleShard C) (session : UInt64) (pos : UInt32) (payload : Payload) :
    RunsShard s payload (s.decode session pos payload) := by
  unfold decode
  split_ifs
  · exact .failed s payload _
  · exact s.run_spec payload pos

/-! ### What a shard answers depends on -/

/-- Equal but for the masks that are remembered. -/
def Agrees (s t : CandleShard C) : Prop := ∃ model, s.model.Agrees model ∧ t = { s with model }

/-- Equal but for masks, caches and sessions. -/
def SameWeights (s t : CandleShard C) : Prop := (s.cleared none).Agrees (t.cleared none)

theorem Agrees.refl (s : CandleShard C) : s.Agrees s := ⟨s.model, .refl _, rfl⟩

theorem Agrees.symm {s t : CandleShard C} (h : s.Agrees t) : t.Agrees s := by
  obtain ⟨model, hmodel, rfl⟩ := h
  exact ⟨s.model, hmodel.symm, rfl⟩

theorem Agrees.trans {s t u : CandleShard C} (h : s.Agrees t) (h' : t.Agrees u) : s.Agrees u := by
  obtain ⟨model, hmodel, rfl⟩ := h
  obtain ⟨model', hmodel', rfl⟩ := h'
  exact ⟨model', hmodel.trans hmodel', rfl⟩

theorem Agrees.active {s t : CandleShard C} (h : s.Agrees t) : t.active = s.active := by
  obtain ⟨model, -, rfl⟩ := h
  rfl

theorem Agrees.cleared {s t : CandleShard C} (h : s.Agrees t) (session : Option UInt64) :
    (s.cleared session).Agrees (t.cleared session) := by
  obtain ⟨model, hmodel, rfl⟩ := h
  exact ⟨model.clearKvCache, hmodel.clearKvCache, rfl⟩

theorem Agrees.sameWeights {s t : CandleShard C} (h : s.Agrees t) : s.SameWeights t :=
  h.cleared none

theorem SameWeights.symm {s t : CandleShard C} (h : s.SameWeights t) : t.SameWeights s :=
  Agrees.symm h

theorem SameWeights.trans {s t u : CandleShard C} (h : s.SameWeights t) (h' : t.SameWeights u) :
    s.SameWeights u := Agrees.trans h h'

@[simp] theorem cleared_cleared (s : CandleShard C) (session session' : Option UInt64) :
    (s.cleared session).cleared session' = s.cleared session' := by
  have hlayers : (s.model.layers.map Layer.cleared).map Layer.cleared =
      s.model.layers.map Layer.cleared := by
    rw [List.map_map]
    rfl
  simp only [CandleShard.cleared, ShardModel.clearKvCache, hlayers]

/-- Emptied for the same session, they agree. -/
theorem SameWeights.cleared {s t : CandleShard C} (h : s.SameWeights t) (session : Option UInt64) :
    (s.cleared session).Agrees (t.cleared session) := by
  have := Agrees.cleared h session
  rwa [cleared_cleared, cleared_cleared] at this

theorem cleared_sameWeights (s : CandleShard C) (session : Option UInt64) :
    s.SameWeights (s.cleared session) := by
  unfold SameWeights
  rw [cleared_cleared]
  exact .refl _

/-- **What a run returns does not depend on the masks that are remembered.** -/
theorem Agrees.run {s t : CandleShard C} (h : s.Agrees t) (payload : Payload) (pos : UInt32) :
    (t.run payload pos).result = (s.run payload pos).result ∧
      (s.run payload pos).state.Agrees (t.run payload pos).state := by
  obtain ⟨model, hmodel, rfl⟩ := h
  have hin : ({ s with model } : CandleShard C).input payload = s.input payload := rfl
  unfold CandleShard.run
  rw [hin]
  cases s.input payload with
  | error e => exact ⟨rfl, model, hmodel, rfl⟩
  | ok x =>
    obtain ⟨hresult, hstate⟩ := hmodel.forward x pos.toNat
    refine ⟨?_, _, hstate, rfl⟩
    dsimp only
    rw [Call.lift_result, Call.lift_result, hresult]
    rfl

@[simp] theorem run_active (s : CandleShard C) (payload : Payload) (pos : UInt32) :
    (s.run payload pos).state.active = s.active := by
  unfold run
  cases s.input payload <;> rfl

/-- A run changes nothing but caches and masks. -/
theorem run_sameWeights (s : CandleShard C) (payload : Payload) (pos : UInt32) :
    s.SameWeights (s.run payload pos).state := by
  unfold run
  cases s.input payload with
  | error e => exact (Agrees.refl s).sameWeights
  | ok x => exact ⟨_, s.model.forward_clearKvCache x pos.toNat, rfl⟩

@[simp] theorem prefill_active (s : CandleShard C) (session : UInt64) (pos : UInt32)
    (payload : Payload) : (s.prefill session pos payload).state.active = some session := by
  unfold prefill
  split_ifs with h
  · rw [run_active]
    rfl
  · rw [run_active]
    exact not_not.1 fun hne => h (Or.inl hne)

@[simp] theorem decode_active (s : CandleShard C) (session : UInt64) (pos : UInt32)
    (payload : Payload) : (s.decode session pos payload).state.active = s.active := by
  unfold decode
  split_ifs
  · rfl
  · exact run_active s payload pos

theorem prefill_sameWeights (s : CandleShard C) (session : UInt64) (pos : UInt32)
    (payload : Payload) : s.SameWeights (s.prefill session pos payload).state := by
  unfold prefill
  split_ifs
  · exact (s.cleared_sameWeights _).trans (run_sameWeights _ payload pos)
  · exact s.run_sameWeights payload pos

theorem decode_sameWeights (s : CandleShard C) (session : UInt64) (pos : UInt32)
    (payload : Payload) : s.SameWeights (s.decode session pos payload).state := by
  unfold decode
  split_ifs
  · exact (Agrees.refl s).sameWeights
  · exact s.run_sameWeights payload pos

theorem dropSession_sameWeights (s : CandleShard C) (session : UInt64) :
    s.SameWeights (s.dropSession session) := by
  unfold dropSession
  split_ifs
  · exact s.cleared_sameWeights none
  · exact (Agrees.refl s).sameWeights

end CandleShard

end Engine

end Latticed
