import Latticed.Engine.Facts

/-!
# What crosses a shard boundary

The shard that owns the embedding takes tokens, the shard that owns the output head yields logits,
and everything between takes and yields hidden states, kept as the bytes that go on the wire.
-/

namespace Latticed

namespace Engine

/-- An `f32`, by its bits. -/
abbrev F32 := UInt32

/-- An `f32` as `total_cmp` sees it: the bits as an `i32`, the low ones flipped in negative numbers. -/
def totalKey (x : F32) : ℤ := if x.toNat < 2 ^ 31 then x.toNat else 2 ^ 31 - 1 - (x.toNat : ℤ)

/-- `f32::total_cmp`. -/
def totalCmp (x y : F32) : Ordering := compare (totalKey x) (totalKey y)

/-- An `f16`, by its bits. -/
abbrev F16 := UInt16

/-- Hidden states as raw bytes, laid out `[n_tokens][hidden_dim]` row-major. -/
structure Activation where
  nTokens : UInt32
  hiddenDim : UInt32
  dtype : WireDtype
  data : List UInt8
  deriving DecidableEq, Repr

/-- `Activation::new`: the buffer has the size of its shape, as a release build computes it. -/
def Activation.new (nTokens hiddenDim : UInt32) (dtype : WireDtype) (data : List UInt8) :
    Except EngineError Activation :=
  let want := nTokens.toUInt64 * hiddenDim.toUInt64 * dtype.size.toUInt64
  if data.length.toUInt64 ≠ want then
    .error (.shape data.length want.toNat nTokens hiddenDim dtype)
  else .ok { nTokens, hiddenDim, dtype, data }

/-- What a shard is handed and what it hands on. -/
inductive Payload where
  | tokens (ids : List UInt32)
  | hidden (activation : Activation)
  | logits (values : List F32)
  deriving DecidableEq, Repr

/-- The name used in error messages. -/
def Payload.kind : Payload → String
  | tokens _ => "tokens"
  | hidden _ => "hidden states"
  | logits _ => "logits"

/-- What to load.  `lastLayer` is exclusive. -/
structure ShardSpec where
  modelHash : String
  firstLayer : UInt32
  lastLayer : UInt32
  maxContext : UInt32
  kvDtype : KvDtype
  wireDtype : WireDtype
  deriving DecidableEq, Repr

/-- Number of layers of a range. -/
def ShardSpec.layers (spec : ShardSpec) : UInt32 := spec.lastLayer - spec.firstLayer

end Engine

end Latticed
