import Latticed.Rust.Text

/-!
# What the planner needs to know about a model

The GGUF header as `candle` parses it (`Content`), and the figures read from it: the dimensions
of the model (`ModelFacts`) and the bytes of its tensors (`ModelInventory`).
-/

namespace Latticed

namespace Engine

/-- Element type of activations on the wire. -/
inductive WireDtype where
  | f16
  | f32
  deriving DecidableEq, Repr

/-- Bytes per element. -/
def WireDtype.size : WireDtype → ℕ
  | f16 => 2
  | f32 => 4

/-- The name `{:?}` prints. -/
def WireDtype.debug : WireDtype → String
  | f16 => "F16"
  | f32 => "F32"

/-- Element type of the KV cache. -/
inductive KvDtype where
  | f16
  deriving DecidableEq, Repr

/-- Bytes per element. -/
def KvDtype.size : KvDtype → ℕ
  | f16 => 2

/-- The errors of the engine. -/
inductive EngineError where
  | wrongPayload (held : UInt32 × UInt32) (got : String)
  | shape (got want : ℕ) (nTokens hiddenDim : UInt32) (dtype : WireDtype)
  | unsupportedRange (asked : UInt32 × UInt32) (have_ : UInt32)
  | unsupportedArch (arch : String)
  | unknownSession (session : UInt64)
  | engine (why : String)
  deriving DecidableEq, Repr

/-- A layer range as `{:?}` prints it. -/
def rangeDebug (r : UInt32 × UInt32) : String :=
  "(" ++ toString r.1 ++ ", " ++ toString r.2 ++ ")"

/-- The text of an error; `debug` is how `{:?}` prints a string. -/
def EngineError.display (debug : String → String) : EngineError → String
  | wrongPayload held got =>
    "shard holds layers " ++ rangeDebug held ++ ", but was handed " ++ got
  | shape got want nTokens hiddenDim dtype =>
    "activation is " ++ toString got ++ " bytes, but " ++ toString nTokens ++ "x" ++
      toString hiddenDim ++ " " ++ dtype.debug ++ " needs " ++ toString want
  | unsupportedRange asked have_ =>
    "shard was asked for layers " ++ rangeDebug asked ++ ", but this engine holds all " ++
      toString have_
  | unsupportedArch arch =>
    "model architecture " ++ debug arch ++
      " is not supported; this engine reads llama-family GGUF"
  | unknownSession session => "no such session " ++ toString session
  | engine why => why

/-! ### The GGUF header -/

/-- What a metadata value holds.  Only the variants the code tells apart are kept apart. -/
inductive Held where
  | u8 (v : UInt8)
  | u16 (v : UInt16)
  | u32 (v : UInt32)
  | u64 (v : UInt64)
  | string (s : String)
  | other
  deriving DecidableEq, Repr

/-- A metadata value, and what `candle` says of it. -/
structure Value where
  held : Held
  /-- The type, as `{:?}` shows it. -/
  valueType : String
  /-- What `to_string` says if the value is of another type. -/
  notString : String
  /-- What `to_u32` says then. -/
  notU32 : String
  deriving DecidableEq, Repr

/-- A value of which nothing is said. -/
def Value.plain (held : Held) : Value := ⟨held, "", "", ""⟩

/-- Metadata: a value per key. -/
abbrev Metadata := List (String × Value)

/-- Storage type of a tensor: elements per block and bytes per block. -/
structure GgmlDType where
  blockSize : UInt64
  typeSize : UInt64
  /-- No storage type has empty blocks. -/
  blockSize_pos : 0 < blockSize.toNat
  /-- None takes more than single floats do. -/
  typeSize_le : typeSize.toNat ≤ 4 * blockSize.toNat

/-- Where a tensor is in the file and how it is stored. -/
structure TensorInfo where
  ggmlDtype : GgmlDType
  shape : List UInt64

/-- The parsed header. -/
structure Content where
  metadata : Metadata
  tensorInfos : List (String × TensorInfo)

/-! ### `ModelFacts` -/

/-- The dimensions of a model. -/
structure ModelFacts where
  arch : String
  layers : UInt32
  hiddenDim : UInt32
  heads : UInt32
  kvHeads : UInt32
  trainContext : UInt32
  deriving DecidableEq, Repr

/-- `missing`. -/
def missing (key : String) : EngineError := .engine ("GGUF metadata has no " ++ key)

/-- `string`. -/
def stringAt (metadata : Metadata) (key : String) : Except EngineError String :=
  match metadata.lookup key with
  | none => .error (missing key)
  | some ⟨.string s, _, _, _⟩ => .ok s
  | some v => .error (.engine v.notString)

/-- GGUF writers disagree on integer width for the same key, so any is accepted. -/
def u32At (metadata : Metadata) (key : String) : Except EngineError UInt32 :=
  match metadata.lookup key with
  | none => .error (missing key)
  | some ⟨.u8 v, _, _, _⟩ => .ok v.toUInt32
  | some ⟨.u16 v, _, _, _⟩ => .ok v.toUInt32
  | some ⟨.u32 v, _, _, _⟩ => .ok v
  | some ⟨.u64 v, _, _, _⟩ =>
    if v.toNat < 2 ^ 32 then .ok v.toUInt32
    else .error (.engine (key ++ " is " ++ toString v))
  | some v => .error (.engine (key ++ " is " ++ v.valueType ++ ", not an integer"))

/-- `ModelFacts::read`. -/
def ModelFacts.read (metadata : Metadata) : Except EngineError ModelFacts := do
  let arch ← stringAt metadata "general.architecture"
  let heads ← u32At metadata (arch ++ ".attention.head_count")
  let layers ← u32At metadata (arch ++ ".block_count")
  let hiddenDim ← u32At metadata (arch ++ ".embedding_length")
  -- multi-head attention omits the kv key: there it equals heads
  let kvHeads := match u32At metadata (arch ++ ".attention.head_count_kv") with
    | .ok n => n
    | .error _ => heads
  let trainContext ← u32At metadata (arch ++ ".context_length")
  return { arch, layers, hiddenDim, heads, kvHeads, trainContext }

/-- `head_dim`; the division panics when there are no heads. -/
def ModelFacts.headDim (f : ModelFacts) : Rust.Outcome EngineError ℕ :=
  if f.heads = 0 then .panic "attempt to divide by zero"
  else .ok (f.hiddenDim.toNat / f.heads.toNat)

/-- Bytes of KV cache for `layers` layers at the configured context ceiling, as the `u64`
arithmetic of a release build leaves them. -/
def ModelFacts.kvBytes (f : ModelFacts) (layers maxContext : UInt32) (dtype : KvDtype) :
    Rust.Outcome EngineError UInt64 :=
  f.headDim.andThen fun headDim =>
    .ok (UInt64.ofNat (2 * f.kvHeads.toNat * headDim * maxContext.toNat * layers.toNat *
      dtype.size))

/-! ### `ModelInventory` -/

/-- The bytes of a model, layer by layer; everything else is `outputBytes`. -/
structure ModelInventory where
  facts : ModelFacts
  layerBytes : List UInt64
  outputBytes : UInt64
  deriving DecidableEq, Repr

end Engine

end Latticed
