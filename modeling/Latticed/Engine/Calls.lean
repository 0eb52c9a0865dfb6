import Latticed.Engine.CandleShard

/-!
# Calls to a shard, and what is relied on of the tensor library

A shard is used through three calls: a prompt or a piece of one (`prefill`), one more token
(`decode`), and the end of a session (`drop_session`).

* `CandleShard.feed_eq` : a call that is admitted is a run of the shard, emptied before it where the
  session is new or starts over.
* `CandleShard.run_eq_ok` : a run returns iff each of its operations succeeds.
* `Candle.Shapes`, `Candle.Boundary`, `Candle.Positions` : what the shapes of tensors, reading a
  tensor out and in again, and the keys of a layer are relied on for; `Candle.Positions.ChecksMasks` is
  what broadcasting a mask is.
-/

namespace Latticed

namespace Engine

open Rust

variable {C : Candle}

/-! ### Calls -/

/-- A `prefill` or a `decode`. -/
structure Feed where
  isPrefill : Bool
  session : UInt64
  pos : UInt32
  input : Payload
  deriving DecidableEq

/-- A call of the `Shard` trait that changes the shard. -/
inductive ShardCall where
  | feed (f : Feed)
  | drop (session : UInt64)
  deriving DecidableEq

namespace CandleShard

/-- `prefill` or `decode`. -/
def feed (s : CandleShard C) (f : Feed) : Call (CandleShard C) ℕ EngineError Payload :=
  if f.isPrefill then s.prefill f.session f.pos f.input else s.decode f.session f.pos f.input

/-- The shard after a call. -/
def after (s : CandleShard C) : ShardCall → CandleShard C
  | .feed f => (s.feed f).state
  | .drop session => s.dropSession session

/-- The shard does not refuse the session. -/
def Admits (s : CandleShard C) (f : Feed) : Prop :=
  f.isPrefill = true ∨ s.active = some f.session

/-- The call empties the cache before it runs. -/
def Empties (s : CandleShard C) (f : Feed) : Prop :=
  f.isPrefill = true ∧ (s.active ≠ some f.session ∨ f.pos = 0)

instance (s : CandleShard C) (f : Feed) : Decidable (s.Admits f) :=
  inferInstanceAs (Decidable (_ ∨ _))

instance (s : CandleShard C) (f : Feed) : Decidable (s.Empties f) :=
  inferInstanceAs (Decidable (_ ∧ _))

/-- The shard at the moment its layers run. -/
def ready (s : CandleShard C) (f : Feed) : CandleShard C :=
  if s.Empties f then s.cleared (some f.session) else s

theorem ready_of_prefill {s : CandleShard C} {f : Feed} (h : f.isPrefill = true) :
    s.ready f = if s.active ≠ some f.session ∨ f.pos = 0 then s.cleared (some f.session) else s := by
  simp only [ready, Empties, h, true_and]

theorem ready_of_decode {s : CandleShard C} {f : Feed} (h : ¬ f.isPrefill = true) :
    s.ready f = s :=
  if_neg fun hempties => h hempties.1

theorem feed_eq {s : CandleShard C} {f : Feed} (h : s.Admits f) :
    s.feed f = (s.ready f).run f.input f.pos := by
  unfold feed
  split_ifs with hkind
  · rw [ready_of_prefill hkind, prefill]
    split_ifs <;> rfl
  · rw [ready_of_decode hkind, decode, if_neg (not_not.2 (h.resolve_left hkind))]

theorem feed_refused {s : CandleShard C} {f : Feed} (h : ¬ s.Admits f) :
    s.feed f = .pure (.error (.unknownSession f.session)) s := by
  obtain ⟨hkind, hactive⟩ := not_or.1 h
  rw [feed, if_neg hkind, decode, if_pos hactive]

theorem admits_of_ok {s : CandleShard C} {f : Feed} {y : Payload} (h : (s.feed f).result = .ok y) :
    s.Admits f := by
  by_contra hnot
  rw [feed_refused hnot] at h
  cases h

@[simp] theorem ready_spec (s : CandleShard C) (f : Feed) : (s.ready f).spec = s.spec := by
  unfold ready
  split_ifs <;> rfl

@[simp] theorem ready_facts (s : CandleShard C) (f : Feed) : (s.ready f).facts = s.facts := by
  unfold ready
  split_ifs <;> rfl

theorem ready_active {s : CandleShard C} {f : Feed} (h : s.Admits f) :
    (s.ready f).active = some f.session := by
  unfold ready
  split_ifs with hempties
  · rfl
  · rcases h with hprefill | hactive
    · by_contra hne
      exact hempties ⟨hprefill, Or.inl hne⟩
    · exact hactive

/-- Getting ready for a call that is admitted changes the layers and the session. -/
theorem ready_eq {s : CandleShard C} {f : Feed} (h : s.Admits f) : s.ready f = { s with
    model := { s.model with layers := (s.ready f).model.layers }, active := some f.session } := by
  have hactive := ready_active h
  unfold ready at hactive ⊢
  split_ifs at hactive ⊢
  · rfl
  · rw [← hactive]

/-- A call leaves the session it was made for. -/
theorem feed_active {s : CandleShard C} {f : Feed} (h : s.Admits f) :
    (s.feed f).state.active = some f.session := by
  rw [feed_eq h, run_active, ready_active h]

end CandleShard

/-! ### What a run consists of -/

/-- **A layer returns** iff its operations succeed. -/
theorem Layer.forward_eq_ok {layer : Layer C} {mask : Option C.Mask} {pos : ℕ} {u : Unit}
    {x y : C.Tensor} (h : (layer.forward mask pos u x).result = .ok y) :
    ∃ q new kv, C.project layer.weights x pos = .ok (q, new) ∧ layer.extend pos new = .ok kv ∧
      C.attend layer.weights x q kv mask = .ok y := by
  unfold Layer.forward at h
  cases hproject : C.project layer.weights x pos with
  | error e =>
    rw [hproject] at h
    cases h
  | ok p =>
    obtain ⟨q, new⟩ := p
    rw [hproject] at h
    dsimp only at h
    cases hextend : layer.extend pos new with
    | error e =>
      rw [hextend] at h
      cases h
    | ok kv =>
      rw [hextend] at h
      exact ⟨q, new, kv, rfl, hextend, h⟩

/-- The mask of `seqLen` positions, if there is more than one. -/
def maskOf (C : Candle) (seqLen indexPos : ℕ) : Except String (Option C.Mask) :=
  if seqLen = 1 then .ok none else (C.buildCausalMask seqLen indexPos).map some

theorem ShardModel.maskFor_fst (m : ShardModel C) (seqLen indexPos : ℕ) :
    (m.maskFor seqLen indexPos).1 = maskOf C seqLen indexPos := by
  unfold ShardModel.maskFor maskOf
  split_ifs
  · rfl
  · show (m.masks.get seqLen indexPos).1.map some = _
    rw [Masks.get_fst]

namespace CandleShard

/-- A run that returns `y`, and what each of its operations yields. -/
structure Ran (s : CandleShard C) (payload : Payload) (pos : UInt32) (y : Payload) where
  x : C.Tensor
  layerIn : C.Tensor
  seqLen : ℕ
  mask : Option C.Mask
  layerOut : C.Tensor
  out : C.Tensor
  input : s.input payload = .ok x
  enter : s.model.enter x = .ok (layerIn, seqLen)
  masked : maskOf C seqLen pos.toNat = .ok mask
  layers : (relay (Layer.forward mask pos.toNat) s.model.layers () layerIn).result = .ok layerOut
  finish : s.model.finish seqLen layerOut = .ok out
  output : s.output out = .ok y

variable {s : CandleShard C} {payload : Payload} {pos : UInt32} {y : Payload}

/-- What a run does once it has its input, its hidden states and its mask. -/
theorem run_of_masked {x layerIn : C.Tensor} {seqLen : ℕ} {mask : Option C.Mask}
    (hinput : s.input payload = .ok x) (henter : s.model.enter x = .ok (layerIn, seqLen))
    (hmask : maskOf C seqLen pos.toNat = .ok mask) :
    ∃ masks, s.run payload pos =
      (relay (Layer.forward mask pos.toNat) s.model.layers () layerIn).lift
        (fun after => { s with model := { s.model with masks, layers := after.1 } })
        (fun result => ((result.bind (s.model.finish seqLen)).mapError .engine).bind s.output) := by
  unfold run ShardModel.forward
  rw [hinput]
  dsimp only
  rw [henter]
  dsimp only
  have hfst := s.model.maskFor_fst seqLen pos.toNat
  rw [hmask] at hfst
  rcases hm : s.model.maskFor seqLen pos.toNat with ⟨mask', masks⟩
  rw [hm] at hfst
  obtain rfl : mask' = .ok mask := hfst
  exact ⟨masks, rfl⟩

/-- **How a run begins**: its input, its hidden states and its mask are there, or it fails and the layers
are as they were. -/
theorem run_begins (s : CandleShard C) (payload : Payload) (pos : UInt32) :
    (∃ x layerIn seqLen mask, s.input payload = .ok x ∧ s.model.enter x = .ok (layerIn, seqLen) ∧
        maskOf C seqLen pos.toNat = .ok mask) ∨
      (∀ x layerIn seqLen mask, s.input payload = .ok x → s.model.enter x = .ok (layerIn, seqLen) →
        maskOf C seqLen pos.toNat ≠ .ok mask) ∧
      ∃ e masks, (s.run payload pos).result = .error e ∧
        (s.run payload pos).state = { s with model := { s.model with masks } } := by
  unfold run ShardModel.forward
  cases hinput : s.input payload with
  | error e => exact Or.inr ⟨fun x _ _ _ h => (by cases h), _, s.model.masks, rfl, rfl⟩
  | ok x =>
    dsimp only
    cases henter : s.model.enter x with
    | error e =>
      refine Or.inr ⟨fun x' layerIn seqLen mask hx h => ?_, _, s.model.masks, rfl, rfl⟩
      cases hx
      rw [henter] at h
      cases h
    | ok start =>
      obtain ⟨layerIn, seqLen⟩ := start
      dsimp only
      -- whether there is a mask does not depend on the masks that are remembered
      have hfst := s.model.maskFor_fst seqLen pos.toNat
      rcases hm : s.model.maskFor seqLen pos.toNat with ⟨_ | mask, masks⟩
      · rw [hm] at hfst
        refine Or.inr ⟨fun x' layerIn' seqLen' mask hx h hmask => ?_, _, masks, rfl, rfl⟩
        cases hx
        rw [henter] at h
        cases h
        rw [← hfst] at hmask
        cases hmask
      · rw [hm] at hfst
        exact Or.inl ⟨x, layerIn, seqLen, mask, rfl, henter, hfst.symm⟩

/-- The end of a run, after its layers. -/
theorem finished_eq_ok {result : Except String C.Tensor} {finish : C.Tensor → Except String C.Tensor}
    {output : C.Tensor → Except EngineError Payload} :
    ((result.bind finish).mapError EngineError.engine).bind output = .ok y ↔
      ∃ z out, result = .ok z ∧ finish z = .ok out ∧ output out = .ok y := by
  constructor
  · intro h
    obtain ⟨out, hout, houtput⟩ := exceptBind_eq_ok.1 h
    obtain ⟨z, hz, hfinish⟩ := exceptBind_eq_ok.1 (mapError_eq_ok.1 hout)
    exact ⟨z, out, hz, hfinish, houtput⟩
  · rintro ⟨z, out, hz, hfinish, houtput⟩
    refine exceptBind_eq_ok.2 ⟨out, mapError_eq_ok.2 ?_, houtput⟩
    exact exceptBind_eq_ok.2 ⟨z, hz, hfinish⟩

/-- **A run returns iff each of its operations succeeds.** -/
theorem run_eq_ok : (s.run payload pos).result = .ok y ↔ Nonempty (s.Ran payload pos y) := by
  constructor
  · intro h
    rcases s.run_begins payload pos with
      ⟨x, layerIn, seqLen, mask, hinput, henter, hmask⟩ | ⟨-, e, masks, herror, -⟩
    · obtain ⟨masks, hrun⟩ := run_of_masked hinput henter hmask
      rw [hrun] at h
      obtain ⟨layerOut, out, hlayers, hfinish, houtput⟩ := finished_eq_ok.1 h
      exact ⟨⟨x, layerIn, seqLen, mask, layerOut, out, hinput, henter, hmask, hlayers, hfinish,
        houtput⟩⟩
    · rw [herror] at h
      cases h
  · rintro ⟨r⟩
    obtain ⟨masks, hrun⟩ := run_of_masked r.input r.enter r.masked
    rw [hrun]
    exact finished_eq_ok.2 ⟨r.layerOut, r.out, r.layers, r.finish, r.output⟩

/-- A run that returns leaves the layers as they were left one after the other. -/
theorem Ran.state (r : s.Ran payload pos y) : ∃ masks, (s.run payload pos).state =
    let layers := (relay (Layer.forward r.mask pos.toNat) s.model.layers () r.layerIn).state.1
    { s with model := { s.model with masks, layers } } := by
  obtain ⟨masks, hrun⟩ := run_of_masked r.input r.enter r.masked
  exact ⟨masks, by rw [hrun]; rfl⟩

end CandleShard

/-! ### The tensor library -/

/-- `MAX_SEQ_LEN`: the rows of the tables of the rotary embedding. -/
def MAX_SEQ_LEN : ℕ := 4096

/-- The shapes of hidden states: a batch of one, with a vector for each position. -/
structure Candle.Shapes (C : Candle) : Prop where
  /-- The embedding yields a vector of `embedding_length` numbers, which is a `u32`, for each token. -/
  embed : ∀ e ids x y, C.newTokens ids = .ok x → C.embed e x = .ok y →
    ∃ hidden < 2 ^ 32, C.dims3 y = .ok (1, ids.length, hidden)
  /-- A tensor that is built has the shape it was built with. -/
  fromVec : ∀ values shape x, C.fromVec values shape = .ok x → C.dims3 x = .ok shape
  /-- A block ends with an addition to its input, so it keeps the shape. -/
  block : ∀ weights x pos q new kv mask y, C.project weights x pos = .ok (q, new) →
    C.attend weights x q kv mask = .ok y → C.dims3 y = C.dims3 x

/-- What is relied on where hidden states cross a boundary. -/
structure Candle.Boundary (C : Candle) : Prop extends Candle.Shapes C where
  /-- The rotary embedding narrows its tables to the positions of the step. -/
  narrow : ∀ weights x pos r shape, C.project weights x pos = .ok r → C.dims3 x = .ok shape →
    pos + shape.2.1 ≤ MAX_SEQ_LEN
  /-- Hidden states are `f32`: reading them out and building a tensor of what was read yields them. -/
  readBack : ∀ x shape, C.dims3 x = .ok shape → ∃ values, C.toVecF32 x = .ok values ∧
    values.length = shape.1 * shape.2.1 * shape.2.2 ∧ C.fromVec values shape = .ok x

/-- The positions whose keys and values a cache holds: a dimension of its tensors. -/
structure Candle.Positions (C : Candle) extends Candle.Shapes C where
  held : C.KvCache → ℕ
  /-- A step has keys for each of its positions. -/
  held_new : ∀ weights x pos q new shape, C.project weights x pos = .ok (q, new) →
    C.dims3 x = .ok shape → held new = shape.2.1
  /-- Concatenation adds up. -/
  held_cat : ∀ cached new kv, C.cat cached new = .ok kv → held kv = held cached + held new

/-- The mask of a step has a row for each of its positions and a column for each of `kv_len`.  It is
broadcast to the shape of the attention: a dimension that is not 1 has to be there. -/
def Candle.Positions.ChecksMasks (laws : C.Positions) : Prop :=
  ∀ weights x q kv seqLen indexPos mask y, C.buildCausalMask seqLen indexPos = .ok mask →
    C.attend weights x q kv (some mask) = .ok y → indexPos + seqLen ≠ 1 →
      laws.held kv = indexPos + seqLen

/-- Blocks keep the shape of the hidden states. -/
theorem Candle.Shapes.relay (h : C.Shapes) {mask : Option C.Mask} {pos : ℕ}
    {layers : List (Layer C)} {x y : C.Tensor}
    (hok : (Rust.relay (Layer.forward mask pos) layers () x).result = .ok y) :
    C.dims3 y = C.dims3 x := by
  induction layers generalizing x with
  | nil =>
    cases hok
    rfl
  | cons layer rest ih =>
    rw [Rust.relay] at hok
    cases hlayer : (layer.forward mask pos () x).result with
    | error e =>
      rw [hlayer] at hok
      cases hok
    | ok z =>
      rw [hlayer] at hok
      obtain ⟨q, new, kv, hproject, -, hattend⟩ := Layer.forward_eq_ok hlayer
      exact (ih hok).trans (h.block _ _ _ _ _ _ _ _ hproject hattend)

end Engine

end Latticed
