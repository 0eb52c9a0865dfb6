import Latticed.Engine.Split

/-!
# What the caches of a shard hold

A step stores its keys and values in the cache of one layer after the other, before that layer
attends to them.  A step that fails may have got through some of the layers.

* `stored_grown` : the layers that a step gets through grow by its positions, and the others are as they
  were.
* `CandleShard.run_grown` : the same, of a shard.
* `CandleShard.after_sameWeights` : calls change nothing but masks, caches and sessions.
-/

namespace Latticed

namespace Engine

open Rust

variable {C : Candle}

/-- The positions whose keys and values the layer holds. -/
def Layer.held (laws : C.Positions) (layer : Layer C) : ℕ := (layer.kvCache.map laws.held).getD 0

/-- The positions held after a step of `n` positions at `pos`, when `k` were held before. -/
def grown (pos n k : ℕ) : ℕ := (if pos = 0 then 0 else k) + n

theorem Layer.extend_held (laws : C.Positions) {layer : Layer C} {x q : C.Tensor}
    {new kv : C.KvCache} {pos b n width : ℕ}
    (hproject : C.project layer.weights x pos = .ok (q, new))
    (hdims : C.dims3 x = .ok (b, n, width)) (hextend : layer.extend pos new = .ok kv) :
    laws.held kv = grown pos n (layer.held laws) := by
  have hnew : laws.held new = n := laws.held_new _ _ _ _ _ _ hproject hdims
  unfold Layer.extend at hextend
  unfold grown Layer.held
  cases hcache : layer.kvCache with
  | none =>
    rw [hcache] at hextend
    cases hextend
    simp [hnew]
  | some cached =>
    rw [hcache] at hextend
    dsimp only at hextend
    by_cases hpos : pos = 0
    · rw [if_pos hpos] at hextend ⊢
      cases hextend
      simp [hnew]
    · rw [if_neg hpos] at hextend ⊢
      rw [laws.held_cat _ _ _ hextend, hnew]
      rfl

/-! ### The layers a step gets through -/

/-- The number of layers that store their keys before the step ends. -/
def stored (mask : Option C.Mask) (pos : ℕ) : List (Layer C) → C.Tensor → ℕ
  | [], _ => 0
  | layer :: rest, x =>
    match C.project layer.weights x pos with
    | .error _ => 0
    | .ok (q, new) =>
      match layer.extend pos new with
      | .error _ => 0
      | .ok kv =>
        match C.attend layer.weights x q kv mask with
        | .error _ => 1
        | .ok y => stored mask pos rest y + 1

variable {mask : Option C.Mask} {pos b n width c : ℕ} {layers : List (Layer C)} {x : C.Tensor}

/-- **The layers a step gets through grow by its positions**, and the others are as they were. -/
theorem stored_grown (laws : C.Positions) (hdims : C.dims3 x = .ok (b, n, width)) :
    ∃ done, (relay (Layer.forward mask pos) layers () x).state.1 =
        done ++ layers.drop (stored mask pos layers x) ∧
      List.Forall₂ (fun after before => after.held laws = grown pos n (before.held laws)) done
        (layers.take (stored mask pos layers x)) := by
  induction layers generalizing x with
  | nil => exact ⟨[], rfl, .nil⟩
  | cons layer rest ih =>
    rw [relay, stored, Layer.forward]
    cases hproject : C.project layer.weights x pos with
    | error e => exact ⟨[], rfl, .nil⟩
    | ok p =>
      obtain ⟨q, new⟩ := p
      dsimp only
      cases hextend : layer.extend pos new with
      | error e => exact ⟨[], rfl, .nil⟩
      | ok kv =>
        have hheld : ({ layer with kvCache := some kv } : Layer C).held laws =
            grown pos n (layer.held laws) := Layer.extend_held laws hproject hdims hextend
        dsimp only
        -- the cache is written whether or not attention then fails
        cases hattend : C.attend layer.weights x q kv mask with
        | error e => exact ⟨[{ layer with kvCache := some kv }], rfl, .cons hheld .nil⟩
        | ok y =>
          have hy : C.dims3 y = .ok (b, n, width) :=
            (laws.block _ _ _ _ _ _ _ _ hproject hattend).trans hdims
          obtain ⟨done, hstate, hdone⟩ := ih hy
          refine ⟨{ layer with kvCache := some kv } :: done, ?_, .cons hheld hdone⟩
          dsimp only
          rw [hstate]
          rfl

/-- A step that succeeds gets through all layers. -/
theorem stored_of_ok {y : C.Tensor}
    (h : (relay (Layer.forward mask pos) layers () x).result = .ok y) :
    stored mask pos layers x = layers.length := by
  induction layers generalizing x with
  | nil => rfl
  | cons layer rest ih =>
    obtain ⟨z, hz, hrest⟩ := relay_cons_ok.1 h
    obtain ⟨q, new, kv, hproject, hextend, hattend⟩ := Layer.forward_eq_ok hz
    rw [stored, hproject]
    dsimp only
    rw [hextend]
    dsimp only
    rw [hattend]
    exact congrArg (· + 1) (ih hrest)

/-- A step stores in layers that are there. -/
theorem stored_le : stored mask pos layers x ≤ layers.length := by
  induction layers generalizing x with
  | nil => exact le_rfl
  | cons layer rest ih =>
    rw [stored, List.length_cons]
    cases C.project layer.weights x pos with
    | error e => exact Nat.zero_le _
    | ok p =>
      dsimp only
      cases layer.extend pos p.2 with
      | error e => exact Nat.zero_le _
      | ok kv =>
        dsimp only
        cases C.attend layer.weights x p.1 kv mask with
        | error e => exact Nat.succ_le_succ (Nat.zero_le _)
        | ok y => exact Nat.succ_le_succ ih

/-! ### A shard -/

/-- The positions a payload is for. -/
def Payload.positions : Payload → ℕ
  | tokens ids => ids.length
  | hidden activation => activation.nTokens.toNat
  | logits _ => 0

namespace CandleShard

variable {s : CandleShard C} {payload y : Payload}

/-- The number of layers that store their keys before the run ends. -/
def stored (s : CandleShard C) (payload : Payload) (pos : UInt32) : ℕ :=
  match s.input payload with
  | .error _ => 0
  | .ok x =>
    match s.model.enter x with
    | .error _ => 0
    | .ok (layerIn, seqLen) =>
      match maskOf C seqLen pos.toNat with
      | .error _ => 0
      | .ok mask => Engine.stored mask pos.toNat s.model.layers layerIn

/-- The shard that takes tokens has the embedding. -/
def Embeds (s : CandleShard C) : Prop := s.model.tokEmbeddings.isSome = s.ownsEmbedding

theorem openFile_embeds {file : C.File} {spec : ShardSpec} (h : openFile file spec = .ok s) :
    s.Embeds := by
  obtain ⟨content, blockCount, ends, hopened⟩ := openFile_inv h
  unfold Embeds ownsEmbedding
  rw [hopened.embedding, hopened.spec]
  by_cases hfirst : spec.firstLayer = 0
  · obtain ⟨q, e, -, -, hsome⟩ := hopened.reads.embedding (by rw [hfirst]; rfl)
    rw [hsome, decide_eq_true hfirst]
    rfl
  · rw [hopened.reads.noEmbedding fun hzero => hfirst (UInt32.toNat_inj.1 hzero),
      decide_eq_false hfirst]
    rfl

theorem enter_eq_ok {m : ShardModel C} {x layerIn : C.Tensor} {seqLen : ℕ}
    (h : m.enter x = .ok (layerIn, seqLen)) :
    (∀ e, m.tokEmbeddings = some e → C.embed e x = .ok layerIn) ∧
      (m.tokEmbeddings = none → x = layerIn) ∧
      ∃ batch width, C.dims3 layerIn = .ok (batch, seqLen, width) := by
  unfold ShardModel.enter at h
  cases hembedding : m.tokEmbeddings with
  | some e =>
    rw [hembedding] at h
    obtain ⟨start, hstart, h⟩ := bind_eq_ok.1 h
    obtain ⟨⟨batch, n, width⟩, hdims, h⟩ := bind_eq_ok.1 h
    cases h
    exact ⟨fun e' he => Option.some.inj he ▸ hstart, fun hnone => (by cases hnone), batch, width,
      hdims⟩
  | none =>
    rw [hembedding] at h
    obtain ⟨start, hstart, h⟩ := bind_eq_ok.1 h
    obtain ⟨⟨batch, n, width⟩, hdims, h⟩ := bind_eq_ok.1 h
    cases hstart
    cases h
    exact ⟨fun e he => (by cases he), fun _ => rfl, batch, width, hdims⟩

/-- **A run begins with the positions of its payload.** -/
theorem enter_positions (laws : C.Shapes) (hembeds : s.Embeds) {x layerIn : C.Tensor} {seqLen : ℕ}
    (hinput : s.input payload = .ok x) (henter : s.model.enter x = .ok (layerIn, seqLen)) :
    seqLen = payload.positions ∧
      ∃ hidden, C.dims3 layerIn = .ok (1, payload.positions, hidden) := by
  obtain ⟨hembed, hnone, batch, width, hdims⟩ := enter_eq_ok henter
  unfold Embeds at hembeds
  unfold input at hinput
  have hshape : ∃ hidden, C.dims3 layerIn = .ok (1, payload.positions, hidden) := by
    cases hown : s.ownsEmbedding with
    | true =>
      rw [hown] at hinput hembeds
      obtain ⟨e, hsome⟩ := Option.isSome_iff_exists.1 hembeds
      cases payload with
      | tokens ids =>
        obtain ⟨hidden, -, hids⟩ :=
          laws.embed e ids x _ (mapError_eq_ok.1 hinput) (hembed e hsome)
        exact ⟨hidden, hids⟩
      | hidden activation => cases hinput
      | logits values => cases hinput
    | false =>
      rw [hown] at hinput hembeds
      obtain rfl := hnone (Option.isNone_iff_eq_none.1 (Option.isSome_eq_false_iff.1 hembeds))
      cases payload with
      | tokens ids => cases hinput
      | hidden activation => exact ⟨_, laws.fromVec _ _ _ (mapError_eq_ok.1 hinput)⟩
      | logits values => cases hinput
  -- the first shard reads the positions off the tokens, the others off the activation
  obtain ⟨hidden, hhidden⟩ := hshape
  rw [hhidden] at hdims
  cases hdims
  exact ⟨rfl, hidden, hhidden⟩

/-- A run changes only what its layers hold, and the masks. -/
theorem run_state (s : CandleShard C) (payload : Payload) (pos : UInt32) :
    ∃ masks layers, (s.run payload pos).state = { s with model := { s.model with masks, layers } } := by
  rcases s.run_begins payload pos with
    ⟨x, layerIn, seqLen, mask, hinput, henter, hmask⟩ | ⟨-, e, masks, -, hstate⟩
  · obtain ⟨masks, hrun⟩ := run_of_masked hinput henter hmask
    rw [hrun]
    exact ⟨masks, _, rfl⟩
  · exact ⟨masks, s.model.layers, hstate⟩

/-- A run that fails before its layers stores nothing. -/
theorem stored_eq_zero {pos : UInt32} (h : ∀ x layerIn seqLen mask, s.input payload = .ok x →
    s.model.enter x = .ok (layerIn, seqLen) → maskOf C seqLen pos.toNat ≠ .ok mask) :
    s.stored payload pos = 0 := by
  unfold stored
  cases hinput : s.input payload with
  | error e => rfl
  | ok x =>
    dsimp only
    cases henter : s.model.enter x with
    | error e => rfl
    | ok start =>
      dsimp only
      cases hmask : maskOf C start.2 pos.toNat with
      | error e => rfl
      | ok mask => exact absurd hmask (h x start.1 start.2 mask hinput henter)

/-- Once its layers begin, a run stores what they store. -/
theorem stored_of_masked {pos : UInt32} {x layerIn : C.Tensor} {seqLen : ℕ}
    (hinput : s.input payload = .ok x) (henter : s.model.enter x = .ok (layerIn, seqLen))
    (hmask : maskOf C seqLen pos.toNat = .ok mask) :
    s.stored payload pos = Engine.stored mask pos.toNat s.model.layers layerIn := by
  unfold stored
  rw [hinput]
  dsimp only
  rw [henter]
  dsimp only
  rw [hmask]

/-- A run stores what it stores in layers that are there. -/
theorem stored_le (s : CandleShard C) (payload : Payload) (pos : UInt32) :
    s.stored payload pos ≤ s.model.layers.length := by
  unfold stored
  cases s.input payload with
  | error e => exact Nat.zero_le _
  | ok x =>
    dsimp only
    cases s.model.enter x with
    | error e => exact Nat.zero_le _
    | ok start =>
      dsimp only
      cases maskOf C start.2 pos.toNat with
      | error e => exact Nat.zero_le _
      | ok mask => exact Engine.stored_le

/-- **The layers a run gets through grow by its positions**, and the others are as they were. -/
theorem run_grown (laws : C.Positions) (hembeds : s.Embeds) (payload : Payload) (pos : UInt32) :
    ∃ done, (s.run payload pos).state.model.layers =
        done ++ s.model.layers.drop (s.stored payload pos) ∧
      List.Forall₂ (fun after before => after.held laws =
          grown pos.toNat payload.positions (before.held laws)) done
        (s.model.layers.take (s.stored payload pos)) := by
  rcases s.run_begins payload pos with
    ⟨x, layerIn, seqLen, mask, hinput, henter, hmask⟩ | ⟨hnot, e, masks, -, hstate⟩
  · obtain ⟨hlen, hidden, hdims⟩ := enter_positions laws.toShapes hembeds hinput henter
    subst hlen
    obtain ⟨masks, hrun⟩ := run_of_masked hinput henter hmask
    rw [hrun, stored_of_masked hinput henter hmask]
    exact stored_grown laws hdims
  · rw [hstate, stored_eq_zero hnot]
    exact ⟨[], rfl, .nil⟩

/-- Of layers that hold the same number of positions, those a run gets through hold the same again. -/
theorem run_held (laws : C.Positions) (hembeds : s.Embeds)
    (heven : ∀ layer ∈ s.model.layers, layer.held laws = c) (payload : Payload) (pos : UInt32) :
    ∃ done, (s.run payload pos).state.model.layers =
        done ++ s.model.layers.drop (s.stored payload pos) ∧
      done.length = s.stored payload pos ∧
      ∀ layer ∈ done, layer.held laws = grown pos.toNat payload.positions c := by
  obtain ⟨done, hstate, hgrown⟩ := run_grown laws hembeds payload pos
  refine ⟨done, hstate, ?_, fun layer hmem => ?_⟩
  · rw [hgrown.length_eq, List.length_take, Nat.min_eq_left (s.stored_le payload pos)]
  · obtain ⟨before, hbefore, hlayer⟩ := forall₂_exists hgrown hmem
    rw [hlayer, heven before (List.mem_of_mem_take hbefore)]

/-- A run that returns gets through all layers. -/
theorem run_stored {pos : UInt32} (h : (s.run payload pos).result = .ok y) :
    s.stored payload pos = s.model.layers.length := by
  obtain ⟨r⟩ := run_eq_ok.1 h
  rw [stored_of_masked r.input r.enter r.masked]
  exact stored_of_ok r.layers

/-- After a run that returns every layer is one from before, grown. -/
theorem run_ok_held (laws : C.Positions) (hembeds : s.Embeds) {pos : UInt32}
    (h : (s.run payload pos).result = .ok y) {layer : Layer C}
    (hmem : layer ∈ (s.run payload pos).state.model.layers) :
    ∃ before ∈ s.model.layers,
      layer.held laws = grown pos.toNat payload.positions (before.held laws) := by
  obtain ⟨done, hlayers, hgrown⟩ := run_grown laws hembeds payload pos
  rw [run_stored h, List.drop_length, List.append_nil] at hlayers
  rw [hlayers] at hmem
  obtain ⟨before, hbefore, hheld⟩ := forall₂_exists hgrown hmem
  exact ⟨before, List.mem_of_mem_take hbefore, hheld⟩

/-! ### Calls -/

theorem ready_sameWeights (s : CandleShard C) (f : Feed) : s.SameWeights (s.ready f) := by
  unfold ready
  split_ifs
  · exact s.cleared_sameWeights _
  · exact (Agrees.refl s).sameWeights

theorem feed_sameWeights (s : CandleShard C) (f : Feed) : s.SameWeights (s.feed f).state := by
  unfold feed
  split_ifs
  · exact s.prefill_sameWeights f.session f.pos f.input
  · exact s.decode_sameWeights f.session f.pos f.input

/-- **Calls change nothing but masks, caches and sessions.** -/
theorem after_sameWeights (s : CandleShard C) (call : ShardCall) : s.SameWeights (s.after call) := by
  cases call with
  | feed f => exact s.feed_sameWeights f
  | drop session => exact s.dropSession_sameWeights session

/-- They hold the same range of the same model, with the same embedding and head. -/
theorem SameWeights.ends {s t : CandleShard C} (h : s.SameWeights t) :
    t.spec = s.spec ∧ t.facts = s.facts ∧ t.model.tokEmbeddings = s.model.tokEmbeddings ∧
      t.model.head = s.model.head := by
  obtain ⟨model, ⟨masks, rfl⟩, ht⟩ := h
  have hspec : (t.cleared none).spec = s.spec := by
    rw [ht]
    rfl
  have hfacts : (t.cleared none).facts = s.facts := by
    rw [ht]
    rfl
  have htok : (t.cleared none).model.tokEmbeddings = s.model.tokEmbeddings := by
    rw [ht]
    rfl
  have hhead : (t.cleared none).model.head = s.model.head := by
    rw [ht]
    rfl
  exact ⟨hspec, hfacts, htok, hhead⟩

theorem SameWeights.embeds {s t : CandleShard C} (h : s.SameWeights t) (hs : s.Embeds) :
    t.Embeds := by
  obtain ⟨hspec, -, htok, -⟩ := h.ends
  unfold Embeds ownsEmbedding at hs ⊢
  rw [htok, hspec]
  exact hs

theorem SameWeights.length {s t : CandleShard C} (h : s.SameWeights t) :
    t.model.layers.length = s.model.layers.length := by
  obtain ⟨model, ⟨masks, rfl⟩, ht⟩ := h
  have hlayers : (t.cleared none).model.layers = (s.cleared none).model.layers := by rw [ht]
  have := congrArg List.length hlayers
  change (t.model.layers.map Layer.cleared).length = (s.model.layers.map Layer.cleared).length at this
  rwa [List.length_map, List.length_map] at this

theorem cleared_held (laws : C.Positions) (s : CandleShard C) (session : Option UInt64)
    (layer : Layer C) (h : layer ∈ (s.cleared session).model.layers) : layer.held laws = 0 := by
  obtain ⟨layer', -, rfl⟩ := List.mem_map.1 h
  rfl

/-- The caches of a shard that was opened are empty. -/
theorem openFile_cleared {file : C.File} {spec : ShardSpec} (h : openFile file spec = .ok s) :
    s.model.layers.map Layer.cleared = s.model.layers := by
  obtain ⟨content, blockCount, ends, hopened⟩ := openFile_inv h
  have hlayers := hopened.layers
  generalize List.range' spec.firstLayer.toNat _ = is at hlayers
  generalize s.model.layers = layers at hlayers
  induction is generalizing layers with
  | nil =>
    cases hlayers
    rfl
  | cons i rest ih =>
    rw [readLayers] at hlayers
    obtain ⟨weights, -, hlayers⟩ := Outcome.andThen_eq_ok.1 hlayers
    split_ifs at hlayers
    obtain ⟨tail, htail, hlayers⟩ := Outcome.andThen_eq_ok.1 hlayers
    cases hlayers
    rw [List.map_cons, ih tail htail]
    rfl

theorem openFile_held (laws : C.Positions) {file : C.File} {spec : ShardSpec}
    (h : openFile file spec = .ok s) (layer : Layer C) (hmem : layer ∈ s.model.layers) :
    layer.held laws = 0 := by
  rw [← openFile_cleared h] at hmem
  exact s.cleared_held laws none layer hmem

end CandleShard

end Engine

end Latticed
