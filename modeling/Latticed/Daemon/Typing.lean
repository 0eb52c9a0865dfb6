import Latticed.Daemon.Generate
import Latticed.Engine.Samples

/-!
# What a chain of shards is handed

A shard takes tokens if it owns the embedding and hidden states otherwise, and refuses the rest with
`WrongPayload`.  In a chain that tiles the model only the first shard owns the embedding and only the
last one the output head, so what a shard yields is what the next one takes.

* `CandleShard.takes_iff` : what a shard does not refuse.
* `tiles_iff` : the placements that tile a model are its layers, cut into ranges.
* `tilings_are_typed` : `check_tiling` accepts the tilings, and no stage of a tiling is ever handed a
  payload it refuses.
-/

namespace Latticed

namespace Engine

open Rust

variable {C : Candle}

/-! ### What a shard takes -/

theorem Payload.EntersAt.tokens_iff {payload : Payload} {firstLayer : UInt32}
    (h : payload.EntersAt firstLayer) : (∃ ids, payload = .tokens ids) ↔ firstLayer = 0 := by
  cases payload with
  | tokens ids => exact iff_of_true ⟨ids, rfl⟩ h
  | hidden activation => exact iff_of_false (by simp) h
  | logits values => exact h.elim

theorem Payload.EntersAt.hidden_iff {payload : Payload} {firstLayer : UInt32}
    (h : payload.EntersAt firstLayer) :
    (∃ activation, payload = .hidden activation) ↔ firstLayer ≠ 0 := by
  cases payload with
  | tokens ids => exact iff_of_false (by simp) (not_not.2 h)
  | hidden activation => exact iff_of_true ⟨activation, rfl⟩ h
  | logits values => exact h.elim

theorem Payload.LeavesAt.logits_iff {payload : Payload} {lastLayer layers : UInt32}
    (h : payload.LeavesAt lastLayer layers) :
    (∃ values, payload = .logits values) ↔ lastLayer = layers := by
  cases payload with
  | tokens ids => exact h.elim
  | hidden activation => exact iff_of_false (by simp) h
  | logits values => exact iff_of_true ⟨values, rfl⟩ h

/-- The result is not `WrongPayload`. -/
def Typed {α : Type} (result : Except EngineError α) : Prop :=
  ∀ held got, result ≠ .error (.wrongPayload held got)

theorem Typed.engine {α : Type} (result : Except String α) :
    Typed (result.mapError EngineError.engine) := by
  intro held got h
  cases result <;> cases h

theorem Typed.bind {α β : Type} {result : Except EngineError α} {f : α → Except EngineError β}
    (h : Typed result) (hf : ∀ a, Typed (f a)) : Typed (result >>= f) := by
  intro held got heq
  cases result with
  | error e => exact h held got (by cases heq; rfl)
  | ok a => exact hf a held got heq

theorem Typed.map {α β : Type} {result : Except EngineError α} (h : Typed result) (f : α → β) :
    Typed (result.map f) := by
  intro held got heq
  cases result with
  | error e => exact h held got (by cases heq; rfl)
  | ok a => cases heq

theorem Typed.activation (nTokens hiddenDim : UInt32) (dtype : WireDtype) (data : List UInt8) :
    Typed (Activation.new nTokens hiddenDim dtype data) := by
  intro held got h
  unfold Activation.new at h
  dsimp only at h
  split_ifs at h
  cases h

theorem Typed.fromTensor (out : C.Tensor) (dtype : WireDtype) : Typed (fromTensor out dtype) := by
  refine .bind (.engine _) fun shape => ?_
  cases dtype with
  | f16 => exact .bind (.map (.engine _) _) fun data => .activation _ _ _ _
  | f32 => exact .bind (.map (.engine _) _) fun data => .activation _ _ _ _

namespace CandleShard

theorem output_typed (s : CandleShard C) (out : C.Tensor) : Typed (s.output out) := by
  unfold output
  split_ifs
  · exact .map (.engine _) _
  · exact .map (.fromTensor out _) _

/-- The first half of a run refuses what does not enter where the shard starts, and nothing else. -/
theorem input_typed_iff {s : CandleShard C} {payload : Payload} :
    Typed (s.input payload) ↔ payload.EntersAt s.spec.firstLayer := by
  unfold input
  cases hown : s.ownsEmbedding with
  | true =>
    have hfirst := ownsEmbedding_iff.1 hown
    cases payload with
    | tokens ids => exact ⟨fun _ => hfirst, fun _ => .engine _⟩
    | hidden activation => exact ⟨fun h => absurd rfl (h _ _), fun h => absurd hfirst h⟩
    | logits values => exact ⟨fun h => absurd rfl (h _ _), fun h => h.elim⟩
  | false =>
    have hfirst : s.spec.firstLayer ≠ 0 := by
      intro hzero
      rw [ownsEmbedding_iff.2 hzero] at hown
      cases hown
    cases payload with
    | tokens ids => exact ⟨fun h => absurd rfl (h _ _), fun h => absurd h hfirst⟩
    | hidden activation => exact ⟨fun _ => hfirst, fun _ => .engine _⟩
    | logits values => exact ⟨fun h => absurd rfl (h _ _), fun h => h.elim⟩

theorem run_typed_iff {s : CandleShard C} {payload : Payload} {pos : UInt32} :
    Typed (s.run payload pos).result ↔ payload.EntersAt s.spec.firstLayer := by
  rw [← input_typed_iff]
  unfold run
  cases s.input payload with
  | error e =>
    constructor
    · intro h held got heq
      exact h held got (by cases heq; rfl)
    · intro h held got heq
      exact h held got (by cases heq; rfl)
  | ok x =>
    constructor
    · intro _ held got heq
      cases heq
    · intro _
      exact .bind (.engine _) s.output_typed

/-- The shard does not refuse the payload, wherever it is to run. -/
def Takes (s : CandleShard C) (payload : Payload) : Prop := ∀ pos, Typed (s.run payload pos).result

theorem takes_iff {s : CandleShard C} {payload : Payload} :
    s.Takes payload ↔ payload.EntersAt s.spec.firstLayer := by
  constructor
  · intro h
    exact run_typed_iff.1 (h 0)
  · intro h pos
    exact run_typed_iff.2 h

/-- A call never refuses a payload that enters where the shard starts. -/
theorem feed_typed {s : CandleShard C} {f : Feed} (h : f.input.EntersAt s.spec.firstLayer) :
    Typed (s.feed f).result := by
  by_cases hadmits : s.Admits f
  · rw [feed_eq hadmits, run_typed_iff, ready_spec]
    exact h
  · rw [feed_refused hadmits]
    intro held got heq
    cases heq

theorem feed_leaves {s : CandleShard C} {f : Feed} {y : Payload} (h : (s.feed f).result = .ok y) :
    y.LeavesAt s.spec.lastLayer s.facts.layers := by
  obtain ⟨isPrefill, session, pos, input⟩ := f
  cases isPrefill with
  | true => exact (s.prefill_spec session pos input).leaves y h
  | false => exact (s.decode_spec session pos input).leaves y h

end CandleShard

end Engine

namespace Daemon

open Engine Net Rust

variable {C : Candle} {layers a : UInt32} {places : List Placement} {p : Placement}

/-! ### Tilings -/

theorem tiles_of_flatMap_range (hranges : ∀ p ∈ places, p.firstLayer < p.lastLayer)
    (ha : a.toNat ≤ layers.toNat)
    (h : places.flatMap Placement.range = List.range' a.toNat (layers.toNat - a.toNat)) :
    Tiles layers a places := by
  induction places generalizing a with
  | nil =>
    have hlen := congrArg List.length h
    rw [List.flatMap_nil, List.length_nil, List.length_range'] at hlen
    exact UInt32.toNat.inj (by omega)
  | cons p rest ih =>
    have hlt := hranges p List.mem_cons_self
    have hlt' := UInt32.lt_iff_toNat_lt.1 hlt
    rw [List.flatMap_cons, Placement.range] at h
    have hlen := congrArg List.length h
    rw [List.length_append, List.length_range', List.length_range'] at hlen
    -- a range that is not empty starts where the layers that are left start
    obtain ⟨n, hn⟩ := Nat.exists_eq_succ_of_ne_zero
      (show p.lastLayer.toNat - p.firstLayer.toNat ≠ 0 by omega)
    obtain ⟨m, hm⟩ := Nat.exists_eq_succ_of_ne_zero (show layers.toNat - a.toNat ≠ 0 by omega)
    have hfirst : p.firstLayer.toNat = a.toNat := by
      have hhead := congrArg List.head? h
      rw [hn, hm, List.range'_succ, List.range'_succ] at hhead
      exact Option.some.inj hhead
    obtain rfl := UInt32.toNat.inj hfirst
    refine ⟨rfl, hlt, ih (fun q hq => hranges q (List.mem_cons_of_mem _ hq)) (by omega) ?_⟩
    have hsplit : layers.toNat - p.firstLayer.toNat = (p.lastLayer.toNat - p.firstLayer.toNat) +
        (layers.toNat - p.lastLayer.toNat) := by omega
    rw [hsplit, ← List.range'_append_1, List.append_cancel_left_eq] at h
    rwa [show p.firstLayer.toNat + (p.lastLayer.toNat - p.firstLayer.toNat) = p.lastLayer.toNat by
      omega] at h

/-- **What tiles a model** is its layers, cut into ranges none of which is empty. -/
theorem tiles_iff : Tiles layers 0 places ↔ (∀ p ∈ places, p.firstLayer < p.lastLayer) ∧
    places.flatMap Placement.range = List.range layers.toNat := by
  rw [List.range_eq_range']
  constructor
  · intro h
    exact ⟨fun p hp => UInt32.lt_iff_toNat_lt.2 (h.mem hp).2.1, h.flatMap_range⟩
  · rintro ⟨hranges, h⟩
    exact tiles_of_flatMap_range hranges (Nat.zero_le _) h

/-- Only the first place of a tiling starts where the tiling starts. -/
theorem Tiles.firstLayer_iff (h : Tiles layers a places) {i : ℕ} (hp : places[i]? = some p) :
    p.firstLayer = a ↔ i = 0 := by
  cases places with
  | nil => cases hp
  | cons q rest =>
    obtain ⟨rfl, hlt, hrest⟩ := h
    have hlt' := UInt32.lt_iff_toNat_lt.1 hlt
    cases i with
    | zero =>
      obtain rfl := Option.some.inj hp
      exact iff_of_true rfl rfl
    | succ i =>
      have hmem := (hrest.mem (List.mem_of_getElem? hp)).1
      refine iff_of_false (fun heq => ?_) (Nat.succ_ne_zero i)
      rw [heq] at hmem
      omega

/-- Only the last place of a tiling ends at the last layer. -/
theorem Tiles.lastLayer_iff (h : Tiles layers a places) {i : ℕ} (hp : places[i]? = some p) :
    p.lastLayer = layers ↔ i + 1 = places.length := by
  induction places generalizing a i with
  | nil => cases hp
  | cons q rest ih =>
    obtain ⟨rfl, hlt, hrest⟩ := h
    cases i with
    | zero =>
      obtain rfl := Option.some.inj hp
      cases rest with
      | nil => exact iff_of_true hrest rfl
      | cons r rest =>
        have hr := hrest.mem List.mem_cons_self
        refine iff_of_false (fun heq => ?_) (by simp)
        rw [heq] at hr
        omega
    | succ i =>
      rw [ih hrest hp]
      simp

/-- What leaves a place of a tiling enters the next one. -/
theorem Tiles.isChain (h : Tiles layers a places) :
    places.IsChain fun p q => ∀ y : Payload, y.LeavesAt p.lastLayer layers →
      y.EntersAt q.firstLayer := by
  induction places generalizing a with
  | nil => exact .nil
  | cons p rest ih =>
    obtain ⟨rfl, hlt, hrest⟩ := h
    refine List.isChain_cons.2 ⟨fun q hq y hy => ?_, ih hrest⟩
    cases rest with
    | nil => cases hq
    | cons r rest =>
      obtain rfl := Option.some.inj hq
      obtain ⟨hfirst, hlt'', hle⟩ := hrest.mem List.mem_cons_self
      have hlt' := UInt32.lt_iff_toNat_lt.1 hlt
      cases y with
      | tokens ids => exact hy.elim
      | hidden activation =>
        intro hzero
        rw [hzero] at hfirst
        exact Nat.not_lt_zero _ (hlt'.trans_le hfirst)
      | logits values =>
        have hlast : p.lastLayer = layers := hy
        rw [hlast] at hfirst
        omega

/-! ### Passes -/

/-- The shard a stage runs on. -/
def Stage.shard (peers : Peers C) : Stage C → Option (CandleShard C)
  | .here _ shard => some shard
  | .peer id _ => (peers id).bind (·.shard.held)

/-- The session a stage runs in. -/
def Stage.session : Stage C → UInt64
  | .here _ _ => SESSION
  | .peer _ remote => remote.header.session

/-- What a stage answers is what its shard answers, under another text where it fails. -/
theorem Stage.Serves.shard {stage : Stage C} {peers : Peers C} (h : stage.Serves layers p peers) :
    ∃ shard, stage.shard peers = some shard ∧ Covers layers p shard ∧
      ∀ pos isPrefill input, ∃ text, (stage.run pos isPrefill peers input).result =
        (shard.feed ⟨isPrefill, stage.session, pos, input⟩).result.mapError text := by
  cases stage with
  | here spec shard =>
    refine ⟨shard, rfl, h, fun pos isPrefill input => ⟨C.display, ?_⟩⟩
    cases isPrefill <;> rfl
  | peer id remote =>
    obtain ⟨⟨model, thread⟩, hnode, shard, hshard, hcovers⟩ := h
    obtain rfl : thread = ⟨true, some shard⟩ := hshard
    refine ⟨shard, ?_, hcovers, fun pos isPrefill input =>
      ⟨fun _ => "shard on " ++ id.display, ?_⟩⟩
    · simp [Stage.shard, hnode]
    · simp only [Stage.run, hnode]
      cases isPrefill with
      | true => exact mapError_mapError _ _ _
      | false => exact mapError_mapError _ _ _

/-- The call a stage makes in the `i`-th of `n` places. -/
structure StageTyped (n i : ℕ) (shard : CandleShard C) (f : Feed) : Prop where
  tokens : (∃ ids, f.input = .tokens ids) ↔ i = 0
  hidden : (∃ activation, f.input = .hidden activation) ↔ i ≠ 0
  logits : ∀ y, (shard.feed f).result = .ok y → ((∃ values, y = .logits values) ↔ i + 1 = n)
  typed : ∀ held got, (shard.feed f).result ≠ .error (.wrongPayload held got)

theorem Tiles.stageTyped (h : Tiles layers 0 places) {i : ℕ} (hp : places[i]? = some p)
    {shard : CandleShard C} (hcovers : Covers layers p shard) {f : Feed}
    (hinput : f.input.EntersAt p.firstLayer) : StageTyped places.length i shard f := by
  have hfirst := h.firstLayer_iff hp
  have hlast := h.lastLayer_iff hp
  refine ⟨?_, ?_, fun y hy => ?_, CandleShard.feed_typed (hcovers.first ▸ hinput)⟩
  · exact hinput.tokens_iff.trans hfirst
  · exact hinput.hidden_iff.trans hfirst.not
  · have hleaves := CandleShard.feed_leaves hy
    rw [hcovers.last, hcovers.facts] at hleaves
    exact hleaves.logits_iff.trans hlast

/-- Every stage of a run is still the one placed there, handed what enters at its first layer. -/
theorem Tiles.handed_serves (h : Tiles layers 0 places) {pipeline : Pipeline C} {peers : Peers C}
    (hserves : pipeline.Serves layers places peers) {pos : UInt32} {isPrefill : Bool}
    {ids : List UInt32} {i : ℕ} {stage : Stage C} {now : Peers C} {input : Payload}
    (hi : (handed (Stage.run pos isPrefill) pipeline.stages peers (.tokens ids))[i]? =
      some (stage, now, input)) :
    ∃ p, places[i]? = some p ∧ Stage.Serves layers p stage now ∧
      Payload.EntersAt p.firstLayer input := by
  have hstep (p : Placement) (s : Stage C) (w : Peers C) (x : Payload)
      (hs : s.Serves layers p w) := s.run_spec hs pos isPrefill x
  have hstart : ∀ p, places.head? = some p → (Payload.tokens ids).EntersAt p.firstLayer := by
    intro p hp
    rw [List.head?_eq_getElem?] at hp
    exact (h.firstLayer_iff hp).2 rfl
  exact handed_takes (fun p s w x y hs _ hy => (hstep p s w x hs).leaves y hy)
    (fun p s w x hs => (hstep p s w x hs).frame) h.isChain hserves hstart hi

/-- **`check_tiling` accepts the tilings, and tilings are typed**: only the first stage takes tokens, only
the last one returns logits, and none is ever handed what it refuses. -/
theorem tilings_are_typed (places : List Placement) (layers : UInt32) :
    (checkTiling places layers = .ok () ↔ (∀ p ∈ places, p.firstLayer < p.lastLayer) ∧
      places.flatMap Placement.range = List.range layers.toNat) ∧
    (checkTiling places layers = .ok () → ∀ (C : Candle) (pipeline : Pipeline C) (peers : Peers C),
      pipeline.Serves layers places peers →
      (∀ i stage, pipeline.stages[i]? = some stage → ∃ shard, stage.shard peers = some shard ∧
        (∀ ids, shard.Takes (.tokens ids) ↔ i = 0) ∧
        ∀ activation, shard.Takes (.hidden activation) ↔ i ≠ 0) ∧
      ∀ pos isPrefill ids,
        (∀ i stage now input, (handed (Stage.run pos isPrefill) pipeline.stages peers
            (.tokens ids))[i]? = some (stage, now, input) →
          ∃ shard, stage.shard now = some shard ∧
            StageTyped places.length i shard ⟨isPrefill, stage.session, pos, input⟩) ∧
        (1 ≤ layers → ∀ y, (pipeline.run pos isPrefill peers (.tokens ids)).result = .ok y →
          ∃ values, y = .logits values)) := by
  refine ⟨checkTiling_eq_ok.trans tiles_iff, fun haccepted C pipeline peers hserves => ?_⟩
  have htiles := checkTiling_eq_ok.1 haccepted
  refine ⟨fun i stage hstage => ?_, fun pos isPrefill ids => ?_⟩
  · obtain ⟨p, hp, hfit⟩ := forall₂_getElem? hserves hstage
    obtain ⟨shard, hshard, hcovers, -⟩ := hfit.shard
    have hfirst := htiles.firstLayer_iff hp
    refine ⟨shard, hshard, fun ids => ?_, fun activation => ?_⟩
    · rw [CandleShard.takes_iff, hcovers.first]
      exact hfirst
    · rw [CandleShard.takes_iff, hcovers.first]
      exact hfirst.not
  · refine ⟨fun i stage now input hi => ?_, fun hlayers y hy => ?_⟩
    · obtain ⟨p, hp, hfit, hinput⟩ := htiles.handed_serves hserves hi
      obtain ⟨shard, hshard, hcovers, -⟩ := hfit.shard
      exact ⟨shard, hshard, htiles.stageTyped hp hcovers hinput⟩
    · have hne : pipeline.stages ≠ [] := by
        intro hnil
        have hlen := hserves.length_eq
        rw [hnil, List.length_nil, List.length_eq_zero_iff] at hlen
        subst hlen
        obtain rfl : 0 = layers := htiles
        exact absurd hlayers (by decide)
      obtain ⟨i, stage, now, input, hlast, hi, hy⟩ := relay_handed hne hy
      obtain ⟨p, hp, hfit, hinput⟩ := htiles.handed_serves hserves hi
      obtain ⟨shard, -, hcovers, hrun⟩ := hfit.shard
      obtain ⟨text, hrun⟩ := hrun pos isPrefill input
      rw [hrun] at hy
      exact ((htiles.stageTyped hp hcovers hinput).logits y (mapError_eq_ok.1 hy)).2
        (hlast.trans hserves.length_eq.symm)

/-- No connections. -/
def noPeers : Peers C := ⟨fun _ => none, fun _ => ⟨none, .spawn⟩, ⟨"", .length ""⟩⟩

/-- Two layers on this device, one to a shard: the second shard is handed hidden states. -/
theorem tilings_are_typed_halves : ∃ (pipeline : Pipeline (tally 2)) (activation : Activation),
    @Pipeline.openWith (tally 2) ⟨reprStr⟩ () (blankFacts 2)
      ⟨2048, [⟨0, 1, .here⟩, ⟨1, 2, .here⟩], .f32⟩ noPeers = (.ok pipeline, noPeers) ∧
    ((handed (Stage.run 0 true) pipeline.stages noPeers (.tokens [7]))[1]?).map (·.2.2) =
      some (.hidden activation) := by
  let places : List Placement := [⟨0, 1, .here⟩, ⟨1, 2, .here⟩]
  obtain ⟨pipeline, hopen, hserves, s, w, x, hreached⟩ : ∃ pipeline : Pipeline (tally 2),
      @Pipeline.openWith (tally 2) ⟨reprStr⟩ () (blankFacts 2) ⟨2048, places, .f32⟩ noPeers =
        (.ok pipeline, noPeers) ∧ pipeline.Serves 2 places noPeers ∧
      ∃ s w x, (handed (Stage.run 0 true) pipeline.stages noPeers (.tokens [7]))[1]? =
        some (s, w, x) :=
    ⟨_, rfl, .cons ⟨rfl, rfl, rfl, rfl⟩ (.cons ⟨rfl, rfl, rfl, rfl⟩ .nil), _, _, _, rfl⟩
  have hstages := ((tilings_are_typed places 2).2 (by decide) (tally 2) pipeline _ hserves).2 0
    true [7]
  obtain ⟨shard, -, htyped⟩ := hstages.1 1 s w x hreached
  obtain ⟨activation, rfl⟩ := htyped.hidden.2 one_ne_zero
  exact ⟨pipeline, activation, hopen, by rw [hreached]; rfl⟩

end Daemon

end Latticed
