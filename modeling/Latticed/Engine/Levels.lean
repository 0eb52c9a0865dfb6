import Latticed.Engine.Underflow

/-!
# How deep the caches are

A shard that answers hands on as many positions as it was handed, and its caches grow by just these.
So the caches of a chain of shards stay equally deep from one end to the other.

* `CandleShard.run_positions` : a run that returns hands on the positions it was handed, and these are
  within the tables of the rotary embedding.
* `CandleShard.Level.feed` : a call keeps the caches of a shard equally deep.
* `CandleShard.Level.chain` : a call to a chain of shards keeps the caches of all of them equally deep.
-/

namespace Latticed

namespace Engine

open Rust

variable {C : Candle}

namespace CandleShard

variable {s : CandleShard C} {payload y : Payload} {pos : UInt32} {f : Feed} {k : ℕ}

/-- The activation that is sent has the positions of the hidden states. -/
theorem fromTensor_positions {out : C.Tensor} {dtype : WireDtype} {activation : Activation}
    {b n hidden : ℕ} (hdims : C.dims3 out = .ok (b, n, hidden)) (hn : n < 2 ^ 32)
    (h : fromTensor out dtype = .ok activation) : activation.nTokens.toNat = n := by
  obtain ⟨⟨b', n', hidden'⟩, hshape, h⟩ := bind_eq_ok.1 h
  rw [hdims] at hshape
  cases hshape
  have hnew (data : List UInt8) (h : Activation.new (UInt32.ofNat n) (UInt32.ofNat hidden) dtype data =
      .ok activation) : activation.nTokens.toNat = n := by
    unfold Activation.new at h
    dsimp only at h
    split_ifs at h
    cases h
    exact UInt32.toNat_ofNat_of_lt' hn
  cases dtype with
  | f16 =>
    obtain ⟨data, -, h⟩ := bind_eq_ok.1 h
    exact hnew data h
  | f32 =>
    obtain ⟨data, -, h⟩ := bind_eq_ok.1 h
    exact hnew data h

/-- **A run that returns hands on the positions it was handed.** -/
theorem run_positions (bounds : C.Boundary) (hwhole : s.Whole) (hne : s.model.layers ≠ [])
    (h : (s.run payload pos).result = .ok y) :
    pos.toNat + payload.positions ≤ MAX_SEQ_LEN ∧
      ∀ activation, y = .hidden activation → y.positions = payload.positions := by
  obtain ⟨r⟩ := run_eq_ok.1 h
  obtain ⟨-, hidden, hdims⟩ := enter_positions bounds.toShapes hwhole.embeds r.input r.enter
  have hbound : pos.toNat + payload.positions ≤ MAX_SEQ_LEN := by
    -- the first layer narrows its tables to these positions
    obtain ⟨layer, rest, hlayers⟩ := List.exists_cons_of_ne_nil hne
    have hrun := r.layers
    rw [hlayers] at hrun
    obtain ⟨z, hlayer, -⟩ := relay_cons_ok.1 hrun
    obtain ⟨q, new, kv, hproject, -, -⟩ := Layer.forward_eq_ok hlayer
    exact bounds.narrow _ _ _ _ _ hproject hdims
  refine ⟨hbound, ?_⟩
  rintro activation rfl
  have hmax : MAX_SEQ_LEN < 2 ^ 32 := by decide
  have houtput := r.output
  unfold output at houtput
  split_ifs at houtput with hown
  · obtain ⟨values, -, heq⟩ := map_eq_ok.1 houtput
    cases heq
  · obtain ⟨activation', hfrom, heq⟩ := map_eq_ok.1 houtput
    cases heq
    have hhead : s.model.head = none := by
      have hheads : s.model.head.isSome = s.ownsHead := hwhole.heads
      rw [Bool.eq_false_iff.2 hown] at hheads
      exact Option.isNone_iff_eq_none.1 (Option.isSome_eq_false_iff.1 hheads)
    have hfinish := r.finish
    unfold ShardModel.finish at hfinish
    rw [hhead] at hfinish
    rw [← Except.ok.inj hfinish] at hfrom
    exact fromTensor_positions ((bounds.toShapes.relay r.layers).trans hdims) (by omega) hfrom

/-- Every layer holds `k` positions. -/
structure Level (laws : C.Positions) (k : ℕ) (s : CandleShard C) : Prop where
  whole : s.Whole
  nonempty : s.model.layers ≠ []
  held : ∀ layer ∈ s.model.layers, layer.held laws = k

variable {laws : C.Positions}

/-- A shard that was opened for some layers holds nothing. -/
theorem openFile_level (laws : C.Positions) {file : C.File} {spec : ShardSpec}
    (h : openFile file spec = .ok s) (hlt : spec.firstLayer < spec.lastLayer) : s.Level laws 0 := by
  refine ⟨openFile_whole h, fun hnil => ?_, openFile_held laws h⟩
  have hindices := (openFile_eq_ok h).2.2.2
  unfold ShardModel.indices at hindices
  have hlt' := UInt32.lt_iff_toNat_lt.1 hlt
  rw [hnil, List.map_nil] at hindices
  have hlen := congrArg List.length hindices
  rw [List.length_range', List.length_nil] at hlen
  omega

/-- **A call that returns keeps the caches equally deep.**  A prompt starts at position 0. -/
theorem Level.feed (bounds : C.Boundary) (h : s.Level laws k) (hpos : f.isPrefill = true → f.pos = 0)
    (hok : (s.feed f).result = .ok y) :
    (s.feed f).state.Level laws (grown f.pos.toNat f.input.positions k) ∧
      (s.feed f).state.active = some f.session ∧
      f.pos.toNat + f.input.positions ≤ MAX_SEQ_LEN ∧
      ∀ activation, y = .hidden activation → y.positions = f.input.positions := by
  have hadmits := admits_of_ok hok
  have hwhole : (s.ready f).Whole := (s.ready_sameWeights f).whole h.whole
  have hlen := (s.ready_sameWeights f).length
  have hne : (s.ready f).model.layers ≠ [] := by
    intro hnil
    rw [hnil, List.length_nil] at hlen
    exact h.nonempty (List.length_eq_zero_iff.1 hlen.symm)
  have hgrown : ∀ layer ∈ (s.ready f).model.layers,
      grown f.pos.toNat f.input.positions (layer.held laws) =
        grown f.pos.toNat f.input.positions k := by
    intro layer hlayer
    by_cases hkind : f.isPrefill = true
    · rw [hpos hkind]
      rfl
    · rw [ready_of_decode hkind] at hlayer
      rw [h.held layer hlayer]
  have hweights := (s.feed_sameWeights f)
  rw [feed_eq hadmits] at hok
  obtain ⟨hbound, hhidden⟩ := run_positions bounds hwhole hne hok
  refine ⟨⟨hweights.whole h.whole, fun hnil => ?_, fun layer hlayer => ?_⟩, feed_active hadmits,
    hbound, hhidden⟩
  · have hlen' := hweights.length
    rw [hnil, List.length_nil] at hlen'
    exact h.nonempty (List.length_eq_zero_iff.1 hlen'.symm)
  · rw [feed_eq hadmits] at hlayer
    obtain ⟨before, hbefore, hheld⟩ := run_ok_held laws hwhole.embeds hok hlayer
    rw [hheld, hgrown before hbefore]

/-- **A call that gets through a chain keeps the caches of all shards equally deep.** -/
theorem Level.chain (bounds : C.Boundary) {parts : List (CandleShard C)}
    (h : ∀ s ∈ parts, s.Level laws k) (hpos : f.isPrefill = true → f.pos = 0)
    (hok : (callChain parts f).1 = some y) :
    (∀ s ∈ (callChain parts f).2, s.Level laws (grown f.pos.toNat f.input.positions k) ∧
      s.active = some f.session) ∧
      (parts ≠ [] → f.pos.toNat + f.input.positions ≤ MAX_SEQ_LEN) := by
  have hok' : (relay (stepIn f) parts () f.input).result = .ok y := toOption_eq_some.1 hok
  change (∀ s ∈ (relay (stepIn f) parts () f.input).state.1, _) ∧ _
  generalize hn : f.input.positions = n
  generalize f.input = x at hn hok'
  clear hok
  induction parts generalizing x with
  | nil => exact ⟨fun s hs => (by cases hs), fun hne => absurd rfl hne⟩
  | cons s rest ih =>
    obtain ⟨z, hz, hrest⟩ := relay_cons_ok.1 hok'
    obtain ⟨hlevel, hactive, hbound, hhidden⟩ :=
      (h s List.mem_cons_self).feed (f := { f with input := x }) bounds hpos hz
    have hposn : grown f.pos.toNat x.positions k = grown f.pos.toNat n k := by rw [hn]
    refine ⟨fun t ht => ?_, fun _ => hn ▸ hbound⟩
    rw [relay_cons_state hz] at ht
    rcases List.mem_cons.1 ht with rfl | ht
    · exact ⟨hposn ▸ hlevel, hactive⟩
    · -- only hidden states are taken by the shards after the first
      cases rest with
      | nil => cases ht
      | cons t' rest =>
        have hleaves := (feed_runs s { f with input := x }).leaves z hz
        obtain ⟨w, hw, -⟩ := relay_cons_ok.1 hrest
        have henters := (feed_runs t' { f with input := z }).enters w hw
        have hz' : z.positions = n := by
          cases z with
          | tokens ids => exact hleaves.elim
          | hidden activation => exact (hhidden activation rfl).trans hn
          | logits values => exact henters.elim
        exact (ih (fun s hs => h s (List.mem_cons_of_mem _ hs)) z hz' hrest).1 t ht

end CandleShard

end Engine

end Latticed
