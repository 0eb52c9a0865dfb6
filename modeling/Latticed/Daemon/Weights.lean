import Latticed.Daemon.Generate
import Latticed.Engine.Weights

/-!
# What the shards of a model weigh together

* `Tiles.sum_shardBytes` : ranges that follow one another weigh what the range they make up weighs.
* `weights_agree` : the shards report what the planner has charged, and a placement that is accepted weighs
  what the whole model weighs.
* `weights_wrap` : but not for the whole of a model whose embedding is tied and does not fit twice.
-/

namespace Latticed

namespace Daemon

open Engine

variable {content : Content} {inv : ModelInventory} {places : List Placement} {p : Placement}
  {a b : UInt32}

/-- Two ranges that meet before the last layer. -/
theorem shardBytes_add (h : inv.Conserves content) (hab : a < b) (hb : b < inv.facts.layers) :
    shardBytes content inv a b + shardBytes content inv b inv.facts.layers =
      shardBytes content inv a inv.facts.layers := by
  have hab' := UInt32.lt_iff_toNat_lt.1 hab
  have hb' := UInt32.lt_iff_toNat_lt.1 hb
  have hlen := h.length
  have hbzero : b ≠ 0 := by
    rintro rfl
    exact Nat.not_lt_zero _ hab'
  have hblast : b ≠ inv.facts.layers := by
    rintro rfl
    exact lt_irrefl _ hb'
  have hrange := Finset.sum_Ico_consecutive (fun i => charged content.tensorInfos (some i)) hab'.le
    hb'.le
  rw [← rangeBytes_eq h (by omega), ← rangeBytes_eq h (by omega), ← rangeBytes_eq h (by omega)]
    at hrange
  simp only [shardBytes, if_neg hbzero, if_neg hblast, if_true]
  omega

/-- **A tiling weighs what it covers.** -/
theorem Tiles.sum_shardBytes (hconserves : inv.Conserves content)
    (h : Tiles inv.facts.layers a (p :: places)) :
    ((p :: places).map fun p => shardBytes content inv p.firstLayer p.lastLayer).sum =
      shardBytes content inv a inv.facts.layers := by
  induction places generalizing a p with
  | nil =>
    obtain ⟨rfl, -, hlast⟩ := h
    have hlast : p.lastLayer = inv.facts.layers := hlast
    simp [hlast]
  | cons q rest ih =>
    obtain ⟨rfl, hlt, hrest⟩ := h
    have hq := hrest.mem List.mem_cons_self
    have hbefore : p.lastLayer < inv.facts.layers := UInt32.lt_iff_toNat_lt.2 (by omega)
    rw [List.map_cons, List.sum_cons, ih hrest, shardBytes_add hconserves hlt hbefore]

/-- **The two weight accountings agree** on every model that the planner accepts and whose tensors, with
the embedding as single floats, fit in 64 bits; for the whole of a model that keeps its embedding twice, if
that fits too. -/
theorem weights_agree (content : Content) (inv : ModelInventory)
    (h : ModelInventory.read content = .ok inv) (hkeyed : content.Keyed)
    (hfits : content.residentBytes < 2 ^ 64) :
    (∀ spec : ShardSpec, spec.firstLayer ≤ spec.lastLayer → spec.lastLayer ≤ inv.facts.layers →
      (spec.firstLayer = 0 → spec.lastLayer = inv.facts.layers → content.Tied →
        shardBytes content inv 0 inv.facts.layers < 2 ^ 64) →
      (shardWeightBytes content spec inv.facts.layers).toNat =
        shardBytes content inv spec.firstLayer spec.lastLayer) ∧
    ((content.Tied → shardBytes content inv 0 inv.facts.layers < 2 ^ 64) →
      ∀ (places : List Placement) (spec : ShardSpec), checkTiling places inv.facts.layers = .ok () →
        (places.map fun p => (shardWeightBytes content
          { spec with firstLayer := p.firstLayer, lastLayer := p.lastLayer }
            inv.facts.layers).toNat).sum =
        (shardWeightBytes content { spec with firstLayer := 0, lastLayer := inv.facts.layers }
          inv.facts.layers).toNat) := by
  have hconserves := ModelInventory.conserves_of_read h
  have hexact (spec : ShardSpec) (hlast : spec.lastLayer ≤ inv.facts.layers)
      (hwhole : spec.firstLayer = 0 → spec.lastLayer = inv.facts.layers → content.Tied →
        shardBytes content inv 0 inv.facts.layers < 2 ^ 64) :
      (shardWeightBytes content spec inv.facts.layers).toNat =
        shardBytes content inv spec.firstLayer spec.lastLayer := by
    rw [shardWeightBytes_toNat h hkeyed spec hlast]
    refine Nat.mod_eq_of_lt ?_
    by_cases hpart : spec.firstLayer = 0 ∧ spec.lastLayer = inv.facts.layers ∧ content.Tied
    · obtain ⟨hfirst, hend, htied⟩ := hpart
      rw [hfirst, hend]
      exact hwhole hfirst hend htied
    · exact (shardBytes_le hconserves hlast hpart).trans_lt hfits
  refine ⟨fun spec _ hlast hwhole => hexact spec hlast hwhole, fun htied places spec htiling => ?_⟩
  have htiles := checkTiling_eq_ok.1 htiling
  have hwhole := hexact { spec with firstLayer := 0, lastLayer := inv.facts.layers }
    (UInt32.le_refl _) fun _ _ => htied
  rw [hwhole]
  cases places with
  | nil =>
    -- a model that the planner accepts has layers
    obtain ⟨-, -, -, hlayers, -⟩ := ModelInventory.read_eq_ok.1 h
    exact absurd (.inl (htiles : (0 : UInt32) = inv.facts.layers).symm) hlayers
  | cons p rest =>
    rw [← htiles.sum_shardBytes hconserves]
    congr 1
    refine List.map_congr_left fun q hq => hexact _ ?_ fun _ _ => htied
    exact UInt32.le_iff_toNat_le.2 (htiles.mem hq).2.2

/-- The two layers with their tied embedding, on one device and on two. -/
theorem weights_agree_twoLayers :
    shardBytes Engine.twoLayers twoLayersInventory 0 1 = 548 ∧
      (shardWeightBytes Engine.twoLayers ⟨"", 0, 1, 128, .f16, .f16⟩ 2).toNat = 548 ∧
      (shardWeightBytes Engine.twoLayers ⟨"", 0, 1, 128, .f16, .f16⟩ 2).toNat +
        ((shardWeightBytes Engine.twoLayers ⟨"", 1, 2, 128, .f16, .f16⟩ 2).toNat + 0) =
        (shardWeightBytes Engine.twoLayers ⟨"", 0, 2, 128, .f16, .f16⟩ 2).toNat := by
  have h := weights_agree Engine.twoLayers twoLayersInventory read_twoLayers (by decide) (by decide +kernel)
  have hwhole : shardBytes Engine.twoLayers twoLayersInventory 0 2 < 2 ^ 64 := by decide +kernel
  have hrange : shardBytes Engine.twoLayers twoLayersInventory 0 1 = 548 := by decide +kernel
  exact ⟨hrange, (h.1 ⟨"", 0, 1, 128, .f16, .f16⟩ (by decide) (by decide) fun _ hend _ =>
      absurd hend (by decide)).trans hrange,
    h.2 (fun _ => hwhole) [⟨0, 1, .here⟩, ⟨1, 2, .here⟩] ⟨"", 0, 1, 128, .f16, .f16⟩ (by decide)⟩

/-- Single floats. -/
def singles : GgmlDType := ⟨1, 4, Nat.one_pos, le_rfl⟩

/-- A layer of four bytes, and a tied embedding of `2 ^ 61` single floats. -/
def hugeEmbedding : Content where
  metadata := [("general.architecture", .plain (.string "llama")), ("llama.block_count", .plain (.u32 1)),
    ("llama.embedding_length", .plain (.u32 32)), ("llama.attention.head_count", .plain (.u32 1)),
    ("llama.context_length", .plain (.u32 128))]
  tensorInfos := [("blk.0.attn_q.weight", ⟨singles, [1]⟩),
    ("token_embd.weight", ⟨singles, [2305843009213693952]⟩)]

/-- **The accountings part** where a tied embedding fits in 64 bits once and not twice. -/
theorem weights_wrap : ¬ ∀ (content : Content) (inv : ModelInventory),
    ModelInventory.read content = .ok inv → content.Keyed → content.residentBytes < 2 ^ 64 →
    ∀ spec : ShardSpec, spec.firstLayer ≤ spec.lastLayer → spec.lastLayer ≤ inv.facts.layers →
      (shardWeightBytes content spec inv.facts.layers).toNat =
        shardBytes content inv spec.firstLayer spec.lastLayer := by
  intro h
  have hread : ModelInventory.read hugeEmbedding =
    .ok ⟨⟨"llama", 1, 32, 1, 1, 128⟩, [4], 2 ^ 63⟩ := by decide +kernel
  have hreport := h hugeEmbedding _ hread (by decide) (by decide +kernel)
    ⟨"", 0, 1, 128, .f16, .f16⟩ (by decide) (by decide)
  have hwrapped : (shardWeightBytes hugeEmbedding ⟨"", 0, 1, 128, .f16, .f16⟩ 1).toNat = 4 := by
    decide +kernel
  have hbytes : shardBytes hugeEmbedding ⟨⟨"llama", 1, 32, 1, 1, 128⟩, [4], 2 ^ 63⟩ 0 1 =
    2 ^ 64 + 4 := by decide +kernel
  have := hwrapped.symm.trans (hreport.trans hbytes)
  omega

end Daemon

end Latticed
