import Latticed.Daemon.Generate
import Latticed.Engine.Samples

/-!
# Does every layer run exactly once?

A tiling puts every layer somewhere once.  A device that was given two ranges, under one id or under
two, has dropped the first one by the time the pipeline runs, and runs the second one in its place.
Nothing notices, unless the range that is run in its place makes a shard be handed a payload of the
wrong kind.

* `every_layer_once_iff` : every pass that returns has run every layer once, in order, iff no device
  hosts two ranges, or the pipeline does not open, or no pass returns for one of these reasons.
-/

namespace Latticed

namespace Daemon

open Engine Net Rust

variable {C : Candle} {layers a : UInt32} {places : List Placement} {p q : Placement} {ends : Links}

/-! ### The condition -/

/-- The device that hosts the first range hosts another one too. -/
def FirstShared (ends : Links) : List Placement → Prop
  | [] => False
  | p :: rest => ∃ q ∈ rest, SamePeer ends p q

/-- The device that hosts the last range hosts another one too. -/
def LastShared (ends : Links) : List Placement → Prop
  | [] => False
  | p :: rest => (∃ q, rest.getLast? = some q ∧ SamePeer ends p q) ∨ LastShared ends rest

/-- The first stage is handed a payload of the wrong kind. -/
def RefusedAtFirst (ends : Links) (places : List Placement) : Payload → Prop
  | .tokens _ => FirstShared ends places
  | .hidden _ => ¬ FirstShared ends places
  | .logits _ => True

/-- In every pass over these places that is started with `input` and returns, every layer is applied
exactly once, in order: for every engine, whatever the devices at the ends of the connections held
before, and whatever passes went before. -/
def EveryLayerOnce [Debug Response] (ends : Links) (places : List Placement) (layers : UInt32)
    (input : Payload) : Prop :=
  ∀ (C : Candle) (model : C.File) (facts : ModelFacts) (options : Options) (peers peers' : Peers C)
    (pipeline : Pipeline C), ModelFacts.readFile model = .ok facts → facts.layers = layers →
    options.places = places → peers.ends = ends → ContentAddressed model peers →
    Pipeline.openWith model facts options peers = (.ok pipeline, peers') →
    ∀ (passes : List Pass) (pos : UInt32) (isPrefill : Bool) (y : Payload),
      let now := pipeline.after passes peers'
      (now.1.run pos isPrefill now.2 input).result = .ok y →
      (now.1.run pos isPrefill now.2 input).trace = List.range layers.toNat

/-! ### Which payloads get through -/

/-- A payload of the right kind at every boundary. -/
abbrev Flows (layers : UInt32) (plan : List Placement) (x : Payload) : Prop :=
  Linked (fun p x => x.EntersAt p.firstLayer) (fun p y => y.LeavesAt p.lastLayer layers) plan x

theorem Tiles.heldFor_last (h : Tiles layers a (p :: places)) (hne : places ≠ []) :
    (heldFor ends p places).lastLayer = layers ↔
      ∃ q, places.getLast? = some q ∧ SamePeer ends p q := by
  obtain ⟨rfl, hlt, hrest⟩ := h
  constructor
  · intro hlast
    rcases heldFor_cases ends p places with ⟨heq, -⟩ | ⟨hmem, hsame⟩
    · obtain ⟨q, hq⟩ := List.exists_mem_of_ne_nil _ hne
      have := hrest.mem hq
      rw [heq] at hlast
      rw [hlast] at this
      omega
    · exact ⟨_, (hrest.getLast? hmem).1 hlast, hsame⟩
  · rintro ⟨q, hlast, hsame⟩
    rw [heldFor_of_getLast? hlast hsame]
    exact (hrest.getLast? (List.mem_of_getLast? hlast)).2 hlast

/-- The range held for a later place does not start with the embedding. -/
theorem Tiles.heldFor_first_ne (h : Tiles layers a (p :: places)) (ha : a ≠ 0) :
    (heldFor ends p places).firstLayer ≠ 0 := by
  have hmem : heldFor ends p places ∈ p :: places := by
    rcases heldFor_cases ends p places with ⟨heq, -⟩ | ⟨hmem, -⟩
    · rw [heq]
      exact List.mem_cons_self
    · exact List.mem_cons_of_mem _ hmem
  intro hzero
  have hle := (h.mem hmem).1
  rw [hzero] at hle
  exact ha (UInt32.toNat_inj.1 (Nat.le_zero.1 hle))

/-- A shared last range returns logits too early. -/
theorem Tiles.not_flows (h : Tiles layers a places) (hshared : LastShared ends places) (x : Payload) :
    ¬ Flows layers (effective ends places) x := by
  induction places generalizing a x with
  | nil => exact hshared.elim
  | cons p rest ih =>
    rintro ⟨-, y, hleaves, hrest⟩
    rcases hshared with ⟨q, hlast, hsame⟩ | hshared
    · have hne : rest ≠ [] := by rintro rfl; cases hlast
      have hend := (h.heldFor_last hne).2 ⟨q, hlast, hsame⟩
      obtain ⟨r, rest, rfl⟩ := List.exists_cons_of_ne_nil hne
      cases y with
      | tokens ids => exact hleaves
      | hidden activation => exact hleaves hend
      | logits values => exact hrest.1
    · exact ih h.2.2 hshared y hrest

/-- When the last range is not shared, what the first stage takes gets through. -/
theorem Tiles.flows (h : Tiles layers a places) (hshared : ¬ LastShared ends places) {x : Payload}
    (henters : ∀ p rest, places = p :: rest → x.EntersAt (heldFor ends p rest).firstLayer) :
    Flows layers (effective ends places) x := by
  induction places generalizing a x with
  | nil => trivial
  | cons p rest ih =>
    refine ⟨henters p rest rfl, ?_⟩
    have htail := h.2.2
    cases rest with
    | nil =>
      rw [heldFor_nil]
      exact ⟨.logits [], htail, trivial⟩
    | cons r rest =>
      have hlast : (heldFor ends p (r :: rest)).lastLayer ≠ layers := fun hend =>
        hshared (Or.inl ((h.heldFor_last (List.cons_ne_nil r rest)).1 hend))
      have hpos : p.lastLayer ≠ 0 := by
        intro hzero
        have := UInt32.lt_iff_toNat_lt.1 h.2.1
        rw [hzero] at this
        exact absurd this (Nat.not_lt_zero _)
      refine ⟨.hidden ⟨0, 0, .f32, []⟩, hlast, ih htail (fun h => hshared (Or.inr h)) ?_⟩
      intro q rest' heq
      obtain ⟨rfl, rfl⟩ := List.cons.inj heq
      exact htail.heldFor_first_ne hpos

/-- What the first stage refuses does not get through. -/
theorem Tiles.refused (h : Tiles layers 0 (p :: places)) {x : Payload} :
    RefusedAtFirst ends (p :: places) x ↔ ¬ x.EntersAt (heldFor ends p places).firstLayer := by
  obtain ⟨hfirst, hlt, hrest⟩ := h
  have hzero : (heldFor ends p places).firstLayer = 0 ↔ ¬ FirstShared ends (p :: places) := by
    rcases heldFor_cases ends p places with ⟨heq, hnone⟩ | ⟨hmem, hsame⟩
    · rw [heq]
      exact ⟨fun _ ⟨q, hq, hsame⟩ => hnone q hq hsame, fun _ => hfirst⟩
    · refine ⟨fun hstart => ?_, fun hnot => absurd ⟨_, hmem, hsame⟩ hnot⟩
      have := (hrest.mem hmem).1
      have hlt' := UInt32.lt_iff_toNat_lt.1 hlt
      rw [hstart] at this
      exact absurd (Nat.le_trans (Nat.succ_le_of_lt hlt') this) (Nat.not_succ_le_zero _)
  cases x with
  | tokens ids => rw [RefusedAtFirst, Payload.EntersAt, hzero, not_not]
  | hidden activation => rw [RefusedAtFirst, Payload.EntersAt, Ne, not_not, hzero]
  | logits values => simp [RefusedAtFirst, Payload.EntersAt]

/-! ### A pipeline that never fails -/

section Blank

variable {b : UInt32}

/-- A request for a range of the model is accepted. -/
theorem loadShard_blank {node : Node (blank b)} {file : (blank b).File} (spec : ShardSpec)
    (hmodel : node.model = some file) (halive : node.shard.alive = true)
    (hhash : (blank b).hashFile file = .ok spec.modelHash)
    (hfirst : spec.firstLayer ≤ spec.lastLayer) (hlast : spec.lastLayer ≤ b) :
    ∃ shard weightBytes kvBytes, node.loadShard spec =
      (.ok (.shardLoaded weightBytes kvBytes), { node with shard := ⟨true, some shard⟩ }) := by
  obtain ⟨model, alive, held⟩ := node
  obtain rfl : model = some file := hmodel
  obtain rfl : alive = true := halive
  obtain ⟨shard, hopen⟩ := openFile_blank file hfirst hlast
  obtain ⟨-, hfacts, -, -⟩ := CandleShard.openFile_eq_ok hopen
  have hstats : ∃ kvBytes, shard.stats = .ok (shard.weightBytes, kvBytes) := by
    rw [CandleShard.stats, ← Except.ok.inj hfacts]
    exact ⟨_, rfl⟩
  obtain ⟨kvBytes, hkv⟩ := hstats
  refine ⟨shard, shard.weightBytes, kvBytes, ?_⟩
  simp [Node.loadShard, hhash, ShardThread.load, hopen, hkv]

/-- Every device serves the model and its shard thread is alive. -/
def Ready (file : (blank b).File) (peers : Peers (blank b)) : Prop :=
  ∀ device, (peers.node device).model = some file ∧ (peers.node device).shard.alive = true

/-- Devices that were just started, and connections to them. -/
def started (ends : Links) (file : (blank b).File) : Peers (blank b) :=
  ⟨ends, fun _ => ⟨some file, .spawn⟩, ⟨"", .length ""⟩⟩

theorem ready_started (file : (blank b).File) : Ready file (started ends file) := fun _ => ⟨rfl, rfl⟩

theorem openStage_blank [Debug Response] {file : (blank b).File} {hash : String} (options : Options)
    {peers : Peers (blank b)} (hhash : (blank b).hashFile file = .ok hash)
    (hready : Ready file peers) (hfirst : p.firstLayer ≤ p.lastLayer) (hlast : p.lastLayer ≤ b)
    (hconnected : ∀ id, p.host = .peer id → peers.ends id ≠ none) :
    ∃ stage peers', openStage file hash options peers p = (.ok stage, peers') ∧
      Ready file peers' ∧ peers'.ends = peers.ends := by
  have hspec : (options.specFor hash p).firstLayer ≤ (options.specFor hash p).lastLayer := hfirst
  unfold openStage
  cases hhost : p.host with
  | here =>
    obtain ⟨shard, hopen⟩ := openFile_blank file hspec hlast
    refine ⟨.here (options.specFor hash p) shard, peers, ?_, hready, rfl⟩
    dsimp only
    rw [hopen]
    rfl
  | peer id =>
    obtain ⟨device, hend⟩ := Option.ne_none_iff_exists'.1 (hconnected id hhost)
    have hnode : peers id = some (peers.node device) := Peers.get_eq_some.2 ⟨device, hend, rfl⟩
    obtain ⟨hmodel, halive⟩ := hready device
    obtain ⟨shard, weightBytes, kvBytes, hload⟩ :=
      loadShard_blank (options.specFor hash p) hmodel halive hhash hspec hlast
    refine ⟨.peer id (.openOn SESSION 0),
      peers.set id { peers.node device with shard := ⟨true, some shard⟩ }, ?_, fun device' => ?_,
      Peers.ends_set peers id _⟩
    · dsimp only
      rw [hnode]
      dsimp only
      rw [openRemote, hload]
    · rw [Peers.node_set hend]
      by_cases hdevice : device' = device
      · subst hdevice
        rw [Function.update_self]
        exact ⟨hmodel, rfl⟩
      · rw [Function.update_of_ne hdevice]
        exact hready device'

theorem openStages_blank [Debug Response] {file : (blank b).File} {hash : String} (options : Options)
    {peers : Peers (blank b)} (hhash : (blank b).hashFile file = .ok hash)
    (hready : Ready file peers) (h : Tiles b a places) (hconnected : ¬ Unconnected peers.ends places) :
    ∃ stages peers', openStages file hash options places peers = (.ok stages, peers') := by
  induction places generalizing a peers with
  | nil => exact ⟨[], peers, rfl⟩
  | cons p rest ih =>
    obtain ⟨-, hlt, hle⟩ := h.mem List.mem_cons_self
    obtain ⟨stage, peers₁, hstage, hready₁, hends⟩ := openStage_blank options hhash hready
      (UInt32.le_iff_toNat_le.2 hlt.le) (UInt32.le_iff_toNat_le.2 hle)
      fun id hhost hnone => hconnected ⟨p, List.mem_cons_self, id, hhost, hnone⟩
    obtain ⟨stages, peers', hstages⟩ := ih hready₁ h.2.2 <| by
      rw [hends]
      rintro ⟨q, hq, hid⟩
      exact hconnected ⟨q, List.mem_cons_of_mem _ hq, hid⟩
    refine ⟨stage :: stages, peers', ?_⟩
    rw [openStages, hstage]
    dsimp only
    rw [hstages]
    rfl

/-- A tiling opens, if there are connections for all its ids. -/
theorem openWith_blank [Debug Response] (file : (blank b).File) (options : Options)
    (h : checkTiling options.places b = .ok ()) (hconnected : ¬ Unconnected ends options.places) :
    ∃ pipeline peers', Pipeline.openWith file (blankFacts b) options (started ends file) =
      (.ok pipeline, peers') := by
  have hhash : (blank b).hashFile file = .ok "0000000000000000" := rfl
  obtain ⟨stages, peers', hstages⟩ := openStages_blank options hhash
    (ready_started file) (checkTiling_eq_ok.1 h) hconnected
  refine ⟨⟨stages⟩, peers', ?_⟩
  have htiling : checkTiling options.places (blankFacts b).layers = .ok () := h
  unfold Pipeline.openWith
  rw [hhash]
  dsimp only
  rw [htiling]
  dsimp only
  rw [hstages]
  rfl

theorem stage_run_blank {stage : Stage (blank b)} {peers : Peers (blank b)} {x : Payload}
    (h : stage.Serves layers p peers) (henters : x.EntersAt p.firstLayer) :
    ∃ y, (stage.run 0 true peers x).result = .ok y := by
  have hprefill {shard : CandleShard (blank b)} (hcovers : Covers layers p shard)
      (session : UInt64) : ∃ y, (shard.prefill session 0 x).result = .ok y := by
    unfold CandleShard.prefill
    rw [if_pos (Or.inr rfl)]
    exact run_blank (s := shard.cleared (some session)) (hcovers.first ▸ henters) 0
  cases stage with
  | here spec shard =>
    obtain ⟨y, hy⟩ := hprefill h SESSION
    exact ⟨y, mapError_eq_ok.2 hy⟩
  | peer id remote =>
    obtain ⟨⟨model, thread⟩, hnode, shard, hshard, hcovers⟩ := h
    obtain rfl : thread = ⟨true, some shard⟩ := hshard
    obtain ⟨y, hy⟩ := hprefill hcovers remote.header.session
    refine ⟨y, ?_⟩
    simp only [Stage.run, hnode]
    exact mapError_eq_ok.2 (mapError_eq_ok.2 hy)

/-- A pass returns when every payload on its way is of the right kind. -/
theorem run_pipeline_blank {pipeline : Pipeline (blank b)} {peers : Peers (blank b)}
    {plan : List Placement} {x : Payload} (h : pipeline.Serves layers plan peers)
    (hflows : Flows layers plan x) : ∃ y, (pipeline.run 0 true peers x).result = .ok y := by
  refine relay_ok (fun p s w x hs henters => ?_) (fun p x y hx hy q => ?_)
    (fun p s w x hs => (s.run_spec hs 0 true x).frame) h hflows
  · obtain ⟨y, hy⟩ := stage_run_blank hs henters
    exact ⟨y, hy, (s.run_spec hs 0 true x).leaves y hy⟩
  · cases x <;> cases y <;> first | exact id | exact hx.elim | exact hy.elim | exact absurd hy hx |
      exact absurd hx hy

end Blank

/-- **When every layer runs exactly once**: of the placements that `check_tiling` accepts, these are
the ones with which every pass that returns has applied all layers, once and in order. -/
theorem every_layer_once_iff [Debug Response] (ends : Links)
    (h : checkTiling places layers = .ok ()) (input : Payload) :
    EveryLayerOnce ends places layers input ↔
      (places.Pairwise fun p q => ¬ SamePeer ends p q) ∨ Unconnected ends places ∨
        LastShared ends places ∨ RefusedAtFirst ends places input := by
  have htiles := checkTiling_eq_ok.1 h
  have hall : places.flatMap Placement.range = List.range layers.toNat := by
    rw [htiles.flatMap_range, List.range_eq_range']
    rfl
  constructor
  · intro honce
    by_contra hnot
    simp only [not_or] at hnot
    obtain ⟨hshared, hconnected, hlast, hrefused⟩ := hnot
    let options : Options := ⟨0, places, .f32⟩
    obtain ⟨pipeline, peers', hopen⟩ := openWith_blank () options h hconnected
    -- on a model that lets everything through, a chain whose ranges fit returns
    have haddressed : ContentAddressed (C := blank layers) () (started ends ()) :=
      fun _ _ _ _ _ _ => rfl
    obtain ⟨-, hserves⟩ := Pipeline.openWith_serves (readFile_blank layers ()) haddressed hopen
    have hflows : Flows layers (effective ends places) input := by
      refine htiles.flows hlast fun p rest heq => ?_
      subst heq
      exact not_not.1 fun hnot => hrefused (htiles.refused.2 hnot)
    obtain ⟨y, hy⟩ := run_pipeline_blank hserves hflows
    have htrace := ((Pipeline.run_spec hserves 0 true input).2 y hy).1
    have honce' : (pipeline.run 0 true peers' input).trace = List.range layers.toNat :=
      honce _ _ _ _ _ _ _ (readFile_blank layers ()) rfl rfl rfl haddressed hopen [] 0 true y hy
    exact hshared (htiles.effective_eq.1 (htrace.symm.trans (honce'.trans hall.symm)))
  · rintro hcond C model facts options peers peers' pipeline hfacts rfl rfl rfl haddressed hopen passes
      pos isPrefill y now hy
    obtain ⟨-, hserves⟩ := Pipeline.openWith_serves hfacts haddressed hopen
    obtain ⟨htrace, hflows⟩ :=
      (Pipeline.run_spec (Pipeline.after_serves hserves passes) pos isPrefill input).2 y hy
    -- what ran are the ranges the devices are left with
    have hdistinct : options.places.Pairwise (fun p q => ¬ SamePeer peers.ends p q) →
        (now.1.run pos isPrefill now.2 input).trace = List.range facts.layers.toNat := fun hd =>
      htrace.trans ((htiles.effective_eq.2 hd).trans hall)
    rcases hcond with hd | hunconnected | hlast | hrefused
    · exact hdistinct hd
    · exact absurd hunconnected (Pipeline.openWith_connected hopen)
    · exact absurd hflows (htiles.not_flows hlast input)
    · cases hplaces : options.places with
      | nil => exact hdistinct (hplaces ▸ List.Pairwise.nil)
      | cons p rest =>
        rw [hplaces] at htiles hflows hrefused
        exact absurd hflows.1 (htiles.refused.1 hrefused)

/-- A text for every answer. -/
local instance answerText : Debug Response := ⟨reprStr⟩

/-- With every range on a device of its own, every layer runs once. -/
theorem every_layer_once_iff_three :
    EveryLayerOnce some [⟨0, 1, .here⟩, ⟨1, 2, .peer 7⟩, ⟨2, 3, .peer 8⟩] 3 (.tokens [1]) :=
  (every_layer_once_iff some (by decide) _).2 (Or.inl (by simp [SamePeer, Placement.on]))

/-- Five layers, the second and the fourth of which are placed on these peers. -/
def sandwich (second fourth : DeviceId) : List Placement :=
  [⟨0, 1, .here⟩, ⟨1, 2, .peer second⟩, ⟨2, 3, .here⟩, ⟨3, 4, .peer fourth⟩, ⟨4, 5, .here⟩]

/-- **A device with two ranges runs the last one twice**: the pass returns, and has applied the layers 0,
3, 2, 3 and 4.  That the ranges are placed on two ids does not help if one device answers for both. -/
theorem every_layer_once_fails :
    (checkTiling (sandwich 7 7) 5 = .ok () ∧ ¬ EveryLayerOnce some (sandwich 7 7) 5 (.tokens [1])) ∧
    (checkTiling (sandwich 7 8) 5 = .ok () ∧
      ¬ EveryLayerOnce (fun _ => some 7) (sandwich 7 8) 5 (.tokens [1])) := by
  refine ⟨⟨by decide, fun h => ?_⟩, by decide, fun h => ?_⟩
  · have htrace := h (tally 5) () (blankFacts 5) ⟨2048, sandwich 7 7, .f32⟩
      ⟨some, fun _ => ⟨some (), .spawn⟩, ⟨"", .length ""⟩⟩ _ _ rfl rfl rfl rfl (fun _ _ _ _ _ _ => rfl)
      rfl [] 0 true (.logits [103234]) (by decide)
    exact absurd htrace (by decide)
  · have htrace := h (tally 5) () (blankFacts 5) ⟨2048, sandwich 7 8, .f32⟩
      ⟨fun _ => some 7, fun _ => ⟨some (), .spawn⟩, ⟨"", .length ""⟩⟩ _ _ rfl rfl rfl rfl
      (fun _ _ _ _ _ _ => rfl) rfl [] 0 true (.logits [103234]) (by decide)
    exact absurd htrace (by decide)

end Daemon

end Latticed
