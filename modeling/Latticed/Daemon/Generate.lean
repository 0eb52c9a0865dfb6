import Latticed.Daemon.Node
import Latticed.Net.Codec
import Latticed.Net.Stream
import Mathlib.Logic.Function.Basic

/-!
# A chain of shards

The master cuts the layers of a model into ranges, opens a shard for each range, here or on a peer,
and hands a payload through the chain for every token.  `check_tiling` makes sure that the ranges
that are placed tile the model.  The ranges that run are those the devices hold: a peer holds one
shard, the one it loaded last.  Which device that is, the connection decides that the master keeps for
the id of the place, and two connections may lead to one device.

* `checkTiling_eq_ok` : the placement lists that are accepted are the tilings.
* `Pipeline.openWith_serves` : once the pipeline is open, every stage serves the range its device
  loaded last.
* `Pipeline.run_spec` : a pass that returns has applied the ranges the stages serve, in order.
-/

namespace Latticed

namespace Daemon

open Engine Net Rust

/-- Where a range runs. -/
inductive Host where
  | here
  | peer (id : DeviceId)
  deriving DecidableEq

/-- A layer range and where it runs.  `lastLayer` is exclusive. -/
structure Placement where
  firstLayer : UInt32
  lastLayer : UInt32
  host : Host
  deriving DecidableEq

/-- What the chain is built with. -/
structure Options where
  maxContext : UInt32
  /-- Where each layer range runs, in order, tiling the model. -/
  places : List Placement
  wireDtype : WireDtype

/-! ### Tilings -/

/-- The loop of `check_tiling`. -/
def checkTilingFrom (layers : UInt32) : UInt32 → List Placement → Except String Unit
  | next, [] =>
    if next = layers then .ok ()
    else .error ("placements cover 0.." ++ toString next ++ ", but the model has " ++
      toString layers ++ " layers")
  | next, place :: places =>
    if place.firstLayer ≠ next then
      .error ("layers " ++ toString next ++ ".." ++ toString place.firstLayer ++ " are unplaced")
    else if place.lastLayer ≤ place.firstLayer then
      .error (toString place.firstLayer ++ "-" ++ toString place.lastLayer ++
        " is not a layer range")
    else checkTilingFrom layers place.lastLayer places

/-- `check_tiling`. -/
def checkTiling (places : List Placement) (layers : UInt32) : Except String Unit :=
  checkTilingFrom layers 0 places

/-- The layers of a range. -/
def Placement.range (p : Placement) : List ℕ :=
  List.range' p.firstLayer.toNat (p.lastLayer.toNat - p.firstLayer.toNat)

/-- The places follow one another from layer `a` to the last layer. -/
def Tiles (layers : UInt32) : UInt32 → List Placement → Prop
  | a, [] => a = layers
  | a, p :: rest => p.firstLayer = a ∧ a < p.lastLayer ∧ Tiles layers p.lastLayer rest

variable {C : Candle} {layers a : UInt32} {places : List Placement} {p q : Placement}

theorem checkTilingFrom_eq_ok : checkTilingFrom layers a places = .ok () ↔ Tiles layers a places := by
  induction places generalizing a with
  | nil => simp [checkTilingFrom, Tiles]
  | cons p rest ih =>
    rw [checkTilingFrom, Tiles]
    split_ifs with hfirst hlast
    · exact ⟨fun h => (by cases h), fun h => absurd h.1 hfirst⟩
    · rw [not_not] at hfirst
      subst hfirst
      exact ⟨fun h => (by cases h), fun h => absurd h.2.1 (UInt32.not_lt.2 hlast)⟩
    · rw [not_not] at hfirst
      subst hfirst
      rw [ih]
      exact ⟨fun h => ⟨rfl, UInt32.not_le.1 hlast, h⟩, fun h => h.2.2⟩

theorem Tiles.le (h : Tiles layers a places) : a.toNat ≤ layers.toNat := by
  induction places generalizing a with
  | nil => exact (congrArg UInt32.toNat h).le
  | cons p rest ih => exact (UInt32.lt_iff_toNat_lt.1 h.2.1).le.trans (ih h.2.2)

/-- The ranges of a tiling are the layers, in order. -/
theorem Tiles.flatMap_range (h : Tiles layers a places) :
    places.flatMap Placement.range = List.range' a.toNat (layers.toNat - a.toNat) := by
  induction places generalizing a with
  | nil =>
    obtain rfl : a = layers := h
    simp
  | cons p rest ih =>
    obtain ⟨rfl, hlt, hrest⟩ := h
    have hlt' := UInt32.lt_iff_toNat_lt.1 hlt
    have hle := hrest.le
    rw [List.flatMap_cons, ih hrest, Placement.range]
    have hstart : p.lastLayer.toNat =
        p.firstLayer.toNat + (p.lastLayer.toNat - p.firstLayer.toNat) := by omega
    have hlen : layers.toNat - p.firstLayer.toNat =
        (p.lastLayer.toNat - p.firstLayer.toNat) + (layers.toNat - p.lastLayer.toNat) := by omega
    rw [hlen, ← List.range'_append_1, ← hstart]

theorem Tiles.mem (h : Tiles layers a places) (hp : p ∈ places) :
    a.toNat ≤ p.firstLayer.toNat ∧ p.firstLayer.toNat < p.lastLayer.toNat ∧
      p.lastLayer.toNat ≤ layers.toNat := by
  induction places generalizing a with
  | nil => cases hp
  | cons q rest ih =>
    obtain ⟨rfl, hlt, hrest⟩ := h
    have hlt' := UInt32.lt_iff_toNat_lt.1 hlt
    rcases List.mem_cons.1 hp with rfl | hp
    · exact ⟨le_rfl, hlt', hrest.le⟩
    · obtain ⟨hle, h⟩ := ih hrest hp
      exact ⟨hlt'.le.trans hle, h⟩

/-- Only the last place of a tiling ends at the last layer. -/
theorem Tiles.getLast? (h : Tiles layers a places) (hp : p ∈ places) :
    p.lastLayer = layers ↔ places.getLast? = some p := by
  induction places generalizing a with
  | nil => cases hp
  | cons q rest ih =>
    obtain ⟨rfl, hlt, hrest⟩ := h
    cases rest with
    | nil =>
      obtain rfl := List.mem_singleton.1 hp
      exact ⟨fun _ => rfl, fun _ => hrest⟩
    | cons r rest =>
      rw [List.getLast?_cons_cons]
      rcases List.mem_cons.1 hp with rfl | hp
      · -- the first of several places is not the last one, on either side
        have hr := hrest.mem List.mem_cons_self
        have hlt' := UInt32.lt_iff_toNat_lt.1 hlt
        refine ⟨fun heq => absurd (congrArg UInt32.toNat heq) (by omega), fun hlast => ?_⟩
        have := hrest.mem (List.mem_of_getLast? hlast)
        omega
      · exact ih hrest hp

/-- `check_tiling` accepts the tilings: every range is a range, and one after the other they are all
the layers in order. -/
theorem checkTiling_eq_ok : checkTiling places layers = .ok () ↔ Tiles layers 0 places :=
  checkTilingFrom_eq_ok

/-! ### Which range a peer is left with -/

/-- The device at the other end of the connection that is kept for an id. -/
abbrev Links := DeviceId → Option DeviceId

/-- The device that a place runs on, if it is another one. -/
def Placement.on (ends : Links) (p : Placement) : Option DeviceId :=
  match p.host with
  | .here => none
  | .peer id => ends id

/-- The last of the places on this device. -/
def lastOn (ends : Links) (device : DeviceId) : List Placement → Option Placement
  | [] => none
  | p :: rest => (lastOn ends device rest).or (if p.on ends = some device then some p else none)

/-- The place whose range is held where `p` was loaded, once the places after it are loaded too. -/
def heldFor (ends : Links) (p : Placement) (later : List Placement) : Placement :=
  match p.on ends with
  | none => p
  | some device => (lastOn ends device later).getD p

/-- The ranges the stages are left with. -/
def effective (ends : Links) : List Placement → List Placement
  | [] => []
  | p :: rest => heldFor ends p rest :: effective ends rest

/-- Two places on one other device, under one id or under two. -/
def SamePeer (ends : Links) (p q : Placement) : Prop :=
  ∃ device, p.on ends = some device ∧ q.on ends = some device

/-- No connection is kept for the id of a place. -/
def Unconnected (ends : Links) (places : List Placement) : Prop :=
  ∃ p ∈ places, ∃ id, p.host = .peer id ∧ ends id = none

variable {ends : Links} {device : DeviceId}

theorem Placement.on_here (h : p.host = .here) : p.on ends = none := by rw [on, h]

theorem Placement.on_peer {id : DeviceId} (h : p.host = .peer id) : p.on ends = ends id := by
  rw [on, h]

theorem lastOn_mem (h : lastOn ends device places = some p) :
    p ∈ places ∧ p.on ends = some device := by
  induction places with
  | nil => cases h
  | cons q rest ih =>
    rcases Option.or_eq_some_iff.1 h with h | ⟨-, h⟩
    · exact ⟨List.mem_cons_of_mem _ (ih h).1, (ih h).2⟩
    · split_ifs at h with hq
      cases h
      exact ⟨List.mem_cons_self, hq⟩

theorem lastOn_eq_none :
    lastOn ends device places = none ↔ ∀ q ∈ places, q.on ends ≠ some device := by
  induction places with
  | nil => simp [lastOn]
  | cons q rest ih =>
    rw [lastOn, Option.or_eq_none_iff, ih, List.forall_mem_cons, and_comm]
    simp

theorem heldFor_none (h : p.on ends = none) (later : List Placement) : heldFor ends p later = p := by
  rw [heldFor, h]

theorem heldFor_some (h : p.on ends = some device) (later : List Placement) :
    heldFor ends p later = (lastOn ends device later).getD p := by
  rw [heldFor, h]

theorem heldFor_nil (p : Placement) : heldFor ends p [] = p := by
  unfold heldFor
  cases p.on ends <;> rfl

theorem heldFor_cases (ends : Links) (p : Placement) (later : List Placement) :
    (heldFor ends p later = p ∧ ∀ q ∈ later, ¬ SamePeer ends p q) ∨
      (heldFor ends p later ∈ later ∧ SamePeer ends p (heldFor ends p later)) := by
  cases hon : p.on ends with
  | none =>
    refine Or.inl ⟨heldFor_none hon later, ?_⟩
    rintro q - ⟨device, hp, -⟩
    rw [hon] at hp
    cases hp
  | some device =>
    rw [heldFor_some hon]
    cases hlast : lastOn ends device later with
    | none =>
      refine Or.inl ⟨rfl, ?_⟩
      rintro q hq ⟨device', hp, hq'⟩
      rw [hon] at hp
      cases hp
      exact lastOn_eq_none.1 hlast q hq hq'
    | some q => exact Or.inr ⟨(lastOn_mem hlast).1, device, hon, (lastOn_mem hlast).2⟩

/-- The last place is what its device is left with, whatever else was placed there. -/
theorem heldFor_of_getLast? (hlast : places.getLast? = some q) (h : SamePeer ends p q) :
    heldFor ends p places = q := by
  obtain ⟨device, hp, hq⟩ := h
  have hon : lastOn ends device places = some q := by
    induction places with
    | nil => cases hlast
    | cons r rest ih =>
      cases rest with
      | nil =>
        obtain rfl : r = q := Option.some.inj hlast
        simp [lastOn, hq]
      | cons r' rest =>
        rw [lastOn, ih (by rwa [List.getLast?_cons_cons] at hlast)]
        rfl
  rw [heldFor_some hp, hon]
  rfl

/-- **The stages are left with the ranges that were placed** iff no other device has two places. -/
theorem Tiles.effective_eq (h : Tiles layers a places) :
    (effective ends places).flatMap Placement.range = places.flatMap Placement.range ↔
      places.Pairwise fun p q => ¬ SamePeer ends p q := by
  induction places generalizing a with
  | nil => simp [effective]
  | cons p rest ih =>
    obtain ⟨rfl, hlt, hrest⟩ := h
    have hlt' := UInt32.lt_iff_toNat_lt.1 hlt
    rw [effective, List.flatMap_cons, List.flatMap_cons, List.pairwise_cons]
    rcases heldFor_cases ends p rest with ⟨heq, hnone⟩ | ⟨hmem, hsame⟩
    · rw [heq, List.append_cancel_left_eq, ih hrest]
      exact ⟨fun h => ⟨hnone, h⟩, fun h => h.2⟩
    · -- the range that is held starts later than the one that was placed
      refine ⟨fun heq => ?_, fun hpair => absurd hsame (hpair.1 _ hmem)⟩
      obtain ⟨hfirst, hheld, -⟩ := hrest.mem hmem
      have hstart := congrArg List.head? heq
      have hpos : 0 < (heldFor ends p rest).lastLayer.toNat -
          (heldFor ends p rest).firstLayer.toNat := by
        omega
      have hpos' : 0 < p.lastLayer.toNat - p.firstLayer.toNat := by omega
      obtain ⟨n, hn⟩ := Nat.exists_eq_succ_of_ne_zero hpos.ne'
      obtain ⟨n', hn'⟩ := Nat.exists_eq_succ_of_ne_zero hpos'.ne'
      simp only [Placement.range, hn, hn', List.range'_succ, List.cons_append, List.head?_cons,
        Option.some.injEq] at hstart
      omega

/-! ### The pipeline -/

/-- `SESSION`: every master uses the same number. -/
def SESSION : UInt64 := 1

/-- The master's end of a boundary: a stream, known by the header it was opened with. -/
structure RemoteShard where
  header : StreamHeader

/-- `RemoteShard::open`. -/
def RemoteShard.openOn (session : UInt64) (generation : UInt32) : RemoteShard :=
  ⟨⟨.activation, session, generation⟩⟩

/-- One stage of the chain. -/
inductive Stage (C : Candle) where
  | here (spec : ShardSpec) (shard : CandleShard C)
  | peer (id : DeviceId) (shard : RemoteShard)

/-- The connections that the master keeps, and the devices at their other ends. -/
structure Peers (C : Candle) where
  ends : Links
  node : DeviceId → Node C
  givenUp : GivenUp

/-- The device that is reached under an id. -/
def Peers.get (peers : Peers C) (id : DeviceId) : Option (Node C) := (peers.ends id).map peers.node

instance : CoeFun (Peers C) fun _ => DeviceId → Option (Node C) := ⟨Peers.get⟩

/-- The devices after the one that is reached under an id has changed. -/
def Peers.set (peers : Peers C) (id : DeviceId) (node : Node C) : Peers C :=
  match peers.ends id with
  | none => peers
  | some device => { peers with node := Function.update peers.node device node }

/-- `Stage::run`.  A stream that fails stays failed, so the passes that return are those on which the
streams carry what is sent. -/
def Stage.run (pos : UInt32) (isPrefill : Bool) (stage : Stage C) (peers : Peers C)
    (input : Payload) : Call (Stage C × Peers C) ℕ String Payload :=
  match stage with
  | .here spec shard =>
    (if isPrefill then shard.prefill SESSION pos input else shard.decode SESSION pos input).lift
      (fun shard => (.here spec shard, peers)) (·.mapError C.display)
  | .peer id remote =>
    match peers id with
    | none => .pure (.error ("shard on " ++ id.display)) (.peer id remote, peers)
    | some node =>
      (node.run remote.header.session (.of isPrefill pos input)).lift
        (fun node => (.peer id remote, peers.set id node))
        (·.mapError fun _ => "shard on " ++ id.display)

/-- `open_remote`. -/
def openRemote [Debug Response] (peers : Peers C) (id : DeviceId) (node : Node C) (spec : ShardSpec) :
    Outcome String (Stage C) × Peers C :=
  let (answer, node) := node.loadShard spec
  let stage : Outcome String (Stage C) := match answer with
    | .ok (.shardLoaded _ _) => .ok (.peer id (RemoteShard.openOn SESSION 0))
    | .ok (.refused why) =>
      .err (id.display ++ " refused layers " ++ toString spec.firstLayer ++ ".." ++
        toString spec.lastLayer ++ ": " ++ why)
    | .ok other => .err (id.display ++ " answered a load request with " ++ Debug.debug other)
    | .err e => nomatch e
    -- a handler that panics leaves the control stream without an answer
    | .panic _ => .err ("reading frame length: " ++ peers.givenUp.reading)
  (stage, peers.set id node)

/-- What to load for a place. -/
def Options.specFor (options : Options) (hash : String) (place : Placement) : ShardSpec where
  modelHash := hash
  firstLayer := place.firstLayer
  lastLayer := place.lastLayer
  maxContext := options.maxContext
  kvDtype := .f16
  wireDtype := options.wireDtype

/-- The body of the loop of `Pipeline::open`. -/
def openStage [Debug Response] (model : C.File) (hash : String) (options : Options) (peers : Peers C)
    (place : Placement) : Outcome String (Stage C) × Peers C :=
  match place.host with
  | .here =>
    (((CandleShard.openFile model (options.specFor hash place)).mapErr fun _ =>
        "loading layers " ++ toString place.firstLayer ++ ".." ++ toString place.lastLayer).andThen
      fun shard => .ok (.here (options.specFor hash place) shard), peers)
  | .peer id =>
    match peers id with
    | none => (.err ("no connection to " ++ id.display), peers)
    | some node => openRemote peers id node (options.specFor hash place)

/-- The loop of `Pipeline::open`. -/
def openStages [Debug Response] (model : C.File) (hash : String) (options : Options) :
    List Placement → Peers C → Outcome String (List (Stage C)) × Peers C
  | [], peers => (.ok [], peers)
  | place :: places, peers =>
    match openStage model hash options peers place with
    | (.err e, peers) => (.err e, peers)
    | (.panic m, peers) => (.panic m, peers)
    | (.ok stage, peers) =>
      let (stages, peers) := openStages model hash options places peers
      (stages.andThen fun stages => .ok (stage :: stages), peers)

/-- A chain of shards. -/
structure Pipeline (C : Candle) where
  stages : List (Stage C)

namespace Pipeline

/-- `Pipeline::open`. -/
def openWith [Debug Response] (model : C.File) (facts : ModelFacts) (options : Options)
    (peers : Peers C) : Outcome String (Pipeline C) × Peers C :=
  match C.hashFile model with
  | .error _ => (.err "hashing the model", peers)
  | .ok hash =>
    match checkTiling options.places facts.layers with
    | .error e => (.err e, peers)
    | .ok () =>
      let (stages, peers) := openStages model hash options options.places peers
      (stages.andThen fun stages => .ok ⟨stages⟩, peers)

/-- `Pipeline::run`: one traversal of the chain. -/
def run (pos : UInt32) (isPrefill : Bool) (pipeline : Pipeline C) (peers : Peers C)
    (input : Payload) : Call (Pipeline C × Peers C) ℕ String Payload :=
  (relay (Stage.run pos isPrefill) pipeline.stages peers input).lift
    (fun after => (⟨after.1⟩, after.2)) id

end Pipeline

/-- What a pass is given. -/
structure Pass where
  pos : UInt32
  isPrefill : Bool
  input : Payload

/-- The pipeline and the peers after some passes. -/
def Pipeline.after (passes : List Pass) (pipeline : Pipeline C) (peers : Peers C) :
    Pipeline C × Peers C :=
  passes.foldl (fun now pass => (now.1.run pass.pos pass.isPrefill now.2 pass.input).state)
    (pipeline, peers)

/-! ### The ranges that run -/

/-- The shard holds the range of the place, of a model with this many layers. -/
structure Covers (layers : UInt32) (p : Placement) (shard : CandleShard C) : Prop where
  first : shard.spec.firstLayer = p.firstLayer
  last : shard.spec.lastLayer = p.lastLayer
  facts : shard.facts.layers = layers
  indices : shard.model.indices = p.range

theorem Covers.same {shard shard' : CandleShard C} (h : Covers layers p shard)
    (hsame : SameShard shard shard') : Covers layers p shard' :=
  ⟨hsame.spec ▸ h.first, hsame.spec ▸ h.last, hsame.facts ▸ h.facts, hsame.indices.trans h.indices⟩

/-- A shard that was opened for a place holds its range. -/
theorem Covers.opened {file : C.File} {spec : ShardSpec} {shard : CandleShard C} {facts : ModelFacts}
    (hopen : CandleShard.openFile file spec = .ok shard)
    (hfacts : ModelFacts.readFile file = .ok facts) (hfirst : spec.firstLayer = p.firstLayer)
    (hlast : spec.lastLayer = p.lastLayer) : Covers facts.layers p shard := by
  obtain ⟨hspec, hread, -, hindices⟩ := CandleShard.openFile_eq_ok hopen
  rw [hfacts] at hread
  refine ⟨by rw [hspec, hfirst], by rw [hspec, hlast], ?_, ?_⟩
  · rw [Except.ok.inj hread]
  · rw [hindices, hfirst, hlast]
    rfl

/-- The device holds a shard with the range of the place. -/
def Holds (layers : UInt32) (p : Placement) (node : Node C) : Prop :=
  ∃ shard, node.shard = ⟨true, some shard⟩ ∧ Covers layers p shard

/-- The stage runs on a shard with the range of the place. -/
def Stage.Serves (layers : UInt32) (p : Placement) : Stage C → Peers C → Prop
  | .here _ shard, _ => Covers layers p shard
  | .peer id _, peers => ∃ node, peers id = some node ∧ Holds layers p node

theorem Peers.get_eq_some {peers : Peers C} {id : DeviceId} {node : Node C} :
    peers id = some node ↔ ∃ device, peers.ends id = some device ∧ peers.node device = node :=
  Option.map_eq_some_iff

@[simp] theorem Peers.ends_set (peers : Peers C) (id : DeviceId) (node : Node C) :
    (peers.set id node).ends = peers.ends := by
  unfold set
  split <;> rfl

theorem Peers.node_set {peers : Peers C} {id : DeviceId} (h : peers.ends id = some device)
    (node : Node C) : (peers.set id node).node = Function.update peers.node device node := by
  rw [set, h]

theorem Peers.node_set_of_ne {peers : Peers C} {id : DeviceId} (h : peers.ends id ≠ some device)
    (node : Node C) : (peers.set id node).node device = peers.node device := by
  unfold set
  cases hend : peers.ends id with
  | none => rfl
  | some device' => exact Function.update_of_ne (fun heq => h (hend.trans (congrArg some heq.symm))) _ _

/-- All ids that lead to the device lead to the changed one. -/
theorem Peers.set_same {peers : Peers C} {id id' : DeviceId} {old : Node C} (hold : peers id = some old)
    (h : peers.ends id' = peers.ends id) (node : Node C) : peers.set id node id' = some node := by
  obtain ⟨device, hend, -⟩ := get_eq_some.1 hold
  refine get_eq_some.2 ⟨device, ?_, ?_⟩
  · rw [ends_set, h, hend]
  · rw [node_set hend, Function.update_self]

theorem Peers.set_self {peers : Peers C} {id : DeviceId} {old : Node C} (hold : peers id = some old)
    (node : Node C) : peers.set id node id = some node := set_same hold rfl node

/-- The other ids lead where they led. -/
theorem Peers.set_of_ne {peers : Peers C} {id id' : DeviceId} (h : peers.ends id' ≠ peers.ends id)
    (node : Node C) : peers.set id node id' = peers id' := by
  rw [get, get, ends_set]
  refine Option.map_congr fun device hdevice => node_set_of_ne (fun hend => h ?_) node
  rw [hend]
  exact hdevice

/-- Two stages on one device run on the same shard. -/
theorem Stage.Serves.set {stage : Stage C} {peers : Peers C} {id : DeviceId} {node : Node C}
    {shard shard' : CandleShard C} (h : stage.Serves layers q peers) (hnode : peers id = some node)
    (hshard : node.shard = ⟨true, some shard⟩) (hsame : SameShard shard shard') :
    stage.Serves layers q (peers.set id { node with shard := ⟨true, some shard'⟩ }) := by
  cases stage with
  | here spec shard => exact h
  | peer id' remote =>
    obtain ⟨node', hnode', other, hother, hcovers⟩ := h
    by_cases hend : peers.ends id' = peers.ends id
    · obtain rfl : node' = node := by
        have hget : peers id' = peers id := by rw [Peers.get, hend, Peers.get]
        exact Option.some.inj (hnode'.symm.trans (hget.trans hnode))
      rw [hshard] at hother
      cases hother
      exact ⟨_, Peers.set_same hnode hend _, shard', rfl, hcovers.same hsame⟩
    · exact ⟨node', (Peers.set_of_ne hend _).trans hnode', other, hother, hcovers⟩

/-- What a stage does in a pass, besides what it returns. -/
structure Stage.RunsPlace (layers : UInt32) (p : Placement) (peers : Peers C) (input : Payload)
    (call : Call (Stage C × Peers C) ℕ String Payload) : Prop where
  serves : call.state.1.Serves layers p call.state.2
  frame : ∀ (q : Placement) (t : Stage C), t.Serves layers q peers → t.Serves layers q call.state.2
  trace : ∀ y, call.result = .ok y → call.trace = p.range
  enters : ∀ y, call.result = .ok y → input.EntersAt p.firstLayer
  leaves : ∀ y, call.result = .ok y → y.LeavesAt p.lastLayer layers

/-- **A stage runs the range it serves.** -/
theorem Stage.run_spec {stage : Stage C} {peers : Peers C} (h : stage.Serves layers p peers)
    (pos : UInt32) (isPrefill : Bool) (input : Payload) :
    RunsPlace layers p peers input (stage.run pos isPrefill peers input) := by
  cases stage with
  | here spec shard =>
    have hcovers : Covers layers p shard := h
    have hcall : RunsShard shard input (if isPrefill then shard.prefill SESSION pos input
        else shard.decode SESSION pos input) := by
      split_ifs
      · exact shard.prefill_spec SESSION pos input
      · exact shard.decode_spec SESSION pos input
    refine ⟨hcovers.same hcall.same, fun q t ht => ht, fun y hy => ?_, fun y hy => ?_, fun y hy => ?_⟩
    · exact (hcall.trace y (mapError_eq_ok.1 hy)).trans hcovers.indices
    · exact hcovers.first ▸ hcall.enters y (mapError_eq_ok.1 hy)
    · exact hcovers.last ▸ hcovers.facts ▸ hcall.leaves y (mapError_eq_ok.1 hy)
  | peer id remote =>
    obtain ⟨node, hnode, shard, hshard, hcovers⟩ := h
    obtain ⟨call, hcall, hrun⟩ := node.run_spec hshard remote.header.session isPrefill pos input
    simp only [Stage.run, hnode, hrun]
    have hserves : (Stage.peer id remote : Stage C).Serves layers p peers :=
      ⟨node, hnode, shard, hshard, hcovers⟩
    refine ⟨hserves.set hnode hshard hcall.same, fun q t ht => ht.set hnode hshard hcall.same,
      fun y hy => ?_, fun y hy => ?_, fun y hy => ?_⟩
    · exact (hcall.trace y (mapError_eq_ok.1 (mapError_eq_ok.1 hy))).trans hcovers.indices
    · exact hcovers.first ▸ hcall.enters y (mapError_eq_ok.1 (mapError_eq_ok.1 hy))
    · exact hcovers.last ▸ hcovers.facts ▸ hcall.leaves y (mapError_eq_ok.1 (mapError_eq_ok.1 hy))

/-- Every stage serves its place. -/
abbrev Pipeline.Serves (layers : UInt32) (plan : List Placement) (pipeline : Pipeline C)
    (peers : Peers C) : Prop :=
  AllFit (fun p (stage : Stage C) peers => stage.Serves layers p peers) plan pipeline.stages peers

/-- **A pass that returns has applied the ranges that are served, one after the other.** -/
theorem Pipeline.run_spec {pipeline : Pipeline C} {peers : Peers C} {plan : List Placement}
    (h : pipeline.Serves layers plan peers) (pos : UInt32) (isPrefill : Bool) (input : Payload) :
    (pipeline.run pos isPrefill peers input).state.1.Serves layers plan
        (pipeline.run pos isPrefill peers input).state.2 ∧
      ∀ y, (pipeline.run pos isPrefill peers input).result = .ok y →
        (pipeline.run pos isPrefill peers input).trace = plan.flatMap Placement.range ∧
          Linked (fun p x => x.EntersAt p.firstLayer) (fun p y => y.LeavesAt p.lastLayer layers)
            plan input := by
  have hstep (p : Placement) (s : Stage C) (w : Peers C) (x : Payload)
      (hs : s.Serves layers p w) := s.run_spec hs pos isPrefill x
  obtain ⟨hserves, htrace⟩ := relay_fits (x := input)
    (fun p s w x hs => ⟨(hstep p s w x hs).serves, (hstep p s w x hs).trace⟩)
    (fun p s w x hs => (hstep p s w x hs).frame) h
  refine ⟨hserves, fun y hy => ⟨htrace y hy, ?_⟩⟩
  exact relay_linked (fun p s w x y hs hy => ⟨(hstep p s w x hs).enters y hy,
    (hstep p s w x hs).leaves y hy⟩) (fun p s w x hs => (hstep p s w x hs).frame) h hy

theorem Pipeline.after_serves {pipeline : Pipeline C} {peers : Peers C} {plan : List Placement}
    (h : pipeline.Serves layers plan peers) (passes : List Pass) :
    (pipeline.after passes peers).1.Serves layers plan (pipeline.after passes peers).2 := by
  induction passes generalizing pipeline peers with
  | nil => exact h
  | cons pass passes ih => exact ih (run_spec h pass.pos pass.isPrefill pass.input).1

/-! ### Opening the pipeline -/

/-- A peer's file with the digest of the model is the model. -/
def ContentAddressed (model : C.File) (peers : Peers C) : Prop :=
  ∀ id node file, peers id = some node → node.model = some file →
    C.hashFile file = C.hashFile model → file = model

/-- What opening a stage for `place` changes: nothing, or the shard of the peer that hosts it. -/
inductive Opens (layers : UInt32) (peers : Peers C) (place : Placement) :
    Stage C → Peers C → Prop
  | here {spec : ShardSpec} {shard : CandleShard C} : place.host = .here →
      Covers layers place shard → Opens layers peers place (.here spec shard) peers
  | peer {id : DeviceId} {node : Node C} {shard : CandleShard C} {remote : RemoteShard} :
      place.host = .peer id → peers id = some node → Covers layers place shard →
      Opens layers peers place (.peer id remote)
        (peers.set id { node with shard := ⟨true, some shard⟩ })

variable {model : C.File} {facts : ModelFacts} {hash : String} {options : Options}
  {peers peers' : Peers C}

/-- A remote stage opens on the answer that the shard is loaded, and on no other. -/
theorem openRemote_eq_ok [Debug Response] {id : DeviceId} {node : Node C} {spec : ShardSpec}
    {stage : Stage C} : openRemote peers id node spec = (.ok stage, peers') ↔
      (∃ weightBytes kvBytes, (node.loadShard spec).1 = .ok (.shardLoaded weightBytes kvBytes)) ∧
        stage = .peer id (RemoteShard.openOn SESSION 0) ∧
        peers' = peers.set id (node.loadShard spec).2 := by
  rw [openRemote]
  rcases node.loadShard spec with ⟨answer, node'⟩
  constructor
  · intro h
    obtain ⟨hstage, rfl⟩ := Prod.mk.inj h
    cases answer with
    | err e => exact e.elim
    | panic m => cases hstage
    | ok response =>
      cases response with
      | shardLoaded weightBytes kvBytes => exact ⟨⟨_, _, rfl⟩, (Outcome.ok.inj hstage).symm, rfl⟩
      | _ => cases hstage
  · rintro ⟨⟨weightBytes, kvBytes, rfl⟩, rfl, rfl⟩
    rfl

/-- A remote stage that opens has made its device load the range from the model, or a copy of it. -/
theorem openRemote_loads [Debug Response] {id : DeviceId} {node : Node C} {spec : ShardSpec}
    {stage : Stage C} (hhash : C.hashFile model = .ok spec.modelHash)
    (haddressed : ContentAddressed model peers) (hnode : peers id = some node)
    (h : openRemote peers id node spec = (.ok stage, peers')) :
    ∃ shard, CandleShard.openFile model spec = .ok shard ∧
      stage = .peer id (RemoteShard.openOn SESSION 0) ∧
      peers' = peers.set id { node with shard := ⟨true, some shard⟩ } := by
  obtain ⟨⟨w, k, hanswer⟩, rfl, rfl⟩ := openRemote_eq_ok.1 h
  rcases node.loadShard_cases spec with ⟨file, shard, w', k', hloads, heq⟩ | ⟨hne, -⟩
  · obtain rfl : file = model :=
      haddressed id node file hnode hloads.model (hloads.hash.trans hhash.symm)
    exact ⟨shard, hloads.opens, rfl, by rw [heq]⟩
  · exact absurd hanswer (hne w k)

/-- Opening a stage makes and drops no connection. -/
theorem openStage_ends [Debug Response] {stage : Outcome String (Stage C)}
    (h : openStage model hash options peers p = (stage, peers')) : peers'.ends = peers.ends := by
  unfold openStage at h
  cases hhost : p.host with
  | here =>
    rw [hhost] at h
    cases h
    rfl
  | peer id =>
    rw [hhost] at h
    cases hnode : peers id with
    | none =>
      simp only [hnode] at h
      cases h
      rfl
    | some node =>
      simp only [hnode] at h
      rw [← (Prod.mk.inj h).2]
      exact Peers.ends_set peers id _

theorem openStage_opens [Debug Response] {stage : Stage C}
    (hfacts : ModelFacts.readFile model = .ok facts)
    (hhash : C.hashFile model = .ok hash) (haddressed : ContentAddressed model peers)
    (h : openStage model hash options peers p = (.ok stage, peers')) :
    Opens facts.layers peers p stage peers' := by
  unfold openStage at h
  cases hhost : p.host with
  | here =>
    rw [hhost] at h
    obtain ⟨hstage, rfl⟩ := Prod.mk.inj h
    obtain ⟨shard, hopen, hstage⟩ := Outcome.andThen_eq_ok.1 hstage
    cases hstage
    exact .here hhost (.opened (Outcome.mapErr_eq_ok.1 hopen) hfacts rfl rfl)
  | peer id =>
    rw [hhost] at h
    cases hnode : peers id with
    | none => simp only [hnode] at h; cases h
    | some node =>
      simp only [hnode] at h
      obtain ⟨shard, hopen, rfl, rfl⟩ :=
        openRemote_loads hhash haddressed hnode h
      exact .peer hhost hnode (.opened hopen hfacts rfl rfl)

theorem Opens.contentAddressed {stage : Stage C} (h : Opens layers peers p stage peers')
    (haddressed : ContentAddressed model peers) : ContentAddressed model peers' := by
  cases h with
  | here => exact haddressed
  | @peer id node shard remote _ hnode _ =>
    intro id' node' file hnode' hfile
    by_cases hend : peers.ends id' = peers.ends id
    · rw [Peers.set_same hnode hend] at hnode'
      obtain rfl := Option.some.inj hnode'
      exact haddressed id node file hnode hfile
    · rw [Peers.set_of_ne hend] at hnode'
      exact haddressed id' node' file hnode' hfile

/-- The device that the place is on holds its range, and no other device has changed. -/
theorem Opens.node_cases {stage : Stage C} (h : Opens layers peers p stage peers')
    (device : DeviceId) :
    (p.on peers.ends = some device ∧ Holds layers p (peers'.node device)) ∨
      (p.on peers.ends ≠ some device ∧ peers'.node device = peers.node device) := by
  cases h with
  | here hhost => exact Or.inr ⟨by rw [Placement.on_here hhost]; simp, rfl⟩
  | @peer id node shard remote hhost hnode hcovers =>
    obtain ⟨device', hend, -⟩ := Peers.get_eq_some.1 hnode
    rw [Placement.on_peer hhost, hend, Peers.node_set hend]
    by_cases hdevice : device = device'
    · subst hdevice
      rw [Function.update_self]
      exact Or.inl ⟨rfl, shard, rfl, hcovers⟩
    · exact Or.inr ⟨by simpa using Ne.symm hdevice, Function.update_of_ne hdevice _ _⟩

theorem openStages_cons [Debug Response] {place : Placement} {stages : List (Stage C)}
    (h : openStages model hash options (place :: places) peers = (.ok stages, peers')) :
    ∃ stage rest peers₁, openStage model hash options peers place = (.ok stage, peers₁) ∧
      openStages model hash options places peers₁ = (.ok rest, peers') ∧ stages = stage :: rest := by
  rw [openStages] at h
  rcases hstage : openStage model hash options peers place with ⟨stage | e | m, peers₁⟩
  · rw [hstage] at h
    obtain ⟨hrest, hpeers⟩ := Prod.mk.inj h
    obtain ⟨rest, hrest, hcons⟩ := Outcome.andThen_eq_ok.1 hrest
    exact ⟨stage, rest, peers₁, rfl, Prod.ext hrest hpeers, (Outcome.ok.inj hcons).symm⟩
  · rw [hstage] at h
    cases h
  · rw [hstage] at h
    cases h

/-- The stages do not open without a connection for each id. -/
theorem openStages_connected [Debug Response] {stages : List (Stage C)}
    (h : openStages model hash options places peers = (.ok stages, peers')) :
    ¬ Unconnected peers.ends places := by
  induction places generalizing peers stages with
  | nil =>
    rintro ⟨p, hp, -⟩
    cases hp
  | cons p rest ih =>
    obtain ⟨stage, stages, peers₁, hstage, hrest, rfl⟩ := openStages_cons h
    rintro ⟨q, hq, id, hhost, hnone⟩
    rcases List.mem_cons.1 hq with rfl | hq
    · have hnode : peers id = none := Option.map_eq_none_iff.2 hnone
      unfold openStage at hstage
      simp only [hhost, hnode] at hstage
      cases hstage
    · exact ih hrest ⟨q, hq, id, hhost, by rw [openStage_ends hstage, hnone]⟩

/-- **Every stage serves the range its device loaded last**, and a device on which nothing was placed
is as it was. -/
theorem openStages_serves [Debug Response] {stages : List (Stage C)}
    (hfacts : ModelFacts.readFile model = .ok facts) (hhash : C.hashFile model = .ok hash)
    (haddressed : ContentAddressed model peers)
    (h : openStages model hash options places peers = (.ok stages, peers')) :
    AllFit (fun p (stage : Stage C) peers => stage.Serves facts.layers p peers)
        (effective peers.ends places) stages peers' ∧ peers'.ends = peers.ends ∧
      ∀ device, (∃ q, lastOn peers.ends device places = some q ∧
          Holds facts.layers q (peers'.node device)) ∨
        (lastOn peers.ends device places = none ∧ peers'.node device = peers.node device) := by
  induction places generalizing peers stages with
  | nil =>
    cases h
    exact ⟨.nil, rfl, fun device => Or.inr ⟨rfl, rfl⟩⟩
  | cons p rest ih =>
    obtain ⟨stage, stages, peers₁, hstage, hrest, rfl⟩ := openStages_cons h
    have hopens := openStage_opens hfacts hhash haddressed hstage
    obtain ⟨hserves, hends, hdevices⟩ := ih (hopens.contentAddressed haddressed) hrest
    rw [openStage_ends hstage] at hserves hends hdevices
    refine ⟨.cons ?_ hserves, hends, fun device => ?_⟩
    · cases hopens with
      | here hhost hcovers => rwa [heldFor_none (Placement.on_here hhost)]
      | @peer id node shard remote hhost hnode hcovers =>
        -- a later place on the same device replaces the shard
        obtain ⟨device, hend, -⟩ := Peers.get_eq_some.1 hnode
        have hget : peers' id = some (peers'.node device) :=
          Peers.get_eq_some.2 ⟨device, by rw [hends, hend], rfl⟩
        rw [heldFor_some ((Placement.on_peer hhost).trans hend)]
        rcases hdevices device with ⟨q, hq, hholds⟩ | ⟨hnone, hsame⟩
        · rw [hq]
          exact ⟨_, hget, hholds⟩
        · rw [hnone]
          refine ⟨_, hget, shard, ?_, hcovers⟩
          rw [hsame, Peers.node_set hend, Function.update_self]
    · rw [lastOn]
      rcases hdevices device with ⟨q, hq, hholds⟩ | ⟨hnone, hsame⟩
      · exact Or.inl ⟨q, by rw [hq]; rfl, hholds⟩
      · rw [hnone, Option.none_or]
        rcases hopens.node_cases device with ⟨hon, hholds⟩ | ⟨hon, hsame'⟩
        · exact Or.inl ⟨p, if_pos hon, by rwa [hsame]⟩
        · exact Or.inr ⟨if_neg hon, hsame.trans hsame'⟩

/-- What a pipeline that is open has gone through. -/
theorem Pipeline.openWith_opened [Debug Response] {pipeline : Pipeline C}
    (h : openWith model facts options peers = (.ok pipeline, peers')) :
    ∃ hash stages, C.hashFile model = .ok hash ∧ checkTiling options.places facts.layers = .ok () ∧
      openStages model hash options options.places peers = (.ok stages, peers') ∧
      pipeline = ⟨stages⟩ := by
  unfold openWith at h
  cases hhash : C.hashFile model with
  | error e => rw [hhash] at h; cases h
  | ok hash =>
    rw [hhash] at h
    cases htiling : checkTiling options.places facts.layers with
    | error e => rw [htiling] at h; cases h
    | ok u =>
      rw [htiling] at h
      obtain ⟨hstages, hpeers⟩ := Prod.mk.inj h
      obtain ⟨stages, hopened, hpipeline⟩ := Outcome.andThen_eq_ok.1 hstages
      exact ⟨hash, stages, rfl, rfl, Prod.ext hopened hpeers, (Outcome.ok.inj hpipeline).symm⟩

theorem Pipeline.openWith_connected [Debug Response] {pipeline : Pipeline C}
    (h : openWith model facts options peers = (.ok pipeline, peers')) :
    ¬ Unconnected peers.ends options.places := by
  obtain ⟨hash, stages, -, -, hopened, -⟩ := openWith_opened h
  exact openStages_connected hopened

/-- Once the pipeline is open, the placements are a tiling and the stages serve the ranges the
devices are left with. -/
theorem Pipeline.openWith_serves [Debug Response] {pipeline : Pipeline C}
    (hfacts : ModelFacts.readFile model = .ok facts) (haddressed : ContentAddressed model peers)
    (h : openWith model facts options peers = (.ok pipeline, peers')) :
    Tiles facts.layers 0 options.places ∧
      pipeline.Serves facts.layers (effective peers.ends options.places) peers' := by
  obtain ⟨hash, stages, hhash, htiling, hopened, rfl⟩ := openWith_opened h
  exact ⟨checkTiling_eq_ok.1 htiling, (openStages_serves hfacts hhash haddressed hopened).1⟩

end Daemon

end Latticed
