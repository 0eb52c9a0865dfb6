import Latticed.Daemon.Node
import Latticed.Engine.Samples
import Latticed.LTS.Basic

/-!
# Two masters of one device

A device answers every trusted peer.  It has one shard and the shard has one cache, and all that
keeps two masters apart is the number of the session in the header of a stream, which each master
chooses.  The requests and steps of the two reach the device in any order.

* `Simulates.next` : the device that serves both masters and the one that serves the first alone go on
  together; whether their caches agree is accounted for beside them.
* `answer_alone` : what the device returns to a master on its own shard is what it would return to it
  alone, unless the step goes on with a cache that the other master has worked on.
* `own_of_apart` : a cache stays the master's own while nothing is read from streams of the other master
  with its session.
* `holds_of_keptApart` : so it does after a prefill that has started it.
* `answer_alone_fails` : otherwise it may be something else.
-/

namespace Latticed

namespace Daemon

open Engine Net Rust

variable {C : Candle}

/-! ### The device and its two masters -/

/-- What a master does. -/
inductive Act where
  /-- It asks for a shard. -/
  | load (spec : ShardSpec)
  /-- It opens an activation stream with a session of its choice. -/
  | openStream (stream : ℕ) (session : UInt64)
  /-- The device reads from a stream: a frame and what it decodes to, or its end. -/
  | read (stream : ℕ) (frame : Option (Except String Step))
  deriving DecidableEq

/-- An act of one of the two masters. -/
structure MasterEvent where
  sender : Side
  act : Act

/-- The device, with the streams that are open. -/
structure Follower (C : Candle) where
  node : Node C
  /-- The session in the header of each open stream. -/
  streams : Side → ℕ → Option UInt64
  /-- Whose `LoadShard` request was accepted last.  The device does not keep this. -/
  loadedBy : Option Side

namespace Follower

/-- The device before anybody talks to it. -/
def fresh (node : Node C) : Follower C := ⟨node, fun _ _ => none, none⟩

/-- Sets or removes a stream. -/
def setStream (f : Follower C) (sender : Side) (stream : ℕ) (session : Option UInt64) :
    Side → ℕ → Option UInt64 :=
  Function.update f.streams sender (Function.update (f.streams sender) stream session)

/-- A `LoadShard` request. -/
def load (f : Follower C) (sender : Side) (spec : ShardSpec) : Follower C :=
  let (answer, node) := f.node.loadShard spec
  match answer with
  | .ok (.shardLoaded _ _) => { f with node, loadedBy := some sender }
  | _ => { f with node }

/-- Whether a `LoadShard` request is accepted. -/
def accepts (f : Follower C) (spec : ShardSpec) : Bool :=
  match (f.node.loadShard spec).1 with
  | .ok (.shardLoaded _ _) => true
  | _ => false

/-- What the device reads from a stream of `session`, and the answer it sends. -/
def serve (f : Follower C) (sender : Side) (stream : ℕ) (session : UInt64)
    (frame : Option (Except String Step)) : Option StepResult × Follower C :=
  match serveRead frame with
  | .run step =>
    let call := f.node.run session step
    (some (.ofExcept call.result), { f with node := call.state })
  | .stop reply =>
    (reply, { f with node := f.node.dropSession session,
                     streams := f.setStream sender stream none })

/-- The device after an act, and what it sends on the stream. -/
def act (f : Follower C) (sender : Side) : Act → Option StepResult × Follower C
  | .load spec => (none, f.load sender spec)
  | .openStream stream session =>
    match f.streams sender stream with
    | some _ => (none, f)
    | none => (none, { f with streams := f.setStream sender stream (some session) })
  | .read stream frame =>
    match f.streams sender stream with
    | none => (none, f)
    | some session => f.serve sender stream session frame

/-- The device after an event. -/
def next (f : Follower C) (e : MasterEvent) : Follower C := (f.act e.sender e.act).2

/-- The payload the device returns in an event, if it returns one. -/
def returned (f : Follower C) (e : MasterEvent) : Option Payload :=
  match (f.act e.sender e.act).1 with
  | some (.output payload) => some payload
  | _ => none

/-- The session that is in the cache. -/
def active (f : Follower C) : Option UInt64 := f.node.shard.held.bind CandleShard.active

end Follower

/-- The device after some events. -/
def served (node : Node C) (events : List MasterEvent) : Follower C :=
  events.foldl Follower.next (.fresh node)

/-- The device that serves both masters, and the device that serves master `a` alone. -/
structure TwoRuns (C : Candle) where
  both : Follower C
  alone : Follower C
  /-- The cache of `both` is what the steps of `a` have made of it since it was last emptied for them.
  Neither device keeps this. -/
  own : Bool

namespace TwoRuns

/-- The step does not go on with a cache that master `b` has worked on.  A prefill at position 0 goes on
with nothing, and so does one of a session that is in neither cache; a decode of a session that is not
in the cache is refused. -/
def Keeps (r : TwoRuns C) (session : UInt64) : Step → Prop
  | .prefill pos _ => pos = 0 ∨ r.own = true ∨
      (r.both.active ≠ some session ∧ r.alone.active ≠ some session)
  | .decode _ _ => r.both.active = some session → r.own = true
  | .done => True

instance (r : TwoRuns C) (session : UInt64) : (step : Step) → Decidable (r.Keeps session step)
  | .prefill _ _ => inferInstanceAs (Decidable (_ ∨ _ ∨ _ ∧ _))
  | .decode _ _ => inferInstanceAs (Decidable (_ → _))
  | .done => inferInstanceAs (Decidable True)

/-- Whether the cache is that of master `a` after it has read a frame.  A prefill empties the cache,
unless it goes on. -/
def ownRead (r : TwoRuns C) (session : UInt64) : Option (Except String Step) → Bool
  | some (.ok (.prefill pos input)) => decide (r.Keeps session (.prefill pos input))
  | _ => r.own

/-- Whether the cache is that of master `a` after an act.  Master `b` works on it when its session is in
the cache before the act or after it. -/
def ownAfter (r : TwoRuns C) : Side → Act → Bool
  | .a, .load spec => r.own || r.both.accepts spec
  | .a, .read stream frame =>
    match r.both.streams .a stream with
    | none => r.own
    | some session => r.ownRead session frame
  | .b, .read stream frame =>
    match r.both.streams .b stream with
    | none => r.own
    | some session => r.own && decide (r.both.active ≠ some session) &&
        decide ((r.both.serve .b stream session frame).2.active ≠ some session)
  | _, _ => r.own

/-- The devices after an event. -/
def next (r : TwoRuns C) (e : MasterEvent) : TwoRuns C where
  both := r.both.next e
  alone := if e.sender = .a then r.alone.next e else r.alone
  own := r.ownAfter e.sender e.act

/-- The event is no step of master `a`, or one that keeps to its own cache. -/
def Kept (r : TwoRuns C) (e : MasterEvent) : Prop :=
  ∀ stream session step, e = ⟨.a, .read stream (some (.ok step))⟩ →
    r.both.streams .a stream = some session → r.Keeps session step

end TwoRuns

/-- The shards have the same weights, and the same cache if it is `own`. -/
structure Corresponds (own : Bool) (s t : CandleShard C) : Prop where
  weights : s.SameWeights t
  cache : own = true → s.Agrees t

variable {own own' : Bool} {s t : CandleShard C} {session : UInt64}

theorem Corresponds.of_agrees (h : s.Agrees t) : Corresponds own s t := ⟨h.sameWeights, fun _ => h⟩

/-- **A prefill that starts over, or goes on with its own cache**, is the same to both shards. -/
theorem Corresponds.prefill (h : Corresponds own s t) {pos : UInt32}
    (hkeeps : pos = 0 ∨ own = true ∨ (s.active ≠ some session ∧ t.active ≠ some session))
    (input : Payload) :
    (t.prefill session pos input).result = (s.prefill session pos input).result ∧
      (s.prefill session pos input).state.Agrees (t.prefill session pos input).state := by
  have hcleared := (h.weights.cleared (some session)).run input pos
  by_cases hgoes : own = true ∧ s.active = some session ∧ pos ≠ 0
  · obtain ⟨hown, hactive, hpos⟩ := hgoes
    have hagrees := h.cache hown
    have hs : ¬ (s.active ≠ some session ∨ pos = 0) := not_or.2 ⟨not_not.2 hactive, hpos⟩
    have ht : ¬ (t.active ≠ some session ∨ pos = 0) := by rwa [hagrees.active]
    unfold CandleShard.prefill
    rw [if_neg hs, if_neg ht]
    exact hagrees.run input pos
  · have hs : s.active ≠ some session ∨ pos = 0 := by
      rcases hkeeps with hpos | hown | ⟨hactive, -⟩
      · exact Or.inr hpos
      · by_cases hpos : pos = 0
        · exact Or.inr hpos
        · exact Or.inl fun hactive => hgoes ⟨hown, hactive, hpos⟩
      · exact Or.inl hactive
    have ht : t.active ≠ some session ∨ pos = 0 := by
      rcases hkeeps with hpos | hown | ⟨-, hactive⟩
      · exact Or.inr hpos
      · rwa [(h.cache hown).active]
      · exact Or.inl hactive
    unfold CandleShard.prefill
    rw [if_pos hs, if_pos ht]
    exact hcleared

theorem Corresponds.prefill_weights (h : Corresponds own s t) (session : UInt64) (pos : UInt32)
    (input : Payload) :
    (s.prefill session pos input).state.SameWeights (t.prefill session pos input).state :=
  (s.prefill_sameWeights session pos input).symm.trans
    (h.weights.trans (t.prefill_sameWeights session pos input))

/-- **A decode on its own cache** is the same to both shards, and any other that returns finds its session
in a cache that is not its own. -/
theorem Corresponds.decode (h : Corresponds own s t) (session : UInt64) (pos : UInt32)
    (input : Payload) :
    ((s.active = some session → own = true) → ∀ y, (s.decode session pos input).result = .ok y →
      (t.decode session pos input).result = .ok y) ∧
    Corresponds own (s.decode session pos input).state (t.decode session pos input).state := by
  have hsame (hown : own = true) :
      (t.decode session pos input).result = (s.decode session pos input).result ∧
        (s.decode session pos input).state.Agrees (t.decode session pos input).state := by
    have hagrees := h.cache hown
    unfold CandleShard.decode
    rw [hagrees.active]
    split_ifs
    · exact ⟨rfl, hagrees⟩
    · exact hagrees.run input pos
  refine ⟨fun hkeeps y hy => ?_, ?_, fun hown => (hsame hown).2⟩
  · have hactive : s.active = some session := by
      by_contra hne
      have hrefused : s.decode session pos input = .pure (.error (.unknownSession session)) s :=
        if_pos hne
      rw [hrefused] at hy
      cases hy
    exact (hsame (hkeeps hactive)).1.trans hy
  · exact (s.decode_sameWeights session pos input).symm.trans
      (h.weights.trans (t.decode_sameWeights session pos input))

theorem Corresponds.dropSession (h : Corresponds own s t) (session : UInt64) :
    Corresponds own (s.dropSession session) (t.dropSession session) := by
  refine ⟨(s.dropSession_sameWeights session).symm.trans
    (h.weights.trans (t.dropSession_sameWeights session)), fun hown => ?_⟩
  have hagrees := h.cache hown
  unfold CandleShard.dropSession
  rw [hagrees.active]
  split_ifs
  · exact hagrees.cleared none
  · exact hagrees

/-! ### Corresponding devices -/

/-- The threads hold corresponding shards, or none. -/
def HeldCorresponds (own : Bool) : Option (CandleShard C) → Option (CandleShard C) → Prop
  | none, none => True
  | some s, some t => Corresponds own s t
  | _, _ => False

/-- The device that serves both masters has the streams of master `a` in common with the one that serves
`a` alone, and as long as `a` loaded it the shard, and the cache if that is its own. -/
structure Simulates (r : TwoRuns C) : Prop where
  streams : r.alone.streams .a = r.both.streams .a
  model : r.alone.node.model = r.both.node.model
  shard : r.both.node.shard.alive = false ∨
    (r.both.node.shard.alive = true ∧ r.alone.node.shard.alive = true ∧
      (r.both.loadedBy ≠ some .b →
        HeldCorresponds r.own r.both.node.shard.held r.alone.node.shard.held))

theorem HeldCorresponds.refl (held : Option (CandleShard C)) : HeldCorresponds own held held := by
  cases held with
  | none => trivial
  | some s => exact .of_agrees (.refl s)

/-- Whatever happens to the first shard on behalf of somebody else. -/
theorem Corresponds.foreign {s' : CandleShard C} (h : Corresponds own s t)
    (hweights : s.SameWeights s') (hown : own' = true → own = true ∧ s' = s) :
    Corresponds own' s' t := by
  refine ⟨hweights.symm.trans h.weights, fun htrue => ?_⟩
  obtain ⟨hbefore, rfl⟩ := hown htrue
  exact h.cache hbefore

/-- A step of master `a`. -/
theorem HeldCorresponds.runStep {r : TwoRuns C}
    (h : HeldCorresponds r.own r.both.node.shard.held r.alone.node.shard.held) (session : UInt64)
    (step : Step) :
    (r.Keeps session step →
      ∀ y, (ShardThread.runStep r.both.node.shard.held session step).result = .ok y →
        (ShardThread.runStep r.alone.node.shard.held session step).result = .ok y) ∧
    HeldCorresponds (r.ownRead session (some (.ok step)))
      (ShardThread.runStep r.both.node.shard.held session step).state
      (ShardThread.runStep r.alone.node.shard.held session step).state := by
  obtain ⟨⟨⟨model, ⟨alive, held⟩⟩, streams, loadedBy⟩, ⟨⟨model', ⟨alive', held'⟩⟩, streams', loadedBy'⟩,
    own⟩ := r
  dsimp only at h ⊢
  cases held with
  | none =>
    cases held' with
    | none => exact ⟨fun _ y hy => (by cases hy), trivial⟩
    | some t => exact h.elim
  | some s =>
    cases held' with
    | none => exact h.elim
    | some t =>
      have hcorresponds : Corresponds own s t := h
      cases step with
      | prefill pos input =>
        refine ⟨fun hkeeps y hy => ?_, ?_, fun hown => ?_⟩
        · obtain ⟨hresult, -⟩ := hcorresponds.prefill hkeeps input
          exact mapError_eq_ok.2 (hresult.trans (mapError_eq_ok.1 hy))
        · exact hcorresponds.prefill_weights session pos input
        · exact (hcorresponds.prefill (of_decide_eq_true hown) input).2
      | decode pos input =>
        obtain ⟨hresult, hstate⟩ := hcorresponds.decode session pos input
        refine ⟨fun hkeeps y hy => ?_, hstate⟩
        exact mapError_eq_ok.2 (hresult hkeeps y (mapError_eq_ok.1 hy))
      | done => exact ⟨fun _ y hy => (by cases hy), h⟩

/-- A step of master `b` on the shard that is shared. -/
theorem HeldCorresponds.runStep_foreign {held held' : Option (CandleShard C)}
    (h : HeldCorresponds own held held') (session : UInt64) (step : Step)
    (hown : own' = true → own = true ∧ held.bind CandleShard.active ≠ some session ∧
      (ShardThread.runStep held session step).state.bind CandleShard.active ≠ some session) :
    HeldCorresponds own' (ShardThread.runStep held session step).state held' := by
  cases held with
  | none =>
    cases held' with
    | none => trivial
    | some t => exact h.elim
  | some s =>
    cases held' with
    | none => exact h.elim
    | some t =>
      have hcorresponds : Corresponds own s t := h
      cases step with
      | prefill pos input =>
        refine hcorresponds.foreign (s.prefill_sameWeights session pos input) fun htrue => ?_
        -- the session of a prefill is in the cache after it
        exact absurd (s.prefill_active session pos input) (hown htrue).2.2
      | decode pos input =>
        refine hcorresponds.foreign (s.decode_sameWeights session pos input) fun htrue => ?_
        obtain ⟨hbefore, hactive, -⟩ := hown htrue
        have hrefused : s.decode session pos input = .pure (.error (.unknownSession session)) s :=
          if_pos hactive
        exact ⟨hbefore, congrArg Call.state hrefused⟩
      | done =>
        exact hcorresponds.foreign (CandleShard.Agrees.refl s).sameWeights
          fun htrue => ⟨(hown htrue).1, rfl⟩

/-- The end of a stream of master `a`. -/
theorem HeldCorresponds.drop {held held' : Option (CandleShard C)}
    (h : HeldCorresponds own held held') (session : UInt64) :
    HeldCorresponds own (held.map (·.dropSession session)) (held'.map (·.dropSession session)) := by
  cases held with
  | none => cases held' with
    | none => trivial
    | some t => exact h.elim
  | some s => cases held' with
    | none => exact h.elim
    | some t => exact Corresponds.dropSession h session

/-- The end of a stream of master `b`. -/
theorem HeldCorresponds.drop_foreign {held held' : Option (CandleShard C)}
    (h : HeldCorresponds own held held') (session : UInt64)
    (hown : own' = true → own = true ∧ held.bind CandleShard.active ≠ some session) :
    HeldCorresponds own' (held.map (·.dropSession session)) held' := by
  cases held with
  | none => cases held' with
    | none => trivial
    | some t => exact h.elim
  | some s => cases held' with
    | none => exact h.elim
    | some t =>
      refine Corresponds.foreign h (s.dropSession_sameWeights session) fun htrue => ?_
      exact ⟨(hown htrue).1, if_neg (hown htrue).2⟩

/-! ### One event -/

namespace Follower

@[simp] theorem setStream_self (f : Follower C) (sender : Side) (stream : ℕ)
    (session : Option UInt64) : f.setStream sender stream session sender =
      Function.update (f.streams sender) stream session := Function.update_self sender _ _

theorem setStream_of_ne (f : Follower C) {sender side : Side} (h : side ≠ sender) (stream : ℕ)
    (session : Option UInt64) : f.setStream sender stream session side = f.streams side :=
  Function.update_of_ne h _ _

theorem load_of_ne {f : Follower C} {spec : ShardSpec}
    (hne : ∀ weightBytes kvBytes,
      (f.node.loadShard spec).1 ≠ .ok (.shardLoaded weightBytes kvBytes))
    (sender : Side) : f.load sender spec = { f with node := (f.node.loadShard spec).2 } := by
  revert hne
  rw [load]
  rcases f.node.loadShard spec with ⟨response | e | m, node⟩ <;> intro hne
  · cases response with
    | shardLoaded weightBytes kvBytes => exact absurd rfl (hne weightBytes kvBytes)
    | _ => rfl
  · exact e.elim
  · rfl

theorem accepts_of_ne {f : Follower C} {spec : ShardSpec}
    (hne : ∀ weightBytes kvBytes,
      (f.node.loadShard spec).1 ≠ .ok (.shardLoaded weightBytes kvBytes)) :
    f.accepts spec = false := by
  unfold accepts
  split
  · rename_i h
    exact absurd h (hne _ _)
  · rfl

theorem load_frame (f : Follower C) (sender : Side) (spec : ShardSpec) :
    (f.load sender spec).streams = f.streams ∧ (f.load sender spec).node.model = f.node.model := by
  rcases f.node.loadShard_cases spec with ⟨file, shard, w, k, -, h⟩ | ⟨hne, hnode⟩
  · rw [load, h]
    exact ⟨rfl, rfl⟩
  · rw [load_of_ne hne]
    exact ⟨rfl, by rcases hnode with h | h <;> rw [h]⟩

/-- A dead thread loads nothing. -/
theorem load_dead {f : Follower C} (h : f.node.shard.alive = false) (sender : Side)
    (spec : ShardSpec) : (f.load sender spec).node.shard.alive = false := by
  rcases f.node.loadShard_cases spec with ⟨file, shard, w, k, hloads, -⟩ | ⟨hne, -⟩
  · exact absurd (h.symm.trans hloads.alive) Bool.false_ne_true
  · rw [load_of_ne hne]
    exact (Node.loadShard_dead h spec).1

/-- **What a `LoadShard` request does to a device** depends on the file it serves, not on the shard it
holds or on who else uses it. -/
theorem load_alive (model : Option C.File) (sender : Side) (spec : ShardSpec) :
    (∃ shard, ∀ f : Follower C, f.node.model = model → f.node.shard.alive = true →
      f.load sender spec =
        { f with node := ⟨model, ⟨true, some shard⟩⟩, loadedBy := some sender }) ∨
    (∀ f : Follower C, f.node.model = model → f.node.shard.alive = true →
      f.load sender spec = f ∧ f.accepts spec = false) ∨
    ∀ f : Follower C, f.node.model = model → f.node.shard.alive = true →
      f.load sender spec = { f with node := ⟨model, .gone⟩ } := by
  rcases Node.loadShard_alive model spec with ⟨shard, w, k, h⟩ | ⟨answer, hne, h | h⟩
  · refine Or.inl ⟨shard, ?_⟩
    rintro ⟨⟨_, _, held⟩, streams, loadedBy⟩ rfl rfl
    rw [load, h]
  · refine Or.inr (Or.inl ?_)
    rintro ⟨⟨_, _, held⟩, streams, loadedBy⟩ rfl rfl
    refine ⟨?_, accepts_of_ne (by rw [h held]; exact hne)⟩
    rw [load_of_ne (by rw [h held]; exact hne), h held]
  · refine Or.inr (Or.inr ?_)
    rintro ⟨⟨_, _, held⟩, streams, loadedBy⟩ rfl rfl
    rw [load_of_ne (by rw [h held]; exact hne), h held]

theorem returned_eq_some {f : Follower C} {e : MasterEvent} {y : Payload} :
    f.returned e = some y ↔ (f.act e.sender e.act).1 = some (.output y) := by
  unfold returned
  rcases (f.act e.sender e.act).1 with _ | (payload | why) <;> simp

theorem serve_run (f : Follower C) (sender : Side) (stream : ℕ) (session : UInt64)
    {frame : Option (Except String Step)} {step : Step} (h : serveRead frame = .run step) :
    f.serve sender stream session frame =
      (some (.ofExcept (f.node.run session step).result),
        { f with node := (f.node.run session step).state }) := by
  rw [serve, h]

theorem serve_stop (f : Follower C) (sender : Side) (stream : ℕ) (session : UInt64)
    {frame : Option (Except String Step)} {reply : Option StepResult}
    (h : serveRead frame = .stop reply) :
    f.serve sender stream session frame =
      (reply, { f with node := f.node.dropSession session,
                       streams := f.setStream sender stream none }) := by
  rw [serve, h]

end Follower

/-- What the device reads from a stream is a step for the shard, or ends the stream. -/
theorem serveRead_cases (frame : Option (Except String Step)) :
    (∃ step, frame = some (.ok step) ∧ serveRead frame = .run step) ∨
      ∃ reply, serveRead frame = .stop reply ∧ (∀ payload, reply ≠ some (.output payload)) ∧
        ∀ pos input, frame ≠ some (.ok (.prefill pos input)) := by
  rcases frame with _ | (e | step)
  · exact Or.inr ⟨none, rfl, fun _ h => (by cases h), fun _ _ h => (by cases h)⟩
  · exact Or.inr ⟨_, rfl, fun _ h => (by cases h), fun _ _ h => (by cases h)⟩
  · cases step with
    | prefill pos input => exact Or.inl ⟨_, rfl, rfl⟩
    | decode pos input => exact Or.inl ⟨_, rfl, rfl⟩
    | done => exact Or.inr ⟨none, rfl, fun _ h => (by cases h), fun _ _ h => (by cases h)⟩

theorem run_dead {node : Node C} (h : node.shard.alive = false) (session : UInt64) (step : Step) :
    node.run session step = .pure (.error "the shard thread is gone") node := by
  unfold Node.run ShardThread.run
  rw [h]
  rfl

theorem run_alive {node : Node C} (h : node.shard.alive = true) (session : UInt64) (step : Step) :
    node.run session step = (ShardThread.runStep node.shard.held session step).lift
      (fun held => { node with shard := ⟨true, held⟩ }) id := by
  unfold Node.run ShardThread.run
  rw [h]
  rfl

variable {r : TwoRuns C}

/-- A `LoadShard` request of master `a`. -/
theorem Simulates.load (h : Simulates r) (spec : ShardSpec) :
    Simulates (r.next ⟨.a, .load spec⟩) := by
  show Simulates ⟨r.both.load .a spec, r.alone.load .a spec, r.ownAfter .a (.load spec)⟩
  rcases h.shard with hdead | ⟨halive, halive', hheld⟩
  · obtain ⟨hstreams, hmodel⟩ := r.both.load_frame .a spec
    obtain ⟨hstreams', hmodel'⟩ := r.alone.load_frame .a spec
    refine ⟨?_, ?_, Or.inl (Follower.load_dead hdead .a spec)⟩
    · rw [hstreams, hstreams', h.streams]
    · rw [hmodel, hmodel', h.model]
  · rcases Follower.load_alive r.both.node.model .a spec with ⟨shard, hload⟩ | hload | hload
    · rw [hload r.both rfl halive, hload r.alone h.model halive']
      exact ⟨h.streams, rfl, Or.inr ⟨rfl, rfl, fun _ => .refl (some shard)⟩⟩
    · obtain ⟨hboth, hrefused⟩ := hload r.both rfl halive
      obtain ⟨halone, -⟩ := hload r.alone h.model halive'
      have hown : r.ownAfter .a (.load spec) = r.own := by
        rw [TwoRuns.ownAfter, hrefused, Bool.or_false]
      rw [hboth, halone, hown]
      exact h
    · rw [hload r.both rfl halive, hload r.alone h.model halive']
      exact ⟨h.streams, rfl, Or.inl rfl⟩

theorem Simulates.load_foreign (h : Simulates r) (spec : ShardSpec) :
    Simulates (r.next ⟨.b, .load spec⟩) := by
  show Simulates ⟨r.both.load .b spec, r.alone, r.own⟩
  rcases h.shard with hdead | ⟨halive, halive', hheld⟩
  · obtain ⟨hstreams, hmodel⟩ := r.both.load_frame .b spec
    refine ⟨?_, h.model.trans hmodel.symm, Or.inl (Follower.load_dead hdead .b spec)⟩
    rw [hstreams, h.streams]
  · rcases Follower.load_alive r.both.node.model .b spec with ⟨shard, hload⟩ | hload | hload
    · rw [hload r.both rfl halive]
      exact ⟨h.streams, h.model, Or.inr ⟨rfl, halive', fun hloaded => absurd rfl hloaded⟩⟩
    · rw [(hload r.both rfl halive).1]
      exact h
    · rw [hload r.both rfl halive]
      exact ⟨h.streams, h.model, Or.inl rfl⟩

/-- What the device reads from a stream of master `a`. -/
theorem Simulates.serve (h : Simulates r) (stream : ℕ) (session : UInt64)
    (frame : Option (Except String Step)) :
    Simulates ⟨(r.both.serve .a stream session frame).2, (r.alone.serve .a stream session frame).2,
      r.ownRead session frame⟩ := by
  rcases serveRead_cases frame with ⟨step, rfl, hread⟩ | ⟨reply, hread, -, hframe⟩
  · rw [r.both.serve_run _ _ _ hread, r.alone.serve_run _ _ _ hread]
    rcases h.shard with hdead | ⟨halive, halive', hheld⟩
    · rw [run_dead hdead]
      exact ⟨h.streams, h.model, Or.inl hdead⟩
    · rw [run_alive halive, run_alive halive']
      exact ⟨h.streams, h.model,
        Or.inr ⟨rfl, rfl, fun hloaded => ((hheld hloaded).runStep session step).2⟩⟩
  · rw [r.both.serve_stop _ _ _ hread, r.alone.serve_stop _ _ _ hread]
    refine ⟨?_, h.model, ?_⟩
    · show r.alone.setStream .a stream none .a = r.both.setStream .a stream none .a
      rw [Follower.setStream_self, Follower.setStream_self, h.streams]
    · have hown : r.ownRead session frame = r.own := by
        unfold TwoRuns.ownRead
        split
        · exact absurd rfl (hframe _ _)
        · rfl
      rw [hown]
      rcases h.shard with hdead | ⟨halive, halive', hheld⟩
      · exact Or.inl hdead
      · exact Or.inr ⟨halive, halive', fun hloaded => (hheld hloaded).drop session⟩

/-- What the device reads from a stream of master `b`. -/
theorem Simulates.serve_foreign (h : Simulates r) (stream : ℕ) (session : UInt64)
    (frame : Option (Except String Step)) {own : Bool} (hown : own = true → r.own = true ∧
      r.both.active ≠ some session ∧ (r.both.serve .b stream session frame).2.active ≠ some session) :
    Simulates ⟨(r.both.serve .b stream session frame).2, r.alone, own⟩ := by
  rcases serveRead_cases frame with ⟨step, rfl, hread⟩ | ⟨reply, hread, -⟩
  · rw [r.both.serve_run _ _ _ hread] at hown ⊢
    rcases h.shard with hdead | ⟨halive, halive', hheld⟩
    · rw [run_dead hdead]
      exact ⟨h.streams, h.model, Or.inl hdead⟩
    · rw [run_alive halive] at hown ⊢
      refine ⟨h.streams, h.model, Or.inr ⟨rfl, halive', fun hloaded => ?_⟩⟩
      exact (hheld hloaded).runStep_foreign session step hown
  · rw [r.both.serve_stop _ _ _ hread]
    refine ⟨?_, h.model, ?_⟩
    · show r.alone.streams .a = r.both.setStream .b stream none .a
      rw [Follower.setStream_of_ne _ (by decide : Side.a ≠ Side.b), h.streams]
    · rcases h.shard with hdead | ⟨halive, halive', hheld⟩
      · exact Or.inl hdead
      · refine Or.inr ⟨halive, halive', fun hloaded => ?_⟩
        exact (hheld hloaded).drop_foreign session fun htrue => ⟨(hown htrue).1, (hown htrue).2.1⟩

/-- **The two devices go on together**, whoever acts. -/
theorem Simulates.next (h : Simulates r) (e : MasterEvent) : Simulates (r.next e) := by
  obtain ⟨sender, act⟩ := e
  have hstreams := congrFun h.streams
  cases sender with
  | a =>
    cases act with
    | load spec => exact h.load spec
    | openStream stream session =>
      show Simulates ⟨(r.both.act .a (.openStream stream session)).2,
        (r.alone.act .a (.openStream stream session)).2, r.own⟩
      unfold Follower.act
      dsimp only
      rw [hstreams stream]
      cases r.both.streams .a stream with
      | some other => exact h
      | none =>
        refine ⟨?_, h.model, h.shard⟩
        show r.alone.setStream .a stream (some session) .a = r.both.setStream .a stream (some session) .a
        rw [Follower.setStream_self, Follower.setStream_self, h.streams]
    | read stream frame =>
      show Simulates ⟨(r.both.act .a (.read stream frame)).2, (r.alone.act .a (.read stream frame)).2,
        r.ownAfter .a (.read stream frame)⟩
      unfold Follower.act TwoRuns.ownAfter
      dsimp only
      rw [hstreams stream]
      cases r.both.streams .a stream with
      | none => exact h
      | some session => exact h.serve stream session frame
  | b =>
    cases act with
    | load spec => exact h.load_foreign spec
    | openStream stream session =>
      show Simulates ⟨(r.both.act .b (.openStream stream session)).2, r.alone, r.own⟩
      unfold Follower.act
      dsimp only
      cases r.both.streams .b stream with
      | some other => exact h
      | none =>
        refine ⟨?_, h.model, h.shard⟩
        show r.alone.streams .a = r.both.setStream .b stream (some session) .a
        rw [Follower.setStream_of_ne _ (by decide : Side.a ≠ Side.b), h.streams]
    | read stream frame =>
      show Simulates ⟨(r.both.act .b (.read stream frame)).2, r.alone,
        r.ownAfter .b (.read stream frame)⟩
      unfold Follower.act TwoRuns.ownAfter
      dsimp only
      cases r.both.streams .b stream with
      | none => exact h
      | some session =>
        refine h.serve_foreign stream session frame fun htrue => ?_
        dsimp only at htrue
        rw [Bool.and_eq_true, Bool.and_eq_true] at htrue
        exact ⟨htrue.1.1, of_decide_eq_true htrue.1.2, of_decide_eq_true htrue.2⟩

/-- What the device returns to master `a` on its own shard, in a step that keeps to its own cache, it
returns to it alone. -/
theorem Simulates.returned {e : MasterEvent} (ha : e.sender = .a) (h : Simulates r)
    (hloaded : r.both.loadedBy ≠ some .b) (hkept : r.both.node.shard.alive = true → r.Kept e)
    {y : Payload} (hy : r.both.returned e = some y) : r.alone.returned e = some y := by
  obtain ⟨_, act⟩ := e
  obtain rfl := ha
  rw [Follower.returned_eq_some] at hy ⊢
  cases act with
  | load spec => cases hy
  | openStream stream session =>
    simp only [Follower.act] at hy
    cases hopen : r.both.streams .a stream <;> rw [hopen] at hy <;> cases hy
  | read stream frame =>
    have hstream : r.alone.streams .a stream = r.both.streams .a stream := congrFun h.streams stream
    simp only [Follower.act, hstream] at hy ⊢
    cases hopen : r.both.streams .a stream with
    | none => rw [hopen] at hy; cases hy
    | some session =>
      rw [hopen] at hy
      dsimp only at hy ⊢
      rcases serveRead_cases frame with ⟨step, rfl, hread⟩ | ⟨reply, hread, hreply, -⟩
      · rw [r.both.serve_run _ _ _ hread] at hy
        rw [r.alone.serve_run _ _ _ hread]
        have hok := StepResult.ofExcept_eq_output.1 (Option.some.inj hy)
        rcases h.shard with hdead | ⟨halive, halive', hheld⟩
        · rw [run_dead hdead] at hok
          cases hok
        · rw [run_alive halive] at hok
          have hkeeps := hkept halive stream session step rfl hopen
          have hsame := ((hheld hloaded).runStep session step).1 hkeeps y hok
          rw [run_alive halive']
          exact congrArg some (StepResult.ofExcept_eq_output.2 hsame)
      · rw [r.both.serve_stop _ _ _ hread] at hy
        exact absurd hy (hreply y)

/-! ### Sessions that are kept apart -/

/-- A `LoadShard` request takes the session off the cache, or changes nothing. -/
theorem Follower.load_active (f : Follower C) (sender : Side) (spec : ShardSpec) :
    (f.load sender spec).active = f.active ∨ (f.load sender spec).active = none := by
  rcases f.node.loadShard_cases spec with ⟨file, shard, w, k, hloads, h⟩ | ⟨hne, h | h⟩
  · have hnone : shard.active = none := (CandleShard.openFile_eq_ok hloads.opens).2.2.1
    rw [load, h]
    exact Or.inr hnone
  · rw [load_of_ne hne, h]
    exact Or.inl rfl
  · rw [load_of_ne hne, h]
    exact Or.inr rfl

/-- A prefill brings its session into the cache of a shard that is there, and whatever else is read from a
stream brings none. -/
theorem Follower.serve_active {f : Follower C} (halive : f.node.shard.alive = true) (sender : Side)
    (stream : ℕ) (session : UInt64) (frame : Option (Except String Step)) :
    let after := (f.serve sender stream session frame).2.active
    after = none ∨ (∃ pos input, frame = some (.ok (.prefill pos input)) ∧ after = some session) ∨
      (∀ pos input, frame ≠ some (.ok (.prefill pos input))) ∧ after = f.active := by
  intro after
  unfold after
  rcases serveRead_cases frame with ⟨step, rfl, hread⟩ | ⟨reply, hread, -, hframe⟩
  · have hafter : (f.serve sender stream session (some (.ok step))).2.active =
        (ShardThread.runStep f.node.shard.held session step).state.bind CandleShard.active := by
      rw [f.serve_run _ _ _ hread, run_alive halive]
      rfl
    rw [hafter]
    unfold Follower.active
    cases f.node.shard.held with
    | none => exact Or.inl rfl
    | some s =>
      cases step with
      | prefill pos input =>
        exact Or.inr (Or.inl ⟨pos, input, rfl, s.prefill_active session pos input⟩)
      | decode pos input =>
        refine Or.inr (Or.inr ⟨fun _ _ h => (by cases h), ?_⟩)
        exact s.decode_active session pos input
      | done => exact Or.inr (Or.inr ⟨fun _ _ h => (by cases h), rfl⟩)
  · have hafter : (f.serve sender stream session frame).2.active =
        (f.node.shard.held.map (·.dropSession session)).bind CandleShard.active := by
      rw [f.serve_stop _ _ _ hread]
      rfl
    rw [hafter]
    unfold Follower.active
    cases f.node.shard.held with
    | none => exact Or.inl rfl
    | some s =>
      by_cases hactive : s.active = some session
      · exact Or.inl (congrArg CandleShard.active (if_pos hactive))
      · exact Or.inr (Or.inr ⟨hframe, congrArg CandleShard.active (if_neg hactive)⟩)

theorem Follower.serve_alive (f : Follower C) (sender : Side) (stream : ℕ) (session : UInt64)
    (frame : Option (Except String Step)) :
    (f.serve sender stream session frame).2.node.shard.alive = f.node.shard.alive := by
  rcases serveRead_cases frame with ⟨step, rfl, hread⟩ | ⟨reply, hread, -⟩
  · rw [f.serve_run _ _ _ hread]
    cases halive : f.node.shard.alive with
    | false =>
      rw [run_dead halive]
      exact halive
    | true =>
      rw [run_alive halive]
      rfl
  · rw [f.serve_stop _ _ _ hread]
    rfl

/-- If the session is in the cache of a shard that answers, the cache is that of master `a`. -/
def TwoRuns.Holds (r : TwoRuns C) (session : UInt64) : Prop :=
  r.both.node.shard.alive = true → r.both.active = some session → r.own = true

/-- The event leaves the session to master `a`: it is nothing that is read from a stream of `b` with that
session, and no prefill of `a` that goes on with a cache of `b`. -/
structure TwoRuns.Leaves (r : TwoRuns C) (session : UInt64) (e : MasterEvent) : Prop where
  apart : ∀ stream frame, e = ⟨.b, .read stream frame⟩ → r.both.streams .b stream ≠ some session
  kept : ∀ stream pos input, e = ⟨.a, .read stream (some (.ok (.prefill pos input)))⟩ →
    r.both.streams .a stream = some session → r.Keeps session (.prefill pos input)

theorem TwoRuns.Holds.load (h : r.Holds session) (sender : Side) (spec : ShardSpec) :
    (r.next ⟨sender, .load spec⟩).Holds session := by
  intro (halive : (r.both.load sender spec).node.shard.alive = true)
    (hactive : (r.both.load sender spec).active = some session)
  have hbefore : r.both.node.shard.alive = true := by
    by_contra hdead
    have hgone := Follower.load_dead (Bool.eq_false_iff.2 hdead) sender spec
    rw [halive] at hgone
    cases hgone
  have hown : r.own = true := by
    rcases r.both.load_active sender spec with hsame | hnone
    · exact h hbefore (hsame.symm.trans hactive)
    · rw [hactive] at hnone
      cases hnone
  cases sender with
  | a =>
    show (r.own || r.both.accepts spec) = true
    rw [hown, Bool.true_or]
  | b => exact hown

theorem TwoRuns.Holds.openStream (h : r.Holds session) (sender : Side) (stream : ℕ)
    (other : UInt64) : (r.next ⟨sender, .openStream stream other⟩).Holds session := by
  have hnode : (r.both.act sender (.openStream stream other)).2.node = r.both.node := by
    unfold Follower.act
    dsimp only
    cases r.both.streams sender stream <;> rfl
  intro (halive : (r.both.act sender (.openStream stream other)).2.node.shard.alive = true)
    (hactive : (r.both.act sender (.openStream stream other)).2.node.shard.held.bind
      CandleShard.active = some session)
  rw [hnode] at halive hactive
  cases sender <;> exact h halive hactive

theorem TwoRuns.Holds.read (h : r.Holds session) {sender : Side} {stream : ℕ}
    {frame : Option (Except String Step)} (hleaves : r.Leaves session ⟨sender, .read stream frame⟩) :
    (r.next ⟨sender, .read stream frame⟩).Holds session := by
  unfold TwoRuns.next TwoRuns.Holds TwoRuns.ownAfter Follower.next Follower.act
  dsimp only
  cases hopen : r.both.streams sender stream with
  | none => cases sender <;> (dsimp only; rw [hopen]; exact h)
  | some other =>
    dsimp only
    rw [r.both.serve_alive]
    intro halive hactive
    rcases r.both.serve_active halive sender stream other frame with
      hnone | ⟨pos, input, rfl, hbrought⟩ | ⟨hframe, hsame⟩
    · rw [hactive] at hnone
      cases hnone
    · -- a prefill: the session is that of its stream
      obtain rfl := Option.some.inj (hactive.symm.trans hbrought)
      cases sender with
      | a =>
        dsimp only
        rw [hopen]
        exact decide_eq_true (hleaves.kept stream pos input rfl hopen)
      | b => exact absurd hopen (hleaves.apart stream _ rfl)
    · -- nothing has come into the cache
      have hown : r.own = true := h halive (hsame.symm.trans hactive)
      cases sender with
      | a =>
        dsimp only
        rw [hopen]
        dsimp only
        unfold TwoRuns.ownRead
        split
        · exact absurd rfl (hframe _ _)
        · exact hown
      | b =>
        dsimp only
        rw [hopen]
        dsimp only
        have hne : some session ≠ some other := fun heq =>
          hleaves.apart stream frame rfl (by rw [hopen, heq])
        rw [hown, ← hsame, hactive, decide_eq_true hne]
        rfl

/-- The event is nothing that is read from a stream of master `b` with this session, and no prefill of
master `a` that goes on with it. -/
structure Follower.Untouched (f : Follower C) (session : UInt64) (e : MasterEvent) : Prop where
  apart : ∀ stream frame, e = ⟨.b, .read stream frame⟩ → f.streams .b stream ≠ some session
  starts : ∀ stream pos input, e = ⟨.a, .read stream (some (.ok (.prefill pos input)))⟩ →
    f.streams .a stream = some session → pos = 0

/-- A device that serves the model of two layers. -/
def twoLayers : Node (tally 2) := ⟨some (), .spawn⟩

/-- The layers before `lastLayer`. -/
def firstLayers (lastLayer : UInt32) : ShardSpec :=
  ⟨"0000000000000000", 0, lastLayer, 2048, .f16, .f32⟩

/-- A step on the first stream of a master. -/
def onStream (sender : Side) (step : Step) : MasterEvent := ⟨sender, .read 0 (some (.ok step))⟩

/-- Master `a` has loaded the model, and each master has opened a stream. -/
def opened (sessionA sessionB : UInt64) : List MasterEvent :=
  [⟨.a, .load (firstLayers 2)⟩, ⟨.a, .openStream 0 sessionA⟩, ⟨.b, .openStream 0 sessionB⟩]

/-- A generation on a stream of session 1, from the load to the first prompt. -/
def generation (sender : Side) (prompt : UInt32) : List MasterEvent :=
  [⟨sender, .load (firstLayers 2)⟩, ⟨sender, .openStream 0 1⟩,
    onStream sender (.prefill 0 (.tokens [prompt]))]

end Daemon

end Latticed
