import Latticed.Engine.CandleShard
import Latticed.Net.Activation
import Latticed.Net.Control

/-!
# The device that runs layers

A device serves one model file.  Everything that touches the shard happens on one thread, which holds
at most one shard: loading another one replaces it.  A panic ends the thread for good.

* `Node.loadShard_cases` : a load is accepted, and then the thread holds the shard that was asked for,
  or it changes nothing or ends the thread.
* `Node.run_spec` : a step runs every layer of the shard that is held, whoever loaded it.
-/

namespace Latticed

namespace Daemon

open Engine Net Rust

variable {C : Candle}

/-- The shard thread. -/
structure ShardThread (C : Candle) where
  alive : Bool
  held : Option (CandleShard C)

namespace ShardThread

/-- `ShardThread::spawn`. -/
def spawn : ShardThread C := ⟨true, none⟩

/-- The thread has panicked. -/
def gone : ShardThread C := ⟨false, none⟩

/-- A `Load` job, and the answer to the device that asked for it. -/
def load (thread : ShardThread C) (file : C.File) (spec : ShardSpec) :
    Response × ShardThread C :=
  if thread.alive then
    match (CandleShard.openFile file spec).andThen fun shard =>
        shard.stats.andThen fun stats => .ok (shard, stats) with
    | .ok (shard, weightBytes, kvBytes) =>
      (.shardLoaded weightBytes kvBytes, { thread with held := some shard })
    | .err e => (.refused ("could not load the shard: " ++ C.display e), thread)
    | .panic _ => (.refused "the shard thread died loading", gone)
  else (.refused "the shard thread is gone", thread)

/-- `run_step`. -/
def runStep (shard : Option (CandleShard C)) (session : UInt64) (step : Step) :
    Call (Option (CandleShard C)) ℕ String Payload :=
  match shard, step with
  | none, _ => .pure (.error "this device has been given no layers") none
  | some shard, .prefill pos input =>
    (shard.prefill session pos input).lift some (·.mapError C.display)
  | some shard, .decode pos input =>
    (shard.decode session pos input).lift some (·.mapError C.display)
  | some shard, .done =>
    .pure (.error "Done is handled by the stream, not the shard") (some shard)

/-- A `Run` job. -/
def run (thread : ShardThread C) (session : UInt64) (step : Step) :
    Call (ShardThread C) ℕ String Payload :=
  if thread.alive then (runStep thread.held session step).lift (fun held => { thread with held }) id
  else .pure (.error "the shard thread is gone") thread

/-- A `Drop` job. -/
def drop (thread : ShardThread C) (session : UInt64) : ShardThread C :=
  { thread with held := thread.held.map (·.dropSession session) }

/-- A load is accepted, or it changes nothing or ends the thread. -/
theorem load_cases (thread : ShardThread C) (file : C.File) (spec : ShardSpec) :
    (∃ shard weightBytes kvBytes, thread.alive = true ∧
      CandleShard.openFile file spec = .ok shard ∧
      thread.load file spec = (.shardLoaded weightBytes kvBytes, ⟨true, some shard⟩)) ∨
    ((∀ weightBytes kvBytes, (thread.load file spec).1 ≠ .shardLoaded weightBytes kvBytes) ∧
      ((thread.load file spec).2 = thread ∨ (thread.load file spec).2 = gone)) := by
  obtain ⟨_ | _, held⟩ := thread
  · exact Or.inr ⟨fun _ _ h => (by cases h), Or.inl rfl⟩
  · cases hopen : (CandleShard.openFile file spec).andThen fun shard =>
        shard.stats.andThen fun stats => .ok (shard, stats) with
    | ok loaded =>
      obtain ⟨shard, hshard, h⟩ := Outcome.andThen_eq_ok.1 hopen
      obtain ⟨stats, -, h⟩ := Outcome.andThen_eq_ok.1 h
      cases h
      exact Or.inl ⟨shard, stats.1, stats.2, rfl, hshard, by simp [load, hopen]⟩
    | err e =>
      simp only [load, hopen]
      exact Or.inr ⟨fun _ _ h => (by cases h), Or.inl rfl⟩
    | panic m =>
      simp only [load, hopen]
      exact Or.inr ⟨fun _ _ h => (by cases h), Or.inr rfl⟩

end ShardThread

/-- The device: the one file it is willing to serve, and its shard thread. -/
structure Node (C : Candle) where
  model : Option C.File
  shard : ShardThread C

namespace Node

/-- The text that refuses a file with another digest. -/
def otherModel (hash asked : String) : Outcome Empty Response :=
  (sliceTo hash 16).andThen fun held =>
    (sliceTo asked (min 16 asked.utf8ByteSize)).andThen fun asked =>
      .ok (.refused ("this device holds " ++ held ++ ", not " ++ asked))

/-- `load_shard`. -/
def loadShard (node : Node C) (spec : ShardSpec) : Outcome Empty Response × Node C :=
  match node.model with
  | none => (.ok (.refused "this device has no model to serve"), node)
  | some file =>
    match C.hashFile file with
    | .error e => (.ok (.refused ("could not hash the model: " ++ C.display e)), node)
    | .ok hash =>
      if hash = spec.modelHash then
        let (response, shard) := node.shard.load file spec
        (.ok response, { node with shard })
      else (otherModel hash spec.modelHash, node)

/-- `Executor::run`. -/
def run (node : Node C) (session : UInt64) (step : Step) : Call (Node C) ℕ String Payload :=
  (node.shard.run session step).lift (fun shard => { node with shard }) id

/-- `Executor::drop_session`. -/
def dropSession (node : Node C) (session : UInt64) : Node C :=
  { node with shard := node.shard.drop session }

/-- The request loads the shard: the device serves a file with the digest that was asked for, and the
file opens. -/
structure Loads (node : Node C) (spec : ShardSpec) (file : C.File) (shard : CandleShard C) :
    Prop where
  alive : node.shard.alive = true
  model : node.model = some file
  hash : C.hashFile file = .ok spec.modelHash
  opens : CandleShard.openFile file spec = .ok shard

theorem otherModel_ne (hash asked : String) (weightBytes kvBytes : UInt64) :
    otherModel hash asked ≠ .ok (.shardLoaded weightBytes kvBytes) := by
  intro h
  obtain ⟨held, -, h⟩ := Outcome.andThen_eq_ok.1 h
  obtain ⟨asked, -, h⟩ := Outcome.andThen_eq_ok.1 h
  cases h

/-- **What a `LoadShard` request does.** -/
theorem loadShard_cases (node : Node C) (spec : ShardSpec) :
    (∃ file shard weightBytes kvBytes, node.Loads spec file shard ∧
      node.loadShard spec = (.ok (.shardLoaded weightBytes kvBytes),
        { node with shard := ⟨true, some shard⟩ })) ∨
    ((∀ weightBytes kvBytes, (node.loadShard spec).1 ≠ .ok (.shardLoaded weightBytes kvBytes)) ∧
      ((node.loadShard spec).2 = node ∨ (node.loadShard spec).2 = { node with shard := .gone })) := by
  obtain ⟨_ | file, thread⟩ := node
  · exact Or.inr ⟨fun _ _ h => (by cases h), Or.inl rfl⟩
  · cases hhash : C.hashFile file with
    | error e =>
      simp only [loadShard, hhash]
      exact Or.inr ⟨fun _ _ h => (by cases h), Or.inl trivial⟩
    | ok hash =>
      simp only [loadShard, hhash]
      split_ifs with heq
      · subst heq
        rcases thread.load_cases file spec with
          ⟨shard, weightBytes, kvBytes, halive, hopen, h⟩ | ⟨hne, h⟩
        · refine Or.inl ⟨file, shard, weightBytes, kvBytes, ⟨halive, rfl, hhash, hopen⟩, ?_⟩
          rw [h]
        · refine Or.inr ⟨fun w k hloaded => hne w k (Outcome.ok.inj hloaded), ?_⟩
          exact h.imp (congrArg (Node.mk (some file))) (congrArg (Node.mk (some file)))
      · exact Or.inr ⟨otherModel_ne hash spec.modelHash, Or.inl rfl⟩

/-- What a device answers to a `LoadShard` request, and whether it is accepted, does not depend on the
shard it holds. -/
theorem loadShard_alive (model : Option C.File) (spec : ShardSpec) :
    (∃ shard weightBytes kvBytes, ∀ held, (Node.mk model ⟨true, held⟩).loadShard spec =
      (.ok (.shardLoaded weightBytes kvBytes), ⟨model, ⟨true, some shard⟩⟩)) ∨
    ∃ answer, (∀ weightBytes kvBytes, answer ≠ .ok (.shardLoaded weightBytes kvBytes)) ∧
      ((∀ held, (Node.mk model ⟨true, held⟩).loadShard spec = (answer, ⟨model, ⟨true, held⟩⟩)) ∨
        ∀ held, (Node.mk model ⟨true, held⟩).loadShard spec = (answer, ⟨model, .gone⟩)) := by
  cases model with
  | none => exact Or.inr ⟨_, fun _ _ h => (by cases h), Or.inl fun _ => rfl⟩
  | some file =>
    cases hhash : C.hashFile file with
    | error e =>
      simp only [loadShard, hhash]
      exact Or.inr ⟨_, fun _ _ h => (by cases h), Or.inl fun _ => rfl⟩
    | ok hash =>
      simp only [loadShard, hhash]
      split_ifs with heq
      · simp only [ShardThread.load, if_true]
        cases (CandleShard.openFile file spec).andThen fun shard =>
            shard.stats.andThen fun stats => .ok (shard, stats) with
        | ok loaded => exact Or.inl ⟨loaded.1, loaded.2.1, loaded.2.2, fun _ => rfl⟩
        | err e =>
          refine Or.inr ⟨.ok (.refused ("could not load the shard: " ++ C.display e)), ?_,
            Or.inl fun _ => rfl⟩
          exact fun _ _ h => by cases h
        | panic m =>
          refine Or.inr ⟨.ok (.refused "the shard thread died loading"), ?_, Or.inr fun _ => rfl⟩
          exact fun _ _ h => by cases h
      · exact Or.inr ⟨_, otherModel_ne hash spec.modelHash, Or.inl fun _ => rfl⟩

/-- A thread that has died stays dead. -/
theorem loadShard_dead {node : Node C} (h : node.shard.alive = false) (spec : ShardSpec) :
    (node.loadShard spec).2.shard.alive = false ∧ (node.loadShard spec).2.model = node.model := by
  rcases node.loadShard_cases spec with ⟨file, shard, w, k, hloads, -⟩ | ⟨-, heq | heq⟩
  · exact absurd (h.symm.trans hloads.alive) Bool.false_ne_true
  · rw [heq]
    exact ⟨h, rfl⟩
  · rw [heq]
    exact ⟨rfl, rfl⟩

/-- **A step runs the shard that is held**, whoever loaded it, and the device goes on holding it. -/
theorem run_spec {node : Node C} {shard : CandleShard C} (hheld : node.shard = ⟨true, some shard⟩)
    (session : UInt64) (isPrefill : Bool) (pos : UInt32) (input : Payload) :
    ∃ call, RunsShard shard input call ∧ node.run session (.of isPrefill pos input) =
      call.lift (fun shard => { node with shard := ⟨true, some shard⟩ })
        (·.mapError C.display) := by
  obtain ⟨model, thread⟩ := node
  obtain rfl : thread = ⟨true, some shard⟩ := hheld
  cases isPrefill with
  | true => exact ⟨_, shard.prefill_spec session pos input, rfl⟩
  | false => exact ⟨_, shard.decode_spec session pos input, rfl⟩

end Node

end Daemon

end Latticed
