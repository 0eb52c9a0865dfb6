import Latticed.Daemon.ShardJobs
import Latticed.Engine.Underflow
import Latticed.Net.Wire

/-!
# Steps and the life of the shard thread

A panic ends the one thread that runs shards, for the rest of the process.  The only subtraction of an
index on the way of a step is the one that selects the last position before the head.

* `ShardThread.runChecked_alive_iff` : the steps that end the thread.
* `no_step_underflows_iff` : the runs in which no step underflows, on the thread and on a shard of the
  process that generates.
* `empty_step_underflows` : a prompt without tokens, and hidden states of no tokens.
-/

namespace Latticed

namespace Daemon

open Engine Net Rust

variable {C : Candle} {parts : C.HeadParts}

namespace ShardThread

/-- A `Run` job in a build that checks for overflow. -/
def runChecked (parts : C.HeadParts) (thread : ShardThread C) (session : UInt64) (step : Step) :
    ShardThread C :=
  match thread.held, stepFeed session step with
  | some shard, some f =>
    match shard.feedChecked parts f with
    | .panic _ => gone
    | _ => (thread.run session step).state
  | _, _ => (thread.run session step).state

/-- The body of the loop, as far as the thread itself is concerned. -/
def workChecked (parts : C.HeadParts) (thread : ShardThread C) : Job C → ShardThread C
  | .load file spec => (thread.load file spec).2
  | .run _ session step => thread.runChecked parts session step
  | .drop _ session => thread.drop session

/-- The thread after these jobs. -/
def afterJobs (parts : C.HeadParts) (jobs : List (Job C)) : ShardThread C :=
  jobs.foldl (workChecked parts) spawn

/-- A shard is held by a thread that runs, and it was opened at some time. -/
structure Holds (thread : ShardThread C) (shard : CandleShard C) : Prop where
  alive : thread.alive = true
  whole : shard.Whole

/-- Whatever the thread holds. -/
def Kept (thread : ShardThread C) : Prop := ∀ shard, thread.held = some shard → thread.Holds shard

variable {thread : ShardThread C} {session : UInt64} {step : Step}

theorem run_alive (thread : ShardThread C) (session : UInt64) (step : Step) :
    (thread.run session step).state.alive = thread.alive := by
  unfold run
  split_ifs <;> rfl

/-- A step that does not panic leaves the thread with the shard it was. -/
theorem Kept.run (h : Kept thread) (session : UInt64) (step : Step) :
    Kept (thread.run session step).state := by
  intro after hafter
  cases hheld : thread.held with
  | none =>
    rw [run_none (Or.inr (Or.inl hheld)), hheld] at hafter
    cases hafter
  | some shard =>
    obtain ⟨halive, hwhole⟩ := h shard hheld
    refine ⟨(run_alive thread session step).trans halive, ?_⟩
    cases hf : stepFeed session step with
    | none =>
      rw [run_none (Or.inr (Or.inr hf)), hheld] at hafter
      exact Option.some.inj hafter ▸ hwhole
    | some f =>
      rw [run_held halive hheld hf] at hafter
      exact Option.some.inj hafter ▸ (shard.feed_sameWeights f).whole hwhole

theorem Kept.gone : Kept (gone : ShardThread C) := fun shard h => by cases h

theorem Kept.runChecked (h : Kept thread) (session : UInt64) (step : Step) :
    Kept (thread.runChecked parts session step) := by
  unfold ShardThread.runChecked
  split
  · split
    · exact .gone
    · exact h.run session step
  · exact h.run session step

theorem Kept.load (h : Kept thread) (file : C.File) (spec : ShardSpec) :
    Kept (thread.load file spec).2 := by
  rcases thread.load_cases file spec with
    ⟨shard, weightBytes, kvBytes, -, hopen, heq⟩ | ⟨-, heq | heq⟩
  · rw [heq]
    intro after hafter
    obtain rfl := Option.some.inj hafter
    exact ⟨rfl, CandleShard.openFile_whole hopen⟩
  · rw [heq]
    exact h
  · rw [heq]
    exact .gone

theorem Kept.drop (h : Kept thread) (session : UInt64) : Kept (thread.drop session) := by
  intro after hafter
  obtain ⟨shard, hheld, rfl⟩ := Option.map_eq_some_iff.1 hafter
  obtain ⟨halive, hwhole⟩ := h shard hheld
  exact ⟨halive, (shard.dropSession_sameWeights session).whole hwhole⟩

/-- **What the thread holds was opened**, whatever the jobs were. -/
theorem afterJobs_kept (parts : C.HeadParts) (jobs : List (Job C)) : Kept (afterJobs parts jobs) := by
  refine foldl_mono (P := Kept) (fun thread job h => ?_) jobs (fun shard h => by cases h)
  cases job with
  | load file spec => exact h.load file spec
  | run n session step => exact h.runChecked session step
  | drop n session => exact h.drop session

/-- **The steps that end the thread.** -/
theorem runChecked_alive_iff (laws : C.Shapes) (h : Kept thread) (session : UInt64) (step : Step) :
    (thread.alive = true → (thread.runChecked parts session step).alive = true) ↔
      ∀ shard f, thread.held = some shard → stepFeed session step = some f →
        ¬ shard.EmptyAtHead parts f := by
  have hrun : thread.alive = true → (thread.run session step).state.alive = true :=
    fun halive => (run_alive thread session step).trans halive
  unfold runChecked
  cases hheld : thread.held with
  | none => exact iff_of_true hrun fun shard f hshard => by cases hshard
  | some shard =>
    cases hf : stepFeed session step with
    | none => exact iff_of_true hrun fun shard' f _ hstep => by cases hstep
    | some f =>
      obtain ⟨halive, hwhole⟩ := h shard hheld
      have hpanics := @CandleShard.feedChecked_panics_iff _ parts _ f laws hwhole
      dsimp only
      constructor
      · rintro hkeeps shard' f' heq heq' hempty
        cases heq
        cases heq'
        obtain ⟨why, hpanic⟩ := hpanics.2 hempty
        rw [hpanic] at hkeeps
        exact Bool.false_ne_true (hkeeps halive)
      · intro hnot
        split
        · rename_i why hpanic
          exact absurd (hpanics.1 ⟨why, hpanic⟩) (hnot shard f rfl rfl)
        · exact hrun

end ShardThread

/-- **No step underflows** iff none without positions gets to the head: on a shard that the process itself
opened, whatever it calls, and on the shard thread, whatever its jobs are. -/
theorem no_step_underflows_iff (parts : C.HeadParts) (laws : C.Shapes) :
    (∀ file spec s, CandleShard.openFile file spec = .ok s → ∀ calls : List ShardCall,
      (∀ before f after, calls = before ++ .feed f :: after →
          ∀ why, (before.foldl CandleShard.after s).feedChecked parts f ≠ .panic why) ↔
        ∀ before f after, calls = before ++ .feed f :: after →
          ¬ (before.foldl CandleShard.after s).EmptyAtHead parts f) ∧
    ∀ jobs : List (Job C),
      (∀ before n session step after, jobs = before ++ .run n session step :: after →
          (ShardThread.afterJobs parts before).alive = true →
            ((ShardThread.afterJobs parts before).runChecked parts session step).alive = true) ↔
        ∀ before n session step after, jobs = before ++ .run n session step :: after →
          ∀ shard f, (ShardThread.afterJobs parts before).held = some shard →
            stepFeed session step = some f → ¬ shard.EmptyAtHead parts f := by
  refine ⟨fun file spec s hopen calls => ?_, fun jobs => ?_⟩
  · exact calls_safe_iff parts laws (CandleShard.openFile_whole hopen) calls
  · have hstep (before : List (Job C)) (session : UInt64) (step : Step) :=
      @ShardThread.runChecked_alive_iff C parts _ laws (ShardThread.afterJobs_kept parts before)
        session step
    simp only [hstep]

/-- The head of `checked` in two parts. -/
def checkedHead (layers : UInt32) : (checked layers).HeadParts where
  norm _ x := .ok x
  logits _ y i := .ok [y.getD i 0]
  output_eq _ _ _ := rfl

/-- A step without positions for a session that the shard does not know is refused. -/
theorem no_step_underflows_refused :
    let s := checkedShard 1 0 1
    ∀ why, s.feedChecked (checkedHead 1) ⟨false, 2, 0, .tokens []⟩ ≠ .panic why := by
  intro s
  have hopen : CandleShard.openFile (C := checked 1) () s.spec = .ok s := rfl
  have hsafe := (no_step_underflows_iff (checkedHead 1) (checkedPositions 1).toShapes).1 () s.spec s
    hopen [.feed ⟨false, 2, 0, .tokens []⟩]
  refine hsafe.2 ?_ [] _ [] rfl
  intro before f after heq
  obtain ⟨rfl, hcall⟩ := eq_of_singleton heq
  obtain rfl := ShardCall.feed.inj hcall
  exact fun hempty => absurd hempty.admits (by decide)

/-- **A prompt without tokens ends the thread** of a device that holds a whole model, and hidden states of
no tokens end that of one that holds the last layers: both can be decoded from a frame. -/
theorem empty_step_underflows :
    let whole : List (Job (checked 1)) := [.load () (checkedShard 1 0 1).spec]
    let last : List (Job (checked 2)) := [.load () (checkedShard 2 1 2).spec]
    let prompt : Step := .prefill 0 (.tokens [])
    let states : Step := .prefill 0 (.hidden ⟨0, 1, .f32, []⟩)
    (Step.wire.decode (Step.wire.write prompt) = .ok prompt ∧
      (ShardThread.afterJobs (checkedHead 1) whole).alive = true ∧
      ((ShardThread.afterJobs (checkedHead 1) whole).runChecked (checkedHead 1) 1 prompt).alive =
        false) ∧
    Step.wire.decode (Step.wire.write states) = .ok states ∧
      (ShardThread.afterJobs (checkedHead 2) last).alive = true ∧
      ((ShardThread.afterJobs (checkedHead 2) last).runChecked (checkedHead 2) 1 states).alive =
        false := by
  intro whole last prompt states
  exact ⟨⟨Step.wire.decode_write (by decide), rfl, rfl⟩, Step.wire.decode_write (by decide), rfl, rfl⟩

end Daemon

end Latticed
