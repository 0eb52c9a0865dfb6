import Latticed.Daemon.Node
import Latticed.Engine.Samples
import Latticed.LTS.Basic
import Mathlib.Logic.Function.Basic

/-!
# Streams and the shard thread

Every activation stream is served by a task of its own, and all of them send their jobs to the one
thread that owns the shard.  When a stream is over, however and whenever that is noticed, its task
sends a `Drop` job for the session the stream was opened with.  A session is a number that the opener
chose.

* `Serving.Named.step` : the steps in the caches are those of streams with the shard's session.
* `drop_keeps_other_sessions` : a `Drop` job does not touch what streams of other sessions have put
  into the caches.
* `drop_frees_same_session` : of two streams with one number, the end of one frees the other.
-/

namespace Latticed

namespace Daemon

open Engine Net Rust

variable {C : Candle}

/-! ### Tasks and jobs -/

/-- Where a task of `serve_stream` is. -/
inductive Phase where
  | reading
  /-- Its step is with the shard thread. -/
  | waiting
  /-- It has an answer to send. -/
  | answering (result : StepResult)
  | over
  deriving DecidableEq

/-- An activation stream: the session it was opened with, and where its task is. -/
structure Stream where
  session : UInt64
  phase : Phase
  deriving DecidableEq

/-- A task whose job will not be done. -/
def Stream.lost (s : Stream) : Stream :=
  match s.phase with
  | .waiting => { s with phase := .answering (.failed "the shard thread died mid-step") }
  | _ => s

/-- A job of the shard thread.  The number of the stream stands for the channel of the answer; a
`Drop` has none, and the thread does not look at it. -/
inductive Job (C : Candle) where
  | load (file : C.File) (spec : ShardSpec)
  | run (stream : ℕ) (session : UInt64) (step : Step)
  | drop (stream : ℕ) (session : UInt64)

/-- The stream a job comes from, and its session. -/
def Job.sender : Job C → Option (ℕ × UInt64)
  | load _ _ => none
  | run n session _ => some (n, session)
  | drop n session => some (n, session)

/-- The call a step makes on the shard. -/
def stepFeed (session : UInt64) : Step → Option Feed
  | .prefill pos input => some ⟨true, session, pos, input⟩
  | .decode pos input => some ⟨false, session, pos, input⟩
  | .done => none

theorem stepFeed_session {session : UInt64} {step : Step} {f : Feed}
    (h : stepFeed session step = some f) : f.session = session := by
  cases step <;> cases h <;> rfl

/-- A step is a call on the shard that is held. -/
theorem run_held {thread : ShardThread C} {shard : CandleShard C} {session : UInt64} {step : Step}
    {f : Feed} (halive : thread.alive = true) (hheld : thread.held = some shard)
    (hf : stepFeed session step = some f) :
    (thread.run session step).state.held = some (shard.feed f).state := by
  obtain ⟨alive, held⟩ := thread
  obtain rfl : alive = true := halive
  obtain rfl : held = some shard := hheld
  cases step <;> cases hf <;> rfl

/-- A step that is none leaves what is held. -/
theorem run_none {thread : ShardThread C} {session : UInt64} {step : Step}
    (h : thread.alive = false ∨ thread.held = none ∨ stepFeed session step = none) :
    (thread.run session step).state.held = thread.held := by
  obtain ⟨alive, held⟩ := thread
  cases alive with
  | false => rfl
  | true =>
    cases held with
    | none => rfl
    | some shard =>
      obtain h | h | h := h
      · cases h
      · cases h
      · cases step with
        | done => rfl
        | prefill pos input => cases h
        | decode pos input => cases h

/-- The tasks of the streams, the jobs they have sent, and the shard thread. -/
structure Serving (C : Candle) where
  streams : ℕ → Option Stream
  jobs : List (Job C)
  thread : ShardThread C
  /-- The streams whose steps the shard has run since its caches were last emptied.  This is not in
  the source. -/
  fed : List ℕ

/-- What happens: a stream is accepted, a task reads a frame or fails to, an answer is sent or cannot
be, a `LoadShard` request gets as far as the shard thread, or that thread takes its next job. -/
inductive ServeEvent (C : Candle) where
  | accept (n : ℕ) (session : UInt64)
  | read (n : ℕ) (frame : Option (Except String Step))
  | replied (n : ℕ) (sent : Bool)
  | load (file : C.File) (spec : ShardSpec)
  | job

namespace Serving

/-- A device that was just started. -/
def start : Serving C := ⟨fun _ => none, [], .spawn, []⟩

/-- The session of the shard that is held. -/
def active (σ : Serving C) : Option UInt64 := σ.thread.held.bind CandleShard.active

/-- The session of a stream. -/
def sessionOf (σ : Serving C) (n : ℕ) : Option UInt64 := (σ.streams n).map Stream.session

/-- The task of a stream goes on. -/
def goto (σ : Serving C) (n : ℕ) (session : UInt64) (phase : Phase) : Serving C :=
  { σ with streams := Function.update σ.streams n (some ⟨session, phase⟩) }

/-- `jobs.send`. -/
def send (σ : Serving C) (job : Job C) : Serving C :=
  if σ.thread.alive then { σ with jobs := σ.jobs ++ [job] } else σ

/-- The end of `serve_stream`. -/
def finish (σ : Serving C) (n : ℕ) (session : UInt64) : Serving C :=
  (σ.goto n session .over).send (.drop n session)

/-- `Executor::run`, up to the answer. -/
def submit (σ : Serving C) (n : ℕ) (session : UInt64) (step : Step) : Serving C :=
  if σ.thread.alive then (σ.goto n session .waiting).send (.run n session step)
  else σ.goto n session (.answering (.failed "the shard thread is gone"))

/-- The streams in the caches after a step of stream `n`. -/
def fedAfter (σ : Serving C) (n : ℕ) (session : UInt64) (step : Step) : List ℕ :=
  match σ.thread.alive, σ.thread.held, stepFeed session step with
  | true, some shard, some f =>
    if shard.Admits f then if shard.Empties f then [n] else σ.fed ++ [n] else σ.fed
  | _, _, _ => σ.fed

/-- The shard thread has panicked: nobody will answer the jobs that are left. -/
def died (σ : Serving C) (thread : ShardThread C) : Serving C where
  streams n := (σ.streams n).map Stream.lost
  jobs := []
  thread := thread
  fed := []

/-- The body of the loop of the shard thread. -/
def work (σ : Serving C) : Job C → Serving C
  | .load file spec =>
    let (answer, thread) := σ.thread.load file spec
    match answer with
    | .shardLoaded _ _ => { σ with thread, fed := [] }
    | _ => if thread.alive then { σ with thread } else σ.died thread
  | .run n session step =>
    let call := σ.thread.run session step
    { (σ.goto n session (.answering (.ofExcept call.result))) with
      thread := call.state
      fed := σ.fedAfter n session step }
  | .drop _ session =>
    { σ with
      thread := σ.thread.drop session
      fed := if σ.active = some session then [] else σ.fed }

/-- One event.  What cannot happen changes nothing. -/
def step (σ : Serving C) : ServeEvent C → Serving C
  | .accept n session =>
    match σ.streams n with
    | none => σ.goto n session .reading
    | some _ => σ
  | .read n frame =>
    match σ.streams n with
    | some ⟨session, .reading⟩ =>
      match serveRead frame with
      | .run step => σ.submit n session step
      | .stop _ => σ.finish n session
    | _ => σ
  | .replied n sent =>
    match σ.streams n with
    | some ⟨session, .answering _⟩ =>
      if sent then σ.goto n session .reading else σ.finish n session
    | _ => σ
  | .load file spec => σ.send (.load file spec)
  | .job =>
    match σ.jobs with
    | [] => σ
    | job :: rest => { σ with jobs := rest }.work job

/-! ### Sessions -/

/-- Jobs carry the sessions of their streams, and the steps in the caches are those of streams with the
session of the shard. -/
structure Named (σ : Serving C) : Prop where
  jobs : ∀ job ∈ σ.jobs, ∀ n session, job.sender = some (n, session) →
    σ.sessionOf n = some session
  fed : ∀ n ∈ σ.fed, ∃ session, σ.sessionOf n = some session ∧ σ.active = some session

variable {σ : Serving C} {n m : ℕ} {session : UInt64}

/-- A task that goes on serves the session it served. -/
theorem sessionOf_goto {phase : Phase} (h : σ.streams n = none ∨ σ.sessionOf n = some session)
    {a : UInt64} (hm : σ.sessionOf m = some a) : (σ.goto n session phase).sessionOf m = some a := by
  unfold sessionOf goto
  by_cases heq : m = n
  · subst heq
    dsimp only
    rw [Function.update_self]
    rcases h with hnone | hsome
    · unfold sessionOf at hm
      rw [hnone] at hm
      cases hm
    · exact hsome.symm.trans hm
  · dsimp only
    rw [Function.update_of_ne heq]
    exact hm

theorem Named.goto (h : Named σ) {phase : Phase}
    (hn : σ.streams n = none ∨ σ.sessionOf n = some session) :
    Named (σ.goto n session phase) := by
  constructor
  · intro job hjob m a hsender
    exact sessionOf_goto hn (h.jobs job hjob m a hsender)
  · intro m hm
    obtain ⟨a, hsession, hactive⟩ := h.fed m hm
    exact ⟨a, sessionOf_goto hn hsession, hactive⟩

theorem Named.send (h : Named σ) {job : Job C}
    (hjob : ∀ n session, job.sender = some (n, session) → σ.sessionOf n = some session) :
    Named (σ.send job) := by
  unfold Serving.send
  split_ifs
  · refine ⟨fun job' hmem => ?_, h.fed⟩
    rcases List.mem_append.1 hmem with hmem | hmem
    · exact h.jobs job' hmem
    · rw [List.mem_singleton.1 hmem]
      exact hjob
  · exact h

theorem sessionOf_goto_self {phase : Phase} :
    (σ.goto n session phase).sessionOf n = some session := by
  unfold sessionOf goto
  dsimp only
  rw [Function.update_self]
  rfl

theorem Named.finish (h : Named σ) (hn : σ.sessionOf n = some session) :
    Named (σ.finish n session) := by
  refine (h.goto (Or.inr hn)).send ?_
  intro m a hsender
  cases hsender
  exact sessionOf_goto_self

theorem Named.submit (h : Named σ) (hn : σ.sessionOf n = some session) {step : Step} :
    Named (σ.submit n session step) := by
  unfold Serving.submit
  split_ifs
  · refine (h.goto (Or.inr hn)).send ?_
    intro m a hsender
    cases hsender
    exact sessionOf_goto_self
  · exact h.goto (Or.inr hn)

theorem drop_of_ne (h : σ.active ≠ some session) : σ.thread.drop session = σ.thread := by
  obtain ⟨streams, jobs, ⟨alive, held⟩, fed⟩ := σ
  cases held with
  | none => rfl
  | some shard =>
    have hdrop : shard.dropSession session = shard := if_neg h
    show ShardThread.mk alive (some (shard.dropSession session)) = _
    rw [hdrop]

/-- A shard that is loaded has empty caches; otherwise the thread is as it was, or it is gone. -/
theorem Named.load (h : Named σ) (file : C.File) (spec : ShardSpec) :
    Named (σ.work (.load file spec)) := by
  unfold Serving.work
  dsimp only
  rcases σ.thread.load_cases file spec with
    ⟨shard, weightBytes, kvBytes, -, -, heq⟩ | ⟨hne, hthread⟩
  · rw [heq]
    exact ⟨h.jobs, fun m hm => (by cases hm)⟩
  · rcases heq : σ.thread.load file spec with ⟨answer, thread⟩
    rw [heq] at hne hthread
    -- the thread is as it was, or it is gone
    have hkept : Named (if thread.alive then { σ with thread } else σ.died thread) := by
      split_ifs with halive
      · rcases hthread with rfl | rfl
        · exact h
        · cases halive
      · exact ⟨fun job hmem => (by cases hmem), fun m hm => (by cases hm)⟩
    cases answer with
    | shardLoaded weightBytes kvBytes => exact absurd rfl (hne weightBytes kvBytes)
    | identity _ _ _ => exact hkept
    | provisioned _ _ => exact hkept
    | refused _ => exact hkept
    | workerRegistered => exact hkept
    | inferenceInfo _ => exact hkept

/-- A step of a stream with this session leaves its session in the caches, with what was there before
of the same session, or it is refused. -/
theorem Named.run (h : Named σ) {n : ℕ} {session : UInt64} (hn : σ.sessionOf n = some session)
    (step : Step) : Named (σ.work (.run n session step)) := by
  have hgoto : Named (σ.goto n session
      (.answering (.ofExcept (σ.thread.run session step).result))) := h.goto (Or.inr hn)
  refine ⟨hgoto.jobs, fun m hm => ?_⟩
  change m ∈ σ.fedAfter n session step at hm
  -- the steps that were in the caches, if the session of the shard is the one it was
  have hold (hsame : (σ.thread.run session step).state.held.bind CandleShard.active = σ.active)
      (hm : m ∈ σ.fed) : ∃ a, (σ.work (.run n session step)).sessionOf m = some a ∧
        (σ.work (.run n session step)).active = some a := by
    obtain ⟨a, hsession, hactive⟩ := h.fed m hm
    exact ⟨a, sessionOf_goto (Or.inr hn) hsession, hsame.trans hactive⟩
  unfold fedAfter at hm
  split at hm
  · rename_i shard f halive hheld hf
    have hafter : (σ.work (.run n session step)).active = (shard.feed f).state.active := by
      show (σ.thread.run session step).state.held.bind _ = _
      rw [run_held halive hheld hf]
      rfl
    have hbefore : σ.active = shard.active := by
      unfold active
      rw [hheld]
      rfl
    split_ifs at hm with hadmits hempties
    · obtain rfl := List.mem_singleton.1 hm
      refine ⟨session, sessionOf_goto_self, ?_⟩
      rw [hafter, CandleShard.feed_active hadmits, stepFeed_session hf]
    · have hready : shard.ready f = shard := if_neg hempties
      have hactive := CandleShard.ready_active hadmits
      rw [hready, stepFeed_session hf] at hactive
      rcases List.mem_append.1 hm with hm | hm
      · refine hold ?_ hm
        calc _ = (shard.feed f).state.active := hafter
          _ = some f.session := CandleShard.feed_active hadmits
          _ = some session := by rw [stepFeed_session hf]
          _ = σ.active := (hbefore.trans hactive).symm
      · obtain rfl := List.mem_singleton.1 hm
        refine ⟨session, sessionOf_goto_self, ?_⟩
        rw [hafter, CandleShard.feed_active hadmits, stepFeed_session hf]
    · refine hold ?_ hm
      rw [CandleShard.feed_refused hadmits] at hafter
      exact hafter.trans hbefore.symm
  · rename_i hnot
    refine hold ?_ hm
    rw [run_none]
    · rfl
    · cases halive : σ.thread.alive with
      | false => exact Or.inl rfl
      | true =>
        cases hheld : σ.thread.held with
        | none => exact Or.inr (Or.inl rfl)
        | some shard =>
          cases hf : stepFeed session step with
          | none => exact Or.inr (Or.inr rfl)
          | some f => exact absurd hf (hnot shard f halive hheld)

theorem Named.drop (h : Named σ) (n : ℕ) (session : UInt64) :
    Named (σ.work (.drop n session)) := by
  refine ⟨h.jobs, fun m hm => ?_⟩
  unfold Serving.work at hm
  dsimp only at hm
  split_ifs at hm with hactive
  · cases hm
  · obtain ⟨a, hsession, ha⟩ := h.fed m hm
    refine ⟨a, hsession, ?_⟩
    show (σ.thread.drop session).held.bind CandleShard.active = some a
    rw [drop_of_ne hactive]
    exact ha

/-- **A job keeps the caches with the session of the shard.** -/
theorem Named.work (h : Named σ) {job : Job C}
    (hjob : ∀ n session, job.sender = some (n, session) → σ.sessionOf n = some session) :
    Named (σ.work job) := by
  cases job with
  | load file spec => exact h.load file spec
  | run n session step => exact h.run (hjob n session rfl) step
  | drop n session => exact h.drop n session

/-- **An event keeps the caches with the session of the shard.** -/
theorem Named.step (h : Named σ) (e : ServeEvent C) : Named (σ.step e) := by
  cases e with
  | accept n session =>
    unfold Serving.step
    dsimp only
    split
    · rename_i hn
      exact h.goto (Or.inl hn)
    · exact h
  | read n frame =>
    unfold Serving.step
    dsimp only
    split
    · rename_i session hn
      have hsession : σ.sessionOf n = some session := by rw [sessionOf, hn]; rfl
      cases serveRead frame with
      | run step => exact h.submit hsession
      | stop reply => exact h.finish hsession
    · exact h
  | replied n sent =>
    unfold Serving.step
    dsimp only
    split
    · rename_i session result hn
      have hsession : σ.sessionOf n = some session := by rw [sessionOf, hn]; rfl
      split_ifs
      · exact h.goto (Or.inr hsession)
      · exact h.finish hsession
    · exact h
  | load file spec => exact h.send fun n session hsender => by cases hsender
  | job =>
    unfold Serving.step
    dsimp only
    split
    · exact h
    · rename_i job rest hjobs
      have hjob := h.jobs job (hjobs ▸ List.mem_cons_self)
      have hrest : Named ({ σ with jobs := rest } : Serving C) :=
        ⟨fun job' hmem => h.jobs job' (hjobs ▸ List.mem_cons_of_mem _ hmem), h.fed⟩
      exact hrest.work hjob

theorem start_named : Named (start : Serving C) :=
  ⟨fun job hmem => (by cases hmem), fun m hm => (by cases hm)⟩

/-- The device after these events. -/
def run (events : List (ServeEvent C)) : Serving C := events.foldl step start

theorem run_named (events : List (ServeEvent C)) : Named (run events) :=
  foldl_mono (P := Named) (fun _ e h => h.step e) events start_named

end Serving

/-- **A stream's end leaves the sessions of other numbers alone**: when the thread comes to the `Drop` job
of a stream, and steps of a stream with another session are in the caches, the job changes nothing. -/
theorem drop_keeps_other_sessions {events : List (ServeEvent C)} {n m : ℕ} {session : UInt64}
    {a b : Stream} {rest : List (Job C)} :
    let σ := Serving.run events
    σ.jobs = .drop n session :: rest → σ.streams n = some a → m ∈ σ.fed → σ.streams m = some b →
      b.session ≠ a.session →
      (σ.step .job).thread = σ.thread ∧ (σ.step .job).fed = σ.fed := by
  intro σ hjobs hn hm hb hne
  have hnamed : σ.Named := Serving.run_named events
  have hsession : σ.sessionOf n = some session :=
    hnamed.jobs _ (hjobs ▸ List.mem_cons_self) n session rfl
  obtain ⟨c, hc, hactive⟩ := hnamed.fed m hm
  unfold Serving.sessionOf at hsession hc
  rw [hn] at hsession
  rw [hb] at hc
  obtain rfl := Option.some.inj hsession
  obtain rfl := Option.some.inj hc
  -- the caches are of the session of `b`, so the shard does not run the session of `a`
  have hother : σ.active ≠ some a.session := fun heq =>
    hne (Option.some.inj (hactive.symm.trans heq))
  unfold Serving.step
  rw [hjobs]
  refine ⟨?_, if_neg hother⟩
  show σ.thread.drop a.session = σ.thread
  exact Serving.drop_of_ne hother

/-- A prompt on a stream that is accepted, and its answer. -/
def promptOn (n : ℕ) (session : UInt64) : List (ServeEvent (checked 1)) :=
  [.accept n session, .read n (some (.ok (.prefill 0 (.tokens [3])))), .job, .replied n true]

/-- A device with a shard, and a prompt on each of two streams; then the first one is over. -/
def abandoned (session session' : UInt64) : List (ServeEvent (checked 1)) :=
  [.load () (checkedShard 1 0 1).spec, .job] ++ promptOn 0 session ++ promptOn 1 session' ++
    [.read 0 none]

/-- Two streams with numbers of their own: the end of the first does not touch the prompt of the
second. -/
theorem drop_keeps_other_sessions_two :
    let σ := Serving.run (abandoned 1 2)
    (σ.step .job).thread = σ.thread ∧ (σ.step .job).fed = [1] :=
  @drop_keeps_other_sessions (checked 1) (abandoned 1 2) 0 1 1 ⟨1, .over⟩ ⟨2, .reading⟩ [] rfl rfl
    (by decide) rfl (by decide)

/-- **Of two streams with one number, the end of one frees the other**: the second stream is open, and its
prompt was answered, when the end of the first is noticed and takes the caches and the session away. -/
theorem drop_frees_same_session :
    let σ := Serving.run (abandoned 1 1)
    σ.jobs = [.drop 0 1] ∧ σ.streams 1 = some ⟨1, .reading⟩ ∧ σ.fed = [1] ∧
      σ.active = some 1 ∧ (σ.step .job).active = none ∧
      ((σ.step .job).thread.run 1 (.decode 1 (.tokens [5]))).result =
        .error ((checked 1).display (.unknownSession 1)) :=
  ⟨rfl, rfl, rfl, rfl, rfl, rfl⟩

end Daemon

end Latticed
