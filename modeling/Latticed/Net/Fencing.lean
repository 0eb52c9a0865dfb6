import Latticed.LTS.Basic
import Latticed.Net.Dispatch
import Latticed.Net.Serving
import Latticed.Net.Wire

/-!
# The generation of a stream

A stream's header carries a generation, which the master raises when it plans again.  The header's
docstring and the docs say that it is checked when the stream opens, so that a stale stream dies
before it carries anything.  `serve_with_rpc` looks at the kind and the session only.

The state is that of a follower with any number of connections, each with its accept loop; an event
is a stream that a peer opens on one of them.

* `tasks_eq_serveWithRpc` : on each connection the follower does what `serve_with_rpc` does.
* `fenced_iff` : stale streams are all rejected iff none comes on a connection that is served.
* `stale_stream_runs` : a follower that has served generation 1 of a session and then runs a step of
  generation 0.
-/

namespace Latticed

namespace Net

open Engine

/-- A stream that a peer opens. -/
structure Opening where
  /-- The connection it is opened on. -/
  conn : ℕ
  stream : Incoming

/-- A stream that was handed to a task. -/
structure Accepted where
  /-- How many streams were opened before it. -/
  number : ℕ
  conn : ℕ
  header : StreamHeader

/-- A device that serves the streams of its peers. -/
structure Follower where
  /-- The connections whose accept loop has returned. -/
  returned : List ℕ
  /-- The streams that were handed to a task, in order. -/
  accepted : List Accepted
  /-- How many streams were opened. -/
  opened : ℕ

/-- A device that has just started. -/
def Follower.idle : Follower := ⟨[], [], 0⟩

/-- The accept loop of a connection, when a stream is opened on it. -/
def Follower.step (f : Follower) (e : Opening) : Follower :=
  if e.conn ∈ f.returned then { f with opened := f.opened + 1 }
  else match acceptStream e.stream with
    | .error _ => { f with returned := e.conn :: f.returned, opened := f.opened + 1 }
    | .ok header =>
      { f with
        accepted := f.accepted ++ [⟨f.opened, e.conn, header⟩]
        opened := f.opened + 1 }

/-- The follower after streams were opened, in this order. -/
def Follower.run (events : List Opening) : Follower := events.foldl step idle

/-- An activation stream of the session, with a higher generation, was accepted from the master. -/
def Follower.Behind (peer : ℕ → DeviceId) (f : Follower) (conn : ℕ) (header : StreamHeader) : Prop :=
  header.kind = .activation ∧ ∃ a ∈ f.accepted, peer a.conn = peer conn ∧
    a.header.kind = .activation ∧ a.header.session = header.session ∧
      header.generation < a.header.generation

/-- **Generation fencing**: no activation stream that is behind when it opens is handed to a task. -/
def Fenced (peer : ℕ → DeviceId) (events : List Opening) : Prop :=
  ∀ before e after header, events = before ++ e :: after → acceptStream e.stream = .ok header →
    (Follower.run before).Behind peer e.conn header →
      ∀ a ∈ (Follower.run events).accepted, a.number ≠ before.length

/-- The stream that is opened is behind, and the connection it is opened on is served. -/
def Follower.Stale (peer : ℕ → DeviceId) (f : Follower) (e : Opening) : Prop :=
  e.conn ∉ f.returned ∧ ∃ header, acceptStream e.stream = .ok header ∧ f.Behind peer e.conn header

namespace Follower

theorem run_concat (events : List Opening) (e : Opening) :
    run (events ++ [e]) = (run events).step e := by
  rw [run, List.foldl_append]
  rfl

/-- What the accept loop of a connection hands to a task when a stream is opened on it. -/
def handed (f : Follower) (e : Opening) : List Accepted :=
  if e.conn ∈ f.returned then []
  else match acceptStream e.stream with
    | .error _ => []
    | .ok header => [⟨f.opened, e.conn, header⟩]

theorem accepted_step (f : Follower) (e : Opening) :
    (f.step e).accepted = f.accepted ++ f.handed e := by
  rw [step, handed]
  split_ifs
  · simp
  · cases acceptStream e.stream <;> simp

theorem mem_handed {f : Follower} {e : Opening} {a : Accepted} :
    a ∈ f.handed e ↔ e.conn ∉ f.returned ∧ ∃ header, acceptStream e.stream = .ok header ∧
      a = ⟨f.opened, e.conn, header⟩ := by
  rw [handed]
  split_ifs with hreturned
  · simp [hreturned]
  · cases acceptStream e.stream <;> simp [hreturned]

theorem opened_step (f : Follower) (e : Opening) : (f.step e).opened = f.opened + 1 := by
  rw [step]
  split_ifs
  · rfl
  · cases acceptStream e.stream <;> rfl

theorem opened_run (events : List Opening) : (run events).opened = events.length := by
  induction events using List.reverseRecOn with
  | nil => rfl
  | append_singleton events e ih => rw [run_concat, opened_step, ih, List.length_append]; rfl

/-- **What is accepted**: the streams whose header decodes, if their connection is served when they
are opened. -/
theorem mem_accepted_run {events : List Opening} {a : Accepted} :
    a ∈ (run events).accepted ↔ ∃ before e after, events = before ++ e :: after ∧
      e.conn ∉ (run before).returned ∧ ∃ header, acceptStream e.stream = .ok header ∧
        a = ⟨before.length, e.conn, header⟩ := by
  rw [run, mem_collected accepted_step]
  simp only [mem_handed, ← run.eq_1, opened_run]
  simp [idle]

/-! ### One connection -/

/-- The streams that are opened on a connection. -/
def streamsOf (conn : ℕ) (events : List Opening) : List Incoming :=
  (events.filter fun e => e.conn = conn).map Opening.stream

/-- The tasks that a follower spawned for the streams of a connection. -/
def tasks (f : Follower) (conn : ℕ) : List Task :=
  (f.accepted.filter fun a => a.conn = conn).map fun a => handlerOf a.header

theorem tasks_step_of_ne {conn : ℕ} {e : Opening} (h : e.conn ≠ conn) (f : Follower) :
    (f.step e).tasks conn = f.tasks conn ∧ (conn ∈ (f.step e).returned ↔ conn ∈ f.returned) := by
  rw [step]
  split_ifs
  · exact ⟨rfl, Iff.rfl⟩
  · cases acceptStream e.stream with
    | error err => simp [tasks, h.symm]
    | ok header => simp [tasks, h]

theorem tasks_foldl_returned {conn : ℕ} {f : Follower} (h : conn ∈ f.returned)
    (events : List Opening) : (events.foldl step f).tasks conn = f.tasks conn := by
  induction events generalizing f with
  | nil => rfl
  | cons e events ih =>
    rw [List.foldl_cons]
    by_cases hconn : e.conn = conn
    · have hstep : f.step e = { f with opened := f.opened + 1 } := if_pos (hconn ▸ h)
      rw [hstep]
      exact ih h
    · obtain ⟨htasks, hreturned⟩ := tasks_step_of_ne hconn f
      rw [ih (hreturned.2 h), htasks]

/-- What a connection whose loop runs is served from a state on. -/
theorem tasks_foldl {conn : ℕ} {f : Follower} (h : conn ∉ f.returned) (n : ℕ)
    (events : List Opening) :
    (events.foldl step f).tasks conn =
      f.tasks conn ++ (serveFrom n (streamsOf conn events)).map Prod.snd := by
  induction events generalizing f n with
  | nil => simp [streamsOf, serveFrom]
  | cons e events ih =>
    rw [List.foldl_cons]
    by_cases hconn : e.conn = conn
    · have hstreams : streamsOf conn (e :: events) = e.stream :: streamsOf conn events := by
        simp [streamsOf, hconn]
      have hstep : f.step e = _ := if_neg (hconn ▸ h)
      rw [hstreams, serveFrom, hstep]
      cases acceptStream e.stream with
      | error err =>
        -- the loop returns, here and in the follower
        rw [tasks_foldl_returned (by simp [hconn])]
        simp [tasks]
      | ok header =>
        refine (ih (by exact h) (n + 1)).trans ?_
        simp [tasks, hconn]
    · obtain ⟨htasks, hreturned⟩ := tasks_step_of_ne hconn f
      have hstreams : streamsOf conn (e :: events) = streamsOf conn events := by
        simp [streamsOf, hconn]
      rw [ih (mt hreturned.1 h) n, htasks, hstreams]

/-- **Each connection is served by `serve_with_rpc`.** -/
theorem tasks_eq_serveWithRpc (conn : ℕ) (events : List Opening) :
    (run events).tasks conn = (serveWithRpc (streamsOf conn events)).map Prod.snd := by
  rw [run, tasks_foldl (f := idle) (by simp [idle]) 0, serveWithRpc]
  rfl

end Follower

/-- **When fencing holds**: activation streams that are behind are all kept from the executor iff none
of them is opened on a connection that is still served. -/
theorem fenced_iff (peer : ℕ → DeviceId) (events : List Opening) :
    Fenced peer events ↔ ∀ before e after, events = before ++ e :: after →
      ¬ (Follower.run before).Stale peer e := by
  constructor
  · rintro hfenced before e after heq ⟨hserved, header, hacc, hbehind⟩
    have hmem : (⟨before.length, e.conn, header⟩ : Accepted) ∈ (Follower.run events).accepted :=
      Follower.mem_accepted_run.2 ⟨before, e, after, heq, hserved, header, hacc, rfl⟩
    exact hfenced before e after header heq hacc hbehind _ hmem rfl
  · intro hstale before e after header heq hacc hbehind a ha hnumber
    obtain ⟨before', e', after', heq', hserved, header', -, rfl⟩ := Follower.mem_accepted_run.1 ha
    -- the number says which opening it was
    obtain ⟨rfl, hrest⟩ := List.append_inj (heq.symm.trans heq') hnumber.symm
    obtain ⟨rfl, -⟩ := List.cons.inj hrest
    exact hstale before e after heq ⟨hserved, header, hacc, hbehind⟩

/-- A step of the session, as the master sends it. -/
def staleStep : Step := .decode 0 (.tokens [])

/-- An activation stream of session 1 that carries one step. -/
def sessionStream (generation : UInt32) : Incoming where
  bytes := (StreamHeader.mk .activation 1 generation).encode ++ [4, 0, 0, 0, 1, 0, 0, 0]
  ending := "stream finished early (0 bytes read)"

theorem acceptStream_sessionStream (generation : UInt32) :
    acceptStream (sessionStream generation) = .ok ⟨.activation, 1, generation⟩ := by
  have hlen := StreamHeader.length_encode ⟨.activation, 1, generation⟩
  rw [acceptStream, sessionStream, if_neg (by simp), List.take_left' hlen,
    StreamHeader.decode_encode]

/-- **Fencing fails**: after a stream of generation 1, one of generation 0 is handed to a task, and the
executor runs its step. -/
theorem stale_stream_runs :
    ¬ Fenced (fun _ => 0) [⟨0, sessionStream 1⟩, ⟨0, sessionStream 0⟩] ∧
      (serveStream Step.wire StepResult.wire (fun _ => .error "this device holds no shards")
        ((sessionStream 0).bytes.drop headerLen) (sessionStream 0).ending).log =
          [.run staleStep (.error "this device holds no shards"), .dropSession] := by
  constructor
  · intro hfenced
    have hfirst : (⟨0, 0, ⟨.activation, 1, 1⟩⟩ : Accepted) ∈
        (Follower.run [⟨0, sessionStream 1⟩]).accepted :=
      Follower.mem_accepted_run.2 ⟨[], _, [], rfl, by simp [Follower.run, Follower.idle], _,
        acceptStream_sessionStream 1, rfl⟩
    have hserved : 0 ∉ (Follower.run [⟨0, sessionStream 1⟩]).returned := by
      simp [Follower.run, Follower.idle, Follower.step, acceptStream_sessionStream]
    have hsecond := Follower.mem_accepted_run.2 ⟨[⟨0, sessionStream 1⟩], ⟨0, sessionStream 0⟩, [], rfl,
      hserved, _, acceptStream_sessionStream 0, rfl⟩
    exact hfenced [⟨0, sessionStream 1⟩] ⟨0, sessionStream 0⟩ [] _ rfl (acceptStream_sessionStream 0)
      ⟨rfl, _, hfirst, rfl, rfl, rfl, by decide⟩ _ hsecond rfl
  · have hbytes : (sessionStream 0).bytes.drop headerLen = [4, 0, 0, 0, 1, 0, 0, 0] := by
      rw [sessionStream, List.drop_left' (StreamHeader.length_encode _)]
    have hframe : HasFrame [4, 0, 0, 0, 1, 0, 0, 0] [1, 0, 0, 0] [] maxActivationFrame :=
      ⟨rfl, by decide, by decide⟩
    have hcarries : Carries Step.wire [4, 0, 0, 0, 1, 0, 0, 0] [staleStep] :=
      .step hframe rfl (by decide) (.ended (noStep_nil _))
    rw [hbytes]
    exact (serveLoop_carries hcarries [] [] _).2 fun n hn => absurd hn (by simp)

end Net

end Latticed
