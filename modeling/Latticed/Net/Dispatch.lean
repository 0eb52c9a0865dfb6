import Latticed.Net.Stream

/-!
# The accept loop of a connection

One loop per connection accepts the streams the peer opens, reads each stream's header and hands
the stream to whatever serves its kind.  The docs ask that a stream reset fail that session only,
and that it not be conflated with a lost connection.  The loop leaves on any error of
`accept_stream`, so it does conflate the two: `serve_fails_alone_iff` says exactly when the streams
of a connection are all served.
-/

namespace Latticed

namespace Net

/-- A stream the peer opened, as the accepting side sees it: the bytes that arrive before it ends,
is reset, or goes quiet until the connection is lost, and what reading says then. -/
structure Incoming where
  bytes : Bytes
  ending : String
  deriving DecidableEq, Repr

/-- `Connection::accept_stream` on a stream that `accept_bi` returned: `read_exact` of the header,
then `decode`. -/
def acceptStream (s : Incoming) : Except NetError StreamHeader :=
  if s.bytes.length < headerLen then
    .error (.stream ("reading a stream header: " ++ s.ending))
  else StreamHeader.decode (s.bytes.take headerLen)

/-- The task that is spawned for a stream. -/
inductive Task where
  /-- `control::answer`. -/
  | control
  /-- `activation::serve_stream`. -/
  | activation (session : UInt64)
  /-- `rpc::serve`. -/
  | rpc
  /-- `probe::serve_stream`. -/
  | probe
  deriving DecidableEq, Repr

/-- The handler of a stream's kind.  Model transfer does not exist yet: bulk streams go to the
probe. -/
def handlerOf (h : StreamHeader) : Task :=
  match h.kind with
  | .control => .control
  | .activation => .activation h.session
  | .inferenceRpc => .rpc
  | .probe => .probe
  | .bulk => .probe

/-- `serve_with_rpc` on the streams that arrive while the connection is alive, in the order in
which they are accepted: the tasks it spawns, with the number of the stream each one serves.  The
first error of `accept_stream` makes the loop return. -/
def serveFrom (n : ℕ) : List Incoming → List (ℕ × Task)
  | [] => []
  | s :: rest =>
    match acceptStream s with
    | .error _ => []
    | .ok h => (n, handlerOf h) :: serveFrom (n + 1) rest

/-- `serve_with_rpc`. -/
def serveWithRpc (streams : List Incoming) : List (ℕ × Task) := serveFrom 0 streams

/-- Every stream whose header decodes is handed to the handler of its kind. -/
def EveryGoodStreamServed (streams : List Incoming) : Prop :=
  ∀ n s h, streams[n]? = some s → acceptStream s = .ok h → (n, handlerOf h) ∈ serveWithRpc streams

/-- The header of the stream does not arrive or does not decode. -/
def Incoming.Bad (s : Incoming) : Prop := ∃ e, acceptStream s = .error e

/-- Streams whose header arrives and decodes come before all the others. -/
def BadStreamsLast (streams : List Incoming) : Prop :=
  streams.Pairwise fun s t => s.Bad → t.Bad

/-- From the `n`-th stream on, the loop serves all streams whose headers decode. -/
def ServedFrom (n : ℕ) (streams : List Incoming) : Prop :=
  ∀ k s h, streams[k]? = some s → acceptStream s = .ok h →
    (n + k, handlerOf h) ∈ serveFrom n streams

variable {s : Incoming} {rest : List Incoming}

theorem not_bad_of_ok {h : StreamHeader} (hs : acceptStream s = .ok h) : ¬ s.Bad := by
  rintro ⟨e, he⟩
  rw [hs] at he
  cases he

/-- The loop returns at a bad stream, so nothing after it may be good. -/
theorem servedFrom_of_bad (n : ℕ) (hs : s.Bad) :
    ServedFrom n (s :: rest) ↔ ∀ t ∈ rest, t.Bad := by
  obtain ⟨e, he⟩ := hs
  have hserved : serveFrom n (s :: rest) = [] := by rw [serveFrom, he]
  unfold ServedFrom
  rw [hserved]
  constructor
  · intro h t ht
    obtain ⟨k, hk⟩ := List.getElem?_of_mem ht
    cases hacc : acceptStream t with
    | error e' => exact ⟨e', hacc⟩
    | ok hd => cases h (k + 1) t hd hk hacc
  · intro hrest k t hd hk hacc
    refine absurd ?_ (not_bad_of_ok hacc)
    rcases List.mem_cons.1 (List.mem_of_getElem? hk) with rfl | hmem
    · exact ⟨e, he⟩
    · exact hrest t hmem

/-- A good stream is served, and the loop goes on. -/
theorem servedFrom_of_ok (n : ℕ) {hd : StreamHeader} (hs : acceptStream s = .ok hd) :
    ServedFrom n (s :: rest) ↔ ServedFrom (n + 1) rest := by
  have hserved : serveFrom n (s :: rest) = (n, handlerOf hd) :: serveFrom (n + 1) rest := by
    rw [serveFrom, hs]
  unfold ServedFrom
  rw [hserved]
  constructor
  · intro h k t hd' hk hacc
    rcases List.mem_cons.1 (h (k + 1) t hd' hk hacc) with heq | hmem
    · have := (Prod.mk.inj heq).1
      omega
    · rwa [Nat.add_right_comm]
  · intro h k t hd' hk hacc
    cases k with
    | zero =>
      obtain rfl : s = t := by simpa using hk
      obtain rfl : hd = hd' := Except.ok.inj (hs.symm.trans hacc)
      exact List.mem_cons_self
    | succ k =>
      have := h k t hd' hk hacc
      rw [Nat.add_right_comm] at this
      exact List.mem_cons_of_mem _ this

/-- What the loop does from the `n`-th stream on. -/
theorem servedFrom_iff (streams : List Incoming) (n : ℕ) :
    ServedFrom n streams ↔ BadStreamsLast streams := by
  induction streams generalizing n with
  | nil => simp [ServedFrom, BadStreamsLast]
  | cons s rest ih =>
    rw [BadStreamsLast, List.pairwise_cons]
    cases hs : acceptStream s with
    | error e =>
      have hbad : s.Bad := ⟨e, hs⟩
      rw [servedFrom_of_bad n hbad]
      exact ⟨fun hrest => ⟨fun t ht _ => hrest t ht,
        List.pairwise_of_forall_mem_list fun _ _ t ht _ => hrest t ht⟩,
        fun ⟨hrest, _⟩ t ht => hrest t ht hbad⟩
    | ok hd =>
      rw [servedFrom_of_ok n hs, ih (n + 1)]
      exact ⟨fun hrest => ⟨fun t _ hbad => absurd hbad (not_bad_of_ok hs), hrest⟩, And.right⟩

/-- **When a bad stream fails alone**: the streams of a connection whose headers decode are all
served iff none of them comes after a stream whose header does not. -/
theorem serve_fails_alone_iff (streams : List Incoming) :
    EveryGoodStreamServed streams ↔ BadStreamsLast streams := by
  rw [← servedFrom_iff streams 0]
  simp only [EveryGoodStreamServed, ServedFrom, serveWithRpc, Nat.zero_add]

/-- A stream that the peer resets before its header arrives, followed by a control stream: the
control stream is never served. -/
theorem serve_fails_alone_fails :
    ¬ EveryGoodStreamServed
      [⟨[], "stream reset by peer: error 0"⟩, ⟨StreamHeader.control.encode, ""⟩] := by
  intro h
  have := h 1 ⟨StreamHeader.control.encode, ""⟩ StreamHeader.control rfl (by decide)
  revert this
  decide

end Net

end Latticed
