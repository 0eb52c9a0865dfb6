import Latticed.Daemon.Handler
import Latticed.Net.Dispatch
import Latticed.Net.Responses
import Latticed.Net.Serving

/-!
# Control requests, from end to end

A control request has a stream to itself.  The one that asks writes the header of the stream and one
frame; the one that is asked reads both, handles the request, and writes one frame.  In either direction
the transport may cut the bytes anywhere.

* `Asking.exchange_eq` : an exchange does what a call of the handler does, and what the one that asks
  makes of it is the response of the handler, unless that is too long for a control frame or the handler
  panics.
* `conversation_eq` : so do any number of exchanges.
-/

namespace Latticed

namespace Daemon

open Engine Net Rust

variable {Key : Type} [PublicKey Key] {C : Candle}

/-- What one direction of a stream does with the bytes that are written to it: they arrive in order, cut
into chunks, and once they have, reading ends. -/
structure Delivery where
  cut : Bytes → List Bytes
  flatten_cut : ∀ bytes, (cut bytes).flatten = bytes
  ending : String

namespace Delivery

/-- The other end of the direction. -/
def recv (v : Delivery) (bytes : Bytes) : Recv := ⟨v.cut bytes, v.ending⟩

@[simp] theorem bytes_recv (v : Delivery) (bytes : Bytes) : (v.recv bytes).bytes = bytes :=
  v.flatten_cut bytes

@[simp] theorem ending_recv (v : Delivery) (bytes : Bytes) : (v.recv bytes).ending = v.ending := rfl

end Delivery

/-- The bytes that a stream which the peer opened carries back, and the device after it.  Nothing is
written on a stream that cannot be served. -/
def Device.serve (d : Device Key C) (o : Circumstances) (from_ : DeviceId) (r : Recv) :
    Bytes × Device Key C :=
  match r.readExact headerLen with
  | .error _ => ([], d)
  | .ok (header, r) =>
    match (StreamHeader.decode header).map handlerOf with
    | .ok .control =>
      match readFrame r maxControlFrame with
      | .error _ => ([], d)
      | .ok (bytes, _) =>
        -- `let _ = control::answer(..)`: an error of the answer goes no further
        ((d.answer o from_ r).toOption.getD [], (d.respond o from_ bytes).2)
    | _ => ([], d)

/-- A device that asks another one for something that fits a control frame. -/
structure Asking where
  from_ : DeviceId
  request : Request
  fits : (Request.wire.write request).length ≤ maxControlFrame
  circumstances : Circumstances
  there : Delivery
  back : Delivery

namespace Asking

/-- `control::request`, with the device that is asked. -/
def exchange (a : Asking) (d : Device Key C) : Except NetError Response × Device Key C :=
  match writeFrame (Request.wire.write a.request) with
  | .error e => (.error e, d)
  | .ok frame =>
    let (bytes, d) := d.serve a.circumstances a.from_
      (a.there.recv (StreamHeader.control.encode ++ frame))
    (received (a.back.recv bytes), d)

/-- A call of the handler. -/
def call (a : Asking) (d : Device Key C) : Outcome Empty Response × Device Key C :=
  d.handle a.circumstances a.from_ a.request

/-- What the one that asks is told of what the handler came to. -/
def told (a : Asking) : Outcome Empty Response → Except NetError Response
  | .ok response =>
    if response.write.length ≤ maxControlFrame then .ok response
    else if response.write.length < 2 ^ 32 then
      .error (.stream ("peer announced a " ++ toString response.write.length ++
        " byte frame, ceiling is " ++ toString maxControlFrame))
    else .error (.stream ("reading frame length: " ++ a.back.ending))
  | .panic _ => .error (.stream ("reading frame length: " ++ a.back.ending))

end Asking

/-! ### The counts of a response -/

/-- The loop counts every introduction once. -/
theorem acceptFrom_counted (self sender : DeviceId) (store : TrustStore Key) (added known : ℕ)
    (peers : List Arrival) (h : added + known + peers.length < 2 ^ 32) :
    (acceptFrom self sender store added known peers).2.Counted := by
  induction peers generalizing store added known with
  | nil =>
    rw [List.length_nil] at h
    exact ⟨by omega, by omega⟩
  | cons a rest ih =>
    rw [List.length_cons] at h
    rw [acceptFrom]
    cases (a.introduction.intoPeer sender a.now : Except NetError (PairedPeer Key)) with
    | error e => exact trivial
    | ok peer =>
      dsimp only
      split_ifs
      · exact ih store added (known + 1) (by omega)
      · rcases store.insert peer a.save with ⟨store', e | u⟩
        · exact trivial
        · exact ih store' (added + 1) known (by omega)

/-- A request that fits a control frame introduces fewer devices than it has bytes. -/
theorem length_introductions (peers : List Introduction) :
    peers.length ≤ (Request.wire.write (.provision peers)).length := by
  have hpos : ∀ i : Introduction, 0 < (Introduction.wire.write i).length := fun i => by
    simp [Introduction.wire, Postcard.Wire.map, Postcard.Wire.pair, Postcard.Wire.array]
  have hle := Postcard.Wire.length_le_flatMap hpos peers
  show peers.length ≤ (Postcard.writeVarint 5 1 ++ (Postcard.writeVarint 10 peers.length ++
    peers.flatMap Introduction.wire.write)).length
  rw [List.length_append, List.length_append]
  omega

theorem capabilitiesResponse_counted {x : Outcome String EngineCapabilities} {response : Response}
    (h : capabilitiesResponse x = .ok response) : response.Counted := by
  cases x with
  | ok info =>
    obtain rfl := Outcome.ok.inj h
    exact trivial
  | err e =>
    obtain rfl := Outcome.ok.inj h
    exact trivial
  | panic m => cases h

theorem otherModel_counted {hash asked : String} {response : Response}
    (h : Node.otherModel hash asked = .ok response) : response.Counted := by
  obtain ⟨held, -, h⟩ := Outcome.andThen_eq_ok.1 h
  obtain ⟨text, -, h⟩ := Outcome.andThen_eq_ok.1 h
  obtain rfl := Outcome.ok.inj h
  exact trivial

theorem load_counted (thread : ShardThread C) (file : C.File) (spec : ShardSpec) :
    (thread.load file spec).1.Counted := by
  rw [ShardThread.load]
  split_ifs
  · cases (CandleShard.openFile file spec) with
    | err e => exact trivial
    | panic m => exact trivial
    | ok shard => cases hstats : shard.stats <;> simp [hstats, Response.Counted]
  · exact trivial

theorem loadShard_counted {node : Node C} {spec : ShardSpec} {response : Response}
    (h : (node.loadShard spec).1 = .ok response) : response.Counted := by
  rw [Node.loadShard] at h
  cases hmodel : node.model with
  | none =>
    rw [hmodel] at h
    obtain rfl := Outcome.ok.inj h
    exact trivial
  | some file =>
    cases hhash : C.hashFile file with
    | error e =>
      simp only [hmodel, hhash, Outcome.ok.injEq] at h
      subst h
      exact trivial
    | ok hash =>
      by_cases heq : hash = spec.modelHash
      · simp only [hmodel, hhash, heq, if_true, Outcome.ok.injEq] at h
        subst h
        exact load_counted node.shard file spec
      · simp only [hmodel, hhash, heq, if_false] at h
        exact otherModel_counted h

/-- **The counts of every response fit their fields**, if the request fits a control frame. -/
theorem Device.handle_counted {d : Device Key C} {o : Circumstances} {from_ : DeviceId}
    {request : Request} {response : Response}
    (hrequest : (Request.wire.write request).length ≤ maxControlFrame)
    (h : (d.handle o from_ request).1 = .ok response) : response.Counted := by
  cases request with
  | hello =>
    obtain rfl := Outcome.ok.inj h
    exact trivial
  | registerWorker port =>
    obtain rfl := Outcome.ok.inj h
    exact trivial
  | provision peers =>
    rw [Device.handle, Guarded.read] at h
    split_ifs at h
    obtain rfl := Outcome.ok.inj h
    rw [acceptIntroductions]
    split_ifs
    · have hle := length_introductions peers
      have hmax : maxControlFrame = 64 * 2 ^ 10 := rfl
      apply acceptFrom_counted
      rw [List.length_mapIdx]
      omega
    · exact trivial
  | inferenceInfo =>
    rw [Device.handle, Guarded.read] at h
    split_ifs at h
    cases hruntime : d.runtime.value with
    | none =>
      rw [hruntime] at h
      obtain rfl := Outcome.ok.inj h
      exact trivial
    | some rt =>
      rw [hruntime] at h
      exact capabilitiesResponse_counted h
  | loadShard spec => exact loadShard_counted h

/-! ### Both directions -/

/-- Nothing can be read where nothing was written. -/
theorem received_nothing {r : Recv} (h : r.bytes = []) :
    received r = .error (.stream ("reading frame length: " ++ r.ending)) := by
  have hread : r.readExact 4 = .error r.ending := Recv.readExact_of_lt (by simp [h])
  rw [received, readFrame, hread]

/-- The bytes that carry back what the handler came to. -/
def written : Outcome Empty Response → Bytes
  | .ok response => (writeFrame response.write).toOption.getD []
  | .panic _ => []

/-- A request that arrives is handled. -/
theorem Device.serve_request (d : Device Key C) (o : Circumstances) (from_ : DeviceId)
    {request : Request} (hrequest : (Request.wire.write request).length ≤ maxControlFrame) {r : Recv}
    (hr : r.bytes = StreamHeader.control.encode ++ (toLeBytes 4 (Request.wire.write request).length ++
      Request.wire.write request)) :
    d.serve o from_ r = (written (d.handle o from_ request).1, (d.handle o from_ request).2) := by
  have hmax : maxControlFrame = 64 * 2 ^ 10 := rfl
  obtain ⟨r₁, hheader, h₁, -⟩ := Recv.readExact_append hr
  rw [StreamHeader.length_encode] at hheader
  obtain ⟨r₂, hframe, -⟩ := readFrame_writeFrame
    (writeFrame_of_lt (show (Request.wire.write request).length < _ by omega)) hrequest
    (h₁.trans (List.append_nil _).symm)
  have hrespond : d.respond o from_ (Request.wire.write request) = d.handle o from_ request := by
    rw [Device.respond, Request.wire.decode_write (by omega)]
  have hdecode : (StreamHeader.decode StreamHeader.control.encode).map handlerOf = .ok .control := by
    rw [StreamHeader.decode_encode]
    rfl
  have hanswer := d.answer_eq o from_ hrequest (h₁.trans (List.append_nil _).symm)
  rw [hrespond] at hanswer
  rw [Device.serve, hheader]
  simp only [hdecode, hframe, hanswer, hrespond]
  refine Prod.ext ?_ rfl
  cases (d.handle o from_ request).1 with
  | ok response => rfl
  | err e => exact e.elim
  | panic m => rfl

/-- **An exchange does what a call does.**  The device that is asked is left as the handler leaves it, and
the one that asks gets the response, unless it is too long or the handler panics. -/
theorem Asking.exchange_eq (a : Asking) (d : Device Key C) :
    a.exchange d = (a.told (a.call d).1, (a.call d).2) := by
  have hmax : maxControlFrame = 64 * 2 ^ 10 := rfl
  have hfits := a.fits
  rw [exchange, writeFrame_of_lt (by omega)]
  dsimp only
  rw [d.serve_request a.circumstances a.from_ a.fits (a.there.bytes_recv _)]
  refine Prod.ext ?_ rfl
  dsimp only
  rw [call]
  rcases ok_or_panic (d.handle a.circumstances a.from_ a.request).1 with
    ⟨response, hresponse⟩ | ⟨m, hpanic⟩
  · rw [hresponse, told, written]
    by_cases hlen : response.write.length < 2 ^ 32
    · rw [if_pos hlen]
      have hbytes : (a.back.recv ((writeFrame response.write).toOption.getD [])).bytes =
          toLeBytes 4 response.write.length ++ response.write ++ [] := by
        rw [Delivery.bytes_recv, writeFrame_of_lt hlen]
        exact (List.append_nil _).symm
      exact received_frame (Device.handle_counted a.fits hresponse) (writeFrame_of_lt hlen) hbytes
    · have hrefused : writeFrame response.write = .error (.stream "frame exceeds 4 GiB") := if_neg hlen
      rw [hrefused, if_neg hlen, if_neg (by omega)]
      exact received_nothing (a.back.bytes_recv [])
  · rw [hpanic, told]
    exact received_nothing (a.back.bytes_recv [])

/-- The exchanges with a device, one after the other: what those that ask are told. -/
def conversation : List Asking → Device Key C → List (Except NetError Response) × Device Key C
  | [], d => ([], d)
  | a :: rest, d =>
    let (answer, d) := a.exchange d
    let (answers, d) := conversation rest d
    (answer :: answers, d)

/-- The calls of the handler of a device, one after the other: what they come to. -/
def calls : List Asking → Device Key C → List (Outcome Empty Response) × Device Key C
  | [], d => ([], d)
  | a :: rest, d =>
    let (outcome, d) := a.call d
    let (outcomes, d) := calls rest d
    (outcome :: outcomes, d)

/-- **Control streams carry calls.**  Any number of exchanges, by whoever and with the bytes cut in
whatever way, leave the device as the calls of its handler do, and tell those that ask what the calls
came to. -/
theorem conversation_eq (askings : List Asking) (d : Device Key C) :
    conversation askings d =
      (List.zipWith (fun a outcome => a.told outcome) askings (calls askings d).1,
        (calls askings d).2) := by
  induction askings generalizing d with
  | nil => rfl
  | cons a rest ih =>
    rw [conversation, calls, a.exchange_eq d]
    dsimp only
    rw [ih, List.zipWith_cons_cons]

end Daemon

end Latticed
