import Latticed.Daemon.Introductions
import Latticed.Daemon.Node
import Latticed.Daemon.Runtime
import Latticed.Engine.Samples
import Latticed.Net.Codec
import Latticed.Net.Wire

/-!
# Answering control requests

A device answers each control stream on a thread of its own.  What does not decode is refused; what
does is handled, and a handler that panics leaves the stream without an answer.

Most of what a request may ask is refused in words.  The words that refuse a model with another digest
quote sixteen bytes of the digest that was asked for, wherever a character of it ends.

* `handle_panics_iff` : when the handler panics.
* `answered_iff` : when a control frame is answered.
* `load_unanswered` : a request of 24 bytes that is not.
-/

namespace Latticed

namespace Daemon

open Engine Net Rust

variable {Key : Type} [PublicKey Key] {C : Candle}

/-- What `std::sync::RwLock` guards, and whether a writer has panicked. -/
structure Guarded (α : Type) where
  value : α
  poisoned : Bool

/-- `read().expect(message)`. -/
def Guarded.read {α : Type} (g : Guarded α) (message : String) : Outcome Empty α :=
  if g.poisoned then .panic message else .ok g.value

/-- `Node`: its trust store, its own id, name and platform, its model and shard, and its GPU. -/
structure Device (Key : Type) (C : Candle) where
  store : Guarded (TrustStore Key)
  identity : DeviceId × String × String
  node : Node C
  runtime : Guarded (Option WorkerRuntime)

/-- What the world answers while a request is handled. -/
structure Circumstances where
  /-- The clock and the outcome of saving, for each introduction. -/
  record : ℕ → UInt64 × Except NetError Unit
  /-- How the processes that are gone have ended. -/
  exited : ℕ → Option String
  /-- The world at the first health check and at the second. -/
  first : Outside
  second : Outside
  /-- The runtime when the second check comes: other calls go on in between. -/
  meanwhile : WorkerRuntime → WorkerRuntime
  /-- Nobody holds the permit. -/
  free : Bool
  /-- What the GPU helper lists; it panics if no thread can be started to read its output. -/
  devices : Outcome String (List GpuDevice)
  /-- How `{:?}` prints a string. -/
  debug : String → String

/-- The device that is reported. -/
def reportedDevice (rt : WorkerRuntime) (o : Circumstances) : Outcome String GpuDevice :=
  if o.free then
    o.devices.andThen fun devices => .ofExcept (selectDevice o.debug devices (some rt.device.name))
  else .ok rt.device

/-- `capabilities`. -/
def capabilities (rt : WorkerRuntime) (o : Circumstances) (from_ : DeviceId) :
    Outcome String EngineCapabilities × WorkerRuntime :=
  let first := rt.checkHealth o.exited o.first from_
  match first.1.andThen fun _ => reportedDevice rt o with
  | .ok device =>
    let second := (o.meanwhile first.2).checkHealth o.exited o.second from_
    (second.1.andThen fun _ => .ok ⟨engineRevision, device, !o.free⟩, second.2)
  | .err e => (.err e, first.2)
  | .panic m => (.panic m, first.2)

/-- What a worker without an engine says. -/
def noEngine : String :=
  "GPU inference unavailable; run ./scripts/setup-engine.sh and restart latticed worker"

/-- The answer that a call of `capabilities` leads to. -/
def capabilitiesResponse : Outcome String EngineCapabilities → Outcome Empty Response
  | .ok info => .ok (.inferenceInfo info)
  | .err e => .ok (.refused e)
  | .panic m => .panic m

namespace Device

/-- `Node::handle`. -/
def handle (d : Device Key C) (o : Circumstances) (from_ : DeviceId) :
    Request → Outcome Empty Response × Device Key C
  | .inferenceInfo =>
    match d.runtime.read "runtime poisoned" with
    | .ok (some rt) =>
      let (result, rt) := capabilities rt o from_
      (capabilitiesResponse result, { d with runtime := { d.runtime with value := some rt } })
    | .ok none => (.ok (.refused noEngine), d)
    | .panic m => (.panic m, d)
  | .hello => (.ok (.identity d.identity.1 d.identity.2.1 d.identity.2.2), d)
  | .provision peers =>
    match d.store.read "trust store poisoned" with
    | .ok store =>
      let (store, response) := acceptIntroductions d.identity.1 store from_
        (peers.mapIdx fun n i => ⟨i, (o.record n).1, (o.record n).2⟩)
      (.ok response, { d with store := { d.store with value := store } })
    | .panic m => (.panic m, d)
  | .loadShard spec =>
    let (response, node) := d.node.loadShard spec
    (response, { d with node })
  | .registerWorker _ => (.ok (.refused "this device is not running as master"), d)

/-- The response to the bytes of a control frame, unless the handler panics. -/
def respond (d : Device Key C) (o : Circumstances) (from_ : DeviceId) (bytes : Bytes) :
    Outcome Empty Response × Device Key C :=
  match Request.wire.decode bytes with
  | .ok request => d.handle o from_ request
  -- a peer we cannot parse gets told so rather than left hanging
  | .error e => (.ok (.refused ("unintelligible request: " ++ e)), d)

/-- `control::answer` on the bytes that arrive: what it writes, or why it writes nothing. -/
def answer (d : Device Key C) (o : Circumstances) (from_ : DeviceId) (r : Recv) :
    Except NetError Bytes :=
  match readFrame r maxControlFrame with
  | .error e => .error e
  | .ok (bytes, _) =>
    match (d.respond o from_ bytes).1 with
    | .ok response => writeFrame response.write
    | .panic m => .error (.stream ("control handler failed: " ++ m))

/-- **The request is answered**: the handler does not panic, and what is written is one frame, with its
response. -/
def Answered (d : Device Key C) (o : Circumstances) (from_ : DeviceId) (bytes : Bytes) (r : Recv) :
    Prop :=
  ∃ response : Response, (d.respond o from_ bytes).1 = .ok response ∧
    d.answer o from_ r = .ok (toLeBytes 4 response.write.length ++ response.write)

end Device

/-- `is_char_boundary`, below the length of the string. -/
def IsCharBoundary (s : String) (n : ℕ) : Prop := ∃ cs, takeBytes n s.toList = some cs

/-- The health checks of `capabilities` or the helper in between panic. -/
def CapabilitiesPanic (rt : WorkerRuntime) (o : Circumstances) (from_ : DeviceId) : Prop :=
  rt.poisoned = true ∨ (rt.checkHealth o.exited o.first from_).1 = .ok () ∧
    ((o.free = true ∧ ∃ m, o.devices = .panic m) ∨ (∃ device, reportedDevice rt o = .ok device) ∧
      (o.meanwhile (rt.checkHealth o.exited o.first from_).2).poisoned = true)

/-- What makes the handler panic. -/
def Device.Trips (d : Device Key C) (o : Circumstances) (from_ : DeviceId) : Request → Prop
  | .hello => False
  | .registerWorker _ => False
  | .provision _ => d.store.poisoned = true
  | .inferenceInfo => d.runtime.poisoned = true ∨ ∃ rt, d.runtime.value = some rt ∧
      CapabilitiesPanic rt o from_
  | .loadShard spec => ∃ file hash, d.node.model = some file ∧ C.hashFile file = .ok hash ∧
      hash ≠ spec.modelHash ∧ ¬ (IsCharBoundary hash 16 ∧
        IsCharBoundary spec.modelHash (min 16 spec.modelHash.utf8ByteSize))

/-- What stops the introductions, if something does, is told in words that fit a frame. -/
def StopFits (self sender : DeviceId) (store : TrustStore Key) : List Arrival → Prop
  | [] => True
  | a :: rest =>
    match (a.introduction.intoPeer sender a.now : Except NetError (PairedPeer Key)) with
    | .error e => (Response.refused e.display).Fits
    | .ok peer =>
      if peer.deviceId = self ∨ knows store peer.deviceId then StopFits self sender store rest
      else match store.insert peer a.save with
        | (_, .error e) => (Response.refused ("could not record the introduction: " ++ e.display)).Fits
        | (store, .ok ()) => StopFits self sender store rest

/-- What `capabilities` reports fits a frame. -/
def CapabilitiesBrief (rt : WorkerRuntime) (o : Circumstances) (from_ : DeviceId) : Prop :=
  (∀ e, (rt.checkHealth o.exited o.first from_).1 = .err e → (Response.refused e).Fits) ∧
    ((rt.checkHealth o.exited o.first from_).1 = .ok () →
      (∀ e, reportedDevice rt o = .err e → (Response.refused e).Fits) ∧
      ∀ device, reportedDevice rt o = .ok device →
        (∀ e, ((o.meanwhile (rt.checkHealth o.exited o.first from_).2).checkHealth o.exited o.second
          from_).1 = .err e → (Response.refused e).Fits) ∧
        (((o.meanwhile (rt.checkHealth o.exited o.first from_).2).checkHealth o.exited o.second
          from_).1 = .ok () → (Response.inferenceInfo ⟨engineRevision, device, !o.free⟩).Fits))

/-- The words and names that the response quotes fit a frame. -/
def Device.Brief (d : Device Key C) (o : Circumstances) (from_ : DeviceId) : Request → Prop
  | .hello => (Response.identity d.identity.1 d.identity.2.1 d.identity.2.2).Fits
  | .registerWorker _ => True
  | .provision peers => knows d.store.value from_ → StopFits d.identity.1 from_ d.store.value
      (peers.mapIdx fun n i => ⟨i, (o.record n).1, (o.record n).2⟩)
  | .inferenceInfo => ∀ rt, d.runtime.value = some rt → CapabilitiesBrief rt o from_
  | .loadShard spec => ∀ file, d.node.model = some file →
      (∀ e, C.hashFile file = .error e →
        (Response.refused ("could not hash the model: " ++ C.display e)).Fits) ∧
      (C.hashFile file = .ok spec.modelHash → d.node.shard.alive = true →
        ∀ e, ((CandleShard.openFile file spec).andThen CandleShard.stats) = .err e →
          (Response.refused ("could not load the shard: " ++ C.display e)).Fits)

/-- A handler returns or panics. -/
theorem ok_or_panic {α : Type} (x : Outcome Empty α) : (∃ a, x = .ok a) ∨ ∃ m, x = .panic m := by
  cases x with
  | ok a => exact .inl ⟨a, rfl⟩
  | err e => exact e.elim
  | panic m => exact .inr ⟨m, rfl⟩

theorem sliceTo_cases {ε : Type} (s : String) (n : ℕ) :
    (IsCharBoundary s n ∧ ∃ t, (sliceTo s n : Outcome ε String) = .ok t) ∨
      ¬ IsCharBoundary s n ∧ ∃ m, (sliceTo s n : Outcome ε String) = .panic m := by
  rw [sliceTo, IsCharBoundary]
  cases takeBytes n s.toList <;> simp

/-- **The refusal of another digest** quotes both digests or panics. -/
theorem otherModel_panics_iff (hash asked : String) :
    (∃ m, Node.otherModel hash asked = .panic m) ↔
      ¬ (IsCharBoundary hash 16 ∧ IsCharBoundary asked (min 16 asked.utf8ByteSize)) := by
  rw [Node.otherModel]
  obtain ⟨hhash, held, h⟩ | ⟨hhash, m, h⟩ := @sliceTo_cases Empty hash 16
  · rw [h, Outcome.andThen_ok]
    obtain ⟨hasked, text, h'⟩ | ⟨hasked, m, h'⟩ :=
      @sliceTo_cases Empty asked (min 16 asked.utf8ByteSize)
    · simp [h', hhash, hasked]
    · simp [h', hasked]
  · simp [h, hhash]

theorem checkHealth_panics_iff (rt : WorkerRuntime) (exited : ℕ → Option String) (o : Outside)
    (from_ : DeviceId) : (∃ m, (rt.checkHealth exited o from_).1 = .panic m) ↔
      rt.poisoned = true := by
  rw [WorkerRuntime.checkHealth, WorkerRuntime.locked]
  by_cases hpoisoned : rt.poisoned = true
  · simp [hpoisoned]
  · rw [if_neg hpoisoned]
    cases rt.checkMaster from_ with
    | error e => simp [hpoisoned]
    | ok u =>
      cases rt.server with
      | none => simp [hpoisoned]
      | some server =>
        rcases hwait : WorkerRuntime.tryWait exited o server with e | _ | status <;>
          simp [hpoisoned, hwait]

theorem reportedDevice_panics_iff (rt : WorkerRuntime) (o : Circumstances) :
    (∃ m, reportedDevice rt o = .panic m) ↔ o.free = true ∧ ∃ m, o.devices = .panic m := by
  rw [reportedDevice]
  split_ifs with hfree
  · cases o.devices with
    | ok devices =>
      cases hselect : selectDevice o.debug devices (some rt.device.name) <;>
        simp [Outcome.ofExcept, hselect]
    | err e => simp
    | panic m => simp [hfree]
  · simp [hfree]

theorem capabilities_panics_iff (rt : WorkerRuntime) (o : Circumstances) (from_ : DeviceId) :
    (∃ m, (capabilities rt o from_).1 = .panic m) ↔ CapabilitiesPanic rt o from_ := by
  have hfirst := checkHealth_panics_iff rt o.exited o.first from_
  have hdevice := reportedDevice_panics_iff rt o
  have hsecond := checkHealth_panics_iff (o.meanwhile (rt.checkHealth o.exited o.first from_).2)
    o.exited o.second from_
  rw [capabilities, CapabilitiesPanic, ← hfirst, ← hdevice, ← hsecond]
  cases hcheck : (rt.checkHealth o.exited o.first from_).1 with
  | err e => simp
  | panic m => simp
  | ok u =>
    cases hreported : reportedDevice rt o with
    | err e => simp
    | panic m => simp
    | ok device =>
      cases hlater : ((o.meanwhile (rt.checkHealth o.exited o.first from_).2).checkHealth o.exited
        o.second from_).1 <;> simp [hlater]

/-- **When the handler panics.** -/
theorem handle_panics_iff (d : Device Key C) (o : Circumstances) (from_ : DeviceId)
    (request : Request) :
    (∃ m, (d.handle o from_ request).1 = .panic m) ↔ d.Trips o from_ request := by
  cases request with
  | hello => simp [Device.handle, Device.Trips]
  | registerWorker port => simp [Device.handle, Device.Trips]
  | provision peers =>
    rw [Device.handle, Device.Trips, Guarded.read]
    cases d.store.poisoned <;> simp
  | inferenceInfo =>
    rw [Device.handle, Device.Trips, Guarded.read]
    cases d.runtime.poisoned with
    | true => simp
    | false =>
      cases hruntime : d.runtime.value with
      | none => simp
      | some rt =>
        have := capabilities_panics_iff rt o from_
        cases hresult : (capabilities rt o from_).1 <;>
          simp [hresult, capabilitiesResponse, ← this]
  | loadShard spec =>
    rw [Device.handle, Device.Trips, Node.loadShard]
    cases hmodel : d.node.model with
    | none => simp
    | some file =>
      cases hhash : C.hashFile file with
      | error e => simp [hhash]
      | ok hash =>
        by_cases heq : hash = spec.modelHash
        · simp [hhash, heq]
        · have := otherModel_panics_iff hash spec.modelHash
          simp [hhash, heq, this]

/-! ### What a response quotes -/

/-- Every refusal of the loop is one that stops it. -/
theorem acceptFrom_fits_iff (self sender : DeviceId) (store : TrustStore Key) (added known : ℕ)
    (peers : List Arrival) :
    (acceptFrom self sender store added known peers).2.Fits ↔ StopFits self sender store peers := by
  induction peers generalizing store added known with
  | nil => exact iff_of_true (Response.fits_provisioned added known) trivial
  | cons a rest ih =>
    rw [acceptFrom, StopFits]
    cases (a.introduction.intoPeer sender a.now : Except NetError (PairedPeer Key)) with
    | error e => exact Iff.rfl
    | ok peer =>
      dsimp only
      split_ifs
      · exact ih store added (known + 1)
      · rcases store.insert peer a.save with ⟨store', e | u⟩
        · exact Iff.rfl
        · exact ih store' (added + 1) known

theorem capabilities_fits_iff {rt : WorkerRuntime} {o : Circumstances} {from_ : DeviceId}
    {response : Response} (h : capabilitiesResponse (capabilities rt o from_).1 = .ok response) :
    response.Fits ↔ CapabilitiesBrief rt o from_ := by
  rw [capabilities] at h
  rw [CapabilitiesBrief]
  cases hcheck : (rt.checkHealth o.exited o.first from_).1 with
  | err e =>
    rw [hcheck] at h
    obtain rfl := Outcome.ok.inj h
    simp
  | panic m =>
    rw [hcheck] at h
    cases h
  | ok u =>
    cases hreported : reportedDevice rt o with
    | err e =>
      rw [hcheck, Outcome.andThen_ok, hreported] at h
      obtain rfl := Outcome.ok.inj h
      simp
    | panic m =>
      rw [hcheck, Outcome.andThen_ok, hreported] at h
      cases h
    | ok device =>
      rw [hcheck, Outcome.andThen_ok, hreported] at h
      cases hlater : ((o.meanwhile (rt.checkHealth o.exited o.first from_).2).checkHealth o.exited
        o.second from_).1 with
      | err e =>
        simp only [hlater, Outcome.andThen_err, capabilitiesResponse, Outcome.ok.injEq] at h
        subst h
        simp
      | panic m =>
        simp only [hlater, Outcome.andThen_panic, capabilitiesResponse, reduceCtorEq] at h
      | ok u' =>
        simp only [hlater, Outcome.andThen_ok, capabilitiesResponse, Outcome.ok.injEq] at h
        subst h
        simp

/-- The words that refuse another digest fit a frame. -/
theorem otherModel_fits {hash asked : String} {response : Response}
    (h : Node.otherModel hash asked = .ok response) : response.Fits := by
  obtain ⟨held, hheld, h⟩ := Outcome.andThen_eq_ok.1 h
  obtain ⟨text, htext, h⟩ := Outcome.andThen_eq_ok.1 h
  obtain rfl := Outcome.ok.inj h
  apply Response.fits_refused
  have hholds : "this device holds ".utf8ByteSize = 18 := by decide
  have hnot : ", not ".utf8ByteSize = 6 := by decide
  simp only [String.utf8ByteSize_append, size_sliceTo hheld, size_sliceTo htext]
  omega

theorem load_fits_iff (thread : ShardThread C) (file : C.File) (spec : ShardSpec) :
    (thread.load file spec).1.Fits ↔ (thread.alive = true →
      ∀ e, ((CandleShard.openFile file spec).andThen CandleShard.stats) = .err e →
        (Response.refused ("could not load the shard: " ++ C.display e)).Fits) := by
  rw [ShardThread.load]
  split_ifs with halive
  · cases hopen : CandleShard.openFile file spec with
    | err e => simp [halive]
    | panic m => simpa [halive] using Response.fits_refused (by decide)
    | ok shard =>
      cases hstats : shard.stats with
      | err e => simp [halive, hstats]
      | panic m => simpa [halive, hstats] using Response.fits_refused (by decide)
      | ok stats => simpa [halive, hstats] using Response.fits_shardLoaded stats.1 stats.2
  · simpa [halive] using Response.fits_refused (by decide)

/-- A refusal to load quotes an error of hashing or of opening the file. -/
theorem loadShard_fits_iff {d : Device Key C} {o : Circumstances} {from_ : DeviceId}
    {spec : ShardSpec} {response : Response} (h : (d.node.loadShard spec).1 = .ok response) :
    response.Fits ↔ d.Brief o from_ (.loadShard spec) := by
  rw [Node.loadShard] at h
  rw [Device.Brief]
  cases hmodel : d.node.model with
  | none =>
    rw [hmodel] at h
    obtain rfl := Outcome.ok.inj h
    exact iff_of_true (Response.fits_refused (by decide)) fun file hfile => (by cases hfile)
  | some file =>
    cases hhash : C.hashFile file with
    | error e =>
      simp only [hmodel, hhash, Outcome.ok.injEq] at h
      subst h
      simp [hhash]
    | ok hash =>
      by_cases heq : hash = spec.modelHash
      · simp only [hmodel, hhash, heq, if_true, Outcome.ok.injEq] at h
        subst h
        simpa [hhash, heq] using load_fits_iff d.node.shard file spec
      · simp only [hmodel, hhash, heq, if_false] at h
        simpa [hhash, heq] using otherModel_fits h

/-- **When a response fits a frame.** -/
theorem handle_fits_iff {d : Device Key C} {o : Circumstances} {from_ : DeviceId}
    {request : Request} {response : Response} (h : (d.handle o from_ request).1 = .ok response) :
    response.Fits ↔ d.Brief o from_ request := by
  cases request with
  | hello =>
    obtain rfl := Outcome.ok.inj h
    exact Iff.rfl
  | registerWorker port =>
    obtain rfl := Outcome.ok.inj h
    exact iff_of_true (Response.fits_refused (by decide)) trivial
  | provision peers =>
    rw [Device.handle, Guarded.read] at h
    rw [Device.Brief]
    split_ifs at h with hpoisoned
    obtain rfl := Outcome.ok.inj h
    rw [acceptIntroductions]
    split_ifs with hknown
    · simpa [hknown] using acceptFrom_fits_iff ..
    · refine iff_of_true (Response.fits_refused ?_) fun hk => absurd hk hknown
      have hname : from_.display.utf8ByteSize ≤ 4 * 16 := size_hex_le 16 from_.val
      have hpaired : " is not a paired device".utf8ByteSize = 23 := by decide
      rw [String.utf8ByteSize_append]
      omega
  | inferenceInfo =>
    rw [Device.handle, Guarded.read] at h
    rw [Device.Brief]
    split_ifs at h with hpoisoned
    cases hruntime : d.runtime.value with
    | none =>
      rw [hruntime] at h
      obtain rfl := Outcome.ok.inj h
      exact iff_of_true (Response.fits_refused (by decide)) fun rt hrt => (by cases hrt)
    | some rt =>
      rw [hruntime] at h
      simpa using capabilities_fits_iff h
  | loadShard spec => exact loadShard_fits_iff h

namespace Device

theorem respond_panics_iff (d : Device Key C) (o : Circumstances) (from_ : DeviceId)
    (bytes : Bytes) : (∃ m, (d.respond o from_ bytes).1 = .panic m) ↔
      ∃ request, Request.wire.decode bytes = .ok request ∧ d.Trips o from_ request := by
  rw [respond]
  cases hdecode : Request.wire.decode bytes with
  | error e => simp
  | ok request => simpa using handle_panics_iff d o from_ request

/-- The refusal of what does not decode always fits. -/
theorem respond_fits_iff {d : Device Key C} {o : Circumstances} {from_ : DeviceId} {bytes : Bytes}
    {response : Response} (h : (d.respond o from_ bytes).1 = .ok response) :
    response.Fits ↔ ∀ request, Request.wire.decode bytes = .ok request → d.Brief o from_ request := by
  rw [respond] at h
  cases hdecode : Request.wire.decode bytes with
  | ok request =>
    rw [hdecode] at h
    simpa using handle_fits_iff h
  | error e =>
    rw [hdecode] at h
    obtain rfl := Outcome.ok.inj h
    refine iff_of_true (Response.fits_refused ?_) fun request hrequest => (by cases hrequest)
    have hshort : ∀ e ∈ Postcard.errors, ("unintelligible request: " ++ e).utf8ByteSize ≤ 2 ^ 31 := by
      decide
    exact hshort e (Postcard.Wire.decode_error Request.known_wire hdecode)

/-- What is written for a control frame that arrives. -/
theorem answer_eq (d : Device Key C) (o : Circumstances) (from_ : DeviceId) {bytes more : Bytes}
    {r : Recv} (hmax : bytes.length ≤ maxControlFrame)
    (hr : r.bytes = toLeBytes 4 bytes.length ++ bytes ++ more) :
    d.answer o from_ r = match (d.respond o from_ bytes).1 with
      | .ok response => writeFrame response.write
      | .panic m => .error (.stream ("control handler failed: " ++ m)) := by
  have hle : bytes.length ≤ 64 * 2 ^ 10 := hmax
  obtain ⟨r', hread, -⟩ := readFrame_writeFrame (writeFrame_of_lt (show bytes.length < _ by omega))
    hmax hr
  rw [answer, hread]

/-- **When a control request is answered**: iff it does not make the handler panic, and what the
response quotes fits a frame. -/
theorem answered_iff (d : Device Key C) (o : Circumstances) (from_ : DeviceId) {bytes more : Bytes}
    {r : Recv} (hmax : bytes.length ≤ maxControlFrame)
    (hr : r.bytes = toLeBytes 4 bytes.length ++ bytes ++ more) :
    d.Answered o from_ bytes r ↔ ∀ request, Request.wire.decode bytes = .ok request →
      ¬ d.Trips o from_ request ∧ d.Brief o from_ request := by
  have hpanics := respond_panics_iff d o from_ bytes
  rw [Answered, answer_eq d o from_ hmax hr]
  rcases ok_or_panic (d.respond o from_ bytes).1 with ⟨response, hresponse⟩ | ⟨m, hpanic⟩
  · have hcalm : ∀ request, Request.wire.decode bytes = .ok request →
        ¬ d.Trips o from_ request := by
      intro request hdecode htrips
      obtain ⟨m, hm⟩ := hpanics.2 ⟨request, hdecode, htrips⟩
      rw [hresponse] at hm
      cases hm
    have hfits := respond_fits_iff hresponse
    constructor
    · rintro ⟨response', hresponse', hwritten⟩ request hdecode
      obtain rfl := Outcome.ok.inj (hresponse.symm.trans hresponse')
      refine ⟨hcalm request hdecode, hfits.1 ?_ request hdecode⟩
      rw [hresponse] at hwritten
      by_contra hlong
      have hrefused : writeFrame response.write = .error _ := if_neg hlong
      cases hrefused.symm.trans hwritten
    · intro h
      refine ⟨response, hresponse, ?_⟩
      rw [hresponse]
      exact writeFrame_of_lt (hfits.2 fun request hdecode => (h request hdecode).2)
  · obtain ⟨request, hdecode, htrips⟩ := hpanics.1 ⟨m, hpanic⟩
    constructor
    · rintro ⟨response, hresponse, -⟩
      rw [hpanic] at hresponse
      cases hresponse
    · intro h
      exact absurd htrips (h request hdecode).1

end Device

/-- An engine whose only file is empty. -/
def emptyFile : Candle :=
  { blank 1 with
    hashFile := fun _ => .ok "e3b0c44298fc1c149afbf4c8996fb92427ae41e4649b934ca495991b7852b855" }

/-- A device that serves the empty file, without a GPU. -/
def servesEmpty : Device UInt8 emptyFile where
  store := ⟨.empty, false⟩
  identity := (9, "laptop", "macos-aarch64")
  node := ⟨some (), .spawn⟩
  runtime := ⟨none, false⟩

/-- Nothing goes wrong outside. -/
def quietly : Circumstances where
  record _ := (0, .ok ())
  exited _ := none
  first := ⟨none, .ok [], .ok 5000, false, .ok (), false, String.quote⟩
  second := ⟨none, .ok [], .ok 5000, false, .ok (), false, String.quote⟩
  meanwhile := id
  free := true
  devices := .ok []
  debug := String.quote

/-- The bytes of `Hello`. -/
theorem hello_answered : servesEmpty.Answered quietly 1 [0] ⟨[[1, 0, 0, 0, 0]], "finished"⟩ := by
  have hframe : (⟨[[1, 0, 0, 0, 0]], "finished"⟩ : Recv).bytes = toLeBytes 4 1 ++ [0] ++ [] := by
    decide
  refine (Device.answered_iff servesEmpty quietly 1 (by decide) hframe).2 ?_
  intro request hdecode
  obtain rfl : Request.hello = request := Except.ok.inj hdecode
  refine ⟨id, ?_⟩
  show (Response.identity 9 "laptop" "macos-aarch64").write.length < 2 ^ 32
  decide

/-- A digest whose sixteenth byte is in the middle of a character. -/
def splitDigest : String := "aaaaaaaaaaaaaaaé"

/-- The bytes of a `LoadShard` request for it. -/
def splitRequest : Bytes := Request.wire.write (.loadShard ⟨splitDigest, 0, 1, 0, .f16, .f16⟩)

/-- **A request without an answer**: the handler panics in the words that refuse it. -/
theorem load_unanswered : ¬ servesEmpty.Answered quietly 1 splitRequest
    ⟨[toLeBytes 4 splitRequest.length ++ splitRequest], "finished"⟩ := by
  rintro ⟨response, hresponse, -⟩
  have hdecode : Request.wire.decode splitRequest =
    .ok (.loadShard ⟨splitDigest, 0, 1, 0, .f16, .f16⟩) := Request.wire.decode_write (by decide)
  have hinside : ¬ IsCharBoundary splitDigest (min 16 splitDigest.utf8ByteSize) := by
    rintro ⟨cs, hcs⟩
    have hnone : takeBytes (min 16 splitDigest.utf8ByteSize) splitDigest.toList = none := by decide
    rw [hnone] at hcs
    cases hcs
  obtain ⟨m, hpanic⟩ := (servesEmpty.respond_panics_iff quietly 1 splitRequest).2
    ⟨_, hdecode, (), _, rfl, rfl, by decide, fun h => hinside h.2⟩
  rw [hpanic] at hresponse
  cases hresponse

end Daemon

end Latticed
