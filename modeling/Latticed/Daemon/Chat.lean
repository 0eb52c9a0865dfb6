import Latticed.Daemon.Places

/-!
# The master connects to the workers of a chat

The workers are given by address, or by identity and found by discovery.  The master dials each of them
in turn, asks what its engine is, and goes on only if the engine is the same, on a GPU that no other chat
uses.

* `checkWorker_eq_ok` : what the master asks of the engine of a worker.
* `connectWorkers_spec` : the workers of a chat are different devices, the ones that were asked for, and
  each of them answered for itself.
-/

namespace Latticed

namespace Daemon

open Net Rust

/-- `Worker`: a worker of a chat. -/
structure ChatWorker where
  id : DeviceId
  name : String
  conn : Connection
  caps : EngineCapabilities
  endpoint : Endpoint

/-- `check_worker`. -/
def checkWorker (caps : EngineCapabilities) (revision : String) : Except String Unit :=
  if caps.revision ≠ revision then
    .error "engine versions differ; run scripts/setup-engine.sh on both machines"
  else if caps.busy then .error "GPU is busy with another chat; wait for it to finish"
  else if ¬ (caps.device.kind = "gpu" ∨ caps.device.kind = "igpu") then
    .error "worker selected a non-GPU device"
  else .ok ()

theorem checkWorker_eq_ok {caps : EngineCapabilities} {revision : String} :
    checkWorker caps revision = .ok () ↔ caps.revision = revision ∧ caps.busy = false ∧
      (caps.device.kind = "gpu" ∨ caps.device.kind = "igpu") := by
  unfold checkWorker
  split_ifs with hrevision hbusy hkind
  · exact iff_of_false (by simp) fun h => hrevision h.1
  · exact iff_of_false (by simp) fun h => by simp [hbusy] at h
  · exact iff_of_true rfl ⟨not_not.1 hrevision, by simpa using hbusy, hkind⟩
  · exact iff_of_false (by simp) fun h => hkind h.2.2

/-- What comes of asking a worker for its engine. -/
inductive InfoReply where
  | timedOut
  | failed (why : String)
  | answered (response : Response)

/-- What the answer of worker `id` says of its engine. -/
def InfoReply.caps [Debug Response] (id : DeviceId) : InfoReply → Except String EngineCapabilities
  | timedOut => .error "worker capability request timed out"
  | failed why => .error why
  | answered (.inferenceInfo caps) => .ok caps
  | answered (.refused why) =>
    if why.startsWith "unintelligible request:" then
      .error ("worker " ++ id.display ++ " is running an older latticed; run ./scripts/setup.sh " ++
        "--inference there and restart its worker service")
    else .error ("worker " ++ id.display ++ ": " ++ why)
  | answered other => .error ("worker " ++ id.display ++ " does not support inference: " ++
      Debug.debug other ++ "; update its installation")

variable {Key : Type} [PublicKey Key]

/-- A device to dial, what comes of it, and what it answers. -/
structure Located.Worker (Key : Type) where
  expected : Option DeviceId
  addrs : List SocketAddr
  dial : ℕ → SocketAddr → DialAttempt Key
  reply : InfoReply

/-- The first half of the loop of `connect_workers`: the device is dialled and asked who it is. -/
def dialWorker (policy : Key → Bool) (self : DeviceId) (expected : Option DeviceId)
    (addrs : List SocketAddr) (dial : ℕ → SocketAddr → DialAttempt Key) :
    Except String (Endpoint × Connection) :=
  match connectAny policy dial addrs with
  | .error why => .error why
  | .ok (endpoint, conn) =>
    if expected.any (· ≠ conn.peerId) ∨ conn.peerId = self then
      .error "worker identity differs from the selected device"
    else .ok (endpoint, conn)

/-- The loop of `connect_workers`, with the workers it has so far. -/
def connectWorkersFrom [DecidableEq Key] [Debug Response] (store : TrustStore Key)
    (self : DeviceId) (revision : String) :
    List ChatWorker → List (Located.Worker Key) → Except String (List ChatWorker)
  | workers, [] => .ok workers
  | workers, t :: located =>
    match dialWorker store.isTrusted self t.expected t.addrs t.dial with
    | .error why => .error why
    | .ok (endpoint, conn) =>
      let id := conn.peerId
      if workers.any (·.id = id) then
        .error ("worker " ++ id.display ++ " was selected more than once")
      else
        match t.reply.caps id with
        | .error why => .error why
        | .ok caps =>
          match checkWorker caps revision with
          | .error _ => .error ("worker " ++ id.display)
          | .ok () =>
            let name := ((store.get id).map (·.name)).getD id.display
            connectWorkersFrom store self revision (workers ++ [⟨id, name, conn, caps, endpoint⟩])
              located

/-- `connect_workers`, on the devices that were located. -/
def connectWorkers [DecidableEq Key] [Debug Response] (store : TrustStore Key) (self : DeviceId)
    (revision : String) (located : List (Located.Worker Key)) : Except String (List ChatWorker) :=
  if located.isEmpty then
    .error ("no paired workers found; start latticed worker --require-gpu, use --worker " ++
      "<IPv4:port>, or choose --local")
  else connectWorkersFrom store self revision [] located

/-! ### Which workers a chat has -/

theorem InfoReply.caps_eq_ok [Debug Response] {id : DeviceId} {reply : InfoReply}
    {caps : EngineCapabilities} :
    reply.caps id = .ok caps ↔ reply = .answered (.inferenceInfo caps) := by
  constructor
  · intro h
    match reply with
    | .timedOut => cases h
    | .failed why => cases h
    | .answered (.inferenceInfo info) =>
      cases h
      rfl
    | .answered (.refused why) =>
      simp only [InfoReply.caps] at h
      split_ifs at h
    | .answered (.identity ..) => cases h
    | .answered (.provisioned ..) => cases h
    | .answered (.shardLoaded ..) => cases h
    | .answered .workerRegistered => cases h
  · rintro rfl
    rfl

variable {policy : Key → Bool} {self : DeviceId} {expected : Option DeviceId}
  {addrs : List SocketAddr} {dial : ℕ → SocketAddr → DialAttempt Key} {endpoint : Endpoint}
  {conn : Connection}

theorem dialWorker_eq_ok : dialWorker policy self expected addrs dial = .ok (endpoint, conn) ↔
    connectAny policy dial addrs = .ok (endpoint, conn) ∧
      (∀ want, expected = some want → conn.peerId = want) ∧ conn.peerId ≠ self := by
  unfold dialWorker
  cases connectAny policy dial addrs with
  | error why => simp
  | ok pair =>
    obtain ⟨endpoint', conn'⟩ := pair
    dsimp only
    split_ifs with hbad
    · refine iff_of_false (by simp) ?_
      rintro ⟨hconn, hexpected, hself⟩
      cases hconn
      rcases hbad with hany | hbad
      · obtain ⟨want, hwant, hne⟩ := (Option.any_eq_true _ _).1 hany
        exact (of_decide_eq_true hne) (hexpected want hwant).symm
      · exact hself hbad
    · obtain ⟨hany, hself⟩ := not_or.1 hbad
      refine ⟨fun h => ⟨h, ?_⟩, fun h => h.1⟩
      cases h
      refine ⟨fun want hwant => ?_, hself⟩
      by_contra hne
      exact hany ((Option.any_eq_true _ _).2 ⟨want, hwant, decide_eq_true (Ne.symm hne)⟩)

/-- The worker is the one that was located, and its engine may be used for the chat. -/
structure ChatWorker.Serves [DecidableEq Key] (store : TrustStore Key) (self : DeviceId)
    (revision : String) (t : Located.Worker Key) (w : ChatWorker) : Prop where
  id : w.conn.peerId = w.id
  expected : ∀ want, t.expected = some want → w.id = want
  notSelf : w.id ≠ self
  trusted : ∃ key, store.isTrusted key = true ∧ PublicKey.deviceId key = w.id
  reply : t.reply = .answered (.inferenceInfo w.caps)
  caps : w.caps.revision = revision ∧ w.caps.busy = false ∧
    (w.caps.device.kind = "gpu" ∨ w.caps.device.kind = "igpu")

variable [DecidableEq Key] {store : TrustStore Key} {revision : String}
  {workers workers' : List ChatWorker} {located : List (Located.Worker Key)} {t : Located.Worker Key}

/-- One turn of the loop that goes on adds a worker that was not there. -/
theorem connectWorkersFrom_cons [Debug Response]
    (h : connectWorkersFrom store self revision workers (t :: located) = .ok workers') :
    ∃ w : ChatWorker, w.Serves store self revision t ∧ w.id ∉ workers.map (·.id) ∧
      connectWorkersFrom store self revision (workers ++ [w]) located = .ok workers' := by
  rw [connectWorkersFrom] at h
  cases hdial : dialWorker store.isTrusted self t.expected t.addrs t.dial with
  | error why =>
    rw [hdial] at h
    cases h
  | ok pair =>
    obtain ⟨endpoint, conn⟩ := pair
    rw [hdial] at h
    dsimp only at h
    obtain ⟨hconn, hexpected, hself⟩ := dialWorker_eq_ok.1 hdial
    obtain ⟨key, hanswered, hid⟩ := connectAny_iff.1 ⟨endpoint, conn, hconn, rfl⟩
    split_ifs at h with hseen
    cases hreply : t.reply.caps conn.peerId with
    | error why =>
      rw [hreply] at h
      cases h
    | ok caps =>
      rw [hreply] at h
      dsimp only at h
      cases hcheck : checkWorker caps revision with
      | error why =>
        rw [hcheck] at h
        cases h
      | ok u =>
        rw [hcheck] at h
        refine ⟨_, ⟨rfl, hexpected, hself, ⟨key, hanswered.accepted, hid⟩,
          InfoReply.caps_eq_ok.1 hreply, checkWorker_eq_ok.1 hcheck⟩, fun hmem => hseen ?_, h⟩
        obtain ⟨w, hw, hwid⟩ := List.mem_map.1 hmem
        exact List.any_eq_true.2 ⟨w, hw, decide_eq_true hwid⟩

/-- **The workers of a chat** are different devices, and each of them is one that was asked for. -/
theorem connectWorkers_spec [Debug Response]
    (h : connectWorkers store self revision located = .ok workers) :
    (workers.map (·.id)).Nodup ∧
      List.Forall₂ (fun t w => ChatWorker.Serves store self revision t w) located workers := by
  unfold connectWorkers at h
  split_ifs at h
  -- the loop adds the workers of the rest of the list to those it has
  suffices hloop : ∀ (located : List (Located.Worker Key)) (before : List ChatWorker),
      (before.map (·.id)).Nodup → connectWorkersFrom store self revision before located = .ok workers →
      (workers.map (·.id)).Nodup ∧ ∃ new, workers = before ++ new ∧
        List.Forall₂ (fun t w => ChatWorker.Serves store self revision t w) located new by
    obtain ⟨hnodup, new, hnew, hall⟩ := hloop located [] List.nodup_nil h
    rw [List.nil_append] at hnew
    exact ⟨hnodup, hnew ▸ hall⟩
  intro located
  induction located with
  | nil =>
    intro before hnodup h
    cases h
    exact ⟨hnodup, [], (List.append_nil _).symm, .nil⟩
  | cons t located ih =>
    intro before hnodup h
    obtain ⟨w, hserves, hnew, hrest⟩ := connectWorkersFrom_cons h
    have hnodup' : ((before ++ [w]).map (·.id)).Nodup := by
      rw [List.map_append, List.map_singleton, List.nodup_append]
      refine ⟨hnodup, List.nodup_singleton _, fun id hid id' hid' heq => hnew ?_⟩
      rw [← List.mem_singleton.1 hid', ← heq]
      exact hid
    obtain ⟨hworkers, new, hnew, hall⟩ := ih (before ++ [w]) hnodup' hrest
    exact ⟨hworkers, w :: new, by rw [hnew, List.append_assoc, List.singleton_append],
      .cons hserves hall⟩

end Daemon

end Latticed
