import Latticed.Net.Control
import Latticed.Rust.Outcome
import Mathlib.Data.Prod.Lex
import Mathlib.Logic.Function.Basic

/-!
# The GPU server of a worker

A worker starts one GPU server process and lets the master it is registered with use it.  `authorize`
changes the master, and stops the server when it does.  `capabilities` and `connect` are made of
sections under one lock with other code between them, so calls of any devices overlap in any order
with `authorize` and with exits of the process.

* `WorkerRuntime.checkHealth_ok` : the health check lets the registered master through only.
* `WorkerRuntime.address_cases` : so does `address`, which returns the server that is there or a new one.
* `GpuWorker.next_runtime` : only a call of `address` starts a server.
* `GpuWorker.next_leads` : what a section of a call may come to.
* `GpuWorker.next_succeeded` : a call returns `Ok` in a check.
-/

namespace Latticed

namespace Daemon

open Net Rust

/-- `ENGINE_REVISION`. -/
def engineRevision : String := "85d5703a3b1b47243213a39059a6e3076c92733a"

/-- `max_by_key`: of several greatest elements the last. -/
def maxByKey {α β : Type*} [LE β] [DecidableLE β] (key : α → β) : List α → Option α
  | [] => none
  | x :: xs => some (xs.foldl (fun best y => if key best ≤ key y then y else best) x)

/-- `select_device`; `debug` is how `{:?}` prints a string. -/
def selectDevice (debug : String → String) (devices : List GpuDevice) (explicit : Option String) :
    Except String GpuDevice :=
  let gpus := devices.filter fun d => d.kind = "gpu" ∨ d.kind = "igpu"
  match explicit with
  | some name =>
    match gpus.find? (·.name = name) with
    | some device => .ok device
    | none => .error ("GPU " ++ debug name ++ " unavailable; available GPUs: " ++
        ", ".intercalate (gpus.map (·.name)))
  | none =>
    match maxByKey (fun d => toLex (decide (d.kind = "gpu"), d.freeMemory.toNat)) gpus with
    | some device => .ok device
    | none => .error ("no supported GPU found; install the GPU engine and driver; " ++
        "CPU inference is disabled")

/-- `Server`: a child process, and the port on `127.0.0.1` it was told to listen on. -/
structure Server where
  child : ℕ
  address : UInt16
  deriving DecidableEq

/-- `WorkerRuntime`, with what is behind its lock. -/
structure WorkerRuntime where
  device : GpuDevice
  dir : String
  master : Option DeviceId
  server : Option Server
  /-- The number of child processes so far, which is what the next one is called. -/
  spawned : ℕ
  /-- A section has panicked. -/
  poisoned : Bool

/-- What the world answers to one section: `try_wait` fails, the devices the GPU helper lists, what starting
a process comes to, whether two seconds are over, what dialling the server comes to, and whether 90
seconds are over. -/
structure Outside where
  waitError : Option String
  devices : Except String (List GpuDevice)
  spawn : Outcome String UInt16
  timeout : Bool
  stream : Except String Unit
  deadline : Bool
  /-- How `{:?}` prints a string. -/
  debug : String → String

namespace WorkerRuntime

/-- `WorkerRuntime::new`. -/
def new (device : GpuDevice) (dir : String) : WorkerRuntime where
  device := device
  dir := dir
  master := none
  server := none
  spawned := 0
  poisoned := false

/-- The log of the server. -/
def log (rt : WorkerRuntime) : String := rt.dir ++ "/rpc-server.log"

/-- A section under the lock; after a panic there are no more. -/
def locked {α : Type} (rt : WorkerRuntime) (section_ : Outcome String α × WorkerRuntime) :
    Outcome String α × WorkerRuntime :=
  if rt.poisoned then (.panic "runtime state poisoned", rt) else section_

/-- `authorize`.  A server that is dropped is killed. -/
def authorize (rt : WorkerRuntime) (master : Option DeviceId) :
    Outcome String Unit × WorkerRuntime :=
  rt.locked <|
    if rt.master ≠ master then (.ok (), { rt with server := none, master := master })
    else (.ok (), rt)

/-- `check_master`. -/
def checkMaster (rt : WorkerRuntime) (from_ : DeviceId) : Except String Unit :=
  if rt.master ≠ some from_ then .error "inference is restricted to the registered master"
  else .ok ()

/-- `try_wait`; `exited` says how the processes that are gone have ended. -/
def tryWait (exited : ℕ → Option String) (o : Outside) (server : Server) :
    Except String (Option String) :=
  match o.waitError with
  | some e => .error e
  | none => .ok (exited server.child)

/-- `check_health`. -/
def checkHealth (rt : WorkerRuntime) (exited : ℕ → Option String) (o : Outside) (from_ : DeviceId) :
    Outcome String Unit × WorkerRuntime :=
  rt.locked <|
    match rt.checkMaster from_ with
    | .error e => (.err e, rt)
    | .ok () =>
      match rt.server with
      | none => (.ok (), rt)
      | some server =>
        match tryWait exited o server with
        | .error e => (.err e, rt)
        | .ok none => (.ok (), rt)
        | .ok (some status) =>
          (.err ("GPU RPC server exited (" ++ status ++ "); inspect " ++ rt.log),
            { rt with server := none })

/-- The end of `address`, where there is no server. -/
def startServer (rt : WorkerRuntime) (o : Outside) : Outcome String Server × WorkerRuntime :=
  match o.spawn with
  | .ok port =>
    let server := ⟨rt.spawned, port⟩
    (.ok server, { rt with server := some server, spawned := rt.spawned + 1 })
  | .err e => (.err e, rt)
  -- no thread could be started for the log
  | .panic m => (.panic m, { rt with poisoned := true })

/-- `address`, with the server whose address it returns. -/
def address (rt : WorkerRuntime) (exited : ℕ → Option String) (o : Outside) (from_ : DeviceId) :
    Outcome String Server × WorkerRuntime :=
  rt.locked <|
    match rt.checkMaster from_ with
    | .error e => (.err e, rt)
    | .ok () =>
      match rt.server with
      | none => rt.startServer o
      | some server =>
        match tryWait exited o server with
        | .error e => (.err e, rt)
        | .ok none => (.ok server, rt)
        | .ok (some _) => { rt with server := none }.startServer o

section Sections

variable {rt : WorkerRuntime} {exited : ℕ → Option String} {o : Outside} {from_ : DeviceId}

theorem checkMaster_eq_ok : rt.checkMaster from_ = .ok () ↔ rt.master = some from_ := by
  unfold checkMaster
  split_ifs with h
  · exact ⟨fun hok => (by cases hok), fun hok => absurd hok h⟩
  · exact ⟨fun _ => not_not.1 h, fun _ => rfl⟩

/-- What a section does that starts no process: the server stays, or is dropped. -/
structure Settles (rt rt' : WorkerRuntime) : Prop where
  master : rt'.master = rt.master
  spawned : rt'.spawned = rt.spawned
  server : rt'.server = rt.server ∨ rt'.server = none

theorem Settles.refl (rt : WorkerRuntime) : Settles rt rt := ⟨rfl, rfl, Or.inl rfl⟩

theorem checkHealth_settles : Settles rt (rt.checkHealth exited o from_).2 := by
  unfold checkHealth locked
  split_ifs
  · exact .refl rt
  · cases rt.checkMaster from_ with
    | error e => exact .refl rt
    | ok u =>
      dsimp only
      cases rt.server with
      | none => exact .refl rt
      | some server =>
        dsimp only
        cases tryWait exited o server with
        | error e => exact .refl rt
        | ok status =>
          cases status with
          | none => exact .refl rt
          | some status => exact ⟨rfl, rfl, Or.inr rfl⟩

/-- **The health check lets the registered master through**, and changes nothing then. -/
theorem checkHealth_ok (h : (rt.checkHealth exited o from_).1 = .ok ()) :
    rt.master = some from_ ∧ (rt.checkHealth exited o from_).2 = rt := by
  unfold checkHealth locked at h ⊢
  split_ifs at h ⊢
  cases hmaster : rt.checkMaster from_ with
  | error e =>
    rw [hmaster] at h
    cases h
  | ok u =>
    refine ⟨checkMaster_eq_ok.1 hmaster, ?_⟩
    rw [hmaster] at h
    dsimp only at h ⊢
    cases hserver : rt.server with
    | none => rfl
    | some server =>
      rw [hserver] at h
      dsimp only at h ⊢
      cases hwait : tryWait exited o server with
      | error e => rfl
      | ok status =>
        rw [hwait] at h
        cases status with
        | none => rfl
        | some status => cases h

/-- Nothing comes of starting a process, or it is recorded. -/
theorem startServer_cases (rt : WorkerRuntime) (o : Outside) :
    Settles rt (rt.startServer o).2 ∧ (∀ server, (rt.startServer o).1 ≠ .ok server) ∨
      ∃ port, rt.startServer o = (.ok ⟨rt.spawned, port⟩,
        { rt with server := some ⟨rt.spawned, port⟩, spawned := rt.spawned + 1 }) := by
  unfold startServer
  cases o.spawn with
  | ok port => exact Or.inr ⟨port, rfl⟩
  | err e => exact Or.inl ⟨.refl rt, fun server h => (by cases h)⟩
  | panic m => exact Or.inl ⟨⟨rfl, rfl, Or.inl rfl⟩, fun server h => (by cases h)⟩

/-- **What `address` does**: nothing comes of it but a lost server, or it returns the server that is there
or one that it has started, to the registered master. -/
theorem address_cases (rt : WorkerRuntime) (exited : ℕ → Option String) (o : Outside)
    (from_ : DeviceId) :
    Settles rt (rt.address exited o from_).2 ∧
        (∀ server, (rt.address exited o from_).1 ≠ .ok server) ∨
      rt.master = some from_ ∧
        ((∃ server, rt.server = some server ∧ rt.address exited o from_ = (.ok server, rt)) ∨
          ∃ port, rt.address exited o from_ = (.ok ⟨rt.spawned, port⟩,
            { rt with server := some ⟨rt.spawned, port⟩, spawned := rt.spawned + 1 })) := by
  unfold address locked
  split_ifs
  · exact Or.inl ⟨.refl rt, fun server h => (by cases h)⟩
  · cases hmaster : rt.checkMaster from_ with
    | error e => exact Or.inl ⟨.refl rt, fun server h => (by cases h)⟩
    | ok u =>
      dsimp only
      cases rt.server with
      | none =>
        dsimp only
        rcases startServer_cases rt o with hnothing | ⟨port, heq⟩
        · exact Or.inl hnothing
        · exact Or.inr ⟨checkMaster_eq_ok.1 hmaster, Or.inr ⟨port, heq⟩⟩
      | some server =>
        dsimp only
        cases tryWait exited o server with
        | error e => exact Or.inl ⟨.refl rt, fun server h => (by cases h)⟩
        | ok status =>
          cases status with
          | none => exact Or.inr ⟨checkMaster_eq_ok.1 hmaster, Or.inl ⟨server, rfl, rfl⟩⟩
          | some status =>
            -- the process is gone, so another one is started in its place
            rcases startServer_cases { rt with server := none } o with
              ⟨hsettles, hnot⟩ | ⟨port, heq⟩
            · refine Or.inl ⟨⟨hsettles.master, hsettles.spawned, Or.inr ?_⟩, hnot⟩
              exact hsettles.server.elim id id
            · exact Or.inr ⟨checkMaster_eq_ok.1 hmaster, Or.inr ⟨port, heq⟩⟩

end Sections

end WorkerRuntime

/-! ### Calls -/

/-- Where a call of `capabilities` or `connect` is. -/
inductive GpuPhase where
  /-- `capabilities` is about to check the health of the server. -/
  | checking
  /-- It is about to ask for the permit. -/
  | trying
  /-- It holds the permit and asks the GPU helper. -/
  | selecting
  /-- It is about to check again. -/
  | rechecking (device : GpuDevice) (busy : Bool)
  | informed (info : EngineCapabilities)
  /-- `connect` is about to check the health of the server. -/
  | acquiring
  /-- It waits for the permit. -/
  | waiting
  /-- It holds the permit and is about to check again. -/
  | acquired
  | addressing
  /-- At the head of the loop, with the address of this server. -/
  | looping (server : Server)
  | dialling (server : Server)
  /-- The stream is there, and the last check is next. -/
  | confirming (server : Server)
  /-- The session holds a stream to the address of this server, and the permit. -/
  | connected (server : Server)
  | failed (why : String)
  | panicked (message : String)

/-- The call has returned, and keeps no permit. -/
def GpuPhase.over : GpuPhase → Bool
  | .informed _ | .failed _ | .panicked _ => true
  | _ => false

/-- The call is one of `connect`, which can be dropped while it waits, as can the session. -/
def GpuPhase.connects : GpuPhase → Bool
  | .acquiring | .waiting | .acquired | .addressing | .looping _ | .dialling _ | .confirming _
  | .connected _ => true
  | _ => false

/-- The call has returned `Ok`. -/
def GpuPhase.succeeded : GpuPhase → Bool
  | .informed _ | .connected _ => true
  | _ => false

/-- A call, and the device it is made for. -/
structure GpuCall where
  from_ : DeviceId
  phase : GpuPhase

/-- The `?` after a section. -/
def settle {α : Type} (result : Outcome String α) (next : α → GpuPhase) : GpuPhase :=
  match result with
  | .ok a => next a
  | .err e => .failed e
  | .panic m => .panicked m

/-- The worker: its runtime, the processes that have ended, who holds the permit, and the calls. -/
structure GpuWorker where
  runtime : WorkerRuntime
  exited : ℕ → Option String
  permit : Option ℕ
  calls : ℕ → Option GpuCall

/-- What happens. -/
inductive GpuEvent where
  | authorize (master : Option DeviceId)
  | capabilities (n : ℕ) (from_ : DeviceId)
  | connect (n : ℕ) (from_ : DeviceId)
  /-- A call gets on, up to its next section. -/
  | step (n : ℕ) (o : Outside)
  /-- A server process ends. -/
  | exit (child : ℕ) (status : String)
  /-- The future of a `connect`, or its session, is dropped. -/
  | drop (n : ℕ)

namespace GpuWorker

open WorkerRuntime

/-- A call checks the health of the server before it gets to a phase. -/
def check (σ : GpuWorker) (o : Outside) (c : GpuCall) (phase : GpuPhase) :
    GpuPhase × WorkerRuntime × Option ℕ :=
  let checked := σ.runtime.checkHealth σ.exited o c.from_
  (settle checked.1 fun _ => phase, checked.2, σ.permit)

/-- The next section of a call: its phase, the runtime and the permit afterwards. -/
def next (σ : GpuWorker) (n : ℕ) (o : Outside) (c : GpuCall) :
    GpuPhase × WorkerRuntime × Option ℕ :=
  let rt := σ.runtime
  match c.phase with
  | .checking => σ.check o c .trying
  | .trying =>
    match σ.permit with
    | none => (.selecting, rt, some n)
    | some _ => (.rechecking rt.device true, rt, σ.permit)
  | .selecting =>
    let device := o.devices.bind fun devices => selectDevice o.debug devices (some rt.device.name)
    (settle (.ofExcept device) fun device => .rechecking device false, rt, σ.permit)
  | .rechecking device busy => σ.check o c (.informed ⟨engineRevision, device, busy⟩)
  | .acquiring => σ.check o c .waiting
  | .waiting =>
    match σ.permit with
    | none => (.acquired, rt, some n)
    | some _ => (if o.timeout then .failed "GPU worker is busy" else .waiting, rt, σ.permit)
  | .acquired => σ.check o c .addressing
  | .addressing =>
    let found := rt.address σ.exited o c.from_
    (settle found.1 .looping, found.2, σ.permit)
  | .looping server => σ.check o c (.dialling server)
  | .dialling server =>
    match o.stream with
    | .ok () => (.confirming server, rt, σ.permit)
    | .error e =>
      let why := "GPU RPC server did not become ready: " ++ e ++ "; inspect " ++ rt.log
      (if o.deadline then .failed why else .looping server, rt, σ.permit)
  | .confirming server => σ.check o c (.connected server)
  | .informed _ | .connected _ | .failed _ | .panicked _ => (c.phase, rt, σ.permit)

/-- The permit after call `n` has given it back. -/
def release (permit : Option ℕ) (n : ℕ) : Option ℕ := if permit = some n then none else permit

/-- A call arrives. -/
def arrive (σ : GpuWorker) (n : ℕ) (c : GpuCall) : GpuWorker :=
  match σ.calls n with
  | none => { σ with calls := Function.update σ.calls n (some c) }
  | some _ => σ

/-- One event.  What cannot happen changes nothing. -/
def step (σ : GpuWorker) : GpuEvent → GpuWorker
  | .authorize master => { σ with runtime := (σ.runtime.authorize master).2 }
  | .capabilities n from_ => σ.arrive n ⟨from_, .checking⟩
  | .connect n from_ => σ.arrive n ⟨from_, .acquiring⟩
  | .step n o =>
    match σ.calls n with
    | none => σ
    | some c =>
      let next := σ.next n o c
      { σ with
        runtime := next.2.1
        permit := if next.1.over then release next.2.2 n else next.2.2
        calls := Function.update σ.calls n (some { c with phase := next.1 }) }
  | .exit child status =>
    if child < σ.runtime.spawned ∧ σ.exited child = none then
      { σ with exited := Function.update σ.exited child (some status) }
    else σ
  | .drop n =>
    match σ.calls n with
    | none => σ
    | some c =>
      if c.phase.connects then
        { σ with permit := release σ.permit n, calls := Function.update σ.calls n none }
      else σ

/-- A worker that has just started. -/
def start (device : GpuDevice) (dir : String) : GpuWorker where
  runtime := .new device dir
  exited := fun _ => none
  permit := none
  calls := fun _ => none

/-- The worker after these events. -/
def run (device : GpuDevice) (dir : String) (events : List GpuEvent) : GpuWorker :=
  events.foldl step (start device dir)

/-! ### What one event does -/

variable {σ : GpuWorker}

theorem check_settles (σ : GpuWorker) (o : Outside) (c : GpuCall) (phase : GpuPhase) :
    Settles σ.runtime (σ.check o c phase).2.1 :=
  checkHealth_settles

/-- A call gets past a check only if it is made for the registered master. -/
theorem check_cases (σ : GpuWorker) (o : Outside) (c : GpuCall) (phase : GpuPhase) :
    (∃ why, (σ.check o c phase).1 = .failed why) ∨
      (∃ message, (σ.check o c phase).1 = .panicked message) ∨
      (σ.check o c phase).1 = phase ∧ σ.runtime.master = some c.from_ ∧
        (σ.check o c phase).2.1 = σ.runtime := by
  unfold check
  dsimp only
  cases hresult : (σ.runtime.checkHealth σ.exited o c.from_).1 with
  | ok u =>
    obtain ⟨hmaster, hsame⟩ := checkHealth_ok hresult
    exact Or.inr (Or.inr ⟨rfl, hmaster, hsame⟩)
  | err e => exact Or.inl ⟨e, rfl⟩
  | panic m => exact Or.inr (Or.inl ⟨m, rfl⟩)

/-- **What a section does to the server**: it starts none, or it is `address` called for the registered
master, which gets the server that is there or a new one. -/
theorem next_runtime (σ : GpuWorker) (n : ℕ) (o : Outside) (c : GpuCall) :
    Settles σ.runtime (σ.next n o c).2.1 ∧
        (c.phase = .addressing → ∀ server, (σ.next n o c).1 ≠ .looping server) ∨
      c.phase = .addressing ∧ σ.runtime.master = some c.from_ ∧ ∃ server,
        (σ.next n o c).1 = .looping server ∧
        (σ.runtime.server = some server ∧ (σ.next n o c).2.1 = σ.runtime ∨
          server.child = σ.runtime.spawned ∧ (σ.next n o c).2.1 =
            { σ.runtime with server := some server, spawned := σ.runtime.spawned + 1 }) := by
  obtain ⟨from_, phase⟩ := c
  cases phase with
  | addressing =>
    unfold next
    dsimp only
    -- the only section that can start a process
    rcases σ.runtime.address_cases σ.exited o from_ with
      ⟨hsettles, hnot⟩ | ⟨hmaster, ⟨server, hserver, heq⟩ | ⟨port, heq⟩⟩
    · refine Or.inl ⟨hsettles, fun _ server h => ?_⟩
      cases hresult : (σ.runtime.address σ.exited o from_).1 with
      | ok found => exact hnot found hresult
      | err e =>
        rw [hresult] at h
        cases h
      | panic m =>
        rw [hresult] at h
        cases h
    · rw [heq]
      exact Or.inr ⟨rfl, hmaster, server, rfl, Or.inl ⟨hserver, rfl⟩⟩
    · rw [heq]
      exact Or.inr ⟨rfl, hmaster, _, rfl, Or.inr ⟨rfl, rfl⟩⟩
  | checking => exact Or.inl ⟨check_settles σ o _ _, fun h => (by cases h)⟩
  | rechecking device busy => exact Or.inl ⟨check_settles σ o _ _, fun h => (by cases h)⟩
  | acquiring => exact Or.inl ⟨check_settles σ o _ _, fun h => (by cases h)⟩
  | acquired => exact Or.inl ⟨check_settles σ o _ _, fun h => (by cases h)⟩
  | looping server => exact Or.inl ⟨check_settles σ o _ _, fun h => (by cases h)⟩
  | confirming server => exact Or.inl ⟨check_settles σ o _ _, fun h => (by cases h)⟩
  | trying =>
    refine Or.inl ⟨?_, fun h => (by cases h)⟩
    unfold next
    dsimp only
    cases σ.permit <;> exact .refl _
  | waiting =>
    refine Or.inl ⟨?_, fun h => (by cases h)⟩
    unfold next
    dsimp only
    cases σ.permit <;> exact .refl _
  | dialling server =>
    refine Or.inl ⟨?_, fun h => (by cases h)⟩
    unfold next
    dsimp only
    cases o.stream <;> exact .refl _
  | selecting => exact Or.inl ⟨.refl _, fun h => (by cases h)⟩
  | informed info => exact Or.inl ⟨.refl _, fun h => (by cases h)⟩
  | connected server => exact Or.inl ⟨.refl _, fun h => (by cases h)⟩
  | failed why => exact Or.inl ⟨.refl _, fun h => (by cases h)⟩
  | panicked message => exact Or.inl ⟨.refl _, fun h => (by cases h)⟩

/-- Where a check that is passed leads. -/
inductive Checks : GpuPhase → GpuPhase → Prop
  | checking : Checks .checking .trying
  | rechecking (device : GpuDevice) (busy : Bool) :
    Checks (.rechecking device busy) (.informed ⟨engineRevision, device, busy⟩)
  | acquiring : Checks .acquiring .waiting
  | acquired : Checks .acquired .addressing
  | looping (server : Server) : Checks (.looping server) (.dialling server)
  | confirming (server : Server) : Checks (.confirming server) (.connected server)

/-- How a call gets on without looking after the server. -/
inductive Goes : GpuPhase → GpuPhase → Prop
  | permitted : Goes .trying .selecting
  | busy (device : GpuDevice) : Goes .trying (.rechecking device true)
  | selected (device : GpuDevice) : Goes .selecting (.rechecking device false)
  | admitted : Goes .waiting .acquired
  | waits : Goes .waiting .waiting
  | dialled (server : Server) : Goes (.dialling server) (.confirming server)
  | refused (server : Server) : Goes (.dialling server) (.looping server)
  | informed (info : EngineCapabilities) : Goes (.informed info) (.informed info)
  | connected (server : Server) : Goes (.connected server) (.connected server)

/-- What a section may come to. -/
inductive Leads (σ : GpuWorker) (c : GpuCall) (result : GpuPhase × WorkerRuntime × Option ℕ) : Prop
  | failed (why : String) (hphase : result.1 = .failed why)
  | panicked (message : String) (hphase : result.1 = .panicked message)
  | checked (hchecks : Checks c.phase result.1) (hmaster : σ.runtime.master = some c.from_)
    (hsame : result.2.1 = σ.runtime)
  | addressed (server : Server) (hbefore : c.phase = .addressing)
    (hphase : result.1 = .looping server)
  | goes (hgoes : Goes c.phase result.1)

theorem check_leads {o : Outside} {c : GpuCall} {phase : GpuPhase} (h : Checks c.phase phase) :
    Leads σ c (σ.check o c phase) := by
  rcases σ.check_cases o c phase with ⟨why, heq⟩ | ⟨message, heq⟩ | ⟨heq, hmaster, hsame⟩
  · exact .failed why heq
  · exact .panicked message heq
  · refine .checked ?_ hmaster hsame
    rwa [heq]

/-- **Where a section leads.** -/
theorem next_leads (σ : GpuWorker) (n : ℕ) (o : Outside) (c : GpuCall) :
    Leads σ c (σ.next n o c) := by
  obtain ⟨from_, phase⟩ := c
  cases phase with
  | checking => exact check_leads .checking
  | rechecking device busy => exact check_leads (.rechecking device busy)
  | acquiring => exact check_leads .acquiring
  | acquired => exact check_leads .acquired
  | looping server => exact check_leads (.looping server)
  | confirming server => exact check_leads (.confirming server)
  | trying =>
    unfold next
    dsimp only
    cases σ.permit with
    | none => exact .goes .permitted
    | some holder => exact .goes (.busy _)
  | waiting =>
    unfold next
    dsimp only
    cases σ.permit with
    | none => exact .goes .admitted
    | some holder =>
      dsimp only
      split_ifs
      · exact .failed _ rfl
      · exact .goes .waits
  | selecting =>
    unfold next
    dsimp only
    cases o.devices.bind fun devices => selectDevice o.debug devices (some σ.runtime.device.name) with
    | error e => exact .failed e rfl
    | ok device => exact .goes (.selected device)
  | addressing =>
    unfold next
    dsimp only
    cases (σ.runtime.address σ.exited o from_).1 with
    | ok found => exact .addressed found rfl rfl
    | err e => exact .failed e rfl
    | panic message => exact .panicked message rfl
  | dialling server =>
    unfold next
    dsimp only
    cases o.stream with
    | ok u => exact .goes (.dialled server)
    | error e =>
      dsimp only
      split_ifs
      · exact .failed _ rfl
      · exact .goes (.refused server)
  | informed info => exact .goes (.informed info)
  | connected server => exact .goes (.connected server)
  | failed why => exact .failed why rfl
  | panicked message => exact .panicked message rfl

theorem Goes.succeeded {phase phase' : GpuPhase} (h : Goes phase phase') :
    phase'.succeeded = phase.succeeded := by
  cases h <;> rfl

/-- **A call returns `Ok` in a check that finds its device to be the registered master.** -/
theorem next_succeeded {n : ℕ} {o : Outside} {c : GpuCall} (hbefore : c.phase.succeeded = false)
    (h : (σ.next n o c).1.succeeded = true) :
    σ.runtime.master = some c.from_ ∧ (σ.next n o c).2.1 = σ.runtime := by
  cases σ.next_leads n o c with
  | checked hchecks hmaster hsame => exact ⟨hmaster, hsame⟩
  | failed why hphase =>
    rw [hphase] at h
    cases h
  | panicked message hphase =>
    rw [hphase] at h
    cases h
  | addressed server _ hphase =>
    rw [hphase] at h
    cases h
  | goes hgoes =>
    rw [hgoes.succeeded, hbefore] at h
    cases h

end GpuWorker

end Daemon

end Latticed
