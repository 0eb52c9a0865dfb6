import Latticed.Daemon.FindWorkers
import Latticed.Daemon.Plan
import Latticed.Daemon.Runtime
import Latticed.Net.Symbolic

/-!
# The command that a chat runs

A chat finds its workers, asks each of them for its GPU, allocates the layers of the model to these GPUs
and its own, binds a proxy for each worker, and starts the engine.  The engine is told in three lists that
are joined by commas where the proxies are, what the GPUs are called, and how many layers each of them
gets; they have to be in one order.

* `chat_lines_up` : the lists are in the order of the workers, with the GPU of the master last, and the
  layers fit the memory that is free; the names can be told apart just if that of the master's GPU has no
  comma.
-/

namespace Latticed

namespace Daemon

open Engine Net Rust

variable {Key : Type} [PublicKey Key] [DecidableEq Key] {F : Type*}

/-- `Options` of a chat. -/
structure ChatOptions where
  context : UInt32
  tokens : UInt32
  prompt : Option String
  worker : List String
  local_ : Bool
  device : Option String
  reserveMib : UInt32

/-- What a chat meets. -/
structure ChatWorld (Key : Type) where
  std : StdNet
  /-- The id of this device. -/
  me : DeviceId
  /-- `Engine::locate`. -/
  engine : Except String Unit
  /-- The path of the model, if there is one. -/
  model : Except String String
  /-- `ModelInventory::read_file`. -/
  inventory : Except String ModelInventory
  /-- `engine.devices()`. -/
  gpus : Except String (List GpuDevice)
  store : Except NetError (TrustStore Key)
  browsed : Except String (List SeenEvent)
  /-- What comes of dialling the addresses of a worker. -/
  dial : ℕ → ℕ → SocketAddr → DialAttempt Key
  reply : ℕ → InfoReply
  /-- `RpcProxy::bind`: a port of `127.0.0.1`. -/
  bind : ℕ → Except String UInt16
  /-- The log can be made. -/
  log : Except String Unit
  /-- `{description}: {free memory} MiB available`. -/
  memory : GpuDevice → String
  /-- How `{:?}` prints a string. -/
  debug : String → String

/-- The workers that were found, with what comes of dialling and asking them. -/
def ChatWorld.located (w : ChatWorld Key) (found : List (Option DeviceId × List SocketAddr)) :
    List (Located.Worker Key) :=
  found.mapIdx fun n (expected, addrs) => ⟨expected, addrs, w.dial n, w.reply n⟩

/-- `connect_workers`, unless the chat is to run here alone. -/
def chatWorkers [Debug Response] (o : ChatOptions) (w : ChatWorld Key) :
    Except String (List ChatWorker) :=
  if o.local_ then .ok []
  else match w.store with
    | .error e => .error e.display
    | .ok store =>
      match findWorkers w.std o.worker (knows store) w.me w.browsed with
      | .error why => .error why
      | .ok found => connectWorkers store w.me engineRevision (w.located found)

/-- What the engine is started with. -/
structure ChatCommand where
  /-- `--rpc`, if it is not empty. -/
  rpc : String
  model : String
  device : String
  tensorSplit : String
  ctxSize : String
  predict : String
  prompt : Option String
  deriving DecidableEq

/-- The arguments. -/
def ChatCommand.args (c : ChatCommand) : List String :=
  (if c.rpc.isEmpty then [] else ["--rpc", c.rpc]) ++
    ["--model", c.model, "--device", c.device, "--split-mode", "layer", "--gpu-layers", "all",
      "--tensor-split", c.tensorSplit, "--fit", "off", "--simple-io", "--log-verbosity", "4",
      "--cache-type-k", "f16", "--cache-type-v", "f16", "--ctx-size", c.ctxSize, "--predict",
      c.predict] ++
    match c.prompt with
    | some prompt => ["--prompt", prompt, "--single-turn", "--temp", "0"]
    | none => []

/-- The address of a proxy. -/
def proxyAddress (port : UInt16) : String := "127.0.0.1:" ++ toString port

/-- The GPUs of a chat, in the order in which they are given layers. -/
def chatDevices (workers : List ChatWorker) (local_ : GpuDevice) : List GpuDevice :=
  workers.map (·.caps.device) ++ [local_]

/-- What the engine calls them. -/
def chatNames (workers : List ChatWorker) (local_ : GpuDevice) : List String :=
  (List.range workers.length).map (fun n => "RPC" ++ toString n) ++ [local_.name]

/-- What is left free on each GPU. -/
def ChatOptions.reserve (o : ChatOptions) : UInt64 := o.reserveMib.toUInt64 <<< 20

/-- `chat::run`, up to the command that it spawns: its arguments. -/
def chat [Debug Response] (fl : F64 F) (o : ChatOptions) (w : ChatWorld Key) :
    Outcome String (List String) :=
  (Outcome.ofExcept w.engine).andThen fun _ =>
  (Outcome.ofExcept (w.model.mapError fun _ => "opening the master's GGUF")).andThen fun model =>
  (Outcome.ofExcept w.inventory).andThen fun inventory =>
  if inventory.facts.trainContext < o.context then
    .err ("--context " ++ toString o.context ++ " exceeds the model's trained context " ++
      toString inventory.facts.trainContext)
  else
    (Outcome.ofExcept w.gpus).andThen fun gpus =>
    (Outcome.ofExcept (selectDevice w.debug gpus o.device)).andThen fun local_ =>
    (Outcome.ofExcept (chatWorkers o w)).andThen fun workers =>
    ((build fl inventory o.context (chatDevices workers local_) o.reserve).mapErr fun _ =>
      "GPU placement failed with a reserve of at least " ++ toString o.reserveMib ++
        " MiB per device (" ++ "; ".intercalate ((chatDevices workers local_).map w.memory) ++
        ")").andThen fun plan =>
    (Outcome.ofExcept ((List.range workers.length).mapM w.bind)).andThen fun ports =>
    (Outcome.ofExcept w.log).andThen fun _ =>
    .ok <| ChatCommand.args
      { rpc := joinChar ',' (ports.map proxyAddress)
        model
        device := joinChar ',' (chatNames workers local_)
        tensorSplit := joinChar ',' (plan.layers.map toString)
        ctxSize := toString o.context
        predict := toString o.tokens
        prompt := o.prompt }

/-! ### What the lists say -/

/-- What a chat has settled on: its workers, the GPU of the master, the ports of the proxies, and how
many layers each GPU gets. -/
structure ChatPlan where
  workers : List ChatWorker
  local_ : GpuDevice
  ports : List UInt16
  sizes : List ℕ

/-- The GPUs of the plan. -/
def ChatPlan.devices (p : ChatPlan) : List GpuDevice := chatDevices p.workers p.local_

/-- The lists of the command are in the order of the GPUs: the proxies are those of the workers, the
names are the workers' proxies and the GPU of the master, and there is a number of layers for each of
them, to which the last adds the output. -/
structure ChatCommand.LinesUp (command : ChatCommand) (p : ChatPlan) : Prop where
  ports : p.ports.length = p.workers.length
  sizes : p.sizes.length = p.devices.length
  rpc : command.rpc = "" ∧ p.workers = [] ∨ splitChar ',' command.rpc = p.ports.map proxyAddress
  tensorSplit : splitChar ',' command.tensorSplit = (p.sizes.modifyLast (· + 1)).map toString
  device : splitChar ',' command.device = chatNames p.workers p.local_ ↔ ',' ∉ p.local_.name.toList

theorem comma_not_mem_toString (n : ℕ) : ',' ∉ (toString n).toList := by
  intro h
  rw [Nat.toString_eq_repr, Nat.repr, String.toList_ofList] at h
  exact absurd (Nat.isDigit_of_mem_toDigits (by decide) (by decide) h) (by decide)

/-- A list of numbers is split again. -/
theorem splitChar_numbers {ns : List ℕ} (hne : ns ≠ []) :
    splitChar ',' (joinChar ',' (ns.map toString)) = ns.map toString := by
  refine (splitChar_joinChar (by simpa using hne)).2 fun s hs => ?_
  obtain ⟨n, -, rfl⟩ := List.mem_map.1 hs
  exact comma_not_mem_toString n

/-- So is a list of proxies. -/
theorem splitChar_proxies {ports : List UInt16} (hne : ports ≠ []) :
    splitChar ',' (joinChar ',' (ports.map proxyAddress)) = ports.map proxyAddress := by
  refine (splitChar_joinChar (by simpa using hne)).2 fun s hs => ?_
  obtain ⟨port, -, rfl⟩ := List.mem_map.1 hs
  rw [proxyAddress, String.toList_append, List.mem_append, not_or]
  exact ⟨by decide, comma_not_mem_toString port.toNat⟩

/-- The names can be told apart unless that of the master's GPU has a comma. -/
theorem splitChar_names (workers : List ChatWorker) (local_ : GpuDevice) :
    splitChar ',' (joinChar ',' (chatNames workers local_)) = chatNames workers local_ ↔
      ',' ∉ local_.name.toList := by
  rw [splitChar_joinChar (by simp [chatNames]), chatNames]
  simp only [List.forall_mem_append, List.forall_mem_singleton, List.forall_mem_map]
  refine and_iff_right fun n _ => ?_
  rw [String.toList_append, List.mem_append, not_or]
  exact ⟨by decide, comma_not_mem_toString n⟩

/-- A plan that is returned is made of sizes that fit. -/
theorem build_ok {fl : F64 F} {inventory : ModelInventory} {context : UInt32}
    {devices : List GpuDevice} {reserve : UInt64} {plan : Plan}
    (h : build fl inventory context devices reserve = .ok plan) :
    ∃ sizes, Fits inventory context devices reserve sizes ∧ plan = planOf sizes ∧
      ∀ n ∈ sizes, n ≤ 4096 := by
  obtain ⟨hu, hpos, hcount⟩ := build_early fl (by rw [h]; rintro ⟨e, ⟨⟩⟩)
  rcases build_spec fl context reserve hu hpos hcount with ⟨sizes, hfits, hok⟩ | ⟨-, e, herr⟩
  · rw [hok] at h
    refine ⟨sizes, hfits, (Outcome.ok.inj h).symm, fun n hn => ?_⟩
    exact (List.single_le_sum (fun _ _ => Nat.zero_le _) n hn).trans
      (hfits.sum_eq.trans_le (not_unsupported hu).1)
  · rw [h] at herr
    cases herr

/-- The numbers of layers, as they are printed. -/
theorem planOf_toString {sizes : List ℕ} (hne : sizes ≠ []) (hle : ∀ n ∈ sizes, n ≤ 4096) :
    (planOf sizes).layers.map toString = (sizes.modifyLast (· + 1)).map toString := by
  obtain ⟨init, last, rfl⟩ := (List.eq_nil_or_concat' sizes).resolve_left hne
  have hcast : ∀ n ≤ 4097, toString (UInt32.ofNat n) = toString n := fun n hn => by
    show toString (UInt32.ofNat n).toNat = toString n
    rw [UInt32.toNat_ofNat_of_lt' (by rw [UInt32.size]; omega)]
  have hlast : UInt32.ofNat last + 1 = UInt32.ofNat (last + 1) := UInt32.ofNat_add last 1 |>.symm
  have hlastle := hle last (by simp)
  rw [planOf_append, List.modifyLast_concat, List.map_append, List.map_append, List.map_singleton,
    List.map_singleton, hlast, hcast _ (by omega), List.map_map]
  congr 1
  exact List.map_congr_left fun n hn => hcast n ((hle n (by simp [hn])).trans (by decide))

/-- The plan is made of what the chat meets: its own GPU, workers that serve it, ranges of the model that
fit the memory that is free, and the ports that the proxies were given. -/
structure ChatPlan.Made [Debug Response] (p : ChatPlan) (o : ChatOptions) (w : ChatWorld Key) : Prop where
  local_ : ∃ gpus, w.gpus = .ok gpus ∧ selectDevice w.debug gpus o.device = .ok p.local_
  workers : chatWorkers o w = .ok p.workers
  distinct : (p.workers.map (·.id)).Nodup
  serves : ∀ worker ∈ p.workers, worker.id ≠ w.me ∧ worker.caps.revision = engineRevision ∧
    worker.caps.busy = false ∧ (worker.caps.device.kind = "gpu" ∨ worker.caps.device.kind = "igpu")
  fits : ∃ inventory, w.inventory = .ok inventory ∧
    Fits inventory o.context p.devices o.reserve p.sizes
  bound : ∀ n port, p.ports[n]? = some port → w.bind n = .ok port

theorem chatWorkers_serve [Debug Response] {o : ChatOptions} {w : ChatWorld Key}
    {workers : List ChatWorker} (h : chatWorkers o w = .ok workers) :
    (workers.map (·.id)).Nodup ∧ ∀ worker ∈ workers,
      worker.id ≠ w.me ∧ worker.caps.revision = engineRevision ∧ worker.caps.busy = false ∧
        (worker.caps.device.kind = "gpu" ∨ worker.caps.device.kind = "igpu") := by
  unfold chatWorkers at h
  split_ifs at h
  · cases h
    exact ⟨List.nodup_nil, fun worker hworker => nomatch hworker⟩
  · cases hstore : w.store with
    | error e =>
      rw [hstore] at h
      cases h
    | ok store =>
      rw [hstore] at h
      dsimp only at h
      cases hfound : findWorkers w.std o.worker (knows store) w.me w.browsed with
      | error why =>
        rw [hfound] at h
        cases h
      | ok found =>
        rw [hfound] at h
        obtain ⟨hnodup, hall⟩ := connectWorkers_spec h
        refine ⟨hnodup, fun worker hworker => ?_⟩
        obtain ⟨t, -, hserves⟩ := forall₂_exists hall.flip hworker
        obtain ⟨-, -, hself, -, -, hcaps⟩ := hserves
        exact ⟨hself, hcaps⟩

/-- **The lists of a chat line up.**  When a chat starts its engine, it has made a plan, and the arguments
of the command say in one order where the proxies of the workers are, what the GPUs are called, and how
many layers each of them gets. -/
theorem chat_lines_up [Debug Response] {fl : F64 F} {o : ChatOptions} {w : ChatWorld Key}
    {args : List String} (h : chat fl o w = .ok args) :
    ∃ (p : ChatPlan) (command : ChatCommand), p.Made o w ∧ command.LinesUp p ∧
      args = command.args := by
  unfold chat at h
  obtain ⟨u, -, h⟩ := Outcome.andThen_eq_ok.1 h
  obtain ⟨model, -, h⟩ := Outcome.andThen_eq_ok.1 h
  obtain ⟨inventory, hinventory, h⟩ := Outcome.andThen_eq_ok.1 h
  split_ifs at h
  obtain ⟨gpus, hgpus, h⟩ := Outcome.andThen_eq_ok.1 h
  obtain ⟨local_, hlocal, h⟩ := Outcome.andThen_eq_ok.1 h
  obtain ⟨workers, hworkers, h⟩ := Outcome.andThen_eq_ok.1 h
  obtain ⟨plan, hplan, h⟩ := Outcome.andThen_eq_ok.1 h
  obtain ⟨ports, hports, h⟩ := Outcome.andThen_eq_ok.1 h
  obtain ⟨u', -, h⟩ := Outcome.andThen_eq_ok.1 h
  obtain rfl := Outcome.ok.inj h
  rw [Outcome.ofExcept_eq_ok] at hinventory hgpus hlocal hworkers hports
  obtain ⟨sizes, hfits, rfl, hle⟩ := build_ok (Outcome.mapErr_eq_ok.1 hplan)
  obtain ⟨hnodup, hserves⟩ := chatWorkers_serve hworkers
  have hall := mapM_eq_ok.1 hports
  have hlength : ports.length = workers.length := by
    rw [← hall.length_eq, List.length_range]
  have hne : sizes ≠ [] := by
    rintro rfl
    have := hfits.length_eq
    simp [chatDevices] at this
  refine ⟨⟨workers, local_, ports, sizes⟩, _, ?_, ?_, rfl⟩
  · refine ⟨⟨gpus, hgpus, hlocal⟩, hworkers, hnodup, hserves, ⟨inventory, hinventory, hfits⟩, ?_⟩
    intro n port hport
    obtain ⟨n', hn', hbind⟩ := forall₂_getElem? hall hport
    obtain ⟨hlt, rfl⟩ := List.getElem?_eq_some_iff.1 hn'
    rwa [List.getElem_range] at hbind
  · refine ⟨hlength, hfits.length_eq, ?_, ?_, splitChar_names workers local_⟩
    · by_cases hnil : ports = []
      · subst hnil
        exact Or.inl ⟨rfl, List.length_eq_zero_iff.1 hlength.symm⟩
      · exact Or.inr (splitChar_proxies hnil)
    · show splitChar ',' (joinChar ',' ((planOf sizes).layers.map toString)) = _
      rw [planOf_toString hne hle]
      refine splitChar_numbers fun hnil => hne ?_
      obtain ⟨init, last, rfl⟩ := (List.eq_nil_or_concat' sizes).resolve_left hne
      rw [List.modifyLast_concat] at hnil
      simp at hnil

/-- The names of addresses, all of which may be used. -/
def lanNet : StdNet where
  Ip := Unit
  parseSocketAddr text := some ⟨text, true, false⟩
  parseIpv4 _ := none
  new _ _ := ⟨"", true, false⟩
  ip _ := ()
  port _ := 47900
  isUnspecified _ := false

/-- A worker is at the address that was given. -/
def oneWorker : ChatWorld UInt8 where
  std := lanNet
  me := 1
  engine := .ok ()
  model := .ok "/models/uneven.gguf"
  inventory := .ok unevenModel
  gpus := .ok [gpu 2147483648]
  store := .ok (TrustStore.empty.insert (.new 7 "desk" "linux" 0) (.ok ())).1
  browsed := .ok []
  dial := fun _ _ _ => ⟨⟨0, .ok 7, .rejected⟩, .ok ⟨0⟩⟩
  reply := fun _ => .answered (.inferenceInfo ⟨engineRevision, gpu 8589934592, false⟩)
  bind := fun _ => .ok 50000
  log := .ok ()
  memory := fun _ => "test GPU: 2048 MiB available"
  debug := String.quote

/-- A chat with one worker, at the default limits. -/
theorem chat_lines_up_oneWorker :
    let _ : Debug Response := ⟨reprStr⟩
    let options : ChatOptions := ⟨2048, 256, none, ["192.168.7.40:47900"], false, none, 1024⟩
    let command : ChatCommand :=
      ⟨"127.0.0.1:50000", "/models/uneven.gguf", "RPC0,GPU", "2,2", "2048", "256", none⟩
    chat F64.exact options oneWorker = .ok command.args ∧
      ∃ (p : ChatPlan) (command' : ChatCommand), p.Made options oneWorker ∧ command'.LinesUp p ∧
        command.args = command'.args := by
  intro _ options command
  have h : chat F64.exact options oneWorker = .ok command.args := by decide +kernel
  exact ⟨h, chat_lines_up h⟩

end Daemon

end Latticed
