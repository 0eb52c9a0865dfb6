import Latticed.Daemon.Decode
import Latticed.Daemon.Exchange
import Latticed.Net.Lockstep

/-!
# A generation, over the wire

`generate` calls the devices of its pipeline.  Here the same run sends them bytes: a shard is loaded by a
control request on a stream of its own, and every step of a remote stage is a frame on the activation
stream of that stage, which a round of `serve_stream` at the other end reads, runs and answers.

* `generateOver_eq_ok` : over the wire a run prints just what it prints when the devices are called, if
  every message fits its frame, and leaves the devices the same.
-/

namespace Latticed

namespace Daemon

open Engine Net Rust

variable {Key : Type} [PublicKey Key] {C : Candle}

/-! ### Activation streams -/

/-- A round of the loop of `serve_stream` for a session, on the device that holds the layers. -/
def Node.serveRound (node : Node C) (session : UInt64) (ending : String) (s : Net.Serving) :
    Net.Serving × Node C :=
  match serveRead ((readFlat s.unread ending maxActivationFrame).1.toOption.map
      Step.wire.decode) with
  | .run step =>
    let call := node.run session step
    let s := Net.serveRound Step.wire StepResult.wire call.result ending s
    -- an answer that cannot be written ends the stream
    (s, if s.ended then call.state.dropSession session else call.state)
  | .stop _ =>
    -- the executor is not asked
    (Net.serveRound Step.wire StepResult.wire (.error "") ending s, node.dropSession session)

/-- `RemoteShard::step`, with the round in which the other end serves it. -/
def RemoteShard.step (remote : RemoteShard) (step : Step) (givenUp : GivenUp) (s : Net.Serving)
    (node : Node C) : Except NetError Payload × Net.Serving × Node C :=
  match writeFrame (Step.wire.write step) with
  | .error e => (.error e, s, node)
  | .ok frame =>
    if s.ended then (.error givenUp.writing.error, s, node)
    else
      let (s, node) := node.serveRound remote.header.session givenUp.reading
        { s with unread := s.unread ++ frame }
      let (answer, rest) := readFlat s.out givenUp.reading maxActivationFrame
      (stepReply StepResult.wire answer, { s with out := rest }, node)

/-- `RemoteShard::finish`, with the round in which the other end serves it. -/
def RemoteShard.finish (remote : RemoteShard) (givenUp : GivenUp) (s : Net.Serving) (node : Node C) :
    Node C :=
  if s.ended then node
  else (node.serveRound remote.header.session givenUp.reading
    { s with unread := s.unread ++ (writeFrame (Step.wire.write .done)).toOption.getD [] }).2

/-- The stream carries nothing and the other end waits. -/
structure Waiting (s : Net.Serving) : Prop where
  unread : s.unread = []
  out : s.out = []
  ended : s.ended = false

/-- The step and what the device answers to it fit their frames. -/
def StepFits (remote : RemoteShard) (step : Step) (node : Node C) : Prop :=
  (Step.wire.write step).length ≤ maxActivationFrame ∧
    Net.Fits StepResult.wire (node.run remote.header.session step).result

/-- A step that was written is read. -/
theorem serveRead_written {step : Step} {frame : Bytes} (ending : String) (hdone : step ≠ .done)
    (hframe : writeFrame (Step.wire.write step) = .ok frame)
    (hmax : (Step.wire.write step).length ≤ maxActivationFrame) :
    serveRead ((readFlat frame ending maxActivationFrame).1.toOption.map Step.wire.decode) =
      .run step := by
  rw [(hasFrame_of_writeFrame hframe hmax).readFlat]
  simp only [Except.toOption, Option.map_some, decode_of_writeFrame hframe]
  cases step with
  | prefill pos input => rfl
  | decode pos input => rfl
  | done => exact absurd rfl hdone

variable {remote : RemoteShard} {step : Step} {s : Net.Serving} {node : Node C} {ending : String}
  {givenUp : GivenUp}

/-- A round that serves a step, if the answer can be written. -/
theorem Node.serveRound_step {session : UInt64} {log : List ExecutorCall} {frame bytes : Bytes}
    (hdone : step ≠ .done) (hframe : writeFrame (Step.wire.write step) = .ok frame)
    (hmax : (Step.wire.write step).length ≤ maxActivationFrame)
    (hreply : reply StepResult.wire (.ofExcept (node.run session step).result) = .ok bytes) :
    node.serveRound session ending ⟨frame, log, [], false⟩ =
      (⟨[], log ++ [.run step (node.run session step).result], bytes, false⟩,
        (node.run session step).state) := by
  rw [Node.serveRound, serveRead_written ending hdone hframe hmax]
  dsimp only
  rw [Net.serveRound_step (hasFrame_of_writeFrame hframe hmax) (decode_of_writeFrame hframe) hdone hreply]
  rfl

/-- Nothing is written if the step cannot be read or the answer cannot be written. -/
theorem Node.serveRound_silent {session : UInt64} (ending : String) (log : List ExecutorCall) {frame : Bytes}
    (hdone : step ≠ .done) (hframe : writeFrame (Step.wire.write step) = .ok frame)
    (h : maxActivationFrame < (Step.wire.write step).length ∨
      ∃ e, reply StepResult.wire (.ofExcept (node.run session step).result) = .error e) :
    (node.serveRound session ending ⟨frame, log, [], false⟩).1.out = [] := by
  rw [Node.serveRound]
  dsimp only
  by_cases hmax : (Step.wire.write step).length ≤ maxActivationFrame
  · obtain hlong | ⟨e, hreply⟩ := h
    · omega
    · have hread := serveRead_written ending hdone hframe hmax
      rw [hread]
      dsimp only
      rw [Net.serveRound]
      dsimp only
      rw [hread]
      dsimp only
      rw [hreply]
  · obtain ⟨e, hread⟩ := readFlat_of_gt hframe (not_le.1 hmax) ending
    rw [hread]
    exact congrArg Net.Serving.out (Net.serveRound_failed hread)

namespace RemoteShard

/-- A step on a stream that waits. -/
theorem step_waiting {frame : Bytes} (hs : Waiting s)
    (hframe : writeFrame (Step.wire.write step) = .ok frame) :
    remote.step step givenUp s node =
      let served := node.serveRound remote.header.session givenUp.reading ⟨frame, s.log, [], false⟩
      let read := readFlat served.1.out givenUp.reading maxActivationFrame
      (stepReply StepResult.wire read.1, { served.1 with out := read.2 }, served.2) := by
  obtain ⟨unread, log, out, ended⟩ := s
  obtain ⟨rfl, rfl, rfl⟩ := hs
  rw [RemoteShard.step, hframe]
  rfl

/-- **A step that fits, over the wire**: the device runs it, and its answer comes back. -/
theorem step_of_fits (hs : Waiting s) (hdone : step ≠ .done) (hfits : StepFits remote step node) :
    remote.step step givenUp s node =
      ((node.run remote.header.session step).result.mapError fun why => .stream ("remote shard: " ++ why),
        ⟨[], s.log ++ [.run step (node.run remote.header.session step).result], [], false⟩,
        (node.run remote.header.session step).state) := by
  obtain ⟨hmax, hanswer⟩ := hfits
  have hlt : (Step.wire.write step).length ≤ 512 * 2 ^ 20 := hmax
  have hframe := writeFrame_of_lt (show (Step.wire.write step).length < 2 ^ 32 by omega)
  have hreply := hanswer.sendable.reply
  have hback := (hasFrame_of_writeFrame hreply hanswer).readFlat givenUp.reading
  rw [step_waiting hs hframe, Node.serveRound_step hdone hframe hmax hreply]
  dsimp only
  rw [hback, stepReply]
  dsimp only
  rw [decode_of_writeFrame hreply]
  cases (node.run remote.header.session step).result <;> rfl

/-- **Only a step that fits returns**, over the wire. -/
theorem fits_of_step {y : Payload} (hs : Waiting s) (hdone : step ≠ .done)
    (h : (remote.step step givenUp s node).1 = .ok y) : StepFits remote step node := by
  cases hframe : writeFrame (Step.wire.write step) with
  | error e =>
    rw [RemoteShard.step, hframe] at h
    cases h
  | ok frame =>
    rw [step_waiting hs hframe] at h
    -- nothing comes back unless the step is read and its answer written
    have hspoken : ¬ (maxActivationFrame < (Step.wire.write step).length ∨ ∃ e,
        reply StepResult.wire (.ofExcept (node.run remote.header.session step).result) = .error e) := by
      intro hsilent
      have hout := Node.serveRound_silent givenUp.reading s.log hdone hframe hsilent
      dsimp only at h
      rw [hout, readFlat_nil] at h
      cases h
    obtain ⟨hmax, hwritten⟩ := not_or.1 hspoken
    rw [not_lt] at hmax
    refine ⟨hmax, not_lt.1 fun hlong => ?_⟩
    cases hreply : reply StepResult.wire
        (.ofExcept (node.run remote.header.session step).result) with
    | error e => exact hwritten ⟨e, hreply⟩
    | ok bytes =>
      -- the master does not read an answer above its ceiling
      obtain ⟨e, hread⟩ := readFlat_of_gt hreply hlong givenUp.reading
      rw [Node.serveRound_step hdone hframe hmax hreply] at h
      dsimp only at h
      rw [hread] at h
      cases h

/-- **What a step returns, over the wire.** -/
theorem step_eq_ok {y : Payload} (hs : Waiting s) (hdone : step ≠ .done) :
    (remote.step step givenUp s node).1 = .ok y ↔
      (node.run remote.header.session step).result = .ok y ∧ StepFits remote step node := by
  constructor
  · intro h
    have hfits := fits_of_step hs hdone h
    rw [step_of_fits hs hdone hfits] at h
    refine ⟨?_, hfits⟩
    cases hresult : (node.run remote.header.session step).result with
    | ok z =>
      rw [hresult] at h
      exact congrArg Except.ok (Except.ok.inj h)
    | error e =>
      rw [hresult] at h
      cases h
  · rintro ⟨hresult, hfits⟩
    rw [step_of_fits hs hdone hfits, hresult]
    rfl

end RemoteShard

/-! ### The chain, over streams -/

/-- A stage of the chain.  A remote one has the activation stream that its device serves. -/
inductive WiredStage (C : Candle) where
  | here (spec : ShardSpec) (shard : CandleShard C)
  | peer (id : DeviceId) (shard : RemoteShard) (stream : Net.Serving)

namespace WiredStage

/-- The stage without its stream. -/
def bare : WiredStage C → Stage C
  | .here spec shard => .here spec shard
  | .peer id remote _ => .peer id remote

/-- The stream of the stage waits for the next step. -/
def Ready : WiredStage C → Prop
  | .here _ _ => True
  | .peer _ _ stream => Waiting stream

/-- `Stage::run`, over the stream. -/
def run (pos : UInt32) (isPrefill : Bool) (stage : WiredStage C) (peers : Peers C)
    (input : Payload) : Call (WiredStage C × Peers C) ℕ String Payload :=
  match stage with
  | .here spec shard =>
    (if isPrefill then shard.prefill SESSION pos input else shard.decode SESSION pos input).lift
      (fun shard => (.here spec shard, peers)) (·.mapError C.display)
  | .peer id remote stream =>
    match peers id with
    | none => .pure (.error ("shard on " ++ id.display)) (.peer id remote stream, peers)
    | some node =>
      let (answer, stream, node) := remote.step (.of isPrefill pos input) peers.givenUp stream node
      .pure (answer.mapError fun _ => "shard on " ++ id.display)
        (.peer id remote stream, peers.set id node)

/-- `RemoteShard::finish`. -/
def finish (peers : Peers C) : WiredStage C → Peers C
  | .here _ _ => peers
  | .peer id remote stream =>
    match peers id with
    | some node => peers.set id (remote.finish peers.givenUp stream node)
    | none => peers

end WiredStage

/-- The step that a stage is handed and its answer fit their frames. -/
def Stage.Fits (p : Pass) (stage : Stage C) (peers : Peers C) (input : Payload) : Prop :=
  match stage with
  | .here _ _ => True
  | .peer id remote => ∀ node, peers id = some node →
      StepFits remote (.of p.isPrefill p.pos input) node

theorem Step.of_ne_done (isPrefill : Bool) (pos : UInt32) (input : Payload) :
    Step.of isPrefill pos input ≠ .done := by
  cases isPrefill <;> exact fun h => nomatch h

/-- **A stage over its stream stands for the stage.** -/
theorem WiredStage.refines (p : Pass) : Refines (WiredStage.run (C := C) p.pos p.isPrefill)
    (Stage.run p.pos p.isPrefill) bare Ready (Stage.Fits p) where
  answer stage peers input y hready := by
    cases stage with
    | here spec shard => exact (and_iff_left trivial).symm
    | peer id remote stream =>
      rw [run, bare, Stage.run, Stage.Fits]
      cases hnode : peers id with
      | none => simp
      | some node =>
        have hstep := @RemoteShard.step_eq_ok C remote _ stream node peers.givenUp y hready
          (Step.of_ne_done p.isPrefill p.pos input)
        simp only [Call.pure_result, Call.lift_result, mapError_eq_ok, Option.some.injEq,
          forall_eq', hstep]
  ready stage peers input y hready h := by
    cases stage with
    | here spec shard => trivial
    | peer id remote stream =>
      rw [run] at h ⊢
      cases hnode : peers id with
      | none => exact hready
      | some node =>
        rw [hnode] at h
        have hfits := RemoteShard.fits_of_step hready (Step.of_ne_done p.isPrefill p.pos input)
          (mapError_eq_ok.1 h)
        dsimp only
        rw [RemoteShard.step_of_fits hready (Step.of_ne_done p.isPrefill p.pos input) hfits]
        exact ⟨rfl, rfl, rfl⟩
  keeps stage peers input y hready h := by
    cases stage with
    | here spec shard => rfl
    | peer id remote stream =>
      rw [run] at h ⊢
      rw [bare, Stage.run]
      cases hnode : peers id with
      | none => rfl
      | some node =>
        rw [hnode] at h
        have hfits := RemoteShard.fits_of_step hready (Step.of_ne_done p.isPrefill p.pos input)
          (mapError_eq_ok.1 h)
        dsimp only
        rw [RemoteShard.step_of_fits hready (Step.of_ne_done p.isPrefill p.pos input) hfits]
        rfl

/-- A chain of shards, over streams. -/
structure WiredPipeline (C : Candle) where
  stages : List (WiredStage C)

/-- What a pass hands to each device that it reaches, and what comes back, fits. -/
def Pipeline.Fits (s : Pipeline C × Peers C) (p : Pass) : Prop :=
  ∀ r ∈ handed (Stage.run p.pos p.isPrefill) s.1.stages s.2 p.input, Stage.Fits p r.1 r.2.1 r.2.2

namespace WiredPipeline

/-- The chain and the peers, without the streams. -/
def bare (s : WiredPipeline C × Peers C) : Pipeline C × Peers C :=
  (⟨s.1.stages.map WiredStage.bare⟩, s.2)

/-- `Pipeline::run`, over the streams. -/
def pass (s : WiredPipeline C × Peers C) (p : Pass) :
    Except String Payload × WiredPipeline C × Peers C :=
  let call := relay (WiredStage.run p.pos p.isPrefill) s.1.stages s.2 p.input
  (call.result, ⟨call.state.1⟩, call.state.2)

/-- `Pipeline::finish`, over the streams. -/
def finish (pipeline : WiredPipeline C) (peers : Peers C) : Peers C :=
  pipeline.stages.foldl WiredStage.finish peers

/-- All streams wait. -/
def Ready (s : WiredPipeline C × Peers C) : Prop := ∀ stage ∈ s.1.stages, stage.Ready

variable {s : WiredPipeline C × Peers C} {p : Pass} {y : Payload}

/-- **A pass over the streams** answers as the pass does, if everything fits. -/
theorem pass_eq_ok (h : Ready s) : (answering pass s p).1 = some y ↔
    (answering Pipeline.pass (bare s) p).1 = some y ∧ Pipeline.Fits (bare s) p := by
  rw [answering, answering, toOption_eq_some, toOption_eq_some]
  exact (WiredStage.refines p).relay_ok h

/-- What a pass over the streams leaves. -/
theorem pass_state (h : Ready s) (hok : (answering pass s p).1 = some y) :
    Ready (answering pass s p).2 ∧
      bare (answering pass s p).2 = (answering Pipeline.pass (bare s) p).2 := by
  obtain ⟨hready, hstate⟩ := (WiredStage.refines p).relay_state h (toOption_eq_some.1 hok)
  refine ⟨hready, ?_⟩
  have hlists := congrArg (fun t : List (Stage C) × Peers C => ((⟨t.1⟩ : Pipeline C), t.2)) hstate
  exact hlists

/-- **A generation over the streams** that returns is one without them, and everything it sent fits. -/
theorem decodeAll_bare {prompt out : List UInt32} {maxNew : UInt32} {t : WiredPipeline C × Peers C}
    (h : Ready s) (hrun : decodeAll pass prompt maxNew s = (.ok out, t)) :
    Ready t ∧ decodeAll Pipeline.pass prompt maxNew (bare s) = (.ok out, bare t) ∧
      Along (answering Pipeline.pass) Pipeline.Fits (bare s) (passesFor prompt out) := by
  obtain ⟨hlen, ys, hanswers, hall⟩ := decodeAll_eq_ok.1 hrun
  obtain ⟨hready, hbare, halong⟩ := @Answers.refines _ _ _ _ (answering Pipeline.pass) (answering pass)
    bare Ready Pipeline.Fits (fun _ _ _ hs => (pass_eq_ok hs).1) (fun _ _ _ hs => pass_state hs) _ _ h
    _ _ hanswers
  exact ⟨hready, decodeAll_eq_ok.2 ⟨hlen, ys, hbare, hall⟩, halong⟩

/-- A generation that returns is one over the streams, if everything it would send fits. -/
theorem decodeAll_wired {prompt out : List UInt32} {maxNew : UInt32} {t : Pipeline C × Peers C}
    (h : Ready s) (hrun : decodeAll Pipeline.pass prompt maxNew (bare s) = (.ok out, t))
    (halong : Along (answering Pipeline.pass) Pipeline.Fits (bare s) (passesFor prompt out)) :
    ∃ t', decodeAll pass prompt maxNew s = (.ok out, t') ∧ Ready t' ∧ bare t' = t := by
  obtain ⟨hlen, ys, hanswers, hall⟩ := decodeAll_eq_ok.1 hrun
  obtain ⟨t', hwired, hend⟩ := @Answers.refined _ _ _ _ (answering Pipeline.pass) (answering pass) bare
    Ready Pipeline.Fits (fun _ _ _ hs hy hfits => (pass_eq_ok hs).2 ⟨hy, hfits⟩)
    (fun _ _ _ hs => pass_state hs) _ _ h _ _ hanswers halong
  exact ⟨t', decodeAll_eq_ok.2 ⟨hlen, ys, hwired, hall⟩, hend⟩

end WiredPipeline

/-- A device that is told `Done` drops the session. -/
theorem RemoteShard.finish_waiting {remote : RemoteShard} {stream : Net.Serving} {node : Node C}
    (h : Waiting stream) : remote.finish givenUp stream node = node.dropSession remote.header.session := by
  obtain ⟨unread, log, out, ended⟩ := stream
  obtain ⟨rfl, rfl, rfl⟩ := h
  have hread : serveRead ((readFlat ([] ++ (writeFrame (Step.wire.write .done)).toOption.getD [])
      givenUp.reading maxActivationFrame).1.toOption.map Step.wire.decode) = .stop none := by
    have hframe : writeFrame (Step.wire.write .done) =
        .ok (toLeBytes 4 (Step.wire.write .done).length ++ Step.wire.write .done) := rfl
    rw [hframe]
    show serveRead ((readFlat (toLeBytes 4 (Step.wire.write .done).length ++ Step.wire.write .done)
      givenUp.reading maxActivationFrame).1.toOption.map Step.wire.decode) = .stop none
    rw [(hasFrame_of_writeFrame hframe (by decide)).readFlat]
    rfl
  rw [RemoteShard.finish]
  dsimp only
  rw [if_neg Bool.false_ne_true, Node.serveRound, hread]

theorem WiredPipeline.finish_ready {pipeline : WiredPipeline C} {peers : Peers C}
    (h : Ready (pipeline, peers)) :
    pipeline.finish peers = (bare (pipeline, peers)).1.finish peers := by
  obtain ⟨stages⟩ := pipeline
  have hready : ∀ stage ∈ stages, WiredStage.Ready stage := h
  show stages.foldl WiredStage.finish peers = (stages.map WiredStage.bare).foldl Stage.finish peers
  rw [List.foldl_map]
  refine List.foldl_ext _ _ _ fun peers stage hmem => ?_
  cases stage with
  | here spec shard => rfl
  | peer id remote stream =>
    rw [WiredStage.finish, WiredStage.bare, Stage.finish]
    cases peers id with
    | none => rfl
    | some node => exact congrArg (peers.set id) (RemoteShard.finish_waiting (hready _ hmem))

/-! ### Opening, over control streams -/

/-- The master, and what lies between it and its peers. -/
structure Wiring (Key : Type) (C : Candle) where
  self : DeviceId
  /-- The device at the other end of the connection that is kept for an id; its node aside. -/
  around : DeviceId → Device Key C
  circumstances : Circumstances
  there : DeviceId → Delivery
  back : DeviceId → Delivery

/-- The request to load a shard fits a control frame. -/
def LoadFits (spec : ShardSpec) : Prop :=
  (Request.wire.write (.loadShard spec)).length ≤ maxControlFrame

instance (spec : ShardSpec) : Decidable (LoadFits spec) := inferInstanceAs (Decidable (_ ≤ _))

/-- The exchange that asks a device to load a shard. -/
def Wiring.asking (w : Wiring Key C) (id : DeviceId) (spec : ShardSpec) (h : LoadFits spec) : Asking where
  from_ := w.self
  request := .loadShard spec
  fits := h
  circumstances := w.circumstances
  there := w.there id
  back := w.back id

/-- What `open_remote` makes of the answer. -/
def openedOver [Debug Response] (id : DeviceId) (spec : ShardSpec) :
    Except NetError Response → Outcome String (WiredStage C)
  | .ok (.shardLoaded _ _) => .ok (.peer id (RemoteShard.openOn SESSION 0) ⟨[], [], [], false⟩)
  | .ok (.refused why) =>
    .err (id.display ++ " refused layers " ++ toString spec.firstLayer ++ ".." ++
      toString spec.lastLayer ++ ": " ++ why)
  | .ok other => .err (id.display ++ " answered a load request with " ++ Debug.debug other)
  | .error e => .err e.display

/-- `open_remote`, over a control stream.  What does not fit is not answered. -/
def openRemoteOver [Debug Response] (w : Wiring Key C) (peers : Peers C) (id : DeviceId) (node : Node C)
    (spec : ShardSpec) : Outcome String (WiredStage C) × Peers C :=
  if h : LoadFits spec then
    let (answer, device) := (w.asking id spec h).exchange { w.around id with node }
    (openedOver id spec answer, peers.set id device.node)
  else (.err ("reading frame length: " ++ (w.back id).ending), peers)

/-- The body of the loop of `Pipeline::open`. -/
def openStageOver [Debug Response] (w : Wiring Key C) (model : C.File) (hash : String) (options : Options)
    (peers : Peers C) (place : Placement) : Outcome String (WiredStage C) × Peers C :=
  match place.host with
  | .here =>
    (((CandleShard.openFile model (options.specFor hash place)).mapErr fun _ =>
        "loading layers " ++ toString place.firstLayer ++ ".." ++ toString place.lastLayer).andThen
      fun shard => .ok (.here (options.specFor hash place) shard), peers)
  | .peer id =>
    match peers id with
    | none => (.err ("no connection to " ++ id.display), peers)
    | some node => openRemoteOver w peers id node (options.specFor hash place)

/-- The loop of `Pipeline::open`. -/
def openStagesOver [Debug Response] (w : Wiring Key C) (model : C.File) (hash : String) (options : Options) :
    List Placement → Peers C → Outcome String (List (WiredStage C)) × Peers C
  | [], peers => (.ok [], peers)
  | place :: places, peers =>
    match openStageOver w model hash options peers place with
    | (.err e, peers) => (.err e, peers)
    | (.panic m, peers) => (.panic m, peers)
    | (.ok stage, peers) =>
      let (stages, peers) := openStagesOver w model hash options places peers
      (stages.andThen fun stages => .ok (stage :: stages), peers)

/-- `Pipeline::open`. -/
def WiredPipeline.openWith [Debug Response] (w : Wiring Key C) (model : C.File) (facts : ModelFacts)
    (options : Options) (peers : Peers C) : Outcome String (WiredPipeline C) × Peers C :=
  match C.hashFile model with
  | .error _ => (.err "hashing the model", peers)
  | .ok hash =>
    match checkTiling options.places facts.layers with
    | .error e => (.err e, peers)
    | .ok () =>
      let (stages, peers) := openStagesOver w model hash options options.places peers
      (stages.andThen fun stages => .ok ⟨stages⟩, peers)

/-- `generate::run`, over the wire. -/
def generateOver [Debug Response] (w : Wiring Key C) (model : C.File) (prompt : List UInt32) (maxNew : UInt32)
    (options : Options) (peers : Peers C) : Outcome String (List UInt32) × Peers C :=
  match ModelFacts.readFile model with
  | .error _ => (.err "reading the GGUF header", peers)
  | .ok facts =>
    match WiredPipeline.openWith w model facts options peers with
    | (.err e, peers) => (.err e, peers)
    | (.panic m, peers) => (.panic m, peers)
    | (.ok pipeline, peers) =>
      match reportHere (WiredPipeline.bare (pipeline, peers)).1.stages with
      | .err e => (.err e, peers)
      | .panic m => (.panic m, peers)
      | .ok () =>
        match decodeAll WiredPipeline.pass prompt maxNew (pipeline, peers) with
        | (.error e, _, peers) => (.err e, peers)
        | (.ok out, pipeline, peers) => (.ok out, pipeline.finish peers)

/-- A stage whose stream has just been opened. -/
def Stage.fresh : Stage C → WiredStage C
  | .here spec shard => .here spec shard
  | .peer id remote => .peer id remote ⟨[], [], [], false⟩

@[simp] theorem Stage.bare_fresh (stage : Stage C) : stage.fresh.bare = stage := by cases stage <;> rfl

theorem Stage.ready_fresh (stage : Stage C) : stage.fresh.Ready := by
  cases stage with
  | here spec shard => trivial
  | peer id remote => exact ⟨rfl, rfl, rfl⟩

variable {w : Wiring Key C} {model : C.File} {facts : ModelFacts} {hash : String} {options : Options}
  {peers peers' : Peers C} {places : List Placement} {place : Placement}

/-- The answer that a shard is loaded is short. -/
theorem told_shardLoaded {a : Asking} {x : Outcome Empty Response} {weightBytes kvBytes : UInt64} :
    a.told x = .ok (.shardLoaded weightBytes kvBytes) ↔
      x = .ok (.shardLoaded weightBytes kvBytes) := by
  constructor
  · intro h
    cases x with
    | err e => exact e.elim
    | panic m => cases h
    | ok response =>
      rw [Asking.told] at h
      split_ifs at h
      exact congrArg Outcome.ok (Except.ok.inj h)
  · rintro rfl
    have htag := Postcard.length_writeVarint_le 5 2
    have hweights := Postcard.length_writeVarint_le 10 weightBytes.toNat
    have hkv := Postcard.length_writeVarint_le 10 kvBytes.toNat
    have hmax : maxControlFrame = 64 * 2 ^ 10 := rfl
    rw [Asking.told, if_pos]
    show (Postcard.writeVarint 5 2 ++ Postcard.writeVarint 10 weightBytes.toNat ++
      Postcard.writeVarint 10 kvBytes.toNat).length ≤ _
    rw [List.length_append, List.length_append]
    omega

/-- A stage opens on the answer that the shard is loaded, and on no other. -/
theorem openedOver_eq_ok [Debug Response] {id : DeviceId} {spec : ShardSpec}
    {answer : Except NetError Response} {wired : WiredStage C} : openedOver id spec answer = .ok wired ↔
      (∃ weightBytes kvBytes, answer = .ok (.shardLoaded weightBytes kvBytes)) ∧
        wired = (Stage.peer id (RemoteShard.openOn SESSION 0)).fresh := by
  constructor
  · intro h
    rcases answer with e | response
    · cases h
    · cases response with
      | shardLoaded weightBytes kvBytes => exact ⟨⟨_, _, rfl⟩, (Outcome.ok.inj h).symm⟩
      | _ => cases h
  · rintro ⟨⟨weightBytes, kvBytes, rfl⟩, rfl⟩
    rfl

/-- **A remote stage opens over the wire** just if it opens, and the request fits. -/
theorem openRemoteOver_eq_ok [Debug Response] {id : DeviceId} {node : Node C} {spec : ShardSpec}
    {wired : WiredStage C} :
    openRemoteOver w peers id node spec = (.ok wired, peers') ↔
      ∃ stage, openRemote peers id node spec = (.ok stage, peers') ∧ wired = stage.fresh ∧
        LoadFits spec := by
  by_cases hfits : LoadFits spec
  · have hopen : openRemoteOver w peers id node spec =
        (openedOver id spec ((w.asking id spec hfits).told (node.loadShard spec).1),
          peers.set id (node.loadShard spec).2) := by
      rw [openRemoteOver, dif_pos hfits,
        (w.asking id spec hfits).exchange_eq { w.around id with node }]
      rfl
    rw [hopen, Prod.mk.injEq, openedOver_eq_ok]
    simp only [told_shardLoaded, openRemote_eq_ok]
    constructor
    · rintro ⟨⟨hload, rfl⟩, rfl⟩
      exact ⟨_, ⟨hload, rfl, rfl⟩, rfl, hfits⟩
    · rintro ⟨stage, ⟨hload, rfl, rfl⟩, rfl, -⟩
      exact ⟨⟨hload, rfl⟩, rfl⟩
  · rw [openRemoteOver, dif_neg hfits]
    constructor
    · intro h
      cases h
    · rintro ⟨stage, -, -, h⟩
      exact absurd h hfits

/-- A stage opens over the wire just if it opens, and the request for it fits. -/
theorem openStageOver_eq_ok [Debug Response] {wired : WiredStage C} :
    openStageOver w model hash options peers place = (.ok wired, peers') ↔
      ∃ stage, openStage model hash options peers place = (.ok stage, peers') ∧ wired = stage.fresh ∧
        ∀ id, place.host = .peer id → LoadFits (options.specFor hash place) := by
  rw [openStageOver, openStage]
  cases hhost : place.host with
  | here =>
    dsimp only
    cases CandleShard.openFile model (options.specFor hash place) with
    | ok shard =>
      constructor
      · intro h
        cases h
        exact ⟨_, rfl, rfl, fun id h => nomatch h⟩
      · rintro ⟨stage, h, rfl, -⟩
        cases h
        rfl
    | err e =>
      constructor
      · intro h
        cases h
      · rintro ⟨stage, h, -⟩
        cases h
    | panic m =>
      constructor
      · intro h
        cases h
      · rintro ⟨stage, h, -⟩
        cases h
  | peer id =>
    dsimp only
    cases peers id with
    | none =>
      constructor
      · intro h
        cases h
      · rintro ⟨stage, h, -⟩
        cases h
    | some node => simp only [openRemoteOver_eq_ok, Host.peer.injEq, forall_eq']

/-- The requests for all remote places fit. -/
def LoadsFit (options : Options) (hash : String) (places : List Placement) : Prop :=
  ∀ place ∈ places, ∀ id, place.host = .peer id → LoadFits (options.specFor hash place)

theorem openStagesOver_cons [Debug Response] {wired : WiredStage C} {peers₁ : Peers C}
    (h : openStageOver w model hash options peers place = (.ok wired, peers₁)) :
    openStagesOver w model hash options (place :: places) peers =
      (((openStagesOver w model hash options places peers₁).1.andThen fun rest => .ok (wired :: rest)),
        (openStagesOver w model hash options places peers₁).2) := by
  rw [openStagesOver, h]

/-- **The stages open over the wire** just if they open, and the requests for them fit. -/
theorem openStagesOver_eq_ok [Debug Response] {wired : List (WiredStage C)} :
    openStagesOver w model hash options places peers = (.ok wired, peers') ↔
      ∃ stages, openStages model hash options places peers = (.ok stages, peers') ∧
        wired = stages.map Stage.fresh ∧ LoadsFit options hash places := by
  induction places generalizing peers wired with
  | nil =>
    constructor
    · intro h
      cases h
      exact ⟨[], rfl, rfl, fun place hplace => nomatch hplace⟩
    · rintro ⟨stages, h, rfl, -⟩
      cases h
      rfl
  | cons place places ih =>
    constructor
    · intro h
      rcases hstage : openStageOver w model hash options peers place with ⟨wired₁ | e | m, peers₁⟩
      · rw [openStagesOver_cons hstage] at h
        obtain ⟨hrest, hpeers⟩ := Prod.mk.inj h
        obtain ⟨rest, hopened, hcons⟩ := Outcome.andThen_eq_ok.1 hrest
        obtain rfl := Outcome.ok.inj hcons
        obtain ⟨stage, hopen, rfl, hfits⟩ := openStageOver_eq_ok.1 hstage
        obtain ⟨stages, hopens, rfl, hloads⟩ := ih.1 (Prod.ext hopened hpeers)
        refine ⟨stage :: stages, ?_, rfl, List.forall_mem_cons.2 ⟨hfits, hloads⟩⟩
        rw [openStages, hopen]
        dsimp only
        rw [hopens]
        rfl
      · rw [openStagesOver, hstage] at h
        cases h
      · rw [openStagesOver, hstage] at h
        cases h
    · rintro ⟨stages, h, rfl, hloads⟩
      obtain ⟨stage, rest, peers₁, hstage, hrest, rfl⟩ := openStages_cons h
      obtain ⟨hfits, hloads⟩ := List.forall_mem_cons.1 hloads
      rw [openStagesOver_cons (openStageOver_eq_ok.2 ⟨stage, hstage, rfl, hfits⟩),
        ih.2 ⟨rest, hrest, rfl, hloads⟩]
      rfl

/-- **The pipeline opens over the wire** just if it opens, and the requests for it fit. -/
theorem WiredPipeline.openWith_eq_ok [Debug Response] {wired : WiredPipeline C} :
    openWith w model facts options peers = (.ok wired, peers') ↔
      ∃ pipeline : Pipeline C, Pipeline.openWith model facts options peers = (.ok pipeline, peers') ∧
        wired = ⟨pipeline.stages.map Stage.fresh⟩ ∧
        ∀ hash, C.hashFile model = .ok hash → LoadsFit options hash options.places := by
  rw [openWith, Pipeline.openWith]
  cases hhash : C.hashFile model with
  | error e =>
    constructor
    · intro h
      cases h
    · rintro ⟨stage, h, -⟩
      cases h
  | ok hash =>
    dsimp only
    cases checkTiling options.places facts.layers with
    | error e =>
      constructor
      · intro h
        cases h
      · rintro ⟨stage, h, -⟩
        cases h
    | ok u =>
      dsimp only
      constructor
      · intro h
        obtain ⟨hstages, hpeers⟩ := Prod.mk.inj h
        obtain ⟨wired, hopened, hpipeline⟩ := Outcome.andThen_eq_ok.1 hstages
        obtain rfl := Outcome.ok.inj hpipeline
        obtain ⟨stages, hopens, rfl, hloads⟩ := openStagesOver_eq_ok.1 (Prod.ext hopened hpeers)
        refine ⟨⟨stages⟩, ?_, rfl, ?_⟩
        · rw [hopens]
          rfl
        · rintro _ ⟨⟩
          exact hloads
      · rintro ⟨pipeline, h, rfl, hloads⟩
        obtain ⟨hstages, hpeers⟩ := Prod.mk.inj h
        obtain ⟨stages, hopened, hpipeline⟩ := Outcome.andThen_eq_ok.1 hstages
        obtain rfl := Outcome.ok.inj hpipeline
        rw [openStagesOver_eq_ok.2 ⟨stages, Prod.ext hopened hpeers, rfl, hloads hash rfl⟩]
        rfl

/-! ### The run, over the wire -/

/-- **What a run over the wire that returns has done.** -/
theorem generateOver_iff [Debug Response] {prompt out : List UInt32} {maxNew : UInt32} :
    generateOver w model prompt maxNew options peers = (.ok out, peers') ↔
      ∃ facts pipeline opened t, ModelFacts.readFile model = .ok facts ∧
        WiredPipeline.openWith w model facts options peers = (.ok pipeline, opened) ∧
        reportHere (WiredPipeline.bare (pipeline, opened)).1.stages = .ok () ∧
        decodeAll WiredPipeline.pass prompt maxNew (pipeline, opened) = (.ok out, t) ∧
        peers' = t.1.finish t.2 := by
  constructor
  · intro h
    unfold generateOver at h
    cases hfacts : ModelFacts.readFile model with
    | error e => rw [hfacts] at h; cases h
    | ok facts =>
      rw [hfacts] at h
      dsimp only at h
      rcases hopen : WiredPipeline.openWith w model facts options peers with ⟨pipeline | e | m, opened⟩
      · rw [hopen] at h
        dsimp only at h
        cases hreport : reportHere (WiredPipeline.bare (pipeline, opened)).1.stages with
        | err e => rw [hreport] at h; cases h
        | panic m => rw [hreport] at h; cases h
        | ok u =>
          rw [hreport] at h
          dsimp only at h
          rcases hrun : decodeAll WiredPipeline.pass prompt maxNew (pipeline, opened) with ⟨_ | out', t⟩
          · rw [hrun] at h
            cases h
          · rw [hrun] at h
            cases h
            exact ⟨facts, pipeline, opened, t, rfl, hopen, hreport, hrun, rfl⟩
      · rw [hopen] at h
        cases h
      · rw [hopen] at h
        cases h
  · rintro ⟨facts, pipeline, opened, t, hfacts, hopen, hreport, hrun, rfl⟩
    unfold generateOver
    rw [hfacts]
    dsimp only
    rw [hopen]
    dsimp only
    rw [hreport]
    dsimp only
    rw [hrun]

/-- Every message of a generation fits its frame: the requests to load, and what its passes hand to
devices and get back. -/
structure RunFits [Debug Response] (model : C.File) (prompt out : List UInt32) (options : Options)
    (peers : Peers C) : Prop where
  loads : ∀ hash, C.hashFile model = .ok hash → LoadsFit options hash options.places
  passes : ∀ facts pipeline opened, ModelFacts.readFile model = .ok facts →
    Pipeline.openWith model facts options peers = (.ok pipeline, opened) →
    Along (answering Pipeline.pass) Pipeline.Fits (pipeline, opened) (passesFor prompt out)

/-- **Over the wire a run prints what it prints when the devices are called**, and leaves the devices the
same, if every message fits; otherwise it prints nothing. -/
theorem generateOver_eq_ok [Debug Response] (w : Wiring Key C) (model : C.File) (prompt out : List UInt32)
    (maxNew : UInt32) (options : Options) (peers after : Peers C) :
    generateOver w model prompt maxNew options peers = (.ok out, after) ↔
      generate model prompt maxNew options peers = (.ok out, after) ∧
        RunFits model prompt out options peers := by
  have hbare : ∀ (pipeline : Pipeline C) (opened : Peers C), WiredPipeline.bare
      (⟨pipeline.stages.map Stage.fresh⟩, opened) = (pipeline, opened) := fun pipeline opened => by
    have hmap : (pipeline.stages.map Stage.fresh).map WiredStage.bare = pipeline.stages := by
      rw [List.map_map]
      exact List.map_id'' Stage.bare_fresh _
    rw [WiredPipeline.bare, hmap]
  have hready : ∀ (pipeline : Pipeline C) (opened : Peers C), WiredPipeline.Ready
      (⟨pipeline.stages.map Stage.fresh⟩, opened) := fun pipeline opened stage hstage => by
    obtain ⟨stage, -, rfl⟩ := List.mem_map.1 hstage
    exact stage.ready_fresh
  rw [generateOver_iff, generate_iff]
  constructor
  · rintro ⟨facts, wired, opened, t, hfacts, hopen, hreport, hrun, rfl⟩
    obtain ⟨pipeline, hopens, rfl, hloads⟩ := WiredPipeline.openWith_eq_ok.1 hopen
    obtain ⟨ht, hrun, halong⟩ := WiredPipeline.decodeAll_bare (hready pipeline opened) hrun
    rw [hbare] at hreport hrun halong
    refine ⟨⟨facts, pipeline, opened, _, hfacts, hopens, hreport, hrun, WiredPipeline.finish_ready ht⟩,
      hloads, ?_⟩
    intro facts' pipeline' opened' hfacts' hopens'
    obtain rfl := Except.ok.inj (hfacts.symm.trans hfacts')
    obtain ⟨hpipeline, rfl⟩ := Prod.mk.inj (hopens.symm.trans hopens')
    obtain rfl := Outcome.ok.inj hpipeline
    exact halong
  · rintro ⟨⟨facts, pipeline, opened, t, hfacts, hopens, hreport, hrun, rfl⟩, hloads, hpasses⟩
    have halong := hpasses facts pipeline opened hfacts hopens
    have hreport' : reportHere (WiredPipeline.bare
        (⟨pipeline.stages.map Stage.fresh⟩, opened)).1.stages = .ok () := by rwa [hbare]
    rw [← hbare] at hrun halong
    obtain ⟨t', hrun', ht', rfl⟩ := WiredPipeline.decodeAll_wired (hready pipeline opened) hrun halong
    exact ⟨facts, _, opened, t', hfacts,
      WiredPipeline.openWith_eq_ok.2 ⟨pipeline, hopens, rfl, hloads⟩, hreport', hrun',
      (WiredPipeline.finish_ready ht').symm⟩

end Daemon

end Latticed
