import Latticed.Daemon.Typing
import Latticed.Engine.Levels
import Latticed.Engine.Samples
import Latticed.Rust.Iter

/-!
# The decode loop

The master feeds the prompt to the chain of shards, takes the greatest of the logits that come back,
and feeds it to the chain again, one position further, until it has the tokens it was asked for.

* `argmax_eq_ok` : the sampler picks the last of the greatest logits.
* `decodeAll_eq_ok` : a generation that returns is a run of passes, one for each token, each at the
  position after the one before it and fed with the token before it.
* `Pipeline.On.pass` : on devices that host one range each, a pass of the pipeline is a call to the
  chain of its shards.
* `generate_split` : a model that is split over devices generates what the whole model generates.
* `generate_greedy` : which tokens are generated.
* `generate_aligned` : how deep the caches are, and what is left of them.
-/

namespace Latticed

namespace Daemon

open Engine Net Rust

/-! ### Sampling -/

/-- `argmax`: greedy sampling. -/
def argmax : Payload → Except String UInt32
  | .logits values =>
    match maxBy (fun a b => totalCmp a.1 b.1) values.zipIdx with
    | some best => .ok (UInt32.ofNat best.2)
    | none => .error "empty logits"
  | other => .error ("the last shard returned " ++ other.kind ++ ", not logits")

theorem totalCmp_gt {x y : F32} : totalCmp x y = .gt ↔ totalKey y < totalKey x :=
  compare_gt_iff_gt

/-- The last of the greatest logits is at `i`. -/
def Greatest (values : List F32) (i : ℕ) : Prop :=
  ∃ v, values[i]? = some v ∧ (∀ j w, j < i → values[j]? = some w → totalKey w ≤ totalKey v) ∧
    ∀ j w, i < j → values[j]? = some w → totalKey w < totalKey v

theorem Greatest.le {values : List F32} {i j : ℕ} (h : Greatest values i) (h' : Greatest values j) :
    j ≤ i := by
  obtain ⟨v, hv, -, hafter⟩ := h
  obtain ⟨w, hw, hbefore, -⟩ := h'
  by_contra hlt
  exact absurd (hafter j w (by omega) hw) (not_lt.2 (hbefore i v (by omega) hv))

/-- The pair of a value and its index that the iterator keeps. -/
theorem maxBy_greatest {values : List F32} {best : F32 × ℕ}
    (h : maxBy (fun a b => totalCmp a.1 b.1) values.zipIdx = some best) : Greatest values best.2 := by
  obtain ⟨v, i⟩ := best
  obtain ⟨before, after, hsplit, hbefore, hafter⟩ :=
    @maxBy_eq_some _ _ _ _ (fun p : F32 × ℕ => totalKey p.1) (fun _ _ => totalCmp_gt) _ _ h
  have hget (j : ℕ) : values.zipIdx[j]? = values[j]?.map fun w => (w, j) := by
    rw [List.getElem?_zipIdx]
    simp
  have hmem {j : ℕ} {w : F32} (hw : values[j]? = some w) : values.zipIdx[j]? = some (w, j) := by
    rw [hget, hw]
    rfl
  -- the index of the pair is its place in the list
  obtain ⟨hat, hplace⟩ : values[i]? = some v ∧ i = before.length := by
    have hat := hget before.length
    rw [hsplit, List.getElem?_append_right le_rfl, Nat.sub_self] at hat
    obtain ⟨w, hw, heq⟩ := Option.map_eq_some_iff.1 hat.symm
    cases heq
    exact ⟨hw, rfl⟩
  refine ⟨v, hat, fun j w hj hw => ?_, fun j w hj hw => ?_⟩
  · have hw' := hmem hw
    rw [hsplit, List.getElem?_append_left (hplace ▸ hj)] at hw'
    exact hbefore _ (List.mem_of_getElem? hw')
  · have hw' := hmem hw
    obtain ⟨k, hk⟩ : ∃ k, j - before.length = k + 1 := ⟨j - before.length - 1, by omega⟩
    rw [hsplit, List.getElem?_append_right (by omega), hk, List.getElem?_cons_succ] at hw'
    exact hafter _ (List.mem_of_getElem? hw')

/-- **The sampler picks the last of the greatest logits.** -/
theorem argmax_eq_ok {y : Payload} {token : UInt32} :
    argmax y = .ok token ↔
      ∃ values i, y = .logits values ∧ Greatest values i ∧ token = UInt32.ofNat i := by
  constructor
  · intro h
    cases y with
    | tokens ids => cases h
    | hidden activation => cases h
    | logits values =>
      unfold argmax at h
      dsimp only at h
      cases hbest : maxBy (fun a b => totalCmp a.1 b.1) values.zipIdx with
      | none =>
        rw [hbest] at h
        cases h
      | some best =>
        rw [hbest] at h
        exact ⟨values, best.2, rfl, maxBy_greatest hbest, (Except.ok.inj h).symm⟩
  · rintro ⟨values, i, rfl, hgreatest, rfl⟩
    obtain ⟨v, hv, -⟩ := id hgreatest
    cases values with
    | nil => cases hv
    | cons first rest =>
      have hbest : maxBy (fun a b => totalCmp a.1 b.1) (first :: rest).zipIdx = some _ := rfl
      unfold argmax
      dsimp only
      rw [hbest]
      have hfound := maxBy_greatest hbest
      rw [(hfound.le hgreatest).antisymm (hgreatest.le hfound)]

/-! ### The loop -/

section

variable {S : Type} {pass : S → Pass → Except String Payload × S}

/-- The loop of `run`, over anything that makes a pass: what is left of the range of `step`, and the
token to feed. -/
def decodeFrom (pass : S → Pass → Except String Payload × S) (promptLen : UInt32) :
    List ℕ → UInt32 → S → Except String (List UInt32) × S
  | [], _, s => (.ok [], s)
  | step :: steps, next, s =>
    let (answer, s) := pass s ⟨promptLen + UInt32.ofNat step, false, .tokens [next]⟩
    match answer.bind argmax with
    | .error e => (.error e, s)
    | .ok next =>
      let (out, s) := decodeFrom pass promptLen steps next s
      (out.map (next :: ·), s)

/-- The prompt, then the loop: the tokens that `run` prints. -/
def decodeAll (pass : S → Pass → Except String Payload × S) (prompt : List UInt32)
    (maxNew : UInt32) (s : S) : Except String (List UInt32) × S :=
  let (answer, s) := pass s ⟨0, true, .tokens prompt⟩
  match answer.bind argmax with
  | .error e => (.error e, s)
  | .ok next =>
    let (out, s) := decodeFrom pass (UInt32.ofNat prompt.length)
      (List.range (maxNew.toNat - 1)) next s
    (out.map (next :: ·), s)

/-- What a machine that makes passes answers, if it answers. -/
def answering (pass : S → Pass → Except String Payload × S) (s : S) (p : Pass) :
    Option Payload × S :=
  ((pass s p).1.toOption, (pass s p).2)

/-- The passes that feed these tokens, from this step on. -/
def feeding (promptLen : UInt32) : ℕ → List UInt32 → List Pass
  | _, [] => []
  | step, token :: rest =>
    ⟨promptLen + UInt32.ofNat step, false, .tokens [token]⟩ :: feeding promptLen (step + 1) rest

/-- The passes of a generation: the prompt, and each of its tokens but the last. -/
def passesFor (prompt out : List UInt32) : List Pass :=
  ⟨0, true, .tokens prompt⟩ :: feeding (UInt32.ofNat prompt.length) 0 out.dropLast

theorem decodeFrom_eq_ok {promptLen next : UInt32} {step n : ℕ} {s t : S} {out : List UInt32} :
    decodeFrom pass promptLen (List.range' step n) next s = (.ok out, t) ↔
      out.length = n ∧ ∃ ys, Answers (answering pass) s
          (feeding promptLen step (next :: out).dropLast) ys t ∧
        List.Forall₂ (fun y token => argmax y = .ok token) ys out := by
  induction n generalizing step next s out with
  | zero =>
    constructor
    · intro h
      cases h
      exact ⟨rfl, [], rfl, .nil⟩
    · rintro ⟨hlen, ys, hanswers, hall⟩
      obtain rfl := List.length_eq_zero_iff.1 hlen
      cases hall
      obtain rfl : s = t := hanswers
      rfl
  | succ n ih =>
    rw [List.range'_succ, decodeFrom]
    constructor
    · intro h
      cases hans : (pass s ⟨promptLen + UInt32.ofNat step, false, .tokens [next]⟩).1.bind argmax with
      | error e => simp only [hans] at h; cases h
      | ok token =>
        simp only [hans] at h
        obtain ⟨hout, ht⟩ := Prod.mk.inj h
        obtain ⟨rest, hrest, rfl⟩ := map_eq_ok.1 hout
        obtain ⟨hlen, ys, hanswers, hall⟩ := ih.1 (Prod.ext hrest ht)
        obtain ⟨y, hy, htoken⟩ := exceptBind_eq_ok.1 hans
        refine ⟨congrArg (· + 1) hlen, y :: ys, ⟨?_, hanswers⟩, .cons htoken hall⟩
        exact toOption_eq_some.2 hy
    · rintro ⟨hlen, ys, hanswers, hall⟩
      obtain ⟨token, rest, rfl⟩ := List.exists_cons_of_length_eq_add_one hlen
      obtain _ | ⟨htoken, hall⟩ := hall
      obtain ⟨hy, hanswers⟩ := hanswers
      have hrest := ih.2 ⟨Nat.succ.inj hlen, _, hanswers, hall⟩
      have hans := exceptBind_eq_ok.2 ⟨_, toOption_eq_some.1 hy, htoken⟩
      simp only [hans]
      change decodeFrom pass promptLen (List.range' (step + 1) n) token
        (pass s ⟨promptLen + UInt32.ofNat step, false, .tokens [next]⟩).2 = _ at hrest
      rw [hrest]
      rfl

/-- **A generation that returns**: as many tokens as were asked for, and at least one, each of them
sampled from the answer to a pass, and each pass fed with the token before. -/
theorem decodeAll_eq_ok {prompt out : List UInt32} {maxNew : UInt32} {s t : S} :
    decodeAll pass prompt maxNew s = (.ok out, t) ↔
      out.length = max 1 maxNew.toNat ∧
      ∃ ys, Answers (answering pass) s (passesFor prompt out) ys t ∧
        List.Forall₂ (fun y token => argmax y = .ok token) ys out := by
  unfold decodeAll
  rw [List.range_eq_range']
  constructor
  · intro h
    cases hans : (pass s ⟨0, true, .tokens prompt⟩).1.bind argmax with
    | error e => simp only [hans] at h; cases h
    | ok token =>
      simp only [hans] at h
      obtain ⟨hout, ht⟩ := Prod.mk.inj h
      obtain ⟨rest, hrest, rfl⟩ := map_eq_ok.1 hout
      obtain ⟨hlen, ys, hanswers, hall⟩ := decodeFrom_eq_ok.1 (Prod.ext hrest ht)
      obtain ⟨y, hy, htoken⟩ := exceptBind_eq_ok.1 hans
      refine ⟨?_, y :: ys, ⟨toOption_eq_some.2 hy, hanswers⟩, .cons htoken hall⟩
      rw [List.length_cons, hlen]
      omega
  · rintro ⟨hlen, ys, hanswers, hall⟩
    obtain ⟨token, rest, rfl⟩ : ∃ token rest, out = token :: rest :=
      List.exists_cons_of_ne_nil (fun hnil => by rw [hnil, List.length_nil] at hlen; omega)
    obtain _ | ⟨htoken, hall⟩ := hall
    obtain ⟨hy, hanswers⟩ := hanswers
    have hrest : rest.length = maxNew.toNat - 1 := by
      rw [List.length_cons] at hlen
      omega
    have hloop := decodeFrom_eq_ok.2 ⟨hrest, _, hanswers, hall⟩
    have hans := exceptBind_eq_ok.2 ⟨_, toOption_eq_some.1 hy, htoken⟩
    simp only [hans]
    change decodeFrom pass (UInt32.ofNat prompt.length) (List.range' 0 (maxNew.toNat - 1)) token
      (pass s ⟨0, true, .tokens prompt⟩).2 = _ at hloop
    rw [hloop]
    rfl

/-- **A machine that simulates another one generates the same tokens.** -/
theorem decodeAll_simulates {S' : Type} {pass' : S' → Pass → Except String Payload × S'}
    {R : S → S' → Prop}
    (hstep : ∀ s s' p y, R s s' → (answering pass s p).1 = some y →
      (answering pass' s' p).1 = some y ∧ R (answering pass s p).2 (answering pass' s' p).2)
    {s t : S} {s' : S'} (h : R s s') {prompt out : List UInt32} {maxNew : UInt32}
    (hrun : decodeAll pass prompt maxNew s = (.ok out, t)) :
    ∃ t', decodeAll pass' prompt maxNew s' = (.ok out, t') := by
  obtain ⟨hlen, ys, hanswers, hall⟩ := decodeAll_eq_ok.1 hrun
  obtain ⟨t', hanswers', -⟩ := hanswers.simulates hstep h
  exact ⟨t', decodeAll_eq_ok.2 ⟨hlen, ys, hanswers', hall⟩⟩

end

/-! ### The run -/

variable {C : Candle}

/-- What `run` prints of the shards that are here takes their figures. -/
def reportHere : List (Stage C) → Outcome String Unit
  | [] => .ok ()
  | .here _ shard :: rest =>
    (shard.stats.mapErr C.display).andThen fun _ => reportHere rest
  | .peer _ _ :: rest => reportHere rest

/-- `Pipeline::run`, as the loop calls it. -/
def Pipeline.pass (s : Pipeline C × Peers C) (p : Pass) :
    Except String Payload × Pipeline C × Peers C :=
  let call := s.1.run p.pos p.isPrefill s.2 p.input
  (call.result, call.state)

/-- `RemoteShard::finish`: the follower that is told `Done` drops the session of the stream. -/
def Stage.finish (peers : Peers C) : Stage C → Peers C
  | .here _ _ => peers
  | .peer id remote =>
    match peers id with
    | some node => peers.set id (node.dropSession remote.header.session)
    | none => peers

/-- `Pipeline::finish`. -/
def Pipeline.finish (pipeline : Pipeline C) (peers : Peers C) : Peers C :=
  pipeline.stages.foldl Stage.finish peers

/-- `generate::run`: the tokens it prints.  On an error the peers are as they are when it returns; that
the streams end there, they learn later. -/
def generate [Debug Response] (model : C.File) (prompt : List UInt32) (maxNew : UInt32) (options : Options)
    (peers : Peers C) : Outcome String (List UInt32) × Peers C :=
  match ModelFacts.readFile model with
  | .error _ => (.err "reading the GGUF header", peers)
  | .ok facts =>
    match Pipeline.openWith model facts options peers with
    | (.err e, peers) => (.err e, peers)
    | (.panic m, peers) => (.panic m, peers)
    | (.ok pipeline, peers) =>
      match reportHere pipeline.stages with
      | .err e => (.err e, peers)
      | .panic m => (.panic m, peers)
      | .ok () =>
        match decodeAll Pipeline.pass prompt maxNew (pipeline, peers) with
        | (.error e, _, peers) => (.err e, peers)
        | (.ok out, pipeline, peers) => (.ok out, pipeline.finish peers)

/-! ### The shards of a pipeline -/

/-- The device of a stage, if it is another one. -/
def Stage.on (ends : Links) : Stage C → Option DeviceId
  | .here _ _ => none
  | .peer id _ => ends id

/-- The stage runs on this shard, in the session all masters use. -/
def Stage.RunsOn (stage : Stage C) (peers : Peers C) (shard : CandleShard C) : Prop :=
  match stage with
  | .here _ s => s = shard
  | .peer id remote => remote.header.session = SESSION ∧
    ∃ node, peers id = some node ∧ node.shard = ⟨true, some shard⟩

/-- The call a pass makes to a shard. -/
def Pass.feed (p : Pass) : Feed := ⟨p.isPrefill, SESSION, p.pos, p.input⟩

theorem toOption_mapError {ε ε' α : Type*} (f : ε → ε') (x : Except ε α) :
    (x.mapError f).toOption = x.toOption := by
  cases x <;> rfl

/-- **A stage answers as its shard.** -/
theorem Stage.RunsOn.run {stage : Stage C} {peers : Peers C} {shard : CandleShard C}
    (h : stage.RunsOn peers shard) (p : Pass) (x : Payload) :
    let call := stage.run p.pos p.isPrefill peers x
    let call' := stepIn p.feed shard () x
    call.result.toOption = call'.result.toOption ∧ call.state.1.RunsOn call.state.2 call'.state.1 := by
  obtain ⟨pos, isPrefill, input⟩ := p
  cases stage with
  | here spec s =>
    obtain rfl : s = shard := h
    cases isPrefill <;> exact ⟨toOption_mapError _ _, rfl⟩
  | peer id remote =>
    obtain ⟨hsession, ⟨model, thread⟩, hnode, hshard⟩ := h
    obtain rfl : thread = ⟨true, some shard⟩ := hshard
    simp only [Stage.run, hnode, hsession]
    cases isPrefill with
    | true =>
      refine ⟨?_, hsession, ⟨model, ⟨true, some _⟩⟩, Peers.set_self hnode _, rfl⟩
      rw [Call.lift_result, toOption_mapError]
      exact toOption_mapError _ _
    | false =>
      refine ⟨?_, hsession, ⟨model, ⟨true, some _⟩⟩, Peers.set_self hnode _, rfl⟩
      rw [Call.lift_result, toOption_mapError]
      exact toOption_mapError _ _

theorem Stage.on_run (ends : Links) (stage : Stage C) (pos : UInt32) (isPrefill : Bool)
    (peers : Peers C) (x : Payload) :
    (stage.run pos isPrefill peers x).state.1.on ends = stage.on ends := by
  cases stage with
  | here spec s => rfl
  | peer id remote =>
    unfold Stage.run
    dsimp only
    cases peers id <;> rfl

/-- A pass makes and drops no connection. -/
theorem Stage.ends_run (stage : Stage C) (pos : UInt32) (isPrefill : Bool) (peers : Peers C)
    (x : Payload) : (stage.run pos isPrefill peers x).state.2.ends = peers.ends := by
  cases stage with
  | here spec s => rfl
  | peer id remote =>
    unfold Stage.run
    dsimp only
    cases peers id with
    | none => rfl
    | some node => exact Peers.ends_set peers id _

/-- A stage changes no other device than its own. -/
theorem Stage.run_frame (stage : Stage C) (pos : UInt32) (isPrefill : Bool) (peers : Peers C)
    (x : Payload) {device : DeviceId} (h : stage.on peers.ends ≠ some device) :
    (stage.run pos isPrefill peers x).state.2.node device = peers.node device := by
  cases stage with
  | here spec s => rfl
  | peer id remote =>
    unfold Stage.run
    dsimp only
    cases peers id with
    | none => rfl
    | some node => exact Peers.node_set_of_ne h _

theorem Stage.RunsOn.congr {stage : Stage C} {peers peers' : Peers C} {shard : CandleShard C}
    (h : stage.RunsOn peers shard) (hends : peers'.ends = peers.ends)
    (hsame : ∀ device, stage.on peers.ends = some device →
      peers'.node device = peers.node device) : stage.RunsOn peers' shard := by
  cases stage with
  | here spec s => exact h
  | peer id remote =>
    obtain ⟨hsession, node, hnode, hshard⟩ := h
    obtain ⟨device, hend, hat⟩ := Peers.get_eq_some.1 hnode
    refine ⟨hsession, node, Peers.get_eq_some.2 ⟨device, ?_, ?_⟩, hshard⟩
    · rw [hends, hend]
    · rw [hsame device hend, hat]

/-- The stages run on these shards, no two of them on one other device. -/
structure Pipeline.On (s : Pipeline C × Peers C) (parts : List (CandleShard C)) : Prop where
  apart : (s.1.stages.filterMap (Stage.on s.2.ends)).Nodup
  runs : List.Forall₂ (fun stage shard => Stage.RunsOn stage s.2 shard) s.1.stages parts

theorem Pipeline.ends_pass (s : Pipeline C × Peers C) (p : Pass) :
    (answering Pipeline.pass s p).2.2.ends = s.2.ends :=
  relay_shared (fun stage peers x => stage.ends_run p.pos p.isPrefill peers x) s.1.stages s.2 p.input

/-- **A pass of a pipeline is a call to the chain of its shards.** -/
theorem Pipeline.On.pass {s : Pipeline C × Peers C} {parts : List (CandleShard C)} (h : On s parts)
    (p : Pass) :
    (answering Pipeline.pass s p).1 = (callChain parts p.feed).1 ∧
      On (answering Pipeline.pass s p).2 (callChain parts p.feed).2 ∧
      (answering Pipeline.pass s p).2.1.stages.filterMap (Stage.on s.2.ends) =
        s.1.stages.filterMap (Stage.on s.2.ends) := by
  -- the connections stay what they are while the stages run
  have hstep (stage : Stage C) (peers : Peers C) (shard : CandleShard C) (x : Payload)
      (hstage : stage.RunsOn peers shard ∧ peers.ends = s.2.ends) :=
    (hstage.1.run p x).imp_right fun hruns =>
      And.intro hruns ((stage.ends_run p.pos p.isPrefill peers x).trans hstage.2)
  obtain ⟨hans, hruns, hplaces⟩ := relay_simulates hstep
    (fun stage peers x => stage.on_run s.2.ends p.pos p.isPrefill peers x)
    (fun stage peers x other shard hne ⟨hother, hends⟩ => by
      have hends' := stage.ends_run p.pos p.isPrefill peers x
      refine ⟨hother.congr hends' fun device hon => ?_, hends'.trans hends⟩
      refine stage.run_frame p.pos p.isPrefill peers x ?_
      rw [hends] at hon ⊢
      exact hne device hon)
    h.apart (h.runs.imp fun _ _ hruns => ⟨hruns, rfl⟩) p.input
  refine ⟨hans, ⟨?_, hruns.imp fun _ _ hruns => hruns.1⟩, hplaces⟩
  rw [ends_pass]
  exact hplaces.symm ▸ h.apart

/-! ### Opening -/

variable {model : C.File} {facts : ModelFacts} {hash : String} {options : Options}
  {peers peers' : Peers C} {places : List Placement} {p : Placement} {stage : Stage C}

/-- **A stage that opens runs on a shard that was just loaded**, from the model or a copy of it. -/
theorem openStage_runs [Debug Response] (hhash : C.hashFile model = .ok hash)
    (haddressed : ContentAddressed model peers)
    (h : openStage model hash options peers p = (.ok stage, peers')) :
    ∃ shard, CandleShard.openFile model (options.specFor hash p) = .ok shard ∧
      stage.RunsOn peers' shard ∧ ∀ ends, stage.on ends = p.on ends := by
  unfold openStage at h
  cases hhost : p.host with
  | here =>
    rw [hhost] at h
    obtain ⟨hstage, rfl⟩ := Prod.mk.inj h
    obtain ⟨shard, hopen, hstage⟩ := Outcome.andThen_eq_ok.1 hstage
    cases hstage
    exact ⟨shard, Outcome.mapErr_eq_ok.1 hopen, rfl, fun ends => (Placement.on_here hhost).symm⟩
  | peer id =>
    rw [hhost] at h
    cases hnode : peers id with
    | none => simp only [hnode] at h; cases h
    | some node =>
      simp only [hnode] at h
      obtain ⟨shard, hopen, rfl, rfl⟩ :=
        openRemote_loads hhash haddressed hnode h
      exact ⟨shard, hopen, ⟨rfl, _, Peers.set_self hnode _, rfl⟩,
        fun ends => (Placement.on_peer hhost).symm⟩

/-- **When no two places share a device, every stage runs on the shard that was loaded for it.** -/
theorem openStages_runs [Debug Response] {stages : List (Stage C)}
    (hfacts : ModelFacts.readFile model = .ok facts)
    (hhash : C.hashFile model = .ok hash) (haddressed : ContentAddressed model peers)
    (hdistinct : places.Pairwise fun p q => ¬ SamePeer peers.ends p q)
    (h : openStages model hash options places peers = (.ok stages, peers')) :
    ∃ parts, List.Forall₂ (fun p shard => CandleShard.openFile model (options.specFor hash p) =
        .ok shard) places parts ∧
      List.Forall₂ (fun stage shard => Stage.RunsOn stage peers' shard) stages parts ∧
      (stages.filterMap (Stage.on peers.ends)).Nodup ∧
      stages.filterMap (Stage.on peers.ends) = places.filterMap (Placement.on peers.ends) := by
  induction places generalizing peers stages with
  | nil =>
    cases h
    exact ⟨[], .nil, .nil, .nil, rfl⟩
  | cons p rest ih =>
    obtain ⟨stage, stages, peers₁, hstage, hrest, rfl⟩ := openStages_cons h
    obtain ⟨hp, hdistinct⟩ := List.pairwise_cons.1 hdistinct
    obtain ⟨shard, hopen, hruns, hon⟩ := openStage_runs hhash haddressed hstage
    have haddressed₁ := (openStage_opens hfacts hhash haddressed hstage).contentAddressed haddressed
    have hends := openStage_ends hstage
    rw [← hends] at hdistinct hp ⊢
    obtain ⟨parts, hparts, hstages, hnodup, hplaces⟩ := ih haddressed₁ hdistinct hrest
    -- no later place is on the device of this stage
    have hother : ∀ device, stage.on peers₁.ends = some device → ∀ q ∈ rest,
        q.on peers₁.ends ≠ some device := fun device hdevice q hq heq =>
      hp q hq ⟨device, (hon _).symm.trans hdevice, heq⟩
    obtain ⟨-, hends', hdevices⟩ := openStages_serves hfacts hhash haddressed₁ hrest
    have hkept : stage.RunsOn peers' shard := by
      refine hruns.congr hends' fun device hdevice => ?_
      rcases hdevices device with ⟨q, hlast, -⟩ | ⟨-, hsame⟩
      · exact absurd (lastOn_mem hlast).2 (hother device hdevice q (lastOn_mem hlast).1)
      · exact hsame
    have htail : (stage :: stages).filterMap (Stage.on peers₁.ends) =
        (p :: rest).filterMap (Placement.on peers₁.ends) := by
      rw [List.filterMap_cons, List.filterMap_cons, hon, hplaces]
    refine ⟨shard :: parts, .cons hopen hparts, .cons hkept hstages, ?_, htail⟩
    cases hdevice : stage.on peers₁.ends with
    | none => rwa [List.filterMap_cons_none hdevice]
    | some device =>
      rw [List.filterMap_cons_some hdevice]
      refine List.nodup_cons.2 ⟨fun hin => ?_, hnodup⟩
      rw [hplaces] at hin
      obtain ⟨q, hq, hqon⟩ := List.mem_filterMap.1 hin
      exact hother device hdevice q hq hqon

/-- A pipeline that opens on places of their own runs on shards that were just loaded for a tiling. -/
theorem Pipeline.openWith_on [Debug Response] {pipeline : Pipeline C}
    (hfacts : ModelFacts.readFile model = .ok facts) (haddressed : ContentAddressed model peers)
    (hdistinct : options.places.Pairwise fun p q => ¬ SamePeer peers.ends p q)
    (h : Pipeline.openWith model facts options peers = (.ok pipeline, peers')) :
    Tiles facts.layers 0 options.places ∧ ∃ hash parts, On (pipeline, peers') parts ∧
      List.Forall₂ (fun p shard => CandleShard.openFile model (options.specFor hash p) = .ok shard)
        options.places parts ∧ peers'.ends = peers.ends ∧
      pipeline.stages.filterMap (Stage.on peers.ends) =
        options.places.filterMap (Placement.on peers.ends) := by
  refine ⟨(openWith_serves hfacts haddressed h).1, ?_⟩
  obtain ⟨hash, stages, hhash, -, hopened, rfl⟩ := openWith_opened h
  obtain ⟨parts, hparts, hruns, hnodup, hplaces⟩ :=
    openStages_runs hfacts hhash haddressed hdistinct hopened
  have hends := (openStages_serves hfacts hhash haddressed hopened).2.1
  exact ⟨hash, parts, ⟨by rwa [hends], hruns⟩, hparts, hends, hplaces⟩

/-- **The figures of a shard that was opened for some layers are there**: loading a layer has divided by
the heads already. -/
theorem openFile_stats {spec : ShardSpec} {shard : CandleShard C}
    (h : CandleShard.openFile model spec = .ok shard) (hlt : spec.firstLayer < spec.lastLayer) :
    ∃ stats, shard.stats = .ok stats := by
  obtain ⟨content, blockCount, ends, hopened⟩ := openFile_inv h
  have hheads : ends.headCount ≠ 0 := by
    intro hzero
    have hlt' := UInt32.lt_iff_toNat_lt.1 hlt
    obtain ⟨n, hn⟩ : ∃ n, spec.lastLayer.toNat - spec.firstLayer.toNat = n + 1 :=
      ⟨spec.lastLayer.toNat - spec.firstLayer.toNat - 1, by omega⟩
    have hlayers := hopened.layers
    rw [hn, List.range'_succ, readLayers] at hlayers
    obtain ⟨weights, -, hlayers⟩ := Outcome.andThen_eq_ok.1 hlayers
    rw [if_pos hzero] at hlayers
    cases hlayers
  have hfacts : shard.facts.heads = ends.headCount := by
    obtain ⟨content', hcontent, h⟩ := Outcome.andThen_eq_ok.1 h
    obtain ⟨facts, hread, h⟩ := Outcome.andThen_eq_ok.1 h
    split_ifs at h with harch
    obtain ⟨model, -, h⟩ := Outcome.andThen_eq_ok.1 h
    cases h
    have hsame := Outcome.ofExcept_eq_ok.1 hcontent
    rw [hopened.header] at hsame
    obtain rfl := Except.ok.inj hsame
    obtain ⟨arch, -, hread⟩ := bind_eq_ok.1 (Outcome.ofExcept_eq_ok.1 hread)
    obtain ⟨heads, hheadsAt, hread⟩ := bind_eq_ok.1 hread
    obtain ⟨layers, -, hread⟩ := bind_eq_ok.1 hread
    obtain ⟨hiddenDim, -, hread⟩ := bind_eq_ok.1 hread
    obtain ⟨trainContext, -, hread⟩ := bind_eq_ok.1 hread
    cases hread
    obtain rfl : arch = "llama" := not_not.1 harch
    have hkey : "llama" ++ ".attention.head_count" = "llama.attention.head_count" := by decide
    rw [hkey, u32At_of_mdU32 hopened.reads.headCount] at hheadsAt
    exact (Except.ok.inj hheadsAt).symm
  unfold CandleShard.stats ModelFacts.kvBytes ModelFacts.headDim
  rw [if_neg (hfacts ▸ hheads)]
  exact ⟨_, rfl⟩

/-! ### What is generated -/

theorem reportHere_ok {stages : List (Stage C)} (hstats : ∀ spec shard,
    .here spec shard ∈ stages → ∃ stats, shard.stats = .ok stats) : reportHere stages = .ok () := by
  induction stages with
  | nil => rfl
  | cons stage stages ih =>
    have hrest := ih fun spec shard ht => hstats spec shard (List.mem_cons_of_mem _ ht)
    cases stage with
    | here spec shard =>
      obtain ⟨stats, heq⟩ := hstats spec shard List.mem_cons_self
      rw [reportHere, heq]
      exact hrest
    | peer id remote => exact hrest

/-- The shards on this device were opened for their places. -/
theorem openStages_here [Debug Response] {stages : List (Stage C)}
    (h : openStages model hash options places peers = (.ok stages, peers')) {spec : ShardSpec}
    {shard : CandleShard C} (hmem : .here spec shard ∈ stages) :
    ∃ p ∈ places, CandleShard.openFile model (options.specFor hash p) = .ok shard := by
  induction places generalizing peers stages with
  | nil =>
    cases h
    cases hmem
  | cons p rest ih =>
    obtain ⟨stage, stages, peers₁, hstage, hrest, rfl⟩ := openStages_cons h
    rcases List.mem_cons.1 hmem with rfl | hmem
    · unfold openStage at hstage
      refine ⟨p, List.mem_cons_self, ?_⟩
      cases hhost : p.host with
      | here =>
        rw [hhost] at hstage
        obtain ⟨shard', hopen, hstage⟩ := Outcome.andThen_eq_ok.1 (Prod.mk.inj hstage).1
        cases hstage
        exact Outcome.mapErr_eq_ok.1 hopen
      | peer id =>
        rw [hhost] at hstage
        cases hnode : peers id with
        | none =>
          simp only [hnode] at hstage
          cases hstage
        | some node =>
          simp only [hnode] at hstage
          cases (openRemote_eq_ok.1 hstage).2.1
    · obtain ⟨q, hq, hopen⟩ := ih hrest hmem
      exact ⟨q, List.mem_cons_of_mem _ hq, hopen⟩

/-- A run whose pipeline opened, and whose loop returns. -/
theorem generate_eq [Debug Response] {pipeline : Pipeline C} {prompt out : List UInt32} {maxNew : UInt32}
    {t : Pipeline C × Peers C} (hfacts : ModelFacts.readFile model = .ok facts)
    (hopen : Pipeline.openWith model facts options peers = (.ok pipeline, peers'))
    (hreport : reportHere pipeline.stages = .ok ())
    (hrun : decodeAll Pipeline.pass prompt maxNew (pipeline, peers') = (.ok out, t)) :
    generate model prompt maxNew options peers = (.ok out, t.1.finish t.2) := by
  unfold generate
  rw [hfacts]
  dsimp only
  rw [hopen]
  dsimp only
  rw [hreport]
  dsimp only
  rw [hrun]

/-- **A run whose pipeline opened prints what its loop returns.** -/
theorem generate_eq_ok [Debug Response] {pipeline : Pipeline C} {prompt out : List UInt32}
    {maxNew : UInt32}
    (hfacts : ModelFacts.readFile model = .ok facts)
    (hopen : Pipeline.openWith model facts options peers = (.ok pipeline, peers'))
    (hreport : reportHere pipeline.stages = .ok ()) :
    (generate model prompt maxNew options peers).1 = .ok out ↔
      ∃ t, decodeAll Pipeline.pass prompt maxNew (pipeline, peers') = (.ok out, t) := by
  constructor
  · intro h
    unfold generate at h
    rw [hfacts] at h
    dsimp only at h
    rw [hopen] at h
    dsimp only at h
    rw [hreport] at h
    rcases hrun : decodeAll Pipeline.pass prompt maxNew (pipeline, peers') with ⟨_ | out', t⟩
    · rw [hrun] at h
      cases h
    · rw [hrun] at h
      cases h
      exact ⟨t, rfl⟩
  · rintro ⟨t, hrun⟩
    rw [generate_eq hfacts hopen hreport hrun]

/-- The shards that were loaded for the places of a tiling, when hidden states are sent as `f32`. -/
theorem Tiles.loaded {parts : List (CandleShard C)} {layers a : UInt32} (h : Tiles layers a places)
    (hwire : options.wireDtype = .f32) (hparts : List.Forall₂ (fun p shard =>
      CandleShard.openFile model (options.specFor hash p) = .ok shard) places parts) :
    Loaded model layers a parts := by
  induction hparts generalizing a with
  | nil =>
    obtain rfl : a = layers := h
    exact .nil
  | cons hopen _ ih =>
    obtain ⟨hfirst, hlt, hrest⟩ := h
    exact .cons hopen hwire hfirst hlt (ih hrest)

/-- A pipeline that opened reports its figures. -/
theorem Pipeline.openWith_reports [Debug Response] {pipeline : Pipeline C}
    (h : Pipeline.openWith model facts options peers = (.ok pipeline, peers')) :
    reportHere pipeline.stages = .ok () := by
  obtain ⟨hash, stages, -, htiling, hopened, rfl⟩ := openWith_opened h
  refine reportHere_ok fun spec shard hmem => ?_
  obtain ⟨p, hp, hopen⟩ := openStages_here hopened hmem
  have hrange := (checkTiling_eq_ok.1 htiling).mem hp
  exact openFile_stats hopen (UInt32.lt_iff_toNat_lt.2 hrange.2.1)

/-- The options of a run without `--place`: one shard with every layer, on this device. -/
def Options.whole (options : Options) (layers : UInt32) : Options :=
  { options with places := [⟨0, layers, .here⟩] }

/-- A pipeline over several devices and one with the whole model, after the same passes. -/
def Pipeline.Same (s w : Pipeline C × Peers C) : Prop :=
  ∃ whole parts, On s parts ∧ On w [whole] ∧ Chained whole parts

theorem callChain_singleton {whole : CandleShard C} {f : Feed} {y : Payload}
    (h : (callWhole whole f).1 = some y) : (callChain [whole] f).2 = [(callWhole whole f).2] := by
  have hok : (stepIn f whole () f.input).result = .ok y := toOption_eq_some.1 h
  exact relay_cons_state hok

/-- **Both answer alike**, and go on to do so. -/
theorem Pipeline.Same.pass (laws : C.Boundary) {s w : Pipeline C × Peers C} (h : Same s w) (p : Pass) :
    (answering Pipeline.pass s p).1 = (answering Pipeline.pass w p).1 ∧
      ∀ y, (answering Pipeline.pass s p).1 = some y →
        Same (answering Pipeline.pass s p).2 (answering Pipeline.pass w p).2 := by
  obtain ⟨whole, parts, hs, hw, hchained⟩ := h
  obtain ⟨hans, hnext, -⟩ := hs.pass p
  obtain ⟨hans', hnext', -⟩ := hw.pass p
  have hsame : (callWhole whole p.feed).1 = (answering Pipeline.pass s p).1 :=
    (hchained.answer laws p.feed).trans hans.symm
  refine ⟨hsame.symm.trans ((callWhole_eq whole p.feed).trans hans'.symm), fun y hy => ?_⟩
  have hok := hsame.trans hy
  rw [callChain_singleton hok] at hnext'
  exact ⟨_, _, hnext, hnext', hchained.next laws hok⟩

/-- **A model that is split over devices generates what the whole model generates**: whatever the
placements, the prompt and the number of tokens, if no two places are on one other device, hidden states
are sent as `f32` and both pipelines open, a run with `--place` prints the tokens that a run without it
prints, and none if that one prints none. -/
theorem generate_split [Debug Response] (laws : C.Boundary) {pipeline whole : Pipeline C}
    {peersWhole : Peers C}
    (hfacts : ModelFacts.readFile model = .ok facts) (haddressed : ContentAddressed model peers)
    (hdistinct : options.places.Pairwise fun p q => ¬ SamePeer peers.ends p q)
    (hwire : options.wireDtype = .f32)
    (hopen : Pipeline.openWith model facts options peers = (.ok pipeline, peers'))
    (hwhole : Pipeline.openWith model facts (options.whole facts.layers) peers =
      (.ok whole, peersWhole)) (prompt : List UInt32) (maxNew : UInt32) (out : List UInt32) :
    (generate model prompt maxNew options peers).1 = .ok out ↔
      (generate model prompt maxNew (options.whole facts.layers) peers).1 = .ok out := by
  have halone : (options.whole facts.layers).places.Pairwise fun p q =>
      ¬ SamePeer peers.ends p q := List.pairwise_singleton _ _
  obtain ⟨htiles, hash, parts, hon, hparts, -⟩ :=
    Pipeline.openWith_on hfacts haddressed hdistinct hopen
  obtain ⟨htilesWhole, hash', partsWhole, honWhole, hpartsWhole, -⟩ :=
    Pipeline.openWith_on hfacts haddressed halone hwhole
  obtain _ | @⟨_, shard, _, _, hshard, hnil⟩ := hpartsWhole
  cases hnil
  have hspec := CandleShard.openFile_eq_ok hshard
  have hlayers : shard.facts.layers = facts.layers := by
    have hread := hspec.2.1
    rw [hfacts] at hread
    exact congrArg ModelFacts.layers (Except.ok.inj hread).symm
  have hchained : Chained shard parts := by
    refine Loaded.chained hshard rfl hlayers.symm ?_ ?_
    · rw [hlayers]
      exact htilesWhole.2.1
    · rw [hlayers]
      exact htiles.loaded hwire hparts
  have hsame : Pipeline.Same (pipeline, peers') (whole, peersWhole) :=
    ⟨shard, parts, hon, honWhole, hchained⟩
  rw [generate_eq_ok hfacts hopen (Pipeline.openWith_reports hopen),
    generate_eq_ok hfacts hwhole (Pipeline.openWith_reports hwhole)]
  constructor
  · rintro ⟨t, hrun⟩
    exact decodeAll_simulates (R := Pipeline.Same)
      (fun s w p y h hy => ⟨(h.pass laws p).1 ▸ hy, (h.pass laws p).2 y hy⟩) hsame hrun
  · rintro ⟨t, hrun⟩
    exact decodeAll_simulates (R := fun w s => Pipeline.Same s w)
      (fun w s p y h hy => ⟨(h.pass laws p).1.trans hy, (h.pass laws p).2 y ((h.pass laws p).1.trans hy)⟩)
      hsame hrun

/-- Two devices, the other of which has the model too. -/
def twoDevices : Peers (checked 2) where
  ends id := if id = 1 then some 1 else none
  node _ := ⟨some (), .spawn⟩
  givenUp := ⟨"", .length ""⟩

/-- A model of two layers, one on each. -/
def twoHalves : Options := ⟨8, [⟨0, 1, .here⟩, ⟨1, 2, .peer 1⟩], .f32⟩

/-- A text for every answer. -/
local instance shownAnswer : Debug Response := ⟨reprStr⟩

theorem contentAddressed_twoDevices : ContentAddressed () twoDevices := fun _ _ _ _ _ _ => rfl

theorem twoHalves_apart : twoHalves.places.Pairwise fun p q => ¬ SamePeer twoDevices.ends p q := by
  simp [twoHalves, SamePeer, Placement.on]

theorem readFile_checked : @ModelFacts.readFile (checked 2) () = .ok (blankFacts 2) := rfl

/-- Three tokens, with the layers on one device and on two. -/
theorem generate_split_twoHalves :
    (generate () [3, 1] 3 twoHalves twoDevices).1 = .ok [0, 0, 0] ↔
      (generate () [3, 1] 3 (twoHalves.whole 2) twoDevices).1 = .ok [0, 0, 0] :=
  generate_split (boundary_checked 2) readFile_checked contentAddressed_twoDevices
    twoHalves_apart rfl rfl rfl [3, 1] 3 [0, 0, 0]

/-! ### What is left -/

/-- The stages run on shards of some layers, which work for the session and hold `k` positions, with
the connections as they were and the same devices behind them. -/
structure Pipeline.Depth (laws : C.Positions) (ends : Links) (devices : List DeviceId) (k : ℕ)
    (s : Pipeline C × Peers C) : Prop where
  kept : s.2.ends = ends
  devices : s.1.stages.filterMap (Stage.on ends) = devices
  runs : ∃ parts, On s parts ∧ parts ≠ [] ∧
    ∀ shard ∈ parts, shard.Level laws k ∧ shard.active = some SESSION

theorem callChain_length {parts : List (CandleShard C)} {f : Feed} {y : Payload}
    (h : (callChain parts f).1 = some y) : (callChain parts f).2.length = parts.length := by
  have hok : (relay (stepIn f) parts () f.input).result = .ok y := toOption_eq_some.1 h
  show (relay (stepIn f) parts () f.input).state.1.length = _
  generalize f.input = x at hok
  clear h
  induction parts generalizing x with
  | nil => rfl
  | cons s rest ih =>
    obtain ⟨z, hz, hrest⟩ := relay_cons_ok.1 hok
    rw [relay_cons_state hz, List.length_cons, List.length_cons]
    exact congrArg (· + 1) (ih z hrest)

/-- **A pass that returns makes the caches deeper by its positions.** -/
theorem Pipeline.Depth.pass (bounds : C.Boundary) {laws : C.Positions} {ends : Links}
    {devices : List DeviceId} {k : ℕ} {s : Pipeline C × Peers C} {parts : List (CandleShard C)}
    (hends : s.2.ends = ends) (hdevices : s.1.stages.filterMap (Stage.on ends) = devices)
    (hon : On s parts) (hne : parts ≠ []) (hlevel : ∀ shard ∈ parts, shard.Level laws k) {p : Pass}
    {y : Payload} (hpos : p.isPrefill = true → p.pos = 0)
    (hy : (answering Pipeline.pass s p).1 = some y) :
    Depth laws ends devices (grown p.pos.toNat p.input.positions k) (answering Pipeline.pass s p).2 ∧
      p.pos.toNat + p.input.positions ≤ MAX_SEQ_LEN := by
  subst hends
  obtain ⟨hans, hnext, hkept⟩ := hon.pass p
  have hchain : (callChain parts p.feed).1 = some y := hans.symm.trans hy
  obtain ⟨hlevels, hbound⟩ := CandleShard.Level.chain (f := p.feed) bounds hlevel hpos hchain
  refine ⟨⟨ends_pass s p, hkept.trans hdevices, _, hnext, fun hnil => ?_, hlevels⟩, hbound hne⟩
  have hlen := callChain_length hchain
  rw [hnil, List.length_nil] at hlen
  exact hne (List.length_eq_zero_iff.1 hlen.symm)

/-- **The loop keeps the caches as deep as the position it has come to.** -/
theorem Pipeline.Depth.feeding (bounds : C.Boundary) {laws : C.Positions} {ends : Links}
    {devices : List DeviceId} {n step : ℕ} {s t : Pipeline C × Peers C} {tokens : List UInt32}
    {ys : List Payload} (h : Depth laws ends devices (n + step) s) (hle : n + step ≤ MAX_SEQ_LEN)
    (hanswers : Answers (answering Pipeline.pass) s (feeding (UInt32.ofNat n) step tokens) ys t) :
    Depth laws ends devices (n + step + tokens.length) t ∧
      n + step + tokens.length ≤ MAX_SEQ_LEN := by
  induction tokens generalizing step s ys with
  | nil =>
    cases ys with
    | nil =>
      obtain rfl : s = t := hanswers
      exact ⟨h, hle⟩
    | cons y ys => exact hanswers.elim
  | cons token tokens ih =>
    cases ys with
    | nil => exact hanswers.elim
    | cons y ys =>
      obtain ⟨hy, hrest⟩ := hanswers
      obtain ⟨hends, hdevices, parts, hon, hne, hlevel⟩ := h
      have hmax : MAX_SEQ_LEN = 4096 := rfl
      have hsize : UInt32.size = 4294967296 := rfl
      have hpos : (UInt32.ofNat n + UInt32.ofNat step).toNat = n + step := by
        rw [UInt32.toNat_add, UInt32.toNat_ofNat_of_lt' (by omega),
          UInt32.toNat_ofNat_of_lt' (by omega), Nat.mod_eq_of_lt (by omega)]
      obtain ⟨hnext, hbound⟩ := pass bounds hends hdevices hon hne
        (fun shard hs => (hlevel shard hs).1) (fun h => (by cases h)) hy
      have hgrown : grown (UInt32.ofNat n + UInt32.ofNat step).toNat 1 (n + step) =
          n + (step + 1) := by
        unfold grown
        rw [hpos]
        split_ifs <;> omega
      dsimp only [Payload.positions, List.length_singleton] at hnext hbound
      rw [hgrown] at hnext
      rw [hpos] at hbound
      have hlater := ih hnext hbound hrest
      rw [List.length_cons]
      exact ⟨by rw [show n + step + (tokens.length + 1) = n + (step + 1) + tokens.length by omega]
                exact hlater.1, by omega⟩

@[simp] theorem Stage.ends_finish (stage : Stage C) (peers : Peers C) :
    (stage.finish peers).ends = peers.ends := by
  cases stage with
  | here spec s => rfl
  | peer id remote =>
    unfold finish
    dsimp only
    cases peers id with
    | none => rfl
    | some node => exact Peers.ends_set peers id _

/-- A stage that ends changes no other device than its own. -/
theorem Stage.finish_frame {stage : Stage C} {peers : Peers C} {device : DeviceId}
    (h : stage.on peers.ends ≠ some device) :
    (stage.finish peers).node device = peers.node device := by
  cases stage with
  | here spec s => rfl
  | peer id remote =>
    unfold finish
    dsimp only
    cases peers id with
    | none => rfl
    | some node => exact Peers.node_set_of_ne h _

theorem ends_finish (stages : List (Stage C)) (peers : Peers C) :
    (stages.foldl Stage.finish peers).ends = peers.ends := by
  induction stages generalizing peers with
  | nil => rfl
  | cons stage rest ih => rw [List.foldl_cons, ih, Stage.ends_finish]

theorem finish_frame {stages : List (Stage C)} {device : DeviceId} {peers : Peers C}
    (h : device ∉ stages.filterMap (Stage.on peers.ends)) :
    (stages.foldl Stage.finish peers).node device = peers.node device := by
  induction stages generalizing peers with
  | nil => rfl
  | cons stage rest ih =>
    rw [List.mem_filterMap, List.exists_mem_cons_iff, not_or] at h
    rw [List.foldl_cons, ih ?_, Stage.finish_frame h.1]
    rw [Stage.ends_finish]
    exact fun hin => h.2 (List.mem_filterMap.1 hin)

/-- Every other device of the pipeline drops the session of its stream. -/
theorem finish_node {stages : List (Stage C)} {peers : Peers C} {id device : DeviceId}
    {remote : RemoteShard} (hapart : (stages.filterMap (Stage.on peers.ends)).Nodup)
    (hmem : .peer id remote ∈ stages) (hend : peers.ends id = some device) :
    (stages.foldl Stage.finish peers).node device =
      (peers.node device).dropSession remote.header.session := by
  induction stages generalizing peers with
  | nil => cases hmem
  | cons stage rest ih =>
    rw [List.foldl_cons]
    rcases List.mem_cons.1 hmem with rfl | hmem
    · have hon : (Stage.peer id remote : Stage C).on peers.ends = some device := hend
      rw [List.filterMap_cons_some hon, List.nodup_cons] at hapart
      have hnode : peers id = some (peers.node device) := Peers.get_eq_some.2 ⟨device, hend, rfl⟩
      rw [finish_frame (by rw [Stage.ends_finish]; exact hapart.1), Stage.finish, hnode]
      dsimp only
      rw [Peers.node_set hend, Function.update_self]
    · have hin : device ∈ rest.filterMap (Stage.on peers.ends) :=
        List.mem_filterMap.2 ⟨_, hmem, hend⟩
      have hne : stage.on peers.ends ≠ some device := by
        intro hon
        rw [List.filterMap_cons_some hon, List.nodup_cons] at hapart
        exact hapart.1 hin
      rw [ih ?_ hmem (by rw [Stage.ends_finish, hend]), Stage.finish_frame hne]
      rw [Stage.ends_finish]
      exact hapart.sublist ((List.sublist_cons_self stage rest).filterMap _)

/-- The device holds a shard with no session and empty caches. -/
def Idle (node : Node C) : Prop :=
  ∃ shard, node.shard = ⟨true, some shard⟩ ∧ shard.active = none ∧
    ∀ layer ∈ shard.model.layers, layer.kvCache = none

/-- **After the end, the other devices of the pipeline are idle.** -/
theorem Pipeline.On.finish {s : Pipeline C × Peers C} {parts : List (CandleShard C)} (h : On s parts)
    (hactive : ∀ shard ∈ parts, shard.active = some SESSION) {device : DeviceId}
    (hdevice : device ∈ s.1.stages.filterMap (Stage.on s.2.ends)) :
    Idle ((s.1.finish s.2).node device) := by
  obtain ⟨stage, hstage, hon⟩ := List.mem_filterMap.1 hdevice
  obtain ⟨shard, hshard, hruns⟩ := forall₂_exists h.runs hstage
  cases stage with
  | here spec s => cases hon
  | peer id remote =>
    obtain ⟨hsession, node, hnode, hheld⟩ := hruns
    obtain ⟨device', hend, rfl⟩ := Peers.get_eq_some.1 hnode
    obtain rfl : device' = device := Option.some.inj (hend.symm.trans hon)
    have hdrop : shard.dropSession SESSION = shard.cleared none := if_pos (hactive shard hshard)
    refine ⟨shard.cleared none, ?_, rfl, fun layer hlayer => ?_⟩
    · rw [Pipeline.finish, finish_node h.apart hstage hend]
      show (s.2.node device').shard.drop remote.header.session = _
      rw [hheld, hsession, ← hdrop]
      rfl
    · obtain ⟨before, -, rfl⟩ := List.mem_map.1 hlayer
      rfl

/-- **What a run that returns has done.** -/
theorem generate_iff [Debug Response] {prompt out : List UInt32} {maxNew : UInt32} :
    generate model prompt maxNew options peers = (.ok out, peers') ↔
      ∃ facts pipeline opened t, ModelFacts.readFile model = .ok facts ∧
        Pipeline.openWith model facts options peers = (.ok pipeline, opened) ∧
        reportHere pipeline.stages = .ok () ∧
        decodeAll Pipeline.pass prompt maxNew (pipeline, opened) = (.ok out, t) ∧
        peers' = t.1.finish t.2 := by
  constructor
  · intro h
    unfold generate at h
    cases hfacts : ModelFacts.readFile model with
    | error e => rw [hfacts] at h; cases h
    | ok facts =>
      rw [hfacts] at h
      dsimp only at h
      rcases hopen : Pipeline.openWith model facts options peers with ⟨pipeline | e | m, opened⟩
      · rw [hopen] at h
        dsimp only at h
        cases hreport : reportHere pipeline.stages with
        | err e => rw [hreport] at h; cases h
        | panic m => rw [hreport] at h; cases h
        | ok u =>
          rw [hreport] at h
          dsimp only at h
          rcases hrun : decodeAll Pipeline.pass prompt maxNew (pipeline, opened) with ⟨_ | out', t⟩
          · rw [hrun] at h
            cases h
          · rw [hrun] at h
            cases h
            exact ⟨facts, pipeline, opened, t, rfl, hopen, hreport, hrun, rfl⟩
      · rw [hopen] at h
        cases h
      · rw [hopen] at h
        cases h
  · rintro ⟨facts, pipeline, opened, t, hfacts, hopen, hreport, hrun, rfl⟩
    exact generate_eq hfacts hopen hreport hrun

/-- **A generation that returns has every cache at its last position but one.** -/
theorem Pipeline.On.decodeAll (bounds : C.Boundary) (laws : C.Positions) {s t : Pipeline C × Peers C}
    {parts : List (CandleShard C)} (hon : On s parts) (hne : parts ≠ [])
    (hlevel : ∀ shard ∈ parts, shard.Level laws 0) {prompt out : List UInt32} {maxNew : UInt32}
    (hrun : Daemon.decodeAll Pipeline.pass prompt maxNew s = (.ok out, t)) :
    Depth laws s.2.ends (s.1.stages.filterMap (Stage.on s.2.ends))
        (prompt.length + (out.length - 1)) t ∧
      prompt.length + (out.length - 1) ≤ MAX_SEQ_LEN := by
  obtain ⟨-, ys, hanswers, -⟩ := decodeAll_eq_ok.1 hrun
  cases ys with
  | nil => exact hanswers.elim
  | cons y ys =>
    obtain ⟨hy, hrest⟩ := hanswers
    obtain ⟨hdepth, hbound⟩ := Depth.pass bounds rfl rfl hon hne hlevel (fun _ => rfl) hy
    have hgrown : grown (0 : UInt32).toNat prompt.length 0 = prompt.length + 0 := by
      unfold grown
      simp
    dsimp only [Payload.positions] at hdepth hbound
    rw [hgrown] at hdepth
    rw [UInt32.toNat_zero, Nat.zero_add] at hbound
    have hlast := hdepth.feeding bounds hbound hrest
    rwa [Nat.add_zero, List.length_dropLast] at hlast

/-- **The sampled tokens are what the chain of shards makes of them**: a run prints these tokens just if
there are as many as were asked for, and each one is the place of the last of the greatest logits that
the pipeline answers when it is fed with the tokens before it. -/
theorem generate_greedy [Debug Response] {pipeline : Pipeline C}
    (hfacts : ModelFacts.readFile model = .ok facts)
    (hopen : Pipeline.openWith model facts options peers = (.ok pipeline, peers'))
    (prompt out : List UInt32) (maxNew : UInt32) :
    (generate model prompt maxNew options peers).1 = .ok out ↔
      out.length = max 1 maxNew.toNat ∧
      ∃ ys t, Answers (answering Pipeline.pass) (pipeline, peers') (passesFor prompt out) ys t ∧
        List.Forall₂ (fun y token => ∃ values i, y = .logits values ∧ Greatest values i ∧
          token = UInt32.ofNat i) ys out := by
  rw [generate_eq_ok hfacts hopen (Pipeline.openWith_reports hopen)]
  constructor
  · rintro ⟨t, hrun⟩
    obtain ⟨hlen, ys, hanswers, hall⟩ := decodeAll_eq_ok.1 hrun
    exact ⟨hlen, ys, t, hanswers, hall.imp fun _ _ => argmax_eq_ok.1⟩
  · rintro ⟨hlen, ys, t, hanswers, hall⟩
    exact ⟨t, decodeAll_eq_ok.2 ⟨hlen, ys, hanswers, hall.imp fun _ _ => argmax_eq_ok.2⟩⟩

/-- Two devices answer two passes, and the tokens are the greatest of the logits. -/
theorem generate_greedy_twoHalves :
    ∃ pipeline opened,
      Pipeline.openWith () (blankFacts 2) twoHalves twoDevices = (.ok pipeline, opened) ∧
      ∃ ys t, Answers (answering Pipeline.pass) (pipeline, opened) (passesFor [3, 1] [0, 0]) ys t ∧
        List.Forall₂ (fun y token => ∃ values i, y = .logits values ∧ Greatest values i ∧
          token = UInt32.ofNat i) ys [0, 0] :=
  have hrun : (generate () [3, 1] 2 twoHalves twoDevices).1 = .ok [0, 0] := rfl
  ⟨_, _, rfl, ((generate_greedy readFile_checked rfl [3, 1] [0, 0] 2).1 hrun).2⟩

/-- **A generation keeps all caches in step, and leaves none behind**: when a run returns, on devices that
were given one range each, the pipeline has made its passes with every cache of every shard as deep as
the position it had come to, which was within the tables of the rotary embedding; and then every
device it was given has dropped the session. -/
theorem generate_aligned [Debug Response] (bounds : C.Boundary) (laws : C.Positions)
    {prompt out : List UInt32} {maxNew : UInt32} (haddressed : ContentAddressed model peers)
    (hdistinct : options.places.Pairwise fun p q => ¬ SamePeer peers.ends p q)
    (h : generate model prompt maxNew options peers = (.ok out, peers')) :
    prompt.length + (out.length - 1) ≤ MAX_SEQ_LEN ∧
      (∃ facts pipeline opened t, ModelFacts.readFile model = .ok facts ∧
        Pipeline.openWith model facts options peers = (.ok pipeline, opened) ∧
        decodeAll Pipeline.pass prompt maxNew (pipeline, opened) = (.ok out, t) ∧
        Pipeline.Depth laws peers.ends (pipeline.stages.filterMap (Stage.on peers.ends))
          (prompt.length + (out.length - 1)) t ∧
        peers' = t.1.finish t.2) ∧
      ∀ p ∈ options.places, ∀ id, p.host = .peer id → ∃ node, peers' id = some node ∧ Idle node := by
  obtain ⟨facts, pipeline, opened, t, hfacts, hopen, -, hrun, rfl⟩ := generate_iff.1 h
  obtain ⟨htiles, hash, parts, hon, hparts, hends, hdevices⟩ :=
    Pipeline.openWith_on hfacts haddressed hdistinct hopen
  have hlevel : ∀ shard ∈ parts, shard.Level laws 0 := by
    intro shard hshard
    obtain ⟨p, hp, hloaded⟩ := forall₂_exists hparts.flip hshard
    exact CandleShard.openFile_level laws hloaded (UInt32.lt_iff_toNat_lt.2 (htiles.mem hp).2.1)
  have hne : parts ≠ [] := by
    -- without a shard the tokens come back, which the sampler refuses
    rintro rfl
    obtain ⟨-, ys, hanswers, hall⟩ := decodeAll_eq_ok.1 hrun
    cases ys with
    | nil => exact hanswers.elim
    | cons y ys =>
      obtain _ | ⟨htoken, -⟩ := hall
      obtain ⟨values, i, rfl, -⟩ := argmax_eq_ok.1 htoken
      have hecho := (hon.pass _).1.symm.trans hanswers.1
      cases hecho
  obtain ⟨hdepth, hbound⟩ := hon.decodeAll bounds laws hne hlevel hrun
  dsimp only at hdepth
  rw [hends] at hdepth
  refine ⟨hbound, ⟨facts, pipeline, opened, t, hfacts, hopen, hrun, hdepth, rfl⟩, ?_⟩
  intro p hp id hhost
  obtain ⟨htends, htdevices, last, honLast, -, hlast⟩ := hdepth
  -- the pipeline did not open without a connection for the id
  obtain ⟨device, hend⟩ := Option.ne_none_iff_exists'.1 fun hnone =>
    Pipeline.openWith_connected hopen ⟨p, hp, id, hhost, hnone⟩
  have hmem : device ∈ t.1.stages.filterMap (Stage.on t.2.ends) := by
    rw [htends, htdevices, hdevices]
    exact List.mem_filterMap.2 ⟨p, hp, (Placement.on_peer hhost).trans hend⟩
  refine ⟨_, Peers.get_eq_some.2 ⟨device, ?_, rfl⟩, honLast.finish (fun shard hs => (hlast shard hs).2) hmem⟩
  rw [Pipeline.finish, ends_finish, htends, hend]

/-- After three tokens on two devices, the other one is idle. -/
theorem generate_aligned_twoHalves :
    ∃ node, (generate () [3, 1] 3 twoHalves twoDevices).2 1 = some node ∧ Idle node :=
  have hrun : generate () [3, 1] 3 twoHalves twoDevices =
      (.ok [0, 0, 0], (generate () [3, 1] 3 twoHalves twoDevices).2) := Prod.ext rfl rfl
  (generate_aligned (boundary_checked 2) (checkedPositions 2) contentAddressed_twoDevices twoHalves_apart
    hrun).2.2 ⟨1, 2, .peer 1⟩ (by simp [twoHalves]) 1 rfl

end Daemon

end Latticed
