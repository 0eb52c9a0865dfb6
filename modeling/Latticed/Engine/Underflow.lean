import Latticed.Engine.Caches
import Latticed.LTS.Basic

/-!
# Steps without positions

The shard that owns the head selects the last of the positions its layers return: `seq_len - 1`.  Nothing
between the wire and that subtraction refuses a step without positions.  A debug build checks the
subtraction and panics, and a release build goes on with `2 ^ 64 - 1`.

* `CandleShard.runChecked_eq` : a step with positions is run as in a release build.
* `CandleShard.feedChecked_panics_iff` : the calls that panic.
* `calls_safe_iff` : the runs in which none does.
-/

namespace Latticed

namespace Engine

open Rust

variable {C : Candle}

/-! ### A build that checks for overflow -/

/-- The head in two parts: the final norm, and the logits of one position of what it yields. -/
structure Candle.HeadParts (C : Candle) where
  norm : C.Head → C.Tensor → Except String C.Tensor
  logits : C.Head → C.Tensor → ℕ → Except String C.Tensor
  output_eq : ∀ head x i, C.output head x i = (norm head x).bind fun y => logits head y i

/-- `seq_len - 1`. -/
def lastPositionChecked (seqLen : ℕ) : Outcome String ℕ :=
  if seqLen = 0 then .panic "attempt to subtract with overflow" else .ok (seqLen - 1)

/-- The end of `ShardModel::forward`.  The norm comes before the subtraction. -/
def ShardModel.finishChecked (parts : C.HeadParts) (m : ShardModel C) (seqLen : ℕ) (x : C.Tensor) :
    Outcome String C.Tensor :=
  match m.head with
  | none => .ok x
  | some head =>
    (Outcome.ofExcept (parts.norm head x)).andThen fun y =>
      (lastPositionChecked seqLen).andThen fun i => Outcome.ofExcept (parts.logits head y i)

/-- `ShardModel::forward`. -/
def ShardModel.forwardChecked (parts : C.HeadParts) (m : ShardModel C) (x : C.Tensor)
    (indexPos : ℕ) : Outcome String C.Tensor :=
  (Outcome.ofExcept (m.enter x)).andThen fun (layerIn, seqLen) =>
    (Outcome.ofExcept (m.maskFor seqLen indexPos).1).andThen fun mask =>
      (Outcome.ofExcept (relay (Layer.forward mask indexPos) m.layers () layerIn).result).andThen
        (m.finishChecked parts seqLen)

namespace CandleShard

/-- `run`. -/
def runChecked (parts : C.HeadParts) (s : CandleShard C) (payload : Payload) (pos : UInt32) :
    Outcome EngineError Payload :=
  (Outcome.ofExcept (s.input payload)).andThen fun x =>
    ((s.model.forwardChecked parts x pos.toNat).mapErr .engine).andThen fun out =>
      Outcome.ofExcept (s.output out)

/-- `prefill` and `decode`. -/
def feedChecked (parts : C.HeadParts) (s : CandleShard C) (f : Feed) : Outcome EngineError Payload :=
  if f.isPrefill then
    if s.active ≠ some f.session ∨ f.pos = 0 then
      (s.cleared (some f.session)).runChecked parts f.input f.pos
    else s.runChecked parts f.input f.pos
  else if s.active ≠ some f.session then .err (.unknownSession f.session)
  else s.runChecked parts f.input f.pos

theorem feedChecked_eq {parts : C.HeadParts} {s : CandleShard C} {f : Feed} (h : s.Admits f) :
    s.feedChecked parts f = (s.ready f).runChecked parts f.input f.pos := by
  unfold feedChecked
  split_ifs with hkind hempties hactive
  · rw [ready_of_prefill hkind, if_pos hempties]
  · rw [ready_of_prefill hkind, if_neg hempties]
  · exact absurd (h.resolve_left hkind) hactive
  · rw [ready_of_decode hkind]

theorem feedChecked_refused {parts : C.HeadParts} {s : CandleShard C} {f : Feed}
    (h : ¬ s.Admits f) : s.feedChecked parts f = .err (.unknownSession f.session) := by
  obtain ⟨hkind, hactive⟩ := not_or.1 h
  rw [feedChecked, if_neg hkind, if_pos hactive]

/-! ### What a run panics on -/

/-- The shard owns a head, and the operations of a run up to its norm succeed. -/
structure Normed (parts : C.HeadParts) (s : CandleShard C) (payload : Payload) (pos : UInt32) where
  x : C.Tensor
  layerIn : C.Tensor
  seqLen : ℕ
  mask : Option C.Mask
  layerOut : C.Tensor
  head : C.Head
  y : C.Tensor
  input : s.input payload = .ok x
  enter : s.model.enter x = .ok (layerIn, seqLen)
  masked : maskOf C seqLen pos.toNat = .ok mask
  layers : (relay (Layer.forward mask pos.toNat) s.model.layers () layerIn).result = .ok layerOut
  owned : s.model.head = some head
  norm : parts.norm head layerOut = .ok y

variable {parts : C.HeadParts} {s : CandleShard C} {payload : Payload} {pos : UInt32} {f : Feed}

theorem finishChecked_panics {m : ShardModel C} {seqLen : ℕ} {x : C.Tensor} {why : String}
    (h : m.finishChecked parts seqLen x = .panic why) :
    seqLen = 0 ∧ ∃ head y, m.head = some head ∧ parts.norm head x = .ok y := by
  unfold ShardModel.finishChecked at h
  cases hhead : m.head with
  | none =>
    rw [hhead] at h
    cases h
  | some head =>
    rw [hhead] at h
    obtain ⟨y, hnorm, h⟩ := (Outcome.andThen_eq_panic.1 h).resolve_left Outcome.ofExcept_ne_panic
    refine ⟨?_, head, y, rfl, Outcome.ofExcept_eq_ok.1 hnorm⟩
    by_contra hne
    rw [lastPositionChecked, if_neg hne] at h
    exact Outcome.ofExcept_ne_panic h

/-- A run that panics has come to the subtraction, with no positions. -/
theorem normed_of_panic {why : String} (h : s.runChecked parts payload pos = .panic why) :
    ∃ r : s.Normed parts payload pos, r.seqLen = 0 := by
  obtain ⟨x, hinput, h⟩ := (Outcome.andThen_eq_panic.1 h).resolve_left Outcome.ofExcept_ne_panic
  have hforward : s.model.forwardChecked parts x pos.toNat = .panic why := by
    rcases Outcome.andThen_eq_panic.1 h with h | ⟨out, -, h⟩
    · exact Outcome.mapErr_eq_panic.1 h
    · exact absurd h Outcome.ofExcept_ne_panic
  obtain ⟨⟨layerIn, seqLen⟩, henter, h⟩ :=
    (Outcome.andThen_eq_panic.1 hforward).resolve_left Outcome.ofExcept_ne_panic
  obtain ⟨mask, hmask, h⟩ := (Outcome.andThen_eq_panic.1 h).resolve_left Outcome.ofExcept_ne_panic
  obtain ⟨layerOut, hlayers, h⟩ :=
    (Outcome.andThen_eq_panic.1 h).resolve_left Outcome.ofExcept_ne_panic
  obtain ⟨hzero, head, y, hhead, hnorm⟩ := finishChecked_panics h
  refine ⟨⟨x, layerIn, seqLen, mask, layerOut, head, y, Outcome.ofExcept_eq_ok.1 hinput,
    Outcome.ofExcept_eq_ok.1 henter, ?_, Outcome.ofExcept_eq_ok.1 hlayers, hhead, hnorm⟩, hzero⟩
  rw [← s.model.maskFor_fst]
  exact Outcome.ofExcept_eq_ok.1 hmask

/-- A run that comes to the subtraction. -/
theorem Normed.runChecked (r : s.Normed parts payload pos) : s.runChecked parts payload pos =
    ((((lastPositionChecked r.seqLen).andThen fun i =>
      Outcome.ofExcept (parts.logits r.head r.y i)).mapErr .engine).andThen fun out =>
        Outcome.ofExcept (s.output out)) := by
  have hmask : (s.model.maskFor r.seqLen pos.toNat).1 = .ok r.mask :=
    (s.model.maskFor_fst _ _).trans r.masked
  unfold CandleShard.runChecked ShardModel.forwardChecked
  rw [r.input, Outcome.ofExcept_andThen, r.enter, Outcome.ofExcept_andThen]
  dsimp only
  rw [hmask, Outcome.ofExcept_andThen, r.layers, Outcome.ofExcept_andThen,
    ShardModel.finishChecked, r.owned]
  dsimp only
  rw [r.norm, Outcome.ofExcept_andThen]

/-- **A run panics** iff it comes to the subtraction with no positions. -/
theorem runChecked_panics_iff (laws : C.Shapes) (hembeds : s.Embeds) :
    (∃ why, s.runChecked parts payload pos = .panic why) ↔
      payload.positions = 0 ∧ Nonempty (s.Normed parts payload pos) := by
  constructor
  · rintro ⟨why, h⟩
    obtain ⟨r, hzero⟩ := normed_of_panic h
    exact ⟨(enter_positions laws hembeds r.input r.enter).1.symm.trans hzero, ⟨r⟩⟩
  · rintro ⟨hempty, ⟨r⟩⟩
    have hzero : r.seqLen = 0 := (enter_positions laws hembeds r.input r.enter).1.trans hempty
    refine ⟨"attempt to subtract with overflow", ?_⟩
    rw [r.runChecked, lastPositionChecked, if_pos hzero]
    rfl

/-! ### Runs with positions -/

theorem lastPosition_eq {seqLen : ℕ} (hne : seqLen ≠ 0) (hlt : seqLen < 2 ^ 64) :
    lastPosition seqLen = seqLen - 1 := by
  have hnat : (UInt64.ofNat seqLen).toNat = seqLen := UInt64.toNat_ofNat_of_lt' hlt
  have hone : 1 ≤ UInt64.ofNat seqLen := by
    rw [UInt64.le_iff_toNat_le, hnat]
    exact Nat.one_le_iff_ne_zero.2 hne
  rw [lastPosition, UInt64.toNat_sub_of_le _ _ hone, hnat]
  rfl

theorem finishChecked_eq {m : ShardModel C} {seqLen : ℕ} (hne : seqLen ≠ 0) (hlt : seqLen < 2 ^ 64)
    (x : C.Tensor) : m.finishChecked parts seqLen x = Outcome.ofExcept (m.finish seqLen x) := by
  unfold ShardModel.finishChecked ShardModel.finish
  cases m.head with
  | none => rfl
  | some head =>
    dsimp only
    rw [parts.output_eq, Outcome.ofExcept_bind, lastPositionChecked, if_neg hne,
      lastPosition_eq hne hlt]
    rfl

theorem forwardChecked_eq {m : ShardModel C} {x : C.Tensor}
    (h : ∀ layerIn seqLen, m.enter x = .ok (layerIn, seqLen) → seqLen ≠ 0 ∧ seqLen < 2 ^ 64)
    (indexPos : ℕ) :
    m.forwardChecked parts x indexPos = Outcome.ofExcept (m.forward x indexPos).result := by
  unfold ShardModel.forwardChecked ShardModel.forward
  cases henter : m.enter x with
  | error e => rfl
  | ok start =>
    obtain ⟨layerIn, seqLen⟩ := start
    obtain ⟨hne, hlt⟩ := h layerIn seqLen henter
    rw [Outcome.ofExcept_andThen]
    dsimp only
    rcases m.maskFor seqLen indexPos with ⟨_ | mask, masks⟩
    · rfl
    · rw [Outcome.ofExcept_andThen]
      dsimp only
      rw [Call.lift_result, Outcome.ofExcept_bind]
      congr 1
      funext out
      exact finishChecked_eq hne hlt out

/-- **A step with positions runs as in a release build.** -/
theorem runChecked_eq (laws : C.Shapes) (hembeds : s.Embeds) (hne : payload.positions ≠ 0)
    (hlt : payload.positions < 2 ^ 64) :
    s.runChecked parts payload pos = Outcome.ofExcept (s.run payload pos).result := by
  unfold runChecked run
  cases hinput : s.input payload with
  | error e => rfl
  | ok x =>
    have hpositions : ∀ layerIn seqLen, s.model.enter x = .ok (layerIn, seqLen) →
        seqLen ≠ 0 ∧ seqLen < 2 ^ 64 := by
      intro layerIn seqLen henter
      rw [(enter_positions laws hembeds hinput henter).1]
      exact ⟨hne, hlt⟩
    rw [Outcome.ofExcept_andThen, forwardChecked_eq hpositions]
    dsimp only
    rw [Call.lift_result, Outcome.ofExcept_bind, Outcome.ofExcept_mapError]

/-! ### Calls -/

/-- The shard of the last layer has the head. -/
def Heads (s : CandleShard C) : Prop := s.model.head.isSome = s.ownsHead

theorem openFile_heads {file : C.File} {spec : ShardSpec} (h : openFile file spec = .ok s) :
    s.Heads := by
  obtain ⟨content, blockCount, ends, hopened⟩ := openFile_inv h
  unfold Heads ownsHead
  rw [hopened.head, hopened.spec, hopened.count]
  by_cases hlast : spec.lastLayer = blockCount
  · obtain ⟨norm, output, hd, -, -, -, hsome⟩ := hopened.reads.head (by rw [hlast])
    rw [hsome, decide_eq_true hlast]
    rfl
  · rw [hopened.reads.noHead fun heq => hlast (UInt32.toNat_inj.1 heq), decide_eq_false hlast]
    rfl

theorem SameWeights.heads {s t : CandleShard C} (h : s.SameWeights t) (hs : s.Heads) : t.Heads := by
  obtain ⟨hspec, hfacts, -, hhead⟩ := h.ends
  unfold Heads ownsHead at hs ⊢
  rw [hhead, hspec, hfacts]
  exact hs

/-- What is known of a shard that was opened, whatever was called since. -/
structure Whole (s : CandleShard C) : Prop where
  embeds : s.Embeds
  heads : s.Heads

theorem openFile_whole {file : C.File} {spec : ShardSpec} (h : openFile file spec = .ok s) :
    s.Whole :=
  ⟨openFile_embeds h, openFile_heads h⟩

theorem SameWeights.whole {s t : CandleShard C} (h : s.SameWeights t) (hs : s.Whole) : t.Whole :=
  ⟨h.embeds hs.embeds, h.heads hs.heads⟩

/-- A call without positions, of the kind the shard takes and of its session, on the shard that owns the
head; and every operation on the way to the last position succeeds. -/
structure EmptyAtHead (parts : C.HeadParts) (s : CandleShard C) (f : Feed) : Prop where
  admits : s.Admits f
  enters : f.input.EntersAt s.spec.firstLayer
  empty : f.input.positions = 0
  head : s.ownsHead = true
  accepted : Nonempty ((s.ready f).Normed parts f.input f.pos)

/-- **The calls that panic.** -/
theorem feedChecked_panics_iff (laws : C.Shapes) (hs : s.Whole) :
    (∃ why, s.feedChecked parts f = .panic why) ↔ s.EmptyAtHead parts f := by
  have hready := (s.ready_sameWeights f).whole hs
  by_cases hadmits : s.Admits f
  · rw [feedChecked_eq hadmits, runChecked_panics_iff laws hready.embeds]
    constructor
    · rintro ⟨hempty, ⟨r⟩⟩
      have henters := input_enters r.input
      have hhead := hready.heads
      unfold Heads ownsHead at hhead
      rw [r.owned, ready_spec, ready_facts] at hhead
      rw [ready_spec] at henters
      exact ⟨hadmits, henters, hempty, hhead.symm, ⟨r⟩⟩
    · exact fun h => ⟨h.empty, h.accepted⟩
  · rw [feedChecked_refused hadmits]
    exact ⟨fun ⟨why, h⟩ => (by cases h), fun h => absurd h.admits hadmits⟩

end CandleShard

/-- **When no call of a run underflows.** -/
theorem calls_safe_iff (parts : C.HeadParts) (laws : C.Shapes) {s : CandleShard C} (hs : s.Whole)
    (calls : List ShardCall) :
    (∀ before f after, calls = before ++ .feed f :: after →
        ∀ why, (before.foldl CandleShard.after s).feedChecked parts f ≠ .panic why) ↔
      ∀ before f after, calls = before ++ .feed f :: after →
        ¬ (before.foldl CandleShard.after s).EmptyAtHead parts f := by
  have hwhole (before : List ShardCall) : (before.foldl CandleShard.after s).Whole :=
    foldl_mono (P := CandleShard.Whole)
      (fun s call h => (s.after_sameWeights call).whole h) before hs
  have hcall (before : List ShardCall) (f : Feed) :
      (∀ why, (before.foldl CandleShard.after s).feedChecked parts f ≠ .panic why) ↔
        ¬ (before.foldl CandleShard.after s).EmptyAtHead parts f := by
    rw [← CandleShard.feedChecked_panics_iff laws (hwhole before), not_exists]
  simp only [hcall]

end Engine

end Latticed
