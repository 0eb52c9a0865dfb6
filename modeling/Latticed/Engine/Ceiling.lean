import Latticed.Engine.Caches
import Latticed.LTS.Basic

/-!
# The context ceiling

What a shard reports as the size of its caches is computed from the ceiling it was opened with.  Nothing
else reads the ceiling: a step makes every layer longer by its positions, however many there are
already.

* `ceiling_iff` : every layer stays within the ceiling iff no step stores more positions than that in a
  layer.
* `ceiling_passed` : a prompt that is longer than the ceiling is answered.
-/

namespace Latticed

namespace Engine

open Rust

variable {C : Candle} {laws : C.Positions} {s : CandleShard C} {f : Feed}

/-- Every layer holds at most as many positions as the shard was opened for. -/
def WithinCeiling (laws : C.Positions) (s : CandleShard C) : Prop :=
  ∀ layer ∈ s.model.layers, layer.held laws ≤ s.spec.maxContext.toNat

/-- In none of the layers that get so far does the call store more positions than the ceiling: what the
layer holds, unless the call starts over, and the positions of the payload. -/
def Fits (laws : C.Positions) (s : CandleShard C) (f : Feed) : Prop :=
  s.Admits f → ∀ layer ∈ (s.ready f).model.layers.take ((s.ready f).stored f.input f.pos),
    grown f.pos.toNat f.input.positions (layer.held laws) ≤ s.spec.maxContext.toNat

instance (laws : C.Positions) (s : CandleShard C) : Decidable (WithinCeiling laws s) :=
  inferInstanceAs (Decidable (∀ layer ∈ s.model.layers, _ ≤ _))

instance (laws : C.Positions) (s : CandleShard C) (f : Feed) : Decidable (Fits laws s f) :=
  inferInstanceAs (Decidable (s.Admits f → ∀ layer ∈ _, _ ≤ _))

theorem WithinCeiling.cleared (laws : C.Positions) (s : CandleShard C) (session : Option UInt64) :
    WithinCeiling laws (s.cleared session) := by
  intro layer hmem
  rw [s.cleared_held laws session layer hmem]
  exact Nat.zero_le _

theorem WithinCeiling.ready (h : WithinCeiling laws s) (f : Feed) : WithinCeiling laws (s.ready f) := by
  unfold CandleShard.ready
  split_ifs
  · exact .cleared laws s _
  · exact h

/-- Calls keep the specification. -/
theorem run_spec_eq (s : CandleShard C) (payload : Payload) (pos : UInt32) :
    (s.run payload pos).state.spec = s.spec := by
  obtain ⟨masks, layers, hstate⟩ := s.run_state payload pos
  rw [hstate]

/-- **A call keeps to the ceiling** iff it fits. -/
theorem WithinCeiling.feed_iff (hembeds : s.Embeds) (h : WithinCeiling laws s) (f : Feed) :
    WithinCeiling laws (s.feed f).state ↔ Fits laws s f := by
  by_cases hadmits : s.Admits f
  · have hready := (s.ready_sameWeights f).embeds hembeds
    obtain ⟨done, hlayers, hgrown⟩ := CandleShard.run_grown laws hready f.input f.pos
    rw [CandleShard.feed_eq hadmits]
    unfold WithinCeiling Fits
    rw [run_spec_eq, CandleShard.ready_spec, hlayers]
    constructor
    · intro hwithin _ layer hmem
      obtain ⟨after, hafter, hheld⟩ := forall₂_exists hgrown.flip hmem
      rw [← hheld]
      exact hwithin after (List.mem_append_left _ hafter)
    · intro hfits layer hmem
      rcases List.mem_append.1 hmem with hdone | hrest
      · obtain ⟨before, hbefore, hheld⟩ := forall₂_exists hgrown hdone
        rw [hheld]
        exact hfits hadmits before hbefore
      · -- the layers that store nothing are as they were
        have hkept := h.ready f layer (List.mem_of_mem_drop hrest)
        rwa [CandleShard.ready_spec] at hkept
  · rw [CandleShard.feed_refused hadmits]
    exact ⟨fun _ hadmitted => absurd hadmitted hadmits, fun _ => h⟩

theorem WithinCeiling.drop (h : WithinCeiling laws s) (session : UInt64) :
    WithinCeiling laws (s.dropSession session) := by
  unfold CandleShard.dropSession
  split_ifs
  · exact .cleared laws s none
  · exact h

/-- **When the context ceiling bounds the caches**: in every state of a run each layer holds at most as
many positions as the shard was opened for iff every call of the run fits. -/
theorem ceiling_iff (laws : C.Positions) {file : C.File} {spec : ShardSpec} {s : CandleShard C}
    (hopen : CandleShard.openFile file spec = .ok s) (calls : List ShardCall) :
    (∀ before after, calls = before ++ after →
        WithinCeiling laws (before.foldl CandleShard.after s)) ↔
      ∀ before f rest, calls = before ++ .feed f :: rest →
        Fits laws (before.foldl CandleShard.after s) f := by
  have hembeds (calls : List ShardCall) : (calls.foldl CandleShard.after s).Embeds :=
    foldl_mono (P := CandleShard.Embeds)
      (fun s call h => (s.after_sameWeights call).embeds h) calls (CandleShard.openFile_embeds hopen)
  constructor
  · rintro h before f rest rfl
    have hnext := h (before ++ [.feed f]) rest (by simp)
    rw [List.foldl_append] at hnext
    exact ((h before (.feed f :: rest) rfl).feed_iff (hembeds before) f).1 hnext
  · rintro h before after rfl
    refine (foldl_guarded (P := fun s => s.Embeds ∧ WithinCeiling laws s)
      (G := fun s call => ∀ f, call = .feed f → Fits laws s f) ?_
      ⟨CandleShard.openFile_embeds hopen, ?_⟩ ?_).2
    · rintro s call hfits ⟨hs, hwithin⟩
      refine ⟨(s.after_sameWeights call).embeds hs, ?_⟩
      cases call with
      | feed f => exact (hwithin.feed_iff hs f).2 (hfits f rfl)
      | drop session => exact hwithin.drop session
    · intro layer hmem
      rw [CandleShard.openFile_held laws hopen layer hmem]
      exact Nat.zero_le _
    · rintro before' _ rest rfl f rfl
      exact h before' f (rest ++ after) (by simp)

/-- A prompt of two tokens, on a shard that was opened for eight. -/
theorem ceiling_kept_prompt :
    let s := checkedShard 2 0 2
    WithinCeiling (checkedPositions 2) (s.after (.feed ⟨true, 1, 0, .tokens [3, 4]⟩)) := by
  intro s
  have hopen : CandleShard.openFile (C := checked 2) () s.spec = .ok s := rfl
  have hrun := ceiling_iff (checkedPositions 2) hopen [.feed ⟨true, 1, 0, .tokens [3, 4]⟩]
  refine hrun.2 ?_ [.feed ⟨true, 1, 0, .tokens [3, 4]⟩] [] rfl
  intro before f rest heq
  obtain ⟨rfl, hcall⟩ := eq_of_singleton heq
  obtain rfl := ShardCall.feed.inj hcall
  decide

/-- **Nothing keeps a shard to its ceiling**: opened for eight positions, it answers a prompt of nine. -/
theorem ceiling_passed :
    let s := checkedShard 1 0 1
    let prompt : Feed := ⟨true, 1, 0, .tokens [1, 2, 3, 4, 5, 6, 7, 8, 9]⟩
    CandleShard.openFile (C := checked 1) () s.spec = .ok s ∧ s.spec.maxContext = 8 ∧
      (s.feed prompt).result = .ok (.logits [450]) ∧
      ¬ WithinCeiling (checkedPositions 1) (s.after (.feed prompt)) := by
  intro s prompt
  refine ⟨rfl, rfl, by rfl, fun h => ?_⟩
  have hheld : 9 ≤ 8 := h _ List.mem_cons_self
  omega

end Engine

end Latticed
