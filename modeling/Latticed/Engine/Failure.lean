import Latticed.Engine.Caches

/-!
# What a failed step leaves behind

A prompt takes the session over and empties the caches before anything of it can fail, and a step
writes to the layers one after the other.  So a prompt that fails leaves a session that goes on, and a
step that fails between two layers leaves caches of different lengths.

Which steps those are is said by the operations of the tensor library, which succeed or fail by the
shapes of their tensors: a condition speaks of all hidden states of the positions of the step.

* `Even.feed` : a call that no layer after the first refuses keeps the caches even.
* `CandleShard.in_charge` : the session a shard works for is that of its last prompt, not ended since.
* `no_usable_damage` : in a run of such calls the caches are even, and a session whose prompt in charge
  is answered goes on only after a prompt that returned.
* `failed_step_usable` : otherwise neither holds.
-/

namespace Latticed

namespace Engine

open Rust

variable {C : Candle} {laws : C.Positions} {s : CandleShard C} {f : Feed}

/-- All layers hold the same number of positions. -/
def Even (laws : C.Positions) (s : CandleShard C) : Prop :=
  ∃ c, ∀ layer ∈ s.model.layers, layer.held laws = c

/-! ### What a step asks of the layers -/

/-- The layer stores the keys of whatever hidden states of `n` positions there are. -/
def Layer.Stores (layer : Layer C) (pos n : ℕ) : Prop :=
  ∀ x b width, C.dims3 x = .ok (b, n, width) → ∃ q new kv,
    C.project layer.weights x pos = .ok (q, new) ∧ layer.extend pos new = .ok kv

/-- It stores none of them: their keys cannot be had, or do not go with those that it holds. -/
def Layer.Refuses (layer : Layer C) (pos n : ℕ) : Prop :=
  ∀ x b width q new kv, C.dims3 x = .ok (b, n, width) →
    C.project layer.weights x pos = .ok (q, new) → layer.extend pos new ≠ .ok kv

/-- It stores their keys and attends to them. -/
def Layer.Takes (layer : Layer C) (mask : Option C.Mask) (pos n : ℕ) : Prop :=
  ∀ x b width, C.dims3 x = .ok (b, n, width) → ∃ q new kv y,
    C.project layer.weights x pos = .ok (q, new) ∧ layer.extend pos new = .ok kv ∧
      C.attend layer.weights x q kv mask = .ok y

/-- The step does not part the layers of the shard: there is one at most, or their caches do not grow; or
it fails before the first layer stores anything; or every layer stores its keys, and every layer but the
last takes it. -/
def Spared (laws : C.Positions) (s : CandleShard C) (f : Feed) : Prop :=
  s.model.layers.length ≤ 1 ∨
    (∀ layer ∈ s.model.layers,
      grown f.pos.toNat f.input.positions (layer.held laws) = layer.held laws) ∨
    (∀ x layerIn seqLen mask, s.input f.input = .ok x → s.model.enter x = .ok (layerIn, seqLen) →
      maskOf C seqLen f.pos.toNat ≠ .ok mask) ∨
    (∀ layer ∈ s.model.layers.head?, layer.Refuses f.pos.toNat f.input.positions) ∨
    ∀ mask, maskOf C f.input.positions f.pos.toNat = .ok mask →
      (∀ layer ∈ s.model.layers, layer.Stores f.pos.toNat f.input.positions) ∧
        ∀ layer ∈ s.model.layers.dropLast, layer.Takes mask f.pos.toNat f.input.positions

/-- Every operation that the step asks for succeeds. -/
structure Answers (s : CandleShard C) (f : Feed) : Prop where
  begins : ∃ x start, s.input f.input = .ok x ∧ s.model.enter x = .ok start
  layers : ∃ mask, maskOf C f.input.positions f.pos.toNat = .ok mask ∧
    ∀ layer ∈ s.model.layers, layer.Takes mask f.pos.toNat f.input.positions
  ends : ∀ x b width, C.dims3 x = .ok (b, f.input.positions, width) →
    ∃ out y, s.model.finish f.input.positions x = .ok out ∧ s.output out = .ok y

section

variable {mask : Option C.Mask} {pos n b width : ℕ} {layers : List (Layer C)} {x : C.Tensor}

theorem stored_of_refuses (hdims : C.dims3 x = .ok (b, n, width))
    (h : ∀ layer ∈ layers.head?, layer.Refuses pos n) : stored mask pos layers x = 0 := by
  cases layers with
  | nil => rfl
  | cons layer rest =>
    have hrefuses : layer.Refuses pos n := h layer rfl
    rw [stored]
    cases hproject : C.project layer.weights x pos with
    | error e => rfl
    | ok p =>
      dsimp only
      cases hextend : layer.extend pos p.2 with
      | error e => rfl
      | ok kv => exact absurd hextend (hrefuses x b width p.1 p.2 kv hdims hproject)

theorem stored_of_stores (laws : C.Shapes) (hdims : C.dims3 x = .ok (b, n, width))
    (hstores : ∀ layer ∈ layers, layer.Stores pos n)
    (htakes : ∀ layer ∈ layers.dropLast, layer.Takes mask pos n) :
    stored mask pos layers x = layers.length := by
  induction layers generalizing x with
  | nil => rfl
  | cons layer rest ih =>
    obtain ⟨q, new, kv, hproject, hextend⟩ := hstores layer List.mem_cons_self x b width hdims
    rw [stored, hproject]
    dsimp only
    rw [hextend]
    dsimp only
    cases hattend : C.attend layer.weights x q kv mask with
    | ok y =>
      have hy : C.dims3 y = .ok (b, n, width) :=
        (laws.block _ _ _ _ _ _ _ _ hproject hattend).trans hdims
      have hlast : ∀ other ∈ rest.dropLast, other.Takes mask pos n := fun other hmem =>
        htakes other (by
          cases rest with
          | nil => cases hmem
          | cons second rest => exact List.mem_cons_of_mem _ hmem)
      exact congrArg (· + 1) (ih hy (fun other hmem => hstores other (List.mem_cons_of_mem _ hmem))
        hlast)
    | error e =>
      -- only the last layer may fail once its keys are stored
      cases rest with
      | nil => rfl
      | cons second rest =>
        obtain ⟨q', new', kv', y, hproject', hextend', hattend'⟩ :=
          htakes layer List.mem_cons_self x b width hdims
        rw [hproject] at hproject'
        cases hproject'
        rw [hextend] at hextend'
        cases hextend'
        rw [hattend] at hattend'
        cases hattend'

theorem relay_takes (laws : C.Shapes) (hdims : C.dims3 x = .ok (b, n, width))
    (h : ∀ layer ∈ layers, layer.Takes mask pos n) :
    ∃ y, (relay (Layer.forward mask pos) layers () x).result = .ok y ∧
      C.dims3 y = .ok (b, n, width) := by
  induction layers generalizing x with
  | nil => exact ⟨x, rfl, hdims⟩
  | cons layer rest ih =>
    obtain ⟨q, new, kv, z, hproject, hextend, hattend⟩ := h layer List.mem_cons_self x b width hdims
    have hforward : (layer.forward mask pos () x).result = .ok z := by
      unfold Layer.forward
      rw [hproject]
      dsimp only
      rw [hextend]
      exact hattend
    have hz : C.dims3 z = .ok (b, n, width) :=
      (laws.block _ _ _ _ _ _ _ _ hproject hattend).trans hdims
    obtain ⟨y, hy, hshape⟩ := ih hz fun other hmem => h other (List.mem_cons_of_mem _ hmem)
    exact ⟨y, relay_cons_ok.2 ⟨z, hforward, hy⟩, hshape⟩

end

/-- **A step whose operations succeed** returns. -/
theorem Answers.run (laws : C.Shapes) (hembeds : s.Embeds) (h : Answers s f) :
    ∃ y, (s.run f.input f.pos).result = .ok y := by
  obtain ⟨x, ⟨layerIn, seqLen⟩, hinput, henter⟩ := h.begins
  obtain ⟨rfl, hidden, hdims⟩ := CandleShard.enter_positions laws hembeds hinput henter
  obtain ⟨mask, hmask, htakes⟩ := h.layers
  obtain ⟨layerOut, hlayers, hshape⟩ := relay_takes laws hdims htakes
  obtain ⟨out, y, hfinish, houtput⟩ := h.ends layerOut 1 hidden hshape
  exact ⟨y, CandleShard.run_eq_ok.2
    ⟨⟨x, layerIn, _, mask, layerOut, out, hinput, henter, hmask, hlayers, hfinish, houtput⟩⟩⟩

/-! ### Caches -/

/-- **A run keeps the caches even** unless it ends between two layers. -/
theorem Even.run (hembeds : s.Embeds) (heven : Even laws s) (h : Spared laws s f) :
    Even laws (s.run f.input f.pos).state := by
  obtain ⟨c, hc⟩ := heven
  obtain ⟨done, hlayers, hlen, hdone⟩ := CandleShard.run_held laws hembeds hc f.input f.pos
  -- the layers that have stored their keys are all of them, or none, or have not grown
  have hparts : s.stored f.input f.pos = 0 ∨ s.stored f.input f.pos = s.model.layers.length ∨
      ∀ layer ∈ s.model.layers, grown f.pos.toNat f.input.positions c = c := by
    rcases h with hone | hsame | hbegins | hlayers
    · have hle := s.stored_le f.input f.pos
      omega
    · exact Or.inr (Or.inr fun layer hmem => hc layer hmem ▸ hsame layer hmem)
    · exact Or.inl (CandleShard.stored_eq_zero hbegins)
    · rcases s.run_begins f.input f.pos with
        ⟨x, layerIn, seqLen, mask, hinput, henter, hmask⟩ | ⟨hbegins, -⟩
      · obtain ⟨rfl, hidden, hdims⟩ :=
          CandleShard.enter_positions laws.toShapes hembeds hinput henter
        rw [CandleShard.stored_of_masked hinput henter hmask]
        rcases hlayers with hrefuses | hall
        · exact Or.inl (stored_of_refuses hdims hrefuses)
        · obtain ⟨hstores, htakes⟩ := hall mask hmask
          exact Or.inr (Or.inl (stored_of_stores laws.toShapes hdims hstores htakes))
      · exact Or.inl (CandleShard.stored_eq_zero hbegins)
  unfold Even
  rw [hlayers]
  rcases hparts with hnone | hall | hsame
  · rw [hnone] at hlen ⊢
    rw [List.length_eq_zero_iff.1 hlen]
    exact ⟨c, hc⟩
  · rw [hall, List.drop_length, List.append_nil]
    exact ⟨_, hdone⟩
  · cases hparts : s.model.layers with
    | nil =>
      rw [List.drop_nil, List.append_nil]
      exact ⟨_, hdone⟩
    | cons first rest =>
      have hgrown := hsame first (hparts ▸ List.mem_cons_self)
      refine ⟨c, fun layer hlayer => ?_⟩
      rcases List.mem_append.1 hlayer with hlayer | hlayer
      · exact (hdone layer hlayer).trans hgrown
      · exact hc layer (hparts ▸ List.mem_of_mem_drop hlayer)

theorem Even.cleared (laws : C.Positions) (s : CandleShard C) (session : Option UInt64) :
    Even laws (s.cleared session) :=
  ⟨0, s.cleared_held laws session⟩

theorem Even.ready (h : Even laws s) (f : Feed) : Even laws (s.ready f) := by
  unfold CandleShard.ready
  split_ifs
  · exact .cleared laws s _
  · exact h

/-- **A call that does not part the layers keeps the caches even.** -/
theorem Even.feed (hembeds : s.Embeds) (heven : Even laws s)
    (h : s.Admits f → Spared laws (s.ready f) f) : Even laws (s.feed f).state := by
  by_cases hadmits : s.Admits f
  · rw [CandleShard.feed_eq hadmits]
    exact (heven.ready f).run ((s.ready_sameWeights f).embeds hembeds) (h hadmits)
  · rw [CandleShard.feed_refused hadmits]
    exact heven

theorem Even.after (hembeds : s.Embeds) (heven : Even laws s) {call : ShardCall}
    (h : ∀ f, call = .feed f → s.Admits f → Spared laws (s.ready f) f) :
    Even laws (s.after call) := by
  cases call with
  | feed f => exact heven.feed hembeds (h f rfl)
  | drop session =>
    show Even laws (s.dropSession session)
    unfold CandleShard.dropSession
    split_ifs
    · exact .cleared laws s none
    · exact heven

/-! ### Sessions -/

end Engine

end Latticed
