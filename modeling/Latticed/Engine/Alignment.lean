import Latticed.Engine.Caches

/-!
# Positions and caches

A call says at which position it starts; how many positions the caches hold follows from the calls
before it.  The shard does not compare the two.  A step of several positions brings a mask that only fits
caches that hold the positions before it; that a step of one position starts where the calls before it
ended is up to the caller.

* `CandleShard.run_zero` : at position 0 a run does not depend on what the caches hold.
* `Feed.Checked.held` : a step that is checked by its mask finds the positions before it.
* `Ledger.Accounts.after` : what the caches hold is what the calls put there, call after call.
* `kv_alignment` : what a call that returns found in the caches.
* `decode_skips` : a step of one position returns wherever it says it starts.
-/

namespace Latticed

namespace Engine

open Rust

variable {C : Candle}

/-! ### Starting over -/

theorem Layer.forward_zero {layer : Layer C} {mask : Option C.Mask} {u : Unit} {x y : C.Tensor}
    (h : (layer.forward mask 0 u x).result = .ok y) :
    layer.cleared.forward mask 0 u x = layer.forward mask 0 u x := by
  obtain ⟨q, new, kv, hproject, hextend, -⟩ := Layer.forward_eq_ok h
  obtain rfl : new = kv := by
    unfold Layer.extend at hextend
    cases hcache : layer.kvCache with
    | none =>
      rw [hcache] at hextend
      exact Except.ok.inj hextend
    | some cached =>
      rw [hcache] at hextend
      exact Except.ok.inj hextend
  have hcleared : layer.cleared.extend 0 new = .ok new := rfl
  have hweights : C.project layer.cleared.weights x 0 = .ok (q, new) := hproject
  unfold Layer.forward
  rw [hproject, hweights]
  dsimp only
  rw [hextend, hcleared]
  rfl

theorem relay_zero {mask : Option C.Mask} {layers : List (Layer C)} {x y : C.Tensor}
    (h : (relay (Layer.forward mask 0) layers () x).result = .ok y) :
    relay (Layer.forward mask 0) (layers.map Layer.cleared) () x =
      relay (Layer.forward mask 0) layers () x := by
  induction layers generalizing x with
  | nil => rfl
  | cons layer rest ih =>
    obtain ⟨z, hz, hrest⟩ := relay_cons_ok.1 h
    rw [List.map_cons, relay, relay, Layer.forward_zero hz, hz]
    dsimp only
    rw [ih hrest]

namespace CandleShard

/-- **At position 0 a run that returns does not depend on what the caches hold.** -/
theorem run_zero {s : CandleShard C} {payload y : Payload}
    (h : (s.run payload 0).result = .ok y) :
    ((s.cleared s.active).run payload 0).result = .ok y ∧
      (s.run payload 0).state.Agrees ((s.cleared s.active).run payload 0).state := by
  obtain ⟨r⟩ := run_eq_ok.1 h
  have hlayers := relay_zero r.layers
  have r' : (s.cleared s.active).Ran payload 0 y :=
    ⟨r.x, r.layerIn, r.seqLen, r.mask, r.layerOut, r.out, r.input, r.enter, r.masked,
      (congrArg Call.result hlayers).trans r.layers, r.finish, r.output⟩
  refine ⟨run_eq_ok.2 ⟨r'⟩, ?_⟩
  obtain ⟨masks, hstate⟩ := r.state
  obtain ⟨masks', hstate'⟩ := run_of_masked (s := s.cleared s.active) r.input r.enter r.masked
  rw [hstate, hstate']
  refine ⟨_, ⟨masks', rfl⟩, ?_⟩
  have hstates := congrArg (fun call => call.state.1) hlayers
  exact congrArg (fun layers => ({ s with model := { s.model with masks := masks', layers } } :
    CandleShard C)) hstates

/-- The shard after these runs. -/
def replay (fed : List Feed) (s : CandleShard C) : CandleShard C :=
  fed.foldl (fun s g => (s.run g.input g.pos).state) s

theorem replay_append (fed : List Feed) (g : Feed) (s : CandleShard C) :
    replay (fed ++ [g]) s = ((replay fed s).run g.input g.pos).state := by
  unfold replay
  rw [List.foldl_append]
  rfl

theorem Agrees.replay {s t : CandleShard C} (h : s.Agrees t) (fed : List Feed) :
    (CandleShard.replay fed s).Agrees (CandleShard.replay fed t) := by
  induction fed generalizing s t with
  | nil => exact h
  | cons g rest ih => exact ih (h.run g.input g.pos).2

end CandleShard

/-! ### What the calls put into the caches -/

/-- The calls lead from one position to another, each starting where the one before it ended. -/
def Follows : ℕ → List Feed → ℕ → Prop
  | p, [], q => p = q
  | p, g :: rest, q => g.pos.toNat = p ∧ Follows (p + g.input.positions) rest q

theorem Follows.append {fed : List Feed} {g : Feed} {p q : ℕ} (h : Follows p (fed ++ [g]) q) :
    Follows p fed g.pos.toNat ∧ q = g.pos.toNat + g.input.positions := by
  induction fed generalizing p with
  | nil =>
    obtain ⟨hpos, hend⟩ := h
    exact ⟨hpos.symm, hpos ▸ hend.symm⟩
  | cons first rest ih =>
    obtain ⟨hpos, hrest⟩ := h
    obtain ⟨hfollows, hend⟩ := ih hrest
    exact ⟨⟨hpos, hfollows⟩, hend⟩

/-- A step whose mask fits only caches that hold the positions before it: it does not start at position
0, and it is not of one position, for which there is no mask.  (The mask of no positions at position 1
has one column, and is broadcast to any.) -/
def Feed.Checked (f : Feed) : Prop :=
  f.pos ≠ 0 ∧ f.input.positions ≠ 1 ∧ f.pos.toNat + f.input.positions ≠ 1

instance (f : Feed) : Decidable f.Checked := inferInstanceAs (Decidable (_ ∧ _ ∧ _))

/-- A step that every layer takes with a mask found `pos` positions in each of them, if the mask has that
many columns before its own. -/
theorem relay_held {laws : C.Positions} (hmasks : laws.ChecksMasks) {mask : C.Mask} {pos n b width : ℕ}
    (hpos : pos ≠ 0) (hcolumns : pos + n ≠ 1) (hmask : C.buildCausalMask n pos = .ok mask)
    {layers : List (Layer C)} {x y : C.Tensor} (hdims : C.dims3 x = .ok (b, n, width))
    (hok : (relay (Layer.forward (some mask) pos) layers () x).result = .ok y) :
    ∀ layer ∈ layers, layer.held laws = pos := by
  induction layers generalizing x with
  | nil => exact fun layer hmem => by cases hmem
  | cons layer rest ih =>
    obtain ⟨z, hz, hrest⟩ := relay_cons_ok.1 hok
    obtain ⟨q, new, kv, hproject, hextend, hattend⟩ := Layer.forward_eq_ok hz
    have hkv : laws.held kv = pos + n := hmasks _ _ _ _ _ _ _ _ hmask hattend hcolumns
    have hgrown := Layer.extend_held laws hproject hdims hextend
    rw [hkv, grown, if_neg hpos] at hgrown
    have hdims' : C.dims3 z = .ok (b, n, width) :=
      (laws.block _ _ _ _ _ _ _ _ hproject hattend).trans hdims
    intro other hmem
    rcases List.mem_cons.1 hmem with rfl | hmem
    · exact (Nat.add_right_cancel hgrown).symm
    · exact ih hdims' hrest other hmem

/-- **A step that is checked by its mask** returns only if the caches held the positions before it. -/
theorem Feed.Checked.held {laws : C.Positions} (hmasks : laws.ChecksMasks) {f : Feed} (h : f.Checked)
    {s : CandleShard C} (hembeds : s.Embeds) {y : Payload}
    (hok : (s.run f.input f.pos).result = .ok y) :
    ∀ layer ∈ s.model.layers, layer.held laws = f.pos.toNat := by
  obtain ⟨hpos, hone, hcolumns⟩ := h
  obtain ⟨r⟩ := CandleShard.run_eq_ok.1 hok
  obtain ⟨hlen, hidden, hdims⟩ := CandleShard.enter_positions laws.toShapes hembeds r.input r.enter
  have hmasked := r.masked
  rw [hlen, maskOf, if_neg hone] at hmasked
  have hlayers := r.layers
  cases hmask : C.buildCausalMask f.input.positions f.pos.toNat with
  | error e =>
    rw [hmask] at hmasked
    cases hmasked
  | ok mask =>
    rw [hmask] at hmasked
    rw [← Except.ok.inj hmasked] at hlayers
    have hzero : f.pos.toNat ≠ 0 := fun heq => hpos (UInt32.toNat_inj.1 heq)
    exact relay_held hmasks hzero hcolumns hmask hdims hlayers

/-- A shard, and an account of what is in its caches. -/
structure Ledger (C : Candle) where
  shard : CandleShard C
  /-- The calls that returned since the caches were emptied, or started over at position 0. -/
  fed : List Feed
  /-- No call that failed since then has changed a layer. -/
  untouched : Prop
  /-- The positions in each cache, as the calls that returned add up. -/
  count : ℕ
  /-- No call that failed has changed a layer since the caches were emptied, started over, or were checked
  against a mask. -/
  counted : Prop

namespace Ledger

/-- A shard whose caches are empty. -/
def new (s : CandleShard C) : Ledger C := ⟨s, [], True, 0, True⟩

/-- The account at the moment the layers run. -/
def ready (l : Ledger C) (f : Feed) : Ledger C :=
  if l.shard.Empties f then new (l.shard.ready f) else l

/-- The account after a call that returned, or failed. -/
def close (l : Ledger C) (f : Feed) (result : Except EngineError Payload) (s : CandleShard C) :
    Ledger C :=
  match result with
  | .ok _ =>
    { shard := s
      fed := if f.pos = 0 then [f] else l.fed ++ [f]
      untouched := f.pos = 0 ∨ l.untouched
      count := grown f.pos.toNat f.input.positions (if f.Checked then f.pos.toNat else l.count)
      counted := f.pos = 0 ∨ f.Checked ∨ l.counted }
  | .error _ =>
    { shard := s
      fed := l.fed
      untouched := l.untouched ∧ s.model.layers = l.shard.model.layers
      count := l.count
      counted := l.counted ∧ s.model.layers = l.shard.model.layers }

/-- The account after a call. -/
def after (l : Ledger C) : ShardCall → Ledger C
  | .drop session =>
    if l.shard.active = some session then new (l.shard.dropSession session) else l
  | .feed f =>
    let call := l.shard.feed f
    (l.ready f).close f call.result call.state

theorem ready_shard (l : Ledger C) (f : Feed) : (l.ready f).shard = l.shard.ready f := by
  unfold ready
  by_cases hempties : l.shard.Empties f
  · rw [if_pos hempties]
    rfl
  · rw [if_neg hempties]
    exact (if_neg hempties).symm

theorem close_shard (l : Ledger C) (f : Feed) (result : Except EngineError Payload)
    (s : CandleShard C) : (l.close f result s).shard = s := by
  cases result <;> rfl

theorem after_shard (l : Ledger C) (call : ShardCall) :
    (l.after call).shard = l.shard.after call := by
  cases call with
  | feed f => exact close_shard _ f _ _
  | drop session =>
    unfold after CandleShard.after CandleShard.dropSession
    dsimp only
    split_ifs
    · unfold new
      rfl
    · rfl

/-- The account is right. -/
structure Accounts (laws : C.Positions) (l : Ledger C) : Prop where
  embeds : l.shard.Embeds
  sessions : ∀ g ∈ l.fed, l.shard.active = some g.session
  replay : l.untouched →
    l.shard.Agrees (CandleShard.replay l.fed (l.shard.cleared l.shard.active))
  held : l.counted → ∀ layer ∈ l.shard.model.layers, layer.held laws = l.count
  /-- Calls that follow each other add up to the position where the last one ended. -/
  follows : l.untouched → l.counted ∧ ∀ q, Follows 0 l.fed q → l.count = q

variable {laws : C.Positions} {l : Ledger C} {f : Feed}

theorem new_accounts {s : CandleShard C} (hembeds : s.Embeds)
    (hempty : s.Agrees (s.cleared s.active))
    (hheld : ∀ layer ∈ s.model.layers, layer.held laws = 0) : Accounts laws (new s) where
  embeds := hembeds
  sessions g hg := by cases hg
  replay _ := hempty
  held _ := hheld
  follows _ := ⟨trivial, fun _ hq => hq⟩

theorem cleared_accounts {s : CandleShard C} (h : s.Embeds) (session : Option UInt64) :
    Accounts laws (new (s.cleared session)) := by
  refine new_accounts ((s.cleared_sameWeights session).embeds h) ?_ (s.cleared_held laws session)
  rw [CandleShard.cleared_cleared]
  exact .refl _

theorem Accounts.ready (h : Accounts laws l) (f : Feed) : Accounts laws (l.ready f) := by
  unfold Ledger.ready
  split_ifs with hempties
  · have hready : l.shard.ready f = l.shard.cleared (some f.session) := if_pos hempties
    rw [hready]
    exact cleared_accounts h.embeds _
  · exact h

/-- **A call that returns** adds itself to the account. -/
theorem Accounts.ok (hmasks : laws.ChecksMasks) (h : Accounts laws l) {y : Payload}
    (hactive : l.shard.active = some f.session)
    (hok : (l.shard.run f.input f.pos).result = .ok y) :
    Accounts laws (l.close f (.ok y) (l.shard.run f.input f.pos).state) := by
  have hweights := CandleShard.run_sameWeights l.shard f.input f.pos
  have hsame := CandleShard.run_active l.shard f.input f.pos
  refine ⟨hweights.embeds h.embeds, ?_, ?_, ?_, ?_⟩
  · intro g (hg : g ∈ if f.pos = 0 then [f] else l.fed ++ [f])
    show (l.shard.run f.input f.pos).state.active = _
    rw [hsame]
    split_ifs at hg with hzero
    · rw [List.mem_singleton.1 hg]
      exact hactive
    · rcases List.mem_append.1 hg with hg | hg
      · exact h.sessions g hg
      · rw [List.mem_singleton.1 hg]
        exact hactive
  · intro (huntouched : f.pos = 0 ∨ l.untouched)
    have hcleared := hweights.cleared l.shard.active
    show CandleShard.Agrees (l.shard.run f.input f.pos).state (CandleShard.replay
      (if f.pos = 0 then [f] else l.fed ++ [f]) ((l.shard.run f.input f.pos).state.cleared _))
    rw [close_shard, hsame]
    split_ifs with hzero
    · -- the layers start over, so it makes no difference what they held
      show CandleShard.Agrees _ ((CandleShard.run _ f.input f.pos).state)
      rw [hzero] at hok hcleared ⊢
      exact (CandleShard.run_zero hok).2.trans (hcleared.run f.input 0).2
    · rw [CandleShard.replay_append]
      have hbefore := h.replay (huntouched.resolve_left hzero)
      exact ((hbefore.trans (hcleared.replay l.fed)).run f.input f.pos).2
  · intro (hcounted : f.pos = 0 ∨ f.Checked ∨ l.counted) layer hmem
    obtain ⟨before, hbefore, hheld⟩ := CandleShard.run_ok_held laws h.embeds hok hmem
    rw [hheld]
    show _ = grown f.pos.toNat f.input.positions (if f.Checked then f.pos.toNat else l.count)
    split_ifs with hchecked
    · -- the mask has told what was there
      rw [hchecked.held hmasks h.embeds hok before hbefore]
    · rcases hcounted with hzero | hcounted | hcounted
      · -- the layers start over, so only the positions of this call are there
        rw [hzero]
        rfl
      · exact absurd hcounted hchecked
      · rw [h.held hcounted before hbefore]
  · intro (huntouched : f.pos = 0 ∨ l.untouched)
    refine ⟨huntouched.imp id fun hl => Or.inr (h.follows hl).1, ?_⟩
    intro q (hq : Follows 0 (if f.pos = 0 then [f] else l.fed ++ [f]) q)
    show grown f.pos.toNat f.input.positions (if f.Checked then f.pos.toNat else l.count) = q
    split_ifs at hq with hzero
    · obtain ⟨-, rfl⟩ := hq
      rw [hzero]
      rfl
    · obtain ⟨hfollows, rfl⟩ := hq.append
      have hcount := (h.follows (huntouched.resolve_left hzero)).2 _ hfollows
      have hpos : f.pos.toNat ≠ 0 := fun heq => hzero (UInt32.toNat_inj.1 heq)
      rw [hcount, ite_self, grown, if_neg hpos]

/-- A call that fails and changes no layer leaves the account as it is. -/
theorem Accounts.error (h : Accounts laws l) (e : EngineError) :
    Accounts laws (l.close f (.error e) (l.shard.run f.input f.pos).state) := by
  have hsame := CandleShard.run_active l.shard f.input f.pos
  refine ⟨(CandleShard.run_sameWeights l.shard f.input f.pos).embeds h.embeds, ?_, ?_, ?_, ?_⟩
  · intro g hg
    show (l.shard.run f.input f.pos).state.active = _
    rw [hsame]
    exact h.sessions g hg
  · rintro ⟨huntouched, hlayers⟩
    have hagrees : l.shard.Agrees (l.shard.run f.input f.pos).state := by
      obtain ⟨masks, layers, hstate⟩ := CandleShard.run_state l.shard f.input f.pos
      rw [hstate] at hlayers ⊢
      obtain rfl : layers = l.shard.model.layers := hlayers
      exact ⟨_, ⟨masks, rfl⟩, rfl⟩
    show CandleShard.Agrees (l.shard.run f.input f.pos).state (CandleShard.replay l.fed
      ((l.shard.run f.input f.pos).state.cleared (l.shard.run f.input f.pos).state.active))
    rw [hsame]
    exact (hagrees.symm.trans (h.replay huntouched)).trans ((hagrees.cleared _).replay l.fed)
  · rintro ⟨hcounted, hlayers⟩ layer (hmem : layer ∈ (l.shard.run f.input f.pos).state.model.layers)
    rw [hlayers] at hmem
    exact h.held hcounted layer hmem
  · rintro ⟨huntouched, hlayers⟩
    obtain ⟨hcounted, hcount⟩ := h.follows huntouched
    exact ⟨⟨hcounted, hlayers⟩, hcount⟩

/-- **A call keeps the account right.** -/
theorem Accounts.after (hmasks : laws.ChecksMasks) (h : Accounts laws l) (call : ShardCall) :
    Accounts laws (l.after call) := by
  cases call with
  | drop session =>
    unfold Ledger.after
    dsimp only
    split_ifs with hactive
    · have hdrop : l.shard.dropSession session = l.shard.cleared none := if_pos hactive
      rw [hdrop]
      exact cleared_accounts h.embeds none
    · exact h
  | feed f =>
    unfold Ledger.after
    dsimp only
    by_cases hadmits : l.shard.Admits f
    · have hready := h.ready f
      have hactive := CandleShard.ready_active hadmits
      rw [CandleShard.feed_eq hadmits]
      rw [← ready_shard] at hactive ⊢
      cases hresult : ((l.ready f).shard.run f.input f.pos).result with
      | ok y => exact hready.ok hmasks hactive hresult
      | error e => exact hready.error e
    · have hempties : ¬ l.shard.Empties f := fun hempties => hadmits (Or.inl hempties.1)
      have hready : l.ready f = l := if_neg hempties
      rw [CandleShard.feed_refused hadmits, hready]
      exact ⟨h.embeds, h.sessions, fun hu => h.replay hu.1, fun hc => h.held hc.1,
        fun hu => ⟨⟨(h.follows hu.1).1, hu.2⟩, (h.follows hu.1).2⟩⟩

/-- The account after a run of calls. -/
def run (s : CandleShard C) (calls : List ShardCall) : Ledger C := calls.foldl after (new s)

theorem run_shard (s : CandleShard C) (calls : List ShardCall) :
    (run s calls).shard = calls.foldl CandleShard.after s := by
  unfold run
  induction calls using List.reverseRecOn with
  | nil => rfl
  | append_singleton calls call ih =>
    rw [List.foldl_append, List.foldl_append, List.foldl_cons, List.foldl_nil, after_shard, ih]
    rfl

/-- The call was made in the run, and returned. -/
def Returned (s : CandleShard C) (calls : List ShardCall) (g : Feed) : Prop :=
  ∃ before rest y, calls = before ++ .feed g :: rest ∧
    ((before.foldl CandleShard.after s).feed g).result = .ok y

theorem Returned.append {s : CandleShard C} {calls : List ShardCall} {g : Feed}
    (h : Returned s calls g) (call : ShardCall) : Returned s (calls ++ [call]) g := by
  obtain ⟨before, rest, y, rfl, hy⟩ := h
  exact ⟨before, rest ++ [call], y, by simp, hy⟩

/-- **The account names calls that returned.** -/
theorem run_returned (s : CandleShard C) (calls : List ShardCall) :
    ∀ g ∈ (run s calls).fed, Returned s calls g := by
  induction calls using List.reverseRecOn with
  | nil => exact fun g hg => by cases hg
  | append_singleton calls call ih =>
    have hready (f : Feed) (g : Feed) (hg : g ∈ ((run s calls).ready f).fed) :
        Returned s (calls ++ [call]) g := by
      unfold ready at hg
      split_ifs at hg
      · cases hg
      · exact (ih g hg).append call
    intro g hg
    have hrun : run s (calls ++ [call]) = (run s calls).after call := List.foldl_append
    rw [hrun] at hg
    cases call with
    | drop session =>
      unfold after at hg
      dsimp only at hg
      split_ifs at hg
      · cases hg
      · exact (ih g hg).append _
    | feed f =>
      unfold after close at hg
      dsimp only at hg
      cases hresult : ((run s calls).shard.feed f).result with
      | error e =>
        rw [hresult] at hg
        exact hready f g hg
      | ok y =>
        rw [hresult] at hg
        rw [run_shard] at hresult
        have hthis : Returned s (calls ++ [.feed f]) f := ⟨calls, [], y, rfl, hresult⟩
        dsimp only at hg
        split_ifs at hg
        · rwa [List.mem_singleton.1 hg]
        · rcases List.mem_append.1 hg with hg | hg
          · exact hready f g hg
          · rwa [List.mem_singleton.1 hg]

end Ledger

/-- **What a call that returns found in the caches**: if its step is checked by a mask, the positions
before it, whatever calls went before; otherwise what the calls before it add up to.  And it is that of
the calls of its own session that returned since the caches were empty, so that where each of them
started where the one before it ended, it is the positions from 0 on. -/
theorem kv_alignment (laws : C.Positions) (hmasks : laws.ChecksMasks) {file : C.File}
    {spec : ShardSpec} {s : CandleShard C} (hopen : CandleShard.openFile file spec = .ok s)
    {calls : List ShardCall} {f : Feed} {y : Payload}
    (hok : ((calls.foldl CandleShard.after s).feed f).result = .ok y) :
    let ready := (calls.foldl CandleShard.after s).ready f
    let account := (Ledger.run s calls).ready f
    (f.Checked → ∀ layer ∈ ready.model.layers, layer.held laws = f.pos.toNat) ∧
      (account.counted → ∀ layer ∈ ready.model.layers, layer.held laws = account.count) ∧
      (account.untouched →
        (∀ g ∈ account.fed, g.session = f.session ∧ Ledger.Returned s calls g) ∧
          ready.Agrees (CandleShard.replay account.fed (ready.cleared (some f.session))) ∧
          (Follows 0 account.fed f.pos.toNat →
            ∀ layer ∈ ready.model.layers, layer.held laws = f.pos.toNat)) := by
  intro ready account
  have hembeds := CandleShard.openFile_embeds hopen
  have hempty : s.Agrees (s.cleared s.active) := by
    have hlayers := CandleShard.openFile_cleared hopen
    exact ⟨s.model.clearKvCache, ⟨s.model.masks, by rw [ShardModel.clearKvCache, hlayers]⟩, rfl⟩
  have haccounts : Ledger.Accounts laws (Ledger.run s calls) := by
    refine foldl_mono (P := Ledger.Accounts laws) (fun l call h => h.after hmasks call) calls ?_
    exact Ledger.new_accounts hembeds hempty (CandleShard.openFile_held laws hopen)
  have hready : Ledger.Accounts laws account := haccounts.ready f
  have hshard : account.shard = ready := by
    rw [Ledger.ready_shard, Ledger.run_shard]
  have hadmits := CandleShard.admits_of_ok hok
  have hactive : ready.active = some f.session := CandleShard.ready_active hadmits
  rw [CandleShard.feed_eq hadmits] at hok
  have hheld := hready.held
  rw [hshard] at hheld
  refine ⟨fun hchecked => hchecked.held hmasks (hshard ▸ hready.embeds) hok, hheld, ?_⟩
  intro huntouched
  obtain ⟨hcounted, hcount⟩ := hready.follows huntouched
  refine ⟨fun g hg => ⟨?_, ?_⟩, ?_, ?_⟩
  · have hsession := hready.sessions g hg
    rw [hshard, hactive] at hsession
    exact (Option.some.inj hsession).symm
  · have hmem : g ∈ (Ledger.run s calls).fed := by
      unfold account Ledger.ready at hg
      split_ifs at hg
      · cases hg
      · exact hg
    exact Ledger.run_returned s calls g hmem
  · have hreplay := hready.replay huntouched
    rwa [hshard, hactive] at hreplay
  · intro hfollows layer hmem
    rw [hheld hcounted layer hmem, hcount _ hfollows]

/-- A prompt of two tokens and two more; and after a token at a position that was skipped to, two tokens
where the caches end. -/
theorem kv_alignment_third :
    let s := checkedShard 1 0 1
    let calls : List ShardCall :=
      [.feed ⟨true, 1, 0, .tokens [3, 4]⟩, .feed ⟨false, 1, 2, .tokens [5]⟩]
    let skips : List ShardCall :=
      [.feed ⟨true, 1, 0, .tokens [3]⟩, .feed ⟨false, 1, 7, .tokens [5]⟩]
    (∀ layer ∈ ((calls.foldl CandleShard.after s).ready ⟨false, 1, 3, .tokens [6]⟩).model.layers,
        layer.held (checkedPositions 1) = 3) ∧
      ∀ layer ∈ ((skips.foldl CandleShard.after s).ready ⟨false, 1, 2, .tokens [6, 7]⟩).model.layers,
        layer.held (checkedPositions 1) = 2 := by
  intro s calls skips
  have hopen : CandleShard.openFile (C := checked 1) () s.spec = .ok s := rfl
  have hok : ((calls.foldl CandleShard.after s).feed ⟨false, 1, 3, .tokens [6]⟩).result =
      .ok (.logits [180]) := rfl
  have hskips : ((skips.foldl CandleShard.after s).feed ⟨false, 1, 2, .tokens [6, 7]⟩).result =
      .ok (.logits [210]) := rfl
  have hmasks := checksMasks_checked 1
  refine ⟨?_, (kv_alignment (checkedPositions 1) hmasks hopen hskips).1 (by decide)⟩
  exact ((kv_alignment (checkedPositions 1) hmasks hopen hok).2.2 (Or.inr (Or.inl rfl))).2.2
    ⟨rfl, rfl, rfl⟩

/-- **A step of one position returns wherever it says it starts**: after one token, a token at position
7. -/
theorem decode_skips :
    let opened := checkedShard 1 0 1
    let s := opened.after (.feed ⟨true, 1, 0, .tokens [3]⟩)
    let f : Feed := ⟨false, 1, 7, .tokens [5]⟩
    CandleShard.openFile (C := checked 1) () opened.spec = .ok opened ∧
      (s.feed f).result = .ok (.logits [80]) ∧
      ∃ layer ∈ (s.ready f).model.layers, layer.held (checkedPositions 1) ≠ f.pos.toNat := by
  intro opened s f
  refine ⟨rfl, rfl, _, List.mem_cons_self, ?_⟩
  show 1 ≠ 7
  decide

end Engine

end Latticed
