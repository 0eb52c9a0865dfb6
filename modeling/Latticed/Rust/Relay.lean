import Mathlib.Data.List.Chain
import Mathlib.Data.List.Forall2
import Mathlib.Data.List.Basic

/-!
# Handing a value through a list of machines

The loop `for s in self.parts.iter_mut() { x = s.run(x)?; }` hands a value through the parts one
after the other, lets each of them change its own state and a state they share, and stops at the
first error.  `relay` is that loop.

* `relay_fits` : when every part keeps fitting its place and does what its place expects, so does
  the whole list.
* `relay_linked` : a value that gets through was acceptable to every part on its way.
* `relay_ok` : it gets through when every part accepts what the one before it yields.
* `relay_append_ok` : two lists of parts in a row are one relay after the other.
* `handed_takes` : no part of a well-typed list is ever handed what it does not take.
* `relay_simulates` : parts that share a state answer as parts that do not, when each of them uses a
  place of its own in it.
* `Refines.relay_ok` : when every part answers as its counterpart, but only where that is allowed, so
  does the whole list.
-/

namespace Latticed

namespace Rust

/-- Each element on the left is related to one on the right. -/
theorem forall₂_exists {α β : Type*} {R : α → β → Prop} {xs : List α} {ys : List β}
    (h : List.Forall₂ R xs ys) {x : α} (hx : x ∈ xs) : ∃ y ∈ ys, R x y := by
  induction h with
  | nil => cases hx
  | cons hhead _ ih =>
    rcases List.mem_cons.1 hx with rfl | hx
    · exact ⟨_, List.mem_cons_self, hhead⟩
    · obtain ⟨y, hy, hxy⟩ := ih hx
      exact ⟨y, List.mem_cons_of_mem _ hy, hxy⟩

/-- Each element on the right is related to the one in its place on the left. -/
theorem forall₂_getElem? {α β : Type*} {R : α → β → Prop} {xs : List α} {ys : List β}
    (h : List.Forall₂ R xs ys) {i : ℕ} {y : β} (hy : ys[i]? = some y) :
    ∃ x, xs[i]? = some x ∧ R x y := by
  obtain ⟨hi, rfl⟩ := List.getElem?_eq_some_iff.1 hy
  have hi' : i < xs.length := hi.trans_eq h.length_eq.symm
  exact ⟨xs[i], List.getElem?_eq_getElem hi', h.get hi' hi⟩

/-- A call of a `&mut self` method: what it returns and what it leaves.  `trace` is not in the
source: it says what the call did on its way. -/
structure Call (S T ε α : Type*) where
  result : Except ε α
  state : S
  trace : List T

variable {S S' T W ε ε' α β τ : Type*}

/-- A call that does nothing but return. -/
def Call.pure (result : Except ε α) (state : S) : Call S T ε α := ⟨result, state, []⟩

/-- A call made on behalf of a caller, who keeps the state in its own and goes on with the result. -/
def Call.lift (keep : S → S') (next : Except ε α → Except ε' β) (call : Call S T ε α) :
    Call S' T ε' β :=
  ⟨next call.result, keep call.state, call.trace⟩

@[simp] theorem Call.pure_result (r : Except ε α) (s : S) :
    (Call.pure r s : Call S T ε α).result = r := rfl
@[simp] theorem Call.pure_state (r : Except ε α) (s : S) :
    (Call.pure r s : Call S T ε α).state = s := rfl
@[simp] theorem Call.pure_trace (r : Except ε α) (s : S) :
    (Call.pure r s : Call S T ε α).trace = [] := rfl
@[simp] theorem Call.lift_result (keep : S → S') (next : Except ε α → Except ε' β)
    (c : Call S T ε α) : (c.lift keep next).result = next c.result := rfl
@[simp] theorem Call.lift_state (keep : S → S') (next : Except ε α → Except ε' β)
    (c : Call S T ε α) : (c.lift keep next).state = keep c.state := rfl
@[simp] theorem Call.lift_trace (keep : S → S') (next : Except ε α → Except ε' β)
    (c : Call S T ε α) : (c.lift keep next).trace = c.trace := rfl

/-- The loop: each part runs on what the part before it returned. -/
def relay (run : S → W → α → Call (S × W) T ε α) :
    List S → W → α → Call (List S × W) T ε α
  | [], w, x => .pure (.ok x) ([], w)
  | s :: rest, w, x =>
    let call := run s w x
    match call.result with
    | .error e => ⟨.error e, (call.state.1 :: rest, call.state.2), call.trace⟩
    | .ok y =>
      let after := relay run rest call.state.2 y
      ⟨after.result, (call.state.1 :: after.state.1, after.state.2), call.trace ++ after.trace⟩

variable {run : S → W → α → Call (S × W) T ε α} {Fits : τ → S → W → Prop}
  {plan : List τ} {parts : List S} {w : W} {x : α}

/-- Parts that fit their places, when the shared state is `w`. -/
abbrev AllFit (Fits : τ → S → W → Prop) (plan : List τ) (parts : List S) (w : W) : Prop :=
  List.Forall₂ (fun p s => Fits p s w) plan parts

/-- What no part changes of the shared state, a run does not change. -/
theorem relay_shared {β : Type*} {view : W → β} (hrun : ∀ s w x, view (run s w x).state.2 = view w)
    (parts : List S) (w : W) (x : α) : view (relay run parts w x).state.2 = view w := by
  induction parts generalizing w x with
  | nil => rfl
  | cons s rest ih =>
    rw [relay]
    cases (run s w x).result with
    | error e => exact hrun s w x
    | ok y => exact (ih _ y).trans (hrun s w x)

/-- **A run keeps every part in its place**, and does what the places expect one after the other. -/
theorem relay_fits {expected : τ → List T}
    (hrun : ∀ p s w x, Fits p s w → Fits p (run s w x).state.1 (run s w x).state.2 ∧
      ∀ y, (run s w x).result = .ok y → (run s w x).trace = expected p)
    (hframe : ∀ p s w x, Fits p s w → ∀ q t, Fits q t w → Fits q t (run s w x).state.2)
    (h : AllFit Fits plan parts w) :
    AllFit Fits plan (relay run parts w x).state.1 (relay run parts w x).state.2 ∧
      ∀ y, (relay run parts w x).result = .ok y →
        (relay run parts w x).trace = plan.flatMap expected := by
  -- what fits the shared state at some point of the run still fits it at the end
  suffices hall : (∀ q t, Fits q t w → Fits q t (relay run parts w x).state.2) ∧
      AllFit Fits plan (relay run parts w x).state.1 (relay run parts w x).state.2 ∧
      ∀ y, (relay run parts w x).result = .ok y →
        (relay run parts w x).trace = plan.flatMap expected from hall.2
  induction plan generalizing parts w x with
  | nil =>
    cases h
    exact ⟨fun q t h => h, .nil, fun y _ => rfl⟩
  | cons p plan ih =>
    obtain _ | @⟨_, s, _, parts, hfit, hrest⟩ := h
    obtain ⟨hfit', htrace⟩ := hrun p s w x hfit
    have hstep := hframe p s w x hfit
    rw [relay]
    cases hres : (run s w x).result with
    | error e => exact ⟨hstep, .cons hfit' (hrest.imp hstep), fun y hy => by cases hy⟩
    | ok y =>
      obtain ⟨hkeep, hparts, htraces⟩ := @ih _ _ y (hrest.imp hstep)
      refine ⟨fun q t h => hkeep q t (hstep q t h), .cons (hkeep p _ hfit') hparts, ?_⟩
      intro z hz
      show (run s w x).trace ++ _ = _
      rw [htrace y hres, htraces z hz, List.flatMap_cons]

/-- A value may start at the first place, and every place may yield what the next one takes. -/
def Linked (Takes Yields : τ → α → Prop) : List τ → α → Prop
  | [], _ => True
  | p :: rest, x => Takes p x ∧ ∃ y, Yields p y ∧ Linked Takes Yields rest y

variable {Takes Yields : τ → α → Prop}

/-- **A value that gets through a relay was taken at every place.** -/
theorem relay_linked
    (hrun : ∀ p s w x y, Fits p s w → (run s w x).result = .ok y → Takes p x ∧ Yields p y)
    (hframe : ∀ p s w x, Fits p s w → ∀ q t, Fits q t w → Fits q t (run s w x).state.2)
    (h : AllFit Fits plan parts w) {y : α} (hok : (relay run parts w x).result = .ok y) :
    Linked Takes Yields plan x := by
  induction plan generalizing parts w x with
  | nil => trivial
  | cons p plan ih =>
    obtain _ | @⟨_, s, _, parts, hfit, hrest⟩ := h
    rw [relay] at hok
    cases hres : (run s w x).result with
    | error e => rw [hres] at hok; cases hok
    | ok z =>
      rw [hres] at hok
      obtain ⟨htakes, hyields⟩ := hrun p s w x z hfit hres
      exact ⟨htakes, z, hyields, ih (hrest.imp (hframe p s w x hfit)) hok⟩

/-- **A value gets through a relay** whose parts take what their places take. -/
theorem relay_ok
    (hrun : ∀ p s w x, Fits p s w → Takes p x → ∃ y, (run s w x).result = .ok y ∧ Yields p y)
    (hsame : ∀ p x y, Yields p x → Yields p y → ∀ q, Takes q x → Takes q y)
    (hframe : ∀ p s w x, Fits p s w → ∀ q t, Fits q t w → Fits q t (run s w x).state.2)
    (h : AllFit Fits plan parts w) (hlinked : Linked Takes Yields plan x) :
    ∃ y, (relay run parts w x).result = .ok y := by
  induction plan generalizing parts w x with
  | nil =>
    cases h
    exact ⟨x, rfl⟩
  | cons p plan ih =>
    obtain _ | @⟨_, s, _, parts, hfit, hrest⟩ := h
    obtain ⟨htakes, y, hyields, hlinked⟩ := hlinked
    obtain ⟨z, hz, hyields'⟩ := hrun p s w x hfit htakes
    have hlinked' : Linked Takes Yields plan z := by
      cases plan with
      | nil => trivial
      | cons q plan => exact ⟨hsame p y z hyields hyields' q hlinked.1, hlinked.2⟩
    obtain ⟨out, hout⟩ := ih (hrest.imp (hframe p s w x hfit)) hlinked'
    refine ⟨out, ?_⟩
    rw [relay, hz]
    exact hout

theorem relay_cons_ok {s : S} {z : α} : (relay run (s :: parts) w x).result = .ok z ↔
    ∃ y, (run s w x).result = .ok y ∧
      (relay run parts (run s w x).state.2 y).result = .ok z := by
  rw [relay]
  cases (run s w x).result with
  | error e => simp
  | ok y => simp

theorem relay_cons_state {s : S} {y : α} (h : (run s w x).result = .ok y) :
    (relay run (s :: parts) w x).state.1 =
      (run s w x).state.1 :: (relay run parts (run s w x).state.2 y).state.1 := by
  rw [relay, h]

/-- **A value gets through two lists in a row** iff it gets through the first, and what comes out of
that through the second. -/
theorem relay_append_ok {more : List S} {z : α} :
    (relay run (parts ++ more) w x).result = .ok z ↔
      ∃ y, (relay run parts w x).result = .ok y ∧
        (relay run more (relay run parts w x).state.2 y).result = .ok z := by
  induction parts generalizing w x with
  | nil =>
    constructor
    · intro h
      exact ⟨x, rfl, h⟩
    · rintro ⟨y, hy, h⟩
      cases hy
      exact h
  | cons s rest ih =>
    rw [List.cons_append, relay, relay]
    cases (run s w x).result with
    | error e => simp
    | ok y => exact ih

/-- What two lists in a row leave. -/
theorem relay_append_state {more : List S} {y : α} (h : (relay run parts w x).result = .ok y) :
    (relay run (parts ++ more) w x).state.1 = (relay run parts w x).state.1 ++
      (relay run more (relay run parts w x).state.2 y).state.1 := by
  induction parts generalizing w x with
  | nil =>
    cases h
    rfl
  | cons s rest ih =>
    rw [relay] at h
    rw [List.cons_append, relay, relay]
    cases hs : (run s w x).result with
    | error e =>
      rw [hs] at h
      cases h
    | ok z =>
      rw [hs] at h
      dsimp only at h ⊢
      rw [List.cons_append, ih h]

/-- A chain of parts that never fail never fails. -/
theorem relay_total (hrun : ∀ s w x, ∃ y, (run s w x).result = .ok y) (parts : List S) (w : W)
    (x : α) : ∃ y, (relay run parts w x).result = .ok y := by
  induction parts generalizing w x with
  | nil => exact ⟨x, rfl⟩
  | cons s rest ih =>
    obtain ⟨y, hy⟩ := hrun s w x
    rw [relay, hy]
    exact ih _ y

/-! ### What the parts are handed -/

/-- The parts a relay reaches, each with the shared state and the value it is handed. -/
def handed (run : S → W → α → Call (S × W) T ε α) : List S → W → α → List (S × W × α)
  | [], _, _ => []
  | s :: rest, w, x =>
    (s, w, x) :: match (run s w x).result with
      | .error _ => []
      | .ok y => handed run rest (run s w x).state.2 y

/-- **Every part that is reached is handed what its place takes**, when the first place takes the value
the relay starts with and each place yields what the next one takes. -/
theorem handed_takes
    (hrun : ∀ p s w x y, Fits p s w → Takes p x → (run s w x).result = .ok y → Yields p y)
    (hframe : ∀ p s w x, Fits p s w → ∀ q t, Fits q t w → Fits q t (run s w x).state.2)
    (hnext : plan.IsChain fun p q => ∀ y, Yields p y → Takes q y) (h : AllFit Fits plan parts w)
    (hfirst : ∀ p, plan.head? = some p → Takes p x) {i : ℕ} {s : S} {w' : W} {x' : α}
    (hreached : (handed run parts w x)[i]? = some (s, w', x')) :
    ∃ p, plan[i]? = some p ∧ Fits p s w' ∧ Takes p x' := by
  induction plan generalizing parts w x i with
  | nil =>
    cases h
    cases hreached
  | cons p plan ih =>
    obtain _ | @⟨_, t, _, parts, hfit, hrest⟩ := h
    have htakes := hfirst p rfl
    rw [handed] at hreached
    cases i with
    | zero =>
      cases hreached
      exact ⟨p, rfl, hfit, htakes⟩
    | succ i =>
      rw [List.getElem?_cons_succ] at hreached
      cases hres : (run t w x).result with
      | error e =>
        rw [hres] at hreached
        cases hreached
      | ok y =>
        rw [hres] at hreached
        have hyields := hrun p t w x y hfit htakes hres
        obtain ⟨hchain, hnext⟩ := List.isChain_cons.1 hnext
        exact ih hnext (hrest.imp (hframe p t w x hfit))
          (fun q hq => hchain q hq y hyields) hreached

/-- A relay that returns, returns what its last part does. -/
theorem relay_handed {z : α} (hne : parts ≠ []) (h : (relay run parts w x).result = .ok z) :
    ∃ i s w' x', i + 1 = parts.length ∧ (handed run parts w x)[i]? = some (s, w', x') ∧
      (run s w' x').result = .ok z := by
  induction parts generalizing w x with
  | nil => exact absurd rfl hne
  | cons s rest ih =>
    obtain ⟨y, hy, hrest⟩ := relay_cons_ok.1 h
    by_cases hnil : rest = []
    · subst hnil
      obtain rfl : y = z := Except.ok.inj hrest
      exact ⟨0, s, w, x, rfl, rfl, hy⟩
    · obtain ⟨i, t, w', x', hlast, hreached, hz⟩ := ih hnil hrest
      refine ⟨i + 1, t, w', x', congrArg (· + 1) hlast, ?_, hz⟩
      rw [handed, hy, List.getElem?_cons_succ]
      exact hreached

/-! ### Two relays -/

/-- **Parts that share a state answer as parts that share nothing**, when each of them answers as its
counterpart and leaves alone the places of the others. -/
theorem relay_simulates {T' ι : Type*} {run' : S' → Unit → α → Call (S' × Unit) T' ε' α}
    {Rel : S → W → S' → Prop} {place : S → Option ι}
    (hstep : ∀ s w s' x, Rel s w s' →
      (run s w x).result.toOption = (run' s' () x).result.toOption ∧
        Rel (run s w x).state.1 (run s w x).state.2 (run' s' () x).state.1)
    (hplace : ∀ s w x, place (run s w x).state.1 = place s)
    (hframe : ∀ s w x t t', (∀ i, place t = some i → place s ≠ some i) → Rel t w t' →
      Rel t (run s w x).state.2 t')
    {parts' : List S'} (hdistinct : (parts.filterMap place).Nodup)
    (h : List.Forall₂ (fun s s' => Rel s w s') parts parts') (x : α) :
    let call := relay run parts w x
    let call' := relay run' parts' () x
    call.result.toOption = call'.result.toOption ∧
      List.Forall₂ (fun s s' => Rel s call.state.2 s') call.state.1 call'.state.1 ∧
      call.state.1.filterMap place = parts.filterMap place := by
  -- a part that is not in the list keeps its counterpart
  suffices hall : (relay run parts w x).result.toOption = (relay run' parts' () x).result.toOption ∧
      List.Forall₂ (fun s s' => Rel s (relay run parts w x).state.2 s')
        (relay run parts w x).state.1 (relay run' parts' () x).state.1 ∧
      (relay run parts w x).state.1.map place = parts.map place ∧
      ∀ t t', (∀ i, place t = some i → i ∉ parts.filterMap place) → Rel t w t' →
        Rel t (relay run parts w x).state.2 t' by
    refine ⟨hall.1, hall.2.1, ?_⟩
    have hplaces := congrArg (List.filterMap id) hall.2.2.1
    rwa [List.filterMap_map, List.filterMap_map] at hplaces
  induction parts generalizing parts' w x with
  | nil =>
    cases h
    exact ⟨rfl, .nil, rfl, fun t t' _ ht => ht⟩
  | cons s rest ih =>
    obtain _ | @⟨_, s', _, rest', hs, hrest⟩ := h
    obtain ⟨hsame, hrel⟩ := hstep s w s' x hs
    have hmem : ∀ i, place s = some i → i ∉ rest.filterMap place ∧ (rest.filterMap place).Nodup := by
      intro i hi
      rw [List.filterMap_cons_some hi] at hdistinct
      exact ⟨(List.nodup_cons.1 hdistinct).1, (List.nodup_cons.1 hdistinct).2⟩
    have hnodup : (rest.filterMap place).Nodup := by
      cases hi : place s with
      | none => rwa [List.filterMap_cons_none hi] at hdistinct
      | some i => exact (hmem i hi).2
    have hapart : ∀ t ∈ rest, ∀ i, place t = some i → place s ≠ some i := fun t ht i hi hsi =>
      (hmem i hsi).1 (List.mem_filterMap.2 ⟨t, ht, hi⟩)
    have hrest' : List.Forall₂ (fun t t' => Rel t (run s w x).state.2 t') rest rest' := by
      refine List.forall₂_iff_zip.2 ⟨hrest.length_eq, fun {t t'} ht => ?_⟩
      exact hframe s w x t t' (hapart t (List.of_mem_zip ht).1) ((List.forall₂_iff_zip.1 hrest).2 ht)
    have hother : ∀ t t', (∀ i, place t = some i → i ∉ (s :: rest).filterMap place) → Rel t w t' →
        Rel t (run s w x).state.2 t' := by
      intro t t' ht hrel
      refine hframe s w x t t' (fun i hi hsi => ht i hi ?_) hrel
      rw [List.filterMap_cons_some hsi]
      exact List.mem_cons_self
    rw [relay, relay]
    cases hres : (run s w x).result with
    | error e =>
      cases hres' : (run' s' () x).result with
      | ok y => rw [hres, hres'] at hsame; cases hsame
      | error e' =>
        refine ⟨rfl, .cons hrel hrest', ?_, hother⟩
        rw [List.map_cons, List.map_cons, hplace]
    | ok y =>
      cases hres' : (run' s' () x).result with
      | error e' => rw [hres, hres'] at hsame; cases hsame
      | ok y' =>
        rw [hres, hres'] at hsame
        obtain rfl : y = y' := Option.some.inj hsame
        obtain ⟨hans, hrels, hplaces, hkeep⟩ := ih hnodup hrest' y
        refine ⟨hans, .cons ?_ hrels, ?_, fun t t' ht hrel => ?_⟩
        · exact hkeep _ _ (fun i hi => (hmem i ((hplace s w x).symm.trans hi)).1) hrel
        · rw [List.map_cons, List.map_cons, hplace, hplaces]
        · refine hkeep t t' (fun i hi hin => ht i hi ?_) (hother t t' ht hrel)
          obtain ⟨u, hu, hui⟩ := List.mem_filterMap.1 hin
          exact List.mem_filterMap.2 ⟨u, List.mem_cons_of_mem _ hu, hui⟩

/-- A machine answers as the one it stands for, but only where it may, and then goes on to do so. -/
structure Refines (run' : S' → W → α → Call (S' × W) τ ε' α) (run : S → W → α → Call (S × W) T ε α)
    (bare : S' → S) (Ready : S' → Prop) (May : S → W → α → Prop) : Prop where
  answer : ∀ s w x y, Ready s → ((run' s w x).result = .ok y ↔
    (run (bare s) w x).result = .ok y ∧ May (bare s) w x)
  ready : ∀ s w x y, Ready s → (run' s w x).result = .ok y → Ready (run' s w x).state.1
  keeps : ∀ s w x y, Ready s → (run' s w x).result = .ok y →
    (bare (run' s w x).state.1, (run' s w x).state.2) = (run (bare s) w x).state

section

variable {run' : S' → W → α → Call (S' × W) τ ε' α} {bare : S' → S} {Ready : S' → Prop}
  {May : S → W → α → Prop} {parts' : List S'}

/-- **A relay of such machines answers as the relay of their counterparts**, if each of those that it
reaches may answer. -/
theorem Refines.relay_ok (hr : Refines run' run bare Ready May) (h : ∀ s ∈ parts', Ready s) {y : α} :
    (relay run' parts' w x).result = .ok y ↔ (relay run (parts'.map bare) w x).result = .ok y ∧
      ∀ r ∈ handed run (parts'.map bare) w x, May r.1 r.2.1 r.2.2 := by
  induction parts' generalizing w x with
  | nil => simp [relay, handed]
  | cons s rest ih =>
    obtain ⟨hs, hrest⟩ := List.forall_mem_cons.1 h
    rw [List.map_cons, relay_cons_ok, relay_cons_ok, handed, List.forall_mem_cons]
    constructor
    · rintro ⟨z, hz, hy⟩
      obtain ⟨hz', hmay⟩ := (hr.answer s w x z hs).1 hz
      rw [← hr.keeps s w x z hs hz, hz']
      obtain ⟨hy', hall⟩ := (ih hrest).1 hy
      exact ⟨⟨z, rfl, hy'⟩, hmay, hall⟩
    · rintro ⟨⟨z, hz, hy⟩, hmay, hall⟩
      have hz' := (hr.answer s w x z hs).2 ⟨hz, hmay⟩
      rw [hz] at hall
      rw [← hr.keeps s w x z hs hz'] at hy hall
      exact ⟨z, hz', (ih hrest).2 ⟨hy, hall⟩⟩

/-- What such a relay leaves. -/
theorem Refines.relay_state (hr : Refines run' run bare Ready May) (h : ∀ s ∈ parts', Ready s) {y : α}
    (hok : (relay run' parts' w x).result = .ok y) :
    (∀ s ∈ (relay run' parts' w x).state.1, Ready s) ∧
      ((relay run' parts' w x).state.1.map bare, (relay run' parts' w x).state.2) =
        (relay run (parts'.map bare) w x).state := by
  induction parts' generalizing w x with
  | nil => exact ⟨fun s hs => (by cases hs), rfl⟩
  | cons s rest ih =>
    obtain ⟨hs, hrest⟩ := List.forall_mem_cons.1 h
    obtain ⟨z, hz, hy⟩ := relay_cons_ok.1 hok
    obtain ⟨hz', -⟩ := (hr.answer s w x z hs).1 hz
    obtain ⟨hready, hstate⟩ := ih hrest hy
    have hkeep := hr.keeps s w x z hs hz
    rw [List.map_cons, relay, relay, hz, hz']
    dsimp only
    rw [← hkeep, ← hstate]
    exact ⟨List.forall_mem_cons.2 ⟨hr.ready s w x z hs hz, hready⟩, rfl⟩

end

end Rust

end Latticed
