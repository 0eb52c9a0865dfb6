import Mathlib.Data.List.Basic
import Mathlib.Data.List.Induction
import Std.Data.ExtTreeMap

/-!
# Maps that are kept by events

A map is kept while events come in: an event writes an entry, erases one, or does nothing.  What the
map holds for a key is what the last event wrote that was about this key.

* `lastWritten_filterMap`, `lastWritten_map` : events and entries that are made of others.
* `getElem?_replay` : an entry is there just if an event wrote it and no later one was about its key.
-/

namespace Latticed

variable {E K V : Type*} {effect : E → Option (K × Option V)} {events : List E} {k : K} {v : V}

/-- The value was written for the key, and nothing was done to the key after that. -/
def LastWritten (effect : E → Option (K × Option V)) (events : List E) (k : K) (v : V) : Prop :=
  ∃ before e after, events = before ++ e :: after ∧ effect e = some (k, some v) ∧
    ∀ e' ∈ after, ∀ w, effect e' ≠ some (k, w)

/-- One more event. -/
theorem lastWritten_concat {e : E} : LastWritten effect (events ++ [e]) k v ↔
    effect e = some (k, some v) ∨
      LastWritten effect events k v ∧ ∀ w, effect e ≠ some (k, w) := by
  constructor
  · rintro ⟨before, e', after, hsplit, heffect, hlater⟩
    obtain rfl | ⟨after', last, rfl⟩ := List.eq_nil_or_concat' after
    · obtain ⟨-, hlast⟩ := List.append_inj' hsplit rfl
      obtain rfl : e = e' := List.singleton_inj.1 hlast
      exact Or.inl heffect
    · rw [← List.cons_append, ← List.append_assoc] at hsplit
      obtain ⟨hinit, hlast⟩ := List.append_inj' hsplit rfl
      obtain rfl : e = last := List.singleton_inj.1 hlast
      refine Or.inr ⟨⟨before, e', after', hinit, heffect, fun x hx => ?_⟩, ?_⟩
      · exact hlater x (List.mem_append_left _ hx)
      · exact hlater e (List.mem_append_right _ List.mem_cons_self)
  · rintro (heffect | ⟨⟨before, e', after, rfl, heffect, hlater⟩, hlast⟩)
    · exact ⟨events, e, [], rfl, heffect, fun x hx => nomatch hx⟩
    · refine ⟨before, e', after ++ [e], by simp, heffect, fun x hx => ?_⟩
      rcases List.mem_append.1 hx with hx | hx
      · exact hlater x hx
      · obtain rfl := List.mem_singleton.1 hx
        exact hlast

/-- Events that are made of others. -/
theorem lastWritten_filterMap {E' : Type*} {f : E' → Option E} {events : List E'} :
    LastWritten effect (events.filterMap f) k v ↔
      LastWritten (fun e => (f e).bind effect) events k v := by
  induction events using List.reverseRecOn with
  | nil =>
    refine iff_of_false ?_ ?_
    all_goals
      rintro ⟨before, e, after, hsplit, -⟩
      simp at hsplit
  | append_singleton events e ih =>
    rw [List.filterMap_append, lastWritten_concat]
    cases hf : f e with
    | none => simp [hf, ih]
    | some e' => simp [hf, ih, lastWritten_concat]

/-- Entries that are made of others. -/
theorem lastWritten_map {V' : Type*} {g : V → V'} {v' : V'} :
    LastWritten (fun e => (effect e).map fun (k, w) => (k, w.map g)) events k v' ↔
      ∃ v, LastWritten effect events k v ∧ g v = v' := by
  have hnone {e : E} {k : K} : (∀ w, (effect e).map (fun (k, w) => (k, w.map g)) ≠ some (k, w)) ↔
      ∀ w, effect e ≠ some (k, w) := by
    refine ⟨fun h w heq => h (w.map g) (by rw [heq]; rfl), fun h w heq => ?_⟩
    obtain ⟨⟨k', w'⟩, heffect, hpair⟩ := Option.map_eq_some_iff.1 heq
    obtain ⟨rfl, -⟩ := Prod.mk.inj hpair
    exact h w' heffect
  constructor
  · rintro ⟨before, e, after, hsplit, heffect, hlater⟩
    obtain ⟨⟨k', w'⟩, hwritten, hpair⟩ := Option.map_eq_some_iff.1 heffect
    obtain ⟨rfl, hw⟩ := Prod.mk.inj hpair
    obtain ⟨v, rfl, rfl⟩ := Option.map_eq_some_iff.1 hw
    exact ⟨v, ⟨before, e, after, hsplit, hwritten, fun e' he' => hnone.1 (hlater e' he')⟩, rfl⟩
  · rintro ⟨v, ⟨before, e, after, hsplit, heffect, hlater⟩, rfl⟩
    refine ⟨before, e, after, hsplit, ?_, fun e' he' => hnone.2 (hlater e' he')⟩
    exact Option.map_eq_some_iff.2 ⟨_, heffect, rfl⟩

variable [Ord K] [Std.TransOrd K] [Std.LawfulEqOrd K]

/-- What an event does to a map: `some v` writes `v` for a key, `none` erases it. -/
def applyWrite (found : Std.ExtTreeMap K V) : Option (K × Option V) → Std.ExtTreeMap K V
  | none => found
  | some (k, some v) => found.insert k v
  | some (k, none) => found.erase k

/-- The map after some events. -/
def replay (effect : E → Option (K × Option V)) (events : List E) : Std.ExtTreeMap K V :=
  events.foldl (fun found e => applyWrite found (effect e)) ∅

theorem getElem?_applyWrite [DecidableEq K] (found : Std.ExtTreeMap K V)
    (change : Option (K × Option V)) (k : K) :
    (applyWrite found change)[k]? = match change with
      | none => found[k]?
      | some (k', w) => if k' = k then w else found[k]? := by
  rcases change with _ | ⟨k', _ | w⟩
  · rfl
  · simp [applyWrite, Std.ExtTreeMap.getElem?_erase, Std.LawfulEqCmp.compare_eq_iff_eq]
  · simp [applyWrite, Std.ExtTreeMap.getElem?_insert, Std.LawfulEqCmp.compare_eq_iff_eq]

/-- **The last write wins.** -/
theorem getElem?_replay [DecidableEq K] :
    (replay effect events)[k]? = some v ↔ LastWritten effect events k v := by
  induction events using List.reverseRecOn with
  | nil =>
    constructor
    · intro h
      simp [replay] at h
    · rintro ⟨before, e, after, hsplit, -⟩
      simp at hsplit
  | append_singleton events e ih =>
    rw [replay, List.foldl_concat, getElem?_applyWrite, lastWritten_concat, ← ih, replay]
    cases heffect : effect e with
    | none => simp
    | some change =>
      obtain ⟨k', w⟩ := change
      by_cases hk : k' = k
      · subst hk
        simp
      · simp [hk]

end Latticed
