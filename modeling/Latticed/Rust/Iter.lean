import Mathlib.Algebra.BigOperators.Intervals
import Mathlib.Algebra.Order.BigOperators.Group.Finset
import Mathlib.Data.List.Basic

/-!
# Iterators and running sums

`minBy` and `maxBy` are `Iterator::min_by` and `max_by`: their comparison is an arbitrary function, and
only `maxBy_eq_some` needs it to follow an order.  The other results are about `take_while` on a list
where the predicate, once false, stays false, about maps that are kept as lists of entries, and about the
running sums and running counts a sliding window works with.
-/

namespace Latticed

namespace Rust

variable {α : Type*}

/-! ### `min_by`, `max_by` and `take_while` -/

/-- The least element by `compare`; of several least ones the first. -/
def minBy (compare : α → α → Ordering) : List α → Option α
  | [] => none
  | x :: xs => some (xs.foldl (fun best y => if compare best y = .gt then y else best) x)

theorem foldl_best_mem (compare : α → α → Ordering) (xs : List α) (x : α) :
    xs.foldl (fun best y => if compare best y = .gt then y else best) x ∈ x :: xs := by
  induction xs generalizing x with
  | nil => simp
  | cons y ys ih =>
    rw [List.foldl_cons]
    split_ifs with h
    · exact List.mem_cons_of_mem _ (ih y)
    · rcases List.mem_cons.1 (ih x) with hx | hx
      · rw [hx]; exact List.mem_cons_self
      · exact List.mem_cons_of_mem _ (List.mem_cons_of_mem _ hx)

/-- Whatever the comparison answers, the chosen element is one of the list. -/
theorem minBy_mem {compare : α → α → Ordering} {xs : List α} {x : α}
    (h : minBy compare xs = some x) : x ∈ xs := by
  cases xs with
  | nil => cases h
  | cons y ys =>
    obtain rfl := Option.some.inj h
    exact foldl_best_mem compare ys y

theorem minBy_eq_none {compare : α → α → Ordering} {xs : List α} :
    minBy compare xs = none ↔ xs = [] := by
  cases xs <;> simp [minBy]

/-- `Iterator::max_by`: the greatest element by `compare`; of several greatest ones the last. -/
def maxBy (compare : α → α → Ordering) : List α → Option α
  | [] => none
  | x :: xs => some (xs.foldl (fun best y => if compare best y = .gt then best else y) x)

/-- The loop of `max_by` ends with the last of the greatest elements. -/
theorem foldl_last_greatest {κ : Type*} [LinearOrder κ] {compare : α → α → Ordering} {key : α → κ}
    (hkey : ∀ a b, compare a b = .gt ↔ key b < key a) (xs : List α) (x : α) :
    ∃ before best after, x :: xs = before ++ best :: after ∧
      xs.foldl (fun best y => if compare best y = .gt then best else y) x = best ∧
      (∀ y ∈ before, key y ≤ key best) ∧ ∀ y ∈ after, key y < key best := by
  induction xs using List.reverseRecOn with
  | nil => exact ⟨[], x, [], rfl, rfl, fun y h => (by cases h), fun y h => (by cases h)⟩
  | append_singleton xs z ih =>
    obtain ⟨before, best, after, hsplit, hbest, hbefore, hafter⟩ := ih
    rw [List.foldl_append, hbest, List.foldl_cons, List.foldl_nil]
    by_cases hz : key z < key best
    · rw [if_pos ((hkey best z).2 hz)]
      refine ⟨before, best, after ++ [z], ?_, rfl, hbefore, fun y hy => ?_⟩
      · rw [← List.cons_append, hsplit, List.append_assoc, List.cons_append]
      · rcases List.mem_append.1 hy with hy | hy
        · exact hafter y hy
        · rwa [List.mem_singleton.1 hy]
    · rw [if_neg fun hgt => hz ((hkey best z).1 hgt)]
      have hle := not_lt.1 hz
      refine ⟨x :: xs, z, [], by simp, rfl, fun y hy => ?_, fun y hy => (by cases hy)⟩
      rw [hsplit] at hy
      rcases List.mem_append.1 hy with hy | hy
      · exact (hbefore y hy).trans hle
      · rcases List.mem_cons.1 hy with rfl | hy
        · exact hle
        · exact (hafter y hy).le.trans hle

/-- **`max_by` finds the last of the greatest elements.** -/
theorem maxBy_eq_some {κ : Type*} [LinearOrder κ] {compare : α → α → Ordering} {key : α → κ}
    (hkey : ∀ a b, compare a b = .gt ↔ key b < key a) {xs : List α} {best : α}
    (h : maxBy compare xs = some best) :
    ∃ before after, xs = before ++ best :: after ∧ (∀ y ∈ before, key y ≤ key best) ∧
      ∀ y ∈ after, key y < key best := by
  cases xs with
  | nil => cases h
  | cons x xs =>
    obtain ⟨before, best', after, hsplit, hbest, hbefore, hafter⟩ := foldl_last_greatest hkey xs x
    obtain rfl : best' = best := hbest.symm.trans (Option.some.inj h)
    exact ⟨before, after, hsplit, hbefore, hafter⟩

/-- When the predicate never comes back, `take_while` is a filter. -/
theorem mem_takeWhile_iff {p : α → Bool} {xs : List α}
    (hp : xs.Pairwise fun x y => p y = true → p x = true) {x : α} :
    x ∈ xs.takeWhile p ↔ x ∈ xs ∧ p x = true := by
  induction xs with
  | nil => simp
  | cons y ys ih =>
    obtain ⟨hy, hys⟩ := List.pairwise_cons.1 hp
    by_cases h : p y = true
    · rw [List.takeWhile_cons_of_pos h, List.mem_cons, List.mem_cons, ih hys]
      constructor
      · rintro (rfl | ⟨hx, hpx⟩)
        · exact ⟨Or.inl rfl, h⟩
        · exact ⟨Or.inr hx, hpx⟩
      · rintro ⟨rfl | hx, hpx⟩
        · exact Or.inl rfl
        · exact Or.inr ⟨hx, hpx⟩
    · rw [List.takeWhile_cons_of_neg h]
      simp only [List.not_mem_nil, List.mem_cons, false_iff, not_and]
      rintro (rfl | hx) hpx
      · exact h hpx
      · exact h (hy x hx hpx)

/-! ### Maps, as lists of entries -/

section

variable {κ β : Type*} [DecidableEq κ] {entries : List (κ × β)} {k : κ} {b : β}

theorem lookup_of_mem (hkeys : (entries.map Prod.fst).Nodup) (h : (k, b) ∈ entries) :
    entries.lookup k = some b := by
  induction entries with
  | nil => cases h
  | cons entry rest ih =>
    obtain ⟨k', b'⟩ := entry
    rw [List.map_cons, List.nodup_cons] at hkeys
    rcases List.mem_cons.1 h with heq | h
    · cases heq
      exact List.lookup_cons_self
    · have hne : k ≠ k' := fun heq => hkeys.1 (List.mem_map.2 ⟨_, h, heq⟩)
      rw [List.lookup_cons, beq_false_of_ne hne]
      exact ih hkeys.2 h

theorem mem_of_lookup_eq_some (h : entries.lookup k = some b) : (k, b) ∈ entries := by
  obtain ⟨before, after, rfl, -⟩ := List.lookup_eq_some_iff.1 h
  simp

/-- What some keys have adds up to no more than what they all have. -/
theorem sum_lookup_le (f : κ → β → ℕ) (s : Finset κ) (entries : List (κ × β)) :
    ∑ k ∈ s, ((entries.lookup k).map (f k)).getD 0 ≤
      ((entries.filter fun e => e.1 ∈ s).map fun e => f e.1 e.2).sum := by
  induction entries generalizing s with
  | nil => simp
  | cons entry rest ih =>
    obtain ⟨k', b'⟩ := entry
    have hother {k : κ} (hk : k ≠ k') : ((k', b') :: rest).lookup k = rest.lookup k := by
      rw [List.lookup_cons, beq_false_of_ne hk]
    by_cases hmem : k' ∈ s
    · rw [← Finset.add_sum_erase s _ hmem, List.lookup_cons_self,
        List.filter_cons_of_pos (by simpa using hmem), List.map_cons, List.sum_cons]
      refine Nat.add_le_add_left ?_ _
      calc ∑ k ∈ s.erase k', ((((k', b') :: rest).lookup k).map (f k)).getD 0
        _ = ∑ k ∈ s.erase k', ((rest.lookup k).map (f k)).getD 0 :=
          Finset.sum_congr rfl fun k hk => by rw [hother (Finset.ne_of_mem_erase hk)]
        _ ≤ ∑ k ∈ s, ((rest.lookup k).map (f k)).getD 0 :=
          Finset.sum_le_sum_of_subset (Finset.erase_subset k' s)
        _ ≤ _ := ih s
    · rw [List.filter_cons_of_neg (by simpa using hmem)]
      refine (Finset.sum_congr rfl fun k hk => ?_).trans_le (ih s)
      rw [hother fun heq => hmem (heq ▸ hk)]

end

/-! ### Sums over parts of a list -/

/-- The terms of a list from one position to another. -/
theorem sum_drop_take (f : α → ℕ) (g : ℕ → ℕ) {xs : List α} (h : ∀ i x, xs[i]? = some x → f x = g i)
    {i j : ℕ} (hj : j ≤ xs.length) :
    (((xs.take j).drop i).map f).sum = ∑ l ∈ Finset.Ico i j, g l := by
  induction j with
  | zero => simp
  | succ j ih =>
    rcases Nat.lt_or_ge j i with hlt | hle
    · rw [Finset.Ico_eq_empty_of_le hlt, Finset.sum_empty,
        List.drop_of_length_le ((List.length_take_le _ _).trans hlt), List.map_nil, List.sum_nil]
    · have hget := List.getElem?_eq_getElem (show j < xs.length from hj)
      rw [Finset.sum_Ico_succ_top hle, ← ih (Nat.le_of_succ_le hj), List.take_add_one, hget,
        Option.toList_some, List.drop_append_of_le_length (by rw [List.length_take]; omega),
        List.map_append, List.sum_append, List.map_singleton, List.sum_singleton, h j _ hget]

/-- Two kinds of terms that exclude each other. -/
theorem sum_filter_add_le (f : α → ℕ) (p q : α → Bool) (xs : List α)
    (h : ∀ x ∈ xs, p x = true → q x = false) :
    ((xs.filter p).map f).sum + ((xs.filter q).map f).sum ≤ (xs.map f).sum := by
  induction xs with
  | nil => simp
  | cons x xs ih =>
    have hrest := ih fun y hy => h y (List.mem_cons_of_mem _ hy)
    have hx := h x List.mem_cons_self
    rw [List.filter_cons, List.filter_cons, List.map_cons, List.sum_cons]
    cases hp : p x with
    | true =>
      rw [hx hp]
      simp only [if_true, Bool.false_eq_true, if_false, List.map_cons, List.sum_cons]
      omega
    | false =>
      cases q x with
      | true =>
        simp only [if_true, Bool.false_eq_true, if_false, List.map_cons, List.sum_cons]
        omega
      | false =>
        simp only [Bool.false_eq_true, if_false]
        omega

/-! ### Running sums -/

/-- The `i`-th running sum is the sum of the first `i` terms. -/
theorem getD_scanl_add (f : α → ℕ) (xs : List α) (d : α) {i : ℕ} (hi : i ≤ xs.length) :
    (xs.scanl (fun sum x => sum + f x) 0).getD i 0 = ∑ l ∈ Finset.range i, f (xs.getD l d) := by
  induction i with
  | zero => cases xs <;> simp
  | succ i ih =>
    have hlt : i < xs.length := hi
    have hi' := ih hlt.le
    rw [List.getD_eq_getElem?_getD, List.getElem?_scanl, if_pos hlt.le] at hi'
    rw [List.getD_eq_getElem?_getD, List.getElem?_scanl, if_pos hi, Finset.sum_range_succ, ← hi',
      List.take_succ_eq_append_getElem hlt, List.foldl_append]
    simp [List.getD_eq_getElem?_getD, hlt]

/-- The difference of two running sums is the sum of the terms between them. -/
theorem getD_scanl_add_sub (f : α → ℕ) (xs : List α) (d : α) {i j : ℕ} (hij : i ≤ j)
    (hj : j ≤ xs.length) :
    (xs.scanl (fun sum x => sum + f x) 0).getD j 0 - (xs.scanl (fun sum x => sum + f x) 0).getD i 0 =
      ∑ l ∈ Finset.Ico i j, f (xs.getD l d) := by
  rw [getD_scanl_add f xs d hj, getD_scanl_add f xs d (hij.trans hj), Finset.range_eq_Ico,
    ← Finset.sum_Ico_consecutive _ (Nat.zero_le i) hij, Finset.range_eq_Ico, Nat.add_sub_cancel_left]

/-- A running count grows between two positions iff something is counted between them. -/
theorem running_count_lt_iff {bs : List Bool} {i j : ℕ} (hij : i ≤ j) (hj : j ≤ bs.length) :
    (bs.scanl (fun n b => n + b.toNat) 0).getD i 0 < (bs.scanl (fun n b => n + b.toNat) 0).getD j 0 ↔
      ∃ e, i ≤ e ∧ e < j ∧ bs.getD e false = true := by
  rw [← Nat.sub_pos_iff_lt, getD_scanl_add_sub Bool.toNat bs false hij hj]
  constructor
  · intro h
    obtain ⟨e, he, hpos⟩ := Finset.exists_ne_zero_of_sum_ne_zero h.ne'
    obtain ⟨hie, hej⟩ := Finset.mem_Ico.1 he
    refine ⟨e, hie, hej, ?_⟩
    cases hb : bs.getD e false with
    | true => rfl
    | false => exact absurd (by rw [hb]; rfl) hpos
  · rintro ⟨e, hie, hej, he⟩
    refine Finset.sum_pos' (fun _ _ => Nat.zero_le _) ⟨e, Finset.mem_Ico.2 ⟨hie, hej⟩, ?_⟩
    rw [he]
    exact Nat.one_pos

end Rust

end Latticed
