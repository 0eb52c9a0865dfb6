import Latticed.Engine.Abi
import Latticed.Rust.Outcome
import Mathlib.Data.List.Sort

/-!
# A mixture of experts

A block with experts sends every position to a few of them, those that the router gives most weight, and
adds up what they make of it.  The source does not go through the positions: it lists for each expert
the positions that are sent to it, runs the expert on all of these at once, and adds the results to the
rows they belong to.

* `chosen_before` : a position is sent to the experts with the greatest weights, the first ones of those
  that tie.
* `assign_spec` : the lists of an expert are the positions that are sent to it, and their shares.
* `mixInto_rowwise` : the loop over the experts adds to every position the shares of its own experts.
* `experts_rowwise` : the block makes of every position what its own experts make of it.
-/

namespace Latticed

namespace Engine

open Rust

/-! ### Routing -/

/-- `sort_by`, the greatest weight first: the first expert need not come after the second. -/
def Prefers (rw : List F32) (i j : ℕ) : Prop := totalCmp (rw.getD j 0) (rw.getD i 0) ≠ .gt

instance (rw : List F32) : DecidableRel (Prefers rw) := fun _ _ => inferInstanceAs (Decidable (_ ≠ _))

/-- All experts, the one with the greatest weight first; the sort is stable. -/
def ranked (rw : List F32) : List ℕ := (List.range rw.length).insertionSort (Prefers rw)

/-- The experts that a position with these weights is sent to. -/
def chosen (used : ℕ) (rw : List F32) : List ℕ := (ranked rw).take used

variable {used n e i j : ℕ} {rw : List F32}

theorem ranked_perm (rw : List F32) : (ranked rw).Perm (List.range rw.length) :=
  List.perm_insertionSort _ _

theorem nodup_ranked (rw : List F32) : (ranked rw).Nodup :=
  (ranked_perm rw).nodup_iff.2 List.nodup_range

theorem nodup_chosen (used : ℕ) (rw : List F32) : (chosen used rw).Nodup :=
  (List.take_sublist _ _).nodup (nodup_ranked rw)

theorem lt_of_mem_chosen (h : e ∈ chosen used rw) : e < rw.length :=
  List.mem_range.1 ((ranked_perm rw).mem_iff.1 (List.mem_of_mem_take h))

theorem length_chosen (used : ℕ) (rw : List F32) :
    (chosen used rw).length = min used rw.length := by
  rw [chosen, List.length_take, (ranked_perm rw).length_eq, List.length_range]

/-- The expert comes before the other one: its weight is greater, or the same and it comes first. -/
def Before (rw : List F32) (i j : ℕ) : Prop :=
  totalKey (rw.getD j 0) < totalKey (rw.getD i 0) ∨
    totalKey (rw.getD j 0) = totalKey (rw.getD i 0) ∧ i < j

theorem prefers_iff : Prefers rw i j ↔ totalKey (rw.getD j 0) ≤ totalKey (rw.getD i 0) :=
  (not_congr compare_gt_iff_gt).trans not_lt

instance (rw : List F32) : IsTrans ℕ (Prefers rw) :=
  ⟨fun _ _ _ hab hbc => prefers_iff.2 ((prefers_iff.1 hbc).trans (prefers_iff.1 hab))⟩

instance (rw : List F32) : Std.Total (Prefers rw) :=
  ⟨fun a b => (le_total (totalKey (rw.getD b 0)) (totalKey (rw.getD a 0))).imp prefers_iff.2
    prefers_iff.2⟩

theorem pair_sublist_range (hij : i < j) (hj : j < n) : [i, j].Sublist (List.range n) := by
  have hlast : [i, j].Sublist (List.range (j + 1)) := by
    rw [List.range_succ]
    exact (List.singleton_sublist.2 (List.mem_range.2 hij)).append (List.Sublist.refl [j])
  exact hlast.trans (List.range_sublist.2 hj)

theorem not_both_orders {xs : List ℕ} (hnodup : xs.Nodup) (hij : [i, j].Sublist xs) :
    ¬ [j, i].Sublist xs := by
  induction xs with
  | nil => cases hij
  | cons x xs ih =>
    obtain ⟨hx, hnodup⟩ := List.nodup_cons.1 hnodup
    intro hji
    cases hij with
    | cons _ hij =>
      cases hji with
      | cons _ hji => exact ih hnodup hij hji
      | cons_cons _ _ => exact hx (hij.subset (by simp))
    | cons_cons _ _ =>
      cases hji with
      | cons _ hji => exact hx (hji.subset (by simp))
      | cons_cons _ hi => exact hx (hi.subset (by simp))

/-- **Who comes before whom in the ranking.** -/
theorem ranked_pairwise (rw : List F32) : (ranked rw).Pairwise (Before rw) := by
  have hsorted : (ranked rw).Pairwise (Prefers rw) := List.pairwise_insertionSort _ _
  rw [List.pairwise_iff_forall_sublist] at hsorted ⊢
  intro i j hij
  have hle : totalKey (rw.getD j 0) ≤ totalKey (rw.getD i 0) := prefers_iff.1 (hsorted hij)
  rcases hle.lt_or_eq with hlt | heq
  · exact .inl hlt
  · refine .inr ⟨heq, ?_⟩
    -- the sort is stable, so two that tie are in the order of their numbers
    by_contra hnot
    have hi : i < rw.length := List.mem_range.1 ((ranked_perm rw).mem_iff.1 (hij.subset (by simp)))
    have hne : i ≠ j := by
      have hpair := hij.nodup (nodup_ranked rw)
      simpa using hpair
    have hji : [j, i].Sublist (ranked rw) :=
      List.pair_sublist_insertionSort (prefers_iff.2 heq.ge) (pair_sublist_range (by omega) hi)
    exact not_both_orders (nodup_ranked rw) hij hji

/-- **A position is sent to the experts with the greatest weights**: none that is left out comes before
one that is chosen. -/
theorem chosen_before (hi : i ∈ chosen used rw) (hj : j < rw.length) (hnot : j ∉ chosen used rw) :
    Before rw i j := by
  have hranked := (ranked_perm rw).mem_iff.2 (List.mem_range.2 hj)
  have hsplit : ranked rw = chosen used rw ++ (ranked rw).drop used := (List.take_append_drop _ _).symm
  rw [hsplit, List.mem_append] at hranked
  have hpair := ranked_pairwise rw
  rw [hsplit, List.pairwise_append] at hpair
  exact hpair.2.2 i hi j (hranked.resolve_left hnot)

/-! ### The lists of the experts -/

variable {Row : Type}

/-- Rows are added to the rows with these numbers, one after the other. -/
def addRows (add : Row → Row → Row) : List Row → List ℕ → List Row → List Row
  | ys, row :: rows, v :: vs => addRows add (ys.modify row (add · v)) rows vs
  | ys, _, _ => ys

/-- What is asked of the tensor library: rows, and the numbers they are weighed with. -/
structure RowOps (Row : Type) where
  /-- A row of zeros. -/
  zero : Row
  add : Row → Row → Row
  scale : Row → F32 → Row
  plus : F32 → F32 → F32
  div : F32 → F32 → F32
  /-- `index_select`. -/
  indexSelect : List Row → List ℕ → Except String (List Row)
  /-- Rows that are there are selected. -/
  indexSelect_eq {xs : List Row} {rows : List ℕ} {selected : List Row} :
    List.Forall₂ (fun row x => xs[row]? = some x) rows selected → indexSelect xs rows = .ok selected
  /-- `index_add`. -/
  indexAdd : List Row → List ℕ → List Row → Except String (List Row)
  /-- As many rows are added as there are numbers, to rows that are there. -/
  indexAdd_eq {ys : List Row} {rows : List ℕ} {vs : List Row} :
    rows.length = vs.length → (∀ row ∈ rows, row < ys.length) →
      indexAdd ys rows vs = .ok (addRows add ys rows vs)

/-- The share of an expert of a position: its weight, of the sum of those that are chosen. -/
def RowOps.share (ops : RowOps Row) (used : ℕ) (rw : List F32) (e : ℕ) : F32 :=
  ops.div (rw.getD e 0) ((chosen used rw).foldl (fun sum e => ops.plus sum (rw.getD e 0)) 0)

/-- `lists[i].push(a)`. -/
def push {α : Type} (lists : List (List α)) (i : ℕ) (a : α) : Outcome String (List (List α)) :=
  if i < lists.length then .ok (lists.modify i (· ++ [a])) else .panic "index out of bounds"

/-- Pushes, one after the other. -/
def pushAll {α : Type} : List (ℕ × α) → List (List α) → Outcome String (List (List α))
  | [], lists => .ok lists
  | (i, a) :: rest, lists => (push lists i a).andThen fun lists => pushAll rest lists

/-- The loop over the positions: `top_x` and `selected_rws`. -/
def assign (ops : RowOps Row) (used : ℕ) : ℕ → List (List F32) → List (List ℕ) → List (List F32) →
    Outcome String (List (List ℕ) × List (List F32))
  | _, [], topX, selectedRws => .ok (topX, selectedRws)
  | row, rw :: rest, topX, selectedRws =>
    (pushAll ((chosen used rw).map fun e => (e, row)) topX).andThen fun topX =>
      (pushAll ((chosen used rw).map fun e => (e, ops.share used rw e)) selectedRws).andThen
        fun selectedRws => assign ops used (row + 1) rest topX selectedRws

/-- The positions that are sent to an expert, and its shares of them. -/
def sent (ops : RowOps Row) (used e : ℕ) : ℕ → List (List F32) → List (ℕ × F32)
  | _, [] => []
  | row, rw :: rest =>
    if e ∈ chosen used rw then (row, ops.share used rw e) :: sent ops used e (row + 1) rest
    else sent ops used e (row + 1) rest

theorem mapIdx_self {α : Type} (xs : List α) : xs.mapIdx (fun _ x => x) = xs :=
  List.ext_getElem? fun k => by simp

/-- Each list gets what is pushed to it. -/
theorem pushAll_spec {α : Type} {es : List ℕ} (f : ℕ → α) {lists : List (List α)}
    (hnodup : es.Nodup) (hlt : ∀ e ∈ es, e < lists.length) :
    pushAll (es.map fun e => (e, f e)) lists =
      .ok (lists.mapIdx fun e list => list ++ if e ∈ es then [f e] else []) := by
  induction es generalizing lists with
  | nil => simp [pushAll, mapIdx_self]
  | cons e es ih =>
    obtain ⟨hnew, hnodup⟩ := List.nodup_cons.1 hnodup
    rw [List.map_cons, pushAll, push, if_pos (hlt e List.mem_cons_self)]
    show pushAll _ (lists.modify e (· ++ [f e])) = _
    rw [ih hnodup fun k hk => by
      rw [List.length_modify]
      exact hlt k (List.mem_cons_of_mem _ hk)]
    refine congrArg Outcome.ok (List.ext_getElem? fun k => ?_)
    rw [List.getElem?_mapIdx, List.getElem?_mapIdx, List.getElem?_modify]
    by_cases hk : e = k
    · subst hk
      cases lists[e]? <;> simp [hnew]
    · have hk' : k ≠ e := Ne.symm hk
      cases lists[k]? <;> simp [hk, hk']

/-- **The lists of an expert** are the positions that are sent to it, and their shares. -/
theorem assign_spec (ops : RowOps Row) {routing : List (List F32)} {topX : List (List ℕ)}
    {selectedRws : List (List F32)} (row : ℕ)
    (hwidth : ∀ rw ∈ routing, rw.length ≤ topX.length ∧ rw.length ≤ selectedRws.length) :
    assign ops used row routing topX selectedRws =
      .ok (topX.mapIdx fun e list => list ++ (sent ops used e row routing).map Prod.fst,
        selectedRws.mapIdx fun e list => list ++ (sent ops used e row routing).map Prod.snd) := by
  induction routing generalizing row topX selectedRws with
  | nil => simp [assign, sent, mapIdx_self]
  | cons rw rest ih =>
    have hlt (e : ℕ) (he : e ∈ chosen used rw) : e < topX.length ∧ e < selectedRws.length := by
      have hmem := lt_of_mem_chosen he
      have := hwidth rw List.mem_cons_self
      omega
    rw [assign, pushAll_spec _ (nodup_chosen used rw) fun e he => (hlt e he).1, Outcome.andThen_ok,
      pushAll_spec _ (nodup_chosen used rw) fun e he => (hlt e he).2, Outcome.andThen_ok,
      ih (row + 1) fun rw' hrw' => by
        rw [List.length_mapIdx, List.length_mapIdx]
        exact hwidth rw' (List.mem_cons_of_mem _ hrw')]
    congr 2 <;>
    · rw [List.mapIdx_mapIdx]
      congr 1
      funext e list
      by_cases he : e ∈ chosen used rw <;> simp [sent, he]

/-! ### The experts -/

/-- The loop over the experts. -/
def RowOps.mixInto (ops : RowOps Row) (xs : List Row) :
    List (List Row → Except String (List Row)) → List (List ℕ) → List (List F32) → List Row →
      Except String (List Row)
  | expert :: experts, topX :: topXs, rws :: selectedRws, ys =>
    if topX.isEmpty then ops.mixInto xs experts topXs selectedRws ys
    else (ops.indexSelect xs topX).bind fun state => (expert state).bind fun hidden =>
      (ops.indexAdd ys topX (List.zipWith ops.scale hidden rws)).bind
        (ops.mixInto xs experts topXs selectedRws)
  | _, _, _, ys => .ok ys

/-- `MlpOrMoe`. -/
inductive MlpOrMoe (Row : Type) where
  | mlp (forward : List Row → Except String (List Row))
  | moe (nExpertUsed : ℕ) (gate : List Row → Except String (List (List F32)))
    (experts : List (List Row → Except String (List Row)))

/-- `MlpOrMoe::forward`, on the rows of all positions. -/
def MlpOrMoe.forward (ops : RowOps Row) : MlpOrMoe Row → List Row → Outcome String (List Row)
  | .mlp forward, xs => .ofExcept (forward xs)
  | .moe nExpertUsed gate experts, xs =>
    (Outcome.ofExcept (gate xs)).andThen fun routingWeights =>
      (assign ops nExpertUsed 0 routingWeights (List.replicate experts.length [])
        (List.replicate experts.length [])).andThen fun (topX, selectedRws) =>
        .ofExcept (ops.mixInto xs experts topX selectedRws (xs.map fun _ => ops.zero))

/-- What the experts make of one position: those that are chosen for it, in their order. -/
def RowOps.mixture (ops : RowOps Row) (used : ℕ) (fs : List (Row → Row)) (rw : List F32) (x : Row) :
    Row :=
  fs.zipIdx.foldl (fun y p =>
    if p.2 ∈ chosen used rw then ops.add y (ops.scale (p.1 x) (ops.share used rw p.2)) else y)
    ops.zero

variable {ops : RowOps Row} {g : Row → List F32}

theorem addRows_nil (add : Row → Row → Row) (ys vs : List Row) : addRows add ys [] vs = ys := by
  cases vs <;> rfl

theorem modify_append_cons {α : Type} (f : α → α) (before : List α) (a : α) (after : List α) :
    (before ++ a :: after).modify before.length f = before ++ f a :: after := by
  induction before with
  | nil => rfl
  | cons b before ih => exact congrArg (b :: ·) ih

/-- The numbers that are listed for an expert are those of the rows that are sent to it. -/
theorem sent_rows (e : ℕ) (before xs : List Row) :
    List.Forall₂ (fun row x => (before ++ xs)[row]? = some x)
      ((sent ops used e before.length (xs.map g)).map Prod.fst)
      (xs.filter fun x => e ∈ chosen used (g x)) := by
  induction xs generalizing before with
  | nil => exact .nil
  | cons x xs ih =>
    have hrest := ih (before ++ [x])
    rw [List.append_assoc, List.length_append] at hrest
    change List.Forall₂ (fun row y => (before ++ x :: xs)[row]? = some y)
      ((sent ops used e (before.length + 1) (xs.map g)).map Prod.fst) _ at hrest
    rw [List.map_cons, sent]
    by_cases he : e ∈ chosen used (g x)
    · rw [if_pos he, List.map_cons, List.filter_cons_of_pos (by simpa using he)]
      refine .cons ?_ hrest
      rw [List.getElem?_append_right le_rfl, Nat.sub_self]
      rfl
    · rw [if_neg he, List.filter_cons_of_neg (by simpa using he)]
      exact hrest

/-- **One expert** adds its share of what it makes of the positions that are sent to it. -/
theorem addRows_sent (e : ℕ) (f h : Row → Row) (before xs : List Row) :
    addRows ops.add (before ++ xs.map h) ((sent ops used e before.length (xs.map g)).map Prod.fst)
        (List.zipWith ops.scale ((xs.filter fun x => e ∈ chosen used (g x)).map f)
          ((sent ops used e before.length (xs.map g)).map Prod.snd)) =
      before ++ xs.map fun x => if e ∈ chosen used (g x) then
        ops.add (h x) (ops.scale (f x) (ops.share used (g x) e)) else h x := by
  induction xs generalizing before with
  | nil => rfl
  | cons x xs ih =>
    have hrest (y : Row) := ih (before ++ [y])
    simp only [List.append_assoc, List.length_append, List.singleton_append, List.length_singleton]
      at hrest
    rw [List.map_cons, List.map_cons, List.map_cons, sent]
    by_cases he : e ∈ chosen used (g x)
    · rw [if_pos he, if_pos he, List.filter_cons_of_pos (by simpa using he), List.map_cons,
        List.map_cons, List.map_cons, List.zipWith_cons_cons, addRows, modify_append_cons]
      exact hrest _
    · rw [if_neg he, if_neg he, List.filter_cons_of_neg (by simpa using he)]
      exact hrest _

/-- **The loop over the experts** does this for one after the other. -/
theorem mixInto_rowwise {experts : List (List Row → Except String (List Row))}
    {fs : List (Row → Row)} (hexperts : List.Forall₂
      (fun expert f => ∀ batch, expert batch = .ok (batch.map f)) experts fs) (xs : List Row) (k : ℕ)
    (h : Row → Row) :
    ops.mixInto xs experts
        ((List.range' k experts.length).map fun e => (sent ops used e 0 (xs.map g)).map Prod.fst)
        ((List.range' k experts.length).map fun e => (sent ops used e 0 (xs.map g)).map Prod.snd)
        (xs.map h) =
      .ok (xs.map fun x => (fs.zipIdx k).foldl (fun y p =>
        if p.2 ∈ chosen used (g x) then ops.add y (ops.scale (p.1 x) (ops.share used (g x) p.2))
        else y) (h x)) := by
  induction hexperts generalizing k h with
  | nil => rfl
  | @cons expert f experts fs hexpert _ ih =>
    have hrows := @sent_rows used Row ops g k [] xs
    have hadd := @addRows_sent used Row ops g k f h [] xs
    rw [List.nil_append, List.length_nil] at hrows hadd
    rw [List.nil_append] at hadd
    rw [List.length_cons, List.range'_succ, List.map_cons, List.map_cons, RowOps.mixInto]
    split_ifs with hempty
    · -- nothing is sent to this expert, so it adds nothing
      rw [List.isEmpty_iff.1 hempty, addRows_nil] at hadd
      rw [hadd, ih]
      rfl
    · have hlt : ∀ row ∈ (sent ops used k 0 (xs.map g)).map Prod.fst, row < (xs.map h).length := by
        have hthere := hrows.imp fun row x hx => And.intro (List.getElem?_eq_some_iff.1 hx).1 hx
        rw [List.length_map]
        exact ((List.forall₂_and_left _ _).1 hthere).1
      have hlength : ((sent ops used k 0 (xs.map g)).map Prod.fst).length =
          (List.zipWith ops.scale ((xs.filter fun x => k ∈ chosen used (g x)).map f)
            ((sent ops used k 0 (xs.map g)).map Prod.snd)).length := by
        have hsame := hrows.length_eq
        simp only [List.length_map] at hsame
        simp only [List.length_zipWith, List.length_map]
        omega
      rw [ops.indexSelect_eq hrows]
      show (expert _).bind _ = _
      rw [hexpert]
      show (ops.indexAdd _ _ _).bind _ = _
      rw [ops.indexAdd_eq hlength hlt, hadd]
      exact ih _ _

/-! ### The block -/

/-- What a block makes of a position, if its matrices treat the rows alike. -/
inductive MlpOrMoe.RowWise (ops : RowOps Row) : MlpOrMoe Row → (Row → Row) → Prop
  | mlp {forward : List Row → Except String (List Row)} {f : Row → Row}
    (hforward : ∀ batch, forward batch = .ok (batch.map f)) : RowWise ops (.mlp forward) f
  | moe {used : ℕ} {gate : List Row → Except String (List (List F32))}
    {experts : List (List Row → Except String (List Row))} {g : Row → List F32}
    {fs : List (Row → Row)} (hgate : ∀ batch, gate batch = .ok (batch.map g))
    (hwidth : ∀ x, (g x).length = experts.length)
    (hexperts : List.Forall₂ (fun expert f => ∀ batch, expert batch = .ok (batch.map f)) experts fs) :
    RowWise ops (.moe used gate experts) fun x => ops.mixture used fs (g x) x

/-- A block treats the positions one by one, if the router and the experts do. -/
theorem forward_rowwise {block : MlpOrMoe Row} {f : Row → Row} (h : block.RowWise ops f)
    (xs : List Row) : block.forward ops xs = .ok (xs.map f) := by
  cases h with
  | mlp hforward => rw [MlpOrMoe.forward, hforward]; rfl
  | @moe used gate experts g fs hgate hwidth hexperts =>
    have hlists {α : Type} (k : ℕ → List α) :
        (List.replicate experts.length []).mapIdx (fun e list => list ++ k e) =
          (List.range' 0 experts.length).map k := by
      refine List.ext_getElem? fun e => ?_
      rw [List.getElem?_mapIdx, List.getElem?_map, List.getElem?_replicate, ← List.range_eq_range']
      by_cases he : e < experts.length
      · rw [if_pos he, List.getElem?_range he]
        rfl
      · rw [if_neg he, List.getElem?_eq_none (by rw [List.length_range]; omega)]
        rfl
    have hassign := @assign_spec used Row ops (xs.map g) (List.replicate experts.length [])
      (List.replicate experts.length []) 0 (fun rw hrw => by
        obtain ⟨x, -, rfl⟩ := List.mem_map.1 hrw
        rw [hwidth, List.length_replicate, List.length_replicate]
        exact ⟨le_rfl, le_rfl⟩)
    rw [MlpOrMoe.forward, hgate, Outcome.ofExcept_andThen, hassign, Outcome.andThen_ok]
    dsimp only
    rw [hlists, hlists, mixInto_rowwise hexperts xs 0 fun _ => ops.zero]
    rfl

/-- **What a mixture of experts makes of the positions**, however many are given to it at once: each of
them is sent to as many experts as are used, to none twice, and to those that the router gives most
weight, where the first of those that tie come first; and what comes out is what these experts make of
it, each with its share. -/
theorem experts_rowwise {gate : List Row → Except String (List (List F32))}
    {experts : List (List Row → Except String (List Row))} {fs : List (Row → Row)}
    (hgate : ∀ batch, gate batch = .ok (batch.map g)) (hwidth : ∀ x, (g x).length = experts.length)
    (hexperts : List.Forall₂ (fun expert f => ∀ batch, expert batch = .ok (batch.map f)) experts fs)
    (xs : List Row) :
    (MlpOrMoe.moe used gate experts).forward ops xs =
        .ok (xs.map fun x => ops.mixture used fs (g x) x) ∧
      ∀ x, (chosen used (g x)).Nodup ∧ (chosen used (g x)).length = min used experts.length ∧
        ∀ i ∈ chosen used (g x), ∀ j < experts.length, j ∉ chosen used (g x) → Before (g x) i j := by
  refine ⟨forward_rowwise (.moe hgate hwidth hexperts) xs, fun x => ⟨nodup_chosen used (g x), ?_, ?_⟩⟩
  · rw [length_chosen, hwidth]
  · intro i hi j hj hnot
    exact chosen_before hi (hwidth x ▸ hj) hnot

/-- Numbers in place of rows. -/
def numberOps : RowOps UInt32 where
  zero := 0
  add := (· + ·)
  scale := (· * ·)
  plus := (· + ·)
  div a _ := a
  indexSelect xs rows := .ok (rows.filterMap (xs[·]?))
  indexSelect_eq h := by
    induction h with
    | nil => rfl
    | cons hx _ ih => exact congrArg Except.ok (by rw [List.filterMap_cons, hx, Except.ok.inj ih])
  indexAdd ys rows vs := .ok (addRows (· + ·) ys rows vs)
  indexAdd_eq _ _ := rfl

/-- Two positions and three experts, of which the two with the greatest weights are used. -/
theorem experts_rowwise_numbers :
    (MlpOrMoe.moe 2 (fun batch => .ok (batch.map fun x => [x, 2, 1]))
        [fun batch => .ok (batch.map (· + 1)), fun batch => .ok (batch.map (· + 2)),
          fun batch => .ok (batch.map (· + 3))]).forward numberOps [3, 0] = .ok [22, 7] :=
  (@experts_rowwise 2 UInt32 numberOps (fun x => [x, 2, 1]) _ _ [(· + 1), (· + 2), (· + 3)]
    (fun _ => rfl) (fun _ => rfl)
    (.cons (fun _ => rfl) (.cons (fun _ => rfl) (.cons (fun _ => rfl) .nil))) [3, 0]).1.trans
    (by decide)

end Engine

end Latticed
