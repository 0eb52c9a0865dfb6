import Latticed.Net.Control
import Latticed.Rust.Contiguous
import Latticed.Rust.Iter
import Mathlib.Algebra.Order.Field.Rat
import Mathlib.Data.List.ModifyLast

/-!
# The memory planner

`build` cuts the layers of a model into one contiguous range per GPU.  It first fills a table of
feasible cuts, from the last GPU backwards, with a sliding window over the prefix sums of the layer
sizes; then it walks forward and picks, for each GPU, the feasible cut whose floating-point distance
to a target is smallest.

The floating-point operations are a parameter (`F64`) about which nothing is assumed.

* `build_sound` : a plan that is returned fits every GPU.
* `build_complete` : if some contiguous allocation fits, a plan is returned, and the `expect` of the
  greedy pass is unreachable on every input.
-/

namespace Latticed

namespace Daemon

open Engine Net Rust Contiguous

/-- The `f64` operations of the greedy pass. -/
structure F64 (F : Type*) where
  /-- `n as f64`. -/
  ofU128 : ℕ → F
  mul : F → F → F
  div : F → F → F
  sub : F → F → F
  abs : F → F
  totalCmp : F → F → Ordering

/-- The layers of each GPU; the last entry counts the output slot too. -/
structure Plan where
  layers : List UInt32
  deriving DecidableEq, Repr

/-- The checks on the dimensions of the model. -/
def unsupported (inventory : ModelInventory) : Bool :=
  let facts := inventory.facts
  facts.layers = 0 || 4096 < facts.layers || facts.hiddenDim = 0 ||
    -- `checked_rem` is `None` when there are no heads
    (facts.heads = 0 || facts.hiddenDim % facts.heads ≠ 0) ||
    facts.kvHeads = 0 || facts.heads < facts.kvHeads ||
    inventory.layerBytes.length ≠ facts.layers.toNat

/-- The bytes of a GPU the plan may use. -/
def budget (reserve : UInt64) (device : GpuDevice) : ℕ :=
  let free := min device.freeMemory.toNat device.totalMemory.toNat
  free - max reserve.toNat (free / 10)

/-- KV bytes charged to each layer.  The `u32` division is exact here: the model is supported. -/
def kvCharge (facts : ModelFacts) (context : UInt32) : ℕ :=
  4 * facts.kvHeads.toNat * (facts.hiddenDim / facts.heads).toNat * context.toNat

/-- `prefix[i]` is the charge of the first `i` layers. -/
def prefixSums (kv : ℕ) (layerBytes : List UInt64) : List ℕ :=
  layerBytes.scanl (fun sum bytes => sum + bytes.toNat + kv) 0

/-- `reachable[i]` counts the feasible cuts of the next GPU below `i`. -/
def reachable (next : List Bool) : List ℕ :=
  next.scanl (fun n feasible => n + feasible.toNat) 0

/-- The `while` loop that moves `end` forward; `rest` is `layers - end`. -/
def advance (pre : List ℕ) (budget start : ℕ) : ℕ → ℕ → ℕ
  | 0, stop => stop
  | rest + 1, stop =>
    if pre.getD (stop + 1) 0 - pre.getD start 0 ≤ budget then
      advance pre budget start rest (stop + 1)
    else stop

/-- The loop over `start`, of which `left` values remain; `stop` is the `end` of the previous
round.  The entry for `start = layers` keeps its initial `false`. -/
def sweep (pre reach : List ℕ) (budget layers : ℕ) : ℕ → ℕ → ℕ → List Bool
  | 0, _, _ => [false]
  | left + 1, start, stop =>
    let stop := advance pre budget start (layers - max stop start) (max stop start)
    decide (reach.getD (start + 1) 0 < reach.getD (stop + 1) 0) ::
      sweep pre reach budget layers left (start + 1) stop

/-- `feasible[device]`, from the row of the next GPU. -/
def feasibleRow (pre : List ℕ) (layers budget extra : ℕ) (next : List Bool) : List Bool :=
  if extra ≤ budget then sweep pre (reachable next) (budget - extra) layers layers 0 0
  else List.replicate (layers + 1) false

/-- The output tensors are charged to the last GPU. -/
def extraOf (output : ℕ) (rest : List ℕ) : ℕ := if rest.isEmpty then output else 0

/-- `feasible[device..]`, for the budgets of these GPUs. -/
def feasibleTable (pre : List ℕ) (layers output : ℕ) : List ℕ → List (List Bool)
  | [] => [List.replicate layers false ++ [true]]
  | budget :: rest =>
    let below := feasibleTable pre layers output rest
    feasibleRow pre layers budget (extraOf output rest) (below.headD []) :: below

/-- The candidate cuts of the greedy pass: the ends in reach of the budget, as far as the rest of
the model can still be placed. -/
def cuts (pre : List ℕ) (layers budget extra start : ℕ) (next : List Bool) : List ℕ :=
  ((List.range' (start + 1) (layers - start)).takeWhile fun stop =>
    pre.getD stop 0 - pre.getD start 0 + extra ≤ budget).filter fun stop => next.getD stop false

variable {F : Type*}

/-- The greedy pass over the remaining budgets; `rows` are the rows of the GPUs after the
current one. -/
def greedy (fl : F64 F) (pre : List ℕ) (layers output totalBudget : ℕ) :
    List ℕ → List (List Bool) → ℕ → ℕ → List UInt32 → Outcome String (List UInt32)
  | [], _, _, _, assigned => .ok assigned
  | budget :: rest, rows, start, cumulative, assigned =>
    let cumulative := cumulative + budget
    let extra := extraOf output rest
    let target := fl.div (fl.mul (fl.ofU128 (pre.getD layers 0 + output)) (fl.ofU128 cumulative))
      (fl.ofU128 totalBudget)
    let distance := fun stop => fl.abs (fl.sub (fl.ofU128 (pre.getD stop 0 + extra)) target)
    (Outcome.expect "a feasible partition has a next cut"
      (minBy (fun a b => fl.totalCmp (distance a) (distance b))
        (cuts pre layers budget extra start (rows.headD [])))).andThen fun stop =>
      greedy fl pre layers output totalBudget rest rows.tail stop cumulative
        (assigned ++ [UInt32.ofNat (stop - start)])

/-- `*assigned.last_mut().unwrap() += 1`. -/
def addOutputSlot (assigned : List UInt32) : Outcome String (List UInt32) :=
  if assigned = [] then .panic "called `Option::unwrap()` on a `None` value"
  else .ok (assigned.modifyLast (· + 1))

/-- `build`. -/
def build (fl : F64 F) (inventory : ModelInventory) (context : UInt32) (devices : List GpuDevice)
    (reserve : UInt64) : Outcome String Plan :=
  let count := devices.length
  let layers := inventory.facts.layers.toNat
  if unsupported inventory then
    .err "unsupported model dimensions for the Llama memory planner"
  else if count = 0 ∨ 63 < count ∨ layers < count then
    .err ("select between 1 and " ++ toString (min layers 63) ++
      " GPUs so each receives transformer layers")
  else
    let budgets := devices.map (budget reserve)
    let pre := prefixSums (kvCharge inventory.facts context) inventory.layerBytes
    let output := inventory.outputBytes.toNat
    let feasible := feasibleTable pre layers output budgets
    if !(feasible.headD []).getD 0 false then
      .err ("no contiguous layer allocation fits the selected GPUs after memory reserves, " ++
        "including f16 KV and output tensors; reduce --context, use a smaller quantization, " ++
        "or change workers")
    else
      (greedy fl pre layers output budgets.sum budgets feasible.tail 0 0 []).andThen fun assigned =>
        (addOutputSlot assigned).andThen fun layers => .ok ⟨layers⟩

/-! ### The sliding window

`charge s e` is the charge of the layers `s..e`; the window rests on it growing with `e` and
shrinking with `s`. -/

/-- The charge of the layers `s..e`. -/
def charge (pre : List ℕ) (s e : ℕ) : ℕ := pre.getD e 0 - pre.getD s 0

/-- Prefix sums do not decrease on `0..=layers`. -/
def Ascending (pre : List ℕ) (layers : ℕ) : Prop :=
  ∀ i j, i ≤ j → j ≤ layers → pre.getD i 0 ≤ pre.getD j 0

variable {pre : List ℕ} {layers : ℕ}

theorem Ascending.charge_le {s s' e e' : ℕ} (h : Ascending pre layers) (hs : s' ≤ s) (he : e ≤ e')
    (hse : s ≤ layers) (hel : e' ≤ layers) : charge pre s e ≤ charge pre s' e' := by
  have h1 := h s' s hs hse
  have h2 := h e e' he hel
  unfold charge
  omega

/-- The `while` loop stops at the last position the budget reaches. -/
theorem advance_spec (h : Ascending pre layers) {budget start : ℕ} (hstart : start ≤ layers) :
    ∀ rest stop, stop + rest = layers → (∀ x, x ≤ stop → charge pre start x ≤ budget) →
      stop ≤ advance pre budget start rest stop ∧ advance pre budget start rest stop ≤ layers ∧
        ∀ x, x ≤ layers → (charge pre start x ≤ budget ↔ x ≤ advance pre budget start rest stop) := by
  intro rest
  induction rest with
  | zero =>
    intro stop hstop hle
    simp only [advance]
    exact ⟨le_rfl, by omega, fun x hx => ⟨fun _ => by omega, hle x⟩⟩
  | succ rest ih =>
    intro stop hstop hle
    rw [advance]
    split_ifs with hnext
    · have hle' : ∀ x, x ≤ stop + 1 → charge pre start x ≤ budget := fun x hx =>
        (h.charge_le le_rfl hx hstart (by omega)).trans hnext
      obtain ⟨h1, h2, h3⟩ := ih (stop + 1) (by omega) hle'
      exact ⟨by omega, h2, h3⟩
    · refine ⟨le_rfl, by omega, fun x hx => ⟨fun hc => ?_, hle x⟩⟩
      by_contra hlt
      exact hnext ((h.charge_le le_rfl (by omega : stop + 1 ≤ x) hstart hx).trans hc)

/-- What an entry of a row says: the next cut can be made within the budget, at a place where the
rest of the model can be placed. -/
def HasCut (pre : List ℕ) (layers budget : ℕ) (next : List Bool) (start : ℕ) : Prop :=
  ∃ stop, start < stop ∧ stop ≤ layers ∧ charge pre start stop ≤ budget ∧
    next.getD stop false = true

theorem sweep_spec (h : Ascending pre layers) {budget : ℕ} {next : List Bool}
    (hnext : next.length = layers + 1) :
    ∀ left start stop, start + left = layers → stop ≤ layers →
      (∀ x, x ≤ stop → charge pre start x ≤ budget) →
      ∀ s, (sweep pre (reachable next) budget layers left start stop).getD s false = true ↔
        HasCut pre layers budget next (start + s) := by
  intro left
  induction left with
  | zero =>
    rintro start stop hstart - - s
    have hno : ¬ HasCut pre layers budget next (start + s) := by
      rintro ⟨e, h1, h2, -⟩
      omega
    cases s <;> simpa [sweep] using hno
  | succ left ih =>
    intro start stop hstart hstop hle s
    have hmax : max stop start ≤ layers := by omega
    -- the window only moves on: what fitted from this start still does
    have hle' : ∀ x, x ≤ max stop start → charge pre start x ≤ budget := by
      intro x hx
      rcases le_max_iff.1 hx with hx | hx
      · exact hle x hx
      · have : charge pre start x = 0 := by
          have := h x start hx (by omega)
          unfold charge
          omega
        omega
    obtain ⟨h1, h2, h3⟩ := advance_spec h (by omega : start ≤ layers)
      (layers - max stop start) (max stop start) (by omega) hle'
    rw [sweep]
    set e := advance pre budget start (layers - max stop start) (max stop start) with he
    cases s with
    | zero =>
      simp only [List.getD_cons_zero, decide_eq_true_eq, Nat.add_zero]
      rw [reachable, running_count_lt_iff (by omega) (by omega)]
      constructor
      · rintro ⟨x, hx1, hx2, hx⟩
        exact ⟨x, by omega, by omega, (h3 x (by omega)).2 (by omega), hx⟩
      · rintro ⟨x, hx1, hx2, hc, hx⟩
        exact ⟨x, by omega, Nat.lt_succ_of_le ((h3 x hx2).1 hc), hx⟩
    | succ s =>
      rw [List.getD_cons_succ, ih (start + 1) e (by omega) h2 fun x hx => ?_, Nat.add_right_comm,
        Nat.add_assoc]
      exact (h.charge_le (Nat.le_succ start) le_rfl (by omega) (hx.trans h2)).trans
        ((h3 x (hx.trans h2)).2 hx)

@[simp] theorem length_sweep (reach : List ℕ) (budget : ℕ) (left start stop : ℕ) :
    (sweep pre reach budget layers left start stop).length = left + 1 := by
  induction left generalizing start stop with
  | zero => rfl
  | succ left ih => simp [sweep, ih]

@[simp] theorem length_feasibleRow (budget extra : ℕ) (next : List Bool) :
    (feasibleRow pre layers budget extra next).length = layers + 1 := by
  unfold feasibleRow
  split_ifs <;> simp

theorem feasibleRow_spec (h : Ascending pre layers) {next : List Bool}
    (hnext : next.length = layers + 1) (budget extra s : ℕ) :
    (feasibleRow pre layers budget extra next).getD s false = true ↔
      ∃ stop, s < stop ∧ stop ≤ layers ∧ charge pre s stop + extra ≤ budget ∧
        next.getD stop false = true := by
  unfold feasibleRow
  split_ifs with hb
  · rw [sweep_spec h hnext layers 0 0 (by omega) (Nat.zero_le _)
      (fun x hx => by rw [Nat.le_zero.1 hx, charge, Nat.sub_self]; exact Nat.zero_le _), Nat.zero_add]
    refine exists_congr fun stop => ?_
    rw [Nat.le_sub_iff_add_le hb]
  · have hfalse : (List.replicate (layers + 1) false).getD s false = false := by
      rw [List.getD_eq_getElem?_getD, List.getElem?_replicate]
      split_ifs <;> rfl
    rw [hfalse]
    refine ⟨fun hf => absurd hf Bool.false_ne_true, ?_⟩
    rintro ⟨stop, -, -, hc, -⟩
    omega

/-! ### The table and the greedy pass

Both are read through `Splits`: `segments` lists, per GPU, which ranges fit it. -/

/-- The ranges that fit each of the remaining GPUs. -/
def segments (pre : List ℕ) (output : ℕ) : List ℕ → List (ℕ → ℕ → Prop)
  | [] => []
  | budget :: rest =>
    (fun s e => charge pre s e + extraOf output rest ≤ budget) :: segments pre output rest

variable {output : ℕ}

@[simp] theorem length_segments (budgets : List ℕ) :
    (segments pre output budgets).length = budgets.length := by
  induction budgets with
  | nil => rfl
  | cons budget rest ih => simp [segments, ih]

theorem length_feasibleTable_head (budgets : List ℕ) :
    ((feasibleTable pre layers output budgets).headD []).length = layers + 1 := by
  cases budgets <;> simp [feasibleTable]

/-- **The table is exact**: an entry of the first row is true iff the layers from there on can be
placed on the GPUs of the table. -/
theorem feasibleTable_spec (output : ℕ) (h : Ascending pre layers) (budgets : List ℕ) (s : ℕ) :
    ((feasibleTable pre layers output budgets).headD []).getD s false = true ↔
      Splits (segments pre output budgets) s layers := by
  induction budgets generalizing s with
  | nil =>
    rw [feasibleTable, segments, List.headD_cons, splits_nil, List.getD_eq_getElem?_getD]
    rcases lt_trichotomy s layers with hlt | rfl | hgt
    · simp [List.getElem?_append_left, hlt, hlt.ne]
    · simp
    · simp [List.getElem?_append_right, hgt.le, hgt.ne', Nat.sub_ne_zero_of_lt hgt]
  | cons budget rest ih =>
    rw [feasibleTable, segments, List.headD_cons, splits_cons,
      feasibleRow_spec h (length_feasibleTable_head rest)]
    refine exists_congr fun stop => ?_
    rw [ih stop]
    constructor
    · rintro ⟨h1, -, h3, h4⟩
      exact ⟨h1, h3, h4⟩
    · rintro ⟨h1, h2, h3⟩
      exact ⟨h1, h3.le, h2, h3⟩

/-- The candidates of the greedy pass are exactly the next cuts of an allocation. -/
theorem mem_cuts (h : Ascending pre layers) {budget extra start stop : ℕ} {next : List Bool}
    (hstart : start ≤ layers) :
    stop ∈ cuts pre layers budget extra start next ↔
      start < stop ∧ stop ≤ layers ∧ charge pre start stop + extra ≤ budget ∧
        next.getD stop false = true := by
  rw [cuts, List.mem_filter, mem_takeWhile_iff, List.mem_range'_1, decide_eq_true_eq]
  · constructor
    · rintro ⟨⟨h1, h2⟩, h3⟩
      exact ⟨by omega, by omega, h2, h3⟩
    · rintro ⟨h1, h2, h3, h4⟩
      exact ⟨⟨by omega, h3⟩, h4⟩
  · refine (List.pairwise_lt_range' 1).imp_of_mem fun {x y} _ hy hxy => ?_
    rw [List.mem_range'_1] at hy
    have := h.charge_le le_rfl hxy.le hstart (by omega : y ≤ layers)
    simp only [decide_eq_true_eq]
    unfold charge at this
    omega

/-- **The greedy pass finds a cut for every GPU**, whatever the scores: if the remaining layers can
be placed at all, every candidate list it meets is non-empty, and the ranges it assigns fit. -/
theorem greedy_spec (fl : F64 F) (h : Ascending pre layers) (totalBudget : ℕ) (budgets : List ℕ) :
    ∀ start cumulative assigned, Splits (segments pre output budgets) start layers →
      ∃ sizes, IsCutting (segments pre output budgets) start layers sizes ∧
        greedy fl pre layers output totalBudget budgets
          (feasibleTable pre layers output budgets).tail start cumulative assigned =
            .ok (assigned ++ sizes.map UInt32.ofNat) := by
  induction budgets with
  | nil =>
    rintro start cumulative assigned rfl
    exact ⟨[], isCutting_nil, by simp [greedy]⟩
  | cons budget rest ih =>
    intro start cumulative assigned hsplit
    have hstart : start ≤ layers := Splits.le hsplit
    have hmem : ∀ stop, stop ∈ cuts pre layers budget (extraOf output rest) start
        ((feasibleTable pre layers output rest).headD []) ↔
          start < stop ∧ charge pre start stop + extraOf output rest ≤ budget ∧
            Splits (segments pre output rest) stop layers := by
      intro stop
      rw [mem_cuts h hstart, feasibleTable_spec output h]
      constructor
      · rintro ⟨h1, -, h3, h4⟩
        exact ⟨h1, h3, h4⟩
      · rintro ⟨h1, h2, h3⟩
        exact ⟨h1, h3.le, h2, h3⟩
    simp only [feasibleTable, List.tail_cons]
    rw [greedy]
    cases hbest : minBy _ (cuts pre layers budget (extraOf output rest) start
        ((feasibleTable pre layers output rest).headD [])) with
    | none =>
      -- some allocation exists, so its first cut is a candidate
      obtain ⟨stop, hlt, hfit, hrest⟩ := hsplit
      have := (hmem stop).2 ⟨hlt, hfit, hrest⟩
      rw [minBy_eq_none.1 hbest] at this
      cases this
    | some stop =>
      obtain ⟨hlt, hfit, hrest⟩ := (hmem stop).1 (minBy_mem hbest)
      obtain ⟨sizes, hsizes, hrun⟩ := ih stop (cumulative + budget)
        (assigned ++ [UInt32.ofNat (stop - start)]) hrest
      refine ⟨(stop - start) :: sizes, hsizes.cons hlt hfit, ?_⟩
      rw [Outcome.expect_some, Outcome.andThen_ok, hrun]
      simp

/-! ### What a plan promises -/

/-- What a GPU is charged for holding a layer: its weights and its KV cache. -/
def layerCharge (inventory : ModelInventory) (context : UInt32) (l : ℕ) : ℕ :=
  (inventory.layerBytes.getD l 0).toNat + kvCharge inventory.facts context

/-- `sizes` allocates the layers to the GPUs in order: one positive size per GPU, all layers
placed, and every GPU holds the charges of its range, the last one the output tensors as well. -/
structure Fits (inventory : ModelInventory) (context : UInt32) (devices : List GpuDevice)
    (reserve : UInt64) (sizes : List ℕ) : Prop where
  length_eq : sizes.length = devices.length
  pos : ∀ n ∈ sizes, 1 ≤ n
  sum_eq : sizes.sum = inventory.facts.layers.toNat
  fits : ∀ (i : ℕ) (device : GpuDevice), devices[i]? = some device →
    ∑ l ∈ Finset.Ico (sizes.take i).sum (sizes.take (i + 1)).sum, layerCharge inventory context l +
        (if i + 1 = devices.length then inventory.outputBytes.toNat else 0) ≤
      min device.freeMemory.toNat device.totalMemory.toNat -
        max reserve.toNat (min device.freeMemory.toNat device.totalMemory.toNat / 10)

/-- The transformer layers of each GPU: the plan without the output slot. -/
def Plan.transformerLayers (plan : Plan) : List ℕ :=
  (plan.layers.map UInt32.toNat).modifyLast (· - 1)

/-- The plan `build` makes of an allocation. -/
def planOf (sizes : List ℕ) : Plan := ⟨(sizes.map UInt32.ofNat).modifyLast (· + 1)⟩

theorem charge_prefixSums (kv : ℕ) (layerBytes : List UInt64) {s e : ℕ} (hse : s ≤ e)
    (he : e ≤ layerBytes.length) :
    charge (prefixSums kv layerBytes) s e =
      ∑ l ∈ Finset.Ico s e, ((layerBytes.getD l 0).toNat + kv) := by
  simp only [charge, prefixSums, Nat.add_assoc]
  exact getD_scanl_add_sub (fun b : UInt64 => b.toNat + kv) layerBytes 0 hse he

theorem ascending_prefixSums (kv : ℕ) (layerBytes : List UInt64) :
    Ascending (prefixSums kv layerBytes) layerBytes.length := by
  intro i j hij hj
  simp only [prefixSums, Nat.add_assoc]
  rw [getD_scanl_add (fun b : UInt64 => b.toNat + kv) layerBytes 0 hj,
    getD_scanl_add (fun b : UInt64 => b.toNat + kv) layerBytes 0 (hij.trans hj)]
  exact Finset.sum_le_sum_of_subset (Finset.range_mono hij)

theorem getElem?_segments {budgets : List ℕ} {i : ℕ} {p : ℕ → ℕ → Prop} :
    (segments pre output budgets)[i]? = some p ↔ ∃ budget, budgets[i]? = some budget ∧
      (fun s e => charge pre s e + (if i + 1 = budgets.length then output else 0) ≤ budget) = p := by
  induction budgets generalizing i with
  | nil => simp [segments]
  | cons budget rest ih =>
    cases i with
    | zero => cases rest <;> simp [segments, extraOf]
    | succ i => simpa [segments] using ih

/-- The allocations that fit are the cuttings the table and the greedy pass work with. -/
theorem fits_iff_isCutting {inventory : ModelInventory} {context : UInt32}
    {devices : List GpuDevice} {reserve : UInt64} {sizes : List ℕ}
    (hlen : inventory.layerBytes.length = inventory.facts.layers.toNat) :
    Fits inventory context devices reserve sizes ↔
      IsCutting (segments (prefixSums (kvCharge inventory.facts context) inventory.layerBytes)
        inventory.outputBytes.toNat (devices.map (budget reserve))) 0
        inventory.facts.layers.toNat sizes := by
  -- the two charges of the `i`-th range agree
  have hcharge : sizes.sum = inventory.facts.layers.toNat → ∀ i,
      charge (prefixSums (kvCharge inventory.facts context) inventory.layerBytes)
          (0 + (sizes.take i).sum) (0 + (sizes.take (i + 1)).sum) =
        ∑ l ∈ Finset.Ico (sizes.take i).sum (sizes.take (i + 1)).sum,
          layerCharge inventory context l := by
    intro hsum i
    have h1 : (sizes.take i).sum ≤ (sizes.take (i + 1)).sum :=
      (List.take_prefix_take_left (Nat.le_succ i)).sublist.sum_le_sum fun _ _ => Nat.zero_le _
    have h2 : (sizes.take (i + 1)).sum ≤ inventory.layerBytes.length :=
      hlen ▸ hsum ▸ (List.take_sublist _ _).sum_le_sum fun _ _ => Nat.zero_le _
    rw [Nat.zero_add, Nat.zero_add, charge_prefixSums _ _ h1 h2]
    rfl
  constructor
  · intro h
    refine ⟨by simpa using h.length_eq, h.pos, by simpa using h.sum_eq, fun i p hp => ?_⟩
    obtain ⟨b, hb, rfl⟩ := getElem?_segments.1 hp
    rw [List.getElem?_map, Option.map_eq_some_iff] at hb
    obtain ⟨device, hdevice, rfl⟩ := hb
    simpa only [hcharge h.sum_eq, List.length_map, budget] using h.fits i device hdevice
  · intro h
    have hsum : sizes.sum = inventory.facts.layers.toNat := by simpa using h.sum_eq
    refine ⟨by simpa using h.length_eq, h.pos, hsum, fun i device hdevice => ?_⟩
    have := h.piece i _ (getElem?_segments.2 ⟨budget reserve device, by simp [hdevice], rfl⟩)
    simpa only [hcharge hsum, List.length_map, budget] using this

/-! ### `build` -/

variable {inventory : ModelInventory} {context : UInt32} {devices : List GpuDevice}
  {reserve : UInt64}

theorem not_unsupported (h : unsupported inventory = false) :
    inventory.facts.layers.toNat ≤ 4096 ∧
      inventory.layerBytes.length = inventory.facts.layers.toNat := by
  simp only [unsupported, Bool.or_eq_false_iff, decide_eq_false_iff_not, not_not] at h
  have hle := h.1.1.1.1.1.2
  rw [UInt32.lt_iff_toNat_lt] at hle
  exact ⟨Nat.le_of_not_lt hle, h.2⟩

/-- **What `build` does** on a supported model and an admissible number of GPUs: it returns the plan
of an allocation that fits, or there is none and it returns an error. -/
theorem build_spec (fl : F64 F) (context : UInt32) (reserve : UInt64)
    (hu : unsupported inventory = false) (hpos : 1 ≤ devices.length)
    (hcount : devices.length ≤ min 63 inventory.facts.layers.toNat) :
    (∃ sizes, Fits inventory context devices reserve sizes ∧
        build fl inventory context devices reserve = .ok (planOf sizes)) ∨
      ((¬ ∃ sizes, Fits inventory context devices reserve sizes) ∧
        ∃ e, build fl inventory context devices reserve = .err e) := by
  obtain ⟨-, hlen⟩ := not_unsupported hu
  have hasc := ascending_prefixSums (kvCharge inventory.facts context) inventory.layerBytes
  rw [hlen] at hasc
  have htable := feasibleTable_spec inventory.outputBytes.toNat hasc
    (devices.map (budget reserve)) 0
  have hno : ¬ (devices.length = 0 ∨ 63 < devices.length ∨
      inventory.facts.layers.toNat < devices.length) := by omega
  rw [build]
  simp only [hu, Bool.false_eq_true, if_false, hno]
  by_cases hfit : Splits (segments (prefixSums (kvCharge inventory.facts context)
      inventory.layerBytes) inventory.outputBytes.toNat (devices.map (budget reserve))) 0
      inventory.facts.layers.toNat
  · left
    obtain ⟨sizes, hcut, hrun⟩ := greedy_spec fl hasc (devices.map (budget reserve)).sum _ 0 0 []
      hfit
    -- there is a GPU, so there is a last one to take the output
    have hne : sizes ≠ [] := by
      rintro rfl
      have := hcut.length_eq
      simp only [List.length_nil, length_segments, List.length_map] at this
      omega
    refine ⟨sizes, (fits_iff_isCutting hlen).2 hcut, ?_⟩
    rw [htable.2 hfit, hrun]
    simp [addOutputSlot, hne, planOf]
  · right
    refine ⟨fun ⟨sizes, h⟩ => hfit (splits_iff_sizes.2 ⟨sizes, (fits_iff_isCutting hlen).1 h⟩), ?_⟩
    rw [Bool.eq_false_iff.2 (mt htable.1 hfit)]
    exact ⟨_, rfl⟩

/-- A call that does not return an error early is one `build_spec` is about. -/
theorem build_early (fl : F64 F) (h : ¬ ∃ e, build fl inventory context devices reserve = .err e) :
    unsupported inventory = false ∧ 1 ≤ devices.length ∧
      devices.length ≤ min 63 inventory.facts.layers.toNat := by
  rw [build] at h
  split_ifs at h with hu hc
  · exact absurd ⟨_, rfl⟩ h
  · exact absurd ⟨_, rfl⟩ h
  · exact ⟨Bool.eq_false_iff.2 hu, by omega, by omega⟩

theorem planOf_append (init : List ℕ) (last : ℕ) :
    planOf (init ++ [last]) = ⟨init.map UInt32.ofNat ++ [UInt32.ofNat last + 1]⟩ := by
  rw [planOf, List.map_append, List.map_singleton, List.modifyLast_concat]

/-- Taking the output slot off again gives the sizes the plan was made of. -/
theorem transformerLayers_planOf {sizes : List ℕ} (hne : sizes ≠ [])
    (hlt : ∀ n ∈ sizes, n ≤ 4096) :
    (planOf sizes).layers.length = sizes.length ∧ (planOf sizes).transformerLayers = sizes := by
  obtain ⟨init, last, rfl⟩ := (List.eq_nil_or_concat' sizes).resolve_left hne
  have hcast : ∀ n, n ≤ 4096 → (UInt32.ofNat n).toNat = n := fun n hn =>
    UInt32.toNat_ofNat_of_lt' (by rw [UInt32.size]; omega)
  have hinit : (init.map UInt32.ofNat).map UInt32.toNat = init := by
    rw [List.map_map]
    exact (List.map_congr_left fun n hn => hcast n (hlt n (by simp [hn]))).trans (List.map_id' _)
  have hlast : (UInt32.ofNat last + 1).toNat - 1 = last := by
    have := hlt last (by simp)
    rw [UInt32.toNat_add, hcast last this]
    simp only [UInt32.toNat_one]
    omega
  rw [planOf_append]
  refine ⟨by simp, ?_⟩
  rw [Plan.transformerLayers, List.map_append, List.map_singleton, List.modifyLast_concat, hinit,
    hlast]

/-- The `u128` arithmetic never overflows: the charge of a whole supported model and the sum of the
budgets stay below `2 ^ 128`. -/
theorem charges_lt_u128 (hu : unsupported inventory = false) (hcount : devices.length ≤ 63) :
    (prefixSums (kvCharge inventory.facts context) inventory.layerBytes).getD
        inventory.facts.layers.toNat 0 + inventory.outputBytes.toNat < 2 ^ 128 ∧
      (devices.map (budget reserve)).sum < 2 ^ 128 := by
  obtain ⟨hlayers, hlen⟩ := not_unsupported hu
  have hkv : kvCharge inventory.facts context ≤ 4 * 2 ^ 32 * 2 ^ 32 * 2 ^ 32 := by
    have h1 := inventory.facts.kvHeads.toNat_lt
    have h2 := (inventory.facts.hiddenDim / inventory.facts.heads).toNat_lt
    have h3 := context.toNat_lt
    unfold kvCharge
    gcongr
  have hlayer : ∀ b : UInt64, b.toNat + kvCharge inventory.facts context ≤ 2 ^ 99 := fun b => by
    have := b.toNat_lt
    omega
  have hprefix : (prefixSums (kvCharge inventory.facts context) inventory.layerBytes).getD
      inventory.facts.layers.toNat 0 ≤ 4096 * 2 ^ 99 := by
    simp only [prefixSums, Nat.add_assoc]
    rw [← hlen, getD_scanl_add (fun b : UInt64 => b.toNat + _) _ 0 le_rfl, hlen]
    calc _ ≤ ∑ _l ∈ Finset.range inventory.facts.layers.toNat, 2 ^ 99 :=
          Finset.sum_le_sum fun l _ => hlayer _
      _ = inventory.facts.layers.toNat * 2 ^ 99 := by simp
      _ ≤ 4096 * 2 ^ 99 := Nat.mul_le_mul_right _ hlayers
  have hbudget : (devices.map (budget reserve)).sum ≤ devices.length * 2 ^ 64 := by
    have := List.sum_le_card_nsmul (devices.map (budget reserve)) (2 ^ 64) fun b hb => ?_
    · simpa using this
    · obtain ⟨device, -, rfl⟩ := List.mem_map.1 hb
      have := device.freeMemory.toNat_lt
      exact (Nat.sub_le _ _).trans ((Nat.min_le_left _ _).trans this.le)
  have houtput := inventory.outputBytes.toNat_lt
  constructor
  · omega
  · omega

/-- **A plan that is returned fits**, whatever values the distance scores take. -/
theorem build_sound (fl : F64 F) {plan : Plan}
    (h : build fl inventory context devices reserve = .ok plan) :
    plan.layers.length = devices.length ∧
      Fits inventory context devices reserve plan.transformerLayers := by
  obtain ⟨hu, hpos, hcount⟩ := build_early fl (by rw [h]; rintro ⟨e, ⟨⟩⟩)
  rcases build_spec fl context reserve hu hpos hcount with
    ⟨sizes, hfits, hok⟩ | ⟨-, e, herr⟩
  · obtain rfl : planOf sizes = plan := by
      rw [hok] at h
      exact Outcome.ok.inj h
    have hne : sizes ≠ [] := by
      rintro rfl
      have := hfits.length_eq
      simp only [List.length_nil] at this
      omega
    have hle : ∀ n ∈ sizes, n ≤ 4096 := fun n hn =>
      (List.single_le_sum (fun _ _ => Nat.zero_le _) n hn).trans
        (hfits.sum_eq.trans_le (not_unsupported hu).1)
    obtain ⟨hlength, hsizes⟩ := transformerLayers_planOf hne hle
    rw [hlength, hsizes]
    exact ⟨hfits.length_eq, hfits⟩
  · rw [h] at herr
    cases herr

/-- Exact arithmetic; on numbers of a few digits `f64` orders the distances the same way. -/
def F64.exact : F64 ℚ where
  ofU128 n := n
  mul := (· * ·)
  div := (· / ·)
  sub := (· - ·)
  abs := fun x => |x|
  totalCmp := fun a b => if a < b then .lt else if b < a then .gt else .eq

/-- Three layers of uneven sizes. -/
def unevenModel : ModelInventory where
  facts := ⟨"llama", 3, 1, 1, 1, 2048⟩
  layerBytes := [800, 100, 100]
  outputBytes := 0

/-- A GPU with all its memory free. -/
def gpu (bytes : UInt64) : GpuDevice := ⟨"GPU", "test GPU", "gpu", bytes, bytes⟩

theorem fits_uneven : Fits unevenModel 0 [gpu 900, gpu 300] 0 [1, 2] := by
  refine ⟨rfl, by decide, by decide, fun i device h => ?_⟩
  rcases i with _ | _ | i
  · obtain rfl : gpu 900 = device := by simpa using h
    decide
  · obtain rfl : gpu 300 = device := by simpa using h
    decide
  · simp at h

theorem build_sound_uneven :
    (Plan.mk [1, 3]).layers.length = [gpu 900, gpu 300].length ∧
      Fits unevenModel 0 [gpu 900, gpu 300] 0 (Plan.mk [1, 3]).transformerLayers :=
  build_sound F64.exact (by decide)

/-- **The planner is complete**: it returns a plan whenever some contiguous allocation fits, and it
never meets a GPU without a candidate cut. -/
theorem build_complete (fl : F64 F) (inventory : ModelInventory) (context : UInt32)
    (devices : List GpuDevice) (reserve : UInt64) :
    (unsupported inventory = false → 1 ≤ devices.length →
        devices.length ≤ min 63 inventory.facts.layers.toNat →
        (∃ sizes, Fits inventory context devices reserve sizes) →
        ∃ plan, build fl inventory context devices reserve = .ok plan) ∧
      ∀ message, build fl inventory context devices reserve ≠ .panic message := by
  constructor
  · intro hu hpos hcount hex
    rcases build_spec fl context reserve hu hpos hcount with
      ⟨sizes, -, hok⟩ | ⟨hnone, -⟩
    · exact ⟨_, hok⟩
    · exact absurd hex hnone
  · intro message hpanic
    obtain ⟨hu, hpos, hcount⟩ := build_early fl (by rw [hpanic]; rintro ⟨e, ⟨⟩⟩)
    rcases build_spec fl context reserve hu hpos hcount with
      ⟨sizes, -, hok⟩ | ⟨-, e, herr⟩
    · rw [hpanic] at hok
      cases hok
    · rw [hpanic] at herr
      cases herr

theorem build_complete_uneven :
    ∃ plan, build F64.exact unevenModel 0 [gpu 900, gpu 300] 0 = .ok plan :=
  (build_complete F64.exact unevenModel 0 [gpu 900, gpu 300] 0).1 (by decide) (by decide)
    (by decide) ⟨[1, 2], fits_uneven⟩

end Daemon

end Latticed
