import Latticed.Net.TrustFile
import Mathlib.Logic.Function.Basic

/-!
# Several stores on one file

Stores may have been read from one file at different times, by one process or by several.  Each keeps
what it read, and writes that back with its own change.

* `Handles.Sound.step` : what is in the file after a call that returns.
* `no_lost_update_iff` : which runs of changes through several stores lose none of them.
* `removed_device_returns` : a device that was forgotten through one store comes back through another.
-/

namespace Latticed

namespace Net

variable {Key : Type}

/-- A file, and the stores that were read from it: one for each `H`. -/
structure Handles (H Key : Type) where
  file : Option Bytes
  handle : H → TrustStore Key

/-- A call through one of the stores, none of which the file system disturbs. -/
inductive HandleCall (H Key : Type) where
  | load (h : H)
  | insert (h : H) (peer : PairedPeer Key)
  | remove (h : H) (id : DeviceId)

namespace Handles

variable {H : Type} [DecidableEq H]

/-- The file and the stores after a call. -/
def step (json : TrustJson Key) (σ : Handles H Key) : HandleCall H Key → Handles H Key
  | .load h =>
    match TrustStore.load json σ.file with
    | .ok s => { σ with handle := Function.update σ.handle h s }
    | .error _ => σ
  | .insert h peer =>
    let change := (σ.handle h).insertSaved json σ.file peer none
    { file := change.file, handle := Function.update σ.handle h change.store }
  | .remove h id =>
    let change := (σ.handle h).removeSaved json σ.file id none
    { file := change.file, handle := Function.update σ.handle h change.store }

/-- The call returns `Ok`. -/
def Succeeds (json : TrustJson Key) (σ : Handles H Key) : HandleCall H Key → Prop
  | .load _ => ∃ s, TrustStore.load json σ.file = .ok s
  | .insert h peer => ((σ.handle h).insertSaved json σ.file peer none).result = .ok ()
  | .remove h id => ∃ removed, ((σ.handle h).removeSaved json σ.file id none).result = .ok removed

/-- The file and the stores after these calls. -/
def run (json : TrustJson Key) (σ : Handles H Key) (calls : List (HandleCall H Key)) :
    Handles H Key :=
  calls.foldl (step json) σ

/-- Every call returns `Ok`. -/
def AllSucceed (json : TrustJson Key) (σ : Handles H Key) (calls : List (HandleCall H Key)) : Prop :=
  ∀ before call rest, calls = before ++ call :: rest → Succeeds json (run json σ before) call

/-- Whether the last call on the device was an insert; `held` where there was none. -/
def touched (id : DeviceId) (held : Bool) : HandleCall H Key → Bool
  | .load _ => held
  | .insert _ peer => if peer.deviceId = id then true else held
  | .remove _ id' => if id' = id then false else held

/-- A store that is loaded now knows the devices whose last call was an insert. -/
def Kept (json : TrustJson Key) (σ : Handles H Key) (held : DeviceId → Bool) : Prop :=
  ∃ t, TrustStore.load json σ.file = .ok t ∧ ∀ id, (t.get id).isSome = held id

/-- The stores know the same devices, `id` aside. -/
def AgreeOff (id : DeviceId) (s t : TrustStore Key) : Prop :=
  ∀ id', id' ≠ id → (s.get id').isSome = (t.get id').isSome

/-- The store a change is made through knows what the file knows, the device of the change aside; and a
device that is removed is in the store if it is in the file. -/
def InStep (json : TrustJson Key) (σ : Handles H Key) : HandleCall H Key → Prop
  | .load _ => True
  | .insert h peer => ∀ t, TrustStore.load json σ.file = .ok t →
      AgreeOff peer.deviceId (σ.handle h) t
  | .remove h id => ∀ t, TrustStore.load json σ.file = .ok t →
      if ((σ.handle h).get id).isSome then AgreeOff id (σ.handle h) t else t.get id = none

/-- The file loads, and the stores are in order. -/
structure Sound (json : TrustJson Key) (σ : Handles H Key) : Prop where
  loads : ∃ t, TrustStore.load json σ.file = .ok t
  keyed : ∀ h, (σ.handle h).Keyed

/-- What the file holds after a call that returns. -/
def written (σ : Handles H Key) (t : TrustStore Key) : HandleCall H Key → TrustStore Key
  | .load _ => t
  | .insert h peer => ((σ.handle h).insert peer (.ok ())).1
  | .remove h id => if ((σ.handle h).get id).isSome then (σ.handle h).erase id else t

variable {json : TrustJson Key} {σ : Handles H Key} {t : TrustStore Key}

/-- **A call that returns** leaves a file that loads, and what it holds. -/
theorem Sound.step (hjson : json.RoundTrips) (hsound : Sound json σ) {call : HandleCall H Key}
    (hsucceeds : Succeeds json σ call) (hload : TrustStore.load json σ.file = .ok t) :
    Sound json (σ.step json call) ∧
      TrustStore.load json (σ.step json call).file = .ok (written σ t call) := by
  have hkeyed (h : H) {s : TrustStore Key} (hs : s.Keyed) (h' : H) :
      (Function.update σ.handle h s h').Keyed := by
    by_cases heq : h' = h
    · subst heq
      rwa [Function.update_self]
    · rw [Function.update_of_ne heq]
      exact hsound.keyed h'
  cases call with
  | load h =>
    have hstep : σ.step json (.load h) = { σ with handle := Function.update σ.handle h t } := by
      unfold Handles.step
      dsimp only
      rw [hload]
    rw [hstep]
    exact ⟨⟨⟨t, hload⟩, hkeyed h (TrustStore.load_keyed hload)⟩, hload⟩
  | insert h peer =>
    -- the file is written from the store of the handle, whatever it held before
    have hs := (hsound.keyed h).insert peer (.ok ())
    have hloads : TrustStore.load json (σ.step json (.insert h peer)).file =
        .ok (written σ t (.insert h peer)) := TrustStore.load_saved hjson hs hsucceeds
    exact ⟨⟨⟨_, hloads⟩, hkeyed h hs⟩, hloads⟩
  | remove h id =>
    obtain ⟨removed, hresult⟩ := hsucceeds
    unfold TrustStore.removeSaved at hresult
    by_cases hheld : ((σ.handle h).get id).isSome
    · have hs := (hsound.keyed h).erase id
      rw [if_pos hheld] at hresult
      obtain ⟨u, hok, -⟩ := Rust.map_eq_ok.1 hresult
      have hstep : σ.step json (.remove h id) =
          ⟨(TrustStore.save json ((σ.handle h).erase id) σ.file none).1,
            Function.update σ.handle h ((σ.handle h).erase id)⟩ := by
        unfold Handles.step TrustStore.removeSaved
        dsimp only
        rw [if_pos hheld]
      have hloads : TrustStore.load json (σ.step json (.remove h id)).file =
          .ok (written σ t (.remove h id)) := by
        rw [hstep]
        unfold written
        dsimp only
        rw [if_pos hheld]
        exact TrustStore.load_saved hjson hs hok
      refine ⟨⟨⟨_, hloads⟩, ?_⟩, hloads⟩
      rw [hstep]
      exact hkeyed h hs
    -- a device that the handle does not know: nothing is written
    · have hstep : σ.step json (.remove h id) = σ := by
        unfold Handles.step TrustStore.removeSaved
        dsimp only
        rw [if_neg hheld]
        dsimp only
        rw [Function.update_eq_self]
      rw [hstep]
      refine ⟨hsound, ?_⟩
      unfold written
      dsimp only
      rwa [if_neg hheld]

omit [DecidableEq H] in
/-- **A change loses none of the others** iff its store is in step with the file. -/
theorem written_iff (hload : TrustStore.load json σ.file = .ok t) (call : HandleCall H Key) :
    (∀ id, ((written σ t call).get id).isSome = touched id (t.get id).isSome call) ↔
      InStep json σ call := by
  -- the file loads as one store, so what holds of all of them holds of it
  have hthe (P : TrustStore Key → Prop) :
      (∀ t', TrustStore.load json σ.file = .ok t' → P t') ↔ P t := by
    rw [hload]
    exact ⟨fun h => h t rfl, fun h t' heq => Except.ok.inj heq ▸ h⟩
  cases call with
  | load h => exact ⟨fun _ => trivial, fun _ id => rfl⟩
  | insert h peer =>
    unfold InStep
    dsimp only
    rw [hthe]
    constructor
    · intro hsame id hne
      have := hsame id
      unfold written touched at this
      dsimp only at this
      rwa [TrustStore.get_insert, if_neg hne.symm, if_neg hne.symm] at this
    · intro hagree id
      unfold written touched
      dsimp only
      rw [TrustStore.get_insert]
      split_ifs with hid
      · rfl
      · exact hagree id fun heq => hid heq.symm
  | remove h id' =>
    unfold InStep
    dsimp only
    rw [hthe]
    unfold written touched
    dsimp only
    split_ifs with hheld
    · constructor
      · intro hsame id hne
        have := hsame id
        rwa [TrustStore.get_erase, if_neg hne.symm, if_neg hne.symm] at this
      · intro hagree id
        rw [TrustStore.get_erase]
        split_ifs with hid
        · rfl
        · exact hagree id fun heq => hid heq.symm
    · constructor
      · intro hsame
        have := hsame id'
        rw [if_pos rfl] at this
        exact Option.isNone_iff_eq_none.1 (Option.isSome_eq_false_iff.1 this)
      · intro hnone id
        split_ifs with hid
        · subst hid
          rw [hnone]
          rfl
        · rfl

/-- Whether the last call on the device was an insert; where there was none, whether it was known at the
start. -/
def lastInsert (s : TrustStore Key) (calls : List (HandleCall H Key)) (id : DeviceId) : Bool :=
  calls.foldl (touched id) (s.get id).isSome

/-- Stores that were all read from this file. -/
def loaded (file : Option Bytes) (s : TrustStore Key) : Handles H Key := ⟨file, fun _ => s⟩

theorem run_concat (calls : List (HandleCall H Key)) (call : HandleCall H Key) :
    run json σ (calls ++ [call]) = (run json σ calls).step json call := by
  unfold run
  rw [List.foldl_append]
  rfl

omit [DecidableEq H] in
theorem lastInsert_concat (s : TrustStore Key) (calls : List (HandleCall H Key))
    (call : HandleCall H Key) (id : DeviceId) :
    lastInsert s (calls ++ [call]) id = touched id (lastInsert s calls id) call := by
  unfold lastInsert
  rw [List.foldl_append]
  rfl

theorem run_sound (hjson : json.RoundTrips) {file : Option Bytes} {s : TrustStore Key}
    (hload : TrustStore.load json file = .ok s) {calls : List (HandleCall H Key)}
    (hsucceed : AllSucceed json (loaded file s) calls) :
    Sound json (run json (loaded file s) calls) := by
  refine foldl_guarded (P := Sound json) (G := Succeeds json) ?_ ?_ hsucceed
  · rintro σ call hok hsound
    obtain ⟨t, ht⟩ := hsound.loads
    exact (hsound.step hjson hok ht).1
  · exact ⟨⟨s, hload⟩, fun _ => TrustStore.load_keyed hload⟩

end Handles

open Handles in
/-- **When no update is lost**: of the calls that several stores on one file return from, the file has
kept every one at every moment iff each change was made through a store that was in step with the
file. -/
theorem no_lost_update_iff {H : Type} [DecidableEq H] {json : TrustJson Key}
    (hjson : json.RoundTrips) {file : Option Bytes} {s : TrustStore Key}
    (hload : TrustStore.load json file = .ok s) {calls : List (HandleCall H Key)}
    (hsucceed : AllSucceed json (loaded file s) calls) :
    (∀ before rest, calls = before ++ rest →
        Kept json (run json (loaded file s) before) (lastInsert s before)) ↔
      ∀ before call rest, calls = before ++ call :: rest →
        InStep json (run json (loaded file s) before) call := by
  -- a call keeps what was kept before it iff it is in step
  have hone (before : List (HandleCall H Key)) (call : HandleCall H Key)
      (rest : List (HandleCall H Key)) (heq : calls = before ++ call :: rest)
      (hkept : Kept json (run json (loaded file s) before) (lastInsert s before)) :
      Kept json (run json (loaded file s) (before ++ [call])) (lastInsert s (before ++ [call])) ↔
        InStep json (run json (loaded file s) before) call := by
    obtain ⟨t, ht, hheld⟩ := hkept
    have hbefore : AllSucceed json (loaded file s) before := fun b c r h =>
      hsucceed b c (r ++ call :: rest) (by simp [heq, h])
    have hsound := run_sound hjson hload hbefore
    obtain ⟨-, hafter⟩ := hsound.step hjson (hsucceed before call rest heq) ht
    rw [← written_iff ht call, run_concat]
    unfold Kept
    rw [hafter]
    constructor
    · rintro ⟨t', ht', hsame⟩ id
      cases ht'
      rw [hsame, lastInsert_concat, hheld]
    · intro hsame
      refine ⟨_, rfl, fun id => ?_⟩
      rw [hsame, lastInsert_concat, hheld]
  constructor
  · intro h before call rest heq
    exact (hone before call rest heq (h before _ heq)).1 (h (before ++ [call]) rest (by simp [heq]))
  · intro h before
    induction before using List.reverseRecOn with
    | nil => exact fun _ _ => ⟨s, hload, fun id => rfl⟩
    | append_singleton before call ih =>
      intro rest heq
      have heq' : calls = before ++ call :: rest := by simp [heq]
      exact (hone before call rest heq' (ih _ heq')).2 (h before call rest heq')

/-- The second store is read after the first one has paired with the laptop, and forgets it. -/
theorem no_lost_update_reread :
    let calls : List (HandleCall Side UInt8) := [.insert .a laptop, .load .b, .remove .b 1]
    let σ := Handles.run sampleJson (Handles.loaded none .empty) calls
    Handles.Kept sampleJson σ (Handles.lastInsert .empty calls) ∧
      Handles.lastInsert .empty calls 1 = false := by
  intro calls σ
  let start : Handles Side UInt8 := Handles.loaded none .empty
  let known : TrustStore UInt8 := (TrustStore.empty.insert laptop (.ok ())).1
  have hinsert : Handles.Succeeds sampleJson start (.insert .a laptop) := by
    show (TrustStore.empty.insertSaved sampleJson none laptop none).result = .ok ()
    decide +kernel
  have hstart : Handles.Sound sampleJson start := ⟨⟨_, rfl⟩, fun _ => TrustStore.keyed_empty⟩
  have hpaired := (hstart.step sampleJson_roundTrips hinsert rfl).2
  obtain ⟨paired, hpairing⟩ : ∃ σ, start.step sampleJson (.insert .a laptop) = σ := ⟨_, rfl⟩
  rw [hpairing] at hpaired
  change TrustStore.load sampleJson paired.file = .ok known at hpaired
  have hread : paired.step sampleJson (.load .b) = ⟨paired.file, Function.update paired.handle .b known⟩ := by
    unfold Handles.step
    dsimp only
    rw [hpaired]
  have hremove : Handles.Succeeds sampleJson (paired.step sampleJson (.load .b)) (.remove .b 1) := by
    have hempty : sampleJson.encode (known.erase 1).records = .ok (Rust.asBytes "[]") := by
      decide +kernel
    have hheld : (known.get 1).isSome = true := by decide
    rw [hread]
    refine ⟨true, ?_⟩
    show (known.removeSaved sampleJson _ 1 none).result = _
    unfold TrustStore.removeSaved TrustStore.save
    rw [if_pos hheld, hempty]
    rfl
  have hsucceed : Handles.AllSucceed sampleJson start calls := by
    refine guarded_cons hinsert ?_
    rw [hpairing]
    exact guarded_cons ⟨known, hpaired⟩ (guarded_cons hremove guarded_nil)
  have hinstep : Handles.InStep sampleJson (paired.step sampleJson (.load .b)) (.remove .b 1) := by
    rw [hread]
    intro t ht
    obtain rfl : known = t := Except.ok.inj (hpaired.symm.trans ht)
    exact fun id _ => rfl
  have hfirst : Handles.InStep sampleJson start (.insert .a laptop) := by
    intro t ht id _
    cases ht
    rfl
  have hstep : ∀ before call rest, calls = before ++ call :: rest →
      Handles.InStep sampleJson (Handles.run sampleJson start before) call := by
    refine guarded_cons hfirst ?_
    rw [hpairing]
    exact guarded_cons trivial (guarded_cons hinstep guarded_nil)
  exact ⟨(no_lost_update_iff sampleJson_roundTrips rfl hsucceed).2 hstep calls [] (by simp), rfl⟩

/-- **A device that was forgotten comes back**: two stores know the laptop, the first one forgets it, and
the second one pairs with a tablet. -/
theorem removed_device_returns :
    let calls : List (HandleCall Side UInt8) :=
      [.insert .a laptop, .load .b, .remove .a 1, .insert .b tablet]
    let σ := Handles.run sampleJson (Handles.loaded none .empty) calls
    Handles.AllSucceed sampleJson (Handles.loaded none .empty) calls ∧
      Handles.lastInsert .empty calls 1 = false ∧
      ∃ t, TrustStore.load sampleJson σ.file = .ok t ∧ t.get 1 = some laptop := by
  intro calls σ
  have hload {file : Option Bytes} (peers : List (PairedPeer UInt8))
      (h : file.map sampleJson.decode = some (.ok peers)) :
      TrustStore.load sampleJson file = .ok (TrustStore.ofRecords peers) :=
    TrustStore.load_of_decode h
  refine ⟨?_, rfl, _, hload [laptop, tablet] (by decide +kernel), by decide⟩
  have hinsert (σ : Handles Side UInt8) (h : Side) (peer : PairedPeer UInt8)
      (hresult : ((σ.handle h).insertSaved sampleJson σ.file peer none).result = .ok ()) :
      Handles.Succeeds sampleJson σ (.insert h peer) := hresult
  refine guarded_cons (hinsert _ _ _ ?_) (guarded_cons ⟨_, hload [laptop] ?_⟩
    (guarded_cons ⟨true, ?_⟩ (guarded_cons (hinsert _ _ _ ?_) guarded_nil)))
  all_goals decide +kernel

end Net

end Latticed
