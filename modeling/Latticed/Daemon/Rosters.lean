import Latticed.Daemon.Introductions
import Mathlib.Logic.Function.Basic

/-!
# Rosters, one lock at a time

A device takes the entries of a roster one after the other, and an entry that it refuses does not undo
the entries before it.  Whether a device is known is read under one lock and the record is written under
another, so other requests and pairings come in between.

* `refused_changes_nothing_iff` : when a request that is refused has changed nothing.
* `Accepting.run_eq` : a request that is alone does what `accept_introductions` does in one go.
* `never_overwrite` : introductions replace no record in runs in which nobody records a device between
  the check and the insert of another request.
* `paired_device_overwritten` : otherwise a device the user paired with is recorded as introduced.
-/

namespace Latticed

namespace Daemon

open Net

variable {Key : Type} [PublicKey Key] {self sender : DeviceId} {store : TrustStore Key}

/-! ### Refusals -/

/-- Every key is one, and every record that is written is saved. -/
def AllRecorded (self sender : DeviceId) (store : TrustStore Key) : List Arrival → Prop
  | [] => True
  | a :: rest =>
    match (PublicKey.fromBytes a.introduction.publicKey : Except String Key) with
    | .error _ => False
    | .ok k =>
      if PublicKey.deviceId k = self ∨ knows store (PublicKey.deviceId k) then
        AllRecorded self sender store rest
      else a.save = .ok () ∧
        AllRecorded self sender (store.insert (.introduced k a.introduction.name
          a.introduction.platform a.now sender) a.save).1 rest

/-- **A roster is taken in full** iff every key is one and every record is saved. -/
theorem acceptFrom_refused_iff {added known : ℕ} {peers : List Arrival} :
    (∃ why, (acceptFrom self sender store added known peers).2 = .refused why) ↔
      ¬ AllRecorded self sender store peers := by
  induction peers generalizing store added known with
  | nil => exact ⟨fun ⟨_, h⟩ => (by cases h), fun h => absurd trivial h⟩
  | cons a rest ih =>
    rw [acceptFrom, AllRecorded, intoPeer_eq]
    cases (PublicKey.fromBytes a.introduction.publicKey : Except String Key) with
    | error e => exact ⟨fun _ h => h, fun _ => ⟨_, rfl⟩⟩
    | ok k =>
      dsimp only
      rw [PairedPeer.introduced_deviceId]
      by_cases hknown : PublicKey.deviceId k = self ∨ knows store (PublicKey.deviceId k)
      · rw [if_pos hknown, if_pos hknown]
        exact ih
      · rw [if_neg hknown, if_neg hknown]
        cases a.save with
        | error e => exact ⟨fun _ h => (by cases h.1), fun _ => ⟨_, rfl⟩⟩
        | ok u =>
          dsimp only [TrustStore.insert]
          rw [ih]
          exact ⟨fun h hall => h hall.2, fun h hall => h ⟨rfl, hall⟩⟩

/-- **When a request that is refused has changed nothing**: its sender is not known, or no entry before the
first key that is not one is new, or it is not refused at all. -/
theorem refused_changes_nothing_iff (self : DeviceId) (store : TrustStore Key) (sender : DeviceId)
    (peers : List Arrival) :
    ((∃ why, (acceptIntroductions self store sender peers).2 = .refused why) →
        ∀ id, (acceptIntroductions self store sender peers).1.get id = store.get id) ↔
      knows store sender = false ∨ OnlyKnown self store peers ∨
        AllRecorded self sender store peers := by
  unfold acceptIntroductions
  by_cases hknown : knows store sender = true
  · rw [if_pos hknown, acceptFrom_refused_iff]
    constructor
    · intro h
      refine Or.inr (or_iff_not_imp_right.2 fun hrefused => ?_)
      by_contra honly
      -- the first new device of the roster stays, so the store has changed
      obtain ⟨id, peer, hnone, -, hget⟩ := @exists_new_of_not_onlyKnown _ _ self sender _ 0 0 _ honly
      rw [h hrefused id, hnone] at hget
      cases hget
    · rintro (hunknown | honly | hall) hrefused id
      · rw [hknown] at hunknown
        cases hunknown
      · rw [acceptFrom_of_onlyKnown honly]
      · exact absurd hall hrefused
  · rw [if_neg hknown]
    exact ⟨fun _ => Or.inl (Bool.eq_false_of_not_eq_true hknown), fun _ _ _ => rfl⟩

/-- The second of two new devices cannot be saved: the request is refused, and the first one stays. -/
theorem refused_changes_store :
    let store : TrustStore UInt8 := (TrustStore.empty.insert (.new 1 "master" "linux" 0) (.ok ())).1
    let failing : Arrival :=
      ⟨⟨Vector.replicate 32 3, "tablet", "linux"⟩, 0, .error (.io "No space left on device")⟩
    let after := acceptIntroductions 9 store 1 (oneKey 2 ++ [failing])
    (∃ why, after.2 = .refused why) ∧ store.get 2 = none ∧ (after.1.get 2).isSome := by
  intro store failing after
  exact ⟨⟨_, rfl⟩, by decide, by decide⟩

/-! ### One request, lock by lock -/

/-- Where a request is: which section under a lock comes next. -/
inductive AcceptPhase (Key : Type) where
  /-- Whether the sender is known is read. -/
  | sender
  /-- Whether the device of the next entry is known is read. -/
  | entry
  /-- The device was not known, and its record is written. -/
  | insert (peer : PairedPeer Key) (save : Except NetError Unit)
  | answered (response : Response)

/-- A request that is being handled: its sender, the entries that are left, and what was counted. -/
structure Accepting (Key : Type) where
  sender : DeviceId
  peers : List Arrival
  added : ℕ
  alreadyKnown : ℕ
  phase : AcceptPhase Key

namespace Accepting

/-- A request that has just arrived. -/
def new (sender : DeviceId) (peers : List Arrival) : Accepting Key :=
  { sender, peers, added := 0, alreadyKnown := 0, phase := .sender }

/-- The next section of `accept_introductions`. -/
def step (self : DeviceId) (store : TrustStore Key) (c : Accepting Key) :
    TrustStore Key × Accepting Key :=
  match c.phase with
  | .sender =>
    if knows store c.sender then (store, { c with phase := .entry })
    else
      let why := c.sender.display ++ " is not a paired device"
      (store, { c with phase := .answered (.refused why) })
  | .entry =>
    match c.peers with
    | [] => (store, { c with phase := .answered (.provisioned c.added c.alreadyKnown) })
    | a :: rest =>
      match (a.introduction.intoPeer c.sender a.now : Except NetError (PairedPeer Key)) with
      | .error e => (store, { c with phase := .answered (.refused e.display) })
      | .ok peer =>
        if peer.deviceId = self ∨ knows store peer.deviceId then
          (store, { c with peers := rest, alreadyKnown := c.alreadyKnown + 1 })
        else (store, { c with peers := rest, phase := .insert peer a.save })
  | .insert peer save =>
    match store.insert peer save with
    | (store, .error e) =>
      let why := "could not record the introduction: " ++ e.display
      (store, { c with phase := .answered (.refused why) })
    | (store, .ok ()) => (store, { c with added := c.added + 1, phase := .entry })
  | .answered _ => (store, c)

/-- This many sections in a row. -/
def steps (self : DeviceId) : ℕ → TrustStore Key → Accepting Key → TrustStore Key × Accepting Key
  | 0, store, c => (store, c)
  | n + 1, store, c =>
    let next := c.step self store
    steps self n next.1 next.2

/-- From an entry on, a request that is alone does what the loop does. -/
theorem steps_entry (self sender : DeviceId) (store : TrustStore Key) (peers : List Arrival)
    (added known : ℕ) : ∃ n c, steps self n store ⟨sender, peers, added, known, .entry⟩ =
      ((acceptFrom self sender store added known peers).1, c) ∧
        c.phase = .answered (acceptFrom self sender store added known peers).2 := by
  induction peers generalizing store added known with
  | nil => exact ⟨1, _, rfl, rfl⟩
  | cons a rest ih =>
    rw [acceptFrom]
    cases hpeer : (a.introduction.intoPeer sender a.now : Except NetError (PairedPeer Key)) with
    | error e =>
      refine ⟨1, ⟨sender, a :: rest, added, known, .answered (.refused e.display)⟩, ?_, rfl⟩
      unfold steps step
      dsimp only
      rw [hpeer]
      rfl
    | ok peer =>
      dsimp only
      by_cases hknown : peer.deviceId = self ∨ knows store peer.deviceId
      · rw [if_pos hknown]
        obtain ⟨n, c, hsteps, hphase⟩ := ih store added (known + 1)
        refine ⟨n + 1, c, ?_, hphase⟩
        unfold steps step
        dsimp only
        rw [hpeer]
        dsimp only
        rw [if_pos hknown]
        exact hsteps
      · rw [if_neg hknown]
        -- a device that is not known takes two sections, the check and the insert
        have hfirst : step self store ⟨sender, a :: rest, added, known, .entry⟩ =
            (store, ⟨sender, rest, added, known, .insert peer a.save⟩) := by
          unfold step
          dsimp only
          rw [hpeer]
          dsimp only
          rw [if_neg hknown]
        cases hsave : a.save with
        | error e =>
          refine ⟨2, ⟨sender, rest, added, known,
            .answered (.refused ("could not record the introduction: " ++ e.display))⟩, ?_, rfl⟩
          rw [steps, hfirst, hsave]
          rfl
        | ok u =>
          obtain ⟨n, c, hsteps, hphase⟩ := ih (store.insert peer (.ok ())).1 (added + 1) known
          refine ⟨n + 2, c, ?_, hphase⟩
          rw [steps, hfirst, hsave]
          exact hsteps

/-- **A request that is alone** does what `accept_introductions` does in one go. -/
theorem run_eq (self sender : DeviceId) (store : TrustStore Key) (peers : List Arrival) :
    ∃ n c, steps self n store (new sender peers) =
        ((acceptIntroductions self store sender peers).1, c) ∧
      c.phase = .answered (acceptIntroductions self store sender peers).2 := by
  unfold acceptIntroductions
  by_cases hknown : knows store sender = true
  · rw [if_pos hknown]
    obtain ⟨n, c, hsteps, hphase⟩ := steps_entry self sender store peers 0 0
    refine ⟨n + 1, c, ?_, hphase⟩
    unfold steps step new
    dsimp only
    rw [if_pos hknown]
    exact hsteps
  · rw [if_neg hknown]
    refine ⟨1, ⟨sender, peers, 0, 0,
      .answered (.refused (sender.display ++ " is not a paired device"))⟩, ?_, rfl⟩
    unfold steps step new
    dsimp only
    rw [if_neg hknown]
    rfl

end Accepting

/-! ### Many requests and pairings -/

/-- A store, and the requests that are being handled. -/
structure Rosters (Key : Type) where
  store : TrustStore Key
  calls : ℕ → Option (Accepting Key)

/-- What happens: a request arrives, a request gets on by one section under a lock, or the user pairs with
a device directly. -/
inductive RosterEvent (Key : Type) where
  | arrive (n : ℕ) (sender : DeviceId) (peers : List Arrival)
  | step (n : ℕ)
  | pair (publicKey : Key) (name platform : String) (now : UInt64) (save : Except NetError Unit)

namespace Rosters

/-- One event.  What cannot happen changes nothing. -/
def step (self : DeviceId) (σ : Rosters Key) : RosterEvent Key → Rosters Key
  | .arrive n sender peers =>
    match σ.calls n with
    | none => { σ with calls := Function.update σ.calls n (some (.new sender peers)) }
    | some _ => σ
  | .step n =>
    match σ.calls n with
    | none => σ
    | some c =>
      let next := c.step self σ.store
      { store := next.1, calls := Function.update σ.calls n (some next.2) }
  | .pair publicKey name platform now save =>
    { σ with store := (σ.store.insert (.new publicKey name platform now) save).1 }

/-- The store and the requests after these events. -/
def run (self : DeviceId) (store : TrustStore Key) (events : List (RosterEvent Key)) :
    Rosters Key :=
  events.foldl (step self) ⟨store, fun _ => none⟩

/-- The record a request is about to write. -/
def pending (σ : Rosters Key) (n : ℕ) : Option (PairedPeer Key) :=
  (σ.calls n).bind fun c =>
    match c.phase with
    | .insert peer _ => some peer
    | _ => none

/-- The record an event writes. -/
def writes (σ : Rosters Key) : RosterEvent Key → Option (PairedPeer Key)
  | .arrive _ _ _ => none
  | .step n => σ.pending n
  | .pair publicKey name platform now _ => some (.new publicKey name platform now)

/-- What an event writes is not what another request has checked and is about to write differently. -/
def Alone (σ : Rosters Key) (e : RosterEvent Key) : Prop :=
  ∀ p m q, σ.writes e = some p → e ≠ .step m → σ.pending m = some q →
    q.deviceId = p.deviceId → q = p

/-- A record that is about to be written is new, or it is there already. -/
def Fresh (σ : Rosters Key) : Prop :=
  ∀ n p, σ.pending n = some p → σ.store.get p.deviceId = none ∨ σ.store.get p.deviceId = some p

/-- What a section of a request writes. -/
theorem step_store (σ : Rosters Key) (n : ℕ) : (σ.step self (.step n)).store =
    match σ.pending n with
    | some p => (σ.store.insert p (.ok ())).1
    | none => σ.store := by
  unfold step pending
  dsimp only
  cases σ.calls n with
  | none => rfl
  | some c =>
    show (c.step self σ.store).1 = _
    unfold Accepting.step
    obtain ⟨sender, peers, added, known, phase⟩ := c
    cases phase with
    | sender =>
      dsimp only [Option.bind]
      split_ifs <;> rfl
    | entry =>
      cases peers with
      | nil => rfl
      | cons a rest =>
        dsimp only [Option.bind]
        cases (a.introduction.intoPeer sender a.now : Except NetError (PairedPeer Key)) with
        | error e => rfl
        | ok peer =>
          dsimp only
          split_ifs <;> rfl
    | insert peer save => cases save <;> rfl
    | answered response => rfl

/-- What a request is about to write after a section of it was not known before. -/
theorem step_pending {σ : Rosters Key} {n : ℕ} {p : PairedPeer Key}
    (h : (σ.step self (.step n)).pending n = some p) :
    σ.store.get p.deviceId = none ∧ σ.pending n = none := by
  unfold step pending at h
  unfold pending
  dsimp only at h
  cases hc : σ.calls n with
  | none =>
    rw [hc] at h
    dsimp only at h
    rw [hc] at h
    cases h
  | some c =>
    rw [hc] at h
    dsimp only at h
    rw [Function.update_self] at h
    unfold Accepting.step at h
    obtain ⟨sender, peers, added, known, phase⟩ := c
    cases phase with
    | sender =>
      dsimp only at h
      split_ifs at h <;> cases h
    | entry =>
      cases peers with
      | nil => cases h
      | cons a rest =>
        dsimp only at h
        cases hpeer : (a.introduction.intoPeer sender a.now : Except NetError (PairedPeer Key)) with
        | error e =>
          rw [hpeer] at h
          cases h
        | ok peer =>
          rw [hpeer] at h
          dsimp only at h
          split_ifs at h with hknown
          · cases h
          · cases h
            exact ⟨knows_eq_false.1 (Bool.eq_false_of_not_eq_true (not_or.1 hknown).2), rfl⟩
    | insert peer save => cases save <;> cases h
    | answered response => cases h

/-- An event of one request leaves the others. -/
theorem step_calls_of_ne (σ : Rosters Key) {e : RosterEvent Key} {m : ℕ} (hstep : e ≠ .step m)
    (harrive : ∀ sender peers, e ≠ .arrive m sender peers) :
    (σ.step self e).calls m = σ.calls m := by
  cases e with
  | arrive n sender peers =>
    have hne : m ≠ n := fun heq => harrive sender peers (heq ▸ rfl)
    unfold step
    dsimp only
    cases σ.calls n with
    | none => exact Function.update_of_ne hne _ _
    | some c => rfl
  | step n =>
    have hne : m ≠ n := fun heq => hstep (heq ▸ rfl)
    unfold step
    dsimp only
    cases σ.calls n with
    | none => rfl
    | some c => exact Function.update_of_ne hne _ _
  | pair publicKey name platform now save => rfl

/-- What a request is about to write, after an event that is not a section of it. -/
theorem step_pending_of_ne {σ : Rosters Key} {e : RosterEvent Key} {m : ℕ} (h : e ≠ .step m)
    {p : PairedPeer Key} (hp : (σ.step self e).pending m = some p) : σ.pending m = some p := by
  by_cases harrive : ∃ sender peers, e = .arrive m sender peers
  · obtain ⟨sender, peers, rfl⟩ := harrive
    unfold step pending at hp
    dsimp only at hp
    unfold pending
    cases hc : σ.calls m with
    | some c =>
      rw [hc] at hp
      dsimp only at hp
      rwa [hc] at hp
    | none =>
      rw [hc] at hp
      dsimp only at hp
      rw [Function.update_self] at hp
      cases hp
  · have hcalls : (σ.step self e).calls m = σ.calls m :=
      step_calls_of_ne σ h fun sender peers heq => harrive ⟨sender, peers, heq⟩
    rwa [pending, hcalls] at hp

/-- What an event leaves in the store. -/
theorem store_step (σ : Rosters Key) (e : RosterEvent Key) : (σ.step self e).store =
    match σ.writes e with
    | some p => (σ.store.insert p (.ok ())).1
    | none => σ.store := by
  cases e with
  | arrive n sender peers =>
    unfold step
    dsimp only
    cases σ.calls n <;> rfl
  | step n => exact step_store σ n
  | pair publicKey name platform now save => rfl

/-- **Requests that are not overtaken** write new records. -/
theorem Fresh.step {σ : Rosters Key} (hfresh : Fresh σ) {e : RosterEvent Key} (halone : Alone σ e) :
    Fresh (σ.step self e) := by
  intro m q hq
  rw [store_step]
  by_cases hthis : e = .step m
  · subst hthis
    obtain ⟨hnone, hidle⟩ := step_pending hq
    have hwrites : σ.writes (.step m) = none := hidle
    rw [hwrites]
    exact Or.inl hnone
  · have hbefore := step_pending_of_ne hthis hq
    cases hwrites : σ.writes e with
    | none => exact hfresh m q hbefore
    | some p =>
      dsimp only
      rw [TrustStore.get_insert]
      split_ifs with hid
      -- the event writes the device that this request has checked, and then the same record
      · obtain rfl := halone p m q hwrites hthis hbefore hid.symm
        exact Or.inr rfl
      · exact hfresh m q hbefore

/-- A section of a request whose record is new keeps every record. -/
theorem Fresh.keeps {σ : Rosters Key} (hfresh : Fresh σ) (n : ℕ) {id : DeviceId}
    {p : PairedPeer Key} (hp : σ.store.get id = some p) :
    (σ.step self (.step n)).store.get id = some p := by
  rw [step_store]
  cases hpending : σ.pending n with
  | none => exact hp
  | some q =>
    dsimp only
    rw [TrustStore.get_insert]
    split_ifs with hid
    · subst hid
      rcases hfresh n q hpending with hnone | hsame
      · rw [hnone] at hp
        cases hp
      · exact hsame.symm.trans hp
    · exact hp

/-- A device that was paired with directly stays one. -/
theorem Fresh.direct {σ : Rosters Key} (hfresh : Fresh σ) (e : RosterEvent Key) {id : DeviceId}
    (h : Direct σ.store id) : Direct (σ.step self e).store id := by
  obtain ⟨p, hp, hby⟩ := h
  cases e with
  | arrive n sender peers =>
    rw [store_step]
    exact ⟨p, hp, hby⟩
  | step n => exact ⟨p, hfresh.keeps n hp, hby⟩
  | pair publicKey name platform now save =>
    show ∃ q, (σ.store.insert (.new publicKey name platform now) save).1.get id = some q ∧ _
    rw [TrustStore.get_insert]
    split_ifs
    · exact ⟨_, rfl, rfl⟩
    · exact ⟨p, hp, hby⟩

theorem run_concat (self : DeviceId) (store : TrustStore Key) (events : List (RosterEvent Key))
    (e : RosterEvent Key) : run self store (events ++ [e]) = (run self store events).step self e := by
  unfold run
  rw [List.foldl_append]
  rfl

/-- Every event of the run is alone. -/
def AllAlone (self : DeviceId) (store : TrustStore Key) (events : List (RosterEvent Key)) : Prop :=
  ∀ before e rest, events = before ++ e :: rest → Alone (run self store before) e

theorem run_fresh {events : List (RosterEvent Key)} (h : AllAlone self store events) :
    Fresh (run self store events) := by
  refine foldl_guarded (P := Fresh) (G := Alone) (fun σ e halone hfresh => hfresh.step halone) ?_ h
  intro n p hp
  cases hp

theorem AllAlone.left {before rest : List (RosterEvent Key)}
    (h : AllAlone self store (before ++ rest)) : AllAlone self store before :=
  fun b e r heq => h b e (r ++ rest) (by simp [heq])

end Rosters

open Rosters in
/-- **Introductions never overwrite** in runs in which no event writes a record of a device that another
request has checked and is about to write: no section of a request changes a record that is there, and
a device that was paired with directly stays one. -/
theorem never_overwrite (self : DeviceId) (store : TrustStore Key)
    {events : List (RosterEvent Key)} (halone : AllAlone self store events) :
    (∀ before n rest, events = before ++ .step n :: rest →
      ∀ id p, (run self store before).store.get id = some p →
        (run self store (before ++ [.step n])).store.get id = some p) ∧
      ∀ before more rest, events = before ++ more ++ rest →
        ∀ id, Direct (run self store before).store id →
          Direct (run self store (before ++ more)).store id := by
  constructor
  · rintro before n rest rfl id p hp
    rw [run_concat]
    exact (run_fresh halone.left).keeps n hp
  · intro before more
    induction more using List.reverseRecOn with
    | nil =>
      intro rest _ id h
      rwa [List.append_nil]
    | append_singleton more e ih =>
      rintro rest rfl id h
      have halone' : AllAlone self store (before ++ more ++ ([e] ++ rest)) := by
        simpa using halone
      have hmore := ih ([e] ++ rest) (by simp) id h
      rw [← List.append_assoc, run_concat]
      exact (run_fresh halone'.left).direct e hmore

open Rosters in
/-- A roster is taken while nobody else writes, and a pairing comes after it. -/
theorem never_overwrite_in_turn :
    let store : TrustStore UInt8 := (TrustStore.empty.insert (.new 1 "master" "linux" 0) (.ok ())).1
    let events : List (RosterEvent UInt8) :=
      [.arrive 0 1 (oneKey 2), .step 0, .step 0, .step 0, .pair 2 "tablet" "linux" 0 (.ok ())]
    (∀ before n rest, events = before ++ .step n :: rest →
      ∀ id p, (run 9 store before).store.get id = some p →
        (run 9 store (before ++ [.step n])).store.get id = some p) ∧
      ∀ before more rest, events = before ++ more ++ rest →
        ∀ id, Direct (run 9 store before).store id →
          Direct (run 9 store (before ++ more)).store id := by
  intro store events
  refine never_overwrite 9 store ?_
  -- only request 0 is there, so nothing else is about to write
  have honly : ∀ σ : Rosters UInt8, (∀ m ≠ 0, σ.calls m = none) →
      Alone σ (.step 0) ∧ ∀ m ≠ 0, (σ.step 9 (.step 0)).calls m = none := by
    intro σ hσ
    constructor
    · intro p m q _ hne hq
      rw [pending, hσ m fun h => hne (h ▸ rfl)] at hq
      cases hq
    · intro m hm
      rw [step_calls_of_ne σ (by simpa using hm.symm) (by simp)]
      exact hσ m hm
  obtain ⟨h₁, hcalls₁⟩ := honly (run 9 store [.arrive 0 1 (oneKey 2)])
    fun m hm => Function.update_of_ne hm _ _
  obtain ⟨h₂, hcalls₂⟩ := honly _ hcalls₁
  obtain ⟨h₃, hcalls₃⟩ := honly _ hcalls₂
  refine guarded_cons ?_ (guarded_cons h₁ (guarded_cons h₂ (guarded_cons h₃
    (guarded_cons ?_ guarded_nil))))
  · intro p m q hp
    cases hp
  · intro p m q _ _ hq
    by_cases hm : m = 0
    · subst hm
      cases hq
    · cases (congrArg (Option.bind · _) (hcalls₃ m hm)).symm.trans hq

/-- The user pairs with a device between the check and the insert of a roster that names it: the pairing
is recorded as an introduction. -/
theorem paired_device_overwritten :
    let store : TrustStore UInt8 := (TrustStore.empty.insert (.new 1 "master" "linux" 0) (.ok ())).1
    let before : List (RosterEvent UInt8) :=
      [.arrive 0 1 (oneKey 2), .step 0, .step 0, .pair 2 "tablet" "linux" 0 (.ok ())]
    Direct (Rosters.run 9 store before).store 2 ∧
      ¬ Direct (Rosters.run 9 store (before ++ [.step 0])).store 2 := by
  intro store before
  constructor
  · exact ⟨.new 2 "tablet" "linux" 0, rfl, rfl⟩
  · rintro ⟨p, hp, hby⟩
    have hintroduced : (Rosters.run 9 store (before ++ [.step 0])).store.get 2 =
        some (.introduced 2 "device" "linux-x86_64" 0 1) := rfl
    rw [hintroduced] at hp
    cases hp
    cases hby

end Daemon

end Latticed
