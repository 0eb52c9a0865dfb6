import Latticed.LTS.Basic
import Latticed.Net.Control
import Latticed.Net.Symbolic

/-!
# Trust that the master hands out

The user pairs every device with the master once.  The master then sends each device a roster of the
others, and the device records those it does not know yet, with the master as the one who vouched
for them.  A device accepts a roster from anyone it has a record of.

* `acceptIntroductions_grows` : introductions never replace a record, and what they add names the
  sender.
* `vouched_iff` : every introduced record was accepted from a directly paired device, in every state
  of a run, iff no step of the run takes a new record from a device that was itself introduced.
-/

namespace Latticed

namespace Daemon

open Net

variable {Key : Type} [PublicKey Key]

/-- An introduction, with the clock and the outcome of saving when it is handled. -/
structure Arrival where
  introduction : Introduction
  now : UInt64
  save : Except NetError Unit

/-- `knows`. -/
def knows (store : TrustStore Key) (id : DeviceId) : Bool := (store.get id).isSome

/-- The loop of `accept_introductions` on device `self`, with what it has counted so far. -/
def acceptFrom (self sender : DeviceId) (store : TrustStore Key) (added alreadyKnown : ℕ) :
    List Arrival → TrustStore Key × Response
  | [] => (store, .provisioned added alreadyKnown)
  | a :: rest =>
    match (a.introduction.intoPeer sender a.now : Except NetError (PairedPeer Key)) with
    | .error e => (store, .refused e.display)
    | .ok peer =>
      -- an introduction to ourselves is a normal artefact of the master broadcasting one roster
      if peer.deviceId = self ∨ knows store peer.deviceId then
        acceptFrom self sender store added (alreadyKnown + 1) rest
      else match store.insert peer a.save with
        | (store, .error e) =>
          (store, .refused ("could not record the introduction: " ++ e.display))
        | (store, .ok ()) => acceptFrom self sender store (added + 1) alreadyKnown rest

/-- `accept_introductions`. -/
def acceptIntroductions (self : DeviceId) (store : TrustStore Key) (sender : DeviceId)
    (peers : List Arrival) : TrustStore Key × Response :=
  if knows store sender then acceptFrom self sender store 0 0 peers
  else (store, .refused (sender.display ++ " is not a paired device"))

/-- `roster_for`: what each device needs to hear, everyone the master trusts, except itself. -/
def rosterFor (target : DeviceId) (all : List (PairedPeer Key)) : List Introduction :=
  (all.filter fun peer => peer.deviceId ≠ target).map Introduction.of

/-- What happens to the trust store. -/
inductive TrustEvent (Key : Type) where
  /-- The user pairs with a device directly. -/
  | pair (publicKey : Key) (name platform : String) (now : UInt64) (save : Except NetError Unit)
  /-- A device sends a `Provision` request. -/
  | provision (sender : DeviceId) (peers : List Arrival)

/-- What an event makes of the store of device `self`. -/
def trustStep (self : DeviceId) (store : TrustStore Key) : TrustEvent Key → TrustStore Key
  | .pair publicKey name platform now save =>
    (store.insert (.new publicKey name platform now) save).1
  | .provision sender peers => (acceptIntroductions self store sender peers).1

/-- The store after a list of events, from an empty one. -/
def trustAfter (self : DeviceId) (events : List (TrustEvent Key)) : TrustStore Key :=
  events.foldl (trustStep self) .empty

/-- The user paired with this device directly. -/
def Direct (store : TrustStore Key) (id : DeviceId) : Prop :=
  ∃ peer, store.get id = some peer ∧ peer.introducedBy = none

/-- Every introduced record was accepted at a moment when the record of the device that vouched for
it was a direct one. -/
def Vouched (self : DeviceId) (events : List (TrustEvent Key)) : Prop :=
  ∀ id peer v, (trustAfter self events).get id = some peer → peer.introducedBy = some v →
    ∃ before e after, events = before ++ e :: after ∧ (trustAfter self before).get id = none ∧
      (trustAfter self (before ++ [e])).get id = some peer ∧ Direct (trustAfter self before) v

/-- Every introduction before the first key that is not one names `self` or a known device. -/
def OnlyKnown (self : DeviceId) (store : TrustStore Key) : List Arrival → Prop
  | [] => True
  | a :: rest =>
    match (PublicKey.fromBytes a.introduction.publicKey : Except String Key) with
    | .error _ => True
    | .ok k => (PublicKey.deviceId k = self ∨ knows store (PublicKey.deviceId k)) ∧
        OnlyKnown self store rest

/-- The event takes no new record from a device that was itself introduced. -/
def TakesFromDirect (self : DeviceId) (store : TrustStore Key) : TrustEvent Key → Prop
  | .pair _ _ _ _ _ => True
  | .provision sender peers =>
    Direct store sender ∨ knows store sender = false ∨ OnlyKnown self store peers

/-! ### What one request does -/

section Request

variable {self sender : DeviceId} {store : TrustStore Key}

theorem intoPeer_eq (i : Introduction) (sender : DeviceId) (now : UInt64) :
    (i.intoPeer sender now : Except NetError (PairedPeer Key)) =
      match (PublicKey.fromBytes i.publicKey : Except String Key) with
      | .error e => .error (.certificate ("introduced key is unusable: " ++ e))
      | .ok k => .ok (.introduced k i.name i.platform now sender) := rfl

/-- Every record stays, and a record that is new names `sender` as its voucher. -/
structure Grows (sender : DeviceId) (store store' : TrustStore Key) : Prop where
  keeps : ∀ id peer, store.get id = some peer → store'.get id = some peer
  new : ∀ id peer, store'.get id = some peer →
    store.get id = some peer ∨ store.get id = none ∧ peer.introducedBy = some sender

omit [PublicKey Key] in
theorem Grows.refl (store : TrustStore Key) : Grows sender store store :=
  ⟨fun _ _ h => h, fun _ _ h => Or.inl h⟩

omit [PublicKey Key] in
theorem Grows.trans {s₁ s₂ s₃ : TrustStore Key} (h : Grows sender s₁ s₂) (h' : Grows sender s₂ s₃) :
    Grows sender s₁ s₃ := by
  refine ⟨fun id peer hget => h'.keeps id peer (h.keeps id peer hget), fun id peer hget => ?_⟩
  rcases h'.new id peer hget with hold | ⟨hnone, hby⟩
  · exact h.new id peer hold
  · refine Or.inr ⟨?_, hby⟩
    cases hget₁ : s₁.get id with
    | none => rfl
    | some peer₁ => rw [h.keeps id peer₁ hget₁] at hnone; cases hnone

theorem Grows.insert {k : Key} (hnew : store.get (PublicKey.deviceId k) = none) (sender : DeviceId)
    (name platform : String) (now : UInt64) (save : Except NetError Unit) :
    Grows sender store (store.insert (.introduced k name platform now sender) save).1 := by
  refine ⟨fun id peer hget => ?_, fun id peer hget => ?_⟩
  · rwa [TrustStore.get_insert_of_ne]
    rintro rfl
    rw [PairedPeer.introduced_deviceId, hnew] at hget
    cases hget
  · by_cases hid : PublicKey.deviceId k = id
    · subst hid
      obtain rfl := Option.some.inj ((TrustStore.get_insert_self store _ save).symm.trans hget)
      exact Or.inr ⟨hnew, rfl⟩
    · rw [TrustStore.get_insert_of_ne (by simpa using hid)] at hget
      exact Or.inl hget

/-- **What the loop does with one introduction**: it stops at a key that is not one, passes over a
device that is known, and inserts a device that is not. -/
theorem acceptFrom_cons (self sender : DeviceId) (store : TrustStore Key) (added known : ℕ)
    (a : Arrival) (rest : List Arrival) :
    ((∃ e, (PublicKey.fromBytes a.introduction.publicKey : Except String Key) = .error e) ∧
        (acceptFrom self sender store added known (a :: rest)).1 = store) ∨
      (∃ k : Key, PublicKey.fromBytes a.introduction.publicKey = .ok k ∧
        (PublicKey.deviceId k = self ∨ knows store (PublicKey.deviceId k)) ∧
        acceptFrom self sender store added known (a :: rest) =
          acceptFrom self sender store added (known + 1) rest) ∨
      ∃ k : Key, PublicKey.fromBytes a.introduction.publicKey = .ok k ∧
        ¬ (PublicKey.deviceId k = self ∨ knows store (PublicKey.deviceId k)) ∧
        ∃ store', (store.insert (.introduced k a.introduction.name a.introduction.platform a.now
            sender) a.save).1 = store' ∧
          ((acceptFrom self sender store added known (a :: rest)).1 = store' ∨
            acceptFrom self sender store added known (a :: rest) =
              acceptFrom self sender store' (added + 1) known rest) := by
  rw [acceptFrom, intoPeer_eq]
  cases hkey : (PublicKey.fromBytes a.introduction.publicKey : Except String Key) with
  | error e => exact Or.inl ⟨⟨e, rfl⟩, rfl⟩
  | ok k =>
    by_cases hknown : PublicKey.deviceId k = self ∨ knows store (PublicKey.deviceId k)
    · exact Or.inr (Or.inl ⟨k, rfl, hknown, if_pos hknown⟩)
    · refine Or.inr (Or.inr ⟨k, rfl, hknown, _, rfl, ?_⟩)
      have hif : ¬ ((PairedPeer.introduced k a.introduction.name a.introduction.platform a.now
          sender).deviceId = self ∨ knows store (PairedPeer.introduced k a.introduction.name
          a.introduction.platform a.now sender).deviceId) := hknown
      dsimp only
      rw [if_neg hif]
      cases a.save with
      | error e => exact Or.inl rfl
      | ok u => exact Or.inr rfl

omit [PublicKey Key] in
theorem knows_eq_false {id : DeviceId} : knows store id = false ↔ store.get id = none := by
  simp [knows]

omit [PublicKey Key] in
theorem knows_insert (store : TrustStore Key) (p : PairedPeer Key) (save : Except NetError Unit)
    (id : DeviceId) :
    knows (store.insert p save).1 id = true ↔ p.deviceId = id ∨ knows store id = true := by
  simp only [knows, TrustStore.get_insert]
  split_ifs with hid <;> simp [hid]

theorem knows_of_isTrusted [DecidableEq Key] {k : Key} (h : store.isTrusted k = true) :
    knows store (PublicKey.deviceId k) = true := by
  obtain ⟨p, hp, -⟩ := TrustStore.isTrusted_eq_true.1 h
  simp [knows, hp]

theorem acceptFrom_grows (self : DeviceId) {added known : ℕ} {peers : List Arrival} :
    Grows sender store (acceptFrom self sender store added known peers).1 := by
  induction peers generalizing store added known with
  | nil => exact Grows.refl store
  | cons a rest ih =>
    rcases acceptFrom_cons self sender store added known a rest with
      ⟨-, heq⟩ | ⟨k, -, -, heq⟩ | ⟨k, -, hunknown, store', rfl, heq⟩
    · rw [heq]
      exact Grows.refl store
    · rw [heq]
      exact ih
    · have hnew := knows_eq_false.1 (Bool.eq_false_of_not_eq_true (not_or.1 hunknown).2)
      have hins := Grows.insert hnew sender a.introduction.name a.introduction.platform a.now a.save
      rcases heq with heq | heq
      · rw [heq]
        exact hins
      · rw [heq]
        exact hins.trans ih

theorem acceptFrom_of_onlyKnown {added known : ℕ} {peers : List Arrival}
    (h : OnlyKnown self store peers) :
    (acceptFrom self sender store added known peers).1 = store := by
  induction peers generalizing added known with
  | nil => rfl
  | cons a rest ih =>
    rcases acceptFrom_cons self sender store added known a rest with
      ⟨-, heq⟩ | ⟨k, hkey, -, heq⟩ | ⟨k, hkey, hunknown, -⟩
    · exact heq
    · rw [OnlyKnown, hkey] at h
      rw [heq]
      exact ih h.2
    · rw [OnlyKnown, hkey] at h
      exact absurd h.1 hunknown

/-- A roster that does not only name known devices leaves a new record behind. -/
theorem exists_new_of_not_onlyKnown (added known : ℕ) {peers : List Arrival}
    (h : ¬ OnlyKnown self store peers) :
    ∃ id peer, store.get id = none ∧ peer.introducedBy = some sender ∧
      (acceptFrom self sender store added known peers).1.get id = some peer := by
  induction peers generalizing added known with
  | nil => exact absurd trivial h
  | cons a rest ih =>
    rcases acceptFrom_cons self sender store added known a rest with
      ⟨⟨e, hkey⟩, -⟩ | ⟨k, hkey, hknown, heq⟩ | ⟨k, hkey, hunknown, store', hstore', heq⟩
    · rw [OnlyKnown, hkey] at h
      exact absurd trivial h
    · rw [OnlyKnown, hkey] at h
      rw [heq]
      exact ih _ _ fun hrest => h ⟨hknown, hrest⟩
    · have hnew := knows_eq_false.1 (Bool.eq_false_of_not_eq_true (not_or.1 hunknown).2)
      have hget : store'.get (PublicKey.deviceId k) = some _ :=
        hstore' ▸ TrustStore.get_insert_self store _ a.save
      refine ⟨_, .introduced k a.introduction.name a.introduction.platform a.now sender, hnew, rfl, ?_⟩
      rcases heq with heq | heq
      · rw [heq]
        exact hget
      · rw [heq]
        exact (acceptFrom_grows self).keeps _ _ hget

theorem acceptIntroductions_grows (self : DeviceId) {peers : List Arrival} :
    Grows sender store (acceptIntroductions self store sender peers).1 := by
  unfold acceptIntroductions
  split_ifs
  · exact acceptFrom_grows self
  · exact Grows.refl store

end Request

/-! ### Runs -/

variable {self : DeviceId}

theorem trustAfter_concat (events : List (TrustEvent Key)) (e : TrustEvent Key) :
    trustAfter self (events ++ [e]) = trustStep self (trustAfter self events) e := by
  rw [trustAfter, List.foldl_append]
  rfl

/-- A device that is known stays known. -/
theorem knows_trustStep {store : TrustStore Key} {e : TrustEvent Key} {id : DeviceId}
    (h : knows store id) : knows (trustStep self store e) id := by
  obtain ⟨peer, hpeer⟩ := Option.isSome_iff_exists.1 h
  cases e with
  | pair k name platform now save =>
    rw [knows, trustStep, TrustStore.get_insert]
    split_ifs
    · rfl
    · exact h
  | provision sender peers =>
    exact Option.isSome_iff_exists.2 ⟨peer, (acceptIntroductions_grows self).keeps id peer hpeer⟩

theorem knows_trustAfter {before : List (TrustEvent Key)} {id : DeviceId}
    (h : knows (trustAfter self before) id) (after : List (TrustEvent Key)) :
    knows (trustAfter self (before ++ after)) id := by
  rw [trustAfter, List.foldl_append]
  exact foldl_mono (P := fun store => knows store id) (fun _ _ => knows_trustStep) after h

/-- **A new introduced record comes from a roster of its voucher**, sent while it was known. -/
theorem new_of_trustStep {store : TrustStore Key} {e : TrustEvent Key} {id v : DeviceId}
    {peer : PairedPeer Key} (hnew : store.get id ≠ some peer)
    (hget : (trustStep self store e).get id = some peer) (hby : peer.introducedBy = some v) :
    store.get id = none ∧ (TakesFromDirect self store e → Direct store v) := by
  cases e with
  | pair k name platform now save =>
    rw [trustStep, TrustStore.get_insert] at hget
    split_ifs at hget with hid
    · obtain rfl := Option.some.inj hget
      cases hby
    · exact absurd hget hnew
  | provision sender peers =>
    rcases (acceptIntroductions_grows self).new id peer hget with hold | ⟨hnone, hsender⟩
    · exact absurd hold hnew
    · obtain rfl : sender = v := Option.some.inj (hsender.symm.trans hby)
      refine ⟨hnone, ?_⟩
      rintro (hdirect | hunknown | honly)
      · exact hdirect
      · rw [trustStep, acceptIntroductions, hunknown] at hget
        exact absurd hget hnew
      · rw [trustStep, acceptIntroductions] at hget
        split_ifs at hget
        · rw [acceptFrom_of_onlyKnown honly] at hget
          exact absurd hget hnew
        · exact absurd hget hnew

/-- **When only directly paired devices vouch**: every introduced record was accepted from a directly
paired device, in every state of the run, iff every step of the run takes new records from such
devices only. -/
theorem vouched_iff (self : DeviceId) (events : List (TrustEvent Key)) :
    (∀ before after, events = before ++ after → Vouched self before) ↔
      ∀ before e after, events = before ++ e :: after →
        TakesFromDirect self (trustAfter self before) e := by
  constructor
  · intro h before e after heq
    by_contra hnot
    cases e with
    | pair k name platform now save => exact hnot trivial
    | provision sender peers =>
      simp only [TakesFromDirect, not_or, Bool.not_eq_false] at hnot
      obtain ⟨hdirect, hknown, honly⟩ := hnot
      -- the request leaves a new record behind, and its sender is known by introduction only
      obtain ⟨id, peer, hnone, hby, hget⟩ := @exists_new_of_not_onlyKnown _ _ self sender
        _ 0 0 _ honly
      have hafter : (trustAfter self (before ++ [.provision sender peers])).get id = some peer := by
        rw [trustAfter_concat, trustStep, acceptIntroductions, if_pos hknown]
        exact hget
      obtain ⟨before', e', after', heq', hnone', hget', hdirect'⟩ :=
        h (before ++ [.provision sender peers]) after (by simpa using heq) id peer sender hafter hby
      rcases List.eq_nil_or_concat after' with rfl | ⟨init, last, rfl⟩
      · obtain ⟨rfl, -⟩ := List.append_inj' heq' rfl
        exact hdirect hdirect'
      · -- the record was there already before this request
        have hsplit : before ++ [.provision sender peers] = (before' ++ e' :: init) ++ [last] := by
          simpa using heq'
        obtain ⟨rfl, -⟩ := List.append_inj' hsplit rfl
        have hstill : knows (trustAfter self (before' ++ [e'] ++ init)) id :=
          knows_trustAfter (Option.isSome_iff_exists.2 ⟨peer, hget'⟩) init
        rw [List.append_assoc, List.singleton_append, knows, hnone] at hstill
        cases hstill
  · rintro h events' rest rfl id peer v hget hby
    -- some event of the run made the record what it is
    obtain ⟨before, e, after, rfl, hnot, hnow⟩ :=
      exists_flip (P := fun store : TrustStore Key => store.get id = some peer) (by simp) hget
    have hget' : (trustAfter self (before ++ [e])).get id = some peer := hnow
    rw [trustAfter_concat] at hget'
    obtain ⟨hnone, hdirect⟩ := new_of_trustStep hnot hget' hby
    exact ⟨before, e, after, rfl, hnone, hnow, hdirect (h before e (after ++ rest) (by simp))⟩

/-- A roster that introduces one key. -/
def oneKey (key : UInt8) : List Arrival :=
  [⟨⟨Vector.replicate 32 key, "device", "linux-x86_64"⟩, 0, .ok ()⟩]

/-- The user pairs with device 1, which introduces device 2, which introduces device 3. -/
def chain : List (TrustEvent UInt8) :=
  [.pair 1 "master" "linux-x86_64" 0 (.ok ()), .provision 1 (oneKey 2), .provision 2 (oneKey 3)]

/-- **Trust spreads along a chain**: device 9 takes device 3 from device 2, which was never paired
with directly. -/
theorem vouched_fails : ¬ Vouched 9 chain ∧
    ∃ peer, (trustAfter 9 chain).get 3 = some peer ∧ peer.introducedBy = some 2 := by
  have hget : (trustAfter 9 chain).get 3 = some ⟨3, 3, "device", "linux-x86_64", 0, some 2⟩ := by
    decide
  refine ⟨fun h => ?_, _, hget, rfl⟩
  obtain ⟨before, e, after, heq, -, -, peer, hpeer, hby⟩ := h 3 _ 2 hget rfl
  have hprefix : before = chain.take before.length := by
    rw [heq, List.take_left]
  have hlen : before.length < 3 := by
    have := congrArg List.length heq
    simp [chain] at this
    omega
  have hnever : ∀ n < 3, ((trustAfter 9 (chain.take n)).get 2).all (·.introducedBy ≠ none) := by
    decide
  have := hnever _ hlen
  rw [← hprefix, hpeer] at this
  simp [hby] at this

end Daemon

end Latticed
