import Latticed.Daemon.Introductions
import Mathlib.Data.Finset.Card
import Mathlib.Data.List.Perm.Basic

/-!
# A roster, twice and in any order

A master broadcasts one roster to all its devices, and again whenever a device joins.  What a device makes
of a roster that it can read and record depends on the set of keys in it only.

* `acceptFrom_taken` : what the loop of `accept_introductions` counts and records.
* `provisioning_laws` : the counts, what stays as it was, and that a roster may be repeated and reordered.
-/

namespace Latticed

namespace Daemon

open Net

variable {Key : Type} [PublicKey Key] {self sender : DeviceId} {store : TrustStore Key}
  {keys : List Key} {peers : List Arrival}

/-- The roster is one of these keys. -/
abbrev Introduces (keys : List Key) (roster : List Introduction) : Prop :=
  List.Forall₂ (fun k i => PublicKey.fromBytes i.publicKey = .ok k) keys roster

/-- The roster is one of these keys, and each of them can be saved. -/
abbrev Readable (keys : List Key) (peers : List Arrival) : Prop :=
  List.Forall₂ (fun k a => PublicKey.fromBytes a.introduction.publicKey = .ok k ∧ a.save = .ok ())
    keys peers

theorem readable_of_introduces (h : Introduces keys (peers.map Arrival.introduction))
    (hsaves : ∀ a ∈ peers, a.save = .ok ()) : Readable keys peers := by
  rw [Introduces, List.forall₂_map_right_iff] at h
  induction h with
  | nil => exact .nil
  | cons hkey _ ih =>
    obtain ⟨hsave, hsaves⟩ := List.forall_mem_cons.1 hsaves
    exact .cons ⟨hkey, hsave⟩ (ih hsaves)

/-- The devices of the roster that are new to this one. -/
def newIds (self : DeviceId) (store : TrustStore Key) (keys : List Key) : Finset DeviceId :=
  (keys.map PublicKey.deviceId).toFinset.filter fun id => id ≠ self ∧ knows store id = false

theorem mem_newIds {id : DeviceId} : id ∈ newIds self store keys ↔
    (∃ k ∈ keys, PublicKey.deviceId k = id) ∧ id ≠ self ∧ knows store id = false := by
  rw [newIds, Finset.mem_filter, List.mem_toFinset, List.mem_map]

/-- The key that is recorded for a device. -/
def keyOf (store : TrustStore Key) (id : DeviceId) : Option Key := (store.get id).map (·.publicKey)

theorem isTrusted_iff [DecidableEq Key] {k : Key} :
    store.isTrusted k = true ↔ keyOf store (PublicKey.deviceId k) = some k := by
  rw [TrustStore.isTrusted_eq_true, keyOf, Option.map_eq_some_iff]

/-! ### One pass over the roster -/

/-- What has come of a roster: `store'` has the records of `store`, and for every other device but this one
the first key of the roster that is the device's. -/
structure Taken (device : DeviceId) (store : TrustStore Key) (keys : List Key)
    (store' : TrustStore Key) : Prop where
  keeps : ∀ id peer, store.get id = some peer → store'.get id = some peer
  adds : ∀ id, store.get id = none → keyOf store' id =
    if id = device then none else keys.find? fun k => PublicKey.deviceId k = id

variable {id : DeviceId}

omit [PublicKey Key] in
theorem knows_eq_true : knows store id = true ↔ ∃ peer, store.get id = some peer :=
  Option.isSome_iff_exists

omit [PublicKey Key] in
theorem keyOf_eq_none : keyOf store id = none ↔ store.get id = none := Option.map_eq_none_iff

/-- A key of this device, or of one that is known, changes nothing. -/
theorem Taken.skip {store' : TrustStore Key} {k : Key}
    (hknown : PublicKey.deviceId k = self ∨ knows store (PublicKey.deviceId k) = true)
    (h : Taken self store keys store') : Taken self store (k :: keys) store' := by
  refine ⟨h.keeps, fun id hnone => (h.adds id hnone).trans ?_⟩
  split_ifs with hself
  · rfl
  · have hne : PublicKey.deviceId k ≠ id := by
      rintro rfl
      rcases hknown with heq | hknown
      · exact hself heq
      · rw [knows_eq_false.2 hnone] at hknown
        cases hknown
    rw [List.find?_cons_of_neg (by simpa using hne)]

/-- The first key of a device that is new is the one that is recorded. -/
theorem Taken.insert {store' : TrustStore Key} {k : Key} {name platform : String} {now : UInt64}
    {save : Except NetError Unit} (hself : PublicKey.deviceId k ≠ self)
    (hnew : store.get (PublicKey.deviceId k) = none)
    (h : Taken self (store.insert (.introduced k name platform now sender) save).1 keys store') :
    Taken self store (k :: keys) store' := by
  constructor
  · intro id peer hget
    refine h.keeps id peer ?_
    rwa [TrustStore.get_insert_of_ne]
    rintro rfl
    rw [PairedPeer.introduced_deviceId, hnew] at hget
    cases hget
  · intro id hnone
    by_cases hid : PublicKey.deviceId k = id
    · subst hid
      have hget := h.keeps _ _ (TrustStore.get_insert_self store
        (.introduced k name platform now sender) save)
      rw [PairedPeer.introduced_deviceId] at hget
      rw [if_neg hself, List.find?_cons_of_pos (by simp), keyOf, hget]
      rfl
    · rw [List.find?_cons_of_neg (by simpa using hid)]
      exact h.adds id (by rwa [TrustStore.get_insert_of_ne hid])

theorem exists_mem_cons_keys {k : Key} : (∃ k' ∈ k :: keys, PublicKey.deviceId k' = id) ↔
    PublicKey.deviceId k = id ∨ ∃ k' ∈ keys, PublicKey.deviceId k' = id := by
  simp only [List.mem_cons, exists_eq_or_imp]

theorem newIds_cons_of_known {k : Key}
    (h : PublicKey.deviceId k = self ∨ knows store (PublicKey.deviceId k) = true) :
    newIds self store (k :: keys) = newIds self store keys := by
  ext id
  rw [mem_newIds, mem_newIds, exists_mem_cons_keys]
  refine and_congr_left fun ⟨hself, hknows⟩ => or_iff_right ?_
  rintro rfl
  rcases h with heq | hknown
  · exact hself heq
  · rw [hknows] at hknown
    cases hknown

theorem newIds_cons_of_new {k : Key} {name platform : String} {now : UInt64}
    {save : Except NetError Unit} (hself : PublicKey.deviceId k ≠ self)
    (hnew : knows store (PublicKey.deviceId k) = false) :
    (newIds self store (k :: keys)).card = (newIds self
      (store.insert (.introduced k name platform now sender) save).1 keys).card + 1 := by
  rw [← Finset.card_insert_of_notMem (a := PublicKey.deviceId k)]
  · congr 1
    ext id
    rw [Finset.mem_insert, mem_newIds, mem_newIds, exists_mem_cons_keys, ← Bool.not_eq_true,
      ← Bool.not_eq_true, knows_insert, PairedPeer.introduced_deviceId]
    rw [← Bool.not_eq_true] at hnew
    by_cases hid : PublicKey.deviceId k = id
    · subst hid
      simp [hself, hnew]
    · simp [hid, Ne.symm hid]
  · rw [mem_newIds, ← Bool.not_eq_true, knows_insert]
    rintro ⟨-, -, hknown⟩
    exact hknown (Or.inl rfl)

/-- **What one pass does**: it counts the devices that are new and the rest of the roster, and records the
former. -/
theorem acceptFrom_taken (h : Readable keys peers) (added known : ℕ) : ∃ store' rest,
    acceptFrom self sender store added known peers =
      (store', .provisioned (added + (newIds self store keys).card) (known + rest)) ∧
    (newIds self store keys).card + rest = peers.length ∧ Taken self store keys store' := by
  induction h generalizing store added known with
  | nil =>
    refine ⟨store, 0, rfl, rfl, fun id peer hget => hget, fun id hnone => ?_⟩
    rw [keyOf_eq_none.2 hnone, List.find?_nil, ite_self]
  | @cons k a keys peers hread _ ih =>
    obtain ⟨hkey, hsave⟩ := hread
    rw [acceptFrom, intoPeer_eq, hkey]
    dsimp only
    rw [PairedPeer.introduced_deviceId]
    by_cases hknown : PublicKey.deviceId k = self ∨ knows store (PublicKey.deviceId k) = true
    · rw [if_pos hknown]
      obtain ⟨store', rest, heq, hcount, htaken⟩ := @ih store added (known + 1)
      refine ⟨store', rest + 1, ?_, ?_, htaken.skip hknown⟩
      · rw [heq, newIds_cons_of_known hknown, Nat.add_assoc known 1 rest, Nat.add_comm 1 rest]
      · rw [newIds_cons_of_known hknown, List.length_cons, ← hcount, Nat.add_assoc]
    · rw [if_neg hknown]
      obtain ⟨hself, hnew⟩ := not_or.1 hknown
      rw [Bool.not_eq_true] at hnew
      let peer : PairedPeer Key :=
        .introduced k a.introduction.name a.introduction.platform a.now sender
      have hcard : (newIds self store (k :: keys)).card =
          (newIds self (store.insert peer a.save).1 keys).card + 1 := newIds_cons_of_new hself hnew
      obtain ⟨store', rest, heq, hcount, htaken⟩ :=
        @ih (store.insert peer a.save).1 (added + 1) known
      refine ⟨store', rest, ?_, ?_, htaken.insert hself (knows_eq_false.1 hnew)⟩
      · rw [hcard, ← Nat.add_assoc, Nat.add_right_comm, ← heq, hsave]
        rfl
      · rw [hcard, List.length_cons, ← hcount, Nat.add_right_comm]

/-! ### Repeating and reordering -/

theorem Taken.of_accept (hsender : knows store sender = true) (h : Readable keys peers) :
    ∃ known, (acceptIntroductions self store sender peers).2 =
        .provisioned (newIds self store keys).card known ∧
      (newIds self store keys).card + known = peers.length ∧
      Taken self store keys (acceptIntroductions self store sender peers).1 := by
  obtain ⟨store', rest, heq, hcount, htaken⟩ := @acceptFrom_taken _ _ self sender store _ _ h 0 0
  rw [acceptIntroductions, if_pos hsender, heq]
  exact ⟨rest, by rw [Nat.zero_add, Nat.zero_add], hcount, htaken⟩

/-- After a roster there is nothing new in it. -/
theorem Taken.newIds_eq_empty {store' : TrustStore Key} (h : Taken self store keys store') :
    newIds self store' keys = ∅ := by
  refine Finset.eq_empty_of_forall_notMem fun id hid => ?_
  obtain ⟨⟨k, hk, rfl⟩, hself, hunknown⟩ := mem_newIds.1 hid
  have hnone := knows_eq_false.1 hunknown
  have hbefore : store.get (PublicKey.deviceId k) = none := by
    cases hget : store.get (PublicKey.deviceId k) with
    | none => rfl
    | some peer =>
      rw [h.keeps _ peer hget] at hnone
      cases hnone
  have hfind := h.adds _ hbefore
  rw [keyOf_eq_none.2 hnone, if_neg hself] at hfind
  exact absurd (decide_eq_true rfl) (List.find?_eq_none.1 hfind.symm k hk)

/-- A roster in which nothing is new changes nothing. -/
theorem acceptFrom_of_newIds (h : Readable keys peers) (hnone : newIds self store keys = ∅)
    (added known : ℕ) : (acceptFrom self sender store added known peers).1 = store := by
  refine acceptFrom_of_onlyKnown ?_
  induction h with
  | nil => trivial
  | @cons k a keys peers hread _ ih =>
    have hknown : PublicKey.deviceId k = self ∨ knows store (PublicKey.deviceId k) = true := by
      by_contra hnew
      obtain ⟨hself, hunknown⟩ := not_or.1 hnew
      have hmem : PublicKey.deviceId k ∈ newIds self store (k :: keys) :=
        mem_newIds.2 ⟨⟨k, List.mem_cons_self, rfl⟩, hself, Bool.eq_false_of_not_eq_true hunknown⟩
      rw [hnone] at hmem
      exact Finset.notMem_empty _ hmem
    rw [OnlyKnown, hread.1]
    exact ⟨hknown, ih (by rwa [newIds_cons_of_known hknown] at hnone)⟩

/-- Of keys that are different devices' it does not matter which comes first. -/
theorem find_perm {keys' : List Key} (hperm : keys'.Perm keys)
    (hdistinct : ∀ k ∈ keys, ∀ k' ∈ keys, PublicKey.deviceId k = PublicKey.deviceId k' → k = k')
    (id : DeviceId) : (keys'.find? fun k => PublicKey.deviceId k = id) =
      keys.find? fun k => PublicKey.deviceId k = id := by
  cases hfind : keys.find? fun k => PublicKey.deviceId k = id with
  | none =>
    rw [List.find?_eq_none] at hfind ⊢
    exact fun k hk => hfind k (hperm.mem_iff.1 hk)
  | some k =>
    have hk := List.mem_of_find?_eq_some hfind
    have hid := List.find?_some hfind
    cases hfind' : keys'.find? fun k => PublicKey.deviceId k = id with
    | none => exact absurd hid (List.find?_eq_none.1 hfind' k (hperm.mem_iff.2 hk))
    | some k' =>
      have hk' := hperm.mem_iff.1 (List.mem_of_find?_eq_some hfind')
      have hid' := List.find?_some hfind'
      exact congrArg some (hdistinct k' hk' k hk
        ((of_decide_eq_true hid').trans (of_decide_eq_true hid).symm))

/-- **Provisioning is idempotent and order-independent.** -/
theorem provisioning_laws [DecidableEq Key] (self sender : DeviceId) (store : TrustStore Key)
    (keys : List Key) (peers : List Arrival) (hsender : knows store sender = true)
    (hkeys : Introduces keys (peers.map Arrival.introduction))
    (hsaves : ∀ a ∈ peers, a.save = .ok ())
    (hdistinct : ∀ k ∈ keys, ∀ k' ∈ keys, PublicKey.deviceId k = PublicKey.deviceId k' → k = k') :
    let store' := (acceptIntroductions self store sender peers).1
    (∃ alreadyKnown, (acceptIntroductions self store sender peers).2 =
        .provisioned (newIds self store keys).card alreadyKnown ∧
      (newIds self store keys).card + alreadyKnown = peers.length) ∧
    (∀ id peer, store.get id = some peer → store'.get id = some peer) ∧
    store'.get self = store.get self ∧
    (∀ again : List Arrival, again.map Arrival.introduction = peers.map Arrival.introduction →
      (∀ a ∈ again, a.save = .ok ()) →
      acceptIntroductions self store' sender again = (store', .provisioned 0 again.length)) ∧
    ∀ peers' : List Arrival,
      (peers'.map Arrival.introduction).Perm (peers.map Arrival.introduction) →
      (∀ a ∈ peers', a.save = .ok ()) →
      ∀ k, (acceptIntroductions self store sender peers').1.isTrusted k = store'.isTrusted k := by
  intro store'
  obtain ⟨known, hresponse, hcount, htaken⟩ :=
    Taken.of_accept hsender (readable_of_introduces hkeys hsaves)
  refine ⟨⟨known, hresponse, hcount⟩, htaken.keeps, ?_, fun again hagain hsaves' => ?_,
    fun peers' hperm hsaves' k => ?_⟩
  · cases hget : store.get self with
    | some peer => exact htaken.keeps self peer hget
    | none =>
      have hself := htaken.adds self hget
      rw [if_pos rfl] at hself
      exact keyOf_eq_none.1 hself
  · have hreadable : Readable keys again := readable_of_introduces (hagain ▸ hkeys) hsaves'
    have hknows : knows store' sender = true := by
      obtain ⟨peer, hpeer⟩ := knows_eq_true.1 hsender
      exact knows_eq_true.2 ⟨peer, htaken.keeps _ _ hpeer⟩
    have hempty := htaken.newIds_eq_empty
    obtain ⟨known', hresponse', hcount', -⟩ := @Taken.of_accept _ _ self _ _ _ _ hknows hreadable
    rw [hempty, Finset.card_empty, Nat.zero_add] at hcount'
    rw [hempty, Finset.card_empty, hcount'] at hresponse'
    refine Prod.ext ?_ hresponse'
    rw [acceptIntroductions, if_pos hknows]
    exact acceptFrom_of_newIds hreadable hempty 0 0
  · obtain ⟨keys', hkeys', hpermKeys⟩ := List.perm_comp_forall₂ hperm hkeys.flip
    obtain ⟨known', -, -, htaken'⟩ :=
      @Taken.of_accept _ _ self _ _ _ _ hsender (readable_of_introduces hkeys'.flip hsaves')
    have hsame (id : DeviceId) :
        keyOf (acceptIntroductions self store sender peers').1 id = keyOf store' id := by
      cases hget : store.get id with
      | some peer =>
        rw [keyOf, keyOf, htaken'.keeps id peer hget, htaken.keeps id peer hget]
      | none => rw [htaken'.adds id hget, htaken.adds id hget, find_perm hpermKeys hdistinct id]
    rw [Bool.eq_iff_iff, isTrusted_iff, isTrusted_iff, hsame]

/-- Device 1 has paired with device 2. -/
def pairedWith2 : TrustStore UInt8 := (TrustStore.empty.insert (.new 2 "desk" "linux" 0) (.ok ())).1

/-- Device 2 sends device 1 a roster that names device 1, device 2, and device 3 twice: one is new. -/
theorem provisioning_laws_rebroadcast :
    let roster := oneKey 3 ++ oneKey 1 ++ oneKey 2 ++ oneKey 3
    (∃ alreadyKnown, (acceptIntroductions 1 pairedWith2 2 roster).2 = .provisioned 1 alreadyKnown ∧
      1 + alreadyKnown = 4) ∧
    ∀ k, (acceptIntroductions 1 pairedWith2 2 roster.reverse).1.isTrusted k =
      (acceptIntroductions 1 pairedWith2 2 roster).1.isTrusted k := by
  intro roster
  have hkeys : Introduces [(3 : UInt8), 1, 2, 3] (roster.map Arrival.introduction) :=
    .cons rfl (.cons rfl (.cons rfl (.cons rfl .nil)))
  have hsaves : ∀ a ∈ roster, a.save = .ok () := by decide
  have hlaws := provisioning_laws 1 2 pairedWith2 [3, 1, 2, 3] roster (by decide) hkeys hsaves
    fun _ _ _ _ hid => UInt8.toNat_inj.1 (Fin.mk.inj hid)
  have hcard : (newIds 1 pairedWith2 [(3 : UInt8), 1, 2, 3]).card = 1 := by decide
  rw [hcard] at hlaws
  exact ⟨hlaws.1, hlaws.2.2.2.2 roster.reverse ((List.reverse_perm roster).map _) (by decide)⟩

end Daemon

end Latticed
