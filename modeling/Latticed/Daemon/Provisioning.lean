import Latticed.Daemon.Introductions
import Latticed.Net.Pairing
import Latticed.Net.TrustFile
import Latticed.Net.Wire
import Mathlib.Data.Fintype.Card

/-!
# The size of a roster

The master sends each device a `Provision` request with everyone else it trusts.  `write_frame` takes
requests of any size, `read_frame` at the other end has a ceiling, and the names in a roster are as
long as the devices that sent them like.

* `length_provision` : the bytes of a roster are those of the names and platforms and a fixed part.
* `stays_sendable_iff` : every roster can be read, in every state of a run, iff the records of the
  store never outgrow the ceiling.
* `roster_outgrows` : a store in which one accepted introduction makes a later roster too large.
-/

namespace Latticed

namespace Daemon

open Net Rust.Postcard

variable {Key : Type} [PublicKey Key]

/-- The bytes of a string. -/
def textSize (s : String) : ℕ := (writeVarint 10 s.utf8ByteSize).length + s.utf8ByteSize

/-- The bytes of an introduction. -/
def introductionSize (i : Introduction) : ℕ := 32 + (textSize i.name + textSize i.platform)

/-- The bytes of a `Provision` request with these introductions. -/
def provisionSize (roster : List Introduction) : ℕ :=
  1 + ((writeVarint 10 roster.length).length + (roster.map introductionSize).sum)

/-- A roster for any device can be sent: the receiver's `read_frame` takes it. -/
def Sendable (store : TrustStore Key) : Prop :=
  ∀ target, (Request.wire.write (.provision (rosterFor target store.records))).length ≤
      maxControlFrame ∧
    ∀ frame more r, writeFrame (Request.wire.write (.provision (rosterFor target store.records))) =
      .ok frame → r.bytes = frame ++ more → ∃ r', readFrame r maxControlFrame =
        .ok (Request.wire.write (.provision (rosterFor target store.records)), r')

/-- The records of the store fit a frame together. -/
def Roomy (store : TrustStore Key) : Prop :=
  provisionSize (store.records.map Introduction.of) ≤ maxControlFrame

theorem length_string (s : String) : (Wire.string.write s).length = textSize s := by
  show (writeVarint 10 (Rust.asBytes s).length ++ Rust.asBytes s).length = _
  rw [List.length_append, Rust.length_asBytes, textSize]

theorem length_introduction (i : Introduction) :
    (Introduction.wire.write i).length = introductionSize i := by
  show (i.publicKey.toList ++ (Wire.string.write i.name ++ Wire.string.write i.platform)).length = _
  rw [List.length_append, List.length_append, length_string, length_string, Vector.length_toList,
    introductionSize]

/-- **The size of a request.** -/
theorem length_provision (roster : List Introduction) :
    (Request.wire.write (.provision roster)).length = provisionSize roster := by
  show (writeVarint 5 1 ++ (writeVarint 10 roster.length ++
    roster.flatMap Introduction.wire.write)).length = _
  rw [List.length_append, List.length_append, List.length_flatMap, provisionSize]
  congr 3
  exact List.map_congr_left fun i _ => length_introduction i

theorem length_le_provisionSize (roster : List Introduction) :
    roster.length ≤ provisionSize roster := by
  have hsum : roster.length ≤ (roster.map introductionSize).sum := by
    induction roster with
    | nil => exact le_rfl
    | cons i roster ih =>
      simp only [List.length_cons, List.map_cons, List.sum_cons, introductionSize]
      omega
  rw [provisionSize]
  omega

theorem sum_sublist_le {roster all : List Introduction} (h : roster.Sublist all) :
    (roster.map introductionSize).sum ≤ (all.map introductionSize).sum := by
  induction h with
  | slnil => exact le_rfl
  | cons i _ ih =>
    rw [List.map_cons, List.sum_cons]
    omega
  | cons_cons i _ ih =>
    rw [List.map_cons, List.sum_cons, List.map_cons, List.sum_cons]
    omega

/-- Leaving a device out does not make a roster larger. -/
theorem provisionSize_rosterFor_le (target : DeviceId) (peers : List (PairedPeer Key)) :
    provisionSize (rosterFor target peers) ≤ provisionSize (peers.map Introduction.of) := by
  have hsub : (rosterFor target peers).Sublist (peers.map Introduction.of) :=
    List.filter_sublist.map _
  have hlen : (writeVarint 10 (rosterFor target peers).length).length ≤
    (writeVarint 10 (peers.map Introduction.of).length).length :=
    length_writeVarint_mono hsub.length_le
  have hsum := sum_sublist_le hsub
  simp only [provisionSize]
  omega

/-- A list that has all numbers but one is long. -/
theorem length_of_forall_mem {n : ℕ} {x : Fin n} {l : List (Fin n)} (h : ∀ i, i ≠ x → i ∈ l) :
    n - 1 ≤ l.length := by
  have hsub : Finset.univ.erase x ⊆ l.toFinset := fun i hi =>
    List.mem_toFinset.2 (h i (Finset.ne_of_mem_erase hi))
  have hcard := (Finset.card_le_card hsub).trans (List.toFinset_card_le l)
  rwa [Finset.card_erase_of_mem (Finset.mem_univ x), Finset.card_univ, Fintype.card_fin] at hcard

/-- A store that is too large is so in the roster of some device. -/
theorem exists_target {store : TrustStore Key} (hkeyed : store.Keyed)
    (h : maxControlFrame < provisionSize (store.records.map Introduction.of)) :
    ∃ target, maxControlFrame < provisionSize (rosterFor target store.records) := by
  by_cases hfree : ∃ target, store.get target = none
  · obtain ⟨target, hnone⟩ := hfree
    refine ⟨target, ?_⟩
    rwa [rosterFor, List.filter_eq_self.2]
    intro p hp
    rw [decide_eq_true_eq]
    rintro rfl
    rw [(TrustStore.mem_records hkeyed).1 hp] at hnone
    cases hnone
  · -- every device has a record, and one of them is left out
    refine ⟨0, lt_of_lt_of_le ?_ (length_le_provisionSize _)⟩
    have hall : ∀ id : DeviceId, id ≠ 0 →
        id ∈ (store.records.filter fun p => p.deviceId ≠ 0).map PairedPeer.deviceId := by
      intro id hid
      obtain ⟨p, hp⟩ := Option.ne_none_iff_exists'.1 (not_exists.1 hfree id)
      obtain rfl := hkeyed id p hp
      exact List.mem_map_of_mem (List.mem_filter.2 ⟨(TrustStore.mem_records hkeyed).2 hp,
        decide_eq_true hid⟩)
    have hlen := length_of_forall_mem hall
    rw [List.length_map, ← List.length_map (f := Introduction.of)] at hlen
    exact lt_of_lt_of_le (by decide) hlen

theorem sendable_iff {store : TrustStore Key} (hkeyed : store.Keyed) :
    Sendable store ↔ Roomy store := by
  constructor
  · intro h
    by_contra hnot
    obtain ⟨target, hlarge⟩ := exists_target hkeyed (not_le.1 hnot)
    have := (h target).1
    rw [length_provision] at this
    omega
  · intro h target
    have hle : (Request.wire.write (.provision (rosterFor target store.records))).length ≤
        maxControlFrame := by
      rw [length_provision]
      exact (provisionSize_rosterFor_le target _).trans h
    refine ⟨hle, fun frame more r hframe hbytes => ?_⟩
    obtain ⟨r', hread, -⟩ := readFrame_writeFrame hframe hle hbytes
    exact ⟨r', hread⟩

/-! ### Runs -/

variable {self : DeviceId}

theorem keyed_acceptFrom {sender : DeviceId} {store : TrustStore Key} (h : store.Keyed)
    (added known : ℕ) (peers : List Arrival) :
    (acceptFrom self sender store added known peers).1.Keyed := by
  induction peers generalizing store added known with
  | nil => exact h
  | cons a rest ih =>
    rcases acceptFrom_cons self sender store added known a rest with
      ⟨-, heq⟩ | ⟨k, -, -, heq⟩ | ⟨k, -, -, store', rfl, heq | heq⟩
    · rw [heq]
      exact h
    · rw [heq]
      exact ih h _ _
    · rw [heq]
      exact h.insert _ _
    · rw [heq]
      exact ih (h.insert _ _) _ _

theorem keyed_trustStep {store : TrustStore Key} (h : store.Keyed) (e : TrustEvent Key) :
    (trustStep self store e).Keyed := by
  cases e with
  | pair k name platform now save => exact h.insert _ _
  | provision sender peers =>
    rw [trustStep, acceptIntroductions]
    split_ifs
    · exact keyed_acceptFrom h 0 0 peers
    · exact h

theorem keyed_trustAfter (events : List (TrustEvent Key)) : (trustAfter self events).Keyed :=
  foldl_mono (P := TrustStore.Keyed) (fun _ e h => keyed_trustStep h e) events
    TrustStore.keyed_empty

/-- The message that an event brings fits the frame it comes in: the confirmation of a pairing, a body
and a MAC of 32 bytes, or a `Provision` request. -/
def Fitting : TrustEvent Key → Prop
  | .pair publicKey name platform _ _ => ∀ mac,
      ((Wire.bytes.pair (Wire.array 32)).write
        (Introduction.wire.write ⟨PublicKey.toBytes publicKey, name, platform⟩, mac)).length ≤ maxFrame
  | .provision _ peers =>
    (Request.wire.write (.provision (peers.map Arrival.introduction))).length ≤ maxControlFrame

/-- **When rosters can be sent**: in every state of a run, every roster can be read by its receiver, iff
in every state the records fit a frame together. -/
theorem stays_sendable_iff (self : DeviceId) (events : List (TrustEvent Key)) :
    (∀ before after, events = before ++ after → Sendable (trustAfter self before)) ↔
      ∀ before after, events = before ++ after → Roomy (trustAfter self before) :=
  forall₃_congr fun before _ _ => sendable_iff (keyed_trustAfter before)

/-- The user pairs with devices 1 and 3, and device 1 introduces device 2 in between. -/
def longName (name : String) : List (TrustEvent UInt8) :=
  [.pair 1 "gpu-box" "linux-x86_64" 0 (.ok ()),
    .provision 1 [⟨⟨Vector.replicate 32 2, name, "linux-x86_64"⟩, 0, .ok ()⟩],
    .pair 3 "desktop" "linux-x86_64" 0 (.ok ())]

theorem records_longName (name : String) : (trustAfter 9 (longName name)).records =
    [⟨1, 1, "gpu-box", "linux-x86_64", 0, none⟩, ⟨2, 2, name, "linux-x86_64", 0, some 1⟩,
      ⟨3, 3, "desktop", "linux-x86_64", 0, none⟩] := by
  rfl

theorem textSize_eq {s : String} {n k : ℕ} (hs : s.utf8ByteSize = n)
    (hk : (writeVarint 10 n).length = k) : textSize s = k + n := by
  rw [textSize, hs, hk]

theorem size_replicate (n : ℕ) : (String.ofList (List.replicate n 'a')).utf8ByteSize = n := by
  induction n with
  | zero => rfl
  | succ n ih =>
    rw [List.replicate_succ, Rust.size_ofList_cons, ih, Nat.add_comm]
    rfl

theorem fitting_pair (key : UInt8) (name platform : String)
    (h : introductionSize ⟨Vector.replicate 32 key, name, platform⟩ ≤ 1000) :
    Fitting (.pair key name platform 0 (.ok ())) := by
  intro mac
  show ((writeVarint 10 (Introduction.wire.write ⟨Vector.replicate 32 key, name, platform⟩).length ++
    Introduction.wire.write ⟨Vector.replicate 32 key, name, platform⟩) ++ mac.toList).length ≤ 4096
  have hlen := length_introduction ⟨Vector.replicate 32 key, name, platform⟩
  have hvarint := length_writeVarint_le 10
    (Introduction.wire.write ⟨Vector.replicate 32 key, name, platform⟩).length
  rw [List.length_append, List.length_append, Vector.length_toList]
  omega

/-- **One introduction makes a later roster too large**: the request that brings a name of 65480 bytes
fits its frame, and after one more pairing the roster for the device that sent it does not. -/
theorem roster_outgrows :
    (∀ e ∈ longName (String.ofList (List.replicate 65480 'a')), Fitting e) ∧
      ¬ Sendable (trustAfter 9 (longName (String.ofList (List.replicate 65480 'a')))) := by
  obtain ⟨name, hname⟩ : ∃ name, String.ofList (List.replicate 65480 'a') = name := ⟨_, rfl⟩
  have hsize : textSize name = 3 + 65480 := by
    refine textSize_eq ?_ (by decide)
    rw [← hname]
    exact size_replicate 65480
  rw [hname]
  have hplatform : textSize "linux-x86_64" = 13 := by decide
  have hbox : textSize "gpu-box" = 8 := by decide
  have hdesktop : textSize "desktop" = 8 := by decide
  constructor
  · intro e he
    simp only [longName, List.mem_cons, List.not_mem_nil, or_false] at he
    rcases he with rfl | rfl | rfl
    · exact fitting_pair 1 _ _ (by simp only [introductionSize, hplatform, hbox]; decide)
    · show (Request.wire.write (.provision [⟨Vector.replicate 32 2, name, "linux-x86_64"⟩])).length ≤ _
      rw [length_provision]
      simp only [provisionSize, introductionSize, List.map_cons, List.map_nil, List.sum_cons,
        List.sum_nil, List.length_cons, List.length_nil, hsize, hplatform]
      decide
    · exact fitting_pair 3 _ _ (by simp only [introductionSize, hplatform, hdesktop]; decide)
  · intro h
    have hle := (h 1).1
    rw [length_provision, records_longName] at hle
    have hroster : rosterFor 1 [(⟨1, 1, "gpu-box", "linux-x86_64", 0, none⟩ : PairedPeer UInt8),
        ⟨2, 2, name, "linux-x86_64", 0, some 1⟩, ⟨3, 3, "desktop", "linux-x86_64", 0, none⟩] =
        [⟨Vector.replicate 32 2, name, "linux-x86_64"⟩,
          ⟨Vector.replicate 32 3, "desktop", "linux-x86_64"⟩] := rfl
    rw [hroster] at hle
    simp only [provisionSize, introductionSize, List.map_cons, List.map_nil, List.sum_cons,
      List.sum_nil, List.length_cons, List.length_nil, hsize, hplatform, hdesktop] at hle
    revert hle
    decide

end Daemon

end Latticed
