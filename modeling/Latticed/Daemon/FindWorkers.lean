import Latticed.Daemon.Chat
import Latticed.Daemon.WorkerLoop
import Latticed.LTS.Writes

/-!
# Looking for the workers of a chat

The workers of a chat are named by `--worker`, by address or by identity, or are all the paired workers
that advertise themselves.  What is advertised comes and goes while the master listens.

* `findWorkers_eq_ok` : the workers that are found are the addresses that were given, and the devices
  whose last advertisement the master took and did not see withdrawn.
-/

namespace Latticed

namespace Daemon

open Net Rust

/-- What a `--worker` argument names. -/
inductive WorkerTarget where
  | addr (addr : SocketAddr)
  | device (id : DeviceId)

/-- The first loop of `find_workers`, for one argument. -/
def readTarget (std : StdNet) (trusted : DeviceId → Bool) (self : DeviceId) (text : String) :
    Except String WorkerTarget :=
  match std.parseSocketAddr text with
  | some addr =>
    if !addr.isIpv4 ∨ std.port addr = 0 ∨ std.isUnspecified (std.ip addr) then
      .error "--worker requires a usable IPv4:port"
    else .ok (.addr addr)
  | none =>
    match deviceIdFromStr text with
    | none => .error "--worker expects a device ID or IPv4:port"
    | some id =>
      if id = self ∨ !trusted id then .error (id.display ++ " is not a paired worker")
      else .ok (.device id)

namespace WorkerTarget

/-- What `explicit` gets. -/
def explicit : WorkerTarget → Option (Option DeviceId × List SocketAddr)
  | addr a => some (none, [a])
  | device _ => none

/-- What `wanted` gets. -/
def wanted : WorkerTarget → Option DeviceId
  | addr _ => none
  | device id => some id

end WorkerTarget

/-- What an event does to the workers that are found. -/
def workerChange (trusted : DeviceId → Bool) (self : DeviceId) (targets : List WorkerTarget) :
    SeenEvent → Option (DeviceId × Option (List SocketAddr))
  | .found peer =>
    if peer.deviceId ≠ self ∧ trusted peer.deviceId ∧ peer.role = some "worker" ∧
        peer.protocol = protocolVersion ∧
        (targets = [] ∨ peer.deviceId ∈ targets.filterMap WorkerTarget.wanted) then
      -- an advertisement without a usable address changes nothing
      if (usable peer.addrs).isEmpty then none else some (peer.deviceId, some (usable peer.addrs))
    else none
  | .lost id => some (id, none)

/-- `find_workers`, over the events that come before the deadline. -/
def findWorkers (std : StdNet) (requested : List String) (trusted : DeviceId → Bool)
    (self : DeviceId) (browsed : Except String (List SeenEvent)) :
    Except String (List (Option DeviceId × List SocketAddr)) :=
  match requested.mapM (readTarget std trusted self) with
  | .error why => .error why
  | .ok targets =>
    let explicit := targets.filterMap WorkerTarget.explicit
    let wanted := targets.filterMap WorkerTarget.wanted
    if wanted = [] ∧ explicit ≠ [] then .ok explicit
    else match browsed with
      | .error why => .error why
      | .ok events =>
        let found := replay (workerChange trusted self targets) events
        -- `wanted` is a `BTreeSet`
        match (wanted.filter fun id => found[id]?.isNone).min? with
        | some id => .error ("worker " ++ id.display ++
            " is unavailable; start it or supply --worker <IPv4:port>")
        | none => .ok (explicit ++ found.toList.map fun (id, addrs) => (some id, addrs))

/-! ### Which workers are found -/

/-- The devices that were found, in the order of their ids. -/
structure Found (trusted : DeviceId → Bool) (me : DeviceId) (targets : List WorkerTarget)
    (events : List SeenEvent) (found : List (DeviceId × List SocketAddr)) : Prop where
  sorted : (found.map Prod.fst).Pairwise (· < ·)
  mem_iff : ∀ id addrs, (id, addrs) ∈ found ↔
    LastWritten (workerChange trusted me targets) events id addrs
  wanted : ∀ id ∈ targets.filterMap WorkerTarget.wanted, id ∈ found.map Prod.fst

variable {std : StdNet} {requested : List String} {trusted : DeviceId → Bool} {self : DeviceId}
  {browsed : Except String (List SeenEvent)} {located : List (Option DeviceId × List SocketAddr)}
  {targets : List WorkerTarget} {events : List SeenEvent}

/-- What the loop over the events leaves, if every device that was named is there. -/
theorem found_replay (hwanted : ∀ id ∈ targets.filterMap WorkerTarget.wanted,
      (replay (workerChange trusted self targets) events)[id]? ≠ none) :
    Found trusted self targets events (replay (workerChange trusted self targets) events).toList where
  sorted := by
    rw [Std.ExtTreeMap.map_fst_toList_eq_keys]
    exact Std.ExtTreeMap.ordered_keys.imp compare_lt_iff_lt.1
  mem_iff id addrs := by
    rw [Std.ExtTreeMap.mem_toList_iff_getElem?_eq_some, getElem?_replay]
  wanted id hid := by
    obtain ⟨addrs, haddrs⟩ := Option.ne_none_iff_exists'.1 (hwanted id hid)
    exact List.mem_map.2 ⟨(id, addrs), Std.ExtTreeMap.mem_toList_iff_getElem?_eq_some.2 haddrs, rfl⟩

/-- There is one such list. -/
theorem Found.unique {found found' : List (DeviceId × List SocketAddr)}
    (h : Found trusted self targets events found) (h' : Found trusted self targets events found') :
    found = found' := by
  have hlt := List.pairwise_map.1 h.sorted
  have hlt' := List.pairwise_map.1 h'.sorted
  have hperm : found.Perm found' := by
    refine (List.perm_ext_iff_of_nodup (hlt.imp ?_) (hlt'.imp ?_)).2 fun p => ?_
    · rintro p q hpq rfl
      exact lt_irrefl _ hpq
    · rintro p q hpq rfl
      exact lt_irrefl _ hpq
    · exact (h.mem_iff p.1 p.2).trans (h'.mem_iff p.1 p.2).symm
  exact hperm.eq_of_pairwise (fun p q _ _ hpq hqp => absurd hpq hqp.asymm) hlt hlt'

theorem mapM_eq_ok {α β : Type} {f : α → Except String β} {as : List α} {bs : List β} :
    as.mapM f = .ok bs ↔ List.Forall₂ (fun a b => f a = .ok b) as bs := by
  induction as generalizing bs with
  | nil =>
    rw [List.mapM_nil, List.forall₂_nil_left_iff]
    exact ⟨fun h => (Except.ok.inj h).symm, fun h => by rw [h]; rfl⟩
  | cons a as ih =>
    rw [List.mapM_cons, List.forall₂_cons_left_iff]
    constructor
    · intro h
      obtain ⟨b, hb, h⟩ := exceptBind_eq_ok.1 h
      obtain ⟨bs', hbs, h⟩ := exceptBind_eq_ok.1 h
      exact ⟨b, bs', hb, ih.1 hbs, (Except.ok.inj h).symm⟩
    · rintro ⟨b, bs', hb, hbs, rfl⟩
      exact exceptBind_eq_ok.2 ⟨b, hb, exceptBind_eq_ok.2 ⟨bs', ih.2 hbs, rfl⟩⟩

/-- Only addresses were given. -/
theorem only_addresses_iff : (targets.filterMap WorkerTarget.wanted = [] ∧
      targets.filterMap WorkerTarget.explicit ≠ []) ↔
    targets ≠ [] ∧ targets.filterMap WorkerTarget.wanted = [] := by
  refine ⟨fun ⟨hwanted, hexplicit⟩ => ⟨fun hnil => hexplicit (by rw [hnil]; rfl), hwanted⟩, ?_⟩
  rintro ⟨hne, hwanted⟩
  refine ⟨hwanted, ?_⟩
  obtain ⟨t, rest, rfl⟩ := List.exists_cons_of_ne_nil hne
  cases t with
  | addr a => simp [WorkerTarget.explicit]
  | device id => simp [WorkerTarget.wanted] at hwanted

/-- What the search comes to once it has listened. -/
theorem listened_eq_ok : (match ((targets.filterMap WorkerTarget.wanted).filter fun id =>
        (replay (workerChange trusted self targets) events)[id]?.isNone).min? with
      | some id => .error ("worker " ++ id.display ++
          " is unavailable; start it or supply --worker <IPv4:port>")
      | none => .ok (targets.filterMap WorkerTarget.explicit ++
          (replay (workerChange trusted self targets) events).toList.map
            fun (id, addrs) => (some id, addrs))) = (.ok located : Except String _) ↔
    ∃ found, Found trusted self targets events found ∧
      located = targets.filterMap WorkerTarget.explicit ++
        found.map fun (id, addrs) => (some id, addrs) := by
  constructor
  · intro h
    split at h
    · cases h
    · rename_i hmissing
      rw [List.min?_eq_none_iff, List.filter_eq_nil_iff] at hmissing
      exact ⟨_, found_replay fun id hid hnone => hmissing id hid (by simp [hnone]),
        (Except.ok.inj h).symm⟩
  · rintro ⟨found, hfound, rfl⟩
    have hpresent : ∀ id ∈ targets.filterMap WorkerTarget.wanted,
        (replay (workerChange trusted self targets) events)[id]? ≠ none := by
      intro id hid hnone
      obtain ⟨⟨id', addrs⟩, hmem, rfl⟩ := List.mem_map.1 (hfound.wanted id hid)
      rw [getElem?_replay.2 ((hfound.mem_iff id' addrs).1 hmem)] at hnone
      cases hnone
    have hmissing : ((targets.filterMap WorkerTarget.wanted).filter fun id =>
        (replay (workerChange trusted self targets) events)[id]?.isNone).min? = none := by
      rw [List.min?_eq_none_iff, List.filter_eq_nil_iff]
      exact fun id hid hnone => hpresent id hid (Option.isNone_iff_eq_none.1 hnone)
    rw [hmissing, hfound.unique (found_replay hpresent)]

/-- **Which workers are found.**  The arguments are read; if they are all addresses, these are the
workers; otherwise they come first, and after them, in the order of their ids, the devices that were
advertised last as usable workers and not withdrawn, among which are all that were named. -/
theorem findWorkers_eq_ok : findWorkers std requested trusted self browsed = .ok located ↔
    ∃ targets, List.Forall₂ (fun text t => readTarget std trusted self text = .ok t) requested targets ∧
      ((targets ≠ [] ∧ targets.filterMap WorkerTarget.wanted = [] ∧
          located = targets.filterMap WorkerTarget.explicit) ∨
        (targets = [] ∨ targets.filterMap WorkerTarget.wanted ≠ []) ∧
          ∃ events found, browsed = .ok events ∧ Found trusted self targets events found ∧
            located = targets.filterMap WorkerTarget.explicit ++
              found.map fun (id, addrs) => (some id, addrs)) := by
  unfold findWorkers
  constructor
  · intro h
    cases hread : requested.mapM (readTarget std trusted self) with
    | error why =>
      rw [hread] at h
      cases h
    | ok targets =>
      rw [hread] at h
      dsimp only at h
      refine ⟨targets, mapM_eq_ok.1 hread, ?_⟩
      split_ifs at h with hexplicit
      · obtain ⟨hne, hwanted⟩ := only_addresses_iff.1 hexplicit
        exact Or.inl ⟨hne, hwanted, (Except.ok.inj h).symm⟩
      · rw [only_addresses_iff, not_and_or, not_not] at hexplicit
        cases hbrowsed : browsed with
        | error why =>
          rw [hbrowsed] at h
          cases h
        | ok events =>
          rw [hbrowsed] at h
          obtain ⟨found, hfound, hlocated⟩ := listened_eq_ok.1 h
          exact Or.inr ⟨hexplicit, events, found, rfl, hfound, hlocated⟩
  · rintro ⟨targets, hread, hcase⟩
    rw [mapM_eq_ok.2 hread]
    dsimp only
    obtain ⟨hne, hwanted, rfl⟩ | ⟨hbrowse, events, found, rfl, hfound, hlocated⟩ := hcase
    · rw [if_pos (only_addresses_iff.2 ⟨hne, hwanted⟩)]
    · have hnot : ¬ (targets ≠ [] ∧ targets.filterMap WorkerTarget.wanted = []) := by
        rwa [not_and_or, not_not]
      rw [if_neg (mt only_addresses_iff.1 hnot)]
      exact listened_eq_ok.2 ⟨found, hfound, hlocated⟩

end Daemon

end Latticed
