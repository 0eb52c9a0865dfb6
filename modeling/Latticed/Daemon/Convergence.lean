import Latticed.Daemon.Rosters
import Latticed.Daemon.Workers

/-!
# Workers come to know each other

The user pairs every worker with the master once.  Each announcement of a worker makes the master send a
roster of everyone it trusts over every connection of its registry.  The rosters are sent by tasks of
their own, so they arrive in any order, and a worker handles several of them at a time.

* `Accepting.Honest.step_cases` : what a section of a request from the master does.
* `Informed.step` : whom a worker should know, it knows, or a roster or a request that names it is under way.
* `workers_trust_each_other` : with no roster and no request under way, workers whose connections stay
  open trust each other's keys, and no worker has a record of itself.
-/

namespace Latticed

namespace Daemon

open Net

variable {Key : Type} [PublicKey Key]

/-! ### Ids stand for keys -/

/-- No two keys share an id: an id stands for at most one key. -/
structure Directory (Key : Type) [PublicKey Key] where
  keyOf : DeviceId → Option Key
  own : ∀ {id k}, keyOf id = some k → keyOf (PublicKey.deviceId k) = some k

namespace Directory

variable {dir : Directory Key} {store : TrustStore Key} {k : Key}

/-- The records of the store are filed under their ids and have the keys of these ids. -/
def Lists (dir : Directory Key) (store : TrustStore Key) : Prop :=
  ∀ id p, store.get id = some p → p.deviceId = id ∧ dir.keyOf id = some p.publicKey

/-- The introduction carries the key of a device. -/
def Genuine (dir : Directory Key) (i : Introduction) : Prop :=
  ∃ id k, dir.keyOf id = some k ∧ i.publicKey = PublicKey.toBytes k

theorem Lists.isTrusted [DecidableEq Key] (h : dir.Lists store)
    (hk : dir.keyOf (PublicKey.deviceId k) = some k)
    (hknows : knows store (PublicKey.deviceId k) = true) : store.isTrusted k = true := by
  obtain ⟨p, hp⟩ := Option.isSome_iff_exists.1 hknows
  have hkey := (h _ p hp).2
  rw [hk] at hkey
  exact TrustStore.isTrusted_eq_true.2 ⟨p, hp, (Option.some.inj hkey).symm⟩

theorem Lists.insert (h : dir.Lists store) {p : PairedPeer Key}
    (hp : dir.keyOf p.deviceId = some p.publicKey) (save : Except NetError Unit) :
    dir.Lists (store.insert p save).1 := by
  intro id q hq
  rw [TrustStore.get_insert] at hq
  split_ifs at hq with hid
  · cases hq
    exact ⟨hid, hid ▸ hp⟩
  · exact h id q hq

end Directory

/-! ### Requests from the master -/

namespace Accepting

variable {dir : Directory Key} {self sender id : DeviceId} {store : TrustStore Key} {c : Accepting Key}

/-- A request of `sender` whose entries are genuine, on a device where every save goes well. -/
structure Honest (dir : Directory Key) (device sender : DeviceId) (c : Accepting Key) : Prop where
  from_ : c.sender = sender
  peers : ∀ a ∈ c.peers, a.save = .ok () ∧ dir.Genuine a.introduction
  insert : ∀ p save, c.phase = .insert p save →
    save = .ok () ∧ p.deviceId ≠ device ∧ dir.keyOf p.deviceId = some p.publicKey

/-- The introduction names this device. -/
def Names (Key : Type) [PublicKey Key] (i : Introduction) (id : DeviceId) : Prop :=
  ∃ k : Key, i.publicKey = PublicKey.toBytes k ∧ PublicKey.deviceId k = id

/-- The answer, if there is one. -/
def response (c : Accepting Key) : Option Response :=
  match c.phase with
  | .answered response => some response
  | _ => none

/-- The device is still to be handled. -/
def Holds (c : Accepting Key) (id : DeviceId) : Prop :=
  c.response = none ∧
    ((∃ a ∈ c.peers, Names Key a.introduction id) ∨ ∃ p save, c.phase = .insert p save ∧ p.deviceId = id)

/-- **What a section of such a request does.** -/
theorem Honest.step_cases (h : c.Honest dir self sender) (hsender : knows store sender = true) :
    (c.phase = .sender ∧ c.step self store = (store, { c with phase := .entry })) ∨
    (c.phase = .entry ∧ c.peers = [] ∧ ∃ response,
      c.step self store = (store, { c with phase := .answered response })) ∨
    (∃ a rest k, c.phase = .entry ∧ c.peers = a :: rest ∧ dir.keyOf (PublicKey.deviceId k) = some k ∧
      a.introduction.publicKey = PublicKey.toBytes k ∧
      ((PublicKey.deviceId k = self ∨ knows store (PublicKey.deviceId k) = true) ∧
          c.step self store = (store, { c with peers := rest, alreadyKnown := c.alreadyKnown + 1 }) ∨
        PublicKey.deviceId k ≠ self ∧ c.step self store = (store, { c with
          peers := rest
          phase := .insert (.introduced k a.introduction.name a.introduction.platform a.now sender)
            (.ok ()) }))) ∨
    (∃ p, c.phase = .insert p (.ok ()) ∧ c.step self store =
      ((store.insert p (.ok ())).1, { c with added := c.added + 1, phase := .entry })) ∨
    ∃ response, c.phase = .answered response ∧ c.step self store = (store, c) := by
  obtain ⟨from_, peers, added, known, phase⟩ := c
  obtain rfl : from_ = sender := h.from_
  cases phase with
  | sender => exact Or.inl ⟨rfl, by simp [step, hsender]⟩
  | entry =>
    cases peers with
    | nil => exact Or.inr (Or.inl ⟨rfl, rfl, _, rfl⟩)
    | cons a rest =>
      obtain ⟨hsave, id, k, hk, hbytes⟩ := h.peers a List.mem_cons_self
      have hinto : (a.introduction.intoPeer from_ a.now : Except NetError (PairedPeer Key)) =
          .ok (.introduced k a.introduction.name a.introduction.platform a.now from_) := by
        simp [intoPeer_eq, hbytes, PublicKey.fromBytes_toBytes]
      refine Or.inr (Or.inr (Or.inl ⟨a, rest, k, rfl, rfl, dir.own hk, hbytes, ?_⟩))
      by_cases hknown : PublicKey.deviceId k = self ∨ knows store (PublicKey.deviceId k) = true
      · exact Or.inl ⟨hknown, by simp [step, hinto, hknown]⟩
      · exact Or.inr ⟨fun heq => hknown (Or.inl heq), by simp [step, hinto, hknown, hsave]⟩
  | insert p save =>
    obtain ⟨rfl, -, -⟩ := h.insert p save rfl
    exact Or.inr (Or.inr (Or.inr (Or.inl ⟨p, rfl, rfl⟩)))
  | answered response => exact Or.inr (Or.inr (Or.inr (Or.inr ⟨response, rfl, rfl⟩)))

theorem Honest.step (h : c.Honest dir self sender) (hsender : knows store sender = true) :
    (c.step self store).2.Honest dir self sender := by
  rcases h.step_cases hsender with ⟨-, hstep⟩ | ⟨-, -, response, hstep⟩ |
    ⟨a, rest, k, -, hpeers, hk, -, ⟨-, hstep⟩ | ⟨hself, hstep⟩⟩ | ⟨p, -, hstep⟩ | ⟨response, -, hstep⟩
  · rw [hstep]
    exact ⟨h.from_, h.peers, by simp⟩
  · rw [hstep]
    exact ⟨h.from_, h.peers, by simp⟩
  · rw [hstep]
    exact ⟨h.from_, fun b hb => h.peers b (by simp [hpeers, hb]), h.insert⟩
  · rw [hstep]
    refine ⟨h.from_, fun b hb => h.peers b (by simp [hpeers, hb]), ?_⟩
    rintro p save ⟨⟩
    exact ⟨rfl, hself, hk⟩
  · rw [hstep]
    exact ⟨h.from_, h.peers, by simp⟩
  · rw [hstep]
    exact h

/-- The record that a section of such a request writes, if it writes one. -/
theorem Honest.writes (h : c.Honest dir self sender) (hsender : knows store sender = true) :
    (c.step self store).1 = store ∨ ∃ p, c.phase = .insert p (.ok ()) ∧ p.deviceId ≠ self ∧
      dir.keyOf p.deviceId = some p.publicKey ∧ (c.step self store).1 = (store.insert p (.ok ())).1 := by
  rcases h.step_cases hsender with ⟨-, hstep⟩ | ⟨-, -, response, hstep⟩ |
    ⟨a, rest, k, -, -, -, -, ⟨-, hstep⟩ | ⟨-, hstep⟩⟩ | ⟨p, hphase, hstep⟩ | ⟨response, -, hstep⟩
  · exact Or.inl (by rw [hstep])
  · exact Or.inl (by rw [hstep])
  · exact Or.inl (by rw [hstep])
  · exact Or.inl (by rw [hstep])
  · obtain ⟨-, hself, hk⟩ := h.insert p _ hphase
    exact Or.inr ⟨p, hphase, hself, hk, by rw [hstep]⟩
  · exact Or.inl (by rw [hstep])

/-- **A device that is still to be handled** stays so until it is known. -/
theorem Honest.holds_step (h : c.Honest dir self sender) (hsender : knows store sender = true)
    (hholds : c.Holds id) (hid : id ≠ self) :
    knows (c.step self store).1 id = true ∨ (c.step self store).2.Holds id := by
  obtain ⟨hopen, hholds⟩ := hholds
  rcases h.step_cases hsender with ⟨hphase, hstep⟩ | ⟨hphase, hnil, response, hstep⟩ |
    ⟨a, rest, k, hphase, hpeers, -, hbytes, hcase⟩ | ⟨p, hphase, hstep⟩ | ⟨response, hphase, -⟩
  · rw [hstep]
    exact Or.inr ⟨rfl, Or.inl (by simpa [hphase] using hholds)⟩
  · simp [hphase, hnil] at hholds
  · -- the entry in front is the device, or the device comes later
    have hfront : Names Key a.introduction id → PublicKey.deviceId k = id := by
      rintro ⟨k', hbytes', rfl⟩
      have hkeys := PublicKey.fromBytes_toBytes k
      rw [← hbytes, hbytes', PublicKey.fromBytes_toBytes] at hkeys
      rw [Except.ok.inj hkeys]
    have hlater : PublicKey.deviceId k = id ∨ ∃ b ∈ rest, Names Key b.introduction id := by
      simp only [hphase, hpeers, List.mem_cons, exists_eq_or_imp, reduceCtorEq, false_and,
        exists_false, or_false] at hholds
      exact hholds.imp_left hfront
    rcases hcase with ⟨hknown, hstep⟩ | ⟨-, hstep⟩
    · rw [hstep]
      rcases hlater with rfl | hlater
      · exact Or.inl (hknown.resolve_left hid)
      · exact Or.inr ⟨by simp [response, hphase], Or.inl hlater⟩
    · rw [hstep]
      refine Or.inr ⟨rfl, ?_⟩
      rcases hlater with rfl | hlater
      · exact Or.inr ⟨_, _, rfl, rfl⟩
      · exact Or.inl hlater
  · rw [hstep]
    rcases hholds with hlater | ⟨q, save, hq, rfl⟩
    · exact Or.inr ⟨rfl, Or.inl hlater⟩
    · rw [hphase] at hq
      cases hq
      exact Or.inl ((knows_insert store p (.ok ()) _).2 (Or.inl rfl))
  · simp [Accepting.response, hphase] at hopen

end Accepting

/-- The entries of a roster, with the clock when each one is handled. -/
def arrivals (roster : List Introduction) (clock : ℕ → UInt64) : List Arrival :=
  roster.mapIdx fun i introduction => ⟨introduction, clock i, .ok ()⟩

/-! ### One worker -/

namespace Rosters

variable {dir : Directory Key} {self sender id : DeviceId} {ρ : Rosters Key}

/-- A device that has a record of `sender` and none of itself, and only handles requests of `sender`. -/
structure Calm (dir : Directory Key) (device sender : DeviceId) (ρ : Rosters Key) : Prop where
  lists : dir.Lists ρ.store
  absent : ρ.store.get device = none
  calls : ∀ n c, ρ.calls n = some c → c.Honest dir device sender ∧ knows ρ.store sender = true

/-- The device is known, or a request that is being handled names it. -/
def Expects (ρ : Rosters Key) (id : DeviceId) : Prop :=
  knows ρ.store id = true ∨ ∃ n c, ρ.calls n = some c ∧ c.Holds id

/-- Nobody is forgotten. -/
theorem knows_step (e : RosterEvent Key) (h : knows ρ.store id = true) :
    knows (ρ.step self e).store id = true := by
  rw [store_step]
  cases ρ.writes e with
  | none => exact h
  | some p => exact (knows_insert ρ.store p (.ok ()) id).2 (Or.inr h)

theorem Calm.pair (h : ρ.Calm dir self sender) {k : Key}
    (hk : dir.keyOf (PublicKey.deviceId k) = some k) (hne : PublicKey.deviceId k ≠ self)
    (name platform : String) (now : UInt64) :
    (ρ.step self (.pair k name platform now (.ok ()))).Calm dir self sender where
  lists := h.lists.insert hk (.ok ())
  absent := by
    show (ρ.store.insert (.new k name platform now) (.ok ())).1.get self = none
    rw [TrustStore.get_insert_of_ne hne]
    exact h.absent
  calls := fun n c hc => ⟨(h.calls n c hc).1, knows_step _ (h.calls n c hc).2⟩

theorem Calm.arrive (h : ρ.Calm dir self sender) (hsender : knows ρ.store sender = true) (n : ℕ)
    {roster : List Introduction} (hroster : ∀ i ∈ roster, dir.Genuine i) (clock : ℕ → UInt64) :
    (ρ.step self (.arrive n sender (arrivals roster clock))).Calm dir self sender := by
  cases hn : ρ.calls n with
  | some c => simpa [step, hn] using h
  | none =>
    have hnew : (Accepting.new sender (arrivals roster clock) : Accepting Key).Honest dir self sender := by
      refine ⟨rfl, ?_, by simp [Accepting.new]⟩
      intro a ha
      obtain ⟨i, hi, rfl⟩ := List.mem_mapIdx.1 ha
      exact ⟨rfl, hroster _ (List.getElem_mem hi)⟩
    refine ⟨by simpa [step, hn] using h.lists, by simpa [step, hn] using h.absent, ?_⟩
    intro m c hc
    simp only [step, hn, Function.update_apply] at hc ⊢
    split_ifs at hc
    · cases hc
      exact ⟨hnew, hsender⟩
    · exact h.calls m c hc

theorem Calm.step (h : ρ.Calm dir self sender) (n : ℕ) :
    (ρ.step self (.step n)).Calm dir self sender := by
  cases hn : ρ.calls n with
  | none => simpa [Rosters.step, hn] using h
  | some c =>
    obtain ⟨hhonest, hsender⟩ := h.calls n c hn
    have hstore : (ρ.step self (.step n)).store = (c.step self ρ.store).1 := by simp [Rosters.step, hn]
    refine ⟨?_, ?_, ?_⟩
    · rw [hstore]
      rcases hhonest.writes hsender with heq | ⟨p, -, -, hp, heq⟩ <;> rw [heq]
      · exact h.lists
      · exact h.lists.insert hp _
    · rw [hstore]
      rcases hhonest.writes hsender with heq | ⟨p, -, hself, -, heq⟩ <;> rw [heq]
      · exact h.absent
      · rw [TrustStore.get_insert_of_ne hself]
        exact h.absent
    · intro m c' hc'
      refine ⟨?_, knows_step _ hsender⟩
      simp only [Rosters.step, hn, Function.update_apply] at hc'
      split_ifs at hc'
      · cases hc'
        exact hhonest.step hsender
      · exact (h.calls m c' hc').1

/-- **A device that is expected stays so.** -/
theorem Expects.step (h : ρ.Expects id) (hcalm : ρ.Calm dir self sender) (hid : id ≠ self)
    (e : RosterEvent Key) : (ρ.step self e).Expects id := by
  rcases h with hknows | ⟨m, c, hc, hholds⟩
  · exact Or.inl (knows_step e hknows)
  · by_cases hstep : e = .step m
    · subst hstep
      obtain ⟨hhonest, hsender⟩ := hcalm.calls m c hc
      rcases hhonest.holds_step hsender hholds hid with hknows | hlater
      · exact Or.inl (by simpa [Rosters.step, hc] using hknows)
      · exact Or.inr ⟨m, _, by simp [Rosters.step, hc], hlater⟩
    · refine Or.inr ⟨m, c, ?_, hholds⟩
      by_cases harrive : ∃ from_ peers, e = .arrive m from_ peers
      · obtain ⟨from_, peers, rfl⟩ := harrive
        simp [Rosters.step, hc]
      · rw [step_calls_of_ne ρ hstep fun from_ peers heq => harrive ⟨from_, peers, heq⟩, hc]

theorem expects_arrive {n : ℕ} (hn : ρ.calls n = none) {roster : List Introduction}
    {i : Introduction} (hi : i ∈ roster) (hnames : Accepting.Names Key i id) (clock : ℕ → UInt64) :
    (ρ.step self (.arrive n sender (arrivals roster clock))).Expects id := by
  obtain ⟨j, hj, rfl⟩ := List.getElem_of_mem hi
  refine Or.inr ⟨n, .new sender (arrivals roster clock), by simp [Rosters.step, hn], rfl, ?_⟩
  exact Or.inl ⟨_, List.mem_mapIdx.2 ⟨j, hj, rfl⟩, hnames⟩

end Rosters

/-! ### The registry serves trusted workers -/

namespace Registry

variable {dir : Directory Key} {P Q : Key → Prop} {r : Registry Key} {e : RegistryEvent Key}

/-- Every connection is that of a key with `P`, and what is sent are keys that go with their ids. -/
structure Serves (dir : Directory Key) (P : Key → Prop) (r : Registry Key) : Prop where
  wf : r.Wf
  latest : r.Latest
  ends : ∀ conn c, r.conns conn = some c → P c.peerKey
  /-- The records that were read include everyone whose announcement was taken. -/
  snapshot : ∀ joined peers, r.phase = .spawn joined peers →
    (∀ p ∈ peers, dir.keyOf p.deviceId = some p.publicKey) ∧
      ∀ id conn, (id, conn) ∈ r.taken → ∃ p ∈ peers, p.deviceId = id
  requests : ∀ conn roster, (conn, roster) ∈ r.requests → ∀ i ∈ roster, dir.Genuine i

theorem Serves.mono (h : r.Serves dir P) (hPQ : ∀ k, P k → Q k) : r.Serves dir Q :=
  { h with ends := fun conn c hc => hPQ _ (h.ends conn c hc) }

theorem Serves.step (h : r.Serves dir P) (haccept : ∀ conn k, e = .accept conn k → P k)
    (hread : ∀ peers, e = .readStore peers → (∀ p ∈ peers, dir.keyOf p.deviceId = some p.publicKey) ∧
      ∀ k, P k → ∃ p ∈ peers, p.deviceId = PublicKey.deviceId k) : (r.step e).Serves dir P where
  wf := h.wf.step e
  latest := h.latest.step h.wf e
  ends := by
    intro conn c' hc'
    cases hconn : r.conns conn with
    | some c =>
      obtain ⟨c'', hc'', hkey, -⟩ := conns_step hconn e
      obtain rfl : c' = c'' := Option.some.inj (hc'.symm.trans hc'')
      rw [hkey]
      exact h.ends conn c hconn
    | none =>
      rcases r.step_cases e with ⟨hconns, -, -⟩ | ⟨new, k, he, -, hstep⟩ |
        ⟨joined, rest, c, -, -, -, -, hstep⟩ | ⟨closed, c, -, hclosed, hstep⟩ |
        ⟨task, closed, c, -, -, -, -, hstep⟩
      · rw [hconns, hconn] at hc'
        cases hc'
      · simp only [hstep, Function.update_apply] at hc'
        split_ifs at hc'
        · cases hc'
          exact haccept new k he
        · rw [hconn] at hc'
          cases hc'
      · simp [hstep, hconn] at hc'
      · have hne : conn ≠ closed := by
          rintro rfl
          cases hconn.symm.trans hclosed
        simp [hstep, Function.update_of_ne hne, hconn] at hc'
      · simp [hstep, hconn] at hc'
  snapshot := by
    intro joined peers hphase
    obtain ⟨hbefore | hnow, htaken⟩ := phase_step hphase
    · rw [htaken]
      exact h.snapshot joined peers hbefore
    · obtain ⟨hkeys, hall⟩ := hread peers hnow
      refine ⟨hkeys, fun id conn hmem => ?_⟩
      rw [htaken] at hmem
      obtain ⟨c, hconn, rfl⟩ := h.wf.taken id conn hmem
      exact hall c.peerKey (h.ends conn c hconn)
  requests := by
    intro conn roster hmem i hi
    rcases requests_step hmem with hold | ⟨joined, peers, -, hphase, hnew⟩
    · exact h.requests conn roster hold i hi
    · obtain ⟨id, c, -, -, rfl⟩ := mem_rosters.1 hnew
      obtain ⟨p, hp, rfl⟩ := List.mem_map.1 hi
      exact ⟨_, _, (h.snapshot joined peers hphase).1 p (List.mem_filter.1 hp).1, rfl⟩

/-- **A roster names everyone else** who has been announced, and goes over the latest connection. -/
theorem Serves.spawn (h : r.Serves dir P) {joined : Joined} {peers : List (PairedPeer Key)}
    (hphase : r.phase = .spawn joined peers) {id id' : DeviceId} {conn conn' : ℕ} {k : Key}
    (hlatest : r.taken.lookup id = some conn) (hopen : r.isOpen conn = true)
    (hmem : (id', conn') ∈ r.taken) (hne : id' ≠ id) (hk : dir.keyOf id' = some k) :
    ∃ roster, (conn, roster) ∈ (r.step .spawn).requests ∧
      ∃ i ∈ roster, i.publicKey = PublicKey.toBytes k := by
  obtain ⟨c, hconn, rfl⟩ := h.wf.taken id conn (mem_of_lookup hlatest)
  obtain ⟨hkeys, hall⟩ := h.snapshot joined peers hphase
  obtain ⟨p, hp, rfl⟩ := hall id' conn' hmem
  have hkey : p.publicKey = k := Option.some.inj ((hkeys p hp).symm.trans hk)
  refine ⟨rosterFor c.peerId peers, ?_, .of p, ?_, by rw [← hkey]; rfl⟩
  · simp only [Registry.step, hphase, List.mem_append]
    exact Or.inr (mem_rosters.2 ⟨c.peerId, c, h.latest _ _ hlatest hopen, hconn, rfl⟩)
  · exact List.mem_map.2 ⟨p, List.mem_filter.2 ⟨hp, by simpa using hne⟩, rfl⟩

end Registry

/-! ### The master and its workers -/

/-- The keys of a master and its workers. -/
structure Devices (W Key : Type) where
  master : Key
  worker : W → Key
  worker_injective : Function.Injective worker
  worker_ne_master : ∀ w, worker w ≠ master

namespace Devices

variable {W : Type}

/-- The id of a worker. -/
def id (D : Devices W Key) (w : W) : DeviceId := PublicKey.deviceId (D.worker w)

/-- The id of the master. -/
def masterId (D : Devices W Key) : DeviceId := PublicKey.deviceId D.master

/-- The ids of these devices stand for their keys. -/
structure In (D : Devices W Key) (dir : Directory Key) : Prop where
  master : dir.keyOf D.masterId = some D.master
  worker : ∀ w, dir.keyOf (D.id w) = some (D.worker w)

variable {D : Devices W Key} {dir : Directory Key} {w w' : W}

theorem In.id_ne (h : D.In dir) (hne : w ≠ w') : D.id w ≠ D.id w' := by
  intro heq
  have hkey := h.worker w
  rw [heq, h.worker w'] at hkey
  exact hne (D.worker_injective (Option.some.inj hkey).symm)

theorem In.masterId_ne (h : D.In dir) (w : W) : D.masterId ≠ D.id w := by
  intro heq
  have hkey := h.worker w
  rw [← heq, h.master] at hkey
  exact D.worker_ne_master w (Option.some.inj hkey).symm

end Devices

/-- The trust stores of the master and of its workers, and the registry of the master. -/
structure Cluster (W Key : Type) where
  master : TrustStore Key
  registry : Registry Key
  workers : W → Rosters Key

/-- What happens.  Every save goes well, and nobody is removed. -/
inductive ClusterEvent (W : Type) where
  /-- The master records a worker, at the end of their pairing. -/
  | recordWorker (w : W) (name platform : String) (now : UInt64)
  /-- The worker records the master. -/
  | recordMaster (w : W) (name platform : String) (now : UInt64)
  /-- A worker connects. -/
  | accept (w : W) (conn : ℕ)
  | register (conn : ℕ) (port : UInt16)
  | recv
  | readStore
  | spawn
  | close (conn : ℕ)
  | cleanup (task : ℕ)
  /-- A roster reaches the worker at the other end of its connection, as its request `n`. -/
  | deliver (w : W) (request n : ℕ) (clock : ℕ → UInt64)
  /-- A roster is lost with its connection. -/
  | lose (request : ℕ)
  /-- The next section of request `n` of a worker. -/
  | work (w : W) (n : ℕ)

namespace Cluster

variable {W : Type} [DecidableEq W] [DecidableEq Key]

/-- What happens to the store and the requests of one worker. -/
def atWorker (D : Devices W Key) (σ : Cluster W Key) (w : W) (e : RosterEvent Key) : Cluster W Key :=
  { σ with workers := Function.update σ.workers w ((σ.workers w).step (D.id w) e) }

/-- What happens to the registry. -/
def atRegistry (σ : Cluster W Key) (e : RegistryEvent Key) : Cluster W Key :=
  { σ with registry := σ.registry.step e }

/-- One event.  What cannot happen changes nothing. -/
def step (D : Devices W Key) (σ : Cluster W Key) : ClusterEvent W → Cluster W Key
  | .recordWorker w name platform now =>
    { σ with master := (σ.master.insert (.new (D.worker w) name platform now) (.ok ())).1 }
  | .recordMaster w name platform now => σ.atWorker D w (.pair D.master name platform now (.ok ()))
  | .accept w conn =>
    -- both ends refuse a peer they do not trust
    if σ.master.isTrusted (D.worker w) ∧ (σ.workers w).store.isTrusted D.master then
      σ.atRegistry (.accept conn (D.worker w))
    else σ
  | .register conn port => σ.atRegistry (.register conn port)
  | .recv => σ.atRegistry .recv
  | .readStore => σ.atRegistry (.readStore σ.master.records)
  | .spawn => σ.atRegistry .spawn
  | .close conn => σ.atRegistry (.close conn)
  | .cleanup task => σ.atRegistry (.cleanup task)
  | .deliver w request n clock =>
    match σ.registry.requests[request]? with
    | none => σ
    | some (conn, roster) =>
      if (σ.registry.conns conn).any (·.peerKey = D.worker w) ∧ ((σ.workers w).calls n).isNone then
        (σ.atRegistry (.finish request)).atWorker D w
          (.arrive n D.masterId (arrivals roster clock))
      else σ
  | .lose request =>
    match σ.registry.requests[request]? with
    | none => σ
    | some (conn, _) => if σ.registry.isOpen conn then σ else σ.atRegistry (.finish request)
  | .work w n => σ.atWorker D w (.step n)

/-- The cluster after these events. -/
def run (D : Devices W Key) (σ : Cluster W Key) (events : List (ClusterEvent W)) : Cluster W Key :=
  events.foldl (step D) σ

end Cluster

/-! ### Runs of the cluster -/

namespace Cluster

variable {W : Type} {D : Devices W Key} {dir : Directory Key}
  {σ : Cluster W Key} {w w' : W}

/-- The key is that of a worker, and this worker and the master know each other. -/
def Paired (D : Devices W Key) (σ : Cluster W Key) (k : Key) : Prop :=
  ∃ w, k = D.worker w ∧ knows σ.master (D.id w) = true ∧ knows (σ.workers w).store D.masterId = true

/-- Before anything happens: no worker has a record of itself. -/
structure Start (D : Devices W Key) (dir : Directory Key) (σ : Cluster W Key) : Prop where
  registry : σ.registry = .empty
  master : dir.Lists σ.master
  workers : ∀ w, dir.Lists (σ.workers w).store
  absent : ∀ w, (σ.workers w).store.get (D.id w) = none
  idle : ∀ w n, (σ.workers w).calls n = none

/-- What holds in every state: the records are those of devices with their own keys. -/
structure Sound (D : Devices W Key) (dir : Directory Key) (σ : Cluster W Key) : Prop where
  registry : σ.registry.Serves dir (Paired D σ)
  master : dir.Lists σ.master
  workers : ∀ w, (σ.workers w).Calm dir (D.id w) D.masterId

/-- The latest connection over which the worker was announced is open. -/
def Staying (D : Devices W Key) (σ : Cluster W Key) (w : W) : Prop :=
  ∃ conn, σ.registry.announced.lookup (D.id w) = some conn ∧ σ.registry.isOpen conn = true

/-- Whom a worker should know, it knows or expects, or a roster for it is under way. -/
def Informed (D : Devices W Key) (σ : Cluster W Key) : Prop :=
  ∀ w w' conn conn', w ≠ w' → σ.registry.announced.lookup (D.id w) = some conn →
    σ.registry.isOpen conn = true → (D.id w', conn') ∈ σ.registry.announced →
      (σ.workers w).Expects (D.id w') ∨ ∃ roster, (conn, roster) ∈ σ.registry.requests ∧
        ∃ i ∈ roster, i.publicKey = PublicKey.toBytes (D.worker w')

/-- No roster and no request is under way. -/
def Quiet (σ : Cluster W Key) : Prop :=
  σ.registry.requests = [] ∧
    ∀ w n c, (σ.workers w).calls n = some c → c.response.isSome = true

theorem Start.sound (h : σ.Start D dir) : σ.Sound D dir where
  registry := by
    rw [h.registry]
    exact ⟨Registry.wf_empty, by simp [Registry.Latest, Registry.empty], by simp [Registry.empty],
      by simp [Registry.empty], by simp [Registry.empty]⟩
  master := h.master
  workers := fun w => ⟨h.workers w, h.absent w, fun n c hc => by simp [h.idle w n] at hc⟩

theorem Start.informed (h : σ.Start D dir) : σ.Informed D := by
  intro w w' conn conn' _ hlatest
  simp [h.registry, Registry.announced, Registry.empty] at hlatest

/-- What happens to one worker. -/
theorem Sound.atWorker [DecidableEq W] (h : σ.Sound D dir) (w : W) {e : RosterEvent Key}
    (hcalm : ((σ.workers w).step (D.id w) e).Calm dir (D.id w) D.masterId) :
    (σ.atWorker D w e).Sound D dir where
  registry := by
    refine h.registry.mono ?_
    rintro k ⟨w', rfl, hmaster, hworker⟩
    refine ⟨w', rfl, hmaster, ?_⟩
    by_cases heq : w' = w
    · subst heq
      simpa [Cluster.atWorker] using Rosters.knows_step e hworker
    · simpa [Cluster.atWorker, Function.update_of_ne heq] using hworker
  master := h.master
  workers := by
    intro w'
    by_cases heq : w' = w
    · subst heq
      simpa [Cluster.atWorker] using hcalm
    · simpa [Cluster.atWorker, Function.update_of_ne heq] using h.workers w'

theorem Sound.atRegistry (h : σ.Sound D dir) {e : RegistryEvent Key}
    (haccept : ∀ conn k, e = .accept conn k → Paired D σ k)
    (hread : ∀ peers, e = .readStore peers → peers = σ.master.records) :
    (σ.atRegistry e).Sound D dir where
  registry := by
    refine h.registry.step haccept ?_
    rintro peers he
    rw [hread peers he]
    have hkeyed : σ.master.Keyed := fun id p hp => (h.master id p hp).1
    constructor
    · intro p hp
      exact (h.master _ p ((TrustStore.mem_records hkeyed).1 hp)).2
    · rintro k ⟨w, rfl, hmaster, -⟩
      obtain ⟨p, hp⟩ := Option.isSome_iff_exists.1 hmaster
      obtain ⟨hid, -⟩ := h.master _ p hp
      exact ⟨p, (TrustStore.mem_records hkeyed).2 (hid ▸ hp), hid⟩
  master := h.master
  workers := h.workers

/-- A worker with a connection knows the master. -/
theorem Sound.knows_master (h : σ.Sound D dir) {conn : ℕ} {c : Conn Key}
    (hconn : σ.registry.conns conn = some c) (hkey : c.peerKey = D.worker w) :
    knows (σ.workers w).store D.masterId = true := by
  obtain ⟨w', hkey', -, hworker⟩ := h.registry.ends conn c hconn
  obtain rfl : w = w' := D.worker_injective (hkey.symm.trans hkey')
  exact hworker

theorem Sound.step [DecidableEq W] [DecidableEq Key] (hD : D.In dir) (h : σ.Sound D dir)
    (e : ClusterEvent W) : (σ.step D e).Sound D dir := by
  cases e with
  | recordWorker w name platform now =>
    refine ⟨h.registry.mono ?_, h.master.insert (hD.worker w) (.ok ()), h.workers⟩
    rintro k ⟨w', rfl, hmaster, hworker⟩
    exact ⟨w', rfl, (knows_insert σ.master _ (.ok ()) _).2 (Or.inr hmaster), hworker⟩
  | recordMaster w name platform now =>
    exact h.atWorker w ((h.workers w).pair hD.master (hD.masterId_ne w) name platform now)
  | accept w conn =>
    simp only [Cluster.step]
    split_ifs with htrusted
    · refine h.atRegistry ?_ (by simp)
      rintro conn' k ⟨⟩
      exact ⟨w, rfl, knows_of_isTrusted htrusted.1, knows_of_isTrusted htrusted.2⟩
    · exact h
  | register conn port => exact h.atRegistry (by simp) (by simp)
  | recv => exact h.atRegistry (by simp) (by simp)
  | readStore => exact h.atRegistry (by simp) (by simp)
  | spawn => exact h.atRegistry (by simp) (by simp)
  | close conn => exact h.atRegistry (by simp) (by simp)
  | cleanup task => exact h.atRegistry (by simp) (by simp)
  | deliver w request n clock =>
    simp only [Cluster.step]
    split
    · exact h
    · next conn roster hrequest =>
      split_ifs with hguard
      · obtain ⟨c, hconn, hkey⟩ := (Option.any_eq_true _ _).1 hguard.1
        have hmaster := h.knows_master hconn (by simpa using hkey)
        have hroster := h.registry.requests conn roster (List.mem_of_getElem? hrequest)
        refine (h.atRegistry (by simp) (by simp)).atWorker w ?_
        exact (h.workers w).arrive hmaster n hroster clock
      · exact h
  | lose request =>
    simp only [Cluster.step]
    split
    · exact h
    · split_ifs
      · exact h
      · exact h.atRegistry (by simp) (by simp)
  | work w n => exact h.atWorker w ((h.workers w).step n)

/-- What happens to one worker keeps what it expects. -/
theorem Informed.atWorker [DecidableEq W] (h : σ.Informed D) (hD : D.In dir) (hsound : σ.Sound D dir) (w₀ : W)
    (e : RosterEvent Key) : (σ.atWorker D w₀ e).Informed D := by
  intro w w' conn conn' hne hlatest hopen hmem
  rcases h w w' conn conn' hne hlatest hopen hmem with hexpects | hroster
  · refine Or.inl ?_
    by_cases heq : w = w₀
    · subst heq
      simpa [Cluster.atWorker] using hexpects.step (hsound.workers w) (hD.id_ne hne.symm) e
    · simpa [Cluster.atWorker, Function.update_of_ne heq] using hexpects
  · exact Or.inr hroster

/-- So does an event of the registry that neither sends rosters nor ends requests. -/
theorem Informed.atRegistry (h : σ.Informed D) (hsound : σ.Sound D dir) {e : RegistryEvent Key}
    (hspawn : e ≠ .spawn) (hfinish : ∀ n, e ≠ .finish n) : (σ.atRegistry e).Informed D := by
  intro w w' conn conn' hne hlatest hopen hmem
  simp only [Cluster.atRegistry, Registry.announced_step hspawn,
    Registry.requests_eq _ hspawn hfinish] at hlatest hmem ⊢
  refine h w w' conn conn' hne hlatest ?_ hmem
  exact hsound.registry.wf.wasOpen
    (Registry.announced_subset (Registry.mem_of_lookup hlatest)) hopen

theorem Informed.spawn (h : σ.Informed D) (hD : D.In dir) (hsound : σ.Sound D dir) :
    (σ.atRegistry .spawn).Informed D := by
  cases hphase : σ.registry.phase with
  | recv => simpa [Cluster.atRegistry, Registry.step, hphase] using h
  | readStore joined => simpa [Cluster.atRegistry, Registry.step, hphase] using h
  | spawn joined peers =>
    intro w w' conn conn' hne hlatest hopen hmem
    simp only [Cluster.atRegistry, Registry.announced_spawn hphase] at hlatest hmem
    refine Or.inr (hsound.registry.spawn hphase hlatest ?_ hmem (hD.id_ne hne.symm) (hD.worker w'))
    exact hsound.registry.wf.wasOpen (Registry.mem_of_lookup hlatest) hopen

/-- A roster that arrives is what the worker is waiting for. -/
theorem Informed.deliver [DecidableEq W] (h : σ.Informed D) (hD : D.In dir) (hsound : σ.Sound D dir) {w₀ : W}
    {request n conn₀ : ℕ} {roster₀ : List Introduction} {c₀ : Conn Key}
    (hrequest : σ.registry.requests[request]? = some (conn₀, roster₀))
    (hconn : σ.registry.conns conn₀ = some c₀) (hkey : c₀.peerKey = D.worker w₀)
    (hn : (σ.workers w₀).calls n = none) (clock : ℕ → UInt64) :
    ((σ.atRegistry (.finish request)).atWorker D w₀
      (.arrive n D.masterId (arrivals roster₀ clock))).Informed D := by
  intro w w' conn conn' hne hlatest hopen hmem
  have hannounced : (σ.registry.step (.finish request)).announced = σ.registry.announced :=
    Registry.announced_step (by simp)
  simp only [Cluster.atWorker, Cluster.atRegistry, hannounced] at hlatest hopen hmem
  rcases h w w' conn conn' hne hlatest hopen hmem with hexpects | ⟨roster, hroster, i, hi, hbytes⟩
  · refine Or.inl ?_
    by_cases heq : w = w₀
    · subst heq
      simpa [Cluster.atWorker, Cluster.atRegistry] using
        hexpects.step (hsound.workers w) (hD.id_ne hne.symm) _
    · simpa [Cluster.atWorker, Cluster.atRegistry, Function.update_of_ne heq] using hexpects
  · obtain ⟨j, hj⟩ := List.getElem?_of_mem hroster
    by_cases heq : j = request
    · -- the roster that names the device has arrived
      subst heq
      obtain ⟨rfl, rfl⟩ := Prod.mk.inj (Option.some.inj (hj.symm.trans hrequest))
      have hw : w = w₀ := by
        by_contra hne'
        obtain ⟨c, hc, hid⟩ := hsound.registry.wf.taken _ _
          (Registry.announced_subset (Registry.mem_of_lookup hlatest))
        obtain rfl : c₀ = c := Option.some.inj (hconn.symm.trans hc)
        exact hD.id_ne hne' (by rw [← hid, Conn.peerId, hkey, Devices.id])
      subst hw
      have hnames : Accepting.Names Key i (D.id w') := ⟨D.worker w', hbytes, rfl⟩
      refine Or.inl ?_
      simpa [Cluster.atWorker, Cluster.atRegistry] using Rosters.expects_arrive hn hi hnames clock
    · refine Or.inr ⟨roster, ?_, i, hi, hbytes⟩
      exact List.mem_eraseIdx_iff_getElem?.2 ⟨j, heq, hj⟩

theorem Informed.step [DecidableEq W] [DecidableEq Key] (hD : D.In dir) (hsound : σ.Sound D dir)
    (h : σ.Informed D) (e : ClusterEvent W) : (σ.step D e).Informed D := by
  cases e with
  | recordWorker w name platform now => exact h
  | recordMaster w name platform now => exact h.atWorker hD hsound w _
  | accept w conn =>
    simp only [Cluster.step]
    split_ifs
    · exact h.atRegistry hsound (by simp) (by simp)
    · exact h
  | register conn port => exact h.atRegistry hsound (by simp) (by simp)
  | recv => exact h.atRegistry hsound (by simp) (by simp)
  | readStore => exact h.atRegistry hsound (by simp) (by simp)
  | spawn => exact h.spawn hD hsound
  | close conn => exact h.atRegistry hsound (by simp) (by simp)
  | cleanup task => exact h.atRegistry hsound (by simp) (by simp)
  | deliver w request n clock =>
    simp only [Cluster.step]
    split
    · exact h
    · next conn roster hrequest =>
      split_ifs with hguard
      · obtain ⟨c, hconn, hkey⟩ := (Option.any_eq_true _ _).1 hguard.1
        exact h.deliver hD hsound hrequest hconn (by simpa using hkey) (by simpa using hguard.2) clock
      · exact h
  | lose request =>
    simp only [Cluster.step]
    split
    · exact h
    · next conn₀ roster₀ hrequest =>
      split_ifs with hopen₀
      · exact h
      · intro w w' conn conn' hne hlatest hopen hmem
        have hannounced : (σ.registry.step (.finish request)).announced = σ.registry.announced :=
          Registry.announced_step (by simp)
        simp only [Cluster.atRegistry, hannounced] at hlatest hmem
        rcases h w w' conn conn' hne hlatest hopen hmem with hexpects | ⟨roster, hroster, hi⟩
        · exact Or.inl hexpects
        · -- what is lost went over a connection that has closed
          obtain ⟨j, hj⟩ := List.getElem?_of_mem hroster
          refine Or.inr ⟨roster, List.mem_eraseIdx_iff_getElem?.2 ⟨j, ?_, hj⟩, hi⟩
          rintro rfl
          obtain ⟨rfl, rfl⟩ := Prod.mk.inj (Option.some.inj (hj.symm.trans hrequest))
          exact hopen₀ hopen
  | work w n => exact h.atWorker hD hsound w _

end Cluster

open Cluster in
/-- **Mutual introduction converges.**  Whatever the order of pairings, connections, announcements, rosters
and requests: when no roster and no request is under way, workers that stay connected trust each other's
keys, and no worker has a record of itself. -/
theorem workers_trust_each_other {W : Type} [DecidableEq W] [DecidableEq Key] {D : Devices W Key}
    {dir : Directory Key} (hD : D.In dir) {σ : Cluster W Key} (hstart : σ.Start D dir)
    (events : List (ClusterEvent W)) (hquiet : (run D σ events).Quiet) :
    (∀ w w', w ≠ w' → (run D σ events).Staying D w → (run D σ events).Staying D w' →
      ((run D σ events).workers w).store.isTrusted (D.worker w') = true) ∧
    ∀ w, ((run D σ events).workers w).store.get (D.id w) = none := by
  obtain ⟨hsound, hinformed⟩ : (run D σ events).Sound D dir ∧ (run D σ events).Informed D :=
    foldl_mono (P := fun σ : Cluster W Key => σ.Sound D dir ∧ σ.Informed D)
      (fun σ e h => ⟨h.1.step hD e, h.2.step hD h.1 e⟩) events ⟨hstart.sound, hstart.informed⟩
  refine ⟨?_, fun w => (hsound.workers w).absent⟩
  rintro w w' hne ⟨conn, hlatest, hopen⟩ ⟨conn', hlatest', -⟩
  refine (hsound.workers w).lists.isTrusted (hD.worker w') ?_
  rcases hinformed w w' conn conn' hne hlatest hopen (Registry.mem_of_lookup hlatest') with
    (hknows | ⟨n, c, hc, hopen', -⟩) | ⟨roster, hmem, -⟩
  · exact hknows
  · have hanswered := hquiet.2 w n c hc
    simp [hopen'] at hanswered
  · rw [hquiet.1] at hmem
    cases hmem

/-- A request that was never delivered is not being handled. -/
theorem Cluster.run_idle {W : Type} [DecidableEq W] [DecidableEq Key] {D : Devices W Key}
    {σ : Cluster W Key} {n : ℕ} (hstart : ∀ w, (σ.workers w).calls n = none)
    {events : List (ClusterEvent W)}
    (hnone : ∀ w request clock, ClusterEvent.deliver w request n clock ∉ events) (w : W) :
    ((run D σ events).workers w).calls n = none := by
  refine foldl_guarded (P := fun σ : Cluster W Key => ∀ w, (σ.workers w).calls n = none)
    (G := fun _ e => ∀ w request clock, e ≠ .deliver w request n clock) ?_ hstart ?_ w
  · intro σ e he hσ w
    have hother (w₀ : W) (e' : RosterEvent Key)
        (he' : ∀ sender peers, e' ≠ .arrive n sender peers) :
        ((σ.atWorker D w₀ e').workers w).calls n = none := by
      by_cases hw : w = w₀
      · subst hw
        by_cases hstep : e' = .step n
        · simp [atWorker, hstep, Rosters.step, hσ w]
        · simp [atWorker, Rosters.step_calls_of_ne _ hstep he', hσ w]
      · simp [atWorker, Function.update_of_ne hw, hσ w]
    cases e with
    | recordMaster w₀ name platform now => exact hother w₀ _ (by simp)
    | work w₀ m => exact hother w₀ _ (by simp)
    | deliver w₀ request m clock =>
      simp only [step]
      split
      · exact hσ w
      · split_ifs
        · refine hother w₀ _ ?_
          rintro sender peers ⟨⟩
          exact he w₀ request clock rfl
        · exact hσ w
    | accept w₀ conn =>
      simp only [step]
      split_ifs <;> exact hσ w
    | lose request =>
      simp only [step]
      split
      · exact hσ w
      · split_ifs <;> exact hσ w
    | recordWorker w₀ name platform now => exact hσ w
    | register conn port => exact hσ w
    | recv => exact hσ w
    | readStore => exact hσ w
    | spawn => exact hσ w
    | close conn => exact hσ w
    | cleanup task => exact hσ w
  · rintro before e after rfl w request clock rfl
    exact hnone w request clock (by simp)

open Cluster in
/-- Two workers are paired and announced, and the newer of the two rosters of worker 3 arrives first. -/
theorem two_workers_trust_each_other :
    let D : Devices Bool UInt8 := ⟨1, fun w => if w then 3 else 2, by decide, by decide⟩
    let σ : Cluster Bool UInt8 := ⟨.empty, .empty, fun _ => ⟨.empty, fun _ => none⟩⟩
    let events : List (ClusterEvent Bool) :=
      [.recordWorker false "left" "linux" 0, .recordMaster false "desk" "linux" 0,
        .recordWorker true "right" "linux" 0, .recordMaster true "desk" "linux" 0,
        .accept false 0, .accept true 1, .register 1 48211, .register 0 48211,
        .recv, .readStore, .spawn, .recv, .readStore, .spawn,
        .deliver true 2 0 fun _ => 0, .deliver true 0 1 fun _ => 0, .deliver false 0 0 fun _ => 0,
        .work true 0, .work true 0, .work true 1, .work true 0, .work true 0, .work true 1,
        .work true 1, .work false 0, .work false 0, .work false 0, .work false 0]
    ((run D σ events).workers false).store.isTrusted 3 = true ∧
      ((run D σ events).workers true).store.isTrusted 2 = true := by
  intro D σ events
  let dir : Directory UInt8 :=
    { keyOf := fun id => if id.val < 256 then some (.ofNat id.val) else none
      own := fun {id k} _ => by simpa [PublicKey.deviceId] using k.toNat_lt }
  have hD : D.In dir := ⟨by decide, by decide⟩
  have hstart : σ.Start D dir :=
    ⟨rfl, by simp [σ, Directory.Lists], by simp [σ, Directory.Lists], by simp [σ], by simp [σ]⟩
  have hquiet : (run D σ events).Quiet := by
    refine ⟨by decide, ?_⟩
    have hanswered : ∀ w, ∀ n < 2, (((run D σ events).workers w).calls n).all
        (·.response.isSome) = true := by decide
    intro w n c hc
    by_cases hn : n < 2
    · have hall := hanswered w n hn
      rwa [hc] at hall
    · have hidle : ((run D σ events).workers w).calls n = none := by
        refine run_idle (by simp [σ]) ?_ w
        intro w request clock hmem
        simp [events] at hmem
        grind
      rw [hidle] at hc
      cases hc
  obtain ⟨htrust, -⟩ := workers_trust_each_other hD hstart events hquiet
  constructor
  · exact htrust false true (by decide) ⟨0, by decide, by decide⟩ ⟨1, by decide, by decide⟩
  · exact htrust true false (by decide) ⟨1, by decide, by decide⟩ ⟨0, by decide, by decide⟩

end Daemon

end Latticed

