import Latticed.Daemon.Chat
import Latticed.Daemon.WorkerLoop
import Latticed.Net.Registry

/-!
# Dialling a device by its identity

Four places dial a device whose identity is known at a list of addresses, any of which may be dead, stale,
or somebody else's by now.  `Mesh::connect` and `Service::connect` ask who answered and go on to the next
address when it was somebody else.  A chat that dials its workers, and a worker that dials the master it
pairs with, take the first connection and ask afterwards.

* `Mesh.connect_ok_iff`, `Worker.connect_ok_iff` : the first two reach a device that answers somewhere.
* `dialWorker_ok_iff`, `Worker.pairConn_ok_iff` : the last two reach it where nobody else answers before.
* `dialling_succeeds` : when each of the four succeeds exactly if the device answers at some address.
-/

namespace Latticed

namespace Daemon

open Net Rust

/-! ### What comes of dialling, address by address -/

/-- The attempts, one for each address. -/
def tries {α : Type} (dial : ℕ → SocketAddr → α) : ℕ → List SocketAddr → List α
  | _, [] => []
  | n, addr :: addrs => dial n addr :: tries dial (n + 1) addrs

/-- At one of the addresses it is this device that answers. -/
def AnswersAs (id : DeviceId) (outcomes : List (Except NetError Connection)) : Prop :=
  ∃ conn, .ok conn ∈ outcomes ∧ conn.peerId = id

theorem answersAs_cons {id : DeviceId} {outcome : Except NetError Connection}
    {outcomes : List (Except NetError Connection)} : AnswersAs id (outcome :: outcomes) ↔
      (∃ conn, outcome = .ok conn ∧ conn.peerId = id) ∨ AnswersAs id outcomes := by
  constructor
  · rintro ⟨conn, hmem, hid⟩
    rcases List.mem_cons.1 hmem with heq | hmem
    · exact Or.inl ⟨conn, heq.symm, hid⟩
    · exact Or.inr ⟨conn, hmem, hid⟩
  · rintro (⟨conn, rfl, hid⟩ | ⟨conn, hmem, hid⟩)
    · exact ⟨conn, List.mem_cons_self, hid⟩
    · exact ⟨conn, List.mem_cons_of_mem _ hmem, hid⟩

/-- An attempt that is not answered by this device can be left out. -/
theorem answersAs_cons_of_not {id : DeviceId} {outcome : Except NetError Connection}
    {outcomes : List (Except NetError Connection)}
    (h : ∀ conn, outcome = .ok conn → conn.peerId ≠ id) :
    AnswersAs id (outcome :: outcomes) ↔ AnswersAs id outcomes := by
  refine answersAs_cons.trans (or_iff_right ?_)
  rintro ⟨conn, hok, hid⟩
  exact h conn hok hid

variable {Key : Type} [PublicKey Key] {policy : Key → Bool} {n : ℕ} {addrs : List SocketAddr}
  {id : DeviceId}

/-! ### The loops that ask who answered -/

theorem reached_iff {dial : ℕ → SocketAddr → Dialled Key} :
    (∃ conn, Mesh.reached policy dial id n addrs = some conn) ↔
      AnswersAs id ((tries dial n addrs).map (·.connect policy)) := by
  induction addrs generalizing n with
  | nil => simp [Mesh.reached, tries, AnswersAs]
  | cons addr addrs ih =>
    rw [Mesh.reached, tries, List.map_cons]
    cases (dial n addr).connect policy with
    | error e =>
      rw [answersAs_cons_of_not fun conn h => (by cases h)]
      exact ih
    | ok conn =>
      dsimp only
      split_ifs with hid
      · exact iff_of_true ⟨conn, rfl⟩ (answersAs_cons.2 (Or.inl ⟨conn, rfl, hid⟩))
      · rw [answersAs_cons_of_not fun conn' h => by cases h; exact hid]
        exact ih

/-- **`Mesh::connect` reaches a device that answers**, when it has no live connection to it. -/
theorem Mesh.connect_ok_iff {m : Mesh} {dial : ℕ → SocketAddr → Dialled Key}
    (h : m.get id = none) : (∃ conn, (m.connect policy dial id addrs).2 = .ok conn) ↔
      AnswersAs id ((tries dial 0 addrs).map (·.connect policy)) := by
  rw [← reached_iff]
  rcases m.connect_cases policy dial id addrs with
    ⟨conn, hget, -⟩ | ⟨-, conn, hreached, heq⟩ | ⟨-, hreached, e, heq⟩
  · rw [h] at hget
    cases hget
  · exact iff_of_true ⟨_, congrArg Prod.snd heq⟩ ⟨conn, hreached⟩
  · rw [heq, hreached]
    exact iff_of_false (by simp) (by simp)

namespace Worker

variable [DecidableEq Key] {w : Worker Key} {store : TrustStore Key}

/-- What comes of the attempts of `Service::connect`, whose policy is the trust store at that time. -/
def outcomes (w : Worker Key) :
    TrustStore Key → List (Handshake Key) → List (Except NetError Connection)
  | _, [] => []
  | store, attempt :: attempts =>
    let store := w.change store attempt.others
    attempt.connect store.isTrusted :: w.outcomes store attempts

/-- **`Service::connect` reaches a device that answers.** -/
theorem connect_ok_iff {dial : ℕ → SocketAddr → Handshake Key} :
    (∃ conn, (w.connect store addrs (some id) dial).1 = .ok conn) ↔
      AnswersAs id (w.outcomes store (tries dial 0 addrs)) := by
  unfold connect
  suffices hloop : ∀ n failures store, (∃ conn, (w.connectFrom (some id) dial n failures store
      addrs).1 = .ok conn) ↔ AnswersAs id (w.outcomes store (tries dial n addrs)) from hloop 0 [] store
  induction addrs with
  | nil => simp [connectFrom, tries, outcomes, AnswersAs]
  | cons addr addrs ih =>
    intro n failures store
    rw [connectFrom, tries, outcomes]
    cases (dial n addr).connect (w.change store (dial n addr).others).isTrusted with
    | error e =>
      rw [answersAs_cons_of_not fun conn h => (by cases h)]
      exact ih (n + 1) _ _
    | ok conn =>
      dsimp only
      split_ifs with hid
      · have hid' : conn.peerId = id := by simpa using hid
        exact iff_of_true ⟨conn, rfl⟩ (answersAs_cons.2 (Or.inl ⟨conn, rfl, hid'⟩))
      · have hid' : conn.peerId ≠ id := by simpa using hid
        rw [answersAs_cons_of_not fun conn' h => by cases h; exact hid']
        exact ih (n + 1) _ _

end Worker

/-! ### The paths that take the first connection -/

/-- What comes of one turn of the loop of `connect_any`. -/
def DialAttempt.outcome (policy : Key → Bool) (attempt : DialAttempt Key) :
    Except NetError Connection :=
  match attempt.bind with
  | .error e => .error e
  | .ok _ => attempt.connect policy

/-- There is an attempt that this device answers, and before it endpoints are bound and nobody answers. -/
def ClearWay (policy : Key → Bool) (id : DeviceId) (attempts : List (DialAttempt Key)) : Prop :=
  ∃ before attempt after, attempts = before ++ attempt :: after ∧
    (∃ conn, attempt.outcome policy = .ok conn ∧ conn.peerId = id) ∧
    ∀ b ∈ before, b.Binds ∧ ∃ e, b.connect policy = .error e

theorem ClearWay.answersAs {attempts : List (DialAttempt Key)} (h : ClearWay policy id attempts) :
    AnswersAs id (attempts.map (·.outcome policy)) := by
  obtain ⟨before, attempt, after, rfl, ⟨conn, hconn, hid⟩, -⟩ := h
  refine ⟨conn, List.mem_map.2 ⟨attempt, ?_, hconn⟩, hid⟩
  exact List.mem_append_right _ List.mem_cons_self

theorem DialAttempt.outcome_eq_ok {attempt : DialAttempt Key} {conn : Connection} :
    attempt.outcome policy = .ok conn ↔ attempt.Binds ∧ attempt.connect policy = .ok conn := by
  unfold outcome Binds
  cases attempt.bind with
  | error e => simp
  | ok endpoint => simp

/-- The first answer is given by this device iff nobody else stands in its way. -/
theorem answeredBy_iff_clearWay {dial : ℕ → SocketAddr → DialAttempt Key} :
    (∃ key, AnsweredBy policy dial n addrs key ∧ PublicKey.deviceId key = id) ↔
      ClearWay policy id (tries dial n addrs) := by
  constructor
  · rintro ⟨key, hanswered, rfl⟩
    induction hanswered with
    | @here n addr addrs key hbinds hanswer hkey =>
      have hconn := Dialled.connect_eq_ok.2 ⟨key, hanswer, hkey, rfl⟩
      exact ⟨[], dial n addr, tries dial (n + 1) addrs, rfl,
        ⟨_, DialAttempt.outcome_eq_ok.2 ⟨hbinds, hconn⟩, rfl⟩, by simp⟩
    | @next n addr addrs key hbinds hrefused _ ih =>
      obtain ⟨before, attempt, after, heq, hanswer, hbefore⟩ := ih
      refine ⟨dial n addr :: before, attempt, after, ?_, hanswer, ?_⟩
      · rw [tries, heq, List.cons_append]
      · refine List.forall_mem_cons.2 ⟨⟨hbinds, ?_⟩, hbefore⟩
        cases hconn : (dial n addr).connect policy with
        | error e => exact ⟨e, rfl⟩
        | ok conn =>
          obtain ⟨k, hk, htrusted, -⟩ := Dialled.connect_eq_ok.1 hconn
          rw [hrefused k hk] at htrusted
          cases htrusted
  · rintro ⟨before, attempt, after, heq, ⟨conn, hconn, rfl⟩, hbefore⟩
    induction before generalizing n addrs with
    | nil =>
      cases addrs with
      | nil => cases heq
      | cons addr addrs =>
        obtain ⟨rfl, -⟩ := List.cons.inj heq
        obtain ⟨hbinds, hconn⟩ := DialAttempt.outcome_eq_ok.1 hconn
        obtain ⟨key, hanswer, hkey, rfl⟩ := Dialled.connect_eq_ok.1 hconn
        exact ⟨key, .here hbinds hanswer hkey, rfl⟩
    | cons b before ih =>
      cases addrs with
      | nil => cases heq
      | cons addr addrs =>
        obtain ⟨rfl, hrest⟩ := List.cons.inj heq
        obtain ⟨⟨hbinds, e, hsilent⟩, hbefore⟩ := List.forall_mem_cons.1 hbefore
        obtain ⟨key, hanswered, hkey⟩ := ih hrest hbefore
        refine ⟨key, .next hbinds (fun k hk => ?_) hanswered, hkey⟩
        by_contra htrusted
        rw [Dialled.connect_eq_ok.2 ⟨k, hk, Bool.eq_true_of_not_eq_false htrusted, rfl⟩] at hsilent
        cases hsilent

/-- **A chat reaches a worker** iff nobody else answers first. -/
theorem dialWorker_ok_iff {self : DeviceId} {dial : ℕ → SocketAddr → DialAttempt Key} :
    (∃ pair, dialWorker policy self (some id) addrs dial = .ok pair) ↔
      id ≠ self ∧ ClearWay policy id (tries dial 0 addrs) := by
  rw [← answeredBy_iff_clearWay, ← connectAny_iff]
  constructor
  · rintro ⟨⟨endpoint, conn⟩, h⟩
    obtain ⟨hconn, hexpected, hself⟩ := dialWorker_eq_ok.1 h
    obtain rfl := hexpected id rfl
    exact ⟨hself, endpoint, conn, hconn, rfl⟩
  · rintro ⟨hself, endpoint, conn, hconn, rfl⟩
    refine ⟨(endpoint, conn), dialWorker_eq_ok.2 ⟨hconn, fun want hwant => ?_, hself⟩⟩
    exact Option.some.inj hwant

namespace Worker

variable {w : Worker Key} {target : Target}

/-- **A worker reaches the master it is to pair with** iff nobody else answers first. -/
theorem pairConn_ok_iff {dial : ℕ → SocketAddr → DialAttempt Key} (h : target.id = some id) :
    (∃ conn, w.pairConn target dial = .ok conn) ↔
      ClearWay (fun _ => true) id (tries dial 0 (w.pairingAddrs target)) := by
  rw [← answeredBy_iff_clearWay, ← connectAny_iff]
  unfold pairConn
  rw [h]
  cases connectAny (fun _ => true) dial (w.pairingAddrs target) with
  | error why => simp
  | ok pair =>
    obtain ⟨endpoint, conn⟩ := pair
    simp only [Option.any_some, decide_eq_true_eq, ite_not]
    split_ifs with hid
    · exact iff_of_true ⟨conn, rfl⟩ ⟨endpoint, conn, rfl, hid⟩
    · refine iff_of_false (by simp) ?_
      rintro ⟨endpoint', conn', hconn, hid'⟩
      cases hconn
      exact hid hid'

end Worker

/-! ### When a device that answers is reached -/

/-- **Dialling a device succeeds when it is reachable**: always where the loop asks who answered, and
where it does not, iff the device answers nowhere or before anybody else. -/
theorem dialling_succeeds [DecidableEq Key] (id : DeviceId) :
    (∀ (m : Mesh) (policy : Key → Bool) (dial : ℕ → SocketAddr → Dialled Key) (addrs : List SocketAddr),
      m.get id = none → ((∃ conn, (m.connect policy dial id addrs).2 = .ok conn) ↔
        AnswersAs id ((tries dial 0 addrs).map (·.connect policy)))) ∧
    (∀ (w : Worker Key) (store : TrustStore Key) (dial : ℕ → SocketAddr → Handshake Key)
      (addrs : List SocketAddr), (∃ conn, (w.connect store addrs (some id) dial).1 = .ok conn) ↔
        AnswersAs id (w.outcomes store (tries dial 0 addrs))) ∧
    (∀ (policy : Key → Bool) (self : DeviceId) (dial : ℕ → SocketAddr → DialAttempt Key)
      (addrs : List SocketAddr), let attempts := tries dial 0 addrs
      let answers := AnswersAs id (attempts.map (·.outcome policy))
      ((∃ pair, dialWorker policy self (some id) addrs dial = .ok pair) ↔ answers) ↔
        (answers → id ≠ self ∧ ClearWay policy id attempts)) ∧
    ∀ (w : Worker Key) (target : Target) (dial : ℕ → SocketAddr → DialAttempt Key),
      target.id = some id → let attempts := tries dial 0 (w.pairingAddrs target)
      let answers := AnswersAs id (attempts.map (·.outcome fun _ => true))
      ((∃ conn, w.pairConn target dial = .ok conn) ↔ answers) ↔
        (answers → ClearWay (fun _ => true) id attempts) := by
  refine ⟨fun m policy dial addrs h => Mesh.connect_ok_iff h, fun w store dial addrs =>
    Worker.connect_ok_iff, fun policy self dial addrs => ?_, fun w target dial h => ?_⟩
  · intro attempts answers
    rw [dialWorker_ok_iff]
    have hclear : ClearWay policy id attempts → answers := ClearWay.answersAs
    tauto
  · intro attempts answers
    rw [Worker.pairConn_ok_iff h]
    have hclear : ClearWay (fun _ => true) id attempts → answers := ClearWay.answersAs
    tauto

/-- The device that is asked for has moved: device 3 answers where device 2 was, and device 2 answers at its
next address. -/
def moved : ℕ → SocketAddr → DialAttempt UInt8
  | 0, _ => ⟨⟨0, .ok 3, .rejected⟩, .ok ⟨0⟩⟩
  | _, _ => ⟨⟨1, .ok 2, .rejected⟩, .ok ⟨1⟩⟩

/-- The two addresses. -/
def bothAddrs : List SocketAddr := [⟨"10.0.0.2:4433", true, false⟩, ⟨"10.0.0.7:4433", true, false⟩]

/-- `Mesh::connect` reaches device 2. -/
theorem dialling_succeeds_moved : ∃ conn,
    ((Mesh.new 1).connect (fun _ => true) (fun n a => (moved n a).toDialled) 2 bothAddrs).2 =
      .ok conn := by
  refine ((dialling_succeeds 2).1 (Mesh.new 1) (fun _ => true) _ bothAddrs (by decide)).2 ?_
  exact ⟨⟨1, 2, .dialer⟩, by decide, by decide⟩

/-- **A chat and a worker that pairs do not.** -/
theorem dialling_gives_up :
    (¬ ∀ (id : DeviceId) (addrs : List SocketAddr) (store : TrustStore UInt8)
      (dial : ℕ → SocketAddr → DialAttempt UInt8) (self : DeviceId), id ≠ self →
      ((∃ pair, dialWorker store.isTrusted self (some id) addrs dial = .ok pair) ↔
        AnswersAs id ((tries dial 0 addrs).map (·.outcome store.isTrusted)))) ∧
    ¬ ∀ (w : Worker UInt8) (target : Target) (dial : ℕ → SocketAddr → DialAttempt UInt8)
      (id : DeviceId), target.id = some id → ((∃ conn, w.pairConn target dial = .ok conn) ↔
        AnswersAs id ((tries dial 0 (w.pairingAddrs target)).map (·.outcome fun _ => true))) := by
  refine ⟨fun h => ?_, fun h => ?_⟩
  · let paired := (TrustStore.empty.insert (.new (2 : UInt8) "laptop" "linux" 0) (.ok ())).1
    let store := (paired.insert (.new 3 "desktop" "linux" 0) (.ok ())).1
    have hanswers : AnswersAs 2 ((tries moved 0 bothAddrs).map (·.outcome store.isTrusted)) :=
      ⟨⟨1, 2, .dialer⟩, by decide, by decide⟩
    obtain ⟨pair, hpair⟩ := (h 2 bothAddrs store moved 1 (by decide)).2 hanswers
    have hrefused : dialWorker store.isTrusted 1 (some 2) bothAddrs moved =
      .error "worker identity differs from the selected device" := by decide
    rw [hrefused] at hpair
    cases hpair
  · let std : StdNet := ⟨SocketAddr, fun _ => none, fun _ => none, fun ip _ => ip, fun addr => addr,
      fun _ => 4433, fun _ => false⟩
    let w : Worker UInt8 := ⟨std, ⟨none, none, 4433⟩, 1, "laptop", "linux"⟩
    let target : Target := ⟨some 2, bothAddrs, 4433⟩
    have hanswers : AnswersAs 2 ((tries moved 0 (w.pairingAddrs target)).map
        (·.outcome fun _ => true)) := ⟨⟨1, 2, .dialer⟩, by decide, by decide⟩
    obtain ⟨conn, hconn⟩ := (h w target moved 2 rfl).2 hanswers
    have hrefused : w.pairConn target moved =
      .error "pairing endpoint identity differs from the selected master" := rfl
    rw [hrefused] at hconn
    cases hconn

end Daemon

end Latticed
