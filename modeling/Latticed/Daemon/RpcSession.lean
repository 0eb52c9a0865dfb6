import Latticed.Daemon.ServerOwner

/-!
# The server an RPC session reaches

`connect` takes the address of the server once and dials it until somebody answers.  Its health checks
ask who the master is and whether the server that is recorded has exited; they pass when no server is
recorded at all.

* `stays_iff` : which events keep the server that is recorded.
* `stays_gone` : a server that is not recorded any more never is again.
* `session_reaches_iff` : the session that `connect` returns leads to the server that is recorded iff no
  event has dropped that server since its address was taken.
* `session_outlives_server` : the master comes and goes while its session is dialled.
-/

namespace Latticed

namespace Daemon

open Net WorkerRuntime

/-- The sections that look after the server under the lock. -/
def GpuPhase.looks : GpuPhase → Bool
  | .checking | .rechecking _ _ | .acquiring | .acquired | .addressing | .looping _
  | .confirming _ => true
  | _ => false

/-- The server whose address the call has taken. -/
def GpuPhase.taken : GpuPhase → Option Server
  | .looping server | .dialling server | .confirming server | .connected server => some server
  | _ => none

namespace GpuWorker

variable {device : GpuDevice} {dir : String} {σ : GpuWorker} {before events : List GpuEvent}
  {e : GpuEvent} {n : ℕ} {m : DeviceId} {server : Server}

/-- The event drops the server that is recorded: another master is authorized, or none, or a section that
is run for the master finds that the process has exited. -/
def Drops (σ : GpuWorker) : GpuEvent → Prop
  | .authorize master => σ.runtime.poisoned = false ∧ σ.runtime.master ≠ master
  | .step n o => σ.runtime.poisoned = false ∧ o.waitError = none ∧
      ∃ c server status, σ.calls n = some c ∧ c.phase.looks = true ∧
        σ.runtime.master = some c.from_ ∧ σ.runtime.server = some server ∧
        σ.exited server.child = some status
  | _ => False

/-- Call `n` of this device takes the address of the server. -/
def Takes (device : GpuDevice) (dir : String) (before : List GpuEvent) (e : GpuEvent) (n : ℕ)
    (m : DeviceId) (server : Server) : Prop :=
  (∃ o, e = .step n o) ∧ (run device dir before).calls n = some ⟨m, .addressing⟩ ∧
    (run device dir (before ++ [e])).calls n = some ⟨m, .looping server⟩

/-! ### One event -/

/-- The health check keeps the server, unless it finds that the process has exited. -/
theorem checkHealth_server {rt : WorkerRuntime} (hserver : rt.server = some server)
    (exited : ℕ → Option String) (o : Outside) (from_ : DeviceId) :
    (rt.checkHealth exited o from_).2.server = some server ↔
      ¬ (rt.poisoned = false ∧ o.waitError = none ∧ rt.master = some from_ ∧
        ∃ status, exited server.child = some status) := by
  by_cases hpoisoned : rt.poisoned = true
  · simp [checkHealth, locked, hpoisoned, hserver]
  · by_cases hmaster : rt.master = some from_
    · cases hwait : o.waitError with
      | some why =>
        simp [checkHealth, locked, hpoisoned, checkMaster, hmaster, hserver, tryWait, hwait]
      | none =>
        cases hexited : exited server.child <;>
          simp [checkHealth, locked, hpoisoned, checkMaster, hmaster, hserver, tryWait, hwait, hexited]
    · simp [checkHealth, locked, hpoisoned, checkMaster, hmaster, hserver]

/-- So does `address`; what it starts in place of an exited process is another process. -/
theorem address_server {rt : WorkerRuntime} (hserver : rt.server = some server)
    (hchild : server.child < rt.spawned) (exited : ℕ → Option String) (o : Outside)
    (from_ : DeviceId) :
    (rt.address exited o from_).2.server = some server ↔
      ¬ (rt.poisoned = false ∧ o.waitError = none ∧ rt.master = some from_ ∧
        ∃ status, exited server.child = some status) := by
  by_cases hpoisoned : rt.poisoned = true
  · simp [address, locked, hpoisoned, hserver]
  · by_cases hmaster : rt.master = some from_
    · cases hwait : o.waitError with
      | some why => simp [address, locked, hpoisoned, checkMaster, hmaster, hserver, tryWait, hwait]
      | none =>
        cases hexited : exited server.child with
        | none =>
          simp [address, locked, hpoisoned, checkMaster, hmaster, hserver, tryWait, hwait, hexited]
        | some status =>
          have hnew : ({ rt with server := none }.startServer o).2.server ≠ some server := by
            intro h
            rcases startServer_cases { rt with server := none } o with ⟨hsettles, -⟩ | ⟨port, heq⟩
            · rcases hsettles.server with hnone | hnone <;> rw [hnone] at h <;> cases h
            · rw [heq] at h
              cases h
              exact lt_irrefl _ hchild
          simpa [address, locked, hpoisoned, checkMaster, hmaster, hserver, tryWait, hwait,
            hexited] using hnew
    · simp [address, locked, hpoisoned, checkMaster, hmaster, hserver]

/-- A section keeps the server that is recorded unless it looks after it and finds it gone. -/
theorem next_server (hserver : σ.runtime.server = some server)
    (hchild : server.child < σ.runtime.spawned) (n : ℕ) (o : Outside) (c : GpuCall) :
    (σ.next n o c).2.1.server = some server ↔
      ¬ (c.phase.looks = true ∧ σ.runtime.poisoned = false ∧ o.waitError = none ∧
        σ.runtime.master = some c.from_ ∧ ∃ status, σ.exited server.child = some status) := by
  have hcheck := checkHealth_server hserver σ.exited o c.from_
  have haddress := address_server hserver hchild σ.exited o c.from_
  obtain ⟨from_, phase⟩ := c
  cases phase with
  | checking => simpa [next, check, GpuPhase.looks] using hcheck
  | rechecking device busy => simpa [next, check, GpuPhase.looks] using hcheck
  | acquiring => simpa [next, check, GpuPhase.looks] using hcheck
  | acquired => simpa [next, check, GpuPhase.looks] using hcheck
  | looping server => simpa [next, check, GpuPhase.looks] using hcheck
  | confirming server => simpa [next, check, GpuPhase.looks] using hcheck
  | addressing => simpa [next, GpuPhase.looks] using haddress
  | trying => cases hpermit : σ.permit <;> simp [next, GpuPhase.looks, hpermit, hserver]
  | waiting => cases hpermit : σ.permit <;> simp [next, GpuPhase.looks, hpermit, hserver]
  | dialling server => cases hstream : o.stream <;> simp [next, GpuPhase.looks, hstream, hserver]
  | selecting => simp [next, GpuPhase.looks, hserver]
  | informed info => simp [next, GpuPhase.looks, hserver]
  | connected server => simp [next, GpuPhase.looks, hserver]
  | failed why => simp [next, GpuPhase.looks, hserver]
  | panicked message => simp [next, GpuPhase.looks, hserver]

/-- **An event keeps the server that is recorded** unless it drops it. -/
theorem stays_iff (hserver : σ.runtime.server = some server)
    (hchild : server.child < σ.runtime.spawned) (e : GpuEvent) :
    (σ.step e).runtime.server = some server ↔ ¬ Drops σ e := by
  cases e with
  | authorize master =>
    by_cases hpoisoned : σ.runtime.poisoned = true
    · simp [step, authorize, locked, Drops, hpoisoned, hserver]
    · by_cases hmaster : σ.runtime.master = master
      · simp [step, authorize, locked, Drops, hpoisoned, hmaster, hserver]
      · simp [step, authorize, locked, Drops, hpoisoned, hmaster]
  | step n o =>
    cases hcall : σ.calls n with
    | none => simp [step, Drops, hcall, hserver]
    | some c =>
      rw [(step_step hcall).1, next_server hserver hchild]
      simp only [Drops, hcall, hserver, Option.some.injEq]
      refine not_congr ⟨?_, ?_⟩
      · rintro ⟨hlooks, hpoisoned, hwait, hmaster, status, hexited⟩
        exact ⟨hpoisoned, hwait, c, server, status, rfl, hlooks, hmaster, rfl, hexited⟩
      · rintro ⟨hpoisoned, hwait, c', server', status, rfl, hlooks, hmaster, rfl, hexited⟩
        exact ⟨hlooks, hpoisoned, hwait, hmaster, status, hexited⟩
  | capabilities n from_ => cases hcall : σ.calls n <;> simp [step, arrive, Drops, hcall, hserver]
  | connect n from_ => cases hcall : σ.calls n <;> simp [step, arrive, Drops, hcall, hserver]
  | exit child status =>
    simp only [step, Drops, not_false_eq_true, iff_true]
    split_ifs <;> exact hserver
  | drop n =>
    simp only [step, Drops, not_false_eq_true, iff_true]
    cases σ.calls n with
    | none => exact hserver
    | some c =>
      dsimp only
      split_ifs <;> exact hserver

/-- **A server that is not recorded any more** never is again: what is started later is another process. -/
theorem stays_gone (hgone : σ.runtime.server ≠ some server)
    (hchild : server.child < σ.runtime.spawned) (e : GpuEvent) :
    (σ.step e).runtime.server ≠ some server := by
  intro h
  rcases σ.step_runtime e with hsettles | ⟨hnone, -⟩ | ⟨m, started, hstarts⟩
  · rcases hsettles.server with hsame | hnone
    · exact hgone (hsame.symm.trans h)
    · rw [hnone] at h
      cases h
  · rw [hnone] at h
    cases h
  · rw [hstarts.runtime] at h
    cases h
    exact lt_irrefl _ (hstarts.child ▸ hchild)

/-! ### Runs -/

/-- The number of a process that is recorded has been given out. -/
theorem child_lt (h : (run device dir events).runtime.server = some server) :
    server.child < (run device dir events).runtime.spawned := by
  induction events using List.reverseRecOn with
  | nil => cases h
  | append_singleton events e ih =>
    rw [run_concat] at h ⊢
    have hmono := spawned_le_step (run device dir events) e
    rcases (run device dir events).step_runtime e with hsettles | ⟨hnone, -⟩ | ⟨m, started, hstarts⟩
    · rcases hsettles.server with hsame | hnone
      · exact (ih (hsame.symm.trans h)).trans_le hmono
      · rw [hnone] at h
        cases h
    · rw [hnone] at h
      cases h
    · rw [hstarts.runtime] at h ⊢
      cases h
      exact hstarts.child ▸ Nat.lt_succ_self _

/-- A server that is recorded is recorded after more events iff none of them drops it. -/
theorem recorded_iff (h : (run device dir before).runtime.server = some server)
    (after : List GpuEvent) :
    (run device dir (before ++ after)).runtime.server = some server ↔
      ∀ mid e rest, after = mid ++ e :: rest → ¬ Drops (run device dir (before ++ mid)) e := by
  induction after using List.reverseRecOn with
  | nil => simp [h]
  | append_singleton after e ih =>
    have hspawned : server.child < (run device dir (before ++ after)).runtime.spawned :=
      (child_lt h).trans_le (spawned_mono before after)
    rw [← List.append_assoc, run_concat]
    by_cases hnow : (run device dir (before ++ after)).runtime.server = some server
    · rw [stays_iff hnow hspawned]
      constructor
      · intro hkeeps mid e' rest heq
        rcases List.eq_nil_or_concat rest with rfl | ⟨init, last, rfl⟩
        · obtain ⟨rfl, hlast⟩ := List.append_inj' heq rfl
          cases hlast
          exact hkeeps
        · refine ih.1 hnow mid e' init ?_
          rw [List.concat_eq_append, ← List.cons_append, ← List.append_assoc] at heq
          exact List.append_inj_left' heq rfl
      · intro hall
        exact hall after e [] rfl
    · -- it was dropped before, and stays gone
      constructor
      · intro hback
        exact absurd hback (stays_gone hnow hspawned e)
      · intro hall
        refine absurd (ih.2 fun mid e' rest heq => hall mid e' (rest ++ [e]) ?_) hnow
        rw [heq, List.append_assoc, List.cons_append]

/-! ### Calls -/

theorem Checks.taken {phase phase' : GpuPhase} (h : Checks phase phase') :
    phase'.taken = phase.taken := by
  cases h <;> rfl

theorem Goes.taken {phase phase' : GpuPhase} (h : Goes phase phase') :
    phase'.taken = phase.taken := by
  cases h <;> rfl

/-- A call has the address of a server from `address`, and keeps it. -/
theorem next_taken {o : Outside} {c : GpuCall} (h : (σ.next n o c).1.taken = some server) :
    c.phase.taken = some server ∨
      c.phase = .addressing ∧ (σ.next n o c).1 = .looping server := by
  cases σ.next_leads n o c with
  | failed why hphase =>
    rw [hphase] at h
    cases h
  | panicked message hphase =>
    rw [hphase] at h
    cases h
  | checked hchecks => exact Or.inl (hchecks.taken ▸ h)
  | addressed found hbefore hphase =>
    rw [hphase] at h
    cases h
    exact Or.inr ⟨hbefore, hphase⟩
  | goes hgoes => exact Or.inl (hgoes.taken ▸ h)

/-- An event gives a call the address of a server only by running its section of `address`. -/
theorem step_taken {c : GpuCall} (hcall : (σ.step e).calls n = some c)
    (htaken : c.phase.taken = some server) :
    (∃ phase, σ.calls n = some ⟨c.from_, phase⟩ ∧ phase.taken = some server) ∨
      (∃ o, e = .step n o) ∧ σ.calls n = some ⟨c.from_, .addressing⟩ ∧
        c.phase = .looping server := by
  rcases step_calls hcall with hbefore | hphase | hphase | ⟨o, c', rfl, hbefore, rfl⟩
  · exact Or.inl ⟨c.phase, hbefore, htaken⟩
  · rw [hphase] at htaken
    cases htaken
  · rw [hphase] at htaken
    cases htaken
  · rcases next_taken htaken with hkept | ⟨hphase, hnext⟩
    · exact Or.inl ⟨c'.phase, hbefore, hkept⟩
    · refine Or.inr ⟨⟨o, rfl⟩, ?_, hnext⟩
      rw [hbefore, ← hphase]

/-- **A call that has an address has taken it** in an event before. -/
theorem exists_takes {phase : GpuPhase} (hcall : (run device dir events).calls n = some ⟨m, phase⟩)
    (htaken : phase.taken = some server) :
    ∃ before e after, events = before ++ e :: after ∧ Takes device dir before e n m server := by
  induction events using List.reverseRecOn generalizing phase with
  | nil => cases hcall
  | append_singleton events e ih =>
    have hrun := @run_concat device dir events e
    rcases step_taken (hrun ▸ hcall) htaken with ⟨phase', hbefore, htaken'⟩ | ⟨ho, hbefore, hphase⟩
    · obtain ⟨before, e', after, rfl, htakes⟩ := ih hbefore htaken'
      exact ⟨before, e', after ++ [e], by simp, htakes⟩
    · obtain rfl : phase = .looping server := hphase
      exact ⟨events, e, [], rfl, ho, hbefore, hcall⟩

/-- When the address is taken the server is recorded. -/
theorem Takes.recorded (h : Takes device dir before e n m server) :
    (run device dir (before ++ [e])).runtime.server = some server := by
  obtain ⟨⟨o, he⟩, hbefore, hafter⟩ := h
  exact (HandedAt.recorded ⟨n, o, he, hbefore, hafter⟩).1

/-- **When a session leads to the server**: `connect` is about to check for the last time and returns a
session that was dialled to a server.  The caller is the master then, and that server is the one that
is recorded iff the call took its address in an event since which nothing has dropped it. -/
theorem session_reaches_iff (device : GpuDevice) (dir : String) (events : List GpuEvent) (n : ℕ)
    (o : Outside) (from_ : DeviceId) (server : Server)
    (hcall : (run device dir events).calls n = some ⟨from_, .confirming server⟩)
    (hok : (run device dir (events ++ [.step n o])).calls n = some ⟨from_, .connected server⟩) :
    ((run device dir events).runtime.master = some from_ ∧
        (run device dir events).runtime.server = some server) ↔
      ∃ before e after, events = before ++ e :: after ∧ Takes device dir before e n from_ server ∧
        ∀ mid e' rest, after = mid ++ e' :: rest → ¬ Drops (run device dir (before ++ e :: mid)) e' := by
  have hmaster : (run device dir events).runtime.master = some from_ := by
    refine (ReturnsOk.master ⟨n, o, .connected server, rfl, hcall, rfl, ?_, rfl⟩).1
    rwa [run_concat] at hok
  constructor
  · rintro ⟨-, hserver⟩
    obtain ⟨before, e, after, rfl, htakes⟩ := exists_takes hcall rfl
    refine ⟨before, e, after, rfl, htakes, ?_⟩
    have hkept := recorded_iff htakes.recorded after
    simp only [List.append_assoc, List.singleton_append] at hkept
    exact hkept.1 hserver
  · rintro ⟨before, e, after, rfl, htakes, hkept⟩
    refine ⟨hmaster, ?_⟩
    have hrecorded := recorded_iff htakes.recorded after
    simp only [List.append_assoc, List.singleton_append] at hrecorded
    exact hrecorded.2 hkept

/-- The GPU of a worker. -/
def sessionGpu : GpuDevice := ⟨"gpu", "gpu", "gpu", 100, 100⟩

/-- Nothing fails, and a server listens on port 5000. -/
def sessionOutside : Outside := ⟨none, .ok [sessionGpu], .ok 5000, false, .ok (), false, String.quote⟩

/-- A worker of device 1, whose session is about to be checked for the last time. -/
def sessionEvents : List GpuEvent :=
  .authorize (some 1) :: .connect 0 1 :: List.replicate 6 (.step 0 sessionOutside)

/-- With nothing in between the session leads to the server. -/
theorem session_reaches_undisturbed :
    (run sessionGpu "worker" sessionEvents).runtime.master = some 1 ∧
      (run sessionGpu "worker" sessionEvents).runtime.server = some ⟨0, 5000⟩ := by
  refine (session_reaches_iff sessionGpu "worker" sessionEvents 0 sessionOutside 1 ⟨0, 5000⟩ rfl
    rfl).2 ⟨sessionEvents.take 5, .step 0 sessionOutside, List.replicate 2 (.step 0 sessionOutside),
      rfl, ⟨⟨_, rfl⟩, rfl, rfl⟩, ?_⟩
  -- neither of the two sections after `address` finds the process gone
  rintro mid e' rest heq hdrops
  rcases mid with _ | ⟨e₁, _ | ⟨e₂, mid⟩⟩
  · obtain ⟨rfl, -⟩ := List.cons.inj heq
    obtain ⟨-, -, c, server, status, -, -, -, -, hexited⟩ := hdrops
    cases hexited
  · obtain ⟨rfl, htail⟩ := List.cons.inj heq
    obtain ⟨rfl, -⟩ := List.cons.inj htail
    obtain ⟨-, -, c, server, status, -, -, -, -, hexited⟩ := hdrops
    cases hexited
  · simp at heq

/-- **A session may lead to a server that is gone**: the master disconnects and registers again while its
session is dialled.  The health check finds the master and no server. -/
theorem session_outlives_server :
    let σ := run sessionGpu "worker" (sessionEvents ++ [.authorize none, .authorize (some 1)])
    (run sessionGpu "worker" sessionEvents).runtime.server = some ⟨0, 5000⟩ ∧
      σ.calls 0 = some ⟨1, .confirming ⟨0, 5000⟩⟩ ∧
      (σ.step (.step 0 sessionOutside)).calls 0 = some ⟨1, .connected ⟨0, 5000⟩⟩ ∧
      σ.runtime.master = some 1 ∧ σ.runtime.server = none := by
  refine ⟨by rfl, by rfl, by rfl, by decide, by decide⟩

end GpuWorker

end Daemon

end Latticed
