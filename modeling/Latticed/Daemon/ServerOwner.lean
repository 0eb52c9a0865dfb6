import Latticed.Daemon.Runtime
import Mathlib.Data.List.Induction

/-!
# Whose server it is

A server process keeps the tensors that the master has loaded, so a process must not pass from one
master to the next.

* `started_for_master` : a server that is recorded was started by a call for the current master, which has
  been the master ever since.
* `handed_once` : the address of a process is given to calls of one device only.
* `server_of_master` : the two together, and that a call that returns `Ok` is one for the master.
-/

namespace Latticed

namespace Daemon

open Net WorkerRuntime

namespace GpuWorker

variable {device : GpuDevice} {dir : String} {σ : GpuWorker} {events : List GpuEvent}
  {e : GpuEvent} {m : DeviceId} {server : Server}

/-- In this state the event is a call of `address` for this device that starts this server. -/
structure Starts (σ : GpuWorker) (e : GpuEvent) (m : DeviceId) (server : Server) : Prop where
  call : ∃ n o, e = .step n o ∧ σ.calls n = some ⟨m, .addressing⟩
  master : σ.runtime.master = some m
  child : server.child = σ.runtime.spawned
  runtime : (σ.step e).runtime =
    { σ.runtime with server := some server, spawned := σ.runtime.spawned + 1 }

/-- A call of `address` for this device has started the server, and the device has been the master
ever since. -/
def StartedFor (device : GpuDevice) (dir : String) (events : List GpuEvent) (m : DeviceId)
    (server : Server) : Prop :=
  ∃ before e after, events = before ++ e :: after ∧ Starts (run device dir before) e m server ∧
    ∀ mid rest, after = mid ++ rest →
      (run device dir (before ++ e :: mid)).runtime.master = some m

/-- A call of `address` for this device has returned the address of the server. -/
def HandedAt (device : GpuDevice) (dir : String) (before : List GpuEvent) (e : GpuEvent)
    (m : DeviceId) (server : Server) : Prop :=
  ∃ n o, e = .step n o ∧ (run device dir before).calls n = some ⟨m, .addressing⟩ ∧
    (run device dir (before ++ [e])).calls n = some ⟨m, .looping server⟩

theorem run_concat (events : List GpuEvent) (e : GpuEvent) :
    run device dir (events ++ [e]) = (run device dir events).step e := by
  unfold run
  rw [List.foldl_append]
  rfl

/-! ### One event -/

theorem step_step {n : ℕ} {o : Outside} {c : GpuCall} (h : σ.calls n = some c) :
    (σ.step (.step n o)).runtime = (σ.next n o c).2.1 ∧
      (σ.step (.step n o)).calls n = some { c with phase := (σ.next n o c).1 } := by
  unfold step
  dsimp only
  rw [h]
  exact ⟨rfl, Function.update_self _ _ _⟩

theorem arrive_calls {n k : ℕ} {c c' : GpuCall} (h : (σ.arrive k c).calls n = some c') :
    σ.calls n = some c' ∨ c' = c := by
  simp only [arrive] at h
  cases hk : σ.calls k with
  | some found =>
    rw [hk] at h
    exact Or.inl h
  | none =>
    simp only [hk, Function.update_apply] at h
    split_ifs at h
    · exact Or.inr (Option.some.inj h).symm
    · exact Or.inl h

/-- **What an event makes of a call**: it was there, it has just arrived, or it has run a section. -/
theorem step_calls {e : GpuEvent} {n : ℕ} {c : GpuCall} (h : (σ.step e).calls n = some c) :
    σ.calls n = some c ∨ c.phase = .checking ∨ c.phase = .acquiring ∨
      ∃ o c', e = .step n o ∧ σ.calls n = some c' ∧ c = { c' with phase := (σ.next n o c').1 } := by
  cases e with
  | authorize master => exact Or.inl h
  | capabilities k from_ =>
    rcases arrive_calls h with hbefore | rfl
    · exact Or.inl hbefore
    · exact Or.inr (Or.inl rfl)
  | connect k from_ =>
    rcases arrive_calls h with hbefore | rfl
    · exact Or.inl hbefore
    · exact Or.inr (Or.inr (Or.inl rfl))
  | exit child status =>
    simp only [step] at h
    split_ifs at h <;> exact Or.inl h
  | drop k =>
    simp only [step] at h
    cases hk : σ.calls k with
    | none =>
      rw [hk] at h
      exact Or.inl h
    | some c' =>
      rw [hk] at h
      dsimp only at h
      split_ifs at h
      · simp only [Function.update_apply] at h
        split_ifs at h
        exact Or.inl h
      · exact Or.inl h
  | step k o =>
    cases hk : σ.calls k with
    | none =>
      simp only [step, hk] at h
      exact Or.inl h
    | some c' =>
      by_cases hnk : n = k
      · subst hnk
        rw [(step_step hk).2] at h
        exact Or.inr (Or.inr (Or.inr ⟨o, c', rfl, hk, (Option.some.inj h).symm⟩))
      · simp only [step, hk] at h
        rw [Function.update_of_ne hnk] at h
        exact Or.inl h

/-- **What an event does to the master and the server**: it starts a server for the master, it changes the
master and drops the server, or it does neither. -/
theorem step_runtime (σ : GpuWorker) (e : GpuEvent) :
    Settles σ.runtime (σ.step e).runtime ∨
      (σ.step e).runtime.server = none ∧ (σ.step e).runtime.spawned = σ.runtime.spawned ∨
      ∃ m server, Starts σ e m server := by
  cases e with
  | authorize master =>
    unfold step authorize locked
    dsimp only
    split_ifs
    · exact Or.inl (.refl _)
    · exact Or.inr (Or.inl ⟨rfl, rfl⟩)
    · exact Or.inl (.refl _)
  | capabilities n from_ =>
    unfold step arrive
    dsimp only
    cases σ.calls n <;> exact Or.inl (.refl _)
  | connect n from_ =>
    unfold step arrive
    dsimp only
    cases σ.calls n <;> exact Or.inl (.refl _)
  | step n o =>
    cases hcall : σ.calls n with
    | none =>
      unfold step
      dsimp only
      rw [hcall]
      exact Or.inl (.refl _)
    | some c =>
      have hstep := (step_step (o := o) hcall).1
      rcases σ.next_runtime n o c with
        ⟨hsettles, -⟩ | ⟨hphase, hmaster, server, -, ⟨hserver, hsame⟩ | ⟨hchild, hnew⟩⟩
      · rw [hstep]
        exact Or.inl hsettles
      · rw [hstep, hsame]
        exact Or.inl (.refl _)
      · refine Or.inr (Or.inr ⟨c.from_, server, ⟨n, o, rfl, ?_⟩, hmaster, hchild, hstep.trans hnew⟩)
        rw [hcall, ← hphase]
  | exit child status =>
    unfold step
    dsimp only
    split_ifs <;> exact Or.inl (.refl _)
  | drop n =>
    unfold step
    dsimp only
    cases σ.calls n with
    | none => exact Or.inl (.refl _)
    | some c =>
      dsimp only
      split_ifs <;> exact Or.inl (.refl _)

theorem spawned_le_step (σ : GpuWorker) (e : GpuEvent) :
    σ.runtime.spawned ≤ (σ.step e).runtime.spawned := by
  rcases σ.step_runtime e with hsettles | ⟨-, hsame⟩ | ⟨m, server, hstarts⟩
  · exact hsettles.spawned.ge
  · exact hsame.ge
  · rw [hstarts.runtime]
    exact Nat.le_succ _

theorem spawned_mono (before more : List GpuEvent) :
    (run device dir before).runtime.spawned ≤ (run device dir (before ++ more)).runtime.spawned := by
  induction more using List.reverseRecOn with
  | nil => rw [List.append_nil]
  | append_singleton more e ih =>
    rw [← List.append_assoc, run_concat]
    exact ih.trans (spawned_le_step _ e)

/-! ### Runs -/

/-- The master stays the same for one more event. -/
theorem StartedFor.concat (h : StartedFor device dir events m server)
    (hmaster : (run device dir (events ++ [e])).runtime.master = some m) :
    StartedFor device dir (events ++ [e]) m server := by
  obtain ⟨before, start, after, rfl, hstarts, hsince⟩ := h
  refine ⟨before, start, after ++ [e], by simp, hstarts, fun mid rest heq => ?_⟩
  rcases List.eq_nil_or_concat rest with rfl | ⟨init, final, rfl⟩
  · rw [List.append_nil] at heq
    subst heq
    simpa using hmaster
  · rw [List.concat_eq_append, ← List.append_assoc] at heq
    exact hsince mid init (List.append_inj_left' heq rfl)

/-- **A server that is recorded was started for the current master**, with no other master since. -/
theorem started_for_master (h : (run device dir events).runtime.server = some server) :
    ∃ m, (run device dir events).runtime.master = some m ∧
      StartedFor device dir events m server := by
  induction events using List.reverseRecOn generalizing server with
  | nil => cases h
  | append_singleton events e ih =>
    have hrun : run device dir (events ++ [e]) = (run device dir events).step e := run_concat events e
    rcases (run device dir events).step_runtime e with
      hsettles | ⟨hnone, -⟩ | ⟨m, started, hstarts⟩
    · rw [hrun] at h
      -- the server that is recorded was recorded before, with the same master
      rcases hsettles.server with hsame | hnone
      · obtain ⟨m, hmaster, hstarted⟩ := ih (hsame.symm.trans h)
        have hnow : (run device dir (events ++ [e])).runtime.master = some m := by
          rw [hrun, hsettles.master, hmaster]
        exact ⟨m, hnow, hstarted.concat hnow⟩
      · rw [hnone] at h
        cases h
    · rw [hrun, hnone] at h
      cases h
    · have hnow : (run device dir (events ++ [e])).runtime.master = some m := by
        rw [hrun, hstarts.runtime]
        exact hstarts.master
      rw [hrun, hstarts.runtime] at h
      cases h
      refine ⟨m, hnow, events, e, [], rfl, hstarts, fun mid rest heq => ?_⟩
      obtain ⟨rfl, -⟩ := List.append_eq_nil_iff.1 heq.symm
      exact hnow

/-- When `address` hands out a server it is recorded, and the device that asks is the master. -/
theorem HandedAt.recorded {before : List GpuEvent} (h : HandedAt device dir before e m server) :
    (run device dir (before ++ [e])).runtime.server = some server ∧
      (run device dir (before ++ [e])).runtime.master = some m := by
  obtain ⟨n, o, rfl, hbefore, hafter⟩ := h
  have hstep := step_step (o := o) hbefore
  rw [run_concat, hstep.2] at hafter
  have hphase : ((run device dir before).next n o ⟨m, .addressing⟩).1 = .looping server :=
    congrArg GpuCall.phase (Option.some.inj hafter)
  rw [run_concat, hstep.1]
  rcases (run device dir before).next_runtime n o ⟨m, .addressing⟩ with
    ⟨-, hnot⟩ | ⟨-, hmaster, found, hfound, ⟨hserver, hsame⟩ | ⟨-, hnew⟩⟩
  · exact absurd hphase (hnot rfl server)
  · rw [hphase] at hfound
    cases hfound
    rw [hsame]
    exact ⟨hserver, hmaster⟩
  · rw [hphase] at hfound
    cases hfound
    rw [hnew]
    exact ⟨rfl, hmaster⟩

/-- What `address` hands out was started for the device that asks. -/
theorem HandedAt.started {before : List GpuEvent} (h : HandedAt device dir before e m server) :
    StartedFor device dir (before ++ [e]) m server := by
  obtain ⟨hserver, hmaster⟩ := h.recorded
  -- the server is recorded, so it was started for the master, who is the one that asks
  obtain ⟨m', hmaster', hstarted⟩ := started_for_master hserver
  rw [hmaster] at hmaster'
  cases hmaster'
  exact hstarted

/-- A process is started once: what is started later has another number. -/
theorem Starts.unique {before more after after' : List GpuEvent} {e' : GpuEvent} {m' : DeviceId}
    {server' : Server} (h : Starts (run device dir before) e m server)
    (h' : Starts (run device dir (before ++ more)) e' m' server')
    (htail : e :: after = more ++ e' :: after') (hchild : server.child = server'.child) :
    m = m' := by
  cases more with
  | nil =>
    obtain ⟨rfl, -⟩ := List.cons.inj htail
    rw [List.append_nil] at h'
    obtain ⟨n, o, rfl, hcall⟩ := h.call
    obtain ⟨n', o', heq, hcall'⟩ := h'.call
    cases heq
    rw [hcall] at hcall'
    cases hcall'
    rfl
  | cons e'' more =>
    obtain ⟨rfl, -⟩ := List.cons.inj htail
    -- what is started later is numbered from a counter that has moved on
    have hnext : (run device dir (before ++ [e])).runtime.spawned = server.child + 1 := by
      rw [run_concat, h.runtime, h.child]
    have hlater := @spawned_mono device dir (before ++ [e]) more
    rw [List.append_assoc, List.singleton_append, ← h'.child, hnext, hchild] at hlater
    exact absurd hlater (Nat.not_succ_le_self _)

/-- Two servers with the same process were started for the same device. -/
theorem StartedFor.unique {events₁ events₂ rest₁ rest₂ : List GpuEvent} {m₁ m₂ : DeviceId}
    {server₁ server₂ : Server} (h₁ : StartedFor device dir events₁ m₁ server₁)
    (h₂ : StartedFor device dir events₂ m₂ server₂) (hrun : events₁ ++ rest₁ = events₂ ++ rest₂)
    (hchild : server₁.child = server₂.child) : m₁ = m₂ := by
  obtain ⟨before₁, e₁, after₁, rfl, hstarts₁, -⟩ := h₁
  obtain ⟨before₂, e₂, after₂, rfl, hstarts₂, -⟩ := h₂
  rw [List.append_assoc, List.append_assoc] at hrun
  rcases List.append_eq_append_iff.1 hrun with ⟨more, rfl, htail⟩ | ⟨more, rfl, htail⟩
  · exact hstarts₁.unique hstarts₂ htail hchild
  · exact (hstarts₂.unique hstarts₁ htail hchild.symm).symm

/-- **No process is handed from one master to another.** -/
theorem handed_once {before₁ before₂ rest₁ rest₂ : List GpuEvent} {e₁ e₂ : GpuEvent}
    {m₁ m₂ : DeviceId} {server₁ server₂ : Server}
    (h₁ : HandedAt device dir before₁ e₁ m₁ server₁)
    (h₂ : HandedAt device dir before₂ e₂ m₂ server₂)
    (hrun : before₁ ++ e₁ :: rest₁ = before₂ ++ e₂ :: rest₂)
    (hchild : server₁.child = server₂.child) : m₁ = m₂ :=
  have hrun' : before₁ ++ [e₁] ++ rest₁ = before₂ ++ [e₂] ++ rest₂ := by simpa using hrun
  h₁.started.unique h₂.started hrun' hchild

/-- In this state the event makes this call return `Ok`. -/
def ReturnsOk (σ : GpuWorker) (e : GpuEvent) (c : GpuCall) : Prop :=
  ∃ n o phase, e = .step n o ∧ σ.calls n = some c ∧ c.phase.succeeded = false ∧
    (σ.step e).calls n = some { c with phase := phase } ∧ phase.succeeded = true

/-- A call returns `Ok` in the section of its last check, which leaves the master as it finds it. -/
theorem ReturnsOk.master {c : GpuCall} (h : ReturnsOk σ e c) :
    σ.runtime.master = some c.from_ ∧ (σ.step e).runtime.master = some c.from_ := by
  obtain ⟨n, o, phase, rfl, hcall, hbefore, hafter, hok⟩ := h
  have hstep := step_step (o := o) hcall
  rw [hstep.2] at hafter
  obtain rfl : (σ.next n o c).1 = phase := congrArg GpuCall.phase (Option.some.inj hafter)
  obtain ⟨hmaster, hsame⟩ := next_succeeded hbefore hok
  refine ⟨hmaster, ?_⟩
  rw [hstep.1, hsame]
  exact hmaster

/-- **A GPU server belongs to the current master**, in every run of calls, registrations and exits: a server
that is recorded was started by a call of `address` for the current master, with no other master
since; the address of a process is returned to calls of one device only, for which it was started;
and a call that returns `Ok` is one for the device that is the master at its last check. -/
theorem server_of_master (device : GpuDevice) (dir : String) (events : List GpuEvent) :
    (∀ server, (run device dir events).runtime.server = some server →
      ∃ m, (run device dir events).runtime.master = some m ∧
        StartedFor device dir events m server) ∧
    (∀ before e rest, events = before ++ e :: rest → ∀ m server,
      HandedAt device dir before e m server → StartedFor device dir (before ++ [e]) m server) ∧
    (∀ before₁ e₁ rest₁ before₂ e₂ rest₂, events = before₁ ++ e₁ :: rest₁ →
      events = before₂ ++ e₂ :: rest₂ → ∀ m₁ server₁ m₂ server₂,
        HandedAt device dir before₁ e₁ m₁ server₁ → HandedAt device dir before₂ e₂ m₂ server₂ →
          server₁.child = server₂.child → m₁ = m₂) ∧
    ∀ before e rest, events = before ++ e :: rest → ∀ c,
      ReturnsOk (run device dir before) e c →
        (run device dir before).runtime.master = some c.from_ ∧
          (run device dir (before ++ [e])).runtime.master = some c.from_ := by
  refine ⟨fun server h => started_for_master h, fun before e rest _ m server h => h.started, ?_, ?_⟩
  · rintro before₁ e₁ rest₁ before₂ e₂ rest₂ heq₁ heq₂ m₁ server₁ m₂ server₂ h₁ h₂ hchild
    exact handed_once h₁ h₂ (heq₁.symm.trans heq₂) hchild
  · rintro before e rest _ c h
    rw [run_concat]
    exact h.master

section

/-- A GPU, and what is outside when nothing goes wrong. -/
def sampleGpu : GpuDevice := ⟨"gpu", "gpu", "gpu", 100, 100⟩

def sampleOutside : Outside := ⟨none, .ok [sampleGpu], .ok 5000, false, .ok (), false, String.quote⟩

/-- Device 1 becomes the master and has a session, which ends. -/
def firstSession : List GpuEvent :=
  .authorize (some 1) :: .connect 0 1 :: List.replicate 7 (.step 0 sampleOutside) ++ [.drop 0]

/-- Another session of the same master, with the same server. -/
def twoSessions : List GpuEvent :=
  firstSession ++ .connect 1 1 :: List.replicate 7 (.step 1 sampleOutside)

/-- The server of both sessions was started for the master, it is handed to nobody else, and the second
session is one of the master too. -/
theorem server_of_two_sessions :
    (∃ m, (run sampleGpu "worker" twoSessions).runtime.master = some m ∧
      StartedFor sampleGpu "worker" twoSessions m ⟨0, 5000⟩) ∧
    StartedFor sampleGpu "worker" (firstSession.take 6) 1 ⟨0, 5000⟩ ∧
    HandedAt sampleGpu "worker" (twoSessions.take 14) (.step 1 sampleOutside) 1 ⟨0, 5000⟩ ∧
    (∀ m, HandedAt sampleGpu "worker" (twoSessions.take 14) (.step 1 sampleOutside) m ⟨0, 5000⟩ →
      m = 1) ∧
    (run sampleGpu "worker" twoSessions).runtime.master = some 1 := by
  obtain ⟨hrecorded, hstarted, honce, hreturned⟩ := server_of_master sampleGpu "worker" twoSessions
  have hfirst : HandedAt sampleGpu "worker" (twoSessions.take 5) (.step 0 sampleOutside) 1 ⟨0, 5000⟩ :=
    ⟨0, sampleOutside, rfl, rfl, rfl⟩
  refine ⟨hrecorded _ rfl, hstarted _ _ (twoSessions.drop 6) rfl _ _ hfirst,
    ⟨1, sampleOutside, rfl, rfl, rfl⟩, fun m hsecond => ?_, ?_⟩
  · exact honce _ _ (twoSessions.drop 15) _ _ (twoSessions.drop 6) rfl rfl _ _ _ _ hsecond hfirst rfl
  · exact (hreturned (twoSessions.take 17) (.step 1 sampleOutside) [] rfl ⟨1, .confirming ⟨0, 5000⟩⟩
      ⟨1, sampleOutside, .connected ⟨0, 5000⟩, rfl, rfl, rfl, rfl, rfl⟩).2

end

end GpuWorker

end Daemon

end Latticed
