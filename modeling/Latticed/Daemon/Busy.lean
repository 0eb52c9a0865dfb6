import Latticed.Daemon.ServerOwner
import Latticed.LTS.Basic

/-!
# Who keeps the GPU busy

One permit stands for the GPU.  A chat keeps it from `connect` to the end of its session.  A capability
query takes it as well, while it asks the GPU helper; whoever comes in the meantime is told that the GPU is
busy with another chat.

* `wf_run` : who holds the permit.
* `reported_busy` : a query that reports a busy GPU found the permit taken.
* `busy_means_chat_iff` : that is the doing of a chat iff nobody asks for the permit while a query is at
  the helper.
-/

namespace Latticed

namespace Daemon

open Net WorkerRuntime

/-- A capability query that holds the permit: it asks the GPU helper. -/
def GpuPhase.asksHelper : GpuPhase → Bool
  | .selecting | .rechecking _ false => true
  | _ => false

/-- A `connect`, or its session, that holds the permit. -/
def GpuPhase.usesGpu : GpuPhase → Bool
  | .acquired | .addressing | .looping _ | .dialling _ | .confirming _ | .connected _ => true
  | _ => false

/-- A capability query that found the permit taken. -/
def GpuPhase.foundBusy : GpuPhase → Bool
  | .rechecking _ busy => busy
  | .informed info => info.busy
  | _ => false

/-- The call holds the permit. -/
def GpuPhase.holds (phase : GpuPhase) : Bool := phase.asksHelper || phase.usesGpu

namespace GpuWorker

variable {device : GpuDevice} {dir : String} {σ : GpuWorker} {events : List GpuEvent} {n k : ℕ}
  {o : Outside} {c : GpuCall}

/-- The permit is held by a `connect` or a session. -/
def HeldByChat (σ : GpuWorker) : Prop :=
  ∃ k c, σ.permit = some k ∧ σ.calls k = some c ∧ c.phase.usesGpu = true

/-- In this event a query tries to get the permit, or the two seconds of a `connect` that waits for it are
over. -/
def Asks (σ : GpuWorker) (e : GpuEvent) : Prop :=
  ∃ n o c, e = .step n o ∧ σ.calls n = some c ∧
    (c.phase = .trying ∨ c.phase = .waiting ∧ o.timeout = true)

/-- It is told that the GPU is busy. -/
def FindsBusy (σ : GpuWorker) (e : GpuEvent) : Prop := σ.Asks e ∧ σ.permit ≠ none

/-! ### Who holds the permit -/

/-- The permit is held by the one call that is where a call holds it. -/
def Wf (σ : GpuWorker) : Prop :=
  ∀ k, σ.permit = some k ↔ ∃ c, σ.calls k = some c ∧ c.phase.holds = true

theorem Checks.holds {phase phase' : GpuPhase} (h : Checks phase phase') :
    phase'.holds = (phase.holds && !phase'.over) := by
  cases h with
  | rechecking device busy => cases busy <;> rfl
  | _ => rfl

/-- **What a section does to the permit**: a call that has returned is without it, one that goes on keeps
what it had, and only a call that asks for a free permit gets it. -/
theorem next_permit (σ : GpuWorker) (n : ℕ) (o : Outside) (c : GpuCall) :
    (σ.next n o c).2.2 = σ.permit ∧
        (σ.next n o c).1.holds = (c.phase.holds && !(σ.next n o c).1.over) ∨
      σ.permit = none ∧ (σ.next n o c).2.2 = some n ∧ (σ.next n o c).1.holds = true ∧
        (σ.next n o c).1.over = false := by
  have hchecked (phase : GpuPhase) (h : Checks c.phase phase) :
      (σ.check o c phase).2.2 = σ.permit ∧
        (σ.check o c phase).1.holds = (c.phase.holds && !(σ.check o c phase).1.over) := by
    refine ⟨rfl, ?_⟩
    rcases σ.check_cases o c phase with ⟨why, heq⟩ | ⟨message, heq⟩ | ⟨heq, -, -⟩
    · rw [heq]
      simp [GpuPhase.holds, GpuPhase.asksHelper, GpuPhase.usesGpu, GpuPhase.over]
    · rw [heq]
      simp [GpuPhase.holds, GpuPhase.asksHelper, GpuPhase.usesGpu, GpuPhase.over]
    · rw [heq]
      exact h.holds
  obtain ⟨from_, phase⟩ := c
  cases phase with
  | checking => exact Or.inl (hchecked _ .checking)
  | rechecking device busy => exact Or.inl (hchecked _ (.rechecking device busy))
  | acquiring => exact Or.inl (hchecked _ .acquiring)
  | acquired => exact Or.inl (hchecked _ .acquired)
  | looping server => exact Or.inl (hchecked _ (.looping server))
  | confirming server => exact Or.inl (hchecked _ (.confirming server))
  | trying =>
    unfold next
    dsimp only
    cases hpermit : σ.permit with
    | none => exact Or.inr ⟨rfl, rfl, rfl, rfl⟩
    | some holder => exact Or.inl ⟨rfl, rfl⟩
  | waiting =>
    unfold next
    dsimp only
    cases hpermit : σ.permit with
    | none => exact Or.inr ⟨rfl, rfl, rfl, rfl⟩
    | some holder =>
      refine Or.inl ⟨rfl, ?_⟩
      dsimp only
      split_ifs <;> rfl
  | selecting =>
    refine Or.inl ⟨rfl, ?_⟩
    unfold next
    dsimp only
    cases o.devices.bind fun devices =>
      selectDevice o.debug devices (some σ.runtime.device.name) <;> rfl
  | addressing =>
    refine Or.inl ⟨rfl, ?_⟩
    unfold next
    dsimp only
    cases (σ.runtime.address σ.exited o from_).1 <;> rfl
  | dialling server =>
    unfold next
    dsimp only
    cases o.stream with
    | ok u => exact Or.inl ⟨rfl, rfl⟩
    | error e =>
      refine Or.inl ⟨rfl, ?_⟩
      dsimp only
      split_ifs <;> rfl
  | informed info => exact Or.inl ⟨rfl, rfl⟩
  | connected server => exact Or.inl ⟨rfl, rfl⟩
  | failed why => exact Or.inl ⟨rfl, rfl⟩
  | panicked message => exact Or.inl ⟨rfl, rfl⟩

theorem release_eq_some {permit : Option ℕ} : release permit n = some k ↔ permit = some k ∧ k ≠ n := by
  unfold release
  split_ifs with h
  · subst h
    refine iff_of_false (by simp) ?_
    rintro ⟨heq, hne⟩
    exact hne (Option.some.inj heq).symm
  · refine ⟨fun heq => ⟨heq, ?_⟩, fun heq => heq.1⟩
    rintro rfl
    exact h heq

theorem step_calls_of_ne {o : Outside} (h : k ≠ n) (σ : GpuWorker) :
    (σ.step (.step n o)).calls k = σ.calls k := by
  unfold step
  dsimp only
  cases σ.calls n with
  | none => rfl
  | some c => exact Function.update_of_ne h _ _

theorem step_permit (h : σ.calls n = some c) : (σ.step (.step n o)).permit =
    if (σ.next n o c).1.over then release (σ.next n o c).2.2 n else (σ.next n o c).2.2 := by
  unfold step
  dsimp only
  rw [h]

theorem Wf.arrive (h : σ.Wf) (n : ℕ) {c : GpuCall} (hfree : c.phase.holds = false) :
    (σ.arrive n c).Wf := by
  unfold GpuWorker.arrive
  cases hcall : σ.calls n with
  | some other => exact h
  | none =>
    intro k
    refine (h k).trans ?_
    by_cases hk : k = n
    · subst hk
      rw [hcall]
      refine iff_of_false (by simp) ?_
      rintro ⟨c', hc', hholds⟩
      dsimp only at hc'
      rw [Function.update_self] at hc'
      cases hc'
      rw [hfree] at hholds
      cases hholds
    · dsimp only
      rw [Function.update_of_ne hk]

theorem Wf.section (h : σ.Wf) (n : ℕ) (o : Outside) : (σ.step (.step n o)).Wf := by
  cases hcall : σ.calls n with
  | none =>
    have hsame : σ.step (.step n o) = σ := by
      unfold GpuWorker.step
      dsimp only
      rw [hcall]
    rw [hsame]
    exact h
  | some c =>
    have hself := (step_step (o := o) hcall).2
    have hholds : σ.permit = some n ↔ c.phase.holds = true := by
      rw [h n, hcall]
      simp
    intro k
    rw [step_permit hcall]
    rcases σ.next_permit n o c with ⟨hsame, hnext⟩ | ⟨hfree, htaken, hnext, hover⟩
    · rw [hsame]
      by_cases hk : k = n
      · subst hk
        rw [hself]
        split_ifs with hover
        · refine iff_of_false (fun heq => (release_eq_some.1 heq).2 rfl) ?_
          rintro ⟨c', hc', hholds'⟩
          cases hc'
          rw [hnext, hover, Bool.not_true, Bool.and_false] at hholds'
          cases hholds'
        · rw [hholds]
          rw [Bool.not_eq_true] at hover
          rw [hover, Bool.not_false, Bool.and_true] at hnext
          simp [hnext]
      · rw [step_calls_of_ne hk, ← h k]
        split_ifs
        · exact release_eq_some.trans (and_iff_left hk)
        · rfl
    · -- the permit was free, so no other call is where a call holds it
      rw [htaken, hover]
      by_cases hk : k = n
      · subst hk
        rw [hself]
        exact iff_of_true rfl ⟨_, rfl, hnext⟩
      · rw [step_calls_of_ne hk, ← h k, hfree]
        simp [Ne.symm hk]

theorem Wf.drop (h : σ.Wf) (n : ℕ) : (σ.step (.drop n)).Wf := by
  unfold GpuWorker.step
  dsimp only
  cases σ.calls n with
  | none => exact h
  | some c =>
    dsimp only
    split_ifs
    · intro k
      dsimp only
      rw [release_eq_some]
      by_cases hk : k = n
      · subst hk
        rw [Function.update_self]
        simp
      · rw [Function.update_of_ne hk, ← h k]
        exact and_iff_left hk
    · exact h

theorem Wf.step (h : σ.Wf) (e : GpuEvent) : (σ.step e).Wf := by
  cases e with
  | authorize master => exact h
  | capabilities n from_ => exact h.arrive n rfl
  | connect n from_ => exact h.arrive n rfl
  | step n o => exact h.section n o
  | exit child status =>
    unfold GpuWorker.step
    dsimp only
    split_ifs
    · exact h
    · exact h
  | drop n => exact h.drop n

/-- **Who holds the permit**, after any run. -/
theorem wf_run (device : GpuDevice) (dir : String) (events : List GpuEvent) :
    (run device dir events).Wf := by
  refine foldl_mono (P := Wf) (fun σ e h => h.step e) events ?_
  intro k
  refine iff_of_false (by simp [start]) ?_
  rintro ⟨c, hc, -⟩
  cases hc

/-! ### What a call reports -/

/-- Once a query is told that the GPU is busy it goes on saying so, and no other call does. -/
theorem next_foundBusy (h : (σ.next n o c).1.foundBusy = true) :
    c.phase.foundBusy = true ∨ c.phase = .trying ∧ σ.permit ≠ none := by
  obtain ⟨from_, phase⟩ := c
  cases σ.next_leads n o ⟨from_, phase⟩ with
  | failed why hphase =>
    rw [hphase] at h
    cases h
  | panicked message hphase =>
    rw [hphase] at h
    cases h
  | addressed server _ hphase =>
    rw [hphase] at h
    cases h
  | checked hchecks hmaster hsame =>
    revert h
    generalize (σ.next n o ⟨from_, phase⟩).1 = after at hchecks
    intro h
    cases hchecks with
    | rechecking device busy => exact Or.inl h
    | _ => cases h
  | goes hgoes =>
    cases phase with
    | trying =>
      refine Or.inr ⟨rfl, fun hfree => ?_⟩
      unfold next at h
      dsimp only at h
      rw [hfree] at h
      cases h
    | informed info => exact Or.inl h
    | _ =>
      revert h
      generalize (σ.next n o _).1 = after at hgoes
      intro h
      cases hgoes <;> cases h

/-- A query says that the GPU is busy if it said so before, or is told so in this event. -/
theorem step_foundBusy {e : GpuEvent} (h : (σ.step e).calls n = some c)
    (hbusy : c.phase.foundBusy = true) :
    (∃ c', σ.calls n = some c' ∧ c'.phase.foundBusy = true) ∨
      ∃ o from_, e = .step n o ∧ σ.calls n = some ⟨from_, .trying⟩ ∧ σ.permit ≠ none := by
  rcases step_calls h with hbefore | hphase | hphase | ⟨o, c', rfl, hcall, rfl⟩
  · exact Or.inl ⟨c, hbefore, hbusy⟩
  -- a call that has just arrived has not asked for the permit
  · rw [hphase] at hbusy
    cases hbusy
  · rw [hphase] at hbusy
    cases hbusy
  · rcases next_foundBusy hbusy with hbefore | ⟨htrying, hpermit⟩
    · exact Or.inl ⟨c', hcall, hbefore⟩
    · exact Or.inr ⟨o, c'.from_, rfl, by rw [hcall, ← htrying], hpermit⟩

/-- **A query that reports a busy GPU found the permit taken.** -/
theorem reported_busy (h : (run device dir events).calls n = some c)
    (hbusy : c.phase.foundBusy = true) : ∃ before o after, events = before ++ .step n o :: after ∧
      (∃ from_, (run device dir before).calls n = some ⟨from_, .trying⟩) ∧
      (run device dir before).permit ≠ none := by
  let Says (σ : GpuWorker) : Prop := ∃ c, σ.calls n = some c ∧ c.phase.foundBusy = true
  have hstart : ¬ Says (start device dir) := by
    rintro ⟨c, hc, -⟩
    cases hc
  obtain ⟨before, e, after, rfl, hnot, hsays⟩ := exists_flip hstart ⟨c, h, hbusy⟩
  obtain ⟨c', hc', hbusy'⟩ : Says (run device dir (before ++ [e])) := hsays
  rw [run_concat] at hc'
  rcases step_foundBusy hc' hbusy' with hsaid | ⟨o, from_, rfl, htrying, hpermit⟩
  · exact absurd hsaid hnot
  · exact ⟨before, o, after, rfl, ⟨from_, htrying⟩, hpermit⟩

/-- A `connect` is told that the GPU is busy when its two seconds are over and the permit is taken. -/
theorem waiting_busy (h : c.phase = .waiting) (htimeout : o.timeout = true)
    (hpermit : σ.permit ≠ none) : (σ.next n o c).1 = .failed "GPU worker is busy" := by
  obtain ⟨from_, phase⟩ := c
  obtain rfl : phase = .waiting := h
  obtain ⟨k, hk⟩ := Option.ne_none_iff_exists'.1 hpermit
  unfold next
  dsimp only
  rw [hk]
  dsimp only
  rw [if_pos htimeout]

/-! ### Busy with a chat -/

/-- In a state that a run comes to, whoever asks is told of a chat iff no query is at the helper. -/
theorem findsBusy_chat_iff (h : σ.Wf) {e : GpuEvent} : (σ.FindsBusy e → σ.HeldByChat) ↔
    (σ.Asks e → ∀ k c, σ.calls k = some c → c.phase.asksHelper = false) := by
  constructor
  · intro hchat hasks k c hc
    by_contra hhelper
    rw [Bool.not_eq_false] at hhelper
    have hpermit : σ.permit = some k := by
      refine (h k).2 ⟨c, hc, ?_⟩
      rw [GpuPhase.holds, hhelper, Bool.true_or]
    obtain ⟨k', c', hpermit', hc', huses⟩ := hchat ⟨hasks, by rw [hpermit]; exact nofun⟩
    rw [hpermit] at hpermit'
    cases hpermit'
    rw [hc] at hc'
    cases hc'
    -- a call is not both a query and a chat
    have hboth : ∀ phase : GpuPhase, phase.asksHelper = true → phase.usesGpu = false := by
      intro phase
      cases phase <;> simp [GpuPhase.asksHelper, GpuPhase.usesGpu]
    rw [hboth c.phase hhelper] at huses
    cases huses
  · rintro hquiet ⟨hasks, hpermit⟩
    obtain ⟨k, hk⟩ := Option.ne_none_iff_exists'.1 hpermit
    obtain ⟨c, hc, hholds⟩ := (h k).1 hk
    refine ⟨k, c, hk, hc, ?_⟩
    rwa [GpuPhase.holds, hquiet hasks k c hc, Bool.false_or] at hholds

/-- **Busy means a chat holds the GPU** in the runs in which nobody asks for the permit while a capability
query is at the helper, and in no others.  What a query reports is what it found then. -/
theorem busy_means_chat_iff (device : GpuDevice) (dir : String) (events : List GpuEvent) :
    ((∀ before e after, events = before ++ e :: after → (run device dir before).FindsBusy e →
        (run device dir before).HeldByChat) ↔
      ∀ before e after, events = before ++ e :: after → (run device dir before).Asks e →
        ∀ k c, (run device dir before).calls k = some c → c.phase.asksHelper = false) ∧
    (∀ n c, (run device dir events).calls n = some c → c.phase.foundBusy = true →
      ∃ before o after, events = before ++ .step n o :: after ∧
        (run device dir before).FindsBusy (.step n o)) ∧
    ∀ before n o after c, events = before ++ .step n o :: after →
      (run device dir before).calls n = some c → c.phase = .waiting →
      (run device dir before).FindsBusy (.step n o) →
      (run device dir (before ++ [.step n o])).calls n =
        some { c with phase := .failed "GPU worker is busy" } := by
  refine ⟨?_, fun n c hc hbusy => ?_, fun before n o after c heq hc hwaiting hbusy => ?_⟩
  · refine forall_congr' fun before => forall_congr' fun e => forall_congr' fun after => ?_
    exact imp_congr_right fun _ => findsBusy_chat_iff (wf_run device dir before)
  · obtain ⟨before, o, after, heq, ⟨from_, htrying⟩, hpermit⟩ := reported_busy hc hbusy
    exact ⟨before, o, after, heq, ⟨n, o, _, rfl, htrying, Or.inl rfl⟩, hpermit⟩
  · obtain ⟨⟨n', o', c', hstep, hc', hasks⟩, hpermit⟩ := hbusy
    cases hstep
    rw [hc] at hc'
    cases hc'
    have htimeout : o.timeout = true := by
      rcases hasks with htrying | hasks
      · rw [hwaiting] at htrying
        cases htrying
      · exact hasks.2
    rw [run_concat, (step_step hc).2, waiting_busy hwaiting htimeout hpermit]

/-- The worker's GPU. -/
def radeon : GpuDevice := ⟨"Vulkan0", "RX 7600", "gpu", 8589934592, 7516192768⟩

/-- Nothing fails. -/
def quietly : Outside := ⟨none, .ok [radeon], .ok 5000, false, .ok (), false, String.quote⟩

/-- The master starts a chat, and asks for the capabilities. -/
def chatting : List GpuEvent :=
  [.authorize (some 7), .connect 0 7, .step 0 quietly, .step 0 quietly, .capabilities 1 7,
    .step 1 quietly, .step 1 quietly]

/-- The query is told that the GPU is busy. -/
theorem busy_means_chat_chatting : ∃ before o after, chatting = before ++ .step 1 o :: after ∧
    (run radeon "" before).FindsBusy (.step 1 o) :=
  (busy_means_chat_iff radeon "" chatting).2.1 1 ⟨7, .rechecking radeon true⟩ rfl rfl

/-- The master asks for the capabilities twice at the same time. -/
def twoQueries : List GpuEvent :=
  [.authorize (some 7), .capabilities 0 7, .capabilities 1 7, .step 0 quietly, .step 1 quietly,
    .step 0 quietly]

/-- **Two queries, and no chat at all**: the second one reports that the GPU is busy. -/
theorem busy_without_chat :
    ¬ (∀ (device : GpuDevice) (dir : String) (events : List GpuEvent) (before : List GpuEvent)
      (e : GpuEvent) (after : List GpuEvent), events = before ++ e :: after →
      (run device dir before).FindsBusy e → (run device dir before).HeldByChat) ∧
    (run radeon "" (twoQueries ++ [.step 1 quietly, .step 1 quietly])).calls 1 =
      some ⟨7, .informed ⟨engineRevision, radeon, true⟩⟩ := by
  refine ⟨fun h => ?_, rfl⟩
  have hfinds : (run radeon "" twoQueries).FindsBusy (.step 1 quietly) :=
    ⟨⟨1, quietly, ⟨7, .trying⟩, rfl, rfl, Or.inl rfl⟩, nofun⟩
  obtain ⟨k, c, hk, hc, huses⟩ := h radeon "" (twoQueries ++ [.step 1 quietly]) twoQueries
    (.step 1 quietly) [] rfl hfinds
  obtain rfl : 0 = k := Option.some.inj hk
  have hquery : (run radeon "" twoQueries).calls 0 = some ⟨7, .selecting⟩ := rfl
  rw [hquery] at hc
  cases hc
  cases huses

end GpuWorker

end Daemon

end Latticed
