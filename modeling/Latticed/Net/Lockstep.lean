import Latticed.LTS.Basic
import Latticed.Net.Serving
import Latticed.Net.Wire

/-!
# Steps and their answers on an activation stream

The master calls `RemoteShard::step` for one step after the other, and the shard serves the stream
at its own pace.  Nothing on the wire says which step an answer belongs to: the two ends stay in
step because each call reads one frame.  A frame above the ceiling is left on the stream, though,
and the next call takes what is left for its answer.

* `lockstep_of_fits` : while the executor's answers fit a frame, every payload that a call returns
  is the answer to that call's step; while they can be sent, the executor serves what it reads in order.
* `lockstep_fails` : after an answer of half a gibibyte, a call returns tokens that nobody sent.
-/

namespace Latticed

namespace Net

open Engine Rust Rust.Postcard

/-- A master and a shard, and the stream between them. -/
structure Boundary where
  /-- The steps that `RemoteShard::step` was called with, in order. -/
  asked : List Step
  /-- What the calls returned; a call is under way when there are fewer of these. -/
  returned : List (Except NetError Payload)
  /-- The calls whose step was written to the stream, in order. -/
  sent : List ℕ
  /-- `RemoteShard::finish` was called. -/
  finished : Bool
  /-- The shard, what it has yet to read and what the master has yet to read. -/
  shard : Serving

/-- The stream was just opened. -/
def Boundary.opened : Boundary := ⟨[], [], [], false, ⟨[], [], [], false⟩⟩

/-- What happens at either end. -/
inductive Boundary.Event where
  /-- `RemoteShard::step` writes the step.  Once the shard has hung up the write may still be taken,
  or fail. -/
  | call (step : Step) (stopped : Option WriteFailure)
  /-- `read_frame` in `RemoteShard::step` returns, and the call with it; `ending` is what reading says
  once the shard has hung up. -/
  | receive (ending : String)
  /-- `RemoteShard::finish`. -/
  | finish
  /-- A round of the loop of `serve_stream`; `ending` is what reading says once the master has hung up. -/
  | serve (ending : String)

/-- The end of `RemoteShard::step`. -/
def stepReply (results : Wire StepResult) : Except NetError Bytes → Except NetError Payload
  | .error e => .error e
  | .ok bytes =>
    match results.decode bytes with
    | .error e => .error (.postcard e)
    | .ok (.output payload) => .ok payload
    | .ok (.failed why) => .error (.stream ("remote shard: " ++ why))

/-- The call that starts, if the master is free to make one. -/
def Boundary.call (steps : Wire Step) (l : Boundary) (step : Step) (stopped : Option WriteFailure) :
    Boundary :=
  match writeFrame (steps.write step), if l.shard.ended then stopped else none with
  | .error e, _ => { l with asked := l.asked ++ [step], returned := l.returned ++ [.error e] }
  | .ok _, some failure =>
    { l with asked := l.asked ++ [step], returned := l.returned ++ [.error failure.error] }
  | .ok frame, none =>
    { l with
      asked := l.asked ++ [step]
      sent := l.sent ++ [l.asked.length]
      shard := { l.shard with unread := l.shard.unread ++ frame } }

/-- The call that returns. -/
def Boundary.receive (results : Wire StepResult) (l : Boundary) (ending : String) : Boundary :=
  let (frame, rest) := readFlat l.shard.out ending maxActivationFrame
  { l with
    returned := l.returned ++ [stepReply results frame]
    shard := { l.shard with out := rest } }

/-- The master says that it is done, and hangs up. -/
def Boundary.finish (steps : Wire Step) (l : Boundary) : Boundary :=
  { l with
    finished := true
    shard := { l.shard with
      unread := l.shard.unread ++ (writeFrame (steps.write .done)).toOption.getD [] } }

section

variable (steps : Wire Step) (results : Wire StepResult) (answers : ℕ → Except String Payload)

/-- What an event makes of the two ends, if it can happen.  A read waits for the bytes it needs
unless the other end has hung up. -/
def Boundary.step (l : Boundary) : Boundary.Event → Option Boundary
  | .call step stopped =>
    if l.returned.length = l.asked.length ∧ ¬ l.finished then some (l.call steps step stopped)
    else none
  | .receive ending =>
    if l.returned.length < l.asked.length ∧ (l.shard.ended ∨ ¬ Short l.shard.out maxActivationFrame)
    then some (l.receive results ending) else none
  | .finish =>
    if l.returned.length = l.asked.length ∧ ¬ l.finished then some (l.finish steps) else none
  | .serve ending =>
    if ¬ l.shard.ended ∧ (l.finished ∨ ¬ Short l.shard.unread maxActivationFrame) then
      some { l with
        shard := serveRound steps results (answers l.shard.log.length) ending l.shard }
    else none

/-- One activation stream, with an executor that gives these answers, in the order of its calls. -/
def activationStream : System Boundary Boundary.Event where
  start l := l = .opened
  step l e l' := l.step steps results answers e = some l'

end

/-- Every answer that the executor has given fits the frame it is sent in. -/
def Boundary.AnswersFit (results : Wire StepResult) (l : Boundary) : Prop :=
  ∀ step answer, .run step answer ∈ l.shard.log → Fits results answer

/-- **Lockstep**: a payload that a call returned is what the executor answered to the step of that
call. -/
def Boundary.Lockstep (l : Boundary) : Prop :=
  ∀ (k : ℕ) (payload : Payload), l.returned[k]? = some (.ok payload) →
    ∃ (n : ℕ) (step : Step), l.asked[k]? = some step ∧ l.sent[n]? = some k ∧
      l.shard.log[n]? = some (.run step (.ok payload))

namespace Boundary

variable {steps : Wire Step} {results : Wire StepResult} {answers : ℕ → Except String Payload}

/-- Where the two ends are in a run in which all answers that were given fit. -/
inductive Phase (steps : Wire Step) (results : Wire StepResult) (l : Boundary) : Prop
  /-- No call is under way and the shard waits; a `Done` may be on its way to it. -/
  | idle (hended : l.shard.ended = false) (hcalls : l.returned.length = l.asked.length)
    (hlog : l.shard.log.length = l.sent.length) (hout : l.shard.out = [])
    (hunread : l.shard.unread = [] ∨
      l.finished = true ∧ writeFrame (steps.write .done) = .ok l.shard.unread)
  /-- The step of the last call is on its way. -/
  | asked (before : List Step) (step : Step) (sent : List ℕ) (hended : l.shard.ended = false)
    (hfinished : l.finished = false) (hasked : l.asked = before ++ [step])
    (hreturned : l.returned.length = before.length) (hsent : l.sent = sent ++ [before.length])
    (hlog : l.shard.log.length = sent.length) (hout : l.shard.out = [])
    (hunread : writeFrame (steps.write step) = .ok l.shard.unread)
  /-- The answer to it is. -/
  | answered (before : List Step) (step : Step) (sent : List ℕ) (log : List ExecutorCall)
    (answer : Except String Payload) (hended : l.shard.ended = false)
    (hfinished : l.finished = false) (hasked : l.asked = before ++ [step])
    (hreturned : l.returned.length = before.length) (hsent : l.sent = sent ++ [before.length])
    (hlog : l.shard.log = log ++ [.run step answer]) (hlen : log.length = sent.length)
    (hunread : l.shard.unread = []) (hfits : Fits results answer)
    (hout : reply results (.ofExcept answer) = .ok l.shard.out)
  /-- The shard has hung up, and left nothing to read. -/
  | ended (hended : l.shard.ended = true) (hout : l.shard.out = [])

theorem getElem?_of_prefix {α : Type*} {xs ys : List α} (h : xs <+: ys) {n : ℕ} {a : α}
    (hn : xs[n]? = some a) : ys[n]? = some a := by
  obtain ⟨hlt, rfl⟩ := List.getElem?_eq_some_iff.1 hn
  exact List.prefix_iff_getElem?.1 h n hlt

/-- Lockstep outlasts new calls, new runs of the executor and calls that fail. -/
theorem Lockstep.mono {l l' : Boundary} (h : l.Lockstep) (hasked : l.asked <+: l'.asked)
    (hsent : l.sent <+: l'.sent) (hlog : l.shard.log <+: l'.shard.log)
    (hreturned : l'.returned = l.returned ∨ ∃ e, l'.returned = l.returned ++ [.error e]) :
    l'.Lockstep := by
  intro k payload hk
  have hold : l.returned[k]? = some (.ok payload) := by
    obtain heq | ⟨e, heq⟩ := hreturned
    · rwa [heq] at hk
    · rw [heq, List.getElem?_append] at hk
      split_ifs at hk with hlt
      · exact hk
      · cases List.mem_singleton.1 (List.mem_of_getElem? hk)
  obtain ⟨n, step, hstep, hn, hrun⟩ := h k payload hold
  exact ⟨n, step, getElem?_of_prefix hasked hstep, getElem?_of_prefix hsent hn,
    getElem?_of_prefix hlog hrun⟩

/-- A step or `Done` that was written ends the loop, or runs and is answered. -/
theorem serveRound_written {s : Serving} {step : Step} {answer : Except String Payload}
    {ending : String} (hunread : writeFrame (steps.write step) = .ok s.unread)
    (hfits : .run step answer ∈ (serveRound steps results answer ending s).log →
      Fits results answer) :
    (∃ rest, serveRound steps results answer ending s =
        ⟨rest, s.log ++ [.dropSession], s.out, true⟩) ∨
      ∃ bytes, step ≠ .done ∧ Fits results answer ∧ reply results (.ofExcept answer) = .ok bytes ∧
        serveRound steps results answer ending s =
          ⟨[], s.log ++ [.run step answer], s.out ++ bytes, false⟩ := by
  by_cases hmax : (steps.write step).length ≤ maxActivationFrame
  · have hframe := hasFrame_of_writeFrame hunread hmax
    have hstep := decode_of_writeFrame hunread
    by_cases hdone : step = .done
    · subst hdone
      exact .inl ⟨_, serveRound_done hframe hstep⟩
    · -- an answer that cannot be sent is given, too
      have hgiven : Fits results answer := by
        cases hreply : reply results (.ofExcept answer) with
        | ok bytes => exact hfits (by simp [serveRound_step hframe hstep hdone hreply])
        | error e => exact hfits (by simp [serveRound_unsent hframe hstep hdone hreply])
      have hreply := hgiven.sendable.reply
      exact .inr ⟨_, hdone, hgiven, hreply, serveRound_step hframe hstep hdone hreply⟩
  · obtain ⟨e, hread⟩ := readFlat_of_gt hunread (not_le.1 hmax) ending
    exact .inl ⟨_, serveRound_failed hread⟩

/-- Where the ends are when the master may start a call: nothing is on the stream, or the shard is
gone. -/
theorem Phase.free {l : Boundary} (h : Phase steps results l)
    (hfree : l.returned.length = l.asked.length) (hfinished : l.finished = false) :
    (l.shard.ended = false ∧ l.shard.log.length = l.sent.length ∧ l.shard.out = [] ∧
        l.shard.unread = []) ∨ l.shard.ended = true ∧ l.shard.out = [] := by
  cases h with
  | idle hended _ hlog hout hunread =>
    exact .inl ⟨hended, hlog, hout, by simpa [hfinished] using hunread⟩
  | asked before step' sent _ _ hasked hreturned =>
    rw [hasked, hreturned] at hfree
    simp at hfree
  | answered before step' sent log answer _ _ hasked hreturned =>
    rw [hasked, hreturned] at hfree
    simp at hfree
  | ended hended hout => exact .inr ⟨hended, hout⟩

/-- A call that starts. -/
theorem Phase.call {l : Boundary} (h : Phase steps results l)
    (hfree : l.returned.length = l.asked.length) (hfinished : l.finished = false) (step : Step)
    (stopped : Option WriteFailure) : Phase steps results (l.call steps step stopped) := by
  rw [Boundary.call]
  obtain ⟨hended, hlog, hout, hnil⟩ | ⟨hended, hout⟩ := h.free hfree hfinished
  · cases hframe : writeFrame (steps.write step) with
    | error e => exact .idle hended (by simp [hfree]) hlog hout (.inl hnil)
    | ok frame =>
      simp only [hended, Bool.false_eq_true, if_false]
      exact .asked l.asked step l.sent rfl hfinished rfl hfree rfl hlog hout
        (by rw [hnil, List.nil_append, hframe])
  · cases writeFrame (steps.write step) with
    | error e => exact .ended hended hout
    | ok frame =>
      rw [hended, if_pos rfl]
      cases stopped with
      | none => exact .ended hended hout
      | some failure => exact .ended hended hout

/-- A call that returns. -/
theorem Phase.receive {l : Boundary} (h : Phase steps results l)
    (hcall : l.returned.length < l.asked.length)
    (hready : l.shard.ended = true ∨ ¬ Short l.shard.out maxActivationFrame) (hlock : l.Lockstep)
    (ending : String) :
    Phase steps results (l.receive results ending) ∧ (l.receive results ending).Lockstep := by
  cases h with
  | idle _ hcalls =>
    omega
  | asked before step sent hended _ _ _ _ _ hout =>
    rw [hended, hout] at hready
    simp [short_nil] at hready
  | answered before step sent log answer hended hfinished hasked hreturned hsent hlog hlen hunread
      hfits hout =>
    have hframe := (hasFrame_of_writeFrame hout hfits).readFlat ending
    have hdecode := decode_of_writeFrame hout
    rw [Boundary.receive, hframe]
    constructor
    · exact .idle hended (by simp [hasked, hreturned]) (by simp [hlog, hsent, hlen]) rfl
        (.inl hunread)
    · intro k payload hk
      simp only [List.getElem?_append] at hk
      split_ifs at hk with hlt
      · exact hlock k payload hk
      · -- the answer to the last call, which the shard gave to that call's step
        rw [stepReply, hdecode] at hk
        have hk0 : k - l.returned.length = 0 := by
          have := (List.getElem?_eq_some_iff.1 hk).1
          simpa using this
        have hanswer : answer = .ok payload := by
          rw [hk0] at hk
          cases answer with
          | error e => simp [StepResult.ofExcept] at hk
          | ok p => simpa [StepResult.ofExcept] using hk
        obtain rfl : k = before.length := by omega
        exact ⟨sent.length, step, by simp [hasked], by simp [hsent], by simp [hlog, ← hlen, hanswer]⟩
  | ended hended hout =>
    rw [Boundary.receive, hout, readFlat_nil]
    exact ⟨.ended hended rfl, hlock.mono (List.prefix_refl _) (List.prefix_refl _)
      (List.prefix_refl _) (.inr ⟨_, rfl⟩)⟩

theorem Phase.finish {l : Boundary} (h : Phase steps results l)
    (hfree : l.returned.length = l.asked.length) (hfinished : l.finished = false) :
    Phase steps results (l.finish steps) := by
  obtain ⟨hended, hlog, hout, hnil⟩ | ⟨hended, hout⟩ := h.free hfree hfinished
  · refine .idle hended hfree hlog hout ?_
    simp only [Boundary.finish, hnil, List.nil_append]
    cases hframe : writeFrame (steps.write .done) with
    | error e => exact .inl rfl
    | ok frame => exact .inr ⟨trivial, rfl⟩
  · exact .ended hended hout

/-- A round of the shard. -/
theorem Phase.serve {l : Boundary} {answer : Except String Payload} {ending : String}
    (h : Phase steps results l) (hended : l.shard.ended = false)
    (hready : l.finished = true ∨ ¬ Short l.shard.unread maxActivationFrame)
    (hfits : AnswersFit results { l with
      shard := serveRound steps results answer ending l.shard }) :
    Phase steps results { l with shard := serveRound steps results answer ending l.shard } := by
  cases h with
  | idle _ hcalls hlog hout hunread =>
    obtain hnil | ⟨_, hdone⟩ := hunread
    · rw [serveRound_failed (by rw [hnil]; exact readFlat_nil _ _)]
      exact .ended rfl hout
    · obtain ⟨rest, hround⟩ | ⟨bytes, hne, -⟩ :=
        @serveRound_written steps results l.shard .done answer ending hdone (hfits _ _)
      · rw [hround]
        exact .ended rfl hout
      · exact absurd rfl hne
  | asked before step sent _ hfinished hasked hreturned hsent hlog hout hunread =>
    obtain ⟨rest, hround⟩ | ⟨bytes, -, hgiven, hreply, hround⟩ :=
      @serveRound_written steps results l.shard step answer ending hunread (hfits _ _)
    · rw [hround]
      exact .ended rfl hout
    · rw [hround]
      refine .answered before step sent l.shard.log answer rfl hfinished hasked hreturned hsent rfl
        hlog rfl hgiven ?_
      rw [hreply, hout, List.nil_append]
  | answered before step sent log answer' _ hfinished _ _ _ _ _ hunread =>
    rw [hfinished, hunread] at hready
    simp [short_nil] at hready
  | ended hended' =>
    rw [hended] at hended'
    cases hended'

/-- A call whose answer can be read. -/
theorem step_receive {l : Boundary} {frame : Except NetError Bytes} {rest : Bytes} {ending : String}
    (hcall : l.returned.length < l.asked.length) (hready : ¬ Short l.shard.out maxActivationFrame)
    (hread : readFlat l.shard.out ending maxActivationFrame = (frame, rest)) :
    l.step steps results answers (.receive ending) = some { l with
      returned := l.returned ++ [stepReply results frame]
      shard := { l.shard with out := rest } } := by
  rw [Boundary.step, if_pos ⟨hcall, .inr hready⟩, Boundary.receive, hread]

/-- What the executor has done stays done. -/
theorem step_log {l l' : Boundary} {e : Event} (h : l.step steps results answers e = some l') :
    l.shard.log <+: l'.shard.log := by
  cases e with
  | call step stopped =>
    obtain ⟨-, heq⟩ := Option.ite_none_right_eq_some.1 h
    obtain rfl := Option.some.inj heq
    rw [Boundary.call]
    split <;> exact List.prefix_refl _
  | receive ending =>
    obtain ⟨-, heq⟩ := Option.ite_none_right_eq_some.1 h
    obtain rfl := Option.some.inj heq
    exact List.prefix_refl _
  | finish =>
    obtain ⟨-, heq⟩ := Option.ite_none_right_eq_some.1 h
    obtain rfl := Option.some.inj heq
    exact List.prefix_refl _
  | serve ending =>
    obtain ⟨-, heq⟩ := Option.ite_none_right_eq_some.1 h
    obtain rfl := Option.some.inj heq
    exact serveRound_log

/-- **One event keeps the two ends in step**, if what the executor answers to it fits. -/
theorem step_keeps {l l' : Boundary} {e : Event} (hphase : Phase steps results l)
    (hlock : l.Lockstep) (h : l.step steps results answers e = some l')
    (hfits : l'.AnswersFit results) : Phase steps results l' ∧ l'.Lockstep := by
  have hlog := step_log h
  cases e with
  | call step stopped =>
    obtain ⟨⟨hfree, hfinished⟩, heq⟩ := Option.ite_none_right_eq_some.1 h
    obtain rfl := Option.some.inj heq
    refine ⟨hphase.call hfree (by simpa using hfinished) step stopped, ?_⟩
    rw [Boundary.call] at hlog ⊢
    split at hlog
    · exact hlock.mono (List.prefix_append _ _) (List.prefix_refl _) hlog (.inr ⟨_, rfl⟩)
    · exact hlock.mono (List.prefix_append _ _) (List.prefix_refl _) hlog (.inr ⟨_, rfl⟩)
    · exact hlock.mono (List.prefix_append _ _) (List.prefix_append _ _) hlog (.inl rfl)
  | receive ending =>
    obtain ⟨⟨hcall, hready⟩, heq⟩ := Option.ite_none_right_eq_some.1 h
    obtain rfl := Option.some.inj heq
    exact hphase.receive hcall hready hlock ending
  | finish =>
    obtain ⟨⟨hfree, hfinished⟩, heq⟩ := Option.ite_none_right_eq_some.1 h
    obtain rfl := Option.some.inj heq
    exact ⟨hphase.finish hfree (by simpa using hfinished), hlock⟩
  | serve ending =>
    obtain ⟨⟨hended, hready⟩, heq⟩ := Option.ite_none_right_eq_some.1 h
    obtain rfl := Option.some.inj heq
    exact ⟨hphase.serve (by simpa using hended) hready hfits,
      hlock.mono (List.prefix_refl _) (List.prefix_refl _) hlog (.inl rfl)⟩

end Boundary

/-- **Lockstep while answers fit**: as long as no answer that the executor has given is larger than the
ceiling on a frame, every payload that a call returned is the executor's answer to the step of that
call; and the executor serves a byte sequence in order just if it can send every answer to it but the
last. -/
theorem lockstep_of_fits (steps : Wire Step) (results : Wire StepResult)
    (answers : ℕ → Except String Payload) :
    (∀ l, (activationStream steps results answers).Reachable l → l.AnswersFit results →
      l.Lockstep) ∧
    ∀ bytes ending, ServedInOrder steps results answers bytes ending ↔
      ∀ carried, Carries steps bytes carried →
        ∀ n, n + 1 < carried.length → Sendable results (answers n) := by
  refine ⟨fun l hl hfits => ?_, fun bytes ending => servedInOrder_iff⟩
  refine (hl.invariant (I := fun l => l.AnswersFit results →
    Boundary.Phase steps results l ∧ l.Lockstep) ?_ ?_ hfits).2
  · rintro l rfl -
    exact ⟨.idle rfl rfl rfl rfl (.inl rfl), fun k payload hk => by cases hk⟩
  · rintro l e l' hkeeps hstep hfits
    -- what the executor has answered before fits, too
    obtain ⟨hphase, hlock⟩ := hkeeps fun step answer hmem =>
      hfits step answer ((Boundary.step_log hstep).subset hmem)
    exact Boundary.step_keeps hphase hlock hstep hfits

/-! ### An answer above the ceiling -/

/-- Three zero bytes are an answer without tokens. -/
theorem decode_zeros (rest : Bytes) :
    StepResult.wire.decode (0 :: 0 :: 0 :: rest) = .ok (.output (.tokens [])) := rfl

theorem flatMap_zeros (n : ℕ) :
    (List.replicate n 0).flatMap F32.wire.write = List.replicate (4 * n) 0 := by
  induction n with
  | zero => rfl
  | succ n ih =>
    rw [List.replicate_succ, List.flatMap_cons, ih, Nat.mul_succ, Nat.add_comm, List.replicate_add]
    rfl

theorem write_zeros {n : ℕ} (hn : n = 2 ^ 27) :
    StepResult.wire.write (.output (.logits (List.replicate n 0))) =
      [0, 2, 0x80, 0x80] ++ ([0x80, 0x40, 0, 0] ++ List.replicate (4 * n - 2) 0) := by
  have hwrite : StepResult.wire.write (.output (.logits (List.replicate n 0))) =
      [0, 2] ++ (writeVarint 10 (List.replicate n (0 : F32)).length ++
        (List.replicate n 0).flatMap F32.wire.write) := rfl
  have hvarint : writeVarint 10 n = [0x80, 0x80, 0x80, 0x40] := by
    subst hn
    decide
  have hzeros : 4 * n = 2 + (4 * n - 2) := by omega
  rw [hwrite, List.length_replicate, hvarint, flatMap_zeros, hzeros, List.replicate_add]
  simp [List.replicate_succ]

/-- The step that the master asks for, three times. -/
def aStep : Step := .decode 0 (.tokens [])

/-- The frame it is sent in. -/
def aFrame : Bytes := [4, 0, 0, 0, 1, 0, 0, 0]

/-- Half a gibibyte of logits is answered with a frame above the ceiling. -/
theorem reply_zeros {n : ℕ} (hn : n = 2 ^ 27) :
    ∃ frame, reply StepResult.wire (.output (.logits (List.replicate n 0))) = .ok frame ∧
      4 ≤ frame.length ∧ maxActivationFrame < frameLen frame ∧
      frame.drop 4 = [0, 2, 0x80, 0x80] ++ ([0x80, 0x40, 0, 0] ++ List.replicate (4 * n - 2) 0) := by
  have hmax : maxActivationFrame = 4 * n := by
    rw [hn]
    rfl
  have hlen : (StepResult.wire.write (.output (.logits (List.replicate n 0)))).length =
      4 * n + 6 := by
    rw [write_zeros hn]
    simp only [List.length_append, List.length_cons, List.length_nil, List.length_replicate]
    omega
  have hlt : (StepResult.wire.write (.output (.logits (List.replicate n 0)))).length < 2 ^ 32 := by
    omega
  have hannounced := frameLen_append hlt []
  rw [List.append_nil] at hannounced
  refine ⟨_, writeFrame_of_lt hlt, by simp, by rw [hannounced]; omega, ?_⟩
  rw [List.drop_left' (length_toLeBytes 4 _), write_zeros hn]

/-- What is left of it opens with a frame of zeros. -/
theorem hasFrame_zeros {n m : ℕ} (hn : n = 2 ^ 27) (hm : m + 3 = 16512) :
    HasFrame ([0x80, 0x40, 0, 0] ++ List.replicate (4 * n - 2) 0) (List.replicate (m + 3) 0)
      (List.replicate (4 * n - 2 - (m + 3)) 0) maxActivationFrame := by
  have hmax : maxActivationFrame = 4 * n := by
    rw [hn]
    rfl
  refine ⟨?_, ?_, ?_⟩
  · have hsplit : 4 * n - 2 = (m + 3) + (4 * n - 2 - (m + 3)) := by omega
    have hfour : toLeBytes 4 (m + 3) = [0x80, 0x40, 0, 0] := by
      rw [hm]
      rfl
    rw [List.length_replicate, hfour, List.append_assoc, ← List.replicate_add, ← hsplit]
  · rw [List.length_replicate]
    omega
  · rw [List.length_replicate]
    omega

/-- A stream on which the master has asked for a step for the third time, and the answer to the first
is still being read. -/
theorem third_reply {n : ℕ} (hn : n = 2 ^ 27) (answer : Except String Payload)
    (hanswer : answer = .ok (.logits (List.replicate n 0))) :
    ∃ l, (activationStream Step.wire StepResult.wire fun _ => answer).Reachable l ∧
      l.returned[2]? = some (.ok (.tokens [])) ∧ l.shard.log = [.run aStep answer] := by
  obtain ⟨frame, hreply, hfour, hannounced, hrest⟩ := reply_zeros hn
  have hframe : reply StepResult.wire (.ofExcept answer) = .ok frame := by
    rw [hanswer]
    exact hreply
  obtain ⟨m, hm⟩ : ∃ m, m + 3 = 16512 := ⟨16509, rfl⟩
  have hzeros := hasFrame_zeros hn hm
  -- the run does not look at the zeros
  generalize List.replicate (4 * n - 2) (0 : UInt8) = zeros at hrest hzeros
  -- the step is run and answered
  have h₁ : Boundary.step Step.wire StepResult.wire (fun _ => answer) .opened (.call aStep none) =
      some ⟨[aStep], [], [0], false, ⟨aFrame, [], [], false⟩⟩ := rfl
  have h₂ : Boundary.step Step.wire StepResult.wire (fun _ => answer)
      ⟨[aStep], [], [0], false, ⟨aFrame, [], [], false⟩⟩ (.serve "") =
      some ⟨[aStep], [], [0], false, ⟨[], [.run aStep answer], frame, false⟩⟩ := by
    have hhas : HasFrame aFrame [1, 0, 0, 0] [] maxActivationFrame := ⟨rfl, by decide, by decide⟩
    have hround := @serveRound_step Step.wire StepResult.wire ⟨aFrame, [], [], false⟩ _ _ aStep
      answer "" frame hhas rfl (by decide) hframe
    rw [Boundary.step, if_pos ⟨by decide, .inr hhas.not_short⟩, hround]
    rfl
  -- the first call meets the ceiling, and leaves the answer on the stream
  obtain ⟨hready₁, e₁, hread₁⟩ := readFlat_ceiling hfour hannounced ""
  rw [hrest] at hread₁
  have h₃ := @Boundary.step_receive Step.wire StepResult.wire (fun _ => answer)
    ⟨[aStep], [], [0], false, ⟨[], [.run aStep answer], frame, false⟩⟩ _ _ _ Nat.zero_lt_one hready₁
    hread₁
  have h₄ : Boundary.step Step.wire StepResult.wire (fun _ => answer)
      ⟨[aStep], [.error e₁], [0], false, ⟨[], [.run aStep answer], [0, 2, 0x80, 0x80] ++
        ([0x80, 0x40, 0, 0] ++ zeros), false⟩⟩ (.call aStep none) =
      some ⟨[aStep, aStep], [.error e₁], [0, 1], false, ⟨aFrame, [.run aStep answer],
        [0, 2, 0x80, 0x80] ++ ([0x80, 0x40, 0, 0] ++ zeros), false⟩⟩ := rfl
  -- the second call takes the first four bytes of that answer for a length
  have hgarbage : frameLen ([0, 2, 0x80, 0x80] ++ ([0x80, 0x40, 0, 0] ++ zeros)) = 0x80800200 :=
    (frameLen_cons 0 2 0x80 0x80 _).trans (by decide)
  obtain ⟨hready₂, e₂, hread₂⟩ := @readFlat_ceiling ([0, 2, 0x80, 0x80] ++
    ([0x80, 0x40, 0, 0] ++ zeros)) maxActivationFrame (by simp)
    (by rw [hgarbage]; decide) ""
  have h₅ := @Boundary.step_receive Step.wire StepResult.wire (fun _ => answer)
    ⟨[aStep, aStep], [.error e₁], [0, 1], false, ⟨aFrame, [.run aStep answer],
      [0, 2, 0x80, 0x80] ++ ([0x80, 0x40, 0, 0] ++ zeros), false⟩⟩ _ _ _ Nat.one_lt_two hready₂ hread₂
  have h₆ : Boundary.step Step.wire StepResult.wire (fun _ => answer)
      ⟨[aStep, aStep], [.error e₁, .error e₂], [0, 1], false, ⟨aFrame, [.run aStep answer],
        [0x80, 0x40, 0, 0] ++ zeros, false⟩⟩ (.call aStep none) =
      some ⟨[aStep, aStep, aStep], [.error e₁, .error e₂], [0, 1, 2], false,
        ⟨aFrame ++ aFrame, [.run aStep answer], [0x80, 0x40, 0, 0] ++ zeros, false⟩⟩ := rfl
  -- the third call finds a frame of zeros, which is an answer without tokens
  have h₇ := @Boundary.step_receive Step.wire StepResult.wire (fun _ => answer)
    ⟨[aStep, aStep, aStep], [.error e₁, .error e₂], [0, 1, 2], false,
      ⟨aFrame ++ aFrame, [.run aStep answer], [0x80, 0x40, 0, 0] ++ zeros, false⟩⟩ _ _ _
    (Nat.lt_succ_self 2) hzeros.not_short (hzeros.readFlat "")
  refine ⟨_, .step (.step (.step (.step (.step (.step (.step (.start rfl) h₁) h₂) h₃) h₄) h₅) h₆) h₇,
    ?_, rfl⟩
  have hdecode : stepReply StepResult.wire (.ok (List.replicate (m + 3) 0)) = .ok (.tokens []) := by
    rw [stepReply, List.replicate_succ, List.replicate_succ, List.replicate_succ, decode_zeros]
  rw [hdecode]
  rfl

/-- **Lockstep fails** for an executor that answers with `2 ^ 27` logits: three calls later the master
is told of tokens that nobody sent. -/
theorem lockstep_fails : ¬ ∀ l, (activationStream Step.wire StepResult.wire
    fun _ => .ok (.logits (List.replicate (2 ^ 27) 0))).Reachable l → l.Lockstep := by
  intro h
  obtain ⟨l, hl, hreturned, hlog⟩ := third_reply rfl _ rfl
  obtain ⟨n, step, -, -, hrun⟩ := h l hl 2 _ hreturned
  rw [hlog] at hrun
  cases List.mem_singleton.1 (List.mem_of_getElem? hrun)

/-- A step that was asked for, run and answered. -/
def answeredOnce : Boundary :=
  ⟨[aStep], [.ok (.tokens [])], [0], false, ⟨[], [.run aStep (.ok (.tokens []))], [], false⟩⟩

theorem answeredOnce_reachable :
    (activationStream Step.wire StepResult.wire fun _ => .ok (.tokens [])).Reachable answeredOnce := by
  have h₁ : Boundary.step Step.wire StepResult.wire (fun _ => .ok (.tokens [])) .opened
      (.call aStep none) = some ⟨[aStep], [], [0], false, ⟨aFrame, [], [], false⟩⟩ := rfl
  have h₂ : Boundary.step Step.wire StepResult.wire (fun _ => .ok (.tokens []))
      ⟨[aStep], [], [0], false, ⟨aFrame, [], [], false⟩⟩ (.serve "") =
      some ⟨[aStep], [], [0], false, ⟨[], [.run aStep (.ok (.tokens []))],
        [3, 0, 0, 0, 0, 0, 0], false⟩⟩ := rfl
  have h₃ : Boundary.step Step.wire StepResult.wire (fun _ => .ok (.tokens []))
      ⟨[aStep], [], [0], false, ⟨[], [.run aStep (.ok (.tokens []))],
        [3, 0, 0, 0, 0, 0, 0], false⟩⟩ (.receive "") = some answeredOnce := rfl
  exact .step (.step (.step (.start rfl) h₁) h₂) h₃

/-- A stream that is in lockstep after a step, and two frames that are served in order. -/
theorem lockstep_of_answers : answeredOnce.Lockstep ∧
    ServedInOrder Step.wire StepResult.wire (fun _ => .ok (.tokens [])) (aFrame ++ aFrame) "" := by
  have hfits : answeredOnce.AnswersFit StepResult.wire := by
    intro step answer hmem
    cases List.mem_singleton.1 hmem
    show [0, 0, 0].length ≤ maxActivationFrame
    decide
  refine ⟨(lockstep_of_fits _ _ _).1 _ answeredOnce_reachable hfits, ?_⟩
  refine ((lockstep_of_fits _ _ _).2 _ _).2 fun _ _ _ _ => ?_
  show [0, 0, 0].length < 2 ^ 32
  decide

end Net

end Latticed
