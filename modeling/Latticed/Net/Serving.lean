import Latticed.Net.Activation
import Latticed.Net.Codec
import Latticed.Rust.Postcard

/-!
# The serving end of an activation stream

`serve_stream` reads a frame, decodes it, runs the step and answers, until a read fails, a frame
does not decode, the master is done or an answer cannot be written; then it frees the session.

`Carries` says which steps a byte sequence holds, without the loop: the frames that hold a step to
run, up to whatever else comes first.

* `readFlat_eq` : `read_frame` depends on the bytes that arrive, not on how they are split.
* `Carries.unique` : a byte sequence holds one list of steps.
* `servedInOrder_iff` : an executor whose answers can be sent runs those steps, in order, and then drops
  the session once.
-/

namespace Latticed

namespace Net

open Engine Rust Rust.Postcard

/-- `MAX_ACTIVATION_FRAME`. -/
def maxActivationFrame : ℕ := 512 * 2 ^ 20

/-! ### Frames in a byte sequence -/

/-- The length a frame announces. -/
def frameLen (bytes : Bytes) : ℕ := ofLeBytes (bytes.take 4)

/-- The bytes that are there do not suffice for `read_frame` to return. -/
def Short (bytes : Bytes) (max : ℕ) : Prop :=
  bytes.length < 4 ∨ frameLen bytes ≤ max ∧ bytes.length < 4 + frameLen bytes

instance (bytes : Bytes) (max : ℕ) : Decidable (Short bytes max) :=
  inferInstanceAs (Decidable (_ ∨ _ ∧ _))

/-- `read_frame` on the bytes that arrive before a stream ends, and the bytes that stay unread. -/
def readFlat (bytes : Bytes) (ending : String) (max : ℕ) : Except NetError Bytes × Bytes :=
  if bytes.length < 4 then (.error (.stream ("reading frame length: " ++ ending)), [])
  else if max < frameLen bytes then
    (.error (.stream ("peer announced a " ++ toString (frameLen bytes) ++ " byte frame, ceiling is "
      ++ toString max)), bytes.drop 4)
  else if bytes.length < 4 + frameLen bytes then
    (.error (.stream ("reading frame: " ++ ending)), [])
  else (.ok ((bytes.drop 4).take (frameLen bytes)), bytes.drop (4 + frameLen bytes))

/-- The bytes open with a frame that `read_frame` accepts. -/
def HasFrame (bytes payload rest : Bytes) (max : ℕ) : Prop :=
  bytes = toLeBytes 4 payload.length ++ payload ++ rest ∧ payload.length ≤ max ∧
    payload.length < 2 ^ 32

theorem readChunks_of_lt {n : ℕ} {chunks : List Bytes} (h : chunks.flatten.length < n) :
    readChunks n chunks = none := by
  induction chunks generalizing n with
  | nil =>
    cases n with
    | zero => simp at h
    | succ n => rfl
  | cons chunk chunks ih =>
    rw [List.flatten_cons, List.length_append] at h
    cases n with
    | zero => omega
    | succ n => rw [readChunks, if_neg (by omega), ih (by omega), Option.map_none]

theorem Recv.readExact_of_le {r : Recv} {n : ℕ} (h : n ≤ r.bytes.length) :
    ∃ r', r.readExact n = .ok (r.bytes.take n, r') ∧ r'.bytes = r.bytes.drop n ∧
      r'.ending = r.ending := by
  obtain ⟨r', hread, hrest⟩ := Recv.readExact_append (List.take_append_drop n r.bytes).symm
  rw [List.length_take, min_eq_left h] at hread
  exact ⟨r', hread, hrest⟩

theorem Recv.readExact_of_lt {r : Recv} {n : ℕ} (h : r.bytes.length < n) :
    r.readExact n = .error r.ending := by
  rw [readExact, readChunks_of_lt h]

/-- **`read_frame` reads the bytes that arrive**, however they are split. -/
theorem readFlat_eq (r : Recv) (max : ℕ) :
    (readFrame r max).map (fun x => (x.1, x.2.bytes)) =
      (readFlat r.bytes r.ending max).1.map fun payload =>
        (payload, (readFlat r.bytes r.ending max).2) := by
  rw [readFrame, readFlat]
  by_cases hshort : r.bytes.length < 4
  · rw [if_pos hshort, Recv.readExact_of_lt hshort]
    rfl
  · obtain ⟨r₁, hheader, h₁, he₁⟩ := Recv.readExact_of_le (not_lt.1 hshort)
    rw [if_neg hshort, hheader]
    simp only [← frameLen.eq_def]
    by_cases hmax : max < frameLen r.bytes
    · rw [if_pos hmax, if_pos hmax]
      rfl
    · rw [if_neg hmax, if_neg hmax]
      have hlen : r₁.bytes.length = r.bytes.length - 4 := by rw [h₁, List.length_drop]
      by_cases hpayload : r.bytes.length < 4 + frameLen r.bytes
      · rw [if_pos hpayload, Recv.readExact_of_lt (by omega), he₁]
        rfl
      · obtain ⟨r₂, hread, h₂, -⟩ := @Recv.readExact_of_le r₁ (frameLen r.bytes) (by omega)
        rw [if_neg hpayload, hread]
        simp [Except.map, h₁, h₂, List.drop_drop]

theorem frameLen_append {payload : Bytes} (h : payload.length < 2 ^ 32) (rest : Bytes) :
    frameLen (toLeBytes 4 payload.length ++ payload ++ rest) = payload.length := by
  rw [frameLen, List.append_assoc, List.take_left' (length_toLeBytes 4 _),
    ofLeBytes_toLeBytes (show payload.length < 256 ^ 4 from h)]

theorem HasFrame.readFlat {bytes payload rest : Bytes} {max : ℕ}
    (h : HasFrame bytes payload rest max) (ending : String) :
    readFlat bytes ending max = (.ok payload, rest) := by
  obtain ⟨rfl, hmax, hlt⟩ := h
  have hlen := frameLen_append hlt rest
  rw [Net.readFlat, hlen, if_neg (by simp), if_neg (by omega), if_neg (by simp)]
  rw [List.append_assoc, List.drop_left' (length_toLeBytes 4 _), List.take_left' rfl,
    ← List.append_assoc, List.drop_left' (by simp)]

theorem hasFrame_of_readFlat {bytes payload rest : Bytes} {ending : String} {max : ℕ}
    (h : readFlat bytes ending max = (.ok payload, rest)) : HasFrame bytes payload rest max := by
  rw [readFlat] at h
  split_ifs at h with hshort hmax hpayload
  · cases h
  · cases h
  · cases h
  · obtain ⟨hp, rfl⟩ := Prod.mk.inj h
    obtain rfl := Except.ok.inj hp
    have hheader : (bytes.take 4).length = 4 := by
      rw [List.length_take]
      omega
    have hlen : ((bytes.drop 4).take (frameLen bytes)).length = frameLen bytes := by
      rw [List.length_take, List.length_drop]
      omega
    have hlt : frameLen bytes < 256 ^ (bytes.take 4).length := ofLeBytes_lt _
    have hle : toLeBytes 4 (frameLen bytes) = bytes.take 4 := by
      have := toLeBytes_ofLeBytes (bytes.take 4)
      rwa [hheader] at this
    rw [hheader] at hlt
    refine ⟨?_, ?_, ?_⟩
    · rw [hlen, hle, ← List.drop_drop, List.append_assoc, List.take_append_drop,
        List.take_append_drop]
    · rw [hlen]
      exact not_lt.1 hmax
    · rw [hlen]
      exact hlt

theorem HasFrame.length_lt {bytes payload rest : Bytes} {max : ℕ}
    (h : HasFrame bytes payload rest max) : rest.length < bytes.length := by
  obtain ⟨rfl, -⟩ := h
  simp only [List.length_append, length_toLeBytes]
  omega

theorem hasFrame_of_writeFrame {payload frame : Bytes} {max : ℕ} (h : writeFrame payload = .ok frame)
    (hmax : payload.length ≤ max) : HasFrame frame payload [] max := by
  unfold writeFrame at h
  split_ifs at h with hlt
  obtain rfl := Except.ok.inj h
  exact ⟨(List.append_nil _).symm, hmax, hlt⟩

theorem HasFrame.not_short {bytes payload rest : Bytes} {max : ℕ}
    (h : HasFrame bytes payload rest max) : ¬ Short bytes max := by
  obtain ⟨rfl, -, hlt⟩ := h
  rw [Short, frameLen_append hlt]
  simp

theorem frameLen_cons (a b c d : UInt8) (rest : Bytes) :
    frameLen (a :: b :: c :: d :: rest) = ofLeBytes [a, b, c, d] := rfl

theorem readFlat_ceiling {bytes : Bytes} {max : ℕ} (hlen : 4 ≤ bytes.length)
    (hmax : max < frameLen bytes) (ending : String) :
    ¬ Short bytes max ∧ ∃ e, readFlat bytes ending max = (.error e, bytes.drop 4) := by
  refine ⟨fun h => ?_, ?_⟩
  · unfold Short at h
    omega
  · rw [readFlat, if_neg (by omega), if_pos hmax]
    exact ⟨_, rfl⟩

theorem readFlat_of_gt {payload frame : Bytes} {max : ℕ} (h : writeFrame payload = .ok frame)
    (hmax : max < payload.length) (ending : String) :
    ∃ e, readFlat frame ending max = (.error e, payload) := by
  unfold writeFrame at h
  split_ifs at h with hlt
  obtain rfl := Except.ok.inj h
  have hlen := frameLen_append hlt []
  rw [List.append_nil] at hlen
  have hfour : 4 ≤ (toLeBytes 4 payload.length ++ payload).length := by simp
  obtain ⟨-, e, hread⟩ := readFlat_ceiling hfour (by rwa [hlen]) ending
  rw [List.drop_left' (length_toLeBytes 4 _)] at hread
  exact ⟨e, hread⟩

/-- What was written as a frame decodes. -/
theorem decode_of_writeFrame {α : Type} {w : Wire α} {a : α} {frame : Bytes}
    (h : writeFrame (w.write a) = .ok frame) : w.decode (w.write a) = .ok a := by
  unfold writeFrame at h
  split_ifs at h with hlt
  exact w.decode_write (by omega)

theorem readFlat_nil (ending : String) (max : ℕ) :
    readFlat [] ending max = (.error (.stream ("reading frame length: " ++ ending)), []) := rfl

theorem short_nil (max : ℕ) : Short [] max := .inl (by decide)

/-! ### The loop -/

/-- What `serve_stream` asks of the executor, and what it got. -/
inductive ExecutorCall where
  /-- `executor.run`. -/
  | run (step : Step) (answer : Except String Payload)
  /-- `executor.drop_session`. -/
  | dropSession

/-- One run of `serve_stream`. -/
structure Serving where
  /-- What the master wrote and `serve_stream` has not read. -/
  unread : Bytes
  /-- The calls of the executor, in order. -/
  log : List ExecutorCall
  /-- What was written back and the master has not read. -/
  out : Bytes
  /-- The loop was left. -/
  ended : Bool

section

variable (steps : Wire Step) (results : Wire StepResult)

/-- `reply`: the bytes to write. -/
def reply (result : StepResult) : Except NetError Bytes := writeFrame (results.write result)

/-- One round of the loop of `serve_stream`, when the bytes that are there are followed by `ending`
and the executor answers `answer` if it is asked. -/
def serveRound (answer : Except String Payload) (ending : String) (s : Serving) : Serving :=
  let (frame, rest) := readFlat s.unread ending maxActivationFrame
  match serveRead (frame.toOption.map steps.decode) with
  | .run step =>
    match reply results (.ofExcept answer) with
    | .ok bytes => ⟨rest, s.log ++ [.run step answer], s.out ++ bytes, false⟩
    | .error _ => ⟨rest, s.log ++ [.run step answer, .dropSession], s.out, true⟩
  | .stop none => ⟨rest, s.log ++ [.dropSession], s.out, true⟩
  | .stop (some result) =>
    ⟨rest, s.log ++ [.dropSession], s.out ++ ((reply results result).toOption.getD []), true⟩

/-- The frame at the front, if any, does not hold a step to run. -/
def NoStep (bytes : Bytes) : Prop :=
  ∀ payload rest step, HasFrame bytes payload rest maxActivationFrame →
    steps.decode payload = .ok step → step = .done

/-- The steps that the frames of a byte sequence hold, up to the first `Done`, the first frame that
is malformed, or the end. -/
inductive Carries : Bytes → List Step → Prop
  | ended {bytes : Bytes} : NoStep steps bytes → Carries bytes []
  | step {bytes payload rest : Bytes} {step : Step} {more : List Step} :
    HasFrame bytes payload rest maxActivationFrame → steps.decode payload = .ok step →
    step ≠ .done → Carries rest more → Carries bytes (step :: more)

variable {steps results}

/-- What a round does when the bytes open with a step to run. -/
theorem serveRound_step {s : Serving} {payload rest : Bytes} {step : Step}
    {answer : Except String Payload} {ending : String} {bytes : Bytes}
    (hframe : HasFrame s.unread payload rest maxActivationFrame)
    (hstep : steps.decode payload = .ok step) (hdone : step ≠ .done)
    (hreply : reply results (.ofExcept answer) = .ok bytes) :
    serveRound steps results answer ending s =
      ⟨rest, s.log ++ [.run step answer], s.out ++ bytes, false⟩ := by
  rw [serveRound, hframe.readFlat]
  simp only [Except.toOption, Option.map_some, hstep]
  cases step with
  | prefill pos input => simp only [serveRead, hreply]
  | decode pos input => simp only [serveRead, hreply]
  | done => exact absurd rfl hdone

/-- What a round does when the answer to the step cannot be written. -/
theorem serveRound_unsent {s : Serving} {payload rest : Bytes} {step : Step}
    {answer : Except String Payload} {ending : String} {e : NetError}
    (hframe : HasFrame s.unread payload rest maxActivationFrame)
    (hstep : steps.decode payload = .ok step) (hdone : step ≠ .done)
    (hreply : reply results (.ofExcept answer) = .error e) :
    serveRound steps results answer ending s =
      ⟨rest, s.log ++ [.run step answer, .dropSession], s.out, true⟩ := by
  rw [serveRound, hframe.readFlat]
  simp only [Except.toOption, Option.map_some, hstep]
  cases step with
  | prefill pos input => simp only [serveRead, hreply]
  | decode pos input => simp only [serveRead, hreply]
  | done => exact absurd rfl hdone

/-- What a round does when there is no frame to read. -/
theorem serveRound_failed {s : Serving} {answer : Except String Payload} {ending : String}
    {e : NetError} {rest : Bytes}
    (h : readFlat s.unread ending maxActivationFrame = (.error e, rest)) :
    serveRound steps results answer ending s = ⟨rest, s.log ++ [.dropSession], s.out, true⟩ := by
  rw [serveRound, h]
  rfl

/-- What a round does with `Done`. -/
theorem serveRound_done {s : Serving} {answer : Except String Payload} {ending : String}
    {payload rest : Bytes} (hframe : HasFrame s.unread payload rest maxActivationFrame)
    (hstep : steps.decode payload = .ok .done) :
    serveRound steps results answer ending s = ⟨rest, s.log ++ [.dropSession], s.out, true⟩ := by
  rw [serveRound, hframe.readFlat]
  simp only [Except.toOption, Option.map_some, hstep]
  rfl

/-- What a round does when the bytes do not open with a step to run. -/
theorem serveRound_ended {s : Serving} {answer : Except String Payload} {ending : String}
    (h : NoStep steps s.unread) :
    (serveRound steps results answer ending s).log = s.log ++ [.dropSession] ∧
      (serveRound steps results answer ending s).ended = true := by
  rw [serveRound]
  rcases hread : readFlat s.unread ending maxActivationFrame with ⟨e | payload, rest⟩
  · exact ⟨rfl, rfl⟩
  · simp only [Except.toOption, Option.map_some]
    rcases hstep : steps.decode payload with e | step
    · exact ⟨rfl, rfl⟩
    · obtain rfl := h payload rest step (hasFrame_of_readFlat hread) hstep
      exact ⟨rfl, rfl⟩

/-- What the executor has done stays done. -/
theorem serveRound_log {s : Serving} {answer : Except String Payload} {ending : String} :
    s.log <+: (serveRound steps results answer ending s).log := by
  unfold serveRound
  dsimp only
  split
  · split <;> exact List.prefix_append _ _
  · exact List.prefix_append _ _
  · exact List.prefix_append _ _

/-- A round that does not leave the loop has read a frame. -/
theorem serveRound_shrinks {s : Serving} {answer : Except String Payload} {ending : String}
    (h : (serveRound steps results answer ending s).ended = false) :
    (serveRound steps results answer ending s).unread.length < s.unread.length := by
  by_cases hno : NoStep steps s.unread
  · rw [(serveRound_ended hno).2] at h
    cases h
  · simp only [NoStep, not_forall, exists_prop] at hno
    obtain ⟨payload, rest, step, hframe, hstep, hdone⟩ := hno
    cases hreply : reply results (.ofExcept answer) with
    | ok bytes =>
      rw [serveRound_step hframe hstep hdone hreply]
      exact hframe.length_lt
    | error e =>
      rw [serveRound_unsent hframe hstep hdone hreply] at h
      cases h

variable (steps results)

/-- The loop of `serve_stream` from a state on. -/
def serveLoop (answers : ℕ → Except String Payload) (ending : String) (s : Serving) : Serving :=
  if _h : (serveRound steps results (answers s.log.length) ending s).ended = false then
    serveLoop answers ending (serveRound steps results (answers s.log.length) ending s)
  else serveRound steps results (answers s.log.length) ending s
  termination_by s.unread.length
  decreasing_by exact serveRound_shrinks _h

/-- `serve_stream` on the bytes that arrive before the stream ends; `answers` are the executor's, in
the order of its calls. -/
def serveStream (answers : ℕ → Except String Payload) (bytes : Bytes) (ending : String) : Serving :=
  serveLoop steps results answers ending ⟨bytes, [], [], false⟩

/-- The executor's answer fits the frame it is sent in. -/
def Fits (answer : Except String Payload) : Prop :=
  (results.write (.ofExcept answer)).length ≤ maxActivationFrame

/-- The executor's answer is written at all. -/
def Sendable (answer : Except String Payload) : Prop :=
  (results.write (.ofExcept answer)).length < 2 ^ 32

/-- The executor runs once for each step that the bytes hold, in order, and then drops the session,
once. -/
def ServedInOrder (answers : ℕ → Except String Payload) (bytes : Bytes) (ending : String) : Prop :=
  ∃ carried, Carries steps bytes carried ∧
    (serveStream steps results answers bytes ending).log =
      (carried.mapIdx fun n step => .run step (answers n)) ++ [.dropSession]

variable {steps results}

theorem Sendable.reply {answer : Except String Payload} (h : Sendable results answer) :
    reply results (.ofExcept answer) =
      .ok (toLeBytes 4 (results.write (.ofExcept answer)).length ++
        results.write (.ofExcept answer)) := writeFrame_of_lt h

theorem reply_of_not_sendable {answer : Except String Payload} (h : ¬ Sendable results answer) :
    ∃ e, reply results (.ofExcept answer) = .error e := ⟨_, if_neg h⟩

theorem Fits.sendable {answer : Except String Payload} (h : Fits results answer) :
    Sendable results answer := by
  have hle : (results.write (.ofExcept answer)).length ≤ 512 * 2 ^ 20 := h
  exact Nat.lt_of_le_of_lt hle (by decide)

theorem HasFrame.unique {bytes p₁ p₂ r₁ r₂ : Bytes} {max : ℕ} (h₁ : HasFrame bytes p₁ r₁ max)
    (h₂ : HasFrame bytes p₂ r₂ max) : p₁ = p₂ ∧ r₁ = r₂ := by
  have h := (h₁.readFlat "").symm.trans (h₂.readFlat "")
  exact ⟨Except.ok.inj (Prod.mk.inj h).1, (Prod.mk.inj h).2⟩

theorem noStep_nil (steps : Wire Step) : NoStep steps [] := fun _ _ _ hframe =>
  absurd hframe.length_lt (Nat.not_lt_zero _)

/-- Every byte sequence holds some list of steps. -/
theorem exists_carries (steps : Wire Step) (bytes : Bytes) :
    ∃ carried, Carries steps bytes carried := by
  induction hlen : bytes.length using Nat.strong_induction_on generalizing bytes with
  | _ n ih =>
    by_cases hno : NoStep steps bytes
    · exact ⟨[], .ended hno⟩
    · simp only [NoStep, not_forall, exists_prop] at hno
      obtain ⟨payload, rest, step, hframe, hstep, hdone⟩ := hno
      obtain ⟨more, hmore⟩ := ih rest.length (hlen ▸ hframe.length_lt) rest rfl
      exact ⟨step :: more, .step hframe hstep hdone hmore⟩

/-- A byte sequence holds one list of steps. -/
theorem Carries.unique {bytes : Bytes} {l₁ l₂ : List Step} (h₁ : Carries steps bytes l₁)
    (h₂ : Carries steps bytes l₂) : l₁ = l₂ := by
  induction h₁ generalizing l₂ with
  | ended hno =>
    cases h₂ with
    | ended => rfl
    | step hframe hstep hdone => exact absurd (hno _ _ _ hframe hstep) hdone
  | step hframe hstep hdone _ ih =>
    cases h₂ with
    | ended hno => exact absurd (hno _ _ _ hframe hstep) hdone
    | step hframe' hstep' _ hmore =>
      obtain ⟨rfl, rfl⟩ := hframe.unique hframe'
      rw [hstep] at hstep'
      rw [Except.ok.inj hstep', ih hmore]

/-- The loop on the steps that the unread bytes hold: it serves them all just if it can send every
answer but the last. -/
theorem serveLoop_carries {answers : ℕ → Except String Payload} {bytes : Bytes}
    {carried : List Step} (h : Carries steps bytes carried) (log : List ExecutorCall) (out : Bytes)
    (ending : String) :
    (serveLoop steps results answers ending ⟨bytes, log, out, false⟩).log =
        log ++ (carried.mapIdx fun n step => .run step (answers (log.length + n))) ++
          [.dropSession] ↔
      ∀ n, n + 1 < carried.length → Sendable results (answers (log.length + n)) := by
  induction h generalizing log out with
  | ended hno =>
    obtain ⟨hlog, hended⟩ := @serveRound_ended _ results ⟨_, log, out, false⟩
      (answers log.length) ending hno
    rw [serveLoop, dif_neg (by rw [hended]; decide), hlog]
    simp
  | @step bytes payload rest step more hframe hstep hdone _ ih =>
    by_cases hsend : Sendable results (answers log.length)
    · -- the answer is sent, and the loop goes on
      have hround := @serveRound_step _ _ ⟨_, log, out, false⟩ _ _ _ _ ending _ hframe hstep hdone
        hsend.reply
      have hrest := @ih (log ++ [.run step (answers log.length)])
        (out ++ (toLeBytes 4 (results.write (.ofExcept (answers log.length))).length ++
          results.write (.ofExcept (answers log.length))))
      rw [serveLoop, dif_pos (by rw [hround]), hround]
      simp only [List.length_append, List.length_singleton, List.append_assoc,
        List.nil_append, List.mapIdx_cons, List.cons_append, Nat.add_zero, Nat.add_assoc,
        Nat.add_comm 1] at hrest ⊢
      rw [hrest]
      constructor
      · intro hmore n hn
        cases n with
        | zero => exact hsend
        | succ n => exact hmore n (Nat.lt_of_succ_lt_succ hn)
      · intro hall n hn
        exact hall (n + 1) (Nat.succ_lt_succ hn)
    · -- the loop ends with the answer that is too long
      obtain ⟨e, hreply⟩ := reply_of_not_sendable hsend
      have hround := @serveRound_unsent _ _ ⟨_, log, out, false⟩ _ _ _ _ ending _ hframe hstep hdone
        hreply
      rw [serveLoop, dif_neg (by rw [hround]; exact Bool.noConfusion), hround]
      cases more with
      | nil => simp
      | cons next more =>
        refine iff_of_false (fun heq => ?_) fun hall => hsend (hall 0 (by simp))
        have hlen := congrArg List.length heq
        simp at hlen

/-- **When the executor serves the stream**: it can send every answer but the last. -/
theorem servedInOrder_iff {answers : ℕ → Except String Payload} {bytes : Bytes} {ending : String} :
    ServedInOrder steps results answers bytes ending ↔ ∀ carried, Carries steps bytes carried →
      ∀ n, n + 1 < carried.length → Sendable results (answers n) := by
  have hloop (carried : List Step) (h : Carries steps bytes carried) :=
    @serveLoop_carries _ results answers _ _ h [] [] ending
  simp only [List.nil_append, List.length_nil, Nat.zero_add] at hloop
  constructor
  · rintro ⟨carried, h, hlog⟩ carried' h'
    obtain rfl := h.unique h'
    exact (hloop carried h).1 hlog
  · intro hall
    obtain ⟨carried, h⟩ := exists_carries steps bytes
    exact ⟨carried, h, (hloop carried h).2 (hall carried h)⟩

end

end Net

end Latticed
