import Latticed.Net.Serving

/-!
# Frames on one stream

Every exchange on a stream is a sequence of frames, one after the other.  Each is written and read on its
own, and a length prefix may lie.

* `readFrames_writeFrames` : frames that were written are read back in order, and what follows stays.
* `readFrame_cases` : what `read_frame` makes of any bytes.
* `frames_round_trip` : both, and no buffer is larger than the ceiling.
-/

namespace Latticed

namespace Net

open Rust

/-- `write_frame`, once for each payload. -/
def writeFrames : List Bytes → Except NetError Bytes
  | [] => .ok []
  | payload :: payloads => do
    let frame ← writeFrame payload
    let frames ← writeFrames payloads
    return frame ++ frames

/-- `read_frame`, as many times as asked for. -/
def readFrames (max : ℕ) : ℕ → Recv → Except NetError (List Bytes × Recv)
  | 0, r => .ok ([], r)
  | n + 1, r => do
    let (payload, r) ← readFrame r max
    let (payloads, r) ← readFrames max n r
    return (payload :: payloads, r)

/-- `read_frame` with the buffers it asks for.  The four bytes of the length are on the stack. -/
def readFrameBuffers (r : Recv) (max : ℕ) : Except NetError (Bytes × Recv) × List ℕ :=
  match r.readExact 4 with
  | .error e => (.error (.stream ("reading frame length: " ++ e)), [])
  | .ok (header, r) =>
    let len := ofLeBytes header
    if max < len then
      (.error (.stream ("peer announced a " ++ toString len ++ " byte frame, ceiling is " ++
        toString max)), [])
    else match r.readExact len with
      | .error e => (.error (.stream ("reading frame: " ++ e)), [len])
      | .ok (payload, r) => (.ok (payload, r), [len])

variable {r r' : Recv} {max : ℕ} {payloads : List Bytes} {payload frames more : Bytes}

/-! ### A sequence of frames -/

/-- Payloads below the ceiling can be written. -/
theorem exists_writeFrames (hmax : max < 2 ^ 32) (hle : ∀ payload ∈ payloads, payload.length ≤ max) :
    ∃ frames, writeFrames payloads = .ok frames := by
  induction payloads with
  | nil => exact ⟨[], rfl⟩
  | cons payload payloads ih =>
    have hlt : payload.length < 2 ^ 32 := (hle payload List.mem_cons_self).trans_lt hmax
    obtain ⟨frames, hframes⟩ := ih fun p hp => hle p (List.mem_cons_of_mem payload hp)
    refine ⟨toLeBytes 4 payload.length ++ payload ++ frames, ?_⟩
    rw [writeFrames, writeFrame_of_lt hlt, hframes]
    rfl

/-- **Frames that were written are read back in order**, however their bytes arrive, and the bytes after
them stay. -/
theorem readFrames_writeFrames (hle : ∀ payload ∈ payloads, payload.length ≤ max)
    (hwrite : writeFrames payloads = .ok frames) (h : r.bytes = frames ++ more) :
    ∃ r', readFrames max payloads.length r = .ok (payloads, r') ∧ r'.bytes = more ∧
      r'.ending = r.ending := by
  induction payloads generalizing r frames with
  | nil =>
    cases hwrite
    exact ⟨r, rfl, h, rfl⟩
  | cons payload payloads ih =>
    obtain ⟨frame, hframe, hwrite⟩ := bind_eq_ok.1 hwrite
    obtain ⟨rest, hrest, heq⟩ := bind_eq_ok.1 hwrite
    cases heq
    rw [List.append_assoc] at h
    obtain ⟨r₁, hread, h₁, he₁⟩ :=
      readFrame_writeFrame hframe (hle payload List.mem_cons_self) h
    obtain ⟨r₂, hreads, h₂, he₂⟩ :=
      ih (fun p hp => hle p (List.mem_cons_of_mem payload hp)) hrest h₁
    refine ⟨r₂, ?_, h₂, he₂.trans he₁⟩
    rw [List.length_cons, readFrames, hread]
    show (readFrames max payloads.length r₁ >>= _) = _
    rw [hreads]
    rfl

/-! ### A frame that may lie -/

/-- The buffers do not change what is read. -/
theorem readFrameBuffers_fst (r : Recv) (max : ℕ) : (readFrameBuffers r max).1 = readFrame r max := by
  unfold readFrameBuffers readFrame
  cases r.readExact 4 with
  | error e => rfl
  | ok header =>
    dsimp only
    split_ifs
    · rfl
    · cases header.2.readExact (ofLeBytes header.1) <;> rfl

/-- **No buffer is larger than the ceiling.** -/
theorem readFrameBuffers_le (r : Recv) (max : ℕ) : ∀ len ∈ (readFrameBuffers r max).2, len ≤ max := by
  unfold readFrameBuffers
  cases r.readExact 4 with
  | error e => exact fun len hlen => by cases hlen
  | ok header =>
    dsimp only
    split_ifs with hmax
    · exact fun len hlen => by cases hlen
    · intro len hlen
      have hannounced : len = ofLeBytes header.1 := by
        revert hlen
        cases header.2.readExact (ofLeBytes header.1) <;> exact List.mem_singleton.1
      rw [hannounced]
      exact not_lt.1 hmax

/-- A frame that is returned opens the bytes that arrive. -/
theorem hasFrame_of_readFrame (h : readFrame r max = .ok (payload, r')) :
    HasFrame r.bytes payload r'.bytes max := by
  have hflat := readFlat_eq r max
  rw [h] at hflat
  obtain ⟨payload', hresult, heq⟩ := map_eq_ok.1 hflat.symm
  obtain ⟨rfl, hrest⟩ := Prod.mk.inj heq
  have hread : readFlat r.bytes r.ending max = (.ok payload', r'.bytes) := by
    rw [← hresult, ← hrest]
  exact hasFrame_of_readFlat hread

/-- **What `read_frame` makes of any bytes**: the announced bytes, which the ceiling admits, or an error,
because they are not all there or the ceiling does not admit them. -/
theorem readFrame_cases (r : Recv) (max : ℕ) :
    (∃ payload r', readFrame r max = .ok (payload, r') ∧ payload.length = frameLen r.bytes ∧
      payload.length ≤ max ∧ r.bytes = toLeBytes 4 payload.length ++ payload ++ r'.bytes) ∨
    (∃ e, readFrame r max = .error e) ∧ (Short r.bytes max ∨ max < frameLen r.bytes) := by
  cases hread : readFrame r max with
  | ok x =>
    obtain ⟨payload, r'⟩ := x
    obtain ⟨hbytes, hmax, hlt⟩ := hasFrame_of_readFrame hread
    refine Or.inl ⟨payload, r', rfl, ?_, hmax, hbytes⟩
    rw [hbytes]
    exact (frameLen_append hlt r'.bytes).symm
  | error e =>
    refine Or.inr ⟨⟨e, rfl⟩, ?_⟩
    by_contra hnot
    obtain ⟨hshort, hmax⟩ := not_or.1 hnot
    -- otherwise the bytes of the frame are all there
    have hframe : ∃ payload rest, readFlat r.bytes r.ending max = (.ok payload, rest) := by
      unfold Short at hshort
      unfold readFlat
      rw [if_neg (by omega), if_neg hmax, if_neg (by omega)]
      exact ⟨_, _, rfl⟩
    obtain ⟨payload, rest, hflat⟩ := hframe
    have heq := readFlat_eq r max
    rw [hread, hflat] at heq
    cases heq

/-- **Frames round-trip on any stream**, and bytes that are no frame cost no more than the ceiling. -/
theorem frames_round_trip :
    (∀ max < 2 ^ 32, ∀ payloads : List Bytes, (∀ payload ∈ payloads, payload.length ≤ max) →
      ∃ frames, writeFrames payloads = .ok frames ∧
        ∀ (more : Bytes) (r : Recv), r.bytes = frames ++ more →
          ∃ r', readFrames max payloads.length r = .ok (payloads, r') ∧ r'.bytes = more ∧
            r'.ending = r.ending) ∧
    ∀ (r : Recv) (max : ℕ), (readFrameBuffers r max).1 = readFrame r max ∧
      (∀ len ∈ (readFrameBuffers r max).2, len ≤ max) ∧
      ((∃ payload r', readFrame r max = .ok (payload, r') ∧ payload.length = frameLen r.bytes ∧
        payload.length ≤ max ∧ r.bytes = toLeBytes 4 payload.length ++ payload ++ r'.bytes) ∨
      (∃ e, readFrame r max = .error e) ∧ (Short r.bytes max ∨ max < frameLen r.bytes)) := by
  refine ⟨fun max hmax payloads hle => ?_, fun r max => ?_⟩
  · obtain ⟨frames, hwrite⟩ := exists_writeFrames hmax hle
    exact ⟨frames, hwrite, fun more r h => readFrames_writeFrames hle hwrite h⟩
  · exact ⟨readFrameBuffers_fst r max, readFrameBuffers_le r max, readFrame_cases r max⟩

/-- Three frames, one of them empty, that arrive in pieces with a byte after them. -/
theorem frames_round_trip_pieces :
    let r : Recv := ⟨[[1, 0], [0, 0, 7, 0, 0], [], [0, 0, 2, 0], [0, 0, 8, 9, 5]], "reset"⟩
    ∃ r', readFrames 16 3 r = .ok ([[7], [], [8, 9]], r') ∧ r'.bytes = [5] := by
  intro r
  obtain ⟨frames, hwrite, hread⟩ := frames_round_trip.1 16 (by decide) [[7], [], [8, 9]] (by decide)
  obtain rfl : [1, 0, 0, 0, 7, 0, 0, 0, 0, 2, 0, 0, 0, 8, 9] = frames := Except.ok.inj hwrite
  obtain ⟨r', hreads, hrest, -⟩ := hread [5] r rfl
  exact ⟨r', hreads, hrest⟩

end Net

end Latticed
