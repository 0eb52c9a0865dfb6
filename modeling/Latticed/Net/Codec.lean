import Latticed.Net.Identity
import Latticed.Rust.Bytes

/-!
# Length-prefixed frames on a stream

Control and pairing messages are frames: four bytes of length, then the payload.  The transport
may split the bytes of a stream anywhere, and `read_exact` puts them together again.

* `readFrame_writeFrame` : a frame that was written is read back, and the bytes after it stay.
-/

namespace Latticed

namespace Net

/-- The receiving half of a stream: the chunks that will arrive, and why reading fails once they are
used up. -/
structure Recv where
  chunks : List Bytes
  ending : String
  deriving DecidableEq

/-- The bytes that will arrive. -/
def Recv.bytes (r : Recv) : Bytes := r.chunks.flatten

/-- Takes `n` bytes from chunks. -/
def readChunks : ℕ → List Bytes → Option (Bytes × List Bytes)
  | 0, chunks => some ([], chunks)
  | _ + 1, [] => none
  | n + 1, chunk :: chunks =>
    if n + 1 < chunk.length then some (chunk.take (n + 1), chunk.drop (n + 1) :: chunks)
    else (readChunks (n + 1 - chunk.length) chunks).map fun (bytes, rest) => (chunk ++ bytes, rest)

/-- `read_exact`. -/
def Recv.readExact (r : Recv) (n : ℕ) : Except String (Bytes × Recv) :=
  match readChunks n r.chunks with
  | some (bytes, rest) => .ok (bytes, ⟨rest, r.ending⟩)
  | none => .error r.ending

/-- `write_frame`: the bytes to write. -/
def writeFrame (payload : Bytes) : Except NetError Bytes :=
  if payload.length < 2 ^ 32 then .ok (Rust.toLeBytes 4 payload.length ++ payload)
  else .error (.stream "frame exceeds 4 GiB")

/-- The write of `write_frame` that fails, and why. -/
inductive WriteFailure where
  | length (why : String)
  | payload (why : String)

/-- What `write_frame` returns then. -/
def WriteFailure.error : WriteFailure → NetError
  | length why => .stream ("writing frame length: " ++ why)
  | payload why => .stream ("writing frame: " ++ why)

/-- How a stream fails that the other end has given up. -/
structure GivenUp where
  reading : String
  writing : WriteFailure

/-- `read_frame`. -/
def readFrame (r : Recv) (max : ℕ) : Except NetError (Bytes × Recv) :=
  match r.readExact 4 with
  | .error e => .error (.stream ("reading frame length: " ++ e))
  | .ok (header, r) =>
    let len := Rust.ofLeBytes header
    if max < len then
      .error (.stream ("peer announced a " ++ toString len ++ " byte frame, ceiling is " ++
        toString max))
    else match r.readExact len with
      | .error e => .error (.stream ("reading frame: " ++ e))
      | .ok (payload, r) => .ok (payload, r)

theorem writeFrame_of_lt {payload : Bytes} (h : payload.length < 2 ^ 32) :
    writeFrame payload = .ok (Rust.toLeBytes 4 payload.length ++ payload) := if_pos h

theorem readChunks_of_le {n : ℕ} {chunks : List Bytes} (h : n ≤ chunks.flatten.length) :
    ∃ rest, readChunks n chunks = some (chunks.flatten.take n, rest) ∧
      rest.flatten = chunks.flatten.drop n := by
  induction chunks generalizing n with
  | nil =>
    obtain rfl : n = 0 := by simpa using h
    exact ⟨[], rfl, rfl⟩
  | cons chunk chunks ih =>
    cases n with
    | zero => exact ⟨chunk :: chunks, rfl, rfl⟩
    | succ n =>
      rw [List.flatten_cons, List.length_append] at h
      rw [readChunks, List.flatten_cons]
      by_cases hlt : n + 1 < chunk.length
      · rw [if_pos hlt, List.take_append_of_le_length hlt.le, List.drop_append_of_le_length hlt.le]
        exact ⟨_, rfl, rfl⟩
      · rw [if_neg hlt, List.take_append, List.drop_append, List.take_of_length_le (not_lt.1 hlt),
          List.drop_of_length_le (not_lt.1 hlt)]
        obtain ⟨rest, hread, hrest⟩ := @ih (n + 1 - chunk.length) (by omega)
        exact ⟨rest, by rw [hread]; rfl, by rw [hrest]; rfl⟩

/-- Bytes that will arrive can be read, however they are split. -/
theorem Recv.readExact_append {r : Recv} {bytes more : Bytes} (h : r.bytes = bytes ++ more) :
    ∃ r', r.readExact bytes.length = .ok (bytes, r') ∧ r'.bytes = more ∧ r'.ending = r.ending := by
  have hflat : r.chunks.flatten = bytes ++ more := h
  obtain ⟨rest, hread, hrest⟩ := @readChunks_of_le bytes.length r.chunks
    (by rw [hflat, List.length_append]; omega)
  rw [hflat, List.take_left'] at hread
  rw [hflat, List.drop_left'] at hrest
  · exact ⟨⟨rest, r.ending⟩, by rw [readExact, hread], hrest, rfl⟩
  all_goals rfl

/-- **Frames round-trip.** -/
theorem readFrame_writeFrame {payload frame more : Bytes} {r : Recv} {max : ℕ}
    (hwrite : writeFrame payload = .ok frame) (hmax : payload.length ≤ max)
    (h : r.bytes = frame ++ more) :
    ∃ r', readFrame r max = .ok (payload, r') ∧ r'.bytes = more ∧ r'.ending = r.ending := by
  unfold writeFrame at hwrite
  split_ifs at hwrite with hlt
  obtain rfl := Except.ok.inj hwrite
  rw [List.append_assoc] at h
  obtain ⟨r₁, hheader, h₁, he₁⟩ := Recv.readExact_append h
  obtain ⟨r₂, hpayload, h₂, he₂⟩ := Recv.readExact_append h₁
  rw [Rust.length_toLeBytes] at hheader
  refine ⟨r₂, ?_, h₂, he₂.trans he₁⟩
  rw [readFrame, hheader]
  simp only [Rust.ofLeBytes_toLeBytes (show payload.length < 256 ^ 4 from hlt), if_neg hmax.not_gt,
    hpayload]

end Net

end Latticed
