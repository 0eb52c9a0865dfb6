import Latticed.Daemon.Runtime
import Mathlib.Data.List.Induction

/-!
# What child processes say

The daemon starts two programs of the engine.  One lists the GPUs and ends; what it says is read to its
end, so that it never has to wait for the reader, but only the first mebibyte is kept.  The other serves
the GPU for a long time; what it says is kept in a file, which is begun anew when it would grow longer
than a mebibyte.  Both are read in pieces that end anywhere.

* `devices_eq_ok` : which GPUs are listed, whatever the pieces are.
* `serverLog_tail` : what is in the file.
-/

namespace Latticed

namespace Daemon

open Net Rust

/-- What a read gives that is not at the end. -/
abbrev Chunk := { bytes : Bytes // 0 < bytes.length ∧ bytes.length ≤ 8192 }

/-- What is read, one piece after the other, until the end. -/
abbrev Reads := List (Except String Chunk)

/-- What has been said. -/
def said (chunks : List Chunk) : Bytes := (chunks.map Subtype.val).flatten

/-- `1024 * 1024`. -/
def mebibyte : ℕ := 1024 * 1024

/-! ### The list of the GPUs -/

/-- The loop of `drain`, with its `output` so far. -/
def drainFrom (output : Bytes) : Reads → Except String Bytes
  | [] => .ok output
  | .error why :: _ => .error why
  | .ok chunk :: rest =>
    let keep := min chunk.val.length (mebibyte - output.length)
    drainFrom (output ++ chunk.val.take keep) rest

/-- `drain`. -/
def drain (reads : Reads) : Except String Bytes := drainFrom [] reads

/-- What comes of running `lattice-engine-info`. -/
structure HelperRun where
  spawn : Except String Unit
  stdout : Reads
  stderr : Reads
  /-- What `try_wait` returns, time after time: whether the program has ended well, if it has ended; and
  whether the deadline has passed then. -/
  polls : List (Except String (Option Bool) × Bool)

/-- The loop that waits for the program. -/
def awaitExit : List (Except String (Option Bool) × Bool) → Except String (Option Bool)
  | [] => .ok none
  | (.error why, _) :: _ => .error why
  | (.ok (some success), _) :: _ => .ok (some success)
  | (.ok none, late) :: rest => if late then .ok none else awaitExit rest

/-- `Engine::devices`; `lossy` is `from_utf8_lossy`. -/
def devices (lossy : Bytes → String) (decode : Bytes → Except String (List GpuDevice))
    (run : HelperRun) : Except String (List GpuDevice) := do
  run.spawn.mapError fun _ => "detecting inference GPUs"
  let status ← awaitExit run.polls
  let stdout ← drain run.stdout
  let stderr ← drain run.stderr
  match status with
  | none => .error "GPU discovery timed out; check the GPU driver installation"
  | some false => .error ("GPU detection failed: " ++ lossy stderr)
  | some true => (decode stdout).mapError fun _ => "invalid GPU discovery output"

/-- Cutting a piece off before it is added is cutting off the whole. -/
theorem take_keep {n : ℕ} {output : Bytes} (h : output.length ≤ n) (piece rest : Bytes) :
    (output ++ piece.take (min piece.length (n - output.length)) ++ rest).take n =
      (output ++ (piece ++ rest)).take n := by
  rcases le_total piece.length (n - output.length) with hle | hle
  · rw [min_eq_left hle, List.take_length, List.append_assoc]
  · have hlength : (output ++ piece.take (n - output.length)).length = n := by
      rw [List.length_append, List.length_take, min_eq_left hle]
      omega
    rw [min_eq_right hle, List.take_left' hlength, List.take_append, List.take_of_length_le h,
      List.take_append_of_le_length hle]

/-- **What is kept** is the beginning of what was said. -/
theorem drainFrom_chunks (chunks : List Chunk) (output : Bytes) (h : output.length ≤ mebibyte) :
    drainFrom output (chunks.map .ok) = .ok ((output ++ said chunks).take mebibyte) := by
  induction chunks generalizing output with
  | nil =>
    rw [said, List.map_nil, List.map_nil, List.flatten_nil, List.append_nil, List.take_of_length_le h]
    rfl
  | cons chunk chunks ih =>
    have hlength : (output ++ chunk.val.take (min chunk.val.length (mebibyte - output.length))).length ≤
        mebibyte := by
      rw [List.length_append, List.length_take]
      omega
    rw [List.map_cons, drainFrom, ih _ hlength, take_keep h]
    rfl

theorem drain_chunks (chunks : List Chunk) :
    drain (chunks.map .ok) = .ok ((said chunks).take mebibyte) :=
  drainFrom_chunks chunks [] (Nat.zero_le _)

/-- The program has ended well, before it was given up. -/
def EndsWell (polls : List (Except String (Option Bool) × Bool)) : Prop :=
  ∃ before late after, polls = before ++ (.ok (some true), late) :: after ∧
    ∀ poll ∈ before, poll = (.ok none, false)

theorem awaitExit_eq_success {polls : List (Except String (Option Bool) × Bool)} :
    awaitExit polls = .ok (some true) ↔ EndsWell polls := by
  induction polls with
  | nil =>
    refine iff_of_false (fun h => by cases h) ?_
    rintro ⟨before, late, after, hsplit, -⟩
    simp at hsplit
  | cons poll polls ih =>
    have hfirst (hne : poll ≠ (.ok none, false)) (hnot : ∀ late, poll ≠ (.ok (some true), late)) :
        ¬ EndsWell (poll :: polls) := by
      rintro ⟨before, late, after, hsplit, hbefore⟩
      cases before with
      | nil => exact hnot late (List.cons.inj hsplit).1
      | cons first before =>
        obtain ⟨rfl, -⟩ := List.cons.inj hsplit
        exact hne (hbefore _ List.mem_cons_self)
    match poll with
    | (.error why, late) => exact iff_of_false (fun h => by cases h) (hfirst nofun nofun)
    | (.ok (some false), late) => exact iff_of_false (fun h => by cases h) (hfirst nofun nofun)
    | (.ok (some true), late) => exact iff_of_true rfl ⟨[], late, polls, rfl, nofun⟩
    | (.ok none, true) => exact iff_of_false (fun h => by cases h) (hfirst nofun nofun)
    | (.ok none, false) =>
      refine ih.trans ⟨?_, ?_⟩
      · rintro ⟨before, late, after, rfl, hbefore⟩
        exact ⟨_ :: before, late, after, rfl, List.forall_mem_cons.2 ⟨rfl, hbefore⟩⟩
      · rintro ⟨before, late, after, hsplit, hbefore⟩
        cases before with
        | nil => cases (List.cons.inj hsplit).1
        | cons first before =>
          obtain ⟨-, rfl⟩ := List.cons.inj hsplit
          exact ⟨before, late, after, rfl, fun poll hpoll => hbefore _ (List.mem_cons_of_mem _ hpoll)⟩

section

variable {lossy : Bytes → String} {decode : Bytes → Except String (List GpuDevice)}
  {spawn : Except String Unit} {out err : List Chunk} {polls : List (Except String (Option Bool) × Bool)}
  {gpus : List GpuDevice}

/-- A list is what a program has said that has ended well. -/
theorem endsWell_of_devices (h : devices lossy decode ⟨spawn, out.map .ok, err.map .ok, polls⟩ = .ok gpus) :
    spawn = .ok () ∧ EndsWell polls := by
  unfold devices at h
  dsimp only at h
  rw [drain_chunks, drain_chunks] at h
  rw [← awaitExit_eq_success]
  cases spawn with
  | error why => cases h
  | ok u =>
    cases hexit : awaitExit polls with
    | error why =>
      rw [hexit] at h
      cases h
    | ok status =>
      rw [hexit] at h
      match status with
      | none => cases h
      | some false => cases h
      | some true => exact ⟨rfl, rfl⟩

theorem devices_of_endsWell (h : EndsWell polls) :
    devices lossy decode ⟨.ok (), out.map .ok, err.map .ok, polls⟩ =
      (decode ((said out).take mebibyte)).mapError fun _ => "invalid GPU discovery output" := by
  unfold devices
  dsimp only
  rw [drain_chunks, drain_chunks, awaitExit_eq_success.2 h]
  rfl

end

/-- **Which GPUs are listed**: those that the first mebibyte of the output decodes to, if the program ends
well in time; where the pieces end, and what else was said, makes no difference. -/
theorem devices_eq_ok (lossy : Bytes → String) (decode : Bytes → Except String (List GpuDevice))
    (spawn : Except String Unit) (out err : List Chunk)
    (polls : List (Except String (Option Bool) × Bool)) (gpus : List GpuDevice) :
    devices lossy decode ⟨spawn, out.map .ok, err.map .ok, polls⟩ = .ok gpus ↔
      spawn = .ok () ∧ EndsWell polls ∧ decode ((said out).take mebibyte) = .ok gpus := by
  constructor
  · intro h
    obtain ⟨rfl, hwell⟩ := endsWell_of_devices h
    rw [devices_of_endsWell hwell] at h
    exact ⟨rfl, hwell, mapError_eq_ok.1 h⟩
  · rintro ⟨rfl, hwell, hdecode⟩
    rw [devices_of_endsWell hwell]
    exact mapError_eq_ok.2 hdecode

/-! ### The log of the server -/

/-- The log of the RPC server, and the thread that writes it. -/
structure ServerLog where
  file : Bytes
  written : ℕ
  /-- The thread reads on. -/
  reading : Bool

/-- What comes of the operations on the file, for a piece. -/
structure LogIo where
  setLen : Bool
  rewind : Bool
  /-- How much is written before the writing fails, if it does. -/
  write : Option ℕ

/-- The file has been created. -/
def ServerLog.created : ServerLog := ⟨[], 0, true⟩

/-- `write_all`, of a piece. -/
def ServerLog.writeAll (log : ServerLog) (chunk : Chunk) : Option ℕ → ServerLog
  | none =>
    { log with file := log.file ++ chunk.val, written := log.written + chunk.val.length }
  | some n => { log with file := log.file ++ chunk.val.take n, reading := false }

/-- The loop of the thread. -/
def ServerLog.push (log : ServerLog) : Chunk × LogIo → ServerLog
  | (chunk, io) =>
    if !log.reading then log
    else if log.written + chunk.val.length > mebibyte then
      if !io.setLen then { log with reading := false }
      else if !io.rewind then { log with file := [], reading := false }
      else ServerLog.writeAll { log with file := [], written := 0 } chunk io.write
    else log.writeAll chunk io.write

/-- The log after some reads. -/
def serverLog (reads : List (Chunk × LogIo)) : ServerLog := reads.foldl ServerLog.push .created

/-- What holds of the log when `before` has been said. -/
structure ServerLog.Inv (before : Bytes) (log : ServerLog) : Prop where
  part : log.file <:+: before
  short : log.file.length ≤ mebibyte
  written : log.reading = true → log.written = log.file.length
  tail : log.reading = true → log.file <:+ before
  whole : log.reading = true → before.length ≤ mebibyte → log.file = before

variable {log : ServerLog} {before : Bytes} {chunk : Chunk}

/-- The thread stops. -/
theorem ServerLog.Inv.stop (hpart : log.file <:+: before) (hshort : log.file.length ≤ mebibyte) :
    ServerLog.Inv (before ++ chunk.val) { log with reading := false } where
  part := hpart.trans (List.prefix_append _ _).isInfix
  short := hshort
  written := nofun
  tail := nofun
  whole := nofun

/-- A piece is added to the end of what was said. -/
theorem ServerLog.Inv.writeAll (htail : log.file <:+ before) (hwritten : log.written = log.file.length)
    (hroom : log.file.length + chunk.val.length ≤ mebibyte)
    (hwhole : (before ++ chunk.val).length ≤ mebibyte → log.file = before) (write : Option ℕ) :
    ServerLog.Inv (before ++ chunk.val) (log.writeAll chunk write) := by
  obtain ⟨dropped, rfl⟩ := htail
  cases write with
  | none =>
    have htail : log.file ++ chunk.val <:+ dropped ++ log.file ++ chunk.val :=
      ⟨dropped, by rw [List.append_assoc]⟩
    refine ⟨htail.isInfix, ?_, fun _ => ?_, fun _ => htail, fun _ hle => ?_⟩
    · exact List.length_append.trans_le hroom
    · exact (congrArg (· + chunk.val.length) hwritten).trans List.length_append.symm
    · exact congrArg (· ++ chunk.val) (hwhole hle)
  | some n =>
    refine ⟨⟨dropped, chunk.val.drop n, ?_⟩, ?_, nofun, nofun, nofun⟩
    · show dropped ++ (log.file ++ chunk.val.take n) ++ chunk.val.drop n = _
      rw [← List.append_assoc, List.append_assoc _ (chunk.val.take n), List.take_append_drop]
    · have htake := List.length_take_le' n chunk.val
      show (log.file ++ chunk.val.take n).length ≤ _
      rw [List.length_append]
      omega

/-- **One piece.** -/
theorem ServerLog.Inv.push (h : log.Inv before) (read : Chunk × LogIo) :
    (log.push read).Inv (before ++ read.1.val) := by
  obtain ⟨chunk, io⟩ := read
  unfold ServerLog.push
  dsimp only
  split_ifs with hstopped hfull hset hrewind
  · rw [Bool.not_eq_true'] at hstopped
    exact ⟨h.part.trans (List.prefix_append _ _).isInfix, h.short, fun heq => by simp [hstopped] at heq,
      fun heq => by simp [hstopped] at heq, fun heq => by simp [hstopped] at heq⟩
  · exact .stop h.part h.short
  · exact @ServerLog.Inv.stop { log with file := [] } before chunk List.nil_infix (Nat.zero_le _)
  · have hreading : log.reading = true := by simpa using hstopped
    have hlarge := h.written hreading
    refine .writeAll List.nil_suffix rfl ?_ (fun hle => ?_) io.write
    · have := chunk.property.2
      simp only [List.length_nil, mebibyte]
      omega
    · -- what does not fit was more than a mebibyte
      have hsuffix := (h.tail hreading).length_le
      rw [List.length_append] at hle
      omega
  · have hreading : log.reading = true := by simpa using hstopped
    have hwritten := h.written hreading
    refine .writeAll (h.tail hreading) hwritten (by omega) (fun hle => h.whole hreading ?_) io.write
    rw [List.length_append] at hle
    omega

/-- The last piece is there, as long as the thread reads on. -/
theorem ServerLog.push_last (log : ServerLog) (chunk : Chunk) (io : LogIo)
    (h : (log.push (chunk, io)).reading = true) : chunk.val <:+ (log.push (chunk, io)).file := by
  have hwrite (log : ServerLog) (hreading : (log.writeAll chunk io.write).reading = true) :
      chunk.val <:+ (log.writeAll chunk io.write).file := by
    cases hio : io.write with
    | none => exact List.suffix_append _ _
    | some n =>
      rw [hio] at hreading
      cases hreading
  unfold ServerLog.push at h ⊢
  dsimp only at h ⊢
  split_ifs at h ⊢ with hstopped
  · simp [h] at hstopped
  · exact hwrite _ h
  · exact hwrite _ h

/-- **What is in the log of the server**: a part of what it has said, of a mebibyte at most.  As long as the
file can be written it is the end of that, with the last piece in full, and all of it if it is short. -/
theorem serverLog_tail (reads : List (Chunk × LogIo)) :
    (serverLog reads).file <:+: said (reads.map Prod.fst) ∧
      (serverLog reads).file.length ≤ mebibyte ∧
      ((serverLog reads).reading = true →
        (serverLog reads).file <:+ said (reads.map Prod.fst) ∧
        (∀ last io, reads.getLast? = some (last, io) → last.val <:+ (serverLog reads).file) ∧
        ((said (reads.map Prod.fst)).length ≤ mebibyte →
          (serverLog reads).file = said (reads.map Prod.fst))) := by
  have hinv : (serverLog reads).Inv (said (reads.map Prod.fst)) := by
    induction reads using List.reverseRecOn with
    | nil => exact ⟨List.infix_rfl, Nat.zero_le _, fun _ => rfl, fun _ => List.suffix_rfl, fun _ _ => rfl⟩
    | append_singleton reads read ih =>
      have hsaid : said ((reads ++ [read]).map Prod.fst) = said (reads.map Prod.fst) ++ read.1.val := by
        simp [said]
      rw [hsaid, serverLog, List.foldl_concat]
      exact ih.push read
  refine ⟨hinv.part, hinv.short, fun hreading => ⟨hinv.tail hreading, fun last io hlast => ?_,
    hinv.whole hreading⟩⟩
  obtain ⟨before, rfl⟩ := List.getLast?_eq_some_iff.1 hlast
  rw [serverLog, List.foldl_concat] at hreading ⊢
  exact ServerLog.push_last _ last io hreading

end Daemon

end Latticed
