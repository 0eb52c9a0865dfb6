import Latticed.Engine.Abi

/-!
# Activation streams

One stream per session and boundary: the master sends a step, the device that holds the layers runs
it and answers, and frees the session's cache when the stream is over.
-/

namespace Latticed

namespace Net

open Engine

/-- What the master asks of a shard. -/
inductive Step where
  | prefill (pos : UInt32) (input : Payload)
  | decode (pos : UInt32) (input : Payload)
  /-- Free this session's cache.  Not a request: nothing is sent back. -/
  | done
  deriving DecidableEq, Repr

/-- The step that runs `input` at a position. -/
def Step.of (isPrefill : Bool) (pos : UInt32) (input : Payload) : Step :=
  match isPrefill with
  | true => .prefill pos input
  | false => .decode pos input

/-- What comes back. -/
inductive StepResult where
  | output (payload : Payload)
  /-- The shard understood the step and could not run it. -/
  | failed (why : String)
  deriving DecidableEq, Repr

/-- What `executor.run` returned, as it is sent back. -/
def StepResult.ofExcept : Except String Payload → StepResult
  | .ok payload => .output payload
  | .error why => .failed why

theorem StepResult.ofExcept_eq_output {result : Except String Payload} {payload : Payload} :
    ofExcept result = .output payload ↔ result = .ok payload := by
  cases result <;> simp [ofExcept]

/-- What `serve_stream` does with what it reads. -/
inductive Served where
  /-- Run the step, send the answer, and read on. -/
  | run (step : Step)
  /-- Send this, if anything, and free the session. -/
  | stop (reply : Option StepResult)
  deriving DecidableEq, Repr

/-- The loop of `serve_stream`, up to the call of the executor.  A read is a frame and what it
decodes to, or the end of the stream. -/
def serveRead : Option (Except String Step) → Served
  | none => .stop none
  | some (.error e) => .stop (some (.failed ("unintelligible: " ++ e)))
  | some (.ok .done) => .stop none
  | some (.ok step) => .run step

end Net

end Latticed
