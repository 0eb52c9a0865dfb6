import Latticed.LTS.Basic
import Latticed.LTS.Line
import Latticed.Net.Codec
import Latticed.Rust.Postcard
import Mathlib.Logic.Function.Basic

/-!
# The tunnel to the inference server

A program on the master talks to the server on a worker through a stream between the two.  The worker
first tells whether it has a session with the server; then both sides copy whatever comes, each way
until its end.  A side that fails resets the stream, so that its half does not look finished to the other
side; the program at its own end is told an end all the same.

* `readAck_ackFrame` : the proxy is told what `connect` returned, of a refusal the first 512 characters.
* `inv_run` : what holds of the lines and of the two sides at all times.
* `tunnel_delivers` : what arrives, and what an end of it says.
* `handshake_told` : the proxy tunnels only if the worker does, and hears the refusal if not.
-/

namespace Latticed

namespace Net

open Rust Rust.Postcard

/-! ### The acknowledgement -/

/-- `MAX_ACK`. -/
def maxAck : ℕ := 4096

/-- How a `Result<(), String>` is written. -/
def ackWire : Wire (Except String Unit) :=
  .enum (fun | .ok _ => 0 | .error _ => 1)
    (fun | .ok _ => [] | .error why => Wire.string.write why)
    (fun
      | 0, rest => .ok (.ok (), rest)
      | 1, rest => Wire.string.fields .error rest
      | _, _ => .error serdeDeCustom)
    (fun ack => by cases ack <;> simp) fun ack rest h => by
      cases ack with
      | ok _ => rfl
      | error why => exact Wire.fields_write _ _ rest h

/-- `serve`: what the proxy is told of the session. -/
def acknowledge (session : Except String Unit) : Except String Unit :=
  session.mapError fun why => String.ofList (why.toList.take 512)

/-- `serve`: the frame that tells it. -/
def ackFrame (session : Except String Unit) : Except NetError Bytes :=
  writeFrame (ackWire.write (acknowledge session))

/-- `proxy`: what it makes of a frame. -/
def readAck (bytes : Bytes) : Except NetError Unit :=
  match ackWire.decode bytes with
  | .error e => .error (.postcard e)
  | .ok (.error why) => .error (.stream why)
  | .ok (.ok ()) => .ok ()

/-- Every acknowledgement fits, whatever the refusal says. -/
theorem length_ack_le (session : Except String Unit) :
    (ackWire.write (acknowledge session)).length ≤ maxAck := by
  have htag (n : ℕ) : (writeVarint 5 n).length ≤ 5 := length_writeVarint_le 5 n
  have hmax : maxAck = 4096 := rfl
  cases session with
  | ok u =>
    have := htag 0
    show (writeVarint 5 0 ++ []).length ≤ _
    rw [List.append_nil]
    omega
  | error why =>
    have htake := List.length_take_le 512 why.toList
    have hsize := size_ofList_le (why.toList.take 512)
    have hlen := length_writeVarint_le 10 (asBytes (String.ofList (why.toList.take 512))).length
    have := htag 1
    show (writeVarint 5 1 ++ (writeVarint 10 (asBytes (String.ofList (why.toList.take 512))).length ++
      asBytes (String.ofList (why.toList.take 512)))).length ≤ _
    rw [List.length_append, List.length_append, length_asBytes]
    rw [length_asBytes] at hlen
    omega

theorem exists_ackFrame (session : Except String Unit) : ∃ frame, ackFrame session = .ok frame := by
  have hle := length_ack_le session
  have hmax : maxAck < 2 ^ 32 := by decide
  exact ⟨_, writeFrame_of_lt (by omega)⟩

/-- **The proxy is told what `connect` returned**, and the bytes after it stay. -/
theorem readAck_ackFrame {session : Except String Unit} {frame more : Bytes} {r : Recv}
    (hframe : ackFrame session = .ok frame) (h : r.bytes = frame ++ more) :
    ∃ bytes r', readFrame r maxAck = .ok (bytes, r') ∧ r'.bytes = more ∧
      readAck bytes = (acknowledge session).mapError .stream := by
  have hle := length_ack_le session
  obtain ⟨r', hread, hmore, -⟩ := readFrame_writeFrame hframe hle h
  refine ⟨_, r', hread, hmore, ?_⟩
  have hmax : maxAck < 2 ^ 64 := by decide
  unfold readAck
  rw [ackWire.decode_write (by omega)]
  cases acknowledge session <;> rfl

/-! ### The two sides -/

/-- Who is at an end of the stream. -/
inductive RpcEnd where
  | proxy | worker
  deriving DecidableEq

/-- The one at the other end. -/
def RpcEnd.other : RpcEnd → RpcEnd
  | proxy => worker
  | worker => proxy

/-- How far a side has come. -/
inductive RpcPhase where
  /-- `proxy` waits for the acknowledgement; `serve` waits for `connect`. -/
  | waiting
  /-- `serve` has refused. -/
  | refused
  /-- It failed before its tunnel began. -/
  | failed (why : NetError)
  | tunnelling
  /-- `tunnel` has returned `Ok`. -/
  | completed
  /-- `tunnel` has failed, or was dropped. -/
  | reset (why : NetError)
  deriving DecidableEq

/-- The side has given up. -/
def RpcPhase.GaveUp : RpcPhase → Prop
  | refused | failed _ | reset _ => True
  | _ => False

/-- The tunnel of the side has begun. -/
def RpcPhase.Began : RpcPhase → Prop
  | tunnelling | completed | reset _ => True
  | _ => False

/-- A stream for inference RPC, and the two sides. -/
structure RpcStream where
  /-- What comes from a side. -/
  line : RpcEnd → Line UInt8
  /-- The bytes of the acknowledgement, which come before the line of the worker. -/
  ack : Bytes
  /-- What `connect` returned. -/
  session : Option (Except String Unit)
  phase : RpcEnd → RpcPhase
  /-- The side has let go of the socket to its program, if it had one, before its tunnel returned `Ok`.
  That shuts the socket down. -/
  dropped : RpcEnd → Bool

namespace RpcStream

/-- The stream has just been opened. -/
def opened : RpcStream := ⟨fun _ => .idle, [], none, fun _ => .waiting, fun _ => false⟩

/-- What can happen next. -/
inductive Event where
  /-- `connect` returns, or has taken too long. -/
  | connect (session : Except String Unit)
  /-- The proxy reads; if the stream fails, `ending` says how. -/
  | readAck (ending : String)
  /-- The handshake of the proxy has taken too long. -/
  | timeout
  /-- The copy from the socket to the stream. -/
  | outbound (side : RpcEnd) (op : Line.Outbound UInt8)
  /-- The copy from the stream to the socket. -/
  | inbound (side : RpcEnd) (op : Line.Inbound)
  /-- Both copies have returned. -/
  | complete (side : RpcEnd)
  /-- A copy fails, or the task is aborted; whether what was finished is lost. -/
  | fail (side : RpcEnd) (why : NetError) (lost : Bool)

/-- `read_frame` has to wait for more of these bytes. -/
def awaitsMore (bytes : Bytes) (max : ℕ) : Prop :=
  bytes.length < 4 ∨ ofLeBytes (bytes.take 4) ≤ max ∧ bytes.length < 4 + ofLeBytes (bytes.take 4)

instance (bytes : Bytes) (max : ℕ) : Decidable (awaitsMore bytes max) :=
  inferInstanceAs (Decidable (_ ∨ _))

/-- The side moves on. -/
def enter (t : RpcStream) (side : RpcEnd) (phase : RpcPhase) : RpcStream :=
  { t with phase := Function.update t.phase side phase }

/-- What comes from the side changes. -/
def setLine (t : RpcStream) (side : RpcEnd) (line : Line UInt8) : RpcStream :=
  { t with line := Function.update t.line side line }

/-- The side lets go of the socket to its program. -/
def drop (t : RpcStream) (side : RpcEnd) : RpcStream :=
  { t with dropped := Function.update t.dropped side true }

/-- The program at the side has been told an end: the copy has said so, or the socket has been dropped. -/
def toldEnd (t : RpcStream) (side : RpcEnd) : Bool := (t.line side.other).shut || t.dropped side

/-- A side that has no tunnel yet drops both halves of its stream, and its socket. -/
def letGo (t : RpcStream) (side : RpcEnd) (phase : RpcPhase) : RpcStream :=
  (((t.setLine side (t.line side).release).setLine side.other (t.line side.other).cut).enter side
    phase).drop side

/-- `TunnelStreams::drop`, of a tunnel that has not completed: it resets the one half and stops the
other.  What was finished before may arrive all the same.  Both halves of the socket are dropped too. -/
def resetBoth (t : RpcStream) (side : RpcEnd) (lost : Bool) (why : NetError) : RpcStream :=
  let mine := t.line side
  (((t.setLine side (if mine.finished ∧ ¬ lost then mine else mine.cut)).setLine side.other
    (t.line side.other).cut).enter side (.reset why)).drop side

/-- The proxy reads the acknowledgement, if it is there. -/
def hear (t : RpcStream) (ending : String) : RpcStream :=
  let down := t.line .worker
  if down.broken then t.letGo .proxy (.failed (.stream ("reading frame length: " ++ ending)))
  else match readFrame ⟨[t.ack ++ down.wire], ending⟩ maxAck with
    | .error e =>
      if awaitsMore (t.ack ++ down.wire) maxAck ∧ ¬ down.finished then t
      else t.letGo .proxy (.failed e)
    | .ok (bytes, recv) =>
      let t := { t with ack := [] }.setLine .worker { down with wire := recv.bytes }
      match readAck bytes with
      | .error e => t.letGo .proxy (.failed e)
      | .ok () => t.enter .proxy .tunnelling

/-- What an event does, if it is possible now. -/
def step (t : RpcStream) : Event → RpcStream
  | .connect session =>
    if t.phase .worker = .waiting then
      match ackFrame session with
      | .error e => t.letGo .worker (.failed e)
      | .ok frame =>
        let t := { t with ack := frame, session := some session }
        match session with
        | .ok () => t.enter .worker .tunnelling
        | .error _ => t.letGo .worker .refused
    else t
  | .readAck ending => if t.phase .proxy = .waiting then t.hear ending else t
  | .timeout =>
    if t.phase .proxy = .waiting then
      t.letGo .proxy (.failed (.stream "inference RPC handshake timed out"))
    else t
  | .outbound side op =>
    if t.phase side = .tunnelling then t.setLine side ((t.line side).outbound op) else t
  | .inbound side op =>
    if t.phase side = .tunnelling then t.setLine side.other ((t.line side.other).inbound op) else t
  | .complete side =>
    if t.phase side = .tunnelling ∧ (t.line side).finished ∧ (t.line side.other).shut then
      t.enter side .completed
    else t
  | .fail side why lost =>
    match t.phase side with
    | .waiting => t.letGo side (.failed why)
    | .tunnelling => t.resetBoth side lost why
    | _ => t

/-- The stream after some events. -/
def run (events : List Event) : RpcStream := events.foldl step opened

/-! ### One event -/

@[simp] theorem other_ne (side : RpcEnd) : side.other ≠ side := by cases side <;> decide

@[simp] theorem other_other (side : RpcEnd) : side.other.other = side := by cases side <;> rfl

theorem eq_or_other (side s : RpcEnd) : s = side ∨ s = side.other := by
  cases side <;> cases s <;> simp [RpcEnd.other]

section

variable (t : RpcStream) (side s : RpcEnd) (p : RpcPhase) (l : Line UInt8)

@[simp] theorem enter_line : (t.enter side p).line = t.line := rfl
@[simp] theorem enter_ack : (t.enter side p).ack = t.ack := rfl
@[simp] theorem enter_session : (t.enter side p).session = t.session := rfl
@[simp] theorem enter_phase_self : (t.enter side p).phase side = p := Function.update_self _ _ _
@[simp] theorem enter_phase_other : (t.enter side p).phase side.other = t.phase side.other :=
  Function.update_of_ne (other_ne side) _ _

@[simp] theorem enter_dropped : (t.enter side p).dropped = t.dropped := rfl
@[simp] theorem setLine_dropped : (t.setLine side l).dropped = t.dropped := rfl

@[simp] theorem drop_line : (t.drop side).line = t.line := rfl
@[simp] theorem drop_phase : (t.drop side).phase = t.phase := rfl
@[simp] theorem drop_dropped_self : (t.drop side).dropped side = true := Function.update_self _ _ _
@[simp] theorem drop_dropped_other : (t.drop side).dropped side.other = t.dropped side.other :=
  Function.update_of_ne (other_ne side) _ _

@[simp] theorem setLine_phase : (t.setLine side l).phase = t.phase := rfl
@[simp] theorem setLine_line_self : (t.setLine side l).line side = l := Function.update_self _ _ _
@[simp] theorem setLine_line_other : (t.setLine side l).line side.other = t.line side.other :=
  Function.update_of_ne (other_ne side) _ _

theorem setLine_self : t.setLine side (t.line side) = t := by
  unfold setLine
  rw [Function.update_eq_self]

@[simp] theorem letGo_line_self : (t.letGo side p).line side = (t.line side).release := by
  have hne : side ≠ side.other := (other_ne side).symm
  simp [letGo, setLine, Function.update_of_ne hne]

@[simp] theorem letGo_line_other : (t.letGo side p).line side.other = (t.line side.other).cut := by
  simp [letGo]

@[simp] theorem letGo_phase_self : (t.letGo side p).phase side = p := by simp [letGo]

@[simp] theorem letGo_phase_other : (t.letGo side p).phase side.other = t.phase side.other := by
  simp [letGo]

end

/-- What holds of the lines at all times. -/
structure Carries (t : RpcStream) : Prop where
  lines : ∀ s, (t.line s).Inv (t.phase s).Began
  fresh : ∀ s, t.phase s = .waiting → (t.line s).finished = false
  shut : ∀ s, t.phase s = .completed → (t.line s).finished = true ∧ (t.line s.other).shut = true

variable {t : RpcStream} {side : RpcEnd} {p : RpcPhase}

/-- What is to be shown of a side and the other one. -/
theorem Carries.of_sides (side : RpcEnd)
    (hlines : (t.line side).Inv (t.phase side).Began ∧
      (t.line side.other).Inv (t.phase side.other).Began)
    (hfresh : (t.phase side = .waiting → (t.line side).finished = false) ∧
      (t.phase side.other = .waiting → (t.line side.other).finished = false))
    (hshut : (t.phase side = .completed →
        (t.line side).finished = true ∧ (t.line side.other).shut = true) ∧
      (t.phase side.other = .completed →
        (t.line side.other).finished = true ∧ (t.line side).shut = true)) : t.Carries where
  lines s := by
    rcases eq_or_other side s with rfl | rfl
    exacts [hlines.1, hlines.2]
  fresh s := by
    rcases eq_or_other side s with rfl | rfl
    exacts [hfresh.1, hfresh.2]
  shut s := by
    rcases eq_or_other side s with rfl | rfl
    · exact hshut.1
    · rw [other_other]
      exact hshut.2

theorem Carries.shut_other (h : t.Carries) (hdone : t.phase side.other = .completed) :
    (t.line side.other).finished = true ∧ (t.line side).shut = true := by
  have hshut := h.shut side.other hdone
  rwa [other_other] at hshut

theorem Carries.letGo (h : t.Carries) (hwaiting : t.phase side = .waiting) (hbegan : ¬ p.Began)
    (hp : p ≠ .waiting) : (t.letGo side p).Carries := by
  have hnot : ¬ (t.phase side).Began := by rw [hwaiting]; exact fun hb => hb
  refine .of_sides side ⟨?_, ?_⟩ ⟨?_, ?_⟩ ⟨?_, ?_⟩
  · rw [letGo_line_self, letGo_phase_self]
    exact ((h.lines side).release hnot).congr ⟨fun hb => absurd hb hnot, fun hb => absurd hb hbegan⟩
  · rw [letGo_line_other, letGo_phase_other]
    exact (h.lines side.other).cut
  · rw [letGo_phase_self]
    exact fun heq => absurd heq hp
  · rw [letGo_line_other, letGo_phase_other]
    exact h.fresh side.other
  · rw [letGo_phase_self]
    rintro rfl
    exact absurd trivial hbegan
  · rw [letGo_phase_other, letGo_line_other, letGo_line_self]
    exact h.shut_other

/-- A tunnel begins. -/
theorem Carries.begin (h : t.Carries) (hwaiting : t.phase side = .waiting) :
    (t.enter side .tunnelling).Carries := by
  refine .of_sides side ⟨?_, ?_⟩ ⟨?_, ?_⟩ ⟨?_, ?_⟩
  · rw [enter_line, enter_phase_self]
    exact (h.lines side).begin (h.fresh side hwaiting) fun _ => trivial
  · rw [enter_line, enter_phase_other]
    exact h.lines side.other
  · rw [enter_phase_self]
    exact fun heq => (by cases heq)
  · rw [enter_line, enter_phase_other]
    exact h.fresh side.other
  · rw [enter_phase_self]
    exact fun heq => (by cases heq)
  · rw [enter_line, enter_phase_other]
    exact h.shut_other

theorem Carries.outbound (h : t.Carries) (htunnel : t.phase side = .tunnelling)
    (op : Line.Outbound UInt8) : (t.setLine side ((t.line side).outbound op)).Carries := by
  have hbegan : (t.phase side).Began := by rw [htunnel]; trivial
  refine .of_sides side ⟨?_, ?_⟩ ⟨?_, ?_⟩ ⟨?_, ?_⟩
  · rw [setLine_line_self, setLine_phase]
    exact (h.lines side).outbound hbegan op
  · rw [setLine_line_other, setLine_phase]
    exact h.lines side.other
  · rw [setLine_phase, htunnel]
    exact fun heq => (by cases heq)
  · rw [setLine_line_other, setLine_phase]
    exact h.fresh side.other
  · rw [setLine_phase, htunnel]
    exact fun heq => (by cases heq)
  · rw [setLine_line_other, setLine_line_self, setLine_phase, Line.outbound_shut]
    exact h.shut_other

theorem Carries.inbound (h : t.Carries) (htunnel : t.phase side = .tunnelling) (op : Line.Inbound) :
    (t.setLine side.other ((t.line side.other).inbound op)).Carries := by
  have hself : (t.setLine side.other ((t.line side.other).inbound op)).line side = t.line side := by
    have hline := setLine_line_other t side.other ((t.line side.other).inbound op)
    rwa [other_other] at hline
  refine .of_sides side ⟨?_, ?_⟩ ⟨?_, ?_⟩ ⟨?_, ?_⟩
  · rw [hself, setLine_phase]
    exact h.lines side
  · rw [setLine_line_self, setLine_phase]
    exact (h.lines side.other).inbound op
  · rw [hself, setLine_phase]
    exact h.fresh side
  · rw [setLine_line_self, setLine_phase, Line.inbound_finished]
    exact h.fresh side.other
  · rw [setLine_phase, htunnel]
    exact fun heq => (by cases heq)
  · rw [hself, setLine_line_self, setLine_phase, Line.inbound_finished]
    exact h.shut_other

theorem Carries.complete (h : t.Carries) (htunnel : t.phase side = .tunnelling)
    (hdone : (t.line side).finished = true ∧ (t.line side.other).shut = true) :
    (t.enter side .completed).Carries := by
  have hbegan : (t.phase side).Began := by rw [htunnel]; trivial
  refine .of_sides side ⟨?_, ?_⟩ ⟨?_, ?_⟩ ⟨?_, ?_⟩
  · rw [enter_line, enter_phase_self]
    exact (h.lines side).congr ⟨fun _ => trivial, fun _ => hbegan⟩
  · rw [enter_line, enter_phase_other]
    exact h.lines side.other
  · rw [enter_phase_self]
    exact fun heq => (by cases heq)
  · rw [enter_line, enter_phase_other]
    exact h.fresh side.other
  · exact fun _ => hdone
  · rw [enter_line, enter_phase_other]
    exact h.shut_other

theorem Carries.resetBoth (h : t.Carries) (htunnel : t.phase side = .tunnelling) (lost : Bool)
    (why : NetError) : (t.resetBoth side lost why).Carries := by
  have hbegan : (t.phase side).Began := by rw [htunnel]; trivial
  have hself : (t.resetBoth side lost why).line side =
      if (t.line side).finished ∧ ¬ lost then t.line side else (t.line side).cut := by
    have hne : side ≠ side.other := (other_ne side).symm
    simp [RpcStream.resetBoth, setLine, Function.update_of_ne hne]
  have hother : (t.resetBoth side lost why).line side.other = (t.line side.other).cut := by
    simp [RpcStream.resetBoth]
  have hphase : (t.resetBoth side lost why).phase side = .reset why := by simp [RpcStream.resetBoth]
  have hphaseOther : (t.resetBoth side lost why).phase side.other = t.phase side.other := by
    simp [RpcStream.resetBoth]
  refine .of_sides side ⟨?_, ?_⟩ ⟨?_, ?_⟩ ⟨?_, ?_⟩
  · rw [hself, hphase]
    have hsame : (t.line side).Inv True := (h.lines side).congr ⟨fun _ => trivial, fun _ => hbegan⟩
    split_ifs
    exacts [hsame, hsame.cut]
  · rw [hother, hphaseOther]
    exact (h.lines side.other).cut
  · rw [hphase]
    exact fun heq => (by cases heq)
  · rw [hother, hphaseOther]
    exact h.fresh side.other
  · rw [hphase]
    exact fun heq => (by cases heq)
  · rw [hself, hother, hphaseOther]
    split_ifs <;> exact h.shut_other

/-- What holds of the handshake at all times. -/
structure Agrees (t : RpcStream) : Prop where
  untold : t.session = none → t.ack = [] ∧ ¬ (t.phase .worker).Began
  told : ∀ session, t.session = some session → t.phase .worker ≠ .waiting ∧
    (t.phase .proxy = .waiting → ackFrame session = .ok t.ack)
  agreed : (t.phase .proxy).Began → t.session = some (.ok ())

/-- No tunnel begins, and nobody goes back to wait. -/
theorem Agrees.move {t' : RpcStream} (h : t.Agrees) (hsession : t'.session = t.session)
    (hack : t'.ack = t.ack) (hwaiting : ∀ s, t'.phase s = .waiting → t.phase s = .waiting)
    (hbegan : ∀ s, (t'.phase s).Began → (t.phase s).Began) : t'.Agrees where
  untold hnone := by
    obtain ⟨hempty, hnot⟩ := h.untold (hsession ▸ hnone)
    exact ⟨hack.trans hempty, fun hb => hnot (hbegan _ hb)⟩
  told session hsome := by
    obtain ⟨hmoved, hframe⟩ := h.told session (hsession ▸ hsome)
    exact ⟨fun heq => hmoved (hwaiting _ heq), fun heq => hack ▸ hframe (hwaiting _ heq)⟩
  agreed hb := hsession ▸ h.agreed (hbegan _ hb)

theorem Agrees.enter (h : t.Agrees) (hp : p ≠ .waiting) (hbegan : p.Began → (t.phase side).Began) :
    (t.enter side p).Agrees := by
  refine h.move rfl rfl (fun s => ?_) fun s => ?_
  · rcases eq_or_other side s with rfl | rfl
    · rw [enter_phase_self]
      exact fun heq => absurd heq hp
    · rw [enter_phase_other]
      exact fun heq => heq
  · rcases eq_or_other side s with rfl | rfl
    · rwa [enter_phase_self]
    · rw [enter_phase_other]
      exact fun hb => hb

theorem Agrees.setLine (h : t.Agrees) (side : RpcEnd) (l : Line UInt8) : (t.setLine side l).Agrees :=
  h.move rfl rfl (fun _ heq => heq) fun _ hb => hb

theorem Agrees.drop (h : t.Agrees) (side : RpcEnd) : (t.drop side).Agrees :=
  h.move rfl rfl (fun _ heq => heq) fun _ hb => hb

theorem Agrees.letGo (h : t.Agrees) (hbegan : ¬ p.Began) (hp : p ≠ .waiting) :
    (t.letGo side p).Agrees :=
  (((h.setLine _ _).setLine _ _).enter hp fun hb => absurd hb hbegan).drop _

theorem Agrees.resetBoth (h : t.Agrees) (htunnel : t.phase side = .tunnelling) (lost : Bool)
    (why : NetError) : (t.resetBoth side lost why).Agrees := by
  have hbegan : (t.phase side).Began := by rw [htunnel]; trivial
  exact (((h.setLine _ _).setLine _ _).enter (p := .reset why) nofun fun _ => hbegan).drop _

/-- **What the proxy reads is what the worker was told.** -/
theorem Agrees.readAck (h : t.Agrees) (hlines : t.Carries) (hwaiting : t.phase .proxy = .waiting)
    {ending : String} {bytes : Bytes} {recv : Recv}
    (hread : readFrame ⟨[t.ack ++ (t.line .worker).wire], ending⟩ maxAck = .ok (bytes, recv)) :
    ∃ session, t.session = some session ∧ recv.bytes = (t.line .worker).wire ∧
      Net.readAck bytes = (acknowledge session).mapError .stream := by
  cases hsession : t.session with
  | none =>
    -- nothing has been sent, and nothing can be read
    obtain ⟨hack, hnot⟩ := h.untold hsession
    have hline := hlines.lines .worker
    have hempty := hline.conserved.trans (hline.still hnot).1
    have hwire : (t.line .worker).wire = [] := by
      rw [List.append_eq_nil_iff, List.append_eq_nil_iff] at hempty
      exact hempty.1.2
    rw [hack, hwire] at hread
    cases hread
  | some session =>
    have hframe := (h.told session hsession).2 hwaiting
    obtain ⟨bytes', recv', hread', hrest, hsaid⟩ := readAck_ackFrame
      (r := ⟨[t.ack ++ (t.line .worker).wire], ending⟩) hframe (List.flatten_singleton)
    rw [hread'] at hread
    obtain ⟨rfl, rfl⟩ := Prod.mk.inj (Except.ok.inj hread)
    exact ⟨session, rfl, hrest, hsaid⟩

/-- The sockets that have been dropped are those of the sides that gave up. -/
def Drops (t : RpcStream) : Prop := ∀ s, t.dropped s = true ↔ (t.phase s).GaveUp

theorem Drops.enter (h : t.Drops) (hbefore : ¬ (t.phase side).GaveUp) (hp : ¬ p.GaveUp) :
    (t.enter side p).Drops := by
  intro s
  rcases eq_or_other side s with rfl | rfl
  · rw [enter_phase_self, enter_dropped]
    exact (h s).trans (iff_of_false hbefore hp)
  · rw [enter_phase_other, enter_dropped]
    exact h side.other

theorem Drops.giveUp (h : t.Drops) (hp : p.GaveUp) : ((t.enter side p).drop side).Drops := by
  intro s
  rcases eq_or_other side s with rfl | rfl
  · rw [drop_dropped_self, drop_phase, enter_phase_self]
    exact iff_of_true rfl hp
  · rw [drop_dropped_other, drop_phase, enter_phase_other, enter_dropped]
    exact h side.other

/-! ### Runs -/

/-- What holds at all times. -/
structure Inv (t : RpcStream) : Prop where
  carries : t.Carries
  agrees : t.Agrees
  drops : t.Drops

theorem inv_opened : opened.Inv where
  carries := ⟨fun _ => Line.inv_idle, fun _ _ => rfl, fun _ h => (by cases h)⟩
  agrees := ⟨fun _ => ⟨rfl, fun h => h⟩, fun _ h => (by cases h), fun h => h.elim⟩
  drops _ := iff_of_false Bool.false_ne_true fun h => h

theorem ne_waiting_of_gaveUp (h : p.GaveUp) : p ≠ .waiting := by
  rintro rfl
  exact h

theorem Drops.setLine (h : t.Drops) (side : RpcEnd) (l : Line UInt8) : (t.setLine side l).Drops := h

theorem Drops.letGo (h : t.Drops) (hp : p.GaveUp) : (t.letGo side p).Drops :=
  ((h.setLine _ _).setLine _ _).giveUp hp

theorem Drops.resetBoth (h : t.Drops) (lost : Bool) (why : NetError) :
    (t.resetBoth side lost why).Drops :=
  ((h.setLine _ _).setLine _ _).giveUp trivial

theorem Inv.letGo (h : t.Inv) (hwaiting : t.phase side = .waiting) (hbegan : ¬ p.Began)
    (hp : p.GaveUp) : (t.letGo side p).Inv where
  carries := h.carries.letGo hwaiting hbegan (ne_waiting_of_gaveUp hp)
  agrees := h.agrees.letGo hbegan (ne_waiting_of_gaveUp hp)
  drops := h.drops.letGo hp

theorem Inv.connect (h : t.Inv) (session : Except String Unit) : (t.step (.connect session)).Inv := by
  unfold step
  dsimp only
  split_ifs with hwaiting
  · obtain ⟨frame, hframe⟩ := exists_ackFrame session
    have hnone : t.session = none := by
      by_contra hne
      obtain ⟨other, hsome⟩ := Option.ne_none_iff_exists'.1 hne
      exact (h.agrees.told other hsome).1 hwaiting
    have hnot : ¬ (t.phase .proxy).Began := fun hb => by
      rw [h.agrees.agreed hb] at hnone
      cases hnone
    have hgaveUp : ¬ (t.phase .worker).GaveUp := by
      rw [hwaiting]
      exact fun hg => hg
    have hlines : Carries { t with ack := frame, session := some session } :=
      ⟨h.carries.lines, h.carries.fresh, h.carries.shut⟩
    have hdrops : Drops { t with ack := frame, session := some session } := h.drops
    rw [hframe]
    cases session with
    | ok u =>
      refine ⟨hlines.begin hwaiting, ⟨fun hno => (by cases hno), fun other hsome => ?_, fun _ => rfl⟩,
        hdrops.enter hgaveUp fun hg => hg⟩
      cases hsome
      exact ⟨fun heq => (by cases heq), fun _ => hframe⟩
    | error why =>
      refine ⟨hlines.letGo hwaiting (fun hb => hb) nofun, ⟨fun hno => (by cases hno),
        fun other hsome => ?_, fun hb => absurd hb hnot⟩, hdrops.letGo trivial⟩
      cases hsome
      exact ⟨fun heq => (by cases heq), fun _ => hframe⟩
  · exact h

theorem hear_eq {ending : String} {bytes : Bytes} {recv : Recv}
    (hopen : (t.line .worker).broken = false)
    (hread : readFrame ⟨[t.ack ++ (t.line .worker).wire], ending⟩ maxAck = .ok (bytes, recv))
    (hrest : recv.bytes = (t.line .worker).wire) :
    t.hear ending = match Net.readAck bytes with
      | .error e => RpcStream.letGo { t with ack := [] } .proxy (.failed e)
      | .ok () => RpcStream.enter { t with ack := [] } .proxy .tunnelling := by
  have hsame : (({ t with ack := [] } : RpcStream).setLine .worker
      { t.line .worker with wire := recv.bytes }) = { t with ack := [] } := by
    rw [hrest]
    exact setLine_self { t with ack := [] } .worker
  unfold hear
  dsimp only
  rw [if_neg (by rw [hopen]; exact Bool.false_ne_true), hread]
  dsimp only
  rw [hsame]

theorem Inv.hear (h : t.Inv) (hwaiting : t.phase .proxy = .waiting) (ending : String) :
    (t.hear ending).Inv := by
  cases hbroken : (t.line .worker).broken with
  | true =>
    unfold RpcStream.hear
    dsimp only
    rw [if_pos hbroken]
    exact h.letGo hwaiting (fun hb => hb) trivial
  | false =>
    cases hread : readFrame ⟨[t.ack ++ (t.line .worker).wire], ending⟩ maxAck with
    | error e =>
      unfold RpcStream.hear
      dsimp only
      rw [if_neg (by rw [hbroken]; exact Bool.false_ne_true), hread]
      dsimp only
      split_ifs
      exacts [h, h.letGo hwaiting (fun hb => hb) trivial]
    | ok read =>
      obtain ⟨bytes, recv⟩ := read
      obtain ⟨session, hsession, hrest, hsaid⟩ := h.agrees.readAck h.carries hwaiting hread
      have hgaveUp : ¬ (t.phase .proxy).GaveUp := by
        rw [hwaiting]
        exact fun hg => hg
      have hlines : Carries { t with ack := [] } :=
        ⟨h.carries.lines, h.carries.fresh, h.carries.shut⟩
      have hdrops : Drops { t with ack := [] } := h.drops
      rw [hear_eq hbroken hread hrest, hsaid]
      cases session with
      | ok u =>
        refine ⟨hlines.begin hwaiting, ⟨fun hno => ?_, fun other hsome => ?_, fun _ => hsession⟩,
          hdrops.enter hgaveUp fun hg => hg⟩
        · cases hsession.symm.trans hno
        · exact ⟨(h.agrees.told other hsome).1, fun heq => (by cases heq)⟩
      | error why =>
        refine ⟨hlines.letGo hwaiting (fun hb => hb) nofun, ⟨fun hno => ?_, fun other hsome => ?_,
          fun hb => hb.elim⟩, hdrops.letGo trivial⟩
        · cases hsession.symm.trans hno
        · exact ⟨(h.agrees.told other hsome).1, fun heq => (by cases heq)⟩

/-- **One event.** -/
theorem Inv.step (h : t.Inv) (e : Event) : (t.step e).Inv := by
  cases e with
  | connect session => exact h.connect session
  | readAck ending =>
    unfold RpcStream.step
    dsimp only
    split_ifs with hwaiting
    exacts [h.hear hwaiting ending, h]
  | timeout =>
    unfold RpcStream.step
    dsimp only
    split_ifs with hwaiting
    exacts [h.letGo hwaiting (fun hb => hb) trivial, h]
  | outbound side op =>
    unfold RpcStream.step
    dsimp only
    split_ifs with htunnel
    exacts [⟨h.carries.outbound htunnel op, h.agrees.setLine _ _, h.drops⟩, h]
  | inbound side op =>
    unfold RpcStream.step
    dsimp only
    split_ifs with htunnel
    exacts [⟨h.carries.inbound htunnel op, h.agrees.setLine _ _, h.drops⟩, h]
  | complete side =>
    unfold RpcStream.step
    dsimp only
    split_ifs with hdone
    · have hgaveUp : ¬ (t.phase side).GaveUp := by
        rw [hdone.1]
        exact fun hg => hg
      exact ⟨h.carries.complete hdone.1 hdone.2,
        h.agrees.enter nofun fun _ => by rw [hdone.1]; trivial, h.drops.enter hgaveUp fun hg => hg⟩
    · exact h
  | fail side why lost =>
    unfold RpcStream.step
    dsimp only
    cases hphase : t.phase side with
    | waiting => exact h.letGo hphase (fun hb => hb) trivial
    | tunnelling =>
      exact ⟨h.carries.resetBoth hphase lost why, h.agrees.resetBoth hphase lost why,
        h.drops.resetBoth lost why⟩
    | _ => exact h

/-- **What holds at all times.** -/
theorem inv_run (events : List Event) : (run events).Inv :=
  foldl_mono (fun _ e h => h.step e) events inv_opened

/-- **What arrives**, at either side, at all times: a prefix of what the other side's program wrote; and
if its end is told by a side that has not given up, all of it.  A side that gives up tells its program
an end wherever it has come to, and a tunnel that returns `Ok` has passed the end on. -/
theorem tunnel_delivers (events : List Event) (side : RpcEnd) :
    ((run events).line side).delivered <+: ((run events).line side).sent ∧
      ((run events).toldEnd side.other = true → ¬ ((run events).phase side.other).GaveUp →
        ((run events).line side).delivered = ((run events).line side).sent ∧
        (((run events).phase side).Began → ((run events).line side).ended = true)) ∧
      (((run events).phase side.other).GaveUp → (run events).toldEnd side.other = true) ∧
      ((run events).phase side.other = .completed → (run events).toldEnd side.other = true ∧
        ((run events).line side.other).ended = true) := by
  obtain ⟨hcarries, -, hdrops⟩ := inv_run events
  generalize run events = t at *
  have htold : t.toldEnd side.other = ((t.line side).shut || t.dropped side.other) := by
    unfold toldEnd
    rw [other_other]
  rw [htold]
  refine ⟨(hcarries.lines side).prefix_sent, fun hend hkept => ?_, fun hgaveUp => ?_, fun hdone => ?_⟩
  · rcases Bool.or_eq_true_iff.1 hend with hshut | hdropped
    · exact (hcarries.lines side).shut_eq hshut
    · exact absurd ((hdrops side.other).1 hdropped) hkept
  · rw [(hdrops side.other).2 hgaveUp, Bool.or_true]
  · obtain ⟨hfinished, hshut⟩ := hcarries.shut_other hdone
    rw [hshut, Bool.true_or]
    exact ⟨rfl, ((hcarries.lines side.other).finished hfinished).2 (by rw [hdone]; trivial)⟩

/-- **What the proxy is told**, in any order of events: it tunnels only if the worker has a session, and
when the answer of the worker can be read it tunnels, with everything the worker has sent still to
come, or fails with the first 512 characters of the refusal. -/
theorem handshake_told (events : List Event) (ending : String) :
    (((run events).phase .proxy).Began → (run events).session = some (.ok ())) ∧
      ∀ session, (run events).session = some session → (run events).phase .proxy = .waiting →
        ((run events).line .worker).broken = false →
        match session with
        | .ok () => ((run events).step (.readAck ending)).phase .proxy = .tunnelling ∧
          ((run events).step (.readAck ending)).line = (run events).line
        | .error why => ((run events).step (.readAck ending)).phase .proxy =
          .failed (.stream (String.ofList (why.toList.take 512))) := by
  obtain ⟨hcarries, hagrees⟩ := inv_run events
  refine ⟨hagrees.agreed, fun session hsession hwaiting hopen => ?_⟩
  generalize run events = t at *
  obtain ⟨bytes, recv, hread, hrest, hsaid⟩ := readAck_ackFrame
    (r := ⟨[t.ack ++ (t.line .worker).wire], ending⟩) ((hagrees.told session hsession).2 hwaiting)
    (List.flatten_singleton)
  have hstep : t.step (.readAck ending) = t.hear ending := if_pos hwaiting
  rw [hstep, hear_eq hopen hread hrest, hsaid]
  cases session with
  | ok u => exact ⟨enter_phase_self _ _ _, rfl⟩
  | error why => exact letGo_phase_self _ _ _

end RpcStream

end Net

end Latticed
