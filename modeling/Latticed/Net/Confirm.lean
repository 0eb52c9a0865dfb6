import Latticed.LTS.Basic
import Latticed.LTS.Line
import Latticed.Net.Mesh
import Latticed.Net.Stream
import Mathlib.Logic.Function.Basic

/-!
# Confirming a connection

The one that dials has finished its TLS handshake before the one that listens has judged the key of the
dialer.  So both greet the other on a control stream, and `connect` and `accept` return when the greeting
of the other side has come.

* `inv_run` : what holds of the two sides at all times.
* `Live.step` : sides that admit each other fail only with the connection, or by taking too long.
* `Settled.confirmed` : they never wait for each other.
* `confirm_admitted` : a side that returns `Ok` was admitted by the other one, and has admitted it.
-/

namespace Latticed

namespace Net

open Rust

/-- `HELLO`. -/
def hello : Bytes := asBytes "LTC1"

/-- The one at the other end. -/
def Role.other : Role → Role
  | dialer => listener
  | listener => dialer

/-- The name of a kind of stream. -/
def StreamKind.name : StreamKind → String
  | control => "Control"
  | activation => "Activation"
  | bulk => "Bulk"
  | probe => "Probe"
  | inferenceRpc => "InferenceRpc"

/-- What `confirm` writes on a side. -/
def greets : Role → Bytes
  | .dialer => StreamHeader.control.encode ++ hello
  | .listener => hello

/-- The bytes that a side reads before the greeting. -/
def skips : Role → ℕ
  | .dialer => 0
  | .listener => headerLen

/-- How far `connect` or `accept` has come. -/
inductive ConfirmPhase where
  /-- The TLS handshake is not finished. -/
  | handshaking
  /-- `accept_stream` waits for the header. -/
  | accepting
  /-- The greeting is written, and that of the other side is read. -/
  | greeting
  | confirmed
  | failed (why : NetError)
  deriving DecidableEq

/-- How far a side has to go. -/
def ConfirmPhase.left : ConfirmPhase → ℕ
  | handshaking => 200
  | accepting => 100
  | greeting => 1
  | _ => 0

/-- A connection, while it is confirmed. -/
structure Confirming where
  /-- What comes from a side, on the control stream. -/
  line : Role → Line UInt8
  /-- The side has finished its TLS handshake. -/
  judged : Role → Bool
  phase : Role → ConfirmPhase

namespace Confirming

/-- The connection is being made. -/
def dialled : Confirming := ⟨fun _ => .idle, fun _ => false, fun _ => .handshaking⟩

/-- What can happen next. -/
inductive Event where
  /-- The TLS handshake of the side comes to the key of the other; `refusal` is how it says no. -/
  | handshake (side : Role) (refusal : NetError)
  /-- `write_all` goes on. -/
  | send (side : Role) (n : ℕ)
  /-- Bytes arrive. -/
  | inbound (side : Role) (op : Line.Inbound)
  /-- `accept_stream` has the header. -/
  | acceptStream
  /-- `confirm` has the greeting. -/
  | confirm (side : Role)
  /-- The side fails, or takes too long, or closes the connection. -/
  | fail (side : Role) (why : NetError)

/-- What comes from the side changes. -/
def setLine (c : Confirming) (side : Role) (l : Line UInt8) : Confirming :=
  { c with line := Function.update c.line side l }

/-- The side moves on. -/
def enter (c : Confirming) (side : Role) (phase : ConfirmPhase) : Confirming :=
  { c with phase := Function.update c.phase side phase }

/-- The side writes what it has to say first. -/
def greet (c : Confirming) (side : Role) : Confirming :=
  (c.setLine side ((c.line side).outbound (.read (greets side)))).enter side .greeting

/-- The side has accepted the key of the other. -/
def judge (c : Confirming) (side : Role) : Confirming :=
  let c := { c with judged := Function.update c.judged side true }
  match side with
  | .dialer => c.greet .dialer
  | .listener => c.enter .listener .accepting

/-- The side gives up its connection. -/
def drop (c : Confirming) (side : Role) (why : NetError) : Confirming :=
  let c := { c with line := fun s => (c.line s).cut }
  match c.phase side with
  | .confirmed | .failed _ => c
  | _ => c.enter side (.failed why)

/-- What an event does, if it is possible now; `admits side` : the policy of the side accepts the key of
the other one. -/
def step (admits : Role → Bool) (c : Confirming) : Event → Confirming
  | .handshake side refusal =>
    -- the key of the dialer comes with the end of its own handshake
    if c.phase side = .handshaking ∧ (side = .listener → c.judged .dialer) then
      if admits side then c.judge side else c.drop side refusal
    else c
  | .send side n =>
    if c.phase side = .greeting then c.setLine side ((c.line side).outbound (.send n)) else c
  | .inbound side op =>
    if c.phase side = .accepting ∨ c.phase side = .greeting then
      c.setLine side.other ((c.line side.other).inbound op)
    else c
  | .acceptStream =>
    let bytes := (c.line .dialer).delivered
    if c.phase .listener = .accepting ∧ headerLen ≤ bytes.length then
      match StreamHeader.decode (bytes.take headerLen) with
      | .error e => c.drop .listener e
      | .ok header =>
        if header.kind = .control then c.greet .listener
        else c.drop .listener
          (.streamHeader ("expected a control stream, got " ++ header.kind.name))
    else c
  | .confirm side =>
    let bytes := (c.line side.other).delivered.drop (skips side)
    if c.phase side = .greeting ∧ (c.line side).near.isEmpty ∧ hello.length ≤ bytes.length then
      if bytes.take hello.length = hello then c.enter side .confirmed else c.drop side .rejected
    else c
  | .fail side why => c.drop side why

/-- The connection after some events. -/
def run (admits : Role → Bool) (events : List Event) : Confirming := events.foldl (step admits) dialled

/-! ### What holds at all times -/

/-- What has been sent by a side that has come this far. -/
def Fits (side : Role) (judged : Bool) (l : Line UInt8) : ConfirmPhase → Prop
  | .handshaking => l.sent = []
  | .accepting => side = .listener ∧ judged = true ∧ l.sent = []
  | .greeting => judged = true ∧ l.sent = greets side
  | .confirmed => judged = true ∧ l.sent = greets side ∧ l.near = []
  | .failed _ => l.sent = [] ∨ judged = true ∧ l.sent = greets side

/-- A line that nobody ends. -/
structure Open (l : Line UInt8) : Prop where
  inv : l.Inv True
  ended : l.ended = false

/-- What holds of the two sides at all times. -/
structure Inv (admits : Role → Bool) (c : Confirming) : Prop where
  lines : ∀ s, Open (c.line s)
  judged : ∀ s, c.judged s = true → admits s = true ∧ c.judged .dialer = true
  fits : ∀ s, Fits s (c.judged s) (c.line s) (c.phase s)
  heard : ∀ s, c.phase s = .confirmed → (c.line s.other).sent = greets s.other

variable {admits : Role → Bool} {c : Confirming} {side : Role} {l l' : Line UInt8} {judged : Bool}
  {phase : ConfirmPhase}

theorem eq_or_other (side s : Role) : s = side ∨ s = side.other := by
  cases side <;> cases s <;> simp [Role.other]

theorem greets_ne_nil (side : Role) : greets side ≠ [] := by cases side <;> decide

@[simp] theorem other_ne (side : Role) : side.other ≠ side := by cases side <;> decide

@[simp] theorem other_other (side : Role) : side.other.other = side := by cases side <;> rfl

/-- What was sent stays. -/
theorem Fits.congr (h : Fits side judged l phase) (hsent : l'.sent = l.sent)
    (hnear : l.near = [] → l'.near = []) : Fits side judged l' phase := by
  cases phase with
  | confirmed => exact ⟨h.1, hsent.trans h.2.1, hnear h.2.2⟩
  | _ => simpa only [Fits, hsent] using h

theorem Fits.accept (h : Fits side judged l phase) : Fits side true l phase := by
  cases phase with
  | handshaking => exact h
  | accepting => exact ⟨h.1, rfl, h.2.2⟩
  | greeting => exact ⟨rfl, h.2⟩
  | confirmed => exact ⟨rfl, h.2⟩
  | failed why => exact h.imp_right fun hsent => ⟨rfl, hsent.2⟩

/-- A side has sent nothing, or its greeting. -/
theorem Fits.sent (h : Fits side judged l phase) :
    l.sent = [] ∨ judged = true ∧ l.sent = greets side := by
  cases phase with
  | handshaking => exact .inl h
  | accepting => exact .inl h.2.2
  | greeting => exact .inr h
  | confirmed => exact .inr ⟨h.1, h.2.1⟩
  | failed why => exact h

theorem Open.send (h : Open l) (n : ℕ) : Open (l.outbound (.send n)) where
  inv := h.inv.outbound trivial _
  ended := (Line.outbound_send l n).2.1.trans h.ended

theorem Open.inbound (h : Open l) (op : Line.Inbound) : Open (l.inbound op) :=
  ⟨h.inv.inbound op, (Line.inbound_source l op).2.2.trans h.ended⟩

theorem Open.cut (h : Open l) : Open l.cut := ⟨h.inv.cut, h.ended⟩

theorem Open.read (h : Open l) (bytes : Bytes) :
    Open (l.outbound (.read bytes)) ∧ (l.outbound (.read bytes)).sent = l.sent ++ bytes := by
  have heq : l.outbound (.read bytes) = { l with sent := l.sent ++ bytes, near := l.near ++ bytes } :=
    if_neg (by rw [h.ended]; exact Bool.false_ne_true)
  exact ⟨⟨h.inv.outbound trivial _, by rw [heq]; exact h.ended⟩, by rw [heq]⟩

/-- What has come of a side that greets is the beginning of its greeting. -/
theorem Inv.delivered (h : c.Inv admits) (s : Role) (hne : (c.line s).delivered ≠ []) :
    c.judged s = true ∧ (c.line s).sent = greets s ∧ (c.line s).delivered <+: greets s := by
  have hprefix := (h.lines s).inv.prefix_sent
  obtain hempty | ⟨hjudged, hsent⟩ := (h.fits s).sent
  · rw [hempty, List.prefix_nil] at hprefix
    exact absurd hprefix hne
  · exact ⟨hjudged, hsent, hsent ▸ hprefix⟩

theorem inv_dialled : dialled.Inv admits where
  lines _ := ⟨Line.inv_idle, rfl⟩
  judged _ h := (by cases h)
  fits _ := rfl
  heard _ h := (by cases h)

/-- What a line carries changes, but not what was sent. -/
theorem Inv.setLine (h : c.Inv admits) (hopen : Open l) (hsent : l.sent = (c.line side).sent)
    (hnear : (c.line side).near = [] → l.near = []) : (c.setLine side l).Inv admits where
  lines s := by
    rcases eq_or_other side s with rfl | rfl
    · simpa [Confirming.setLine] using hopen
    · simpa [Confirming.setLine] using h.lines side.other
  judged := h.judged
  fits s := by
    rcases eq_or_other side s with rfl | rfl
    · have := (h.fits s).congr hsent hnear
      simpa [Confirming.setLine] using this
    · simpa [Confirming.setLine] using h.fits side.other
  heard s hs := by
    have := h.heard s hs
    rcases eq_or_other side s with rfl | rfl
    · simpa [Confirming.setLine] using this
    · rw [other_other] at this ⊢
      simpa [Confirming.setLine, hsent] using this

/-- A side moves on. -/
theorem Inv.enter (h : c.Inv admits) (hfits : Fits side (c.judged side) (c.line side) phase)
    (hheard : phase = .confirmed → (c.line side.other).sent = greets side.other) :
    (c.enter side phase).Inv admits where
  lines := h.lines
  judged := h.judged
  fits s := by
    rcases eq_or_other side s with rfl | rfl
    · simpa [Confirming.enter] using hfits
    · simpa [Confirming.enter] using h.fits side.other
  heard s hs := by
    rcases eq_or_other side s with rfl | rfl
    · exact hheard (by simpa [Confirming.enter] using hs)
    · exact h.heard side.other (by simpa [Confirming.enter] using hs)

theorem Inv.cut (h : c.Inv admits) : Inv admits { c with line := fun s => (c.line s).cut } where
  lines s := (h.lines s).cut
  judged := h.judged
  fits s := (h.fits s).congr rfl id
  heard := h.heard

theorem Inv.drop (h : c.Inv admits) (side : Role) (why : NetError) : (c.drop side why).Inv admits := by
  have hfailed : ∀ p, Fits side (c.judged side) (c.line side).cut p →
      Fits side (c.judged side) (c.line side).cut (.failed why) := fun p hp => hp.sent
  unfold Confirming.drop
  dsimp only
  split
  · exact h.cut
  · exact h.cut
  · exact h.cut.enter (hfailed _ (h.cut.fits side)) nofun

/-- A side that has sent nothing greets the other. -/
theorem Inv.greet (h : c.Inv admits) (hjudged : c.judged side = true) (hsent : (c.line side).sent = [])
    (hphase : c.phase side ≠ .confirmed) (hother : c.phase side.other ≠ .confirmed) :
    (c.greet side).Inv admits := by
  obtain ⟨hopen, hgreets⟩ := (h.lines side).read (greets side)
  rw [hsent, List.nil_append] at hgreets
  refine ⟨fun s => ?_, h.judged, fun s => ?_, fun s hs => ?_⟩
  · rcases eq_or_other side s with rfl | rfl
    · simpa [Confirming.greet, Confirming.setLine, Confirming.enter] using hopen
    · simpa [Confirming.greet, Confirming.setLine, Confirming.enter] using h.lines side.other
  · rcases eq_or_other side s with rfl | rfl
    · simpa [Confirming.greet, Confirming.setLine, Confirming.enter, Fits] using ⟨hjudged, hgreets⟩
    · simpa [Confirming.greet, Confirming.setLine, Confirming.enter] using h.fits side.other
  · rcases eq_or_other side s with rfl | rfl
    · simp [Confirming.greet, Confirming.enter] at hs
    · exact absurd (by simpa [Confirming.greet, Confirming.setLine, Confirming.enter] using hs) hother

/-- Nobody has heard from a side that has sent nothing. -/
theorem Inv.unheard (h : c.Inv admits) (hsent : (c.line side).sent = []) :
    c.phase side.other ≠ .confirmed := by
  intro hconfirmed
  have hheard := h.heard side.other hconfirmed
  rw [other_other, hsent] at hheard
  exact greets_ne_nil side hheard.symm

/-- The key of the other side is accepted. -/
theorem Inv.accept (h : c.Inv admits) (hadmits : admits side = true)
    (horder : side = .listener → c.judged .dialer = true) :
    Inv admits { c with judged := Function.update c.judged side true } where
  lines := h.lines
  judged s hs := by
    refine ⟨?_, ?_⟩
    · rcases eq_or_other side s with rfl | rfl
      · exact hadmits
      · exact (h.judged side.other (by simpa using hs)).1
    · cases side with
      | dialer => simp
      | listener => simpa using horder rfl
  fits s := by
    rcases eq_or_other side s with rfl | rfl
    · simpa using (h.fits s).accept
    · simpa using h.fits side.other
  heard := h.heard

theorem Inv.judge (h : c.Inv admits) (hphase : c.phase side = .handshaking)
    (hadmits : admits side = true) (horder : side = .listener → c.judged .dialer = true) :
    (c.judge side).Inv admits := by
  have haccepted := h.accept hadmits horder
  have hsent : (c.line side).sent = [] := by
    have hfits := h.fits side
    rwa [hphase] at hfits
  cases side with
  | dialer =>
    refine haccepted.greet (by simp) hsent ?_ (h.unheard hsent)
    show c.phase .dialer ≠ .confirmed
    rw [hphase]
    nofun
  | listener => exact haccepted.enter ⟨rfl, by simp, hsent⟩ nofun

/-- **One event.** -/
theorem Inv.step (h : c.Inv admits) (e : Event) : (c.step admits e).Inv admits := by
  cases e with
  | handshake side refusal =>
    unfold Confirming.step
    dsimp only
    split_ifs with hnow hadmits
    · exact h.judge hnow.1 hadmits hnow.2
    · exact h.drop side refusal
    · exact h
  | send side n =>
    unfold Confirming.step
    dsimp only
    split_ifs
    · exact h.setLine ((h.lines side).send n) (Line.outbound_send _ n).1 (Line.outbound_send _ n).2.2
    · exact h
  | inbound side op =>
    unfold Confirming.step
    dsimp only
    obtain ⟨hsent, hnear, -⟩ := Line.inbound_source (c.line side.other) op
    split_ifs
    · exact h.setLine ((h.lines side.other).inbound op) hsent hnear.trans
    · exact h
  | acceptStream =>
    unfold Confirming.step
    dsimp only
    split_ifs with hnow
    · cases hdecode : StreamHeader.decode ((c.line .dialer).delivered.take headerLen) with
      | error e => exact h.drop .listener e
      | ok header =>
        dsimp only
        split_ifs with hkind
        · have hfits := h.fits .listener
          rw [hnow.1] at hfits
          exact h.greet hfits.2.1 hfits.2.2 (by rw [hnow.1]; nofun) (h.unheard hfits.2.2)
        · exact h.drop .listener _
    · exact h
  | confirm side =>
    unfold Confirming.step
    dsimp only
    split_ifs with hnow hhello
    · obtain ⟨hphase, hnear, hlength⟩ := hnow
      have hfits := h.fits side
      rw [hphase] at hfits
      refine h.enter ⟨hfits.1, hfits.2, List.isEmpty_iff.1 hnear⟩ fun _ => ?_
      refine (h.delivered side.other fun hempty => ?_).2.1
      rw [hempty, List.drop_nil] at hlength
      exact absurd hlength (by decide)
    · exact h.drop side .rejected
    · exact h
  | fail side why => exact h.drop side why

/-- **What holds at all times.** -/
theorem inv_run (events : List Event) : (run admits events).Inv admits :=
  foldl_mono (fun _ e h => h.step e) events inv_dialled

/-- A side that is confirmed has been admitted, and has admitted the other. -/
theorem Inv.confirmed (h : c.Inv admits) (hconfirmed : c.phase side = .confirmed) (s : Role) :
    admits s = true ∧ c.judged s = true := by
  suffices hjudged : c.judged s = true from ⟨(h.judged s hjudged).1, hjudged⟩
  rcases eq_or_other side s with rfl | rfl
  · have hfits := h.fits s
    rw [hconfirmed] at hfits
    exact hfits.1
  · obtain hsent | hsent := (h.fits side.other).sent
    · exact absurd ((h.heard side hconfirmed).symm.trans hsent) (greets_ne_nil _)
    · exact hsent.1

/-! ### Sides that admit each other -/

/-- The event is no failure. -/
def Event.Calm : Event → Prop
  | .fail _ _ => False
  | _ => True

/-- A connection of sides that admit each other, on which nothing has failed. -/
structure Live (c : Confirming) : Prop where
  inv : c.Inv fun _ => true
  unfailed : ∀ s why, c.phase s ≠ .failed why
  unbroken : ∀ s, (c.line s).broken = false ∧ (c.line s).finished = false

/-- What a side is at, and what comes from it. -/
def view (c : Confirming) (s : Role) : ConfirmPhase × Line UInt8 := (c.phase s, c.line s)

/-- How a side moves when nothing fails. -/
inductive Move : ConfirmPhase × Line UInt8 → ConfirmPhase × Line UInt8 → Prop
  | accept (l : Line UInt8) : Move (.handshaking, l) (.accepting, l)
  | greet (l : Line UInt8) {p : ConfirmPhase} (bytes : Bytes) : p = .handshaking ∨ p = .accepting →
      bytes.length ≤ 24 → Move (p, l) (.greeting, l.outbound (.read bytes))
  | send (p : ConfirmPhase) (l : Line UInt8) (n : ℕ) : Move (p, l) (p, l.outbound (.send n))
  | inbound (p : ConfirmPhase) (l : Line UInt8) (op : Line.Inbound) : Move (p, l) (p, l.inbound op)
  | confirm (l : Line UInt8) : Move (.greeting, l) (.confirmed, l)

/-- One side moves. -/
def Advance (c c' : Confirming) : Prop :=
  ∃ side, Move (c.view side) (c'.view side) ∧ c'.view side.other = c.view side.other

theorem length_greets (side : Role) : (greets side).length ≤ 24 := by cases side <;> decide

theorem advance_setLine (h : Move (c.view side) (c.phase side, l)) : Advance c (c.setLine side l) := by
  refine ⟨side, ?_, ?_⟩
  · simpa [view, Confirming.setLine] using h
  · simp [view, Confirming.setLine]

theorem advance_enter (h : Move (c.view side) (phase, c.line side)) :
    Advance c (c.enter side phase) := by
  refine ⟨side, ?_, ?_⟩
  · simpa [view, Confirming.enter] using h
  · simp [view, Confirming.enter]

theorem advance_greet (h : c.phase side = .handshaking ∨ c.phase side = .accepting) :
    Advance c (c.greet side) := by
  refine ⟨side, ?_, ?_⟩
  · have := Move.greet (c.line side) (greets side) h (length_greets side)
    simpa [view, Confirming.greet, Confirming.setLine, Confirming.enter] using this
  · simp [view, Confirming.greet, Confirming.setLine, Confirming.enter]

theorem advance_judge (h : c.phase side = .handshaking) : Advance c (c.judge side) := by
  cases side with
  | dialer => exact advance_greet (c := { c with judged := _ }) (.inl h)
  | listener =>
    refine advance_enter (c := { c with judged := _ }) ?_
    simpa only [view, h] using Move.accept (c.line .listener)

/-- The header that arrives is that of a control stream. -/
theorem Live.header (h : c.Live) (hlength : headerLen ≤ (c.line .dialer).delivered.length) :
    (c.line .dialer).delivered.take headerLen = StreamHeader.control.encode := by
  have hne : (c.line .dialer).delivered ≠ [] := by
    intro hempty
    rw [hempty] at hlength
    exact absurd hlength (by decide)
  obtain ⟨rest, hrest⟩ := (h.inv.delivered .dialer hne).2.2
  have htake := congrArg (List.take headerLen) hrest
  rw [List.take_append_of_le_length hlength] at htake
  exact htake.trans (List.take_left' (StreamHeader.length_encode _))

/-- The greeting that arrives is the one that was written. -/
theorem Live.greeting (h : c.Live)
    (hlength : hello.length ≤ ((c.line side.other).delivered.drop (skips side)).length) :
    ((c.line side.other).delivered.drop (skips side)).take hello.length = hello := by
  have hne : (c.line side.other).delivered ≠ [] := by
    intro hempty
    rw [hempty, List.drop_nil] at hlength
    exact absurd hlength (by decide)
  obtain ⟨rest, hrest⟩ := (h.inv.delivered side.other hne).2.2
  have hgreets : (greets side.other).drop (skips side) = hello := by cases side <;> decide
  have hskips : skips side ≤ (c.line side.other).delivered.length := by
    rw [List.length_drop] at hlength
    have : hello.length = 4 := by decide
    omega
  rw [← hrest, List.drop_append_of_le_length hskips] at hgreets
  have htake := congrArg (List.take hello.length) hgreets
  rw [List.take_append_of_le_length hlength] at htake
  exact htake.trans (List.take_length)

/-- **One event** that is no failure. -/
theorem Live.step_cases (h : c.Live) {e : Event} (hcalm : e.Calm) :
    c.step (fun _ => true) e = c ∨ Advance c (c.step (fun _ => true) e) := by
  cases e with
  | handshake side refusal =>
    unfold Confirming.step
    dsimp only
    split_ifs with hnow htrue
    · exact .inr (advance_judge hnow.1)
    · exact absurd rfl htrue
    · exact .inl rfl
  | send side n =>
    unfold Confirming.step
    dsimp only
    split_ifs
    · exact .inr (advance_setLine (.send _ _ n))
    · exact .inl rfl
  | inbound side op =>
    unfold Confirming.step
    dsimp only
    split_ifs
    · exact .inr (advance_setLine (.inbound _ _ op))
    · exact .inl rfl
  | acceptStream =>
    unfold Confirming.step
    dsimp only
    split_ifs with hnow
    · rw [h.header hnow.2, StreamHeader.decode_encode]
      exact .inr (advance_greet (.inr hnow.1))
    · exact .inl rfl
  | confirm side =>
    unfold Confirming.step
    dsimp only
    split_ifs with hnow hhello
    · refine .inr (advance_enter ?_)
      simpa only [view, hnow.1] using Move.confirm (c.line side)
    · exact absurd (h.greeting hnow.2.2) hhello
    · exact .inl rfl
  | fail side why => exact hcalm.elim

/-- What moves has not failed, and its line is whole. -/
theorem Move.whole {x y : ConfirmPhase × Line UInt8} (h : Move x y) :
    (∀ why, y.1 = .failed why → x.1 = .failed why) ∧ y.2.broken = x.2.broken ∧
      y.2.finished = x.2.finished := by
  cases h with
  | accept l => exact ⟨nofun, rfl, rfl⟩
  | greet l bytes hp hle => exact ⟨nofun, Line.outbound_whole l _ nofun⟩
  | send p l n => exact ⟨fun _ => id, Line.outbound_whole l _ nofun⟩
  | inbound p l op => exact ⟨fun _ => id, Line.inbound_whole l op⟩
  | confirm l => exact ⟨nofun, rfl, rfl⟩

theorem Live.step (h : c.Live) {e : Event} (hcalm : e.Calm) : (c.step (fun _ => true) e).Live := by
  have hinv := h.inv.step e
  obtain hsame | ⟨side, hmove, hother⟩ := h.step_cases hcalm
  · rwa [hsame]
  · obtain ⟨hfailed, hbroken, hfinished⟩ := hmove.whole
    refine ⟨hinv, fun s why hs => ?_, fun s => ?_⟩
    · rcases eq_or_other side s with rfl | rfl
      · exact h.unfailed s why (hfailed why hs)
      · exact h.unfailed side.other why ((congrArg Prod.fst hother).symm.trans hs)
    · rcases eq_or_other side s with rfl | rfl
      · exact ⟨hbroken.trans (h.unbroken s).1, hfinished.trans (h.unbroken s).2⟩
      · rw [show (c.step (fun _ => true) e).line side.other = c.line side.other from
          congrArg Prod.snd hother]
        exact h.unbroken side.other

/-- What is still to be done on a side. -/
def weight (x : ConfirmPhase × Line UInt8) : ℕ := x.1.left + x.2.load

/-- A side that moves has less to do. -/
theorem Move.weight_lt {x y : ConfirmPhase × Line UInt8} (h : Move x y) {began : Prop}
    (hinv : x.2.Inv began) (hopen : x.2.finished = false) : y = x ∨ weight y < weight x := by
  cases h with
  | accept l => exact .inr (Nat.add_lt_add_right (show (100 : ℕ) < 200 by decide) _)
  | greet l bytes hp hle =>
    right
    have hload := Line.load_read l bytes
    obtain rfl | rfl := hp <;> simp only [weight, ConfirmPhase.left] <;> omega
  | send p l n =>
    obtain hsame | hless := Line.load_send l n
    · exact .inl (by rw [hsame])
    · exact .inr (Nat.add_lt_add_left hless _)
  | inbound p l op =>
    obtain hsame | hless := hinv.load_inbound hopen op
    · exact .inl (by rw [hsame])
    · exact .inr (Nat.add_lt_add_left hless _)
  | confirm l => exact .inr (Nat.add_lt_add_right (show (0 : ℕ) < 1 by decide) _)

/-- What is still to be done. -/
def left (c : Confirming) : ℕ := weight (c.view .dialer) + weight (c.view .listener)

theorem Live.left_lt (h : c.Live) {e : Event} (hcalm : e.Calm) :
    (∀ s, (c.step (fun _ => true) e).view s = c.view s) ∨ (c.step (fun _ => true) e).left < c.left := by
  obtain hsame | ⟨side, hmove, hother⟩ := h.step_cases hcalm
  · exact .inl fun s => by rw [hsame]
  · obtain hsame | hless := hmove.weight_lt (h.inv.lines side).inv (h.unbroken side).2
    · left
      intro s
      rcases eq_or_other side s with rfl | rfl
      exacts [hsame, hother]
    · right
      have hweight := congrArg weight hother
      cases side with
      | dialer => exact Nat.add_lt_add_of_lt_of_le hless hweight.le
      | listener => exact Nat.add_lt_add_of_le_of_lt hweight.le hless

/-- Nothing moves any more, unless something fails. -/
def Settled (c : Confirming) : Prop :=
  ∀ e : Event, e.Calm → ∀ s, (c.step (fun _ => true) e).view s = c.view s

theorem Settled.phase_eq (h : c.Settled) {e : Event} (hcalm : e.Calm) (s : Role) :
    (c.step (fun _ => true) e).phase s = c.phase s := congrArg Prod.fst (h e hcalm s)

theorem Settled.line_eq (h : c.Settled) {e : Event} (hcalm : e.Calm) (s : Role) :
    (c.step (fun _ => true) e).line s = c.line s := congrArg Prod.snd (h e hcalm s)

/-- The handshakes are finished. -/
theorem Settled.handshaken (hsettled : c.Settled) (h : c.Live) (s : Role) :
    c.phase s ≠ .handshaking ∧ c.judged s = true := by
  have hjudges (s : Role) (horder : s = .listener → c.judged .dialer = true) :
      c.phase s ≠ .handshaking := by
    intro hat
    have hstep : c.step (fun _ => true) (.handshake s .rejected) = c.judge s := by
      unfold Confirming.step
      dsimp only
      rw [if_pos ⟨hat, horder⟩, if_pos rfl]
    have hphase := hsettled.phase_eq (e := .handshake s .rejected) trivial s
    rw [hstep, hat] at hphase
    cases s <;> simp [Confirming.judge, Confirming.greet, Confirming.enter] at hphase
  have hjudged (s : Role) (hne : c.phase s ≠ .handshaking) : c.judged s = true := by
    have hfits := h.inv.fits s
    cases hphase : c.phase s with
    | handshaking => exact absurd hphase hne
    | accepting => rw [hphase] at hfits; exact hfits.2.1
    | greeting => rw [hphase] at hfits; exact hfits.1
    | confirmed => rw [hphase] at hfits; exact hfits.1
    | failed why => exact absurd hphase (h.unfailed s why)
  have hdialer := hjudges .dialer nofun
  cases s with
  | dialer => exact ⟨hdialer, hjudged _ hdialer⟩
  | listener =>
    have hlistener := hjudges .listener fun _ => hjudged _ hdialer
    exact ⟨hlistener, hjudged _ hlistener⟩

/-- A side that greets has written its greeting. -/
theorem Settled.near (hsettled : c.Settled) (h : c.Live)
    (hphase : c.phase side = .greeting ∨ c.phase side = .confirmed) :
    (c.line side).near = [] ∧ (c.line side).sent = greets side := by
  have hfits := h.inv.fits side
  obtain hgreeting | hconfirmed := hphase
  · rw [hgreeting] at hfits
    refine ⟨?_, hfits.2⟩
    have hline := hsettled.line_eq (e := .send side (c.line side).near.length) trivial side
    have hstep : c.step (fun _ => true) (.send side (c.line side).near.length) =
        c.setLine side ((c.line side).outbound (.send (c.line side).near.length)) := if_pos hgreeting
    have hopen : ¬ ((c.line side).finished = true ∨ (c.line side).broken = true) := by
      simp [h.unbroken side]
    rw [hstep] at hline
    have hnear := congrArg Line.near hline
    simp only [Confirming.setLine, Function.update_self, Line.outbound, if_neg hopen,
      List.drop_length] at hnear
    exact hnear.symm
  · rw [hconfirmed] at hfits
    exact ⟨hfits.2.2, hfits.2.1⟩

/-- What was written has come to a side that reads it. -/
theorem Settled.delivered (hsettled : c.Settled) (h : c.Live)
    (hreads : c.phase side = .accepting ∨ c.phase side = .greeting)
    (hother : c.phase side.other = .greeting ∨ c.phase side.other = .confirmed) :
    (c.line side.other).delivered = greets side.other := by
  obtain ⟨hnear, hsent⟩ := hsettled.near h hother
  have hinbound (op : Line.Inbound) : (c.line side.other).inbound op = c.line side.other := by
    have hline := hsettled.line_eq (e := .inbound side op) trivial side.other
    have hstep : c.step (fun _ => true) (.inbound side op) =
        c.setLine side.other ((c.line side.other).inbound op) := if_pos hreads
    rw [hstep] at hline
    simpa [Confirming.setLine] using hline
  rw [← hsent]
  exact (h.inv.lines side.other).inv.delivered_eq (h.unbroken side.other).1 hnear (hinbound _)
    (hinbound _)

/-- **Nobody waits for the other.** -/
theorem Settled.confirmed (hsettled : c.Settled) (h : c.Live) (s : Role) :
    c.phase s = .confirmed := by
  have hrest (s : Role) (hnot : c.phase s ≠ .accepting) :
      c.phase s = .greeting ∨ c.phase s = .confirmed := by
    cases hphase : c.phase s with
    | handshaking => exact absurd hphase (hsettled.handshaken h s).1
    | accepting => exact absurd hphase hnot
    | greeting => exact .inl rfl
    | confirmed => exact .inr rfl
    | failed why => exact absurd hphase (h.unfailed s why)
  have hdialer : c.phase .dialer = .greeting ∨ c.phase .dialer = .confirmed := by
    refine hrest .dialer fun hat => ?_
    have hfits := h.inv.fits .dialer
    rw [hat] at hfits
    cases hfits.1
  have hlistener : c.phase .listener = .greeting ∨ c.phase .listener = .confirmed := by
    refine hrest .listener fun hat => ?_
    -- the header has come
    have hdelivered := @Settled.delivered c .listener hsettled h (.inl hat) hdialer
    have hlength : headerLen ≤ (c.line .dialer).delivered.length := by
      rw [show (c.line .dialer).delivered = greets .dialer from hdelivered]
      decide
    have hphase := hsettled.phase_eq (e := .acceptStream) trivial .listener
    have hstep : c.step (fun _ => true) .acceptStream = c.greet .listener := by
      unfold Confirming.step
      dsimp only
      rw [if_pos ⟨hat, hlength⟩, h.header hlength, StreamHeader.decode_encode]
      exact if_pos rfl
    rw [hstep, hat] at hphase
    simp [Confirming.greet, Confirming.enter] at hphase
  have hboth (s : Role) : c.phase s = .greeting ∨ c.phase s = .confirmed := by
    cases s with
    | dialer => exact hdialer
    | listener => exact hlistener
  refine (hboth s).resolve_left fun hat => ?_
  -- the greeting has come
  have hdelivered := hsettled.delivered h (.inr hat) (hboth s.other)
  have hlength : hello.length ≤ ((c.line s.other).delivered.drop (skips s)).length := by
    rw [hdelivered]
    cases s <;> decide
  have hnear := (hsettled.near h (.inl hat)).1
  have hphase := hsettled.phase_eq (e := .confirm s) trivial s
  have hstep : c.step (fun _ => true) (.confirm s) = c.enter s .confirmed := by
    unfold Confirming.step
    dsimp only
    rw [if_pos ⟨hat, by rw [hnear]; rfl, hlength⟩, if_pos (h.greeting hlength)]
  rw [hstep, hat] at hphase
  simp [Confirming.enter] at hphase

/-- Both can still be confirmed. -/
theorem Live.exists_confirmed (h : c.Live) : ∃ more : List Event, (∀ e ∈ more, e.Calm) ∧
    ∀ s, (more.foldl (Confirming.step fun _ => true) c).phase s = .confirmed := by
  induction hleft : c.left using Nat.strong_induction_on generalizing c with
  | _ n ih =>
    by_cases hsettled : c.Settled
    · exact ⟨[], nofun, hsettled.confirmed h⟩
    · obtain ⟨e, hcalm, hmoves⟩ : ∃ e : Event, e.Calm ∧
          ¬ ∀ s, (c.step (fun _ => true) e).view s = c.view s := by
        simpa [Settled] using hsettled
      have hless := (h.left_lt hcalm).resolve_left hmoves
      obtain ⟨more, hall, hconfirmed⟩ := ih _ (hleft ▸ hless) (h.step hcalm) rfl
      exact ⟨e :: more, List.forall_mem_cons.2 ⟨hcalm, hall⟩, hconfirmed⟩

theorem live_run {events : List Event} (hcalm : ∀ e ∈ events, e.Calm) :
    (run (fun _ => true) events).Live := by
  refine foldl_guarded (G := fun _ e => e.Calm) (fun c e he h => h.step he) ?_ ?_
  · exact ⟨inv_dialled, nofun, fun _ => ⟨rfl, rfl⟩⟩
  · rintro before e after rfl
    exact hcalm e (by simp)

/-- **Confirming a connection**, in any order of events: a side whose `connect` or `accept` has returned
`Ok` has admitted the other, and was admitted by it, although the handshake of the dialer ends before the
listener has judged it; and sides that admit each other do not fail, and can still both return, as long as
neither takes too long and the connection holds. -/
theorem confirm_admitted (admits : Role → Bool) (events : List Event) :
    (∀ side, (run admits events).phase side = .confirmed →
        ∀ s, admits s = true ∧ (run admits events).judged s = true) ∧
      ((∀ s, admits s = true) → (∀ e ∈ events, e.Calm) →
        (∀ s why, (run admits events).phase s ≠ .failed why) ∧
          ∃ more : List Event, (∀ e ∈ more, e.Calm) ∧
            ∀ s, (run admits (events ++ more)).phase s = .confirmed) := by
  refine ⟨fun side hconfirmed => (inv_run events).confirmed hconfirmed, fun hall hcalm => ?_⟩
  obtain rfl : admits = fun _ => true := funext hall
  have hlive := live_run hcalm
  obtain ⟨more, hmore, hconfirmed⟩ := hlive.exists_confirmed
  refine ⟨hlive.unfailed, more, hmore, fun s => ?_⟩
  rw [run, List.foldl_append]
  exact hconfirmed s

end Confirming

end Net

end Latticed
