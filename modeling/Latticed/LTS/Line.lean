import Mathlib.Data.List.Basic

/-!
# A line

What a source gives is carried to a sink by two copies with a stream between them.  A copy takes what
there is to take, as much or as little as it likes, and puts it down before it says that the end has
come; the stream keeps the order, and may break.

* `Line.Inv.outbound`, `Line.Inv.inbound` : nothing is lost on the line, doubled or put in another order,
  whatever either copy does.
* `Line.Inv.prefix_sent` : what arrives is a prefix of what was sent.
* `Line.Inv.shut_eq` : if the end arrives, everything has.
* `Line.load_send`, `Line.Inv.load_inbound` : whatever moves has less to go.
-/

namespace Latticed

/-- One way from a source to a sink. -/
structure Line (α : Type) where
  /-- What the first copy has taken from the source, from the beginning. -/
  sent : List α
  /-- The source has ended. -/
  ended : Bool
  /-- What the first copy holds. -/
  near : List α
  /-- What is in the stream. -/
  wire : List α
  /-- The stream has been finished: its end will arrive. -/
  finished : Bool
  /-- Nothing more will arrive. -/
  broken : Bool
  /-- What the second copy holds. -/
  far : List α
  /-- The second copy has read the end of the stream. -/
  seen : Bool
  /-- What the sink has been given, from the beginning. -/
  delivered : List α
  /-- The sink has been told the end. -/
  shut : Bool
  deriving DecidableEq

namespace Line

variable {α : Type}

/-- Nothing has been sent. -/
def idle : Line α := ⟨[], false, [], [], false, false, [], false, [], false⟩

/-- What the first copy does. -/
inductive Outbound (α : Type) where
  | read (chunk : List α)
  | readEnd
  | send (n : ℕ)
  | finish

/-- What the second copy does. -/
inductive Inbound where
  | receive (n : ℕ)
  | receiveEnd
  | write (n : ℕ)
  | shutdown

/-- A step of the first copy, if it is possible now. -/
def outbound (l : Line α) : Outbound α → Line α
  | .read chunk =>
    if l.ended then l else { l with sent := l.sent ++ chunk, near := l.near ++ chunk }
  | .readEnd => { l with ended := true }
  | .send n =>
    if l.finished ∨ l.broken then l
    else { l with near := l.near.drop n, wire := l.wire ++ l.near.take n }
  | .finish => if l.ended ∧ l.near.isEmpty then { l with finished := true } else l

/-- A step of the second copy, if it is possible now. -/
def inbound (l : Line α) : Inbound → Line α
  | .receive n =>
    if l.broken then l else { l with wire := l.wire.drop n, far := l.far ++ l.wire.take n }
  | .receiveEnd =>
    if ¬ l.broken ∧ l.finished ∧ l.wire.isEmpty then { l with seen := true } else l
  | .write n => { l with far := l.far.drop n, delivered := l.delivered ++ l.far.take n }
  | .shutdown => if l.seen ∧ l.far.isEmpty then { l with shut := true } else l

/-- The stream breaks. -/
def cut (l : Line α) : Line α := { l with broken := true }

/-- The sending half of the stream is let go of: that finishes it. -/
def release (l : Line α) : Line α := { l with finished := true }

/-- What is sent is on its way in order, and an end is told after everything before it.  `began` : the
first copy has been at work. -/
structure Inv (began : Prop) (l : Line α) : Prop where
  conserved : l.delivered ++ l.far ++ l.wire ++ l.near = l.sent
  still : ¬ began → l.sent = [] ∧ l.ended = false
  finished : l.finished = true → l.near = [] ∧ (began → l.ended = true)
  seen : l.seen = true → l.finished = true ∧ l.wire = []
  shut : l.shut = true → l.seen = true ∧ l.far = []

variable {began : Prop} {l : Line α}

theorem inv_idle : (idle : Line α).Inv began where
  conserved := rfl
  still _ := ⟨rfl, rfl⟩
  finished h := (by cases h)
  seen h := (by cases h)
  shut h := (by cases h)

/-- **The first copy** keeps the order. -/
theorem Inv.outbound (h : l.Inv began) (hbegan : began) (op : Outbound α) :
    (l.outbound op).Inv began := by
  obtain ⟨hconserved, -, hfinished, hseen, hshut⟩ := h
  have hstill {l' : Line α} : ¬ began → l'.sent = [] ∧ l'.ended = false := fun hnot => absurd hbegan hnot
  cases op with
  | read chunk =>
    unfold Line.outbound
    dsimp only
    split_ifs with hended
    · exact ⟨hconserved, hstill, hfinished, hseen, hshut⟩
    · refine ⟨?_, hstill, fun hfin => absurd ((hfinished hfin).2 hbegan) hended, hseen, hshut⟩
      rw [← hconserved, List.append_assoc _ l.near]
  | readEnd =>
    exact ⟨hconserved, hstill, fun hfin => ⟨(hfinished hfin).1, fun _ => rfl⟩, hseen, hshut⟩
  | send n =>
    unfold Line.outbound
    dsimp only
    split_ifs with hclosed
    · exact ⟨hconserved, hstill, hfinished, hseen, hshut⟩
    · have hopen : ¬ l.finished = true := fun hfin => hclosed (.inl hfin)
      refine ⟨?_, hstill, fun hfin => absurd hfin hopen, fun hs => absurd (hseen hs).1 hopen, hshut⟩
      show l.delivered ++ l.far ++ (l.wire ++ l.near.take n) ++ l.near.drop n = l.sent
      rw [← hconserved, ← List.append_assoc _ l.wire, List.append_assoc _ (l.near.take n),
        List.take_append_drop]
  | finish =>
    unfold Line.outbound
    dsimp only
    split_ifs with hdone
    · refine ⟨hconserved, hstill, fun _ => ⟨List.isEmpty_iff.1 hdone.2, fun _ => hdone.1⟩, ?_, hshut⟩
      exact fun hs => ⟨rfl, (hseen hs).2⟩
    · exact ⟨hconserved, hstill, hfinished, hseen, hshut⟩

/-- **The second copy** keeps the order. -/
theorem Inv.inbound (h : l.Inv began) (op : Inbound) : (l.inbound op).Inv began := by
  obtain ⟨hconserved, hstill, hfinished, hseen, hshut⟩ := h
  cases op with
  | receive n =>
    unfold Line.inbound
    dsimp only
    split_ifs with hbroken
    · exact ⟨hconserved, hstill, hfinished, hseen, hshut⟩
    · refine ⟨?_, hstill, hfinished, fun hs => ⟨(hseen hs).1, ?_⟩, fun hs => ⟨(hshut hs).1, ?_⟩⟩
      · show l.delivered ++ (l.far ++ l.wire.take n) ++ l.wire.drop n ++ l.near = l.sent
        rw [← hconserved, ← List.append_assoc _ l.far, List.append_assoc _ (l.wire.take n),
          List.take_append_drop]
      · show l.wire.drop n = []
        rw [(hseen hs).2, List.drop_nil]
      · show l.far ++ l.wire.take n = []
        rw [(hshut hs).2, (hseen (hshut hs).1).2, List.take_nil, List.append_nil]
  | receiveEnd =>
    unfold Line.inbound
    dsimp only
    split_ifs with hend
    · refine ⟨hconserved, hstill, hfinished, fun _ => ⟨hend.2.1, List.isEmpty_iff.1 hend.2.2⟩, ?_⟩
      exact fun hs => ⟨rfl, (hshut hs).2⟩
    · exact ⟨hconserved, hstill, hfinished, hseen, hshut⟩
  | write n =>
    refine ⟨?_, hstill, hfinished, hseen, fun hs => ⟨(hshut hs).1, ?_⟩⟩
    · show l.delivered ++ l.far.take n ++ l.far.drop n ++ l.wire ++ l.near = l.sent
      rw [← hconserved, List.append_assoc l.delivered (l.far.take n), List.take_append_drop]
    · show l.far.drop n = []
      rw [(hshut hs).2, List.drop_nil]
  | shutdown =>
    unfold Line.inbound
    dsimp only
    split_ifs with hend
    · exact ⟨hconserved, hstill, hfinished, hseen, fun _ => ⟨hend.1, List.isEmpty_iff.1 hend.2⟩⟩
    · exact ⟨hconserved, hstill, hfinished, hseen, hshut⟩

theorem Inv.cut (h : l.Inv began) : l.cut.Inv began :=
  ⟨h.conserved, h.still, h.finished, h.seen, h.shut⟩

/-- A stream that is let go of before its copy began ends with nothing in it. -/
theorem Inv.release (h : l.Inv began) (hnot : ¬ began) : l.release.Inv began := by
  refine ⟨h.conserved, h.still, fun _ => ⟨?_, fun hbegan => absurd hbegan hnot⟩,
    fun hs => ⟨rfl, (h.seen hs).2⟩, h.shut⟩
  have hempty := h.conserved.trans (h.still hnot).1
  exact (List.append_eq_nil_iff.1 hempty).2

/-- The copy begins. -/
theorem Inv.begin {began' : Prop} (h : l.Inv began) (hopen : l.finished = false)
    (hkept : began → began') : l.Inv began' :=
  ⟨h.conserved, fun hnot => h.still fun hb => hnot (hkept hb),
    fun hfin => absurd (hopen.symm.trans hfin) Bool.false_ne_true, h.seen, h.shut⟩

theorem Inv.congr {began' : Prop} (h : l.Inv began) (hiff : began ↔ began') : l.Inv began' :=
  propext hiff ▸ h

theorem outbound_shut (l : Line α) (op : Outbound α) : (l.outbound op).shut = l.shut := by
  unfold Line.outbound
  cases op <;> dsimp only <;> split_ifs <;> rfl

/-- What the first copy sends it has taken before. -/
theorem outbound_send (l : Line α) (n : ℕ) : (l.outbound (.send n)).sent = l.sent ∧
    (l.outbound (.send n)).ended = l.ended ∧ (l.near = [] → (l.outbound (.send n)).near = []) := by
  unfold Line.outbound
  dsimp only
  split_ifs
  · exact ⟨rfl, rfl, id⟩
  · exact ⟨rfl, rfl, fun hnear => by rw [hnear, List.drop_nil]⟩

/-- The second copy has nothing to do with the source. -/
theorem inbound_source (l : Line α) (op : Inbound) :
    (l.inbound op).sent = l.sent ∧ (l.inbound op).near = l.near ∧ (l.inbound op).ended = l.ended := by
  unfold Line.inbound
  cases op with
  | write n => exact ⟨rfl, rfl, rfl⟩
  | _ => dsimp only; split_ifs <;> exact ⟨rfl, rfl, rfl⟩

/-- What is still to be carried, and how far. -/
def load (l : Line α) : ℕ := 3 * l.near.length + 2 * l.wire.length + l.far.length

theorem load_read (l : Line α) (chunk : List α) :
    (l.outbound (.read chunk)).load ≤ l.load + 3 * chunk.length := by
  unfold Line.outbound
  dsimp only
  split_ifs
  · exact Nat.le_add_right _ _
  · simp only [load, List.length_append]
    omega

/-- A copy does not break the stream, and only `finish` finishes it. -/
theorem outbound_whole (l : Line α) (op : Outbound α) (h : op ≠ .finish) :
    (l.outbound op).broken = l.broken ∧ (l.outbound op).finished = l.finished := by
  unfold Line.outbound
  cases op with
  | readEnd => exact ⟨rfl, rfl⟩
  | finish => exact absurd rfl h
  | _ => dsimp only; split_ifs <;> exact ⟨rfl, rfl⟩

theorem inbound_whole (l : Line α) (op : Inbound) :
    (l.inbound op).broken = l.broken ∧ (l.inbound op).finished = l.finished := by
  unfold Line.inbound
  cases op with
  | write n => exact ⟨rfl, rfl⟩
  | _ => dsimp only; split_ifs <;> exact ⟨rfl, rfl⟩

theorem inbound_finished (l : Line α) (op : Inbound) : (l.inbound op).finished = l.finished :=
  (inbound_whole l op).2

/-- Something of a list moves, or nothing. -/
theorem moves (xs : List α) (n : ℕ) : xs.take n = [] ∧ xs.drop n = xs ∨
    0 < (xs.take n).length ∧ (xs.take n).length + (xs.drop n).length = xs.length := by
  have hall := List.take_append_drop n xs
  cases htake : xs.take n with
  | nil => exact .inl ⟨rfl, by rwa [htake, List.nil_append] at hall⟩
  | cons x rest =>
    rw [htake] at hall
    exact .inr ⟨Nat.succ_pos _, by rw [← List.length_append, hall]⟩

/-- What is sent has less to go. -/
theorem load_send (l : Line α) (n : ℕ) :
    l.outbound (.send n) = l ∨ (l.outbound (.send n)).load < l.load := by
  unfold Line.outbound
  dsimp only
  split_ifs
  · exact .inl rfl
  · obtain ⟨htake, hdrop⟩ | hmoved := moves l.near n
    · left
      rw [htake, hdrop, List.append_nil]
    · right
      simp only [load, List.length_append]
      omega

/-- So has what arrives. -/
theorem Inv.load_inbound (h : l.Inv began) (hopen : l.finished = false) (op : Inbound) :
    l.inbound op = l ∨ (l.inbound op).load < l.load := by
  have hunseen : l.seen = false := by
    by_contra hseen
    rw [(h.seen (Bool.not_eq_false _ ▸ hseen)).1] at hopen
    cases hopen
  unfold Line.inbound
  cases op with
  | receive n =>
    dsimp only
    split_ifs
    · exact .inl rfl
    · obtain ⟨htake, hdrop⟩ | hmoved := moves l.wire n
      · left
        rw [htake, hdrop, List.append_nil]
      · right
        simp only [load, List.length_append]
        omega
  | write n =>
    dsimp only
    obtain ⟨htake, hdrop⟩ | hmoved := moves l.far n
    · left
      rw [htake, hdrop, List.append_nil]
    · right
      simp only [load]
      omega
  | receiveEnd => exact .inl (if_neg fun hend => Bool.false_ne_true (hopen ▸ hend.2.1))
  | shutdown => exact .inl (if_neg fun hend => Bool.false_ne_true (hunseen ▸ hend.1))

/-- A line on which nothing moves has carried everything. -/
theorem Inv.delivered_eq (h : l.Inv began) (hopen : l.broken = false) (hnear : l.near = [])
    (hreceive : l.inbound (.receive l.wire.length) = l) (hwrite : l.inbound (.write l.far.length) = l) :
    l.delivered = l.sent := by
  have hwire : l.wire = [] := by
    have := congrArg Line.wire hreceive
    simp only [Line.inbound, hopen, Bool.false_eq_true, if_false, List.drop_length] at this
    exact this.symm
  have hfar : l.far = [] := by
    have := congrArg Line.far hwrite
    simp only [Line.inbound, List.drop_length] at this
    exact this.symm
  have hsent := h.conserved
  rwa [hnear, hwire, hfar, List.append_nil, List.append_nil, List.append_nil] at hsent

/-- **What arrives is a prefix of what was sent.** -/
theorem Inv.prefix_sent (h : l.Inv began) : l.delivered <+: l.sent :=
  ⟨l.far ++ l.wire ++ l.near, by rw [← h.conserved]; simp only [List.append_assoc]⟩

/-- **If the end arrives, everything has**, and it is the end of the source, if the source was listened to
at all. -/
theorem Inv.shut_eq (h : l.Inv began) (hshut : l.shut = true) :
    l.delivered = l.sent ∧ (began → l.ended = true) := by
  obtain ⟨hseen, hfar⟩ := h.shut hshut
  obtain ⟨hfinished, hwire⟩ := h.seen hseen
  obtain ⟨hnear, hended⟩ := h.finished hfinished
  refine ⟨?_, hended⟩
  rw [← h.conserved, hfar, hwire, hnear]
  simp

end Line

end Latticed
