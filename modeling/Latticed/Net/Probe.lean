import Latticed.Net.Frames

/-!
# Measuring a link

A link is measured on two streams: sixteen bytes are sent to and fro, and then a large piece is sent that
the peer acknowledges when it has all of it.  The peer reads one request after the other and answers each
with a byte; it stops at the first that it does not know, or that asks for too much.

* `serveProbe_eq_iff` : the peer answers the requests that are complete, up to the first that it does not
  take, wherever the bytes have been split.
* `measure_served` : a link that is served is measured, whatever the size is, and the clock stops when
  everything has arrived and not before.
-/

namespace Latticed

namespace Net

open Rust

/-- `PING`. -/
def pingByte : UInt8 := 0x01

/-- `SINK`. -/
def sinkByte : UInt8 := 0x02

/-- `ACK`. -/
def ackByte : UInt8 := 0xAC

/-- `MAX_PROBE_BYTES`. -/
def maxProbeBytes : ℕ := 64 <<< 20

/-- `RTT_SAMPLES`. -/
def rttSamples : ℕ := 16

/-! ### The one that serves -/

/-- `drain`: what is left when the request is answered. -/
def drainProbe (r : Recv) : Option Recv :=
  match r.readExact 4 with
  | .error _ => none
  | .ok (header, r) =>
    let len := ofLeBytes header
    if maxProbeBytes < len then none
    else match r.readExact len with
      | .error _ => none
      | .ok (_, r) => some r

/-- A turn of `serve_stream`: what is left when the request is answered. -/
def probeTurn (r : Recv) : Option Recv :=
  match r.readExact 1 with
  | .error _ => none
  | .ok (opcode, r) =>
    if opcode = [pingByte] then some r
    else if opcode = [sinkByte] then drainProbe r
    else none

/-- At most so many turns of `serve_stream`. -/
def serveProbeFrom : ℕ → Recv → Bytes
  | 0, _ => []
  | n + 1, r =>
    match probeTurn r with
    | none => []
    | some r => ackByte :: serveProbeFrom n r

/-- `serve_stream`: the answers.  Every turn takes a byte at least. -/
def serveProbe (r : Recv) : Bytes := serveProbeFrom r.bytes.length r

/-! ### The one that measures -/

/-- The error that a probe reports. -/
def probeErr (why : String) : String := "link probe failed: " ++ why

/-- The loop of `measure_rtt`: `peer` tells what the peer has answered when some bytes have come, and `n` is
how often it is asked still. -/
def measureRttFrom (peer : Bytes → Bytes) (ending : String) : ℕ → Bytes → ℕ → Except String Unit
  | 0, _, _ => .ok ()
  | n + 1, written, read =>
    let written := written ++ [pingByte]
    match (peer written)[read]? with
    | none => .error (probeErr ending)
    | some _ => measureRttFrom peer ending n written (read + 1)

/-- What `measure_throughput` writes. -/
def sinkRequest (payload : Bytes) : Bytes :=
  sinkByte :: (toLeBytes 4 (payload.length % 2 ^ 32) ++ payload)

/-- `measure_throughput`. -/
def measureThroughput (peer : Bytes → Bytes) (ending : String) (probeBytes : ℕ) : Except String Unit :=
  match (peer (sinkRequest (List.replicate probeBytes 0)))[0]? with
  | none => .error (probeErr ending)
  | some ack => if ack ≠ ackByte then .error (NetError.display .rejected) else .ok ()

/-- `measure`, without the times. -/
def measure (peer : Bytes → Bytes) (ending : String) (probeBytes : ℕ) : Except String Unit := do
  let probeBytes := min probeBytes maxProbeBytes
  measureRttFrom peer ending rttSamples [] 0
  measureThroughput peer ending probeBytes

/-! ### Which requests are answered -/

/-- What can be asked. -/
inductive ProbeRequest where
  | ping
  | sink (payload : Bytes)

/-- The request on the wire. -/
def ProbeRequest.write : ProbeRequest → Bytes
  | ping => [pingByte]
  | sink payload => sinkByte :: (toLeBytes 4 payload.length ++ payload)

/-- The peer is ready to take it. -/
def ProbeRequest.Fits : ProbeRequest → Prop
  | ping => True
  | sink payload => payload.length ≤ maxProbeBytes

variable {r r' : Recv} {bytes answers : Bytes}

/-- A request that the peer takes is at the front. -/
def AtFront (bytes rest : Bytes) : Prop :=
  ∃ request : ProbeRequest, bytes = request.write ++ rest ∧ request.Fits

/-- `drain` reads a frame. -/
theorem drainProbe_eq (r : Recv) : drainProbe r = (readFrame r maxProbeBytes).toOption.map Prod.snd := by
  unfold drainProbe readFrame
  cases r.readExact 4 with
  | error why => rfl
  | ok header =>
    obtain ⟨header, r⟩ := header
    dsimp only
    split_ifs
    · rfl
    · cases r.readExact (ofLeBytes header) <;> rfl

theorem drainProbe_eq_some :
    drainProbe r = some r' → ∃ payload, r.bytes = toLeBytes 4 payload.length ++ payload ++ r'.bytes ∧
      payload.length ≤ maxProbeBytes := by
  rw [drainProbe_eq, Option.map_eq_some_iff]
  rintro ⟨⟨payload, rest⟩, hread, rfl⟩
  cases hframe : readFrame r maxProbeBytes with
  | error e =>
    rw [hframe] at hread
    cases hread
  | ok frame =>
    rw [hframe] at hread
    obtain rfl := Option.some.inj hread
    obtain ⟨hbytes, hmax, -⟩ := hasFrame_of_readFrame hframe
    exact ⟨payload, hbytes, hmax⟩

theorem drainProbe_write {payload more : Bytes} (hle : payload.length ≤ maxProbeBytes)
    (h : r.bytes = toLeBytes 4 payload.length ++ payload ++ more) :
    ∃ r', drainProbe r = some r' ∧ r'.bytes = more := by
  have hlt : payload.length < 2 ^ 32 := hle.trans_lt (by decide)
  obtain ⟨r', hread, hrest, -⟩ := readFrame_writeFrame (writeFrame_of_lt hlt) hle h
  exact ⟨r', by rw [drainProbe_eq, hread]; rfl, hrest⟩

/-- What is answered was asked. -/
theorem atFront_of_probeTurn (h : probeTurn r = some r') : AtFront r.bytes r'.bytes := by
  unfold probeTurn at h
  cases hbytes : r.bytes with
  | nil =>
    rw [Recv.readExact_of_lt (by rw [hbytes]; exact Nat.one_pos)] at h
    cases h
  | cons opcode more =>
    obtain ⟨r₁, hread, h₁, -⟩ := @Recv.readExact_append r [opcode] more hbytes
    rw [List.length_singleton] at hread
    rw [hread] at h
    dsimp only at h
    split_ifs at h with hping hsink
    · obtain rfl := Option.some.inj h
      rw [(List.cons.inj hping).1, h₁]
      exact ⟨.ping, rfl, trivial⟩
    · obtain ⟨payload, hpayload, hle⟩ := drainProbe_eq_some h
      rw [(List.cons.inj hsink).1, ← h₁, hpayload]
      exact ⟨.sink payload, rfl, hle⟩

/-- What is asked is answered. -/
theorem probeTurn_of_atFront {rest : Bytes} (h : AtFront r.bytes rest) :
    ∃ r', probeTurn r = some r' ∧ r'.bytes = rest := by
  obtain ⟨request, hbytes, hfits⟩ := h
  cases request with
  | ping =>
    obtain ⟨r₁, hread, h₁, -⟩ := @Recv.readExact_append r [pingByte] rest hbytes
    rw [List.length_singleton] at hread
    refine ⟨r₁, ?_, h₁⟩
    rw [probeTurn, hread]
    exact if_pos rfl
  | sink payload =>
    obtain ⟨r₁, hread, h₁, -⟩ :=
      @Recv.readExact_append r [sinkByte] (toLeBytes 4 payload.length ++ payload ++ rest) hbytes
    rw [List.length_singleton] at hread
    obtain ⟨r₂, hdrain, h₂⟩ := drainProbe_write hfits h₁
    refine ⟨r₂, ?_, h₂⟩
    rw [probeTurn, hread]
    exact (if_neg (by decide)).trans ((if_pos rfl).trans hdrain)

theorem probeTurn_eq_none : probeTurn r = none ↔ ∀ rest, ¬ AtFront r.bytes rest := by
  refine ⟨fun h rest hfront => ?_, fun h => ?_⟩
  · obtain ⟨r', hturn, -⟩ := probeTurn_of_atFront hfront
    rw [h] at hturn
    cases hturn
  · rw [Option.eq_none_iff_forall_ne_some]
    exact fun r' hturn => h r'.bytes (atFront_of_probeTurn hturn)

theorem AtFront.length_lt {rest : Bytes} (h : AtFront bytes rest) : rest.length < bytes.length := by
  obtain ⟨request, rfl, -⟩ := h
  have : 0 < request.write.length := by cases request <;> exact Nat.succ_pos _
  rw [List.length_append]
  omega

/-- The requests at the front are answered, and nothing else. -/
theorem serveProbeFrom_eq {n : ℕ} {requests : List ProbeRequest} {rest : Bytes} (hn : r.bytes.length ≤ n)
    (hbytes : r.bytes = requests.flatMap ProbeRequest.write ++ rest)
    (hfits : ∀ request ∈ requests, request.Fits) (hrest : ∀ more, ¬ AtFront rest more) :
    serveProbeFrom n r = requests.map fun _ => ackByte := by
  induction requests generalizing n r with
  | nil =>
    cases n with
    | zero => rfl
    | succ n =>
      obtain rfl : r.bytes = rest := hbytes
      rw [serveProbeFrom, probeTurn_eq_none.2 hrest]
      rfl
  | cons request requests ih =>
    have hfront : AtFront r.bytes (requests.flatMap ProbeRequest.write ++ rest) :=
      ⟨request, by rw [hbytes, List.flatMap_cons, List.append_assoc], hfits request List.mem_cons_self⟩
    obtain ⟨r', hturn, hmore⟩ := probeTurn_of_atFront hfront
    have hlt := hfront.length_lt
    cases n with
    | zero => omega
    | succ n =>
      have hle : r'.bytes.length ≤ n := by
        rw [hmore]
        omega
      rw [serveProbeFrom, hturn]
      exact congrArg (ackByte :: ·) (ih hle hmore fun q hq => hfits q (List.mem_cons_of_mem _ hq))

/-- Any bytes are some requests, and then something that is none. -/
theorem exists_requests (bytes : Bytes) :
    ∃ (requests : List ProbeRequest) (rest : Bytes),
      bytes = requests.flatMap ProbeRequest.write ++ rest ∧
        (∀ request ∈ requests, request.Fits) ∧ ∀ more, ¬ AtFront rest more := by
  by_cases hfront : ∃ rest, AtFront bytes rest
  · obtain ⟨more, hmore⟩ := hfront
    have := hmore.length_lt
    obtain ⟨requests, rest, hsplit, hfits, hrest⟩ := exists_requests more
    obtain ⟨request, hbytes, hfit⟩ := hmore
    refine ⟨request :: requests, rest, ?_, List.forall_mem_cons.2 ⟨hfit, hfits⟩, hrest⟩
    rw [hbytes, hsplit, List.flatMap_cons, List.append_assoc]
  · exact ⟨[], bytes, rfl, nofun, fun more hmore => hfront ⟨more, hmore⟩⟩
termination_by bytes.length

/-- **What is answered**: the requests at the front, up to the first that the peer does not take; where the
bytes have been split makes no difference. -/
theorem serveProbe_eq_iff :
    serveProbe r = answers ↔ ∃ (requests : List ProbeRequest) (rest : Bytes),
      r.bytes = requests.flatMap ProbeRequest.write ++ rest ∧ (∀ request ∈ requests, request.Fits) ∧
        (∀ more, ¬ AtFront rest more) ∧ answers = requests.map fun _ => ackByte := by
  constructor
  · rintro rfl
    obtain ⟨requests, rest, hbytes, hfits, hrest⟩ := exists_requests r.bytes
    exact ⟨requests, rest, hbytes, hfits, hrest, serveProbeFrom_eq le_rfl hbytes hfits hrest⟩
  · rintro ⟨requests, rest, hbytes, hfits, hrest, rfl⟩
    exact serveProbeFrom_eq le_rfl hbytes hfits hrest

/-! ### A measurement -/

theorem not_atFront_nil (rest : Bytes) : ¬ AtFront [] rest := fun h => absurd h.length_lt (Nat.not_lt_zero _)

theorem serveProbe_requests {requests : List ProbeRequest}
    (hbytes : r.bytes = requests.flatMap ProbeRequest.write)
    (hfits : ∀ request ∈ requests, request.Fits) :
    serveProbe r = requests.map fun _ => ackByte :=
  serveProbe_eq_iff.2 ⟨requests, [], by rw [hbytes, List.append_nil], hfits, not_atFront_nil, rfl⟩

theorem sinkRequest_eq {payload : Bytes} (hle : payload.length ≤ maxProbeBytes) :
    sinkRequest payload = (ProbeRequest.sink payload).write := by
  have hlt : payload.length < 2 ^ 32 := hle.trans_lt (by decide)
  rw [sinkRequest, Nat.mod_eq_of_lt hlt]
  rfl

/-- A part of a request asks for nothing. -/
theorem not_atFront_of_prefix {payload sent : Bytes} (hle : payload.length ≤ maxProbeBytes)
    (hsent : sent <+: (ProbeRequest.sink payload).write) (hne : sent ≠ (ProbeRequest.sink payload).write)
    (more : Bytes) : ¬ AtFront sent more := by
  rintro ⟨request, rfl, hfits⟩
  have hlt : payload.length < 2 ^ 32 := hle.trans_lt (by decide)
  obtain ⟨unsent, hall⟩ := hsent
  cases request with
  | ping => exact absurd (List.cons.inj hall).1 (by decide)
  | sink asked =>
    have hlt' : asked.length < 2 ^ 32 := Nat.lt_of_le_of_lt hfits (by decide)
    have htail : toLeBytes 4 asked.length ++ asked ++ (more ++ unsent) =
        toLeBytes 4 payload.length ++ payload ++ [] := by
      rw [List.append_nil, ← List.append_assoc]
      exact (List.cons.inj hall).2
    -- the length comes first, so it is the same
    have hlength : asked.length = payload.length := by
      have hframe := congrArg frameLen htail
      rwa [frameLen_append hlt', frameLen_append hlt] at hframe
    have hnil := congrArg List.length htail
    simp only [List.length_append, length_toLeBytes, List.length_nil] at hnil
    obtain rfl : unsent = [] := List.length_eq_zero_iff.1 (by omega)
    exact hne (by rw [← hall, List.append_nil])

/-- Sample after sample. -/
theorem measureRttFrom_served (split : (bytes : Bytes) → { r : Recv // r.bytes = bytes }) (ending : String)
    (n k : ℕ) :
    measureRttFrom (fun bytes => serveProbe (split bytes).val) ending n (List.replicate k pingByte) k =
      .ok () := by
  induction n generalizing k with
  | zero => rfl
  | succ n ih =>
    have hwritten : List.replicate k pingByte ++ [pingByte] = List.replicate (k + 1) pingByte :=
      List.replicate_succ'.symm
    have hpings : List.replicate (k + 1) pingByte =
        (List.replicate (k + 1) ProbeRequest.ping).flatMap ProbeRequest.write := by
      rw [List.flatMap_replicate]
      simp [ProbeRequest.write]
    have hanswers : serveProbe (split (List.replicate (k + 1) pingByte)).val =
        List.replicate (k + 1) ackByte := by
      rw [serveProbe_requests ((split _).property.trans hpings), List.map_replicate]
      intro request hrequest
      rw [List.eq_of_mem_replicate hrequest]
      trivial
    rw [measureRttFrom, hwritten, hanswers, List.getElem?_replicate_of_lt (Nat.lt_succ_self k)]
    exact ih (k + 1)

/-- **A link that is served is measured**, whatever size is asked for and however the bytes are split on
their way; and nothing is acknowledged before all of it has arrived, so that the time is the time of the
whole. -/
theorem measure_served (split : (bytes : Bytes) → { r : Recv // r.bytes = bytes }) (ending : String)
    (probeBytes : ℕ) :
    measure (fun bytes => serveProbe (split bytes).val) ending probeBytes = .ok () ∧
      ∀ sent, sent <+: sinkRequest (List.replicate (min probeBytes maxProbeBytes) 0) →
        sent ≠ sinkRequest (List.replicate (min probeBytes maxProbeBytes) 0) →
          serveProbe (split sent).val = [] := by
  have hle : (List.replicate (min probeBytes maxProbeBytes) (0 : UInt8)).length ≤ maxProbeBytes := by
    rw [List.length_replicate]
    exact min_le_right _ _
  constructor
  · have hack : serveProbe (split (sinkRequest (List.replicate (min probeBytes maxProbeBytes) 0))).val =
        [ackByte] := by
      refine @serveProbe_requests _ [.sink (List.replicate (min probeBytes maxProbeBytes) 0)] ?_ ?_
      · rw [(split _).property, sinkRequest_eq hle, List.flatMap_singleton]
      · exact List.forall_mem_singleton.2 hle
    have hrtt := measureRttFrom_served split ending rttSamples 0
    rw [List.replicate_zero] at hrtt
    unfold measure
    rw [hrtt]
    show measureThroughput (fun bytes => serveProbe (split bytes).val) ending _ = .ok ()
    rw [measureThroughput, hack]
    rfl
  · rw [sinkRequest_eq hle]
    intro sent hsent hne
    refine serveProbe_eq_iff.2 ⟨[], sent, (split sent).property, nofun, ?_, rfl⟩
    exact not_atFront_of_prefix hle hsent hne

end Net

end Latticed
