import AutomotiveGateway.DoIp.Connection
import AutomotiveGateway.Foundation.Loop
import AutomotiveGateway.Foundation.Machine

/-!
# Reassembly of the DoIP byte stream

Each `recv` appends to the connection's buffer; complete messages are then
handled and removed from its front. With a `size_t` that holds every message
size, the buffer always holds the suffix that the greedy parse of the whole
stream leaves over, so the way the stream was cut into arrivals does not matter.
-/

namespace AutomotiveGateway.DoIp

open Memory

/-- What the socket gives to `recv`: bytes (none at the end of the stream), or
an error with its `errno`. -/
inductive RecvResult
  | data (bytes : List UInt8)
  | error (errno : Nat)
deriving DecidableEq, Repr

/-- The value `recv` returns for a buffer of the given capacity, and the bytes
it writes there. -/
def RecvResult.recv : RecvResult → Nat → Int × List UInt8
  | data bytes, capacity => ((bytes.take capacity).length, bytes.take capacity)
  | error _, _ => (-1, [])

/-- A `size_t` of `w` bits holds the size of the message announced at the head of
the stream, if a header is there. -/
def TotalFits (w : Nat) (stream : List UInt8) : Prop :=
  stream.length < doipHeaderSize ∨
    doipHeaderSize + (DoIpHeader.ofBytes stream).payloadLength.toNat < 2 ^ w

/-- A 64-bit `size_t` holds every message size that can be announced. -/
theorem totalFits_host (stream : List UInt8) : TotalFits 64 stream := by
  have hlength := (DoIpHeader.ofBytes stream).payloadLength.toNat_lt
  right
  unfold doipHeaderSize
  omega

namespace DoIpConnection

/-- A connection as it is stored when the server accepts it. -/
def accepted (fd : Int) : DoIpConnection := { fd, activated := false }

/-- The received bytes that are not handled yet, `recv_buf[0..recv_len)`. -/
def pending (conn : DoIpConnection) : List UInt8 := conn.recvBuf.take conn.recvLen

/-- The bytes `recv` may still write behind the pending ones. -/
def capacity (conn : DoIpConnection) : Nat := recvBufSize - conn.recvLen

theorem length_buffer_append (conn : DoIpConnection) (bytes : List UInt8) :
    (overwrite conn.recvBuf conn.recvLen (bytes.take conn.capacity)).length = recvBufSize := by
  have hbuf := conn.recvBuf_length
  have hlen := conn.recvLen_le
  rw [length_overwrite, hbuf]
  rw [List.length_take, capacity]
  omega

theorem recvLen_append_le (conn : DoIpConnection) (bytes : List UInt8) :
    conn.recvLen + (bytes.take conn.capacity).length ≤ recvBufSize := by
  have hlen := conn.recvLen_le
  rw [List.length_take, capacity]
  omega

/-- `recv` has written bytes behind the pending ones. -/
def append (conn : DoIpConnection) (bytes : List UInt8) : DoIpConnection :=
  { conn with
    recvBuf := overwrite conn.recvBuf conn.recvLen (bytes.take conn.capacity)
    recvLen := conn.recvLen + (bytes.take conn.capacity).length
    recvBuf_length := conn.length_buffer_append bytes
    recvLen_le := conn.recvLen_append_le bytes }

/-- The buffer with the bytes behind a handled message moved to its front. -/
def remainder (conn : DoIpConnection) (total : Nat) : List UInt8 :=
  if 0 < conn.recvLen - total then moveToFront conn.recvBuf total (conn.recvLen - total)
  else conn.recvBuf

theorem length_remainder (conn : DoIpConnection) (total : Nat) :
    (conn.remainder total).length = recvBufSize := by
  have hbuf := conn.recvBuf_length
  have hlen := conn.recvLen_le
  unfold remainder
  split
  · simp only [moveToFront, List.length_append, List.length_take, List.length_drop]
    omega
  · exact hbuf

/-- Drop a handled message and move the bytes behind it to the front. -/
def consume (conn : DoIpConnection) (total : Nat) : DoIpConnection :=
  { conn with
    recvBuf := conn.remainder total
    recvLen := conn.recvLen - total
    recvBuf_length := conn.length_remainder total
    recvLen_le := (Nat.sub_le conn.recvLen total).trans conn.recvLen_le }

/-- One iteration of the reassembly loop, for a `size_t` of `w` bits. -/
def reassembleOne (w : Nat) (uds : UdsHandler) (conn : DoIpConnection) :
    Option (DoIpConnection × List Action) :=
  if conn.recvLen < doipHeaderSize then none
  else
    let header := (DoIpHeader.parse conn.recvBuf conn.recvLen).getD {}
    let total := (doipHeaderSize + header.payloadLength.toNat) % 2 ^ w
    if conn.recvLen < total then none
    else
      let served := conn.handleDoipMessage uds header (conn.recvBuf.drop doipHeaderSize)
        header.payloadLength.toNat
      some (served.1.consume total, served.2)

/-- The body of `on_client_data` behind the lookup of the connection. The entry
is `none` afterwards when the connection was closed; the whole result is `none`
when the call never returns. -/
def onClientData (w : Nat) (uds : UdsHandler) (conn : DoIpConnection) (received : RecvResult) :
    Option (Option DoIpConnection × List Action) :=
  let result := received.recv conn.capacity
  if result.1 ≤ 0 then some (none, [])
  else
    let conn := conn.append result.2
    (Loop.run (reassembleOne w uds) (conn.recvLen + 1) conn).map fun drained =>
      (some drained.1, drained.2)

/-! ## Buffer contents -/

theorem length_pending (conn : DoIpConnection) : conn.pending.length = conn.recvLen := by
  rw [pending, List.length_take, conn.recvBuf_length]
  exact Nat.min_eq_left conn.recvLen_le

theorem pending_append (conn : DoIpConnection) {bytes : List UInt8}
    (hfits : bytes.length ≤ conn.capacity) :
    (conn.append bytes).pending = conn.pending ++ bytes := by
  have hpending := conn.length_pending
  have htake : bytes.take conn.capacity = bytes := List.take_of_length_le hfits
  simp only [append, htake, pending, overwrite] at hpending ⊢
  rw [List.append_assoc, List.take_append, List.take_of_length_le (by omega)]
  simp [hpending]

theorem pending_consume (conn : DoIpConnection) (total : Nat) :
    (conn.consume total).pending = conn.pending.drop total := by
  have hbuf := conn.recvBuf_length
  have hlen := conn.recvLen_le
  rw [pending, pending, List.drop_take]
  by_cases hrest : 0 < conn.recvLen - total
  · simp only [consume, remainder, if_pos hrest, moveToFront]
    rw [List.take_append_of_le_length, List.take_take, Nat.min_self]
    simp only [List.length_take, List.length_drop]
    omega
  · have hzero : conn.recvLen - total = 0 := by omega
    simp [consume, remainder, hzero]

@[simp] theorem toTester_consume (conn : DoIpConnection) (total : Nat) :
    (conn.consume total).toTester = conn.toTester := rfl

@[simp] theorem recvLen_consume (conn : DoIpConnection) (total : Nat) :
    (conn.consume total).recvLen = conn.recvLen - total := rfl

theorem ofBytes_pending (conn : DoIpConnection) (hlen : doipHeaderSize ≤ conn.recvLen) :
    DoIpHeader.ofBytes conn.pending = DoIpHeader.ofBytes conn.recvBuf :=
  DoIpHeader.ofBytes_take hlen

/-! ## One iteration of the loop -/

/-- Once a header is pending, the announced total decides what the iteration does. -/
theorem reassembleOne_of_header (w : Nat) (uds : UdsHandler) {conn : DoIpConnection}
    {header : DoIpHeader} (hlen : doipHeaderSize ≤ conn.recvLen)
    (hheader : DoIpHeader.ofBytes conn.pending = header) :
    conn.reassembleOne w uds =
      if conn.recvLen < (doipHeaderSize + header.payloadLength.toNat) % 2 ^ w then none
      else
        let served := conn.handleDoipMessage uds header (conn.recvBuf.drop doipHeaderSize)
          header.payloadLength.toNat
        some (served.1.consume ((doipHeaderSize + header.payloadLength.toNat) % 2 ^ w),
          served.2) := by
  rw [ofBytes_pending conn hlen] at hheader
  rw [reassembleOne, if_neg (by omega)]
  simp only [DoIpHeader.parse, if_neg (show ¬ conn.recvLen < doipHeaderSize by omega),
    Option.getD_some, hheader]

theorem reassembleOne_of_incomplete {w : Nat} (uds : UdsHandler) {conn : DoIpConnection}
    (hfits : TotalFits w conn.pending)
    (h : conn.pending.length < doipHeaderSize ∨ conn.pending.length <
      doipHeaderSize + (DoIpHeader.ofBytes conn.pending).payloadLength.toNat) :
    conn.reassembleOne w uds = none := by
  rw [TotalFits] at hfits
  rw [length_pending] at h hfits
  by_cases hheader : doipHeaderSize ≤ conn.recvLen
  · rw [reassembleOne_of_header w uds hheader rfl, Nat.mod_eq_of_lt (by omega),
      if_pos (by omega)]
  · rw [reassembleOne, if_pos (by omega)]

/-- A message that lies in the buffer as a whole is handled and removed, whatever
the width of `size_t`, if that can count the bytes of the buffer. -/
theorem reassembleOne_of_complete {w : Nat} (hw : recvBufSize < 2 ^ w) (uds : UdsHandler)
    {conn : DoIpConnection} {header : DoIpHeader}
    (hheader : DoIpHeader.ofBytes conn.pending = header)
    (hfits : doipHeaderSize + header.payloadLength.toNat ≤ conn.pending.length) :
    ∃ next, conn.reassembleOne w uds = some (next,
        .handleDoipMessage conn.fd
            ⟨header, (conn.pending.drop doipHeaderSize).take header.payloadLength.toNat⟩ ::
          (conn.toTester.serve uds
            ⟨header, (conn.pending.drop doipHeaderSize).take header.payloadLength.toNat⟩).2) ∧
      next.toTester = (conn.toTester.serve uds
        ⟨header, (conn.pending.drop doipHeaderSize).take header.payloadLength.toNat⟩).1 ∧
      next.pending = conn.pending.drop (doipHeaderSize + header.payloadLength.toNat) := by
  have hbuf := conn.recvBuf_length
  have hlen := conn.recvLen_le
  rw [length_pending] at hfits
  -- the payload pointer shows the bytes behind the header, pending or not
  have hslice : (conn.recvBuf.drop doipHeaderSize).take header.payloadLength.toNat =
      (conn.pending.drop doipHeaderSize).take header.payloadLength.toNat := by
    rw [pending, List.drop_take, List.take_take, Nat.min_eq_left (by omega)]
  have hlong : header.payloadLength.toNat ≤ (conn.recvBuf.drop doipHeaderSize).length := by
    rw [List.length_drop]
    omega
  have hserved := conn.handleDoipMessage_eq uds header hlong
  refine ⟨(conn.handleDoipMessage uds header (conn.recvBuf.drop doipHeaderSize)
    header.payloadLength.toNat).1.consume (doipHeaderSize + header.payloadLength.toNat), ?_, ?_, ?_⟩
  · rw [reassembleOne_of_header w uds (by omega) hheader, Nat.mod_eq_of_lt (by omega),
      if_neg (by omega)]
    simp only [hserved, hslice]
  · rw [toTester_consume, hserved, hslice]
  · rw [pending_consume, hserved]
    rfl

end DoIpConnection

/-- Serve the frames of a stream one after the other. -/
def Tester.serveAll (uds : UdsHandler) : Tester → List Frame → Tester × List Action
  | tester, [] => (tester, [])
  | tester, frame :: frames =>
      let served := tester.serve uds frame
      let rest := served.1.serveAll uds frames
      (rest.1, .handleDoipMessage tester.fd frame :: served.2 ++ rest.2)

theorem Tester.serveAll_append (uds : UdsHandler) (tester : Tester) (frames more : List Frame) :
    tester.serveAll uds (frames ++ more) =
      (((tester.serveAll uds frames).1.serveAll uds more).1,
        (tester.serveAll uds frames).2 ++
          ((tester.serveAll uds frames).1.serveAll uds more).2) := by
  induction frames generalizing tester with
  | nil => rfl
  | cons frame frames ih => simp [serveAll, ih]

/-- Serving a frame hands no further frame to the message handler. -/
theorem Tester.dispatches_serve (uds : UdsHandler) (tester : Tester) (frame : Frame) :
    dispatches (tester.serve uds frame).2 = [] := by
  unfold Tester.serve
  split_ifs <;> rfl

theorem Tester.dispatches_serveAll (uds : UdsHandler) (tester : Tester) (frames : List Frame) :
    dispatches (tester.serveAll uds frames).2 = frames := by
  induction frames generalizing tester with
  | nil => rfl
  | cons frame frames ih =>
      have hserve := tester.dispatches_serve uds frame
      have hrest := ih (tester.serve uds frame).1
      simp only [dispatches] at hserve hrest ⊢
      simp [serveAll, Action.dispatched?, hserve, hrest]

/-- The connection has served exactly the frames, and still holds the leftover. -/
structure Served (uds : UdsHandler) (before after : DoIpConnection) (stream : List UInt8)
    (actions : List Action) : Prop where
  tester : after.toTester = (before.toTester.serveAll uds (greedyParse stream).1).1
  actions : actions = (before.toTester.serveAll uds (greedyParse stream).1).2
  pending : after.pending = (greedyParse stream).2

namespace DoIpConnection

/-- A handled message leaves fewer bytes in the buffer. -/
theorem recvLen_lt_of_complete {conn next : DoIpConnection} {payloadLength : Nat}
    (hpending : next.pending = conn.pending.drop (doipHeaderSize + payloadLength))
    (hcomplete : doipHeaderSize + payloadLength ≤ conn.pending.length) :
    next.recvLen < conn.recvLen := by
  have hlength := congrArg List.length hpending
  rw [length_pending, List.length_drop, length_pending] at hlength
  rw [length_pending] at hcomplete
  unfold doipHeaderSize at hlength hcomplete
  omega

/-- Draining the buffer serves the frames of the greedy parse of its contents,
unless the size announced behind them is more than `size_t` holds. -/
theorem run_reassembleOne {w : Nat} (hw : recvBufSize < 2 ^ w) (uds : UdsHandler)
    (conn : DoIpConnection) (hleft : TotalFits w (greedyParse conn.pending).2)
    {fuel : Nat} (hfuel : conn.recvLen < fuel) :
    ∃ next actions, Loop.run (reassembleOne w uds) fuel conn = some (next, actions) ∧
      Served uds conn next conn.pending actions := by
  induction fuel generalizing conn with
  | zero => omega
  | succ fuel ih =>
      by_cases hcomplete : doipHeaderSize +
          (DoIpHeader.ofBytes conn.pending).payloadLength.toNat ≤ conn.pending.length
      · obtain ⟨next, hstep, htester, hpending⟩ :=
          reassembleOne_of_complete hw uds rfl hcomplete
        have hparse := greedyParse_of_complete rfl hcomplete
        rw [← hpending] at hparse
        have hshrink := recvLen_lt_of_complete hpending hcomplete
        obtain ⟨last, actions, hrun, hserved⟩ := ih next (by rwa [hparse] at hleft) (by omega)
        refine ⟨last, _, by rw [Loop.run_of_step hstep, hrun, Option.map_some], ?_⟩
        exact
          { tester := by rw [hserved.tester, hparse, Tester.serveAll, htester]
            actions := by rw [hserved.actions, hparse, Tester.serveAll, htester]
            pending := by rw [hserved.pending, hparse] }
      · have hshort : conn.pending.length < doipHeaderSize ∨ conn.pending.length <
            doipHeaderSize + (DoIpHeader.ofBytes conn.pending).payloadLength.toNat := by omega
        have hparse := greedyParse_of_incomplete hshort
        rw [hparse] at hleft
        have hincomplete := reassembleOne_of_incomplete uds hleft hshort
        refine ⟨conn, [], Loop.run_of_exit hincomplete fuel, ?_⟩
        exact
          { tester := by rw [hparse, Tester.serveAll]
            actions := by rw [hparse, Tester.serveAll]
            pending := by rw [hparse] }

/-- One arrival that fits in the buffer is appended to the pending bytes, and the
frames completed by it are served. -/
theorem onClientData_served {w : Nat} (hw : recvBufSize < 2 ^ w) (uds : UdsHandler)
    (conn : DoIpConnection) {chunk : List UInt8} (hchunk : chunk ≠ [])
    (hfits : chunk.length ≤ conn.capacity)
    (hleft : TotalFits w (greedyParse (conn.pending ++ chunk)).2) :
    ∃ next actions, conn.onClientData w uds (.data chunk) = some (some next, actions) ∧
      Served uds conn next (conn.pending ++ chunk) actions := by
  have hpending := conn.pending_append hfits
  obtain ⟨next, actions, hrun, hserved⟩ :=
    run_reassembleOne hw uds (conn.append chunk) (by rwa [hpending]) (Nat.lt_succ_self _)
  rw [hpending] at hserved
  have hpos : ¬ ((chunk.length : Int) ≤ 0) := by
    have := List.length_pos_iff.mpr hchunk
    omega
  refine ⟨next, actions, ?_, ⟨hserved.tester, hserved.actions, hserved.pending⟩⟩
  simp only [onClientData, RecvResult.recv, List.take_of_length_le hfits, if_neg hpos, hrun,
    Option.map_some]

end DoIpConnection

/-- A connection that receives non-empty arrivals for which its buffer has room. -/
def receiver (w : Nat) (uds : UdsHandler) : Machine DoIpConnection (List UInt8) Action where
  Enabled conn chunk := chunk ≠ [] ∧ chunk.length ≤ conn.capacity
  step conn chunk := do
    let (entry, actions) ← conn.onClientData w uds (.data chunk)
    let next ← entry
    return (next, actions)

theorem receiver_step {w : Nat} (hw : recvBufSize < 2 ^ w) (uds : UdsHandler)
    {conn : DoIpConnection} {chunk : List UInt8}
    (henabled : (receiver w uds).Enabled conn chunk)
    (hleft : TotalFits w (greedyParse (conn.pending ++ chunk)).2) :
    ∃ next actions, (receiver w uds).step conn chunk = some (next, actions) ∧
      Served uds conn next (conn.pending ++ chunk) actions := by
  obtain ⟨next, actions, hcall, hserved⟩ :=
    conn.onClientData_served hw uds henabled.1 henabled.2 hleft
  exact ⟨next, actions, by simp [receiver, hcall], hserved⟩

/-- A run of arrivals serves the frames of everything pending and received, if
`size_t` holds every size that is announced in between. -/
theorem receiver_run_served {w : Nat} (hw : recvBufSize < 2 ^ w) (uds : UdsHandler)
    {first last : DoIpConnection} {chunks : List (List UInt8)} {actions : List Action}
    (hrun : (receiver w uds).Run first chunks last actions)
    (hfirst : greedyParse first.pending = ([], first.pending))
    (hleft : ∀ n, TotalFits w (greedyParse (first.pending ++ (chunks.take n).flatten)).2) :
    Served uds first last (first.pending ++ chunks.flatten) actions := by
  induction hrun with
  | nil conn =>
      rw [List.flatten_nil, List.append_nil]
      exact
        { tester := by rw [hfirst, Tester.serveAll]
          actions := by rw [hfirst, Tester.serveAll]
          pending := by rw [hfirst] }
  | @cons conn chunk middle out chunks last outs henabled hstep _ ih =>
      have hone : TotalFits w (greedyParse (conn.pending ++ chunk)).2 := by
        simpa using hleft 1
      obtain ⟨next, actions, hstep', hserved⟩ := receiver_step hw uds henabled hone
      rw [hstep, Option.some.injEq, Prod.mk.injEq] at hstep'
      obtain ⟨rfl, rfl⟩ := hstep'
      have hmiddle : greedyParse middle.pending = ([], middle.pending) := by
        rw [hserved.pending]
        exact greedyParse_of_incomplete (greedyParse_leftover_incomplete _)
      have hrest := ih hmiddle fun n => by
        have hmore := hleft (n + 1)
        rwa [List.take_succ_cons, List.flatten_cons, ← List.append_assoc, greedyParse_append,
          ← hserved.pending] at hmore
      have happend := greedyParse_append (conn.pending ++ chunk) chunks.flatten
      rw [← hserved.pending, List.append_assoc] at happend
      rw [List.flatten_cons]
      exact
        { tester := by
            rw [hrest.tester, happend, Tester.serveAll_append, hserved.tester]
          actions := by
            rw [hrest.actions, happend, Tester.serveAll_append, hserved.tester, hserved.actions]
          pending := by rw [hrest.pending, happend] }

/-- A freshly accepted connection serves the frames of the stream it receives. -/
theorem accepted_run_served {w : Nat} (hw : recvBufSize < 2 ^ w) (uds : UdsHandler) {fd : Int}
    {chunks : List (List UInt8)} {conn : DoIpConnection} {actions : List Action}
    (hrun : (receiver w uds).Run (DoIpConnection.accepted fd) chunks conn actions)
    (hleft : ∀ n, TotalFits w (greedyParse (chunks.take n).flatten).2) :
    Served uds (DoIpConnection.accepted fd) conn chunks.flatten actions := by
  have hempty : (DoIpConnection.accepted fd).pending = [] := rfl
  have hserved := receiver_run_served hw uds hrun
    (greedyParse_of_incomplete (Or.inl (by rw [hempty]; decide)))
    (by simpa only [hempty, List.nil_append] using hleft)
  rwa [hempty, List.nil_append] at hserved

/-- With a 64-bit `size_t` nothing has to be known about the sizes announced. -/
theorem accepted_run_served_host {uds : UdsHandler} {fd : Int} {chunks : List (List UInt8)}
    {conn : DoIpConnection} {actions : List Action}
    (hrun : (receiver 64 uds).Run (DoIpConnection.accepted fd) chunks conn actions) :
    Served uds (DoIpConnection.accepted fd) conn chunks.flatten actions :=
  accepted_run_served (by decide) uds hrun fun _ => totalFits_host _

/-- Arrivals that fit in the buffer together can be received, whatever they complete. -/
theorem exists_run_of_fits (uds : UdsHandler) (conn : DoIpConnection) {chunks : List (List UInt8)}
    (hchunks : ∀ chunk ∈ chunks, chunk ≠ [])
    (hfits : conn.recvLen + chunks.flatten.length ≤ recvBufSize) :
    ∃ last actions, (receiver 64 uds).Run conn chunks last actions := by
  induction chunks generalizing conn with
  | nil => exact ⟨conn, [], .nil conn⟩
  | cons chunk chunks ih =>
      rw [List.flatten_cons, List.length_append] at hfits
      have henabled : (receiver 64 uds).Enabled conn chunk :=
        ⟨hchunks chunk List.mem_cons_self, by rw [DoIpConnection.capacity]; omega⟩
      obtain ⟨next, _, hstep, hserved⟩ := receiver_step (by decide) uds henabled (totalFits_host _)
      have hleftover : next.recvLen ≤ conn.recvLen + chunk.length := by
        rw [← next.length_pending, hserved.pending, ← conn.length_pending, ← List.length_append]
        exact wireFormat.length_leftover_le _
      have hlater : ∀ other ∈ chunks, other ≠ [] :=
        fun other hmem => hchunks other (List.mem_cons_of_mem _ hmem)
      obtain ⟨last, _, hrest⟩ := ih next hlater (by omega)
      exact ⟨last, _, .cons henabled hstep hrest⟩

/-- A fresh connection that receives a stream of built messages at once. -/
theorem exists_run_makeStream (uds : UdsHandler) (fd : Int)
    {messages : List (UInt16 × List UInt8)} (hnonempty : makeStream messages ≠ [])
    (hsize : (makeStream messages).length ≤ recvBufSize) :
    ∃ conn actions,
      (receiver 64 uds).Run (DoIpConnection.accepted fd) [makeStream messages] conn actions ∧
      greedyParse (makeStream messages) =
        (messages.map fun message => .ofPayload message.1 message.2, []) ∧
      Served uds (DoIpConnection.accepted fd) conn (makeStream messages) actions := by
  have hfits : (DoIpConnection.accepted fd).recvLen + [makeStream messages].flatten.length ≤
      recvBufSize := by
    rw [List.flatten_singleton]
    exact (Nat.zero_add _).trans_le hsize
  obtain ⟨conn, actions, hrun⟩ := exists_run_of_fits uds (DoIpConnection.accepted fd)
    (List.forall_mem_singleton.mpr hnonempty) hfits
  have hserved := accepted_run_served_host hrun
  rw [List.flatten_singleton] at hserved
  refine ⟨conn, actions, hrun, greedyParse_makeStream fun message hmem => ?_, hserved⟩
  have hmessage : makeDoipMessage message.1 message.2 ∈
      messages.map fun message => makeDoipMessage message.1 message.2 :=
    List.mem_map.mpr ⟨message, hmem, rfl⟩
  have hlength := (List.sublist_flatten_of_mem hmessage).length_le
  rw [← List.flatMap_def, ← makeStream, length_makeDoipMessage] at hlength
  rw [recvBufSize] at hsize
  omega

/-- With a 64-bit `size_t`, every arrival is served by a call that returns; the
calls together hand exactly the frames of the greedy parse of the stream to the
message handler, in order, and keep exactly the bytes it leaves over. Two ways
of cutting one stream cause the same actions and leave the same connection:
bytes behind the pending ones are overwritten before they are read again. -/
theorem reassembly_refines_greedyParse (uds : UdsHandler) (fd : Int) :
    (∀ conn chunk, (receiver 64 uds).Enabled conn chunk →
      ((receiver 64 uds).step conn chunk).isSome) ∧
    (∀ chunks conn actions,
      (receiver 64 uds).Run (DoIpConnection.accepted fd) chunks conn actions →
      dispatches actions = (greedyParse chunks.flatten).1 ∧
        conn.pending = (greedyParse chunks.flatten).2) ∧
    (∀ chunks chunks' conn conn' actions actions',
      (receiver 64 uds).Run (DoIpConnection.accepted fd) chunks conn actions →
      (receiver 64 uds).Run (DoIpConnection.accepted fd) chunks' conn' actions' →
      chunks.flatten = chunks'.flatten →
      dispatches actions = dispatches actions' ∧ sends actions = sends actions' ∧
        actions = actions' ∧ conn.toTester = conn'.toTester ∧
        conn.recvLen = conn'.recvLen ∧ conn.pending = conn'.pending) := by
  have hserved : ∀ {chunks conn actions},
      (receiver 64 uds).Run (DoIpConnection.accepted fd) chunks conn actions →
      Served uds (DoIpConnection.accepted fd) conn chunks.flatten actions :=
    accepted_run_served_host
  refine ⟨?_, ?_, ?_⟩
  · intro conn chunk henabled
    obtain ⟨next, actions, hstep, _⟩ := receiver_step (by decide) uds henabled (totalFits_host _)
    exact Option.isSome_of_eq_some hstep
  · intro chunks conn actions hrun
    refine ⟨?_, (hserved hrun).pending⟩
    rw [(hserved hrun).actions, Tester.dispatches_serveAll]
  · intro chunks chunks' conn conn' actions actions' hrun hrun' hstream
    have hleft := hserved hrun
    have hright := hserved hrun'
    rw [← hstream] at hright
    have hactions : actions = actions' := by rw [hleft.actions, hright.actions]
    have hpending : conn.pending = conn'.pending := by rw [hleft.pending, hright.pending]
    subst hactions
    refine ⟨rfl, rfl, rfl, by rw [hleft.tester, hright.tester], ?_, hpending⟩
    rw [← conn.length_pending, hpending, conn'.length_pending]

/-- An alive check whose header is cut behind its third byte is dispatched once,
by the second arrival. -/
theorem reassembly_refines_greedyParse_splitHeader :
    ∃ conn actions, (receiver 64 {}).Run (DoIpConnection.accepted 7)
        [[0x02, 0xFD, 0x00], [0x07, 0, 0, 0, 0]] conn actions ∧
      dispatches actions = [⟨{ payloadType := doipAliveCheckReq }, []⟩] ∧ conn.pending = [] := by
  have hwhole : greedyParse [0x02, 0xFD, 0x00, 0x07, 0, 0, 0, 0] =
      ([⟨{ payloadType := doipAliveCheckReq }, []⟩], []) := by
    have hheader : DoIpHeader.ofBytes [0x02, 0xFD, 0x00, 0x07, 0, 0, 0, 0] =
        { payloadType := doipAliveCheckReq } := by decide
    exact greedyParse_single hheader (by decide)
  obtain ⟨last, actions, hrun⟩ := @exists_run_of_fits {} (DoIpConnection.accepted 7)
    [[0x02, 0xFD, 0x00], [0x07, 0, 0, 0, 0]] (by simp) (by decide)
  obtain ⟨hdispatches, hpending⟩ := (reassembly_refines_greedyParse {} 7).2.1 _ _ _ hrun
  refine ⟨last, actions, hrun, ?_, ?_⟩
  · rw [hdispatches]
    exact congrArg Prod.fst hwhole
  · rw [hpending]
    exact congrArg Prod.snd hwhole

end AutomotiveGateway.DoIp
