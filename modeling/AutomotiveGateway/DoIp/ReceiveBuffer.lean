import AutomotiveGateway.DoIp.Server

/-!
# The receive buffer of a connection

Between two calls the buffer holds the beginning of at most one frame. It is full only
when that frame does not fit in it, so a tester whose frames all fit is never offered a
`recv` without room.
-/

namespace AutomotiveGateway.DoIp

open Memory

namespace DoIpConnection

/-- The pending bytes do not make up a frame: not even a header, or less than the header at
the start of `recv_buf` announces. -/
def Waiting (conn : DoIpConnection) : Prop :=
  conn.recvLen < doipHeaderSize ∨
    conn.recvLen < doipHeaderSize + (DoIpHeader.ofBytes conn.recvBuf).payloadLength.toNat

theorem waiting_accepted (fd : Int) : (accepted fd).Waiting := Or.inl (Nat.succ_pos 7)

/-- What a greedy parse leaves over is waited for. -/
theorem waiting_of_pending {conn : DoIpConnection} {stream : List UInt8}
    (hpending : conn.pending = (greedyParse stream).2) : conn.Waiting := by
  have hincomplete := greedyParse_leftover_incomplete stream
  rw [← hpending, length_pending] at hincomplete
  by_cases hheader : doipHeaderSize ≤ conn.recvLen
  · rwa [ofBytes_pending conn hheader] at hincomplete
  · exact Or.inl (Nat.lt_of_not_le hheader)

/-- A full buffer holds the beginning of a frame that is larger than the buffer. -/
theorem Waiting.payloadLength_of_full {conn : DoIpConnection} (h : conn.Waiting)
    (hfull : conn.recvLen = recvBufSize) :
    recvBufSize - doipHeaderSize < (DoIpHeader.ofBytes conn.recvBuf).payloadLength.toNat := by
  rw [Waiting, hfull] at h
  have hroom : doipHeaderSize ≤ recvBufSize := by decide
  omega

/-- `recv` hands over at most as many bytes as it has room for. -/
theorem onClientData_take (w : Nat) (uds : UdsHandler) (conn : DoIpConnection)
    (bytes : List UInt8) :
    conn.onClientData w uds (.data (bytes.take conn.capacity)) =
      conn.onClientData w uds (.data bytes) := by
  have hrecv : (RecvResult.data (bytes.take conn.capacity)).recv conn.capacity =
      (RecvResult.data bytes).recv conn.capacity := by
    simp only [RecvResult.recv, List.take_take, Nat.min_self]
  rw [onClientData, hrecv, ← onClientData]

/-- A call closes the connection, when `recv` gives nothing, or serves what is pending
together with the bytes received. -/
theorem onClientData_cases (uds : UdsHandler) (conn : DoIpConnection) (received : RecvResult) :
    ((received.recv conn.capacity).1 ≤ 0 ∧ conn.onClientData 64 uds received = some (none, [])) ∨
    ∃ next actions, conn.onClientData 64 uds received = some (some next, actions) ∧
      Served uds conn next (conn.pending ++ (received.recv conn.capacity).2) actions := by
  by_cases hclosed : (received.recv conn.capacity).1 ≤ 0
  · left
    refine ⟨hclosed, ?_⟩
    simp only [onClientData, if_pos hclosed]
  · right
    cases received with
    | error errno => exact absurd (show (-1 : Int) ≤ 0 by decide) hclosed
    | data bytes =>
        have hsome : bytes.take conn.capacity ≠ [] := by
          intro hnone
          rw [RecvResult.recv, hnone] at hclosed
          exact hclosed (by simp)
        have hfits : (bytes.take conn.capacity).length ≤ conn.capacity := List.length_take_le _ _
        obtain ⟨next, actions, hcall, hserved⟩ :=
          conn.onClientData_served (by decide) uds hsome hfits (totalFits_host _)
        rw [onClientData_take] at hcall
        exact ⟨next, actions, hcall, hserved⟩

/-- Whatever `recv` gives, a connection that is kept waits for the rest of a frame. -/
theorem waiting_onClientData {uds : UdsHandler} {conn next : DoIpConnection}
    {received : RecvResult} {actions : List Action}
    (hcall : conn.onClientData 64 uds received = some (some next, actions)) : next.Waiting := by
  rcases conn.onClientData_cases uds received with ⟨-, hclosed⟩ | ⟨kept, outs, hkept, hserved⟩
  · rw [hclosed] at hcall
    cases hcall
  · rw [hkept, Option.some.injEq, Prod.mk.injEq, Option.some.injEq] at hcall
    obtain ⟨rfl, -⟩ := hcall
    exact waiting_of_pending hserved.pending

end DoIpConnection

/-- In every interleaving of the clients' events, every connection in the table waits. -/
theorem server_run_waiting {uds : UdsHandler} {listenFd : Int} {events : List Event}
    {world : World} {actions : List Action}
    (hrun : (server 64).Run (World.start uds listenFd) events world actions) :
    ∀ fd conn, world.server.connections.lookup fd = some conn → conn.Waiting := by
  have hboth := hrun.invariant
    (fun world => world.Consistent uds listenFd ∧
      ∀ fd conn, world.server.connections.lookup fd = some conn → conn.Waiting) ?_
    ⟨World.start_consistent uds listenFd, fun fd conn hlookup => by simp [World.start] at hlookup⟩
  · exact hboth.2
  · rintro world event next out ⟨hconsistent, hwaiting⟩ henabled hstep
    refine ⟨hconsistent.step henabled hstep, ?_⟩
    intro other found hfound
    by_cases hother : other = event.fd
    · subst hother
      have hown := hconsistent.step_own henabled hstep
      rw [hfound] at hown
      cases event with
      | accept fd =>
          simp only [entryStep, Option.some.injEq, Prod.mk.injEq] at hown
          obtain ⟨hentry, -⟩ := hown
          split_ifs at hentry with hfailed
          · exact hwaiting _ found hentry
          · rw [← Option.some.inj hentry]
            exact DoIpConnection.waiting_accepted fd
      | receive fd received =>
          simp only [entryStep, Event.fd] at hown
          split at hown
          · cases hown
          · exact DoIpConnection.waiting_onClientData hown
    · rw [hconsistent.step_other henabled hstep other hother] at hfound
      exact hwaiting other found hfound

/-- Of a stream of frames that all fit in the buffer, a part that was received leaves room
for more. -/
theorem leftover_lt_recvBufSize {received rest : List UInt8} {frames : List Frame}
    (hstream : greedyParse (received ++ rest) = (frames, []))
    (hsmall : ∀ frame ∈ frames, doipHeaderSize + frame.payload.length ≤ recvBufSize) :
    (greedyParse received).2.length < recvBufSize := by
  rw [greedyParse_append, Prod.mk.injEq] at hstream
  obtain ⟨hframes, hnothing⟩ := hstream
  have hincomplete := greedyParse_leftover_incomplete received
  generalize (greedyParse received).2 = left at *
  by_contra hfull
  have hroom : doipHeaderSize ≤ recvBufSize := by decide
  have hheader : DoIpHeader.ofBytes (left ++ rest) = DoIpHeader.ofBytes left := by
    rw [← DoIpHeader.ofBytes_take le_rfl, List.take_append_of_le_length (by omega),
      DoIpHeader.ofBytes_take le_rfl]
  by_cases hcomplete : doipHeaderSize +
      (DoIpHeader.ofBytes left).payloadLength.toNat ≤ (left ++ rest).length
  · -- the frame that is waited for is one of the stream, so it fits
    have hparse := greedyParse_of_complete hheader hcomplete
    have hfits := hsmall ⟨DoIpHeader.ofBytes left, ((left ++ rest).drop doipHeaderSize).take
      (DoIpHeader.ofBytes left).payloadLength.toNat⟩ (by simp [← hframes, hparse])
    rw [List.length_take, List.length_drop] at hfits
    omega
  · rw [greedyParse_of_incomplete (by rw [hheader]; omega), List.append_eq_nil_iff] at hnothing
    obtain ⟨hempty, -⟩ := hnothing
    rw [hempty] at hfull
    exact hfull (by decide)

/-- Whatever the clients do, every connection of the server waits for the rest of a frame
between two calls: its buffer holds at most 4096 bytes, and less than the pending header
announces. A full buffer therefore announces a payload of more than 4088 bytes. A
connection that receives a stream of smaller frames always has room for more, however the
stream is cut into arrivals, and the next bytes to arrive are accepted. -/
theorem receiveBuffer_room (uds : UdsHandler) :
    (∀ listenFd events world actions,
      (server 64).Run (World.start uds listenFd) events world actions →
      ∀ fd conn, world.server.connections.lookup fd = some conn →
        conn.recvLen ≤ 4096 ∧
        (conn.recvLen < 8 ∨
          8 + (DoIpHeader.ofBytes conn.recvBuf).payloadLength.toNat > conn.recvLen) ∧
        (conn.recvLen = 4096 → (DoIpHeader.ofBytes conn.recvBuf).payloadLength.toNat > 4088)) ∧
    (∀ frames : List Frame, (∀ frame ∈ frames, frame.Announced ∧ frame.payload.length ≤ 4088) →
      ∀ fd chunks conn actions,
        (receiver 64 uds).Run (DoIpConnection.accepted fd) chunks conn actions →
        chunks.flatten <+: frames.flatMap Frame.bytes →
        0 < conn.capacity ∧ ∀ arriving, arriving ≠ [] → ∃ next served,
          conn.onClientData 64 uds (.data arriving) = some (some next, served)) := by
  constructor
  · intro listenFd events world actions hrun fd conn hlookup
    have hwaiting := server_run_waiting hrun fd conn hlookup
    exact ⟨conn.recvLen_le, hwaiting, hwaiting.payloadLength_of_full⟩
  · intro frames hframes fd chunks conn actions hrun hpart
    obtain ⟨rest, hstream⟩ := hpart
    have hparse := greedyParse_flatMap_bytes fun frame hmem => (hframes frame hmem).1
    rw [← hstream] at hparse
    have hroom := leftover_lt_recvBufSize hparse fun frame hmem =>
      Nat.add_le_add_left (hframes frame hmem).2 doipHeaderSize
    rw [← (accepted_run_served_host hrun).pending, conn.length_pending] at hroom
    have hcapacity : 0 < conn.capacity := Nat.sub_pos_of_lt hroom
    refine ⟨hcapacity, fun arriving harriving => ?_⟩
    rcases conn.onClientData_cases uds (.data arriving) with
      ⟨hclosed, -⟩ | ⟨next, served, hkept, -⟩
    · have hpos := List.length_pos_iff.2 harriving
      simp only [RecvResult.recv, List.length_take] at hclosed
      omega
    · exact ⟨next, served, hkept⟩

/-- Of a frame as large as the buffer all but the last byte has arrived. -/
theorem receiveBuffer_room_largest :
    ∃ conn : DoIpConnection, conn.recvLen = 4095 ∧ 0 < conn.capacity ∧
      ∃ next served, conn.onClientData 64 {} (.data [0x00]) = some (some next, served) := by
  obtain ⟨payload, hpayload⟩ : ∃ payload : List UInt8, payload.length = 4088 :=
    ⟨List.replicate 4088 0, List.length_replicate⟩
  let frame := Frame.ofPayload doipDiagnosticMessage payload
  have hannounced : frame.Announced :=
    Frame.announced_ofPayload _ (by rw [hpayload]; decide)
  have hbytes : frame.bytes.length = 4096 :=
    frame.length_bytes.trans (congrArg (doipHeaderSize + ·) hpayload)
  have hlength : (frame.bytes.take 4095).length = 4095 := by
    rw [List.length_take, hbytes]
    rfl
  have hsome : frame.bytes.take 4095 ≠ [] := by
    intro hnone
    rw [hnone] at hlength
    cases hlength
  obtain ⟨conn, actions, hrun⟩ := @exists_run_of_fits {} (DoIpConnection.accepted 7)
    [frame.bytes.take 4095] (List.forall_mem_singleton.2 hsome)
    (by rw [List.flatten_singleton, hlength]; decide)
  have hpart : [frame.bytes.take 4095].flatten <+: [frame].flatMap Frame.bytes := by
    rw [List.flatten_singleton, List.flatMap_singleton]
    exact List.take_prefix _ _
  have hroom := (receiveBuffer_room {}).2 [frame]
    (List.forall_mem_singleton.2 ⟨hannounced, hpayload.le⟩) 7 _ conn actions
    hrun hpart
  have hheader : DoIpHeader.ofBytes (frame.bytes.take 4095) = frame.header := by
    rw [DoIpHeader.ofBytes_take (by decide)]
    exact frame.header.ofBytes_serialize _
  have hwhole : frame.header.payloadLength.toNat = 4088 := hannounced.trans hpayload
  have hpending := (accepted_run_served_host hrun).pending
  rw [List.flatten_singleton, greedyParse_of_incomplete (Or.inr (by
    rw [hheader, hlength, hwhole]; decide))] at hpending
  refine ⟨conn, ?_, hroom.1, hroom.2 [0x00] (List.cons_ne_nil _ _)⟩
  rw [← conn.length_pending, hpending, hlength]

end AutomotiveGateway.DoIp
