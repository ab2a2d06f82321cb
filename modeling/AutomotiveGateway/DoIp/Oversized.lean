import AutomotiveGateway.DoIp.ReceiveBuffer

/-!
# Frames that do not fit the receive buffer

A client may send what it likes, and its bytes wait in the socket until the loop finds it
readable. Nothing is lost and nothing stalls as long as the frames fit the buffer. The first that
does not fit is never handled: when the buffer is full of it, the next call closes the connection.
-/

namespace AutomotiveGateway.DoIp

open Memory

/-- The frames of a stream show its bytes, and hold what their headers announce. -/
theorem flatMap_bytes_greedyParse (stream : List UInt8) :
    (greedyParse stream).1.flatMap Frame.bytes ++ (greedyParse stream).2 = stream ∧
      ∀ frame ∈ (greedyParse stream).1, frame.Announced := by
  constructor
  · have hprint : ∀ {stream : List UInt8} {frame : DoIpHeader × List UInt8} {rest : List UInt8},
        wireFormat.next stream = some (frame, rest) →
        stream = (Frame.mk frame.1 frame.2).bytes ++ rest := by
      intro stream frame rest hnext
      obtain ⟨hstream, hheader, hlength, -⟩ := Framing.of_lengthPrefixed_next hnext
      rw [Frame.bytes, hheader, DoIpHeader.serialize_ofBytes hlength]
      exact hstream
    have hwhole := wireFormat.flatMap_parse hprint stream
    rw [greedyParse, List.flatMap_map]
    exact hwhole
  · intro frame hmem
    obtain ⟨cut, hcut, rfl⟩ := List.mem_map.mp hmem
    exact (wireFormat.forall_mem_parse
      (fun hnext => (Framing.of_lengthPrefixed_next hnext).2.2.2.symm) stream) cut hcut

/-- A frame of a stream is not longer than the stream. -/
theorem length_payload_le {stream : List UInt8} {frame : Frame}
    (hmem : frame ∈ (greedyParse stream).1) :
    doipHeaderSize + frame.payload.length ≤ stream.length := by
  have hwhole := congrArg List.length (flatMap_bytes_greedyParse stream).1
  have hmember : frame.bytes ∈ (greedyParse stream).1.map Frame.bytes := List.mem_map_of_mem hmem
  have hone := (List.sublist_flatten_of_mem hmember).length_le
  rw [← List.flatMap_def, frame.length_bytes] at hone
  rw [List.length_append] at hwhole
  omega

/-- The socket of a client: what the server keeps for it, and the bytes that wait in it. -/
structure ClientSocket where
  conn : Option DoIpConnection
  queue : List UInt8 := []

/-- The client sends, or the loop finds its socket readable and `recv` finds some of the waiting
bytes. -/
inductive SocketEvent
  | send (bytes : List UInt8)
  | readable (available : Nat)

/-- What the client has sent. -/
def sentBytes (events : List SocketEvent) : List UInt8 :=
  events.flatMap fun
    | .send bytes => bytes
    | .readable _ => []

/-- A client's socket, of a server with a 64-bit `size_t`. It is found readable while bytes wait
in it and it is open. -/
def clientSocket (uds : UdsHandler) : Machine ClientSocket SocketEvent Action where
  Enabled socket
    | .send _ => True
    | .readable available =>
        socket.conn.isSome ∧ 0 < available ∧ available ≤ socket.queue.length
  step socket
    | .send bytes => some ({ socket with queue := socket.queue ++ bytes }, [])
    | .readable available => do
        let conn ← socket.conn
        let served ← conn.onClientData 64 uds (.data (socket.queue.take available))
        return ({ conn := served.1, queue := socket.queue.drop (min available conn.capacity) },
          served.2)

/-- Behind these frames, which fit the buffer, there is one that does not, of which more bytes
have been sent than the buffer holds. -/
structure OverflowsBehind (frames : List Frame) (stream : List UInt8) : Prop where
  fits : ∀ frame ∈ frames, frame.Announced ∧ frame.payload.length ≤ 4088
  overflows : ∃ rest, stream = frames.flatMap Frame.bytes ++ rest ∧ 4096 < rest.length ∧
    4088 < (DoIpHeader.ofBytes rest).payloadLength.toNat

/-- What became of the bytes sent: those received are served, and the others wait or came too
late. -/
structure Follows (uds : UdsHandler) (fd : Int) (stream : List UInt8) (actions : List Action)
    (socket : ClientSocket) : Prop where
  fits : ∀ frame ∈ dispatches actions, frame.payload.length ≤ 4088
  kept : ∀ conn, socket.conn = some conn → ∃ received, stream = received ++ socket.queue ∧
    Served uds (DoIpConnection.accepted fd) conn received actions
  closed : socket.conn = none → ∃ received rest, stream = received ++ rest ∧ rest ≠ [] ∧
    (greedyParse received).2.length = recvBufSize ∧
    actions =
      ((DoIpConnection.accepted fd).toTester.serveAll uds (greedyParse received).1).2

/-- A fresh connection has served nothing. -/
theorem served_accepted (uds : UdsHandler) (fd : Int) :
    Served uds (DoIpConnection.accepted fd) (DoIpConnection.accepted fd) [] [] := by
  have hempty : greedyParse [] = ([], []) := greedyParse_of_incomplete (.inl (by decide))
  constructor
  all_goals
    rw [hempty]
    rfl

/-- Bytes that are served behind others are served with them. -/
theorem Served.trans {uds : UdsHandler} {first conn next : DoIpConnection}
    {received chunk : List UInt8} {actions outs : List Action}
    (hfirst : Served uds first conn received actions)
    (hnext : Served uds conn next (conn.pending ++ chunk) outs) :
    Served uds first next (received ++ chunk) (actions ++ outs) := by
  have happend := greedyParse_append received chunk
  rw [← hfirst.pending] at happend
  exact
    { tester := by rw [hnext.tester, happend, Tester.serveAll_append, hfirst.tester]
      actions := by
        rw [hnext.actions, happend, Tester.serveAll_append, hfirst.tester, hfirst.actions]
      pending := by rw [hnext.pending, happend] }

variable {uds : UdsHandler} {fd : Int} {stream : List UInt8} {actions : List Action}
  {socket : ClientSocket}

theorem Follows.start (uds : UdsHandler) (fd : Int) :
    Follows uds fd [] [] { conn := some (.accepted fd) } where
  fits := by simp [dispatches]
  kept := by
    intro conn hconn
    obtain rfl := Option.some.inj hconn
    exact ⟨[], rfl, served_accepted uds fd⟩
  closed := fun hclosed => absurd hclosed (by simp)

/-- Bytes that are sent wait. -/
theorem Follows.send (h : Follows uds fd stream actions socket) (bytes : List UInt8) :
    Follows uds fd (stream ++ bytes) actions { socket with queue := socket.queue ++ bytes } where
  fits := h.fits
  kept := by
    intro conn hconn
    obtain ⟨received, hstream, hserved⟩ := h.kept conn hconn
    exact ⟨received, by rw [hstream, List.append_assoc], hserved⟩
  closed := by
    intro hclosed
    obtain ⟨received, rest, hstream, hrest, hfull⟩ := h.closed hclosed
    exact ⟨received, rest ++ bytes, by rw [hstream, List.append_assoc], by simp [hrest], hfull⟩

/-- The server takes some of the waiting bytes, or closes a connection whose buffer is full. -/
theorem Follows.readable (h : Follows uds fd stream actions socket) {conn : DoIpConnection}
    (hconn : socket.conn = some conn) {available : Nat} (hpos : 0 < available)
    (havailable : available ≤ socket.queue.length) :
    ∃ next outs, (clientSocket uds).step socket (.readable available) = some (next, outs) ∧
      Follows uds fd stream (actions ++ outs) next ∧
      next.queue.length + (if next.conn.isSome then 1 else 0) < socket.queue.length + 1 := by
  obtain ⟨received, hstream, hserved⟩ := h.kept conn hconn
  -- `recv` takes no more than the room in the buffer
  have hcut : conn.onClientData 64 uds (.data (socket.queue.take available)) =
      conn.onClientData 64 uds (.data (socket.queue.take (min available conn.capacity))) := by
    rw [← DoIpConnection.onClientData_take, List.take_take, Nat.min_comm]
  have hlength : (socket.queue.take (min available conn.capacity)).length =
      min available conn.capacity := List.length_take_of_le (by omega)
  by_cases hroom : 0 < conn.capacity
  · have hsome : socket.queue.take (min available conn.capacity) ≠ [] := by
      rw [← List.length_pos_iff, hlength]
      omega
    obtain ⟨next, outs, hcall, hnext⟩ := conn.onClientData_served (by decide) uds hsome
      (by rw [hlength]; omega) (totalFits_host _)
    have hstep : (clientSocket uds).step socket (.readable available) =
        some ({ conn := some next, queue := socket.queue.drop (min available conn.capacity) },
          outs) := by
      simp only [clientSocket, hconn, hcut, hcall, Option.bind_eq_bind, Option.bind_some]
      rfl
    refine ⟨_, outs, hstep, ?_, ?_⟩
    · exact
        { fits := by
            intro frame hmem
            rw [dispatches, List.filterMap_append, List.mem_append] at hmem
            rcases hmem with hmem | hmem
            · exact h.fits frame hmem
            · rw [hnext.actions, ← dispatches, Tester.dispatches_serveAll] at hmem
              have hframe := length_payload_le hmem
              have hbuffer := conn.recvLen_append_le
                (socket.queue.take (min available conn.capacity))
              rw [List.take_of_length_le (by rw [hlength]; omega)] at hbuffer
              rw [List.length_append, conn.length_pending] at hframe
              simp only [doipHeaderSize, recvBufSize] at hframe hbuffer
              omega
          kept := by
            intro kept hkept
            obtain rfl := Option.some.inj hkept
            refine ⟨received ++ socket.queue.take (min available conn.capacity), ?_,
              hserved.trans hnext⟩
            rw [hstream, List.append_assoc, List.take_append_drop]
          closed := fun hclosed => absurd hclosed (by simp) }
    · rw [List.length_drop, Option.isSome_some, if_pos rfl]
      omega
  -- with a full buffer `recv` is asked for 0 bytes, which looks like a client that left
  · have hnone : min available conn.capacity = 0 := by omega
    have hfull : conn.recvLen = recvBufSize := by
      have hle := conn.recvLen_le
      rw [DoIpConnection.capacity] at hroom
      omega
    have hcall : conn.onClientData 64 uds (.data (socket.queue.take available)) =
        some (none, []) := by
      rw [hcut, hnone, List.take_zero]
      simp [DoIpConnection.onClientData, RecvResult.recv]
    have hstep : (clientSocket uds).step socket (.readable available) =
        some ({ conn := none, queue := socket.queue }, []) := by
      simp only [clientSocket, hconn, hcall, Option.bind_eq_bind, Option.bind_some, hnone,
        List.drop_zero]
      rfl
    refine ⟨_, [], hstep, ?_, by simp⟩
    rw [List.append_nil]
    exact
      { fits := h.fits
        kept := fun kept hkept => absurd hkept (by simp)
        closed := by
          intro _
          refine ⟨received, socket.queue, hstream, ?_, ?_, hserved.actions⟩
          · rw [← List.length_pos_iff]
            omega
          · rw [← hserved.pending, conn.length_pending, hfull] }

theorem Follows.run {last : ClientSocket} {events : List SocketEvent} {outs : List Action}
    (hrun : (clientSocket uds).Run socket events last outs)
    (h : Follows uds fd stream actions socket) :
    Follows uds fd (stream ++ sentBytes events) (actions ++ outs) last := by
  induction hrun generalizing stream actions with
  | nil =>
      rw [sentBytes, List.flatMap_nil, List.append_nil, List.append_nil]
      exact h
  | @cons socket event middle out events last outs henabled hstep _ ih =>
      rw [sentBytes, List.flatMap_cons, ← sentBytes, ← List.append_assoc, ← List.append_assoc]
      apply ih
      cases event with
      | send bytes =>
          cases hstep
          rw [List.append_nil]
          exact h.send bytes
      | readable available =>
          obtain ⟨conn, hconn⟩ := Option.isSome_iff_exists.mp henabled.1
          obtain ⟨next, served, hnext, hfollows, -⟩ :=
            h.readable hconn henabled.2.1 henabled.2.2
          rw [hstep] at hnext
          obtain ⟨rfl, rfl⟩ := Prod.mk.inj (Option.some.inj hnext)
          rw [List.append_nil]
          exact hfollows

/-- A connection is closed only behind the frames that fit. -/
theorem Follows.overflows (h : Follows uds fd stream actions socket)
    (hclosed : socket.conn = none) : OverflowsBehind (dispatches actions) stream := by
  obtain ⟨received, rest, rfl, hrest, hfull, hactions⟩ := h.closed hclosed
  obtain ⟨hwhole, hannounced⟩ := flatMap_bytes_greedyParse received
  have hdispatches : dispatches actions = (greedyParse received).1 := by
    rw [hactions, Tester.dispatches_serveAll]
  have hincomplete := greedyParse_leftover_incomplete received
  have hroom : doipHeaderSize ≤ recvBufSize := by decide
  -- the header lies in the buffer, and so decides whatever comes behind it
  have hheader : DoIpHeader.ofBytes ((greedyParse received).2 ++ rest) =
      DoIpHeader.ofBytes (greedyParse received).2 := by
    rw [← DoIpHeader.ofBytes_take le_rfl, List.take_append_of_le_length (by omega),
      DoIpHeader.ofBytes_take le_rfl]
  refine ⟨fun frame hmem => ⟨hannounced frame (hdispatches ▸ hmem), h.fits frame hmem⟩,
    (greedyParse received).2 ++ rest, ?_, ?_, ?_⟩
  · rw [hdispatches, ← List.append_assoc, hwhole]
  · have hpos := List.length_pos_iff.mpr hrest
    rw [List.length_append, hfull]
    exact Nat.lt_add_of_pos_right hpos
  · rw [hheader]
    rw [hfull] at hincomplete
    simp only [doipHeaderSize, recvBufSize] at hincomplete
    omega

end AutomotiveGateway.DoIp
