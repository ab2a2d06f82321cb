import AutomotiveGateway.DoIp.Message
import AutomotiveGateway.DoIp.Uds

/-!
# One DoIP connection and its message handlers

The connection keeps what the server knows about its tester and a receive
buffer. The handlers change the former and never touch the latter. Every call
and every message sent is recorded, in order, as an action of the connection.
-/

namespace AutomotiveGateway.DoIp

open ByteOrder Memory

/-- `sizeof(recv_buf)`. -/
def recvBufSize : Nat := 4096

/-- What the server knows about the tester at the other end of a connection. -/
structure Tester where
  fd : Int := -1
  activated : Bool := false
  testerAddr : UInt16 := 0
deriving DecidableEq, Repr

/-- One active DoIP TCP connection. -/
structure DoIpConnection extends Tester where
  recvBuf : List UInt8 := List.replicate recvBufSize 0
  recvLen : Nat := 0
  recvBuf_length : recvBuf.length = recvBufSize := by simp
  recvLen_le : recvLen ≤ recvBufSize := by simp

/-- What serving a connection does, as seen from outside the handlers. A call of `send` is taken
to return, as it does with SIGPIPE ignored. -/
inductive Action
  | handleDoipMessage (fd : Int) (frame : Frame)
  | udsHandle (fd : Int) (request : List UInt8)
  | send (fd : Int) (data : List UInt8)
deriving DecidableEq, Repr

namespace Action

/-- The connection an action belongs to. -/
def fd : Action → Int
  | handleDoipMessage fd _ => fd
  | udsHandle fd _ => fd
  | send fd _ => fd

/-- The frame whose handling starts with this action. -/
def dispatched? : Action → Option Frame
  | handleDoipMessage _ frame => some frame
  | _ => none

/-- The message sent by this action. -/
def sent? : Action → Option (List UInt8)
  | send _ data => some data
  | _ => none

/-- The request this action hands to the UDS handler. -/
def request? : Action → Option (List UInt8)
  | udsHandle _ request => some request
  | _ => none

end Action

/-- The frames handed to `handle_doip_message`, in order. -/
def dispatches (actions : List Action) : List Frame := actions.filterMap Action.dispatched?

/-- The messages sent, in order. -/
def sends (actions : List Action) : List (List UInt8) := actions.filterMap Action.sent?

/-- The requests handed to `UdsHandler::handle`, in order. -/
def requests (actions : List Action) : List (List UInt8) := actions.filterMap Action.request?

namespace DoIpConnection

/-! ## Message handlers -/

def handleRoutingActivation (conn : DoIpConnection) (payload : List UInt8) (len : Nat) :
    DoIpConnection × List Action :=
  if len < 2 then (conn, [])
  else
    let testerAddr := ofBig16 (byteAt payload 0) (byteAt payload 1)
    let res : List UInt8 :=
      [((testerAddr >>> 8) &&& 0xFF).toUInt8, (testerAddr &&& 0xFF).toUInt8,
        ((doipEcuAddress >>> 8) &&& 0xFF).toUInt8, (doipEcuAddress &&& 0xFF).toUInt8,
        doipRoutingOk, 0x00, 0x00, 0x00, 0x00]
    ({ conn with testerAddr, activated := true },
      [.send conn.fd (makeDoipMessage doipRoutingActivationRes res)])

def handleDiagnosticMessage (uds : UdsHandler) (conn : DoIpConnection) (payload : List UInt8)
    (len : Nat) : DoIpConnection × List Action :=
  if !conn.activated then (conn, [])
  else if len < 4 then (conn, [])
  else
    let srcAddr := ofBig16 (byteAt payload 0) (byteAt payload 1)
    let tgtAddr := ofBig16 (byteAt payload 2) (byteAt payload 3)
    let udsData := payload.drop 4
    let udsLen := len - 4
    let ack : List UInt8 :=
      [((srcAddr >>> 8) &&& 0xFF).toUInt8, (srcAddr &&& 0xFF).toUInt8,
        ((tgtAddr >>> 8) &&& 0xFF).toUInt8, (tgtAddr &&& 0xFF).toUInt8, doipAckOk]
    let diagPayload : List UInt8 :=
      [((tgtAddr >>> 8) &&& 0xFF).toUInt8, (tgtAddr &&& 0xFF).toUInt8,
        ((srcAddr >>> 8) &&& 0xFF).toUInt8, (srcAddr &&& 0xFF).toUInt8] ++
        uds.handle udsData udsLen
    (conn,
      [.send conn.fd (makeDoipMessage doipDiagnosticAck ack),
        .udsHandle conn.fd (udsData.take udsLen),
        .send conn.fd (makeDoipMessage doipDiagnosticMessage diagPayload)])

def aliveCheckResponse : List UInt8 :=
  [((doipEcuAddress >>> 8) &&& 0xFF).toUInt8, (doipEcuAddress &&& 0xFF).toUInt8]

/-- `payload` points into the receive buffer; only its first `payloadLen` bytes
belong to the message. -/
def handleDoipMessage (uds : UdsHandler) (conn : DoIpConnection) (header : DoIpHeader)
    (payload : List UInt8) (payloadLen : Nat) : DoIpConnection × List Action :=
  let call := Action.handleDoipMessage conn.fd ⟨header, payload.take payloadLen⟩
  let served :=
    if header.payloadType = doipRoutingActivationReq then
      conn.handleRoutingActivation payload payloadLen
    else if header.payloadType = doipDiagnosticMessage then
      conn.handleDiagnosticMessage uds payload payloadLen
    else if header.payloadType = doipAliveCheckReq then
      (conn, [.send conn.fd (makeDoipMessage doipAliveCheckRes aliveCheckResponse)])
    else (conn, [])
  (served.1, call :: served.2)

end DoIpConnection

/-! ## What the handlers do, frame by frame -/

namespace Frame

/-- A routing activation long enough to carry the tester's address. -/
def activates (frame : Frame) : Bool :=
  frame.header.payloadType = doipRoutingActivationReq ∧ 2 ≤ frame.payload.length

/-- A diagnostic message long enough to carry both addresses. -/
def diagnoses (frame : Frame) : Bool :=
  frame.header.payloadType = doipDiagnosticMessage ∧ 4 ≤ frame.payload.length

/-- The address a routing activation registers. -/
def testerAddr (frame : Frame) : UInt16 := ofBig16 (byteAt frame.payload 0) (byteAt frame.payload 1)

/-- The source and target address of a diagnostic message, and its UDS request. -/
def source (frame : Frame) : List UInt8 := frame.payload.take 2
def target (frame : Frame) : List UInt8 := (frame.payload.drop 2).take 2
def request (frame : Frame) : List UInt8 := frame.payload.drop 4

theorem activates_iff {frame : Frame} : frame.activates ↔
    frame.header.payloadType = doipRoutingActivationReq ∧ 2 ≤ frame.payload.length := by
  simp [activates]

theorem diagnoses_iff {frame : Frame} : frame.diagnoses ↔
    frame.header.payloadType = doipDiagnosticMessage ∧ 4 ≤ frame.payload.length := by
  simp [diagnoses]

end Frame

/-- The response to a routing activation. -/
def activationResponse (frame : Frame) : List UInt8 :=
  makeDoipMessage doipRoutingActivationRes
    (bigBytes16 frame.testerAddr ++ bigBytes16 doipEcuAddress ++ [doipRoutingOk, 0, 0, 0, 0])

/-- The acknowledgement of a diagnostic message. -/
def diagnosticAck (frame : Frame) : List UInt8 :=
  makeDoipMessage doipDiagnosticAck (frame.source ++ frame.target ++ [doipAckOk])

/-- The response to a diagnostic message: the addresses swapped, then the UDS response. -/
def diagnosticResponse (uds : UdsHandler) (frame : Frame) : List UInt8 :=
  makeDoipMessage doipDiagnosticMessage
    (frame.target ++ frame.source ++ uds.handle frame.request frame.request.length)

/-- The response to an alive check. -/
def aliveResponse : List UInt8 := makeDoipMessage doipAliveCheckRes (bigBytes16 doipEcuAddress)

/-- What a frame makes of the server's knowledge about the tester, and what it
causes. A frame that is too short, unknown or out of turn changes nothing. -/
def Tester.serve (uds : UdsHandler) (tester : Tester) (frame : Frame) : Tester × List Action :=
  if frame.activates then
    ({ tester with testerAddr := frame.testerAddr, activated := true },
      [.send tester.fd (activationResponse frame)])
  else if frame.diagnoses ∧ tester.activated then
    (tester,
      [.send tester.fd (diagnosticAck frame), .udsHandle tester.fd frame.request,
        .send tester.fd (diagnosticResponse uds frame)])
  else if frame.header.payloadType = doipAliveCheckReq then
    (tester, [.send tester.fd aliveResponse])
  else (tester, [])

namespace DoIpConnection

theorem handleRoutingActivation_eq (uds : UdsHandler) (conn : DoIpConnection)
    {header : DoIpHeader} (htype : header.payloadType = doipRoutingActivationReq)
    {payload : List UInt8} {len : Nat} (hlen : len ≤ payload.length) :
    conn.handleRoutingActivation payload len =
      ({ conn with toTester := (conn.toTester.serve uds ⟨header, payload.take len⟩).1 },
        (conn.toTester.serve uds ⟨header, payload.take len⟩).2) := by
  have hlength : (payload.take len).length = len := List.length_take_of_le hlen
  have hdiagnostic : ¬ (Frame.diagnoses ⟨header, payload.take len⟩ ∧ conn.activated) := by
    rintro ⟨h, _⟩
    rw [Frame.diagnoses_iff, htype] at h
    exact absurd h.1 (by decide)
  have halive : ¬ header.payloadType = doipAliveCheckReq := by
    rw [htype]
    decide
  by_cases hshort : len < 2
  · have hactivates : ¬ Frame.activates ⟨header, payload.take len⟩ := by
      rw [Frame.activates_iff, hlength]
      omega
    rw [handleRoutingActivation, if_pos hshort, Tester.serve, if_neg hactivates,
      if_neg hdiagnostic, if_neg halive]
  · have hactivates : Frame.activates ⟨header, payload.take len⟩ := by
      rw [Frame.activates_iff, hlength]
      exact ⟨htype, by omega⟩
    have haddr : Frame.testerAddr ⟨header, payload.take len⟩ =
        ofBig16 (byteAt payload 0) (byteAt payload 1) := by
      rw [Frame.testerAddr, byteAt_take (by omega), byteAt_take (by omega)]
    rw [handleRoutingActivation, if_neg hshort, Tester.serve, if_pos hactivates]
    simp [activationResponse, haddr, bigBytes16]

theorem handleDiagnosticMessage_eq (uds : UdsHandler) (conn : DoIpConnection)
    {header : DoIpHeader} (htype : header.payloadType = doipDiagnosticMessage)
    {payload : List UInt8} {len : Nat} (hlen : len ≤ payload.length) :
    conn.handleDiagnosticMessage uds payload len =
      ({ conn with toTester := (conn.toTester.serve uds ⟨header, payload.take len⟩).1 },
        (conn.toTester.serve uds ⟨header, payload.take len⟩).2) := by
  have hlength : (payload.take len).length = len := List.length_take_of_le hlen
  have hactivates : ¬ Frame.activates ⟨header, payload.take len⟩ := by
    intro h
    rw [Frame.activates_iff, htype] at h
    exact absurd h.1 (by decide)
  have halive : ¬ header.payloadType = doipAliveCheckReq := by
    rw [htype]
    decide
  by_cases hserves : Frame.diagnoses ⟨header, payload.take len⟩ ∧ conn.activated
  swap
  · have hguard : ¬ (conn.activated ∧ 4 ≤ len) := by
      rintro ⟨hactive, hlong⟩
      exact hserves ⟨Frame.diagnoses_iff.mpr ⟨htype, by rwa [hlength]⟩, hactive⟩
    rw [Tester.serve, if_neg hactivates, if_neg hserves, if_neg halive, handleDiagnosticMessage]
    by_cases hactive : conn.activated
    · rw [if_neg (by simp [hactive]), if_pos (by simpa [hactive] using hguard)]
    · rw [if_pos (by simp [hactive])]
  have hlong := (Frame.diagnoses_iff.mp hserves.1).2
  rw [hlength] at hlong
  -- the guards leave four address bytes in front of the request
  obtain ⟨s₀, s₁, t₀, t₁, rest, rfl⟩ := exists_cons₄ (hlong.trans hlen)
  obtain ⟨udsLen, rfl⟩ : ∃ udsLen, len = udsLen + 4 := ⟨len - 4, by omega⟩
  have hrest : (rest.take udsLen).length = udsLen := by
    simp only [List.length_cons] at hlen
    rw [List.length_take]
    omega
  rw [handleDiagnosticMessage, if_neg (by simp [hserves.2]), if_neg (by omega), Tester.serve,
    if_neg hactivates, if_pos hserves]
  simp [diagnosticAck, diagnosticResponse, Frame.source, Frame.target, Frame.request, byteAt,
    hiByte_ofBig16, loByte_ofBig16, hrest, uds.handle_take]

/-- The handlers see a frame exactly as long as it is announced, act on it as the
tester's session does, and leave the receive buffer alone. -/
theorem handleDoipMessage_eq (uds : UdsHandler) (conn : DoIpConnection) (header : DoIpHeader)
    {payload : List UInt8} {len : Nat} (hlen : len ≤ payload.length) :
    conn.handleDoipMessage uds header payload len =
      ({ conn with toTester := (conn.toTester.serve uds ⟨header, payload.take len⟩).1 },
        .handleDoipMessage conn.fd ⟨header, payload.take len⟩ ::
          (conn.toTester.serve uds ⟨header, payload.take len⟩).2) := by
  unfold handleDoipMessage
  by_cases hrouting : header.payloadType = doipRoutingActivationReq
  · simp only [if_pos hrouting, conn.handleRoutingActivation_eq uds hrouting hlen]
  by_cases hdiagnostic : header.payloadType = doipDiagnosticMessage
  · simp only [if_neg hrouting, if_pos hdiagnostic,
      conn.handleDiagnosticMessage_eq uds hdiagnostic hlen]
  have hactivates : ¬ Frame.activates ⟨header, payload.take len⟩ :=
    fun h => hrouting (Frame.activates_iff.mp h).1
  have hdiagnoses : ¬ (Frame.diagnoses ⟨header, payload.take len⟩ ∧ conn.activated) :=
    fun h => hdiagnostic (Frame.diagnoses_iff.mp h.1).1
  by_cases halive : header.payloadType = doipAliveCheckReq
  · simp only [if_neg hrouting, if_neg hdiagnostic, if_pos halive, Tester.serve,
      if_neg hactivates, if_neg hdiagnoses]
    simp [aliveResponse, aliveCheckResponse, bigBytes16]
  · simp only [if_neg hrouting, if_neg hdiagnostic, if_neg halive, Tester.serve,
      if_neg hactivates, if_neg hdiagnoses]

/-- Whatever a message asks for, the receive buffer is untouched by its handler. -/
theorem handleDoipMessage_buffer (uds : UdsHandler) (conn : DoIpConnection)
    (header : DoIpHeader) (payload : List UInt8) (len : Nat) :
    (conn.handleDoipMessage uds header payload len).1.recvBuf = conn.recvBuf ∧
      (conn.handleDoipMessage uds header payload len).1.recvLen = conn.recvLen := by
  unfold handleDoipMessage handleRoutingActivation handleDiagnosticMessage
  dsimp only
  split_ifs <;> exact ⟨rfl, rfl⟩

end DoIpConnection

end AutomotiveGateway.DoIp
