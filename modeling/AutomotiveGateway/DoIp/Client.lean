import AutomotiveGateway.DoIp.Replies

/-!
# The diagnostic client

The client waits for one arrival after each request and looks for the UDS response in
the first message of it. The server sends two messages for a request, so what the client
finds there is the acknowledgement, or what is left of an earlier message.
-/

namespace AutomotiveGateway.DoIp

open ByteOrder Memory

/-- `TESTER_ADDR` -/
def clientTesterAddr : UInt16 := 0x0E00

/-- `ECU_ADDR` -/
def clientEcuAddr : UInt16 := 0x0001

/-- The size of the client's receive buffer. -/
def clientBufSize : Nat := 4096

def makeMsg (type : UInt16) (payload : List UInt8) : List UInt8 :=
  ([0x02, 0xFD, ((type >>> 8) &&& 0xFF).toUInt8, (type &&& 0xFF).toUInt8] : List UInt8) ++
    littleBytes32 (htonl (UInt32.ofNat payload.length)) ++ payload

/-- The message that `send_uds` sends for a request. -/
def udsMessage (udsReq : List UInt8) : List UInt8 :=
  makeMsg 0x8001
    ([((clientTesterAddr >>> 8) &&& 0xFF).toUInt8, (clientTesterAddr &&& 0xFF).toUInt8,
      ((clientEcuAddr >>> 8) &&& 0xFF).toUInt8, (clientEcuAddr &&& 0xFF).toUInt8] ++ udsReq)

/-- The activation message of the client. -/
def routingMessage : List UInt8 :=
  makeMsg 0x0005
    [((clientTesterAddr >>> 8) &&& 0xFF).toUInt8, (clientTesterAddr &&& 0xFF).toUInt8,
      0x00, 0x00, 0x00, 0x00, 0x00]

/-- What `send_uds` takes for the UDS response in the `n` bytes that `recv` returned, if it
shows one. The sum of header and length is a 32-bit one. -/
def udsResponse (buf : List UInt8) (n : Int) : Option (List UInt8) :=
  if n ≤ 0 then none
  else if n > 8 then
    let secondLen := ntohl (ofLittle32 (byteAt buf 4) (byteAt buf 5) (byteAt buf 6) (byteAt buf 7))
    if n ≥ ((8 + secondLen).toNat : Int) ∧ secondLen ≥ 5 then
      some ((buf.drop (8 + 4)).take (secondLen - 4).toNat)
    else none
  else none

/-- The client reports the routing activation as successful. -/
def routingSucceeds (buf : List UInt8) (n : Int) : Bool := n ≥ 13 ∧ byteAt buf 12 = 0x10

/-! ## Client and server together -/

/-- The server's connection, unless it has closed it, the bytes on their way in either
direction, and the request for which `send_uds` waits in `recv`. -/
structure ClientSession where
  server : Option DoIpConnection
  toServer : List UInt8 := []
  toClient : List UInt8 := []
  waiting : Option (List UInt8) := none

/-- A call of `send_uds`, or an arrival of some number of bytes at either side. -/
inductive ClientEvent
  | sendUds (udsReq : List UInt8)
  | serverRecv (count : Nat)
  | clientRecv (count : Nat)

/-- Client and server, connected by two byte streams. An output is a completed call of
`send_uds`: its request, and what it takes for the response. -/
def clientServer : Machine ClientSession ClientEvent (List UInt8 × Option (List UInt8)) where
  Enabled session event :=
    match event with
    | .sendUds _ => session.waiting = none
    | .serverRecv count =>
        session.server.isSome ∧ 0 < count ∧ count ≤ session.toServer.length
    | .clientRecv count =>
        session.waiting.isSome ∧ count ≤ clientBufSize ∧ count ≤ session.toClient.length ∧
          -- `recv` returns 0 only at the end of the stream
          (count = 0 → session.server = none ∧ session.toClient = [])
  step session event :=
    match event with
    | .sendUds udsReq =>
        some ({ session with
          toServer := session.toServer ++ udsMessage udsReq
          waiting := some udsReq }, [])
    | .serverRecv count => do
        let conn ← session.server
        let chunk := (session.toServer.take count).take conn.capacity
        let (entry, actions) ← conn.onClientData 64 {} (.data chunk)
        return ({ session with
          server := entry
          toServer := session.toServer.drop chunk.length
          toClient := session.toClient ++ (sends actions).flatten }, [])
    | .clientRecv count => do
        let udsReq ← session.waiting
        let chunk := session.toClient.take count
        return ({ session with
          toClient := session.toClient.drop count
          waiting := none }, [(udsReq, udsResponse chunk chunk.length)])

/-- The client has activated the connection: it has read as much of the response as its
check asks for, and the rest may still be on its way. -/
structure ActivatedSession (session : ClientSession) : Prop where
  server : ∃ conn, session.server = some conn ∧ conn.activated ∧ conn.pending = []
  toServer : session.toServer = []
  toClient : ∃ count response, greedyParse routingMessage = ([response], []) ∧
    routingSucceeds ((activationResponse response).take count)
      ((activationResponse response).take count).length ∧
    session.toClient = (activationResponse response).drop count
  waiting : session.waiting = none

/-- Every completed call has taken the server's answer to its own request. -/
def ClientAgrees (calls : List (List UInt8 × Option (List UInt8))) : Prop :=
  ∀ call ∈ calls, call.2 = some (({} : UdsHandler).handle call.1 call.1.length)

/-! ## What the client finds in an arrival -/

theorem udsResponse_eq (buf : List UInt8) (n : Nat) :
    udsResponse buf n =
      if 8 < n ∧ (8 + bigAt32 buf 4).toNat ≤ n ∧ 5 ≤ bigAt32 buf 4 then
        some ((buf.drop 12).take (bigAt32 buf 4 - 4).toNat)
      else none := by
  have hlen : ntohl (ofLittle32 (byteAt buf 4) (byteAt buf 5) (byteAt buf 6) (byteAt buf 7)) =
      bigAt32 buf 4 := swap32_ofLittle32 _ _ _ _
  by_cases hheader : 8 < n
  · have hreceived : ¬ (n : Int) ≤ 0 := by omega
    have hlong : (n : Int) > 8 := by omega
    rw [udsResponse, if_neg hreceived, if_pos hlong]
    simp only [hlen, ge_iff_le, Nat.cast_le, hheader, true_and]
  · have hshort : ¬ (n : Int) > 8 := by omega
    rw [udsResponse, if_neg hshort, ite_self, if_neg fun h => hheader h.1]

/-- What the client takes for the response starts behind the addresses of the first message,
and the length that it read there fits in the arrival. -/
theorem of_udsResponse_eq_some {buf response : List UInt8} {n : Nat}
    (hshown : udsResponse buf n = some response) :
    8 < n ∧ (8 + bigAt32 buf 4).toNat ≤ n ∧ 5 ≤ (bigAt32 buf 4).toNat ∧
      byteAt response 0 = byteAt buf 12 := by
  rw [udsResponse_eq] at hshown
  split_ifs at hshown with hwhole
  obtain ⟨hheader, hfits, hlong⟩ := hwhole
  have hfive : 5 ≤ (bigAt32 buf 4).toNat := UInt32.le_iff_toNat_le.mp hlong
  have hfour : (4 : UInt32) ≤ bigAt32 buf 4 := UInt32.le_trans (by decide) hlong
  have hnonempty : 0 < (bigAt32 buf 4 - 4).toNat := by
    rw [UInt32.toNat_sub_of_le _ _ hfour]
    exact Nat.sub_pos_of_lt hfive
  refine ⟨hheader, hfits, hfive, ?_⟩
  rw [← Option.some.inj hshown, byteAt_take hnonempty, ← byteAt_add _ 12 0]

/-- A message of the server that is no UDS response: the place of the response holds none,
or its payload ends before it. -/
def HoldsNoResponse (message : List UInt8) : Prop :=
  ∃ (hi lo len : UInt8) (payload : List UInt8),
    message = [0x02, 0xFD, hi, lo, 0, 0, 0, len] ++ payload ∧ lo ≠ 0 ∧
      payload.length = len.toNat ∧ (5 ≤ len.toNat → byteAt payload 4 ∉ UdsHandler.responseCodes)

theorem announced_of_whole (hi lo len : UInt8) (rest : List UInt8) :
    (bigAt32 ([0x02, 0xFD, hi, lo, 0, 0, 0, len] ++ rest) 4).toNat = len.toNat := by
  rw [bigAt32, toNat_ofBig32]
  simp [byteAt]

/-- Behind up to four bytes that are left of the activation response, the client reads the
length from the wrong place, and finds it too large for its buffer. -/
theorem announced_of_leftover {hi lo len : UInt8} (hlo : lo ≠ 0) (rest : List UInt8) {z : Nat}
    (hpos : 0 < z) (hz : z ≤ 4) :
    clientBufSize < (bigAt32 (List.replicate z 0 ++
        ([0x02, 0xFD, hi, lo, 0, 0, 0, len] ++ rest)) 4).toNat ∧
      (bigAt32 (List.replicate z 0 ++
        ([0x02, 0xFD, hi, lo, 0, 0, 0, len] ++ rest)) 4).toNat + 8 < 4294967296 := by
  have hlow := hi.toNat_lt
  have hhigh := lo.toNat_lt
  have hnonzero : lo.toNat ≠ 0 := fun h => hlo (UInt8.toNat_inj.mp h)
  have hversion : (0x02 : UInt8).toNat = 2 ∧ (0xFD : UInt8).toNat = 253 := ⟨rfl, rfl⟩
  unfold bigAt32 clientBufSize
  rw [toNat_ofBig32]
  match z, hpos, hz with
  | 1, _, _ | 2, _, _ | 3, _, _ | 4, _, _ =>
      simp [byteAt, List.replicate]
      omega

/-- An arrival that starts with the rest of the activation response or with a message that
is no UDS response shows no UDS response. -/
theorem not_responseCode_of_udsResponse {message : List UInt8} (hmessage : HoldsNoResponse message)
    (rest : List UInt8) {z count : Nat} (hz : z ≤ 4) {chunk response : List UInt8}
    (hchunk : chunk = (List.replicate z 0 ++ (message ++ rest)).take count)
    (hfits : chunk.length ≤ clientBufSize)
    (hshown : udsResponse chunk chunk.length = some response) :
    byteAt response 0 ∉ UdsHandler.responseCodes := by
  obtain ⟨hi, lo, len, payload, rfl, hlo, hpayload, hcode⟩ := hmessage
  obtain ⟨hheader, hwhole, hlong, hfirst⟩ := of_udsResponse_eq_some hshown
  have hcount : chunk.length ≤ count := by
    rw [hchunk]
    exact List.length_take_le _ _
  have hlength : bigAt32 chunk 4 =
      bigAt32 (List.replicate z 0 ++
        ([0x02, 0xFD, hi, lo, 0, 0, 0, len] ++ (payload ++ rest))) 4 := by
    rw [hchunk, bigAt32_take (by omega), List.append_assoc]
  have hsize : (8 : UInt32).toNat = 8 := rfl
  rw [UInt32.toNat_add, hsize] at hwhole
  obtain rfl | hpos := Nat.eq_zero_or_pos z
  · -- the length is the message's own, and its payload has a fifth byte
    rw [List.replicate_zero, List.nil_append] at hlength hchunk
    rw [hlength, announced_of_whole] at hwhole hlong
    have hbyte := len.toNat_lt
    have hinside : 4 < payload.length := by omega
    rw [hfirst, hchunk, byteAt_take (by omega)]
    have hfifth : byteAt ([0x02, 0xFD, hi, lo, 0, 0, 0, len] ++ payload ++ rest) 12 =
        byteAt payload 4 := by
      simp [byteAt, List.getElem?_append_left hinside]
    rw [hfifth]
    exact hcode hlong
  · obtain ⟨hlarge, hwrap⟩ := announced_of_leftover hlo (payload ++ rest) hpos hz
    rw [← hlength] at hlarge hwrap
    omega

/-! ## The messages that come first -/

theorem holdsNoResponse_makeDoipMessage {payloadType : UInt16} {payload : List UInt8}
    (htype : payloadType.toUInt8 ≠ 0) (hsize : payload.length < 256)
    (hcode : 5 ≤ payload.length → byteAt payload 4 ∉ UdsHandler.responseCodes) :
    HoldsNoResponse (makeDoipMessage payloadType payload) := by
  have hlen : (UInt8.ofNat payload.length).toNat = payload.length :=
    UInt8.toNat_ofNat_of_lt' hsize
  have hbytes : bigBytes32 (UInt32.ofNat payload.length) =
      [0, 0, 0, UInt8.ofNat payload.length] := by
    simp only [bigBytes32, List.cons.injEq, and_true]
    refine ⟨?_, ?_, ?_, ?_⟩
    all_goals
      apply UInt8.toNat_inj.mp
      simp [Nat.shiftRight_eq_div_pow]
    all_goals omega
  refine ⟨(payloadType >>> 8).toUInt8, payloadType.toUInt8, UInt8.ofNat payload.length, payload,
    ?_, htype, hlen.symm, by rwa [hlen]⟩
  rw [makeDoipMessage_eq, hbytes]
  rfl

/-- What is sent does not start with a UDS response. -/
def OpensWithoutResponse (messages : List (List UInt8)) : Prop :=
  ∀ message ∈ messages.head?, HoldsNoResponse message

theorem OpensWithoutResponse.append {messages more : List (List UInt8)}
    (hmessages : OpensWithoutResponse messages) (hmore : OpensWithoutResponse more) :
    OpensWithoutResponse (messages ++ more) := by
  cases messages with
  | nil => exact hmore
  | cons message messages => exact hmessages

/-- Every frame is answered with another message before a UDS response, if at all. -/
theorem opensWithoutResponse_serve (uds : UdsHandler) (tester : Tester) (frame : Frame) :
    OpensWithoutResponse (sends (tester.serve uds frame).2) := by
  have hrouting : doipRoutingOk ∉ UdsHandler.responseCodes := by decide
  have hack : doipAckOk ∉ UdsHandler.responseCodes := by decide
  unfold Tester.serve
  split_ifs with hactivates hserves halive
  · rintro message ⟨⟩
    exact holdsNoResponse_makeDoipMessage (by decide) (Nat.le_of_ble_eq_true rfl) fun _ => hrouting
  · rintro message ⟨⟩
    have hlong := (Frame.diagnoses_iff.mp hserves.1).2
    obtain ⟨s₀, s₁, t₀, t₁, request, hpayload⟩ := exists_cons₄ hlong
    rw [diagnosticAck, Frame.source, Frame.target, hpayload]
    exact holdsNoResponse_makeDoipMessage (by decide) (Nat.le_of_ble_eq_true rfl) fun _ => hack
  · rintro message ⟨⟩
    exact holdsNoResponse_makeDoipMessage (by decide) (by decide) fun hlong =>
      absurd hlong (by decide)
  · rintro message ⟨⟩

theorem opensWithoutResponse_serveAll (uds : UdsHandler) (tester : Tester) (frames : List Frame) :
    OpensWithoutResponse (sends (tester.serveAll uds frames).2) := by
  induction frames generalizing tester with
  | nil => rintro message ⟨⟩
  | cons frame frames ih =>
      have hsends : sends (tester.serveAll uds (frame :: frames)).2 =
          sends (tester.serve uds frame).2 ++
            sends ((tester.serve uds frame).1.serveAll uds frames).2 := by
        rw [Tester.serveAll, List.cons_append, sends, List.filterMap_cons_none rfl,
          List.filterMap_append]
        rfl
      rw [hsends]
      exact (opensWithoutResponse_serve uds tester frame).append (ih _)

theorem opensWithoutResponse_onClientData {conn : DoIpConnection} {chunk : List UInt8}
    (hfits : chunk.length ≤ conn.capacity) {entry : Option DoIpConnection} {actions : List Action}
    (hcall : conn.onClientData 64 {} (.data chunk) = some (entry, actions)) :
    OpensWithoutResponse (sends actions) := by
  obtain rfl | hchunk := eq_or_ne chunk []
  · -- the server takes an empty arrival for the end of the stream
    have hclosed : conn.onClientData 64 {} (.data []) = some (none, []) := by
      simp [DoIpConnection.onClientData, RecvResult.recv]
    rw [hclosed, Option.some.injEq, Prod.mk.injEq] at hcall
    rw [← hcall.2]
    rintro message ⟨⟩
  · obtain ⟨next, served, hserve, hserved⟩ :=
      conn.onClientData_served (by decide) {} hchunk hfits (totalFits_host _)
    rw [hcall, Option.some.injEq, Prod.mk.injEq] at hserve
    rw [hserve.2, hserved.actions]
    exact opensWithoutResponse_serveAll _ _ _

/-! ## The client lags behind -/

/-- What is on its way to the client: at most the last four bytes of the activation
response, and messages that do not start with a UDS response. -/
def Lags (bytes : List UInt8) : Prop :=
  ∃ (z : Nat) (messages : List (List UInt8)), z ≤ 4 ∧ OpensWithoutResponse messages ∧
    bytes = List.replicate z 0 ++ messages.flatten

theorem Lags.append {bytes : List UInt8} (hlags : Lags bytes) {messages : List (List UInt8)}
    (hopens : OpensWithoutResponse messages) : Lags (bytes ++ messages.flatten) := by
  obtain ⟨z, earlier, hz, hearlier, rfl⟩ := hlags
  refine ⟨z, earlier ++ messages, hz, hearlier.append hopens, ?_⟩
  rw [List.flatten_append, List.append_assoc]

theorem ActivatedSession.lags {session : ClientSession} (hactivated : ActivatedSession session) :
    Lags session.toClient := by
  obtain ⟨count, response, _, hsucceeds, hrest⟩ := hactivated.toClient
  have hcount : 13 ≤ count := by
    have hlength := List.length_take_le count (activationResponse response)
    simp only [routingSucceeds, ge_iff_le, decide_eq_true_eq] at hsucceeds
    omega
  have hzeros : (activationResponse response).drop 13 = List.replicate 4 0 := by
    rw [activationResponse, makeDoipMessage_eq]
    rfl
  refine ⟨4 - (count - 13), [], Nat.sub_le _ _, by rintro message ⟨⟩, ?_⟩
  rw [hrest, ← Nat.add_sub_cancel' hcount, ← List.drop_drop, hzeros, List.drop_replicate,
    List.flatten_nil, List.append_nil]
  simp

/-- A lagging client never finds the answer to a request. -/
theorem Lags.udsResponse_ne {bytes : List UInt8} (hlags : Lags bytes) {count : Nat}
    (hcount : count ≤ clientBufSize) (udsReq : List UInt8) :
    udsResponse (bytes.take count) (bytes.take count).length ≠
      some (({} : UdsHandler).handle udsReq udsReq.length) := by
  obtain ⟨z, messages, hz, hopens, rfl⟩ := hlags
  obtain ⟨code, rest, hresponse, hcode, _⟩ := UdsHandler.isResponse_handle udsReq udsReq.length
  intro hshown
  rw [hresponse] at hshown
  have hfits := List.length_take_le count (List.replicate z 0 ++ messages.flatten)
  cases messages with
  | nil =>
      have hheader := (of_udsResponse_eq_some hshown).1
      rw [List.flatten_nil, List.append_nil, List.length_take, List.length_replicate] at hheader
      omega
  | cons message messages =>
      rw [List.flatten_cons] at hshown hfits
      exact not_responseCode_of_udsResponse (hopens message rfl) messages.flatten hz rfl
        (hfits.trans hcount) hshown hcode

section Steps

variable {session next first last : ClientSession} {events : List ClientEvent}
  {calls : List (List UInt8 × Option (List UInt8))}

theorem step_sendUds {udsReq : List UInt8}
    (hstep : clientServer.step session (.sendUds udsReq) = some (next, calls)) :
    calls = [] ∧ next.toClient = session.toClient := by
  obtain ⟨rfl, rfl⟩ := Prod.mk.inj (Option.some.inj hstep)
  exact ⟨rfl, rfl⟩

theorem step_serverRecv {count : Nat}
    (hstep : clientServer.step session (.serverRecv count) = some (next, calls)) :
    calls = [] ∧ ∃ messages, OpensWithoutResponse messages ∧
      next.toClient = session.toClient ++ messages.flatten := by
  obtain ⟨conn, _, hserve⟩ := Option.bind_eq_some_iff.mp hstep
  obtain ⟨⟨entry, actions⟩, hcall, hnext⟩ := Option.bind_eq_some_iff.mp hserve
  obtain ⟨rfl, rfl⟩ := Prod.mk.inj (Option.some.inj hnext)
  exact ⟨rfl, sends actions,
    opensWithoutResponse_onClientData (List.length_take_le _ _) hcall, rfl⟩

theorem step_clientRecv {count : Nat}
    (hstep : clientServer.step session (.clientRecv count) = some (next, calls)) :
    ∃ udsReq, calls = [(udsReq,
      udsResponse (session.toClient.take count) (session.toClient.take count).length)] := by
  obtain ⟨udsReq, _, hnext⟩ := Option.bind_eq_some_iff.mp hstep
  obtain ⟨_, rfl⟩ := Prod.mk.inj (Option.some.inj hnext)
  exact ⟨udsReq, rfl⟩

/-- The first call that completes takes something else than its response. -/
theorem not_clientAgrees_of_clientRecv
    (hrun : clientServer.Run first events last calls) (hlags : Lags first.toClient) {count : Nat}
    (hrecv : ClientEvent.clientRecv count ∈ events) : ¬ ClientAgrees calls := by
  induction hrun with
  | nil => exact absurd hrecv List.not_mem_nil
  | @cons session event middle out events last outs henabled hstep _ ih =>
      intro hagrees
      cases event with
      | sendUds udsReq =>
          obtain ⟨rfl, htoClient⟩ := step_sendUds hstep
          have hlater : ClientEvent.clientRecv count ∈ events := by simpa using hrecv
          exact ih (by rwa [htoClient]) hlater hagrees
      | serverRecv received =>
          obtain ⟨rfl, messages, hopens, htoClient⟩ := step_serverRecv hstep
          have hlater : ClientEvent.clientRecv count ∈ events := by simpa using hrecv
          exact ih (htoClient ▸ hlags.append hopens) hlater hagrees
      | clientRecv received =>
          obtain ⟨udsReq, rfl⟩ := step_clientRecv hstep
          exact hlags.udsResponse_ne henabled.2.1 udsReq (hagrees _ List.mem_cons_self)

/-- Without an arrival at the client, no call completes. -/
theorem calls_eq_nil (hrun : clientServer.Run first events last calls)
    (hnone : ∀ count, ClientEvent.clientRecv count ∉ events) : calls = [] := by
  induction hrun with
  | nil => rfl
  | @cons session event middle out events last outs _ hstep _ ih =>
      have hrest := ih fun count hmem => hnone count (List.mem_cons_of_mem _ hmem)
      cases event with
      | sendUds udsReq => rw [(step_sendUds hstep).1, hrest, List.nil_append]
      | serverRecv count => rw [(step_serverRecv hstep).1, hrest, List.nil_append]
      | clientRecv count => exact absurd List.mem_cons_self (hnone count)

end Steps

/-! ## A request on its own -/

/-- Client and server build the same messages. -/
theorem makeMsg_eq (payloadType : UInt16) (payload : List UInt8) :
    makeMsg payloadType payload = makeDoipMessage payloadType payload := rfl

theorem greedyParse_makeMsg (payloadType : UInt16) {payload : List UInt8}
    (hsize : payload.length < 4294967296) :
    greedyParse (makeMsg payloadType payload) = ([.ofPayload payloadType payload], []) := by
  have hempty : greedyParse [] = ([], []) := greedyParse_of_incomplete (Or.inl (by decide))
  have hparse := greedyParse_makeDoipMessage payloadType hsize []
  rwa [List.append_nil, hempty] at hparse

theorem udsMessage_eq (udsReq : List UInt8) :
    udsMessage udsReq = makeMsg 0x8001 ([0x0E, 0x00, 0x00, 0x01] ++ udsReq) := rfl

theorem udsMessage_le_capacity {conn : DoIpConnection} (hpending : conn.pending = [])
    {udsReq : List UInt8} (hfits : udsReq.length + 12 ≤ recvBufSize) :
    (udsMessage udsReq).length ≤ conn.capacity := by
  have hempty : conn.recvLen = 0 := by rw [← conn.length_pending, hpending, List.length_nil]
  rw [udsMessage_eq, makeMsg_eq, length_makeDoipMessage, DoIpConnection.capacity, hempty,
    List.length_append, doipHeaderSize]
  simp
  omega

/-- The server answers a request that it receives as a whole with two messages. -/
theorem sends_udsMessage {conn : DoIpConnection} (hactivated : conn.activated)
    (hpending : conn.pending = []) {udsReq : List UInt8}
    (hfits : udsReq.length + 12 ≤ recvBufSize) :
    ∃ next actions,
      conn.onClientData 64 {} (.data (udsMessage udsReq)) = some (some next, actions) ∧
      sends actions = [makeDoipMessage doipDiagnosticAck [0x0E, 0x00, 0x00, 0x01, doipAckOk],
        makeDoipMessage doipDiagnosticMessage
          ([0x00, 0x01, 0x0E, 0x00] ++ ({} : UdsHandler).handle udsReq udsReq.length)] := by
  have hsize : ([0x0E, 0x00, 0x00, 0x01] ++ udsReq).length < 4294967296 := by
    rw [recvBufSize] at hfits
    simp
    omega
  have hnonempty : udsMessage udsReq ≠ [] := List.cons_ne_nil _ _
  obtain ⟨next, actions, hcall, hserved⟩ :=
    conn.onClientData_served (by decide) {} hnonempty (udsMessage_le_capacity hpending hfits)
      (totalFits_host _)
  refine ⟨next, actions, hcall, ?_⟩
  have hdiagnoses : (Frame.ofPayload 0x8001 ([0x0E, 0x00, 0x00, 0x01] ++ udsReq)).diagnoses :=
    Frame.diagnoses_iff.mpr ⟨rfl, by simp [Frame.ofPayload]⟩
  have htype : (0x8001 : UInt16) ≠ doipRoutingActivationReq := by decide
  have hactivates : ¬ (Frame.ofPayload 0x8001 ([0x0E, 0x00, 0x00, 0x01] ++ udsReq)).activates :=
    fun h => htype (Frame.activates_iff.mp h).1
  rw [hserved.actions, hpending, List.nil_append, udsMessage_eq, greedyParse_makeMsg 0x8001 hsize,
    Tester.serveAll, Tester.serve, if_neg hactivates, if_pos ⟨hdiagnoses, hactivated⟩]
  rfl

/-- Both messages for a request are on their way to the client. -/
def answeredSession (conn : DoIpConnection) (udsReq : List UInt8) : ClientSession where
  server := some conn
  toClient := makeDoipMessage doipDiagnosticAck [0x0E, 0x00, 0x00, 0x01, doipAckOk] ++
    makeDoipMessage doipDiagnosticMessage
      ([0x00, 0x01, 0x0E, 0x00] ++ ({} : UdsHandler).handle udsReq udsReq.length)
  waiting := some udsReq

/-- A request that arrives as a whole is answered at once. -/
theorem run_request {conn : DoIpConnection} (hactivated : conn.activated)
    (hpending : conn.pending = []) {udsReq : List UInt8}
    (hfits : udsReq.length + 12 ≤ recvBufSize) :
    ∃ next, clientServer.Run { server := some conn }
      [.sendUds udsReq, .serverRecv (udsMessage udsReq).length]
      (answeredSession next udsReq) [] := by
  obtain ⟨next, actions, hcall, hsends⟩ := sends_udsMessage hactivated hpending hfits
  have hroom := udsMessage_le_capacity hpending hfits
  have hlength : 0 < (udsMessage udsReq).length := List.length_pos_of_ne_nil (List.cons_ne_nil _ _)
  have hanswered : clientServer.step
      { server := some conn, toServer := udsMessage udsReq, waiting := some udsReq }
      (.serverRecv (udsMessage udsReq).length) =
      some ({ server := some next, toClient := (sends actions).flatten, waiting := some udsReq },
        []) := by
    simp [clientServer, List.take_of_length_le hroom, Nat.min_eq_right hroom, hcall]
  have hready : clientServer.Enabled
      { server := some conn, toServer := udsMessage udsReq, waiting := some udsReq }
      (.serverRecv (udsMessage udsReq).length) := ⟨rfl, hlength, le_rfl⟩
  rw [hsends, List.flatten_cons, List.flatten_singleton] at hanswered
  have hsent : clientServer.step { server := some conn } (.sendUds udsReq) =
      some ({ server := some conn, toServer := udsMessage udsReq, waiting := some udsReq },
        []) := rfl
  exact ⟨next, .cons rfl hsent (.cons hready hanswered (.nil _))⟩

/-- The call that waits takes what the next arrival shows. -/
theorem run_clientRecv {session : ClientSession} {udsReq : List UInt8}
    (hwaiting : session.waiting = some udsReq) {count : Nat} (hpos : 0 < count)
    (hbuf : count ≤ clientBufSize) (hready : count ≤ session.toClient.length) :
    ∃ last, clientServer.Run session [.clientRecv count] last [(udsReq,
      udsResponse (session.toClient.take count) (session.toClient.take count).length)] := by
  have henabled : clientServer.Enabled session (.clientRecv count) :=
    ⟨Option.isSome_of_eq_some hwaiting, hbuf, hready, fun hzero => absurd hzero hpos.ne'⟩
  have hstep : clientServer.step session (.clientRecv count) =
      some ({ session with toClient := session.toClient.drop count, waiting := none },
        [(udsReq,
          udsResponse (session.toClient.take count) (session.toClient.take count).length)]) := by
    simp [clientServer, hwaiting]
  exact ⟨_, .cons henabled hstep (.nil _)⟩

/-- The activation message activates an accepted connection, and the client has read the
whole response. -/
theorem exists_activatedSession :
    ∃ conn actions,
      (receiver 64 {}).Run (DoIpConnection.accepted 7) [routingMessage] conn actions ∧
      conn.activated ∧ conn.pending = [] ∧ ActivatedSession { server := some conn } := by
  have hmessage : makeStream [(0x0005, [0x0E, 0x00, 0x00, 0x00, 0x00, 0x00, 0x00])] =
      routingMessage := rfl
  obtain ⟨conn, actions, hrun, hparse, hserved⟩ := @exists_run_makeStream {} 7
    [(0x0005, [0x0E, 0x00, 0x00, 0x00, 0x00, 0x00, 0x00])] (by decide) (by decide)
  rw [hmessage] at hrun hparse hserved
  have hactivated : conn.activated := by
    rw [hserved.tester, Tester.activated_serveAll, hparse]
    rfl
  have hpending : conn.pending = [] := by rw [hserved.pending, hparse]
  refine ⟨conn, actions, hrun, hactivated, hpending, ?_⟩
  exact
    { server := ⟨conn, rfl, hactivated, hpending⟩
      toServer := rfl
      toClient := ⟨17, _, hparse, by decide, rfl⟩
      waiting := rfl }

/-! ## Whole runs -/

/-- On an activated connection, however the two streams are cut into arrivals, client and
server agree exactly as long as no call of `send_uds` has got an arrival of its own. -/
theorem clientAgrees_iff (first last : ClientSession) (events : List ClientEvent)
    (calls : List (List UInt8 × Option (List UInt8))) (hactivated : ActivatedSession first)
    (hrun : clientServer.Run first events last calls) :
    ClientAgrees calls ↔ ∀ count, ClientEvent.clientRecv count ∉ events := by
  constructor
  · intro hagrees count hrecv
    exact not_clientAgrees_of_clientRecv hrun hactivated.lags hrecv hagrees
  · intro hnone call hmem
    rw [calls_eq_nil hrun hnone] at hmem
    exact absurd hmem List.not_mem_nil

/-- The server has answered a request, and the client has not read any of it. -/
theorem clientAgrees_unreadAnswer :
    ∃ first last calls, ActivatedSession first ∧
      clientServer.Run first [.sendUds [0x10, 0x03], .serverRecv 14] last calls ∧
      ClientAgrees calls := by
  obtain ⟨conn, _, _, hactivated, hpending, hsession⟩ := exists_activatedSession
  obtain ⟨next, hrun⟩ := @run_request conn hactivated hpending [0x10, 0x03] (by decide)
  refine ⟨_, _, _, hsession, hrun, (clientAgrees_iff _ _ _ _ hsession hrun).mpr ?_⟩
  intro count hmem
  simp at hmem

/-- The client asks for the extended session and reads the first thirteen bytes of the
answer: it takes the last byte of the acknowledgement for the response. -/
theorem not_clientAgrees_sessionControl :
    ∃ first last calls, ActivatedSession first ∧
      clientServer.Run first [.sendUds [0x10, 0x03], .serverRecv 14, .clientRecv 13] last calls ∧
      calls = [([0x10, 0x03], some [0x00])] ∧ ¬ ClientAgrees calls := by
  obtain ⟨conn, _, _, hactivated, hpending, hsession⟩ := exists_activatedSession
  obtain ⟨next, hrequest⟩ := @run_request conn hactivated hpending [0x10, 0x03] (by decide)
  have hlags := hsession.lags
  obtain ⟨last, hrecv⟩ := @run_clientRecv (answeredSession next [0x10, 0x03]) [0x10, 0x03] rfl 13
    (by decide) (by decide) (Nat.le_of_ble_eq_true rfl)
  have hack : (answeredSession next [0x10, 0x03]).toClient.take 13 =
      makeDoipMessage doipDiagnosticAck [0x0E, 0x00, 0x00, 0x01, doipAckOk] := rfl
  have hshown : udsResponse (makeDoipMessage doipDiagnosticAck [0x0E, 0x00, 0x00, 0x01, doipAckOk])
      13 = some [0x00] := by decide
  rw [hack, length_makeDoipMessage] at hrecv
  have hrun := hrequest.append hrecv
  exact ⟨_, _, _, hsession, hrun, by simpa [doipHeaderSize] using hshown,
    not_clientAgrees_of_clientRecv hrun hlags (List.mem_append_right _ List.mem_cons_self)⟩

end AutomotiveGateway.DoIp
