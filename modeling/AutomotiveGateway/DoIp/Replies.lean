import AutomotiveGateway.DoIp.Session

/-!
# The output stream of a connection

What the server sends to a tester is a stream of complete messages. A tester that
parses it gets the replies to its frames back, in order, and nothing in between.
-/

namespace AutomotiveGateway.DoIp

open ByteOrder

/-- The types and payloads of the messages a tester receives for a frame, given the
frames before it. -/
def repliesFor (uds : UdsHandler) (earlier : List Frame) (frame : Frame) :
    List (UInt16 × List UInt8) :=
  if frame.activates then
    [(doipRoutingActivationRes,
      bigBytes16 frame.testerAddr ++ bigBytes16 doipEcuAddress ++ [doipRoutingOk, 0, 0, 0, 0])]
  else if frame.diagnoses ∧ earlier.any Frame.activates then
    [(doipDiagnosticAck, frame.source ++ frame.target ++ [doipAckOk]),
      (doipDiagnosticMessage,
        frame.target ++ frame.source ++ uds.handle frame.request frame.request.length)]
  else if frame.header.payloadType = doipAliveCheckReq then
    [(doipAliveCheckRes, bigBytes16 doipEcuAddress)]
  else []

theorem messagesFor_eq (uds : UdsHandler) (earlier : List Frame) (frame : Frame) :
    messagesFor uds earlier frame =
      (repliesFor uds earlier frame).map fun reply => makeDoipMessage reply.1 reply.2 := by
  unfold messagesFor repliesFor
  split_ifs <;> rfl

theorem map_alongFrames {α β : Type} (f : α → β) (answer : List Frame → Frame → List α)
    (frames : List Frame) :
    (alongFrames answer frames).map f =
      alongFrames (fun earlier frame => (answer earlier frame).map f) frames := by
  rw [alongFrames, List.map_flatMap]
  rfl

theorem flatMap_alongFrames {α β : Type} (f : α → List β) (answer : List Frame → Frame → List α)
    (frames : List Frame) :
    (alongFrames answer frames).flatMap f =
      alongFrames (fun earlier frame => (answer earlier frame).flatMap f) frames := by
  rw [alongFrames, List.flatMap_assoc]
  rfl

theorem filter_alongFrames {α : Type} (p : α → Bool) (answer : List Frame → Frame → List α)
    (frames : List Frame) :
    (alongFrames answer frames).filter p =
      alongFrames (fun earlier frame => (answer earlier frame).filter p) frames := by
  rw [alongFrames, List.filter_flatMap]
  rfl

theorem exists_of_mem_alongFrames {α : Type} {answer : List Frame → Frame → List α}
    {frames : List Frame} {item : α} (hmem : item ∈ alongFrames answer frames) :
    ∃ earlier frame, item ∈ answer earlier frame := by
  obtain ⟨step, _, hitem⟩ := List.mem_flatMap.mp hmem
  exact ⟨step.1, step.2, hitem⟩

/-- A reply is at most a response and two addresses, or one of the short messages. -/
theorem length_reply_le {uds : UdsHandler} {bound : Nat}
    (hbound : ∀ request, (uds.handle request request.length).length ≤ bound)
    {earlier : List Frame} {frame : Frame} {reply : UInt16 × List UInt8}
    (hmem : reply ∈ repliesFor uds earlier frame) : reply.2.length ≤ bound + 9 := by
  have hsource : frame.source.length ≤ 2 := List.length_take_le 2 frame.payload
  have htarget : frame.target.length ≤ 2 := List.length_take_le 2 (frame.payload.drop 2)
  have hresponse := hbound frame.request
  unfold repliesFor at hmem
  split_ifs at hmem
  · rw [List.mem_singleton.mp hmem]
    exact Nat.le_add_left 9 bound
  · rcases List.mem_cons.mp hmem with rfl | hmem
    · simp only [List.length_append, List.length_singleton]
      omega
    · rw [List.mem_singleton.mp hmem]
      simp only [List.length_append]
      omega
  · rw [List.mem_singleton.mp hmem]
    exact (Nat.le_of_ble_eq_true rfl).trans (Nat.le_add_left 9 bound)
  · exact absurd hmem List.not_mem_nil

/-- No reply is longer than a message can announce. -/
theorem length_repliesFor {earlier : List Frame} {frame : Frame} {reply : UInt16 × List UInt8}
    (hmem : reply ∈ repliesFor {} earlier frame) : reply.2.length < 4294967296 := by
  have hshort : ∀ request, (({} : UdsHandler).handle request request.length).length ≤ 63 := by
    intro request
    obtain ⟨_, _, _, _, hresponse⟩ := UdsHandler.isResponse_handle request request.length
    omega
  have hlength := length_reply_le hshort hmem
  omega

/-- The messages sent are those built for the replies. -/
theorem sends_of_followsSession {uds : UdsHandler} {frames : List Frame} {conn : DoIpConnection}
    {actions : List Action} (hfollows : FollowsSession uds frames conn actions) :
    sends actions = (alongFrames (repliesFor uds) frames).map
      fun reply => makeDoipMessage reply.1 reply.2 := by
  have hmessages : messagesFor uds = fun earlier frame =>
      (repliesFor uds earlier frame).map fun reply => makeDoipMessage reply.1 reply.2 := by
    funext earlier frame
    exact messagesFor_eq uds earlier frame
  rw [hfollows.sends, hmessages, map_alongFrames]

/-- A tester parses exactly the replies out of what is sent to it. -/
theorem greedyParse_sends {frames : List Frame} {conn : DoIpConnection}
    {actions : List Action} (hfollows : FollowsSession {} frames conn actions) :
    greedyParse (sends actions).flatten =
      ((alongFrames (repliesFor {}) frames).map fun reply => .ofPayload reply.1 reply.2, []) := by
  rw [sends_of_followsSession hfollows, ← List.flatMap_def]
  apply greedyParse_makeStream
  intro reply hmem
  obtain ⟨earlier, frame, hreply⟩ := exists_of_mem_alongFrames hmem
  exact length_repliesFor hreply

end AutomotiveGateway.DoIp
