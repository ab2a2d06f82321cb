import AutomotiveGateway.DoIp.Replies

/-!
# Addresses in the replies

A diagnostic message is acknowledged under its own pair of addresses and answered under
the swapped one. A tester that correlates both with its request gets along with that only
if the two addresses are the same.
-/

namespace AutomotiveGateway.DoIp

/-- The diagnostic messages that are processed, each behind an activation. -/
def diagnosticRequests (frames : List Frame) : List Frame :=
  alongFrames
    (fun earlier frame => if frame.diagnoses ∧ earlier.any Frame.activates then [frame] else [])
    frames

/-- A message the server sends for a diagnostic message. -/
def Frame.isDiagnosticReply (frame : Frame) : Bool :=
  frame.header.payloadType = doipDiagnosticAck ∨ frame.header.payloadType = doipDiagnosticMessage

/-- A reply flows back: its source is the request's target, its target the request's source. -/
def Frame.FlowsBack (reply request : Frame) : Prop :=
  reply.source = request.target ∧ reply.target = request.source

/-- Each request is followed by an acknowledgement and a response that both flow back. -/
def Correlates : List Frame → List Frame → Prop
  | [], replies => replies = []
  | request :: requests, ack :: response :: replies =>
      (ack.header.payloadType = doipDiagnosticAck ∧ ack.FlowsBack request) ∧
        (response.header.payloadType = doipDiagnosticMessage ∧ response.FlowsBack request) ∧
        Correlates requests replies
  | _ :: _, _ => False

/-- The decoded output correlates with the requests that were processed. -/
def RepliesCorrelate (frames : List Frame) (output : List UInt8) : Prop :=
  (greedyParse output).2 = [] ∧
    Correlates (diagnosticRequests frames) ((greedyParse output).1.filter Frame.isDiagnosticReply)

/-- The frames of the acknowledgement and of the response. -/
def Frame.ackFrame (frame : Frame) : Frame :=
  .ofPayload doipDiagnosticAck (frame.source ++ frame.target ++ [doipAckOk])

def Frame.responseFrame (frame : Frame) : Frame :=
  .ofPayload doipDiagnosticMessage
    (frame.target ++ frame.source ++ ({} : UdsHandler).handle frame.request frame.request.length)

/-- Of the replies to a frame, those to a diagnostic message. -/
theorem filter_repliesFor (earlier : List Frame) (frame : Frame) :
    ((repliesFor {} earlier frame).map fun reply => Frame.ofPayload reply.1 reply.2).filter
        Frame.isDiagnosticReply =
      (if frame.diagnoses ∧ earlier.any Frame.activates then [frame] else []).flatMap
        fun request => [request.ackFrame, request.responseFrame] := by
  have hdiagnostic : frame.activates → ¬ frame.diagnoses := by
    intro hactivates hdiagnoses
    have htype := (Frame.diagnoses_iff.mp hdiagnoses).1
    rw [(Frame.activates_iff.mp hactivates).1] at htype
    exact absurd htype (by decide)
  unfold repliesFor
  by_cases hactivates : frame.activates
  · rw [if_pos hactivates, if_neg (fun h => hdiagnostic hactivates h.1)]
    rfl
  · rw [if_neg hactivates]
    split_ifs <;> rfl

/-- The diagnostic part of what a tester decodes. -/
theorem filter_greedyParse_sends {frames : List Frame} {conn : DoIpConnection}
    {actions : List Action} (hfollows : FollowsSession {} frames conn actions) :
    (greedyParse (sends actions).flatten).1.filter Frame.isDiagnosticReply =
      (diagnosticRequests frames).flatMap
        fun request => [request.ackFrame, request.responseFrame] := by
  have hreplies := funext fun earlier => funext (filter_repliesFor earlier)
  rw [greedyParse_sends hfollows, map_alongFrames, filter_alongFrames, hreplies,
    diagnosticRequests, flatMap_alongFrames]

/-- The acknowledgement names the request's addresses in the request's order. -/
theorem Frame.ackFrame_flowsBack_iff {frame : Frame} (hdiagnoses : frame.diagnoses) :
    frame.ackFrame.FlowsBack frame ↔ frame.source = frame.target := by
  obtain ⟨s₀, s₁, t₀, t₁, rest, hpayload⟩ :=
    Memory.exists_cons₄ (Frame.diagnoses_iff.mp hdiagnoses).2
  simp only [FlowsBack, ackFrame, ofPayload, source, target, hpayload]
  constructor
  · exact fun h => h.1
  · exact fun h => ⟨h, h.symm⟩

theorem Frame.responseFrame_flowsBack {frame : Frame} (hdiagnoses : frame.diagnoses) :
    frame.responseFrame.FlowsBack frame := by
  obtain ⟨s₀, s₁, t₀, t₁, rest, hpayload⟩ :=
    Memory.exists_cons₄ (Frame.diagnoses_iff.mp hdiagnoses).2
  simp only [FlowsBack, responseFrame, ofPayload, source, target, hpayload]
  exact ⟨rfl, rfl⟩

theorem correlates_iff {requests : List Frame}
    (hdiagnoses : ∀ request ∈ requests, request.diagnoses) :
    Correlates requests
        (requests.flatMap fun request => [request.ackFrame, request.responseFrame]) ↔
      ∀ request ∈ requests, request.source = request.target := by
  induction requests with
  | nil => simp [Correlates]
  | cons request requests ih =>
      have hrequest := hdiagnoses request List.mem_cons_self
      have hrest := ih fun other hmem => hdiagnoses other (List.mem_cons_of_mem _ hmem)
      rw [List.flatMap_cons, List.forall_mem_cons, ← hrest,
        ← Frame.ackFrame_flowsBack_iff hrequest]
      constructor
      · rintro ⟨⟨_, hack⟩, _, hcorrelates⟩
        exact ⟨hack, hcorrelates⟩
      · rintro ⟨hack, hcorrelates⟩
        exact ⟨⟨rfl, hack⟩, ⟨rfl, Frame.responseFrame_flowsBack hrequest⟩, hcorrelates⟩

theorem diagnoses_of_mem_diagnosticRequests {frames : List Frame} :
    ∀ request ∈ diagnosticRequests frames, request.diagnoses := by
  intro request hmem
  obtain ⟨earlier, frame, hrequest⟩ := exists_of_mem_alongFrames hmem
  split_ifs at hrequest with hdiagnoses
  · rw [List.mem_singleton.mp hrequest]
    exact hdiagnoses.1
  · exact absurd hrequest List.not_mem_nil

theorem repliesCorrelate_of_follows {frames : List Frame} {conn : DoIpConnection}
    {actions : List Action} (hfollows : FollowsSession {} frames conn actions) :
    RepliesCorrelate frames (sends actions).flatten ↔
      ∀ request ∈ diagnosticRequests frames, request.source = request.target := by
  rw [RepliesCorrelate, filter_greedyParse_sends hfollows, greedyParse_sends hfollows,
    correlates_iff diagnoses_of_mem_diagnosticRequests]
  exact ⟨fun h => h.2, fun h => ⟨rfl, h⟩⟩

/-- In every run, the replies to the diagnostic messages correlate with them exactly when
each of these has the same source and target address. -/
theorem repliesCorrelate_iff (fd : Int) (chunks : List (List UInt8)) (conn : DoIpConnection)
    (actions : List Action)
    (hrun : (receiver 64 {}).Run (DoIpConnection.accepted fd) chunks conn actions) :
    RepliesCorrelate (greedyParse chunks.flatten).1 (sends actions).flatten ↔
      ∀ request ∈ diagnosticRequests (greedyParse chunks.flatten).1,
        request.source = request.target :=
  repliesCorrelate_of_follows (accepted_run_served_host hrun).followsSession

/-- A request from the tester 0x0E00 to itself is correlated. -/
theorem repliesCorrelate_ownAddress :
    ∃ conn actions, (receiver 64 {}).Run (DoIpConnection.accepted 7)
        [makeStream [(doipRoutingActivationReq, [0x0E, 0x00]),
          (doipDiagnosticMessage, [0x0E, 0x00, 0x0E, 0x00, 0x10, 0x03])]] conn actions ∧
      RepliesCorrelate [.ofPayload doipRoutingActivationReq [0x0E, 0x00],
        .ofPayload doipDiagnosticMessage [0x0E, 0x00, 0x0E, 0x00, 0x10, 0x03]]
        (sends actions).flatten := by
  obtain ⟨conn, actions, hrun, hparse, _⟩ := @exists_run_makeStream {} 7
    [(doipRoutingActivationReq, [0x0E, 0x00]),
      (doipDiagnosticMessage, [0x0E, 0x00, 0x0E, 0x00, 0x10, 0x03])] (by decide) (by decide)
  have hiff := repliesCorrelate_iff _ _ _ _ hrun
  rw [List.flatten_singleton, hparse] at hiff
  refine ⟨conn, actions, hrun, hiff.mpr ?_⟩
  have hrequests : diagnosticRequests [.ofPayload doipRoutingActivationReq [0x0E, 0x00],
      .ofPayload doipDiagnosticMessage [0x0E, 0x00, 0x0E, 0x00, 0x10, 0x03]] =
        [.ofPayload doipDiagnosticMessage [0x0E, 0x00, 0x0E, 0x00, 0x10, 0x03]] := by decide
  intro request hmem
  have hrequest := List.mem_singleton.mp ((congrArg (request ∈ ·) hrequests).mp hmem)
  rw [hrequest]
  decide

/-- The acknowledgement of a request from the tester 0x0E00 to the ECU 0x0001 does not
flow back. -/
theorem not_repliesCorrelate_demo :
    ∃ conn actions, (receiver 64 {}).Run (DoIpConnection.accepted 7)
        [makeStream [(doipRoutingActivationReq, [0x0E, 0x00]),
          (doipDiagnosticMessage, [0x0E, 0x00, 0x00, 0x01, 0x10, 0x03])]] conn actions ∧
      ¬ RepliesCorrelate [.ofPayload doipRoutingActivationReq [0x0E, 0x00],
        .ofPayload doipDiagnosticMessage [0x0E, 0x00, 0x00, 0x01, 0x10, 0x03]]
        (sends actions).flatten := by
  obtain ⟨conn, actions, hrun, hparse, hserved⟩ := @exists_run_makeStream {} 7
    [(doipRoutingActivationReq, [0x0E, 0x00]),
      (doipDiagnosticMessage, [0x0E, 0x00, 0x00, 0x01, 0x10, 0x03])] (by decide) (by decide)
  have hfollows := hserved.followsSession
  rw [hparse] at hfollows
  refine ⟨conn, actions, hrun, fun hcorrelate => ?_⟩
  have hsame := (repliesCorrelate_of_follows hfollows).mp hcorrelate
    (.ofPayload doipDiagnosticMessage [0x0E, 0x00, 0x00, 0x01, 0x10, 0x03]) (by decide)
  exact absurd hsame (by decide)

end AutomotiveGateway.DoIp
