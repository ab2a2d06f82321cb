import AutomotiveGateway.DoIp.Reassembly

/-!
# The session of one tester

Which messages a tester receives for a frame depends on the frame and on whether
an activation came earlier, and on nothing else. The state kept by the server is
a function of the frames received so far.
-/

namespace AutomotiveGateway.DoIp

/-- The messages a tester receives for a frame, given the frames before it. -/
def messagesFor (uds : UdsHandler) (earlier : List Frame) (frame : Frame) : List (List UInt8) :=
  if frame.activates then [activationResponse frame]
  else if frame.diagnoses ∧ earlier.any Frame.activates then
    [diagnosticAck frame, diagnosticResponse uds frame]
  else if frame.header.payloadType = doipAliveCheckReq then [aliveResponse]
  else []

/-- The requests a frame hands to the UDS handler, given the frames before it. -/
def requestsFor (earlier : List Frame) (frame : Frame) : List (List UInt8) :=
  if frame.diagnoses ∧ earlier.any Frame.activates then [frame.request] else []

/-- What a function of the earlier frames and the present one yields over a whole
sequence of frames. -/
def alongFrames {α : Type} (answer : List Frame → Frame → List α) (frames : List Frame) : List α :=
  (frames.inits.zip frames).flatMap fun step => answer step.1 step.2

@[simp] theorem alongFrames_nil {α : Type} (answer : List Frame → Frame → List α) :
    alongFrames answer [] = [] := rfl

@[simp] theorem alongFrames_cons {α : Type} (answer : List Frame → Frame → List α)
    (frame : Frame) (frames : List Frame) :
    alongFrames answer (frame :: frames) =
      answer [] frame ++ alongFrames (fun earlier => answer (frame :: earlier)) frames := by
  simp [alongFrames, List.zip_map_left, List.flatMap_map]

/-- The address registered by the last activation, if there was one. -/
def registeredAddr (frames : List Frame) : UInt16 :=
  ((frames.filter Frame.activates).getLast?.map Frame.testerAddr).getD 0

/-! ## One frame -/

namespace Tester

/-- Only a routing activation changes what the server knows about the tester. -/
theorem serve_fst (uds : UdsHandler) (tester : Tester) (frame : Frame) :
    (tester.serve uds frame).1 =
      if frame.activates then { tester with testerAddr := frame.testerAddr, activated := true }
      else tester := by
  unfold serve
  split_ifs <;> rfl

theorem activated_serve (uds : UdsHandler) (tester : Tester) (frame : Frame) :
    (tester.serve uds frame).1.activated = (tester.activated || frame.activates) := by
  rw [serve_fst]
  split
  next hactivates => simp [hactivates]
  next hactivates => simp [hactivates]

theorem sends_serve (uds : UdsHandler) {tester : Tester} {earlier : List Frame}
    (hearlier : tester.activated = earlier.any Frame.activates) (frame : Frame) :
    sends (tester.serve uds frame).2 = messagesFor uds earlier frame := by
  unfold serve messagesFor
  rw [hearlier]
  split_ifs <;> rfl

theorem requests_serve (uds : UdsHandler) {tester : Tester} {earlier : List Frame}
    (hearlier : tester.activated = earlier.any Frame.activates) (frame : Frame) :
    requests (tester.serve uds frame).2 = requestsFor earlier frame := by
  unfold serve requestsFor
  rw [hearlier]
  by_cases hactivates : frame.activates
  · -- no frame is both an activation and a diagnostic message
    have hdiagnoses : ¬ (frame.diagnoses ∧ earlier.any Frame.activates) := by
      rintro ⟨hdiagnoses, _⟩
      have htype := (Frame.diagnoses_iff.mp hdiagnoses).1
      rw [(Frame.activates_iff.mp hactivates).1] at htype
      exact absurd htype (by decide)
    rw [if_pos hactivates, if_neg hdiagnoses]
    rfl
  · rw [if_neg hactivates]
    split_ifs <;> rfl

/-! ## All frames -/

theorem activated_serveAll (uds : UdsHandler) (tester : Tester) (frames : List Frame) :
    (tester.serveAll uds frames).1.activated =
      (tester.activated || frames.any Frame.activates) := by
  induction frames generalizing tester with
  | nil => simp [serveAll]
  | cons frame frames ih =>
      rw [serveAll, ih, activated_serve, List.any_cons, Bool.or_assoc]

theorem testerAddr_serveAll (uds : UdsHandler) (tester : Tester) (frames : List Frame) :
    (tester.serveAll uds frames).1.testerAddr =
      ((frames.filter Frame.activates).getLast?.map Frame.testerAddr).getD tester.testerAddr := by
  induction frames generalizing tester with
  | nil => rfl
  | cons frame frames ih =>
      rw [serveAll, ih, serve_fst]
      by_cases hactivates : frame.activates
      · rw [List.filter_cons_of_pos hactivates, List.getLast?_cons, if_pos hactivates]
        cases (frames.filter Frame.activates).getLast? <;> rfl
      · rw [List.filter_cons_of_neg hactivates, if_neg hactivates]

/-- What can be observed of the frames one by one, knowing only whether an activation
came earlier, can be observed of all of them. -/
theorem filterMap_serveAll {α : Type} (uds : UdsHandler) {observe : Action → Option α}
    {answer : List Frame → Frame → List α}
    (hcall : ∀ fd frame, observe (.handleDoipMessage fd frame) = none)
    (hserve : ∀ (tester : Tester) (earlier : List Frame) (frame : Frame),
      tester.activated = earlier.any Frame.activates →
      (tester.serve uds frame).2.filterMap observe = answer earlier frame)
    (tester : Tester) (earlier : List Frame)
    (hearlier : tester.activated = earlier.any Frame.activates) (frames : List Frame) :
    (tester.serveAll uds frames).2.filterMap observe =
      alongFrames (fun before => answer (earlier ++ before)) frames := by
  induction frames generalizing tester earlier with
  | nil => rfl
  | cons frame frames ih =>
      have hserved : (tester.serve uds frame).1.activated =
          (earlier ++ [frame]).any Frame.activates := by
        rw [activated_serve, hearlier, List.any_append, List.any_cons, List.any_nil, Bool.or_false]
      have hrest := ih (tester.serve uds frame).1 (earlier ++ [frame]) hserved
      simp only [List.append_assoc, List.singleton_append] at hrest
      rw [serveAll, List.cons_append, List.filterMap_cons_none (hcall _ _), List.filterMap_append,
        hserve tester earlier frame hearlier, hrest, alongFrames_cons, List.append_nil]

theorem sends_serveAll (uds : UdsHandler) {tester : Tester} (hfresh : ¬ tester.activated)
    (frames : List Frame) :
    sends (tester.serveAll uds frames).2 = alongFrames (messagesFor uds) frames :=
  filterMap_serveAll uds (fun _ _ => rfl)
    (fun _ _ frame hearlier => sends_serve uds hearlier frame) tester []
    (by simpa using hfresh) frames

theorem requests_serveAll (uds : UdsHandler) {tester : Tester} (hfresh : ¬ tester.activated)
    (frames : List Frame) :
    requests (tester.serveAll uds frames).2 = alongFrames requestsFor frames :=
  filterMap_serveAll uds (fun _ _ => rfl)
    (fun _ _ frame hearlier => requests_serve uds hearlier frame) tester []
    (by simpa using hfresh) frames

end Tester

/-! ## Whole runs -/

/-- A connection and the actions taken for it follow from the frames received. -/
structure FollowsSession (uds : UdsHandler) (frames : List Frame) (conn : DoIpConnection)
    (actions : List Action) : Prop where
  sends : sends actions = alongFrames (messagesFor uds) frames
  requests : requests actions = alongFrames requestsFor frames
  activated : conn.activated = frames.any Frame.activates
  testerAddr : conn.testerAddr = registeredAddr frames

theorem Served.followsSession {uds : UdsHandler} {fd : Int} {conn : DoIpConnection}
    {stream : List UInt8} {actions : List Action}
    (hserved : Served uds (DoIpConnection.accepted fd) conn stream actions) :
    FollowsSession uds (greedyParse stream).1 conn actions := by
  have hfresh : ¬ (DoIpConnection.accepted fd).activated := Bool.false_ne_true
  exact
    { sends := by rw [hserved.actions, Tester.sends_serveAll uds hfresh]
      requests := by rw [hserved.actions, Tester.requests_serveAll uds hfresh]
      activated := by rw [hserved.tester, Tester.activated_serveAll]; rfl
      testerAddr := by rw [hserved.tester, Tester.testerAddr_serveAll]; rfl }

/-- Every run of a connection follows the session of the frames it received: always
with a 64-bit `size_t`, and with a narrower one as long as it holds every message
size that is announced. A frame that is not an activation leaves the whole
connection as it was, and exactly the services without a handler of their own are
answered as not supported. -/
theorem run_followsSession (uds : UdsHandler) (fd : Int) :
    (∀ chunks conn actions,
      (receiver 64 uds).Run (DoIpConnection.accepted fd) chunks conn actions →
      FollowsSession uds (greedyParse chunks.flatten).1 conn actions) ∧
    (∀ w chunks conn actions, recvBufSize < 2 ^ w →
      (∀ n, TotalFits w (greedyParse (chunks.take n).flatten).2) →
      (receiver w uds).Run (DoIpConnection.accepted fd) chunks conn actions →
      FollowsSession uds (greedyParse chunks.flatten).1 conn actions) ∧
    (∀ (conn : DoIpConnection) (header : DoIpHeader) (payload : List UInt8) (len : Nat),
      len ≤ payload.length → ¬ Frame.activates ⟨header, payload.take len⟩ →
      (conn.handleDoipMessage uds header payload len).1 = conn) ∧
    (∀ serviceId rest,
      uds.handle (serviceId :: rest) (serviceId :: rest).length = [0x7F, serviceId, 0x11] ↔
        serviceId ∉ [0x10, 0x11, 0x19, 0x22]) := by
  refine ⟨?_, ?_, ?_, uds.handle_eq_notSupported_iff⟩
  · intro chunks conn actions hrun
    exact (accepted_run_served_host hrun).followsSession
  · intro w chunks conn actions hw hleft hrun
    exact (accepted_run_served hw uds hrun hleft).followsSession
  · intro conn header payload len hlen hactivates
    rw [conn.handleDoipMessage_eq uds header hlen, Tester.serve_fst, if_neg hactivates]

/-- A diagnostic message in front of the activation is not answered. -/
theorem run_followsSession_earlyDiagnostic :
    ∃ conn actions, (receiver 64 {}).Run (DoIpConnection.accepted 7)
        [[0x02, 0xFD, 0x80, 0x01, 0, 0, 0, 4, 0x0E, 0, 0, 1,
          0x02, 0xFD, 0x00, 0x05, 0, 0, 0, 2, 0x0E, 0]] conn actions ∧
      sends actions = [makeDoipMessage doipRoutingActivationRes
        [0x0E, 0, 0, 1, doipRoutingOk, 0, 0, 0, 0]] ∧
      requests actions = [] ∧ conn.activated ∧ conn.testerAddr = 0x0E00 := by
  obtain ⟨conn, actions, hrun, hparse, _⟩ := @exists_run_makeStream {} 7
    [(doipDiagnosticMessage, [0x0E, 0, 0, 1]), (doipRoutingActivationReq, [0x0E, 0])]
    (by decide) (by decide)
  have hfollows := (run_followsSession {} 7).1 _ _ _ hrun
  rw [List.flatten_singleton, hparse] at hfollows
  exact ⟨conn, actions, hrun, hfollows.sends, hfollows.requests, hfollows.activated,
    hfollows.testerAddr⟩

end AutomotiveGateway.DoIp
