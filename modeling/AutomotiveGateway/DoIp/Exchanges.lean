import AutomotiveGateway.DoIp.Session

/-!
# Whom an activated connection serves

The actions of a connection are cut into exchanges, one for each frame it handled. A
diagnostic message is answered once any tester has activated the connection; the
address registered by the activation is never compared with its source.
-/

namespace AutomotiveGateway.DoIp

open ByteOrder Memory

/-- The frames handled, each with the actions its handling caused. -/
def exchanges : List Action → List (Frame × List Action)
  | [] => []
  | .handleDoipMessage _ frame :: actions =>
      (frame, actions.takeWhile fun action => action.dispatched?.isNone) :: exchanges actions
  | _ :: actions => exchanges actions

/-- A positive acknowledgement of a diagnostic message. -/
def IsPositiveAck (data : List UInt8) : Prop :=
  (DoIpHeader.ofBytes data).payloadType = doipDiagnosticAck ∧ byteAt data 12 = doipAckOk

/-- A diagnostic message to the tester. -/
def IsDiagnosticResponse (data : List UInt8) : Prop :=
  (DoIpHeader.ofBytes data).payloadType = doipDiagnosticMessage

/-- After an activation, a diagnostic message from another address than the one that was
activated last is neither handed to the UDS handler nor answered positively. -/
def ServesOnlyItsTester (actions : List Action) : Prop :=
  ∀ before frame caused after, exchanges actions = before ++ (frame, caused) :: after →
    (before.map Prod.fst).any Frame.activates →
    frame.header.payloadType = doipDiagnosticMessage →
    frame.source ≠ bigBytes16 (registeredAddr (before.map Prod.fst)) →
    requests caused = [] ∧ ∀ data ∈ sends caused, ¬ IsPositiveAck data ∧ ¬ IsDiagnosticResponse data

/-- Behind an activation, every diagnostic message that is long enough to be processed
comes from the address that was activated last. -/
def OnlyRegisteredSources (frames : List Frame) : Prop :=
  ∀ before frame after, frames = before ++ frame :: after → before.any Frame.activates →
    frame.diagnoses → frame.source = bigBytes16 (registeredAddr before)

/-! ## The exchanges of a served stream -/

/-- Serve frames one after the other, each with the actions it causes. -/
def Tester.serveEach (uds : UdsHandler) : Tester → List Frame → List (Frame × List Action)
  | _, [] => []
  | tester, frame :: frames =>
      (frame, (tester.serve uds frame).2) :: (tester.serve uds frame).1.serveEach uds frames

theorem Tester.serveEach_append (uds : UdsHandler) (tester : Tester) (frames more : List Frame) :
    tester.serveEach uds (frames ++ more) =
      tester.serveEach uds frames ++ (tester.serveAll uds frames).1.serveEach uds more := by
  induction frames generalizing tester with
  | nil => rfl
  | cons frame frames ih =>
      rw [List.cons_append, serveEach, ih]
      rfl

theorem Tester.map_fst_serveEach (uds : UdsHandler) (tester : Tester) (frames : List Frame) :
    (tester.serveEach uds frames).map Prod.fst = frames := by
  induction frames generalizing tester with
  | nil => rfl
  | cons frame frames ih => rw [serveEach, List.map_cons, ih]

/-- Actions in front of the first frame belong to no exchange. -/
theorem exchanges_append_of_dispatches {actions : List Action} (hnone : dispatches actions = [])
    (more : List Action) : exchanges (actions ++ more) = exchanges more := by
  induction actions with
  | nil => rfl
  | cons action actions ih =>
      cases action with
      | handleDoipMessage fd frame => exact absurd hnone (List.cons_ne_nil _ _)
      | udsHandle fd request => exact ih hnone
      | send fd data => exact ih hnone

theorem exchanges_serveAll (uds : UdsHandler) (tester : Tester) (frames : List Frame) :
    exchanges (tester.serveAll uds frames).2 = tester.serveEach uds frames := by
  induction frames generalizing tester with
  | nil => rfl
  | cons frame frames ih =>
      have hserve := tester.dispatches_serve uds frame
      have hown : ∀ action ∈ (tester.serve uds frame).2, action.dispatched?.isNone := by
        intro action hmem
        rw [List.filterMap_eq_nil_iff.mp hserve action hmem]
        rfl
      -- the actions for the next frame start with the call that handles it
      have hnext : (((tester.serve uds frame).1.serveAll uds frames).2.takeWhile
          fun action => action.dispatched?.isNone) = [] := by
        cases frames <;> rfl
      rw [Tester.serveAll, List.cons_append, exchanges, Tester.serveEach,
        exchanges_append_of_dispatches hserve, ih, List.takeWhile_append_of_pos hown, hnext,
        List.append_nil]

/-- An exchange is what serving its frame causes, behind the frames of the earlier ones. -/
theorem exchange_of_split {uds : UdsHandler} {tester : Tester} {frames : List Frame}
    {before after : List (Frame × List Action)} {frame : Frame} {caused : List Action}
    (hsplit : tester.serveEach uds frames = before ++ (frame, caused) :: after) :
    frames = before.map Prod.fst ++ frame :: after.map Prod.fst ∧
      caused = ((tester.serveAll uds (before.map Prod.fst)).1.serve uds frame).2 := by
  have hframes := congrArg (List.map Prod.fst) hsplit
  rw [Tester.map_fst_serveEach, List.map_append, List.map_cons] at hframes
  refine ⟨hframes, ?_⟩
  rw [hframes, Tester.serveEach_append, Tester.serveEach] at hsplit
  have hlength : ((tester.serveEach uds (before.map Prod.fst))).length = before.length := by
    rw [← List.length_map Prod.fst, Tester.map_fst_serveEach, List.length_map]
  have hexchange := (List.cons.inj (List.append_inj hsplit hlength).2).1
  exact (congrArg Prod.snd hexchange).symm

/-! ## Foreign diagnostic messages -/

/-- A frame of a diagnostic message that is too short is dropped. -/
theorem Tester.serve_of_short (uds : UdsHandler) (tester : Tester) {frame : Frame}
    (htype : frame.header.payloadType = doipDiagnosticMessage) (hshort : ¬ frame.diagnoses) :
    (tester.serve uds frame).2 = [] := by
  have hactivates : ¬ frame.activates := by
    rw [Frame.activates_iff, htype]
    exact fun h => absurd h.1 (by decide)
  have halive : ¬ frame.header.payloadType = doipAliveCheckReq := by
    rw [htype]
    decide
  rw [serve, if_neg hactivates, if_neg (fun h => hshort h.1), if_neg halive]

theorem source_of_servesOnlyItsTester {uds : UdsHandler} {tester : Tester}
    (hfresh : ¬ tester.activated) {before after : List Frame} {frame : Frame}
    (hserves : ServesOnlyItsTester (tester.serveAll uds (before ++ frame :: after)).2)
    (hactivated : before.any Frame.activates) (hdiagnoses : frame.diagnoses) :
    frame.source = bigBytes16 (registeredAddr before) := by
  by_contra hforeign
  have hearlier : (tester.serveAll uds before).1.activated = before.any Frame.activates := by
    rw [Tester.activated_serveAll, Bool.eq_false_iff.mpr hfresh, Bool.false_or]
  have hexchanges : exchanges (tester.serveAll uds (before ++ frame :: after)).2 =
      tester.serveEach uds before ++
        (frame, ((tester.serveAll uds before).1.serve uds frame).2) ::
          ((tester.serveAll uds before).1.serve uds frame).1.serveEach uds after := by
    rw [exchanges_serveAll, Tester.serveEach_append, Tester.serveEach]
  have hnone := (hserves _ _ _ _ hexchanges (by rwa [Tester.map_fst_serveEach])
    (Frame.diagnoses_iff.mp hdiagnoses).1 (by rwa [Tester.map_fst_serveEach])).1
  rw [Tester.requests_serve uds hearlier, requestsFor, if_pos ⟨hdiagnoses, hactivated⟩] at hnone
  exact absurd hnone (List.cons_ne_nil _ _)

/-- In every run, an activated connection serves only the tester that activated it last
exactly when no other tester sends it a diagnostic message. -/
theorem servesOnlyItsTester_iff (uds : UdsHandler) (fd : Int) (chunks : List (List UInt8))
    (conn : DoIpConnection) (actions : List Action)
    (hrun : (receiver 64 uds).Run (DoIpConnection.accepted fd) chunks conn actions) :
    ServesOnlyItsTester actions ↔ OnlyRegisteredSources (greedyParse chunks.flatten).1 := by
  have hactions := (accepted_run_served_host hrun).actions
  have hfresh : ¬ (DoIpConnection.accepted fd).activated := Bool.false_ne_true
  rw [hactions]
  constructor
  · rintro hserves before frame after hframes hactivated hdiagnoses
    rw [hframes] at hserves
    exact source_of_servesOnlyItsTester hfresh hserves hactivated hdiagnoses
  · intro hregistered before frame caused after hsplit hactivated htype hforeign
    rw [exchanges_serveAll] at hsplit
    obtain ⟨hframes, rfl⟩ := exchange_of_split hsplit
    by_cases hdiagnoses : frame.diagnoses
    · exact absurd (hregistered _ _ _ hframes hactivated hdiagnoses) hforeign
    · rw [Tester.serve_of_short uds _ htype hdiagnoses]
      exact ⟨rfl, fun data hmem => absurd hmem List.not_mem_nil⟩

/-- The tester 0x0E00 activates the connection and then sends a request itself. -/
theorem servesOnlyItsTester_ownRequest :
    ∃ conn actions, (receiver 64 {}).Run (DoIpConnection.accepted 7)
        [makeStream [(doipRoutingActivationReq, [0x0E, 0x00]),
          (doipDiagnosticMessage, [0x0E, 0x00, 0x00, 0x01, 0x10, 0x03])]] conn actions ∧
      ServesOnlyItsTester actions := by
  obtain ⟨conn, actions, hrun, hparse, _⟩ := @exists_run_makeStream {} 7
    [(doipRoutingActivationReq, [0x0E, 0x00]),
      (doipDiagnosticMessage, [0x0E, 0x00, 0x00, 0x01, 0x10, 0x03])] (by decide) (by decide)
  refine ⟨conn, actions, hrun, (servesOnlyItsTester_iff _ _ _ _ _ hrun).mpr ?_⟩
  rw [List.flatten_singleton, hparse]
  intro before frame after hframes hactivated _
  match before, hframes with
  | [], _ => exact absurd hactivated Bool.false_ne_true
  | [activation], hframes =>
      simp only [List.map_cons, List.map_nil, List.singleton_append, List.cons.injEq] at hframes
      obtain ⟨rfl, rfl, _⟩ := hframes
      decide
  | _ :: _ :: rest, hframes => simp at hframes

/-- The tester 0x0E00 activates the connection, the tester 0x0F00 uses it. -/
theorem not_servesOnlyItsTester_foreignRequest :
    ∃ conn actions, (receiver 64 {}).Run (DoIpConnection.accepted 7)
        [makeStream [(doipRoutingActivationReq, [0x0E, 0x00]),
          (doipDiagnosticMessage, [0x0F, 0x00, 0x00, 0x01, 0x10, 0x03])]] conn actions ∧
      ¬ ServesOnlyItsTester actions := by
  obtain ⟨conn, actions, hrun, hparse, hserved⟩ := @exists_run_makeStream {} 7
    [(doipRoutingActivationReq, [0x0E, 0x00]),
      (doipDiagnosticMessage, [0x0F, 0x00, 0x00, 0x01, 0x10, 0x03])] (by decide) (by decide)
  refine ⟨conn, actions, hrun, fun hserves => ?_⟩
  rw [hserved.actions, hparse] at hserves
  have hsource := @source_of_servesOnlyItsTester {} (DoIpConnection.accepted 7).toTester
    Bool.false_ne_true [.ofPayload doipRoutingActivationReq [0x0E, 0x00]] []
    (.ofPayload doipDiagnosticMessage [0x0F, 0x00, 0x00, 0x01, 0x10, 0x03]) hserves
    (by decide) (by decide)
  exact absurd hsource (by decide)

end AutomotiveGateway.DoIp
