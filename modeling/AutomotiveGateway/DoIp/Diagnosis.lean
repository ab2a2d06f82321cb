import AutomotiveGateway.DoIp.Client

/-!
# Diagnosis

A tester asks a control unit for sessions, trouble codes and identification data, and the unit
answers or refuses. A tester that reads the messages of the server finds these answers in them, in
order, and nothing else.
-/

namespace AutomotiveGateway.DoIp

open ByteOrder Memory

/-! ## Answers of the unit -/

/-- What the unit says to a request. -/
inductive Answer
  | refused (serviceId nrc : UInt8)
  | session (sessionType : UInt8)
  | reset (resetType : UInt8)
  | troubleCodes (subFunc : UInt8) (dtcs : List Dtc)
  | data (did : UInt16) (content : List UInt8)
deriving DecidableEq, Repr

namespace UdsHandler

/-- The identification data of the unit: its VIN, its serial number and its software version. -/
def identification (did : UInt16) : Option (List UInt8) :=
  if did = 0xF190 then some (textBytes "BBB0000000000001")
  else if did = 0xF18C then some (textBytes "ECU-BBB-2024-001")
  else if did = 0xF187 then some (textBytes "v1.0.0-automotive-gateway")
  else none

/-- The unit answers by the service of a request and by its parameters. What is behind them does
not matter. -/
def answer (uds : UdsHandler) : List UInt8 → Answer
  | [] => .refused 0x00 udsNrcServiceNotSupported
  | serviceId :: parameters =>
      if serviceId ∉ supportedServices then .refused serviceId udsNrcServiceNotSupported
      else
        let outOfRange := .refused serviceId udsNrcRequestOutOfRange
        match parameters with
        | [] => outOfRange
        | first :: more =>
            if serviceId = udsSessionControl then .session first
            else if serviceId = udsEcuReset then .reset first
            else if serviceId = udsReadDtc then .troubleCodes first uds.dtcs
            else
              match more with
              | [] => outOfRange
              | second :: _ =>
                  let did := ofBig16 first second
                  ((identification did).map (Answer.data did)).getD outOfRange

/-- A response has a byte for the number of trouble codes, and three for each of them. -/
structure Readable (uds : UdsHandler) : Prop where
  few : uds.dtcs.length < 256
  narrow : ∀ dtc ∈ uds.dtcs, dtc.code.toNat < 16777216

theorem readable_default : ({} : UdsHandler).Readable where
  few := by decide
  narrow := by decide

end UdsHandler

/-! ## Reading an answer -/

/-- The records of some number of trouble codes. -/
def readDtcs : Nat → List UInt8 → Option (List Dtc)
  | 0, [] => some []
  | count + 1, high :: middle :: low :: status :: records => do
      let dtcs ← readDtcs count records
      return ⟨ofBig32 0 high middle low, status⟩ :: dtcs
  | _, _ => none

/-- A tester tells the answers apart by their first byte. -/
def readAnswer : List UInt8 → Option Answer
  | [0x7F, serviceId, nrc] => some (.refused serviceId nrc)
  | [0x50, sessionType] => some (.session sessionType)
  | [0x51, resetType] => some (.reset resetType)
  | 0x59 :: subFunc :: 0xFF :: 0x09 :: 0x00 :: count :: records =>
      (readDtcs count.toNat records).map (.troubleCodes subFunc)
  | 0x62 :: hi :: lo :: content => some (.data (ofBig16 hi lo) content)
  | _ => none

theorem ofBig32_narrow {code : UInt32} (hnarrow : code.toNat < 16777216) :
    ofBig32 0 ((code >>> 16) &&& 0xFF).toUInt8 ((code >>> 8) &&& 0xFF).toUInt8
      (code &&& 0xFF).toUInt8 = code := by
  have hhigh : (code >>> 24).toUInt8 = 0 := by
    apply UInt8.toNat_inj.mp
    simp [Nat.shiftRight_eq_div_pow]
    omega
  have hbytes := ofBig32_bigBytes32 code
  rw [hhigh] at hbytes
  simpa using hbytes

theorem readDtcs_records {dtcs : List Dtc} (hnarrow : ∀ dtc ∈ dtcs, dtc.code.toNat < 16777216) :
    readDtcs dtcs.length (dtcs.flatMap UdsHandler.dtcRecord) = some dtcs := by
  induction dtcs with
  | nil => rfl
  | cons dtc dtcs ih =>
      obtain ⟨hhead, htail⟩ := List.forall_mem_cons.mp hnarrow
      rw [List.flatMap_cons, UdsHandler.dtcRecord, List.length_cons]
      simp only [List.cons_append, List.nil_append, readDtcs]
      rw [ih htail, ofBig32_narrow hhead]
      rfl

namespace UdsHandler

variable {uds : UdsHandler}

theorem readAnswer_troubleCodes (huds : uds.Readable) (subFunc : UInt8) :
    readAnswer ([0x59, subFunc, 0xFF, 0x09, 0x00, UInt8.ofNat uds.dtcs.length] ++
      uds.dtcs.flatMap dtcRecord) = some (.troubleCodes subFunc uds.dtcs) := by
  have hcount : (UInt8.ofNat uds.dtcs.length).toNat = uds.dtcs.length :=
    UInt8.toNat_ofNat_of_lt' huds.few
  simp only [List.cons_append, List.nil_append, readAnswer]
  rw [hcount, readDtcs_records huds.narrow]
  rfl

theorem handleReadDataById_eq (serviceId first second : UInt8) (rest : List UInt8) :
    handleReadDataById (serviceId :: first :: second :: rest) (rest.length + 3) =
      ((identification (ofBig16 first second)).map ([0x62, first, second] ++ ·)).getD
        (negativeResponse udsReadDataById udsNrcRequestOutOfRange) := by
  have hlong : ¬ rest.length + 3 < 3 := by omega
  have hdid : ofBig16 (byteAt (serviceId :: first :: second :: rest) 1)
      (byteAt (serviceId :: first :: second :: rest) 2) = ofBig16 first second := rfl
  have hhi : ((ofBig16 first second >>> 8) &&& 0xFF).toUInt8 = first := by
    simp [hiByte_ofBig16]
  have hlo : (ofBig16 first second &&& 0xFF).toUInt8 = second := by
    simp [loByte_ofBig16]
  rw [handleReadDataById, if_neg hlong, hdid, identification]
  dsimp only
  rw [hhi, hlo]
  split_ifs <;> rfl

/-- A tester understands every response, and understands it as the answer of the unit. -/
theorem readAnswer_handle (huds : uds.Readable) (request : List UInt8) :
    readAnswer (uds.handle request request.length) = some (uds.answer request) := by
  cases request with
  | nil => rfl
  | cons serviceId parameters =>
      have hlen : ¬ (serviceId :: parameters).length < 1 := by simp
      have hfirst : byteAt (serviceId :: parameters) 0 = serviceId := rfl
      rw [handle, if_neg hlen, hfirst]
      dsimp only
      split_ifs with hsession hdtc hdata hreset
      · subst hsession
        cases parameters <;> rfl
      · subst hdtc
        cases parameters with
        | nil => rfl
        | cons subFunc rest =>
            have hlong : ¬ (udsReadDtc :: subFunc :: rest).length < 2 := by simp
            rw [handleReadDtc, if_neg hlong]
            exact readAnswer_troubleCodes huds subFunc
      · subst hdata
        cases parameters with
        | nil => rfl
        | cons first more =>
            cases more with
            | nil => rfl
            | cons second rest =>
                have hanswer : uds.answer (udsReadDataById :: first :: second :: rest) =
                    ((identification (ofBig16 first second)).map
                      (Answer.data (ofBig16 first second))).getD
                      (.refused udsReadDataById udsNrcRequestOutOfRange) := rfl
                rw [hanswer]
                simp only [List.length_cons]
                rw [handleReadDataById_eq]
                cases identification (ofBig16 first second) <;> rfl
      · subst hreset
        cases parameters <;> rfl
      · have hunsupported : serviceId ∉ supportedServices := by
          simp [supportedServices, hsession, hdtc, hdata, hreset]
        rw [answer, if_pos hunsupported]
        rfl

/-- A response fits a message. -/
theorem length_handle_le (request : List UInt8) :
    (uds.handle request request.length).length ≤ 4 * uds.dtcs.length + 28 := by
  have hrecords : (uds.dtcs.flatMap dtcRecord).length = 4 * uds.dtcs.length := by
    rw [List.length_flatMap, List.map_congr_left fun _ _ => rfl]
    simp [dtcRecord, Nat.mul_comm]
  unfold handle handleSessionControl handleReadDtc handleReadDataById handleEcuReset
  dsimp only
  split_ifs
  all_goals simp only [List.length_append, List.length_cons, List.length_nil, negativeResponse,
    hrecords]
  all_goals first | omega | exact (Nat.le_of_ble_eq_true rfl).trans (Nat.le_add_left _ _)

end UdsHandler

/-! ## The conversation -/

/-- A message of a tester, by its address and that of the unit it means. -/
inductive Question
  | activate (tester : UInt16)
  | alive
  | ask (tester unit : UInt16) (request : List UInt8)

/-- The type and payload of the message. -/
def Question.message : Question → UInt16 × List UInt8
  | .activate tester => (doipRoutingActivationReq, bigBytes16 tester ++ [0, 0, 0, 0, 0])
  | .alive => (doipAliveCheckReq, [])
  | .ask tester unit request =>
      (doipDiagnosticMessage, bigBytes16 tester ++ bigBytes16 unit ++ request)

def Question.frame (question : Question) : Frame :=
  .ofPayload question.message.1 question.message.2

/-- What the unit lets a tester know. -/
inductive Reply
  | activated (tester unit : UInt16)
  | alive (unit : UInt16)
  | acknowledged (tester unit : UInt16)
  | answered (tester unit : UInt16) (answer : Answer)
deriving DecidableEq, Repr

/-- The conversation about some questions: only an activated unit listens to requests. -/
def UdsHandler.conversation (uds : UdsHandler) : Bool → List Question → List Reply
  | _, [] => []
  | _, .activate tester :: questions =>
      .activated tester doipEcuAddress :: uds.conversation true questions
  | activated, .alive :: questions => .alive doipEcuAddress :: uds.conversation activated questions
  | false, .ask _ _ _ :: questions => uds.conversation false questions
  | true, .ask tester unit request :: questions =>
      .acknowledged tester unit :: .answered tester unit (uds.answer request) ::
        uds.conversation true questions

/-- What a tester reads in a message of the unit. The acknowledgement repeats the addresses of the
request, and the response has them the other way round. -/
def readReply (payloadType : UInt16) (payload : List UInt8) : Option Reply :=
  if payloadType = doipRoutingActivationRes then
    match payload with
    | [t₀, t₁, u₀, u₁, 0x10, 0, 0, 0, 0] => some (.activated (ofBig16 t₀ t₁) (ofBig16 u₀ u₁))
    | _ => none
  else if payloadType = doipAliveCheckRes then
    match payload with
    | [u₀, u₁] => some (.alive (ofBig16 u₀ u₁))
    | _ => none
  else if payloadType = doipDiagnosticAck then
    match payload with
    | [t₀, t₁, u₀, u₁, 0x00] => some (.acknowledged (ofBig16 t₀ t₁) (ofBig16 u₀ u₁))
    | _ => none
  else if payloadType = doipDiagnosticMessage then
    match payload with
    | u₀ :: u₁ :: t₀ :: t₁ :: response =>
        (readAnswer response).map (.answered (ofBig16 t₀ t₁) (ofBig16 u₀ u₁))
    | _ => none
  else none

/-- A tester gets these replies from the bytes that it has received. -/
def Understands (received : List UInt8) (replies : List Reply) : Prop :=
  ((greedyParse received).1.map fun frame => readReply frame.header.payloadType frame.payload) =
    replies.map some

section Conversation

variable {uds : UdsHandler}

theorem UdsHandler.conversation_cons (activated : Bool) (question : Question)
    (questions : List Question) :
    uds.conversation activated (question :: questions) =
      uds.conversation activated [question] ++
        uds.conversation (activated || question.frame.activates) questions := by
  cases question with
  | activate tester =>
      have hactivates : (Question.activate tester).frame.activates = true := rfl
      rw [hactivates, Bool.or_true]
      rfl
  | alive =>
      have hactivates : Question.alive.frame.activates = false := rfl
      rw [hactivates, Bool.or_false]
      rfl
  | ask tester unit request =>
      have hactivates : (Question.ask tester unit request).frame.activates = false := rfl
      rw [hactivates, Bool.or_false]
      cases activated <;> rfl

/-- The replies to one question, as a tester reads them. -/
theorem readReply_repliesFor (huds : uds.Readable) (earlier : List Frame) (question : Question) :
    (repliesFor uds earlier question.frame).map (fun reply => readReply reply.1 reply.2) =
      (uds.conversation (earlier.any Frame.activates) [question]).map some := by
  cases question with
  | activate tester =>
      have hactivates : (Question.activate tester).frame.activates = true := rfl
      have htester : (Question.activate tester).frame.testerAddr = tester :=
        ofBig16_bigBytes16 tester
      rw [repliesFor, if_pos hactivates, htester]
      exact congrArg (fun addr => [some (Reply.activated addr doipEcuAddress)])
        (ofBig16_bigBytes16 tester)
  | alive => rfl
  | ask tester unit request =>
      have hactivates : ¬ (Question.ask tester unit request).frame.activates := Bool.false_ne_true
      have hdiagnoses : (Question.ask tester unit request).frame.diagnoses :=
        Frame.diagnoses_iff.mpr ⟨rfl, by
          simp [Question.frame, Question.message, Frame.ofPayload]
          omega⟩
      have halive : ¬ (Question.ask tester unit request).frame.header.payloadType =
          doipAliveCheckReq := by
        change ¬ doipDiagnosticMessage = doipAliveCheckReq
        decide
      rw [repliesFor, if_neg hactivates, if_neg halive]
      cases hactivated : earlier.any Frame.activates with
      | false =>
          rw [if_neg fun h => Bool.false_ne_true h.2]
          rfl
      -- an activated unit acknowledges the request, and then answers it
      | true =>
          rw [if_pos ⟨hdiagnoses, rfl⟩]
          have hread := UdsHandler.readAnswer_handle huds request
          have hack : readReply doipDiagnosticAck
              ((Question.ask tester unit request).frame.source ++
                (Question.ask tester unit request).frame.target ++ [doipAckOk]) =
              some (.acknowledged tester unit) :=
            congrArg₂ (fun tester unit => some (Reply.acknowledged tester unit))
              (ofBig16_bigBytes16 tester) (ofBig16_bigBytes16 unit)
          have hresponse : readReply doipDiagnosticMessage
              ((Question.ask tester unit request).frame.target ++
                (Question.ask tester unit request).frame.source ++
                uds.handle request request.length) =
              some (.answered tester unit (uds.answer request)) := by
            have hbytes : readReply doipDiagnosticMessage
                (bigBytes16 unit ++ bigBytes16 tester ++ uds.handle request request.length) =
              (readAnswer (uds.handle request request.length)).map
                (.answered (ofBig16 (tester >>> 8).toUInt8 tester.toUInt8)
                  (ofBig16 (unit >>> 8).toUInt8 unit.toUInt8)) := rfl
            rw [hread, ofBig16_bigBytes16, ofBig16_bigBytes16] at hbytes
            exact hbytes
          exact congrArg₂ (fun ack response => [ack, response]) hack hresponse

/-- The replies to questions, as a tester reads them, behind other messages. -/
theorem readReply_alongFrames (huds : uds.Readable) (earlier : List Frame)
    (questions : List Question) :
    alongFrames (fun later frame => (repliesFor uds (earlier ++ later) frame).map
        fun reply => readReply reply.1 reply.2) (questions.map Question.frame) =
      (uds.conversation (earlier.any Frame.activates) questions).map some := by
  induction questions generalizing earlier with
  | nil => rfl
  | cons question questions ih =>
      have hlater := ih (earlier ++ [question.frame])
      simp only [List.append_assoc, List.singleton_append, List.any_append, List.any_cons,
        List.any_nil, Bool.or_false] at hlater
      rw [List.map_cons, alongFrames_cons, List.append_nil, readReply_repliesFor huds, hlater,
        UdsHandler.conversation_cons _ question questions, List.map_append]

/-- What the server sends to a tester for its questions is the conversation about them. -/
theorem understands_sends (huds : uds.Readable) {questions : List Question}
    {conn : DoIpConnection} {actions : List Action}
    (hfollows : FollowsSession uds (questions.map Question.frame) conn actions) :
    Understands (sends actions).flatten (uds.conversation false questions) := by
  have hsize : ∀ reply ∈ alongFrames (repliesFor uds) (questions.map Question.frame),
      reply.2.length < 4294967296 := by
    intro reply hmem
    obtain ⟨earlier, frame, hreply⟩ := exists_of_mem_alongFrames hmem
    have hlength := length_reply_le UdsHandler.length_handle_le hreply
    have hfew := huds.few
    omega
  have hparse := greedyParse_makeStream hsize
  have hreplies := readReply_alongFrames huds [] questions
  simp only [List.nil_append, List.any_nil] at hreplies
  rw [makeStream, List.flatMap_def, ← sends_of_followsSession hfollows] at hparse
  rw [Understands, hparse, ← hreplies, ← map_alongFrames, List.map_map]
  rfl

end Conversation

/-- The unit's side of the conversation about some questions. What a tester has received of it is
the beginning of the conversation. -/
structure Converses (uds : UdsHandler) (asked : List Question) (actions : List Action) : Prop where
  whole : Understands (sends actions).flatten (uds.conversation false asked)
  part : ∀ output, output <+: (sends actions).flatten →
    ∃ replies, replies <+: uds.conversation false asked ∧ Understands output replies

/-- The questions that a connection has received as a whole are answered, and nothing else. -/
theorem exists_asked {uds : UdsHandler} (huds : uds.Readable) {fd : Int} {questions : List Question}
    (hsize : ∀ question ∈ questions, question.message.2.length < 4294967296)
    {received : List UInt8} {conn : DoIpConnection} {actions : List Action}
    (hserved : Served uds (DoIpConnection.accepted fd) conn received actions)
    (hreceived : received <+: makeStream (questions.map Question.message)) :
    ∃ asked, asked <+: questions ∧
      (received = makeStream (questions.map Question.message) → asked = questions) ∧
      Converses uds asked actions := by
  have hmessages : ∀ message ∈ questions.map Question.message, message.2.length < 4294967296 :=
    List.forall_mem_map.mpr hsize
  have hparse := greedyParse_makeStream hmessages
  have hframes := greedyParse_isPrefix hreceived
  rw [hparse, List.map_map] at hframes
  obtain ⟨asked, hasked, hparsed⟩ := List.prefix_map_iff.mp hframes
  have hfollows := hserved.followsSession
  rw [hparsed] at hfollows
  have hunderstands := understands_sends huds hfollows
  refine ⟨asked, hasked, fun hwhole => ?_, hunderstands, fun output houtput => ?_⟩
  · rw [hwhole, hparse, List.map_map] at hparsed
    have hlength := congrArg List.length hparsed
    rw [List.length_map, List.length_map] at hlength
    exact hasked.eq_of_length hlength.symm
  -- the frames of a beginning are a beginning of the frames
  · have hread := (greedyParse_isPrefix houtput).map fun frame =>
      readReply frame.header.payloadType frame.payload
    rw [hunderstands] at hread
    obtain ⟨replies, hreplies, hunderstood⟩ := List.prefix_map_iff.mp hread
    exact ⟨replies, hreplies, hunderstood⟩

end AutomotiveGateway.DoIp
