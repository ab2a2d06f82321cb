import AutomotiveGateway.Foundation.ByteOrder
import AutomotiveGateway.Foundation.Memory

/-!
# UDS requests

A handler receives a pointer to the request and its length. It answers every
request at once and keeps no state between requests.
-/

namespace AutomotiveGateway.DoIp

open ByteOrder Memory

def udsSessionControl : UInt8 := 0x10
def udsReadDtc : UInt8 := 0x19
def udsReadDataById : UInt8 := 0x22
def udsEcuReset : UInt8 := 0x11
def udsNegativeResponse : UInt8 := 0x7F

def udsNrcServiceNotSupported : UInt8 := 0x11
def udsNrcRequestOutOfRange : UInt8 := 0x31

/-- A simulated diagnostic trouble code. -/
structure Dtc where
  code : UInt32
  status : UInt8
deriving DecidableEq, Repr

structure UdsHandler where
  dtcs : List Dtc := [⟨0x012345, 0x08⟩, ⟨0x023456, 0x09⟩, ⟨0x034567, 0x00⟩]
deriving DecidableEq, Repr

namespace UdsHandler

def negativeResponse (serviceId nrc : UInt8) : List UInt8 :=
  [udsNegativeResponse, serviceId, nrc]

/-- The characters of a text constant as the bytes of a `std::string`. -/
def textBytes (text : String) : List UInt8 := text.toList.map fun c => UInt8.ofNat c.toNat

def handleSessionControl (req : List UInt8) (len : Nat) : List UInt8 :=
  if len < 2 then negativeResponse udsSessionControl udsNrcRequestOutOfRange
  else [0x50, byteAt req 1]

def dtcRecord (dtc : Dtc) : List UInt8 :=
  [((dtc.code >>> 16) &&& 0xFF).toUInt8, ((dtc.code >>> 8) &&& 0xFF).toUInt8,
    (dtc.code &&& 0xFF).toUInt8, dtc.status]

def handleReadDtc (uds : UdsHandler) (req : List UInt8) (len : Nat) : List UInt8 :=
  if len < 2 then negativeResponse udsReadDtc udsNrcRequestOutOfRange
  else
    [0x59, byteAt req 1, 0xFF, 0x09, 0x00, UInt8.ofNat uds.dtcs.length] ++
      uds.dtcs.flatMap dtcRecord

def handleReadDataById (req : List UInt8) (len : Nat) : List UInt8 :=
  if len < 3 then negativeResponse udsReadDataById udsNrcRequestOutOfRange
  else
    let did := ofBig16 (byteAt req 1) (byteAt req 2)
    let response : List UInt8 := [0x62, ((did >>> 8) &&& 0xFF).toUInt8, (did &&& 0xFF).toUInt8]
    if did = 0xF190 then response ++ textBytes "BBB0000000000001"
    else if did = 0xF18C then response ++ textBytes "ECU-BBB-2024-001"
    else if did = 0xF187 then response ++ textBytes "v1.0.0-automotive-gateway"
    else negativeResponse udsReadDataById udsNrcRequestOutOfRange

def handleEcuReset (req : List UInt8) (len : Nat) : List UInt8 :=
  if len < 2 then negativeResponse udsEcuReset udsNrcRequestOutOfRange
  else [0x51, byteAt req 1]

/-- Process a request and return the response bytes. -/
def handle (uds : UdsHandler) (req : List UInt8) (len : Nat) : List UInt8 :=
  if len < 1 then negativeResponse 0x00 udsNrcServiceNotSupported
  else
    let serviceId := byteAt req 0
    if serviceId = udsSessionControl then handleSessionControl req len
    else if serviceId = udsReadDtc then uds.handleReadDtc req len
    else if serviceId = udsReadDataById then handleReadDataById req len
    else if serviceId = udsEcuReset then handleEcuReset req len
    else negativeResponse serviceId udsNrcServiceNotSupported

/-! ## A handler reads only its request -/

theorem handleSessionControl_take (req : List UInt8) (len : Nat) :
    handleSessionControl (req.take len) len = handleSessionControl req len := by
  unfold handleSessionControl
  split
  · rfl
  next hlen => rw [byteAt_take (by omega)]

theorem handleReadDtc_take (uds : UdsHandler) (req : List UInt8) (len : Nat) :
    uds.handleReadDtc (req.take len) len = uds.handleReadDtc req len := by
  unfold handleReadDtc
  split
  · rfl
  next hlen => rw [byteAt_take (by omega)]

theorem handleReadDataById_take (req : List UInt8) (len : Nat) :
    handleReadDataById (req.take len) len = handleReadDataById req len := by
  unfold handleReadDataById
  split
  · rfl
  next hlen => rw [byteAt_take (by omega), byteAt_take (by omega)]

theorem handleEcuReset_take (req : List UInt8) (len : Nat) :
    handleEcuReset (req.take len) len = handleEcuReset req len := by
  unfold handleEcuReset
  split
  · rfl
  next hlen => rw [byteAt_take (by omega)]

/-- The response depends only on the bytes of the request. -/
theorem handle_take (uds : UdsHandler) (req : List UInt8) (len : Nat) :
    uds.handle (req.take len) len = uds.handle req len := by
  unfold handle
  split
  · rfl
  next hlen =>
    rw [byteAt_take (by omega), handleSessionControl_take, handleReadDtc_take,
      handleReadDataById_take, handleEcuReset_take]

/-! ## Unsupported services -/

/-- The services with a handler of their own. -/
def supportedServices : List UInt8 :=
  [udsSessionControl, udsEcuReset, udsReadDtc, udsReadDataById]

/-- A service with a handler of its own never answers that it is unsupported. -/
theorem supported_ne_notSupported (uds : UdsHandler) (req : List UInt8) (len : Nat)
    (serviceId : UInt8) :
    handleSessionControl req len ≠ negativeResponse serviceId udsNrcServiceNotSupported ∧
    uds.handleReadDtc req len ≠ negativeResponse serviceId udsNrcServiceNotSupported ∧
    handleReadDataById req len ≠ negativeResponse serviceId udsNrcServiceNotSupported ∧
    handleEcuReset req len ≠ negativeResponse serviceId udsNrcServiceNotSupported := by
  refine ⟨?_, ?_, ?_, ?_⟩
  · unfold handleSessionControl
    split <;> simp [negativeResponse, udsNrcRequestOutOfRange, udsNrcServiceNotSupported]
  · unfold handleReadDtc
    split <;> simp [negativeResponse, udsNrcRequestOutOfRange, udsNrcServiceNotSupported]
  · unfold handleReadDataById
    dsimp only
    split_ifs <;> simp [negativeResponse, udsNegativeResponse, udsNrcRequestOutOfRange,
      udsNrcServiceNotSupported]
  · unfold handleEcuReset
    split <;> simp [negativeResponse, udsNrcRequestOutOfRange, udsNrcServiceNotSupported]

/-- The service-not-supported answer is given to exactly the services without a
handler. -/
theorem handle_eq_notSupported_iff (uds : UdsHandler) (serviceId : UInt8) (rest : List UInt8) :
    uds.handle (serviceId :: rest) (serviceId :: rest).length =
        negativeResponse serviceId udsNrcServiceNotSupported ↔
      serviceId ∉ supportedServices := by
  obtain ⟨hsession, hdtc, hdata, hreset⟩ := uds.supported_ne_notSupported (serviceId :: rest)
    (serviceId :: rest).length serviceId
  have hfirst : byteAt (serviceId :: rest) 0 = serviceId := rfl
  have hlen : ¬ (serviceId :: rest).length < 1 := by simp
  simp only [handle, if_neg hlen, hfirst, supportedServices, List.mem_cons, List.not_mem_nil,
    or_false, not_or]
  split_ifs with h₁ h₂ h₃ h₄
  · exact ⟨fun h => absurd h hsession, fun h => absurd h₁ h.1⟩
  · exact ⟨fun h => absurd h hdtc, fun h => absurd h₂ h.2.2.1⟩
  · exact ⟨fun h => absurd h hdata, fun h => absurd h₃ h.2.2.2⟩
  · exact ⟨fun h => absurd h hreset, fun h => absurd h₄ h.2.1⟩
  · exact ⟨fun _ => ⟨h₁, h₄, h₂, h₃⟩, fun _ => rfl⟩

/-! ## The form of a response -/

/-- The first bytes of a response: a positive one of a supported service, or negative. -/
def responseCodes : List UInt8 := [0x50, 0x51, 0x59, 0x62, udsNegativeResponse]

/-- A response starts with one of its codes and is short. -/
def IsResponse (bytes : List UInt8) : Prop :=
  ∃ code rest, bytes = code :: rest ∧ code ∈ responseCodes ∧ bytes.length < 64

theorem isResponse_negative (serviceId nrc : UInt8) : IsResponse (negativeResponse serviceId nrc) :=
  ⟨_, _, rfl, by decide, Nat.le_of_ble_eq_true rfl⟩

/-- The built-in trouble codes fit a short response, as all texts do. -/
theorem isResponse_handle (req : List UInt8) (len : Nat) :
    IsResponse (({} : UdsHandler).handle req len) := by
  unfold handle handleSessionControl handleReadDtc handleReadDataById handleEcuReset
  dsimp only
  split_ifs
  all_goals first
    | exact isResponse_negative _ _
    | exact ⟨_, _, rfl, by decide, Nat.le_of_ble_eq_true rfl⟩

end UdsHandler

end AutomotiveGateway.DoIp
