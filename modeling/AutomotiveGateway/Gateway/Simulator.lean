import AutomotiveGateway.Gateway.EndToEnd

/-!
# The simulator

The CAN simulator packs the raw numbers of its signals by hand, at the places that the DBC file
gives them. With the shipped files, each frame of it that reaches the gateway is shown by the
subscriber tool as its numbers, scaled as the file says, under the names of the signals.
-/

namespace AutomotiveGateway

open Can LastWrite Numbering Protocol Someip StdString

/-- A frame that the simulator sends, with the raw numbers that its casts yield. -/
inductive SimulatorFrame
  | engine (rpm : UInt16) (temp throttle : UInt8)
  | speed (vehicle wheelFl wheelFr : UInt16)
  | brake (pressure : UInt8) (braking : Bool)

/-- Pack a little-endian number into data bytes. -/
def packU16 (data : Vector UInt8 8) (byteOffset : Nat) (value : UInt16)
    (hoffset : byteOffset + 1 < 8) : Vector UInt8 8 :=
  (data.set byteOffset (value &&& 0xFF).toUInt8).set (byteOffset + 1)
    ((value >>> 8) &&& 0xFF).toUInt8

namespace SimulatorFrame

def frame : SimulatorFrame → CanFrame
  | engine rpm temp throttle =>
      { canId := 291
        canDlc := 8
        data := ((packU16 (.replicate 8 0) 0 rpm (by decide)).set 2 temp).set 3 throttle }
  | speed vehicle wheelFl wheelFr =>
      { canId := 292
        canDlc := 8
        data := packU16 (packU16 (packU16 (.replicate 8 0) 0 vehicle (by decide)) 2 wheelFl
          (by decide)) 4 wheelFr (by decide) }
  | brake pressure braking =>
      { canId := 293
        canDlc := 8
        data := ((Vector.replicate 8 0).set 0 pressure).set 1 (if braking then 1 else 0) }

end SimulatorFrame

variable {D : Type} (number : StdString → D)

/-- What the tool shows of a signal: its name, its ids and its raw number. -/
structure Reading (D : Type) where
  name : String
  svcId : UInt16
  metId : UInt16
  sig : SignalDef D
  raw : Nat

/-- The signals in a frame of the simulator. -/
def SimulatorFrame.readings : SimulatorFrame → List (Reading D)
  | engine rpm temp throttle =>
      [⟨"EngineRPM", 0x0101, 0x8001, engineRpm number, rpm.toNat⟩,
        ⟨"EngineTemp", 0x0101, 0x8002, engineTemp number, temp.toNat⟩,
        ⟨"ThrottlePos", 0x0101, 0x8003, throttlePos number, throttle.toNat⟩]
  | speed vehicle wheelFl wheelFr =>
      [⟨"VehicleSpeed", 0x0102, 0x8001, vehicleSpeed number, vehicle.toNat⟩,
        ⟨"WheelSpeed_FL", 0x0102, 0x8002, wheelSpeedFl number, wheelFl.toNat⟩,
        ⟨"WheelSpeed_FR", 0x0102, 0x8003, wheelSpeedFr number, wheelFr.toNat⟩]
  | brake pressure braking =>
      [⟨"BrakePressure", 0x0103, 0x8001, brakePressure number, pressure.toNat⟩,
        ⟨"BrakeActive", 0x0103, 0x8002, brakeActive number, braking.toNat⟩]

/-! ## The numbers in a frame -/

/-- The two bytes of a packed number. -/
theorem toNat_packedBytes (value : UInt16) :
    (value &&& 0xFF).toUInt8.toNat = value.toNat % 256 ∧
      ((value >>> 8) &&& 0xFF).toUInt8.toNat = value.toNat / 256 := by
  have hlt := value.toNat_lt
  have hmask : ∀ word : UInt16, (word &&& 0xFF).toNat = word.toNat % 256 := fun word =>
    Nat.and_two_pow_sub_one_eq_mod word.toNat 8
  have hshift : (value >>> 8).toNat = value.toNat / 256 := by
    rw [UInt16.toNat_shiftRight]
    exact Nat.shiftRight_eq_div_pow value.toNat 8
  rw [UInt16.toNat_toUInt8, UInt16.toNat_toUInt8, hmask, hmask, hshift]
  omega

theorem rawField_eq {data : Vector UInt8 8} {bytes : List UInt8} (hbytes : data.toList = bytes)
    (startBit length : UInt8) :
    rawField data startBit length =
      littleWord bytes / 2 ^ startBit.toNat % 2 ^ length.toNat := by
  rw [rawField, hbytes, Nat.shiftRight_eq_div_pow]

/-- Each number is found where the file says that its signal is. -/
theorem rawField_readings (sent : SimulatorFrame) :
    ∀ reading ∈ sent.readings number,
      rawField sent.frame.data reading.sig.startBit reading.sig.length = reading.raw := by
  cases sent with
  | engine rpm temp throttle =>
      obtain ⟨hlow, hhigh⟩ := toNat_packedBytes rpm
      have hrpm := rpm.toNat_lt
      have htemp := temp.toNat_lt
      have hthrottle := throttle.toNat_lt
      have hdata : (SimulatorFrame.engine rpm temp throttle).frame.data.toList =
          [(rpm &&& 0xFF).toUInt8, ((rpm >>> 8) &&& 0xFF).toUInt8, temp, throttle, 0, 0, 0, 0] :=
        rfl
      simp only [SimulatorFrame.readings, List.forall_mem_cons, List.not_mem_nil, false_imp_iff,
        implies_true, and_true, rawField_eq hdata, littleWord, hlow, hhigh, UInt8.toNat_zero,
        engineRpm, engineTemp, throttlePos, vehicleSignal]
      refine ⟨?_, ?_, ?_⟩
      · change _ / 2 ^ 0 % 2 ^ 16 = _
        omega
      · change _ / 2 ^ 16 % 2 ^ 8 = _
        omega
      · change _ / 2 ^ 24 % 2 ^ 8 = _
        omega
  | speed vehicle wheelFl wheelFr =>
      obtain ⟨hlow, hhigh⟩ := toNat_packedBytes vehicle
      obtain ⟨hlowFl, hhighFl⟩ := toNat_packedBytes wheelFl
      obtain ⟨hlowFr, hhighFr⟩ := toNat_packedBytes wheelFr
      have hvehicle := vehicle.toNat_lt
      have hwheelFl := wheelFl.toNat_lt
      have hwheelFr := wheelFr.toNat_lt
      have hdata : (SimulatorFrame.speed vehicle wheelFl wheelFr).frame.data.toList =
          [(vehicle &&& 0xFF).toUInt8, ((vehicle >>> 8) &&& 0xFF).toUInt8,
            (wheelFl &&& 0xFF).toUInt8, ((wheelFl >>> 8) &&& 0xFF).toUInt8,
            (wheelFr &&& 0xFF).toUInt8, ((wheelFr >>> 8) &&& 0xFF).toUInt8, 0, 0] :=
        rfl
      simp only [SimulatorFrame.readings, List.forall_mem_cons, List.not_mem_nil, false_imp_iff,
        implies_true, and_true, rawField_eq hdata, littleWord, hlow, hhigh, hlowFl, hhighFl,
        hlowFr, hhighFr, UInt8.toNat_zero, vehicleSpeed, wheelSpeedFl, wheelSpeedFr,
        vehicleSignal]
      refine ⟨?_, ?_, ?_⟩
      · change _ / 2 ^ 0 % 2 ^ 16 = _
        omega
      · change _ / 2 ^ 16 % 2 ^ 16 = _
        omega
      · change _ / 2 ^ 32 % 2 ^ 16 = _
        omega
  | brake pressure braking =>
      have hpressure := pressure.toNat_lt
      have hflag : (if braking then 1 else 0 : UInt8).toNat = braking.toNat := by
        cases braking <;> rfl
      have hbraking := braking.toNat_lt
      have hdata : (SimulatorFrame.brake pressure braking).frame.data.toList =
          [pressure, if braking then 1 else 0, 0, 0, 0, 0, 0, 0] :=
        rfl
      simp only [SimulatorFrame.readings, List.forall_mem_cons, List.not_mem_nil, false_imp_iff,
        implies_true, and_true, rawField_eq hdata, littleWord, hflag, UInt8.toNat_zero,
        brakePressure, brakeActive, vehicleSignal]
      refine ⟨?_, ?_⟩
      · change _ / 2 ^ 0 % 2 ^ 8 = _
        omega
      · change _ / 2 ^ 8 % 2 ^ 1 = _
        omega

variable [DoubleOps D]

/-- The bits of the number that the tool shows. -/
def Reading.value (reading : Reading D) : UInt32 :=
  DoubleOps.toFloatBits (dbcPhysical reading.sig (Int64.ofNat reading.raw))

/-- The line of a reading, with the number of its notification. -/
def Reading.line (reading : Reading D) (session : UInt16) : ReceivedSignal where
  svcId := reading.svcId
  metId := reading.metId
  sesId := session
  name := reading.name
  value := reading.value

omit [DoubleOps D] in
theorem lastOf_vehicleMessages :
    lastOf MessageDef.canId 291 (vehicleMessages number) = some (engineMessage number) ∧
    lastOf MessageDef.canId 292 (vehicleMessages number) = some (speedMessage number) ∧
    lastOf MessageDef.canId 293 (vehicleMessages number) = some (brakeMessage number) := by
  simp [lastOf, vehicleMessages, engineMessage, speedMessage, brakeMessage]

omit [DoubleOps D] in
/-- The message of a frame has the signals of its readings. -/
theorem exists_message (sent : SimulatorFrame) :
    ∃ msg, lastOf MessageDef.canId (sent.frame.canId &&& canEffMask) (vehicleMessages number) =
        some msg ∧ msg.signals = (sent.readings number).map Reading.sig := by
  obtain ⟨hengine, hspeed, hbrake⟩ := lastOf_vehicleMessages number
  have hmask : (291 : UInt32) &&& canEffMask = 291 ∧ (292 : UInt32) &&& canEffMask = 292 ∧
      (293 : UInt32) &&& canEffMask = 293 := by decide
  cases sent with
  | engine =>
      rw [SimulatorFrame.frame, hmask.1, hengine]
      exact ⟨_, rfl, rfl⟩
  | speed =>
      rw [SimulatorFrame.frame, hmask.2.1, hspeed]
      exact ⟨_, rfl, rfl⟩
  | brake =>
      rw [SimulatorFrame.frame, hmask.2.2, hbrake]
      exact ⟨_, rfl, rfl⟩

omit [DoubleOps D] in
/-- Each of its signals has a route of its own. -/
theorem lastRoute_readings (sent : SimulatorFrame) :
    ∀ reading ∈ sent.readings number, reading.sig.isSigned = false ∧
      lastRoute configuredRoutes reading.sig.name = some (reading.svcId, reading.metId) := by
  cases sent with
  | engine =>
      simp only [SimulatorFrame.readings, List.forall_mem_cons]
      exact ⟨⟨rfl, rfl⟩, ⟨rfl, rfl⟩, ⟨rfl, rfl⟩, List.forall_mem_nil _⟩
  | speed =>
      simp only [SimulatorFrame.readings, List.forall_mem_cons]
      exact ⟨⟨rfl, rfl⟩, ⟨rfl, rfl⟩, ⟨rfl, rfl⟩, List.forall_mem_nil _⟩
  | brake =>
      simp only [SimulatorFrame.readings, List.forall_mem_cons]
      exact ⟨⟨rfl, rfl⟩, ⟨rfl, rfl⟩, List.forall_mem_nil _⟩

/-- The file and the routes make of a frame the announcements of its readings. -/
theorem frameAnnouncements_frame {dbc : DbcParser D}
    (hdbc : ∀ id, dbc.findMessage id = lastOf MessageDef.canId id (vehicleMessages number))
    (sent : SimulatorFrame) :
    frameAnnouncements dbc configuredRoutes sent.frame =
      (sent.readings number).map fun reading => (reading.svcId, reading.metId, reading.value) := by
  obtain ⟨msg, hmsg, hsignals⟩ := exists_message number sent
  unfold frameAnnouncements
  rw [hdbc, hmsg]
  dsimp only
  rw [hsignals, List.filterMap_map, ← List.filterMap_eq_map]
  apply List.filterMap_congr
  intro reading hreading
  obtain ⟨hunsigned, hroute⟩ := lastRoute_readings number sent reading hreading
  have hraw : rawValue reading.sig.isSigned reading.sig.length
      (rawField sent.frame.data reading.sig.startBit reading.sig.length) =
      Int.bmod reading.raw (2 ^ 64) := by
    rw [rawField_readings number sent reading hreading, rawValue, hunsigned]
    exact if_neg fun h => Bool.noConfusion h.1
  have hwrap : Int64.ofInt (Int.bmod reading.raw (2 ^ 64)) = Int64.ofNat reading.raw :=
    Int64.toBitVec.inj (BitVec.eq_of_toInt_eq (by simp [BitVec.toInt_ofNat']))
  rw [Function.comp_apply, hroute, signalValue, hraw, hwrap]
  rfl

/-- The tool knows the name of each reading. -/
theorem announcedLine?_reading (sent : SimulatorFrame) (session : UInt16) :
    ∀ reading ∈ sent.readings number,
      announcedLine? ((reading.svcId, reading.metId, reading.value), session) =
        some (reading.line session) := by
  cases sent with
  | engine =>
      simp only [SimulatorFrame.readings, List.forall_mem_cons]
      exact ⟨rfl, rfl, rfl, List.forall_mem_nil _⟩
  | speed =>
      simp only [SimulatorFrame.readings, List.forall_mem_cons]
      exact ⟨rfl, rfl, rfl, List.forall_mem_nil _⟩
  | brake =>
      simp only [SimulatorFrame.readings, List.forall_mem_cons]
      exact ⟨rfl, rfl, List.forall_mem_nil _⟩

theorem linesOf_frames {dbc : DbcParser D}
    (hdbc : ∀ id, dbc.findMessage id = lastOf MessageDef.canId id (vehicleMessages number))
    (sent : List SimulatorFrame) :
    linesOf dbc configuredRoutes (sent.map SimulatorFrame.frame) =
      (numbered 1 (sent.flatMap (SimulatorFrame.readings number))).map fun step =>
        step.1.line step.2 := by
  rw [linesOf, List.flatMap_map]
  simp only [frameAnnouncements_frame number hdbc]
  rw [← List.map_flatMap, numbered_eq_zipIdx, numbered_eq_zipIdx, List.zipIdx_map,
    List.map_map, List.map_map, List.filterMap_map, ← List.filterMap_eq_map]
  apply List.filterMap_congr
  intro step hstep
  obtain ⟨frame, -, hreading⟩ := List.mem_flatMap.mp (List.fst_mem_of_mem_zipIdx hstep)
  exact announcedLine?_reading number frame _ step.1 hreading

/-- With the shipped files, on the PC and on the BeagleBone, and whatever else the gateway is given
in between: of the frames of the simulator that reach the gateway, in any order, the tool shows
line after line what the simulator packed, scaled as the file says. -/
theorem simulator_shown {longBits : Nat} (hbits : longBits ∈ [32, 64])
    {stod : StdString → Option D} (hreads : ReadsVehicle stod number) (localIp : UInt32)
    (sent : List SimulatorFrame) (events : List GatewayEvent)
    (hframes : events.filterMap GatewayEvent.frame? = sent.map SimulatorFrame.frame) :
    ∃ config dbc first opening,
      ({} : ConfigLoader).load longBits (some gatewayConf) = (true, config) ∧
      DbcParser.parse stod {} (some vehicleDbc) = (true, dbc) ∧
      Gateway.start config.routes localIp = some (first, opening) ∧
      (∃ last actions, (Gateway.machine dbc).Run first events last actions) ∧
      ∀ last actions, (Gateway.machine dbc).Run first events last actions →
        (datagrams (opening ++ actions)).filterMap line? =
          (numbered 1 (sent.flatMap (SimulatorFrame.readings number))).map fun step =>
            step.1.line step.2 := by
  obtain ⟨dbc, hparse, hdbc⟩ := parse_vehicleDbc hreads
  obtain ⟨first, opening, hstart, hpublisher, hschedule, hopening⟩ :=
    @exists_start_delivery D configuredRoutes localIp
  obtain ⟨last, actions, hserved, -⟩ := Gateway.exists_run dbc first events
  refine ⟨_, dbc, first, opening, load_gatewayConf hbits, hparse, hstart, ⟨last, actions, hserved⟩,
    fun last actions hrun => ?_⟩
  rw [datagrams_append, List.filterMap_append, hopening, List.nil_append,
    lines_run hpublisher hschedule hrun, hframes, linesOf_frames number hdbc]

/-- Rational numbers in place of floating-point numbers. The tool shows their whole part. -/
abbrev ratOps : DoubleOps ℚ where
  ofInt64 raw := raw.toInt
  mul := (· * ·)
  add := (· + ·)
  lt a b := decide (a < b)
  toFloatBits a := UInt32.ofInt ⌊a⌋

/-- The values of the real numbers of the file. -/
def vehicleRational (text : StdString) : Option ℚ :=
  List.lookup text (vehicleNumbers.zip
    [1 / 4, 0, 65535 / 4, 3 / 4, -40, 595 / 4, 392157 / 1000000, 100, 1 / 100, 13107 / 20, 1, 255])

/-- An engine at 800 rpm and 80 degrees. -/
theorem simulator_shown_idle :
    ∃ config dbc first opening,
      ({} : ConfigLoader).load 32 (some gatewayConf) = (true, config) ∧
      DbcParser.parse vehicleRational {} (some vehicleDbc) = (true, dbc) ∧
      Gateway.start config.routes 0 = some (first, opening) ∧
      (∃ last actions, (@Gateway.machine ℚ ratOps dbc).Run first
        [.can { n := 16, frame := (SimulatorFrame.engine 3200 160 12).frame } {}] last actions) ∧
      ∀ last actions, (@Gateway.machine ℚ ratOps dbc).Run first
          [.can { n := 16, frame := (SimulatorFrame.engine 3200 160 12).frame } {}] last actions →
        (datagrams (opening ++ actions)).filterMap line? =
          [⟨0x0101, 0x8001, 1, "EngineRPM", 800⟩, ⟨0x0101, 0x8002, 2, "EngineTemp", 80⟩,
            ⟨0x0101, 0x8003, 3, "ThrottlePos", 4⟩] := by
  let := ratOps
  have hreads : ReadsVehicle vehicleRational fun text => (vehicleRational text).getD 0 := by
    unfold ReadsVehicle
    decide +kernel
  have hshown := @simulator_shown ℚ (fun text => (vehicleRational text).getD 0) _ 32 (by decide) _
    hreads 0 [.engine 3200 160 12]
    [.can { n := 16, frame := (SimulatorFrame.engine 3200 160 12).frame } {}] rfl
  have hlines : (numbered 1 ([SimulatorFrame.engine 3200 160 12].flatMap (SimulatorFrame.readings
      fun text => (vehicleRational text).getD 0))).map (fun step => step.1.line step.2) =
      [⟨0x0101, 0x8001, 1, "EngineRPM", 800⟩, ⟨0x0101, 0x8002, 2, "EngineTemp", 80⟩,
        ⟨0x0101, 0x8003, 3, "ThrottlePos", 4⟩] := by
    decide +kernel
  rwa [hlines] at hshown

end AutomotiveGateway
