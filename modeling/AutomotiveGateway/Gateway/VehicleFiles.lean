import AutomotiveGateway.Can.DbcRoundTrip
import AutomotiveGateway.Gateway.ConfigLoader

/-!
# The files of the vehicle

`vehicle.dbc` and `gateway.conf` as they are shipped, and what the parser and the loader make of
them.
-/

namespace AutomotiveGateway

open Can LastWrite Someip StdString

/-! ## `gateway.conf` -/

def gatewayConf : StdString :=
  ["# Automotive Gateway Configuration", "# Format: signal_name service_id method_id", "",
    "# Engine Service (0x0101)", "EngineRPM     0x0101 0x8001", "EngineTemp    0x0101 0x8002",
    "ThrottlePos   0x0101 0x8003", "", "# Vehicle Speed Service (0x0102)",
    "VehicleSpeed  0x0102 0x8001", "WheelSpeed_FL 0x0102 0x8002", "WheelSpeed_FR 0x0102 0x8003",
    "", "# Brake Service (0x0103)", "BrakePressure 0x0103 0x8001",
    "BrakeActive   0x0103 0x8002"].flatMap fun line => line.toList ++ ['\n']

/-- The routes of the configuration file. -/
def configuredRoutes : List SignalRoute :=
  [⟨"EngineRPM".toList, 0x0101, 0x8001⟩, ⟨"EngineTemp".toList, 0x0101, 0x8002⟩,
    ⟨"ThrottlePos".toList, 0x0101, 0x8003⟩, ⟨"VehicleSpeed".toList, 0x0102, 0x8001⟩,
    ⟨"WheelSpeed_FL".toList, 0x0102, 0x8002⟩, ⟨"WheelSpeed_FR".toList, 0x0102, 0x8003⟩,
    ⟨"BrakePressure".toList, 0x0103, 0x8001⟩, ⟨"BrakeActive".toList, 0x0103, 0x8002⟩]

/-- The file is the same on the PC and on the BeagleBone, whose `unsigned long` is shorter. -/
theorem load_gatewayConf {longBits : Nat} (hbits : longBits ∈ [32, 64]) :
    ({} : ConfigLoader).load longBits (some gatewayConf) =
      (true, { routes := configuredRoutes }) := by
  simp only [List.mem_cons, List.not_mem_nil, or_false] at hbits
  rcases hbits with rfl | rfl
  · decide +kernel
  · decide +kernel

/-! ## `vehicle.dbc` -/

def vehicleDbc : StdString :=
  ["VERSION \"\"", "", "NS_ :", "", "BS_:", "", "BU_:", "",
    "BO_ 291 EngineData: 8 Vector__XXX",
    " SG_ EngineRPM : 0|16@1+ (0.25,0) [0|16383.75] \"rpm\" Vector__XXX",
    " SG_ EngineTemp : 16|8@1+ (0.75,-40) [-40|148.75] \"degC\" Vector__XXX",
    " SG_ ThrottlePos : 24|8@1+ (0.392157,0) [0|100] \"%\" Vector__XXX", "",
    "BO_ 292 VehicleSpeed: 8 Vector__XXX",
    " SG_ VehicleSpeed : 0|16@1+ (0.01,0) [0|655.35] \"km/h\" Vector__XXX",
    " SG_ WheelSpeed_FL : 16|16@1+ (0.01,0) [0|655.35] \"km/h\" Vector__XXX",
    " SG_ WheelSpeed_FR : 32|16@1+ (0.01,0) [0|655.35] \"km/h\" Vector__XXX", "",
    "BO_ 293 BrakeData: 8 Vector__XXX",
    " SG_ BrakePressure : 0|8@1+ (1,0) [0|255] \"bar\" Vector__XXX",
    " SG_ BrakeActive : 8|1@1+ (1,0) [0|1] \"\" Vector__XXX"].flatMap
      fun line => line.toList ++ ['\n']

/-- The real numbers of the file. -/
def vehicleNumbers : List StdString :=
  ["0.25", "0", "16383.75", "0.75", "-40", "148.75", "0.392157", "100", "0.01", "655.35", "1",
    "255"].map String.toList

variable {D : Type}

/-- `std::stod` reads the real numbers of the file. -/
def ReadsVehicle (stod : StdString → Option D) (number : StdString → D) : Prop :=
  ∀ text ∈ vehicleNumbers, stod text = some (number text)

section Definitions

variable (number : StdString → D)

/-- A signal of the file; all of them are unsigned and in Intel byte order. -/
def vehicleSignal (name : String) (startBit length : UInt8)
    (scale offset minVal maxVal unit : String) : SignalDef D where
  name := name.toList
  startBit
  length
  isSigned := false
  isLittleEndian := true
  scale := number scale.toList
  offset := number offset.toList
  minVal := number minVal.toList
  maxVal := number maxVal.toList
  unit := unit.toList

def engineRpm : SignalDef D := vehicleSignal number "EngineRPM" 0 16 "0.25" "0" "0" "16383.75" "rpm"

def engineTemp : SignalDef D :=
  vehicleSignal number "EngineTemp" 16 8 "0.75" "-40" "-40" "148.75" "degC"

def throttlePos : SignalDef D :=
  vehicleSignal number "ThrottlePos" 24 8 "0.392157" "0" "0" "100" "%"

def vehicleSpeed : SignalDef D :=
  vehicleSignal number "VehicleSpeed" 0 16 "0.01" "0" "0" "655.35" "km/h"

def wheelSpeedFl : SignalDef D :=
  vehicleSignal number "WheelSpeed_FL" 16 16 "0.01" "0" "0" "655.35" "km/h"

def wheelSpeedFr : SignalDef D :=
  vehicleSignal number "WheelSpeed_FR" 32 16 "0.01" "0" "0" "655.35" "km/h"

def brakePressure : SignalDef D :=
  vehicleSignal number "BrakePressure" 0 8 "1" "0" "0" "255" "bar"

def brakeActive : SignalDef D := vehicleSignal number "BrakeActive" 8 1 "1" "0" "0" "1" ""

def engineMessage : MessageDef D where
  canId := 291
  name := "EngineData".toList
  length := 8
  signals := [engineRpm number, engineTemp number, throttlePos number]

def speedMessage : MessageDef D where
  canId := 292
  name := "VehicleSpeed".toList
  length := 8
  signals := [vehicleSpeed number, wheelSpeedFl number, wheelSpeedFr number]

def brakeMessage : MessageDef D where
  canId := 293
  name := "BrakeData".toList
  length := 8
  signals := [brakePressure number, brakeActive number]

def vehicleMessages : List (MessageDef D) :=
  [engineMessage number, speedMessage number, brakeMessage number]

end Definitions

/-! ### The lines of the file -/

namespace VehicleFile

def word (text : String)
    (hword : text.toList ≠ [] ∧ (text.toList.all fun c => ! isSpace c) = true) : Word where
  text := text.toList
  isWord := ⟨hword.1, noSpace_of_all hword.2⟩

def numeral (bound : Nat) (text : String)
    (hnumeral : text.toList ≠ [] ∧ text.toList.all Char.isDigit = true ∧
      digitsValue text.toList < bound) : Numeral bound where
  digits := text.toList
  isNumeral := ⟨hnumeral.1, List.all_eq_true.mp hnumeral.2.1⟩
  lt_bound := hnumeral.2.2

theorem plain_vehicleNumbers :
    ∀ text ∈ vehicleNumbers, ∀ c ∈ text, isSpace c = false ∧ c ≠ ',' ∧ c ≠ '|' := by
  have hall : (vehicleNumbers.all fun text =>
      text.all fun c => decide (isSpace c = false ∧ c ≠ ',' ∧ c ≠ '|')) = true := by decide
  intro text htext c hc
  have htextAll := List.all_eq_true.mp hall text htext
  exact of_decide_eq_true (List.all_eq_true.mp htextAll c hc)

variable {stod : StdString → Option D} {number : StdString → D}
  (hreads : ReadsVehicle stod number)

def real (text : String) (hmem : text.toList ∈ vehicleNumbers) : RealText stod where
  text := text.toList
  value := number text.toList
  reads := hreads text.toList hmem
  plain := plain_vehicleNumbers text.toList hmem

theorem not_hasTag {tag text : StdString} (hlength : tag.length = 3)
    (hhead : tag.headD ' ' ∉ [' ', '\t']) (hstart : startsWith tag (trim text) = false) :
    ¬ HasTag tag text := by
  rintro ⟨indent, rest, rfl⟩
  obtain ⟨c, tail, rfl⟩ : ∃ c tail, tag = c :: tail :=
    List.exists_cons_of_length_eq_add_one hlength
  have hc : c ∉ [' ', '\t'] := hhead
  have htrim := trim_indent indent hc (tail ++ ' ' :: rest)
  rw [← List.cons_append] at htrim
  rw [htrim, startsWith_tag hlength] at hstart
  exact Bool.noConfusion hstart

theorem exists_notBlank {text : StdString}
    (hany : (text.any fun c => c ∉ [' ', '\t', '\r']) = true) :
    ∃ c ∈ text, c ∉ [' ', '\t', '\r'] := by
  obtain ⟨c, hc, hblank⟩ := List.any_eq_true.mp hany
  exact ⟨c, hc, of_decide_eq_true hblank⟩

/-- A line that starts with no tag. -/
def noise (text : String)
    (hnoise : '\n' ∉ text.toList ∧ (text.toList.any fun c => c ∉ [' ', '\t', '\r']) = true ∧
      startsWith messageTag (trim text.toList) = false ∧
      startsWith signalTag (trim text.toList) = false) : Filler :=
  .noise
    { text := text.toList
      noNewline := hnoise.1
      notBlank := exists_notBlank hnoise.2.1
      notMessage := not_hasTag rfl (by decide) hnoise.2.2.1
      notSignal := not_hasTag rfl (by decide) hnoise.2.2.2
      crlf := false }

def blank : Filler := .blank ⟨[], List.forall_mem_nil _⟩

def header (id name : String)
    (hid : id.toList ≠ [] ∧ id.toList.all Char.isDigit = true ∧
      digitsValue id.toList < 2 ^ 32)
    (hname : name.toList ≠ [] ∧ (name.toList.all fun c => ! isSpace c) = true) : MessageLine where
  indent := ⟨[], List.forall_mem_nil _⟩
  header :=
    { id := numeral (2 ^ 32) id hid
      name := word name hname
      len := numeral 256 "8" (by decide)
      sender := word "Vector__XXX" (by decide) }
  crlf := false

/-- A signal line from its texts. -/
def signal (name start length scale offset min max unit : String)
    (hname : name.toList ≠ [] ∧ (name.toList.all fun c => ! isSpace c) = true)
    (hstart : start.toList ≠ [] ∧ start.toList.all Char.isDigit = true ∧
      digitsValue start.toList < 256)
    (hlength : length.toList ≠ [] ∧ length.toList.all Char.isDigit = true ∧
      digitsValue length.toList < 256)
    (hreal : ∀ text ∈ [scale, offset, min, max], text.toList ∈ vehicleNumbers)
    (hunit : (unit.toList.all fun c => ! isSpace c) = true) : BlockLine stod :=
  .signal
    { indent := ⟨[' '], List.forall_mem_singleton.mpr (by decide)⟩
      signal :=
        { name := word name hname
          start := numeral 256 start hstart
          length := numeral 256 length hlength
          isLittleEndian := true
          isSigned := false
          scale := real hreads scale (hreal _ (by simp))
          offset := real hreads offset (hreal _ (by simp))
          min := real hreads min (hreal _ (by simp))
          max := real hreads max (hreal _ (by simp))
          unit := unit.toList
          unit_noSpace := noSpace_of_all hunit
          receiver := "Vector__XXX".toList
          receiver_noSpace := noSpace_of_all (by decide) }
      crlf := false }

/-- The file, line by line. -/
def file : DbcFile stod where
  preamble :=
    [noise "VERSION \"\"" (by decide), blank, noise "NS_ :" (by decide), blank,
      noise "BS_:" (by decide), blank, noise "BU_:" (by decide), blank]
  blocks :=
    [{ header := header "291" "EngineData" (by decide) (by decide)
       body :=
        [signal hreads "EngineRPM" "0" "16" "0.25" "0" "0" "16383.75" "rpm" (by decide)
            (by decide) (by decide) (by decide) (by decide),
          signal hreads "EngineTemp" "16" "8" "0.75" "-40" "-40" "148.75" "degC" (by decide)
            (by decide) (by decide) (by decide) (by decide),
          signal hreads "ThrottlePos" "24" "8" "0.392157" "0" "0" "100" "%" (by decide)
            (by decide) (by decide) (by decide) (by decide)]
       trailer := [blank] },
      { header := header "292" "VehicleSpeed" (by decide) (by decide)
        body :=
          [signal hreads "VehicleSpeed" "0" "16" "0.01" "0" "0" "655.35" "km/h" (by decide)
              (by decide) (by decide) (by decide) (by decide),
            signal hreads "WheelSpeed_FL" "16" "16" "0.01" "0" "0" "655.35" "km/h" (by decide)
              (by decide) (by decide) (by decide) (by decide),
            signal hreads "WheelSpeed_FR" "32" "16" "0.01" "0" "0" "655.35" "km/h" (by decide)
              (by decide) (by decide) (by decide) (by decide)]
        trailer := [blank] },
      { header := header "293" "BrakeData" (by decide) (by decide)
        body :=
          [signal hreads "BrakePressure" "0" "8" "1" "0" "0" "255" "bar" (by decide)
              (by decide) (by decide) (by decide) (by decide),
            signal hreads "BrakeActive" "8" "1" "1" "0" "0" "1" "" (by decide)
              (by decide) (by decide) (by decide) (by decide)]
        trailer := [] }]

theorem text_file : (file hreads).text = vehicleDbc := by
  -- The text is the same for every reader of numbers.
  have htext : (file hreads).text =
      (@file Unit (fun _ => some ()) (fun _ => ()) fun _ _ => rfl).text := rfl
  rw [htext]
  decide +kernel

theorem messages_file : (file hreads).messages = vehicleMessages number := rfl

end VehicleFile

/-- The parser finds the three messages, and nothing under any other id. -/
theorem parse_vehicleDbc {stod : StdString → Option D} {number : StdString → D}
    (hreads : ReadsVehicle stod number) :
    ∃ dbc, DbcParser.parse stod {} (some vehicleDbc) = (true, dbc) ∧
      ∀ id, dbc.findMessage id = lastOf MessageDef.canId id (vehicleMessages number) := by
  refine ⟨_, rfl, fun id => ?_⟩
  have hempty : (∅ : Finmap fun _ : UInt32 => MessageDef D).lookup id = none :=
    Finmap.lookup_empty id
  rw [DbcParser.findMessage, ← VehicleFile.text_file hreads, lines_text, DbcFile.lines,
    parseLines_append, messages_blocks, messages_fillers, lookup_writeAll, hempty, Option.or_none,
    Option.map_id, ← VehicleFile.messages_file hreads]
  rfl

end AutomotiveGateway
