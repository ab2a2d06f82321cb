import AutomotiveGateway.Can.Definitions

/-!
# The DBC parser

The parser goes through a file line by line. Real numbers are read by `std::stod`,
which is a parameter: it yields a value or throws.
-/

namespace AutomotiveGateway.Can

open StdString

variable {D : Type}

/-! ## One line -/

/-- `BO_` -/
def messageTag : StdString := ['B', 'O', '_']

/-- `SG_` -/
def signalTag : StdString := ['S', 'G', '_']

/-- Remove the last character if it is `c`. -/
def popBack (c : Char) (s : StdString) : StdString :=
  if s.getLast? = some c then s.dropLast else s

/-- Remove the first character if it is `c`. -/
def popFront (c : Char) (s : StdString) : StdString :=
  if s.head? = some c then substr s 1 s.length else s

/-- Parse one `BO_` line. -/
def parseMessageLine (line : StdString) : Option (MessageDef D) := do
  let (tag, ss) ← extractWord line
  let (id, ss) ← extractUInt32 ss
  let (name, ss) ← extractWord ss
  let (length, ss) ← extractInt ss
  let _ ← extractWord ss
  if tag ≠ messageTag then none
  else return { canId := id, name := popBack ':' name, length := UInt8.ofInt length }

/-- Remove the quotes around a unit. -/
def unquote (unit : StdString) : StdString :=
  if unit.length ≥ 2 ∧ unit.head? = some '"' ∧ unit.getLast? = some '"' then
    substr unit 1 (unit.length - 2)
  else unit

/-- The two numbers of `(scale,offset)` or `[min|max]`. -/
def parsePair (stod : StdString → Option D) (opening separator closing : Char)
    (info : StdString) : Option (D × D) := do
  let s := popBack closing (popFront opening info)
  let pos ← find s separator
  let first ← stod (substr s 0 pos)
  let second ← stod (substr s (pos + 1) s.length)
  return (first, second)

/-- The words of an `SG_` line. -/
structure SignalTokens where
  tag : StdString
  name : StdString
  colon : StdString
  bitInfo : StdString
  scaleInfo : StdString
  rangeInfo : StdString
  unit : StdString

/-- `ss >> tag >> name >> colon >> bit_info >> scale_info >> range_info >> unit` -/
def extractTokens (ss : StdString) : Option SignalTokens := do
  let (tag, ss) ← extractWord ss
  let (name, ss) ← extractWord ss
  let (colon, ss) ← extractWord ss
  let (bitInfo, ss) ← extractWord ss
  let (scaleInfo, ss) ← extractWord ss
  let (rangeInfo, ss) ← extractWord ss
  let (unit, _) ← extractWord ss
  return { tag, name, colon, bitInfo, scaleInfo, rangeInfo, unit }

/-- Start bit and length of `<start>|<length>@…`, and what is behind the `@`. -/
def parseBitInfo (bitInfo : StdString) : Option ((Int × Int) × StdString) := do
  let pipePos ← find bitInfo '|'
  let atPos ← find bitInfo '@'
  let startBit ← stoi (substr bitInfo 0 pipePos)
  -- an `@` in front of the `|` makes the count wrap around
  let length ← stoi (substr bitInfo (pipePos + 1) (sizeSub (sizeSub atPos pipePos) 1))
  return ((startBit, length), substr bitInfo (atPos + 1) bitInfo.length)

/-- Parse one `SG_` line. -/
def parseSignalLine (stod : StdString → Option D) (line : StdString) : Option (SignalDef D) := do
  let tokens ← extractTokens line
  if tokens.tag ≠ signalTag then none
  else
    let ((startBit, length), orderSign) ← parseBitInfo tokens.bitInfo
    let (scale, offset) ← parsePair stod '(' ',' ')' tokens.scaleInfo
    let (minVal, maxVal) ← parsePair stod '[' '|' ']' tokens.rangeInfo
    return {
      name := tokens.name
      startBit := UInt8.ofInt startBit
      length := UInt8.ofInt length
      isSigned := orderSign[1]? = some '-'
      isLittleEndian := orderSign[0]? = some '1'
      scale
      offset
      minVal
      maxVal
      unit := unquote tokens.unit }

/-! ## The loop over the lines -/

/-- Only characters of `" \t\r\n"`. -/
def isBlank (line : StdString) : Bool := line.all (· ∈ [' ', '\t', '\r', '\n'])

/-- The line behind its leading spaces and tabs. -/
def trim (line : StdString) : StdString := line.dropWhile (· ∈ [' ', '\t'])

/-- The first four characters are the tag and a space. -/
def startsWith (tag trimmed : StdString) : Bool :=
  trimmed.length ≥ 4 ∧ substr trimmed 0 4 = tag ++ [' ']

/-- The local variables of `parse` and the messages. -/
structure ParseState (D : Type) where
  messages : Finmap fun _ : UInt32 => MessageDef D := ∅
  currentId : UInt32 := 0
  inMessage : Bool := false

/-- `messages_[id].signals.push_back(sig)`, where `operator[]` creates a missing message. -/
def pushSignal (messages : Finmap fun _ : UInt32 => MessageDef D) (id : UInt32)
    (sig : SignalDef D) : Finmap fun _ : UInt32 => MessageDef D :=
  let msg := (messages.lookup id).getD { canId := 0, name := [], length := 0 }
  messages.insert id { msg with signals := msg.signals ++ [sig] }

/-- What the loop reports about a line. -/
inductive ParseAction (D : Type)
  | foundMessage (msg : MessageDef D)
  | signal (id : UInt32) (sig : SignalDef D)

/-- One iteration of the loop. -/
def parseLine (stod : StdString → Option D) (state : ParseState D) (line : StdString) :
    ParseState D × Option (ParseAction D) :=
  let line := popBack '\r' line
  if isBlank line then ({ state with inMessage := false }, none)
  else
    let trimmed := trim line
    if startsWith messageTag trimmed then
      match parseMessageLine trimmed with
      | none => (state, none)
      | some msg =>
          ({ messages := state.messages.insert msg.canId msg
             currentId := msg.canId
             inMessage := true }, some (.foundMessage msg))
    else if startsWith signalTag trimmed ∧ state.inMessage then
      match parseSignalLine stod trimmed with
      | none => (state, none)
      | some sig =>
          ({ state with messages := pushSignal state.messages state.currentId sig },
            some (.signal state.currentId sig))
    else (state, none)

/-- The loop, with what it reports about each line. -/
def parseLines (stod : StdString → Option D) (state : ParseState D) :
    List StdString → ParseState D × List (Option (ParseAction D))
  | [] => (state, [])
  | line :: lines =>
      let stepped := parseLine stod state line
      let rest := parseLines stod stepped.1 lines
      (rest.1, stepped.2 :: rest.2)

theorem parseLines_append (state : ParseState D) (front rest : List StdString) :
    parseLines stod state (front ++ rest) =
      ((parseLines stod (parseLines stod state front).1 rest).1,
        (parseLines stod state front).2 ++
          (parseLines stod (parseLines stod state front).1 rest).2) := by
  induction front generalizing state with
  | nil => rfl
  | cons line front ih =>
      rw [List.cons_append, parseLines, parseLines, ih]
      rfl

/-- Parse a file, given its content if it can be opened. -/
def DbcParser.parse (stod : StdString → Option D) (dbc : DbcParser D) (file : Option StdString) :
    Bool × DbcParser D :=
  match file with
  | none => (false, dbc)
  | some content =>
      (true, { messages :=
        (parseLines stod { messages := dbc.messages } (lines content)).1.messages })

/-! ## What the loop sees of a line -/

def blankLine (line : StdString) : Bool := isBlank (popBack '\r' line)

/-- The line starts with `tag`, behind spaces and tabs. -/
def taggedLine (tag line : StdString) : Bool :=
  ! blankLine line && startsWith tag (trim (popBack '\r' line))

/-- The message of an accepted `BO_` line. -/
def messageOf (D : Type) (line : StdString) : Option (MessageDef D) :=
  if taggedLine messageTag line then parseMessageLine (trim (popBack '\r' line)) else none

/-- The signal of an accepted `SG_` line. -/
def signalOf (stod : StdString → Option D) (line : StdString) : Option (SignalDef D) :=
  if taggedLine signalTag line then parseSignalLine stod (trim (popBack '\r' line)) else none

theorem startsWith_exclusive {trimmed : StdString} (h : startsWith messageTag trimmed = true) :
    startsWith signalTag trimmed = false := by
  rw [startsWith, decide_eq_true_eq] at h
  rw [startsWith, decide_eq_false_iff_not, h.2]
  rintro ⟨_, heq⟩
  exact absurd heq (by decide)

theorem blankLine_of_tagged {tag line : StdString} (h : taggedLine tag line = true) :
    blankLine line = false := by
  rw [taggedLine, Bool.and_eq_true, Bool.not_eq_true'] at h
  exact h.1

/-- A signal line is no message line. -/
theorem messageOf_of_tagged {line : StdString} (htagged : taggedLine signalTag line = true) :
    messageOf D line = none := by
  apply if_neg
  intro htag
  rw [taggedLine, Bool.and_eq_true] at htag htagged
  rw [startsWith_exclusive htag.2] at htagged
  exact Bool.false_ne_true htagged.2

/-- The loop in terms of what it sees of a line. -/
theorem parseLine_eq (stod : StdString → Option D) (state : ParseState D) (line : StdString) :
    parseLine stod state line =
      if blankLine line then ({ state with inMessage := false }, none)
      else
        match messageOf D line, signalOf stod line with
        | some msg, _ =>
            ({ messages := state.messages.insert msg.canId msg
               currentId := msg.canId
               inMessage := true }, some (.foundMessage msg))
        | none, some sig =>
            if state.inMessage then
              ({ state with messages := pushSignal state.messages state.currentId sig },
                some (.signal state.currentId sig))
            else (state, none)
        | none, none => (state, none) := by
  unfold parseLine messageOf signalOf taggedLine blankLine
  dsimp only
  generalize popBack '\r' line = stripped
  cases hblank : isBlank stripped with
  | true => rfl
  | false =>
      by_cases hmessage : startsWith messageTag (trim stripped) = true
      · have hsignal := startsWith_exclusive hmessage
        rw [hmessage, hsignal]
        cases (parseMessageLine (trim stripped) : Option (MessageDef D)) <;> rfl
      · rw [Bool.not_eq_true] at hmessage
        rw [hmessage]
        cases startsWith signalTag (trim stripped) with
        | false => simp
        | true =>
            cases state.inMessage with
            | false => cases parseSignalLine stod (trim stripped) <;> simp
            | true => cases parseSignalLine stod (trim stripped) <;> simp

/-! ## Keys -/

/-- Messages are stored under their own id. -/
def WellKeyed (messages : Finmap fun _ : UInt32 => MessageDef D) : Prop :=
  ∀ id msg, messages.lookup id = some msg → msg.canId = id

/-- The loop's invariant: inside of a message, the message is in the map. -/
structure ParseState.Valid (state : ParseState D) : Prop where
  wellKeyed : WellKeyed state.messages
  current : state.inMessage = true → (state.messages.lookup state.currentId).isSome

theorem WellKeyed.insert {messages : Finmap fun _ : UInt32 => MessageDef D}
    (h : WellKeyed messages) {id : UInt32} {msg : MessageDef D} (hid : msg.canId = id) :
    WellKeyed (messages.insert id msg) := by
  intro other found hfound
  by_cases hother : other = id
  · subst hother
    rw [Finmap.lookup_insert] at hfound
    cases hfound
    exact hid
  · rw [Finmap.lookup_insert_of_ne _ hother] at hfound
    exact h other found hfound

theorem ParseState.Valid.parseLine {state : ParseState D} (h : state.Valid)
    (stod : StdString → Option D) (line : StdString) : (parseLine stod state line).1.Valid := by
  have hstay : ∀ inMessage, (inMessage = true → state.inMessage = true) →
      ({ state with inMessage } : ParseState D).Valid :=
    fun inMessage hin => ⟨h.wellKeyed, fun heq => h.current (hin heq)⟩
  rw [parseLine_eq]
  cases blankLine line with
  | true => exact hstay false (fun heq => by cases heq)
  | false =>
      rw [if_neg Bool.false_ne_true]
      cases messageOf D line with
      | some msg =>
          refine ⟨h.wellKeyed.insert rfl, fun _ => ?_⟩
          dsimp only
          rw [Finmap.lookup_insert]
          rfl
      | none =>
          cases signalOf stod line with
          | none => exact h
          | some sig =>
              dsimp only
              split
              next hin =>
                -- The signal goes to a message that is there, so no key is created.
                obtain ⟨msg, hmsg⟩ := Option.isSome_iff_exists.mp (h.current hin)
                have hpush : pushSignal state.messages state.currentId sig =
                    state.messages.insert state.currentId
                      { msg with signals := msg.signals ++ [sig] } := by
                  rw [pushSignal, hmsg]
                  rfl
                have hid : msg.canId = state.currentId := h.wellKeyed _ _ hmsg
                refine ⟨?_, fun _ => ?_⟩
                · rw [hpush]
                  exact h.wellKeyed.insert hid
                · rw [hpush, Finmap.lookup_insert]
                  rfl
              next => exact h

theorem ParseState.Valid.parseLines {state : ParseState D} (h : state.Valid)
    (stod : StdString → Option D) (text : List StdString) :
    (parseLines stod state text).1.Valid := by
  induction text generalizing state with
  | nil => exact h
  | cons line text ih => exact ih (h.parseLine stod line)

theorem wellKeyed_parse (stod : StdString → Option D) (content : StdString) :
    WellKeyed (DbcParser.parse stod {} (some content)).2.messages := by
  have hstart : ({} : ParseState D).Valid := by
    refine ⟨fun id msg hmsg => ?_, fun hin => by cases hin⟩
    rw [Finmap.lookup_empty] at hmsg
    cases hmsg
  exact (hstart.parseLines stod (lines content)).wellKeyed

end AutomotiveGateway.Can
