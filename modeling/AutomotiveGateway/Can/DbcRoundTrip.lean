import AutomotiveGateway.Can.DbcText
import AutomotiveGateway.Foundation.InOrder
import Mathlib.Data.List.TakeWhile

/-!
# Parsing a printed DBC file

A file is a list of message blocks with other lines in between. Parsing its text
gives back the messages, of several blocks with one id the last.
-/

namespace AutomotiveGateway.Can

open StdString LastWrite

variable {D : Type} {stod : StdString → Option D}

/-! ## Lines -/

/-- A carriage return in front of the newline. -/
def carriageReturn (crlf : Bool) : StdString := if crlf then ['\r'] else []

structure MessageLine where
  indent : Indent
  header : MessageText
  crlf : Bool

structure SignalLine (stod : StdString → Option D) where
  indent : Indent
  signal : SignalText stod
  crlf : Bool

/-- A line starts with a tag, behind spaces and tabs. -/
def HasTag (tag line : StdString) : Prop :=
  ∃ (indent : Indent) (rest : StdString), line = indent.text ++ (tag ++ ' ' :: rest)

/-- A line that is not blank and starts with neither tag. -/
structure NoiseLine where
  text : StdString
  noNewline : '\n' ∉ text
  notBlank : ∃ c ∈ text, c ∉ [' ', '\t', '\r']
  notMessage : ¬ HasTag messageTag text
  notSignal : ¬ HasTag signalTag text
  crlf : Bool

/-- A line of spaces, tabs and carriage returns only. -/
structure BlankLine where
  text : StdString
  blank : ∀ c ∈ text, c ∈ [' ', '\t', '\r']

def MessageLine.text (line : MessageLine) : StdString :=
  line.indent.text ++ line.header.text ++ carriageReturn line.crlf

def SignalLine.text (line : SignalLine stod) : StdString :=
  line.indent.text ++ line.signal.text ++ carriageReturn line.crlf

/-- The whole line, in front of its newline. -/
def NoiseLine.line (noise : NoiseLine) : StdString := noise.text ++ carriageReturn noise.crlf

/-! ## Files -/

/-- A line inside of a block. -/
inductive BlockLine (stod : StdString → Option D)
  | noise (line : NoiseLine)
  | signal (line : SignalLine stod)

/-- A line outside of the blocks. -/
inductive Filler
  | noise (line : NoiseLine)
  | blank (line : BlankLine)

/-- A message with its signals, and what stands between it and the next one. -/
structure Block (stod : StdString → Option D) where
  header : MessageLine
  body : List (BlockLine stod)
  trailer : List Filler

structure DbcFile (stod : StdString → Option D) where
  preamble : List Filler
  blocks : List (Block stod)

def BlockLine.line : BlockLine stod → StdString
  | noise line => line.line
  | signal line => line.text

def Filler.line : Filler → StdString
  | noise line => line.line
  | blank line => line.text

def BlockLine.signal? : BlockLine stod → Option (SignalDef D)
  | noise _ => none
  | signal line => some line.signal.signal

namespace Block

def lines (block : Block stod) : List StdString :=
  block.header.text :: block.body.map BlockLine.line ++ block.trailer.map Filler.line

/-- The message a block stands for. -/
def message (block : Block stod) : MessageDef D :=
  { (block.header.header.message : MessageDef D) with
    signals := block.body.filterMap BlockLine.signal? }

end Block

namespace DbcFile

def lines (file : DbcFile stod) : List StdString :=
  file.preamble.map Filler.line ++ file.blocks.flatMap Block.lines

/-- The text of a file. -/
def text (file : DbcFile stod) : StdString := file.lines.flatMap fun line => line ++ ['\n']

/-- The messages written to a file, in order. -/
def messages (file : DbcFile stod) : List (MessageDef D) := file.blocks.map Block.message

end DbcFile

/-! ## The parser on one line -/

theorem popBack_of_not_mem {c : Char} {s : StdString} (hc : c ∉ s) : popBack c s = s :=
  if_neg (fun hlast => hc (List.mem_of_getLast? hlast))

/-- At most the one character is removed. -/
theorem exists_popBack (c : Char) (s : StdString) :
    ∃ ending, (ending = [] ∨ ending = [c]) ∧ s = popBack c s ++ ending := by
  by_cases hlast : s.getLast? = some c
  · refine ⟨[c], .inr rfl, ?_⟩
    rw [popBack, if_pos hlast, List.dropLast_append_getLast? c hlast]
  · refine ⟨[], .inl rfl, ?_⟩
    rw [popBack, if_neg hlast, List.append_nil]

theorem popBack_carriageReturn {s : StdString} (hs : '\r' ∉ s) (crlf : Bool) :
    popBack '\r' (s ++ carriageReturn crlf) = s := by
  cases crlf with
  | false => rw [carriageReturn, if_neg Bool.false_ne_true, List.append_nil, popBack_of_not_mem hs]
  | true => exact popBack_append '\r' s

/-- The only whitespace of a tagged line is the space. -/
def OnlySpaces (s : StdString) : Prop := ∀ c ∈ s, isSpace c = false ∨ c = ' '

theorem OnlySpaces.append_space {word rest : StdString} (hword : ∀ c ∈ word, isSpace c = false)
    (hrest : OnlySpaces rest) : OnlySpaces (word ++ ' ' :: rest) := by
  intro c hc
  rcases List.mem_append.mp hc with hmem | hmem
  · exact .inl (hword c hmem)
  · rcases List.mem_cons.mp hmem with rfl | hmem
    · exact .inr rfl
    · exact hrest c hmem

theorem onlySpaces_message (header : MessageText) : OnlySpaces header.text := by
  have hname : IsWord (header.name.text ++ [':']) :=
    isWord_append header.name.isWord (noSpace_of_all (by decide))
  apply OnlySpaces.append_space isWord_messageTag.noSpace
  apply OnlySpaces.append_space header.id.isNumeral.isWord.noSpace
  apply OnlySpaces.append_space hname.noSpace
  apply OnlySpaces.append_space header.len.isNumeral.isWord.noSpace
  exact fun c hc => .inl (header.sender.isWord.noSpace c hc)

theorem onlySpaces_signal (signal : SignalText stod) : OnlySpaces signal.text := by
  apply OnlySpaces.append_space isWord_signalTag.noSpace
  apply OnlySpaces.append_space signal.name.isWord.noSpace
  apply OnlySpaces.append_space (noSpace_of_all (by decide))
  apply OnlySpaces.append_space signal.isWord_bitInfo.noSpace
  apply OnlySpaces.append_space signal.isWord_scaleInfo.noSpace
  apply OnlySpaces.append_space signal.isWord_rangeInfo.noSpace
  apply OnlySpaces.append_space signal.isWord_quotedUnit.noSpace
  exact fun c hc => .inl (signal.receiver_noSpace c hc)

theorem not_mem_tagged {indent : Indent} {body : StdString} (hbody : OnlySpaces body) {c : Char}
    (hc : c = '\n' ∨ c = '\r') : c ∉ indent.text ++ body := by
  rw [List.mem_append]
  rintro (hmem | hmem)
  · rcases indent.blank c hmem with rfl | rfl <;> exact absurd hc (by decide)
  · rcases hbody c hmem with hspace | rfl
    · rcases hc with rfl | rfl <;> exact absurd hspace (by decide)
    · exact absurd hc (by decide)

theorem isBlank_of_mem {s : StdString} {c : Char} (hmem : c ∈ s)
    (hc : c ∉ [' ', '\t', '\r', '\n']) : isBlank s = false := by
  rw [isBlank, List.all_eq_false]
  exact ⟨c, hmem, by simpa using hc⟩

theorem trim_indent (indent : Indent) {c : Char} (hc : c ∉ [' ', '\t']) (rest : StdString) :
    trim (indent.text ++ c :: rest) = c :: rest := by
  have hblank : ∀ c ∈ indent.text, decide (c ∈ [' ', '\t']) = true := by
    intro c hmem
    rcases indent.blank c hmem with rfl | rfl <;> rfl
  rw [trim, List.dropWhile_append_of_pos hblank, List.dropWhile_cons_of_neg (by simpa using hc)]

theorem startsWith_tag {tag : StdString} (htag : tag.length = 3) (rest : StdString) :
    startsWith tag (tag ++ ' ' :: rest) = true := by
  have hfour : substr (tag ++ ' ' :: rest) 0 4 = tag ++ [' '] := by
    rw [substr, List.drop_zero, List.take_append, htag, List.take_of_length_le (by omega)]
    rfl
  rw [startsWith, decide_eq_true_eq, hfour, List.length_append, List.length_cons, htag]
  exact ⟨by omega, rfl⟩

theorem hasTag_of_startsWith {tag line : StdString} (h : startsWith tag (trim line) = true) :
    HasTag tag line := by
  rw [startsWith, decide_eq_true_eq] at h
  have hblank : ∀ c ∈ line.takeWhile (· ∈ [' ', '\t']), c = ' ' ∨ c = '\t' := by
    intro c hc
    have hmem := List.mem_takeWhile_imp hc
    simpa using hmem
  refine ⟨⟨line.takeWhile (· ∈ [' ', '\t']), hblank⟩, (trim line).drop 4, ?_⟩
  have hsplit : trim line = tag ++ ' ' :: (trim line).drop 4 := by
    have htake := List.take_append_drop 4 (trim line)
    rw [substr, List.drop_zero] at h
    rw [h.2, List.append_assoc] at htake
    exact htake.symm
  rw [← hsplit]
  exact (List.takeWhile_append_dropWhile).symm

theorem HasTag.append {tag line : StdString} (h : HasTag tag line) (more : StdString) :
    HasTag tag (line ++ more) := by
  obtain ⟨indent, rest, rfl⟩ := h
  exact ⟨indent, rest ++ more, by simp⟩

theorem parseLine_message (state : ParseState D) (line : MessageLine) :
    parseLine stod state line.text =
      ({ messages := state.messages.insert (UInt32.ofNat line.header.id.value) line.header.message
         currentId := UInt32.ofNat line.header.id.value
         inMessage := true }, some (.foundMessage line.header.message)) := by
  have hblank : isBlank (line.indent.text ++ line.header.text) = false :=
    isBlank_of_mem (List.mem_append_right _ List.mem_cons_self) (show 'B' ∉ _ by decide)
  have htrim : trim (line.indent.text ++ line.header.text) = line.header.text :=
    trim_indent line.indent (by decide) _
  have htag : startsWith messageTag line.header.text = true := startsWith_tag rfl _
  rw [parseLine, MessageLine.text, popBack_carriageReturn
    (not_mem_tagged (onlySpaces_message line.header) (.inr rfl))]
  simp only [hblank, htrim, htag, parseMessageLine_text, if_true, Bool.false_eq_true, if_false]
  rfl

theorem parseLine_signal {state : ParseState D} (hin : state.inMessage = true)
    (line : SignalLine stod) :
    parseLine stod state line.text =
      ({ state with
          messages := pushSignal state.messages state.currentId line.signal.signal },
        some (.signal state.currentId line.signal.signal)) := by
  have hblank : isBlank (line.indent.text ++ line.signal.text) = false :=
    isBlank_of_mem (List.mem_append_right _ List.mem_cons_self) (show 'S' ∉ _ by decide)
  have htrim : trim (line.indent.text ++ line.signal.text) = line.signal.text :=
    trim_indent line.indent (by decide) _
  have htag : startsWith signalTag line.signal.text = true := startsWith_tag rfl _
  have hother : startsWith messageTag line.signal.text = false := by
    by_contra hmessage
    rw [startsWith_exclusive (Bool.not_eq_false _ ▸ hmessage)] at htag
    exact Bool.false_ne_true htag
  rw [parseLine, SignalLine.text, popBack_carriageReturn
    (not_mem_tagged (onlySpaces_signal line.signal) (.inr rfl))]
  simp only [hblank, htrim, hother, htag, hin, parseSignalLine_text, and_self, if_true,
    Bool.false_eq_true, if_false]

/-- Of a noise line only a carriage return at its end can be lost. -/
theorem NoiseLine.exists_popBack (noise : NoiseLine) :
    ∃ ending, (ending = [] ∨ ending = ['\r']) ∧
      noise.text = popBack '\r' noise.line ++ ending := by
  rw [NoiseLine.line]
  cases noise.crlf with
  | false =>
      rw [carriageReturn, if_neg Bool.false_ne_true, List.append_nil]
      exact Can.exists_popBack '\r' noise.text
  | true => exact ⟨[], .inl rfl, by rw [List.append_nil]; exact (popBack_append '\r' _).symm⟩

theorem parseLine_noise (state : ParseState D) (noise : NoiseLine) :
    parseLine stod state noise.line = (state, none) := by
  obtain ⟨c, hmem, hc⟩ := noise.notBlank
  have hkept : c ∈ popBack '\r' noise.line ∧ c ∉ [' ', '\t', '\r', '\n'] := by
    obtain ⟨ending, hending, htext⟩ := noise.exists_popBack
    have hnewline : c ≠ '\n' := fun heq => noise.noNewline (heq ▸ hmem)
    simp only [List.mem_cons, List.not_mem_nil, or_false, not_or] at hc ⊢
    refine ⟨?_, hc.1, hc.2.1, hc.2.2, hnewline⟩
    rw [htext, List.mem_append] at hmem
    rcases hmem with hmem | hmem
    · exact hmem
    · rcases hending with rfl | rfl
      · cases hmem
      · exact absurd (List.mem_singleton.mp hmem) hc.2.2
  have hblank : isBlank (popBack '\r' noise.line) = false := isBlank_of_mem hkept.1 hkept.2
  have htag : ∀ tag, ¬ HasTag tag noise.text →
      startsWith tag (trim (popBack '\r' noise.line)) = false := by
    intro tag hnone
    obtain ⟨ending, _, htext⟩ := noise.exists_popBack
    rw [← Bool.not_eq_true]
    intro hstarts
    exact hnone (htext ▸ (hasTag_of_startsWith hstarts).append ending)
  rw [parseLine]
  simp only [hblank, htag messageTag noise.notMessage, htag signalTag noise.notSignal,
    Bool.false_eq_true, false_and, if_false]

theorem parseLine_blank (state : ParseState D) (blank : BlankLine) :
    parseLine stod state blank.text = ({ state with inMessage := false }, none) := by
  have hblank : isBlank (popBack '\r' blank.text) = true := by
    rw [isBlank, List.all_eq_true]
    intro c hc
    obtain ⟨ending, _, htext⟩ := exists_popBack '\r' blank.text
    have hmem := blank.blank c (htext ▸ List.mem_append_left ending hc)
    simp only [List.mem_cons, List.not_mem_nil, or_false] at hmem
    rcases hmem with rfl | rfl | rfl <;> rfl
  rw [parseLine]
  simp only [hblank, if_true]

/-! ## The parser on a file -/

theorem messages_fillers (state : ParseState D) (fillers : List Filler) :
    (parseLines stod state (fillers.map Filler.line)).1.messages = state.messages := by
  induction fillers generalizing state with
  | nil => rfl
  | cons filler fillers ih =>
      rw [List.map_cons, parseLines, ih]
      cases filler with
      | noise line => rw [Filler.line, parseLine_noise]
      | blank line => rw [Filler.line, parseLine_blank]

/-- The signals of a block go to the message of its header. -/
theorem messages_body {state : ParseState D} (hin : state.inMessage = true) {msg : MessageDef D}
    (hmsg : state.messages.lookup state.currentId = some msg) (body : List (BlockLine stod)) :
    (parseLines stod state (body.map BlockLine.line)).1.messages =
      state.messages.insert state.currentId
        { msg with signals := msg.signals ++ body.filterMap BlockLine.signal? } := by
  induction body generalizing state msg with
  | nil =>
      rw [List.map_nil, parseLines, List.filterMap_nil, List.append_nil]
      apply Finmap.ext_lookup
      intro id
      by_cases hid : id = state.currentId
      · rw [hid, Finmap.lookup_insert, hmsg]
      · rw [Finmap.lookup_insert_of_ne _ hid]
  | cons line body ih =>
      cases line with
      | noise line =>
          rw [List.map_cons, BlockLine.line, parseLines, parseLine_noise]
          exact ih hin hmsg
      | signal line =>
          have hpush : pushSignal state.messages state.currentId line.signal.signal =
              state.messages.insert state.currentId
                { msg with signals := msg.signals ++ [line.signal.signal] } := by
            rw [pushSignal, hmsg]
            rfl
          have hrest := @ih
            { state with messages := pushSignal state.messages state.currentId line.signal.signal }
            hin { msg with signals := msg.signals ++ [line.signal.signal] }
            (by rw [hpush, Finmap.lookup_insert])
          rw [List.map_cons, BlockLine.line, parseLines, parseLine_signal hin]
          dsimp only at hrest ⊢
          rw [hrest, hpush, Finmap.insert_insert, List.append_assoc]
          rfl

theorem messages_block (state : ParseState D) (block : Block stod) :
    (parseLines stod state block.lines).1.messages =
      state.messages.insert block.message.canId block.message := by
  have hlookup : (state.messages.insert (UInt32.ofNat block.header.header.id.value)
      (block.header.header.message : MessageDef D)).lookup
        (UInt32.ofNat block.header.header.id.value) = some block.header.header.message :=
    Finmap.lookup_insert _
  rw [Block.lines, List.cons_append, parseLines, parseLine_message, parseLines_append,
    messages_fillers]
  dsimp only
  rw [messages_body rfl hlookup, Finmap.insert_insert]
  rfl

theorem messages_blocks (state : ParseState D) (blocks : List (Block stod)) :
    (parseLines stod state (blocks.flatMap Block.lines)).1.messages =
      writeAll MessageDef.canId id state.messages (blocks.map Block.message) := by
  induction blocks generalizing state with
  | nil => rfl
  | cons block blocks ih =>
      rw [List.flatMap_cons, parseLines_append, ih, messages_block]
      rfl

theorem lines_text (file : DbcFile stod) : StdString.lines file.text = file.lines := by
  apply lines_flatMap
  have hreturn : ∀ crlf, '\n' ∉ carriageReturn crlf := by decide
  have hnoise : ∀ noise : NoiseLine, '\n' ∉ noise.line := by
    intro noise hmem
    rcases List.mem_append.mp hmem with hmem | hmem
    · exact noise.noNewline hmem
    · exact hreturn _ hmem
  have hfiller : ∀ filler : Filler, '\n' ∉ filler.line := by
    intro filler
    cases filler with
    | noise line => exact hnoise line
    | blank line => exact fun hmem => absurd (line.blank _ hmem) (by decide)
  have hheader : ∀ line : MessageLine, '\n' ∉ line.text := by
    intro line hmem
    rcases List.mem_append.mp hmem with hmem | hmem
    · exact not_mem_tagged (onlySpaces_message line.header) (.inl rfl) hmem
    · exact hreturn _ hmem
  have hbody : ∀ line : BlockLine stod, '\n' ∉ line.line := by
    intro line
    cases line with
    | noise line => exact hnoise line
    | signal line =>
        intro hmem
        rcases List.mem_append.mp hmem with hmem | hmem
        · exact not_mem_tagged (onlySpaces_signal line.signal) (.inl rfl) hmem
        · exact hreturn _ hmem
  intro line hline
  simp only [DbcFile.lines, Block.lines, List.mem_append, List.mem_map, List.mem_flatMap,
    List.mem_cons] at hline
  rcases hline with ⟨filler, _, rfl⟩ | ⟨block, _, (rfl | ⟨line, _, rfl⟩) | ⟨filler, _, rfl⟩⟩
  · exact hfiller filler
  · exact hheader block.header
  · exact hbody line
  · exact hfiller filler

/-- Parsing the text of a file gives back its messages: under each id the last block
written with it, and nothing under any other id. -/
theorem parse_text (file : DbcFile stod) :
    (DbcParser.parse stod {} (some file.text)).1 = true ∧
    ∀ id, (DbcParser.parse stod {} (some file.text)).2.findMessage id =
      lastOf MessageDef.canId id file.messages := by
  refine ⟨rfl, ?_⟩
  intro id
  have hempty : (∅ : Finmap fun _ : UInt32 => MessageDef D).lookup id = none :=
    Finmap.lookup_empty id
  rw [DbcParser.parse, DbcParser.findMessage, lines_text, DbcFile.lines, parseLines_append,
    messages_blocks, messages_fillers, lookup_writeAll, hempty, Option.or_none, Option.map_id]
  rfl

end AutomotiveGateway.Can
