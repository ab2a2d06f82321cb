import AutomotiveGateway.Can.DbcParser

/-!
# The lines of a DBC file

Texts of message and signal lines, with the values they stand for. Numerals are
decimal digits; of a real number only the text is known, and that `std::stod` reads
it back.
-/

namespace AutomotiveGateway.Can

open StdString

/-- A word, as the tokens of a line are. -/
structure Word where
  text : StdString
  isWord : IsWord text

/-- A decimal numeral below a bound. -/
structure Numeral (bound : Nat) where
  digits : StdString
  isNumeral : IsNumeral digits
  lt_bound : digitsValue digits < bound

def Numeral.value {bound : Nat} (numeral : Numeral bound) : Nat := digitsValue numeral.digits

/-- The text of a real number, which is neither whitespace nor a separator. -/
structure RealText {D : Type} (stod : StdString → Option D) where
  text : StdString
  value : D
  reads : stod text = some value
  plain : ∀ c ∈ text, isSpace c = false ∧ c ≠ ',' ∧ c ≠ '|'

theorem RealText.noSpace {D : Type} {stod : StdString → Option D} (real : RealText stod) :
    ∀ c ∈ real.text, isSpace c = false := fun c hc => (real.plain c hc).1

/-- The leading spaces and tabs of a line. -/
structure Indent where
  text : StdString
  blank : ∀ c ∈ text, c = ' ' ∨ c = '\t'

/-! ## Message lines -/

/-- `BO_ <id> <name>: <len> <sender>` -/
structure MessageText where
  id : Numeral (2 ^ 32)
  name : Word
  len : Numeral 256
  sender : Word

namespace MessageText

def text (header : MessageText) : StdString :=
  messageTag ++ ' ' :: (header.id.digits ++ ' ' :: ((header.name.text ++ [':']) ++
    ' ' :: (header.len.digits ++ ' ' :: header.sender.text)))

/-- The message a line stands for, without signals. -/
def message {D : Type} (header : MessageText) : MessageDef D where
  canId := UInt32.ofNat header.id.value
  name := header.name.text
  length := UInt8.ofNat header.len.value

end MessageText

/-! ## Signal lines -/

variable {D : Type} {stod : StdString → Option D}

/-- `SG_ <name> : <start>|<length>@<0 or 1><+ or ->`
`(<scale>,<offset>) [<min>|<max>] "<unit>" <receiver>` -/
structure SignalText (stod : StdString → Option D) where
  name : Word
  start : Numeral 256
  length : Numeral 256
  isLittleEndian : Bool
  isSigned : Bool
  scale : RealText stod
  offset : RealText stod
  min : RealText stod
  max : RealText stod
  unit : StdString
  unit_noSpace : ∀ c ∈ unit, isSpace c = false
  receiver : StdString
  receiver_noSpace : ∀ c ∈ receiver, isSpace c = false

namespace SignalText

/-- `<start>|<length>@<order><sign>` -/
def bitInfo (signal : SignalText stod) : StdString :=
  signal.start.digits ++ '|' :: (signal.length.digits ++ ['@',
    if signal.isLittleEndian then '1' else '0', if signal.isSigned then '-' else '+'])

/-- `(<scale>,<offset>)` -/
def scaleInfo (signal : SignalText stod) : StdString :=
  '(' :: (signal.scale.text ++ ',' :: (signal.offset.text ++ [')']))

/-- `[<min>|<max>]` -/
def rangeInfo (signal : SignalText stod) : StdString :=
  '[' :: (signal.min.text ++ '|' :: (signal.max.text ++ [']']))

/-- `"<unit>"` -/
def quotedUnit (signal : SignalText stod) : StdString := '"' :: (signal.unit ++ ['"'])

def text (signal : SignalText stod) : StdString :=
  signalTag ++ ' ' :: (signal.name.text ++ ' ' :: ([':'] ++ ' ' :: (signal.bitInfo ++
    ' ' :: (signal.scaleInfo ++ ' ' :: (signal.rangeInfo ++ ' ' :: (signal.quotedUnit ++
      ' ' :: signal.receiver))))))

/-- The signal a line stands for. -/
def signal (signal : SignalText stod) : SignalDef D where
  name := signal.name.text
  startBit := UInt8.ofNat signal.start.value
  length := UInt8.ofNat signal.length.value
  isSigned := signal.isSigned
  isLittleEndian := signal.isLittleEndian
  scale := signal.scale.value
  offset := signal.offset.value
  minVal := signal.min.value
  maxVal := signal.max.value
  unit := signal.unit

end SignalText

/-! ## Reading them back -/

theorem isWord_messageTag : IsWord messageTag :=
  ⟨by decide, noSpace_of_all (by decide)⟩

theorem isWord_signalTag : IsWord signalTag :=
  ⟨by decide, noSpace_of_all (by decide)⟩

theorem isWord_cons {c : Char} {word : StdString} (hc : isSpace c = false)
    (hword : ∀ c ∈ word, isSpace c = false) : IsWord (c :: word) where
  nonempty := List.cons_ne_nil c word
  noSpace := by
    intro other hother
    rcases List.mem_cons.mp hother with rfl | hmem
    · exact hc
    · exact hword other hmem

theorem isWord_append {word more : StdString} (hword : IsWord word)
    (hmore : ∀ c ∈ more, isSpace c = false) : IsWord (word ++ more) where
  nonempty := List.append_ne_nil_of_left_ne_nil hword.nonempty more
  noSpace := List.forall_mem_append.mpr ⟨hword.noSpace, hmore⟩

theorem isWord_pair {opening separator closing : Char} (hopening : isSpace opening = false)
    (hseparator : isSpace separator = false) (hclosing : isSpace closing = false)
    (first second : RealText stod) :
    IsWord (opening :: (first.text ++ separator :: (second.text ++ [closing]))) := by
  apply isWord_cons hopening
  simp only [List.forall_mem_append, List.forall_mem_cons]
  exact ⟨first.noSpace, hseparator, second.noSpace, hclosing, by simp⟩

theorem popBack_append (c : Char) (s : StdString) : popBack c (s ++ [c]) = s := by
  simp [popBack]

theorem endsWord_space (rest : StdString) : EndsWord (' ' :: rest) :=
  endsWord_cons (by decide) rest

theorem endsNumeral_space (rest : StdString) : EndsNumeral (' ' :: rest) := by
  intro c hc
  cases hc
  decide

theorem ofInt_natCast (n : Nat) : UInt8.ofInt (n : Int) = UInt8.ofNat n := by
  have hmod : ((n : Int) % 2 ^ 8).toNat = n % UInt8.size := by
    simp only [UInt8.size]
    omega
  rw [UInt8.ofInt, hmod, UInt8.ofNat_mod_size]

theorem parseMessageLine_text (header : MessageText) :
    parseMessageLine header.text = some (header.message : MessageDef D) := by
  have hname : IsWord (header.name.text ++ [':']) :=
    isWord_append header.name.isWord (noSpace_of_all (by decide))
  have hlen : digitsValue header.len.digits < 2 ^ 31 :=
    Nat.lt_trans header.len.lt_bound (by decide)
  have hsender := extractWord_append header.sender.isWord endsWord_nil
  rw [List.append_nil] at hsender
  unfold parseMessageLine MessageText.text
  simp only [extractWord_append isWord_messageTag (endsWord_space _), Option.bind_eq_bind,
    Option.bind_some, extractUInt32_cons_space, extractWord_cons_space, extractInt_cons_space,
    extractUInt32_append header.id.isNumeral header.id.lt_bound (endsNumeral_space _),
    extractWord_append hname (endsWord_space _),
    extractInt_append header.len.isNumeral hlen (endsNumeral_space _), hsender, popBack_append,
    ofInt_natCast, ne_eq, not_true, if_false]
  rfl

/-! ### Signals -/

theorem not_mem_digits {digits : StdString} (hdigits : IsNumeral digits) {c : Char}
    (hc : c.isDigit = false) : c ∉ digits := by
  intro hmem
  rw [hdigits.isDigit c hmem] at hc
  exact Bool.noConfusion hc

/-- Two numerals of a bit info are read back, with whatever is behind its `@`. -/
theorem parseBitInfo_append {start length : StdString} (hstart : IsNumeral start)
    (hlength : IsNumeral length) (hstartValue : digitsValue start < 2 ^ 31)
    (hlengthValue : digitsValue length < 2 ^ 31) (orderSign : StdString) :
    parseBitInfo (start ++ '|' :: (length ++ '@' :: orderSign)) =
      some (((digitsValue start : Int), (digitsValue length : Int)), orderSign) := by
  have hpipe : find (start ++ '|' :: (length ++ '@' :: orderSign)) '|' = some start.length :=
    find_append (not_mem_digits hstart (by decide))
  have hsplit : start ++ '|' :: (length ++ '@' :: orderSign) =
      (start ++ '|' :: length) ++ '@' :: orderSign := by
    rw [List.append_assoc, List.cons_append]
  have hpos : (start ++ '|' :: length).length = start.length + 1 + length.length := by
    rw [List.length_append, List.length_cons]
    omega
  have hat : find (start ++ '|' :: (length ++ '@' :: orderSign)) '@' =
      some (start.length + 1 + length.length) := by
    have hfront : '@' ∉ start ++ '|' :: length := by
      rw [List.mem_append, List.mem_cons]
      rintro (hmem | heq | hmem)
      · exact not_mem_digits hstart (by decide) hmem
      · exact absurd heq (by decide)
      · exact not_mem_digits hlength (by decide) hmem
    rw [hsplit, find_append hfront, hpos]
  have hfirst : substr (start ++ '|' :: (length ++ '@' :: orderSign)) 0 start.length = start :=
    substr_append_left _ _
  have hsecond : substr (start ++ '|' :: (length ++ '@' :: orderSign)) (start.length + 1)
      length.length = length := by
    rw [substr_append_cons, List.take_left]
  have horder : ∀ count, orderSign.length ≤ count →
      substr (start ++ '|' :: (length ++ '@' :: orderSign)) (start.length + 1 + length.length + 1)
        count = orderSign := by
    intro count hcount
    rw [hsplit, ← hpos, substr_append_cons, List.take_of_length_le hcount]
  have hbehind : orderSign.length ≤ (start ++ '|' :: (length ++ '@' :: orderSign)).length := by
    rw [hsplit, List.length_append, List.length_cons]
    omega
  rw [parseBitInfo, hpipe, hat]
  simp only [Option.bind_eq_bind, Option.bind_some, sizeSub_cancel, hfirst, hsecond,
    horder _ hbehind, stoi_numeral hstart hstartValue, stoi_numeral hlength hlengthValue]
  rfl

namespace SignalText

variable (signal : SignalText stod)

theorem isWord_bitInfo : IsWord signal.bitInfo := by
  refine isWord_append signal.start.isNumeral.isWord (isWord_cons (by decide) ?_).noSpace
  refine (isWord_append signal.length.isNumeral.isWord ?_).noSpace
  apply noSpace_of_all
  cases signal.isLittleEndian <;> cases signal.isSigned <;> rfl

theorem parseBitInfo_bitInfo :
    parseBitInfo signal.bitInfo =
      some (((signal.start.value : Int), (signal.length.value : Int)),
        [if signal.isLittleEndian then '1' else '0', if signal.isSigned then '-' else '+']) := by
  have hbyte : ∀ numeral : Numeral 256, digitsValue numeral.digits < 2 ^ 31 :=
    fun numeral => Nat.lt_trans numeral.lt_bound (by decide)
  exact parseBitInfo_append signal.start.isNumeral signal.length.isNumeral (hbyte _) (hbyte _) _

theorem isWord_scaleInfo : IsWord signal.scaleInfo :=
  isWord_pair (by decide) (by decide) (by decide) signal.scale signal.offset

theorem isWord_rangeInfo : IsWord signal.rangeInfo :=
  isWord_pair (by decide) (by decide) (by decide) signal.min signal.max

theorem isWord_quotedUnit : IsWord signal.quotedUnit := by
  apply isWord_cons (by decide)
  simp only [List.forall_mem_append, List.forall_mem_cons]
  exact ⟨signal.unit_noSpace, by decide, by simp⟩

theorem extractTokens_text :
    extractTokens signal.text = some
      { tag := signalTag, name := signal.name.text, colon := [':'], bitInfo := signal.bitInfo
        scaleInfo := signal.scaleInfo, rangeInfo := signal.rangeInfo
        unit := signal.quotedUnit } := by
  have hnext : ∀ {word rest : StdString}, IsWord word →
      extractWord (' ' :: (word ++ ' ' :: rest)) = some (word, ' ' :: rest) := by
    intro word rest hword
    rw [extractWord_cons_space, extractWord_append hword (endsWord_space rest)]
  have hcolon : IsWord [':'] := ⟨by decide, noSpace_of_all (by decide)⟩
  unfold extractTokens text
  rw [extractWord_append isWord_signalTag (endsWord_space _), Option.bind_eq_bind, Option.bind_some]
  dsimp only
  rw [hnext signal.name.isWord, Option.bind_some]
  dsimp only
  rw [hnext hcolon, Option.bind_some]
  dsimp only
  rw [hnext signal.isWord_bitInfo, Option.bind_some]
  dsimp only
  rw [hnext signal.isWord_scaleInfo, Option.bind_some]
  dsimp only
  rw [hnext signal.isWord_rangeInfo, Option.bind_some]
  dsimp only
  rw [hnext signal.isWord_quotedUnit]
  rfl

end SignalText

/-- The two numbers of a pair are read back. -/
theorem parsePair_text {opening separator closing : Char} {first second : RealText stod}
    (hseparator : separator ∉ first.text) :
    parsePair stod opening separator closing
        (opening :: (first.text ++ separator :: (second.text ++ [closing]))) =
      some (first.value, second.value) := by
  have hstrip : popBack closing (popFront opening
      (opening :: (first.text ++ separator :: (second.text ++ [closing])))) =
        first.text ++ separator :: second.text := by
    have hback := popBack_append closing (first.text ++ separator :: second.text)
    rw [List.append_assoc, List.cons_append] at hback
    rw [popFront, List.head?_cons, if_pos rfl, substr, List.drop_one, List.tail_cons,
      List.take_of_length_le (by simp), hback]
  rw [parsePair]
  simp only [hstrip, find_append hseparator, Option.bind_eq_bind, Option.bind_some,
    substr_append_left, substr_append_cons, first.reads]
  rw [List.take_of_length_le (by simp; omega), second.reads]
  rfl

theorem unquote_quoted (unit : StdString) : unquote ('"' :: (unit ++ ['"'])) = unit := by
  have hquoted : ('"' :: (unit ++ ['"'])).length ≥ 2 ∧ ('"' :: (unit ++ ['"'])).head? = some '"' ∧
      ('"' :: (unit ++ ['"'])).getLast? = some '"' := by
    simp [List.getLast?_cons]
  rw [unquote, if_pos hquoted, substr]
  simp

theorem unquote_quotedUnit (signal : SignalText stod) :
    unquote signal.quotedUnit = signal.unit := unquote_quoted signal.unit

theorem parseSignalLine_text (signal : SignalText stod) :
    parseSignalLine stod signal.text = some signal.signal := by
  have hcomma : ',' ∉ signal.scale.text := fun hmem => (signal.scale.plain _ hmem).2.1 rfl
  have hpipe : '|' ∉ signal.min.text := fun hmem => (signal.min.plain _ hmem).2.2 rfl
  have hscale : parsePair stod '(' ',' ')' signal.scaleInfo =
      some (signal.scale.value, signal.offset.value) := parsePair_text hcomma
  have hrange : parsePair stod '[' '|' ']' signal.rangeInfo =
      some (signal.min.value, signal.max.value) := parsePair_text hpipe
  rw [parseSignalLine, signal.extractTokens_text]
  simp only [signal.parseBitInfo_bitInfo, hscale, hrange, unquote_quotedUnit, ofInt_natCast,
    Option.bind_eq_bind, Option.bind_some, ne_eq, not_true, if_false]
  obtain ⟨name, start, length, isLittleEndian, isSigned⟩ := signal
  cases isLittleEndian <;> cases isSigned <;> rfl

example : parseSignalLine some
    "SG_ EngineTemp : 16|8@1+ (0.75,-40) [-40|148.75] \"degC\" Vector__XXX".toList =
      some ⟨"EngineTemp".toList, 16, 8, false, true, "0.75".toList, "-40".toList, "-40".toList,
        "148.75".toList, "degC".toList⟩ := by decide

end AutomotiveGateway.Can
