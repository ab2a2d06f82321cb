import AutomotiveGateway.Can.DbcText

/-!
# What an accepted signal line says

A number of the bit info is cut to eight bits, text behind a number is passed over, and a
unit ends at its first space. So not every accepted line says the signal it stands for.
-/

namespace AutomotiveGateway.Can

open StdString

variable {D : Type}

/-! ## The syntax of the fields -/

/-- `<digits>|<digits>@<0 or 1><+ or ->` -/
structure BitText where
  start : StdString
  length : StdString
  isStart : IsNumeral start
  isLength : IsNumeral length
  isLittleEndian : Bool
  isSigned : Bool

def BitText.text (bits : BitText) : StdString :=
  bits.start ++ '|' :: (bits.length ++ ['@', if bits.isLittleEndian then '1' else '0',
    if bits.isSigned then '-' else '+'])

/-- A bit info of the right shape, with the values of the signal. -/
def BitsDenote (bitInfo : StdString) (sig : SignalDef D) : Prop :=
  ∃ bits : BitText, bitInfo = bits.text ∧
    sig.startBit.toNat = digitsValue bits.start ∧ sig.length.toNat = digitsValue bits.length ∧
    sig.isLittleEndian = bits.isLittleEndian ∧ sig.isSigned = bits.isSigned

/-- What follows the first `n` words of a line. -/
def behindWords : Nat → StdString → StdString
  | 0, s => s
  | n + 1, s => behindWords n ((s.dropWhile isSpace).dropWhile fun c => ! isSpace c)

/-- The field starts with a text between two double quotes. -/
def QuotedText (field unit : StdString) : Prop :=
  ∃ gap behind, field = gap ++ '"' :: (unit ++ '"' :: behind) ∧
    (∀ c ∈ gap, isSpace c = true) ∧ '"' ∉ unit

/-- The bit info and the unit of a line are those of the signal. -/
def Denotes (line : StdString) (sig : SignalDef D) : Prop :=
  ∃ tokens, extractTokens line = some tokens ∧ BitsDenote tokens.bitInfo sig ∧
    QuotedText (behindWords 6 line) sig.unit

/-- An accepted line says its signal; every other line is rejected and changes nothing. -/
structure SignalLineSound (stod : StdString → Option D) (line : StdString) : Prop where
  accepted : ∀ sig, parseSignalLine stod line = some sig → Denotes line sig
  rejected : (∀ sig : SignalDef D, ¬ Denotes line sig) → parseSignalLine stod line = none
  unchanged : parseSignalLine stod line = none →
    ∀ state whole, taggedLine signalTag whole = true → trim (popBack '\r' whole) = line →
      parseLine stod state whole = (state, none)

/-! ## Readable lines -/

/-- There are a `|` and an `@`, and `std::stoi` reads the texts between them. -/
def ReadableBits (bitInfo : StdString) : Prop :=
  ∃ pipePos atPos, find bitInfo '|' = some pipePos ∧ find bitInfo '@' = some atPos ∧
    (stoi (substr bitInfo 0 pipePos)).isSome ∧
    (stoi (substr bitInfo (pipePos + 1) (sizeSub (sizeSub atPos pipePos) 1))).isSome

/-- There is a separator, and `std::stod` reads the texts around it. -/
def ReadablePair (stod : StdString → Option D) (opening separator closing : Char)
    (info : StdString) : Prop :=
  ∃ pos, find (popBack closing (popFront opening info)) separator = some pos ∧
    (stod (substr (popBack closing (popFront opening info)) 0 pos)).isSome ∧
    (stod (substr (popBack closing (popFront opening info)) (pos + 1)
      (popBack closing (popFront opening info)).length)).isSome

structure SignalTokens.Readable (stod : StdString → Option D) (tokens : SignalTokens) : Prop where
  tag : tokens.tag = signalTag
  bitInfo : ReadableBits tokens.bitInfo
  scaleInfo : ReadablePair stod '(' ',' ')' tokens.scaleInfo
  rangeInfo : ReadablePair stod '[' '|' ']' tokens.rangeInfo

/-- The bit info has the right shape and its numbers fit a byte, and the last word is a
quoted text. -/
structure SignalTokens.WellFormed (tokens : SignalTokens) : Prop where
  bitInfo : ∃ bits : BitText, tokens.bitInfo = bits.text ∧ digitsValue bits.start < 256 ∧
    digitsValue bits.length < 256
  unit : ∃ unit, tokens.unit = '"' :: (unit ++ ['"']) ∧ '"' ∉ unit

variable {stod : StdString → Option D}

theorem readableBits_iff {bitInfo : StdString} :
    ReadableBits bitInfo ↔ ∃ parsed, parseBitInfo bitInfo = some parsed := by
  constructor
  · rintro ⟨pipePos, atPos, hpipe, hat, hstart, hlength⟩
    obtain ⟨start, hstart⟩ := Option.isSome_iff_exists.mp hstart
    obtain ⟨length, hlength⟩ := Option.isSome_iff_exists.mp hlength
    refine ⟨((start, length), substr bitInfo (atPos + 1) bitInfo.length), ?_⟩
    rw [parseBitInfo, hpipe, hat]
    simp only [Option.bind_eq_bind, Option.bind_some, hstart, hlength]
    rfl
  · rintro ⟨parsed, hparsed⟩
    simp only [parseBitInfo, Option.bind_eq_bind, Option.bind_eq_some_iff] at hparsed
    obtain ⟨pipePos, hpipe, atPos, hat, start, hstart, length, hlength, _⟩ := hparsed
    exact ⟨pipePos, atPos, hpipe, hat, Option.isSome_of_eq_some hstart,
      Option.isSome_of_eq_some hlength⟩

theorem readablePair_iff {opening separator closing : Char} {info : StdString} :
    ReadablePair stod opening separator closing info ↔
      ∃ parsed, parsePair stod opening separator closing info = some parsed := by
  constructor
  · rintro ⟨pos, hpos, hfirst, hsecond⟩
    obtain ⟨first, hfirst⟩ := Option.isSome_iff_exists.mp hfirst
    obtain ⟨second, hsecond⟩ := Option.isSome_iff_exists.mp hsecond
    refine ⟨(first, second), ?_⟩
    rw [parsePair, hpos]
    simp only [Option.bind_eq_bind, Option.bind_some, hfirst, hsecond]
    rfl
  · rintro ⟨parsed, hparsed⟩
    simp only [parsePair, Option.bind_eq_bind, Option.bind_eq_some_iff] at hparsed
    obtain ⟨pos, hpos, first, hfirst, second, hsecond, _⟩ := hparsed
    exact ⟨pos, hpos, Option.isSome_of_eq_some hfirst, Option.isSome_of_eq_some hsecond⟩

/-! ## The parser -/

/-- The line of an accepted signal is readable, and the signal has what was read. -/
theorem parseSignalLine_cases {line : StdString} {sig : SignalDef D}
    (haccepted : parseSignalLine stod line = some sig) :
    ∃ tokens startBit length orderSign, extractTokens line = some tokens ∧
      tokens.Readable stod ∧
      parseBitInfo tokens.bitInfo = some ((startBit, length), orderSign) ∧
      sig.startBit = .ofInt startBit ∧ sig.length = .ofInt length ∧
      sig.isLittleEndian = decide (orderSign[0]? = some '1') ∧
      sig.isSigned = decide (orderSign[1]? = some '-') ∧ sig.unit = unquote tokens.unit := by
  simp only [parseSignalLine, Option.bind_eq_bind, Option.bind_eq_some_iff] at haccepted
  obtain ⟨tokens, htokens, haccepted⟩ := haccepted
  split at haccepted
  next => cases haccepted
  next htag =>
    simp only [Option.bind_eq_some_iff] at haccepted
    obtain ⟨⟨⟨startBit, length⟩, orderSign⟩, hbits, scale, hscale, range, hrange, hreturn⟩ :=
      haccepted
    cases hreturn
    exact ⟨tokens, startBit, length, orderSign, htokens,
      ⟨not_not.mp htag, readableBits_iff.mpr ⟨_, hbits⟩, readablePair_iff.mpr ⟨_, hscale⟩,
        readablePair_iff.mpr ⟨_, hrange⟩⟩, hbits, rfl, rfl, rfl, rfl, rfl⟩

/-- Readable lines are accepted. -/
theorem exists_parseSignalLine {line : StdString} {tokens : SignalTokens}
    (htokens : extractTokens line = some tokens) (hreadable : tokens.Readable stod) :
    ∃ sig, parseSignalLine stod line = some sig := by
  obtain ⟨bits, hbits⟩ := readableBits_iff.mp hreadable.bitInfo
  obtain ⟨scale, hscale⟩ := readablePair_iff.mp hreadable.scaleInfo
  obtain ⟨range, hrange⟩ := readablePair_iff.mp hreadable.rangeInfo
  rw [parseSignalLine, htokens]
  simp only [hreadable.tag, hbits, hscale, hrange, Option.bind_eq_bind, Option.bind_some, ne_eq,
    not_true, if_false]
  exact ⟨_, rfl⟩

/-- A rejected signal line changes nothing. -/
theorem parseLine_rejected {line whole : StdString} (hrejected : parseSignalLine stod line = none)
    (state : ParseState D) (htagged : taggedLine signalTag whole = true)
    (hline : trim (popBack '\r' whole) = line) : parseLine stod state whole = (state, none) := by
  have hsignal : signalOf stod whole = none := by rw [signalOf, if_pos htagged, hline, hrejected]
  rw [parseLine_eq, blankLine_of_tagged htagged, messageOf_of_tagged htagged, hsignal]
  rfl

/-! ## Units -/

theorem length_le_length_unquote (unit : StdString) :
    unit.length ≤ (unquote unit).length + 2 := by
  rw [unquote]
  split
  next => rw [substr, List.length_take, List.length_drop]; omega
  next => omega

theorem behindWords_succ {s word rest : StdString} (hword : extractWord s = some (word, rest))
    (n : Nat) : behindWords (n + 1) s = behindWords n rest := by
  rw [behindWords, (extractWord_eq_some hword).2]

/-- The unit is the word behind the first six. -/
theorem extractTokens_unit {line : StdString} {tokens : SignalTokens}
    (htokens : extractTokens line = some tokens) :
    ∃ rest, extractWord (behindWords 6 line) = some (tokens.unit, rest) := by
  simp only [extractTokens, Option.bind_eq_bind, Option.bind_eq_some_iff] at htokens
  obtain ⟨⟨tag, ss⟩, htag, ⟨name, ss⟩, hname, ⟨colon, ss⟩, hcolon, ⟨bitInfo, ss⟩, hbits,
    ⟨scaleInfo, ss⟩, hscale, ⟨rangeInfo, ss⟩, hrange, ⟨unit, rest⟩, hunit, hreturn⟩ := htokens
  cases hreturn
  refine ⟨rest, ?_⟩
  rw [behindWords_succ htag, behindWords_succ hname, behindWords_succ hcolon,
    behindWords_succ hbits, behindWords_succ hscale, behindWords_succ hrange]
  exact hunit

/-- A word is what the field starts with, behind whitespace. -/
theorem exists_field_eq {field word rest : StdString}
    (hword : extractWord field = some (word, rest)) :
    ∃ gap, field = gap ++ (word ++ rest) ∧ ∀ c ∈ gap, isSpace c = true := by
  obtain ⟨htake, hdrop⟩ := extractWord_eq_some hword
  refine ⟨field.takeWhile isSpace, ?_, fun c hc => List.mem_takeWhile_imp hc⟩
  rw [htake, hdrop, List.takeWhile_append_dropWhile, List.takeWhile_append_dropWhile]

/-- The unit of a signal is the quoted text of its field just if the word is quoted. -/
theorem quotedText_unquote_iff {field word rest : StdString}
    (hword : extractWord field = some (word, rest)) :
    QuotedText field (unquote word) ↔ ∃ unit, word = '"' :: (unit ++ ['"']) ∧ '"' ∉ unit := by
  constructor
  · rintro ⟨gap, behind, hfield, hgap, hquote⟩
    have hskip : field.dropWhile isSpace = '"' :: (unquote word ++ '"' :: behind) := by
      rw [hfield, List.dropWhile_append_of_pos hgap, List.dropWhile_cons_of_neg (by decide)]
    have htake := (extractWord_eq_some hword).1
    rw [hskip, List.takeWhile_cons_of_pos (by decide), List.takeWhile_append] at htake
    split at htake
    next =>
      -- The word goes on to the second quote, and only the quotes have been removed.
      rw [List.takeWhile_cons_of_pos (by decide)] at htake
      have hremoved := length_le_length_unquote word
      have hlength := congrArg List.length htake
      simp only [List.length_cons, List.length_append] at hlength
      have hbehind : behind.takeWhile (fun c => ! isSpace c) = [] := by
        apply List.eq_nil_of_length_eq_zero
        omega
      rw [hbehind] at htake
      exact ⟨unquote word, htake, hquote⟩
    next =>
      -- A space ends the word in front of the second quote, so nothing has been removed.
      have hunquote : unquote word = word := by
        refine if_neg fun hquoted => hquote ?_
        obtain ⟨c, more, hmore⟩ : ∃ c more,
            (unquote word).takeWhile (fun c => ! isSpace c) = c :: more := by
          apply List.exists_cons_of_ne_nil
          intro hnil
          rw [htake, hnil] at hquoted
          exact absurd hquoted.1 (by decide)
        rw [htake, hmore, List.getLast?_cons_cons, ← hmore] at hquoted
        exact List.takeWhile_subset _ (List.mem_of_getLast? hquoted.2.2)
      rw [hunquote] at hquote
      rw [htake] at hquote
      exact absurd List.mem_cons_self hquote
  · rintro ⟨unit, rfl, hquote⟩
    obtain ⟨gap, hfield, hgap⟩ := exists_field_eq hword
    refine ⟨gap, rest, ?_, hgap, by rwa [unquote_quoted]⟩
    rw [hfield, unquote_quoted]
    simp

/-! ## Soundness -/

theorem text_eq (bits : BitText) :
    bits.text = bits.start ++ '|' :: (bits.length ++ '@' ::
      [if bits.isLittleEndian then '1' else '0', if bits.isSigned then '-' else '+']) := rfl

/-- An accepted line says its signal if its fields are well formed. -/
theorem denotes_of_wellFormed {line : StdString} {sig : SignalDef D}
    (haccepted : parseSignalLine stod line = some sig)
    (hwellFormed : ∀ tokens, extractTokens line = some tokens → tokens.Readable stod →
      tokens.WellFormed) : Denotes line sig := by
  obtain ⟨tokens, startBit, length, orderSign, htokens, hreadable, hparse, hstart, hlength, horder,
    hsign, hunit⟩ := parseSignalLine_cases haccepted
  obtain ⟨⟨bits, hbits, hstartFits, hlengthFits⟩, hquoted⟩ := hwellFormed tokens htokens hreadable
  refine ⟨tokens, htokens, ⟨bits, hbits, ?_⟩, ?_⟩
  · have hread := parseBitInfo_append bits.isStart bits.isLength
      (Nat.lt_trans hstartFits (by decide)) (Nat.lt_trans hlengthFits (by decide))
      [if bits.isLittleEndian then '1' else '0', if bits.isSigned then '-' else '+']
    rw [← text_eq, ← hbits, hparse] at hread
    cases hread
    rw [ofInt_natCast] at hstart hlength
    rw [hstart, hlength, horder, hsign]
    refine ⟨UInt8.toNat_ofNat_of_lt' hstartFits, UInt8.toNat_ofNat_of_lt' hlengthFits, ?_, ?_⟩
    · cases bits.isLittleEndian <;> rfl
    · cases bits.isSigned <;> rfl
  · obtain ⟨rest, hword⟩ := extractTokens_unit htokens
    rw [hunit]
    exact (quotedText_unquote_iff hword).mpr hquoted

/-- The fields of a readable line are well formed if the line says its signal. -/
theorem wellFormed_of_denotes {line : StdString} {tokens : SignalTokens}
    (hdenotes : ∀ sig, parseSignalLine stod line = some sig → Denotes line sig)
    (htokens : extractTokens line = some tokens) (hreadable : tokens.Readable stod) :
    tokens.WellFormed := by
  obtain ⟨sig, haccepted⟩ := exists_parseSignalLine htokens hreadable
  obtain ⟨read, _, _, _, hread, _, _, _, _, _, _, hunit⟩ := parseSignalLine_cases haccepted
  obtain ⟨denoted, hdenoted, ⟨bits, hbits, hstart, hlength, _, _⟩, hquoted⟩ :=
    hdenotes sig haccepted
  rw [htokens] at hread hdenoted
  cases hread
  cases hdenoted
  obtain ⟨rest, hword⟩ := extractTokens_unit htokens
  rw [hunit] at hquoted
  refine ⟨⟨bits, hbits, ?_, ?_⟩, (quotedText_unquote_iff hword).mp hquoted⟩
  · exact hstart ▸ sig.startBit.toNat_lt
  · exact hlength ▸ sig.length.toNat_lt

theorem signalLineSound_of_wellFormed {line : StdString}
    (hwellFormed : ∀ tokens, extractTokens line = some tokens → tokens.Readable stod →
      tokens.WellFormed) : SignalLineSound stod line := by
  refine ⟨fun sig haccepted => denotes_of_wellFormed haccepted hwellFormed, ?_, ?_⟩
  · intro hnone
    rw [Option.eq_none_iff_forall_ne_some]
    exact fun sig haccepted => hnone sig (denotes_of_wellFormed haccepted hwellFormed)
  · exact fun hrejected state whole => parseLine_rejected hrejected state

/-- Printed lines mean what they say. -/
theorem signalLineSound_text (signal : SignalText stod) (hunit : '"' ∉ signal.unit) :
    SignalLineSound stod signal.text := by
  apply signalLineSound_of_wellFormed
  intro tokens htokens _
  rw [signal.extractTokens_text] at htokens
  cases htokens
  refine ⟨⟨⟨signal.start.digits, signal.length.digits, signal.start.isNumeral,
    signal.length.isNumeral, signal.isLittleEndian, signal.isSigned⟩, rfl, ?_, ?_⟩, ?_⟩
  · exact signal.start.lt_bound
  · exact signal.length.lt_bound
  · exact ⟨signal.unit, rfl, hunit⟩

/-- A signal line means what it says just if its fields are well formed, or cannot be read. -/
theorem signalLineSound_iff (line : StdString) :
    SignalLineSound stod line ↔
      ∀ tokens, extractTokens line = some tokens → tokens.Readable stod → tokens.WellFormed := by
  constructor
  · exact fun hsound tokens => wellFormed_of_denotes hsound.accepted
  · exact signalLineSound_of_wellFormed

/-- A start bit of 300 is accepted as 44. -/
theorem not_signalLineSound_wide :
    ¬ SignalLineSound some "SG_ EngineRPM : 300|8@1+ (1,0) [0|255] \"rpm\" V".toList := by
  intro hsound
  have hparse : parseSignalLine some "SG_ EngineRPM : 300|8@1+ (1,0) [0|255] \"rpm\" V".toList =
      some ⟨"EngineRPM".toList, 44, 8, false, true, "1".toList, "0".toList, "0".toList,
        "255".toList, "rpm".toList⟩ := by decide
  have htokens : (extractTokens "SG_ EngineRPM : 300|8@1+ (1,0) [0|255] \"rpm\" V".toList).map
      SignalTokens.bitInfo = some "300|8@1+".toList := by decide
  obtain ⟨tokens, hdenoted, ⟨bits, hbits, hstart, hlength, _, _⟩, _⟩ := hsound.accepted _ hparse
  rw [hdenoted] at htokens
  have hread := parseBitInfo_append bits.isStart bits.isLength (hstart ▸ by decide)
    (hlength ▸ by decide) [if bits.isLittleEndian then '1' else '0',
      if bits.isSigned then '-' else '+']
  rw [← text_eq, ← hbits, ← hstart, ← hlength, Option.some.inj htokens] at hread
  have hwritten : (parseBitInfo "300|8@1+".toList).map (fun parsed => parsed.1.1) = some 300 := by
    decide
  rw [hread, Option.map_some, Option.some.injEq] at hwritten
  have hnarrowed : (44 : Int) = 300 := hwritten
  exact absurd hnarrowed (by decide)

example : (parseSignalLine some
    "SG_ Speed : 0@1+|16 (1,0) [0|255] \"km per h\" V".toList).map
      (fun sig => (sig.startBit, sig.length, sig.unit)) = some (0, 16, "\"km".toList) := by decide

end AutomotiveGateway.Can
