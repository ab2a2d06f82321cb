import Mathlib.Algebra.Group.Nat.Defs
import Mathlib.Data.List.Basic
import Mathlib.Data.List.TakeWhile
import Mathlib.Tactic.Common

/-!
# Strings of the C++ standard library

Strings, lines of a text, and the extraction of words and numbers from a stream, in
the default locale. What is left of a stream is the rest of its characters.
-/

/-- `std::string`, one character a byte. -/
abbrev StdString := List Char

namespace StdString

/-- `find`; `npos` is `none`. -/
def find (s : StdString) (c : Char) : Option Nat := s.findIdx? (· = c)

/-- `substr` from a position inside the string, clamped to its end. -/
def substr (s : StdString) (pos count : Nat) : StdString := (s.drop pos).take count

/-- The difference of two 64-bit `size_t` values. -/
def sizeSub (a b : Nat) : Nat := if b ≤ a then a - b else a + 2 ^ 64 - b

/-- The lines `std::getline` reads from a text one after the other. -/
def lines : StdString → List StdString
  | [] => []
  | c :: text =>
      if c = '\n' then [] :: lines text
      else
        match lines text with
        | [] => [[c]]
        | line :: rest => (c :: line) :: rest

/-- `std::isspace` -/
def isSpace (c : Char) : Bool := c ∈ [' ', '\t', '\n', '\x0b', '\x0c', '\r']

/-- `>>` into a `std::string`. -/
def extractWord (input : StdString) : Option (StdString × StdString) :=
  let input := input.dropWhile isSpace
  let word := input.takeWhile (fun c => ! isSpace c)
  if word = [] then none else some (word, input.dropWhile (fun c => ! isSpace c))

/-- The value of decimal digits. -/
def digitsValue (digits : StdString) : Nat :=
  digits.foldl (fun value c => 10 * value + (c.toNat - '0'.toNat)) 0

/-- Whether there is a minus sign, and what is behind the sign. -/
def takeSign : StdString → Bool × StdString
  | '-' :: input => (true, input)
  | '+' :: input => (false, input)
  | input => (false, input)

/-- The sign and the magnitude of a decimal number, and the rest of the stream. -/
def extractNumber (input : StdString) : Option ((Bool × Nat) × StdString) :=
  let (negative, input) := takeSign (input.dropWhile isSpace)
  let digits := input.takeWhile Char.isDigit
  if digits = [] then none
  else some ((negative, digitsValue digits), input.dropWhile Char.isDigit)

/-- `>>` into a `uint32_t`. A minus sign negates the value modulo `2 ^ 32`. -/
def extractUInt32 (input : StdString) : Option (UInt32 × StdString) := do
  let ((negative, magnitude), rest) ← extractNumber input
  if magnitude < 2 ^ 32 then
    return (if negative then - UInt32.ofNat magnitude else UInt32.ofNat magnitude, rest)
  else none

/-- `>>` into an `int`. -/
def extractInt (input : StdString) : Option (Int × StdString) := do
  let ((negative, magnitude), rest) ← extractNumber input
  let value : Int := if negative then - magnitude else magnitude
  if -2147483648 ≤ value ∧ value ≤ 2147483647 then return (value, rest) else none

/-- `std::stoi`; a thrown exception is `none`. -/
def stoi (s : StdString) : Option Int := (extractInt s).map Prod.fst

/-- `std::isxdigit` -/
def isHexDigit (c : Char) : Bool :=
  c.isDigit || ('a' ≤ c && c ≤ 'f') || ('A' ≤ c && c ≤ 'F')

def hexDigitValue (c : Char) : Nat :=
  if c.isDigit then c.toNat - '0'.toNat
  else if 'a' ≤ c then c.toNat - 'a'.toNat + 10
  else c.toNat - 'A'.toNat + 10

/-- The value of hexadecimal digits. -/
def hexValue (digits : StdString) : Nat :=
  digits.foldl (fun value c => 16 * value + hexDigitValue c) 0

/-- A `0x` in front of a digit is skipped. -/
def skipHexMark : StdString → StdString
  | '0' :: x :: c :: input =>
      if (x = 'x' ∨ x = 'X') ∧ isHexDigit c then c :: input else '0' :: x :: c :: input
  | input => input

/-- `std::stoul(s, nullptr, 16)`, where `unsigned long` has `longBits` bits; a thrown
exception is `none`. A minus sign negates the value modulo `2 ^ longBits`. -/
def stoul16 (longBits : Nat) (s : StdString) : Option Nat :=
  let (negative, input) := takeSign (s.dropWhile isSpace)
  let digits := (skipHexMark input).takeWhile isHexDigit
  if digits = [] then none
  else if hexValue digits < 2 ^ longBits then
    some (if negative then (2 ^ longBits - hexValue digits) % 2 ^ longBits else hexValue digits)
  else none

/-- The words of a text, between its whitespace. -/
def words (s : StdString) : List StdString := (s.splitOnP isSpace).filter (· ≠ [])

/-! ## Searching -/

/-- Nothing is taken and nothing dropped in front of a character that stops the scan. -/
theorem scan_of_head {p : Char → Bool} {rest : StdString} (hrest : ∀ c ∈ rest.head?, p c = false) :
    rest.takeWhile p = [] ∧ rest.dropWhile p = rest := by
  cases rest with
  | nil => exact ⟨rfl, rfl⟩
  | cons c rest =>
      have hc := hrest c rfl
      rw [List.takeWhile_cons_of_neg (by simp [hc]), List.dropWhile_cons_of_neg (by simp [hc])]
      exact ⟨rfl, rfl⟩

/-- A scan stops behind the characters it accepts. -/
theorem scan_append {p : Char → Bool} {front rest : StdString} (hfront : ∀ c ∈ front, p c = true)
    (hrest : ∀ c ∈ rest.head?, p c = false) :
    (front ++ rest).takeWhile p = front ∧ (front ++ rest).dropWhile p = rest := by
  rw [List.takeWhile_append_of_pos hfront, List.dropWhile_append_of_pos hfront,
    (scan_of_head hrest).1, (scan_of_head hrest).2, List.append_nil]
  exact ⟨rfl, rfl⟩

theorem find_append {front rest : StdString} {c : Char} (hfront : c ∉ front) :
    find (front ++ c :: rest) c = some front.length := by
  induction front with
  | nil => simp [find, List.findIdx?_cons]
  | cons head front ih =>
      have hhead : head ≠ c := fun heq => hfront (heq ▸ List.mem_cons_self)
      have hrest := ih (fun hmem => hfront (List.mem_cons_of_mem _ hmem))
      unfold find at hrest ⊢
      rw [List.cons_append, List.findIdx?_cons, if_neg (by simpa using hhead), hrest]
      rfl

theorem substr_append_left (front rest : StdString) :
    substr (front ++ rest) 0 front.length = front := by
  simp [substr]

theorem substr_append_cons (front rest : StdString) (c : Char) (count : Nat) :
    substr (front ++ c :: rest) (front.length + 1) count = rest.take count := by
  simp [substr]

theorem sizeSub_cancel (a b : Nat) : sizeSub (sizeSub (a + 1 + b) a) 1 = b := by
  have hfirst : sizeSub (a + 1 + b) a = 1 + b := by
    rw [sizeSub, if_pos (by omega)]
    omega
  rw [hfirst, sizeSub, if_pos (by omega), Nat.add_sub_cancel_left]

/-! ## Lines -/

theorem lines_append {line : StdString} (hline : '\n' ∉ line) (text : StdString) :
    lines (line ++ '\n' :: text) = line :: lines text := by
  induction line with
  | nil => simp [lines]
  | cons c line ih =>
      have hc : c ≠ '\n' := fun heq => hline (heq ▸ List.mem_cons_self)
      have hrest := ih (fun hmem => hline (List.mem_cons_of_mem _ hmem))
      rw [List.cons_append, lines, if_neg hc, hrest]

/-- A text of terminated lines is read back line by line. -/
theorem lines_flatMap {texts : List StdString} (htexts : ∀ line ∈ texts, '\n' ∉ line) :
    lines (texts.flatMap fun line => line ++ ['\n']) = texts := by
  induction texts with
  | nil => rfl
  | cons line texts ih =>
      have hline := htexts line List.mem_cons_self
      have hrest := ih (fun other hmem => htexts other (List.mem_cons_of_mem _ hmem))
      rw [List.flatMap_cons, List.append_assoc, List.singleton_append, lines_append hline, hrest]

/-! ## Words -/

/-- A non-empty word without whitespace. -/
structure IsWord (word : StdString) : Prop where
  nonempty : word ≠ []
  noSpace : ∀ c ∈ word, isSpace c = false

theorem noSpace_of_all {s : StdString} (hall : (s.all fun c => ! isSpace c) = true) :
    ∀ c ∈ s, isSpace c = false := by
  intro c hc
  simpa using List.all_eq_true.mp hall c hc

/-- A stream at whose front a word ends. -/
def EndsWord (rest : StdString) : Prop := ∀ c ∈ rest.head?, isSpace c = true

theorem endsWord_nil : EndsWord [] := by
  intro c hc
  cases hc

theorem endsWord_cons {c : Char} (hc : isSpace c = true) (rest : StdString) :
    EndsWord (c :: rest) := by
  intro head hhead
  cases hhead
  exact hc

@[simp] theorem extractWord_cons_space (input : StdString) :
    extractWord (' ' :: input) = extractWord input := by
  rw [extractWord, List.dropWhile_cons_of_pos (by decide)]
  rfl

@[simp] theorem extractNumber_cons_space (input : StdString) :
    extractNumber (' ' :: input) = extractNumber input := by
  rw [extractNumber, List.dropWhile_cons_of_pos (by decide)]
  rfl

@[simp] theorem extractUInt32_cons_space (input : StdString) :
    extractUInt32 (' ' :: input) = extractUInt32 input := by
  rw [extractUInt32, extractNumber_cons_space]
  rfl

@[simp] theorem extractInt_cons_space (input : StdString) :
    extractInt (' ' :: input) = extractInt input := by
  rw [extractInt, extractNumber_cons_space]
  rfl

/-- A stream that starts with a word has no whitespace to skip. -/
theorem IsWord.dropWhile_isSpace {word : StdString} (hword : IsWord word) (rest : StdString) :
    (word ++ rest).dropWhile isSpace = word ++ rest := by
  cases word with
  | nil => exact absurd rfl hword.nonempty
  | cons c word =>
      have hc := hword.noSpace c List.mem_cons_self
      rw [List.cons_append, List.dropWhile_cons_of_neg (by simp [hc])]

theorem extractWord_append {word rest : StdString} (hword : IsWord word) (hrest : EndsWord rest) :
    extractWord (word ++ rest) = some (word, rest) := by
  obtain ⟨htake, hdrop⟩ := @scan_append (fun c => ! isSpace c) word rest
    (fun c hc => by simp [hword.noSpace c hc]) (fun c hc => by simp [hrest c hc])
  simp only [extractWord, hword.dropWhile_isSpace rest, htake, hdrop, if_neg hword.nonempty]

theorem words_append_cons {c : Char} (hc : isSpace c = true) (s rest : StdString) :
    words (s ++ c :: rest) = words s ++ words rest := by
  rw [words, List.splitOnP_append_cons s rest hc, List.filter_append]
  rfl

theorem words_of_isWord {word : StdString} (hword : IsWord word) : words word = [word] := by
  rw [words, List.splitOnP_eq_singleton hword.noSpace,
    List.filter_cons_of_pos (by simpa using hword.nonempty), List.filter_nil]

/-- Whitespace in front of a text changes no word. -/
theorem words_space {gap : StdString} (hgap : ∀ c ∈ gap, isSpace c = true) (rest : StdString) :
    words (gap ++ rest) = words rest := by
  induction gap with
  | nil => rfl
  | cons c gap ih =>
      have hrest := ih (fun other hmem => hgap other (List.mem_cons_of_mem _ hmem))
      have hc := words_append_cons (hgap c List.mem_cons_self) [] (gap ++ rest)
      exact hc.trans hrest

/-- Whitespace behind a text changes no word. -/
theorem words_append_space (s : StdString) {gap : StdString}
    (hgap : ∀ c ∈ gap, isSpace c = true) : words (s ++ gap) = words s := by
  cases gap with
  | nil => rw [List.append_nil]
  | cons c gap =>
      have hnone : words gap = [] := by
        have hspace := words_space (fun other hmem => hgap other (List.mem_cons_of_mem _ hmem)) []
        rwa [List.append_nil] at hspace
      rw [words_append_cons (hgap c List.mem_cons_self), hnone, List.append_nil]

/-- A word at the front of a text. -/
theorem words_append {word rest : StdString} (hword : IsWord word) (hrest : EndsWord rest) :
    words (word ++ rest) = word :: words rest := by
  cases rest with
  | nil =>
      rw [List.append_nil]
      exact words_of_isWord hword
  | cons c rest =>
      have hc : isSpace c = true := hrest c rfl
      have hskip : words (c :: rest) = words rest := words_append_cons hc [] rest
      rw [words_append_cons hc, words_of_isWord hword, hskip]
      rfl

theorem extractWord_eq_some {s word rest : StdString} (h : extractWord s = some (word, rest)) :
    word = (s.dropWhile isSpace).takeWhile (fun c => ! isSpace c) ∧
      rest = (s.dropWhile isSpace).dropWhile fun c => ! isSpace c := by
  rw [extractWord] at h
  split at h
  next => cases h
  next =>
    cases h
    exact ⟨rfl, rfl⟩

/-- Extraction takes the first of the words. -/
theorem extractWord_cases (s : StdString) :
    (extractWord s = none ∧ words s = []) ∨
      ∃ word rest, extractWord s = some (word, rest) ∧ words s = word :: words rest := by
  have hgap : ∀ c ∈ s.takeWhile isSpace, isSpace c = true := fun c hc => List.mem_takeWhile_imp hc
  have hskip : words s = words (s.dropWhile isSpace) := by
    have hsplit := words_space hgap (s.dropWhile isSpace)
    rwa [List.takeWhile_append_dropWhile] at hsplit
  have hrest : EndsWord ((s.dropWhile isSpace).dropWhile fun c => ! isSpace c) := by
    intro c hc
    have hstop := List.head?_dropWhile_not (fun c => ! isSpace c) (s.dropWhile isSpace)
    rw [Option.mem_def.mp hc] at hstop
    simpa using hstop
  rw [hskip, extractWord]
  by_cases hword : (s.dropWhile isSpace).takeWhile (fun c => ! isSpace c) = []
  · rw [if_pos hword]
    refine .inl ⟨rfl, ?_⟩
    cases hinput : s.dropWhile isSpace with
    | nil => rfl
    | cons c input =>
        -- The scan over the whitespace has stopped here, so a word begins.
        have hc := List.head?_dropWhile_not isSpace s
        rw [hinput, List.head?_cons] at hc
        rw [hinput, List.takeWhile_cons_of_pos (by simpa using hc)] at hword
        cases hword
  · rw [if_neg hword]
    refine .inr ⟨_, _, rfl, ?_⟩
    have hplain : ∀ c ∈ (s.dropWhile isSpace).takeWhile (fun c => ! isSpace c),
        isSpace c = false := fun c hc => by simpa using List.mem_takeWhile_imp hc
    have hsplit := words_append ⟨hword, hplain⟩ hrest
    rwa [List.takeWhile_append_dropWhile] at hsplit

theorem words_of_extractWord {s word rest : StdString}
    (hword : extractWord s = some (word, rest)) : words s = word :: words rest := by
  rcases extractWord_cases s with ⟨hnone, _⟩ | ⟨first, behind, hsome, hcons⟩
  · rw [hnone] at hword
    cases hword
  · rw [hsome] at hword
    cases hword
    exact hcons

theorem exists_extractWord {s word : StdString} {more : List StdString}
    (hwords : words s = word :: more) :
    ∃ rest, extractWord s = some (word, rest) ∧ words rest = more := by
  rcases extractWord_cases s with ⟨_, hnil⟩ | ⟨first, rest, hextract, hcons⟩
  · rw [hwords] at hnil
    cases hnil
  · rw [hwords] at hcons
    obtain ⟨rfl, rfl⟩ := List.cons.inj hcons
    exact ⟨rest, hextract, rfl⟩

/-! ## Numbers -/

/-- Decimal digits, at least one. -/
structure IsNumeral (digits : StdString) : Prop where
  nonempty : digits ≠ []
  isDigit : ∀ c ∈ digits, c.isDigit = true

theorem isSpace_of_isHexDigit {c : Char} (hc : isHexDigit c = true) : isSpace c = false := by
  by_contra hspace
  rw [Bool.not_eq_false, isSpace, decide_eq_true_eq] at hspace
  simp only [List.mem_cons, List.not_mem_nil, or_false] at hspace
  rcases hspace with rfl | rfl | rfl | rfl | rfl | rfl <;> exact absurd hc (by decide)

theorem isSpace_of_isDigit {c : Char} (hc : c.isDigit = true) : isSpace c = false :=
  isSpace_of_isHexDigit (by rw [isHexDigit, hc]; rfl)

theorem IsNumeral.isWord {digits : StdString} (hdigits : IsNumeral digits) : IsWord digits where
  nonempty := hdigits.nonempty
  noSpace c hc := isSpace_of_isDigit (hdigits.isDigit c hc)

theorem takeSign_of_isHexDigit {c : Char} (hc : isHexDigit c = true) (input : StdString) :
    takeSign (c :: input) = (false, c :: input) := by
  unfold takeSign
  split
  next heq =>
    obtain ⟨rfl, _⟩ := List.cons.inj heq
    exact absurd hc (by decide)
  next heq =>
    obtain ⟨rfl, _⟩ := List.cons.inj heq
    exact absurd hc (by decide)
  next => rfl

theorem IsNumeral.takeSign {digits : StdString} (hdigits : IsNumeral digits) (rest : StdString) :
    takeSign (digits ++ rest) = (false, digits ++ rest) := by
  cases digits with
  | nil => exact absurd rfl hdigits.nonempty
  | cons c digits =>
      apply takeSign_of_isHexDigit
      rw [isHexDigit, hdigits.isDigit c List.mem_cons_self]
      rfl

/-- A stream at whose front a numeral ends. -/
def EndsNumeral (rest : StdString) : Prop := ∀ c ∈ rest.head?, c.isDigit = false

theorem extractNumber_append {digits rest : StdString} (hdigits : IsNumeral digits)
    (hrest : EndsNumeral rest) :
    extractNumber (digits ++ rest) = some ((false, digitsValue digits), rest) := by
  obtain ⟨htake, hdrop⟩ := scan_append hdigits.isDigit hrest
  simp only [extractNumber, hdigits.isWord.dropWhile_isSpace rest, hdigits.takeSign rest, htake,
    hdrop, if_neg hdigits.nonempty]

theorem extractUInt32_append {digits rest : StdString} (hdigits : IsNumeral digits)
    (hvalue : digitsValue digits < 2 ^ 32) (hrest : EndsNumeral rest) :
    extractUInt32 (digits ++ rest) = some (UInt32.ofNat (digitsValue digits), rest) := by
  simp only [extractUInt32, extractNumber_append hdigits hrest, Option.bind_eq_bind,
    Option.bind_some, if_pos hvalue, Bool.false_eq_true, if_false, Option.pure_def]

theorem extractInt_append {digits rest : StdString} (hdigits : IsNumeral digits)
    (hvalue : digitsValue digits < 2 ^ 31) (hrest : EndsNumeral rest) :
    extractInt (digits ++ rest) = some ((digitsValue digits : Int), rest) := by
  have hrange : -2147483648 ≤ (digitsValue digits : Int) ∧
      (digitsValue digits : Int) ≤ 2147483647 := by
    omega
  simp only [extractInt, extractNumber_append hdigits hrest, Option.bind_eq_bind, Option.bind_some,
    Bool.false_eq_true, if_false, if_pos hrange, Option.pure_def]

theorem stoi_numeral {digits : StdString} (hdigits : IsNumeral digits)
    (hvalue : digitsValue digits < 2 ^ 31) : stoi digits = some (digitsValue digits : Int) := by
  have hnil : EndsNumeral [] := by
    intro c hc
    cases hc
  have hextract := extractInt_append hdigits hvalue hnil
  rw [List.append_nil] at hextract
  rw [stoi, hextract]
  rfl

/-! ### Hexadecimal numbers -/

/-- Hexadecimal digits, at least one. -/
structure IsHexNumeral (digits : StdString) : Prop where
  nonempty : digits ≠ []
  isHexDigit : ∀ c ∈ digits, isHexDigit c = true

/-- The ways to mark a numeral as hexadecimal, and none. -/
def hexMarks : List StdString := [[], ['0', 'x'], ['0', 'X']]

theorem skipHexMark_append {mark digits : StdString} (hmark : mark ∈ hexMarks)
    (hdigits : IsHexNumeral digits) : skipHexMark (mark ++ digits) = digits := by
  have hletter : ∀ x, x = 'x' ∨ x = 'X' → isHexDigit x = false := by
    rintro x (rfl | rfl) <;> rfl
  simp only [hexMarks, List.mem_cons, List.not_mem_nil, or_false] at hmark
  obtain ⟨c, digits, rfl⟩ := List.exists_cons_of_ne_nil hdigits.nonempty
  have hc : isHexDigit c = true := hdigits.isHexDigit c List.mem_cons_self
  rcases hmark with rfl | rfl | rfl
  · -- An unmarked numeral has a digit where the letter would be.
    rw [List.nil_append]
    unfold skipHexMark
    split
    next x other input heq =>
      rw [if_neg, heq]
      rintro ⟨hx, _⟩
      have hdigit := hdigits.isHexDigit x (by rw [heq]; simp)
      rw [hletter x hx] at hdigit
      cases hdigit
    next => rfl
  · exact if_pos ⟨.inl rfl, hc⟩
  · exact if_pos ⟨.inr rfl, hc⟩

/-- The signs of a number, and none. -/
def signs : List StdString := [[], ['+'], ['-']]

theorem exists_cons_of_mark {mark digits : StdString} (hmark : mark ∈ hexMarks)
    (hdigits : IsHexNumeral digits) :
    ∃ c rest, mark ++ digits = c :: rest ∧ isHexDigit c = true := by
  obtain ⟨c, digits, rfl⟩ := List.exists_cons_of_ne_nil hdigits.nonempty
  simp only [hexMarks, List.mem_cons, List.not_mem_nil, or_false] at hmark
  rcases hmark with rfl | rfl | rfl
  · exact ⟨c, digits, rfl, hdigits.isHexDigit c List.mem_cons_self⟩
  · exact ⟨'0', _, rfl, rfl⟩
  · exact ⟨'0', _, rfl, rfl⟩

/-- The sign is read off the front of a number, which starts without whitespace. -/
theorem takeSign_append {sign mark digits : StdString} (hsign : sign ∈ signs)
    (hmark : mark ∈ hexMarks) (hdigits : IsHexNumeral digits) :
    (sign ++ (mark ++ digits)).dropWhile isSpace = sign ++ (mark ++ digits) ∧
      takeSign (sign ++ (mark ++ digits)) = (decide (sign = ['-']), mark ++ digits) := by
  simp only [signs, List.mem_cons, List.not_mem_nil, or_false] at hsign
  rcases hsign with rfl | rfl | rfl
  · obtain ⟨c, rest, hsplit, hc⟩ := exists_cons_of_mark hmark hdigits
    rw [List.nil_append, hsplit, takeSign_of_isHexDigit hc]
    exact ⟨List.dropWhile_cons_of_neg (by simp [isSpace_of_isHexDigit hc]), rfl⟩
  · exact ⟨rfl, rfl⟩
  · exact ⟨rfl, rfl⟩

/-- `std::stoul` reads a whole number if `unsigned long` holds its magnitude. -/
theorem stoul16_signed {longBits : Nat} {sign mark digits : StdString} (hsign : sign ∈ signs)
    (hmark : mark ∈ hexMarks) (hdigits : IsHexNumeral digits) :
    stoul16 longBits (sign ++ (mark ++ digits)) =
      if hexValue digits < 2 ^ longBits then
        some (if sign = ['-'] then (2 ^ longBits - hexValue digits) % 2 ^ longBits
          else hexValue digits)
      else none := by
  obtain ⟨hspace, htake⟩ := takeSign_append hsign hmark hdigits
  have hdigit : (skipHexMark (mark ++ digits)).takeWhile isHexDigit = digits := by
    rw [skipHexMark_append hmark hdigits, List.takeWhile_eq_self_iff]
    exact hdigits.isHexDigit
  simp only [stoul16, hspace, htake, hdigit, if_neg hdigits.nonempty, decide_eq_true_eq]

theorem stoul16_append {longBits : Nat} {mark digits : StdString} (hmark : mark ∈ hexMarks)
    (hdigits : IsHexNumeral digits) (hvalue : hexValue digits < 2 ^ longBits) :
    stoul16 longBits (mark ++ digits) = some (hexValue digits) := by
  have hread := @stoul16_signed longBits [] _ _ List.mem_cons_self hmark hdigits
  rw [List.nil_append, if_pos hvalue, if_neg (List.cons_ne_nil _ _).symm] at hread
  exact hread

/-- The token is a hexadecimal number with this value. -/
def WritesHex (token : StdString) (value : Int) : Prop :=
  ∃ sign mark digits, sign ∈ signs ∧ mark ∈ hexMarks ∧ IsHexNumeral digits ∧
    token = sign ++ (mark ++ digits) ∧
    value = if sign = ['-'] then -(hexValue digits : Int) else hexValue digits

/-- What `std::stoul` makes of a whole number that is not negative is its value. -/
theorem WritesHex.stoul16_eq {longBits value : Nat} {token : StdString}
    (hwrites : WritesHex token value) {n : Nat} (hread : stoul16 longBits token = some n) :
    n = value := by
  obtain ⟨sign, mark, digits, hsign, hmark, hdigits, rfl, hvalue⟩ := hwrites
  rw [stoul16_signed hsign hmark hdigits] at hread
  split at hread
  next =>
    rw [Option.some.injEq] at hread
    split at hread
    next hminus =>
      -- A number with a minus sign that is not negative is zero.
      rw [if_pos hminus] at hvalue
      have hzero : hexValue digits = 0 := by omega
      rw [hzero, Nat.sub_zero, Nat.mod_self] at hread
      omega
    next hplus =>
      rw [if_neg hplus] at hvalue
      omega
  next => cases hread

end StdString
