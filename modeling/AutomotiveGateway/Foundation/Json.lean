import AutomotiveGateway.Foundation.StdString

/-!
# Objects and numbers of JSON

A reader for the part of JSON that has objects and numbers, with names that need no escapes.
What it accepts is a JSON text. A text that is built from the members of objects is read back
as these members, however it is spaced.
-/

namespace Json

open StdString

/-- A value. A number is known by its literal. -/
inductive Value
  | number (literal : StdString)
  | object (members : List (StdString × Value))

def isSpace (c : Char) : Bool := c ∈ [' ', '\t', '\n', '\r']

def skipSpaces (text : StdString) : StdString := text.dropWhile isSpace

/-- A character that stands for itself in a name. -/
def isPlain (c : Char) : Bool := c ≠ '"' && c ≠ '\\' && 0x20 ≤ c.toNat

/-- What is behind a name in quotes, and the name. -/
def readName : StdString → Option (StdString × StdString)
  | '"' :: text =>
      match text.dropWhile isPlain with
      | '"' :: rest => some (text.takeWhile isPlain, rest)
      | _ => none
  | _ => none

/-! ## Numbers -/

def isNumberChar (c : Char) : Bool := c.isDigit || c ∈ ['-', '+', '.', 'e', 'E']

/-- What is behind digits, of which there is one at least. -/
def digits (text : StdString) : Option StdString :=
  if text.takeWhile Char.isDigit = [] then none else some (text.dropWhile Char.isDigit)

/-- What is behind the whole part of a number, which has no leading zeros. -/
def whole : StdString → Option StdString
  | '0' :: rest => some rest
  | text => digits text

def fraction : StdString → Option StdString
  | '.' :: rest => digits rest
  | text => some text

def exponent : StdString → Option StdString
  | [] => some []
  | c :: rest => if c = 'e' ∨ c = 'E' then digits (takeSign rest).2 else some (c :: rest)

def skipMinus : StdString → StdString
  | '-' :: rest => rest
  | text => text

/-- A literal of a number, from its sign to its exponent. -/
def IsNumber (literal : StdString) : Prop :=
  (∀ c ∈ literal, isNumberChar c = true) ∧
    (do exponent (← fraction (← whole (skipMinus literal)))) = some []

instance decidableIsNumber (literal : StdString) : Decidable (IsNumber literal) :=
  decidable_of_iff (literal.all isNumberChar = true ∧
    (do exponent (← fraction (← whole (skipMinus literal)))) = some [])
    (and_congr_left fun _ => List.all_eq_true)

/-! ## The reader -/

mutual

/-- The value in front of a text and what is behind it, with a limit for the depth. -/
def readValue : Nat → StdString → Option (Value × StdString)
  | 0, _ => none
  | limit + 1, text =>
      match skipSpaces text with
      | '{' :: inside =>
          match skipSpaces inside with
          | '}' :: rest => some (.object [], rest)
          | inside => (readMembers limit inside).map fun (members, rest) => (.object members, rest)
      | text =>
          let literal := text.takeWhile isNumberChar
          if IsNumber literal then some (.number literal, text.dropWhile isNumberChar) else none

/-- The members up to the end of an object. -/
def readMembers : Nat → StdString → Option (List (StdString × Value) × StdString)
  | 0, _ => none
  | limit + 1, text => do
      let (name, text) ← readName text
      match skipSpaces text with
      | ':' :: text =>
          let (value, text) ← readValue limit text
          match skipSpaces text with
          | '}' :: rest => some ([(name, value)], rest)
          | ',' :: text =>
              let (members, rest) ← readMembers limit (skipSpaces text)
              return ((name, value) :: members, rest)
          | _ => none
      | _ => none

end

/-- The value that a text is. -/
def read (text : StdString) : Option Value := do
  let (value, rest) ← readValue text.length text
  if skipSpaces rest = [] then some value else none

/-! ## Texts that are read back -/

/-- A text behind which a number ends. -/
def EndsNumber (rest : StdString) : Prop := ∀ c ∈ rest.head?, isNumberChar c = false

/-- The text is read as the value, whatever is behind it. -/
def Reads (value : Value) (text : StdString) : Prop :=
  ∀ limit rest, text.length ≤ limit → EndsNumber rest →
    readValue limit (text ++ rest) = some (value, rest)

/-- The text, which begins with a quote, is read as members up to the end of an object. -/
def ReadsMembers (members : List (StdString × Value)) (text : StdString) : Prop :=
  text.head? = some '"' ∧
    ∀ limit rest, text.length ≤ limit → readMembers limit (text ++ rest) = some (members, rest)

def Spaces (gap : StdString) : Prop := ∀ c ∈ gap, isSpace c = true

def IsName (name : StdString) : Prop := ∀ c ∈ name, isPlain c = true

instance decidableIsName (name : StdString) : Decidable (IsName name) :=
  decidable_of_iff (name.all isPlain = true) List.all_eq_true

theorem skipSpaces_append {gap : StdString} (hgap : Spaces gap) (text : StdString) :
    skipSpaces (gap ++ text) = skipSpaces text :=
  List.dropWhile_append_of_pos hgap

theorem skipSpaces_cons {c : Char} (hc : isSpace c = false) (text : StdString) :
    skipSpaces (c :: text) = c :: text :=
  List.dropWhile_cons_of_neg (by simp [hc])

theorem skipSpaces_gap {gap : StdString} (hgap : Spaces gap) {c : Char}
    (hc : isSpace c = false) (text : StdString) : skipSpaces (gap ++ c :: text) = c :: text := by
  rw [skipSpaces_append hgap, skipSpaces_cons hc]

theorem readName_append {name : StdString} (hname : IsName name) (rest : StdString) :
    readName ('"' :: (name ++ '"' :: rest)) = some (name, rest) := by
  have hstop : ∀ c ∈ ('"' :: rest).head?, isPlain c = false := by
    intro c hc
    cases hc
    rfl
  obtain ⟨htake, hdrop⟩ := scan_append hname hstop
  rw [readName, htake, hdrop]
  rfl

theorem isSpace_of_isNumberChar {c : Char} (hc : isNumberChar c = true) : isSpace c = false := by
  by_contra hspace
  rw [Bool.not_eq_false, isSpace, decide_eq_true_eq] at hspace
  simp only [List.mem_cons, List.not_mem_nil, or_false] at hspace
  rcases hspace with rfl | rfl | rfl | rfl <;> exact absurd hc (by decide)

/-- Spaces in front of a value do not matter. -/
theorem Reads.gap {value : Value} {text gap : StdString} (hreads : Reads value text)
    (hgap : Spaces gap) : Reads value (gap ++ text) := by
  intro limit rest hlimit hrest
  rw [List.length_append] at hlimit
  have hread := hreads limit rest (by omega) hrest
  cases limit with
  | zero => exact absurd hread (by rw [readValue]; simp)
  | succ limit =>
      rw [readValue] at hread ⊢
      rwa [List.append_assoc, skipSpaces_append hgap]

/-- An object is read as its members. -/
theorem reads_object {members : List (StdString × Value)} {text gap : StdString}
    (hmembers : ReadsMembers members text) (hgap : Spaces gap) :
    Reads (.object members) ('{' :: (gap ++ text)) := by
  obtain ⟨hhead, hread⟩ := hmembers
  obtain ⟨tail, rfl⟩ : ∃ tail, text = '"' :: tail := List.head?_eq_some_iff.mp hhead
  intro limit rest hlimit _
  rw [List.length_cons, List.length_append] at hlimit
  cases limit with
  | zero => exact absurd hlimit (by simp)
  | succ limit =>
      have hinside : skipSpaces (gap ++ '"' :: (tail ++ rest)) = '"' :: (tail ++ rest) :=
        skipSpaces_gap hgap rfl (tail ++ rest)
      have hbody : readMembers limit ('"' :: (tail ++ rest)) = some (members, rest) :=
        hread limit rest (by omega)
      rw [readValue, List.cons_append, skipSpaces_cons rfl]
      simp [hinside, hbody]

/-- The name of a member, its value and a gap behind it. -/
def memberText (name valueText gap : StdString) : StdString :=
  '"' :: (name ++ '"' :: ':' :: (valueText ++ gap))

/-- How the reader takes a member, up to the character behind it. -/
theorem readMembers_memberText {name valueText gap : StdString} {value : Value}
    (hname : IsName name) (hvalue : Reads value valueText) (hgap : Spaces gap) {limit : Nat}
    (hlimit : (memberText name valueText gap).length ≤ limit) {c : Char}
    (hc : isSpace c = false) (hends : isNumberChar c = false) (rest : StdString) :
    readMembers (limit + 1) (memberText name valueText gap ++ c :: rest) =
      match c :: rest with
      | '}' :: rest => some ([(name, value)], rest)
      | ',' :: text =>
          (readMembers limit (skipSpaces text)).bind fun read =>
            some ((name, value) :: read.1, read.2)
      | _ => none := by
  -- a number as the value ends where the gap begins, or at the next character
  have hbehind : EndsNumber (gap ++ c :: rest) := by
    intro head hhead
    cases gap with
    | nil =>
        cases hhead
        exact hends
    | cons space gap =>
        rw [List.cons_append, List.head?_cons, Option.mem_some_iff] at hhead
        subst hhead
        by_contra hnumber
        rw [Bool.not_eq_false] at hnumber
        exact absurd (hgap space List.mem_cons_self)
          (by rw [isSpace_of_isNumberChar hnumber]; simp)
  have hshort : valueText.length ≤ limit := by
    simp only [memberText, List.length_cons, List.length_append] at hlimit
    omega
  have hread := hvalue limit (gap ++ c :: rest) hshort hbehind
  have htext : memberText name valueText gap ++ c :: rest =
      '"' :: (name ++ '"' :: ':' :: (valueText ++ (gap ++ c :: rest))) := by
    simp [memberText]
  rw [readMembers, htext, readName_append hname]
  simp only [Option.bind_eq_bind, Option.bind_some, skipSpaces_cons (c := ':') rfl, hread,
    skipSpaces_gap hgap hc]
  rfl

/-- A member in front of others. -/
theorem ReadsMembers.cons {name valueText gap between text : StdString} {value : Value}
    {members : List (StdString × Value)} (hmembers : ReadsMembers members text)
    (hname : IsName name) (hvalue : Reads value valueText) (hgap : Spaces gap)
    (hbetween : Spaces between) :
    ReadsMembers ((name, value) :: members)
      (memberText name valueText gap ++ ',' :: (between ++ text)) := by
  obtain ⟨hhead, hread⟩ := hmembers
  obtain ⟨tail, rfl⟩ : ∃ tail, text = '"' :: tail := List.head?_eq_some_iff.mp hhead
  refine ⟨rfl, fun limit rest hlimit => ?_⟩
  rw [List.length_append, List.length_cons, List.length_append] at hlimit
  obtain ⟨limit, rfl⟩ : ∃ fewer, limit = fewer + 1 := ⟨limit - 1, by omega⟩
  have hskip : skipSpaces (between ++ '"' :: tail ++ rest) = '"' :: tail ++ rest := by
    rw [List.append_assoc]
    exact skipSpaces_gap hbetween rfl (tail ++ rest)
  rw [List.append_assoc, List.cons_append,
    readMembers_memberText hname hvalue hgap (by omega) rfl rfl]
  simp only [hskip, hread limit rest (by omega), Option.bind_some]

end Json
