import AutomotiveGateway.Can.DbcParser

/-!
# The lines signals come from

Each stored signal is traced back to its line. A message line that is rejected leaves
the loop in the message before it, so that the signals below go there.
-/

namespace AutomotiveGateway.Can

open StdString

variable {D : Type}

/-! ## Nearest lines -/

/-- The lines behind the last blank one, the last line first. -/
def paragraph (before : List StdString) : List StdString :=
  before.reverse.takeWhile fun line => ! blankLine line

/-- The nearest `BO_` line, with no blank line in between: its message, or `none` when it
is rejected. -/
def nearestMessage (D : Type) (before : List StdString) : Option (Option (MessageDef D)) :=
  ((paragraph before).find? (taggedLine messageTag)).map (messageOf D)

/-- The nearest accepted `BO_` line, with no blank line in between. -/
def nearestAccepted (D : Type) (before : List StdString) : Option (MessageDef D) :=
  (paragraph before).findSome? (messageOf D)

/-! ## Sources of the signals -/

/-- Where the signals of message `id` come from, after one more line. -/
def trackLine (id : UInt32) (sources : List (Nat × SignalDef D))
    (step : Option (ParseAction D) × Nat) : List (Nat × SignalDef D) :=
  match step.1 with
  | none => sources
  | some (.foundMessage msg) => if msg.canId = id then [] else sources
  | some (.signal target sig) => if target = id then sources ++ [(step.2, sig)] else sources

/-- The signals of message `id` with the numbers of their lines. -/
def sources (id : UInt32) (actions : List (Option (ParseAction D))) : List (Nat × SignalDef D) :=
  actions.zipIdx.foldl (trackLine id) []

/-- What the loop reports about the lines of a text. -/
def parseActions (stod : StdString → Option D) (text : List StdString) :
    List (Option (ParseAction D)) :=
  (parseLines stod {} text).2

/-- The signals stored under an id. -/
def signalsUnder (messages : Finmap fun _ : UInt32 => MessageDef D) (id : UInt32) :
    List (SignalDef D) :=
  ((messages.lookup id).map MessageDef.signals).getD []

/-- Line `p` is an accepted `SG_` line with this signal, and the nearest `BO_` line in
front of it is accepted with this id. -/
def Attributed (stod : StdString → Option D) (text : List StdString) (id : UInt32) (p : Nat)
    (sig : SignalDef D) : Prop :=
  (∃ line, text[p]? = some line ∧ signalOf stod line = some sig) ∧
  ∃ msg, nearestMessage D (text.take p) = some (some msg) ∧ msg.canId = id

/-- Every stored signal comes from a line below its own message. -/
def SignalsAttributed (stod : StdString → Option D) (content : StdString) : Prop :=
  ∀ id, ∀ source ∈ sources id (parseActions stod (lines content)),
    Attributed stod (lines content) id source.1 source.2

/-- Line `p` is an accepted `SG_` line below a rejected `BO_` line, and above that there is
an accepted one, with no blank line in between. -/
def Stray (stod : StdString → Option D) (text : List StdString) (p : Nat)
    (msg : MessageDef D) : Prop :=
  (∃ line sig, text[p]? = some line ∧ signalOf stod line = some sig) ∧
  nearestMessage D (text.take p) = some none ∧ nearestAccepted D (text.take p) = some msg

/-- A later `BO_` line is accepted with the id of this message. -/
def ReplacedAfter (text : List StdString) (p : Nat) (msg : MessageDef D) : Prop :=
  ∃ q line, p < q ∧ text[q]? = some line ∧
    ∃ later, messageOf D line = some later ∧ later.canId = msg.canId

/-! ## The loop -/

theorem parseLines_concat (stod : StdString → Option D) (state : ParseState D)
    (before : List StdString) (line : StdString) :
    parseLines stod state (before ++ [line]) =
      ((parseLine stod (parseLines stod state before).1 line).1,
        (parseLines stod state before).2 ++
          [(parseLine stod (parseLines stod state before).1 line).2]) := by
  rw [parseLines_append]
  rfl

theorem paragraph_blank {before : List StdString} {line : StdString}
    (hblank : blankLine line = true) : paragraph (before ++ [line]) = [] := by
  rw [paragraph, List.reverse_concat, List.takeWhile_cons_of_neg (by simp [hblank])]

theorem paragraph_concat {before : List StdString} {line : StdString}
    (hblank : blankLine line = false) :
    paragraph (before ++ [line]) = line :: paragraph before := by
  rw [paragraph, List.reverse_concat, List.takeWhile_cons_of_pos (by simp [hblank])]
  rfl

theorem nearestAccepted_blank {before : List StdString} {line : StdString}
    (hblank : blankLine line = true) : nearestAccepted D (before ++ [line]) = none := by
  rw [nearestAccepted, paragraph_blank hblank, List.findSome?_nil]

theorem nearestAccepted_message {before : List StdString} {line : StdString} {msg : MessageDef D}
    (hblank : blankLine line = false) (hmsg : messageOf D line = some msg) :
    nearestAccepted D (before ++ [line]) = some msg := by
  rw [nearestAccepted, paragraph_concat hblank, List.findSome?_cons, hmsg]

theorem nearestAccepted_other {before : List StdString} {line : StdString}
    (hblank : blankLine line = false) (hmsg : messageOf D line = none) :
    nearestAccepted D (before ++ [line]) = nearestAccepted D before := by
  rw [nearestAccepted, paragraph_concat hblank, List.findSome?_cons, hmsg]
  rfl

/-- The loop is in the message of the nearest accepted line. -/
theorem state_parseLines (stod : StdString → Option D) (text : List StdString) :
    (parseLines stod {} text).1.inMessage =
        (nearestAccepted D text).isSome ∧
    ∀ msg, nearestAccepted D text = some msg →
      (parseLines stod {} text).1.currentId = msg.canId := by
  induction text using List.reverseRecOn with
  | nil => exact ⟨rfl, fun msg hmsg => by cases hmsg⟩
  | append_singleton before line ih =>
      obtain ⟨hin, hid⟩ := ih
      rw [parseLines_concat, parseLine_eq]
      cases hblank : blankLine line with
      | true =>
          rw [if_pos rfl, nearestAccepted_blank hblank]
          exact ⟨rfl, fun msg hmsg => by cases hmsg⟩
      | false =>
          rw [if_neg Bool.false_ne_true]
          cases hmsg : messageOf D line with
          | some msg =>
              rw [nearestAccepted_message hblank hmsg]
              refine ⟨rfl, ?_⟩
              rintro _ ⟨⟩
              rfl
          | none =>
              rw [nearestAccepted_other hblank hmsg]
              cases signalOf stod line with
              | none => exact ⟨hin, hid⟩
              | some sig =>
                  dsimp only
                  split
                  next => exact ⟨hin, hid⟩
                  next => exact ⟨hin, hid⟩

/-! ## The signals under an id -/

theorem signals_messageOf {line : StdString} {msg : MessageDef D}
    (hmsg : messageOf D line = some msg) : msg.signals = [] := by
  unfold messageOf at hmsg
  split at hmsg
  next =>
    unfold parseMessageLine at hmsg
    simp only [Option.bind_eq_bind, Option.bind_eq_some_iff] at hmsg
    obtain ⟨tag, _, id, _, name, _, length, _, sender, _, hreturn⟩ := hmsg
    split at hreturn
    next => cases hreturn
    next =>
      cases hreturn
      rfl
  next => cases hmsg

theorem signalsUnder_insert (messages : Finmap fun _ : UInt32 => MessageDef D) (target : UInt32)
    (msg : MessageDef D) (id : UInt32) :
    signalsUnder (messages.insert target msg) id =
      if target = id then msg.signals else signalsUnder messages id := by
  unfold signalsUnder
  by_cases htarget : target = id
  · rw [if_pos htarget, htarget, Finmap.lookup_insert]
    rfl
  · rw [if_neg htarget, Finmap.lookup_insert_of_ne _ (Ne.symm htarget)]

theorem signalsUnder_pushSignal (messages : Finmap fun _ : UInt32 => MessageDef D)
    (target : UInt32) (sig : SignalDef D) (id : UInt32) :
    signalsUnder (pushSignal messages target sig) id =
      if target = id then signalsUnder messages id ++ [sig] else signalsUnder messages id := by
  rw [pushSignal, signalsUnder_insert]
  by_cases htarget : target = id
  · subst htarget
    rw [if_pos rfl, if_pos rfl, signalsUnder]
    cases messages.lookup target <;> rfl
  · rw [if_neg htarget, if_neg htarget]

theorem sources_concat (id : UInt32) (actions : List (Option (ParseAction D)))
    (action : Option (ParseAction D)) :
    sources id (actions ++ [action]) =
      trackLine id (sources id actions) (action, actions.length) := by
  rw [sources, List.zipIdx_append, List.foldl_append, sources]
  simp

/-- The traced signals are those in the map. -/
theorem signals_eq_sources (stod : StdString → Option D) (text : List StdString) (id : UInt32) :
    signalsUnder (parseLines stod {} text).1.messages id =
      (sources id (parseActions stod text)).map Prod.snd := by
  unfold parseActions
  induction text using List.reverseRecOn with
  | nil => rfl
  | append_singleton before line ih =>
      rw [parseLines_concat]
      dsimp only
      rw [sources_concat, parseLine_eq]
      cases hblank : blankLine line with
      | true => exact ih
      | false =>
          rw [if_neg Bool.false_ne_true]
          cases hmsg : messageOf D line with
          | some msg =>
              rw [trackLine]
              dsimp only
              rw [signalsUnder_insert, ih, signals_messageOf hmsg]
              split_ifs <;> rfl
          | none =>
              cases signalOf stod line with
              | none => exact ih
              | some sig =>
                  dsimp only
                  split
                  next =>
                    rw [trackLine]
                    dsimp only
                    rw [signalsUnder_pushSignal, ih]
                    split_ifs
                    · rw [List.map_append]
                      rfl
                    · rfl
                  next => exact ih

theorem getElem?_concat_eq_some {α : Type} {actions : List (Option α)} {action : Option α} {q : Nat}
    {value : α} :
    (actions ++ [action])[q]? = some (some value) ↔
      actions[q]? = some (some value) ∨ q = actions.length ∧ action = some value := by
  rcases Nat.lt_trichotomy q actions.length with hlt | rfl | hgt
  · rw [List.getElem?_append_left hlt]
    constructor
    · exact .inl
    · rintro (hvalue | ⟨rfl, _⟩)
      · exact hvalue
      · exact absurd hlt (Nat.lt_irrefl _)
  · simp
  · rw [List.getElem?_eq_none (by simp; omega), List.getElem?_eq_none (by omega)]
    constructor
    · intro hvalue
      cases hvalue
    · rintro (hvalue | ⟨rfl, _⟩)
      · cases hvalue
      · exact absurd hgt (Nat.lt_irrefl _)

/-- A signal is traced to the line that stored it, unless its message is replaced. -/
theorem mem_sources_iff {id : UInt32} {actions : List (Option (ParseAction D))} {p : Nat}
    {sig : SignalDef D} :
    (p, sig) ∈ sources id actions ↔
      actions[p]? = some (some (.signal id sig)) ∧
        ∀ q msg, p < q → actions[q]? = some (some (.foundMessage msg)) → msg.canId ≠ id := by
  induction actions using List.reverseRecOn with
  | nil => simp [sources]
  | append_singleton actions action ih =>
      have hbound : ∀ {act}, actions[p]? = some (some act) → p < actions.length :=
        fun hact => (List.getElem?_eq_some_iff.mp hact).1
      rw [sources_concat]
      simp only [getElem?_concat_eq_some]
      cases action with
      | none => simpa [trackLine] using ih
      | some action =>
          cases action with
          | foundMessage msg =>
              by_cases hid : msg.canId = id
              · -- The message starts afresh, so what was stored before is gone.
                simp only [trackLine, if_pos hid, List.not_mem_nil, false_iff, not_and]
                rintro (hstored | ⟨_, heq⟩) hlater
                · exact hlater actions.length msg (hbound hstored) (.inr ⟨rfl, rfl⟩) hid
                · cases heq
              · simp only [trackLine, if_neg hid, ih]
                grind
          | signal target other =>
              by_cases hid : target = id
              · subst hid
                simp only [trackLine, if_true, List.mem_append, List.mem_singleton, ih]
                have hend : ∀ q, actions.length < q → actions[q]? = none :=
                  fun q hq => List.getElem?_eq_none (Nat.le_of_lt hq)
                grind
              · simp only [trackLine, if_neg hid, ih]
                grind

theorem getElem?_parseActions (stod : StdString → Option D) (text : List StdString) (p : Nat) :
    (parseActions stod text)[p]? =
      text[p]?.map fun line => (parseLine stod (parseLines stod {} (text.take p)).1 line).2 := by
  unfold parseActions
  generalize ({} : ParseState D) = state
  induction text generalizing state p with
  | nil => rfl
  | cons line text ih =>
      cases p with
      | zero => rfl
      | succ p =>
          rw [parseLines, List.getElem?_cons_succ, ih, List.getElem?_cons_succ, List.take_succ_cons,
            parseLines]

/-! ## The lines behind the actions -/

theorem tagged_of_messageOf {line : StdString} {msg : MessageDef D}
    (hmsg : messageOf D line = some msg) : taggedLine messageTag line = true := by
  by_contra htag
  rw [messageOf, if_neg htag] at hmsg
  cases hmsg

theorem tagged_of_signalOf {stod : StdString → Option D} {line : StdString} {sig : SignalDef D}
    (hsig : signalOf stod line = some sig) : taggedLine signalTag line = true := by
  by_contra htag
  rw [signalOf, if_neg htag] at hsig
  cases hsig

/-- No line is both a message line and a signal line. -/
theorem messageOf_of_signalOf {stod : StdString → Option D} {line : StdString}
    {sig : SignalDef D} (hsig : signalOf stod line = some sig) : messageOf D line = none :=
  messageOf_of_tagged (tagged_of_signalOf hsig)

theorem parseLine_foundMessage_iff {stod : StdString → Option D} {state : ParseState D}
    {line : StdString} {msg : MessageDef D} :
    (parseLine stod state line).2 = some (.foundMessage msg) ↔ messageOf D line = some msg := by
  rw [parseLine_eq]
  cases hmsg : messageOf D line with
  | some found =>
      rw [if_neg (by rw [blankLine_of_tagged (tagged_of_messageOf hmsg)]; exact Bool.false_ne_true)]
      simp
  | none =>
      cases blankLine line with
      | true => simp
      | false =>
          cases signalOf stod line with
          | none => simp
          | some sig => cases state.inMessage <;> simp

theorem parseLine_signal_iff {stod : StdString → Option D} {state : ParseState D}
    {line : StdString} {id : UInt32} {sig : SignalDef D} :
    (parseLine stod state line).2 = some (.signal id sig) ↔
      signalOf stod line = some sig ∧ state.inMessage = true ∧ state.currentId = id := by
  rw [parseLine_eq]
  cases hsig : signalOf stod line with
  | some found =>
      rw [if_neg (by rw [blankLine_of_tagged (tagged_of_signalOf hsig)]; exact Bool.false_ne_true),
        messageOf_of_signalOf hsig]
      cases state.inMessage with
      | false => simp
      | true =>
          simp only [if_true, Option.some.injEq, ParseAction.signal.injEq, true_and]
          exact and_comm
  | none =>
      cases blankLine line with
      | true => simp
      | false => cases messageOf D line <;> simp

theorem parseActions_foundMessage_iff {stod : StdString → Option D} {text : List StdString}
    {p : Nat} {msg : MessageDef D} :
    (parseActions stod text)[p]? = some (some (.foundMessage msg)) ↔
      ∃ line, text[p]? = some line ∧ messageOf D line = some msg := by
  rw [getElem?_parseActions, Option.map_eq_some_iff]
  simp only [parseLine_foundMessage_iff]

/-- A line stores its signal under the nearest accepted message. -/
theorem parseActions_signal_iff {stod : StdString → Option D} {text : List StdString}
    {p : Nat} {id : UInt32} {sig : SignalDef D} :
    (parseActions stod text)[p]? = some (some (.signal id sig)) ↔
      (∃ line, text[p]? = some line ∧ signalOf stod line = some sig) ∧
        ∃ msg, nearestAccepted D (text.take p) = some msg ∧ msg.canId = id := by
  obtain ⟨hin, hid⟩ := state_parseLines stod (text.take p)
  rw [getElem?_parseActions, Option.map_eq_some_iff]
  simp only [parseLine_signal_iff]
  constructor
  · rintro ⟨line, hline, hsig, hinside, hcurrent⟩
    rw [hin] at hinside
    obtain ⟨msg, hmsg⟩ := Option.isSome_iff_exists.mp hinside
    exact ⟨⟨line, hline, hsig⟩, msg, hmsg, (hid msg hmsg).symm.trans hcurrent⟩
  · rintro ⟨⟨line, hline, hsig⟩, msg, hmsg, hcan⟩
    refine ⟨line, hline, hsig, ?_, (hid msg hmsg).trans hcan⟩
    rw [hin, hmsg]
    rfl

/-- The nearest message line is the nearest accepted one, or it is rejected. -/
theorem nearestMessage_cases {before : List StdString} {msg : MessageDef D}
    (hmsg : nearestAccepted D before = some msg) :
    nearestMessage D before = some (some msg) ∨ nearestMessage D before = some none := by
  unfold nearestAccepted at hmsg
  unfold nearestMessage
  generalize paragraph before = above at hmsg ⊢
  induction above with
  | nil => cases hmsg
  | cons line rest ih =>
      cases hline : messageOf D line with
      | some found =>
          rw [List.findSome?_cons, hline] at hmsg
          rw [List.find?_cons_of_pos (tagged_of_messageOf hline), Option.map_some, hline]
          exact .inl (congrArg some hmsg)
      | none =>
          rw [List.findSome?_cons, hline] at hmsg
          by_cases htag : taggedLine messageTag line = true
          · rw [List.find?_cons_of_pos htag, Option.map_some, hline]
            exact .inr rfl
          · rw [List.find?_cons_of_neg htag]
            exact ih hmsg

/-! ## Whole files -/

/-- The signals under an id are traced to their lines, and they all stand below their own
message exactly when every message that got signals from below a rejected line is
replaced later in the file. -/
theorem signalsAttributed_iff (stod : StdString → Option D) (content : StdString) :
    (∀ id, signalsUnder (DbcParser.parse stod {} (some content)).2.messages id =
      (sources id (parseActions stod (lines content))).map Prod.snd) ∧
    (SignalsAttributed stod content ↔
      ∀ p msg, Stray stod (lines content) p msg → ReplacedAfter (lines content) p msg) := by
  refine ⟨signals_eq_sources stod (lines content), ?_, ?_⟩
  · rintro hall p msg ⟨⟨line, sig, hline, hsig⟩, hrejected, haccepted⟩
    by_contra hkept
    have hsource : (p, sig) ∈ sources msg.canId (parseActions stod (lines content)) := by
      rw [mem_sources_iff, parseActions_signal_iff]
      refine ⟨⟨⟨line, hline, hsig⟩, msg, haccepted, rfl⟩, ?_⟩
      intro q later hq hlater heq
      obtain ⟨other, hother, hmsg⟩ := parseActions_foundMessage_iff.mp hlater
      exact hkept ⟨q, other, hq, hother, later, hmsg, heq⟩
    obtain ⟨_, owner, howner, _⟩ := hall msg.canId (p, sig) hsource
    rw [hrejected] at howner
    cases howner
  · intro hreplaced id ⟨p, sig⟩ hsource
    rw [mem_sources_iff, parseActions_signal_iff] at hsource
    obtain ⟨⟨⟨line, hline, hsig⟩, msg, haccepted, hid⟩, hkept⟩ := hsource
    refine ⟨⟨line, hline, hsig⟩, msg, ?_, hid⟩
    rcases nearestMessage_cases haccepted with hown | hrejected
    · exact hown
    · obtain ⟨q, other, hq, hother, later, hmsg, heq⟩ :=
        hreplaced p msg ⟨⟨line, sig, hline, hsig⟩, hrejected, haccepted⟩
      have hfound := (@parseActions_foundMessage_iff D stod _ q later).mpr ⟨other, hother, hmsg⟩
      exact absurd (heq.trans hid) (hkept q later hq hfound)

/-- A signal below a message line without an id goes to the message in front of it. -/
theorem not_signalsAttributed_brokenHeader :
    ¬ SignalsAttributed (fun s => some (digitsValue s))
      "BO_ 1 A: 8 X\nBO_ B: 8 X\nSG_ S : 0|8@1+ (1,0) [0|1] \"\" X\n".toList := by
  intro hall
  have hsource : (2, (⟨['S'], 0, 8, false, true, 1, 0, 0, 1, []⟩ : SignalDef Nat)) ∈
      sources 1 (parseActions (fun s => some (digitsValue s))
        (lines "BO_ 1 A: 8 X\nBO_ B: 8 X\nSG_ S : 0|8@1+ (1,0) [0|1] \"\" X\n".toList)) := by
    decide
  obtain ⟨_, msg, hmsg, _⟩ := hall 1 _ hsource
  have hrejected : nearestMessage Nat ((lines
      "BO_ 1 A: 8 X\nBO_ B: 8 X\nSG_ S : 0|8@1+ (1,0) [0|1] \"\" X\n".toList).take 2) =
        some none := by
    decide
  rw [hrejected] at hmsg
  cases hmsg

end AutomotiveGateway.Can
