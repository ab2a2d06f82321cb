import AutomotiveGateway.Can.DbcRoundTrip
import AutomotiveGateway.Someip.Publisher

/-!
# The routing configuration

A file names one route on a line. Lines that stand for no route are skipped one by one,
so loading the text of a file gives back its routes in order.
-/

namespace AutomotiveGateway

open Can Someip StdString

/-- The routes loaded so far. -/
structure ConfigLoader where
  routes : List SignalRoute := []
deriving DecidableEq, Repr

variable (longBits : Nat)

/-! ## Loading -/

/-- `ss >> name >> svc_str >> method_str` -/
def routeWords (line : StdString) : Option (StdString × StdString × StdString) := do
  let (name, ss) ← extractWord line
  let (svcStr, ss) ← extractWord ss
  let (methodStr, _) ← extractWord ss
  return (name, svcStr, methodStr)

/-- What the loop makes of a line: it passes over it, reports it, or stores a route. -/
inductive LineOutcome
  | skipped
  | badLine
  | route (loaded : SignalRoute)
deriving DecidableEq, Repr

def LineOutcome.route? : LineOutcome → Option SignalRoute
  | .route loaded => some loaded
  | _ => none

/-- The `try` block, where an exception leads to a report. -/
def tryRoute (name svcStr methodStr : StdString) : LineOutcome :=
  match stoul16 longBits svcStr, stoul16 longBits methodStr with
  | some serviceId, some methodId =>
      .route { signalName := name, serviceId := .ofNat serviceId, methodId := .ofNat methodId }
  | _, _ => .badLine

/-- The body of the loop. -/
def lineOutcome (line : StdString) : LineOutcome :=
  let line := popBack '\r' line
  match trim line with
  | [] => .skipped
  | c :: _ =>
      if c = '#' then .skipped
      else
        match routeWords line with
        | none => .skipped
        | some (name, svcStr, methodStr) => tryRoute longBits name svcStr methodStr

/-- One iteration of the loop. -/
def loadLine (routes : List SignalRoute) (line : StdString) : List SignalRoute :=
  routes ++ (lineOutcome longBits line).route?.toList

/-- Load a file, given its content if it can be opened. -/
def ConfigLoader.load (loader : ConfigLoader) (file : Option StdString) : Bool × ConfigLoader :=
  match file with
  | none => (false, loader)
  | some content =>
      let routes := (lines content).foldl (loadLine longBits) loader.routes
      (! routes.isEmpty, { routes })

/-! ## Files -/

/-- Spaces and tabs between two words. -/
structure Gap where
  text : StdString
  blank : ∀ c ∈ text, c = ' ' ∨ c = '\t'
  nonempty : text ≠ []

/-- An id in hexadecimal, marked or not. -/
structure IdText where
  mark : StdString
  digits : StdString
  isMark : mark ∈ hexMarks
  isHexNumeral : IsHexNumeral digits
  lt_bound : hexValue digits < 2 ^ 16

def IdText.text (id : IdText) : StdString := id.mark ++ id.digits

def IdText.value (id : IdText) : UInt16 := .ofNat (hexValue id.digits)

/-- A line with a route, and whatever follows it. -/
structure RouteLine where
  indent : Indent
  name : Word
  notComment : name.text.head? ≠ some '#'
  first : Gap
  service : IdText
  second : Gap
  method : IdText
  tail : StdString
  endsMethod : EndsWord tail
  noNewline : '\n' ∉ tail
  crlf : Bool

namespace RouteLine

def text (line : RouteLine) : StdString :=
  line.indent.text ++ (line.name.text ++ (line.first.text ++ (line.service.text ++
    (line.second.text ++ (line.method.text ++ line.tail)))))

def route (line : RouteLine) : SignalRoute where
  signalName := line.name.text
  serviceId := line.service.value
  methodId := line.method.value

end RouteLine

/-- A line that stands for no route. -/
inductive Skipped : StdString → Prop
  | blank {line : StdString} : (∀ c ∈ line, c ∈ [' ', '\t', '\r']) → Skipped line
  | comment (indent : Indent) (rest : StdString) : Skipped (indent.text ++ '#' :: rest)
  | short {line : StdString} : (words line).length < 3 → Skipped line
  | badService {line name service : StdString} {rest : List StdString} :
      words line = name :: service :: rest → stoul16 longBits service = none → Skipped line
  | badMethod {line name service method : StdString} {rest : List StdString} :
      words line = name :: service :: method :: rest → stoul16 longBits method = none →
        Skipped line

structure SkippedLine where
  text : StdString
  noNewline : '\n' ∉ text
  skipped : Skipped longBits text
  crlf : Bool

inductive ConfigLine
  | route (line : RouteLine)
  | skipped (line : SkippedLine longBits)

variable {longBits}

/-- The whole line, in front of its newline. -/
def ConfigLine.line : ConfigLine longBits → StdString
  | route line => line.text ++ carriageReturn line.crlf
  | skipped line => line.text ++ carriageReturn line.crlf

def ConfigLine.route? : ConfigLine longBits → Option SignalRoute
  | route line => some line.route
  | skipped _ => none

/-- The text of a file. -/
def configText (file : List (ConfigLine longBits)) : StdString :=
  file.flatMap fun line => line.line ++ ['\n']

/-- The routes written to a file, in order. -/
def configRoutes (file : List (ConfigLine longBits)) : List SignalRoute :=
  file.filterMap ConfigLine.route?

/-! ## One line -/

theorem isSpace_of_blank {text : StdString} (hblank : ∀ c ∈ text, c = ' ' ∨ c = '\t') :
    ∀ c ∈ text, isSpace c = true := by
  intro c hc
  rcases hblank c hc with rfl | rfl <;> rfl

theorem isSpace_carriageReturn (crlf : Bool) : ∀ c ∈ carriageReturn crlf, isSpace c = true := by
  intro c hc
  cases crlf with
  | false => cases hc
  | true => rw [List.mem_singleton.mp hc]; rfl

theorem words_popBack (s : StdString) : words (popBack '\r' s) = words s := by
  obtain ⟨ending, hending, hs⟩ := exists_popBack '\r' s
  have hspace : ∀ c ∈ ending, isSpace c = true := by
    rcases hending with rfl | rfl
    · exact isSpace_carriageReturn false
    · exact isSpace_carriageReturn true
  have hwords := words_append_space (popBack '\r' s) hspace
  rw [← hs] at hwords
  exact hwords.symm

theorem routeWords_eq_some_iff {line name service method : StdString} :
    routeWords line = some (name, service, method) ↔
      ∃ rest, words line = name :: service :: method :: rest := by
  constructor
  · intro hwords
    simp only [routeWords, Option.bind_eq_bind, Option.bind_eq_some_iff] at hwords
    obtain ⟨⟨name, behindName⟩, hname, ⟨service, behindService⟩, hservice,
      ⟨method, behindMethod⟩, hmethod, hreturn⟩ := hwords
    cases hreturn
    refine ⟨words behindMethod, ?_⟩
    rw [words_of_extractWord hname, words_of_extractWord hservice, words_of_extractWord hmethod]
  · rintro ⟨rest, hwords⟩
    obtain ⟨behindName, hname, hwords⟩ := exists_extractWord hwords
    obtain ⟨behindService, hservice, hwords⟩ := exists_extractWord hwords
    obtain ⟨behindMethod, hmethod, _⟩ := exists_extractWord hwords
    simp only [routeWords, hname, hservice, hmethod, Option.bind_eq_bind, Option.bind_some]
    rfl

/-- A line of spaces and tabs has no words. -/
theorem words_of_trim_nil {line : StdString} (htrim : trim line = []) : words line = [] := by
  have hspace : ∀ c ∈ line, isSpace c = true := by
    intro c hc
    have hblank := List.dropWhile_eq_nil_iff.mp htrim c hc
    simp only [List.mem_cons, List.not_mem_nil, or_false, decide_eq_true_eq] at hblank
    rcases hblank with rfl | rfl
    · rfl
    · rfl
  exact words_append_space [] hspace

/-- A line with three words that is no comment gets to the `try` block. -/
theorem lineOutcome_of_words {line name service method : StdString} {rest : List StdString}
    (hcomment : (trim (popBack '\r' line)).head? ≠ some '#')
    (hwords : words line = name :: service :: method :: rest) :
    lineOutcome longBits line = tryRoute longBits name service method := by
  rw [← words_popBack] at hwords
  unfold lineOutcome
  dsimp only
  split
  next htrim =>
    rw [words_of_trim_nil htrim] at hwords
    cases hwords
  next c more htrim =>
    have hhash : c ≠ '#' := by
      rintro rfl
      exact hcomment (by rw [htrim]; rfl)
    rw [if_neg hhash, routeWords_eq_some_iff.mpr ⟨rest, hwords⟩]

/-- A route is stored for a line with three words, the last two of which `std::stoul` reads. -/
theorem words_of_route {line : StdString} {route : SignalRoute}
    (hroute : lineOutcome longBits line = .route route) :
    (trim (popBack '\r' line)).head? ≠ some '#' ∧
    ∃ service method rest serviceId methodId,
      words line = route.signalName :: service :: method :: rest ∧
      stoul16 longBits service = some serviceId ∧ stoul16 longBits method = some methodId ∧
      route.serviceId = .ofNat serviceId ∧ route.methodId = .ofNat methodId := by
  unfold lineOutcome at hroute
  dsimp only at hroute
  split at hroute
  next => cases hroute
  next c more htrim =>
    split at hroute
    next => cases hroute
    next hhash =>
      split at hroute
      next => cases hroute
      next name service method htokens =>
        obtain ⟨rest, hwords⟩ := routeWords_eq_some_iff.mp htokens
        rw [words_popBack] at hwords
        unfold tryRoute at hroute
        split at hroute
        next serviceId methodId hservice hmethod =>
          cases hroute
          refine ⟨?_, service, method, rest, serviceId, methodId, hwords, hservice, hmethod, rfl,
            rfl⟩
          rw [htrim, List.head?_cons, ne_eq, Option.some.injEq]
          exact hhash
        next => cases hroute

/-- Only a last character is removed, so another one in front of it stays. -/
theorem exists_popBack_append_cons (front : StdString) {c last : Char} (hc : c ≠ last)
    (rest : StdString) :
    ∃ more, popBack last (front ++ c :: rest) = front ++ c :: more := by
  obtain ⟨ending, hending, hsplit⟩ := exists_popBack last (front ++ c :: rest)
  rcases hending with rfl | rfl
  · rw [List.append_nil] at hsplit
    exact ⟨rest, hsplit.symm⟩
  · rcases List.eq_nil_or_concat rest with rfl | ⟨more, other, rfl⟩
    · have hlast := (List.append_inj' hsplit rfl).2
      exact absurd (List.singleton_inj.mp hlast) hc
    · refine ⟨more, ?_⟩
      have hwhole : front ++ c :: more ++ [other] =
          popBack last (front ++ c :: more.concat other) ++ [last] := by
        rw [← hsplit]
        simp
      exact (List.append_inj' hwhole rfl).1.symm

theorem exists_trim_popBack (indent : Indent) {c : Char} (hc : c ∉ [' ', '\t', '\r'])
    (rest : StdString) :
    ∃ more, trim (popBack '\r' (indent.text ++ c :: rest)) = c :: more := by
  have hplain : c ∉ [' ', '\t'] := fun hmem => hc (List.mem_append_left ['\r'] hmem)
  have hreturn : c ≠ '\r' := by
    rintro rfl
    exact hc (List.mem_append_right [' ', '\t'] List.mem_cons_self)
  obtain ⟨more, hmore⟩ := exists_popBack_append_cons indent.text hreturn rest
  rw [hmore, trim_indent indent hplain]
  exact ⟨more, rfl⟩

/-- The loop stores no route of a skipped line. -/
theorem lineOutcome_skipped (line : SkippedLine longBits) (route : SignalRoute) :
    lineOutcome longBits (ConfigLine.skipped line).line ≠ .route route := by
  obtain ⟨text, noNewline, skipped, crlf⟩ := line
  intro hroute
  obtain ⟨hcomment, service, method, others, serviceId, methodId, hwords, hservice, hmethod, -⟩ :=
    words_of_route hroute
  rw [ConfigLine.line, words_append_space _ (isSpace_carriageReturn crlf)] at hwords
  cases skipped with
  | blank hblank =>
      have hspace : ∀ c ∈ text, isSpace c = true := by
        intro c hc
        have hmem := hblank c hc
        simp only [List.mem_cons, List.not_mem_nil, or_false] at hmem
        rcases hmem with rfl | rfl | rfl <;> rfl
      have hnone : words text = [] := words_append_space [] hspace
      rw [hnone] at hwords
      cases hwords
  | comment indent rest =>
      obtain ⟨more, htrim⟩ := exists_trim_popBack indent (show '#' ∉ [' ', '\t', '\r'] by decide)
        (rest ++ carriageReturn crlf)
      rw [ConfigLine.line, List.append_assoc, List.cons_append, htrim] at hcomment
      exact hcomment rfl
  | short hshort =>
      rw [hwords, List.length_cons, List.length_cons, List.length_cons] at hshort
      omega
  | badService htext hthrow =>
      obtain ⟨-, hrest⟩ := List.cons.inj (htext.symm.trans hwords)
      rw [(List.cons.inj hrest).1, hservice] at hthrow
      cases hthrow
  | badMethod htext hthrow =>
      -- The service id has been parsed when the method id throws.
      obtain ⟨-, hrest⟩ := List.cons.inj (htext.symm.trans hwords)
      obtain ⟨-, hrest⟩ := List.cons.inj hrest
      rw [(List.cons.inj hrest).1, hmethod] at hthrow
      cases hthrow

/-- A skipped line leaves the routes as they were. -/
theorem loadLine_skipped (line : SkippedLine longBits) (routes : List SignalRoute) :
    loadLine longBits routes (ConfigLine.skipped line).line = routes := by
  have hnone : (lineOutcome longBits (ConfigLine.skipped line).line).route? = none := by
    cases houtcome : lineOutcome longBits (ConfigLine.skipped line).line with
    | skipped => rfl
    | badLine => rfl
    | route loaded => exact absurd houtcome (lineOutcome_skipped line loaded)
  rw [loadLine, hnone]
  exact List.append_nil routes

theorem Gap.endsWord (gap : Gap) (rest : StdString) : EndsWord (gap.text ++ rest) := by
  obtain ⟨text, blank, nonempty⟩ := gap
  cases text with
  | nil => exact absurd rfl nonempty
  | cons c text => exact endsWord_cons (isSpace_of_blank blank c List.mem_cons_self) _

theorem IdText.isWord (id : IdText) : IsWord id.text where
  nonempty := List.append_ne_nil_of_right_ne_nil _ id.isHexNumeral.nonempty
  noSpace := by
    have hmarks : ∀ mark ∈ hexMarks, (mark.all fun c => ! isSpace c) = true := by decide
    rw [IdText.text, List.forall_mem_append]
    refine ⟨noSpace_of_all (hmarks id.mark id.isMark), ?_⟩
    exact fun c hc => isSpace_of_isHexDigit (id.isHexNumeral.isHexDigit c hc)

theorem RouteLine.words_text (line : RouteLine) :
    words line.text = line.name.text :: line.service.text :: line.method.text ::
      words line.tail := by
  rw [RouteLine.text, words_space (isSpace_of_blank line.indent.blank),
    words_append line.name.isWord (line.first.endsWord _),
    words_space (isSpace_of_blank line.first.blank),
    words_append line.service.isWord (line.second.endsWord _),
    words_space (isSpace_of_blank line.second.blank),
    words_append line.method.isWord line.endsMethod]

theorem IdText.stoul16_text (id : IdText) (hbits : 16 ≤ longBits) :
    stoul16 longBits id.text = some (hexValue id.digits) :=
  stoul16_append id.isMark id.isHexNumeral
    (Nat.lt_of_lt_of_le id.lt_bound (Nat.pow_le_pow_right (by decide) hbits))

/-- A route line adds its route. -/
theorem loadLine_route (hbits : 16 ≤ longBits) (line : RouteLine) (routes : List SignalRoute) :
    loadLine longBits routes (ConfigLine.route line : ConfigLine longBits).line =
      routes ++ [line.route] := by
  have hwords := line.words_text
  rw [← words_append_space line.text (isSpace_carriageReturn line.crlf)] at hwords
  have hcomment : (trim (popBack '\r' (line.text ++ carriageReturn line.crlf))).head? ≠
      some '#' := by
    obtain ⟨c, name, hname⟩ := List.exists_cons_of_ne_nil line.name.isWord.nonempty
    have hplain : c ∉ [' ', '\t', '\r'] := by
      have hc := line.name.isWord.noSpace c (hname ▸ List.mem_cons_self)
      simp only [List.mem_cons, List.not_mem_nil, or_false]
      rintro (rfl | rfl | rfl) <;> exact absurd hc (by decide)
    have hname' : line.name.text.head? = some c := by rw [hname]; rfl
    rw [RouteLine.text, hname, List.append_assoc, List.cons_append, List.cons_append]
    obtain ⟨more, hmore⟩ := exists_trim_popBack line.indent hplain _
    rw [hmore, List.head?_cons, ← hname']
    exact line.notComment
  rw [ConfigLine.line, loadLine, lineOutcome_of_words hcomment hwords, tryRoute,
    line.service.stoul16_text hbits, line.method.stoul16_text hbits]
  rfl

/-! ## A file -/

theorem foldl_loadLine (hbits : 16 ≤ longBits) (file : List (ConfigLine longBits))
    (routes : List SignalRoute) :
    (file.map ConfigLine.line).foldl (loadLine longBits) routes = routes ++ configRoutes file := by
  induction file generalizing routes with
  | nil => exact (List.append_nil routes).symm
  | cons line file ih =>
      rw [List.map_cons, List.foldl_cons, ih]
      cases line with
      | route line => rw [loadLine_route hbits, List.append_assoc]; rfl
      | skipped line => rw [loadLine_skipped]; rfl

theorem newline_not_mem_word {word : StdString} (hword : IsWord word) : '\n' ∉ word :=
  fun hmem => absurd (hword.noSpace _ hmem) (by decide)

theorem newline_not_mem_blank {text : StdString} (hblank : ∀ c ∈ text, c = ' ' ∨ c = '\t') :
    '\n' ∉ text := by
  intro hmem
  rcases hblank _ hmem with heq | heq <;> exact absurd heq (by decide)

theorem ConfigLine.newline_not_mem (line : ConfigLine longBits) : '\n' ∉ line.line := by
  have hreturn : ∀ crlf, '\n' ∉ carriageReturn crlf := by decide
  cases line with
  | route line =>
      simp only [ConfigLine.line, RouteLine.text, List.mem_append, not_or]
      exact ⟨⟨newline_not_mem_blank line.indent.blank, newline_not_mem_word line.name.isWord,
        newline_not_mem_blank line.first.blank, newline_not_mem_word line.service.isWord,
        newline_not_mem_blank line.second.blank, newline_not_mem_word line.method.isWord,
        line.noNewline⟩, hreturn line.crlf⟩
  | skipped line =>
      rw [ConfigLine.line, List.mem_append, not_or]
      exact ⟨line.noNewline, hreturn line.crlf⟩

theorem lines_configText (file : List (ConfigLine longBits)) :
    lines (configText file) = file.map ConfigLine.line := by
  have hlines := @lines_flatMap (file.map ConfigLine.line) (by
    intro line hline
    obtain ⟨line, _, rfl⟩ := List.mem_map.mp hline
    exact line.newline_not_mem)
  rwa [List.flatMap_map] at hlines

/-- Loading the text of a file gives back its routes in order, and reports success if there
is one. -/
theorem load_configText (hbits : 32 ≤ longBits) (file : List (ConfigLine longBits)) :
    ((ConfigLoader.load longBits {} (some (configText file))).1 = true ↔
      configRoutes file ≠ []) ∧
    (ConfigLoader.load longBits {} (some (configText file))).2.routes = configRoutes file := by
  have hroutes : (lines (configText file)).foldl (loadLine longBits) [] = configRoutes file := by
    rw [lines_configText, foldl_loadLine (Nat.le_trans (by decide) hbits), List.nil_append]
  rw [ConfigLoader.load, hroutes]
  simp

theorem load_configText_engine :
    32 ≤ 64 ∧
    ConfigLoader.load 64 {}
        (some "# Engine\r\n\tEngineRPM 0x0101 8001 rpm\r\nEngineTemp 0x0101 ZZ\n".toList) =
      (true, { routes := [⟨"EngineRPM".toList, 0x0101, 0x8001⟩] }) := by
  have hload := @load_configText 64 (by decide) [
    .skipped
      { text := "# Engine".toList
        noNewline := by decide
        skipped := .comment ⟨[], by simp⟩ " Engine".toList
        crlf := true },
    .route
      { indent := ⟨['\t'], by simp⟩
        name := ⟨"EngineRPM".toList, by decide, noSpace_of_all (by decide)⟩
        notComment := by decide
        first := ⟨[' '], by simp, by decide⟩
        service := ⟨['0', 'x'], "0101".toList, by decide, ⟨by decide, List.all_eq_true.mp rfl⟩,
          by decide⟩
        second := ⟨[' '], by simp, by decide⟩
        method := ⟨[], "8001".toList, by decide, ⟨by decide, List.all_eq_true.mp rfl⟩,
          by decide⟩
        tail := " rpm".toList
        endsMethod := endsWord_cons rfl _
        noNewline := by decide
        crlf := true },
    .skipped
      { text := "EngineTemp 0x0101 ZZ".toList
        noNewline := by decide
        skipped := @Skipped.badMethod 64 _ "EngineTemp".toList "0x0101".toList "ZZ".toList []
          (by decide) (by decide)
        crlf := false }]
  refine ⟨by decide, Prod.ext (hload.1.mpr (List.cons_ne_nil _ _)) ?_⟩
  exact congrArg ConfigLoader.mk hload.2

end AutomotiveGateway
