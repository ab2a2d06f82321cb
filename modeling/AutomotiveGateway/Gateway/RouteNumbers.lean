import AutomotiveGateway.Gateway.ConfigLoader

/-!
# The ids of a configuration file

`std::stoul` reads the number at the front of a word, takes a sign, and yields more than 16
bits. What does not fit is cut off, so an accepted line may name other ids than its route.
-/

namespace AutomotiveGateway

open Can LastWrite Someip StdString

variable (longBits : Nat)

/-! ## What a line says -/

/-- The first character behind spaces and tabs is a `#`. -/
def CommentLine (line : StdString) : Prop := (trim (popBack '\r' line)).head? = some '#'

/-- The first three words of a line that is no comment. -/
def FirstWords (line name service method : StdString) : Prop :=
  ¬ CommentLine line ∧ ∃ rest, words line = name :: service :: method :: rest

/-- The word is a number that fits an id. -/
def WritesId (token : StdString) : Prop := ∃ id < 2 ^ 16, WritesHex token (id : Nat)

/-- The line names the signal of the route, and its numbers are the route's ids. -/
def WritesRoute (line : StdString) (route : SignalRoute) : Prop :=
  ∃ service method, FirstWords line route.signalName service method ∧
    WritesHex service route.serviceId.toNat ∧ WritesHex method route.methodId.toNat

/-- Stored routes are those of their lines, a line with a number that is no id is reported,
and the ids that signals are published under are written in the file. -/
structure RoutesSound (content : StdString) : Prop where
  stored : ∀ line ∈ lines content, ∀ route, lineOutcome longBits line = .route route →
    WritesRoute line route
  rejected : ∀ line ∈ lines content, ∀ name service method,
    FirstWords line name service method → ¬ (WritesId service ∧ WritesId method) →
    lineOutcome longBits line = .badLine
  published : ∀ multicastAddr port name ids,
    ((SomeIpPublisher.create multicastAddr port).registerRoutes
      (ConfigLoader.load longBits {} (some content)).2.routes).signalMap.lookup name = some ids →
    ∃ line ∈ lines content, WritesRoute line ⟨name, ids.1, ids.2⟩

variable {longBits}

/-! ## One line -/

/-- A line with three words that is no comment gets to the `try` block. -/
theorem lineOutcome_of_firstWords {line name service method : StdString}
    (hwords : FirstWords line name service method) :
    lineOutcome longBits line = tryRoute longBits name service method := by
  obtain ⟨hcomment, rest, hline⟩ := hwords
  exact lineOutcome_of_words hcomment hline

theorem exists_firstWords {line : StdString} {route : SignalRoute}
    (hroute : lineOutcome longBits line = .route route) :
    ∃ service method serviceId methodId, FirstWords line route.signalName service method ∧
      stoul16 longBits service = some serviceId ∧ stoul16 longBits method = some methodId ∧
      route.serviceId = .ofNat serviceId ∧ route.methodId = .ofNat methodId := by
  obtain ⟨hcomment, service, method, rest, serviceId, methodId, hwords, hids⟩ :=
    words_of_route hroute
  exact ⟨service, method, serviceId, methodId, ⟨hcomment, rest, hwords⟩, hids⟩

/-- An id read from a word that is an id is the one written. -/
theorem writesHex_ofNat {token : StdString} {id : Nat} (hwrites : WritesId token)
    (hread : stoul16 longBits token = some id) : WritesHex token (UInt16.ofNat id).toNat := by
  obtain ⟨value, hvalue, hhex⟩ := hwrites
  have hid : id = value := hhex.stoul16_eq hread
  rw [hid, UInt16.toNat_ofNat_of_lt' hvalue]
  exact hhex

/-! ## A file -/

/-- The routes a file adds are those of its lines, in order. -/
theorem load_eq (loader : ConfigLoader) (content : StdString) :
    (loader.load longBits (some content)).2.routes =
      loader.routes ++
        (lines content).filterMap fun line => (lineOutcome longBits line).route? := by
  have hfold (routes : List SignalRoute) (file : List StdString) :
      file.foldl (loadLine longBits) routes =
        routes ++ file.filterMap fun line => (lineOutcome longBits line).route? := by
    induction file generalizing routes with
    | nil => exact (List.append_nil routes).symm
    | cons line file ih =>
        rw [List.foldl_cons, ih, loadLine, List.append_assoc, List.filterMap_cons]
        cases (lineOutcome longBits line).route? with
        | none => rfl
        | some route => rfl
  exact hfold loader.routes (lines content)

theorem mem_load {content : StdString} {route : SignalRoute}
    (hmem : route ∈ (ConfigLoader.load longBits {} (some content)).2.routes) :
    ∃ line ∈ lines content, lineOutcome longBits line = .route route := by
  rw [load_eq, List.nil_append, List.mem_filterMap] at hmem
  obtain ⟨line, hline, hroute⟩ := hmem
  refine ⟨line, hline, ?_⟩
  cases houtcome : lineOutcome longBits line with
  | skipped =>
      rw [houtcome] at hroute
      cases hroute
  | badLine =>
      rw [houtcome] at hroute
      cases hroute
  | route loaded =>
      rw [houtcome] at hroute
      cases hroute
      rfl

/-- Signals are published under ids of a registered route. -/
theorem exists_route_of_lookup {multicastAddr : UInt32} {port : UInt16}
    {routes : List SignalRoute} {name : StdString} {ids : UInt16 × UInt16}
    (hlookup : ((SomeIpPublisher.create multicastAddr port).registerRoutes
      routes).signalMap.lookup name = some ids) : ⟨name, ids.1, ids.2⟩ ∈ routes := by
  have hempty : (SomeIpPublisher.create multicastAddr port).signalMap.lookup name = none :=
    Finmap.lookup_empty name
  rw [SomeIpPublisher.registerRoutes_eq, lookup_writeAll, hempty, Option.or_none,
    Option.map_eq_some_iff] at hlookup
  obtain ⟨route, hlast, rfl⟩ := hlookup
  obtain ⟨hmem, hname⟩ := List.mem_filter.mp (List.mem_of_getLast? hlast)
  rw [← of_decide_eq_true hname]
  exact hmem

/-- The two numbers of every line that `std::stoul` reads are ids. -/
def ReadNumbersAreIds (longBits : Nat) (content : StdString) : Prop :=
  ∀ line ∈ lines content, ∀ name service method, FirstWords line name service method →
    (stoul16 longBits service).isSome → (stoul16 longBits method).isSome →
    WritesId service ∧ WritesId method

theorem readNumbersAreIds_of_rejected {content : StdString}
    (hrejected : ∀ line ∈ lines content, ∀ name service method,
      FirstWords line name service method → ¬ (WritesId service ∧ WritesId method) →
      lineOutcome longBits line = .badLine) : ReadNumbersAreIds longBits content := by
  intro line hline name service method hwords hservice hmethod
  by_contra hids
  have hbad := hrejected line hline name service method hwords hids
  obtain ⟨serviceId, hserviceId⟩ := Option.isSome_iff_exists.mp hservice
  obtain ⟨methodId, hmethodId⟩ := Option.isSome_iff_exists.mp hmethod
  rw [lineOutcome_of_firstWords hwords, tryRoute, hserviceId, hmethodId] at hbad
  cases hbad

theorem writesRoute_of_readNumbersAreIds {content : StdString}
    (hids : ReadNumbersAreIds longBits content) {line : StdString} (hline : line ∈ lines content)
    {route : SignalRoute} (hroute : lineOutcome longBits line = .route route) :
    WritesRoute line route := by
  obtain ⟨service, method, serviceId, methodId, hwords, hservice, hmethod, hserviceId,
    hmethodId⟩ := exists_firstWords hroute
  obtain ⟨hfirst, hsecond⟩ := hids line hline _ service method hwords
    (Option.isSome_of_eq_some hservice) (Option.isSome_of_eq_some hmethod)
  refine ⟨service, method, hwords, ?_, ?_⟩
  · rw [hserviceId]
    exact writesHex_ofNat hfirst hservice
  · rw [hmethodId]
    exact writesHex_ofNat hsecond hmethod

theorem routesSound_of_readNumbersAreIds {content : StdString}
    (hids : ReadNumbersAreIds longBits content) : RoutesSound longBits content where
  stored := fun line hline route hroute => writesRoute_of_readNumbersAreIds hids hline hroute
  rejected := by
    intro line hline name service method hwords hbad
    rw [lineOutcome_of_firstWords hwords, tryRoute]
    split
    next serviceId methodId hservice hmethod =>
      exact absurd (hids line hline name service method hwords
        (Option.isSome_of_eq_some hservice) (Option.isSome_of_eq_some hmethod)) hbad
    next => rfl
  published := by
    intro multicastAddr port name ids hlookup
    obtain ⟨line, hline, hroute⟩ := mem_load (exists_route_of_lookup hlookup)
    exact ⟨line, hline, writesRoute_of_readNumbersAreIds hids hline hroute⟩

/-- A file adds the routes of its lines, and they mean what the file says if and only if the
two numbers of every line that `std::stoul` reads are whole hexadecimal numbers of 16 bits. -/
theorem routesSound_iff (longBits : Nat) (content : StdString) :
    (∀ loader : ConfigLoader, (loader.load longBits (some content)).2.routes =
      loader.routes ++ (lines content).filterMap fun line =>
        (lineOutcome longBits line).route?) ∧
    (RoutesSound longBits content ↔ ReadNumbersAreIds longBits content) :=
  ⟨fun loader => load_eq loader content,
    fun hsound => readNumbersAreIds_of_rejected hsound.rejected,
    routesSound_of_readNumbersAreIds⟩

/-- One digit too many, and the route has the service id of another line. -/
theorem not_routesSound_extraDigit :
    ¬ RoutesSound 64 "EngineRPM 0x10101 0x8001\n".toList ∧
      (ConfigLoader.load 64 {} (some "EngineRPM 0x10101 0x8001\n".toList)).2.routes =
        [⟨"EngineRPM".toList, 0x0101, 0x8001⟩] := by
  refine ⟨fun hsound => ?_, by decide⟩
  have hwords : FirstWords "EngineRPM 0x10101 0x8001".toList "EngineRPM".toList
      "0x10101".toList "0x8001".toList := ⟨by unfold CommentLine; decide, [], by decide⟩
  obtain ⟨⟨id, hlt, hwrites⟩, -⟩ := readNumbersAreIds_of_rejected hsound.rejected
    "EngineRPM 0x10101 0x8001".toList (by decide) _ _ _ hwords (by decide) (by decide)
  have hid : 0x10101 = id := @WritesHex.stoul16_eq 64 _ _ hwrites _ (by decide)
  omega

end AutomotiveGateway
