import DltxtBridge.Protocol.Requests

namespace DltxtBridge.Protocol

/-- What is thrown on the way from a payload to a parser; the libraries word the last two. -/
inductive ParserError
  | invalidArgument (message : Bytes)
  | typeError
  | regexError
deriving DecidableEq

/-- `payload.value(key, std::string{})`. -/
def optionalString (payload : Json) (key : String) : Except ParserError Bytes :=
  match payload.value Json.getString (ascii key) [] with
  | some text => .ok text
  | none => .error .typeError

def requireString (payload : Json) (key : String) : Except ParserError Bytes :=
  match stringMember? payload (ascii key) with
  | some text => .ok text
  | none => .error (.invalidArgument (ascii "Parser regex payload is missing string field: " ++ ascii key))

def regexConfigFromJson (payload : Json) : Except ParserError RegexConfig :=
  if !payload.isObject then .error (.invalidArgument (ascii "Parser regex payload must be an object"))
  else do
    let originalPrefixRegex ← requireString payload "originalPrefixRegex"
    let translatedPrefixRegex ← requireString payload "translatedPrefixRegex"
    let otherPrefixRegex ← optionalString payload "otherPrefixRegex"
    let originalWhiteRegex ← optionalString payload "originalWhiteRegex"
    let translatedWhiteRegex ← optionalString payload "translatedWhiteRegex"
    let originalSuffixRegex ← optionalString payload "originalSuffixRegex"
    let translatedSuffixRegex ← optionalString payload "translatedSuffixRegex"
    return ⟨originalPrefixRegex, translatedPrefixRegex, otherPrefixRegex, originalWhiteRegex, translatedWhiteRegex,
      originalSuffixRegex, translatedSuffixRegex⟩

def textBlockConfigFromJson (payload : Json) : Except ParserError TextBlockConfig :=
  if !payload.isObject then .error (.invalidArgument (ascii "Parser text-block payload must be an object"))
  else do
    let pattern ← optionalString payload "pattern"
    let originalPrefixRegex ← optionalString payload "originalPrefixRegex"
    let translatedPrefixRegex ← optionalString payload "translatedPrefixRegex"
    let originalWhiteRegex ← optionalString payload "originalWhiteRegex"
    let translatedWhiteRegex ← optionalString payload "translatedWhiteRegex"
    let originalSuffixRegex ← optionalString payload "originalSuffixRegex"
    let translatedSuffixRegex ← optionalString payload "translatedSuffixRegex"
    return ⟨pattern, originalPrefixRegex, translatedPrefixRegex, originalWhiteRegex, translatedWhiteRegex,
      originalSuffixRegex, translatedSuffixRegex⟩

def parserTypeFromString (type : Bytes) : Except ParserError ParserType :=
  if type = ascii "text-block" then .ok .textBlock
  else if type = ascii "standard" then .ok .standard
  else .error (.invalidArgument (ascii "Unsupported parser type: " ++ type))

def parserTypeToString : ParserType → Bytes
  | .standard => ascii "standard"
  | .textBlock => ascii "text-block"

def parserTypeKey : Bytes := ascii "parserType"

def parserConfigKey : Bytes := ascii "parserConfig"

def configOfType (payload : Json) : ParserType → Except ParserError ParserConfig
  | .standard => do
    let config ← regexConfigFromJson payload
    return { type := .standard, standard := some config }
  | .textBlock => do
    let config ← textBlockConfigFromJson payload
    if config.pattern.length = 0 then
      .error (.invalidArgument (ascii "Parser text-block payload is missing string field: pattern"))
    else return { type := .textBlock, textBlock := some config }

/-- A payload without a type is the older flat one. -/
def parserConfigFromJson (payload : Json) : Except ParserError ParserConfig :=
  if !payload.isObject then .error (.invalidArgument (ascii "Parser config payload must be an object"))
  else
    match payload.member? parserTypeKey with
    | none => configOfType payload .standard
    | some typeName =>
      match typeName.getString with
      | none => .error (.invalidArgument (ascii "Parser config payload must contain string field: parserType"))
      | some typeName => do
        let type ← parserTypeFromString typeName
        match payload.value some parserConfigKey .emptyObject with
        | none => .error .typeError
        | some parserPayload => configOfType parserPayload type

/-- The constructors of the two parsers compile the regular expressions, which may throw. -/
def makeTextParser (standardTextParser : RegexConfig → Option TextParser)
    (textBlockParser : TextBlockConfig → Option TextParser) (config : ParserConfig) : Except ParserError TextParser :=
  let compiled : Option TextParser → Except ParserError TextParser := fun parser => parser.elim (.error .regexError) .ok
  match config.type with
  | .textBlock =>
    match config.textBlock with
    | none => .error (.invalidArgument (ascii "Text-block parser config is missing text-block settings"))
    | some settings => compiled (textBlockParser settings)
  | .standard =>
    match config.standard with
    | none => .error (.invalidArgument (ascii "Standard parser config is missing regex settings"))
    | some settings => compiled (standardTextParser settings)

inductive CompleteConfig : ParserConfig → Prop
  | standard (config : RegexConfig) : CompleteConfig { type := .standard, standard := some config }
  | textBlock (config : TextBlockConfig) (hpattern : config.pattern ≠ []) :
    CompleteConfig { type := .textBlock, textBlock := some config }

def regexConfigToJson (config : RegexConfig) : Json :=
  .object
    [(ascii "originalPrefixRegex", .string config.originalPrefixRegex),
      (ascii "originalSuffixRegex", .string config.originalSuffixRegex),
      (ascii "originalWhiteRegex", .string config.originalWhiteRegex),
      (ascii "otherPrefixRegex", .string config.otherPrefixRegex),
      (ascii "translatedPrefixRegex", .string config.translatedPrefixRegex),
      (ascii "translatedSuffixRegex", .string config.translatedSuffixRegex),
      (ascii "translatedWhiteRegex", .string config.translatedWhiteRegex)]

def textBlockConfigToJson (config : TextBlockConfig) : Json :=
  .object
    [(ascii "originalPrefixRegex", .string config.originalPrefixRegex),
      (ascii "originalSuffixRegex", .string config.originalSuffixRegex),
      (ascii "originalWhiteRegex", .string config.originalWhiteRegex),
      (ascii "pattern", .string config.pattern),
      (ascii "translatedPrefixRegex", .string config.translatedPrefixRegex),
      (ascii "translatedSuffixRegex", .string config.translatedSuffixRegex),
      (ascii "translatedWhiteRegex", .string config.translatedWhiteRegex)]

def typedPayload (type : ParserType) (payload : Json) : Json :=
  .object [(parserConfigKey, payload), (parserTypeKey, .string (parserTypeToString type))]

def payloadOf (config : ParserConfig) : Json :=
  typedPayload config.type <|
    match config.type with
    | .standard => (config.standard.map regexConfigToJson).getD .emptyObject
    | .textBlock => (config.textBlock.map textBlockConfigToJson).getD .emptyObject

section Payloads

variable {payload : Json} {config : ParserConfig} {type : ParserType}

lemma parserTypeFromString_toString (type : ParserType) :
    parserTypeFromString (parserTypeToString type) = .ok type := by
  cases type <;> rfl

lemma parserConfigFromJson_typed (type : ParserType) (payload : Json) :
    parserConfigFromJson (typedPayload type payload) = configOfType payload type := by
  have hmember : (typedPayload type payload).member? parserTypeKey = some (.string (parserTypeToString type)) := rfl
  have hvalue : (typedPayload type payload).value some parserConfigKey .emptyObject = some payload := rfl
  rw [parserConfigFromJson, if_neg (by simp [typedPayload, Json.isObject]), hmember]
  simp only [Json.getString, parserTypeFromString_toString, hvalue]
  rfl

lemma parserConfigFromJson_of_flat (hobject : payload.isObject) (hflat : payload.member? parserTypeKey = none) :
    parserConfigFromJson payload = configOfType payload .standard := by
  rw [parserConfigFromJson, hobject, hflat]
  rfl

lemma parserConfigFromJson_flat (hobject : payload.isObject) (hflat : payload.member? parserTypeKey = none) :
    parserConfigFromJson payload = parserConfigFromJson (typedPayload .standard payload) := by
  rw [parserConfigFromJson_of_flat hobject hflat, parserConfigFromJson_typed]

lemma regexConfigFromJson_toJson (config : RegexConfig) : regexConfigFromJson (regexConfigToJson config) = .ok config :=
  rfl

lemma textBlockConfigFromJson_toJson (config : TextBlockConfig) :
    textBlockConfigFromJson (textBlockConfigToJson config) = .ok config :=
  rfl

lemma exists_configOfType (h : parserConfigFromJson payload = .ok config) :
    ∃ parserPayload type, configOfType parserPayload type = .ok config := by
  rw [parserConfigFromJson] at h
  split_ifs at h
  split at h
  · exact ⟨payload, .standard, h⟩
  · split at h
    · cases h
    · rename_i typeName _
      cases htype : parserTypeFromString typeName with
      | error error =>
        rw [htype] at h
        cases h
      | ok type =>
        rw [htype] at h
        simp only [bind, Except.bind] at h
        split at h
        · cases h
        · exact ⟨_, type, h⟩

lemma complete_configOfType (h : configOfType payload type = .ok config) : CompleteConfig config := by
  cases type with
  | standard =>
    rw [configOfType] at h
    cases hsettings : regexConfigFromJson payload with
    | error error =>
      rw [hsettings] at h
      cases h
    | ok settings =>
      rw [hsettings] at h
      cases h
      exact .standard settings
  | textBlock =>
    rw [configOfType] at h
    cases hsettings : textBlockConfigFromJson payload with
    | error error =>
      rw [hsettings] at h
      cases h
    | ok settings =>
      rw [hsettings] at h
      simp only [bind, Except.bind] at h
      split_ifs at h with hpattern
      cases h
      exact .textBlock settings fun hempty => hpattern (List.length_eq_zero_iff.mpr hempty)

lemma complete_of_accepted (h : parserConfigFromJson payload = .ok config) : CompleteConfig config := by
  obtain ⟨parserPayload, type, hconfig⟩ := exists_configOfType h
  exact complete_configOfType hconfig

namespace CompleteConfig

lemma accepted (h : CompleteConfig config) : parserConfigFromJson (payloadOf config) = .ok config := by
  cases h with
  | standard settings =>
    rw [payloadOf, parserConfigFromJson_typed]
    simp only [Option.map_some, Option.getD_some, configOfType, regexConfigFromJson_toJson]
    rfl
  | textBlock settings hpattern =>
    rw [payloadOf, parserConfigFromJson_typed]
    simp only [Option.map_some, Option.getD_some, configOfType, textBlockConfigFromJson_toJson]
    exact if_neg fun hempty => hpattern (List.length_eq_zero_iff.mp hempty)

lemma makeTextParser_ne (h : CompleteConfig config) (standardTextParser : RegexConfig → Option TextParser)
    (textBlockParser : TextBlockConfig → Option TextParser) (message : Bytes) :
    makeTextParser standardTextParser textBlockParser config ≠ .error (.invalidArgument message) := by
  intro hthrown
  cases h with
  | standard settings =>
    rw [makeTextParser] at hthrown
    cases hparser : standardTextParser settings <;> simp [hparser] at hthrown
  | textBlock settings =>
    rw [makeTextParser] at hthrown
    cases hparser : textBlockParser settings <;> simp [hparser] at hthrown

end CompleteConfig

theorem accepted_iff_complete (config : ParserConfig) :
    ((∃ payload, parserConfigFromJson payload = .ok config) ↔ CompleteConfig config) ∧
    (CompleteConfig config ↔ parserConfigFromJson (payloadOf config) = .ok config) ∧
    (CompleteConfig config → ∀ standardTextParser textBlockParser message,
      makeTextParser standardTextParser textBlockParser config ≠ .error (.invalidArgument message)) := by
  refine ⟨⟨?_, fun h => ⟨payloadOf config, h.accepted⟩⟩, ⟨fun h => h.accepted, complete_of_accepted⟩, fun h => ?_⟩
  · rintro ⟨payload, hpayload⟩
    exact complete_of_accepted hpayload
  · intro standardTextParser textBlockParser message
    exact h.makeTextParser_ne standardTextParser textBlockParser message

end Payloads

end DltxtBridge.Protocol
