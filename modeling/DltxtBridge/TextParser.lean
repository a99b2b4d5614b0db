import DltxtBridge.Strings

/-! Parser configurations and what parsing gives. The regular expressions are a library
outside the repository, so the parser built from a configuration is a parameter. -/

namespace DltxtBridge

structure RegexConfig where
  originalPrefixRegex : Bytes
  translatedPrefixRegex : Bytes
  otherPrefixRegex : Bytes
  originalWhiteRegex : Bytes
  translatedWhiteRegex : Bytes
  originalSuffixRegex : Bytes
  translatedSuffixRegex : Bytes
deriving DecidableEq

structure TextBlockConfig where
  pattern : Bytes
  originalPrefixRegex : Bytes
  translatedPrefixRegex : Bytes
  originalWhiteRegex : Bytes
  translatedWhiteRegex : Bytes
  originalSuffixRegex : Bytes
  translatedSuffixRegex : Bytes
deriving DecidableEq

inductive ParserType
  | standard
  | textBlock
deriving DecidableEq

structure ParserConfig where
  type : ParserType := .standard
  standard : Option RegexConfig := none
  textBlock : Option TextBlockConfig := none
deriving DecidableEq

structure ParserState where
  config : ParserConfig
  stamp : Bytes
deriving DecidableEq

structure MatchedGroups where
  prefixText : Text := []
  white : Text := []
  text : Text := []
  suffix : Text := []
deriving DecidableEq

structure ParsedPair where
  original : MatchedGroups
  translated : MatchedGroups
  originalLineIndex : ℕ := 0
  translatedLineIndex : ℕ := 0
deriving DecidableEq

/-- `parse_paired_lines`; `none` when it throws. -/
abbrev TextParser := Text → Option (List ParsedPair)

end DltxtBridge
