import DltxtBridge.Documents.Uri

namespace DltxtBridge.Documents

def newline : UInt16 := 10

def carriageReturn : UInt16 := 13

def normalizeNewlines : Text → Text
  | 13 :: 10 :: rest => newline :: normalizeNewlines rest
  | ch :: rest => (if ch = carriageReturn then newline else ch) :: normalizeNewlines rest
  | [] => []

/-- `line` is the text since the last line break. -/
def splitLinesFrom (line : Text) : Text → List Text
  | 13 :: 10 :: rest => line :: splitLinesFrom [] rest
  | ch :: rest =>
    if ch = newline ∨ ch = carriageReturn then line :: splitLinesFrom [] rest
    else splitLinesFrom (line ++ [ch]) rest
  | [] => [line]

def splitLines (text : Text) : List Text := splitLinesFrom [] text

structure Position where
  line : ℕ
  character : ℕ
deriving DecidableEq

structure Range where
  start : Position
  stop : Position
deriving DecidableEq

structure TextChange where
  range : Option Range
  text : Text
deriving DecidableEq

structure TextDocument where
  uri : Bytes
  encoding : Bytes
  filePath : FsPath
  fileName : Bytes
  version : ℤ
  lines : List Text
deriving DecidableEq

namespace TextDocument

def create (uri encoding : Bytes) (filePath : FsPath) (version : ℤ) (content : Text) : TextDocument where
  uri := uri
  encoding := encoding
  filePath := filePath
  fileName := filePath.filename
  version := version
  lines := splitLines content

def getContent (document : TextDocument) : Text := List.intercalate [newline] document.lines

def setContent (document : TextDocument) (content : Text) (version : ℤ) : TextDocument :=
  { document with version := version, lines := splitLines content }

end TextDocument

def lineAt (lines : List Text) (index : ℕ) : Text := lines.getD index []

def checkRange (lines : List Text) (range : Range) : Except String Unit :=
  if range.stop.line < range.start.line then
    .error "edit range start line is after end line"
  else if lines.length ≤ range.start.line ∨ lines.length ≤ range.stop.line then
    .error "edit range line out of bounds"
  else if (lineAt lines range.start.line).length < range.start.character ∨
      (lineAt lines range.stop.line).length < range.stop.character then
    .error "edit range character out of bounds"
  else if range.start.line = range.stop.line ∧ range.stop.character < range.start.character then
    .error "edit range start character is after end character"
  else .ok ()

def spliceLines (lines : List Text) (range : Range) (patch : List Text) : List Text :=
  let before := (lineAt lines range.start.line).take range.start.character
  let after := (lineAt lines range.stop.line).drop range.stop.character
  if range.start.line = range.stop.line ∧ patch.length = 1 then
    lines.set range.start.line (before ++ patch.headD [] ++ after)
  else
    let middle :=
      if patch.length = 1 then [before ++ patch.headD [] ++ after]
      else (before ++ patch.headD []) :: (patch.drop 1).dropLast ++ [patch.getLastD [] ++ after]
    lines.take range.start.line ++ middle ++ lines.drop (range.stop.line + 1)

namespace TextDocument

def edit (document : TextDocument) (change : TextChange) (version : ℤ) :
    Except String TextDocument :=
  match change.range with
  | none => .ok (document.setContent change.text version)
  | some range =>
    match checkRange document.lines range with
    | .error message => .error message
    | .ok () => .ok
      { document with
        lines := spliceLines document.lines range (splitLines change.text)
        version := version }

end TextDocument

end DltxtBridge.Documents
