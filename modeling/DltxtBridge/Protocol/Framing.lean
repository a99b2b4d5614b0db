import DltxtBridge.Library.Delimiter
import DltxtBridge.Strings
import Mathlib.Data.Nat.Digits.Defs

/-! The message framing of `bridge_protocol.hpp`: `frame_message`, and the reader that
looks for a header block in a buffer it fills from a stream. -/

namespace DltxtBridge.Protocol

def maxContentLength : ℕ := 10 * 1024 * 1024

def crlf : Bytes := [13, 10]

def decimal (n : ℕ) : Bytes :=
  if n = 0 then [48] else (Nat.digits 10 n).reverse.map fun digit => (48 + digit).toUInt8

def frameMessage (payload : Bytes) : Bytes :=
  ascii "Content-Length: " ++ decimal payload.length ++ crlf ++ crlf ++ payload

def isIgnorableHeaderBlock (headerBlock : Bytes) : Bool :=
  !headerBlock.isEmpty && headerBlock.all fun ch => ch = 13 || ch = 10 || ch = 32 || ch = 9

def headerBlockLength (buffered : Bytes) : Option ℕ :=
  (Delimiter.find (crlf ++ crlf) buffered).map (· + 4)

def isSpace (ch : UInt8) : Bool := ch = 32 || (9 ≤ ch && ch ≤ 13)

def isDigit (ch : UInt8) : Bool := 48 ≤ ch && ch ≤ 57

def toLower (ch : UInt8) : UInt8 := if 65 ≤ ch ∧ ch ≤ 90 then ch + 32 else ch

def digitsValue (digits : Bytes) : ℕ :=
  digits.foldl (fun value ch => 10 * value + (ch.toNat - 48)) 0

/-- `std::stoull`: blanks, a sign, digits and then anything; a minus sign negates in
64-bit arithmetic, and both exceptions are `none`. -/
def stoull (value : Bytes) : Option ℕ :=
  let trimmed := value.dropWhile isSpace
  let negative := trimmed.head? = some 45
  let digits := (if negative ∨ trimmed.head? = some 43 then trimmed.tail else trimmed).takeWhile isDigit
  if digits = [] ∨ 2 ^ 64 ≤ digitsValue digits then none
  else if negative then some ((2 ^ 64 - digitsValue digits) % 2 ^ 64)
  else some (digitsValue digits)

def contentLengthKey : Bytes := ascii "content-length:"

def parseLengthValue (value : Bytes) : Option ℕ :=
  match value.dropWhile fun ch => ch = 32 || ch = 9 with
  | [] => none
  | first :: rest => (stoull (first :: rest)).filter fun parsed => parsed ≤ maxContentLength

def parseContentLength (headers : Bytes) : Option ℕ :=
  if headers = [] then none
  else
    let line := headers.take ((Delimiter.find crlf headers).getD headers.length)
    if contentLengthKey <+: line.map toLower then parseLengthValue (line.drop contentLengthKey.length)
    else
      match Delimiter.find crlf headers with
      | none => none
      | some lineEnd => parseContentLength (headers.drop (lineEnd + 2))
termination_by headers.length
decreasing_by
  have := List.length_pos_of_ne_nil ‹headers ≠ []›
  rw [List.length_drop]
  omega

/-- What one call of the read function gives; a stream at its end gives no bytes. -/
inductive ReadEvent (E : Type)
  | data (bytes : Bytes)
  | error (code : E)

inductive ReadResult (E : Type)
  | message (payload : Bytes)
  | nullopt
  | thrown (code : E)
deriving DecidableEq

structure Reader (E : Type) where
  buffer : Bytes := []
  unread : List (ReadEvent E) := []

namespace Reader

variable {E : Type}

def awaitBuffer (ready : Bytes → Bool) (buffer : Bytes) :
    List (ReadEvent E) → Option (ReadResult E) × Reader E
  | [] => if ready buffer then (none, ⟨buffer, []⟩) else (some .nullopt, ⟨buffer, []⟩)
  | .error code :: rest =>
    if ready buffer then (none, ⟨buffer, .error code :: rest⟩) else (some (.thrown code), ⟨buffer, rest⟩)
  | .data bytes :: rest =>
    if ready buffer then (none, ⟨buffer, .data bytes :: rest⟩)
    else if bytes.length = 0 then (some .nullopt, ⟨buffer, rest⟩)
    else awaitBuffer ready (buffer ++ bytes) rest

def consume (r : Reader E) (n : ℕ) : Reader E := { r with buffer := r.buffer.drop n }

def eventLength : ReadEvent E → ℕ
  | .data bytes => bytes.length
  | .error _ => 0

def remaining (r : Reader E) : ℕ := r.buffer.length + (r.unread.map eventLength).sum

lemma remaining_awaitBuffer (ready : Bytes → Bool) (buffer : Bytes) (unread : List (ReadEvent E)) :
    (awaitBuffer ready buffer unread).2.remaining ≤ remaining ⟨buffer, unread⟩ := by
  induction unread generalizing buffer with
  | nil => rw [awaitBuffer]; split <;> exact le_rfl
  | cons event rest ih =>
    cases event with
    | error code =>
      rw [awaitBuffer]
      split
      · exact le_rfl
      · simp [remaining, eventLength]
    | data bytes =>
      rw [awaitBuffer]
      split
      · exact le_rfl
      · split
        · simp [remaining]
        · apply (ih (buffer ++ bytes)).trans
          simp only [remaining, List.length_append, List.map_cons, List.sum_cons, eventLength]
          omega

def readPayload (r : Reader E) (contentLength : ℕ) : ReadResult E × Reader E :=
  match awaitBuffer (fun buffered => contentLength ≤ buffered.length) r.buffer r.unread with
  | (some result, r) => (result, r)
  | (none, r) => (.message (r.buffer.take contentLength), r.consume contentLength)

/-- `read_message_blocking`: blank header blocks start the loop again. -/
def readMessageBlocking (r : Reader E) : ReadResult E × Reader E :=
  match _hready : awaitBuffer (fun buffered => (headerBlockLength buffered).isSome) r.buffer r.unread with
  | (some result, r') => (result, r')
  | (none, r') =>
    match _hlength : headerBlockLength r'.buffer with
    | none => (.nullopt, r')
    | some headerBytes =>
      if isIgnorableHeaderBlock (r'.buffer.take headerBytes) then
        readMessageBlocking (r'.consume headerBytes)
      else
        match parseContentLength (r'.buffer.take headerBytes) with
        | none => (.nullopt, r'.consume headerBytes)
        | some contentLength => (r'.consume headerBytes).readPayload contentLength
termination_by r.remaining
decreasing_by
  have hle := remaining_awaitBuffer (fun buffered => (headerBlockLength buffered).isSome) r.buffer
    r.unread
  rw [_hready] at hle
  simp only [headerBlockLength, Option.map_eq_some_iff] at _hlength
  obtain ⟨i, hi, rfl⟩ := _hlength
  have hlen := Delimiter.find_add_length_le hi
  simp only [crlf, List.length_append, List.length_cons, List.length_nil] at hlen
  simp only [remaining, consume, List.length_drop] at hle ⊢
  omega

def readMessages : ℕ → Reader E → List (ReadResult E)
  | 0, _ => []
  | n + 1, r => r.readMessageBlocking.1 :: readMessages n r.readMessageBlocking.2

end Reader

end DltxtBridge.Protocol
