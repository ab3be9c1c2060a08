import Workflow.Json.Basic
import Workflow.Text.Reader

/-!
# `Workflow.Json.Scan` — scanning text

What the readers of JSON text share: the reasons for which a reading stops, and the place where it does.

## Contents
- `ReadError.Cause`, its wording, and `ReadError`, a cause with a line and a column.
- `Stop`, a cause with the number of bytes not yet read, from which line and column follow.
- `skipBlanks`, the text from its first token on.
-/

namespace Workflow.Json

/-! ## Errors -/

/-- Why a text is no JSON value. -/
inductive ReadError.Cause where
  | endOfValue | endOfArray | endOfObject | endOfString
  | expectedValue | expectedWord | expectedColon | expectedArrayEnd | expectedObjectEnd
  | keyNotText | trailingComma | trailingCharacters
  | invalidNumber | numberOutOfRange
  | invalidEscape | unpairedHexEscape | loneSurrogate | controlCharacter
  | tooDeep
  deriving DecidableEq, Repr

/-- The wording of a cause. -/
def ReadError.Cause.message : ReadError.Cause → String
  | .endOfValue => "EOF while parsing a value"
  | .endOfArray => "EOF while parsing a list"
  | .endOfObject => "EOF while parsing an object"
  | .endOfString => "EOF while parsing a string"
  | .expectedValue => "expected value"
  | .expectedWord => "expected ident"
  | .expectedColon => "expected `:`"
  | .expectedArrayEnd => "expected `,` or `]`"
  | .expectedObjectEnd => "expected `,` or `\x7d`"
  | .keyNotText => "key must be a string"
  | .trailingComma => "trailing comma"
  | .trailingCharacters => "trailing characters"
  | .invalidNumber => "invalid number"
  | .numberOutOfRange => "number out of range"
  | .invalidEscape => "invalid escape"
  | .unpairedHexEscape => "unexpected end of hex escape"
  | .loneSurrogate => "lone leading surrogate in hex escape"
  | .controlCharacter => "control character (\\u0000-\\u001F) found while parsing a string"
  | .tooDeep => "recursion limit exceeded"

/-- Whether the text could be the beginning of a value. -/
def ReadError.Cause.isEnd : ReadError.Cause → Bool
  | .endOfValue | .endOfArray | .endOfObject | .endOfString => true
  | _ => false

/-- A cause and the place, in lines from one and bytes of the line, up to which the text was read. -/
structure ReadError where
  cause : ReadError.Cause
  line : Nat
  column : Nat
  deriving DecidableEq, Repr

/-- The wording of an error. -/
def ReadError.message (e : ReadError) : String :=
  e.cause.message ++ " at line " ++ toString e.line ++ " column " ++ toString e.column

/-! ## Places -/

/-- The number of UTF-8 bytes of a text. -/
def byteCount (cs : List Char) : Nat := cs.foldl (fun count c => count + c.utf8Size) 0

/-- A cause together with the number of bytes that had not been read when it arose. -/
structure Stop where
  cause : ReadError.Cause
  unread : Nat

/-- Stops at the first character of a text, whose first byte counts as read. -/
def Stop.before (cause : ReadError.Cause) (cs : List Char) : Stop := ⟨cause, byteCount cs - 1⟩

/-- Stops in front of a text, none of which counts as read. -/
def Stop.after (cause : ReadError.Cause) (cs : List Char) : Stop := ⟨cause, byteCount cs⟩

/-- Line and column after the given number of bytes. -/
def placeAfter (line column : Nat) : List Char → Nat → Nat × Nat
  | [], _ => (line, column)
  | c :: rest, bytes =>
    if bytes < c.utf8Size then (line, column + bytes)
    else if c = '\n' then placeAfter (line + 1) 0 rest (bytes - c.utf8Size)
    else placeAfter line (column + c.utf8Size) rest (bytes - c.utf8Size)

/-- The error that a stop in a text stands for. -/
def Stop.toError (text : List Char) (stop : Stop) : ReadError :=
  let place := placeAfter 1 0 text (byteCount text - stop.unread)
  ⟨stop.cause, place.1, place.2⟩

/-! ## Tokens -/

/-- Blanks between tokens. -/
def isBlank (c : Char) : Bool := c = ' ' || c = '\n' || c = '\t' || c = '\r'

/-- The text from the first token on. -/
def skipBlanks (cs : List Char) : List Char := cs.dropWhile isBlank

theorem length_skipBlanks_le (cs : List Char) : (skipBlanks cs).length ≤ cs.length :=
  Text.length_dropWhile_le isBlank cs

end Workflow.Json
