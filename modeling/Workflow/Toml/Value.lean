import Workflow.Decimal.Nearest
import Workflow.Json.Basic
import Workflow.Text.Scanner
import Workflow.Time.Timestamp

/-!
# `Workflow.Toml.Value` — keys and single values of TOML

TOML is a format for settings.  The values of a document are given as JSON values: a date or time becomes an
object that holds its text, and a number that is not finite becomes null.

## Contents
- `blanks` and `lines`, what may stand between tokens.
- `basicText`, `literalText` and their forms over several lines, and `key`.
- `number` and `time`.
-/

namespace Workflow.Toml

open Text Text.Scanner

/-! ## Blanks -/

/-- Blanks within a line. -/
def isBlank (c : Char) : Bool := c = ' ' || c = '\t'

/-- Characters that may stand in comments and texts. -/
def isPrintable (c : Char) : Bool := c = '\t' || (0x20 ≤ c.toNat && c.toNat ≠ 0x7F)

/-- Skips blanks. -/
def blanks : Scanner Unit := (fun _ => ()) <$> run isBlank

/-- Takes the end of a line. -/
def newline : Scanner Unit := char '\n' <|> word ['\r', '\n']

/-- Takes a comment, up to the end of its line. -/
def comment : Scanner Unit := char '#' *> ((fun _ => ()) <$> run isPrintable)

/-- Skips blanks and a comment. -/
def trailer : Scanner Unit := blanks *> ((fun _ => ()) <$> maybe comment)

/-- Skips blanks, comments and ends of lines. -/
def lines : Scanner Unit := do
  let _ ← many (trailer *> newline)
  trailer

/-! ## Texts -/

/-- The value of a hexadecimal number. -/
def hexValue (digits : List Char) : Nat :=
  digits.foldl (fun n c =>
    n * 16 + (if c.isDigit then c.toNat - '0'.toNat else c.toLower.toNat - 'a'.toNat + 10)) 0

def isHexDigit (c : Char) : Bool := c.isDigit || ('a' ≤ c && c ≤ 'f') || ('A' ≤ c && c ≤ 'F')

/-- Takes a character given by hexadecimal digits of the given count. -/
def codePoint (digits : Nat) : Scanner Char := do
  let value := hexValue (← count digits isHexDigit)
  if value.isValidChar then return Char.ofNat value else failure

/-- Takes what follows a backslash. -/
def escaped : Scanner Char := do
  match ← one fun _ => true with
  | 'b' => return '\x08'
  | 't' => return '\t'
  | 'n' => return '\n'
  | 'f' => return '\x0c'
  | 'r' => return '\r'
  | '"' => return '"'
  | '\\' => return '\\'
  | 'u' => codePoint 4
  | 'U' => codePoint 8
  | _ => failure

/-- Takes a text between double quotes. -/
def basicText : Scanner String := do
  char '"'
  let cs ← many ((char '\\' *> escaped) <|> one fun c => isPrintable c && c ≠ '"' && c ≠ '\\')
  char '"'
  return String.ofList cs

/-- Takes a text between single quotes, in which nothing is escaped. -/
def literalText : Scanner String := do
  char '\''
  let cs ← run fun c => isPrintable c && c ≠ '\''
  char '\''
  return String.ofList cs

/-- Takes an end of line as part of a text. -/
def textNewline : Scanner (List Char) := (fun _ => ['\n']) <$> newline

/-- Takes quotes inside a text of several lines, at most two; at its end they are part of the text if three
more follow. -/
def innerQuotes (quote : Char) : Scanner (List Char) := do
  let quotes ← run1 (· = quote)
  if quotes.length < 3 then return quotes else failure

/-- Takes the closing quotes of a text of several lines, and the quotes of the text in front of them. -/
def closingQuotes (quote : Char) : Scanner (List Char) := do
  let quotes ← run1 (· = quote)
  if 3 ≤ quotes.length ∧ quotes.length ≤ 5 then return quotes.drop 3 else failure

/-- Takes a text of several lines, given its parts. -/
def longText (quote : Char) (part : Scanner (List Char)) : Scanner String := do
  word [quote, quote, quote]
  let _ ← maybe newline
  let parts ← many (part <|> innerQuotes quote)
  let last ← closingQuotes quote
  return String.ofList (parts.flatten ++ last)

/-- Takes a text of several lines between double quotes; a backslash at the end of a line joins lines. -/
def longBasicText : Scanner String :=
  let joint : Scanner (List Char) := do
    char '\\'
    blanks
    newline
    let _ ← many ((fun _ => ()) <$> one isBlank <|> newline)
    return []
  longText '"' (joint <|> (fun c => [c]) <$> (char '\\' *> escaped)
    <|> (fun c => [c]) <$> one (fun c => isPrintable c && c ≠ '"' && c ≠ '\\') <|> textNewline)

/-- Takes a text of several lines between single quotes. -/
def longLiteralText : Scanner String :=
  longText '\'' ((fun c => [c]) <$> one (fun c => isPrintable c && c ≠ '\'') <|> textNewline)

/-- Takes a text. -/
def text : Scanner String := longBasicText <|> basicText <|> longLiteralText <|> literalText

/-! ## Keys -/

/-- The characters of a key without quotes. -/
def isKeyChar (c : Char) : Bool := c.isAlphanum || c = '_' || c = '-'

/-- Takes one part of a key. -/
def keyPart : Scanner String := String.ofList <$> run1 isKeyChar <|> basicText <|> literalText

/-- The greatest number of arrays and tables around a value, and of parts of a key. -/
def depthMax : Nat := 79

/-- Takes a key, whose parts are joined by points. -/
def key : Scanner (List String) := do
  let parts ← separated keyPart (blanks *> char '.' *> blanks)
  if parts.length ≤ depthMax then return parts else failure

/-! ## Numbers -/

/-- Takes digits, between which single underscores may stand. -/
def digits (test : Char → Bool) : Scanner (List Char) := do
  let groups ← separated (run1 test) (char '_')
  return groups.flatten

/-- Takes a sign; the answer is whether it is negative. -/
def sign : Scanner Bool := do
  match ← maybe (one fun c => c = '+' || c = '-') with
  | some c => return c = '-'
  | none => return false

/-- Takes a whole number without leading zeros. -/
def plainDigits : Scanner (List Char) := do
  let ds ← digits Char.isDigit
  if ds.head? = some '0' ∧ 1 < ds.length then failure else return ds

/-- The value of digits to a base. -/
def valueOf (base : Nat) (ds : List Char) : Nat :=
  ds.foldl (fun n c => n * base + hexValue [c]) 0

/-- A whole number, which must fit 64 bits with sign. -/
def integer (value : Int) : Scanner Json :=
  if -9223372036854775808 ≤ value ∧ value < 9223372036854775808 then return .int value else failure

/-- Takes a whole number to the base of its mark. -/
def basedInteger : Scanner Json := do
  char '0'
  match ← one fun c => c = 'x' || c = 'o' || c = 'b' with
  | 'x' => integer (valueOf 16 (← digits isHexDigit))
  | 'o' => integer (valueOf 8 (← digits fun c => '0' ≤ c && c ≤ '7'))
  | _ => integer (valueOf 2 (← digits fun c => c = '0' || c = '1'))

/-- Takes a decimal number, which is a double if it has places or an exponent.  It must not be too great, but may be
too small to be finite. -/
def decimal : Scanner Json := do
  let negative ← sign
  let ds ← plainDigits
  let places ← maybe (char '.' *> digits Char.isDigit)
  let exponent ← maybe do
    let _ ← one fun c => c = 'e' || c = 'E'
    let down ← sign
    let ds ← digits Char.isDigit
    let value := valueOf 10 ds
    return if down then -(value : Int) else value
  match places, exponent with
  | none, none =>
    let value := valueOf 10 ds
    integer (if negative then -value else value)
  | _, _ =>
    let places := places.getD []
    let x := Decimal.nearest (valueOf 10 (ds ++ places)) (exponent.getD 0 - places.length)
    if x.isFinite then return .float (if negative then -x else x)
    else if negative then return .null
    else failure

/-- Takes a number that is not finite. -/
def notFinite : Scanner Json := do
  let _ ← sign
  word ['i', 'n', 'f'] <|> word ['n', 'a', 'n']
  return .null

/-- Takes a number. -/
def number : Scanner Json := basedInteger <|> decimal <|> notFinite

/-! ## Times -/

/-- Takes what a scanner takes, as it is written. -/
def spelled (scanner : Scanner Unit) : Scanner (List Char) := fun cs =>
  (scanner cs).map fun (_, rest) => (cs.take (cs.length - rest.length), rest)

/-- Takes a number of two digits below a bound. -/
def twoDigits (bound : Nat) : Scanner Nat := do
  let value := valueOf 10 (← count 2 Char.isDigit)
  if value < bound then return value else failure

/-- Takes a date. -/
def date : Scanner Unit := do
  let year := valueOf 10 (← count 4 Char.isDigit)
  char '-'
  let month ← twoDigits 13
  char '-'
  let day ← twoDigits 32
  if month = 0 ∨ day = 0 ∨ Calendar.daysOfMonth year month < day then failure

/-- Takes hours, minutes and seconds. -/
def clock : Scanner Unit := do
  let _ ← twoDigits 24
  char ':'
  let _ ← twoDigits 60
  char ':'
  let _ ← twoDigits 61

/-- The greatest number of digits of a fraction of a second that count. -/
def fractionMax : Nat := 9

/-- A fraction of a second with as many digits as it needs. -/
def shortFraction (digits : List Char) : List Char :=
  match ((digits.take fractionMax).reverse.dropWhile (· = '0')).reverse with
  | [] => []
  | digits => '.' :: digits

/-- Takes a time of day. -/
def timeOfDay : Scanner (List Char) := do
  let clock ← spelled clock
  let fraction ← maybe (char '.' *> run1 Char.isDigit)
  return clock ++ shortFraction (fraction.getD [])

/-- Takes a number of hours and minutes with a sign. -/
def shift : Scanner Unit := do
  let _ ← one fun c => c = '+' || c = '-'
  let _ ← twoDigits 24
  char ':'
  let _ ← twoDigits 60

/-- Takes an offset from universal time. -/
def offset : Scanner (List Char) :=
  (fun _ => ['Z']) <$> one (fun c => c = 'Z' || c = 'z')
  <|> (fun cs => if cs = "-00:00".toList then "+00:00".toList else cs) <$> spelled shift

/-- The key of the text of a date or time. -/
def timeKey : String := "$__toml_private_datetime"

/-- Takes a date and perhaps a time of day. -/
def dateAndTime : Scanner (List Char) := do
  let date ← spelled date
  let time ← maybe do
    let _ ← one fun c => c = 'T' || c = 't' || c = ' '
    let time ← timeOfDay
    return 'T' :: time ++ (← maybe offset).getD []
  return date ++ time.getD []

/-- Takes a date, a time of day, or both. -/
def time : Scanner Json := do
  let time ← dateAndTime <|> timeOfDay
  return .obj [(timeKey, .str (String.ofList time))]

end Workflow.Toml
