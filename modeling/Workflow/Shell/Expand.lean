import Workflow.Shell.Arithmetic
import Workflow.Shell.Pattern
import Workflow.Shell.State

/-!
# `Workflow.Shell.Expand` — what words stand for

Values, outputs of commands and numbers take the places of pieces.  Where a piece is not quoted, its value is split at
separators, so that a word can become several fields or none.  How commands inside words run is left to a parameter.

## Contents
- `Span`, a part of an expanded word, with `fieldsOf`, `plainText` and `lettersOf`.
- `ExpandM`, expansion, which can end the script, and `expandPiece`, by pieces.
- `expandFields`, `expandText` and `expandPattern`, what words stand for at their places.
- `redirect`, which opens the streams of a command.
-/

namespace Workflow.Shell

/-! ## Expanded words -/

/-- A part of an expanded word. -/
inductive Span where
  | text (text : String) (isQuoted : Bool)
  /-- A value that is split at separators. -/
  | loose (text : String)
  /-- The end of a field. -/
  | parting
  deriving DecidableEq, Repr

/-- A value, which is kept whole in quotes. -/
def Span.ofValue (isQuoted : Bool) (value : String) : Span :=
  if isQuoted then .text value true else .loose value

/-- Makes text without quotes a value, which is split. -/
def Span.loosened : Span → Span
  | .text given false => .loose given
  | span => span

/-- What the last character told about the fields. -/
inductive Fielding.Stage where
  /-- The last field can still grow. -/
  | grows
  /-- Blanks ended the last field, and a separator after them still belongs to its end. -/
  | blank
  | apart
  deriving DecidableEq

/-- The fields so far, of which the last comes first. -/
structure Fielding where
  fields : List String
  stage : Fielding.Stage

namespace Fielding

/-- Adds text to the last field, or begins one. -/
def append (f : Fielding) (text : String) : Fielding :=
  match f.stage, f.fields with
  | .grows, last :: before => ⟨(last ++ text) :: before, .grows⟩
  | _, fields => ⟨text :: fields, .grows⟩

/-- The separators that are blanks. -/
def isBlank (c : Char) : Bool := c = ' ' || c = '\t' || c = '\n'

/-- Takes a character of a value that is split. -/
def split (separators : List Char) (f : Fielding) (c : Char) : Fielding :=
  if !separators.contains c then f.append c.toString
  else if isBlank c then { f with stage := if f.stage = .grows then .blank else f.stage }
  else if f.stage = .apart then ⟨"" :: f.fields, .apart⟩
  else { f with stage := .apart }

/-- Takes a part of an expanded word. -/
def take (separators : List Char) (f : Fielding) : Span → Fielding
  | .text given _ => f.append given
  | .loose given => given.toList.foldl (split separators) f
  | .parting => { f with stage := .apart }

end Fielding

/-- The fields of an expanded word. -/
def fieldsOf (separators : String) (spans : List Span) : List String :=
  (spans.foldl (Fielding.take separators.toList) ⟨[], .apart⟩).fields.reverse

/-- The text of an expanded word where it is not split. -/
def plainText (spans : List Span) : String :=
  String.join (spans.map fun
    | .text given _ | .loose given => given
    | .parting => " ")

/-- The letters of an expanded word where it is a pattern. -/
def lettersOf (spans : List Span) : List Letter :=
  spans.flatMap fun
    | .text given isQuoted => given.toList.map (⟨·, isQuoted⟩)
    | .loose given => given.toList.map (⟨·, false⟩)
    | .parting => [⟨' ', false⟩]

/-! ## Expansion -/

/-- Expansion, which can fail; the state tells how the script goes on then. -/
abbrev ExpandM := OptionT (StateM Shell)

/-- Ends the script with a complaint. -/
def giveUp {α : Type} (message : String) : ExpandM α := do
  modify (·.abort message)
  failure

/-- The value of a parameter, which has to have one if the script says so. -/
def demandedValue (name : String) : ExpandM String := do
  let s ← get
  match s.value? name with
  | some value => return value
  | none =>
    if s.wantsValues && name != "@" && name != "*" then giveUp (name ++ ": parameter not set")
    else return ""

/-- The parts that a parameter stands for. -/
def ofParameter (isQuoted : Bool) (name : String) : ExpandM (List Span) := do
  if name = "@" ∨ (name = "*" ∧ !isQuoted) then
    return ((← get).arguments.map (Span.ofValue isQuoted)).intersperse .parting
  else return [.ofValue isQuoted (← demandedValue name)]

/-- A text without ends of lines at its end. -/
def withoutLastEnds (text : String) : String :=
  String.ofList ((text.toList.reverse.dropWhile (· = '\n')).reverse)

/-- What is said of a parameter without a value. -/
def absenceMessage (emptyToo : Bool) (told : String) : String :=
  if !told.isEmpty then told
  else if emptyToo then "parameter not set or null"
  else "parameter not set"

/-- Whether pieces are just all arguments. -/
def isAllArguments : List Piece → Bool
  | [.parameter "@"] => true
  | _ => false

section

variable (run : Command → Shell → Shell)

mutual
/-- What a piece stands for. -/
def expandPiece (isQuoted : Bool) : Piece → ExpandM (List Span)
  | .text given => return [.text given isQuoted]
  | .quoted pieces => do
    let spans ← expandPieces true pieces
    -- All arguments in quotes are no field at all if there are none.
    return if spans.isEmpty && isAllArguments pieces then [] else .text "" true :: spans
  | .parameter name => ofParameter isQuoted name
  | .length name => do
    if name = "@" ∨ name = "*" then return [.ofValue isQuoted (toString (← get).arguments.length)]
    else return [.ofValue isQuoted (toString (← demandedValue name).utf8ByteSize)]
  | .fallback name kind emptyToo instead => do
    let present := ((← get).value? name).filter fun value => !(emptyToo && value.isEmpty)
    match kind, present with
    | .alternative, none => return if isQuoted then [.text "" true] else []
    | .alternative, some _ | .substitute, none =>
      let spans ← expandPieces isQuoted instead
      return if isQuoted then spans else spans.map Span.loosened
    | .assign, none =>
      let value := plainText (← expandPieces isQuoted instead)
      modify (·.bind name value)
      return [.ofValue isQuoted value]
    | .complain, none =>
      let told := plainText (← expandPieces isQuoted instead)
      giveUp (name ++ ": " ++ absenceMessage emptyToo told)
    | .substitute, some _ | .assign, some _ | .complain, some _ => ofParameter isQuoted name
  | .cut name cut pattern => do
    let spans ← expandPieces false pattern
    let value ← demandedValue name
    let rest := (Pattern.ofLetters (lettersOf spans)).cut cut.atEnd cut.greedy value.toList
    return [.ofValue isQuoted (String.ofList rest)]
  | .output command => do
    let (output, after) := (← get).capture (run command)
    set { after with innerStatus := some after.status }
    return [.ofValue isQuoted (withoutLastEnds output)]
  | .arithmetic expression => do
    let source := plainText (← expandPieces true expression)
    match Arithmetic.value (← get).bindings source with
    | .error error => giveUp (error.message source)
    | .ok (value, bindings) =>
      modify ({ · with bindings })
      return [.ofValue isQuoted (toString value)]
  | .broken => giveUp "Bad substitution"
/-- What pieces stand for. -/
def expandPieces (isQuoted : Bool) : List Piece → ExpandM (List Span)
  | [] => return []
  | piece :: rest => do return (← expandPiece isQuoted piece) ++ (← expandPieces isQuoted rest)
end

/-- The fields of words. -/
def expandFields : List Word → ExpandM (List String)
  | [] => return []
  | word :: rest => do
    let spans ← expandPieces run false word
    return fieldsOf (← get).separators spans ++ (← expandFields rest)

/-- The text of a word that is not split. -/
def expandText (word : Word) : ExpandM String := do return plainText (← expandPieces run false word)

/-- The pattern that a word is. -/
def expandPattern (word : Word) : ExpandM Pattern := do
  return Pattern.ofLetters (lettersOf (← expandPieces run false word))

/-- Sets names in turn. -/
def applySettings (entries : List (String × Word)) : ExpandM Unit :=
  entries.forM fun (name, word) => do
    let value ← expandText run word
    modify (·.bind name value)

/-! ## Redirections -/

/-- Complains of a redirection. -/
def failToOpen {α : Type} (message : String) : ExpandM α := do
  modify (·.complain 2 message)
  failure

/-- The numbered stream that a file stands for. -/
def streamOf? (name : String) : Option Nat :=
  match name with
  | "/dev/stdin" => some 0
  | "/dev/stdout" => some 1
  | "/dev/stderr" => some 2
  | _ => none

/-- Opens a file to be written. -/
def openToWrite (number : Nat) (name : String) (keeps : Bool) : ExpandM Unit := do
  let s ← get
  match streamOf? name with
  | some other => set (s.direct number (s.sink other))
  | none =>
    if name = "/dev/null" then set (s.direct number .nowhere)
    else if name.isEmpty ∨ name.startsWith "/" ∨ name.contains '/' ∧ (s.file? name).isNone then
      failToOpen ("cannot create " ++ name ++ ": Directory nonexistent")
    else
      let kept := if keeps then ((s.file? name).map (·.text)).getD "" else ""
      set ((s.store name kept).direct number (.file name))

/-- Opens a file to be read. -/
def openToRead (number : Nat) (name : String) : ExpandM Unit := do
  let s ← get
  if name = "/dev/stdin" then return
  match if name = "/dev/null" then some "" else (s.file? name).map (·.text) with
  | some given => if number = 0 then set { s with input := given }
  | none => failToOpen ("cannot open " ++ name ++ ": No such file")

/-- Opens a stream of a command. -/
def redirect : Redirection → ExpandM Unit
  | .mk number (.read name) => do openToRead number (← expandText run name)
  | .mk number (.write name) => do openToWrite number (← expandText run name) false
  | .mk number (.append name) => do openToWrite number (← expandText run name) true
  | .mk number (.same other) => do
    match (← expandText run other).toNat? with
    | some other => modify fun s => s.direct number (s.sink other)
    | none => modify (·.direct number .nowhere)
  | .mk number (.here index) => do
    let given ← match ((← get).texts)[index]? with
      | some word => expandText run word
      | none => pure ""
    if number = 0 then modify ({ · with input := given })

/-- Whether a redirection changes what is read. -/
def readsElsewhere : Redirection → Bool
  | .mk number _ => number == 0

/-- Runs something with streams that are opened for it, unless one of them cannot be opened. -/
def redirected (redirections : List Redirection) (inner : Shell → Shell) (s : Shell) : Shell :=
  match ((redirections.forM (redirect run)).run).run s with
  | (none, after) => { after with sinks := s.sinks, input := s.input }
  | (some (), opened) =>
    let after := inner opened
    { after with
      sinks := s.sinks, input := if redirections.any readsElsewhere then s.input else after.input }

end

end Workflow.Shell
