import Workflow.Shell.Command

/-!
# `Workflow.Shell.Token` — tokens of shell scripts

A script is read token by token.  Words are read with what is in them: quotes, parameters, and whole commands, whose
reader is therefore a part of the reader of words.  The text of a redirection can stand after the line of its command.

## Contents
- `Token`, and `Misprint`, why a text is no script.
- `Source`, what is still to be read, and `ReadM`, readers, with `many`.
- `Place` and `Inner`, where pieces of words stand and the readers of what is inside them.
- `piece`, `Token.read`, and `Token.skipLines`.
-/

namespace Workflow.Shell

/-! ## Tokens -/

/-- A token of a script. -/
inductive Token where
  | endOfText
  | newline
  | operator (name : String)
  | word (word : Word)
  | redirection (redirection : Redirection)

/-- The words that are part of the language where a command could begin. -/
def reserved : List String :=
  ["!", "case", "do", "done", "elif", "else", "esac", "fi", "for", "if", "in", "then", "until", "while",
    "\x7b", "\x7d"]

/-- The word of the language that a token is, where a command could begin. -/
def Token.keyword? : Token → Option String
  | .word given => given.plain?.filter reserved.contains
  | _ => none

/-- A name in double quotes. -/
def inQuotes (name : String) : String := "\"" ++ name ++ "\""

/-- How complaints call a token; it is said whether a command could begin there. -/
def Token.title (token : Token) (couldBegin : Bool) : String :=
  match token with
  | .endOfText => "end of file"
  | .newline => "newline"
  | .operator name => inQuotes name
  | .word _ => ((token.keyword?.filter fun _ => couldBegin).map inQuotes).getD "word"
  | .redirection _ => "redirection"

/-! ## Misprints -/

/-- What is wrong with a text. -/
inductive Misprint.Cause where
  /-- A token stands where another one would have to. -/
  | unexpected (title : String) (expected : Option String)
  | openQuotes
  | openBrace
  | openExpression
  | openBackquote
  | badVariable
  | badFunction
  deriving DecidableEq, Repr

/-- Why a text is no script, and the line on which that is seen. -/
structure Misprint where
  line : Nat
  cause : Misprint.Cause
  deriving DecidableEq, Repr

/-- The wording of a cause. -/
def Misprint.Cause.message : Misprint.Cause → String
  | .unexpected title expected =>
    title ++ " unexpected" ++ ((expected.map fun e => " (expecting " ++ inQuotes e ++ ")").getD "")
  | .openQuotes => "Unterminated quoted string"
  | .openBrace => "Missing '\x7d'"
  | .openExpression => "Missing '))'"
  | .openBackquote => "EOF in backquote substitution"
  | .badVariable => "Bad for loop variable"
  | .badFunction => "Bad function name"

/-! ## Readers -/

/-- A text that stands after a line of the script, up to a line that consists of a mark. -/
structure Awaited where
  mark : String
  /-- Whether nothing in the text is looked up. -/
  plain : Bool
  /-- Whether tabs at the beginnings of lines are left out. -/
  dropsTabs : Bool

/-- What is still to be read. -/
structure Source where
  rest : List Char
  /-- The number of ends of lines in the whole script. -/
  ends : Nat
  /-- The texts that stand after this line. -/
  awaited : List Awaited
  /-- The texts that have been read, by their numbers. -/
  texts : List Word

/-- A script from its beginning, given the texts that have been read before. -/
def Source.ofText (texts : List Word) (text : List Char) : Source := ⟨text, text.count '\n', [], texts⟩

/-- A reader. -/
abbrev ReadM := StateT Source (Except Misprint)

namespace ReadM

variable {α : Type}

/-- The number of the present line. -/
def line : ReadM Nat := do
  let s ← get
  return s.ends - s.rest.count '\n' + 1

/-- Complains. -/
def refuse (cause : Misprint.Cause) : ReadM α := do throw ⟨← ReadM.line, cause⟩

/-- Complains of a token. -/
def unexpected (token : Token) (couldBegin : Bool) (expected : Option String) : ReadM α :=
  refuse (.unexpected (token.title couldBegin) expected)

/-- Skips characters. -/
def skip (count : Nat) : ReadM Unit := modify fun s => { s with rest := s.rest.drop count }

/-- Takes the characters up to the first that fails a test. -/
def run (test : Char → Bool) : ReadM (List Char) := do
  let s ← get
  set { s with rest := s.rest.dropWhile test }
  return s.rest.takeWhile test

/-- Skips a character, which must be the given one. -/
def demand (c : Char) (cause : Misprint.Cause) : ReadM Unit := do
  if (← get).rest.head? = some c then skip 1 else refuse cause

/-- Takes values as long as there are any, the text gets shorter, and no value is the last one. -/
def manyUntilLast (reader : ReadM (Option (α × Bool))) (s : Source) : Except Misprint (List α × Source) :=
  match reader s with
  | .error misprint => .error misprint
  | .ok (none, _) => .ok ([], s)
  | .ok (some (value, isLast), after) =>
    if after.rest.length < s.rest.length ∧ !isLast then
      match manyUntilLast reader after with
      | .error misprint => .error misprint
      | .ok (values, after) => .ok (value :: values, after)
    else .ok ([value], after)
termination_by s.rest.length

/-- Takes as many values as there are. -/
def many (reader : ReadM (Option α)) : ReadM (List α) :=
  manyUntilLast do return (← reader).map (·, false)

end ReadM

open ReadM

/-! ## Words -/

/-- Where pieces of a word stand. -/
inductive Place where
  | bare
  | quotes
  /-- In the braces of a parameter, with or without quotes around them. -/
  | braces (isQuoted : Bool)
  | here
  /-- In an expression, with or without parentheses around it there. -/
  | expression (isNested : Bool)
  deriving DecidableEq

/-- The characters that end a word without quotes. -/
def isSpecial (c : Char) : Bool := [' ', '\t', '\n', ';', '&', '|', '<', '>', '(', ')'].contains c

/-- Whether a character ends the pieces at a place. -/
def Place.isEnd : Place → Char → Bool
  | .bare, c => isSpecial c
  | .quotes, c => c = '"'
  | .braces _, c => c = '\x7d'
  | .here, _ => false
  | .expression isNested, c => isNested && c = ')'

/-- Whether what stands at a place is quoted. -/
def Place.isQuoted : Place → Bool
  | .bare | .braces false => false
  | _ => true

/-- The readers of what is inside pieces. -/
structure Inner where
  pieces : Place → ReadM (List Piece)
  command : ReadM Command
  /-- Commands in turn, of which there may be none. -/
  commands : (mayBeNone : Bool) → ReadM Command

/-- The characters of names. -/
def isNameChar (c : Char) : Bool := c.isAlphanum || c = '_'

/-- Whether a text is a name. -/
def isName (text : String) : Bool :=
  match text.toList with
  | [] => false
  | first :: rest => !first.isDigit && (first :: rest).all isNameChar

/-- The parameters whose name is a mark. -/
def specialNames : List Char := ['@', '*', '#', '?', '$', '!', '-']

/-- Takes the name of a parameter, if one stands here.  Without braces a number has one digit. -/
def parameterName (inBraces : Bool) : ReadM (Option String) := do
  match (← get).rest with
  | [] => return none
  | c :: _ =>
    if c.isDigit then
      if inBraces then return String.ofList (← run Char.isDigit)
      skip 1
      return c.toString
    else if isNameChar c then return String.ofList (← run isNameChar)
    else if specialNames.contains c then
      skip 1
      return c.toString
    else return none

/-- Text between single quotes, of which the first has been read. -/
def singleQuoted : ReadM Piece := do
  let cs ← run (· ≠ '\'')
  demand '\'' .openQuotes
  return .quoted [.text (String.ofList cs)]

/-- What a backslash and the character after it stand for at a place. -/
def escaped (place : Place) : List Char → List Piece × Nat
  | '\n' :: _ => ([], 2)
  | [] => ([.text "\\"], 1)
  | c :: _ =>
    let isTaken := !place.isQuoted || ['$', '\x60', '\\'].contains c || (c = '"' && place ≠ .here)
      || (c = '\x7d' && place = .braces true)
    if isTaken then ([.quoted [.text c.toString]], 2) else ([.text "\\"], 1)

/-- The change of the value of a parameter that is told after its name. -/
def change (inner : Inner) (place : Place) (name : String) : ReadM Piece := do
  let fallback (kind : Fallback) (emptyToo : Bool) (length : Nat) : ReadM Piece := do
    skip length
    return .fallback name kind emptyToo (← inner.pieces (.braces place.isQuoted))
  let cut (kind : Cut) (length : Nat) : ReadM Piece := do
    skip length
    return .cut name kind (← inner.pieces (.braces false))
  match (← get).rest with
  | '\x7d' :: _ => return .parameter name
  | '\n' :: _ =>
    if place.isQuoted then
      let _ ← inner.pieces (.braces true)
      return .broken
    else refuse .openBrace
  | ':' :: '-' :: _ => fallback .substitute true 2
  | ':' :: '=' :: _ => fallback .assign true 2
  | ':' :: '+' :: _ => fallback .alternative true 2
  | ':' :: '?' :: _ => fallback .complain true 2
  | '-' :: _ => fallback .substitute false 1
  | '=' :: _ => fallback .assign false 1
  | '+' :: _ => fallback .alternative false 1
  | '?' :: _ => fallback .complain false 1
  | '%' :: '%' :: _ => cut ⟨true, true⟩ 2
  | '%' :: _ => cut ⟨true, false⟩ 1
  | '#' :: '#' :: _ => cut ⟨false, true⟩ 2
  | '#' :: _ => cut ⟨false, false⟩ 1
  | _ =>
    let _ ← inner.pieces (.braces place.isQuoted)
    return .broken

/-- A parameter in braces, of which the first has been read. -/
def braced (inner : Inner) (place : Place) : ReadM Piece := do
  let inBraces : ReadM Piece := do
    match (← get).rest with
    | '#' :: c :: _ =>
      if c ≠ '\x7d' then
        skip 1
        match ← parameterName true with
        | some name => return .length name
        | none => return .broken
      else
        skip 1
        return .parameter "#"
    | _ =>
      match ← parameterName true with
      | some name => change inner place name
      | none =>
        let _ ← inner.pieces (.braces place.isQuoted)
        return .broken
  let piece ← inBraces
  demand '\x7d' .openBrace
  return piece

/-- What a dollar sign, which has been read, begins. -/
def afterDollar (inner : Inner) (place : Place) : ReadM Piece := do
  match (← get).rest with
  | '(' :: '(' :: _ =>
    skip 2
    let expression ← inner.pieces (.expression false)
    demand ')' .openExpression
    demand ')' .openExpression
    return .arithmetic expression
  | '(' :: _ =>
    skip 1
    let command ← inner.commands true
    let _ ← run fun c => c = ' ' || c = '\t' || c = '\n'
    demand ')' (.unexpected "end of file" (some ")"))
    return .output command
  | '\x7b' :: _ =>
    skip 1
    braced inner place
  | _ => return (((← parameterName false).map Piece.parameter).getD (.text "$"))

/-- The text up to a backquote, and the number of characters taken. -/
def backquoted (place : Place) : List Char → Option (List Char × Nat)
  | [] => none
  | '\x60' :: _ => some ([], 1)
  | '\\' :: c :: rest =>
    (backquoted place rest).map fun (cs, count) =>
      if ['$', '\x60', '\\'].contains c || (c = '"' && place = .quotes) then (c :: cs, count + 2)
      else ('\\' :: c :: cs, count + 2)
  | c :: rest => (backquoted place rest).map fun (cs, count) => (c :: cs, count + 1)

/-- Commands in backquotes, of which the first has been read. -/
def betweenBackquotes (inner : Inner) (place : Place) : ReadM Piece := do
  let s ← get
  match backquoted place s.rest with
  | none =>
    skip s.rest.length
    refuse .openBackquote
  | some (cs, count) =>
    set { Source.ofText s.texts cs with ends := (← ReadM.line) - 1 + cs.count '\n' }
    let command ← inner.commands true
    set { s with rest := s.rest.drop count, texts := (← get).texts }
    return .output command

/-- Takes pieces, unless the word ends here. -/
def piece (inner : Inner) (place : Place) : ReadM (Option (List Piece)) := do
  match (← get).rest with
  | [] => return none
  | c :: rest =>
    if place.isEnd c then return none
    match c with
    | '\\' =>
      let (pieces, count) := escaped place rest
      skip count
      return some pieces
    | '\'' =>
      skip 1
      if place.isQuoted then return some [.text "'"]
      return some [← singleQuoted]
    | '"' =>
      skip 1
      if place matches .here | .expression _ then return some [.text "\""]
      let pieces ← inner.pieces .quotes
      demand '"' .openQuotes
      return some [.quoted pieces]
    | '$' =>
      skip 1
      return some [← afterDollar inner place]
    | '\x60' =>
      skip 1
      return some [← betweenBackquotes inner place]
    | '(' =>
      skip 1
      if !(place matches .expression _) then return some [.text "("]
      let pieces ← inner.pieces (.expression true)
      demand ')' .openExpression
      return some ([.text "("] ++ pieces ++ [.text ")"])
    | ')' =>
      -- One that closes nothing stands for itself.
      if rest.head? = some ')' then return none
      skip 1
      return some [.text ")"]
    | _ =>
      let cs ← run fun c => !(place.isEnd c || ['\\', '\'', '"', '$', '\x60', '(', ')'].contains c)
      return some [.text (String.ofList cs)]

/-! ## Texts after lines -/

/-- The lines up to the mark, and the number of characters taken with it. -/
def hereLines (awaited : Awaited) : List (List Char) → List (List Char) × Nat
  | [] => ([], 0)
  | written :: rest =>
    let line := if awaited.dropsTabs then written.dropWhile (· = '\t') else written
    if String.ofList line = awaited.mark then ([], written.length + 1)
    else
      let (lines, count) := hereLines awaited rest
      (line :: lines, written.length + 1 + count)

/-- The lines of a text; what follows the last end of line is no line if it is empty. -/
def linesOf (cs : List Char) : List (List Char) :=
  let lines := cs.splitOn '\n'
  if lines.getLast? = some [] then lines.dropLast else lines

/-- Takes a text that stands after the line. -/
def hereText (inner : Inner) (awaited : Awaited) : ReadM Word := do
  let s ← get
  let (lines, count) := hereLines awaited (linesOf s.rest)
  let cs := lines.flatMap (· ++ ['\n'])
  let after := { s with rest := s.rest.drop count }
  if awaited.plain then
    set after
    return [.quoted [.text (String.ofList cs)]]
  else
    set { s with rest := cs, ends := (← ReadM.line) - 1 + cs.count '\n', awaited := [] }
    let pieces ← inner.pieces .here
    set { after with texts := (← get).texts }
    return [.quoted pieces]

/-- Takes the texts that stand after the line. -/
def hereTexts (inner : Inner) : ReadM Unit := do
  let awaited := (← get).awaited
  modify fun s => { s with awaited := [] }
  awaited.forM fun a => do
    let word ← hereText inner a
    modify fun s => { s with texts := s.texts ++ [word] }

/-! ## Reading tokens -/

/-- Skips blanks within a line, and joins a line that ends with a backslash with the next one. -/
def blanks : ReadM Unit := do
  let _ ← many (α := Unit) do
    match (← get).rest with
    | '\\' :: '\n' :: _ => some <$> skip 2
    | c :: _ => if c = ' ' ∨ c = '\t' then some <$> skip 1 else return none
    | [] => return none

/-- Skips blanks and a comment. -/
def gap : ReadM Unit := do
  blanks
  if (← get).rest.head? = some '#' then
    let _ ← run (· ≠ '\n')

/-- Takes a word, if one stands here. -/
def wordHere (inner : Inner) : ReadM (Option Word) := do
  match (← get).rest with
  | [] => return none
  | c :: _ => if isSpecial c then return none else some <$> inner.pieces .bare

/-- The operators that redirect a stream; where one begins like another, the longer comes first. -/
def redirectionMarks : List String := ["<<-", "<<", ">>", ">|", ">&", "<&", "<>", "<", ">"]

/-- The operators that stand between commands, likewise. -/
def operators : List String := ["&&", "||", ";;", ";", "&", "|", "(", ")"]

/-- Takes the first of some texts that stands here. -/
def firstOf (names : List String) : ReadM (Option String) := do
  let rest := (← get).rest
  match names.find? fun name => name.toList.isPrefixOf rest with
  | some name =>
    skip name.length
    return some name
  | none => return none

/-- Takes what follows the operator of a redirection. -/
def target (inner : Inner) (mark : String) : ReadM Target := do
  blanks
  match ← wordHere inner with
  | none =>
    match (← get).rest with
    | [] => refuse (.unexpected "end of file" none)
    | c :: _ =>
      let operator ← firstOf operators
      if operator.isNone then skip 1
      let title := if c = '\n' then "newline" else "redirection"
      refuse (.unexpected ((operator.map inQuotes).getD title) none)
  | some word =>
    match mark with
    | "<<" | "<<-" =>
      let s ← get
      let awaited : Awaited :=
        ⟨(literalOf? word).getD "", word.plain?.isNone, mark = "<<-"⟩
      set { s with awaited := s.awaited ++ [awaited] }
      return .here (s.texts.length + s.awaited.length)
    | ">>" => return .append word
    | ">&" | "<&" => return .same word
    | "<" | "<>" => return .read word
    | _ => return .write word

/-- Takes a redirection, if one stands here. -/
def redirectionHere (inner : Inner) : ReadM (Option Redirection) := do
  let s ← get
  let number ← match s.rest with
    | c :: '<' :: _ | c :: '>' :: _ =>
      if c.isDigit then
        skip 1
        pure (some (c.toNat - '0'.toNat))
      else pure none
    | _ => pure none
  match ← firstOf redirectionMarks with
  | none => return none
  | some mark =>
    let usual := if mark.startsWith "<" then 0 else 1
    return some ⟨number.getD usual, ← target inner mark⟩

/-- Takes a token. -/
def Token.read (inner : Inner) : ReadM Token := do
  gap
  match (← get).rest with
  | [] =>
    hereTexts inner
    return .endOfText
  | '\n' :: _ =>
    skip 1
    hereTexts inner
    return .newline
  | _ =>
    match ← redirectionHere inner with
    | some r => return .redirection r
    | none =>
      match ← firstOf operators with
      | some name => return .operator name
      | none => return .word (← inner.pieces .bare)

/-- The next token, which stays where it is. -/
def Token.peek (inner : Inner) : ReadM Token := do
  let s ← get
  let token ← Token.read inner
  set s
  return token

/-- Skips empty lines. -/
def Token.skipLines (inner : Inner) : ReadM Unit := do
  let _ ← many (α := Unit) do
    match ← Token.read inner with
    | .newline => return some ()
    | _ => return none

end Workflow.Shell
