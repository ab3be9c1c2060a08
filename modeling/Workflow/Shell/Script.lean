import Workflow.Shell.Token

/-!
# `Workflow.Shell.Script` — shell scripts

The commands of a script are read line by line, so that a misprint counts only when the lines in front of it have been
run.

## Contents
- `Inner.conditional`, `Inner.loop`, `Inner.each`, `Inner.select`, `Inner.simple`, the kinds of commands.
- `Inner.compound`, `Inner.andOr` and `Inner.sequence`, and `innerTo`, in which they are nested.
- `Script` and `Script.ofText`.
-/

namespace Workflow.Shell

open ReadM

/-! ## Words of the language -/

/-- Takes a given word of the language. -/
def expectKeyword (inner : Inner) (name : String) : ReadM Unit := do
  let token ← Token.read inner
  if token.keyword? ≠ some name then unexpected token true (some name)

/-- Takes a given word of the language, if it stands here. -/
def hasKeyword (inner : Inner) (name : String) : ReadM Bool := do
  let s ← get
  let token ← Token.read inner
  if token.keyword? = some name then return true
  set s
  return false

/-- Takes a given operator. -/
def expectOperator (inner : Inner) (name : String) (couldBegin : Bool) : ReadM Unit := do
  match ← Token.read inner with
  | .operator found => if found ≠ name then unexpected (.operator found) couldBegin (some name)
  | token => unexpected token couldBegin (some name)

/-- The words that end commands in turn. -/
def closers : List String := ["do", "done", "elif", "else", "esac", "fi", "then", "\x7d"]

/-- Whether a token ends commands in turn. -/
def Token.isCloser (token : Token) : Bool :=
  match token with
  | .endOfText => true
  | .operator name => name = ")" || name = ";;"
  | token => (token.keyword?.map closers.contains).getD false

namespace Inner

variable (inner : Inner)

/-! ## Compound commands -/

/-- Takes what follows the word that begins a condition. -/
def conditional : ReadM Command := do
  let branch : ReadM (Command × Command) := do
    let condition ← inner.commands false
    expectKeyword inner "then"
    return (condition, ← inner.commands false)
  let first ← branch
  let more ← many do
    if ← hasKeyword inner "elif" then some <$> branch else return none
  let last ← if ← hasKeyword inner "else" then inner.commands false else pure .skip
  expectKeyword inner "fi"
  return (first :: more).foldr (fun b no => .choose b.1 b.2 no) last

/-- Takes the body of a loop. -/
def body : ReadM Command := do
  expectKeyword inner "do"
  let command ← inner.commands false
  expectKeyword inner "done"
  return command

/-- Takes what follows the word that begins a loop with a condition. -/
def loop (whileFails : Bool) : ReadM Command := do
  let condition ← inner.commands false
  return .loop whileFails condition (← inner.body)

/-- Takes words as far as there are any. -/
def words : ReadM (List Word) := many do
  match ← Token.read inner with
  | .word word => return some word
  | _ => return none

/-- Takes what follows the word that begins a loop over fields. -/
def each : ReadM Command := do
  let name ← match ← Token.read inner with
    | .word word =>
      match word.plain? with
      | some name => if isName name then pure name else refuse .badVariable
      | none => refuse .badVariable
    | _ => refuse .badVariable
  Token.skipLines inner
  let given ← if ← hasKeyword inner "in" then
      let given ← inner.words
      match ← Token.read inner with
      | .newline | .operator ";" => pure (some given)
      | token => unexpected token false none
    else
      let s ← get
      match ← Token.read inner with
      | .operator ";" => pure none
      | _ =>
        set s
        pure none
  Token.skipLines inner
  return .each name given (← inner.body)

/-- Takes a pattern; what is no word is one that nothing fits. -/
def pattern : ReadM Word := do
  match ← Token.read inner with
  | .word word => return word
  | _ => return []

/-- Takes a case of a selection, and says whether it is the last one. -/
def oneCase : ReadM (Option ((List Word × Command) × Bool)) := do
  Token.skipLines inner
  if (← Token.peek inner).keyword? = some "esac" then return none
  let s ← get
  match ← Token.read inner with
  | .operator "(" => pure ()
  | _ => set s
  let first ← inner.pattern
  let more ← many do
    match ← Token.read inner with
    | .operator "|" => some <$> inner.pattern
    | _ => return none
  expectOperator inner ")" false
  let command ← inner.commands true
  let s ← get
  match ← Token.read inner with
  | .operator ";;" => return some ((first :: more, command), false)
  | token =>
    if token.keyword? = some "esac" then
      set s
      return some ((first :: more, command), true)
    else unexpected token true (some ";;")

/-- Takes what follows the word that begins a selection. -/
def select : ReadM Command := do
  let word ← match ← Token.read inner with
    | .word word => pure word
    | token => unexpected token false none
  Token.skipLines inner
  expectKeyword inner "in"
  let cases ← manyUntilLast inner.oneCase
  Token.skipLines inner
  expectKeyword inner "esac"
  return .select word cases

/-! ## Simple commands -/

/-- A part of a simple command. -/
inductive Part where
  | word (word : Word)
  | redirection (redirection : Redirection)

/-- A setting that a word is. -/
def setting? : Word → Option (String × Word)
  | .text first :: rest =>
    match first.toList.dropWhile (· ≠ '=') with
    | [] => none
    | _ :: value =>
      let name := String.ofList (first.toList.takeWhile (· ≠ '='))
      if isName name then
        some (name, if value.isEmpty then rest else .text (String.ofList value) :: rest)
      else none
  | _ => none

/-- The words among parts. -/
def wordsOf (parts : List Part) : List Word :=
  parts.filterMap fun
    | .word given => some given
    | .redirection _ => none

/-- The command that parts on a line make up. -/
def ofParts (line : Nat) (parts : List Part) : Command :=
  let words := wordsOf parts
  let settings := words.takeWhile fun word => (setting? word).isSome
  .simple line (settings.filterMap setting?) (words.drop settings.length)
    (parts.filterMap fun
      | .word _ => none
      | .redirection given => some given)

/-- Takes the definition of a function, if the word in front is the name of one. -/
def definition (parts : List Part) : ReadM (Option Command) := do
  let s ← get
  match parts, ← Token.read inner with
  | [.word word], .operator "(" =>
    if (setting? word).isSome then unexpected (.operator "(") false none
    expectOperator inner ")" false
    match word.plain? with
    | some name =>
      if isName name then
        Token.skipLines inner
        return some (.define name (← inner.command))
      else refuse .badFunction
    | none => refuse .badFunction
  | _, _ =>
    set s
    return none

/-- Takes a simple command, or the definition of a function. -/
def simple : ReadM Command := do
  blanks
  let line ← ReadM.line
  let parts ← many do
    match ← Token.read inner with
    | .word word => return some (Part.word word)
    | .redirection r => return some (Part.redirection r)
    | _ => return none
  match ← inner.definition parts with
  | some command => return command
  | none => return ofParts line parts

/-! ## Commands -/

/-- Takes redirections after a command. -/
def redirected (command : Command) : ReadM Command := do
  let redirections ← many do
    match ← Token.read inner with
    | .redirection r => return some r
    | _ => return none
  return if redirections.isEmpty then command else .redirected command redirections

/-- Takes a command that is no pipeline. -/
def compound : ReadM Command := do
  let s ← get
  let token ← Token.read inner
  match token.keyword?, token with
  | some "if", _ => inner.redirected (← inner.conditional)
  | some "while", _ => inner.redirected (← inner.loop false)
  | some "until", _ => inner.redirected (← inner.loop true)
  | some "for", _ => inner.redirected (← inner.each)
  | some "case", _ => inner.redirected (← inner.select)
  | some "\x7b", _ =>
    let command ← inner.commands false
    expectKeyword inner "\x7d"
    inner.redirected command
  | some _, _ => unexpected token true none
  | none, .operator "(" =>
    let command ← inner.commands false
    expectOperator inner ")" true
    inner.redirected (.inner command)
  | none, .word _ | none, .redirection _ =>
    set s
    inner.simple
  | none, _ => unexpected token true none

/-- Takes commands each of which reads what the one in front writes. -/
def pipeline : ReadM Command := do
  let isNegated ← hasKeyword inner "!"
  let first ← inner.compound
  let more ← many do
    match ← Token.read inner with
    | .operator "|" =>
      Token.skipLines inner
      some <$> inner.compound
    | _ => return none
  let command := more.foldl .pipe first
  return if isNegated then .not command else command

/-- Takes pipelines whose status decides how to go on. -/
def andOr : ReadM Command := do
  let first ← inner.pipeline
  let more ← many do
    match ← Token.read inner with
    | .operator "&&" =>
      Token.skipLines inner
      return some (true, ← inner.pipeline)
    | .operator "||" =>
      Token.skipLines inner
      return some (false, ← inner.pipeline)
    | _ => return none
  return more.foldl (fun left m => if m.1 then .both left m.2 else .either left m.2) first

/-- The command that does nothing. -/
def nothing : Command := .simple 0 [] [[.text ":"]] []

/-- Takes a command with the mark after it, and says whether no other may follow.  What is run in the background has
no status of its own. -/
def marked : ReadM (Command × Bool) := do
  let command ← inner.andOr
  let s ← get
  match ← Token.read inner with
  | .operator ";" | .newline => return (command, false)
  | .operator "&" => return (.either (.inner command) nothing, false)
  | _ =>
    set s
    return (command, true)

/-- Takes commands in turn, up to a token that ends them. -/
def sequence (mayBeNone : Bool) : ReadM Command := do
  Token.skipLines inner
  let token ← Token.peek inner
  if (token matches .endOfText) || (mayBeNone && token.isCloser) then return .skip
  let (first, isLast) ← inner.marked
  if isLast then return first
  let more ← manyUntilLast do
    Token.skipLines inner
    if (← Token.peek inner).isCloser then return none
    some <$> inner.marked
  Token.skipLines inner
  return (first :: more).foldr .next .skip

/-- Takes the commands of a line, unless there are no more lines. -/
def completeLine : ReadM (Option Command) := do
  Token.skipLines inner
  if (← Token.peek inner) matches .endOfText then return none
  let commands ← manyUntilLast do
    match ← Token.peek inner with
    | .endOfText | .newline => return none
    | _ =>
      let command ← inner.andOr
      match ← Token.read inner with
      | .operator ";" => return some (command, false)
      | .operator "&" => return some (.either (.inner command) nothing, false)
      | .newline | .endOfText => return some (command, true)
      | token => unexpected token true none
  return some (commands.foldr .next .skip)

end Inner

/-- The readers of what is nested, at most as deep as told. -/
def innerTo : Nat → Inner
  | 0 =>
    { pieces := fun _ => unexpected .endOfText false none
      command := unexpected .endOfText false none
      commands := fun _ => unexpected .endOfText false none }
  | depth + 1 =>
    let inner := innerTo depth
    { pieces := fun place => List.flatten <$> many (piece inner place)
      command := inner.compound
      commands := inner.sequence }

/-! ## Scripts -/

/-- What a text says. -/
structure Script where
  /-- The commands of the lines that can be read. -/
  lines : List Command
  /-- The texts that stand after lines, by their numbers. -/
  texts : List Word
  /-- Why there are no more lines, unless the text is at its end. -/
  misprint : Option Misprint

namespace Script

/-- The script in a source. -/
def ofSource (inner : Inner) (s : Source) : Script :=
  match inner.completeLine s with
  | .error misprint => ⟨[], s.texts, some misprint⟩
  | .ok (none, after) => ⟨[], after.texts, none⟩
  | .ok (some command, after) =>
    if after.rest.length < s.rest.length then
      let script := ofSource inner after
      { script with lines := command :: script.lines }
    else ⟨[command], after.texts, none⟩
termination_by s.rest.length

/-- The script in a text; texts that stand after lines are numbered after the given ones. -/
def ofText (texts : List Word) (text : String) : Script :=
  let cs := text.toList
  -- What is nested is shorter than the text.
  ofSource (innerTo (cs.length + 1)) (.ofText texts cs)

end Script

end Workflow.Shell
