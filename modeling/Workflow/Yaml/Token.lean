import Workflow.Yaml.Block
import Workflow.Yaml.Plain
import Workflow.Yaml.Tag

/-!
# `Workflow.Yaml.Token` — tokens of a document

The tokens of a text say where collections begin and end, also where only the indentation tells.  That something is
a key is seen at the colon after it; the tokens that say so are then put in front of it.  Such a key stands on one
line and is not too long.

## Contents
- `Token`.
- `Key`, a place where a key may have begun, and `Tokens`, the tokens so far with what is still open.
- The steps: `Tokens.close`, `Tokens.start`, `Tokens.offer`, `Tokens.withdraw`, and `Tokens.add`, which takes one
  token.
- `Token.ofText?`, the tokens of a text.
-/

namespace Workflow.Yaml

open Text Text.Scanner

/-- How a text is written. -/
inductive Style where
  | plain | quoted | literal | folded
  deriving DecidableEq

/-- A token of a document. -/
inductive Token where
  | directive (directive : Directive)
  | documentStart
  | documentEnd
  /-- A sequence or mapping begins that is told by indentation. -/
  | blockSequence
  | blockMapping
  | blockEnd
  /-- Brackets. -/
  | openSequence
  | closeSequence
  | openMapping
  | closeMapping
  /-- The dash of an item. -/
  | item
  | comma
  | key
  | value
  | alias (name : String)
  | anchor (name : String)
  | tag (tag : TagMark)
  | scalar (text : String) (style : Style)
  deriving DecidableEq

/-! ## Keys -/

/-- A place where a key may have begun. -/
structure Key where
  /-- Nothing but a key may stand there. -/
  required : Bool
  /-- The number of tokens in front of it. -/
  index : Nat
  place : Place

/-- The greatest number of bytes from the beginning of a key to the colon. -/
def Key.lengthMax : Nat := 1024

/-- Whether a colon is too far away for a key. -/
def Key.isStale (key : Key) (place : Place) : Bool :=
  key.place.line < place.line || key.place.offset + Key.lengthMax < place.offset

/-- What becomes of a place for a key that is no key after all. -/
def Key.drop : Option Key → Option (Option Key)
  | some key => if key.required then none else some none
  | none => some none

/-- What becomes of a place for a key when the text goes on at another place. -/
def Key.refresh (place : Place) (key : Option Key) : Option (Option Key) :=
  if key.any (·.isStale place) then Key.drop key else some key

/-! ## Tokens so far -/

/-- The tokens so far, and what is still open. -/
structure Tokens where
  tokens : Array Token
  /-- The columns of the open collections that are told by indentation, innermost first. -/
  columns : List Nat
  /-- The place for a key inside the innermost open bracket. -/
  key : Option Key
  /-- The places for keys around the open brackets, innermost first. -/
  outerKeys : List (Option Key)
  /-- Whether a key may begin here. -/
  keyAllowed : Bool

namespace Tokens

/-- Before the first token. -/
def empty : Tokens := ⟨#[], [], none, [], true⟩

/-- Whether a bracket is open. -/
def isBracketed (t : Tokens) : Bool := !t.outerKeys.isEmpty

/-- Appends a token. -/
def push (t : Tokens) (token : Token) : Tokens := { t with tokens := t.tokens.push token }

/-- Says whether a key may follow. -/
def allowing (t : Tokens) (allowed : Bool) : Tokens := { t with keyAllowed := allowed }

/-- Ends the open collections whose columns are not as small as the given one; all, without one.  Inside brackets
indentation tells nothing. -/
def close (t : Tokens) (column : Option Nat) : Tokens :=
  if t.isBracketed then t
  else
    let isClosed (other : Nat) : Bool := column.all (· < other)
    let closed := t.columns.takeWhile isClosed
    { t with
      tokens := t.tokens ++ closed.map fun _ => Token.blockEnd
      columns := t.columns.dropWhile isClosed }

/-- Begins a collection at a column, unless one is open there: its token comes after the given number of others. -/
def start (t : Tokens) (column index : Nat) (token : Token) : Tokens :=
  if t.isBracketed || t.columns.head?.any (column ≤ ·) then t
  else { t with tokens := t.tokens.insertIdxIfInBounds index token, columns := column :: t.columns }

/-- Gives up the place for a key. -/
def withdraw (t : Tokens) : Option Tokens := (Key.drop t.key).map fun key => { t with key }

/-- Notes that a key may begin at a place. -/
def offer (t : Tokens) (place : Place) : Option Tokens :=
  if t.keyAllowed then
    t.withdraw.map fun t =>
      let required := !t.isBracketed && t.columns.head? == some place.column
      { t with key := some ⟨required, t.tokens.size, place⟩ }
  else some t

/-- Gives up places for keys that are too far away. -/
def refresh (t : Tokens) (place : Place) : Option Tokens := do
  let key ← Key.refresh place t.key
  let outerKeys ← t.outerKeys.mapM (Key.refresh place)
  return { t with key, outerKeys }

/-- Enters a bracket. -/
def enter (t : Tokens) : Tokens := { t with key := none, outerKeys := t.key :: t.outerKeys }

/-- Leaves the innermost bracket. -/
def leave (t : Tokens) : Tokens :=
  match t.outerKeys with
  | [] => t
  | key :: rest => { t with key, outerKeys := rest }

/-! ## Single tokens -/

/-- Begins a collection at a column here, where that is possible. -/
def startHere (t : Tokens) (column : Nat) (token : Token) : Option Tokens :=
  if t.isBracketed then some t
  else if t.keyAllowed then some (t.start column t.tokens.size token)
  else none

/-- Adds the mark of a document. -/
def addDocumentMark (t : Tokens) (token : Token) : Option Tokens :=
  (t.close none).withdraw.map fun t => (t.allowing false).push token

/-- Adds an opening bracket. -/
def addOpening (t : Tokens) (place : Place) (token : Token) : Option Tokens :=
  (t.offer place).map fun t => (t.enter.allowing true).push token

/-- Adds a closing bracket. -/
def addClosing (t : Tokens) (token : Token) : Option Tokens :=
  t.withdraw.map fun t => (t.leave.allowing false).push token

/-- Adds a comma. -/
def addComma (t : Tokens) : Option Tokens := t.withdraw.map fun t => (t.allowing true).push .comma

/-- Adds the dash of an item. -/
def addItem (t : Tokens) (column : Nat) : Option Tokens := do
  let t ← t.startHere column .blockSequence
  let t ← t.withdraw
  return (t.allowing true).push .item

/-- Adds the question mark of a key. -/
def addKey (t : Tokens) (column : Nat) : Option Tokens := do
  let t ← t.startHere column .blockMapping
  let t ← t.withdraw
  return (t.allowing !t.isBracketed).push .key

/-- Adds the colon of a value.  If a key may have begun before it, that was one. -/
def addValue (t : Tokens) (column : Nat) : Option Tokens :=
  match t.key with
  | some key =>
    let t := { t with tokens := t.tokens.insertIdxIfInBounds key.index .key, key := none }
    some (((t.start key.place.column key.index .blockMapping).allowing false).push .value)
  | none => (t.startHere column .blockMapping).map fun t => (t.allowing !t.isBracketed).push .value

/-- Adds a token with which a key may begin, and after which none may. -/
def addPart (t : Tokens) (place : Place) (token : Token) : Option Tokens :=
  (t.offer place).map fun t => (t.allowing false).push token

/-! ## Next tokens -/

/-- Skips to the next token; also says whether a key may begin there.  A comment goes up to the end of its line. -/
def skip (bracketed : Bool) (allowed comment : Bool) : List Glyph → Bool × List Glyph
  | [] => (allowed, [])
  | g :: rest =>
    if isBreak g.char then skip bracketed (allowed || !bracketed) false rest
    else if comment || g.char = '#' then skip bracketed allowed true rest
    else if g.char = ' ' || (g.char = '\t' && (bracketed || !allowed)) then skip bracketed allowed false rest
    else (allowed, g :: rest)

/-- Takes a token that consists of a character. -/
def single (rest : List Glyph) (tokens : Option Tokens) : Option (Tokens × List Glyph) :=
  tokens.map (·, rest)

/-- Takes a part of a node by a scanner. -/
def part {α : Type} (t : Tokens) (g : Glyph) (token : α → Token) (found : Option (α × List Glyph)) :
    Option (Tokens × List Glyph) := do
  let (value, rest) ← found
  return (← t.addPart g.place (token value), rest)

/-- Takes a block text. -/
def blockText (t : Tokens) (gs : List Glyph) : Option (Tokens × List Glyph) := do
  let t ← t.withdraw
  let ((folded, text), rest) ← Block.text t.columns.head? gs
  return ((t.allowing true).push (.scalar text (if folded then .folded else .literal)), rest)

/-- Takes a plain text, after which a key may follow if there was an end of line. -/
def plainText (t : Tokens) (g : Glyph) (gs : List Glyph) : Option (Tokens × List Glyph) := do
  let (text, rest) ← plain t.isBracketed (t.columns.head?.elim 0 (· + 1)) gs
  let t ← t.addPart g.place (.scalar (String.ofList text.chars) .plain)
  return (if text.endsLine then t.allowing true else t, rest)

/-- Takes the token that begins with a glyph. -/
def add (t : Tokens) (g : Glyph) (rest : List Glyph) : Option (Tokens × List Glyph) :=
  let bracketed := t.isBracketed
  let gs := g :: rest
  if g.char = '%' ∧ g.place.column = 0 then do
    let (found, rest) ← directive gs
    return (← t.addDocumentMark (.directive found), rest)
  else if isMark gs then
    single (gs.drop 3) (t.addDocumentMark (if g.char = '-' then .documentStart else .documentEnd))
  else if g.char = '-' ∧ ends rest then single rest (t.addItem g.place.column)
  else if g.char = '?' ∧ (bracketed ∨ ends rest) then single rest (t.addKey g.place.column)
  else if g.char = ':' ∧ (bracketed ∨ ends rest) then single rest (t.addValue g.place.column)
  else
    match g.char with
    | '[' => single rest (t.addOpening g.place .openSequence)
    | '\x7b' => single rest (t.addOpening g.place .openMapping)
    | ']' => single rest (t.addClosing .closeSequence)
    | '\x7d' => single rest (t.addClosing .closeMapping)
    | ',' => single rest t.addComma
    | '*' => t.part g .alias (anchorName rest)
    | '&' => t.part g .anchor (anchorName rest)
    | '!' => t.part g .tag (tagMark bracketed gs)
    | '"' => t.part g (.scalar · .quoted) (doubleQuoted gs)
    | '\'' => t.part g (.scalar · .quoted) (singleQuoted gs)
    | c =>
      if (c = '|' ∨ c = '>') ∧ !bracketed then t.blockText gs
      else if startsPlain bracketed gs then t.plainText g gs
      else none

/-- Takes all tokens of a text. -/
def addAll (t : Tokens) (gs : List Glyph) : Option Tokens :=
  let skipped := skip t.isBracketed t.keyAllowed false gs
  match skipped.2 with
  | [] => (t.close none).withdraw
  | g :: rest => do
    let t ← (t.allowing skipped.1).refresh g.place
    let (t, after) ← (t.close (some g.place.column)).add g rest
    if after.length < gs.length then t.addAll after else none
termination_by gs.length

end Tokens

/-- The tokens of a text. -/
def Token.ofText? (text : String) : Option (List Token) := do
  let tokens ← Tokens.empty.addAll (← Glyph.ofText? text)
  return tokens.tokens.toList

end Workflow.Yaml
