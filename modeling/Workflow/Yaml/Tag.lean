import Workflow.Yaml.Quoted

/-!
# `Workflow.Yaml.Tag` — properties of nodes, and directives

In front of a node may stand an anchor, under which it can be referred to, and a tag, which says what it is.  A tag
is written in short with a handle, whose meaning a directive in front of the document can change.

## Contents
- `anchorName`, the scanner of the name of an anchor or alias.
- `Tag` and `TagMark`, a tag as it is written, with its scanner.
- `Directive`, with its scanner.
-/

namespace Workflow.Yaml

open Text Text.Scanner

/-! ## Anchors -/

/-- The characters of names. -/
def isWordChar (c : Char) : Bool := c.isAlphanum || c = '_' || c = '-'

/-- Whether a name may end here. -/
def endsName (gs : List Glyph) : Bool :=
  ends gs || nextIs (fun c => c = '?' || c = ':' || c = ',' || c = ']' || c = '\x7d' || c = '%' || c = '@'
    || c = '\x60') gs

/-- Takes the name of an anchor or alias. -/
def anchorName : GlyphScanner String := do
  let name ← run1 fun g => isWordChar g.char
  if endsName (← get) then return textOf name else failure

/-! ## Tags -/

/-- What a tag says, as bytes. -/
abbrev Tag := List UInt8

/-- The tag of a text. -/
def Tag.ofText (text : String) : Tag := text.toUTF8.toList

/-- A tag as it is written. -/
structure TagMark where
  /-- What stands for the beginning of the tag; nothing if the tag is written in full. -/
  handle : String
  suffix : Tag
  deriving DecidableEq

/-- The characters of tags. -/
def isTagChar (c : Char) : Bool := isWordChar c || ";/?:@&=+$.%!~*'()".toList.contains c

/-- The characters of tags that are written in full. -/
def isFullTagChar (c : Char) : Bool := isTagChar c || c = ',' || c = '[' || c = ']'

/-- The number of bytes of a character that begins with a byte. -/
def widthOf? (byte : Nat) : Option Nat :=
  if byte < 0x80 then some 1
  else if 0xC0 ≤ byte ∧ byte < 0xE0 then some 2
  else if 0xE0 ≤ byte ∧ byte < 0xF0 then some 3
  else if 0xF0 ≤ byte ∧ byte < 0xF8 then some 4
  else none

/-- Takes a byte that is given by a percent sign and two hexadecimal digits. -/
def escapedByte : GlyphScanner Nat := mark '%' *> hexNumber 2

/-- Takes the given number of bytes that go on with a character. -/
def escapedTail : Nat → GlyphScanner Tag
  | 0 => return []
  | width + 1 => do
    let byte ← escapedByte
    if 0x80 ≤ byte ∧ byte < 0xC0 then return byte.toUInt8 :: (← escapedTail width) else failure

/-- Takes a character that is given by its bytes. -/
def escapedChar : GlyphScanner Tag := do
  let first ← escapedByte
  match widthOf? first with
  | some width => return first.toUInt8 :: (← escapedTail (width - 1))
  | none => failure

/-- Takes the characters of a tag that pass a test.  A byte of zero ends what the tag says. -/
def tagBytes (test : Char → Bool) : GlyphScanner Tag := do
  let parts ← many (escapedChar <|> (fun c => [c.toNat.toUInt8]) <$> glyph fun c => test c && c ≠ '%')
  if nextIs (· = '%') (← get) then failure
  return parts.flatten.takeWhile (· ≠ 0)

/-- Takes the characters of a tag, of which there must be one. -/
def tagBytes1 (test : Char → Bool) : GlyphScanner Tag := do
  if nextIs test (← get) then tagBytes test else failure

/-- Takes a tag that is written in full. -/
def fullTag : GlyphScanner TagMark := do
  mark '<'
  let suffix ← tagBytes1 isFullTagChar
  mark '>'
  return ⟨"", suffix⟩

/-- Takes a tag with a handle of its own. -/
def handledTag : GlyphScanner TagMark := do
  let name ← glyphs isWordChar
  mark '!'
  let suffix ← tagBytes1 isTagChar
  return ⟨"!" ++ String.ofList name ++ "!", suffix⟩

/-- Whether a tag with a handle of its own follows. -/
def isHandled (gs : List Glyph) : Bool := nextIs (· = '!') (gs.dropWhile fun g => isWordChar g.char)

/-- Takes a tag with the common handle, which stands for itself if nothing follows. -/
def commonTag : GlyphScanner TagMark := do
  let suffix ← tagBytes isTagChar
  return if suffix.isEmpty then ⟨"", .ofText "!"⟩ else ⟨"!", suffix⟩

/-- Takes a tag, possibly inside brackets. -/
def tagMark (bracketed : Bool) : GlyphScanner TagMark := do
  mark '!'
  let gs ← get
  let tag ← if nextIs (· = '<') gs then fullTag else if isHandled gs then handledTag else commonTag
  let gs ← get
  if ends gs || (bracketed && nextIs (· = ',') gs) then return tag else failure

/-! ## Directives -/

/-- What is told in front of a document. -/
inductive Directive where
  /-- The version of the format. -/
  | version (major minor : Nat)
  /-- What a handle stands for. -/
  | handle (handle : String) (meaning : Tag)
  deriving DecidableEq

/-- Takes a number of a version, of at most nine digits. -/
def versionNumber : GlyphScanner Nat := do
  let digits ← run1 fun g => g.char.isDigit
  if 9 < digits.length then failure
  return (textOf digits).toNat?.getD 0

/-- Takes a handle. -/
def handle : GlyphScanner String := do
  mark '!'
  let name ← glyphs isWordChar
  match ← maybe (mark '!') with
  | some () => return "!" ++ String.ofList name ++ "!"
  | none => if name.isEmpty then return "!" else failure

/-- Takes a directive and its line. -/
def directive : GlyphScanner Directive := do
  mark '%'
  let name ← run1 fun g => isWordChar g.char
  if !ends (← get) then failure
  blanks
  let found ←
    match textOf name with
    | "YAML" => do
      let major ← versionNumber
      mark '.'
      pure (.version major (← versionNumber))
    | "TAG" => do
      let handle ← handle
      let _ ← glyph isBlank
      blanks
      let meaning ← tagBytes1 isFullTagChar
      if ends (← get) then pure (.handle handle meaning) else failure
    | _ => failure
  lineEnd
  return found

end Workflow.Yaml
