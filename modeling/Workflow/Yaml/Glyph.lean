import Workflow.Text.Scanner

/-!
# `Workflow.Yaml.Glyph` — characters and their places

The structure of YAML is told by lines and columns.  A text is therefore read as a list of characters with their
places, so that whatever is left of a text knows where it stands.

## Contents
- `Place` and `Glyph`; `Glyph.ofText?`, the glyphs of a text in which nothing is forbidden.
- `isBlank`, `isBreak` and `isGap`, and what may follow: `ends`, `isMark`.
-/

namespace Workflow.Yaml

open Text Text.Scanner

/-! ## Places -/

/-- A place in a text. -/
structure Place where
  line : Nat
  /-- The number of characters in front of it on its line. -/
  column : Nat
  /-- The number of bytes in front of it. -/
  offset : Nat

/-- The place where a text begins. -/
def Place.start : Place := ⟨0, 0, 0⟩

/-- The place after a character of the given number of bytes. -/
def Place.next (place : Place) (bytes : Nat) : Place :=
  { place with column := place.column + 1, offset := place.offset + bytes }

/-- The place after an end of line of the given number of bytes. -/
def Place.nextLine (place : Place) (bytes : Nat) : Place :=
  ⟨place.line + 1, 0, place.offset + bytes⟩

/-- A character at its place. -/
structure Glyph where
  char : Char
  place : Place

/-- A scanner of glyphs. -/
abbrev GlyphScanner := ScannerOf Glyph

/-! ## Classes of characters -/

/-- Blanks within a line. -/
def isBlank (c : Char) : Bool := c = ' ' || c = '\t'

/-- The separators of lines and of paragraphs, which end a line and stay what they are. -/
def isSeparator (c : Char) : Bool := c = '\u2028' || c = '\u2029'

/-- What ends a line in a text. -/
def isLineEnd (c : Char) : Bool := c = '\n' || c = '\r' || c = '\u0085' || isSeparator c

/-- What ends a line among glyphs. -/
def isBreak (c : Char) : Bool := c = '\n' || isSeparator c

/-- Blanks and ends of lines. -/
def isGap (c : Char) : Bool := isBlank c || isBreak c

/-- Characters that may stand in a text. -/
def isAllowed (c : Char) : Bool :=
  let n := c.toNat
  n = 0x09 || n = 0x0A || n = 0x0D || (0x20 ≤ n && n ≤ 0x7E) || n = 0x85 || (0xA0 ≤ n && n ≤ 0xFFFD)
    || 0x10000 ≤ n

/-! ## Glyphs of a text -/

/-- The characters from a place on.  Every end of line but a separator becomes a line feed. -/
def Glyph.from (place : Place) : List Char → List Glyph
  | '\r' :: '\n' :: rest => ⟨'\n', place⟩ :: Glyph.from (place.nextLine 2) rest
  | c :: rest =>
    if isLineEnd c then
      ⟨if isSeparator c then c else '\n', place⟩ :: Glyph.from (place.nextLine c.utf8Size) rest
    else ⟨c, place⟩ :: Glyph.from (place.next c.utf8Size) rest
  | [] => []

/-- The mark of the order of bytes. -/
def byteOrderMark : Char := '\uFEFF'

/-- The glyphs of a text, unless it holds characters that may not stand in a text.  A mark of the order of bytes
in front is no part of the text; a second one is skipped, but takes up a column. -/
def Glyph.ofText? (text : String) : Option (List Glyph) :=
  let cs :=
    match text.toList with
    | c :: rest => if c = byteOrderMark then rest else c :: rest
    | [] => []
  if cs.all isAllowed then
    match Glyph.from .start cs with
    | glyph :: rest => some (if glyph.char = byteOrderMark then rest else glyph :: rest)
    | [] => some []
  else none

/-! ## What follows -/

/-- The characters of glyphs. -/
def charsOf (gs : List Glyph) : List Char := gs.map Glyph.char

/-- The text of glyphs. -/
def textOf (gs : List Glyph) : String := String.ofList (charsOf gs)

/-- The next character, if there is one that passes a test. -/
def nextIs (test : Char → Bool) (gs : List Glyph) : Bool := (gs.head?.map fun g => test g.char).getD false

/-- Whether nothing follows on which a token could go on: a blank, an end of line, or the end. -/
def ends (gs : List Glyph) : Bool := gs.isEmpty || nextIs isGap gs

/-- Whether the line is at its end. -/
def endsLine (gs : List Glyph) : Bool := gs.isEmpty || nextIs isBreak gs

/-- Whether three characters at the beginning of a line are a mark of the given kind. -/
def isMarkOf (c : Char) (gs : List Glyph) : Bool :=
  gs.head?.any (·.place.column = 0) && charsOf (gs.take 3) == [c, c, c] && ends (gs.drop 3)

/-- Whether a line begins with a mark of the beginning or of the end of a document. -/
def isMark (gs : List Glyph) : Bool := isMarkOf '-' gs || isMarkOf '.' gs

/-! ## Scanners -/

/-- Takes a glyph of a character that passes a test. -/
def glyph (test : Char → Bool) : GlyphScanner Char := Glyph.char <$> one fun g => test g.char

/-- Takes the given character. -/
def mark (c : Char) : GlyphScanner Unit := (fun _ => ()) <$> glyph (· = c)

/-- Takes glyphs up to the first character that fails a test. -/
def glyphs (test : Char → Bool) : GlyphScanner (List Char) := charsOf <$> run fun g => test g.char

/-- Skips blanks. -/
def blanks : GlyphScanner Unit := (fun _ => ()) <$> glyphs isBlank

/-- Skips blanks and a comment up to the end of the line, and that too. -/
def lineEnd : GlyphScanner Unit := do
  blanks
  let _ ← maybe (mark '#' *> glyphs fun c => !isBreak c)
  (fun _ => ()) <$> glyph isBreak <|> atEnd

end Workflow.Yaml
