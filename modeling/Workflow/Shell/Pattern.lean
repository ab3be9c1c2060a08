/-!
# `Workflow.Shell.Pattern` — patterns of the shell

In a pattern a star stands for any run of characters, a question mark for any character, and brackets for one of
several.  Characters that are quoted stand for themselves.

## Contents
- `Letter`, a character that can be quoted, and `Pattern`, with `Pattern.ofLetters`.
- `Pattern.accepts`, and `Pattern.cut`, which takes off a part that fits.
-/

namespace Workflow.Shell

/-- A character of a word. -/
structure Letter where
  char : Char
  isQuoted : Bool
  deriving DecidableEq, Repr

/-- The text of letters. -/
def textOf (letters : List Letter) : String := String.ofList (letters.map (·.char))

/-- A part of a pattern. -/
inductive Pattern.Part where
  | one (c : Char)
  | any
  | star
  /-- One of the characters in some ranges, or any other one. -/
  | among (isNegated : Bool) (ranges : List (Char × Char))
  deriving DecidableEq, Repr

/-- A pattern. -/
abbrev Pattern := List Pattern.Part

namespace Pattern

/-! ## Reading -/

/-- The ranges of classes of characters. -/
def classes : List (String × List (Char × Char)) := [
  ("[:digit:]", [('0', '9')]), ("[:lower:]", [('a', 'z')]), ("[:upper:]", [('A', 'Z')]),
  ("[:alpha:]", [('a', 'z'), ('A', 'Z')]), ("[:alnum:]", [('a', 'z'), ('A', 'Z'), ('0', '9')]),
  ("[:space:]", [(' ', ' '), ('\t', '\r')]), ("[:blank:]", [(' ', ' '), ('\t', '\t')]),
  ("[:xdigit:]", [('0', '9'), ('a', 'f'), ('A', 'F')]),
  ("[:punct:]", [('!', '/'), (':', '@'), ('[', '\x60'), ('\x7b', '~')])]

/-- The class that letters begin with, and its ranges. -/
def class? (letters : List Letter) : Option (String × List (Char × Char)) :=
  classes.find? fun entry => entry.1.toList.isPrefixOf (letters.map (·.char))

/-- The ranges in brackets, and the letters after the closing one; the first character never closes.  Ranges are
looked for in at most as many steps as told. -/
def ranges : Nat → Bool → List Letter → Option (List (Char × Char) × List Letter)
  | steps + 1, isFirst, letters =>
    match letters with
    | [] => none
    | letter :: rest =>
      if letter.char = ']' ∧ !letter.isQuoted ∧ !isFirst then some ([], rest)
      else
        match (if letter.isQuoted then none else class? letters), rest with
        | some (name, found), _ =>
          (ranges steps false (letters.drop name.length)).map fun r => (found ++ r.1, r.2)
        | none, ⟨'-', false⟩ :: last :: after =>
          if last.char = ']' ∧ !last.isQuoted then
            (ranges steps false rest).map fun r => ((letter.char, letter.char) :: r.1, r.2)
          else (ranges steps false after).map fun r => ((letter.char, last.char) :: r.1, r.2)
        | none, _ => (ranges steps false rest).map fun r => ((letter.char, letter.char) :: r.1, r.2)
  | 0, _, _ => none

/-- The part of brackets of which the first has been read, and the letters after it. -/
def brackets (letters : List Letter) : Option (Part × List Letter) :=
  let isNegated := letters.head?.any fun letter => !letter.isQuoted && (letter.char = '!' || letter.char = '^')
  (ranges (letters.length + 1) true (if isNegated then letters.drop 1 else letters)).map fun r =>
    (.among isNegated r.1, r.2)

/-- The pattern of letters. -/
def ofLetters (letters : List Letter) : Pattern :=
  match letters with
  | [] => []
  | ⟨c, true⟩ :: rest => .one c :: ofLetters rest
  | ⟨'*', false⟩ :: rest => .star :: ofLetters rest
  | ⟨'?', false⟩ :: rest => .any :: ofLetters rest
  | ⟨'[', false⟩ :: rest =>
    match brackets rest with
    | some (part, after) =>
      if after.length ≤ rest.length then part :: ofLetters after else .one '[' :: ofLetters rest
    | none => .one '[' :: ofLetters rest
  | ⟨c, false⟩ :: rest => .one c :: ofLetters rest
termination_by letters.length
decreasing_by all_goals (simp only [List.length_cons]; omega)

/-! ## Fitting -/

/-- Whether a part stands for a character. -/
def Part.admits : Part → Char → Bool
  | .one a, c => a == c
  | .any, _ => true
  | .star, _ => false
  | .among isNegated ranges, c => ranges.any (fun r => r.1 ≤ c && c ≤ r.2) != isNegated

/-- Whether a whole text fits a pattern. -/
def accepts : Pattern → List Char → Bool
  | [], cs => cs.isEmpty
  | .star :: rest, cs => acceptsAfter (accepts rest) cs
  | part :: rest, c :: cs => part.admits c && accepts rest cs
  | _ :: _, [] => false
where
  /-- Whether some end of a text is accepted. -/
  acceptsAfter (rest : List Char → Bool) : List Char → Bool
    | [] => rest []
    | c :: cs => rest (c :: cs) || acceptsAfter rest cs

/-- A text without a part at one of its ends that fits a pattern, as long or as short as possible. -/
def cut (pattern : Pattern) (atEnd greedy : Bool) (cs : List Char) : List Char :=
  let lengths := List.range (cs.length + 1)
  let taken := (if atEnd = greedy then lengths else lengths.reverse).find? fun length =>
    pattern.accepts (if atEnd then cs.drop length else cs.take length)
  match taken with
  | some length => if atEnd then cs.take length else cs.drop length
  | none => cs

end Pattern

end Workflow.Shell
