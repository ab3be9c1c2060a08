import Workflow.Shell.Regex
import Workflow.Shell.Tool

/-!
# `Workflow.Shell.Filter` — programs that work line by line

Programs that select lines, change them, take parts of them and put them in order.

## Contents
- `grep`, which selects lines.
- `Edit`, and `sed`, which changes lines.
- `cut`, which takes parts of lines, and `sort`.
- `filter?`, the programs by name.
-/

namespace Workflow.Shell

/-- The lines of a text without their ends. -/
def linesIn (text : String) : List String :=
  let lines := text.splitOn "\n"
  if lines.getLast? = some "" then lines.dropLast else lines

/-- The letters of the options in front of other arguments, and those arguments.  Some letters take what follows them
as a value. -/
def optionsOf (withValue : List Char) : List String → List (Char × String) × List String
  | [] => ([], [])
  | "--" :: rest => ([], rest)
  | argument :: rest =>
    match argument.toList with
    | '-' :: letter :: letters =>
      let flags := (letter :: letters).takeWhile (!withValue.contains ·)
      let found := flags.map (·, "")
      match (letter :: letters).drop flags.length, rest with
      | [], rest =>
        let (options, rest) := optionsOf withValue rest
        (found ++ options, rest)
      | [last], value :: rest =>
        let (options, rest) := optionsOf withValue rest
        (found ++ (last, value) :: options, rest)
      | last :: value, rest =>
        let (options, rest) := optionsOf withValue rest
        (found ++ (last, String.ofList value) :: options, rest)
    | _ =>
      let (options, rest) := optionsOf withValue rest
      (options, argument :: rest)

/-- The value of an option. -/
def optionValue? (options : List (Char × String)) (letter : Char) : Option String :=
  (options.find? (·.1 == letter)).map (·.2)

/-- Whether an option is set. -/
def hasOption (options : List (Char × String)) (letter : Char) : Bool := (optionValue? options letter).isSome

/-! ## Selecting -/

/-- The expression that some options and a text tell. -/
def expressionOf? (options : List (Char × String)) (text : String) : Option Regex :=
  let alternatives :=
    if hasOption options 'F' then (linesIn text).map fun line => some (Regex.ofPlain line)
    else (linesIn text).map fun line => Regex.ofText? (hasOption options 'E') line
  let whole (regex : Regex) : Regex :=
    if hasOption options 'x' then .both .atStart (.both regex .atEnd) else regex
  (alternatives.mapM id).bind fun regexes =>
    match regexes with
    | [] => some (whole .empty)
    | first :: rest => some (whole (rest.foldl .either first))

/-- All parts of a line that fit, at most as many as told. -/
def findings (regex : Regex) (ignoresCase : Bool) : Nat → List Char → List Char → List String
  | 0, _, _ => []
  | count + 1, before, cs =>
    match regex.search? ignoresCase before cs with
    | none => []
    | some finding =>
      if finding.found.isEmpty then []
      else
        String.ofList finding.found
          :: findings regex ignoresCase count (finding.found.reverse ++ finding.before) finding.rest

/-- Selects the lines in which an expression is found. -/
def grep (s : Shell) (arguments : List String) : Shell :=
  let (options, rest) := optionsOf ['e', 'm', 'A', 'B', 'C'] arguments
  let (text, names) :=
    match optionValue? options 'e', rest with
    | some text, names => (some text, names)
    | none, text :: names => (some text, names)
    | none, [] => (none, [])
  match text.map (expressionOf? options) with
  | none => (s.send 2 ("Usage: grep [OPTION]... PATTERNS [FILE]...\n" ++ helpHint "grep")).withStatus 2
  | some none => (s.protest "grep" ["Invalid regular expression"]).withStatus 2
  | some (some regex) =>
    let ignoresCase := hasOption options 'i'
    let (texts, absent, after) := s.textsOf names
    let selects (line : String) : Bool :=
      (regex.search? ignoresCase [] line.toList).isSome != hasOption options 'v'
    let shown (label : String) (text : String) : List String :=
      let lines := (linesIn text).zipIdx.filter fun (line, _) => selects line
      if hasOption options 'c' then [label ++ toString lines.length]
      else
        lines.flatMap fun (line, index) =>
          let label := label ++ if hasOption options 'n' then toString (index + 1) ++ ":" else ""
          if hasOption options 'o' then
            (findings regex ignoresCase line.length [] line.toList).map (label ++ ·)
          else [label ++ line]
    let isFound := texts.any fun text => (linesIn text).any selects
    let lines := (texts.zip (names ++ ["-"])).flatMap fun (text, name) =>
      shown (if 1 < names.length && !hasOption options 'h' then name ++ ":" else "") text
    let after :=
      if hasOption options 'q' then after
      else after.write (String.join (lines.map (· ++ "\n")))
    if absent.isEmpty then after.answering isFound
    else (after.protest "grep" (absent.map fun (name, cause) => name ++ ": " ++ cause)).withStatus 2

/-! ## Changing -/

/-- A part of what is put in the place of a finding. -/
inductive Edit.Part where
  | one (c : Char)
  /-- What a group has taken; group zero is the whole. -/
  | group (number : Nat)

/-- What is done with a line. -/
inductive Edit.Act where
  /-- Puts something in the places of findings: from one of them on, and in all after it or not. -/
  | exchange (regex : Regex) (ignoresCase : Bool) (instead : List Edit.Part) (first : Nat) (isGlobal prints : Bool)
  | drop
  | print
  | quit

/-- The lines with which something is done. -/
inductive Edit.Address where
  | every
  | number (number : Nat)
  | last
  | fitting (regex : Regex)

/-- Does something with some lines. -/
structure Edit where
  address : Edit.Address
  act : Edit.Act

namespace Edit

/-- The text up to a mark without a backslash in front of it, and what is after the mark. -/
def upTo? (mark : Char) : List Char → Option (List Char × List Char)
  | [] => none
  | '\\' :: c :: rest =>
    (upTo? mark rest).map fun (cs, after) => (if c = mark then c :: cs else '\\' :: c :: cs, after)
  | c :: rest => if c = mark then some ([], rest) else (upTo? mark rest).map fun (cs, after) => (c :: cs, after)

/-- The parts of what is put in the place of a finding. -/
def parts : List Char → List Part
  | [] => []
  | '&' :: rest => .group 0 :: parts rest
  | '\\' :: 'n' :: rest => .one '\n' :: parts rest
  | '\\' :: c :: rest => (if c.isDigit then .group (c.toNat - '0'.toNat) else .one c) :: parts rest
  | c :: rest => .one c :: parts rest

/-- The address in front of an act. -/
def address? (isExtended : Bool) (cs : List Char) : Option (Address × List Char) :=
  match cs with
  | '$' :: rest => some (.last, rest)
  | '/' :: rest => do
    let (text, rest) ← upTo? '/' rest
    return (.fitting (← Regex.ofText? isExtended (String.ofList text)), rest)
  | cs =>
    let digits := cs.takeWhile Char.isDigit
    if digits.isEmpty then some (.every, cs)
    else some (.number ((String.ofList digits).toNat?.getD 0), cs.drop digits.length)

/-- An act, and what is after it. -/
def act? (isExtended : Bool) : List Char → Option (Act × List Char)
  | 'd' :: rest => some (.drop, rest)
  | 'p' :: rest => some (.print, rest)
  | 'q' :: rest => some (.quit, rest)
  | 's' :: mark :: rest => do
    let (text, rest) ← upTo? mark rest
    let (instead, rest) ← upTo? mark rest
    let flags := rest.takeWhile fun c => c.isDigit || ['g', 'i', 'I', 'p'].contains c
    let number := (String.ofList (flags.filter Char.isDigit)).toNat?.getD 1
    let regex ← Regex.ofText? isExtended (String.ofList text)
    return (.exchange regex (flags.contains 'i' || flags.contains 'I') (parts instead) number (flags.contains 'g')
      (flags.contains 'p'), rest.drop flags.length)
  | _ => none

/-- The edits in a text, at most as many as told. -/
def ofText? (isExtended : Bool) : Nat → List Char → Option (List Edit)
  | 0, _ => some []
  | count + 1, cs =>
    let isGap (c : Char) : Bool := [' ', '\t', '\n', ';'].contains c
    match cs.dropWhile isGap with
    | [] => some []
    | cs => do
      let (address, rest) ← address? isExtended cs
      let (act, rest) ← act? isExtended (rest.dropWhile (· = ' '))
      match rest.dropWhile (· = ' ') with
      | [] => return [⟨address, act⟩]
      | c :: rest => if isGap c then return ⟨address, act⟩ :: (← ofText? isExtended count rest) else none

/-- The text that is put in the place of a finding. -/
def instead (finding : Regex.Finding) (parts : List Part) : List Char :=
  parts.flatMap fun
    | .one c => [c]
    | .group number =>
      if number = 0 then finding.found
      else ((finding.groups.find? (·.1 == number)).map (·.2)).getD []

/-- Puts something in the places of findings, of which some are left out, and says whether there are any. -/
def exchanged (regex : Regex) (ignoresCase : Bool) (replacement : List Part) (isGlobal : Bool) :
    Nat → Nat → List Char → List Char → Bool × List Char
  | 0, _, _, cs => (false, cs)
  | steps + 1, leftOut, before, cs =>
    match regex.search? ignoresCase before cs with
    | none => (false, cs)
    | some finding =>
      let front := cs.take (cs.length - (finding.found.length + finding.rest.length))
      let taken := if leftOut = 0 then instead finding replacement else finding.found
      if leftOut = 0 ∧ !isGlobal then (true, front ++ taken ++ finding.rest)
      else
        -- After an empty finding the next character stays.
        let (kept, rest) := if finding.found.isEmpty then finding.rest.splitAt 1 else ([], finding.rest)
        if finding.found.isEmpty ∧ finding.rest.isEmpty then (leftOut = 0, front ++ taken)
        else
          let (isFound, after) := exchanged regex ignoresCase replacement isGlobal steps (leftOut - 1)
            (kept.reverse ++ finding.found.reverse ++ finding.before) rest
          (leftOut = 0 || isFound, front ++ taken ++ kept ++ after)

/-- Whether something is done with a line. -/
def Address.admits (address : Address) (number : Nat) (isLast : Bool) (line : List Char) : Bool :=
  match address with
  | .every => true
  | .number wanted => number == wanted
  | .last => isLast
  | .fitting regex => (regex.search? false [] line).isSome

/-- A line that is being changed. -/
structure Editing where
  line : List Char
  printed : List (List Char)
  isDropped : Bool
  isOver : Bool

/-- Does something with a line. -/
def apply (number : Nat) (isLast : Bool) (e : Editing) (edit : Edit) : Editing :=
  if e.isDropped || e.isOver || !edit.address.admits number isLast e.line then e
  else
    match edit.act with
    | .drop => { e with isDropped := true }
    | .print => { e with printed := e.printed ++ [e.line] }
    | .quit => { e with isOver := true }
    | .exchange regex ignoresCase replacement first isGlobal prints =>
      let (isFound, line) := exchanged regex ignoresCase replacement isGlobal (e.line.length + 1) (first - 1) [] e.line
      { e with line, printed := e.printed ++ if isFound && prints then [line] else [] }

/-- The lines that are written for some lines, of which the first has the given number. -/
def linesOf (edits : List Edit) (isSilent : Bool) (number : Nat) : List String → List (List Char)
  | [] => []
  | line :: rest =>
    let e := edits.foldl (apply number rest.isEmpty) ⟨line.toList, [], false, false⟩
    let own := e.printed ++ if isSilent || e.isDropped then [] else [e.line]
    own ++ if e.isOver then [] else linesOf edits isSilent (number + 1) rest

end Edit

/-- Changes lines. -/
def sed (s : Shell) (arguments : List String) : Shell :=
  let (options, rest) := optionsOf ['e'] arguments
  let given := (options.filter (·.1 == 'e')).map (·.2)
  let (texts, names) :=
    match given, rest with
    | [], text :: names => ([text], names)
    | given, names => (given, names)
  let isExtended := hasOption options 'E' || hasOption options 'r'
  let text := "\n".intercalate texts
  match Edit.ofText? isExtended (text.length + 1) text.toList with
  | none => s.protest "sed" ["-e expression #1, char 0: unknown command"]
  | some edits =>
    s.writeTexts "sed" names fun texts =>
      let input := String.join texts
      let lines := (Edit.linesOf edits (hasOption options 'n') 1 (linesIn input)).map String.ofList
      let whole := String.join (lines.map (· ++ "\n"))
      -- A last line without an end is written without one.
      if input.endsWith "\n" then whole else String.ofList whole.toList.dropLast

/-! ## Parts of lines -/

/-- The ranges of a list of places. -/
def rangesOf (text : String) : List (Nat × Option Nat) :=
  (text.splitOn ",").map fun range =>
    match range.splitOn "-" with
    | [single] => (single.toNat?.getD 0, some (single.toNat?.getD 0))
    | first :: last :: _ => (first.toNat?.getD 1, last.toNat?)
    | [] => (0, some 0)

/-- The items at the places of ranges. -/
def itemsAt {α : Type} (ranges : List (Nat × Option Nat)) (items : List α) : List α :=
  (items.zipIdx.filter fun (_, index) =>
    ranges.any fun (first, last) => first ≤ index + 1 && last.all (index + 1 ≤ ·)).map (·.1)

/-- Takes parts of lines. -/
def cut (s : Shell) (arguments : List String) : Shell :=
  let (options, names) := optionsOf ['d', 'f', 'c', 'b'] arguments
  let mark := (optionValue? options 'd').getD "\t"
  let shown (line : String) : List String :=
    match optionValue? options 'f', (optionValue? options 'c').or (optionValue? options 'b') with
    | some fields, _ =>
      if line.contains (mark.toList.head?.getD '\t') then
        [mark.intercalate (itemsAt (rangesOf fields) (line.splitOn mark))]
      else if hasOption options 's' then []
      else [line]
    | none, some places => [String.ofList (itemsAt (rangesOf places) line.toList)]
    | none, none => [line]
  if options.isEmpty then s.misuse "cut" "you must specify a list of bytes, characters, or fields"
  else
    s.writeTexts "cut" names fun texts =>
      String.join (((texts.flatMap linesIn).flatMap shown).map (· ++ "\n"))

/-- The number with which a line begins. -/
def leadingNumber (line : String) : Int :=
  match line.toList.dropWhile Fielding.isBlank with
  | '-' :: cs => -(((String.ofList (cs.takeWhile Char.isDigit)).toNat?.getD 0 : Nat) : Int)
  | cs => ((String.ofList (cs.takeWhile Char.isDigit)).toNat?.getD 0 : Nat)

/-- Puts lines in order. -/
def sort (s : Shell) (arguments : List String) : Shell :=
  let (options, names) := optionsOf ['k', 't'] arguments
  let isNumeric := hasOption options 'n'
  let isReverse := hasOption options 'r'
  let key (line : String) : Int := if isNumeric then leadingNumber line else 0
  let before (a b : String) : Bool := key a < key b || (key a == key b && a ≤ b)
  s.writeTexts "sort" names fun texts =>
    let lines := (texts.flatMap linesIn).mergeSort fun a b => if isReverse then before b a else before a b
    let lines := if hasOption options 'u' then lines.eraseDups else lines
    String.join (lines.map (· ++ "\n"))

/-- Writes the lines of a text in which none is like the one in front of it. -/
def unique (s : Shell) (arguments : List String) : Shell :=
  s.writeTexts "uniq" (arguments.filter (!isOption ·)) fun texts =>
    let lines := texts.flatMap linesIn
    let kept := (lines.zip (none :: lines.map some)).filter fun (line, before) => before != some line
    String.join (kept.map (·.1 ++ "\n"))

/-- The programs by name. -/
def filter? : String → Option (Shell → List String → Shell)
  | "grep" => some grep
  | "sed" => some sed
  | "cut" => some cut
  | "sort" => some sort
  | "uniq" => some unique
  | _ => none

end Workflow.Shell
