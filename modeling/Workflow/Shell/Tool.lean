import Workflow.Shell.Builtin
import Workflow.Shell.Expand

/-!
# `Workflow.Shell.Tool` — programs that every system has

Small programs that copy, count, cut and change text.  Their complaints begin with their own names.

## Contents
- `quoteName`, how a name of a file is told.
- `cat`, `sleep`, `touch`, `remove`, `count`, `firstPart`, `lastPart`, `exchange`, `sequence` and `copy`.
- `tool?`, the programs by name.
-/

namespace Workflow.Shell

/-! ## Complaints -/

/-- The characters because of which a name is told in quotes. -/
def quotedCharacters : List Char :=
  [' ', '!', '"', '$', '&', '(', ')', '*', ';', '<', '=', '>', '[', '^', '\x60', '|', '?', '\'', '\n', '\t', '\\']

/-- Whether a character has no meaning in either kind of quotes. -/
def isHarmless (c : Char) : Bool :=
  c.isAlphanum || [' ', '%', '+', ',', '-', '.', '/', ':', ']', '_', '\''].contains c

/-- A name in quotes. -/
def inApostrophes (name : String) : String :=
  if name.contains '\'' && name.toList.all isHarmless then "\"" ++ name ++ "\""
  else "'" ++ "'\\''".intercalate (name.splitOn "'") ++ "'"

/-- How a name of a file is told: in quotes where something in it has a meaning. -/
def quoteName (name : String) : String :=
  let cs := name.toList
  if cs.isEmpty || cs.any quotedCharacters.contains || ['\x7b', '\x7d', '#', '~'].any (cs == [·]) then
    inApostrophes name
  else name

/-- Complains in the name of a program. -/
def protest (s : Shell) (program : String) (messages : List String) : Shell :=
  (s.send 2 (String.join (messages.map fun message => program ++ ": " ++ message ++ "\n"))).withStatus 1

/-- What refers to the help of a program. -/
def helpHint (program : String) : String := "Try '" ++ program ++ " --help' for more information.\n"

/-- Complains of the way in which a program is called. -/
def misuse (s : Shell) (program message : String) : Shell :=
  (s.send 2 (program ++ ": " ++ message ++ "\n" ++ helpHint program)).withStatus 1

/-- Whether an argument is an option. -/
def isOption (argument : String) : Bool := argument.startsWith "-" && argument.length != 1

/-! ## Copying -/

/-- The texts of some files, or what can be read where none is named, and the names of those that cannot be read, with
the causes. -/
def textsOf (s : Shell) (names : List String) : List String × List (String × String) × Shell :=
  let names := if names.isEmpty then ["-"] else names
  names.foldl (fun (texts, absent, s) name =>
    if name = "-" then (texts ++ [s.input], absent, { s with input := "" })
    else
      match s.file? name with
      | some file => (texts ++ [file.text], absent, s)
      | none =>
        let isDirectory := pathOf name = "" && !name.isEmpty
        (texts, absent ++ [(name, if isDirectory then "Is a directory" else "No such file or directory")], s))
    ([], [], s)

/-- Writes what a program makes of the texts of files, and complains of those that cannot be read. -/
def writeTexts (s : Shell) (program : String) (names : List String) (shown : List String → String) : Shell :=
  let (texts, absent, after) := s.textsOf names
  let after := after.write (shown texts)
  if absent.isEmpty then after.withStatus 0
  else after.protest program (absent.map fun (name, cause) => quoteName name ++ ": " ++ cause)

/-- Copies files to the output. -/
def cat (s : Shell) (arguments : List String) : Shell :=
  s.writeTexts "cat" (arguments.filter (!isOption ·)) String.join

/-- Copies what can be read to files and to the output. -/
def copy (s : Shell) (arguments : List String) : Shell :=
  let keeps := arguments.contains "-a"
  let after := (arguments.filter (!isOption ·)).foldl (fun s name =>
    s.store name ((if keeps then ((s.file? name).map (·.text)).getD "" else "") ++ s.input)) s
  { after.write s.input with input := "", status := 0 }

/-- Makes files, which are empty unless they exist. -/
def touch (s : Shell) (arguments : List String) : Shell :=
  ((arguments.filter (!isOption ·)).foldl (fun s name =>
    if (s.file? name).isSome then s else s.store name "") s).withStatus 0

/-- Takes files away. -/
def remove (s : Shell) (arguments : List String) : Shell :=
  let names := arguments.filter (!isOption ·)
  let isForced := (arguments.filter isOption).any (·.contains 'f')
  let missing := if isForced then [] else names.filter fun name => (s.file? name).isNone
  let after := { s with files := names.foldl (fun files name => Fields.erase files (pathOf name)) s.files }
  if missing.isEmpty then after.withStatus 0
  else
    after.protest "rm" (missing.map fun name =>
      "cannot remove '" ++ name ++ "': No such file or directory")

/-! ## Time -/

/-- The milliseconds of a unit of time. -/
def unitMillis? : List Char → Option Nat
  | [] | ['s'] => some 1000
  | ['m'] => some 60000
  | ['h'] => some 3600000
  | ['d'] => some 86400000
  | _ => none

/-- The milliseconds of a time, which may have places and a unit. -/
def millisOf? (text : String) : Option Nat := do
  let whole := text.toList.takeWhile Char.isDigit
  let rest := text.toList.dropWhile Char.isDigit
  let places := if rest.head? = some '.' then (rest.drop 1).takeWhile Char.isDigit else []
  let unit ← unitMillis? (if rest.head? = some '.' then (rest.drop 1).dropWhile Char.isDigit else rest)
  if whole.isEmpty && places.isEmpty then none
  else
    let number := ((String.ofList (whole ++ places)).toNat?).getD 0
    return number * unit / Nat.pow 10 places.length

/-- Lets time pass. -/
def sleep (s : Shell) (arguments : List String) : Shell :=
  match arguments.mapM millisOf? with
  | some [] => s.misuse "sleep" "missing operand"
  | some times => { s with elapsedMillis := s.elapsedMillis + times.foldl (· + ·) 0, status := 0 }
  | none =>
    let wrong := arguments.filter fun argument => (millisOf? argument).isNone
    (s.send 2 (String.join (wrong.map fun argument =>
      "sleep: invalid time interval '" ++ argument ++ "'\n") ++ helpHint "sleep")).withStatus 1

/-! ## Parts -/

/-- The lines of a text with their ends. -/
def linesWithEnds (text : String) : List String :=
  let lines := text.splitOn "\n"
  lines.dropLast.map (· ++ "\n") ++ lines.getLast?.toList.filter (!·.isEmpty)

/-- Whether bytes are counted, how many of them or of lines, and the files. -/
def amountOf (arguments : List String) : Bool × String × List String :=
  match arguments with
  | "-n" :: amount :: names => (false, amount, names)
  | "-c" :: amount :: names => (true, amount, names)
  | first :: names =>
    match first.toList with
    | '-' :: 'n' :: amount => (false, String.ofList amount, names)
    | '-' :: 'c' :: amount => (true, String.ofList amount, names)
    | '-' :: amount => (false, String.ofList amount, names)
    | _ => (false, "10", arguments)
  | [] => (false, "10", [])

/-- Writes a part of files, which is taken from the list of their bytes or lines. -/
def writePart (program : String) (part : {α : Type} → String → List α → List α) (s : Shell)
    (arguments : List String) : Shell :=
  let (ofBytes, amount, names) := amountOf arguments
  let (texts, absent, after) := s.textsOf names
  let shown (text : String) : String :=
    if ofBytes then Format.textOf (part amount text.toUTF8.toList) else String.join (part amount (linesWithEnds text))
  let after := after.write (String.join (texts.map shown))
  if absent.isEmpty then after.withStatus 0
  else
    after.protest program (absent.map fun (name, cause) =>
      "cannot open " ++ inApostrophes name ++ " for reading: " ++ cause)

/-- Writes the first lines or bytes. -/
def firstPart : Shell → List String → Shell :=
  writePart "head" fun amount items =>
    match amount.toInt? with
    | some amount => if amount < 0 then items.take (items.length - amount.natAbs) else items.take amount.natAbs
    | none => items

/-- Writes the last lines or bytes, or those from a place on. -/
def lastPart : Shell → List String → Shell :=
  writePart "tail" fun amount items =>
    if amount.startsWith "+" then
      items.drop (((String.ofList (amount.toList.drop 1)).toNat?.getD 1) - 1)
    else items.drop (items.length - (amount.toInt?.map Int.natAbs).getD 10)

/-! ## Counting -/

/-- The number of words in a text. -/
def wordCount (text : String) : Nat :=
  ((text.toList.map fun c => if Fielding.isBlank c then '\n' else c).splitOn '\n').countP (!·.isEmpty)

/-- Counts lines, words and bytes. -/
def count (s : Shell) (arguments : List String) : Shell :=
  let letters := (arguments.filter isOption).flatMap (·.toList.drop 1)
  let letters := if letters.isEmpty then ['l', 'w', 'c'] else letters
  let names := arguments.filter (!isOption ·)
  let numbers (text : String) : List Nat :=
    (if letters.contains 'l' then [text.toList.count '\n'] else [])
      ++ (if letters.contains 'w' then [wordCount text] else [])
      ++ (if letters.contains 'm' then [text.length] else [])
      ++ if letters.contains 'c' then [text.utf8ByteSize] else []
  let shown (text : String) : String :=
    match numbers text with
    | [number] => toString number
    | numbers => " ".intercalate (numbers.map fun n => "".pushn ' ' (7 - (toString n).length) ++ toString n)
  s.writeTexts "wc" names fun texts => String.join (texts.zipIdx.map fun (text, index) =>
    shown text ++ ((names[index]?).map (" " ++ ·)).getD "" ++ "\n")

/-- The whole numbers from one to another in steps, of which there are at most as many as told. -/
def numbersFrom (step last : Int) : Nat → Int → List Int
  | 0, _ => []
  | count + 1, first =>
    if (0 < step ∧ last < first) ∨ (step < 0 ∧ first < last) then []
    else first :: numbersFrom step last count (first + step)

/-- Writes whole numbers in turn. -/
def sequence (s : Shell) (arguments : List String) : Shell :=
  let written (first step last : Int) : Shell :=
    let numbers := if step = 0 then [] else numbersFrom step last ((last - first).natAbs + 1) first
    (s.write (String.join (numbers.map fun n => toString n ++ "\n"))).withStatus 0
  match arguments.map Arithmetic.integer? with
  | [some last] => written 1 1 last
  | [some first, some last] => written first 1 last
  | [some first, some step, some last] => written first step last
  | _ =>
    match arguments.find? fun argument => (Arithmetic.integer? argument).isNone with
    | some argument => s.misuse "seq" ("invalid floating point argument: " ++ inApostrophes argument)
    | none => s.misuse "seq" "missing operand"

/-! ## Changing -/

/-- The characters between two. -/
def between (first last : Char) : List Char :=
  (List.range (last.toNat + 1 - first.toNat)).map fun offset => Char.ofNat (first.toNat + offset)

/-- The characters that a description with ranges and escapes stands for. -/
def charactersOf : List Char → List Char
  | first :: '-' :: last :: rest => between first last ++ charactersOf rest
  | '\\' :: c :: rest => (((Format.escapes.find? (·.1 == c)).map (·.2)).getD c) :: charactersOf rest
  | c :: rest => c :: charactersOf rest
  | [] => []

/-- The characters that an argument stands for, which can be a class. -/
def charactersIn (argument : String) : List Char :=
  match Pattern.classes.find? (·.1 == argument) with
  | some entry => entry.2.flatMap fun range => between range.1 range.2
  | none => charactersOf argument.toList

/-- Puts characters in the places of others, or leaves them out. -/
def exchange (s : Shell) (arguments : List String) : Shell :=
  let changed (change : List Char → List Char) : Shell :=
    { s.write (String.ofList (change s.input.toList)) with input := "", status := 0 }
  match arguments with
  | ["-d", dropped] => changed fun cs => cs.filter (!(charactersIn dropped).contains ·)
  | ["-cd", kept] => changed fun cs => cs.filter (charactersIn kept).contains
  | [given, instead] =>
    let olds := charactersIn given
    let news := charactersIn instead
    changed fun cs => cs.map fun c =>
      match olds.findIdx? (· == c) with
      | some index => (news[min index (news.length - 1)]?).getD c
      | none => c
  | _ => s.misuse "tr" "missing operand"

/-- The last part of a name, without an ending. -/
def lastName (s : Shell) (arguments : List String) : Shell :=
  match arguments with
  | name :: more =>
    let cs := (name.toList.reverse.dropWhile (· = '/')).reverse
    let last := (cs.reverse.takeWhile (· ≠ '/')).reverse
    let ending := (more.head?.getD "").toList
    let shown := if ending.isSuffixOf last ∧ ending ≠ last then last.take (last.length - ending.length) else last
    (s.write (String.ofList (if shown.isEmpty then ['/'] else shown) ++ "\n")).withStatus 0
  | [] => s.misuse "basename" "missing operand"

/-- A name without its last part. -/
def directoryName (s : Shell) (arguments : List String) : Shell :=
  match arguments with
  | name :: _ =>
    let cs := (name.toList.reverse.dropWhile (· = '/')).reverse
    let front := ((cs.reverse.dropWhile (· ≠ '/')).dropWhile (· = '/')).reverse
    let shown := if front.isEmpty then (if cs.contains '/' || cs.isEmpty then ['/'] else ['.']) else front
    (s.write (String.ofList shown ++ "\n")).withStatus 0
  | [] => s.misuse "dirname" "missing operand"

/-- The programs by name. -/
def tool? : String → Option (Shell → List String → Shell)
  | "cat" => some cat
  | "sleep" => some sleep
  | "tee" => some copy
  | "touch" => some touch
  | "rm" => some remove
  | "head" => some firstPart
  | "tail" => some lastPart
  | "wc" => some count
  | "seq" => some sequence
  | "tr" => some exchange
  | "basename" => some lastName
  | "dirname" => some directoryName
  | _ => none

end Workflow.Shell
