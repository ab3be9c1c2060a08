/-!
# `Workflow.Shell.Command` — what shell scripts consist of

Small scripts can do the work of tasks.  A script is a sequence of commands, and a command is made of words, whose
text is known only when the command is run.

## Contents
- `Piece` and `Word`, with `Piece.literal?`, the text of a word in which nothing has to be looked up.
- `Redirection` and `Target`.
- `Command`.
-/

namespace Workflow.Shell

/-- What is done where a parameter has no value. -/
inductive Fallback where
  /-- Another text is taken. -/
  | substitute
  /-- Another text is taken and becomes the value. -/
  | assign
  /-- The text is taken where there is a value, and nothing where there is none. -/
  | alternative
  /-- The script ends with a complaint. -/
  | complain
  deriving DecidableEq, Repr

/-- How a part of a value is cut off. -/
structure Cut where
  /-- Whether it is cut off at the end. -/
  atEnd : Bool
  /-- Whether as much as possible is cut off. -/
  greedy : Bool
  deriving DecidableEq, Repr

mutual
/-- A part of a word. -/
inductive Piece where
  | text (text : String)
  /-- Parts that are taken as they are: they are not split, and no character in them stands for others. -/
  | quoted (pieces : List Piece)
  /-- The value of a parameter. -/
  | parameter (name : String)
  /-- The length of a value. -/
  | length (name : String)
  /-- A value, with something else where there is none; an empty value can count as none. -/
  | fallback (name : String) (fallback : Fallback) (emptyToo : Bool) (instead : List Piece)
  /-- A value without the part that fits a pattern. -/
  | cut (name : String) (cut : Cut) (pattern : List Piece)
  /-- What a command writes. -/
  | output (command : Command)
  /-- The value of an expression. -/
  | arithmetic (expression : List Piece)
  /-- Something that is found wrong when it is needed. -/
  | broken
/-- Where a stream leads to or comes from. -/
inductive Target where
  | read (name : List Piece)
  | write (name : List Piece)
  | append (name : List Piece)
  /-- The same as another stream. -/
  | same (stream : List Piece)
  /-- A text that stands in the script, by its number. -/
  | here (index : Nat)
/-- A stream by its number, and where it leads to or comes from. -/
inductive Redirection where
  | mk (stream : Nat) (target : Target)
/-- A command. -/
inductive Command where
  | skip
  /-- Settings and words on the line of the given number. -/
  | simple (line : Nat) (settings : List (String × List Piece)) (words : List (List Piece))
      (redirections : List Redirection)
  | redirected (command : Command) (redirections : List Redirection)
  | pipe (left right : Command)
  | both (left right : Command)
  | either (left right : Command)
  | not (command : Command)
  | next (left right : Command)
  | choose (condition yes no : Command)
  /-- Runs the body as long as the status of the condition is the same. -/
  | loop (whileFails : Bool) (condition body : Command)
  /-- Runs the body with a parameter set to each field of words, or to each argument. -/
  | each (name : String) (words : Option (List (List Piece))) (body : Command)
  /-- Runs the command of the first case with a pattern that the word fits. -/
  | select (word : List Piece) (cases : List (List (List Piece) × Command))
  /-- Runs in a shell of its own. -/
  | inner (command : Command)
  | define (name : String) (body : Command)
end

/-- A word; an empty one has a quoted piece without pieces. -/
abbrev Word := List Piece

/-- The text of a piece without quotes in which nothing has to be looked up. -/
def Piece.plain? : Piece → Option String
  | .text given => some given
  | _ => none

/-- The text of a word without quotes in which nothing has to be looked up. -/
def Word.plain? (word : Word) : Option String := (word.mapM Piece.plain?).map String.join

mutual
/-- The text of a piece in which nothing has to be looked up. -/
def Piece.literal? : Piece → Option String
  | .text given => some given
  | .quoted pieces => literalOf? pieces
  | _ => none
/-- The text of pieces in which nothing has to be looked up. -/
def literalOf? : List Piece → Option String
  | [] => some ""
  | piece :: rest => do return (← Piece.literal? piece) ++ (← literalOf? rest)
end

end Workflow.Shell
