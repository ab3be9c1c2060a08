import Workflow.Intrinsic.Basic
import Workflow.Json.Number

/-!
# `Workflow.Intrinsic.Parser` — reading intrinsic calls

A call is a name that begins with `States.`, and arguments in parentheses separated by commas.  An
argument is a string in apostrophes, a path, a number, a call, or one of the words true, false and null.

Covers `call`, `arg`, `string`, `path`, `number` and `skip_ws`.

## Contents
- `quoted`, `pathEnd`, `numberFrom` and `wordFrom`, the readers of the parts.
- `callFrom`, `argumentFrom` and `argumentsFrom`, which read calls of any depth.
- `Call.parse`, the reader of a whole text.
-/

namespace Workflow.Intrinsic

open Text (Taken Rest Reader)

/-- A flaw together with the number of characters that follow it. -/
structure Stop where
  flaw : Flaw
  unread : Nat

/-- Stops in front of a text. -/
def Stop.before (flaw : Flaw) (cs : List Char) : Stop := ⟨flaw, cs.length⟩

/-- The text from its first character on that is not white space. -/
def skipBlanks (cs : List Char) : List Char := cs.dropWhile Text.isBlank

theorem length_skipBlanks_le (cs : List Char) : (skipBlanks cs).length ≤ cs.length :=
  Text.length_dropWhile_le _ cs

/-! ## Parts -/

/-- A character of a function name. -/
def isNameChar (c : Char) : Bool := c.isAlphanum || c = '.' || c = '_'

/-- A character of a number, in any place. -/
def isNumberChar (c : Char) : Bool :=
  c.isDigit || c = '-' || c = '+' || c = '.' || c = 'e' || c = 'E'

theorem length_le_escaped (c : Char) (rest : List Char) : rest.length ≤ ('\\' :: c :: rest).length := by
  simp only [List.length_cons]
  omega

/-- Reads a string up to its closing apostrophe.  A backslash stands before a character that is taken as it
is; before a brace the backslash itself is kept, so that a template can tell it from a placeholder. -/
def quoted (cs : List Char) : Except Stop (Taken (List Char) cs) :=
  match cs with
  | [] => .error (.before .unterminatedString [])
  | '\\' :: [] => .error (.before .danglingEscape ['\\'])
  | '\\' :: c :: rest =>
    (quoted rest).map fun taken =>
      (taken.map fun text => if c = '\x7b' ∨ c = '\x7d' then '\\' :: c :: text else c :: text).widen
        (length_le_escaped c rest)
  | c :: rest =>
    if c = '\'' then .ok (.first [])
    else (quoted rest).map fun taken => (taken.map (c :: ·)).after

/-- Splits a text at the end of the path with which it begins: at the first comma, closing parenthesis or
white space outside quotes and brackets. -/
def pathEnd (depth : Nat) (quote : Option Char) : List Char → List Char × List Char
  | [] => ([], [])
  | c :: rest =>
    let next (depth : Nat) (quote : Option Char) : List Char × List Char :=
      let split := pathEnd depth quote rest
      (c :: split.1, split.2)
    match quote with
    | some q => if c = q then next depth none else next depth quote
    | none =>
      if c = '\'' ∨ c = '"' then next depth (some c)
      else if c = '[' then next (depth + 1) none
      else if c = ']' then next (depth - 1) none
      else if depth = 0 ∧ (c = ',' ∨ c = ')' ∨ Text.isBlank c) then ([], c :: rest)
      else next depth none

theorem length_pathEnd_le (depth : Nat) (quote : Option Char) (cs : List Char) :
    (pathEnd depth quote cs).2.length ≤ cs.length := by
  induction cs generalizing depth quote with
  | nil => simp [pathEnd]
  | cons c rest ih =>
    have step := fun d q => Nat.le_succ_of_le (ih d q)
    simp only [pathEnd]
    split
    · split <;> exact step _ _
    · repeat' split
      all_goals first | exact step _ _ | exact Nat.le_refl _

/-- The first character of a number. -/
def isNumberStart (c : Char) : Bool := c.isDigit || c = '-'

theorem isNumberChar_of_isNumberStart {c : Char} (h : isNumberStart c = true) :
    isNumberChar c = true := by
  simp only [isNumberStart, isNumberChar, Bool.or_eq_true, decide_eq_true_eq] at h ⊢
  rcases h with h | h <;> simp [h]

/-- Reads a number, given its first character. -/
def numberFrom (c : Char) (rest : List Char) (h : isNumberStart c = true) :
    Except Stop (Taken Term (c :: rest)) :=
  let after := (c :: rest).dropWhile isNumberChar
  match Json.ofNumber? ((c :: rest).takeWhile isNumberChar) with
  | some value =>
    .ok ⟨(.literal value, after), Text.length_dropWhile_lt (isNumberChar_of_isNumberStart h)⟩
  | none => .error (.before .invalidNumber after)

/-- The words that stand for values. -/
def words : List (List Char × Json) :=
  [(['t', 'r', 'u', 'e'], .bool true), (['f', 'a', 'l', 's', 'e'], .bool false),
    (['n', 'u', 'l', 'l'], .null)]

/-- Reads one of the words. -/
def wordFrom (cs : List Char) : Except Stop (Taken Term cs) :=
  match words.find? (fun entry => entry.1.isPrefixOf cs) with
  | some entry =>
    if h : (cs.drop entry.1.length).length < cs.length then
      .ok ⟨(.literal entry.2, cs.drop entry.1.length), h⟩
    else .error (.before .expectedArgument cs)
  | none => .error (.before .expectedArgument cs)

/-! ## Calls -/

mutual
/-- Reads a call from its name on. -/
def callFrom (cs : List Char) : Except Stop (Taken Call cs) :=
  let name := cs.takeWhile isNameChar
  let rest := Rest.dropWhile isNameChar cs
  if namespaceMark.isPrefixOf name then
    match h : skipBlanks rest.1 with
    | '(' :: inside =>
      have shorter : inside.length < cs.length := by
        have := length_skipBlanks_le rest.1
        have := rest.2
        simp_all only [List.length_cons]
        omega
      match h' : skipBlanks inside with
      | ')' :: after => .ok ⟨(⟨String.ofList name, []⟩, after), by
          have := length_skipBlanks_le inside
          simp_all only [List.length_cons]
          omega⟩
      | _ =>
        (argumentsFrom inside).map fun taken =>
          (taken.map (⟨String.ofList name, ·⟩)).widen (Nat.le_of_lt shorter)
    | other => .error (.before .expectedParenthesis other)
  else .error (.before .expectedName rest.1)
termination_by (cs.length, 0)
/-- Reads an argument. -/
def argumentFrom (cs : List Char) : Except Stop (Taken Term cs) :=
  match cs with
  | [] => .error (.before .expectedArgument [])
  | c :: rest =>
    if c = '\'' then
      (quoted rest).map fun taken =>
        (taken.map fun text => .literal (.str (String.ofList text))).after
    else if c = '$' then
      let split := pathEnd 0 none rest
      .ok ⟨(.path (String.ofList (c :: split.1)), split.2),
        Nat.lt_succ_of_le (length_pathEnd_le 0 none rest)⟩
    else if h : isNumberStart c then numberFrom c rest h
    else if namespaceMark.isPrefixOf (c :: rest) then
      (callFrom (c :: rest)).map fun taken => taken.map fun call => .call call.name call.arguments
    else wordFrom (c :: rest)
termination_by (cs.length, 1)
/-- Reads arguments up to the closing parenthesis, of which there is at least one. -/
def argumentsFrom (cs : List Char) : Except Stop (Taken (List Term) cs) :=
  match argumentFrom (skipBlanks cs) with
  | .error stop => .error stop
  | .ok ⟨(term, rest), h⟩ =>
    have shorter : rest.length < cs.length :=
      Nat.lt_of_lt_of_le h (length_skipBlanks_le cs)
    match h' : skipBlanks rest with
    | ')' :: after => .ok ⟨([term], after), by
        have := length_skipBlanks_le rest
        simp_all only [List.length_cons]
        omega⟩
    | ',' :: more =>
      have shorter' : more.length < cs.length := by
        have := length_skipBlanks_le rest
        simp_all only [List.length_cons]
        omega
      (argumentsFrom more).map fun taken =>
        (taken.map (term :: ·)).widen (Nat.le_of_lt shorter')
    | other => .error (.before .expectedSeparator other)
termination_by (cs.length, 2)
decreasing_by
  · have := length_skipBlanks_le cs
    rcases Nat.lt_or_eq_of_le this with h | h
    · exact Prod.Lex.left _ _ h
    · rw [h]
      exact Prod.Lex.right _ (by omega)
  · exact Prod.Lex.left _ _ shorter'
end

/-- The call that a text denotes. -/
def Call.parse (text : String) : Except Error Call :=
  let cs := text.toList
  let malformed (stop : Stop) : Error := .malformed text stop.flaw (cs.length - stop.unread)
  match callFrom (skipBlanks cs) with
  | .error stop => .error (malformed stop)
  | .ok ⟨(call, rest), _⟩ =>
    match skipBlanks rest with
    | [] => .ok call
    | rest => .error (malformed (.before .trailingInput rest))

end Workflow.Intrinsic
