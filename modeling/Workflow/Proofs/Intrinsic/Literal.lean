import Workflow.Intrinsic.Eval
import Workflow.Proofs.Intrinsic.Grammar

/-!
# `Workflow.Proofs.Intrinsic.Literal` — what functions receive for strings

A string can have a backslash before any of its characters, and must have one before each backslash and apostrophe.  What it
denotes is found out before it is known to which function it goes.  For the sake of templates, a backslash before a brace
stays in it; so every function receives such a brace with its backslash, and all other characters without.

## Contents
- **Calls.** `callText`, `Evaluates` and `ComesTo`, with `evaluate_call` and `comesTo_call`: what a call comes to is what its
  function makes of the values of its arguments.
- **Strings.** `literal` and `received`, with `denotes_literal`, and `received_eq_iff`, which says when a string is received as
  it was meant.
- **Strings in calls.** `literal_received_iff`.
-/

namespace Workflow.Intrinsic

open Text

variable {scope : Scope} {position : Nat} {name text : String} {texts texts' : List String} {term : Term}
  {terms terms' : List Term} {value : Json} {values values' : List Json} {marks : List (Char × Bool)}

/-! ## Calls -/

/-- What is written for a call of what is written for its arguments. -/
def callText (name : String) (texts : List String) : String := name ++ "(" ++ ", ".intercalate texts ++ ")"

/-- The texts are read as arguments that have the values, the first of them at the position. -/
def Evaluates (scope : Scope) (position : Nat) (texts : List String) (values : List Json) : Prop :=
  ∃ terms, List.Forall₂ Denotes texts terms ∧ evalTerms scope position terms = .ok values

/-- The text is read as an argument that comes to the outcome. -/
def ComesTo (scope : Scope) (text : String) (outcome : Except Error Json) : Prop :=
  ∃ term, Denotes text term ∧ evalTerm scope term = outcome

theorem Evaluates.nil : Evaluates scope position [] [] := ⟨[], .nil, rfl⟩

theorem Evaluates.cons (first : ComesTo (scope.at position) text (.ok value))
    (others : Evaluates scope (position + 1) texts values) :
    Evaluates scope position (text :: texts) (value :: values) := by
  obtain ⟨term, denotes, held⟩ := first
  obtain ⟨terms, denotes', held'⟩ := others
  refine ⟨term :: terms, .cons denotes denotes', ?_⟩
  rw [evalTerms, held, held']
  rfl

theorem Evaluates.append (first : Evaluates scope position texts values)
    (others : Evaluates scope (position + texts.length) texts' values') :
    Evaluates scope position (texts ++ texts') (values ++ values') := by
  obtain ⟨terms, denotes, held⟩ := first
  induction denotes generalizing position values with
  | nil =>
      cases held
      exact others
  | @cons text term texts terms denotes _ ih =>
      rw [evalTerms] at held
      cases hterm : evalTerm (scope.at position) term with
      | error e =>
          rw [hterm] at held
          cases held
      | ok value =>
          rw [hterm] at held
          obtain ⟨values', hvalues, rfl⟩ := DataFlow.map_eq_ok.mp held
          rw [List.length_cons, Nat.add_comm texts.length, ← Nat.add_assoc] at others
          exact .cons ⟨term, denotes, hterm⟩ (ih others hvalues)

theorem evalTerm_call (held : evalTerms scope 0 terms = .ok values) :
    evalTerm scope (.call name terms) = applyName name scope.chance values := by
  rw [evalTerm, held]

/-- **A call comes to what its function makes of the values of the arguments.** -/
theorem evaluate_call (named : Named name.toList) (nonempty : texts ≠ []) (evaluates : Evaluates scope 0 texts values) :
    evaluate scope (callText name texts) = applyName name scope.chance values := by
  obtain ⟨terms, denotes, held⟩ := evaluates
  rw [evaluate, callText, parse_of_denotes named nonempty denotes]
  exact evalTerm_call held

/-- A call in a call comes to the same. -/
theorem comesTo_call (named : Named name.toList) (nonempty : texts ≠ []) (evaluates : Evaluates scope 0 texts values) :
    ComesTo scope (callText name texts) (applyName name scope.chance values) := by
  obtain ⟨terms, denotes, held⟩ := evaluates
  exact ⟨.call name terms, denotes_call named nonempty denotes, evalTerm_call held⟩

/-! ## Strings -/

/-- The string of the characters, with a backslash before each that is marked. -/
def literal (marks : List (Char × Bool)) : String := "'" ++ String.ofList (escapeMarked marks) ++ "'"

/-- What is received for the string: a brace that is marked has its backslash before it. -/
def received (marks : List (Char × Bool)) : String := String.ofList (keepMarked escapedAs marks)

/-- The characters by themselves. -/
def meant (marks : List (Char × Bool)) : String := String.ofList (marks.map Prod.fst)

/-- No brace is marked. -/
def Unbraced (marks : List (Char × Bool)) : Prop := ∀ mark ∈ marks, mark.1 = '\x7b' ∨ mark.1 = '\x7d' → mark.2 = false

/-- **A string is read as what is received for it,** whatever else is marked in it. -/
theorem denotes_literal (all : ∀ mark ∈ marks, mark.1 = '\\' ∨ mark.1 = '\'' → mark.2 = true) :
    Denotes (literal marks) (.literal (.str (received marks))) := by
  refine denotes_iff.mpr ⟨[], _, [], nofun, nofun, ?_, .text (quotes_escapeMarked all)⟩
  simp [literal]

/-- A string gets longer by a character for each brace that is marked. -/
theorem length_keepMarked (marks : List (Char × Bool)) : (keepMarked escapedAs marks).length =
    marks.length + marks.countP fun mark => mark.2 && (mark.1 = '\x7b' || mark.1 = '\x7d') := by
  induction marks with
  | nil => rfl
  | cons mark marks ih =>
      obtain ⟨c, marked⟩ := mark
      have rest : (keepMarked escapedAs ((c, marked) :: marks)).length =
          (if marked = true then escapedAs c else [c]).length + (keepMarked escapedAs marks).length := List.length_append
      rw [rest, ih, List.countP_cons, List.length_cons, escapedAs]
      by_cases brace : c = '\x7b' ∨ c = '\x7d' <;> cases marked <;> simp [brace] <;> omega

/-- **A string is received as it was meant** exactly if no brace is marked. -/
theorem received_eq_iff : received marks = meant marks ↔ Unbraced marks := by
  constructor
  · intro h
    -- Every mark that is kept makes the text longer, so the lengths tell that none is.
    have same := congrArg List.length (String.ofList_injective h)
    rw [length_keepMarked, List.length_map, Nat.add_eq_left, List.countP_eq_zero] at same
    intro mark inside brace
    have kept := same mark inside
    simpa [brace] using kept
  · intro unbraced
    refine congrArg String.ofList ?_
    rw [keepMarked, List.map_eq_flatMap]
    refine List.flatMap_congr fun mark inside => ?_
    split
    · rename_i marked
      have plain : ¬ (mark.1 = '\x7b' ∨ mark.1 = '\x7d') := by
        intro brace
        rw [unbraced mark inside brace] at marked
        cases marked
      rw [escapedAs, if_neg plain]
    · rfl

/-! ## Strings in calls -/

/-- A string in a call has what is received for it as its value. -/
theorem evaluates_literal (all : ∀ mark ∈ marks, mark.1 = '\\' ∨ mark.1 = '\'' → mark.2 = true)
    (before : Evaluates scope 0 texts values) (after : Evaluates scope (texts.length + 1) texts' values') :
    Evaluates scope 0 (texts ++ literal marks :: texts') (values ++ .str (received marks) :: values') := by
  refine before.append ?_
  rw [Nat.zero_add]
  exact .cons ⟨_, denotes_literal all, rfl⟩ after

/-- The array of its arguments. -/
theorem applyName_array (chance : Chance) (values : List Json) :
    applyName "States.Array" chance values = .ok (.arr values) := by
  have named : Function.ofName? "States.Array" = some .array := by decide
  rw [applyName, named]
  rfl

/-- **What functions receive for strings.** For every function and every string that has a backslash before any of its
    characters, all backslashes and apostrophes among them: in a call of the function, at any depth and among any other
    arguments that have values, the function is applied to the string, with the backslashes of its braces kept and all others
    dropped.  That is the string that was meant exactly if no brace has a backslash; so for `States.Array`, which gives the
    string back. -/
theorem literal_received_iff (named : Named name.toList)
    (all : ∀ mark ∈ marks, mark.1 = '\\' ∨ mark.1 = '\'' → mark.2 = true)
    (before : Evaluates scope 0 texts values) (after : Evaluates scope (texts.length + 1) texts' values') :
    evaluate scope (callText name (texts ++ literal marks :: texts')) =
        applyName name scope.chance (values ++ .str (received marks) :: values') ∧
      ComesTo scope (callText name (texts ++ literal marks :: texts'))
        (applyName name scope.chance (values ++ .str (received marks) :: values')) ∧
      (received marks = meant marks ↔ Unbraced marks) ∧
      (evaluate scope (callText "States.Array" [literal marks]) = .ok (.arr [.str (meant marks)]) ↔ Unbraced marks) := by
  have evaluates := evaluates_literal all before after
  have some : texts ++ literal marks :: texts' ≠ [] := by simp
  refine ⟨evaluate_call named some evaluates, comesTo_call named some evaluates, received_eq_iff, ?_⟩
  have single : Evaluates scope 0 [literal marks] [.str (received marks)] := evaluates_literal all .nil .nil
  rw [evaluate_call (by decide) (List.cons_ne_nil _ _) single, applyName_array, ← received_eq_iff]
  simp

/-- A backslash and an apostrophe, a letter with a backslash and a brace without, in a call between two numbers. -/
theorem literal_received_iff_letter :
    Named "States.Array".toList ∧
      (∀ mark ∈ [('\\', true), ('\'', true), ('a', true), ('\x7b', false)], mark.1 = '\\' ∨ mark.1 = '\'' → mark.2 = true) ∧
      Evaluates ⟨.null, .null, default⟩ 0 ["1"] [.int 1] ∧ Evaluates ⟨.null, .null, default⟩ 2 ["2"] [.int 2] ∧
      evaluate ⟨.null, .null, default⟩ "States.Array(1, '\\\\\\'\\a\x7b', 2)" = .ok (.arr [.int 1, .str "\\'a\x7b", .int 2]) := by
  have named : Named "States.Array".toList := by decide
  have all : ∀ mark ∈ [('\\', true), ('\'', true), ('a', true), ('\x7b', false)],
      mark.1 = '\\' ∨ mark.1 = '\'' → mark.2 = true := by decide
  have numeral : Numeral "1".toList (.int 1) := ⟨⟨'1', _, rfl, rfl⟩, List.all_eq_true.mp (by decide), rfl⟩
  have numeral' : Numeral "2".toList (.int 2) := ⟨⟨'2', _, rfl, rfl⟩, List.all_eq_true.mp (by decide), rfl⟩
  have before : Evaluates ⟨.null, .null, default⟩ 0 ["1"] [.int 1] := .cons ⟨_, denotes_numeral numeral, rfl⟩ .nil
  have after : Evaluates ⟨.null, .null, default⟩ 2 ["2"] [.int 2] := .cons ⟨_, denotes_numeral numeral', rfl⟩ .nil
  have read := (literal_received_iff named all before after).1
  have text : callText "States.Array" (["1"] ++ literal [('\\', true), ('\'', true), ('a', true), ('\x7b', false)] :: ["2"]) =
    "States.Array(1, '\\\\\\'\\a\x7b', 2)" := by decide
  rw [text, applyName_array] at read
  exact ⟨named, all, before, after, read⟩

/-- A brace with a backslash before it is received with the backslash. -/
theorem escaped_brace_kept :
    (∀ mark ∈ [('\x7b', true)], mark.1 = '\\' ∨ mark.1 = '\'' → mark.2 = true) ∧
      callText "States.Array" [literal [('\x7b', true)]] = "States.Array('\\\x7b')" ∧ meant [('\x7b', true)] = "\x7b" ∧
      evaluate ⟨.null, .null, default⟩ "States.Array('\\\x7b')" = .ok (.arr [.str "\\\x7b"]) := by
  have all : ∀ mark ∈ [('\x7b', true)], mark.1 = '\\' ∨ mark.1 = '\'' → mark.2 = true := by decide
  have text : callText "States.Array" [literal [('\x7b', true)]] = "States.Array('\\\x7b')" := by decide
  have single : Evaluates ⟨.null, .null, default⟩ 0 [literal [('\x7b', true)]] [.str (received [('\x7b', true)])] :=
    evaluates_literal all .nil .nil
  have named : Named "States.Array".toList := by decide
  have read := evaluate_call named (List.cons_ne_nil _ _) single
  rw [text, applyName_array] at read
  exact ⟨all, text, rfl, read⟩

end Workflow.Intrinsic
