import Workflow.Proofs.Intrinsic.PathArgument
import Workflow.Proofs.Json.Number

/-!
# `Workflow.Proofs.Intrinsic.Printing` — calls are read as they were printed

A call is printed with its strings between apostrophes, its other values as in a document, and its paths as they are; the
arguments have commas between them, and white space can stand anywhere around them.  What is printed is a writing of the
grammar, so the reader takes it for the call that was printed; and as a call ends with its parenthesis, the reader notices
whatever comes after it.

## Contents
- **Calls that can be printed.** `Printable` arguments, among them all usable paths.
- **Printing.** `Prints`, `PrintsCall` and `PrintsArguments`, which leave the white space open, and `exists_prints`.
- **Reading.** `spells_of_prints` and its like, `parse_trailing`, and `parse_printed`.
-/

namespace Workflow.Intrinsic

open Text

variable {cs rest before after : List Char} {term : Term} {call : Call}

/-! ## Calls that can be printed -/

/-- The term can be printed as an argument. -/
inductive Printable : Term → Prop where
  | text (text : String) : Printable (.literal (.str text))
  | integer {n : Int} : (Json.int n).Sound → Printable (.literal (.int n))
  | flag (value : Bool) : Printable (.literal (.bool value))
  | null : Printable (.literal .null)
  | path {text : String} : Usable text → Printable (.path text)
  | call {name : String} {arguments : List Term} :
    Named name.toList → (∀ argument ∈ arguments, Printable argument) → Printable (.call name arguments)

/-! ## Printing -/

mutual
/-- What is printed for an argument. -/
inductive Prints : Term → List Char → Prop where
  | text (text : String) : Prints (.literal (.str text)) ('\'' :: (escapeFor '\'' text.toList ++ ['\'']))
  | integer (n : Int) : Prints (.literal (.int n)) (toString n).toList
  | flag (value : Bool) : Prints (.literal (.bool value)) (toString value).toList
  | null : Prints (.literal .null) "null".toList
  | path (text : String) : Prints (.path text) text.toList
  | call {name : String} {arguments : List Term} {cs : List Char} :
    PrintsCall ⟨name, arguments⟩ cs → Prints (.call name arguments) cs
/-- What is printed for a call, with any white space before the parenthesis. -/
inductive PrintsCall : Call → List Char → Prop where
  | bare {name : String} {before inside : List Char} : Blank before → Blank inside →
    PrintsCall ⟨name, []⟩ (name.toList ++ (before ++ '(' :: (inside ++ [')'])))
  | applied {name : String} {arguments : List Term} {before cs : List Char} :
    Blank before → PrintsArguments arguments cs →
    PrintsCall ⟨name, arguments⟩ (name.toList ++ (before ++ '(' :: (cs ++ [')'])))
/-- What is printed for arguments, with any white space before and after each of them. -/
inductive PrintsArguments : List Term → List Char → Prop where
  | last {argument : Term} {before cs after : List Char} : Blank before → Prints argument cs → Blank after →
    PrintsArguments [argument] (before ++ (cs ++ after))
  | more {argument : Term} {arguments : List Term} {before cs after more : List Char} : Blank before →
    Prints argument cs → Blank after → PrintsArguments arguments more →
    PrintsArguments (argument :: arguments) (before ++ (cs ++ (after ++ ',' :: more)))
end

theorem exists_printsArguments {arguments : List Term} (nonempty : arguments ≠ [])
    (each : ∀ argument ∈ arguments, ∃ cs, Prints argument cs) : ∃ cs, PrintsArguments arguments cs := by
  induction arguments with
  | nil => exact absurd rfl nonempty
  | cons argument arguments ih =>
      obtain ⟨⟨cs, first⟩, others⟩ := List.forall_mem_cons.mp each
      cases arguments with
      | nil => exact ⟨_, @PrintsArguments.last _ [] _ [] nofun first nofun⟩
      | cons second arguments =>
          obtain ⟨more, rest⟩ := ih (List.cons_ne_nil _ _) others
          exact ⟨_, @PrintsArguments.more _ _ [] _ [] _ nofun first nofun rest⟩

theorem exists_printsCall {name : String} {arguments : List Term} (each : ∀ argument ∈ arguments, ∃ cs, Prints argument cs) :
    ∃ cs, PrintsCall ⟨name, arguments⟩ cs := by
  by_cases nonempty : arguments = []
  · subst nonempty
    exact ⟨_, @PrintsCall.bare _ [] [] nofun nofun⟩
  · obtain ⟨cs, printed⟩ := exists_printsArguments nonempty each
    exact ⟨_, @PrintsCall.applied _ _ [] _ nofun printed⟩

/-- **What can be printed has a printing.** -/
theorem exists_prints (printable : Printable term) : ∃ cs, Prints term cs := by
  induction printable with
  | text text => exact ⟨_, .text text⟩
  | @integer n _ => exact ⟨_, .integer n⟩
  | flag value => exact ⟨_, .flag value⟩
  | null => exact ⟨_, .null⟩
  | @path text _ => exact ⟨_, .path text⟩
  | call _ _ each =>
      obtain ⟨cs, printed⟩ := exists_printsCall each
      exact ⟨cs, .call printed⟩

/-! ## Reading -/

theorem isNumberStart_of_isDigit {c : Char} (digit : c.isDigit = true) : isNumberStart c = true := by
  rw [isNumberStart, digit, Bool.true_or]

/-- An integer is a numeral where it is printed. -/
theorem numeral_toString {n : Int} (sound : (Json.int n).Sound) : Numeral (toString n).toList (.int n) := by
  have read := Json.ofNumber?_toString sound
  have digits : ∀ m, ∀ c ∈ Nat.toDigits 10 m, isNumberStart c = true := fun m c inside =>
    isNumberStart_of_isDigit (Nat.isDigit_of_mem_toDigits (by decide) (by decide) inside)
  have starts : (∀ c ∈ (toString n).toList, isNumberStart c = true) ∧ (toString n).toList ≠ [] := by
    cases n with
    | ofNat m =>
        have printed : (toString (Int.ofNat m)).toList = Nat.toDigits 10 m := Nat.toList_repr
        rw [printed]
        exact ⟨digits m, Nat.toDigits_ne_nil⟩
    | negSucc m =>
        have printed : (toString (Int.negSucc m)).toList = '-' :: Nat.toDigits 10 (m + 1) := by
          rw [← Nat.toList_repr]
          exact String.toList_append
        rw [printed]
        exact ⟨List.forall_mem_cons.mpr ⟨rfl, digits (m + 1)⟩, List.cons_ne_nil _ _⟩
  obtain ⟨all, some⟩ := starts
  obtain ⟨c, more, whole⟩ := List.exists_cons_of_ne_nil some
  exact ⟨⟨c, more, whole, all c (whole ▸ List.mem_cons_self)⟩, fun c inside => isNumberChar_of_isNumberStart (all c inside), read⟩

theorem Usable.spells {text : String} (usable : Usable text) : Spells text.toList (.path text) := by
  have scanned := scanned_of_usable usable
  obtain ⟨root, parts, -, written⟩ := usable
  obtain ⟨more, mark⟩ := root.exists_mark
  rw [mark, List.cons_append] at written
  have spells := Spells.path ((scanned_iff written).mp scanned)
  rwa [← written, String.ofList_toList] at spells

mutual
/-- **What is printed for an argument is a writing of it.** -/
theorem spells_of_prints {term : Term} {cs : List Char} : Prints term cs → Printable term → Spells cs term
  | .text text, _ => by
      have quotes : Quotes '\'' escapedAs (escapeFor '\'' text.toList) text.toList := quotes_escapeFor rfl rfl _
      have written := Spells.text quotes
      rwa [String.ofList_toList] at written
  | .integer n, .integer sound => .number (numeral_toString sound)
  | .flag true, _ => .word List.mem_cons_self
  | .flag false, _ => .word (List.mem_cons_of_mem _ List.mem_cons_self)
  | .null, _ => .word (List.mem_cons_of_mem _ (List.mem_cons_of_mem _ List.mem_cons_self))
  | .path text, .path usable => usable.spells
  | .call printed, .call named printable => .call (spellsCall_of_prints printed named printable)
/-- **What is printed for a call is a writing of it.** -/
theorem spellsCall_of_prints {call : Call} {cs : List Char} : PrintsCall call cs → Named call.name.toList →
    (∀ argument ∈ call.arguments, Printable argument) → SpellsCall cs call
  | .bare blank blank', named, _ => by
      have written := SpellsCall.bare named blank blank'
      rwa [String.ofList_toList] at written
  | .applied blank printed, named, printable => by
      have written := SpellsCall.applied named blank (spellsArguments_of_prints printed printable)
      rwa [String.ofList_toList] at written
/-- **What is printed for arguments is a writing of them,** up to the closing parenthesis. -/
theorem spellsArguments_of_prints {arguments : List Term} {cs : List Char} : PrintsArguments arguments cs →
    (∀ argument ∈ arguments, Printable argument) → SpellsArguments (cs ++ [')']) arguments
  | .last blank printed blank', printable => by
      have written := SpellsArguments.last blank (spells_of_prints printed (printable _ List.mem_cons_self)) blank'
      simpa using written
  | .more blank printed blank' others, printable => by
      have rest := spellsArguments_of_prints others fun argument inside => printable _ (List.mem_cons_of_mem _ inside)
      have written := SpellsArguments.more blank (spells_of_prints printed (printable _ List.mem_cons_self)) blank' rest
      simpa using written
end

/-- **What follows a call is refused,** unless it is white space. -/
theorem parse_trailing {c : Char} (blank : Blank before) (spells : SpellsCall cs call) (blank' : Blank after)
    (solid : isBlank c = false) {text : String} (whole : text.toList = before ++ (cs ++ (after ++ c :: rest))) :
    Call.parse text = .error (.malformed text .trailingInput (before ++ (cs ++ after)).length) := by
  have read : outcome (callFrom (skipBlanks text.toList)) = .ok (call, after ++ c :: rest) := by
    rw [whole, skipBlanks_spellsCall blank spells, outcome_of_spellsCall spells]
  have place : text.toList.length - (c :: rest).length = (before ++ (cs ++ after)).length := by
    rw [whole]
    simp only [List.length_append, List.length_cons]
    omega
  unfold Call.parse
  dsimp only
  split
  · rename_i hread
    rw [hread] at read
    cases read
  · rename_i call' rest' bound hread
    rw [hread] at read
    cases read
    rw [skipBlanks_append blank', skipBlanks_cons solid]
    exact congrArg (fun place => Except.error (Error.malformed text .trailingInput place)) place

/-- **Calls are read as they were printed.** For every call whose name, and those of the calls in it, is one that functions can
    have, and whose arguments are strings, integers of 64 bits, truth values, null, usable paths and such calls: it can be
    printed, and whatever white space is before and after its arguments, before its parentheses and around it, the text is read
    as the call; and if anything but white space comes after that, the text is refused for what begins there. -/
theorem parse_printed (named : Named call.name.toList) (printable : ∀ argument ∈ call.arguments, Printable argument) :
    (∃ cs, PrintsCall call cs) ∧
      ∀ before cs after, Blank before → PrintsCall call cs → Blank after →
        Call.parse (String.ofList (before ++ (cs ++ after))) = .ok call ∧
          ∀ c rest, isBlank c = false →
            Call.parse (String.ofList (before ++ (cs ++ (after ++ c :: rest)))) =
              .error (.malformed (String.ofList (before ++ (cs ++ (after ++ c :: rest)))) .trailingInput
                (before ++ (cs ++ after)).length) := by
  refine ⟨exists_printsCall fun argument inside => exists_prints (printable argument inside), ?_⟩
  intro before cs after blank printed blank'
  have spells := spellsCall_of_prints printed named printable
  refine ⟨parse_eq_ok_iff.mpr ⟨before, cs, after, blank, blank', String.toList_ofList, spells⟩, ?_⟩
  intro c rest solid
  exact parse_trailing blank spells blank' solid String.toList_ofList

/-- Calls in a call, one of them without arguments; a string with an apostrophe, a backslash, braces, a comma and a parenthesis
    in it; both ends of the integers; and a path with a parenthesis and a bracket between quotes.  The colon is too much. -/
theorem parse_printed_nested :
    Named "States.f".toList ∧
      (∀ argument ∈ [Term.literal (.str "'\\\x7b\x7d,("), .literal (.int (-9223372036854775808)),
        .call "States.g_1" [.literal (.int 18446744073709551615), .path "$$.a[\") [\"][*]"], .call "States.h" []],
        Printable argument) ∧
      Call.parse " States.f ( '\\'\\\\\x7b\x7d,(',-9223372036854775808\t,States.g_1( 18446744073709551615,$$.a[\") [\"][*]),States.h()) " =
        .ok ⟨"States.f", [.literal (.str "'\\\x7b\x7d,("), .literal (.int (-9223372036854775808)),
          .call "States.g_1" [.literal (.int 18446744073709551615), .path "$$.a[\") [\"][*]"], .call "States.h" []]⟩ ∧
      Call.parse "States.h() :" = .error (.malformed "States.h() :" .trailingInput 11) := by
  have dotted : Passable ['.', 'a'] := .dotted (List.forall_mem_singleton.mpr (by decide))
  have quoted : Passable ('[' :: '"' :: ([')', ' ', '['] ++ ['"', ']'])) := .quoted (Or.inr rfl) (by decide)
  have usable : Usable "$$.a[\") [\"][*]" := by
    refine ⟨.context, [['.', 'a'], '[' :: '"' :: ([')', ' ', '['] ++ ['"', ']']), ['[', '*', ']']], ?_, rfl⟩
    simp only [List.forall_mem_cons]
    exact ⟨dotted, quoted, .wildcard, nofun⟩
  have named' : Named "States.h".toList := by decide
  have none : ∀ argument ∈ ([] : List Term), Printable argument := nofun
  have inner : ∀ argument ∈ [Term.literal (.int 18446744073709551615), .path "$$.a[\") [\"][*]"], Printable argument :=
    List.forall_mem_cons.mpr ⟨.integer (by decide), List.forall_mem_singleton.mpr (.path usable)⟩
  have printable : ∀ argument ∈ [Term.literal (.str "'\\\x7b\x7d,("), .literal (.int (-9223372036854775808)),
      .call "States.g_1" [.literal (.int 18446744073709551615), .path "$$.a[\") [\"][*]"], .call "States.h" []],
      Printable argument := by
    simp only [List.forall_mem_cons]
    exact ⟨.text _, .integer (by decide), .call (by decide) inner, .call named' none, nofun⟩
  have space : Blank [' '] := List.forall_mem_singleton.mpr rfl
  have tab : Blank ['\t'] := List.forall_mem_singleton.mpr rfl
  have nothing : Blank [] := nofun
  have least := Prints.integer (-9223372036854775808)
  have greatest := Prints.integer 18446744073709551615
  have path := Prints.path "$$.a[\") [\"][*]"
  have bare := @PrintsCall.bare "States.h" [] [] nothing nothing
  have applied := @PrintsCall.applied "States.g_1" _ _ _ nothing (.more space greatest nothing (.last nothing path nothing))
  have printed := @PrintsCall.applied "States.f" _ _ _ space <| .more space (.text "'\\\x7b\x7d,(") nothing <|
    .more nothing least tab <| .more nothing (.call applied) nothing <| .last nothing (.call bare) nothing
  have named : Named "States.f".toList := by decide
  have read := ((parse_printed named printable).2 _ _ _ space printed space).1
  refine ⟨named, printable, ?_, ((parse_printed named' none).2 _ _ _ nothing bare space).2 ':' [] rfl⟩
  convert read using 2
  decide

end Workflow.Intrinsic
