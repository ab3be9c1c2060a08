import Workflow.Proofs.Intrinsic.Grammar
import Workflow.Proofs.Path.Spelling

/-!
# `Workflow.Proofs.Intrinsic.PathArgument` — paths as arguments

The reader of calls does not read the paths in a call; it looks for the end of each.  For that it keeps count of brackets
and of quotes, but it knows no backslashes, and it takes a quote in a name for the beginning of a quoted text.  So a path
that is usable alone can be cut off in the wrong place, or not at all, where it is an argument.

## Contents
- `Piece.Enclosed` and `Piece.Plain`, what the pieces of a path must be so that its end is found.
- **The scan.** `scan`, `Scanned` and `crosses_iff`: whether the end of a path is found where it is.
- **Arguments.** `denotes_path`, and `scanned_of_outcome`: paths are read as they are only if they are scanned through.
- **Pieces.** `Usable`, `scanned_of_usable` and `scanned_of_spells`: texts that are scanned through.
- **Calls.** `paths_as_arguments_iff`.
-/

namespace Workflow

namespace Path.Piece

open Intrinsic

/-- No white space, comma or closing parenthesis is outside of quotes in brackets. -/
def Enclosed : Piece → Prop
  | .dotted name _ _ _ => ∀ c ∈ name, ¬ Separates [c]
  | _ => True

/-- There are no quotes but around a name in brackets, except for the other kind of quote within them. -/
def Plain : Piece → Prop
  | .dotted name _ _ _ => '\'' ∉ name ∧ '"' ∉ name
  | .quoted quote body _ _ _ => quote ∉ body
  | _ => True

end Path.Piece

namespace Intrinsic

open Text
open Workflow.Path (Piece textOf)

variable {c : Char} {cs rest more tail : List Char} {depth : Nat} {quote : Option Char} {text : String}
  {texts : List String} {terms : List Term}

/-! ## The scan -/

/-- Where a scan for the end of a path gets, if it does not stop before the end of the text. -/
def scan (state : Nat × Option Char) (cs : List Char) : Option (Nat × Option Char) :=
  cs.foldlM (fun state c => advance state.1 state.2 c) state

/-- The scan goes through the whole text, and there it is outside of quotes and brackets. -/
def Scanned (text : String) : Prop := scan (0, none) text.toList = some (0, none)

instance : Decidable (Scanned text) := inferInstanceAs (Decidable (_ = _))

theorem scan_cons (state : Nat × Option Char) (c : Char) (cs : List Char) :
    scan state (c :: cs) = (advance state.1 state.2 c).bind (scan · cs) := rfl

theorem scan_append (state : Nat × Option Char) (cs cs' : List Char) :
    scan state (cs ++ cs') = (scan state cs).bind (scan · cs') := List.foldlM_append

theorem crosses_cons_iff : Crosses depth quote (c :: cs) ↔
    ∃ depth' quote', advance depth quote c = some (depth', quote') ∧ Crosses depth' quote' cs := by
  constructor
  · intro crosses
    cases h : advance depth quote c with
    | none =>
        -- A scan that stops at the character takes nothing, but it was said to take the character.
        have stops := crosses [')'] (Or.inr (Or.inl rfl))
        rw [List.cons_append, pathEnd_cons, h] at stops
        cases stops
    | some state =>
        refine ⟨state.1, state.2, rfl, fun rest ends => ?_⟩
        have goes := crosses rest ends
        rw [List.cons_append, pathEnd_cons, h] at goes
        obtain ⟨used, left⟩ := Prod.mk.inj goes
        exact Prod.ext (List.tail_eq_of_cons_eq used) left
  · rintro ⟨depth', quote', h, crosses⟩
    exact crosses.cons h

/-- **The end of a text is found** exactly if the scan is outside of quotes and brackets there. -/
theorem crosses_iff : Crosses depth quote cs ↔ scan (depth, quote) cs = some (0, none) := by
  induction cs generalizing depth quote with
  | nil =>
      constructor
      · intro crosses
        -- The end of the text is tried with a parenthesis behind it.
        have stops := crosses [')'] (Or.inr (Or.inl rfl))
        rw [List.nil_append, pathEnd_cons] at stops
        split at stops
        · cases stops
        · rename_i h
          obtain ⟨rfl, rfl, -⟩ := (advance_eq_none []).mp h
          rfl
      · intro h
        cases h
        exact crosses_nil
  | cons c cs ih =>
      rw [crosses_cons_iff, scan_cons]
      constructor
      · rintro ⟨depth', quote', h, crosses⟩
        rw [h]
        exact ih.mp crosses
      · intro h
        obtain ⟨⟨depth', quote'⟩, hadvance, hscan⟩ := Option.bind_eq_some_iff.mp h
        exact ⟨depth', quote', hadvance, ih.mpr hscan⟩

theorem scanned_iff (root : text.toList = '$' :: more) : Scanned text ↔ Crosses 0 none more := by
  rw [Scanned, root, crosses_iff]
  rfl

/-! ## Arguments -/

/-- What is scanned through is read as it is. -/
theorem denotes_path (root : text.toList = '$' :: more) (scanned : Scanned text) : Denotes text (.path text) := by
  have spells : Spells ('$' :: more) (.path (String.ofList ('$' :: more))) := .path ((scanned_iff root).mp scanned)
  rw [← root, String.ofList_toList] at spells
  exact denotes_iff.mpr ⟨[], text.toList, [], nofun, nofun, (List.append_nil _).symm, spells⟩

theorem pathsOf_map_path (texts : List String) : Term.pathsOf (texts.map .path) = texts := by
  induction texts with
  | nil => rfl
  | cons text texts ih => exact congrArg (text :: ·) ih

/-- If the first path of a call is the text that is written first, the scan went through that. -/
theorem crosses_of_outcome {others : List String} (nonempty : tail ≠ [])
    (read : outcome (argumentsFrom ('$' :: (more ++ tail))) = .ok (terms, rest))
    (first : Term.pathsOf terms = String.ofList ('$' :: more) :: others) : Crosses 0 none more := by
  have solid : skipBlanks ('$' :: (more ++ tail)) = '$' :: (more ++ tail) := skipBlanks_cons (by decide) _
  rw [outcome_argumentsFrom, solid, outcome_argumentFrom_path] at read
  generalize hends : pathEnd 0 none (more ++ tail) = ends at read
  obtain ⟨used, left⟩ := ends
  -- Whether or not there are other arguments, the first one is what the scan went through.
  have head : ∃ terms', terms = .path (String.ofList ('$' :: used)) :: terms' := by
    dsimp only at read
    split at read
    · cases read
      exact ⟨[], rfl⟩
    · obtain ⟨⟨terms', rest'⟩, -, e⟩ := DataFlow.map_eq_ok.mp read
      cases e
      exact ⟨terms', rfl⟩
    · cases read
  obtain ⟨terms', rfl⟩ := head
  obtain rfl : used = more := by
    have same := (List.cons.inj first).1
    exact List.tail_eq_of_cons_eq (String.ofList_injective same)
  have whole := pathEnd_append 0 none (used ++ tail)
  rw [hends] at whole
  obtain rfl : left = tail := List.append_cancel_left whole
  exact crosses_of_pathEnd hends nonempty

/-- A blank in front of arguments is skipped. -/
theorem outcome_argumentsFrom_blank (blank : isBlank c = true) (cs : List Char) :
    outcome (argumentsFrom (c :: cs)) = outcome (argumentsFrom cs) := by
  have one : Blank [c] := List.forall_mem_singleton.mpr blank
  have skipped : skipBlanks (c :: cs) = skipBlanks cs := skipBlanks_append one cs
  rw [outcome_argumentsFrom, outcome_argumentsFrom, skipped]

/-- A path that is scanned through is the first argument, and what is behind the comma are the others. -/
theorem outcome_argumentsFrom_path (crosses : Crosses 0 none more) (tail : List Char) :
    outcome (argumentsFrom ('$' :: more ++ ',' :: ' ' :: tail)) =
      (outcome (argumentsFrom tail)).map (Prod.map (.path (String.ofList ('$' :: more)) :: ·) id) := by
  have solid : skipBlanks ('$' :: more ++ ',' :: ' ' :: tail) = '$' :: more ++ ',' :: ' ' :: tail :=
    skipBlanks_cons (by decide) _
  have ends : Separates (',' :: ' ' :: tail) := Or.inl rfl
  have comma : skipBlanks (',' :: ' ' :: tail) = ',' :: ' ' :: tail := skipBlanks_cons (by decide) _
  rw [outcome_argumentsFrom, solid, outcome_of_spells (.path crosses) ends]
  simp only [comma]
  rw [outcome_argumentsFrom_blank (by decide)]

/-- **Paths are read as they are only if they are scanned through.** -/
theorem scanned_of_outcome (nonempty : texts ≠ []) (rooted : ∀ text ∈ texts, ∃ more, text.toList = '$' :: more)
    (read : outcome (argumentsFrom ((", ".intercalate texts).toList ++ [')'])) = .ok (terms, rest))
    (paths : Term.pathsOf terms = texts) : ∀ text ∈ texts, Scanned text := by
  induction texts generalizing terms with
  | nil => exact absurd rfl nonempty
  | cons text texts ih =>
      obtain ⟨⟨more, root⟩, rooted⟩ := List.forall_mem_cons.mp rooted
      refine List.forall_mem_cons.mpr ?_
      have named : text = String.ofList ('$' :: more) := by rw [← root, String.ofList_toList]
      cases texts with
      | nil =>
          -- The closing parenthesis is what the scan must stop at.
          rw [String.intercalate_singleton, root, List.cons_append] at read
          rw [named] at paths
          have crosses := crosses_of_outcome (List.cons_ne_nil _ _) read paths
          exact ⟨(scanned_iff root).mpr crosses, nofun⟩
      | cons second texts =>
          -- Here it is the comma, and what is behind that is read in the same way.
          have written : (", ".intercalate (text :: second :: texts)).toList ++ [')'] =
              '$' :: more ++ ',' :: ' ' :: ((", ".intercalate (second :: texts)).toList ++ [')']) := by
            rw [String.intercalate_cons_cons, String.toList_append, String.toList_append, root]
            simp
          rw [written] at read
          rw [named] at paths
          have crosses := crosses_of_outcome (List.cons_ne_nil _ _) read paths
          refine ⟨(scanned_iff root).mpr crosses, ?_⟩
          rw [outcome_argumentsFrom_path crosses] at read
          obtain ⟨⟨terms', rest'⟩, others, e⟩ := DataFlow.map_eq_ok.mp read
          cases e
          exact ih (List.cons_ne_nil _ _) rooted others (List.cons.inj paths).2

/-- Path texts are the arguments of a call, and the paths in it, exactly if all are scanned through. -/
theorem parse_paths_iff (nonempty : texts ≠ []) (rooted : ∀ text ∈ texts, ∃ more, text.toList = '$' :: more) :
    (Call.parse ("States.Array(" ++ ", ".intercalate texts ++ ")")).map Call.paths = .ok texts ↔
      ∀ text ∈ texts, Scanned text := by
  have named : Named "States.Array".toList := by decide
  have split : "States.Array(" = "States.Array" ++ "(" := by decide
  rw [split]
  constructor
  · intro h
    obtain ⟨call, parsed, paths⟩ := DataFlow.map_eq_ok.mp h
    obtain ⟨-, ⟨-, none⟩ | spells⟩ := (parse_parentheses_iff named).mp parsed
    · rw [Call.paths, none] at paths
      exact absurd paths.symm nonempty
    · have read := outcome_of_spellsArguments spells []
      rw [List.append_nil] at read
      exact scanned_of_outcome nonempty rooted read paths
  · intro scanned
    have denotes : List.Forall₂ Denotes texts (texts.map .path) := by
      rw [List.forall₂_map_right_iff, List.forall₂_same]
      intro text inside
      obtain ⟨more, root⟩ := rooted text inside
      exact denotes_path root (scanned text inside)
    rw [parse_of_denotes named nonempty denotes]
    exact congrArg Except.ok (pathsOf_map_path texts)

/-! ## Pieces -/

theorem scan_same {state : Nat × Option Char} (same : ∀ c ∈ cs, advance state.1 state.2 c = some state) :
    scan state cs = some state := by
  induction cs with
  | nil => rfl
  | cons c cs ih =>
      obtain ⟨first, others⟩ := List.forall_mem_cons.mp same
      rw [scan_cons, first]
      exact ih others

/-- A character that means nothing to the scan. -/
theorem advance_plain (single : c ≠ '\'') (double : c ≠ '"') (opening : c ≠ '[') (apart : ¬ Separates [c]) :
    advance 0 none c = some (0, none) := by
  unfold advance
  dsimp only
  rw [if_neg (not_or.mpr ⟨single, double⟩), if_neg opening]
  split
  · rfl
  · rw [if_neg fun stops => apart stops.2]

/-- A part of a path that a scan for its end goes through, whether or not the path can be read. -/
inductive Passable : List Char → Prop where
  /-- A dot and a name in which nothing means anything to the scan. -/
  | dotted {name : List Char} : (∀ c ∈ name, c ≠ '\'' ∧ c ≠ '"' ∧ c ≠ '[' ∧ ¬ Separates [c]) → Passable ('.' :: name)
  /-- A name between quotes in brackets, in which there are no such quotes. -/
  | quoted {quote : Char} {name : List Char} : quote = '\'' ∨ quote = '"' → quote ∉ name →
    Passable ('[' :: quote :: (name ++ [quote, ']']))
  | index {digits : List Char} : (∀ c ∈ digits, c.isDigit = true) → Passable ('[' :: (digits ++ [']']))
  | wildcard : Passable ['[', '*', ']']

/-- The text is the mark of a root with parts behind it that a scan goes through. -/
def Usable (text : String) : Prop :=
  ∃ (root : Path.Root) (parts : List (List Char)), (∀ part ∈ parts, Passable part) ∧ text.toList = root.mark ++ parts.flatten

theorem scan_passable (passable : Passable cs) : scan (0, none) cs = some (0, none) := by
  cases passable with
  | dotted plain =>
      refine scan_same (List.forall_mem_cons.mpr ⟨rfl, fun c inside => ?_⟩)
      obtain ⟨single, double, opening, apart⟩ := plain c inside
      exact advance_plain single double opening apart
  | @quoted quote name known plain =>
      have open' : scan (0, none) ['[', quote] = some (1, some quote) := by
        obtain rfl | rfl := known
        · rfl
        · rfl
      have inside : scan (1, some quote) name = some (1, some quote) := scan_same fun c inside => by
        have other : c ≠ quote := fun h => plain (h ▸ inside)
        rw [advance, if_neg other]
      have closed : scan (1, some quote) [quote, ']'] = some (0, none) := by
        rw [scan_cons, advance, if_pos rfl]
        rfl
      have whole : '[' :: quote :: (name ++ [quote, ']']) = ['[', quote] ++ (name ++ [quote, ']']) := rfl
      rw [whole, scan_append, open', Option.bind_some, scan_append, inside, Option.bind_some, closed]
  | @index digits digit =>
      have inside : scan (1, none) digits = some (1, none) := scan_same fun c inside => by
        -- A digit is none of the characters that a scan stops or turns at.
        have other : ∀ d : Char, d.isDigit = false → c ≠ d := by
          rintro d none rfl
          rw [digit c inside] at none
          cases none
        simp [advance, other]
      have whole : '[' :: (digits ++ [']']) = ['['] ++ (digits ++ [']']) := rfl
      have open' : scan (0, none) ['['] = some (1, none) := rfl
      rw [whole, scan_append, open', Option.bind_some, scan_append, inside, Option.bind_some]
      rfl
  | wildcard => rfl

/-- **Usable texts are scanned through.** -/
theorem scanned_of_usable (usable : Usable text) : Scanned text := by
  obtain ⟨root, parts, passable, written⟩ := usable
  have mark : scan (0, none) root.mark = some (0, none) := by cases root <;> rfl
  rw [Scanned, written, scan_append, mark, Option.bind_some]
  clear written
  induction parts with
  | nil => rfl
  | cons part parts ih =>
      obtain ⟨first, others⟩ := List.forall_mem_cons.mp passable
      rw [List.flatten_cons, scan_append, scan_passable first]
      exact ih others

/-- A piece is passable if what ends an argument is between quotes in it, and all of its quotes are at the ends of a name. -/
theorem passable_piece {piece : Piece} (enclosed : piece.Enclosed) (plain : piece.Plain) : Passable piece.text := by
  cases piece with
  | dotted name named _ _ =>
      refine .dotted fun c inside => ⟨?_, ?_, ?_, enclosed c inside⟩
      · rintro rfl
        exact plain.1 inside
      · rintro rfl
        exact plain.2 inside
      · rintro rfl
        exact absurd (named _ inside) (by decide)
  | dot => exact .dotted nofun
  | dottedWildcard => exact .dotted (List.forall_mem_singleton.mpr (by simp [Separates, isBlank]))
  | quoted quote body name known quotes => exact .quoted known plain
  | index digits digit _ _ => exact .index digit
  | wildcard => exact .wildcard

/-- **The texts that are scanned through:** those in which what ends an argument is between quotes, and in which there are
    no quotes that the scan takes for others. -/
theorem scanned_of_spells {path : Path} {pieces : List Piece} (spells : Path.Spells text path pieces)
    (suited : ∀ piece ∈ pieces, piece.Enclosed ∧ piece.Plain) : Scanned text := by
  refine scanned_of_usable ⟨path.root, pieces.map Piece.text, ?_, spells.text⟩
  intro part inside
  obtain ⟨piece, held, rfl⟩ := List.mem_map.mp inside
  exact passable_piece (suited piece held).1 (suited piece held).2

/-! ## Calls -/

/-- **Which paths are usable as arguments.** For all texts that are read as paths: with commas between them they are the
    arguments of a call, and the paths in it, exactly if the scan for the end of a path goes through each.  It does so if
    all white space, commas and closing parentheses are between quotes in brackets, no name has a quote in it, and nothing
    between quotes has the same quote in it, with a backslash or not. -/
theorem paths_as_arguments_iff (nonempty : texts ≠ []) (accepted : ∀ text ∈ texts, ∃ path, Path.parse text = .ok path) :
    ((Call.parse ("States.Array(" ++ ", ".intercalate texts ++ ")")).map Call.paths = .ok texts ↔
      ∀ text ∈ texts, Scanned text) ∧
    ((∀ text ∈ texts, ∃ path pieces, Path.Spells text path pieces ∧ ∀ piece ∈ pieces, piece.Enclosed ∧ piece.Plain) →
      (Call.parse ("States.Array(" ++ ", ".intercalate texts ++ ")")).map Call.paths = .ok texts) := by
  have rooted : ∀ text ∈ texts, ∃ more, text.toList = '$' :: more := by
    intro text inside
    obtain ⟨path, read⟩ := accepted text inside
    obtain ⟨pieces, spells⟩ := Path.parse_eq_ok_iff.mp read
    obtain ⟨more, mark⟩ := path.root.exists_mark
    exact ⟨more ++ textOf pieces, by rw [spells.text, mark]; rfl⟩
  have exact := parse_paths_iff nonempty rooted
  refine ⟨exact, fun suited => exact.mpr fun text inside => ?_⟩
  obtain ⟨path, pieces, spells, plain⟩ := suited text inside
  exact scanned_of_spells spells plain

/-- A name with a comma, a blank, a parenthesis, a bracket and a quote of the other kind in it, and an index and a wildcard
    behind the context object. -/
theorem paths_as_arguments_iff_pair :
    (∃ path, Path.parse "$.a[\"b, 'c) [\"]" = .ok path) ∧ (∃ path, Path.parse "$$.Map[12].*" = .ok path) ∧
      (Call.parse "States.Array($.a[\"b, 'c) [\"], $$.Map[12].*)").map Call.paths =
        .ok ["$.a[\"b, 'c) [\"]", "$$.Map[12].*"] := by
  have letter : ∀ c ∈ ['a'], Path.isNameChar c = true := List.all_eq_true.mp rfl
  have letters : ∀ c ∈ ['M', 'a', 'p'], Path.isNameChar c = true := List.all_eq_true.mp rfl
  have digits : ∀ c ∈ ['1', '2'], c.isDigit = true := List.all_eq_true.mp rfl
  have first : Path.Spells "$.a[\"b, 'c) [\"]" ⟨.data, [.field "a", .field "b, 'c) ["]⟩
      [.dotted _ letter (by decide) (by decide),
        .quoted '"' "b, 'c) [".toList _ (Or.inr rfl) (quotes_self (by decide) (by decide))] := ⟨trivial, rfl, rfl⟩
  have second : Path.Spells "$$.Map[12].*" ⟨.context, [.field "Map", .index 12, .wildcard]⟩
      [.dotted _ letters (by decide) (by decide), .index _ digits (by decide) (by decide), .dottedWildcard] := ⟨trivial, rfl, rfl⟩
  have first' := Path.parse_eq_ok_iff.mpr ⟨_, first⟩
  have second' := Path.parse_eq_ok_iff.mpr ⟨_, second⟩
  have accepted : ∀ text ∈ ["$.a[\"b, 'c) [\"]", "$$.Map[12].*"], ∃ path, Path.parse text = .ok path :=
    List.forall_mem_cons.mpr ⟨⟨_, first'⟩, List.forall_mem_singleton.mpr ⟨_, second'⟩⟩
  have suited : ∀ text ∈ ["$.a[\"b, 'c) [\"]", "$$.Map[12].*"], ∃ path pieces, Path.Spells text path pieces ∧
      ∀ piece ∈ pieces, piece.Enclosed ∧ piece.Plain := by
    refine List.forall_mem_cons.mpr ⟨⟨_, _, first, ?_⟩, List.forall_mem_singleton.mpr ⟨_, _, second, ?_⟩⟩
    · simp [Path.Piece.Enclosed, Path.Piece.Plain, Separates, isBlank]
    · simp [Path.Piece.Enclosed, Path.Piece.Plain, Separates, isBlank]
  have text : "States.Array(" ++ ", ".intercalate ["$.a[\"b, 'c) [\"]", "$$.Map[12].*"] ++ ")" =
    "States.Array($.a[\"b, 'c) [\"], $$.Map[12].*)" := by decide
  have read := (paths_as_arguments_iff (List.cons_ne_nil _ _) accepted).2 suited
  rw [text] at read
  exact ⟨⟨_, first'⟩, ⟨_, second'⟩, read⟩

/-- A name with an escaped quote in it, and nothing else that could end an argument, is a path but no argument. -/
theorem quoted_path_refused :
    Path.parse "$['a\\'b']" = .ok ⟨.data, [.field "a'b"]⟩ ∧ (∀ c ∈ "$['a\\'b']".toList, ¬ Separates [c]) ∧
      (Call.parse "States.Array($['a\\'b'])").map Call.paths ≠ .ok ["$['a\\'b']"] := by
  have quotes : Quotes '\'' ([·]) ['a', '\\', '\'', 'b'] ['a', '\'', 'b'] :=
    .plain (by decide) (by decide) (.escaped '\'' (.plain (by decide) (by decide) .nil))
  have spells : Path.Spells "$['a\\'b']" ⟨.data, [.field "a'b"]⟩ [.quoted '\'' _ _ (Or.inl rfl) quotes] :=
    ⟨trivial, rfl, rfl⟩
  have inside : "$['a\\'b']".toList.all (fun c => ¬ Separates [c]) = true := by decide
  refine ⟨Path.parse_eq_ok_iff.mpr ⟨_, spells⟩, fun c h => of_decide_eq_true (List.all_eq_true.mp inside c h), fun read => ?_⟩
  have rooted : ∀ text ∈ ["$['a\\'b']"], ∃ more, text.toList = '$' :: more := List.forall_mem_singleton.mpr ⟨_, rfl⟩
  have scanned := (parse_paths_iff (List.cons_ne_nil _ _) rooted).mp read _ List.mem_cons_self
  revert scanned
  decide

end Intrinsic

end Workflow
