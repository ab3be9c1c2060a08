import Workflow.Path.Basic

/-!
# `Workflow.Path.Parser` — reading paths

A path text is one or two dollar signs and a spelling of every step: `.name`, `['name']` or `["name"]`
for a field, `[0]` for an index, `.*` or `[*]` for a wildcard.

Covers `parse`.

## Contents
- `quotedName`, the reader of a quoted field name, and `length_quotedName_lt`, that it makes progress.
- `bracketStep`, the reader of a step in brackets.
- `Path.parse`, the reader of a whole path.
-/

namespace Workflow.Path

/-- A character of a plain field name. -/
def isNameChar (c : Char) : Bool := c ≠ '.' && c ≠ '['

/-- Reads a field name up to its closing quote.  A backslash stands before a character that is taken as
it is. -/
def quotedName (quote : Char) : List Char → Except Flaw (List Char × List Char)
  | [] => .error .unterminatedField
  | '\\' :: [] => .error .danglingEscape
  | '\\' :: c :: rest => (quotedName quote rest).map fun r => (c :: r.1, r.2)
  | c :: rest =>
    if c = quote then .ok ([], rest)
    else (quotedName quote rest).map fun r => (c :: r.1, r.2)

theorem length_quotedName_lt {quote : Char} {cs : List Char} {r : List Char × List Char}
    (h : quotedName quote cs = .ok r) : r.2.length < cs.length := by
  fun_induction quotedName quote cs generalizing r with
  | case1 => simp at h
  | case2 => simp at h
  | case3 c rest ih =>
    cases hq : quotedName quote rest with
    | error e => simp [hq, Except.map] at h
    | ok s =>
      simp only [hq, Except.map, Except.ok.injEq] at h
      subst h
      have := ih hq
      simp only [List.length_cons]
      omega
  | case4 c rest _ =>
    simp only [Except.ok.injEq] at h
    subst h
    simp
  | case5 c rest _ _ _ ih =>
    cases hq : quotedName quote rest with
    | error e => simp [hq, Except.map] at h
    | ok s =>
      simp only [hq, Except.map, Except.ok.injEq] at h
      subst h
      have := ih hq
      simp only [List.length_cons]
      omega

/-- The value of decimal digits. -/
def digitsValue (cs : List Char) : Nat := cs.foldl (fun n c => n * 10 + (c.toNat - '0'.toNat)) 0

/-- The least number that is too great for an index. -/
def indexBound : Nat := Nat.pow 2 64

/-- Reads a step from after its opening bracket up to its closing one. -/
def bracketStep (cs : List Char) : Except Flaw (Step × List Char) :=
  match cs with
  | '*' :: rest => .ok (.wildcard, rest)
  | '?' :: _ | '(' :: _ => .error .filter
  | c :: rest =>
    if c = '\'' ∨ c = '"' then
      (quotedName c rest).map fun r => (.field (String.ofList r.1), r.2)
    else if c.isDigit then
      let position := digitsValue (cs.takeWhile Char.isDigit)
      if position < indexBound then .ok (.index position, cs.dropWhile Char.isDigit)
      else .error .indexOutOfRange
    else .error .expectedStep
  | [] => .error .expectedStep

theorem length_bracketStep_lt {cs : List Char} {r : Step × List Char}
    (h : bracketStep cs = .ok r) : r.2.length < cs.length := by
  unfold bracketStep at h
  split at h
  · simp only [Except.ok.injEq] at h
    subst h
    simp
  · simp at h
  · simp at h
  · rename_i c rest _ _ _
    split at h
    · cases hq : quotedName c rest with
      | error e => simp [hq, Except.map] at h
      | ok s =>
        simp only [hq, Except.map, Except.ok.injEq] at h
        subst h
        have := length_quotedName_lt hq
        simp only [List.length_cons]
        omega
    · split at h
      · rename_i hd
        dsimp only at h
        split at h
        · simp only [Except.ok.injEq] at h
          subst h
          have := (List.dropWhile_suffix Char.isDigit (l := rest)).length_le
          simp only [List.dropWhile_cons, hd, if_true, List.length_cons]
          omega
        · simp at h
      · simp at h
  · simp at h

/-- Reads the steps of a path. -/
def parseSteps (cs : List Char) : Except Flaw (List Step) :=
  match cs with
  | [] => .ok []
  | '.' :: [] => .error .trailingDot
  | '.' :: '.' :: _ => .error .recursiveDescent
  | '.' :: '*' :: rest => (parseSteps rest).map (.wildcard :: ·)
  | '.' :: c :: rest =>
    if c = '[' then (parseSteps (c :: rest)).map (.field "" :: ·)
    else
      (parseSteps (rest.dropWhile isNameChar)).map
        (.field (String.ofList (c :: rest.takeWhile isNameChar)) :: ·)
  | '[' :: rest =>
    match _h : bracketStep rest with
    | .error flaw => .error flaw
    | .ok (step, ']' :: rest') => (parseSteps rest').map (step :: ·)
    | .ok _ => .error .expectedBracket
  | c :: _ => .error (.unexpected c)
termination_by cs.length
decreasing_by
  · simp only [List.length_cons]
    omega
  · simp
  · have := (List.dropWhile_suffix isNameChar (l := rest)).length_le
    simp only [List.length_cons]
    omega
  · have := length_bracketStep_lt _h
    simp only [List.length_cons] at this ⊢
    omega

/-- The path that a text denotes. -/
def parse (text : String) : Except Flaw Path :=
  match text.toList with
  | '$' :: '$' :: rest => (parseSteps rest).map (⟨.context, ·⟩)
  | '$' :: rest => (parseSteps rest).map (⟨.data, ·⟩)
  | _ => .error .noRoot

end Workflow.Path
