import Workflow.Path.Parser
import Workflow.Proofs.Text.Quotes

/-!
# `Workflow.Proofs.Path.Spelling` — how paths are written

A path is written as its root and a piece of text for each step.  The reader of paths accepts what is put together from
such pieces, and what it accepts is put together from them.  So whatever is to be said about the texts of paths can be said
piece by piece.

## Contents
- **Pieces.** `Piece`, a step as it is written, with its `text` and the `step` that it stands for, and `Joined`, what must
  follow what.
- **Reading pieces.** `parseSteps_pieces`.
- **What is read consists of pieces.** `pieces_of_parseSteps`.
- **Paths.** `Spells`, and `parse_eq_ok_iff`: a text is read as a path exactly if it spells it.
-/

namespace Workflow.Path

open Text

variable {cs rest : List Char} {quote : Char}

/-! ## Pieces -/

/-- A step as it is written. -/
inductive Piece where
  /-- A dot and a name. -/
  | dotted (name : List Char) (plain : ∀ c ∈ name, isNameChar c = true) (named : name ≠ []) (star : name.head? ≠ some '*')
  /-- A dot without a name, which stands for a field without one. -/
  | dot
  /-- A dot and an asterisk. -/
  | dottedWildcard
  /-- A name between quotes in brackets, in which any character can have a backslash before it. -/
  | quoted (quote : Char) (body name : List Char) (known : quote = '\'' ∨ quote = '"')
      (quotes : Quotes quote ([·]) body name)
  /-- Digits in brackets. -/
  | index (digits : List Char) (plain : ∀ c ∈ digits, c.isDigit = true) (named : digits ≠ [])
      (inside : digitsValue digits < indexBound)
  /-- An asterisk in brackets. -/
  | wildcard

namespace Piece

/-- What is written. -/
def text : Piece → List Char
  | .dotted name _ _ _ => '.' :: name
  | .dot => ['.']
  | .dottedWildcard => ['.', '*']
  | .quoted quote body _ _ _ => '[' :: quote :: (body ++ [quote, ']'])
  | .index digits _ _ _ => '[' :: (digits ++ [']'])
  | .wildcard => ['[', '*', ']']

/-- The step that it stands for. -/
def step : Piece → Step
  | .dotted name _ _ _ => .field (String.ofList name)
  | .dot => .field ""
  | .dottedWildcard => .wildcard
  | .quoted _ _ name _ _ => .field (String.ofList name)
  | .index digits _ _ _ => .index (digitsValue digits)
  | .wildcard => .wildcard

/-- It is written in brackets. -/
def Bracketed (piece : Piece) : Prop := ∃ inside, piece.text = '[' :: inside

/-- A piece begins with what cannot be in a name. -/
theorem exists_text (piece : Piece) : ∃ c more, piece.text = c :: more ∧ isNameChar c = false := by
  cases piece
  all_goals exact ⟨_, _, rfl, rfl⟩

end Piece

variable {piece : Piece} {pieces : List Piece} {step : Step} {steps : List Step}

/-- A dot without a name has something in brackets behind it. -/
def Joined : List Piece → Prop
  | [] => True
  | .dot :: rest => (∃ piece more, rest = piece :: more ∧ piece.Bracketed) ∧ Joined rest
  | _ :: rest => Joined rest

/-- What is written for pieces. -/
def textOf (pieces : List Piece) : List Char := pieces.flatMap Piece.text

/-- What is written for pieces goes on no name. -/
theorem stops_name (pieces : List Piece) : (textOf pieces).takeWhile isNameChar = [] ∧
    (textOf pieces).dropWhile isNameChar = textOf pieces := by
  cases pieces with
  | nil => exact ⟨rfl, rfl⟩
  | cons piece pieces =>
      obtain ⟨c, more, text, stops⟩ := piece.exists_text
      have whole : textOf (piece :: pieces) = c :: (more ++ textOf pieces) := by
        rw [textOf, List.flatMap_cons, text]
        rfl
      rw [whole, List.takeWhile_cons, List.dropWhile_cons, stops]
      exact ⟨rfl, rfl⟩

/-! ## Reading pieces -/

/-- Names are read as quoted texts are. -/
theorem unquotes_quotedName (known : quote = '\'' ∨ quote = '"') : Unquotes quote ([·]) (quotedName quote) where
  close rest := by
    have backslash : quote ≠ '\\' := by
      rintro rfl
      revert known
      decide
    rw [quotedName]
    · exact if_pos rfl
    · exact fun h _ => backslash h
    · exact fun _ _ h _ => backslash h
  plain c cs backslash other := by
    rw [quotedName]
    · exact if_neg other
    · exact fun h _ => backslash h
    · exact fun _ _ h _ => backslash h
  escaped c cs := by
    rw [quotedName]
    rfl
  unclosed _ := by
    rw [quotedName]
    nofun
  dangling _ := by
    rw [quotedName]
    nofun

theorem parseSteps_bracket (cs : List Char) : parseSteps ('[' :: cs) =
    match bracketStep cs with
    | .error flaw => .error flaw
    | .ok (step, ']' :: rest) => (parseSteps rest).map (step :: ·)
    | .ok _ => .error .expectedBracket := by
  rw [parseSteps]
  split
  · rename_i h
    rw [h]
  · rename_i h
    simp only [h]
  · rename_i r open' h
    rw [h]
    split
    · rename_i e
      cases e
    · rename_i e
      cases e
      exact absurd rfl (open' _ _)
    · rfl

/-- What is written in brackets is read up to the closing one. -/
theorem parseSteps_of_bracketStep (h : bracketStep cs = .ok (step, ']' :: rest)) :
    parseSteps ('[' :: cs) = (parseSteps rest).map (step :: ·) := by
  rw [parseSteps_bracket, h]
  rfl

theorem bracketStep_index {digits : List Char} (plain : ∀ c ∈ digits, c.isDigit = true) (named : digits ≠ [])
    (inside : digitsValue digits < indexBound) (rest : List Char) :
    bracketStep (digits ++ ']' :: rest) = .ok (.index (digitsValue digits), ']' :: rest) := by
  have taken : (digits ++ ']' :: rest).takeWhile Char.isDigit = digits := by
    rw [List.takeWhile_append_of_pos plain]
    exact List.append_nil digits
  have left : (digits ++ ']' :: rest).dropWhile Char.isDigit = ']' :: rest := by
    rw [List.dropWhile_append_of_pos plain]
    rfl
  obtain ⟨d, more, rfl⟩ := List.exists_cons_of_ne_nil named
  have digit := plain d List.mem_cons_self
  have other : ∀ c : Char, c.isDigit = false → d ≠ c := by
    rintro c none rfl
    rw [digit] at none
    cases none
  rw [List.cons_append] at taken left ⊢
  rw [bracketStep]
  · simp only [taken, left]
    rw [if_neg (not_or.mpr ⟨other _ rfl, other _ rfl⟩), if_pos digit, if_pos inside]
  · exact other _ rfl
  · exact other _ rfl
  · exact other _ rfl

theorem bracketStep_quoted {body name : List Char} (known : quote = '\'' ∨ quote = '"')
    (quotes : Quotes quote ([·]) body name) (rest : List Char) :
    bracketStep (quote :: (body ++ quote :: rest)) = .ok (.field (String.ofList name), rest) := by
  have read := (unquotes_quotedName known).read_quotes quotes rest
  rw [bracketStep]
  · rw [if_pos known, read]
    rfl
  all_goals
    rintro rfl
    revert known
    decide

theorem parseSteps_dotted {name : List Char} (plain : ∀ c ∈ name, isNameChar c = true) (named : name ≠ [])
    (star : name.head? ≠ some '*') (pieces : List Piece) :
    parseSteps ('.' :: (name ++ textOf pieces)) = (parseSteps (textOf pieces)).map (.field (String.ofList name) :: ·) := by
  obtain ⟨taken, left⟩ := stops_name pieces
  obtain ⟨c, more, rfl⟩ := List.exists_cons_of_ne_nil named
  obtain ⟨first, others⟩ := List.forall_mem_cons.mp plain
  have bracket : c ≠ '[' := by
    rintro rfl
    cases first
  rw [List.cons_append, parseSteps]
  · rw [if_neg bracket, List.takeWhile_append_of_pos others, List.dropWhile_append_of_pos others, taken, left,
      List.append_nil]
  · rintro rfl
    cases first
  · rintro rfl
    exact star rfl

/-- **Pieces are read as the steps that they stand for.** -/
theorem parseSteps_pieces (joined : Joined pieces) : parseSteps (textOf pieces) = .ok (pieces.map Piece.step) := by
  induction pieces with
  | nil =>
      rw [textOf, List.flatMap_nil, parseSteps]
      rfl
  | cons piece pieces ih =>
      have whole : textOf (piece :: pieces) = piece.text ++ textOf pieces := List.flatMap_cons
      have read : parseSteps (textOf (piece :: pieces)) = (parseSteps (textOf pieces)).map (piece.step :: ·) ∧
          Joined pieces := by
        rw [whole]
        cases piece with
        | dotted name plain named star => exact ⟨parseSteps_dotted plain named star pieces, joined⟩
        | dot =>
            -- The reader takes the dot for a field without a name only because it sees the bracket.
            obtain ⟨⟨next, more, rfl, inside, bracket⟩, joined⟩ := joined
            have begins : textOf (next :: more) = '[' :: (inside ++ textOf more) := by
              rw [textOf, List.flatMap_cons, bracket]
              rfl
            refine ⟨?_, joined⟩
            rw [begins, Piece.text, List.singleton_append, parseSteps, if_pos rfl]
            · rfl
            · decide
            · decide
        | dottedWildcard =>
            refine ⟨?_, joined⟩
            rw [Piece.text, List.cons_append, List.singleton_append, parseSteps]
            rfl
        | quoted quote body name known quotes =>
            refine ⟨?_, joined⟩
            have read := bracketStep_quoted known quotes (']' :: textOf pieces)
            simpa [Piece.text, Piece.step] using parseSteps_of_bracketStep read
        | index digits plain named inside =>
            refine ⟨?_, joined⟩
            have read := bracketStep_index plain named inside (textOf pieces)
            simpa [Piece.text, Piece.step] using parseSteps_of_bracketStep read
        | wildcard => exact ⟨parseSteps_of_bracketStep rfl, joined⟩
      rw [read.1, ih read.2]
      rfl

/-! ## What is read consists of pieces -/

/-- What is read in brackets is written as a piece. -/
theorem piece_of_bracketStep (h : bracketStep cs = .ok (step, ']' :: rest)) :
    ∃ piece : Piece, piece.Bracketed ∧ '[' :: cs = piece.text ++ rest ∧ step = piece.step := by
  unfold bracketStep at h
  split at h
  · cases h
    exact ⟨.wildcard, ⟨_, rfl⟩, rfl, rfl⟩
  · cases h
  · cases h
  · rename_i c more _ _ _
    split at h
    · rename_i known
      obtain ⟨⟨name, left⟩, hname, e⟩ := DataFlow.map_eq_ok.mp h
      cases e
      obtain ⟨body, rfl, quotes⟩ := (unquotes_quotedName known).quotes_of_read _ more (Nat.le_refl _) hname
      exact ⟨.quoted c body name known quotes, ⟨_, rfl⟩, by simp [Piece.text], rfl⟩
    · split at h
      · rename_i digit
        dsimp only at h
        split at h
        · rename_i inside
          obtain ⟨rfl, left⟩ := Prod.mk.inj (Except.ok.inj h)
          have named : (c :: more).takeWhile Char.isDigit ≠ [] := by
            rw [List.takeWhile_cons, if_pos digit]
            exact List.cons_ne_nil _ _
          refine ⟨.index _ (List.all_eq_true.mp List.all_takeWhile) named inside, ⟨_, rfl⟩, ?_, rfl⟩
          have split := List.takeWhile_append_dropWhile (p := Char.isDigit) (l := c :: more)
          rw [left] at split
          simp [Piece.text, split]
        · cases h
      · cases h
  · cases h

theorem Joined.cons (joined : Joined pieces) (bracketed : piece.Bracketed) : Joined (piece :: pieces) := by
  cases piece with
  | dot =>
      obtain ⟨inside, h⟩ := bracketed
      cases h
  | _ => exact joined

/-- Pieces that begin with a bracket begin with a piece in brackets. -/
theorem exists_bracketed (h : '[' :: cs = textOf pieces) : ∃ piece more, pieces = piece :: more ∧ piece.Bracketed := by
  cases pieces with
  | nil => cases h
  | cons piece more =>
      obtain ⟨c, inside, text, -⟩ := piece.exists_text
      rw [textOf, List.flatMap_cons, text] at h
      cases h
      exact ⟨piece, more, rfl, inside, text⟩

/-- **What is read as steps is written in pieces.** -/
theorem pieces_of_parseSteps (h : parseSteps cs = .ok steps) :
    ∃ pieces, Joined pieces ∧ cs = textOf pieces ∧ steps = pieces.map Piece.step := by
  fun_induction parseSteps cs generalizing steps with
  | case1 =>
      cases h
      exact ⟨[], trivial, rfl, rfl⟩
  | case2 | case3 => cases h
  | case4 rest ih =>
      obtain ⟨steps', hrest, rfl⟩ := DataFlow.map_eq_ok.mp h
      obtain ⟨pieces, joined, rfl, rfl⟩ := ih hrest
      exact ⟨.dottedWildcard :: pieces, joined, rfl, rfl⟩
  | case5 rest _ _ ih =>
      obtain ⟨steps', hrest, rfl⟩ := DataFlow.map_eq_ok.mp h
      obtain ⟨pieces, joined, text, rfl⟩ := ih hrest
      exact ⟨.dot :: pieces, ⟨exists_bracketed text, joined⟩, congrArg ('.' :: ·) text, rfl⟩
  | case6 c rest point star bracket ih =>
      -- The first character of the name is looked at for itself, and the others up to a dot or a bracket.
      obtain ⟨steps', hrest, rfl⟩ := DataFlow.map_eq_ok.mp h
      obtain ⟨pieces, joined, text, rfl⟩ := ih hrest
      have plain : ∀ d ∈ c :: rest.takeWhile isNameChar, isNameChar d = true := by
        refine List.forall_mem_cons.mpr ⟨?_, List.all_eq_true.mp List.all_takeWhile⟩
        simp only [isNameChar, Bool.and_eq_true, decide_eq_true_eq]
        exact ⟨point, bracket⟩
      refine ⟨.dotted _ plain (List.cons_ne_nil _ _) (fun h => star (Option.some.inj h)) :: pieces, joined, ?_, rfl⟩
      rw [textOf, List.flatMap_cons, ← textOf, ← text]
      exact congrArg (fun tail => '.' :: c :: tail) List.takeWhile_append_dropWhile.symm
  | case7 rest flaw hbracket => cases h
  | case8 rest step left hbracket ih =>
      obtain ⟨steps', hrest, rfl⟩ := DataFlow.map_eq_ok.mp h
      obtain ⟨pieces, joined, rfl, rfl⟩ := ih hrest
      obtain ⟨piece, bracketed, text, rfl⟩ := piece_of_bracketStep hbracket
      refine ⟨piece :: pieces, joined.cons bracketed, ?_, rfl⟩
      rw [text]
      rfl
  | case9 => cases h
  | case10 => cases h

/-! ## Paths -/

/-- What stands for a root. -/
def Root.mark : Root → List Char
  | .data => ['$']
  | .context => ['$', '$']

theorem Root.exists_mark (root : Root) : ∃ more, root.mark = '$' :: more := by
  cases root
  · exact ⟨[], rfl⟩
  · exact ⟨['$'], rfl⟩

/-- The text is that of a path, which is written in the given pieces. -/
structure Spells (text : String) (path : Path) (pieces : List Piece) : Prop where
  joined : Joined pieces
  text : text.toList = path.root.mark ++ textOf pieces
  steps : path.steps = pieces.map Piece.step

/-- **A text is read as a path exactly if it spells the path in some pieces.** -/
theorem parse_eq_ok_iff {text : String} {path : Path} : parse text = .ok path ↔ ∃ pieces, Spells text path pieces := by
  constructor
  · intro h
    unfold parse at h
    split at h
    · rename_i rest marked
      obtain ⟨steps, hsteps, rfl⟩ := DataFlow.map_eq_ok.mp h
      obtain ⟨pieces, joined, rfl, rfl⟩ := pieces_of_parseSteps hsteps
      exact ⟨pieces, joined, marked, rfl⟩
    · rename_i rest _ marked
      obtain ⟨steps, hsteps, rfl⟩ := DataFlow.map_eq_ok.mp h
      obtain ⟨pieces, joined, rfl, rfl⟩ := pieces_of_parseSteps hsteps
      exact ⟨pieces, joined, marked, rfl⟩
    · cases h
  · rintro ⟨pieces, joined, written, steps⟩
    have read := parseSteps_pieces joined
    obtain ⟨root, steps'⟩ := path
    obtain rfl : steps' = pieces.map Piece.step := steps
    cases root with
    | context =>
        have marked : text.toList = '$' :: '$' :: textOf pieces := written
        rw [parse, marked]
        simp only [read, Except.map]
    | data =>
        have marked : text.toList = '$' :: textOf pieces := written
        -- No piece begins with a dollar sign, so a path into the data is not taken for one into the context.
        have single : ∀ more, textOf pieces ≠ '$' :: more := by
          intro more h
          have stops := (stops_name pieces).1
          rw [h] at stops
          cases stops
        rw [parse, marked]
        split
        · rename_i more h
          exact absurd (List.tail_eq_of_cons_eq h) (single more)
        · rename_i more _ h
          obtain rfl := List.tail_eq_of_cons_eq h
          rw [read]
          rfl
        · rename_i other
          exact absurd rfl (other _)

end Workflow.Path
