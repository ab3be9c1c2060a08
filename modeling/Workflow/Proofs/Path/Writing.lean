import Mathlib.Algebra.Order.Ring.Nat
import Mathlib.Data.List.Forall2
import Workflow.Proofs.Path.Spelling

/-!
# `Workflow.Proofs.Path.Writing` — one text for one path, and one path for one text

A step has several writings, and those of a path are put together from any writings of its steps.  Whichever are chosen,
the text is read as the path.  Conversely a text that is read as a path is written in pieces in one way only; but not every
such text consists of writings of steps: a dot before a bracket is read as a field without a name.

## Contents
- **Writing.** `Step.Written`, the writings of a step, and `parse_written`: a path is read from any of its writings.
- **One reading.** `behind_text`, what comes after the first piece, and `exists_append_of_textOf`: no text is written in
  pieces in two ways.
- **Dots without names.** `Proper` texts, and `parse_proper_iff`, which says which of the texts that are read as paths have
  no dot without a name.
-/

namespace Workflow.Path

open Text

variable {cs rest rest' tail : List Char} {piece piece' : Piece} {pieces pieces' : List Piece} {step : Step}
  {steps : List Step} {text : String} {path : Path}

/-! ## Writing -/

/-- The writings of a step. -/
inductive Step.Written : Step → List Char → Prop where
  /-- The name between quotes, in which backslashes and the quote have a backslash before them. -/
  | quoted (name : String) {quote : Char} (known : quote = '\'' ∨ quote = '"') :
    Written (.field name) ('[' :: quote :: (escapeFor quote name.toList ++ [quote, ']']))
  /-- The name behind a dot. -/
  | dotted {name : String} (named : name ≠ "") (plain : ∀ c ∈ name.toList, c ≠ '.' ∧ c ≠ '[')
    (star : name.toList.head? ≠ some '*') : Written (.field name) ('.' :: name.toList)
  | index (position : Nat) : Written (.index position) ('[' :: ((toString position).toList ++ [']']))
  | dottedWildcard : Written .wildcard ['.', '*']
  | wildcard : Written .wildcard ['[', '*', ']']

theorem isNameChar_iff {c : Char} : isNameChar c = true ↔ c ≠ '.' ∧ c ≠ '[' := by
  simp only [isNameChar, Bool.and_eq_true, decide_eq_true_eq]

theorem digitsValue_toString (position : Nat) : digitsValue (toString position).toList = position := by
  have value : ∀ (digits : List Char) (start : Nat),
      digits.foldl (fun n c => n * 10 + (c.toNat - '0'.toNat)) start = Nat.ofDigitChars 10 digits start := by
    intro digits
    induction digits with
    | nil => simp
    | cons c digits ih =>
        intro start
        rw [List.foldl_cons, ih, Nat.ofDigitChars_cons, Nat.mul_comm]
  have printed : (toString position).toList = Nat.toDigits 10 position := Nat.toList_repr
  rw [digitsValue, value, printed, Nat.ofDigitChars_ten_toDigits]

/-- **What is written for a step is a piece that stands for it,** and no dot without a name. -/
theorem exists_piece_of_written (written : step.Written cs) (small : ∀ position, step = .index position → position < 2 ^ 64) :
    ∃ piece : Piece, piece.text = cs ∧ piece.step = step ∧ piece ≠ .dot := by
  cases written with
  | @quoted name quote known =>
      have quotes : Quotes quote ([·]) (escapeFor quote name.toList) name.toList := quotes_escapeFor rfl rfl _
      exact ⟨.quoted quote _ _ known quotes, rfl, congrArg Step.field String.ofList_toList, nofun⟩
  | @dotted name named plain star =>
      have plain' : ∀ c ∈ name.toList, isNameChar c = true := fun c inside => isNameChar_iff.mpr (plain c inside)
      have named' : name.toList ≠ [] := fun h => named (String.toList_eq_nil_iff.mp h)
      exact ⟨.dotted name.toList plain' named' star, rfl, congrArg Step.field String.ofList_toList, nofun⟩
  | index position =>
      have printed : (toString position).toList = Nat.toDigits 10 position := Nat.toList_repr
      have digits : ∀ c ∈ (toString position).toList, c.isDigit = true := by
        rw [printed]
        exact fun c inside => Nat.isDigit_of_mem_toDigits (by decide) (by decide) inside
      have some : (toString position).toList ≠ [] := by
        rw [printed]
        exact Nat.toDigits_ne_nil
      have value := digitsValue_toString position
      have inside : digitsValue (toString position).toList < indexBound := by
        rw [value]
        exact small position rfl
      exact ⟨.index _ digits some inside, rfl, congrArg Step.index value, nofun⟩
  | dottedWildcard => exact ⟨.dottedWildcard, rfl, rfl, nofun⟩
  | wildcard => exact ⟨.wildcard, rfl, rfl, nofun⟩

theorem joined_of_dot_not_mem (none : Piece.dot ∉ pieces) : Joined pieces := by
  induction pieces with
  | nil => trivial
  | cons piece pieces ih =>
      obtain ⟨first, others⟩ := not_or.mp (mt List.mem_cons.mpr none)
      cases piece with
      | dot => exact absurd rfl first
      | _ => exact ih others

/-- Every step has a writing. -/
theorem exists_written (step : Step) : ∃ cs, step.Written cs := by
  cases step with
  | field name => exact ⟨_, .quoted name (Or.inl rfl)⟩
  | index position => exact ⟨_, .index position⟩
  | wildcard => exact ⟨_, .wildcard⟩

/-- What is written for steps are pieces that stand for them, none of them a dot without a name. -/
theorem exists_pieces_of_written {texts : List (List Char)} (written : List.Forall₂ Step.Written steps texts)
    (small : ∀ position, .index position ∈ steps → position < 2 ^ 64) :
    ∃ pieces, textOf pieces = texts.flatten ∧ pieces.map Piece.step = steps ∧ .dot ∉ pieces := by
  induction written with
  | nil => exact ⟨[], rfl, rfl, List.not_mem_nil⟩
  | @cons step cs steps texts first others ih =>
      obtain ⟨pieces, written, rfl, none⟩ := ih fun position inside => small position (List.mem_cons_of_mem _ inside)
      obtain ⟨piece, rfl, rfl, other⟩ := exists_piece_of_written first fun position e =>
        small position (e ▸ List.mem_cons_self)
      refine ⟨piece :: pieces, ?_, rfl, ?_⟩
      · rw [textOf, List.flatMap_cons, ← textOf, written, List.flatten_cons]
      · rw [List.mem_cons, not_or]
        exact ⟨Ne.symm other, none⟩

/-- **Paths are read from all of their writings.** For both roots and all steps with indices of 64 bits: there is a writing
    for each of the steps, and whichever is chosen for which, the text that begins with the mark of the root and goes on with
    the writings is read as the path with that root and those steps. -/
theorem parse_written (root : Root) (steps : List Step) (small : ∀ position, .index position ∈ steps → position < 2 ^ 64) :
    (∃ texts, List.Forall₂ Step.Written steps texts) ∧
      ∀ texts, List.Forall₂ Step.Written steps texts →
        parse (String.ofList (root.mark ++ texts.flatten)) = .ok ⟨root, steps⟩ := by
  refine ⟨?_, fun texts written => ?_⟩
  · clear small
    induction steps with
    | nil => exact ⟨[], .nil⟩
    | cons step steps ih =>
        obtain ⟨cs, first⟩ := exists_written step
        obtain ⟨texts, others⟩ := ih
        exact ⟨cs :: texts, .cons first others⟩
  · obtain ⟨pieces, spelt, stands, none⟩ := exists_pieces_of_written written small
    exact parse_eq_ok_iff.mpr ⟨pieces, joined_of_dot_not_mem none, by rw [String.toList_ofList, spelt], stands.symm⟩

/-- A name with both quotes, a backslash, a dot and a bracket in it, a name that ends in a bracket behind a dot, the greatest
    index, and both wildcards. -/
theorem parse_written_mixed :
    (∀ position, .index position ∈
        [Step.field "a'\"\\.[", .field "b]", .index 18446744073709551615, .wildcard, .wildcard] → position < 2 ^ 64) ∧
      parse "$$['a\\'\"\\\\.['].b][18446744073709551615].*[*]" =
        .ok ⟨.context, [.field "a'\"\\.[", .field "b]", .index 18446744073709551615, .wildcard, .wildcard]⟩ := by
  have small : ∀ position, .index position ∈
      [Step.field "a'\"\\.[", .field "b]", .index 18446744073709551615, .wildcard, .wildcard] → position < 2 ^ 64 := by
    simp
  have named : ("b]" : String) ≠ "" := by decide
  have plain : ∀ c ∈ ("b]" : String).toList, c ≠ '.' ∧ c ≠ '[' := by simp
  have star : ("b]" : String).toList.head? ≠ some '*' := by decide
  have quoted := @Step.Written.quoted "a'\"\\.[" '\'' (Or.inl rfl)
  have index := Step.Written.index 18446744073709551615
  have written := List.Forall₂.cons quoted
    (.cons (Step.Written.dotted named plain star) (.cons index (.cons .dottedWildcard (.cons .wildcard .nil))))
  exact ⟨small, (parse_written .context _ small).2 _ written⟩

/-! ## One reading -/

/-- What must follow a piece so that it ends where it does. -/
def Piece.Ends : Piece → List Char → Prop
  | .dotted _ _ _ _, rest => rest.takeWhile isNameChar = []
  | .dot, rest => ∃ inside, rest = '[' :: inside
  | _, _ => True

/-- The text behind the piece with which it begins. -/
def behind : List Char → List Char
  | '.' :: '[' :: more => '[' :: more
  | '.' :: '*' :: more => more
  | '.' :: more => more.dropWhile isNameChar
  | '[' :: more => match bracketStep more with
    | .ok (_, _ :: rest) => rest
    | _ => []
  | _ => []

theorem behind_of_bracketStep (h : bracketStep cs = .ok (step, ']' :: rest)) : behind ('[' :: cs) = rest := by
  rw [behind, h]

/-- **A piece is told from the text that it begins.** -/
theorem behind_text (ends : piece.Ends rest) : behind (piece.text ++ rest) = rest := by
  cases piece with
  | dotted name plain named star =>
      obtain ⟨c, more, rfl⟩ := List.exists_cons_of_ne_nil named
      -- What follows begins with no character of a name, so the name ends here.
      have left : rest.dropWhile isNameChar = rest := by
        have whole := List.takeWhile_append_dropWhile (p := isNameChar) (l := rest)
        rwa [show rest.takeWhile isNameChar = [] from ends] at whole
      rw [Piece.text, List.cons_append, List.cons_append, behind, ← List.cons_append, List.dropWhile_append_of_pos plain, left]
      · intro more' e
        obtain rfl := List.head_eq_of_cons_eq e
        exact absurd (plain _ List.mem_cons_self) (by decide)
      · intro more' e
        obtain rfl := List.head_eq_of_cons_eq e
        exact star rfl
  | dot =>
      obtain ⟨inside, rfl⟩ := ends
      rfl
  | dottedWildcard => rfl
  | quoted quote body name known quotes =>
      have read := bracketStep_quoted known quotes (']' :: rest)
      simpa [Piece.text] using behind_of_bracketStep read
  | index digits plain named inside =>
      have read := bracketStep_index plain named inside rest
      simpa [Piece.text] using behind_of_bracketStep read
  | wildcard =>
      have read : bracketStep ('*' :: ']' :: rest) = .ok (.wildcard, ']' :: rest) := rfl
      exact behind_of_bracketStep read

/-- What is written for pieces goes on no name, whatever comes behind that goes on none either. -/
theorem takeWhile_textOf_append (stops : tail.takeWhile isNameChar = []) (pieces : List Piece) :
    (textOf pieces ++ tail).takeWhile isNameChar = [] := by
  cases pieces with
  | nil => exact stops
  | cons piece pieces =>
      obtain ⟨c, more, text, ends⟩ := piece.exists_text
      rw [textOf, List.flatMap_cons, text, List.cons_append, List.cons_append, List.takeWhile_cons, ends]
      rfl

/-- Pieces end where they do in front of other pieces and of whatever goes on no name. -/
theorem Joined.ends (joined : Joined (piece :: pieces)) (stops : tail.takeWhile isNameChar = []) :
    piece.Ends (textOf pieces ++ tail) := by
  cases piece with
  | dotted => exact takeWhile_textOf_append stops pieces
  | dot =>
      obtain ⟨⟨next, more, rfl, inside, bracket⟩, -⟩ := joined
      refine ⟨inside ++ (textOf more ++ tail), ?_⟩
      rw [textOf, List.flatMap_cons, bracket]
      simp [textOf]
  | _ => trivial

theorem Joined.of_cons (joined : Joined (piece :: pieces)) : Joined pieces := by
  cases piece with
  | dot => exact joined.2
  | _ => exact joined

theorem Joined.of_append (joined : Joined (pieces ++ pieces')) : Joined pieces' := by
  induction pieces with
  | nil => exact joined
  | cons piece pieces ih => exact ih joined.of_cons

/-- **A text that begins with pieces is cut into these pieces and others.** -/
theorem exists_append_of_textOf (joined : Joined pieces) (joined' : Joined pieces') (stops : tail.takeWhile isNameChar = [])
    (h : textOf pieces ++ tail = textOf pieces') :
    ∃ before after, pieces' = before ++ after ∧ before.map Piece.text = pieces.map Piece.text ∧ textOf after = tail := by
  induction pieces generalizing pieces' with
  | nil => exact ⟨[], pieces', rfl, rfl, h.symm⟩
  | cons piece pieces ih =>
      cases pieces' with
      | nil =>
          obtain ⟨c, more, text, -⟩ := piece.exists_text
          rw [textOf, List.flatMap_cons, text] at h
          cases h
      | cons piece' pieces' =>
          have ends := joined.ends stops
          have ends' : piece'.Ends (textOf pieces' ++ []) := joined'.ends rfl
          have same : piece.text ++ (textOf pieces ++ tail) = piece'.text ++ (textOf pieces' ++ []) := by
            simpa [textOf] using h
          -- Either text tells where its first piece ends, and so the two first pieces have the same text.
          have rest := congrArg behind same
          rw [behind_text ends, behind_text ends'] at rest
          rw [rest] at same
          have text := List.append_cancel_right same
          rw [List.append_nil] at rest
          obtain ⟨before, after, rfl, texts, left⟩ := ih joined.of_cons joined'.of_cons rest
          exact ⟨piece' :: before, after, rfl, by rw [List.map_cons, List.map_cons, texts, text], left⟩

/-- What goes on no name does not go on the mark of a root. -/
theorem mark_append_inj {root root' : Root} (stops : cs.takeWhile isNameChar = []) (stops' : rest.takeWhile isNameChar = [])
    (h : root.mark ++ cs = root'.mark ++ rest) : root = root' ∧ cs = rest := by
  cases root <;> cases root' <;> cases h
  · exact ⟨rfl, rfl⟩
  · cases stops
  · cases stops'
  · exact ⟨rfl, rfl⟩

/-- **A text is cut into pieces in one way only.** -/
theorem Spells.unique {path' : Path} (spells : Spells text path pieces) (spells' : Spells text path' pieces') :
    path' = path ∧ pieces'.map Piece.text = pieces.map Piece.text := by
  have read := parse_eq_ok_iff.mpr ⟨pieces, spells⟩
  have read' := parse_eq_ok_iff.mpr ⟨pieces', spells'⟩
  obtain rfl := Except.ok.inj (read'.symm.trans read)
  refine ⟨rfl, ?_⟩
  have same : textOf pieces ++ [] = textOf pieces' := by
    rw [List.append_nil]
    exact List.append_cancel_left (spells.text.symm.trans spells'.text)
  obtain ⟨before, after, rfl, texts, left⟩ := exists_append_of_textOf spells.joined spells'.joined rfl same
  cases after with
  | nil => rwa [List.append_nil]
  | cons piece after =>
      obtain ⟨c, more, text, -⟩ := piece.exists_text
      rw [textOf, List.flatMap_cons, text] at left
      cases left

/-! ## Dots without names -/

/-- The text is written as the path in pieces, none of which is a dot without a name. -/
def Proper (text : String) (path : Path) : Prop := ∃ pieces, Spells text path pieces ∧ Piece.dot ∉ pieces

theorem dot_mem_iff : .dot ∈ pieces ↔ ['.'] ∈ pieces.map Piece.text := by
  rw [List.mem_map]
  constructor
  · exact fun inside => ⟨.dot, inside, rfl⟩
  · rintro ⟨piece, inside, h⟩
    cases piece with
    | dotted name plain named star => exact absurd (List.cons.inj h).2 named
    | dot => exact inside
    | _ => cases h

theorem proper_iff (spells : Spells text path pieces) : Proper text path ↔ Piece.dot ∉ pieces := by
  constructor
  · rintro ⟨pieces', spells', none⟩
    rw [dot_mem_iff] at none ⊢
    rwa [(spells.unique spells').2] at none
  · exact fun none => ⟨pieces, spells, none⟩

/-- A field without a name is a dot or a pair of quotes. -/
theorem text_of_unnamed (unnamed : piece.step = .field "") :
    piece = .dot ∨ piece.text ∈ [['[', '\'', '\'', ']'], ['[', '"', '"', ']']] := by
  have empty : ∀ {name : List Char}, Step.field (String.ofList name) = .field "" → name = [] := fun h =>
    String.ofList_injective (Step.field.inj h)
  cases piece with
  | dotted name plain named star => exact absurd (empty unnamed) named
  | dot => exact Or.inl rfl
  | quoted quote body name known quotes =>
      obtain rfl := empty unnamed
      obtain rfl : body = [] := by
        cases quotes
        rfl
      obtain rfl | rfl := known
      · exact Or.inr List.mem_cons_self
      · exact Or.inr (List.mem_cons_of_mem _ List.mem_cons_self)
  | _ => cases unnamed

/-- **A dot without a name** is one that stands behind a path and before a bracket. -/
theorem dot_mem_iff_parse (spells : Spells text path pieces) : .dot ∈ pieces ↔
    ∃ before after, text.toList = before ++ '.' :: '[' :: after ∧ ∃ path', parse (String.ofList before) = .ok path' := by
  constructor
  · intro inside
    obtain ⟨front, behind, rfl, none⟩ := List.eq_append_cons_of_mem inside
    obtain ⟨⟨next, more, rfl, inner, bracket⟩, -⟩ := spells.joined.of_append
    refine ⟨path.root.mark ++ textOf front, inner ++ textOf more, ?_, ⟨path.root, front.map Piece.step⟩, ?_⟩
    · have dot : Piece.dot.text = ['.'] := rfl
      rw [spells.text]
      simp [textOf, bracket, dot]
    · exact parse_eq_ok_iff.mpr ⟨front, joined_of_dot_not_mem none, by rw [String.toList_ofList], rfl⟩
  · rintro ⟨before, after, written, path', accepted⟩
    obtain ⟨front, spells'⟩ := parse_eq_ok_iff.mp accepted
    have whole := spells'.text
    rw [String.toList_ofList] at whole
    rw [spells.text, whole, List.append_assoc] at written
    have stops : ('.' :: '[' :: after).takeWhile isNameChar = [] := rfl
    obtain ⟨-, same⟩ := mark_append_inj (stops_name pieces).1 (takeWhile_textOf_append stops front) written
    -- The pieces of the shorter path are the first ones of the longer: what follows them begins with the dot.
    obtain ⟨before', after', rfl, -, left⟩ := exists_append_of_textOf spells'.joined spells.joined stops same.symm
    refine List.mem_append_right _ ?_
    cases after' with
    | nil => cases left
    | cons piece more =>
        cases piece with
        | dotted name plain named star =>
            obtain ⟨c, name, rfl⟩ := List.exists_cons_of_ne_nil named
            cases left
            exact absurd (plain _ List.mem_cons_self) (by decide)
        | dot => exact List.mem_cons_self
        | _ => cases left

/-- **What is read as a path is written by the grammar,** up to dots without names. For every text that is read as a path: it
    is cut in one way into pieces that stand for the steps of the path in their order, and a field without a name is a pair of
    quotes or a dot without a name.  There is none of the latter exactly if in no place of the text a path ends, a dot follows
    and then an opening bracket. -/
theorem parse_proper_iff (accepted : parse text = .ok path) :
    (∃ pieces, Spells text path pieces ∧
      (∀ path' pieces', Spells text path' pieces' → path' = path ∧ pieces'.map Piece.text = pieces.map Piece.text) ∧
      ∀ piece ∈ pieces, piece.step = .field "" →
        piece = .dot ∨ piece.text ∈ [['[', '\'', '\'', ']'], ['[', '"', '"', ']']]) ∧
    (Proper text path ↔ ¬ ∃ before after, text.toList = before ++ '.' :: '[' :: after ∧
      ∃ path', parse (String.ofList before) = .ok path') := by
  obtain ⟨pieces, spells⟩ := parse_eq_ok_iff.mp accepted
  refine ⟨⟨pieces, spells, fun _ _ spells' => spells.unique spells', fun piece _ => text_of_unnamed⟩, ?_⟩
  rw [proper_iff spells, dot_mem_iff_parse spells]

/-- A dot and a bracket between quotes are no dot without a name; a dot between a name and a bracket is. -/
theorem parse_proper_iff_dots :
    parse "$['.['][\"\"]" = .ok ⟨.data, [.field ".[", .field ""]⟩ ∧ Proper "$['.['][\"\"]" ⟨.data, [.field ".[", .field ""]⟩ ∧
      (¬ ∃ before after, "$['.['][\"\"]".toList = before ++ '.' :: '[' :: after ∧
        ∃ path', parse (String.ofList before) = .ok path') ∧
      parse "$.a.[*]" = .ok ⟨.data, [.field "a", .field "", .wildcard]⟩ ∧
      ¬ Proper "$.a.[*]" ⟨.data, [.field "a", .field "", .wildcard]⟩ := by
  have letter : ∀ c ∈ ['a'], isNameChar c = true := List.all_eq_true.mp rfl
  have between : Spells "$['.['][\"\"]" ⟨.data, [.field ".[", .field ""]⟩
      [.quoted '\'' ['.', '['] _ (Or.inl rfl) (quotes_self (by decide) (by decide)),
        .quoted '"' _ _ (Or.inr rfl) .nil] := ⟨trivial, rfl, rfl⟩
  have proper : Proper "$['.['][\"\"]" ⟨.data, [.field ".[", .field ""]⟩ := ⟨_, between, by simp⟩
  have unnamed : Spells "$.a.[*]" ⟨.data, [.field "a", .field "", .wildcard]⟩
      [.dotted _ letter (by decide) (by decide), .dot, .wildcard] := ⟨⟨⟨_, _, rfl, _, rfl⟩, trivial⟩, rfl, rfl⟩
  have front : Spells "$.a" ⟨.data, [.field "a"]⟩ [.dotted _ letter (by decide) (by decide)] := ⟨trivial, rfl, rfl⟩
  have read := parse_eq_ok_iff.mpr ⟨_, between⟩
  have read' := parse_eq_ok_iff.mpr ⟨_, unnamed⟩
  refine ⟨read, proper, (parse_proper_iff read).2.mp proper, read', ?_⟩
  exact fun proper' => (parse_proper_iff read').2.mp proper'
    ⟨['$', '.', 'a'], ['*', ']'], rfl, _, parse_eq_ok_iff.mpr ⟨_, front⟩⟩

/-- A dot and an index behind the root are read as a field without a name and the index. -/
theorem dot_before_bracket :
    parse "$.[0]" = .ok ⟨.data, [.field "", .index 0]⟩ ∧ ¬ ∃ path, Proper "$.[0]" path := by
  have digits : ∀ c ∈ ['0'], c.isDigit = true := List.all_eq_true.mp rfl
  have spells : Spells "$.[0]" ⟨.data, [.field "", .index 0]⟩ [.dot, .index _ digits (by decide) (by decide)] :=
    ⟨⟨⟨_, _, rfl, _, rfl⟩, trivial⟩, rfl, rfl⟩
  refine ⟨parse_eq_ok_iff.mpr ⟨_, spells⟩, ?_⟩
  rintro ⟨path, pieces, spells', none⟩
  obtain ⟨-, texts⟩ := spells.unique spells'
  rw [dot_mem_iff, texts] at none
  exact none List.mem_cons_self

end Workflow.Path
