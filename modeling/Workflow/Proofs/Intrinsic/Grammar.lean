import Mathlib.Data.List.Forall2
import Workflow.Intrinsic.Parser
import Workflow.Proofs.Text.Quotes
import Workflow.Proofs.Text.Reader

/-!
# `Workflow.Proofs.Intrinsic.Grammar` — how calls are written

The reader of calls takes what is written by a grammar: a name, an opening parenthesis, arguments with commas between them,
and a closing parenthesis, with white space before and after every argument.  The reader accepts what the grammar writes,
in front of any text that goes on after it, and what the reader accepts is written by the grammar.  So two texts that
contain the same argument in different places mean the same by it.

## Contents
- **Characters.** `Blank` texts, and `Separates`, how a text begins that ends an argument.
- **Arguments without parts.** `escapedAs`, `Crosses` and `Numeral`, for strings, paths and numbers, and how they are read.
- **The grammar.** `Spells`, `SpellsCall` and `SpellsArguments`.
- **Reading what is written.** `outcome_of_spells` and its like.
- **What is read is written.** `spells_of_outcome` and its like, and `parse_eq_ok_iff`: a text is read as a call exactly if
  it spells the call between blanks.
- **The same argument in other calls.** `Denotes`, `denotes_call` and `parse_of_denotes`: what denotes terms is read as them
  in every call.
-/

namespace Workflow.Intrinsic

open Text

variable {c : Char} {cs rest body text name blanks : List Char} {term : Term} {terms : List Term} {call : Call}

/-! ## Characters -/

/-- Nothing but white space. -/
def Blank (cs : List Char) : Prop := ∀ c ∈ cs, isBlank c = true

theorem skipBlanks_append (blank : Blank blanks) (cs : List Char) : skipBlanks (blanks ++ cs) = skipBlanks cs := by
  induction blanks with
  | nil => rfl
  | cons c blanks ih =>
      obtain ⟨first, others⟩ := List.forall_mem_cons.mp blank
      rw [skipBlanks, List.cons_append, List.dropWhile_cons, if_pos first]
      exact ih others

theorem skipBlanks_cons (solid : isBlank c = false) (cs : List Char) : skipBlanks (c :: cs) = c :: cs := by
  rw [skipBlanks, List.dropWhile_cons, solid]
  rfl

/-- A text is blanks and what is left without them. -/
theorem exists_blank (cs : List Char) : ∃ blanks, Blank blanks ∧ cs = blanks ++ skipBlanks cs :=
  ⟨cs.takeWhile isBlank, List.all_eq_true.mp List.all_takeWhile, List.takeWhile_append_dropWhile.symm⟩

theorem toNat_of_isBlank (blank : isBlank c = true) : c.toNat ≤ 32 ∨ 133 ≤ c.toNat := by
  simp only [isBlank, Bool.or_eq_true, Bool.and_eq_true, decide_eq_true_eq, beq_iff_eq] at blank
  omega

theorem toNat_of_isAlphanum (h : c.isAlphanum = true) : 48 ≤ c.toNat ∧ c.toNat ≤ 122 := by
  have range : ∀ low high : UInt32, c.val ≥ low ∧ c.val ≤ high → 48 ≤ low.toNat → high.toNat ≤ 122 →
      48 ≤ c.toNat ∧ c.toNat ≤ 122 := by
    rintro low high ⟨above, below⟩ least most
    exact ⟨Nat.le_trans least (UInt32.le_iff_toNat_le.mp above), Nat.le_trans (UInt32.le_iff_toNat_le.mp below) most⟩
  obtain letter | digit := Bool.or_eq_true_iff.mp h
  · obtain upper | lower := Bool.or_eq_true_iff.mp letter
    · exact range 65 90 (of_decide_eq_true upper) (by decide) (by decide)
    · obtain ⟨above, below⟩ := Bool.and_eq_true_iff.mp lower
      exact range 97 122 ⟨of_decide_eq_true above, of_decide_eq_true below⟩ (by decide) (by decide)
  · obtain ⟨above, below⟩ := Char.isDigit_iff_toNat.mp digit
    exact ⟨above, Nat.le_trans below (by decide)⟩

theorem isNameChar_of_isBlank (blank : isBlank c = true) : isNameChar c = false := by
  cases named : isNameChar c with
  | false => rfl
  | true =>
      simp only [isNameChar, Bool.or_eq_true, decide_eq_true_eq] at named
      obtain (alphanum | rfl) | rfl := named
      · have outside := toNat_of_isBlank blank
        have inside := toNat_of_isAlphanum alphanum
        omega
      · cases blank
      · cases blank

/-- The text begins with something that ends an argument. -/
def Separates : List Char → Prop
  | [] => False
  | c :: _ => c = ',' ∨ c = ')' ∨ isBlank c = true

instance : DecidablePred Separates
  | [] => inferInstanceAs (Decidable False)
  | _ :: _ => inferInstanceAs (Decidable (_ ∨ _ ∨ _))

theorem Separates.isNumberChar (ends : Separates (c :: rest)) : isNumberChar c = false := by
  obtain rfl | rfl | blank := ends
  · rfl
  · rfl
  · have unnamed := isNameChar_of_isBlank blank
    simp only [isNameChar, Bool.or_eq_false_iff, decide_eq_false_iff_not, Char.isAlphanum] at unnamed
    obtain ⟨⟨⟨letter, digit⟩, point⟩, -⟩ := unnamed
    simp only [Intrinsic.isNumberChar, Bool.or_eq_false_iff, decide_eq_false_iff_not]
    refine ⟨⟨⟨⟨⟨digit, ?_⟩, ?_⟩, point⟩, ?_⟩, ?_⟩ <;> rintro rfl
    · cases blank
    · cases blank
    · cases letter
    · cases letter

theorem separates_append (blank : Blank blanks) (ends : Separates rest) : Separates (blanks ++ rest) := by
  cases blanks with
  | nil => exact ends
  | cons c blanks => exact Or.inr (Or.inr (blank c List.mem_cons_self))

/-! ## Arguments without parts -/

/-- What an escaped character of a string denotes: a brace stays escaped. -/
def escapedAs (c : Char) : List Char := if c = '\x7b' ∨ c = '\x7d' then ['\\', c] else [c]

theorem outcome_quoted_plain (backslash : c ≠ '\\') (apostrophe : c ≠ '\'') (cs : List Char) :
    outcome (quoted (c :: cs)) = (outcome (quoted cs)).map (Prod.map (c :: ·) id) := by
  rw [quoted]
  · rw [if_neg apostrophe]
    cases quoted cs <;> rfl
  · exact fun h _ => backslash h
  · exact fun d rest h _ => backslash h

theorem outcome_quoted_escaped (c : Char) (cs : List Char) :
    outcome (quoted ('\\' :: c :: cs)) = (outcome (quoted cs)).map (Prod.map (escapedAs c ++ ·) id) := by
  have denoted : ∀ text, (if c = '\x7b' ∨ c = '\x7d' then '\\' :: c :: text else c :: text) = escapedAs c ++ text := by
    intro text
    unfold escapedAs
    split <;> rfl
  rw [quoted]
  simp only [denoted]
  cases quoted cs <;> rfl

theorem outcome_quoted_close (rest : List Char) : outcome (quoted ('\'' :: rest)) = .ok ([], rest) := by
  rw [quoted]
  · rfl
  · exact fun h => absurd h (by decide)
  · exact fun d rest h => absurd h (by decide)

/-- Strings are read as quoted texts are. -/
theorem unquotes_quoted : Unquotes '\'' escapedAs fun cs => outcome (quoted cs) where
  close := outcome_quoted_close
  plain _ cs backslash apostrophe := outcome_quoted_plain backslash apostrophe cs
  escaped := outcome_quoted_escaped
  unclosed _ := nofun
  dangling _ := nofun

/-- How a scan for the end of a path goes on after a character, unless it stops in front of it. -/
def advance (depth : Nat) (quote : Option Char) (c : Char) : Option (Nat × Option Char) :=
  match quote with
  | some q => some (depth, if c = q then none else some q)
  | none =>
    if c = '\'' ∨ c = '"' then some (depth, some c)
    else if c = '[' then some (depth + 1, none)
    else if c = ']' then some (depth - 1, none)
    else if depth = 0 ∧ (c = ',' ∨ c = ')' ∨ isBlank c = true) then none
    else some (depth, none)

theorem pathEnd_cons (depth : Nat) (quote : Option Char) (c : Char) (cs : List Char) :
    pathEnd depth quote (c :: cs) = match advance depth quote c with
      | some (depth, quote) => (c :: (pathEnd depth quote cs).1, (pathEnd depth quote cs).2)
      | none => ([], c :: cs) := by
  cases quote with
  | some q =>
      simp only [pathEnd, advance]
      split <;> rfl
  | none =>
      simp only [pathEnd, advance]
      repeat' split
      all_goals simp_all

/-- A scan splits the text. -/
theorem pathEnd_append (depth : Nat) (quote : Option Char) (cs : List Char) :
    (pathEnd depth quote cs).1 ++ (pathEnd depth quote cs).2 = cs := by
  induction cs generalizing depth quote with
  | nil => rfl
  | cons c cs ih =>
      rw [pathEnd_cons]
      split
      · exact congrArg (c :: ·) (ih _ _)
      · rfl

/-- Outside of quotes and brackets, and only there, a scan stops in front of what ends an argument. -/
theorem advance_eq_none (cs : List Char) {depth : Nat} {quote : Option Char} :
    advance depth quote c = none ↔ depth = 0 ∧ quote = none ∧ Separates (c :: cs) := by
  cases quote with
  | some q => exact ⟨(fun h => nomatch h), fun ⟨_, h, _⟩ => nomatch h⟩
  | none =>
      -- What ends an argument is no quote and no bracket; so the cases that are tried before do not apply.
      have ends : Separates (c :: cs) → ¬ (c = '\'' ∨ c = '"') ∧ c ≠ '[' ∧ c ≠ ']' := by
        rintro (rfl | rfl | blank)
        · decide
        · decide
        · refine ⟨?_, ?_, ?_⟩
          · rintro (rfl | rfl) <;> cases blank
          · rintro rfl
            cases blank
          · rintro rfl
            cases blank
      unfold advance
      dsimp only
      constructor
      · intro h
        split at h
        · cases h
        split at h
        · cases h
        split at h
        · cases h
        split at h
        · rename_i stops
          exact ⟨stops.1, rfl, stops.2⟩
        · cases h
      · rintro ⟨rfl, -, separates⟩
        obtain ⟨quote, opening, closing⟩ := ends separates
        rw [if_neg quote, if_neg opening, if_neg closing, if_pos ⟨rfl, separates⟩]

/-- A scan for the end of a path gets through the text and stops behind it. -/
def Crosses (depth : Nat) (quote : Option Char) (cs : List Char) : Prop :=
  ∀ rest, Separates rest → pathEnd depth quote (cs ++ rest) = (cs, rest)

theorem crosses_nil : Crosses 0 none [] := by
  intro rest ends
  cases rest with
  | nil => exact ends.elim
  | cons c rest =>
      have stops : advance 0 none c = none := (advance_eq_none rest).mpr ⟨rfl, rfl, ends⟩
      rw [List.nil_append, pathEnd_cons, stops]

theorem Crosses.cons {depth depth' : Nat} {quote quote' : Option Char} (h : advance depth quote c = some (depth', quote'))
    (crosses : Crosses depth' quote' cs) : Crosses depth quote (c :: cs) := by
  intro rest ends
  rw [List.cons_append, pathEnd_cons, h]
  simp only [crosses rest ends]

/-- A scan that stops before the end of the text gets through to what ends an argument. -/
theorem crosses_of_pathEnd {depth : Nat} {quote : Option Char} {used : List Char}
    (h : pathEnd depth quote cs = (used, rest)) (more : rest ≠ []) : Crosses depth quote used := by
  induction cs generalizing depth quote used with
  | nil =>
      cases h
      exact absurd rfl more
  | cons c cs ih =>
      rw [pathEnd_cons] at h
      cases hadvance : advance depth quote c with
      | none =>
          rw [hadvance] at h
          cases h
          obtain ⟨rfl, rfl, -⟩ := (advance_eq_none cs).mp hadvance
          exact crosses_nil
      | some state =>
          rw [hadvance] at h
          cases h
          exact (ih rfl).cons hadvance

/-- What is written for a number. -/
def Numeral (cs : List Char) (value : Json) : Prop :=
  (∃ c more, cs = c :: more ∧ isNumberStart c = true) ∧ (∀ c ∈ cs, isNumberChar c = true) ∧
    Json.ofNumber? cs = some value

/-! ## The grammar -/

/-- A name that functions can have. -/
def Named (name : List Char) : Prop := namespaceMark.isPrefixOf name = true ∧ ∀ c ∈ name, isNameChar c = true

instance : Decidable (Named name) :=
  decidable_of_iff (namespaceMark.isPrefixOf name = true ∧ name.all isNameChar = true) (and_congr Iff.rfl List.all_eq_true)

mutual
/-- What is written for an argument. -/
inductive Spells : List Char → Term → Prop where
  | text {body text : List Char} :
    Quotes '\'' escapedAs body text → Spells ('\'' :: (body ++ ['\''])) (.literal (.str (String.ofList text)))
  | path {cs : List Char} : Crosses 0 none cs → Spells ('$' :: cs) (.path (String.ofList ('$' :: cs)))
  | number {cs : List Char} {value : Json} : Numeral cs value → Spells cs (.literal value)
  | word {word : List Char} {value : Json} : (word, value) ∈ words → Spells word (.literal value)
  | call {cs : List Char} {name : String} {terms : List Term} :
    SpellsCall cs ⟨name, terms⟩ → Spells cs (.call name terms)
/-- What is written for a call. -/
inductive SpellsCall : List Char → Call → Prop where
  | bare {name before inside : List Char} : Named name → Blank before → Blank inside →
    SpellsCall (name ++ (before ++ '(' :: (inside ++ [')']))) ⟨String.ofList name, []⟩
  | applied {name before cs : List Char} {terms : List Term} : Named name → Blank before → SpellsArguments cs terms →
    SpellsCall (name ++ (before ++ '(' :: cs)) ⟨String.ofList name, terms⟩
/-- What is written for arguments, up to the closing parenthesis. -/
inductive SpellsArguments : List Char → List Term → Prop where
  | last {before cs after : List Char} {term : Term} : Blank before → Spells cs term → Blank after →
    SpellsArguments (before ++ (cs ++ (after ++ [')']))) [term]
  | more {before cs after more : List Char} {term : Term} {terms : List Term} : Blank before → Spells cs term →
    Blank after → SpellsArguments more terms → SpellsArguments (before ++ (cs ++ (after ++ ',' :: more))) (term :: terms)
end

/-! ## Reading what is written -/

theorem outcome_argumentFrom_string (cs : List Char) : outcome (argumentFrom ('\'' :: cs)) =
    (outcome (quoted cs)).map (Prod.map (fun text => .literal (.str (String.ofList text))) id) := by
  rw [argumentFrom, if_pos rfl]
  cases quoted cs <;> rfl

theorem outcome_argumentFrom_path (cs : List Char) : outcome (argumentFrom ('$' :: cs)) =
    .ok (.path (String.ofList ('$' :: (pathEnd 0 none cs).1)), (pathEnd 0 none cs).2) := by
  rw [argumentFrom, if_neg (by decide), if_pos rfl]
  rfl

theorem outcome_numberFrom (start : isNumberStart c = true) (cs : List Char) : outcome (numberFrom c cs start) =
    match Json.ofNumber? ((c :: cs).takeWhile isNumberChar) with
    | some value => .ok (.literal value, (c :: cs).dropWhile isNumberChar)
    | none => .error (.before .invalidNumber ((c :: cs).dropWhile isNumberChar)) := by
  unfold numberFrom
  simp only
  split <;> simp_all

theorem outcome_argumentFrom_number (start : isNumberStart c = true) (cs : List Char) :
    outcome (argumentFrom (c :: cs)) = outcome (numberFrom c cs start) := by
  rw [argumentFrom, if_neg, if_neg, dif_pos start]
  all_goals rintro rfl; cases start

/-- What begins like a name begins with a capital letter. -/
theorem exists_of_marked (marked : namespaceMark.isPrefixOf cs = true) : ∃ more, cs = 'S' :: more := by
  obtain ⟨more, rfl⟩ := List.isPrefixOf_iff_prefix.mp marked
  exact ⟨_, rfl⟩

theorem outcome_argumentFrom_call (marked : namespaceMark.isPrefixOf cs = true) :
    outcome (argumentFrom cs) =
      (outcome (callFrom cs)).map (Prod.map (fun call => .call call.name call.arguments) id) := by
  obtain ⟨more, rfl⟩ := exists_of_marked marked
  rw [argumentFrom, if_neg (by decide), if_neg (by decide), dif_neg (by decide), if_pos marked]
  cases callFrom ('S' :: more) <;> rfl

theorem outcome_argumentFrom_word (quote : c ≠ '\'') (root : c ≠ '$') (start : isNumberStart c = false)
    (marked : namespaceMark.isPrefixOf (c :: cs) = false) :
    outcome (argumentFrom (c :: cs)) = outcome (wordFrom (c :: cs)) := by
  rw [argumentFrom, if_neg quote, if_neg root, dif_neg (by rw [start]; decide), if_neg (by rw [marked]; decide)]

/-- Every word that stands for a value is at the front of a longer text if it is found there. -/
theorem length_drop_word {entry : List Char × Json} (found : words.find? (fun entry => entry.1.isPrefixOf cs) = some entry) :
    (cs.drop entry.1.length).length < cs.length := by
  have first := List.find?_some found
  have positive : ∀ entry ∈ words, 0 < entry.1.length := by
    simp only [words, List.forall_mem_cons]
    decide
  have short := (List.isPrefixOf_iff_prefix.mp first).length_le
  have long := positive entry (List.mem_of_find?_eq_some found)
  rw [List.length_drop]
  omega

theorem outcome_wordFrom (cs : List Char) : outcome (wordFrom cs) =
    match words.find? (fun entry => entry.1.isPrefixOf cs) with
    | some entry => .ok (.literal entry.2, cs.drop entry.1.length)
    | none => .error (.before .expectedArgument cs) := by
  unfold wordFrom
  cases h : words.find? fun entry => entry.1.isPrefixOf cs with
  | some entry =>
      dsimp only
      rw [dif_pos (length_drop_word h)]
      rfl
  | none => rfl

theorem outcome_argumentsFrom (cs : List Char) : outcome (argumentsFrom cs) =
    match outcome (argumentFrom (skipBlanks cs)) with
    | .error stop => .error stop
    | .ok (term, rest) =>
      match skipBlanks rest with
      | ')' :: after => .ok ([term], after)
      | ',' :: more => (outcome (argumentsFrom more)).map (Prod.map (term :: ·) id)
      | other => .error (.before .expectedSeparator other) := by
  rw [argumentsFrom]
  split
  · rename_i stop h
    rw [h]
    rfl
  · rename_i term rest h hread
    rw [hread]
    simp only [outcome_ok]
    split
    · rename_i after hrest
      conv => rhs; rw [hrest]
      rfl
    · rename_i more hrest
      conv => rhs; rw [hrest]
      exact outcome_map _ _ _
    · rename_i closed separated
      split
      · rename_i after hrest
        exact absurd hrest (closed after)
      · rename_i more hrest
        exact absurd hrest (separated more)
      · rfl

theorem outcome_callFrom {inside : List Char} (named : namespaceMark.isPrefixOf (cs.takeWhile isNameChar) = true)
    (opened : skipBlanks (cs.dropWhile isNameChar) = '(' :: inside) : outcome (callFrom cs) =
      match skipBlanks inside with
      | ')' :: after => .ok (⟨String.ofList (cs.takeWhile isNameChar), []⟩, after)
      | _ => (outcome (argumentsFrom inside)).map (Prod.map (⟨String.ofList (cs.takeWhile isNameChar), ·⟩) id) := by
  rw [callFrom, if_pos named]
  split
  · rename_i inside' hinside
    obtain rfl : inside' = inside := List.tail_eq_of_cons_eq (hinside.symm.trans opened)
    split
    · rename_i after hafter
      conv => rhs; rw [hafter]
      rfl
    · rename_i bare
      split
      · rename_i after hafter
        exact absurd hafter (bare after)
      · exact outcome_map _ _ _
  · rename_i closed
    exact absurd opened (closed inside)

/-- What is read as a call begins with a name and a parenthesis. -/
theorem opened_of_outcome (h : outcome (callFrom cs) = .ok (call, rest)) :
    namespaceMark.isPrefixOf (cs.takeWhile isNameChar) = true ∧
      ∃ inside, skipBlanks (cs.dropWhile isNameChar) = '(' :: inside := by
  rw [callFrom] at h
  split at h
  · rename_i named
    refine ⟨named, ?_⟩
    split at h
    · rename_i inside hinside
      exact ⟨inside, hinside⟩
    · cases h
  · cases h

/-- A name is read up to what stands before the parenthesis. -/
theorem takeWhile_named (named : Named name) (blank : Blank blanks) (cs : List Char) :
    (name ++ (blanks ++ '(' :: cs)).takeWhile isNameChar = name ∧
      (name ++ (blanks ++ '(' :: cs)).dropWhile isNameChar = blanks ++ '(' :: cs := by
  have ends : ∃ c more, blanks ++ '(' :: cs = c :: more ∧ isNameChar c = false := by
    cases blanks with
    | nil => exact ⟨'(', cs, rfl, by decide⟩
    | cons c more => exact ⟨c, _, rfl, isNameChar_of_isBlank (blank c List.mem_cons_self)⟩
  obtain ⟨c, more, hc, unnamed⟩ := ends
  rw [hc, List.takeWhile_append_of_pos named.2, List.dropWhile_append_of_pos named.2, List.takeWhile_cons,
    List.dropWhile_cons, unnamed]
  exact ⟨List.append_nil name, rfl⟩

/-- An argument begins with a character that ends none. -/
theorem begins_of_spells (h : Spells cs term) : ∃ c more, cs = c :: more ∧ ¬ Separates [c] := by
  -- What ends an argument stands in no number.
  have solid : ∀ {c : Char}, isNumberChar c = true → ¬ Separates [c] := fun number ends => by
    rw [ends.isNumberChar] at number
    cases number
  cases h with
  | text => exact ⟨'\'', _, rfl, by simp [Separates, isBlank]⟩
  | path => exact ⟨'$', _, rfl, by simp [Separates, isBlank]⟩
  | number numeral =>
      obtain ⟨⟨c, more, rfl, start⟩, -, -⟩ := numeral
      exact ⟨c, more, rfl, solid (isNumberChar_of_isNumberStart start)⟩
  | word listed =>
      simp only [words, List.mem_cons, Prod.mk.injEq, List.not_mem_nil, or_false] at listed
      rcases listed with ⟨rfl, -⟩ | ⟨rfl, -⟩ | ⟨rfl, -⟩
      all_goals exact ⟨_, _, rfl, by simp [Separates, isBlank]⟩
  | call spells =>
      cases spells with
      | bare named | applied named =>
          obtain ⟨more, rfl⟩ := exists_of_marked named.1
          exact ⟨'S', _, rfl, by simp [Separates, isBlank]⟩

theorem outcome_numeral {value : Json} (numeral : Numeral cs value) (ends : Separates rest) :
    outcome (argumentFrom (cs ++ rest)) = .ok (.literal value, rest) := by
  obtain ⟨⟨c, more, rfl, start⟩, number, read⟩ := numeral
  have stops : rest.takeWhile isNumberChar = [] ∧ rest.dropWhile isNumberChar = rest := by
    cases rest with
    | nil => exact ends.elim
    | cons d rest => simp [ends.isNumberChar]
  have taken : (c :: (more ++ rest)).takeWhile isNumberChar = c :: more := by
    rw [← List.cons_append, List.takeWhile_append_of_pos number, stops.1, List.append_nil]
  have left : (c :: (more ++ rest)).dropWhile isNumberChar = rest := by
    rw [← List.cons_append, List.dropWhile_append_of_pos number, stops.2]
  rw [List.cons_append, outcome_argumentFrom_number start, outcome_numberFrom, taken, left, read]

theorem outcome_word {word : List Char} {value : Json} (listed : (word, value) ∈ words) (rest : List Char) :
    outcome (argumentFrom (word ++ rest)) = .ok (.literal value, rest) := by
  simp only [words, List.mem_cons, Prod.mk.injEq, List.not_mem_nil, or_false] at listed
  rcases listed with ⟨rfl, rfl⟩ | ⟨rfl, rfl⟩ | ⟨rfl, rfl⟩
  all_goals
    rw [List.cons_append, outcome_argumentFrom_word (by decide) (by decide) (by decide) rfl, outcome_wordFrom]
    rfl

/-- Blanks in front of an argument are skipped, and nothing of the argument. -/
theorem skipBlanks_spells (blank : Blank blanks) (spells : Spells cs term) (tail : List Char) :
    skipBlanks (blanks ++ (cs ++ tail)) = cs ++ tail := by
  obtain ⟨c, more, rfl, solid⟩ := begins_of_spells spells
  obtain ⟨-, -, visible⟩ : c ≠ ',' ∧ c ≠ ')' ∧ ¬ isBlank c = true := by simpa [Separates] using solid
  rw [skipBlanks_append blank, List.cons_append, skipBlanks_cons (eq_false_of_ne_true visible)]

/-- The first argument is not taken for the closing parenthesis. -/
theorem skipBlanks_arguments (spells : SpellsArguments cs terms) (rest after : List Char) :
    skipBlanks (cs ++ rest) ≠ ')' :: after := by
  have first : ∀ {blanks cs term} (tail : List Char), Blank blanks → Spells cs term →
      skipBlanks (blanks ++ (cs ++ tail)) ≠ ')' :: after := by
    intro blanks cs term tail blank spells closed
    rw [skipBlanks_spells blank spells] at closed
    obtain ⟨c, more, rfl, solid⟩ := begins_of_spells spells
    cases closed
    exact solid (Or.inr (Or.inl rfl))
  cases spells with
  | last before spells | more before spells =>
      rw [List.append_assoc, List.append_assoc]
      exact first _ before spells

theorem marked_of_spellsCall (spells : SpellsCall cs call) (rest : List Char) :
    namespaceMark.isPrefixOf (cs ++ rest) = true := by
  cases spells with
  | bare named | applied named =>
      rw [List.append_assoc]
      exact List.isPrefixOf_iff_prefix.mpr ((List.isPrefixOf_iff_prefix.mp named.1).trans (List.prefix_append _ _))

mutual
/-- **An argument is read as it is written,** in front of whatever ends it. -/
theorem outcome_of_spells {cs : List Char} {term : Term} : Spells cs term → ∀ {rest}, Separates rest →
    outcome (argumentFrom (cs ++ rest)) = .ok (term, rest)
  | .text quotes, rest, _ => by
      rw [List.cons_append, List.append_assoc, outcome_argumentFrom_string]
      exact congrArg _ (unquotes_quoted.read_quotes quotes rest)
  | .path crosses, rest, ends => by
      rw [List.cons_append, outcome_argumentFrom_path, crosses rest ends]
  | .number numeral, rest, ends => outcome_numeral numeral ends
  | .word listed, rest, _ => outcome_word listed rest
  | .call spells, rest, _ => by
      rw [outcome_argumentFrom_call (marked_of_spellsCall spells rest), outcome_of_spellsCall spells rest]
      rfl
/-- **A call is read as it is written,** in front of any text. -/
theorem outcome_of_spellsCall {cs : List Char} {call : Call} : SpellsCall cs call → ∀ rest,
    outcome (callFrom (cs ++ rest)) = .ok (call, rest)
  | @SpellsCall.bare name before inside named blank blank', rest => by
      have text : name ++ (before ++ '(' :: (inside ++ [')'])) ++ rest =
          name ++ (before ++ '(' :: (inside ++ ')' :: rest)) := by simp
      obtain ⟨taken, left⟩ := takeWhile_named named blank (inside ++ ')' :: rest)
      have opened : skipBlanks (before ++ '(' :: (inside ++ ')' :: rest)) = '(' :: (inside ++ ')' :: rest) := by
        rw [skipBlanks_append blank, skipBlanks_cons (by decide)]
      have closed : skipBlanks (inside ++ ')' :: rest) = ')' :: rest := by
        rw [skipBlanks_append blank', skipBlanks_cons (by decide)]
      rw [text, outcome_callFrom (by rw [taken]; exact named.1) (by rw [left]; exact opened), taken, closed]
      rfl
  | @SpellsCall.applied name before cs _ named blank spells, rest => by
      have text : name ++ (before ++ '(' :: cs) ++ rest = name ++ (before ++ '(' :: (cs ++ rest)) := by simp
      obtain ⟨taken, left⟩ := takeWhile_named named blank (cs ++ rest)
      have opened : skipBlanks (before ++ '(' :: (cs ++ rest)) = '(' :: (cs ++ rest) := by
        rw [skipBlanks_append blank, skipBlanks_cons (by decide)]
      rw [text, outcome_callFrom (by rw [taken]; exact named.1) (by rw [left]; exact opened), taken,
        outcome_of_spellsArguments spells rest]
      split
      · rename_i after closed
        exact absurd closed (skipBlanks_arguments spells rest after)
      · rfl
/-- **Arguments are read as they are written,** in front of any text. -/
theorem outcome_of_spellsArguments {cs : List Char} {terms : List Term} : SpellsArguments cs terms → ∀ rest,
    outcome (argumentsFrom (cs ++ rest)) = .ok (terms, rest)
  | @SpellsArguments.last before cs after _ blank spells blank', rest => by
      have text : before ++ (cs ++ (after ++ [')'])) ++ rest = before ++ (cs ++ (after ++ ')' :: rest)) := by simp
      have ends : Separates (after ++ ')' :: rest) := separates_append blank' (Or.inr (Or.inl rfl))
      rw [text, outcome_argumentsFrom, skipBlanks_spells blank spells, outcome_of_spells spells ends]
      simp only [skipBlanks_append blank', skipBlanks_cons (show isBlank ')' = false by decide)]
  | @SpellsArguments.more before cs after more _ _ blank spells blank' others, rest => by
      have text : before ++ (cs ++ (after ++ ',' :: more)) ++ rest =
          before ++ (cs ++ (after ++ ',' :: (more ++ rest))) := by simp
      have ends : Separates (after ++ ',' :: (more ++ rest)) := separates_append blank' (Or.inl rfl)
      rw [text, outcome_argumentsFrom, skipBlanks_spells blank spells, outcome_of_spells spells ends]
      simp only [skipBlanks_append blank', skipBlanks_cons (show isBlank ',' = false by decide),
        outcome_of_spellsArguments others rest]
      rfl
end

/-! ## What is read is written -/

/-- What is read as a number is written as one. -/
theorem numeral_of_outcome (start : isNumberStart c = true) (h : outcome (numberFrom c cs start) = .ok (term, rest)) :
    ∃ used, c :: cs = used ++ rest ∧ Spells used term := by
  rw [outcome_numberFrom] at h
  split at h
  · rename_i value read
    cases h
    refine ⟨(c :: cs).takeWhile isNumberChar, List.takeWhile_append_dropWhile.symm, .number ⟨?_, ?_, read⟩⟩
    · rw [List.takeWhile_cons, if_pos (isNumberChar_of_isNumberStart start)]
      exact ⟨c, _, rfl, start⟩
    · exact List.all_eq_true.mp List.all_takeWhile
  · cases h

/-- What is read as a word is written as one. -/
theorem word_of_outcome (h : outcome (wordFrom cs) = .ok (term, rest)) : ∃ used, cs = used ++ rest ∧ Spells used term := by
  rw [outcome_wordFrom] at h
  split at h
  · rename_i entry found
    cases h
    have first : entry.1.isPrefixOf cs = true := by simpa using List.find?_some found
    exact ⟨entry.1, (List.prefix_iff_eq_append.mp (List.isPrefixOf_iff_prefix.mp first)).symm,
      .word (List.mem_of_find?_eq_some found)⟩
  · cases h

mutual
/-- **What is read as a call is written as one.** -/
theorem spellsCall_of_outcome (cs : List Char) {call : Call} {rest : List Char}
    (h : outcome (callFrom cs) = .ok (call, rest)) : ∃ used, cs = used ++ rest ∧ SpellsCall used call := by
  obtain ⟨marked, inside, opened⟩ := opened_of_outcome h
  rw [outcome_callFrom marked opened] at h
  -- The text is a name, blanks, a parenthesis and what is inside, and only the latter is read by recursion.
  have named : Named (cs.takeWhile isNameChar) := ⟨marked, List.all_eq_true.mp List.all_takeWhile⟩
  obtain ⟨blanks, blank, hblanks⟩ := exists_blank (cs.dropWhile isNameChar)
  have whole : cs = cs.takeWhile isNameChar ++ (blanks ++ '(' :: inside) := by
    rw [← opened, ← hblanks, List.takeWhile_append_dropWhile]
  generalize cs.takeWhile isNameChar = name at h named whole
  split at h
  · rename_i after closed
    cases h
    obtain ⟨blanks', blank', hinside⟩ := exists_blank inside
    refine ⟨_, ?_, .bare named blank blank'⟩
    rw [closed] at hinside
    rw [whole, hinside]
    simp
  · obtain ⟨⟨terms, rest'⟩, harguments, e⟩ := DataFlow.map_eq_ok.mp h
    cases e
    have shorter : inside.length < cs.length := by
      have := congrArg List.length whole
      simp only [List.length_append, List.length_cons] at this
      omega
    obtain ⟨used, hused, spells⟩ := spellsArguments_of_outcome inside harguments
    refine ⟨_, ?_, .applied named blank spells⟩
    rw [whole, hused]
    simp
termination_by (cs.length, 0)
/-- **What is read as an argument is written as one,** unless the reading came to the end of the text. -/
theorem spells_of_outcome (cs : List Char) {term : Term} {rest : List Char} (more : rest ≠ [])
    (h : outcome (argumentFrom cs) = .ok (term, rest)) : ∃ used, cs = used ++ rest ∧ Spells used term := by
  obtain rfl | ⟨c, after, whole⟩ : cs = [] ∨ ∃ c after, cs = c :: after := by cases cs <;> simp
  · rw [argumentFrom] at h
    cases h
  by_cases quote : c = '\''
  · rw [whole, quote, outcome_argumentFrom_string] at h
    obtain ⟨⟨text, rest'⟩, hquoted, e⟩ := DataFlow.map_eq_ok.mp h
    cases e
    obtain ⟨body, rfl, quotes⟩ := unquotes_quoted.quotes_of_read _ after (Nat.le_refl _) hquoted
    exact ⟨_, by simp [whole, quote], .text quotes⟩
  by_cases root : c = '$'
  · rw [whole, root, outcome_argumentFrom_path] at h
    cases h
    refine ⟨_, ?_, .path (crosses_of_pathEnd rfl more)⟩
    rw [whole, root]
    exact congrArg ('$' :: ·) (pathEnd_append 0 none after).symm
  -- What is neither quoted nor a path: a number by its first character, then a call by its mark, then a word.
  cases start : isNumberStart c with
  | true =>
      rw [whole, outcome_argumentFrom_number start] at h
      rw [whole]
      exact numeral_of_outcome start h
  | false =>
      cases marked : namespaceMark.isPrefixOf cs with
      | true =>
          rw [outcome_argumentFrom_call marked] at h
          obtain ⟨⟨call, rest'⟩, hcall, e⟩ := DataFlow.map_eq_ok.mp h
          cases e
          obtain ⟨used, hused, spells⟩ := spellsCall_of_outcome cs hcall
          exact ⟨used, hused, .call spells⟩
      | false =>
          rw [whole] at marked
          rw [whole, outcome_argumentFrom_word quote root start marked] at h
          rw [whole]
          exact word_of_outcome h
termination_by (cs.length, 1)
/-- **What are read as arguments are written as such.** -/
theorem spellsArguments_of_outcome (cs : List Char) {terms : List Term} {rest : List Char}
    (h : outcome (argumentsFrom cs) = .ok (terms, rest)) : ∃ used, cs = used ++ rest ∧ SpellsArguments used terms := by
  rw [outcome_argumentsFrom] at h
  split at h
  · cases h
  · rename_i term left hread
    obtain ⟨blanks, blank, hblanks⟩ := exists_blank cs
    obtain ⟨blanks', blank', hleft⟩ := exists_blank left
    have longer := length_skipBlanks_le cs
    -- A path without an end takes all of the text; then nothing ends the argument, and the reading fails.
    have written (continues : left ≠ []) : ∃ used, skipBlanks cs = used ++ left ∧ Spells used term :=
      spells_of_outcome (skipBlanks cs) continues hread
    split at h
    · rename_i after closed
      cases h
      rw [closed] at hleft
      obtain ⟨used, hused, spells⟩ := written (by rw [hleft]; simp)
      refine ⟨_, ?_, .last blank spells blank'⟩
      rw [hblanks, hused, hleft]
      simp
    · rename_i more separated
      obtain ⟨⟨terms', rest'⟩, harguments, e⟩ := DataFlow.map_eq_ok.mp h
      cases e
      rw [separated] at hleft
      obtain ⟨used, hused, spells⟩ := written (by rw [hleft]; simp)
      have shorter : more.length < cs.length := by
        have := congrArg List.length hblanks
        rw [hused, hleft] at this
        simp only [List.length_append, List.length_cons] at this
        omega
      obtain ⟨used', hused', others⟩ := spellsArguments_of_outcome more harguments
      refine ⟨_, ?_, .more blank spells blank' others⟩
      rw [hblanks, hused, hleft, hused']
      simp
    · cases h
termination_by (cs.length, 2)
decreasing_by
  · obtain shorter | same := Nat.lt_or_eq_of_le longer
    · exact Prod.Lex.left _ _ shorter
    · rw [same]
      exact Prod.Lex.right _ (by decide)
  · exact Prod.Lex.left _ _ shorter
end

theorem skipBlanks_blank (blank : Blank blanks) : skipBlanks blanks = [] := by
  have h := skipBlanks_append blank []
  rwa [List.append_nil] at h

theorem skipBlanks_spellsCall (blank : Blank blanks) (spells : SpellsCall cs call) (rest : List Char) :
    skipBlanks (blanks ++ (cs ++ rest)) = cs ++ rest := by
  obtain ⟨more, hmore⟩ := exists_of_marked (marked_of_spellsCall spells rest)
  rw [skipBlanks_append blank, hmore, skipBlanks_cons (by decide)]

/-- **A text is read as a call exactly if it is a writing of the call between blanks.** -/
theorem parse_eq_ok_iff {text : String} : Call.parse text = .ok call ↔
    ∃ before used after, Blank before ∧ Blank after ∧ text.toList = before ++ (used ++ after) ∧
      SpellsCall used call := by
  constructor
  · intro h
    unfold Call.parse at h
    dsimp only at h
    split at h
    · cases h
    rename_i call' rest bound hread
    split at h
    · rename_i ended
      cases h
      obtain ⟨before, blank, hbefore⟩ := exists_blank text.toList
      obtain ⟨after, blank', hafter⟩ := exists_blank rest
      obtain ⟨used, hused, spells⟩ := spellsCall_of_outcome _ (congrArg outcome hread)
      rw [ended, List.append_nil] at hafter
      rw [hused, hafter] at hbefore
      exact ⟨before, used, after, blank, blank', hbefore, spells⟩
    · cases h
  · rintro ⟨before, used, after, blank, blank', whole, spells⟩
    -- Blanks in front are skipped, so that reading begins with the call itself.
    have read : outcome (callFrom (skipBlanks text.toList)) = .ok (call, after) := by
      rw [whole, skipBlanks_spellsCall blank spells, outcome_of_spellsCall spells]
    unfold Call.parse
    dsimp only
    split
    · rename_i hread
      rw [hread] at read
      cases read
    · rename_i call' rest bound hread
      rw [hread] at read
      cases read
      rw [skipBlanks_blank blank']

/-! ## The same argument in other calls -/

/-- Blanks in front of a text that begins with no white space are none. -/
theorem eq_nil_of_blank (blank : Blank blanks) (solid : isBlank c = false) (h : c :: cs = blanks ++ rest) :
    blanks = [] := by
  cases blanks with
  | nil => rfl
  | cons b blanks =>
      cases h
      rw [blank c List.mem_cons_self] at solid
      cases solid

/-- Blanks behind a text that ends in no white space are none. -/
theorem eq_nil_of_blank_last (blank : Blank blanks) (solid : isBlank c = false) (h : rest ++ blanks = cs ++ [c]) :
    blanks = [] := by
  obtain rfl | ⟨before, b, rfl⟩ := blanks.eq_nil_or_concat
  · rfl
  · rw [List.concat_eq_append, ← List.append_assoc] at h
    obtain ⟨-, e⟩ := List.append_inj' h rfl
    cases e
    rw [blank c (by simp)] at solid
    cases solid

theorem SpellsArguments.blank (blank : isBlank c = true) (spells : SpellsArguments cs terms) :
    SpellsArguments (c :: cs) terms := by
  have longer : ∀ {blanks}, Blank blanks → Blank (c :: blanks) := fun others =>
    List.forall_mem_cons.mpr ⟨blank, others⟩
  cases spells with
  | last before spells after => exact .last (longer before) spells after
  | more before spells after others => exact .more (longer before) spells after others

/-- **A call whose parentheses are known is read by what stands between them.** -/
theorem parse_parentheses_iff {name inside : String} (named : Named name.toList) :
    Call.parse (name ++ "(" ++ inside ++ ")") = .ok call ↔ call.name = name ∧
      ((Blank inside.toList ∧ call.arguments = []) ∨ SpellsArguments (inside.toList ++ [')']) call.arguments) := by
  have whole : (name ++ "(" ++ inside ++ ")").toList = name.toList ++ '(' :: (inside.toList ++ [')']) := by simp
  obtain ⟨more, first⟩ := exists_of_marked named.1
  rw [parse_eq_ok_iff, whole]
  constructor
  · rintro ⟨before, used, after, blank, blank', h, spells⟩
    obtain rfl : before = [] := by
      rw [first] at h
      exact eq_nil_of_blank blank (by decide) h
    obtain rfl : after = [] := by
      have last : used ++ after = (name.toList ++ '(' :: inside.toList) ++ [')'] := by simpa using h.symm
      exact eq_nil_of_blank_last blank' (by decide) last
    rw [List.nil_append, List.append_nil] at h
    -- The name goes up to the first parenthesis or blank, so that the parentheses open in the same place.
    have same : ∀ {name' before cs : List Char}, Named name' → Blank before →
        name.toList ++ '(' :: (inside.toList ++ [')']) = name' ++ (before ++ '(' :: cs) →
        name' = name.toList ∧ inside.toList ++ [')'] = cs := by
      intro name' before cs named' blank e
      have none : Blank [] := nofun
      have taken := congrArg (List.takeWhile isNameChar) e
      rw [(takeWhile_named named' blank cs).1, ← List.nil_append ('(' :: _), (takeWhile_named named none _).1] at taken
      subst taken
      have e' := List.append_cancel_left e
      obtain rfl := eq_nil_of_blank blank (by decide) e'
      exact ⟨rfl, List.tail_eq_of_cons_eq e'⟩
    cases spells with
    | bare named' blank blank' =>
        obtain ⟨rfl, closed⟩ := same named' blank h
        rw [List.append_cancel_right closed]
        exact ⟨String.ofList_toList, Or.inl ⟨blank', rfl⟩⟩
    | applied named' blank spells =>
        obtain ⟨rfl, rfl⟩ := same named' blank h
        exact ⟨String.ofList_toList, Or.inr spells⟩
  · obtain ⟨name', terms⟩ := call
    rintro ⟨rfl, ⟨blank, rfl⟩ | spells⟩
    · refine ⟨[], _, [], nofun, nofun, (List.append_nil _).symm, ?_⟩
      have call := @SpellsCall.bare _ [] _ named nofun blank
      rwa [String.ofList_toList] at call
    · refine ⟨[], _, [], nofun, nofun, (List.append_nil _).symm, ?_⟩
      have call := @SpellsCall.applied _ [] _ _ named nofun spells
      rwa [String.ofList_toList] at call

/-- The text is read as the term where it is the argument of a call. -/
def Denotes (text : String) (term : Term) : Prop :=
  Call.parse ("States.Array(" ++ text ++ ")") = .ok ⟨"States.Array", [term]⟩

/-- **What denotes a term is a writing of it between blanks.** -/
theorem denotes_iff {text : String} : Denotes text term ↔
    ∃ before used after, Blank before ∧ Blank after ∧ text.toList = before ++ (used ++ after) ∧ Spells used term := by
  have named : Named "States.Array".toList := by decide
  have split : "States.Array(" = "States.Array" ++ "(" := by decide
  rw [Denotes, split, parse_parentheses_iff named]
  constructor
  · rintro ⟨-, ⟨-, h⟩ | spells⟩
    · cases h
    · generalize hcs : text.toList ++ [')'] = cs at spells
      cases spells with
      | @last before used after _ blank spells blank' =>
          rw [← List.append_assoc, ← List.append_assoc] at hcs
          have inside := List.append_cancel_right hcs
          rw [List.append_assoc] at inside
          exact ⟨before, used, after, blank, blank', inside, spells⟩
      | more _ _ _ others => cases others
  · rintro ⟨before, used, after, blank, blank', h, spells⟩
    have last := SpellsArguments.last blank spells blank'
    rw [h]
    exact ⟨rfl, Or.inr (by simpa using last)⟩

theorem denotes_numeral {text : String} {value : Json} (numeral : Numeral text.toList value) :
    Denotes text (.literal value) :=
  denotes_iff.mpr ⟨[], text.toList, [], nofun, nofun, (List.append_nil _).symm, .number numeral⟩

/-- What denotes terms can be written as the arguments of any call. -/
theorem spellsArguments_intercalate {texts : List String} (nonempty : texts ≠ [])
    (denotes : List.Forall₂ Denotes texts terms) :
    SpellsArguments ((", ".intercalate texts).toList ++ [')']) terms := by
  induction denotes with
  | nil => exact absurd rfl nonempty
  | @cons text term texts terms first others ih =>
      obtain ⟨before, used, after, blank, blank', h, spells⟩ := denotes_iff.mp first
      cases others with
      | nil =>
          have last := SpellsArguments.last blank spells blank'
          rw [String.intercalate_singleton, h]
          simpa using last
      | cons second others =>
          have more := SpellsArguments.more blank spells blank' (SpellsArguments.blank (c := ' ') rfl (ih (List.cons_ne_nil _ _)))
          rw [String.intercalate_cons_cons, String.toList_append, String.toList_append, h]
          simpa using more

/-- A call of what denotes terms denotes the call of them. -/
theorem denotes_call {name : String} {texts : List String} (named : Named name.toList) (nonempty : texts ≠ [])
    (denotes : List.Forall₂ Denotes texts terms) :
    Denotes (name ++ "(" ++ ", ".intercalate texts ++ ")") (.call name terms) := by
  have call := @SpellsCall.applied _ [] _ _ named nofun (spellsArguments_intercalate nonempty denotes)
  rw [String.ofList_toList] at call
  refine denotes_iff.mpr ⟨[], _, [], nofun, nofun, ?_, .call call⟩
  simp [String.toList_append]

/-- **What denotes terms is read as them in every call.** -/
theorem parse_of_denotes {name : String} {texts : List String} (named : Named name.toList) (nonempty : texts ≠ [])
    (denotes : List.Forall₂ Denotes texts terms) :
    Call.parse (name ++ "(" ++ ", ".intercalate texts ++ ")") = .ok ⟨name, terms⟩ :=
  (parse_parentheses_iff named).mpr ⟨rfl, Or.inr (spellsArguments_intercalate nonempty denotes)⟩

end Workflow.Intrinsic
