import Mathlib.Data.List.Basic
import Workflow.Proofs.DataFlow

/-!
# `Workflow.Proofs.Text.Quotes` — quoted texts

Names of fields and strings of expressions are both written between quotes, with a backslash before a character that would
end them, and both have a reader of their own.  What the readers have in common is that an escaped character is taken
together with its backslash; they differ in the quote and in what an escaped character denotes.

## Contents
- `Quotes`, what stands between quotes and the text that it denotes.
- `escapeMarked`, `escapeWhere` and `escapeFor`, which write texts between quotes, with `quotes_escapeMarked` and its like:
  what the writings denote.
- `Unquotes`, what a reader does at each character, with `Unquotes.read_quotes` and `Unquotes.quotes_of_read`: such a reader
  takes a quoted text exactly.
-/

namespace Workflow.Text

variable {ε : Type} {quote c : Char} {keep : Char → List Char} {body text rest cs : List Char}
  {read : List Char → Except ε (List Char × List Char)}

/-- What stands between quotes, and the text that it denotes if an escaped character is kept in a certain way. -/
inductive Quotes (quote : Char) (keep : Char → List Char) : List Char → List Char → Prop where
  | nil : Quotes quote keep [] []
  | plain {c : Char} {body text : List Char} (backslash : c ≠ '\\') (other : c ≠ quote) :
    Quotes quote keep body text → Quotes quote keep (c :: body) (c :: text)
  | escaped (c : Char) {body text : List Char} :
    Quotes quote keep body text → Quotes quote keep ('\\' :: c :: body) (keep c ++ text)

/-- A text without backslashes and quotes denotes itself. -/
theorem quotes_self (backslash : '\\' ∉ text) (other : quote ∉ text) : Quotes quote keep text text := by
  induction text with
  | nil => exact .nil
  | cons c text ih =>
      rw [List.mem_cons, not_or] at backslash other
      exact .plain (Ne.symm backslash.1) (Ne.symm other.1) (ih backslash.2 other.2)

theorem Quotes.append {body' text' : List Char} (h : Quotes quote keep body text) (h' : Quotes quote keep body' text') :
    Quotes quote keep (body ++ body') (text ++ text') := by
  induction h with
  | nil => exact h'
  | plain backslash other _ ih => exact .plain backslash other ih
  | escaped c _ ih =>
      rw [List.append_assoc]
      exact .escaped c ih

/-- The characters with a backslash before each that is marked. -/
def escapeMarked (marks : List (Char × Bool)) : List Char :=
  marks.flatMap fun mark => if mark.2 then ['\\', mark.1] else [mark.1]

/-- What the characters denote if a marked one is kept in a certain way. -/
def keepMarked (keep : Char → List Char) (marks : List (Char × Bool)) : List Char :=
  marks.flatMap fun mark => if mark.2 then keep mark.1 else [mark.1]

/-- The text with a backslash before each character that passes a test. -/
def escapeWhere (test : Char → Bool) (text : List Char) : List Char := escapeMarked (text.map fun c => (c, test c))

/-- The text with a backslash before each backslash and each quote, and before nothing else. -/
def escapeFor (quote : Char) (text : List Char) : List Char := escapeWhere (fun c => c = '\\' ∨ c = quote) text

/-- Any characters can be escaped, as long as backslashes and quotes are among them. -/
theorem quotes_escapeMarked {marks : List (Char × Bool)}
    (all : ∀ mark ∈ marks, mark.1 = '\\' ∨ mark.1 = quote → mark.2 = true) :
    Quotes quote keep (escapeMarked marks) (keepMarked keep marks) := by
  induction marks with
  | nil => exact .nil
  | cons mark marks ih =>
      obtain ⟨first, others⟩ := List.forall_mem_cons.mp all
      obtain ⟨c, marked⟩ := mark
      cases marked with
      | true => exact .escaped c (ih others)
      | false =>
          have plain : ¬ (c = '\\' ∨ c = quote) := fun special => Bool.false_ne_true (first special)
          obtain ⟨backslash, other⟩ := not_or.mp plain
          exact .plain backslash other (ih others)

/-- A writing denotes what its characters do, if those that are not escaped stand for themselves. -/
theorem quotes_escapeWhere {test : Char → Bool} {value : Char → List Char} (all : ∀ c, c = '\\' ∨ c = quote → test c = true)
    (escaped : ∀ c, test c = true → keep c = value c) (plain : ∀ c, test c = false → [c] = value c) (text : List Char) :
    Quotes quote keep (escapeWhere test text) (text.flatMap value) := by
  have denoted : keepMarked keep (text.map fun c => (c, test c)) = text.flatMap value := by
    rw [keepMarked, List.flatMap_map]
    refine List.flatMap_congr fun c _ => ?_
    split
    · rename_i marked
      exact escaped c marked
    · rename_i unmarked
      exact plain c (eq_false_of_ne_true unmarked)
  rw [← denoted]
  refine quotes_escapeMarked ?_
  rintro mark inside special
  obtain ⟨c, -, rfl⟩ := List.mem_map.mp inside
  exact all c special

/-- A text is denoted by its writing if backslashes and quotes are kept as they are. -/
theorem quotes_escapeFor (backslash : keep '\\' = ['\\']) (quoted : keep quote = [quote]) (text : List Char) :
    Quotes quote keep (escapeFor quote text) text := by
  have escaped : ∀ c, decide (c = '\\' ∨ c = quote) = true → keep c = [c] := by
    intro c special
    obtain rfl | rfl := of_decide_eq_true special
    · exact backslash
    · exact quoted
  have quotes : Quotes quote keep (escapeFor quote text) (text.flatMap fun c => [c]) :=
    quotes_escapeWhere (fun c => decide_eq_true) escaped (fun c _ => rfl) text
  rwa [List.flatMap_singleton'] at quotes

/-- The reader goes through a quoted text character by character, up to the quote. -/
structure Unquotes (quote : Char) (keep : Char → List Char) (read : List Char → Except ε (List Char × List Char)) :
    Prop where
  close : ∀ rest, read (quote :: rest) = .ok ([], rest)
  plain : ∀ c cs, c ≠ '\\' → c ≠ quote → read (c :: cs) = (read cs).map (Prod.map (c :: ·) id)
  escaped : ∀ c cs, read ('\\' :: c :: cs) = (read cs).map (Prod.map (keep c ++ ·) id)
  unclosed : ∀ r, read [] ≠ .ok r
  dangling : ∀ r, read ['\\'] ≠ .ok r

/-- **A quoted text is read up to its quote.** -/
theorem Unquotes.read_quotes (reads : Unquotes quote keep read) (h : Quotes quote keep body text) (rest : List Char) :
    read (body ++ quote :: rest) = .ok (text, rest) := by
  induction h with
  | nil => exact reads.close rest
  | plain backslash other _ ih =>
      rw [List.cons_append, reads.plain _ _ backslash other, ih]
      rfl
  | escaped c _ ih =>
      rw [List.cons_append, List.cons_append, reads.escaped, ih]
      rfl

/-- **What is read as a quoted text is one.** -/
theorem Unquotes.quotes_of_read (reads : Unquotes quote keep read) (bound : Nat) (cs : List Char)
    (short : cs.length ≤ bound) (h : read cs = .ok (text, rest)) :
    ∃ body, cs = body ++ quote :: rest ∧ Quotes quote keep body text := by
  -- An escape takes two characters, so the induction is on a bound of the length.
  induction bound generalizing cs text with
  | zero =>
      obtain rfl := List.eq_nil_of_length_eq_zero (Nat.le_zero.mp short)
      exact absurd h (reads.unclosed _)
  | succ bound ih =>
      cases cs with
      | nil => exact absurd h (reads.unclosed _)
      | cons c more =>
          have short' : more.length ≤ bound := Nat.le_of_succ_le_succ short
          by_cases backslash : c = '\\'
          · subst backslash
            cases more with
            | nil => exact absurd h (reads.dangling _)
            | cons d more =>
                -- Whatever follows a backslash is read with it, be it the quote itself.
                rw [reads.escaped, DataFlow.map_eq_ok] at h
                obtain ⟨⟨text', rest'⟩, hmore, e⟩ := h
                cases e
                obtain ⟨body, rfl, quotes⟩ := ih more (Nat.le_of_succ_le short') hmore
                exact ⟨'\\' :: d :: body, rfl, .escaped d quotes⟩
          · by_cases closing : c = quote
            · subst closing
              rw [reads.close] at h
              cases h
              exact ⟨[], rfl, .nil⟩
            · rw [reads.plain c more backslash closing, DataFlow.map_eq_ok] at h
              obtain ⟨⟨text', rest'⟩, hmore, e⟩ := h
              cases e
              obtain ⟨body, rfl, quotes⟩ := ih more short' hmore
              exact ⟨c :: body, rfl, .plain backslash closing quotes⟩

end Workflow.Text
