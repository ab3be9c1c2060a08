import Workflow.Json.Reader
import Workflow.Json.Printer
import Workflow.Proofs.Text.Reader

/-!
# `Workflow.Proofs.Json.Strings` — strings are read as they were printed

Each character of a string is printed on its own, some of them as an escape, and what is printed for it is read as that
character.

## Contents
- **Escapes.** `outcome_hexEscape`, `outcome_escaped_short` and `outcome_escaped_hex`.
- **Characters.** `escapeOf`, what is printed for a character, and `outcome_stringTail_escapeOf`.
- **Strings.** `toList_renderText`, the text of a string, and `outcome_string`.
-/

namespace Workflow.Json

open Text

variable {c d : Char} {cs rest : List Char}

/-! ## Escapes -/

theorem length_le_byteCount (cs : List Char) : cs.length ≤ byteCount cs := by
  have counted : ∀ (cs : List Char) (count : Nat),
      count + cs.length ≤ cs.foldl (fun count c => count + c.utf8Size) count := by
    intro cs
    induction cs with
    | nil => intro count; exact Nat.le_refl _
    | cons c rest ih =>
        intro count
        have size := c.utf8Size_pos
        have more := ih (count + c.utf8Size)
        simp only [List.foldl_cons, List.length_cons]
        omega
  rw [byteCount, ← Nat.zero_add cs.length]
  exact counted cs 0

theorem hexDigit?_digitChar : ∀ digit < 16, hexDigit? (Nat.digitChar digit) = some digit := by decide

theorem hexValue?_digits {high low : Nat} (hhigh : high < 16) (hlow : low < 16) :
    hexValue? '0' '0' high.digitChar low.digitChar = some (high * 16 + low) := by
  have zero : hexDigit? '0' = some 0 := by decide
  simp [hexValue?, zero, hexDigit?_digitChar high hhigh, hexDigit?_digitChar low hlow]

theorem outcome_hexEscape {a b c d : Char} {value : Nat} (h : hexValue? a b c d = some value) (rest : List Char) :
    outcome (hexEscape (a :: b :: c :: d :: rest)) = .ok (value, rest) := by
  have enough : ¬ byteCount (a :: b :: c :: d :: rest) < 4 := by
    have bytes := length_le_byteCount (a :: b :: c :: d :: rest)
    simp only [List.length_cons] at bytes
    omega
  rw [hexEscape, if_neg enough]
  simp only [h]
  rfl

theorem outcome_escaped_short (h : shortEscape? c = some d) (rest : List Char) :
    outcome (escaped (c :: rest)) = .ok (d, rest) := by
  have notHex : c ≠ 'u' := by
    rintro rfl
    cases h
  rw [escaped]
  · rw [h]
    rfl
  · exact notHex

theorem outcome_escaped_hex {value : Nat} (single : value < 0xD800) {a b c d : Char}
    (h : hexValue? a b c d = some value) (rest : List Char) :
    outcome (escaped ('u' :: a :: b :: c :: d :: rest)) = .ok (Char.ofNat value, rest) := by
  have taken := outcome_hexEscape h rest
  rw [escaped]
  split
  · rename_i hread
    rw [hread] at taken
    cases taken
  · rename_i hread
    rw [hread] at taken
    cases taken
    rw [if_neg (by omega), if_neg (by omega)]
    rfl

/-! ## Characters -/

theorem outcome_stringTail_quote (text : String) (rest : List Char) :
    outcome (stringTail text ('"' :: rest)) = .ok (text, rest) := by
  rw [stringTail]
  rfl

theorem outcome_stringTail_escaped (h : outcome (escaped cs) = .ok (c, rest)) (text : String) :
    outcome (stringTail text ('\\' :: cs)) = outcome (stringTail (text.push c) rest) := by
  rw [stringTail]
  split
  · rename_i hread
    rw [hread] at h
    cases h
  · rename_i hread
    rw [hread] at h
    cases h
    exact outcome_map_widen _ _

theorem outcome_stringTail_plain (quote : c ≠ '"') (backslash : c ≠ '\\') (printable : ¬ c.toNat < 32)
    (text : String) (rest : List Char) :
    outcome (stringTail text (c :: rest)) = outcome (stringTail (text.push c) rest) := by
  rw [stringTail]
  · rw [if_neg printable]
    exact outcome_map_widen _ _
  · exact quote
  · exact backslash

/-- What is printed for a character of a string. -/
def escapeOf (c : Char) : List Char := (pushEscaped "" c).toList

theorem toList_pushEscaped (text : String) (c : Char) : (pushEscaped text c).toList = text.toList ++ escapeOf c := by
  unfold escapeOf pushEscaped
  split
  case h_8 => split <;> simp
  all_goals simp

/-- **A character of a string is read as itself,** however it is printed. -/
theorem outcome_stringTail_escapeOf (text : String) (c : Char) (rest : List Char) :
    outcome (stringTail text (escapeOf c ++ rest)) = outcome (stringTail (text.push c) rest) := by
  unfold escapeOf
  fun_cases pushEscaped "" c
  case case8 quote backslash _ _ _ _ _ control =>
    have digits : hexValue? '0' '0' (c.toNat / 16).digitChar (c.toNat % 16).digitChar = some c.toNat := by
      rw [hexValue?_digits (by omega) (by omega)]
      congr 1
      omega
    have taken := outcome_escaped_hex (by omega) digits rest
    rw [Char.ofNat_toNat] at taken
    rw [String.toList_append, String.toList_ofList]
    exact outcome_stringTail_escaped taken text
  case case9 quote backslash _ _ _ _ _ printable =>
    rw [String.toList_push]
    exact outcome_stringTail_plain quote backslash printable text rest
  -- The other characters each have an escape of two characters.
  all_goals exact outcome_stringTail_escaped (outcome_escaped_short rfl rest) text

/-! ## Strings -/

/-- What is printed for a string, in front of more text. -/
theorem toList_renderText (text : String) (tail : List Char) :
    (renderText text).toList ++ tail = '"' :: (text.toList.flatMap escapeOf ++ '"' :: tail) := by
  have printed : ∀ (cs : List Char) (front : String),
      (cs.foldl pushEscaped front).toList = front.toList ++ cs.flatMap escapeOf := by
    intro cs
    induction cs with
    | nil => intro front; simp
    | cons c rest ih =>
        intro front
        rw [List.foldl_cons, ih, toList_pushEscaped, List.flatMap_cons, List.append_assoc]
  rw [renderText, String.toList_push, String.foldl_eq_foldl_toList, printed, List.append_assoc, List.append_assoc]
  rfl

/-- **A string is read as it was printed.** -/
theorem outcome_string (text : String) (rest : List Char) :
    outcome (string (text.toList.flatMap escapeOf ++ '"' :: rest)) = .ok (text, rest) := by
  have read : ∀ (cs : List Char) (front : String),
      outcome (stringTail front (cs.flatMap escapeOf ++ '"' :: rest)) = .ok (front ++ String.ofList cs, rest) := by
    intro cs
    induction cs with
    | nil =>
        intro front
        rw [List.flatMap_nil, List.nil_append, outcome_stringTail_quote]
        simp
    | cons c cs ih =>
        intro front
        rw [List.flatMap_cons, List.append_assoc, outcome_stringTail_escapeOf, ih]
        congr 2
        apply String.toList_inj.mp
        simp
  rw [string, read]
  simp

end Workflow.Json
