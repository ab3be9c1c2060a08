import Mathlib.Data.List.Lex

/-!
# `Workflow.Proofs.Text.Order` — the order of texts is that of their bytes

Texts are in the order of their characters.  The encoding keeps it: a character with a greater number begins with a greater
byte, or agrees in its first bytes with the other one and has as many.

## Contents
- `bytes`, the encoding of a text.
- `utf8EncodeChar_lt`, for characters, and `lt_iff_bytes_lt`, for texts.
-/

namespace Workflow.Text

variable {a b : String} {c d : Char}

/-- The bytes that encode a text. -/
def bytes (text : String) : List UInt8 := text.toUTF8.data.toList

theorem bytes_eq (text : String) : bytes text = text.toList.flatMap String.utf8EncodeChar := by
  unfold bytes
  rw [String.toUTF8_eq_toByteArray, ← String.utf8Encode_toList, List.utf8Encode, List.toList_data_toByteArray]

/-- **The encoding of a lesser character is less,** whatever follows either. -/
theorem utf8EncodeChar_lt (less : c < d) (left right : List UInt8) :
    String.utf8EncodeChar c ++ left < String.utf8EncodeChar d ++ right := by
  have less : c.val.toNat < d.val.toNat := less
  have bound : d.val.toNat < 0x110000 := by
    have valid := d.valid
    unfold UInt32.isValidChar Nat.isValidChar at valid
    omega
  -- No byte of an encoding overflows.
  have two : ∀ n : Nat, (n % 0x20 + 0xc0) % 2 ^ 8 = n % 0x20 + 0xc0 := by omega
  have three : ∀ n : Nat, (n % 0x10 + 0xe0) % 2 ^ 8 = n % 0x10 + 0xe0 := by omega
  have four : ∀ n : Nat, (n % 0x08 + 0xf0) % 2 ^ 8 = n % 0x08 + 0xf0 := by omega
  have further : ∀ n : Nat, (n % 0x40 + 0x80) % 2 ^ 8 = n % 0x40 + 0x80 := by omega
  -- The bytes after the first are the digits to the base 64.
  have second : ∀ n : Nat, n / 4096 = n / 64 / 64 := by omega
  have third : ∀ n : Nat, n / 262144 = n / 64 / 64 / 64 := by omega
  unfold String.utf8EncodeChar
  generalize c.val.toNat = m at less ⊢
  generalize d.val.toNat = n at less bound ⊢
  simp only
  split_ifs
  all_goals
    simp only [List.cons_append, List.nil_append, List.cons_lt_cons_iff, UInt8.lt_iff_toNat_lt, ← UInt8.toNat_inj,
      UInt8.toNat_ofNat', two, three, four, further, second, third]
    omega

theorem flatMap_lt {left right : List Char} (less : left < right) :
    left.flatMap String.utf8EncodeChar < right.flatMap String.utf8EncodeChar := by
  induction less with
  | @nil c rest =>
      rw [List.flatMap_nil, List.flatMap_cons]
      cases encoded : String.utf8EncodeChar c with
      | nil => exact absurd encoded String.utf8EncodeChar_ne_nil
      | cons => exact .nil
  | rel less =>
      rw [List.flatMap_cons, List.flatMap_cons]
      exact utf8EncodeChar_lt less _ _
  | cons _ ih =>
      rw [List.flatMap_cons, List.flatMap_cons]
      exact List.Lex.append_left _ ih _

/-- **A text is less than another one if its bytes are.** -/
theorem lt_iff_bytes_lt : a < b ↔ bytes a < bytes b := by
  have kept : ∀ {a b : String}, a < b → bytes a < bytes b := by
    intro a b less
    rw [bytes_eq, bytes_eq]
    exact flatMap_lt less
  refine ⟨kept, fun less => ?_⟩
  -- Texts are in order one way or the other, and so are their bytes then.
  by_cases same : a = b
  · cases same
    exact absurd less (List.lt_irrefl _)
  · by_cases notLess : a < b
    · exact notLess
    · have greater : b < a := Std.lt_of_le_of_ne notLess (Ne.symm same)
      exact absurd (List.lt_trans less (kept greater)) (List.lt_irrefl _)

end Workflow.Text
