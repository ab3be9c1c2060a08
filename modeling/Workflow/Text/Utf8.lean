/-!
# `Workflow.Text.Utf8` — bytes as text

Programs print bytes.  Where they are no UTF-8, a replacement character stands for every longest start of a
character that does not go on as it must, and for every byte that starts none.

## Contents
- `followers?`, what must follow the first byte of a character.
- `decode`, the characters that bytes stand for.
-/

namespace Workflow.Text.Utf8

/-- The first and the last byte of a range. -/
abbrev Range := Nat × Nat

/-- The range of most bytes that do not start a character. -/
def anyFollower : Range := (0x80, 0xBF)

/-- The ranges of the bytes that follow the first byte of a character, and the bits which that byte holds. -/
def followers? (first : Nat) : Option (List Range × Nat) :=
  if first < 0x80 then some ([], first)
  else if 0xC2 ≤ first ∧ first ≤ 0xDF then some ([anyFollower], first - 0xC0)
  else if 0xE0 ≤ first ∧ first ≤ 0xEF then
    let second := if first = 0xE0 then (0xA0, 0xBF) else if first = 0xED then (0x80, 0x9F) else anyFollower
    some ([second, anyFollower], first - 0xE0)
  else if 0xF0 ≤ first ∧ first ≤ 0xF4 then
    let second := if first = 0xF0 then (0x90, 0xBF) else if first = 0xF4 then (0x80, 0x8F) else anyFollower
    some ([second, anyFollower, anyFollower], first - 0xF0)
  else none

/-- Takes the bytes that follow, as long as they are in range: the code of the character if they all are, and
what comes after the bytes taken. -/
def takeFollowers : List Range → Nat → List UInt8 → Option Nat × List UInt8
  | [], code, rest => (some code, rest)
  | _ :: _, _, [] => (none, [])
  | (low, high) :: ranges, code, byte :: rest =>
    if low ≤ byte.toNat ∧ byte.toNat ≤ high then
      takeFollowers ranges (code * 64 + byte.toNat % 64) rest
    else (none, byte :: rest)

theorem length_takeFollowers (ranges : List Range) (code : Nat) (bytes : List UInt8) :
    (takeFollowers ranges code bytes).2.length ≤ bytes.length := by
  fun_induction takeFollowers ranges code bytes with
  | case1 => exact Nat.le_refl _
  | case2 => exact Nat.le_refl _
  | case3 ranges code low high byte rest _ ih => exact Nat.le_succ_of_le ih
  | case4 => exact Nat.le_refl _

/-- What stands for bytes that are no character. -/
def replacement : Char := '\uFFFD'

/-- The characters that bytes stand for. -/
def decode : List UInt8 → List Char
  | [] => []
  | first :: rest =>
    match followers? first.toNat with
    | none => replacement :: decode rest
    | some (ranges, code) =>
      have := length_takeFollowers ranges code rest
      let taken := takeFollowers ranges code rest
      ((taken.1.map Char.ofNat).getD replacement) :: decode taken.2
  termination_by bytes => bytes.length
  decreasing_by
    · exact Nat.lt_succ_self _
    · exact Nat.lt_succ_of_le this

end Workflow.Text.Utf8
