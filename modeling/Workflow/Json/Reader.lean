import Workflow.Json.Number

/-!
# `Workflow.Json.Reader` — reading JSON text

`Json.read` keeps the fields of an object as they are written, in their order and with repetitions;
`Json.parse` gives the canonical value.  At most 127 brackets are open at any place.

## Contents
- `string`, the reader of a string after its opening quote.
- `arrayOf` and `objectOf`, the readers of composite values, from a reader of their parts.
- `value`, which nests them to a depth, and `read`, `parse`.
-/

namespace Workflow.Json

open Text (Taken Rest Reader)

/-! ## Strings -/

/-- The value of a hexadecimal digit. -/
def hexDigit? (c : Char) : Option Nat :=
  if c.isDigit then some (c.toNat - '0'.toNat)
  else if 'a' ≤ c ∧ c ≤ 'f' then some (c.toNat - 'a'.toNat + 10)
  else if 'A' ≤ c ∧ c ≤ 'F' then some (c.toNat - 'A'.toNat + 10)
  else none

/-- The value of four hexadecimal digits. -/
def hexValue? (a b c d : Char) : Option Nat := do
  let a ← hexDigit? a
  let b ← hexDigit? b
  let c ← hexDigit? c
  let d ← hexDigit? d
  return ((a * 16 + b) * 16 + c) * 16 + d

/-- Reads four hexadecimal digits.  When they are wrong, four bytes count as read. -/
def hexEscape : Reader Stop Nat := fun cs =>
  if byteCount cs < 4 then .error (.after .endOfString [])
  else
    match cs with
    | a :: b :: c :: d :: rest =>
      match hexValue? a b c d with
      | some value => .ok ⟨(value, rest), by simp; omega⟩
      | none => .error ⟨.invalidEscape, byteCount cs - 4⟩
    | cs => .error ⟨.invalidEscape, byteCount cs - 4⟩

/-- Reads the second half of a surrogate pair. -/
def trailingSurrogate (lead : Nat) : Reader Stop Char := fun cs =>
  match cs with
  | [] => .error (.after .endOfString [])
  | '\\' :: [] => .error (.after .endOfString [])
  | '\\' :: 'u' :: rest =>
    match hexEscape rest with
    | .error e => .error e
    | .ok ⟨(trail, rest'), h⟩ =>
      if 0xDC00 ≤ trail ∧ trail ≤ 0xDFFF then
        .ok ⟨(Char.ofNat ((lead - 0xD800) * 1024 + (trail - 0xDC00) + 0x10000), rest'), by
          simp at h ⊢; omega⟩
      else .error (.after .loneSurrogate rest')
  | '\\' :: rest => .error (.before .unpairedHexEscape rest)
  | cs => .error (.before .unpairedHexEscape cs)

/-- The character that a backslash and one further character stand for. -/
def shortEscape? : Char → Option Char
  | '"' => some '"'
  | '\\' => some '\\'
  | '/' => some '/'
  | 'b' => some '\x08'
  | 'f' => some '\x0c'
  | 'n' => some '\n'
  | 'r' => some '\r'
  | 't' => some '\t'
  | _ => none

/-- Reads the character that follows a backslash. -/
def escaped : Reader Stop Char := fun cs =>
  match cs with
  | [] => .error (.after .endOfString [])
  | 'u' :: rest =>
    match hexEscape rest with
    | .error e => .error e
    | .ok ⟨(value, rest'), h⟩ =>
      if 0xDC00 ≤ value ∧ value ≤ 0xDFFF then .error (.after .loneSurrogate rest')
      else if 0xD800 ≤ value ∧ value ≤ 0xDBFF then
        (trailingSurrogate value rest').map (Taken.widen (by simp at h ⊢; omega))
      else .ok ⟨(Char.ofNat value, rest'), by simp at h ⊢; omega⟩
  | c :: rest =>
    match shortEscape? c with
    | some d => .ok (.first d)
    | none => .error (.before .invalidEscape (c :: rest))

/-- Reads the rest of a string, after the characters already read. -/
def stringTail (text : String) (cs : List Char) : Except Stop (Taken String cs) :=
  match cs with
  | [] => .error (.after .endOfString [])
  | '"' :: rest => .ok (.first text)
  | '\\' :: rest =>
    match escaped rest with
    | .error e => .error e
    | .ok ⟨(c, rest'), h⟩ =>
      (stringTail (text.push c) rest').map (Taken.widen (by simp at h ⊢; omega))
  | c :: rest =>
    if c.toNat < 32 then .error (.after .controlCharacter rest)
    else (stringTail (text.push c) rest).map (Taken.widen (by simp))
termination_by cs.length
decreasing_by
  · simp at h ⊢; omega
  · simp

/-- Reads a string whose opening quote has been read. -/
def string : Reader Stop String := stringTail ""

/-! ## Composite values -/

/-- Reads the further items of an array, up to its end. -/
def arrayTail (item : Reader Stop Json) (items : List Json) (cs : List Char) :
    Except Stop (Taken (List Json) cs) :=
  match h : skipBlanks cs with
  | [] => .error (.after .endOfArray [])
  | ']' :: rest =>
    .ok ⟨(items.reverse, rest), by have := length_skipBlanks_le cs; simp [h] at this ⊢; omega⟩
  | ',' :: rest =>
    match skipBlanks rest with
    | [] => .error (.after .endOfValue [])
    | ']' :: more => .error (.before .trailingComma (']' :: more))
    | _ =>
      match item rest with
      | .error e => .error e
      | .ok ⟨(value, rest'), h'⟩ =>
        have shorter : rest'.length < cs.length := by
          have := length_skipBlanks_le cs
          simp [h] at this h'
          omega
        (arrayTail item (value :: items) rest').map (Taken.widen (Nat.le_of_lt shorter))
  | cs => .error (.before .expectedArrayEnd cs)
termination_by cs.length

/-- Reads an array whose opening bracket has been read. -/
def arrayOf (item : Reader Stop Json) : Reader Stop Json := fun cs =>
  match h : skipBlanks cs with
  | [] => .error (.after .endOfArray [])
  | ']' :: rest =>
    .ok ⟨(.arr [], rest), by have := length_skipBlanks_le cs; simp [h] at this ⊢; omega⟩
  | _ =>
    match item cs with
    | .error e => .error e
    | .ok ⟨(first, rest), h'⟩ =>
      (arrayTail item [first] rest).map fun taken =>
        (taken.map Json.arr).widen (Nat.le_of_lt h')

/-- Reads a field of an object, from the opening quote of its key. -/
def field (item : Reader Stop Json) : Reader Stop (String × Json) := fun cs =>
  match cs with
  | '"' :: rest =>
    match string rest with
    | .error e => .error e
    | .ok ⟨(key, rest'), hk⟩ =>
      match h : skipBlanks rest' with
      | [] => .error (.after .endOfObject [])
      | ':' :: rest'' =>
        (item rest'').map fun taken => (taken.map (key, ·)).widen (by
          have := length_skipBlanks_le rest'
          simp [h] at this hk ⊢
          omega)
      | cs => .error (.before .expectedColon cs)
  | cs => .error (.before .keyNotText cs)

/-- Reads the further fields of an object, up to its end. -/
def objectTail (item : Reader Stop Json) (fields : List (String × Json)) (cs : List Char) :
    Except Stop (Taken (List (String × Json)) cs) :=
  match h : skipBlanks cs with
  | [] => .error (.after .endOfObject [])
  | '\x7d' :: rest =>
    .ok ⟨(fields.reverse, rest), by have := length_skipBlanks_le cs; simp [h] at this ⊢; omega⟩
  | ',' :: rest =>
    match hk : skipBlanks rest with
    | [] => .error (.after .endOfValue [])
    | '\x7d' :: more => .error (.before .trailingComma ('\x7d' :: more))
    | key =>
      match field item key with
      | .error e => .error e
      | .ok ⟨(entry, rest'), h'⟩ =>
        have shorter : rest'.length < cs.length := by
          have := length_skipBlanks_le cs
          have := length_skipBlanks_le rest
          simp_all
          omega
        (objectTail item (entry :: fields) rest').map (Taken.widen (Nat.le_of_lt shorter))
  | cs => .error (.before .expectedObjectEnd cs)
termination_by cs.length

/-- Reads an object whose opening brace has been read. -/
def objectOf (item : Reader Stop Json) : Reader Stop Json := fun cs =>
  match h : skipBlanks cs with
  | [] => .error (.after .endOfObject [])
  | '\x7d' :: rest =>
    .ok ⟨(.obj [], rest), by have := length_skipBlanks_le cs; simp [h] at this ⊢; omega⟩
  | key =>
    match field item key with
    | .error e => .error e
    | .ok ⟨(first, rest), h'⟩ =>
      (objectTail item [first] rest).map fun taken =>
        (taken.map Json.obj).widen (by have := length_skipBlanks_le cs; simp_all; omega)

/-! ## Values -/

/-- Reads the letters of a word whose first letter has been read. -/
def word (result : Json) (letters : List Char) (cs : List Char) :
    Except Stop (Json × Rest cs) :=
  match letters, cs with
  | [], cs => .ok (result, .all cs)
  | _, [] => .error (.after .endOfValue [])
  | letter :: letters, c :: rest =>
    if c = letter then
      (word result letters rest).map fun r => (r.1, r.2.after)
    else .error (.before .expectedWord (c :: rest))

/-- Reads a value, given how to read arrays and objects from their opening bracket on. -/
def valueWith (array object : Reader Stop Json) : Reader Stop Json := fun cs =>
  let shorter {α : Type} {c : Char} {rest : List Char} (h : skipBlanks cs = c :: rest)
      (taken : Taken α (c :: rest)) : Taken α cs :=
    taken.widen (by have := length_skipBlanks_le cs; simp_all)
  let named {c : Char} {rest : List Char} (h : skipBlanks cs = c :: rest)
      (r : Json × Rest rest) : Taken Json cs :=
    ⟨(r.1, r.2.1), by have := length_skipBlanks_le cs; have := r.2.2; simp_all; omega⟩
  match h : skipBlanks cs with
  | [] => .error (.after .endOfValue [])
  | 'n' :: rest => (word .null ['u', 'l', 'l'] rest).map (named h)
  | 't' :: rest => (word (.bool true) ['r', 'u', 'e'] rest).map (named h)
  | 'f' :: rest => (word (.bool false) ['a', 'l', 's', 'e'] rest).map (named h)
  | '-' :: rest => (number true rest).map fun t => shorter h t.after
  | '"' :: rest => (string rest).map fun t => shorter h (t.map Json.str).after
  | '[' :: rest => (array ('[' :: rest)).map (shorter h)
  | '\x7b' :: rest => (object ('\x7b' :: rest)).map (shorter h)
  | c :: rest =>
    if c.isDigit then (number false (c :: rest)).map (shorter h)
    else .error (.before .expectedValue (c :: rest))

/-- A reader for what follows the first character. -/
def inside (reader : Reader Stop Json) : Reader Stop Json := fun cs =>
  match cs with
  | [] => .error (.after .endOfValue [])
  | _ :: rest => (reader rest).map (Taken.after)

/-- Reads a value in which at most the given number of brackets are open at any place. -/
def value : Nat → Reader Stop Json
  | 0 => valueWith (fun cs => .error (.before .tooDeep cs)) (fun cs => .error (.before .tooDeep cs))
  | depth + 1 => valueWith (inside (arrayOf (value depth))) (inside (objectOf (value depth)))

/-- The greatest number of open brackets. -/
def depthMax : Nat := 127

/-- Reads the value with which a text begins, and gives the rest of the text. -/
def readFirst (text : String) : Except ReadError (Json × List Char) :=
  let cs := text.toList
  match value depthMax cs with
  | .error stop => .error (stop.toError cs)
  | .ok ⟨taken, _⟩ => .ok taken

/-- Checks that nothing but blanks follows the value of a text. -/
def checkEnd (text : String) (rest : List Char) : Except ReadError Unit :=
  match skipBlanks rest with
  | [] => .ok ()
  | rest => .error ((Stop.before .trailingCharacters rest).toError text.toList)

/-- Reads a text that holds one value, keeping the fields of objects as they are written. -/
def read (text : String) : Except ReadError Json := do
  let (result, rest) ← readFirst text
  checkEnd text rest
  return result

/-- The value that a text holds, with the fields of objects in order and the last of each repeated
field. -/
def parse (text : String) : Except ReadError Json := (read text).map canonical

end Workflow.Json
