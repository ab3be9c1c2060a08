import Workflow.Proofs.Json.Reader
import Workflow.Proofs.Json.Strings

/-!
# `Workflow.Proofs.Json.RoundTrip` — values are read as they were printed

What is printed for a value is read as the value again, whatever comes after it in the text, provided that its brackets are
not too deep and that its numbers are kept.

## Contents
- **Numbers.** `outcome_valueWith_number` and `outcome_valueWith_int`.
- **Values.** `ReadAt`, with `readAt_leaf`, `readAt_arr` and `readAt_obj`.
- **Texts.** `readFirst_render` and `parse_rendered`.
-/

namespace Workflow.Json

open Text

variable {array object : Reader Stop Json} {cs rest more tail : List Char} {c : Char} {value : Json} {depth : Nat}

/-! ## Numbers -/

theorem isBlank_of_isDigit (h : c.isDigit = true) : isBlank c = false := by
  simp only [isBlank, Bool.or_eq_false_iff, decide_eq_false_iff_not]
  refine ⟨⟨⟨?_, ?_⟩, ?_⟩, ?_⟩ <;> rintro rfl <;> exact absurd h (by decide)

theorem token_digit (h : c.isDigit = true) : token array object (c :: cs) = outcome (number false (c :: cs)) := by
  rw [token, if_pos h]
  all_goals rintro rfl; exact absurd h (by decide)

theorem outcome_valueWith_digit (h : c.isDigit = true) :
    outcome (valueWith array object (c :: cs)) = outcome (number false (c :: cs)) := by
  rw [outcome_valueWith, skipBlanks_cons (isBlank_of_isDigit h), token_digit h]

/-- The number of a whole text is read in front of whatever does not go on with it. -/
theorem outcome_valueWith_number {number : Json} (h : ofNumber? cs = some number) (ends : EndsNumber tail) :
    outcome (valueWith array object (cs ++ tail)) = .ok (number, tail) := by
  unfold ofNumber? at h
  split at h
  · dsimp only at h
    split at h
    · rename_i hread
      cases h
      have read : outcome (Json.number true _) = .ok (number, []) := congrArg outcome hread
      rw [List.cons_append, outcome_valueWith, skipBlanks_cons (by decide), token]
      exact number_append ends read
    · cases h
  · dsimp only at h
    split at h
    · rename_i hread
      cases h
      have read : outcome (Json.number false _) = .ok (number, []) := congrArg outcome hread
      cases cs with
      | nil => cases read
      | cons c more =>
        -- Without a sign, what is read as a number begins with a digit.
        have digit : c.isDigit = true := by
          cases hdigit : c.isDigit with
          | true => rfl
          | false =>
              simp only [Json.number, hdigit] at read
              cases read
        rw [List.cons_append, outcome_valueWith_digit digit]
        exact number_append ends read
    · cases h

theorem outcome_valueWith_int {n : Int} (sound : (Json.int n).Sound) (ends : EndsNumber tail) :
    outcome (valueWith array object ((render (.int n)).toList ++ tail)) = .ok (.int n, tail) :=
  outcome_valueWith_number (ofNumber?_toString sound) ends

/-! ## Values -/

theorem value_eq (depth : Nat) : ∃ array object, Json.value depth = valueWith array object := by
  cases depth <;> exact ⟨_, _, rfl⟩

/-- A value that is read begins, and not with the end of an array. -/
theorem begins_of_value {r : Json × List Char} (h : outcome (Json.value depth cs) = .ok r) :
    ∃ c more, skipBlanks cs = c :: more ∧ c ≠ ']' := by
  obtain ⟨array, object, e⟩ := value_eq depth
  rw [e, outcome_valueWith] at h
  cases hcs : skipBlanks cs with
  | nil =>
      rw [hcs] at h
      cases h
  | cons c more =>
      refine ⟨c, more, rfl, ?_⟩
      rintro rfl
      rw [hcs] at h
      cases h

/-- The value is read from what is printed for it, at a depth, whatever comes after. -/
def ReadAt (depth : Nat) (value : Json) : Prop :=
  ∀ tail, EndsNumber tail → outcome (Json.value depth ((render value).toList ++ tail)) = .ok (value, tail)

theorem endsNumber_cons (h : c.isDigit = false ∧ c ≠ '.' ∧ c ≠ 'e' ∧ c ≠ 'E') (rest : List Char) :
    EndsNumber (c :: rest) := h

theorem readAt_leaf (depth : Nat) {leaf : Json} (bare : leaf.depth = 0) (kept : Kept leaf) : ReadAt depth leaf := by
  intro tail ends
  obtain ⟨array, object, e⟩ := value_eq depth
  rw [e]
  cases leaf with
  | null => rfl
  | bool flag => cases flag <;> rfl
  | int n => exact outcome_valueWith_int kept.1 ends
  | float x =>
      obtain ⟨number, hnumber, same⟩ := Option.bind_eq_some_iff.mp kept.2
      obtain rfl : number = .float x := float?_eq_some.mp same
      exact outcome_valueWith_number hnumber ends
  | str text =>
      rw [render, toList_renderText, outcome_valueWith, skipBlanks_cons (by decide), token, outcome_string]
      rfl
  | arr items => exact absurd bare (Nat.succ_ne_zero _)
  | obj fields => exact absurd bare (Nat.succ_ne_zero _)

theorem endsNumber_renderItems (items : List Json) (tail : List Char) :
    EndsNumber ((renderItems items).toList ++ ']' :: tail) := by
  cases items with
  | nil => exact endsNumber_cons (by decide) tail
  | cons item rest =>
      simp only [renderItems, String.toList_append]
      exact endsNumber_cons (by decide) _

theorem outcome_arrayTail_renderItems {items : List Json} (reads : ∀ item ∈ items, ReadAt depth item)
    (front : List Json) (tail : List Char) :
    outcome (arrayTail (Json.value depth) front ((renderItems items).toList ++ ']' :: tail)) =
      .ok (front.reverse ++ items, tail) := by
  induction items generalizing front with
  | nil =>
      rw [List.append_nil]
      exact outcome_arrayTail_close (skipBlanks_cons (by decide) tail) front
  | cons item rest ih =>
      have read := reads item List.mem_cons_self _ (endsNumber_renderItems rest tail)
      obtain ⟨c, more, begins, further⟩ := begins_of_value read
      have text : (renderItems (item :: rest)).toList ++ ']' :: tail =
          ',' :: ((render item).toList ++ ((renderItems rest).toList ++ ']' :: tail)) := by
        simp [renderItems]
      rw [text, outcome_arrayTail_comma (skipBlanks_cons (by decide) _) begins further read,
        ih (fun other inside => reads other (List.mem_cons_of_mem _ inside))]
      simp

theorem readAt_arr {items : List Json} (reads : ∀ item ∈ items, ReadAt depth item) :
    ReadAt (depth + 1) (.arr items) := by
  intro tail _
  rw [Json.value, outcome_valueWith]
  cases items with
  | nil =>
      have text : (render (.arr [])).toList ++ tail = '[' :: ']' :: tail := rfl
      rw [text, skipBlanks_cons (by decide), token, inside, outcome_map_after]
      exact outcome_arrayOf_close (skipBlanks_cons (by decide) tail)
  | cons item rest =>
      have read := reads item List.mem_cons_self _ (endsNumber_renderItems rest tail)
      obtain ⟨c, more, begins, some⟩ := begins_of_value read
      have text : (render (.arr (item :: rest))).toList ++ tail =
          '[' :: ((render item).toList ++ ((renderItems rest).toList ++ ']' :: tail)) := by
        simp [render]
      rw [text, skipBlanks_cons (by decide), token, inside, outcome_map_after]
      exact outcome_arrayOf_item begins some read
        (outcome_arrayTail_renderItems (fun other inside => reads other (List.mem_cons_of_mem _ inside)) [item] tail)

theorem endsNumber_renderFields (fields : List (String × Json)) (tail : List Char) :
    EndsNumber ((renderFields fields).toList ++ '\x7d' :: tail) := by
  cases fields with
  | nil => exact endsNumber_cons (by decide) tail
  | cons entry rest =>
      simp only [renderFields, String.toList_append]
      exact endsNumber_cons (by decide) _

theorem outcome_field_render (key : String) {value : Json} (reads : ReadAt depth value) (ends : EndsNumber tail) :
    outcome (field (Json.value depth) ((renderText key).toList ++ ':' :: ((render value).toList ++ tail))) =
      .ok ((key, value), tail) := by
  rw [toList_renderText]
  exact outcome_field (outcome_string key _) (skipBlanks_cons (by decide) _) (reads tail ends)

theorem outcome_objectTail_renderFields {fields : List (String × Json)}
    (reads : ∀ entry ∈ fields, ReadAt depth entry.2) (front : List (String × Json)) (tail : List Char) :
    outcome (objectTail (Json.value depth) front ((renderFields fields).toList ++ '\x7d' :: tail)) =
      .ok (front.reverse ++ fields, tail) := by
  induction fields generalizing front with
  | nil =>
      rw [List.append_nil]
      exact outcome_objectTail_close (skipBlanks_cons (by decide) tail) front
  | cons entry rest ih =>
      obtain ⟨key, value⟩ := entry
      have read := outcome_field_render key (reads _ List.mem_cons_self) (endsNumber_renderFields rest tail)
      have text : (renderFields ((key, value) :: rest)).toList ++ '\x7d' :: tail =
          ',' :: ((renderText key).toList ++
            ':' :: ((render value).toList ++ ((renderFields rest).toList ++ '\x7d' :: tail))) := by
        simp [renderFields]
      rw [toList_renderText] at text read
      rw [text, outcome_objectTail_comma (skipBlanks_cons (by decide) _) (skipBlanks_cons (by decide) _) read,
        ih (fun other inside => reads other (List.mem_cons_of_mem _ inside))]
      simp

theorem readAt_obj {fields : List (String × Json)} (reads : ∀ entry ∈ fields, ReadAt depth entry.2) :
    ReadAt (depth + 1) (.obj fields) := by
  intro tail _
  rw [Json.value, outcome_valueWith]
  cases fields with
  | nil =>
      have text : (render (.obj [])).toList ++ tail = '\x7b' :: '\x7d' :: tail := rfl
      rw [text, skipBlanks_cons (by decide), token, inside, outcome_map_after]
      exact outcome_objectOf_close (skipBlanks_cons (by decide) tail)
  | cons entry rest =>
      obtain ⟨key, value⟩ := entry
      -- The first entry is read here, the others behind a comma each.
      have read := outcome_field_render key (reads _ List.mem_cons_self) (endsNumber_renderFields rest tail)
      have text : (render (.obj ((key, value) :: rest))).toList ++ tail =
          '\x7b' :: ((renderText key).toList ++
            ':' :: ((render value).toList ++ ((renderFields rest).toList ++ '\x7d' :: tail))) := by
        simp [render]
      rw [toList_renderText] at text read
      rw [text, skipBlanks_cons (by decide), token, inside, outcome_map_after]
      exact outcome_objectOf_field (skipBlanks_cons (by decide) _) read
        (outcome_objectTail_renderFields (fun other inside => reads other (List.mem_cons_of_mem _ inside)) _ tail)

/-- **Text keeps a value** whose numbers it keeps and whose brackets are not too deep. -/
theorem readAt_of_kept (value : Json) (deep : value.depth ≤ depth) (kept : value.Leaves Kept) :
    ReadAt depth value := by
  induction depth generalizing value with
  | zero =>
      cases value with
      | arr items => exact absurd deep (Nat.not_succ_le_zero _)
      | obj fields => exact absurd deep (Nat.not_succ_le_zero _)
      | _ => exact readAt_leaf 0 rfl kept
  | succ depth ih =>
      cases value with
      | arr items =>
          exact readAt_arr fun item inside =>
            ih item (depth_arr_le.mp deep item inside) (leaves_arr.mp kept item inside)
      | obj fields =>
          exact readAt_obj fun entry inside =>
            ih entry.2 (depth_obj_le.mp deep entry inside) (leaves_obj.mp kept entry inside)
      | _ => exact readAt_leaf _ rfl kept

/-! ## Texts -/

/-- **A text that holds a value printed is read as the value.** -/
theorem readFirst_render (value : Json) (deep : value.depth ≤ depthMax) (kept : value.Leaves Kept) :
    readFirst (render value) = .ok (value, []) := by
  have read := readAt_of_kept value deep kept [] trivial
  rw [List.append_nil] at read
  simp only [readFirst]
  cases h : Json.value depthMax (render value).toList with
  | error e =>
      rw [h] at read
      cases read
  | ok taken =>
      rw [h] at read
      exact congrArg Except.ok (Except.ok.inj read)

/-- What is printed for a value holds the value and nothing else. -/
theorem parse_rendered (value : Json) (deep : value.depth ≤ depthMax) (kept : value.Leaves Kept) :
    parse (render value) = .ok value.canonical := by
  rw [parse, read, readFirst_render value deep kept]
  rfl

end Workflow.Json
