import Workflow.Proofs.Json.Number

/-!
# `Workflow.Proofs.Json.Reader` — how values are read

A value is read by its first character, an array or object part by part.  Each step is described by what it took and left.
What is read keeps to the bounds of the reader: no more brackets are open than allowed, and every number is sound.

## Contents
- **Tokens.** `token`, what a first character leads to, and `outcome_valueWith`.
- **Arrays.** The steps `outcome_arrayOf_close`, `outcome_arrayOf_item`, `outcome_arrayTail_close` and
  `outcome_arrayTail_comma`.
- **Objects.** The steps `outcome_field`, `outcome_objectOf_close`, `outcome_objectOf_field`, `outcome_objectTail_close` and
  `outcome_objectTail_comma`.
- **Bounds.** `Reads`, what holds of all that a reader reads, with `reads_value` and `bounds_of_readFirst`.
-/

namespace Workflow.Json

open Text

variable {item array object : Reader Stop Json} {cs rest more rest' rest'' : List Char} {c : Char} {value : Json}
  {P : Json → Prop}

/-! ## Tokens -/

theorem skipBlanks_cons {c : Char} (h : isBlank c = false) (rest : List Char) : skipBlanks (c :: rest) = c :: rest := by
  rw [skipBlanks, List.dropWhile_cons, if_neg (by rw [h]; decide)]

/-- Reads a value whose first character comes first in the text. -/
def token (array object : Reader Stop Json) : List Char → Except Stop (Json × List Char)
  | [] => .error (.after .endOfValue [])
  | 'n' :: rest => remainder (word .null ['u', 'l', 'l'] rest)
  | 't' :: rest => remainder (word (.bool true) ['r', 'u', 'e'] rest)
  | 'f' :: rest => remainder (word (.bool false) ['a', 'l', 's', 'e'] rest)
  | '-' :: rest => outcome (number true rest)
  | '"' :: rest => (outcome (string rest)).map (Prod.map .str id)
  | '[' :: rest => outcome (array ('[' :: rest))
  | '\x7b' :: rest => outcome (object ('\x7b' :: rest))
  | c :: rest =>
    if c.isDigit then outcome (number false (c :: rest)) else .error (.before .expectedValue (c :: rest))

theorem outcome_valueWith (cs : List Char) :
    outcome (valueWith array object cs) = token array object (skipBlanks cs) := by
  unfold valueWith
  split
  case h_1 first => simp only [first]; rfl
  case h_2 rest first => simp only [first, token]; cases word .null ['u', 'l', 'l'] rest <;> rfl
  case h_3 rest first => simp only [first, token]; cases word (.bool true) ['r', 'u', 'e'] rest <;> rfl
  case h_4 rest first => simp only [first, token]; cases word (.bool false) ['a', 'l', 's', 'e'] rest <;> rfl
  case h_5 rest first => simp only [first, token]; cases number true rest <;> rfl
  case h_6 rest first => simp only [first, token]; cases string rest <;> rfl
  case h_7 rest first => simp only [first, token]; cases array ('[' :: rest) <;> rfl
  case h_8 rest first => simp only [first, token]; cases object ('\x7b' :: rest) <;> rfl
  case h_9 c rest n t f minus quote bracket brace first =>
    simp only [first]
    rw [token]
    · split
      · cases number false (c :: rest) <;> rfl
      · rfl
    all_goals assumption

/-! ## Arrays -/

theorem outcome_arrayTail_close (token : skipBlanks cs = ']' :: rest) (items : List Json) :
    outcome (arrayTail item items cs) = .ok (items.reverse, rest) := by
  rw [arrayTail]
  split
  case h_1 other => cases token.symm.trans other
  case h_2 other =>
    cases token.symm.trans other
    rfl
  case h_3 other => cases token.symm.trans other
  case h_4 other _ => exact (other rest token).elim

theorem outcome_arrayTail_comma (token : skipBlanks cs = ',' :: rest)
    (begins : skipBlanks rest = c :: more) (further : c ≠ ']') (read : outcome (item rest) = .ok (value, rest'))
    (items : List Json) : outcome (arrayTail item items cs) = outcome (arrayTail item (value :: items) rest') := by
  rw [arrayTail]
  split
  case h_1 other => cases token.symm.trans other
  case h_2 other => cases token.symm.trans other
  case h_3 other =>
    cases token.symm.trans other
    split
    case h_1 other => cases begins.symm.trans other
    case h_2 other =>
      cases begins.symm.trans other
      contradiction
    case h_3 =>
      split
      case h_1 e other =>
        rw [other] at read
        cases read
      case h_2 other =>
        rw [other] at read
        cases read
        exact outcome_map_widen _ _
  case h_4 other => exact (other rest token).elim

theorem outcome_arrayOf_close (token : skipBlanks cs = ']' :: rest) :
    outcome (arrayOf item cs) = .ok (.arr [], rest) := by
  unfold arrayOf
  split
  case h_1 other => cases token.symm.trans other
  case h_2 other =>
    cases token.symm.trans other
    rfl
  case h_3 other => exact (other rest token).elim

theorem outcome_arrayOf_item {items : List Json} (begins : skipBlanks cs = c :: more) (some : c ≠ ']')
    (read : outcome (item cs) = .ok (value, rest'))
    (tail : outcome (arrayTail item [value] rest') = .ok (items, rest'')) :
    outcome (arrayOf item cs) = .ok (.arr items, rest'') := by
  unfold arrayOf
  split
  case h_1 other => cases begins.symm.trans other
  case h_2 other =>
    cases begins.symm.trans other
    contradiction
  case h_3 =>
    split
    case h_1 other =>
      rw [other] at read
      cases read
    case h_2 other =>
      rw [other] at read
      cases read
      rw [outcome_map]
      rw [tail]
      rfl

/-! ## Objects -/

theorem outcome_field {key : String} (named : outcome (string rest) = .ok (key, rest'))
    (colon : skipBlanks rest' = ':' :: rest'') (read : outcome (item rest'') = .ok (value, more)) :
    outcome (field item ('"' :: rest)) = .ok ((key, value), more) := by
  rw [field]
  split
  case h_1 other =>
    rw [other] at named
    cases named
  case h_2 other =>
    rw [other] at named
    cases named
    split
    case h_1 other => cases colon.symm.trans other
    case h_2 other =>
      cases colon.symm.trans other
      rw [outcome_map, read]
      rfl
    case h_3 other => exact (other _ colon).elim

theorem outcome_objectTail_close (token : skipBlanks cs = '\x7d' :: rest) (fields : List (String × Json)) :
    outcome (objectTail item fields cs) = .ok (fields.reverse, rest) := by
  rw [objectTail]
  split
  case h_1 other => cases token.symm.trans other
  case h_2 other =>
    cases token.symm.trans other
    rfl
  case h_3 other => cases token.symm.trans other
  case h_4 other _ => exact (other rest token).elim

theorem outcome_objectTail_comma {entry : String × Json} (token : skipBlanks cs = ',' :: rest)
    (begins : skipBlanks rest = '"' :: more) (read : outcome (field item ('"' :: more)) = .ok (entry, rest'))
    (fields : List (String × Json)) :
    outcome (objectTail item fields cs) = outcome (objectTail item (entry :: fields) rest') := by
  rw [objectTail]
  split
  case h_1 other => cases token.symm.trans other
  case h_2 other => cases token.symm.trans other
  case h_3 other =>
    cases token.symm.trans other
    split
    case h_1 other => cases begins.symm.trans other
    case h_2 other => cases begins.symm.trans other
    case h_3 =>
      rw [← begins] at read
      split
      case h_1 other =>
        rw [other] at read
        cases read
      case h_2 other =>
        rw [other] at read
        cases read
        exact outcome_map_widen _ _
  case h_4 other => exact (other rest token).elim

theorem outcome_objectOf_close (token : skipBlanks cs = '\x7d' :: rest) :
    outcome (objectOf item cs) = .ok (.obj [], rest) := by
  unfold objectOf
  split
  case h_1 other => cases token.symm.trans other
  case h_2 other =>
    cases token.symm.trans other
    rfl
  case h_3 other => exact (other rest token).elim

theorem outcome_objectOf_field {entry : String × Json} {fields : List (String × Json)}
    (begins : skipBlanks cs = '"' :: more) (read : outcome (field item ('"' :: more)) = .ok (entry, rest'))
    (tail : outcome (objectTail item [entry] rest') = .ok (fields, rest'')) :
    outcome (objectOf item cs) = .ok (.obj fields, rest'') := by
  unfold objectOf
  split
  case h_1 other => cases begins.symm.trans other
  case h_2 other => cases begins.symm.trans other
  case h_3 =>
    rw [← begins] at read
    split
    case h_1 other =>
      rw [other] at read
      cases read
    case h_2 other =>
      rw [other] at read
      cases read
      rw [outcome_map, tail]
      rfl

/-! ## Bounds -/

/-- What the reader reads has a property. -/
def Reads {α : Type} (reader : Reader Stop α) (P : α → Prop) : Prop :=
  ∀ cs r, outcome (reader cs) = .ok r → P r.1

theorem reads_word (result : Json) (letters cs : List Char) {r : Json × List Char}
    (h : remainder (word result letters cs) = .ok r) : r.1 = result := by
  induction letters generalizing cs with
  | nil =>
      rw [word] at h
      cases h
      rfl
  | cons letter letters ih =>
      cases cs with
      | nil =>
        rw [word] at h
        cases h
        intro e; cases e
      | cons c rest =>
          rw [word] at h
          split at h
          · rw [remainder_map_after] at h
            exact ih rest h
          · cases h

theorem reads_arrayTail {front : List Json} (hitem : Reads item P) (hfront : ∀ j ∈ front, P j) :
    Reads (arrayTail item front) fun items => ∀ j ∈ items, P j := by
  intro cs
  fun_induction arrayTail item front cs with
  | case2 front cs rest token =>
      intro r h
      cases h
      exact fun j hj => hfront j (List.mem_reverse.mp hj)
  | case6 front cs rest token value rest' shorter hread shorter' notEnd notClosed ih =>
      intro r h
      rw [outcome_map_widen] at h
      have held : P value := hitem rest (value, rest') (by rw [hread]; rfl)
      exact ih (List.forall_mem_cons.mpr ⟨held, hfront⟩) r h
  | _ =>
      intro r h
      cases h

theorem reads_arrayOf (hitem : Reads item P) :
    Reads (arrayOf item) fun value => ∃ items, value = .arr items ∧ ∀ j ∈ items, P j := by
  intro cs r h
  unfold arrayOf at h
  split at h
  · cases h
  · cases h
    exact ⟨[], rfl, fun j hj => absurd hj List.not_mem_nil⟩
  · split at h
    · cases h
    · rename_i first rest shorter hread
      rw [outcome_map] at h
      obtain ⟨tail, htail, e⟩ := DataFlow.map_eq_ok.mp h
      cases e
      refine ⟨tail.1, rfl, reads_arrayTail hitem (fun j hj => ?_) _ _ htail⟩
      cases List.mem_singleton.mp hj
      exact hitem cs (first, rest) (by rw [hread]; rfl)

theorem reads_field (hitem : Reads item P) : Reads (field item) fun entry => P entry.2 := by
  intro cs r h
  unfold field at h
  split at h
  · split at h
    · cases h
    · split at h
      · cases h
      · rename_i rest _
        rw [outcome_map] at h
        obtain ⟨taken, htaken, e⟩ := DataFlow.map_eq_ok.mp h
        cases e
        exact hitem _ _ htaken
      · cases h
  · cases h

theorem reads_objectTail {front : List (String × Json)} (hitem : Reads item P) (hfront : ∀ e ∈ front, P e.2) :
    Reads (objectTail item front) fun fields => ∀ e ∈ fields, P e.2 := by
  intro cs
  fun_induction objectTail item front cs with
  | case2 front cs rest token =>
      intro r h
      cases h
      exact fun e he => hfront e (List.mem_reverse.mp he)
  | case6 front cs rest token entry rest' notEnd notClosed shorter hread shorter' ih =>
      intro r h
      rw [outcome_map_widen] at h
      have held : P entry.2 := reads_field hitem _ (entry, rest') (by rw [hread]; rfl)
      exact ih (List.forall_mem_cons.mpr ⟨held, hfront⟩) r h
  | _ =>
      intro r h
      cases h

theorem reads_objectOf (hitem : Reads item P) :
    Reads (objectOf item) fun value => ∃ fields, value = .obj fields ∧ ∀ e ∈ fields, P e.2 := by
  intro cs r h
  unfold objectOf at h
  split at h
  · cases h
  · cases h
    exact ⟨[], rfl, fun e he => absurd he List.not_mem_nil⟩
  · split at h
    · cases h
    · rename_i first rest shorter hread
      rw [outcome_map] at h
      obtain ⟨tail, htail, e⟩ := DataFlow.map_eq_ok.mp h
      cases e
      refine ⟨tail.1, rfl, reads_objectTail hitem (fun e he => ?_) _ _ htail⟩
      cases List.mem_singleton.mp he
      exact reads_field hitem _ (first, rest) (by rw [hread]; rfl)

theorem reads_valueWith (hnull : P .null) (hbool : ∀ flag, P (.bool flag)) (hnumber : ∀ v, IsNumber v → P v)
    (htext : ∀ text, P (.str text)) (harray : Reads array P) (hobject : Reads object P) :
    Reads (valueWith array object) P := by
  intro cs r h
  rw [outcome_valueWith] at h
  unfold token at h
  split at h
  · cases h
  · rw [reads_word _ _ _ h]
    exact hnull
  · rw [reads_word _ _ _ h]
    exact hbool true
  · rw [reads_word _ _ _ h]
    exact hbool false
  · exact hnumber _ (isNumber_number h)
  · obtain ⟨text, -, e⟩ := DataFlow.map_eq_ok.mp h
    cases e
    exact htext _
  · exact harray _ _ h
  · exact hobject _ _ h
  · split at h
    · exact hnumber _ (isNumber_number h)
    · cases h

theorem reads_inside {reader : Reader Stop Json} (h : Reads reader P) : Reads (inside reader) P := by
  intro cs r hr
  cases cs with
  | nil => cases hr
  | cons c rest =>
      rw [inside, outcome_map_after] at hr
      exact h _ _ hr

/-- **What is read is not deeper than allowed, and its numbers are sound.** -/
theorem reads_value (depth : Nat) :
    Reads (Json.value depth) fun value => value.depth ≤ depth ∧ value.Leaves Sound := by
  have numbers : ∀ depth value, IsNumber value → value.depth ≤ depth ∧ value.Leaves Sound := by
    rintro depth value ⟨sound, ⟨n, rfl⟩ | ⟨x, rfl⟩⟩
    · exact ⟨Nat.zero_le _, sound⟩
    · exact ⟨Nat.zero_le _, sound⟩
  induction depth with
  | zero =>
      refine reads_valueWith ⟨Nat.le_refl _, trivial⟩ (fun _ => ⟨Nat.le_refl _, trivial⟩) (numbers 0)
        (fun _ => ⟨Nat.le_refl _, trivial⟩) ?_ ?_ <;> exact fun cs r h => nomatch h
  | succ depth ih =>
      refine reads_valueWith ⟨Nat.zero_le _, trivial⟩ (fun _ => ⟨Nat.zero_le _, trivial⟩) (numbers _)
        (fun _ => ⟨Nat.zero_le _, trivial⟩) (reads_inside fun cs r h => ?_) (reads_inside fun cs r h => ?_)
      · obtain ⟨items, e, each⟩ := reads_arrayOf ih cs r h
        rw [e]
        exact ⟨depth_arr_le.mpr fun j hj => (each j hj).1, leaves_arr.mpr fun j hj => (each j hj).2⟩
      · obtain ⟨fields, e, each⟩ := reads_objectOf ih cs r h
        rw [e]
        exact ⟨depth_obj_le.mpr fun j hj => (each j hj).1, leaves_obj.mpr fun j hj => (each j hj).2⟩

/-- What a text begins with keeps to the bounds of the reader. -/
theorem bounds_of_readFirst {text : String} (h : readFirst text = .ok (value, rest)) :
    value.depth ≤ depthMax ∧ value.Leaves Sound := by
  simp only [readFirst] at h
  cases hread : Json.value depthMax text.toList with
  | error stop =>
      rw [hread] at h
      cases h
  | ok taken =>
      rw [hread] at h
      refine reads_value depthMax text.toList (value, rest) ?_
      rw [hread]
      exact congrArg Except.ok (Except.ok.inj h)

end Workflow.Json
