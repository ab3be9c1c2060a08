import Workflow.Proofs.DataFlow
import Workflow.Proofs.Json.Fields
import Workflow.Path.Inject

/-!
# `Workflow.Proofs.Path.Step` — writing one step deep

To write through a path is to write one step deep at each level of the document.  One such write is that of a map: what
was written is found again, what lies elsewhere is not touched, and two writes in different places can be swapped.  A
document that does not suit the step is refused; a null suits every step, since it becomes the container that is needed.
Where nothing lies at an index for one more than which there is no word, the machine traps, however it forms sums.

## Contents
- **Items.** `padded`, with `grown_of_within` and `grown_of_exceeds`: how items are made to reach up to an index.
- **One level.** `Accepts`, `Exceeds`, `Fits`, `held` and `put`, with `write_of_fits`, `write_of_exceeds` and
  `write_of_not_accepts`: writing through a path is a write one step deep of what the rest of the path makes of the value
  that lies there.
- **The same step twice.** `fits_put`, `child?_put`, `put_put` and `put_child`.
- **Two steps apart.** `child?_put_of_ne`, `held_put_of_ne`, `exceeds_put_iff`, `accepts_put_iff` and `put_comm`.
-/

namespace Workflow.Path

variable {counting : Counting} {step other : Step} {rest : List Step} {document after value child child' : Json}
  {items : List Json} {position : Nat}

/-! ## Items -/

/-- The items with an index within them: nulls are added as needed. -/
def padded (items : List Json) (position : Nat) : List Json :=
  items ++ List.replicate (position + 1 - items.length) .null

theorem length_padded (items : List Json) (position : Nat) :
    (padded items position).length = max items.length (position + 1) := by
  rw [padded, List.length_append, List.length_replicate]
  omega

/-- There is an item to be replaced in an array that was padded for it. -/
theorem lt_length_padded (items : List Json) (position : Nat) : position < (padded items position).length := by
  rw [length_padded]
  omega

/-- What an array holds after it was padded it has held before, or it is null. -/
theorem getElem?_padded (items : List Json) (position other : Nat) :
    (padded items position)[other]? = items[other]? ∨
      (items[other]? = none ∧ (padded items position)[other]? = some .null) := by
  by_cases inside : other < items.length
  · exact Or.inl (List.getElem?_append_left inside)
  · have outside : items.length ≤ other := Nat.le_of_not_lt inside
    rw [padded, List.getElem?_append_right outside, List.getElem?_eq_none outside, List.getElem?_replicate]
    split
    · exact Or.inr ⟨rfl, rfl⟩
    · exact Or.inl rfl

/-- What lies at the index that an array was padded for has lain there before, or it is null. -/
theorem getElem?_padded_self (items : List Json) (position : Nat) :
    (padded items position)[position]? = some (items[position]?.getD .null) := by
  rcases getElem?_padded items position position with same | ⟨none, null⟩
  · rw [← same, List.getElem?_eq_getElem (lt_length_padded items position), Option.getD_some]
  · rw [none, null, Option.getD_none]

/-- An array that reaches far enough is not padded. -/
theorem padded_of_lt {items : List Json} {position : Nat} (inside : position < items.length) :
    padded items position = items := by
  have enough : position + 1 - items.length = 0 := by omega
  rw [padded, enough, List.replicate_zero, List.append_nil]

/-- **Two items can be written in either order,** however far the array has to be padded for each. -/
theorem set_padded_comm {position other : Nat} (apart : position ≠ other) (items : List Json) (child child' : Json) :
    (padded ((padded items position).set position child) other).set other child' =
      (padded ((padded items other).set other child') position).set position child := by
  refine List.ext_getElem? fun index => ?_
  simp only [padded, List.length_set, List.length_append, List.length_replicate, List.getElem?_set,
    List.getElem?_append, List.getElem?_replicate]
  grind

/-- Items are made to reach up to every index for which the sum is a word, or at which there is one already. -/
theorem grown_of_within (within : position + 1 < UInt64.size ∨ position < items.length) :
    counting.grown items position = .ok (padded items position) := by
  rw [Counting.grown]
  split
  · rename_i short
    have word : position + 1 < UInt64.size := within.resolve_right (Nat.not_lt.mpr short)
    have next : counting.next position = .ok (position + 1) := by
      cases counting with
      | checked => exact if_pos word
      | wrapping => exact congrArg _ (Nat.mod_eq_of_lt word)
    -- To resize a short array cuts nothing off.
    rw [next, Except.map, resized, List.take_of_length_le (Nat.le_succ_of_le short), padded]
  · rename_i long
    rw [padded_of_lt (Nat.lt_of_not_le long)]

/-- Where the sum is no word and there is no item yet, the sum traps; or it is less than it should be, and no item is
    added at the index. -/
theorem grown_of_exceeds (beyond : UInt64.size ≤ position + 1) (short : items.length ≤ position) :
    Counting.checked.grown items position = .error (.trapped .overflow) ∧
      ∃ cut, Counting.wrapping.grown items position = .ok cut ∧ cut[position]? = none := by
  rw [Counting.grown, Counting.grown, if_pos short, if_pos short]
  refine ⟨by rw [Counting.next, if_neg (Nat.not_lt.mpr beyond)]; rfl, _, rfl, ?_⟩
  have less : (position + 1) % UInt64.size < UInt64.size := Nat.mod_lt _ (by decide)
  rw [List.getElem?_eq_none_iff, resized, List.length_append, List.length_take, List.length_replicate]
  omega

/-! ## One level -/

/-- A step can be written to in a container of its kind, and in a null. -/
def Accepts : Step → Json → Prop
  | .field _, .null | .field _, .obj _ => True
  | .index _, .null | .index _, .arr _ => True
  | _, _ => False

/-- Nothing lies at an index for one more than which there is no word. -/
def Exceeds : Step → Json → Prop
  | .index position, document => UInt64.size ≤ position + 1 ∧ child? (.index position) document = none
  | _, _ => False

/-- A value can be written one step deep. -/
def Fits (step : Step) (document : Json) : Prop := Accepts step document ∧ ¬ Exceeds step document

/-- What a step says to a document that it cannot be written to in. -/
def Step.refusal : Step → Refusal
  | .field name => .fieldOfNonObject name
  | .index position => .indexOfNonArray position
  | .wildcard => .wildcardStep

/-- How the machine traps where a step exceeds all words. -/
def Counting.trap : Counting → Trap
  | .checked => .overflow
  | .wrapping => .outOfBounds

/-- What lies one step deep, or null where nothing does. -/
def held (step : Step) (document : Json) : Json := (child? step document).getD .null

/-- A document with a value written one step deep. -/
def put : Step → Json → Json → Json
  | .field name, .obj fields, child => .obj (Fields.set fields name child)
  | .field name, _, child => .obj [(name, child)]
  | .index position, .arr items, child => .arr ((padded items position).set position child)
  | .index position, _, child => .arr ((padded [] position).set position child)
  | .wildcard, document, _ => document

/-- Nothing lies inside a null. -/
theorem child?_null (step : Step) : child? step .null = none := by
  cases step <;> rfl

/-- What lies one step deep in a document, or else a null, can be addressed in a container, and be replaced. -/
structure Ready (step : Step) (document container : Json) : Prop where
  child : child? step container = some (held step document)
  replaced : replaced step container = put step document

theorem opened_field (counting : Counting) (name : String) (fields : Fields Json) :
    ∃ container, counting.opened (.field name) (.obj fields) = .ok container ∧
      Ready (.field name) (.obj fields) container := by
  cases found : Fields.find? fields name with
  | some child =>
      refine ⟨.obj fields, ?_, ?_, rfl⟩
      · simp only [Counting.opened, contained, found, Option.isSome_some, if_true]
      · simp only [held, child?, Json.field?, found, Option.getD_some]
  | none =>
      refine ⟨.obj (Fields.set fields name .null), ?_, ?_, ?_⟩
      · simp [Counting.opened, contained, found]
      · simp [held, child?, Json.field?, found]
      · exact funext fun child => congrArg Json.obj (Fields.set_set_self fields name .null child)

theorem opened_index (counting : Counting) (within : ¬ Exceeds (.index position) (.arr items)) :
    ∃ container, counting.opened (.index position) (.arr items) = .ok container ∧
      Ready (.index position) (.arr items) container := by
  have grown : counting.grown items position = .ok (padded items position) := by
    refine grown_of_within ((Nat.lt_or_ge (position + 1) UInt64.size).imp_right fun beyond => ?_)
    exact Nat.lt_of_not_le fun short => within ⟨beyond, List.getElem?_eq_none_iff.mpr short⟩
  refine ⟨.arr (padded items position), ?_, getElem?_padded_self items position, rfl⟩
  simp only [Counting.opened, contained, grown, Except.map]

/-- **A step that fits finds a container** in which to go on. -/
theorem opened_of_fits (counting : Counting) (fits : Fits step document) :
    ∃ container, counting.opened step document = .ok container ∧ Ready step document container := by
  obtain ⟨accepts, within⟩ := fits
  -- A null becomes an empty container first, so that containers are all there is to look at.
  cases step with
  | wildcard => exact accepts.elim
  | field name =>
      cases document with
      | null =>
          obtain ⟨container, opened, ready⟩ := opened_field counting name []
          exact ⟨container, opened, ready.child, ready.replaced⟩
      | obj fields => exact opened_field counting name fields
      | _ => exact accepts.elim
  | index position =>
      cases document with
      | null =>
          obtain ⟨container, opened, ready⟩ := @opened_index [] position counting within
          exact ⟨container, opened, ready.child, ready.replaced⟩
      | arr items => exact opened_index counting within
      | _ => exact accepts.elim

/-- **To write through a path is to write one step deep** what the rest of the path makes of what lies there. -/
theorem write_of_fits (fits : Fits step document) (rest : List Step) (value : Json) :
    counting.write (step :: rest) document value =
      (counting.write rest (held step document) value).map (put step document) := by
  obtain ⟨container, opened, ready⟩ := opened_of_fits counting fits
  simp only [Counting.write, opened, bind, Except.bind, ready.child, ready.replaced]

theorem write_of_not_accepts (refuses : ¬ Accepts step document) (rest : List Step) (value : Json) :
    counting.write (step :: rest) document value = .error (.refused step.refusal) := by
  have opened : counting.opened step document = .error (.refused step.refusal) := by
    cases step with
    | wildcard => rfl
    | field name =>
        cases document with
        | null | obj => exact absurd trivial refuses
        | _ => rfl
    | index position =>
        cases document with
        | null | arr => exact absurd trivial refuses
        | _ => rfl
  rw [Counting.write, opened]
  rfl

/-- **A step that exceeds all words** is a trap. -/
theorem write_of_exceeds (accepts : Accepts step document) (exceeds : Exceeds step document) (rest : List Step)
    (value : Json) : counting.write (step :: rest) document value = .error (.trapped counting.trap) := by
  have index : ∀ {position : Nat} {items : List Json}, UInt64.size ≤ position + 1 → items[position]? = none →
      counting.write (.index position :: rest) (.arr items) value = .error (.trapped counting.trap) := by
    intro position items beyond nothing
    obtain ⟨overflow, cut, wrapped, missing⟩ := grown_of_exceeds beyond (List.getElem?_eq_none_iff.mp nothing)
    cases counting with
    | checked =>
        simp only [Counting.write, Counting.opened, contained, overflow, Except.map, bind, Except.bind, Counting.trap]
    | wrapping =>
        simp only [Counting.write, Counting.opened, contained, wrapped, Except.map, bind, Except.bind, Counting.trap,
          child?, Json.item?, missing]
  cases step with
  | field | wildcard => exact exceeds.elim
  | index position =>
      cases document with
      | null => exact index exceeds.1 rfl
      | arr items => exact index exceeds.1 exceeds.2
      | _ => exact accepts.elim

/-- A write through a path yields a document only where its first step fits. -/
theorem write_cons_eq_ok : counting.write (step :: rest) document value = .ok after ↔
    Fits step document ∧
      ∃ child, counting.write rest (held step document) value = .ok child ∧ put step document child = after := by
  by_cases accepts : Accepts step document
  · by_cases exceeds : Exceeds step document
    · rw [write_of_exceeds accepts exceeds]
      exact ⟨(fun h => nomatch h), fun h => absurd exceeds h.1.2⟩
    · rw [write_of_fits ⟨accepts, exceeds⟩, DataFlow.map_eq_ok]
      exact ⟨fun h => ⟨⟨accepts, exceeds⟩, h⟩, fun h => h.2⟩
  · rw [write_of_not_accepts accepts]
    exact ⟨(fun h => nomatch h), fun h => absurd h.1.1 accepts⟩

/-- A document in which something lies one step deep accepts the step, and has an item wherever it goes. -/
theorem fits_of_child (h : child? step document = some child) : Fits step document := by
  cases step with
  | wildcard => cases h
  | field name =>
      cases document with
      | obj fields => exact ⟨trivial, id⟩
      | _ => cases h
  | index position =>
      refine ⟨?_, fun exceeds => nomatch h.symm.trans exceeds.2⟩
      cases document with
      | arr items => trivial
      | _ => cases h

/-! ## The same step twice -/

/-- **What was written is found again.** -/
theorem child?_put (h : Accepts step document) (child : Json) : child? step (put step document child) = some child := by
  cases step with
  | wildcard => exact h.elim
  | field name =>
      cases document with
      | null => exact Fields.find?_set_self [] name child
      | obj fields => exact Fields.find?_set_self fields name child
      | _ => exact h.elim
  | index position =>
      cases document with
      | null => exact List.getElem?_set_self (lt_length_padded [] position)
      | arr items => exact List.getElem?_set_self (lt_length_padded items position)
      | _ => exact h.elim

theorem held_put (h : Accepts step document) (child : Json) : held step (put step document child) = child := by
  rw [held, child?_put h, Option.getD_some]

/-- **The last of two writes counts.** -/
theorem put_put (h : Accepts step document) (child child' : Json) :
    put step (put step document child) child' = put step document child' := by
  have again : ∀ (items : List Json) (position : Nat),
      (padded ((padded items position).set position child) position).set position child' =
        (padded items position).set position child' := by
    intro items position
    rw [padded_of_lt (by rw [List.length_set]; exact lt_length_padded items position), List.set_set]
  cases step with
  | wildcard => exact h.elim
  | field name =>
      cases document with
      | null => exact congrArg Json.obj (Fields.set_set_self [] name child child')
      | obj fields => exact congrArg Json.obj (Fields.set_set_self fields name child child')
      | _ => exact h.elim
  | index position =>
      cases document with
      | null => exact congrArg Json.arr (again [] position)
      | arr items => exact congrArg Json.arr (again items position)
      | _ => exact h.elim

/-- A step that fits still does after a write through it. -/
theorem fits_put (h : Fits step document) (child : Json) : Fits step (put step document child) :=
  fits_of_child (child?_put h.1 child)

/-- **To write back what lies there changes nothing.** -/
theorem put_child (h : child? step document = some child) : put step document child = document := by
  cases step with
  | wildcard => cases h
  | field name =>
      cases document with
      | obj fields => exact congrArg Json.obj (Fields.set_find? h)
      | _ => cases h
  | index position =>
      cases document with
      | arr items =>
          obtain ⟨inside, rfl⟩ := List.getElem?_eq_some_iff.mp h
          show Json.arr ((padded items position).set position items[position]) = .arr items
          rw [padded_of_lt inside, List.set_getElem_self]
      | _ => cases h

/-! ## Two steps apart -/

/-- What lies one step deep after a write elsewhere has lain there before; or nothing has, and it is null. -/
theorem child?_put_cases (h : Accepts step document) (apart : other ≠ step) (child : Json) :
    child? other (put step document child) = child? other document ∨
      (child? other document = none ∧ child? other (put step document child) = some .null) := by
  -- Behind the end of a list, a write fills up with nulls; nothing else appears.
  have items : ∀ (items : List Json) (position index : Nat), index ≠ position →
      ((padded items position).set position child)[index]? = items[index]? ∨
        (items[index]? = none ∧ ((padded items position).set position child)[index]? = some .null) := by
    intro items position index hne
    rw [List.getElem?_set_ne (Ne.symm hne)]
    exact getElem?_padded items position index
  cases step with
  | wildcard => exact h.elim
  | field name =>
      cases other with
      | wildcard => exact Or.inl rfl
      | index position =>
          cases document with
          | null | obj => exact Or.inl rfl
          | _ => exact h.elim
      | field another =>
          have hne : another ≠ name := fun e => apart (congrArg Step.field e)
          cases document with
          | null => exact Or.inl (Fields.find?_set_of_ne [] child hne)
          | obj fields => exact Or.inl (Fields.find?_set_of_ne fields child hne)
          | _ => exact h.elim
  | index position =>
      cases other with
      | wildcard => exact Or.inl rfl
      | field name =>
          cases document with
          | null | arr => exact Or.inl rfl
          | _ => exact h.elim
      | index another =>
          have hne : another ≠ position := fun e => apart (congrArg Step.index e)
          cases document with
          | null => exact items [] position another hne
          | arr found => exact items found position another hne
          | _ => exact h.elim

/-- **What lies elsewhere stays there.** -/
theorem child?_put_of_ne (h : Accepts step document) (apart : other ≠ step) (child : Json)
    (found : child? other document = some value) : child? other (put step document child) = some value := by
  rcases child?_put_cases h apart child with same | ⟨none, -⟩
  · rw [same, found]
  · cases none.symm.trans found

/-- Where null stands for nothing, what lies elsewhere is the same. -/
theorem held_put_of_ne (h : Accepts step document) (apart : other ≠ step) (child : Json) :
    held other (put step document child) = held other document := by
  rcases child?_put_cases h apart child with same | ⟨none, null⟩
  · rw [held, held, same]
  · rw [held, held, none, null]
    rfl

/-- **A write elsewhere makes no index too great,** and none small enough: an array is padded only up to a word. -/
theorem exceeds_put_iff (h : Fits step document) (apart : other ≠ step) (child : Json) :
    Exceeds other (put step document child) ↔ Exceeds other document := by
  have reaches : ∀ {items : List Json} {position another : Nat}, another ≠ position →
      ¬ (UInt64.size ≤ position + 1 ∧ items[position]? = none) → UInt64.size ≤ another + 1 →
      (((padded items position).set position child)[another]? = none ↔ items[another]? = none) := by
    intro items position another hne within beyond
    rw [List.getElem?_eq_none_iff] at within
    rw [List.getElem?_eq_none_iff, List.getElem?_eq_none_iff, List.length_set, length_padded]
    omega
  obtain ⟨accepts, within⟩ := h
  cases other with
  | field | wildcard => exact Iff.rfl
  | index another =>
      cases step with
      | wildcard => exact accepts.elim
      | field name =>
          cases document with
          | null | obj => exact Iff.rfl
          | _ => exact accepts.elim
      | index position =>
          have hne : another ≠ position := fun e => apart (congrArg Step.index e)
          cases document with
          | null => exact and_congr_right (@reaches [] _ _ hne within)
          | arr items => exact and_congr_right (reaches hne within)
          | _ => exact accepts.elim

/-- Two steps lead into containers of the same kind. -/
def Step.Alike : Step → Step → Prop
  | .field _, .field _ | .index _, .index _ => True
  | _, _ => False

theorem Step.Alike.symm (h : step.Alike other) : other.Alike step := by
  cases step <;> cases other <;> exact h

/-- Steps of the same kind fit the same documents. -/
theorem Step.Alike.accepts (alike : step.Alike other) (h : Accepts step document) : Accepts other document := by
  cases step with
  | wildcard => exact h.elim
  | field name =>
      cases other with
      | field another => cases document <;> exact h
      | _ => exact alike.elim
  | index position =>
      cases other with
      | index another => cases document <;> exact h
      | _ => exact alike.elim

/-- What was written to is a container of its kind. -/
theorem accepts_put_iff (h : Accepts step document) : Accepts other (put step document child) ↔ step.Alike other := by
  cases step with
  | wildcard => exact h.elim
  | field name => cases other <;> cases document <;> exact Iff.rfl
  | index position => cases other <;> cases document <;> exact Iff.rfl

/-- **Two writes in different places can be swapped.** -/
theorem put_comm (alike : step.Alike other) (apart : step ≠ other) (h : Accepts step document) (child child' : Json) :
    put other (put step document child) child' = put step (put other document child') child := by
  cases step with
  | wildcard => exact h.elim
  | field name =>
      cases other with
      | field another =>
          have hne : name ≠ another := fun e => apart (congrArg Step.field e)
          cases document with
          | null => exact congrArg Json.obj (Fields.set_comm hne [] child child')
          | obj fields => exact congrArg Json.obj (Fields.set_comm hne fields child child')
          | _ => exact h.elim
      | _ => exact alike.elim
  | index position =>
      cases other with
      | index another =>
          have hne : position ≠ another := fun e => apart (congrArg Step.index e)
          cases document with
          | null => exact congrArg Json.arr (set_padded_comm hne [] child child')
          | arr items => exact congrArg Json.arr (set_padded_comm hne items child child')
          | _ => exact h.elim
      | _ => exact alike.elim

end Workflow.Path
