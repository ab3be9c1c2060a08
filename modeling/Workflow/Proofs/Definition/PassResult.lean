import Workflow.Execution.Stages
import Workflow.Proofs.DataFlow
import Workflow.Proofs.Definition.RoundTrip
import Workflow.Proofs.Validation.Acyclic

/-!
# `Workflow.Proofs.Definition.PassResult` — the results of pass states

A pass state may come with a fixed result, which stands in for what the state would otherwise give to its result path.
Whether there is one is decided when the definition is read: there, a field that holds null is taken for a field that is
absent.  So every result but null is the result of its state, and with null the state has none.

## Contents
- **Records.** `value?_of_mem`, what a record that is read holds for a field of the object, and `gives_any_iff`, what is taken
  from a field for any value.
- **States.** `exists_record_of_readTo`, the record that a state is read from.
- **Pass states.** `Pass.given`, what is given to the result path, `Pass.result_of_held`, and
  `Pass.given_result_iff`.
-/

namespace Workflow

open Datum (Record asAny)
open Datum.Reading (gives_map gives_seq gives_inside not_gives_mismatch)
open Definition (Reading)
open Json (Sound)
open Validation (Inside)

variable {fields : List (String × Json)}

/-! ## Records -/

namespace Datum

namespace Record

variable {ε : Type} {names : List (List String)} {record : Record} {field position i : Nat} {entries : List (Option Nat × Datum)}

theorem least_eq_none_iff {a b : Option Nat} : least a b = none ↔ a = none ∧ b = none := by
  cases a <;> cases b <;> simp [least]

/-- A record without surplus repeats none of its fields. -/
theorem repeated_of_surplus_eq_none {count : Nat}
    (none : (List.range count).foldl (fun found field => least found (repeated field false 0 entries)) none = none)
    (bound : i < count) : repeated i false 0 entries = .none := by
  induction count with
  | zero => exact absurd bound (Nat.not_lt_zero i)
  | succ count ih =>
      rw [List.range_succ, List.foldl_append, List.foldl_cons, List.foldl_nil, least_eq_none_iff] at none
      rcases Nat.lt_succ_iff_lt_or_eq.mp bound with less | rfl
      · exact ih none.1 less
      · exact none.2

/-- After a first entry of a field there is no second one. -/
theorem ne_of_repeated_eq_none (none : repeated field true position entries = none) {entry : Option Nat × Datum}
    (inside : entry ∈ entries) : entry.1 ≠ some field := by
  induction entries generalizing position with
  | nil => exact absurd inside List.not_mem_nil
  | cons first rest ih =>
      rw [repeated] at none
      split at none
      · cases none
      · rename_i elsewhere
        rcases List.mem_cons.mp inside with rfl | inside
        · exact elsewhere
        · exact ih none inside

/-- The slot of a field that is not repeated holds what its entry holds, whichever entry that is. -/
theorem slot_of_mem {value : Datum} (none : repeated field false position entries = none) {start : Nat}
    (inside : (some field, value) ∈ entries) : (slot field start entries).map Prod.snd = some value := by
  induction entries generalizing position start with
  | nil => exact absurd inside List.not_mem_nil
  | cons first rest ih =>
      rw [repeated] at none
      rw [slot]
      split at none
      · rename_i here
        rw [if_pos here]
        rcases List.mem_cons.mp inside with rfl | inside
        · rfl
        · exact absurd rfl (ne_of_repeated_eq_none none inside)
      · rename_i elsewhere
        rw [if_neg elsewhere]
        rcases List.mem_cons.mp inside with rfl | inside
        · exact absurd rfl elsewhere
        · exact ih none inside

/-- **A field holds what stands under its name.** -/
theorem value?_of_mem (h : of? names (ofJson (.obj fields)) = some record) (single : record.surplus = none)
    {key : String} {value : Json} (inside : (key, value) ∈ fields) (named : names.findIdx? (·.contains key) = some i) :
    record.value? i = some (ofJson value) := by
  rw [of?_obj] at h
  cases h
  have bound : i < names.length := (List.findIdx?_eq_some_iff_getElem.mp named).1
  have entry : (some i, ofJson value) ∈ indexed names fields := by
    rw [← named]
    exact List.mem_map_of_mem (f := fun entry : String × Json => (names.findIdx? (·.contains entry.1), ofJson entry.2))
      inside
  rw [value?_of_slots rfl, List.getElem?_eq_getElem bound, Option.bind_some]
  exact slot_of_mem (repeated_of_surplus_eq_none single bound) entry

/-- From a field for any value, null is taken as if the field were absent, and every other value in canonical form. -/
theorem gives_any_iff {value : Json} (sound : value.Leaves Sound) (held : record.value? i = some (ofJson value))
    {x : Option Json} : (record.optional i asAny : Datum.Reading ε (Option Json)).Gives x ↔
      x = if value.isNull then none else some value.canonical := by
  have null : ofJson value = .null ↔ value.isNull = true := by cases value <;> simp [ofJson, Json.isNull]
  rw [gives_optional, held]
  constructor
  · rintro (⟨absent | isNull, rfl⟩ | ⟨_, y, e, notNull, hy, rfl⟩)
    · cases absent
    · rw [if_pos (null.mp (Option.some.inj isNull))]
    · cases e
      rw [if_neg (mt null.mpr notNull), (gives_asAny sound).mp hy]
  · rintro rfl
    split
    · rename_i isNull
      exact Or.inl ⟨Or.inr (congrArg some (null.mpr isNull)), rfl⟩
    · rename_i notNull
      exact Or.inr ⟨_, _, rfl, mt null.mp notNull, (gives_asAny sound).mpr rfl, rfl⟩

end Record

/-- The other entries of an object are left next to its tag. -/
theorem rest_of_splitTag? {key : String} {tag rest : Datum} (h : splitTag? key (ofJson (.obj fields)) = some (tag, rest)) :
    rest = ofJson (.obj (fields.filter fun entry => !(entry.1 == key))) := by
  simp only [ofJson, splitTag?] at h
  split at h
  · cases h
    rw [ofFields_eq, List.filter_map, ← ofFields_eq]
    rfl
  · cases h

end Datum

/-! ## States -/

/-- A state that is read from an object is read from the record of the fields next to its kind. -/
theorem State.exists_record_of_readTo {nesting : Nat} {state : State}
    (read : (State.readTo nesting (.ofJson (.obj fields))).Gives state) (sound : (Json.obj fields).Leaves Sound) :
    ∃ nesting' record, Record.of? state.kind.fieldNames
        (.ofJson (.obj (fields.filter fun entry => !(entry.1 == State.kindField)))) = some record ∧
      record.surplus = none ∧
      (State.ofRecord (Graph.readWith (State.readTo nesting')) record state.kind).Gives state := by
  cases nesting with
  | zero => exact (not_gives_mismatch read).elim
  | succ nesting =>
      rw [readTo] at read
      split at read
      · exact (not_gives_mismatch (gives_inside.mp read)).elim
      · rename_i kind rest split
        obtain ⟨⟨tag, rest'⟩, htag, hkind⟩ := Option.bind_eq_some_iff.mp split
        obtain ⟨kind', -, e⟩ := Option.map_eq_some_iff.mp hkind
        cases e
        obtain rfl := Datum.rest_of_splitTag? htag
        obtain ⟨record, hrecord, single, given⟩ := Record.gives_read.mp (gives_inside.mp read)
        have sound' : (Json.obj (fields.filter fun entry => !(entry.1 == kindField))).Leaves Sound :=
          Json.leaves_obj.mpr fun entry inside => Json.leaves_obj.mp sound entry (List.mem_of_mem_filter inside)
        obtain ⟨rfl, -⟩ := kept_ofRecord (restores_graph (restores_readTo nesting 0))
          (Record.drawn_of? sound' hrecord) given
        exact ⟨nesting, record, hrecord, single, given⟩

/-! ## Pass states -/

namespace Pass

variable {s : Pass} {r raw context effective : Json} {chance : Chance} {nesting : Nat}

/-- What a pass state gives to its result path. -/
def given (s : Pass) (scope : Scope) : DataFlow.Outcome Json :=
  match s.result with
  | some result => .ok result
  | none => DataFlow.parameters s.parameters scope

theorem output_eq (input : DataFlow.input s.inputPath raw context = .ok effective) (chance : Chance) :
    s.output raw context chance = (do
      let merged ← DataFlow.merge s.resultPath raw (← s.given ⟨effective, context, chance⟩)
      DataFlow.output s.outputPath merged context) := by
  rw [output, input, given]
  cases s.result <;> rfl

/-- With the default paths, a pass state passes on what it gives to its result path. -/
theorem output_of_default (input : DataFlow.input s.inputPath raw context = .ok effective)
    (result : s.resultPath = .whole) (output : s.outputPath = .whole) (chance : Chance) :
    s.output raw context chance = s.given ⟨effective, context, chance⟩ := by
  rw [output_eq input, result, output]
  cases s.given ⟨effective, context, chance⟩ <;> rfl

/-- What a definition says in the field `Result` is the result of the state, unless it is null. -/
theorem result_of_held (sound : (Json.obj fields).Leaves Sound) (held : ("Result", r) ∈ fields)
    (read : (State.readTo nesting (.ofJson (.obj fields))).Gives (.pass s)) :
    s.result = if r.isNull then none else some r.canonical := by
  obtain ⟨_, record, hrecord, single, given⟩ := State.exists_record_of_readTo read sound
  have other : (!("Result" == State.kindField)) = true := by decide
  have fifth : State.Kind.pass.fieldNames.findIdx? (·.contains "Result") = some 5 := by decide
  have holds : record.value? 5 = some (.ofJson r) :=
    Datum.Record.value?_of_mem hrecord single (List.mem_filter.mpr ⟨held, other⟩) fifth
  simp only [State.kind, State.ofRecord, gives_map, gives_seq] at given
  obtain ⟨_, ⟨_, _, ⟨_, result, ⟨_, _, ⟨_, _, ⟨_, _, ⟨_, _, ⟨_, -, rfl⟩, -, rfl⟩, -, rfl⟩, -, rfl⟩, -, rfl⟩, hresult, rfl⟩,
    -, rfl⟩, e⟩ := given
  cases e
  exact (Datum.Record.gives_any_iff (Json.leaves_obj.mp sound _ held) holds).mp hresult

/-- **What a pass state with a result gives to its result path.** The definition of the state, at whatever nesting, says what
    its result is, next to any other fields.  Then just this is given to the result path, whatever the parameters are, unless
    the result is null: with null, the state gives what it gives without a result, and that is null only if the parameters
    come to null.  The output follows, and with the default paths it is what is given.  What is written for the state is
    read as the same state, and where the state is in a definition, it is there again after that has been written and read
    once more; so all this is true of it as well. -/
theorem given_result_iff (sound : (Json.obj fields).Leaves Sound) (held : ("Result", r) ∈ fields)
    (read : (State.readTo nesting (.ofJson (.obj fields))).Gives (.pass s))
    (input : DataFlow.input s.inputPath raw context = .ok effective) (chance : Chance) :
    (s.given ⟨effective, context, chance⟩ = .ok r.canonical ↔
      r.isNull = false ∨ DataFlow.parameters s.parameters ⟨effective, context, chance⟩ = .ok .null) ∧
    (r.isNull = true → s.output raw context chance = { s with result := none }.output raw context chance) ∧
    (r.isNull = false → s.output raw context chance = (do
      let merged ← DataFlow.merge s.resultPath raw r.canonical
      DataFlow.output s.outputPath merged context)) ∧
    (r.isNull = false → s.resultPath = .whole → s.outputPath = .whole →
      s.output raw context chance = .ok r.canonical) ∧
    (∀ again, (State.pass s).toJson.depth ≤ again →
      (State.readTo again (.ofJson (State.pass s).toJson)).Gives (.pass s)) ∧
    ∀ (text : String) (d : Definition) (graph : Graph) (name : String), Definition.parse text = .ok d →
      d.toJson.Leaves Json.ReadsBack → Inside d.graph graph → graph.state? name = some (.pass s) →
      ∃ again graph', Definition.parse d.toJson.render = .ok again ∧ Inside again.graph graph' ∧
        graph'.state? name = some (.pass s) := by
  have result := result_of_held sound held read
  refine ⟨?_, fun null => ?_, fun other => ?_, fun other whole whole' => ?_,
    fun again deep => (State.restores_readTo nesting again _ _ sound read).reads deep,
    fun text d graph name parsed kept inside here => ⟨d, graph, (Definition.parse_render parsed kept).1, inside, here⟩⟩
  · cases null : r.isNull with
    | true =>
        obtain rfl : r = .null := by
          cases r with
          | null => rfl
          | _ => cases null
        rw [given, result]
        exact ⟨Or.inr, fun h => h.resolve_left (by decide)⟩
    | false =>
        rw [null] at result
        rw [given, result]
        exact iff_of_true rfl (Or.inl rfl)
  · rw [null] at result
    rw [show s = { s with result := none } from by rw [← show s.result = none from result]]
  · rw [other] at result
    rw [output_eq input, given, result]
    rfl
  · rw [other] at result
    rw [output_of_default input whole whole', given, result]
    rfl

/-- The definition of a pass state with parameters and a result. -/
def fixed (r : Json) : Json :=
  .obj [("Type", .str "Pass"), ("Parameters", .obj [("p", .int 1)]), ("ResultPath", .str "$.out"), ("Result", r),
    ("End", .bool true)]

/-- The state of such a definition, given what is taken for its result. -/
def fixedState (result : Option Json) : Pass :=
  ⟨none, .whole, .whole, .path "$.out", some (.obj [("p", .int 1)]), result, ⟨none, true⟩⟩

/-- One state whose result is an object, and one whose result is null and which gives its parameters instead. -/
theorem given_result_iff_fixed :
    (∃ s, (State.read (.ofJson (fixed (.obj [("b", .int 2), ("a", .null)])))).Gives (.pass s) ∧
      s.output (.obj [("x", .int 0)]) .empty default =
        .ok (.obj [("out", .obj [("a", .null), ("b", .int 2)]), ("x", .int 0)])) ∧
    ∃ s, (State.read (.ofJson (fixed .null))).Gives (.pass s) ∧
      s.given ⟨.obj [("x", .int 0)], .empty, default⟩ ≠ .ok .null ∧
      s.output (.obj [("x", .int 0)]) .empty default = .ok (.obj [("out", .obj [("p", .int 1)]), ("x", .int 0)]) := by
  have read : (State.read (.ofJson (fixed (.obj [("b", .int 2), ("a", .null)])))).Gives
      (.pass (fixedState (some (.obj [("a", .null), ("b", .int 2)])))) := by rfl
  have read' : (State.read (.ofJson (fixed .null))).Gives (.pass (fixedState none)) := by rfl
  have input (result : Option Json) :
      DataFlow.input (fixedState result).inputPath (.obj [("x", .int 0)]) .empty = .ok (.obj [("x", .int 0)]) := by rfl
  obtain ⟨-, -, output, -⟩ := given_result_iff (by decide) (List.mem_of_getElem? (i := 3) rfl) read (input _) default
  obtain ⟨given, -⟩ := given_result_iff (by decide) (List.mem_of_getElem? (i := 3) rfl) read' (input _) default
  refine ⟨⟨_, read, ?_⟩, _, read', fun h => ?_, ?_⟩
  · rw [output rfl]
    cbv
  · exact (given.mp h).elim (by decide) (by rintro ⟨⟩)
  · cbv

/-- A result of null is dropped, and the input is passed on. -/
theorem null_result_dropped : ∃ s,
    (State.read (.ofJson (.obj [("Type", .str "Pass"), ("Result", .null), ("End", .bool true)]))).Gives (.pass s) ∧
      DataFlow.input s.inputPath (.obj [("a", .int 1)]) .empty = .ok (.obj [("a", .int 1)]) ∧
      s.resultPath = .whole ∧ s.outputPath = .whole ∧
      s.given ⟨.obj [("a", .int 1)], .empty, default⟩ ≠ .ok .null ∧
      s.output (.obj [("a", .int 1)]) .empty default ≠ .ok .null ∧
      s.output (.obj [("a", .int 1)]) .empty default = .ok (.obj [("a", .int 1)]) := by
  refine ⟨⟨none, .whole, .whole, .whole, none, none, ⟨none, true⟩⟩, rfl, rfl, rfl, rfl, ?_, ?_, rfl⟩ <;> rintro ⟨⟩

end Pass

end Workflow
