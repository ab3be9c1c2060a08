import Workflow.Definition.Text
import Workflow.Proofs.DataFlow
import Workflow.Proofs.Definition.States
import Workflow.Proofs.Json.RoundTrip

/-!
# `Workflow.Proofs.Definition.RoundTrip` — definitions are read as they were written

Whatever text a definition was read from, the text that is written for it is read as the same definition: graphs in states
in graphs, with everything in them.  That the nesting stays within the bounds of the readers is part of the argument, since
what is written is never deeper than what was read.

## Contents
- **Graphs.** `whole_graph` and `restores_graph`, given that states are restored.
- **States.** `restores_readTo`, by induction on the nesting, and `restores_read`.
- **Definitions.** `restored_definition`, for documents, and `parse_render`, for texts.
-/

namespace Workflow

open Datum (Record Restores)
open Datum.Record (Whole Distinct)
open Datum.Reading (gives_map gives_seq gives_inside not_gives_mismatch)
open Definition (Reading)
open Json (Sound)

variable {state again : Datum → Reading State} {depth bound : Nat} {record : Record}

/-! ## Graphs -/

theorem stateObjects_eq (states : List (String × State)) :
    stateObjects states = states.map fun entry => (entry.1, entry.2.toJson) := by
  induction states with
  | nil => rfl
  | cons entry rest ih => rw [stateObjects, ih, List.map_cons, State.toJson]

/-- What is written for the fields of a graph. -/
def Graph.written (graph : Graph) : List (Option Json) :=
  [graph.comment.map .str, some (.str graph.startAt), some (.obj (stateObjects graph.states))]

theorem graphEntries_eq (graph : Graph) :
    graphEntries graph.comment graph.startAt (stateObjects graph.states) =
      Record.entries Graph.fieldNames graph.written := by
  rw [graphEntries, textEntry_eq]
  rfl

theorem whole_graph (hstate : Restores bound state again State.toJson) (drawn : record.Drawn depth) {graph : Graph}
    (given : (Graph.ofRecord state record).Gives graph) :
    Whole Graph.fieldNames depth bound (Graph.ofRecord again) graph graph.written := by
  simp only [Graph.ofRecord, gives_map, gives_seq] at given
  obtain ⟨_, states, ⟨_, startAt, ⟨comment, hcomment, rfl⟩, hstartAt, rfl⟩, hstates, rfl⟩ := given
  have comment' := restored_text bound drawn hcomment
  have startAt' := Datum.Record.restored_required (Datum.restores_asText bound) drawn hstartAt
  have states' := Datum.Record.restored_required (Datum.restores_asFields hstate) drawn hstates
  simp only [← stateObjects_eq] at states'
  refine ⟨rfl, ?_, fun record holds => ?_⟩
  · simp only [Graph.written, List.forall_mem_cons]
    exact ⟨comment'.fits, startAt'.fits, states'.fits, fun _ inside => absurd inside List.not_mem_nil⟩
  · exact (comment'.reads record (holds 0 _ rfl)).map _
      |>.seq (startAt'.reads record (holds 1 _ rfl))
      |>.seq (states'.reads record (holds 2 _ rfl))

theorem restores_graph (hstate : Restores bound state again State.toJson) :
    Restores bound (Graph.readWith state) (Graph.readWith again) graphObject := by
  intro value graph sound given
  obtain ⟨record, hrecord, -, hbody⟩ := Datum.Record.gives_read.mp given
  have drawn := Datum.Record.drawn_of? sound hrecord
  rw [show graphObject graph = .object _ from graphObject.eq_1 .., graphEntries_eq graph]
  exact (whole_graph hstate drawn hbody).restored (by decide) drawn.positive (.refl _)

/-! ## States -/

namespace State

theorem distinct_fieldNames (kind : Kind) : Distinct kind.fieldNames := by
  cases kind <;> decide

theorem kindField_foreign (kind : Kind) : kindField ∉ kind.fieldNames.flatten := by
  cases kind <;> decide

theorem ofName?_name (kind : Kind) : Kind.ofName? (.str kind.name) = some kind := by
  cases kind <;> decide

/-- What the object of a state is split into is its kind and the other entries. -/
theorem split?_written {kind : Kind} {entries : List (String × Json)} {values : List (Option Json)}
    (held : entries.Perm (Record.entries kind.fieldNames values)) :
    ∃ rest : List (String × Json), rest.Perm entries ∧ (rest.map Prod.fst).Nodup ∧
      rest ⊆ Fields.ofList ((kindField, .str kind.name) :: entries) ∧
      split? (.ofJson (.object ((kindField, .str kind.name) :: entries))) = some (kind, .ofJson (.obj rest)) := by
  have keys := Datum.Record.keys_entries kind.fieldNames values
  have apart : (entries.map Prod.fst).Nodup :=
    (held.map Prod.fst).nodup_iff.mpr (keys.nodup (distinct_fieldNames kind).1)
  have new : kindField ∉ entries.map Prod.fst := fun inside =>
    kindField_foreign kind (keys.subset ((held.map Prod.fst).mem_iff.mp inside))
  obtain ⟨rest, hrest, inside, hsplit⟩ := Datum.splitTag?_written (.str kind.name) new apart
  refine ⟨rest, hrest, (hrest.map Prod.fst).nodup_iff.mpr apart, inside, ?_⟩
  rw [split?, hsplit]
  exact congrArg (Option.map _) (ofName?_name kind)

/-- **A state that was read is restored,** at whatever nesting it is read again. -/
theorem restores_readTo (nesting bound : Nat) : Restores bound (readTo nesting) (readTo bound) toJson := by
  -- The induction is on the nesting, for all bounds: the graphs of a state are read again within a lesser bound.
  induction nesting generalizing bound with
  | zero => exact fun value state _ given => (not_gives_mismatch given).elim
  | succ nesting ih =>
      intro value state sound given
      rw [readTo] at given
      split at given
      · exact (not_gives_mismatch (gives_inside.mp given)).elim
      · rename_i kind rest hsplit
        obtain ⟨⟨tag, _⟩, htag, hkind⟩ := Option.bind_eq_some_iff.mp hsplit
        obtain ⟨_, -, e⟩ := Option.map_eq_some_iff.mp hkind
        cases e
        obtain ⟨part, rfl, sound', shallow⟩ := Datum.splitTag?_eq_some sound htag
        obtain ⟨record, hrecord, -, hbody⟩ := Datum.Record.gives_read.mp (gives_inside.mp given)
        have drawn := Datum.Record.drawn_of? sound' hrecord
        obtain ⟨rfl, values, held, whole⟩ := kept_ofRecord (restores_graph (ih (bound - 1))) drawn hbody
        have distinct := distinct_fieldNames state.kind
        have fits : ∀ entry ∈ (kindField, .str state.kind.name) :: state.entries,
            entry.2.Leaves Sound ∧ entry.2.depth < part.depth :=
          List.forall_mem_cons.mpr ⟨⟨trivial, drawn.positive⟩, fun entry inside =>
            whole.fits_entries distinct (held.mem_iff.mp inside)⟩
        obtain ⟨written, shallow'⟩ := Datum.fits_object drawn.positive fits
        refine ⟨written, Nat.le_trans shallow' shallow, fun within => ?_⟩
        obtain ⟨rest, hrest, apart, listed, hagain⟩ := split?_written held
        cases bound with
        | zero => exact absurd within (Nat.not_succ_le_zero _)
        | succ bound =>
            have again := whole.gives_read distinct ((hrest.trans held).trans (.of_eq (List.append_nil _).symm))
              (fun entry inside => absurd inside List.not_mem_nil) apart
              fun entry inside => Json.depth_obj_le.mp within entry (listed inside)
            rw [readTo, toJson]
            split
            · rename_i none
              exact nomatch hagain.symm.trans none
            · rename_i kind rest' hsplit'
              cases hagain.symm.trans hsplit'
              exact gives_inside.mpr again

/-- **A state that was read is restored.** -/
theorem restores_read (bound : Nat) : Restores bound read read toJson := by
  intro value state sound given
  have restored := restores_readTo _ state.toJson.depth value state sound given
  refine ⟨restored.sound, restored.shallow, fun _ => ?_⟩
  rw [read, Datum.depth_ofJson]
  exact restored.reads (Nat.le_refl _)

end State

/-! ## Definitions -/

namespace Definition

/-- What is written for the fields that a definition has besides those of its graph. -/
def ownWritten (d : Definition) : List (Option Json) :=
  [d.timeoutSeconds.map fun n : Nat => .int n, d.version.map .str]

theorem ownEntries_eq (d : Definition) :
    natEntry "TimeoutSeconds" d.timeoutSeconds ++ textEntry "Version" d.version =
      Record.entries fieldNames d.ownWritten := by
  rw [natEntry_eq, textEntry_eq]
  simp only [fieldNames, ownWritten, Record.entries, List.append_nil]

theorem whole_own (bound : Nat) (drawn : record.Drawn depth) {d : Definition}
    (given : (ownFields record).Gives (d.timeoutSeconds, d.version)) :
    Whole fieldNames depth bound ownFields (d.timeoutSeconds, d.version) d.ownWritten := by
  simp only [ownFields, gives_map, gives_seq] at given
  obtain ⟨_, version, ⟨timeout, htimeout, rfl⟩, hversion, e⟩ := given
  obtain ⟨rfl, rfl⟩ := Prod.mk.inj e
  have timeout' := restored_nat64 bound drawn htimeout
  have version' := restored_text bound drawn hversion
  refine ⟨rfl, ?_, fun record holds => ?_⟩
  · simp only [ownWritten, List.forall_mem_cons]
    exact ⟨timeout'.fits, version'.fits, fun _ inside => absurd inside List.not_mem_nil⟩
  · exact (timeout'.reads record (holds 0 _ rfl)).map _ |>.seq (version'.reads record (holds 1 _ rfl))

/-- A definition is read from an object, its own fields next to those of its graph. -/
theorem gives_read {value : Json} {d : Definition} : (read (.ofJson value)).Gives d ↔ ∃ fields, value = .obj fields ∧
    (Record.read fieldNames (.ofJson value) ownFields).Gives (d.timeoutSeconds, d.version) ∧
      (Graph.readWith State.read (.ofJson value)).Gives d.graph := by
  cases value with
  | obj fields =>
      simp only [Datum.ofJson, read, gives_map, gives_seq, gives_inside]
      constructor
      · rintro ⟨_, graph, ⟨⟨timeout, version⟩, hown, rfl⟩, hgraph, rfl⟩
        exact ⟨fields, rfl, hown, hgraph⟩
      · rintro ⟨_, -, hown, hgraph⟩
        exact ⟨_, d.graph, ⟨_, hown, rfl⟩, hgraph, rfl⟩
  | _ =>
      refine iff_of_false not_gives_mismatch ?_
      rintro ⟨_, e, -⟩
      cases e

/-- **A definition that was read from a document is restored.** -/
theorem restored_definition {value : Json} {d : Definition} (sound : value.Leaves Sound)
    (given : (read (.ofJson value)).Gives d) :
    d.toJson.Leaves Sound ∧ d.toJson.depth ≤ value.depth ∧ (read (.ofJson d.toJson)).Gives d := by
  obtain ⟨fields, -, hown, hgraph⟩ := gives_read.mp given
  obtain ⟨own, hrecord, -, hown⟩ := Datum.Record.gives_read.mp hown
  obtain ⟨record, hrecord', -, hgraph⟩ := Datum.Record.gives_read.mp hgraph
  have drawn := Datum.Record.drawn_of? sound hrecord'
  have wholeOwn := whole_own d.toJson.depth (Datum.Record.drawn_of? sound hrecord) hown
  have wholeGraph := whole_graph (State.restores_read d.toJson.depth) drawn hgraph
  have distinct : Distinct fieldNames := by decide
  have distinct' : Distinct Graph.fieldNames := by decide
  have written : d.toJson =
      .object (Record.entries Graph.fieldNames d.graph.written ++ Record.entries fieldNames d.ownWritten) := by
    rw [toJson, List.append_assoc, graphEntries_eq, ownEntries_eq]
  have keys := Datum.Record.keys_entries fieldNames d.ownWritten
  have keys' := Datum.Record.keys_entries Graph.fieldNames d.graph.written
  have disjoint : ∀ key ∈ Graph.fieldNames.flatten, key ∉ fieldNames.flatten := by decide
  -- The entries of the graph and those of the definition stand in one object, and share no key.
  have apart : ((Record.entries Graph.fieldNames d.graph.written ++ Record.entries fieldNames d.ownWritten).map
      Prod.fst).Nodup := by
    rw [List.map_append, List.nodup_append]
    exact ⟨keys'.nodup distinct'.1, keys.nodup distinct.1, fun key inside other inside' e =>
      disjoint key (keys'.subset inside) (e ▸ keys.subset inside')⟩
  have held := Fields.perm_ofList apart
  obtain ⟨sound', shallow⟩ := Datum.fits_object drawn.positive fun entry inside =>
    (List.mem_append.mp inside).elim (wholeGraph.fits_entries distinct') (wholeOwn.fits_entries distinct)
  have within : ∀ entry ∈ Fields.ofList (Record.entries Graph.fieldNames d.graph.written ++
      Record.entries fieldNames d.ownWritten), entry.2.depth ≤ d.toJson.depth := by
    intro entry inside
    rw [written]
    exact Nat.le_succ_of_le (Json.depth_obj_le.mp (Nat.le_refl _) entry inside)
  refine ⟨written ▸ sound', written ▸ shallow, ?_⟩
  rw [gives_read]
  have nodup := (Fields.sorted_ofList (Record.entries Graph.fieldNames d.graph.written ++
    Record.entries fieldNames d.ownWritten)).nodup
  refine ⟨_, written, ?_, ?_⟩
  · rw [written]
    refine wholeOwn.gives_read distinct (held.trans List.perm_append_comm) (fun entry inside foreign => ?_) nodup within
    exact disjoint entry.1 (keys'.subset (List.mem_map_of_mem inside)) foreign
  · rw [written]
    refine wholeGraph.gives_read distinct' held (fun entry inside foreign => ?_) nodup within
    exact disjoint entry.1 foreign (keys.subset (List.mem_map_of_mem inside))

theorem ofDatum_eq_ok {value : Datum} {d : Definition} : ofDatum value = .ok d ↔ (read value).Gives d := by
  unfold ofDatum Datum.Reading.Gives
  cases (read value).result with
  | error issue => exact iff_of_false (fun h => by cases h) (fun h => by cases h)
  | ok own => exact ⟨fun h => congrArg Except.ok (Except.ok.inj h), fun h => congrArg Except.ok (Except.ok.inj h)⟩

/-- A definition in a value is held by the text that is printed for the value. -/
theorem parse_of_ofDatum {value : Json} {d : Definition} (h : ofDatum (.ofJson value) = .ok d)
    (deep : value.depth ≤ Json.depthMax) (kept : value.Leaves Json.Kept) : parse value.render = .ok d := by
  unfold parse
  rw [Json.readFirst_render value deep kept]
  simp only [h]
  rfl

/-- **Every definition that a text holds is held by the text that is written for it,** if each double in it is read as it
is printed; so the same text is written for it again. -/
theorem parse_render {text : String} {d : Definition} (h : parse text = .ok d) (kept : d.toJson.Leaves Json.ReadsBack) :
    parse d.toJson.render = .ok d ∧
      (parse d.toJson.render).map (fun again => again.toJson.render) = .ok d.toJson.render := by
  have again : parse d.toJson.render = .ok d := by
    unfold parse at h
    split at h
    · cases h
    · rename_i value rest hread
      obtain ⟨definition, hdefinition, h⟩ := DataFlow.bind_eq_ok.mp h
      obtain ⟨_, -, h⟩ := DataFlow.bind_eq_ok.mp h
      cases h
      obtain ⟨deep, sound⟩ := Json.bounds_of_readFirst hread
      obtain ⟨sound', shallow, given⟩ := restored_definition sound (ofDatum_eq_ok.mp hdefinition)
      exact parse_of_ofDatum (ofDatum_eq_ok.mpr given) (Nat.le_trans shallow deep)
        (sound'.combine kept fun _ sound kept => ⟨sound, kept⟩)
  exact ⟨again, by rw [again]; rfl⟩

/-- A map state in a branch of a parallel state, around a task with rules for failures and a choice.  Some parts are written
as lists, path settings are absent, null and given, and one of the two rates is the default. -/
def nested : Json :=
  let task : Json := .obj [("Type", .str "Task"), ("Resource", .str "ask"), ("ResultPath", .str "$.answer"),
    ("Retry", .arr [.obj [("ErrorEquals", .arr [.str "Busy"]), ("BackoffRate", .float 1.5)],
      .arr [.arr [.str "States.ALL"], .int 2]]),
    ("Catch", .arr [.obj [("ErrorEquals", .arr [.str "States.ALL"]), ("Next", .str "Which"), ("ResultPath", .null)]]),
    ("Next", .str "Which")]
  let which : Json := .obj [("Type", .str "Choice"), ("Default", .str "Done"),
    ("Choices", .arr [.obj [("Next", .str "Ask"), ("And", .arr [
      .obj [("Variable", .str "$.answer"), ("NumericLessThan", .float 0.25)],
      .obj [("Not", .obj [("Variable", .str "$.answer"), ("NumericEqualsPath", .str "$.limit")])]])]])]
  let processor : Json := .obj [("StartAt", .str "Ask"),
    ("States", .obj [("Ask", task), ("Which", which), ("Done", .arr [.str "Succeed"])])]
  let each : Json := .obj [("Type", .str "Map"), ("Iterator", processor), ("OutputPath", .null), ("End", .bool true),
    ("Parameters", .obj [("b", .int 1), ("a", .float 2.5)])]
  let all : Json := .obj [("Type", .str "Parallel"), ("InputPath", .null), ("ResultPath", .str "$.all"),
    ("Branches", .arr [.arr [.null, .str "Each", .obj [("Each", each)]]]), ("End", .bool true)]
  .obj [("StartAt", .str "All"), ("TimeoutSeconds", .int 60), ("States", .obj [("All", all)])]

theorem parse_render_nested : ∃ d, parse nested.render = .ok d ∧ d.toJson.Leaves Json.ReadsBack ∧
    parse d.toJson.render = .ok d ∧
      (parse d.toJson.render).map (fun again => again.toJson.render) = .ok d.toJson.render := by
  have read : (match ofDatum (.ofJson nested) with
      | .ok d => decide (d.toJson.Leaves Json.ReadsBack)
      | .error _ => false) = true := by decide +kernel
  cases h : ofDatum (.ofJson nested) with
  | error e =>
      rw [h] at read
      cases read
  | ok d =>
      rw [h] at read
      have held : parse nested.render = .ok d := parse_of_ofDatum h (by decide +kernel) (by decide +kernel)
      have kept := of_decide_eq_true read
      exact ⟨d, held, kept, parse_render held kept⟩

end Definition

end Workflow
