import Mathlib.Data.List.Forall2
import Workflow.Cli.Program
import Workflow.Proofs.DataFlow
import Workflow.Proofs.Definition.RoundTrip
import Workflow.Proofs.Execution.Batch

/-!
# `Workflow.Proofs.Cli.Runs` — one run for every input

A request to run gives inputs in its command line and in a file.  There is one run for each of them, in order, and one
report, in the same order, whichever run comes to its end first.

## Contents
- **Sessions.** `answer_bind`, `answer_map` and `answer_file`.
- **Inputs.** `Supplied`, what a request supplies, `inputsOf`, the inputs that it asks for, and what is collected, with
  `collectInputs_of_not_listsNothing`, `collectInputs_of_listsNothing`, and `exists_collected`.
- **Reports.** `reportOf_settled`, `exitCode_ofRuns`, and `Reported`, with `reported_of_play`.
- **Requests.** `answer_run`, and `runs_exact_iff`.
-/

namespace Workflow.Cli

open Execution (Setup Batch Process Settlement)

/-! ## Sessions -/

namespace Session

variable {α β : Type} {files : String → File}

theorem answer_bind (session : Session α) (next : α → Session β) :
    (session >>= next).answer files = (next (session.answer files)).answer files := by
  induction session with
  | done value => rfl
  | ask name rest ih => exact ih (files name)

theorem answer_pure (value : α) : (pure value : Session α).answer files = value := rfl

theorem answer_map (f : α → β) (session : Session α) : (f <$> session).answer files = f (session.answer files) :=
  answer_bind session fun value => .done (f value)

theorem answer_file (name : String) : (file name).answer files = files name := rfl

end Session

/-! ## Inputs -/

/-- The inputs in a value that stands in a file. -/
def elements : Json → List Json
  | .arr items => items
  | value => [value]

/-- What a request supplies, if all of it is JSON: the values of its texts, and the value of its file, if it has one. -/
structure Supplied (texts : List String) (file : Option File) (inline : List Json) (listed : Option Json) : Prop where
  texts : List.Forall₂ (fun text value => Json.parse text = .ok value) texts inline
  file : Option.Rel (fun file value => ∃ text, file.text? = some text ∧ Json.parse text = .ok value) file listed

/-- The inputs that a request asks for: those of its texts, and then those in its file.  If it has neither, that is one
    empty object. -/
def inputsOf (inline : List Json) (listed : Option Json) : List Json :=
  if inline.isEmpty && listed.isNone then [.empty] else inline ++ (listed.map elements).getD []

/-- Nothing is supplied but a file, and that lists no input. -/
def ListsNothing (inline : List Json) (listed : Option Json) : Prop := inline = [] ∧ listed = some (.arr [])

variable {texts : List String} {file : Option File} {inline : List Json} {listed : Option Json}

theorem mapM_input (parsed : List.Forall₂ (fun text value => Json.parse text = .ok value) texts inline) :
    texts.mapM (fun text => (Load.input text).mapError fun _ => "Invalid input '" ++ text ++ "'") = .ok inline := by
  induction parsed with
  | nil => rfl
  | cons first _ ih =>
      rw [List.mapM_cons, ih, Load.input, first]
      rfl

theorem inputs_of_parse {text : String} {value : Json} (parsed : Json.parse text = .ok value) :
    Load.inputs (some text) = .ok (elements value) := by
  rw [Load.inputs, Load.input, parsed]
  cases value <;> rfl

/-- What is collected from what is supplied: all of it, or an empty object if that is nothing. -/
theorem collectInputs_eq (supplied : Supplied texts file inline listed) : collectInputs texts file =
    .ok (if (inline ++ (listed.map elements).getD []).isEmpty then [.empty]
      else inline ++ (listed.map elements).getD []) := by
  rw [collectInputs, mapM_input supplied.texts]
  cases supplied.file with
  | none => rfl
  | some h =>
      obtain ⟨text, htext, parsed⟩ := h
      simp only [htext, inputs_of_parse parsed]
      rfl

/-- **What is asked for is collected,** unless there is nothing but a file that lists no input. -/
theorem collectInputs_of_not_listsNothing (supplied : Supplied texts file inline listed)
    (something : ¬ ListsNothing inline listed) : collectInputs texts file = .ok (inputsOf inline listed) := by
  rw [collectInputs_eq supplied, inputsOf]
  cases inline with
  | cons first rest => rfl
  | nil =>
      cases listed with
      | none => rfl
      | some value =>
          cases value with
          | arr items =>
              cases items with
              | nil => exact absurd ⟨rfl, rfl⟩ something
              | cons item items => rfl
          | _ => rfl

theorem collectInputs_of_listsNothing (supplied : Supplied texts file inline listed)
    (nothing : ListsNothing inline listed) :
    collectInputs texts file = .ok [.empty] ∧ inputsOf inline listed = [] := by
  rw [collectInputs_eq supplied]
  obtain ⟨rfl, rfl⟩ := nothing
  exact ⟨rfl, rfl⟩

/-- Something is collected in any case, and it is what is asked for unless that is nothing. -/
theorem exists_collected (supplied : Supplied texts file inline listed) :
    ∃ inputs, collectInputs texts file = .ok inputs ∧ (inputs = inputsOf inline listed ↔ ¬ ListsNothing inline listed) ∧
      (ListsNothing inline listed → inputs = [.empty]) := by
  by_cases nothing : ListsNothing inline listed
  · obtain ⟨collected, asked⟩ := collectInputs_of_listsNothing supplied nothing
    refine ⟨_, collected, iff_of_false ?_ (not_not_intro nothing), fun _ => rfl⟩
    rw [asked]
    exact List.cons_ne_nil _ _
  · exact ⟨_, collectInputs_of_not_listsNothing supplied nothing, iff_of_true rfl nothing,
      fun contrary => absurd contrary nothing⟩

/-! ## Reports -/

/-- How the run of a setup ended, as it is reported. -/
def finishedOf (request : RunRequest) (setup : Setup) (settlement : Settlement) : Report.Finished :=
  ⟨setup.runId, settlement.result request.quietAbort⟩

variable {request : RunRequest} {manner : Manner} {batch : Batch} {settlements : List Settlement}

theorem filterMap_settled (request : RunRequest) : ∀ {batch : Batch} {settlements : List Settlement},
    batch.settlements = settlements.map some →
      batch.filterMap (fun b => b.2.run.settlement.map (finishedOf request b.1)) =
        List.zipWith (finishedOf request) (batch.map Prod.fst) settlements := by
  intro batch
  induction batch with
  | nil => exact fun _ => rfl
  | cons first rest ih =>
      intro settlements settled
      cases settlements with
      | nil => cases settled
      | cons settlement settlements =>
          obtain ⟨here, later⟩ := List.cons.inj settled
          replace here : first.2.run.settlement = some settlement := here
          rw [List.filterMap_cons, here, Option.map_some, List.map_cons, List.zipWith_cons_cons, ih later]

/-- Runs that have all come to an end are reported one by one, in the order in which they were started. -/
theorem reportOf_settled (manner : Manner) (request : RunRequest) (settled : batch.settlements = settlements.map some) :
    ∃ eventLines, reportOf manner request batch = .ofRuns manner.json manner.quiet eventLines
      (List.zipWith (finishedOf request) (batch.map Prod.fst) settlements) :=
  ⟨_, congrArg (Report.ofRuns manner.json manner.quiet _) (filterMap_settled request settled)⟩

theorem Report.Finished.isGood_iff {finished : Report.Finished} :
    finished.isGood = true ↔ ∃ output, finished.result = .ok output := by
  obtain ⟨runId, e | output⟩ := finished
  · exact iff_of_false Bool.false_ne_true fun ⟨_, h⟩ => by cases h
  · exact iff_of_true rfl ⟨output, rfl⟩

/-- The command is successful if every run has an output. -/
theorem exitCode_ofRuns (json quiet : Bool) (eventLines : List String) (runs : List Report.Finished) :
    (Report.ofRuns json quiet eventLines runs).exitCode = 0 ↔ ∀ finished ∈ runs, ∃ output, finished.result = .ok output := by
  have code : ∀ isGood, Report.codeOf isGood = 0 ↔ isGood = true := by decide
  rw [Report.ofRuns, code, List.all_eq_true]
  exact forall₂_congr fun _ _ => Report.Finished.isGood_iff

/-- For machines there is one line for every run. -/
theorem output_ofRuns_json (quiet : Bool) (eventLines : List String) (runs : List Report.Finished) :
    (Report.ofRuns true quiet eventLines runs).output = runs.map fun finished => finished.toJson.render := by
  rw [Report.ofRuns, ← List.flatMap_pure_eq_map]
  rfl

/-- What is reported of runs that have all come to an end, after moves in some order. -/
structure Reported (manner : Manner) (request : RunRequest) (setups : List Setup) (moves : List (Nat × Process.Move))
    (settlements : List Settlement) (report : Report) : Prop where
  /-- Every run has ended. -/
  size : settlements.length = setups.length
  /-- Each of them has ended as it does alone. -/
  alone : ∀ i setup settlement, setups[i]? = some setup → settlements[i]? = some settlement →
    ∃ process, (Process.start setup).play setup (Batch.movesOf i moves) = some process ∧
      process.run.settlement = some settlement
  /-- There is one report for each, in the order in which they were started. -/
  inOrder : ∃ eventLines, report = .ofRuns manner.json manner.quiet eventLines
    (List.zipWith (finishedOf request) setups settlements)
  /-- For machines, that is one line for each. -/
  lines : manner.json = true → report.output =
    List.zipWith (fun setup settlement => (finishedOf request setup settlement).toJson.render) setups settlements
  /-- The command is successful if all results are good. -/
  success : report.exitCode = 0 ↔ ∀ settlement ∈ settlements, ∃ output, settlement.result request.quietAbort = .ok output

/-- **The order in which runs come to their ends does not show in their reports.** -/
theorem reported_of_play {setups : List Setup} {moves : List (Nat × Process.Move)}
    (played : (Batch.start setups).play moves = some batch) (settled : batch.settlements = settlements.map some) :
    Reported manner request setups moves settlements (reportOf manner request batch) := by
  -- The moves change the runs of a batch, and none of its setups.
  have started : batch.map Prod.fst = setups := (Batch.fst_of_play played).trans (Batch.fst_start setups)
  have size : settlements.length = setups.length := by
    rw [← started, List.length_map, ← List.length_map some, ← settled, Batch.settlements, List.length_map]
  obtain ⟨eventLines, report⟩ := reportOf_settled manner request settled
  rw [started] at report
  -- The report zips setups with settlements, so its results are those of the settlements, in their order.
  have results : (List.zipWith (finishedOf request) setups settlements).map (·.result) =
      settlements.map (·.result request.quietAbort) := by
    rw [List.map_zipWith, ← List.map_uncurry_zip_eq_zipWith]
    refine Eq.trans ?_ (congrArg (List.map (·.result request.quietAbort)) (List.map_snd_zip (Nat.le_of_eq size)))
    rw [List.map_map]
    rfl
  refine ⟨size, fun i setup settlement hsetup hsettlement => ?_, ⟨eventLines, report⟩, fun json => ?_, ?_⟩
  · have held : (Batch.start setups)[i]? = some (setup, .start setup) := by
      rw [Batch.start, List.getElem?_map, hsetup]
      rfl
    obtain ⟨process, own, hprocess⟩ := Batch.getElem?_of_play played held
    have ended := congrArg (·[i]?) settled
    simp only [Batch.settlements, List.getElem?_map, hprocess, hsettlement, Option.map_some, Option.some.injEq] at ended
    exact ⟨process, own, ended⟩
  · rw [report, json, output_ofRuns_json, List.map_zipWith]
  · rw [report, exitCode_ofRuns, ← List.forall_mem_map (f := fun finished : Report.Finished => finished.result)
      (P := fun result => ∃ output, result = .ok output), results, List.forall_mem_map]

/-! ## Requests -/

variable {config : Config} {files : String → File} {definition : Definition}
  {inputs : List Json} {seed : Option Json}

/-- A request whose definition is fine is answered by the report of its runs under their schedules. -/
theorem answer_run (surroundings : Surroundings) (manner : Manner)
    (loaded : Load.definitionFile request.definition (files request.definition).text? = .ok definition)
    (valid : Validation.check (optionsOf config request.waived request.unchecked) definition = [])
    (collected : collectInputs request.inputs (request.inputFile.map files) = .ok inputs)
    (seeded : request.context.mapM Json.parse = .ok seed) :
    (run surroundings config manner request).answer files = reportOf manner request
      (Batch.simulate surroundings.moveLimit (setupsOf surroundings config request definition
        ((scriptsOf (programsOf config request)).answer files) seed inputs)) := by
  rw [run, Session.answer_bind, Session.answer_file, loaded]
  simp only [valid, List.isEmpty_nil, Bool.not_true, Bool.false_eq_true, if_false]
  split
  · rename_i name asked
    rw [asked, Option.map_some] at collected
    rw [Session.answer_bind, Session.answer_map, Session.answer_file, collected, seeded]
    exact Session.answer_bind _ _
  · rename_i asked
    rw [asked, Option.map_none] at collected
    rw [Session.answer_bind, Session.answer_pure, collected, seeded]
    exact Session.answer_bind _ _

theorem map_input_setupsOf (surroundings : Surroundings) (scripts : List (String × Script)) :
    (setupsOf surroundings config request definition scripts seed inputs).map (·.input) = inputs := by
  rw [setupsOf, List.map_map]
  exact List.zipIdx_map_fst 0 inputs

/-- **A request runs its definition once for every input, in order.** The definition is fine, and whatever is supplied is
    JSON.  Then the runs that are started have the inputs that are asked for, in order, unless nothing but a file is given
    and that lists no input: then there is a run with an empty object all the same.  The runs under their schedules are one
    way for them to move, and it is reported what becomes of them; but in whichever order they move and come to their ends,
    there is one report for every input, in the order of the inputs, and the command is successful just if every run has an
    output. -/
theorem runs_exact_iff (surroundings : Surroundings) (manner : Manner)
    (loaded : Load.definitionFile request.definition (files request.definition).text? = .ok definition)
    (valid : Validation.check (optionsOf config request.waived request.unchecked) definition = [])
    (supplied : Supplied request.inputs (request.inputFile.map files) inline listed)
    (seeded : request.context.mapM Json.parse = .ok seed) :
    ∃ inputs,
      (inputs = inputsOf inline listed ↔ ¬ ListsNothing inline listed) ∧
      (ListsNothing inline listed → inputs = [.empty]) ∧
      let scripts := (scriptsOf (programsOf config request)).answer files
      let setups := setupsOf surroundings config request definition scripts seed inputs
      setups.map (·.input) = inputs ∧
      (run surroundings config manner request).answer files =
        reportOf manner request (Batch.simulate surroundings.moveLimit setups) ∧
      (∃ moves, (Batch.start setups).play moves = some (Batch.simulate surroundings.moveLimit setups)) ∧
      ∀ moves batch settlements, (Batch.start setups).play moves = some batch →
        batch.settlements = settlements.map some →
        Reported manner request setups moves settlements (reportOf manner request batch) := by
  obtain ⟨inputs, collected, exact, nothing⟩ := exists_collected supplied
  exact ⟨inputs, exact, nothing, map_input_setupsOf surroundings _,
    answer_run surroundings manner loaded valid collected seeded, Batch.exists_play_simulate _ _,
    fun _ _ _ played settled => reported_of_play played settled⟩

/-- A definition that passes its input on, as an object. -/
def passOn : Json :=
  .obj [("StartAt", .str "P"), ("States", .obj [("P", .obj [("Type", .str "Pass"), ("End", .bool true)])])]

/-- What is read from it. -/
def passing : Definition :=
  ⟨⟨none, "P", [("P", .pass ⟨none, .whole, .whole, .whole, none, none, ⟨none, true⟩⟩)]⟩, none, none⟩

/-- A file with the definition, one with two inputs, and one that lists none. -/
def threeFiles (name : String) : File :=
  if name = "m.json" then .regular passOn.render false
  else if name = "two.json" then .regular (Json.arr [.int 1, .int 2]).render false
  else if name = "none.json" then .regular (Json.arr []).render false
  else .absent

/-- A request to run the definition on inputs in texts and in a file. -/
def passRequest (texts : List String) (file : Option String) : RunRequest :=
  ⟨"m.json", texts, file, [], [], none, none, ⟨false, false⟩, false, false, false⟩

/-- What is printed is for people, and only results. -/
def plain : Manner := ⟨false, true, none⟩

/-- Nothing is set, and every run may make fifty moves. -/
def bare : Surroundings := ⟨fun _ => none, none, 0, fun _ => default, 50⟩

/-- The report of running the definition on inputs in texts and in a file. -/
def reportFor (texts : List String) (file : Option String) : Report :=
  (run bare .default plain (passRequest texts file)).answer threeFiles

/-- An input of the command line and two of a file, and a file that lists none. -/
theorem runs_exact_iff_three :
    ((reportFor [(Json.int 0).render] (some "two.json")).output = ["0", "1", "2"] ∧
      (reportFor [(Json.int 0).render] (some "two.json")).exitCode = 0) ∧
    (reportFor [] (some "none.json")).output = ["\x7b\x7d"] ∧ (reportFor [] (some "none.json")).exitCode = 0 := by
  have parsed : Definition.parse passOn.render = .ok passing := Definition.parse_of_ofDatum rfl (by decide) (by decide)
  have loaded : Load.definitionFile "m.json" (threeFiles "m.json").text? = .ok passing :=
    congrArg (Except.mapError Load.Error.json) parsed
  have valid : Validation.check (optionsOf .default ⟨false, false⟩ false) passing = [] := by rfl
  have supplied : Supplied [(Json.int 0).render] (some (threeFiles "two.json")) [.int 0] (some (.arr [.int 1, .int 2])) :=
    ⟨.cons (Json.parse_rendered _ (by decide) (by decide)) .nil,
      .some ⟨_, rfl, Json.parse_rendered _ (by decide) (by decide)⟩⟩
  have supplied' : Supplied [] (some (threeFiles "none.json")) [] (some (.arr [])) :=
    ⟨.nil, .some ⟨_, rfl, Json.parse_rendered _ (by decide) (by decide)⟩⟩
  obtain ⟨_, asked, -, -, answered, ⟨moves, played⟩, reported⟩ := @runs_exact_iff _ _
    (passRequest [(Json.int 0).render] (some "two.json")) .default threeFiles passing none bare plain loaded valid supplied rfl
  obtain ⟨_, -, nothing, -, answered', ⟨moves', played'⟩, reported'⟩ := @runs_exact_iff _ _
    (passRequest [] (some "none.json")) .default threeFiles passing none bare plain loaded valid supplied' rfl
  obtain rfl := asked.mpr fun h => by cases h.1
  obtain rfl := nothing ⟨rfl, rfl⟩
  have three := reported moves _ [.succeeded (.int 0), .succeeded (.int 1), .succeeded (.int 2)] played (by rfl)
  have one := reported' moves' _ [.succeeded .empty] played' (by rfl)
  obtain ⟨_, report⟩ := three.inOrder
  obtain ⟨_, report'⟩ := one.inOrder
  have lines : [Json.int 0, .int 1, .int 2].flatMap Json.renderLines = ["0", "1", "2"] := by cbv
  have line : [Json.empty].flatMap Json.renderLines = ["\x7b\x7d"] := by cbv
  have good (values : List Json) : ∀ settlement ∈ values.map Settlement.succeeded,
      ∃ output, settlement.result false = .ok output :=
    List.forall_mem_map.mpr fun value _ => ⟨value, rfl⟩
  refine ⟨⟨?_, ?_⟩, ?_, ?_⟩
  · rw [reportFor, answered, report, ← lines]
    rfl
  · rw [reportFor, answered, three.success]
    exact good [.int 0, .int 1, .int 2]
  · rw [reportFor, answered', report', ← line]
    rfl
  · rw [reportFor, answered', one.success]
    exact good [.empty]

/-- A file that lists no input asks for no run, and yet there is one. -/
theorem run_of_empty_list : (Json.arr []).render = "[]" ∧
    Supplied [] (some (.regular (Json.arr []).render false)) [] (some (.arr [])) ∧
    inputsOf [] (some (.arr [])) = [] ∧
    collectInputs [] (some (.regular (Json.arr []).render false)) = .ok [.empty] ∧
    (setupsOf bare .default (passRequest [] (some "none.json")) passing [] none [.empty]).length = 1 := by
  have supplied : Supplied [] (some (.regular (Json.arr []).render false)) [] (some (.arr [])) :=
    ⟨.nil, .some ⟨_, rfl, Json.parse_rendered _ (by decide) (by decide)⟩⟩
  obtain ⟨collected, asked⟩ := collectInputs_of_listsNothing supplied ⟨rfl, rfl⟩
  exact ⟨by cbv, supplied, asked, collected, rfl⟩

end Workflow.Cli
