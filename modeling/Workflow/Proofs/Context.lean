import Workflow.Context
import Workflow.Path.Resolve
import Workflow.Proofs.Json.Fields

/-!
# `Workflow.Proofs.Context` — what the context object tells

Templates read from the context object in which state they are and how often it was tried again.  Both are set on entering
a state, and the changes that are made to the object in an attempt leave the name alone.  Each change is made to one
section; what the others hold is what they held before.

## Contents
- **Retries.** `HasRetryCount`, with `hasRetryCount_enter`, `HasRetryCount.set` and `HasRetryCount.issueToken`; and
  `HasRetryCount.resolve`: the path by which a template asks for the number finds it.
- **Sections.** `field?_setSection_self` and `field?_setSection_of_ne`; `HasName`, the name of a state; `Task`-sections
  after `enter`; and `Keeps`, which says what is left as it was at the start of a run, with the sections of iterations.
-/

namespace Workflow.Context

/-! ## Retries -/

/-- The number of retries that the object tells. -/
def HasRetryCount (context : Json) (count : Nat) : Prop :=
  ∃ fields state, context = .obj fields ∧ Fields.find? fields "State" = some (.obj state) ∧
    Fields.find? state "RetryCount" = some (.int count)

theorem hasRetryCount_enter (context : Json) (name time : String) : HasRetryCount (enter context name time) 0 := by
  refine ⟨_, _, rfl, Fields.find?_erase_of_ne (by decide) (Fields.find?_set_self _ _ _), ?_⟩
  exact Fields.find?_set_self _ _ _

theorem HasRetryCount.set {context : Json} {count : Nat} (h : HasRetryCount context count) (next : Nat) :
    HasRetryCount (setRetryCount context next) next := by
  obtain ⟨fields, state, rfl, hstate, -⟩ := h
  refine ⟨Fields.set fields "State" (.obj (Fields.set state "RetryCount" (.int next))), _, ?_,
    Fields.find?_set_self _ _ _, Fields.find?_set_self _ _ _⟩
  simp only [setRetryCount, sections, hstate]

theorem HasRetryCount.issueToken {context : Json} {count : Nat} (h : HasRetryCount context count)
    (token : String) : HasRetryCount (issueToken context token) count := by
  obtain ⟨fields, state, rfl, hstate, hcount⟩ := h
  refine ⟨_, state, rfl, ?_, hcount⟩
  rw [sections, Fields.find?_set_of_ne _ _ (by decide)]
  exact hstate

/-- The path by which templates ask for the number of retries. -/
def retryCountPath : String := "$$.State.RetryCount"

theorem ofText_retryCountPath :
    Path.ofText retryCountPath = .ok ⟨.context, [.field "State", .field "RetryCount"]⟩ := by
  have parsed : Path.parse retryCountPath = .ok ⟨.context, [.field "State", .field "RetryCount"]⟩ := by cbv
  rw [Path.ofText, parsed]
  rfl

/-- A template that asks for the number of retries is told it. -/
theorem HasRetryCount.resolve {context : Json} {count : Nat} (h : HasRetryCount context count) (data : Json) :
    Path.resolve retryCountPath data context = .ok (.int count) := by
  obtain ⟨fields, state, rfl, hstate, hcount⟩ := h
  have selected : Path.select? ⟨.context, [.field "State", .field "RetryCount"]⟩ (.obj fields) =
      some (.int count) := by
    rw [Path.select?, if_pos (by decide)]
    simp only [Path.walk?, Path.child?, Json.field?, hstate, hcount, Option.bind_some]
  simp only [Path.resolve, ofText_retryCountPath, bind, Except.bind, selected]

/-! ## Sections -/

variable {context start : Json} {key name : String} {iteration : Option Json}

theorem find?_sections (context : Json) (key : String) : Fields.find? (sections context) key = context.field? key := by
  cases context <;> rfl

theorem field?_setSection_self (context : Json) (key : String) (value : Json) :
    (setSection context key value).field? key = some value := Fields.find?_set_self _ _ _

/-- A section that is put in leaves the others alone. -/
theorem field?_setSection_of_ne (context : Json) {key other : String} (value : Json) (apart : other ≠ key) :
    (setSection context key value).field? other = context.field? other := by
  rw [← find?_sections context]
  exact Fields.find?_set_of_ne _ _ apart

/-- On entering a state, the section of the state is new, and that of a task is gone. -/
theorem field?_enter_of_ne (sorted : Fields.Sorted (sections context)) {name time : String} (state : key ≠ "State")
    (task : key ≠ "Task") : (enter context name time).field? key = context.field? key := by
  have kept := Fields.find?_erase (sorted.set "State" (Json.object
    [("EnteredTime", .str time), ("Name", .str name), ("RetryCount", .int 0)])) task
  rw [Fields.find?_set_of_ne _ _ state, find?_sections] at kept
  exact kept

theorem field?_enter_task (sorted : Fields.Sorted (sections context)) (name time : String) :
    (enter context name time).field? "Task" = none :=
  Fields.find?_erase_self (sorted.set _ _) "Task"

/-- To set the number of retries is to change the section of the state, if it is an object. -/
theorem setRetryCount_cases (context : Json) (count : Nat) :
    (∃ state, context.field? "State" = some (.obj state) ∧ setRetryCount context count =
      setSection context "State" (.obj (Fields.set state "RetryCount" (.int count)))) ∨
    setRetryCount context count = .obj (sections context) := by
  simp only [setRetryCount]
  split
  · rename_i state hstate
    exact Or.inl ⟨state, (find?_sections context "State").symm.trans hstate, rfl⟩
  · exact Or.inr rfl

theorem field?_setRetryCount_of_ne (context : Json) (count : Nat) (state : key ≠ "State") :
    (setRetryCount context count).field? key = context.field? key := by
  rcases setRetryCount_cases context count with ⟨_, -, e⟩ | e
  · rw [e, field?_setSection_of_ne context _ state]
  · rw [e]
    exact find?_sections context key

/-- The name of the state that the object tells. -/
def HasName (context : Json) (name : String) : Prop :=
  (context.field? "State").bind (·.field? "Name") = some (.str name)

theorem hasName_enter (context : Json) (name time : String) : HasName (enter context name time) name := by
  have state : (enter context name time).field? "State" = some (Json.object
      [("EnteredTime", .str time), ("Name", .str name), ("RetryCount", .int 0)]) :=
    Fields.find?_erase_of_ne (by decide) (Fields.find?_set_self _ _ _)
  rw [HasName, state]
  exact (Fields.find?_set_of_ne _ _ (by decide : "Name" ≠ "RetryCount")).trans (Fields.find?_set_self _ _ _)

theorem HasName.setRetryCount (h : HasName context name) (count : Nat) : HasName (setRetryCount context count) name := by
  rcases setRetryCount_cases context count with ⟨state, hstate, e⟩ | e
  · rw [HasName, hstate] at h
    rw [e, HasName, field?_setSection_self]
    exact (Fields.find?_set_of_ne state _ (by decide : "Name" ≠ "RetryCount")).trans h
  · have same : (Json.obj (sections context)).field? "State" = context.field? "State" := find?_sections context "State"
    rw [e, HasName, same]
    exact h

theorem HasName.setSection (h : HasName context name) {value : Json} (apart : key ≠ "State") :
    HasName (setSection context key value) name := by
  rw [HasName, field?_setSection_of_ne context value (Ne.symm apart)]
  exact h

/-- The section that tells of an iteration: its index and its item. -/
def iterationSection (index : Nat) (item : Json) : Json :=
  .object [("Item", .object [("Index", .int index), ("Value", item)])]

/-- **The object of a run at some place.** Its sections are in order.  Those of the state, of the task and of the map
    change; every other one is as at the start of the run.  The section of the map is as given. -/
structure Keeps (start : Json) (iteration : Option Json) (context : Json) : Prop where
  sorted : Fields.Sorted (sections context)
  others : ∀ key, key ≠ "State" → key ≠ "Task" → key ≠ "Map" → context.field? key = start.field? key
  map : context.field? "Map" = iteration

theorem sorted_start (runId machine startTime : String) (input : Json) (seed : Option Json) :
    Fields.Sorted (sections (Context.start runId machine startTime input seed)) := by
  unfold Context.start
  split
  · refine (Fields.sorted_ofList _).foldl (fun fields entry h => ?_) _
    show Fields.Sorted (addSection fields entry.1 entry.2)
    unfold addSection
    split
    · exact h.set _ _
    · exact h.set _ _
  · exact Fields.sorted_ofList _

theorem keeps_self (sorted : Fields.Sorted (sections start)) : Keeps start (start.field? "Map") start where
  sorted := sorted
  others _ _ _ _ := rfl
  map := rfl

namespace Keeps

variable (h : Keeps start iteration context)
include h

theorem enter (name time : String) : Keeps start iteration (enter context name time) where
  sorted := (h.sorted.set _ _).erase _
  others key state task map := (field?_enter_of_ne h.sorted state task).trans (h.others key state task map)
  map := (field?_enter_of_ne h.sorted (by decide) (by decide)).trans h.map

theorem setRetryCount (count : Nat) : Keeps start iteration (setRetryCount context count) where
  sorted := by
    rcases setRetryCount_cases context count with ⟨_, -, e⟩ | e
    · exact e ▸ h.sorted.set _ _
    · exact e ▸ h.sorted
  others key state task map := (field?_setRetryCount_of_ne context count state).trans (h.others key state task map)
  map := (field?_setRetryCount_of_ne context count (by decide)).trans h.map

theorem issueToken (token : String) : Keeps start iteration (issueToken context token) where
  sorted := h.sorted.set _ _
  others key state task map := (field?_setSection_of_ne context _ task).trans (h.others key state task map)
  map := (field?_setSection_of_ne context _ (by decide)).trans h.map

/-- The object for an iteration tells of that iteration. -/
theorem forItem (index : Nat) (item : Json) :
    Keeps start (some (iterationSection index item)) (forItem context index item) where
  sorted := h.sorted.set _ _
  others key state task map := (field?_setSection_of_ne context _ map).trans (h.others key state task map)
  map := field?_setSection_self context "Map" _

end Keeps

end Workflow.Context
