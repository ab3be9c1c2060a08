import Workflow.Template

/-!
# `Workflow.Fault` — state failures

A fault is what a failing state, data-flow stage or task produces.  It has a name, for which retriers and
catchers look, a cause, and a chain of broader names that it also answers to.

Covers `ErrorRecord`, its constructors, `wrapping` and `to_value`.

## Contents
- `Fault.Name`, the reserved names.
- `Fault.Cause`, everything that can go wrong in a run, and its wording.
- `Fault`, with `Fault.trap?`, `Fault.wrap`, `Fault.matches` and `Fault.toJson`.
-/

namespace Workflow

namespace Fault

/-! ## Names -/

namespace Name

/-- Stands for every name but that of a runtime failure. -/
def all : String := "States.ALL"
/-- A failure that cannot be recovered from: a bad path, a malformed value. -/
def runtime : String := "States.Runtime"
/-- A state or a whole run took longer than it may. -/
def timeout : String := "States.Timeout"
/-- A task failed or has no handler. -/
def taskFailed : String := "States.TaskFailed"
/-- No rule of a choice holds and there is no default. -/
def noChoiceMatched : String := "States.NoChoiceMatched"
/-- A path in a template or the path to the items of a map does not resolve. -/
def parameterPathFailure : String := "States.ParameterPathFailure"
/-- A result cannot be put where it belongs. -/
def resultPathMatchFailure : String := "States.ResultPathMatchFailure"
/-- An intrinsic call cannot be evaluated. -/
def intrinsicFailure : String := "States.IntrinsicFailure"
/-- A branch or an iteration failed. -/
def branchFailed : String := "States.BranchFailed"

end Name

/-! ## Causes -/

/-- What went wrong. -/
inductive Cause where
  /-- Said by a task or by the definition. -/
  | text (message : String)
  /-- The path of a field cannot be used. -/
  | path (field : String) (error : Path.Error)
  | template (error : Template.Error)
  | itemsNotArray (source : String) (kind : String)
  /-- The variable of a condition is no usable path. -/
  | malformedVariable (error : Path.Error)
  | missingVariable (name : String)
  | noChoiceMatched
  | ruleWithoutNext
  | undefinedState (name : String)
  | noTransition
  | noRetrySemantics (kind : String)
  | noHandler (state resource : String)
  | taskTimeout (state : String) (seconds : Nat)
  | runTimeout (seconds : Nat)
  | notTimeout (source : String) (value : Json)
  | notSeconds (source : String) (value : Json)
  | notTimestamp (field : String) (value : Json)
  | noDelay
  /-- A step broke off. -/
  | stepLost (trap : Trap)
  /-- The task of a branch, of an iteration or of the run broke off. -/
  | branchLost (trap : Trap)
  | iterationLost (trap : Trap)
  | runLost (trap : Trap)

/-- The wording of a cause. -/
def Cause.message : Cause → String
  | .text message => message
  | .path field error => field ++ " failed: " ++ error.message
  | .template error => error.message
  | .itemsNotArray source kind =>
    "ItemsPath '" ++ source ++ "' must select an array, got " ++ kind
  | .malformedVariable error => "invalid Variable: " ++ error.message
  | .missingVariable name =>
    "Invalid path '" ++ name
      ++ "': the choice state's condition path references an invalid value"
  | .noChoiceMatched => "no choice rule matched and no Default was specified"
  | .ruleWithoutNext => "matched choice rule has no 'Next'"
  | .undefinedState name => "state '" ++ name ++ "' is not defined"
  | .noTransition => "state has neither 'Next' nor 'End'"
  | .noRetrySemantics kind => kind ++ " states have no retry semantics"
  | .noHandler state resource =>
    "no handler registered for state '" ++ state ++ "' or resource '" ++ resource ++ "'"
  | .taskTimeout state seconds =>
    "task '" ++ state ++ "' did not complete within " ++ toString seconds ++ " seconds"
  | .runTimeout seconds =>
    "execution did not complete within " ++ toString seconds ++ " seconds"
  | .notTimeout source value =>
    "TimeoutSecondsPath '" ++ source ++ "' must resolve to a positive integer, got " ++ value.render
  | .notSeconds source value =>
    "SecondsPath '" ++ source ++ "' must resolve to a non-negative integer, got " ++ value.render
  | .notTimestamp field value =>
    field ++ " " ++ value.render ++ " is not an RFC 3339 timestamp"
  | .noDelay => "Wait state must specify Seconds, Timestamp, SecondsPath or TimestampPath"
  | .stepLost trap => trap.message
  | .branchLost trap => "parallel branch task failed: " ++ trap.message
  | .iterationLost trap => "map iteration task failed: " ++ trap.message
  | .runLost trap => "execution task failed: " ++ trap.message

end Fault

/-! ## Faults -/

/-- A state failure. -/
structure Fault where
  name : String
  cause : Fault.Cause
  /-- The broader names that the fault also answers to. -/
  wrapped : List String

namespace Fault

/-- A fault with no broader names. -/
def new (name : String) (cause : Cause) : Fault := ⟨name, cause, []⟩

/-- A runtime failure. -/
def runtime (cause : Cause) : Fault := .new Name.runtime cause

/-- What a step comes to that breaks off.  It is no failure with a name, and no rule is for it; it ends the task in
which it happens. -/
def trapped (trap : Trap) : Fault := .new "" (.stepLost trap)

/-- The trap that a fault stands for, if a step broke off. -/
def trap? (fault : Fault) : Option Trap :=
  match fault.cause with
  | .stepLost trap => some trap
  | _ => none

/-- The fault that a task raises.  A timeout answers to its own name only. -/
def ofTask (name message : String) : Fault :=
  let chain := if name = Name.timeout ∨ name = Name.taskFailed then [] else [Name.taskFailed]
  ⟨name, .text message, chain⟩

/-- Adds a broader name, unless the fault already answers to it. -/
def wrap (fault : Fault) (name : String) : Fault :=
  if name = fault.name ∨ name ∈ fault.wrapped then fault
  else { fault with wrapped := fault.wrapped ++ [name] }

/-- Whether a name in a retrier or catcher stands for the fault. -/
def «matches» (fault : Fault) (name : String) : Bool :=
  if fault.trap?.isSome then false
  else if name = Name.all then fault.name ≠ Name.runtime
  else fault.name = name ∨ name ∈ fault.wrapped

/-- Name and cause as one line. -/
def message (fault : Fault) : String := fault.name ++ ": " ++ fault.cause.message

/-- The payload that a catcher injects. -/
def toJson (fault : Fault) : Json :=
  .object [("Cause", .str fault.cause.message), ("Error", .str fault.name)]

end Fault

end Workflow
