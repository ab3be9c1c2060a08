import Workflow.Path.Parser
import Workflow.Path.Select
import Workflow.Path.Inject

/-!
# `Workflow.Path.Resolve` — path texts at work

Definitions hold paths as texts.  The functions here read such a text and use it on documents; an error
names the text.

Covers `from_str`, `resolve`, `check_path`, and `select` and `inject` of texts.
-/

namespace Workflow.Path

/-- The path that a text denotes, or the flaw together with the text. -/
def ofText (text : String) : Except Error Path :=
  (parse text).mapError (.malformed text)

/-- The value that a path text selects in a document, whatever its root. -/
def selectText (text : String) (document : Json) : Except Error Json := do
  match (← ofText text).select? document with
  | some value => .ok value
  | none => .error (.notFound text)

/-- The error that a halt stands for. -/
def Halt.error (text : String) : Halt → Error
  | .refused refusal => .refused text refusal
  | .trapped trap => .trapped trap

/-- A document with a value written at the place that a path text names. -/
def injectText (text : String) (document value : Json) : Except Error Json := do
  ((← ofText text).inject document value).mapError (Halt.error text)

/-- The value that a path text selects in the document that its root names. -/
def resolve (text : String) (data context : Json) : Except Error Json := do
  let path ← ofText text
  let document := match path.root with
    | .data => data
    | .context => context
  match path.select? document with
  | some value => .ok value
  | none => .error (.notFound text)

/-- Checks that a text is a path and, on demand, that the path can be written to. -/
def check (text : String) (writable : Bool) : Except Error Unit := do
  let path ← ofText text
  if writable ∧ ¬ path.Writable then .error (.refused text .notWritable) else .ok ()

end Workflow.Path
