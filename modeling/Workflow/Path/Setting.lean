import Workflow.Path.Basic

/-!
# `Workflow.Path.Setting` — the path settings of a state

A state names with a path what it takes from its input, where its result goes, and what it passes on.  Such
a setting is absent, an explicit null, or a path text.

Covers `PathSetting`.
-/

namespace Workflow.Path

/-- A path setting of a state. -/
inductive Setting where
  /-- Not given: the whole document. -/
  | whole
  /-- An explicit null: nothing. -/
  | nothing
  | path (text : String)
  deriving DecidableEq, Repr, Inhabited

/-- The path text of the whole data. -/
def dataRoot : String := "$"

/-- The path text in effect, if any. -/
def Setting.text? : Setting → Option String
  | .whole => some dataRoot
  | .nothing => none
  | .path text => some text

end Workflow.Path
