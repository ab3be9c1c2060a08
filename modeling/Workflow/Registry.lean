import Workflow.Json.Basic
import Workflow.Text.Hidden

/-!
# `Workflow.Registry` — handlers by key

A handler is registered under the name of a state or of a resource.  A task looks for its own name first, so
that a single state can be given a handler of its own.

Covers `TaskHandlerRegistry`, `register`, `get` and `resolve`.

## Contents
- `Registry`, `Registry.ofList` and `Registry.resolve?`.
- `Registry.describe`, a line with all keys.
-/

namespace Workflow

/-- Handlers under their keys. -/
structure Registry (α : Type) where
  handlers : Fields α

namespace Registry

variable {α : Type}

/-- Registers handlers in turn; a later one replaces an earlier one of the same key. -/
def ofList (entries : List (String × α)) : Registry α := ⟨Fields.ofList entries⟩

/-- The handler under a key, together with the key. -/
def entry? (registry : Registry α) (key : String) : Option (String × α) :=
  (Fields.find? registry.handlers key).map (key, ·)

/-- The handler of a task and its key: that of the state, or else that of the resource. -/
def resolve? (registry : Registry α) (state resource : String) : Option (String × α) :=
  (registry.entry? state).or (registry.entry? resource)

def size (registry : Registry α) : Nat := registry.handlers.length

def isEmpty (registry : Registry α) : Bool := registry.handlers.isEmpty

/-! ## Description -/

/-- A character of a key as it is shown. -/
def shown (c : Char) : String :=
  match c with
  | '"' => "\\\""
  | '\\' => "\\\\"
  | '\n' => "\\n"
  | '\r' => "\\r"
  | '\t' => "\\t"
  | '\x00' => "\\0"
  | c =>
    if Text.isHidden c then "\\u\x7b" ++ String.ofList (Nat.toDigits 16 c.toNat) ++ "\x7d"
    else c.toString

/-- A key in quotes. -/
def quoted (key : String) : String := "\"" ++ String.join (key.toList.map shown) ++ "\""

/-- All keys, in order. -/
def describe (registry : Registry α) : String :=
  "TaskHandlerRegistry \x7b keys: ["
    ++ ", ".intercalate ((Fields.keys registry.handlers).map quoted) ++ "] \x7d"

end Registry

end Workflow
