import Workflow.Yaml.Token

/-!
# `Workflow.Yaml.Node` — nodes of a document

A document is a node: a scalar, a sequence, a mapping, or an alias of another node.  What is left out is an empty
scalar.

## Contents
- `Node`, over what anchors and aliases are called.
- `nodeTo`, the scanner of nodes, and those of their parts.
- `Node.ofTokens?`, the root of the only document of a text.
-/

namespace Workflow.Yaml

open Text Text.Scanner

/-! ## Nodes -/

/-- A node of a document, where anchors have names of the given type. -/
inductive Node (ν : Type) where
  | scalar (tag : Option Tag) (text : String) (style : Style)
  | sequence (tag : Option Tag) (items : List (Node ν))
  | mapping (tag : Option Tag) (entries : List (Node ν × Node ν))
  /-- A node that can be referred to. -/
  | anchored (name : ν) (node : Node ν)
  /-- The node of a name. -/
  | alias (name : ν)

/-- A node by the names in the text. -/
abbrev NamedNode := Node String

/-- The node that is left out. -/
def Node.absent {ν : Type} : Node ν := .scalar none "" .plain

/-- What handles stand for. -/
abbrev Handles := List (String × Tag)

/-- What handles stand for by themselves. -/
def Handles.default : Handles := [("!", .ofText "!"), ("!!", .ofText "tag:yaml.org,2002:")]

/-- A tag written in full, unless its handle stands for nothing. -/
def TagMark.full? (handles : Handles) (tag : TagMark) : Option Tag :=
  if tag.handle.isEmpty then some tag.suffix
  else (handles.lookup tag.handle).map (· ++ tag.suffix)

/-! ## Tokens -/

/-- A scanner of tokens. -/
abbrev TokenScanner := ScannerOf Token

/-- Takes the given token. -/
def token (token : Token) : TokenScanner Unit := (fun _ => ()) <$> one (· == token)

/-- Whether one of the given tokens follows. -/
def follows (tokens : List Token) : TokenScanner Bool := do
  return (← peek).any (tokens.contains ·)

/-- Takes a node, or nothing in front of the given tokens. -/
def nodeUnless (ending : List Token) (node : TokenScanner NamedNode) : TokenScanner NamedNode := do
  if ← follows ending then return .absent else node

/-! ## Properties -/

/-- Takes the name of an anchor. -/
def anchorOf : TokenScanner String := fun
  | .anchor name :: rest => some (name, rest)
  | _ => none

/-- Takes a tag. -/
def tagOf : TokenScanner TagMark := fun
  | .tag tag :: rest => some (tag, rest)
  | _ => none

/-- What stands in front of a node. -/
structure Properties where
  anchor : Option String
  tag : Option Tag

/-- Takes the properties of a node, in either order. -/
def properties (handles : Handles) : TokenScanner Properties := do
  let first ← maybe anchorOf
  let tag ← maybe tagOf
  let last ← if first.isNone && tag.isSome then maybe anchorOf else pure none
  match tag with
  | none => return ⟨first, none⟩
  | some tag =>
    match tag.full? handles with
    | some tag => return ⟨first.or last, some tag⟩
    | none => failure

/-- The tag of a scalar: the mark alone says nothing. -/
def Properties.scalarTag (p : Properties) : Option Tag := p.tag.filter (· ≠ .ofText "!")

/-- Puts an anchor at a node. -/
def Properties.anchored (p : Properties) (node : NamedNode) : NamedNode :=
  match p.anchor with
  | some name => .anchored name node
  | none => node

/-- The node that is left out after its properties, of which there must be one. -/
def Properties.absent (p : Properties) : TokenScanner NamedNode :=
  if p.anchor.isSome || p.tag.isSome then return .scalar p.tag "" .plain else failure

/-! ## Collections -/

/-- What ends an item that is told by a dash below a key. -/
def listEndings : List Token := [.item, .key, .value, .blockEnd]

/-- What ends a key or a value that is told by indentation. -/
def entryEndings : List Token := [.key, .value, .blockEnd]

/-- Takes items, each with a dash. -/
def items (ending : List Token) (node : TokenScanner NamedNode) : TokenScanner (List NamedNode) :=
  many (token .item *> nodeUnless ending node)

/-- Takes the value after a key, which may be left out. -/
def valueOr (ending : List Token) (node : TokenScanner NamedNode) : TokenScanner NamedNode := do
  match ← maybe (token .value) with
  | some () => nodeUnless ending node
  | none => return .absent

/-- Takes a key and its value that are told by indentation. -/
def blockEntry (node : TokenScanner NamedNode) : TokenScanner (NamedNode × NamedNode) := do
  token .key
  let key ← nodeUnless entryEndings node
  return (key, ← valueOr entryEndings node)

/-- Takes a mapping of one entry inside the brackets of a sequence.  Where the key is left out, the token after it is
lost. -/
def flowPair (node : TokenScanner NamedNode) : TokenScanner NamedNode := do
  token .key
  let key ←
    if ← follows [.value, .comma, .closeSequence] then
      let _ ← one fun _ => true
      pure .absent
    else node
  return .mapping none [(key, ← valueOr [.comma, .closeSequence] node)]

/-- Takes an entry inside the brackets of a mapping. -/
def flowEntry (node : TokenScanner NamedNode) : TokenScanner (NamedNode × NamedNode) :=
  let ending := [Token.comma, .closeMapping]
  (do
    token .key
    let key ← nodeUnless (.value :: ending) node
    return (key, ← valueOr ending node))
  <|> (·, .absent) <$> node

/-- Takes parts with commas between them, and perhaps one after the last. -/
def listed {α : Type} (part : TokenScanner α) : TokenScanner (List α) := do
  match ← maybe (separated part (token .comma)) with
  | some parts =>
    let _ ← maybe (token .comma)
    return parts
  | none => return []

/-! ## Nodes from tokens -/

/-- Where a node stands: inside brackets, where only brackets make collections; where indentation does; or below a
key, where items may stand without further indentation. -/
inductive Surroundings where
  | brackets | block | belowKey
  deriving DecidableEq

/-- Takes a node whose scalars are inside at most the given number of collections, less one. -/
def nodeTo (handles : Handles) : Nat → Surroundings → TokenScanner NamedNode
  | 0, _ => failure
  | depth + 1, around => do
    let inside := nodeTo handles depth
    match ← peek with
    | some (.alias name) => (fun _ => .alias name) <$> one fun _ => true
    | _ =>
      let p ← properties handles
      p.anchored <$> do
        match ← peek with
        | some (.scalar text style) =>
          (fun _ => .scalar p.scalarTag text style) <$> one fun _ => true
        | some .openSequence =>
          .sequence p.tag <$> (token .openSequence
            *> listed (flowPair (inside .brackets) <|> inside .brackets) <* token .closeSequence)
        | some .openMapping =>
          .mapping p.tag <$> (token .openMapping
            *> listed (flowEntry (inside .brackets)) <* token .closeMapping)
        | some .item =>
          if around = .belowKey then .sequence p.tag <$> items listEndings (inside .block)
          else p.absent
        | some .blockSequence =>
          if around = .brackets then p.absent
          else .sequence p.tag <$> (token .blockSequence
            *> items [.item, .blockEnd] (inside .block) <* token .blockEnd)
        | some .blockMapping =>
          if around = .brackets then p.absent
          else .mapping p.tag <$> (token .blockMapping
            *> many (blockEntry (inside .belowKey)) <* token .blockEnd)
        | _ => p.absent

/-! ## Documents -/

/-- The greatest number of collections inside each other. -/
def depthMax : Nat := 128

/-- Takes a directive. -/
def directiveOf : TokenScanner Directive := fun
  | .directive directive :: rest => some (directive, rest)
  | _ => none

/-- What handles stand for after directives.  There may be one version, of the format as it is or was, and each
handle may be given one meaning. -/
def Handles.ofDirectives? (directives : List Directive) : Option Handles :=
  let versions := directives.filterMap fun
    | .version major minor => some (major, minor)
    | .handle .. => none
  let handles := directives.filterMap fun
    | .handle handle meaning => some (handle, meaning)
    | .version .. => none
  if versions.length ≤ 1 ∧ versions.all [(1, 1), (1, 2)].contains ∧ (handles.map (·.1)).Nodup then
    some (handles ++ Handles.default)
  else none

/-- Takes the node of a document and what stands in front of it. -/
def root : TokenScanner NamedNode := do
  let directives ← many directiveOf
  let start ← maybe (token .documentStart)
  if start.isNone && !directives.isEmpty then failure
  match Handles.ofDirectives? directives with
  | none => failure
  | some handles =>
    let node := nodeTo handles (depthMax + 1) .block
    if start.isNone then node
    else if (← get).isEmpty then return .absent
    else nodeUnless [.documentStart, .documentEnd] node

/-- The root of the only document that tokens make up. -/
def Node.ofTokens? (tokens : List Token) : Option NamedNode :=
  ((root <* many (token .documentEnd) <* atEnd) tokens).map (·.1)

end Workflow.Yaml
