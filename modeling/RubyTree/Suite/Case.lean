import RubyTree.Yaml.Document

/-!
# Cases

A case of a suite: a recorded stream, the dump it has to lead to, and the diagnostics it has to
report. A suite file is a sequence of cases in YAML.
-/

namespace RubyTree

/-- A recorded stream and what it has to lead to. -/
structure Case where
  name : String
  events : String
  expected : String
  diagnostics : List String := []
  /-- The case is not to be run. -/
  skip : Bool := false
  /-- Only cases marked like this one are to be run. -/
  only : Bool := false
  deriving DecidableEq

namespace Case

open Yaml (Document)
open Yaml.Document (Reading)

/-- A part that is written once, or its default if it is not written. -/
def optional {α : Type} (default : α) (read : Yaml.Node → Reading α) :
    List Yaml.Node → Reading α
  | [] => return default
  | [node] => read node
  | _ => failure

/-- A part that has to be written once. -/
def required {α : Type} (read : Yaml.Node → Reading α) : List Yaml.Node → Reading α
  | [node] => read node
  | _ => failure

/-- The case that a mapping spells. Keys that are not known are not looked at. -/
def ofNode (document : Document) (node : Yaml.Node) : Reading Case := do
  match ← document.follow node with
  | .mapping _ entries => do
    let entries ← entries.mapM fun (key, value) => return (← document.text key, value)
    let written (name : String) := entries.filterMap fun (key, value) =>
      if key = name then some value else none
    return {
      name := ← required document.text (written "name")
      events := ← required document.text (written "events")
      expected := ← required document.text (written "expected")
      diagnostics := ← optional [] document.texts (written "diagnostics")
      skip := ← optional false document.bool (written "skip")
      only := ← optional false document.bool (written "only") }
  | _ => failure

/-- The cases of a suite. -/
def ofDocument (document : Document) (root : Yaml.Node) : Reading (List Case) := do
  (← document.items root).mapM (ofNode document)

/-- The cases of a suite file. -/
def readAll? (text : String) : Option (List Case) := do
  (← Document.read? text).readAs? ofDocument

end Case

end RubyTree
