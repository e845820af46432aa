import Retag.Color.Mapping
import Retag.Config
import Retag.Import.Editing
import Retag.Tag.Renaming
import Retag.Text.Reference

/-! Migrating the text of one file. The component rules go over the text one after the other, and
then the imports of the components that were found are moved. -/
namespace Retag

/-- Renames attributes in the order of the rule's table and maps their colours if the rule says
so. -/
def ComponentRule.transform (rule : ComponentRule) (colors : ColorTables) : AttributeTransform :=
  fun attributes location =>
    let list := rule.props.foldl (fun list (name, newName) => list.rename name newName)
      (AttributeList.ofText attributes)
    if rule.mapColors then
      let (mapped, issues) := colors.mapAttributes location list
      (mapped.render, issues)
    else (list.render, [])

namespace Migration

/-- A migration on its way. -/
structure State where
  text : Text
  origin : Origin
  /-- Open tags that were renamed. -/
  occurrences : Nat := 0
  issues : List Issue := []
  edits : List Edit := []

structure Outcome where
  text : Text
  changed : Bool
  occurrences : Nat
  /-- In the order of their positions. -/
  issues : List Issue
  edits : List Edit

def start (file source : Text) : State :=
  { text := source, origin := Origin.ofSource file source }

/-- Applies one rule, and returns whether the component was found. There is no result if tags
overlap. -/
def applyRule? (colors : ColorTables) (state : State) (rule : ComponentRule) :
    Option (State × Bool) :=
  if Text.occursIn rule.name state.text then do
    let result ← Tag.rename? state.text rule.name rule.newName state.origin
      (rule.transform colors)
    let next : State := {
      text := result.text
      origin := state.origin.push result.splices
      occurrences := state.occurrences + result.count
      issues := state.issues ++ result.issues
      edits := state.edits ++ result.edits }
    return (next, 0 < result.count)
  else some (state, false)

/-- Applies the rules in order, and returns those whose component was found. -/
def applyRules? (colors : ColorTables) (state : State) :
    List ComponentRule → Option (State × List ComponentRule)
  | [] => some (state, [])
  | rule :: rules => do
    let (next, found) ← applyRule? colors state rule
    let (last, used) ← applyRules? colors next rules
    return (last, if found then rule :: used else used)

/-- The line of the file as it was read on which a statement stands. -/
def lineOf (origin : Origin) (found : Text.Found NamedImport) : Nat :=
  (origin.locate found.before.size).position.line

/-- Takes over a text in which the import of `module` was changed. The edit names the line of the
statement, or for a new one the line after which it was put in. -/
def recordImport (state : State) (module text : Text) : State :=
  match Splice.between state.text text with
  | none => state
  | some splice =>
    let before := Import.findNamed? state.text module
    let after := Import.findNamed? text module
    let origin := state.origin.push [splice]
    let line := (before.map (lineOf state.origin)).or (after.map (lineOf origin))
    let statement (found : Option (Text.Found NamedImport)) : Text :=
      (found.map (·.item.text)).getD []
    { state with
      text
      origin
      edits := state.edits ++ [⟨line.getD 1, statement before, statement after⟩] }

def stillReferencedMessage (name module : Text) : Text :=
  '`' :: name ++ "` is still referenced; kept its import from `".toList ++ module ++ ['`']

/-- Takes the component out of its old import, unless it is still in use. -/
def removeImport (state : State) (name module : Text) : State :=
  match Import.findNamed? state.text module with
  | none => state
  | some found =>
    let offset := found.before.size
    if !found.item.names.contains name then state
    else if Text.referencedOutside name offset (offset + found.item.text.size) state.text then
      let issue : Issue :=
        ⟨.stillReferenced, state.origin.locate offset, stillReferencedMessage name module⟩
      { state with issues := state.issues ++ [issue] }
    else recordImport state module (Import.remove state.text module name)

/-- Moves the import of a component that was found. -/
def moveImport (state : State) (rule : ComponentRule) : State :=
  match rule.imports with
  | none => state
  | some move =>
    let state := removeImport state rule.name move.source
    recordImport state move.target (Import.ensure state.text move.target rule.newName)

def earlier (a b : Issue) : Bool :=
  let p := a.location.position
  let q := b.location.position
  p.line < q.line || (p.line == q.line && p.column ≤ q.column)

/-- Migrates the text of a file. There is no result if a rule's open and closing tags overlap,
which needs a name that is empty or starts with a slash. -/
def migrate? (config : Config) (file source : Text) : Option Outcome := do
  let (state, used) ← applyRules? config.colors (start file source) config.components
  let last := used.foldl moveImport state
  return {
    text := last.text
    changed := last.text != source
    occurrences := last.occurrences
    issues := StableSort.sort earlier last.issues
    edits := last.edits }

end Migration
end Retag
