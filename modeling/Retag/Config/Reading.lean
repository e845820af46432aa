import Retag.Config
import Retag.Toml.Document

/-! Reading a configuration from a TOML document. What the document leaves out keeps its built-in
value, and keys that mean nothing are passed over. -/
namespace Retag.Config

/-- The key under which a date or time, which stands for a table, holds its text. -/
def datetimeKey : Text := "$__toml_private_datetime".toList

def entries? : Toml.Value → Option (List (Text × Toml.Value))
  | .table _ entries => some entries
  | .datetime text => some [(datetimeKey, .string text)]
  | _ => none

/-- The fields of a record by their place and name: a table gives them by name, an array by
place. -/
def fields? : Toml.Value → Option (Nat → String → Option Toml.Value)
  | .array _ items => some fun place _ => items[place]?
  | value => (entries? value).map fun entries _ name => entries.lookup name.toList

def readText? : Toml.Value → Option Text
  | .string text => some text
  | _ => none

def readFlag? : Toml.Value → Option Bool
  | .boolean value => some value
  | _ => none

def readList? (read? : Toml.Value → Option α) : Toml.Value → Option (List α)
  | .array _ items => items.mapM read?
  | _ => none

def readTable? (read? : Toml.Value → Option α) (value : Toml.Value) : Option (Table α) := do
  let entries ← (← entries? value).mapM fun (name, item) => (read? item).map (name, ·)
  return Table.ofEntries entries

/-- A field that may be left out. -/
def orElse (default : α) (read? : Toml.Value → Option α) : Option Toml.Value → Option α
  | none => some default
  | some value => read? value

def readStyled? (value : Toml.Value) : Option StyledScheme := do
  let field ← fields? value
  return ⟨← (field 0 "variant").bind readText?, ← (field 1 "scheme").bind readText?⟩

def readColors? (value : Toml.Value) : Option ColorTables := do
  let field ← fields? value
  let builtin := ColorTables.builtin
  return {
    base := ← orElse builtin.base (readTable? readText?) (field 0 "base")
    compound := ← orElse builtin.compound (readTable? readStyled?) (field 1 "compound")
    styles := ← orElse builtin.styles (readList? readText?) (field 2 "style_prefixes")
    styleColors := ← orElse builtin.styleColors (readTable? readStyled?) (field 3 "style_colors")
    fallback := ← orElse builtin.fallback readText? (field 4 "fallback_scheme") }

def readMove? (value : Toml.Value) : Option ImportMove := do
  let field ← fields? value
  return ⟨← (field 0 "source").bind readText?, ← (field 1 "target").bind readText?⟩

def readComponent? (value : Toml.Value) : Option ComponentRule := do
  let field ← fields? value
  return {
    name := ← (field 0 "from").bind readText?
    newName := ← (field 1 "to").bind readText?
    mapColors := ← orElse false readFlag? (field 2 "map_colors")
    props := ← orElse [] (readTable? readText?) (field 3 "props")
    imports := ← orElse none (fun move => (readMove? move).map some) (field 4 "imports") }

def readWalk? (value : Toml.Value) : Option WalkRules := do
  let field ← fields? value
  let builtin := WalkRules.builtin
  return {
    extensions := ← orElse builtin.extensions (readList? readText?) (field 0 "extensions")
    excludedDirs := ← orElse builtin.excludedDirs (readList? readText?) (field 1 "exclude_dirs") }

/-- Reads a configuration from the text of a document. -/
def read? (text : Text) : Option Config := do
  let field ← fields? (← Toml.read? text)
  return {
    components := ← orElse builtin.components (readList? readComponent?) (field 0 "components")
    colors := ← orElse builtin.colors readColors? (field 1 "colors")
    walk := ← orElse builtin.walk readWalk? (field 2 "walk") }

/-- The message for a text that is no configuration. -/
def invalidMessage (path : Text) : Text := "invalid config ".toList ++ path ++ ": ".toList

end Retag.Config
