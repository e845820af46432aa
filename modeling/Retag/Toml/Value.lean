import Retag.Text.Basic

/-! Values of a TOML document, and adding to a table by a path of keys. -/
namespace Retag.Toml

/-- How a table came to be, which decides who may add to it. -/
inductive TableKind where
  /-- Written in braces. -/
  | inline
  /-- Opened by a header of its own. -/
  | headed
  /-- On the way to a table that a header opened. -/
  | implied
  /-- On the way to a value under a dotted key. -/
  | dotted
deriving DecidableEq

inductive Value where
  | string (text : Text)
  | boolean (value : Bool)
  | integer (value : Int)
  /-- A number with a fraction or an exponent, as it is written. -/
  | float (text : Text)
  /-- A date, a time or both, in their plainest spelling. -/
  | datetime (text : Text)
  /-- An array, which headers may extend only if they made it. -/
  | array (headed : Bool) (items : List Value)
  | table (kind : TableKind) (entries : List (Text × Value))

namespace Value

def replaceEntry (key : Text) (value : Value) : List (Text × Value) → List (Text × Value)
  | [] => []
  | entry :: entries =>
    if entry.1 = key then (key, value) :: entries else entry :: replaceEntry key value entries

/-- Adds an entry to a table; its key must be new. -/
def addEntry? (key : Text) (value : Value) : Value → Option Value
  | .table kind entries =>
    if (entries.lookup key).isSome then none else some (.table kind (entries ++ [(key, value)]))
  | _ => none

/-- Whether a path of kind `step` may lead through a table of kind `kind`. Dotted keys lead only
through tables that no header and no braces made. -/
def mayEnter (step kind : TableKind) : Bool :=
  match kind with
  | .inline => false
  | .headed => step != .dotted
  | .implied | .dotted => true

/-- Changes the table that a path leads to. Missing tables are made, of kind `step`; an array that
headers made stands for its last table. -/
def changeAt? (step : TableKind) (change : Value → Option Value) :
    (path : List Text) → Value → Option Value
  | [], last => change last
  | key :: path, .table kind entries =>
    match entries.lookup key with
    | none => do
      let child ← changeAt? step change path (.table step [])
      return .table kind (entries ++ [(key, child)])
    | some (.table childKind children) => do
      if mayEnter step childKind then
        let child ← changeAt? step change path (.table childKind children)
        return .table kind (replaceEntry key child entries)
      else none
    | some (.array true items) => do
      let last ← items.getLast?
      let child ← changeAt? step change path last
      return .table kind (replaceEntry key (.array true (items.dropLast ++ [child])) entries)
    | some _ => none
  | _ :: _, _ => none

def isDotted : Value → Bool
  | .table .dotted _ => true
  | _ => false

/-- Adds a value under a dotted key, given as the path to its last part and that part. A dotted key
may not end in a table that was made another way. -/
def addAt? (path : List Text) (key : Text) (value root : Value) : Option Value :=
  changeAt? .dotted (fun last =>
    if last.isDotted == path.isEmpty then none else addEntry? key value last) path root

/-- Opens the table of a header. -/
def openTable? (path : List Text) (key : Text) (root : Value) : Option Value :=
  changeAt? .implied (fun parent =>
    match parent with
    | .table kind entries =>
      match entries.lookup key with
      | none => some (.table kind (entries ++ [(key, .table .headed [])]))
      | some (.table .implied children) =>
        some (.table kind (replaceEntry key (.table .headed children) entries))
      | some _ => none
    | _ => none) path root

/-- Opens a further table of an array of tables. -/
def openItem? (path : List Text) (key : Text) (root : Value) : Option Value :=
  changeAt? .implied (fun parent =>
    match parent with
    | .table kind entries =>
      match entries.lookup key with
      | none => some (.table kind (entries ++ [(key, .array true [.table .headed []])]))
      | some (.array true items) =>
        some (.table kind (replaceEntry key (.array true (items ++ [.table .headed []])) entries))
      | some _ => none
    | _ => none) path root

end Value
end Retag.Toml
