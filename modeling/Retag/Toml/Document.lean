import Retag.Toml.Datetime
import Retag.Toml.Quoted

/-! Reading a TOML document. Only the value counts: where and why a text is no document is not
reported. -/
namespace Retag.Toml

def skipWhite (text : Text) : Text := text.dropWhile isWhite

def isBareKey (c : Char) : Bool := c.isAlphanum || c == '-' || c == '_'

def readKeyPart? (text : Text) : Option (Text × Text) :=
  match text with
  | '"' :: _ | '\'' :: _ => readLineString? text
  | _ =>
    let name := text.takeWhile isBareKey
    if name.isEmpty then none else some (name, text.dropWhile isBareKey)

/-- The parts of a dotted key. -/
def readKeyParts? : (fuel : Nat) → Text → Option (List Text × Text)
  | 0, _ => none
  | fuel + 1, text => do
    let (part, rest) ← readKeyPart? (skipWhite text)
    match skipWhite rest with
    | '.' :: rest => do
      let (parts, rest) ← readKeyParts? fuel rest
      return (part :: parts, rest)
    | rest => return ([part], rest)

/-- How many arrays and tables a value may have inside each other, and how many parts a dotted key
may have. -/
def depthLimit : Nat := 79

/-- A dotted key as the path to its last part and that part. -/
def readKey? (text : Text) : Option (List Text × Text × Text) := do
  let (parts, rest) ← readKeyParts? depthLimit text
  return (parts.dropLast, ← parts.getLast?, rest)

def dropComment (text : Text) : Text :=
  match text with
  | '#' :: rest => rest.dropWhile isPlain
  | _ => text

/-- Drops white space, line breaks and comments. -/
def skipLines : (fuel : Nat) → Text → Text
  | 0, text => text
  | fuel + 1, text =>
    let rest := dropComment (skipWhite text)
    match dropNewline? rest with
    | some next => skipLines fuel next
    | none => rest

mutual

/-- Reads a value. `depth` is how many more levels it may have. -/
def readValue? (fuel depth : Nat) (text : Text) : Option (Value × Text) :=
  match fuel, text with
  | 0, _ | _, [] => none
  | fuel + 1, '[' :: rest => do
    if depth = 0 then none
    let (items, rest) ← readItems? fuel (depth - 1) rest
    return (.array false items, rest)
  | fuel + 1, '{' :: rest => do
    if depth = 0 then none
    match skipWhite rest with
    | '}' :: rest => return (.table .inline [], rest)
    | rest => readEntries? fuel (depth - 1) (.table .inline []) rest
  | _, c :: rest =>
    if c == '"' || c == '\'' then (readString? (c :: rest)).map fun (s, rest) => (.string s, rest)
    else readScalar? (c :: rest)

/-- Reads the items of an array up to its end. A comma may stand after the last. -/
def readItems? (fuel depth : Nat) (text : Text) : Option (List Value × Text) :=
  match fuel with
  | 0 => none
  | fuel + 1 =>
    match skipLines text.length text with
    | ']' :: rest => some ([], rest)
    | start => do
      let (item, rest) ← readValue? fuel depth start
      match skipLines rest.length rest with
      | ',' :: rest => do
        let (items, rest) ← readItems? fuel depth rest
        return (item :: items, rest)
      | ']' :: rest => return ([item], rest)
      | _ => none

/-- Reads the entries of a table in braces, which all stand on one line, up to its end. -/
def readEntries? (fuel depth : Nat) (table : Value) (text : Text) : Option (Value × Text) :=
  match fuel with
  | 0 => none
  | fuel + 1 => do
    let (path, key, rest) ← readKey? text
    let rest ← Text.dropPrefix? ['='] rest
    let (value, rest) ← readValue? fuel depth (skipWhite rest)
    let table ← Value.addAt? path key value table
    match skipWhite rest with
    | ',' :: rest => readEntries? fuel depth table rest
    | '}' :: rest => return (table, rest)
    | _ => none

end

/-- Drops the end of a line: a comment and the line break, or the end of the text. -/
def dropLineRest? (text : Text) : Option Text :=
  match dropComment (skipWhite text) with
  | [] => some []
  | rest => dropNewline? rest

/-- A document on its way: all tables, and the path to the one that the last header opened. -/
structure Draft where
  root : Value := .table .headed []
  current : List Text := []

/-- Reads an entry or a header, with the end of its line. -/
def readLine? (draft : Draft) (text : Text) : Option (Draft × Text) :=
  match text with
  | '[' :: '[' :: rest => do
    let (path, key, rest) ← readKey? rest
    let rest ← Text.dropPrefix? [']', ']'] rest
    let root ← Value.openItem? path key draft.root
    return (⟨root, path ++ [key]⟩, ← dropLineRest? rest)
  | '[' :: rest => do
    let (path, key, rest) ← readKey? rest
    let rest ← Text.dropPrefix? [']'] rest
    let root ← Value.openTable? path key draft.root
    return (⟨root, path ++ [key]⟩, ← dropLineRest? rest)
  | _ => do
    let (path, key, rest) ← readKey? text
    let rest ← Text.dropPrefix? ['='] rest
    let (value, rest) ← readValue? text.length.succ depthLimit (skipWhite rest)
    let root ← Value.changeAt? .implied (Value.addAt? path key value) draft.current draft.root
    return (⟨root, draft.current⟩, ← dropLineRest? rest)

/-- Reads lines to the end of the text. -/
def readLines? : (fuel : Nat) → Draft → Text → Option Value
  | 0, _, _ => none
  | fuel + 1, draft, text =>
    match dropComment (skipWhite text) with
    | [] => some draft.root
    | rest =>
      match dropNewline? rest with
      | some next => readLines? fuel draft next
      | none => do
        let (next, rest) ← readLine? draft rest
        readLines? fuel next rest

/-- Reads a document as its table. A byte order mark at its start does not count. -/
def read? (text : Text) : Option Value :=
  let text := match text with
    | '\ufeff' :: rest => rest
    | _ => text
  readLines? text.length.succ {} text

end Retag.Toml
