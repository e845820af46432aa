import Retag.Attribute.Basic
import Retag.Text.LineMatch
import Retag.Text.Lines
import Retag.Text.Word

/-! Import statements with a list of names in braces, and possibly a default name before it, such
as `import React, { useState } from 'react'`. -/
namespace Retag

structure NamedImport where
  /-- The statement as it stands, indentation and semicolon included. -/
  text : Text
  defaultName : Option Text
  names : List Text
  /-- Whether the list of names has a line break. -/
  multiline : Bool
  /-- What stands before the names of a list with line breaks. -/
  indent : Text
  quote : Quote
  semicolon : Bool
deriving DecidableEq

namespace Import

/-- Drops white space, of which there must be some. -/
def dropBlanks? : Text → Option Text
  | [] => none
  | c :: cs => if Text.isBlank c then some (cs.dropWhile Text.isBlank) else none

def readQuote? : Text → Option (Quote × Text)
  | [] => none
  | c :: cs => (Quote.ofChar? c).map fun quote => (quote, cs)

/-- Takes a semicolon, with spaces and tabs before it, if there is one. -/
def readSemicolon (text : Text) : Bool × Text :=
  match text.dropWhile Text.isSpaceOrTab with
  | ';' :: rest => (true, rest)
  | _ => (false, text)

theorem suffix_of_readQuote? {text rest : Text} {quote : Quote}
    (read : readQuote? text = some (quote, rest)) : rest <:+ text := by
  cases text with
  | nil => simp [readQuote?] at read
  | cons c cs =>
    obtain ⟨_, _, same⟩ := Option.map_eq_some_iff.1 read
    simp only [Prod.mk.injEq] at same
    exact same.2 ▸ List.suffix_cons c cs

theorem readSemicolon_suffix (text : Text) : (readSemicolon text).2 <:+ text := by
  unfold readSemicolon
  split
  · rename_i rest found
    exact (List.suffix_cons ';' rest).trans (found ▸ List.dropWhile_suffix _)
  · exact List.suffix_refl text

def startsName (c : Char) : Bool := c.isAlpha || c == '_' || c == '$'

def continuesName (c : Char) : Bool := Text.isWord c || c == '$'

/-- Takes a name and a comma, if there are such. -/
def readDefault (text : Text) : Option Text × Text :=
  match text with
  | [] => (none, text)
  | c :: cs =>
    if startsName c then
      match Text.trimStart (cs.dropWhile continuesName) with
      | ',' :: rest => (some (c :: cs.takeWhile continuesName), Text.trimStart rest)
      | _ => (none, text)
    else (none, text)

/-- The text up to a character, which must occur, and what follows it. -/
def untilChar? (stop : Char) (text : Text) : Option (Text × Text) :=
  match text.dropWhile (· != stop) with
  | [] => none
  | _ :: rest => some (text.takeWhile (· != stop), rest)

/-- The entries of a list of names, in order. -/
def readNames (list : Text) : List Text :=
  ((Text.splitOn ',' list).map Text.trim).filter (!·.isEmpty)

/-- The spaces and tabs before the first name that stands on a line after the first; two spaces if
there is none. -/
def readIndent (list : Text) : Text :=
  match ((Text.lines list).drop 1).find? fun line => !(Text.trim line).isEmpty with
  | some line => line.takeWhile Text.isSpaceOrTab
  | none => [' ', ' ']

/-- Reads a statement that imports from `module`, at the start of a line. -/
def readNamed? (module : Text) (line : Text) : Option (NamedImport × Text) := do
  let rest ← Text.dropPrefix? "import".toList (line.dropWhile Text.isSpaceOrTab)
  let rest ← dropBlanks? rest
  let (defaultName, rest) := readDefault rest
  let rest ← Text.dropPrefix? ['{'] rest
  let (list, rest) ← untilChar? '}' rest
  let rest ← Text.dropPrefix? "from".toList (Text.trimStart rest)
  let (quote, rest) ← readQuote? (Text.trimStart rest)
  let rest ← Text.dropPrefix? module rest
  let (_, rest) ← readQuote? rest
  let (semicolon, rest) := readSemicolon rest
  let statement : NamedImport := {
    text := line.take (line.length - rest.length)
    defaultName
    names := readNames list
    multiline := list.contains '\n'
    indent := readIndent list
    quote
    semicolon }
  return (statement, rest)

/-- The first named import of `module`. -/
def findNamed? (source module : Text) : Option (Text.Found NamedImport) :=
  Text.firstAtLine? (readNamed? module) true source

/-- The end of a statement: `from` and the module in quotes. -/
def renderFrom (module : Text) (quote : Quote) (semicolon : Bool) : Text :=
  "from ".toList ++ quote.char :: module ++ quote.char :: if semicolon then [';'] else []

end Import

namespace NamedImport

/-- The statement with other names, in the same layout. Without names only the default name is
left to import, or nothing. -/
def render (statement : NamedImport) (module : Text) (names : List Text) : Text :=
  let ending := Import.renderFrom module statement.quote statement.semicolon
  match names with
  | [] =>
    match statement.defaultName with
    | some name => "import ".toList ++ name ++ ' ' :: ending
    | none => []
  | _ =>
    let start := "import ".toList ++
      match statement.defaultName with
      | some name => name ++ ", ".toList
      | none => []
    let list :=
      if statement.multiline then
        '\n' :: names.flatMap fun name => statement.indent ++ name ++ ",\n".toList
      else ' ' :: ", ".toList.intercalate names ++ [' ']
    start ++ '{' :: list ++ '}' :: ' ' :: ending

end NamedImport
end Retag
