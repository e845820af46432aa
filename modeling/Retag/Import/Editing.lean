import Retag.Import.Site

/-! Taking a name out of a module's import and making sure that one is imported. -/
namespace Retag.Import

def dropLineBreak : Text → Text
  | '\r' :: '\n' :: rest => rest
  | '\n' :: rest => rest
  | text => text

/-- Takes `name` out of the first named import of `module`. A statement with nothing left to import
goes as a whole, with the line break after it. -/
def remove (source module name : Text) : Text :=
  match findNamed? source module with
  | none => source
  | some found =>
    if found.item.names.contains name then
      let statement := found.item.render module (found.item.names.filter (· != name))
      let after := if statement.isEmpty then dropLineBreak found.after else found.after
      found.before ++ statement ++ after
    else source

/-- A statement that imports one name. -/
def single (module name : Text) (quote : Quote) (semicolon : Bool) : Text :=
  "import \x7b ".toList ++ name ++ " \x7d ".toList ++ renderFrom module quote semicolon

/-- The line breaks between a statement put on top of a text and the text. -/
def gapBefore : Text → Text
  | '\n' :: _ | '\r' :: '\n' :: _ => ['\n']
  | _ => ['\n', '\n']

/-- Makes sure that `name` is imported from `module`: in the first named import of the module, or
else by a statement of its own after the last import, or on top of the text. -/
def ensure (source module name : Text) : Text :=
  match findNamed? source module with
  | some found =>
    if found.item.names.contains name then source
    else found.before ++ found.item.render module (found.item.names ++ [name]) ++ found.after
  | none =>
    match (sites source).getLast? with
    | some last =>
      source.takeBytes last.stop ++ '\n' :: single module name last.quote last.semicolon ++
        source.dropBytes last.stop
    | none => single module name .single false ++ gapBefore source ++ source

end Retag.Import
