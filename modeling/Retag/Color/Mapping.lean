import Retag.Attribute.Editing
import Retag.Color.Tables
import Retag.Issue

/-! Moving the colour information of a tag from `color` and compound `variant` values to a style
`variant` and a `colorScheme`. Expressions are never changed; they are reported instead. -/
namespace Retag.ColorTables

def variantName : Text := "variant".toList

def colorName : Text := "color".toList

def schemeName : Text := "colorScheme".toList

/-- An expression as messages show it, with its braces and between backquotes. -/
def quotedExpression (expression : Text) : Text :=
  "`\x7b".toList ++ expression ++ "\x7d`".toList

def variantMessage (expression : Text) : Text :=
  "variant expression ".toList ++ quotedExpression expression ++
    " requires manual mapping".toList

/-- The message for a colour expression; a scheme found in `variant` is named in it. -/
def colorMessage (expression : Text) (hint : Option Text) : Text :=
  "color expression ".toList ++ quotedExpression expression ++
    " requires manual mapping".toList ++
    match hint with
    | some scheme => "; colorScheme `".toList ++ scheme ++ "` from variant not applied".toList
    | none => []

def schemeMessage (expression scheme : Text) : Text :=
  "colorScheme expression ".toList ++ quotedExpression expression ++
    " kept; resolved scheme `".toList ++ scheme ++ "` not applied".toList

/-- The first value of that name. -/
def valueOf? (list : AttributeList) (name : Text) : Option Attribute.Value :=
  (list.get? name).map (·.value)

/-- A list on the way through the mapping, with the messages so far. -/
structure Stage where
  list : AttributeList
  messages : List Text := []

/-- Splits a compound `variant` into its style, which stays, and its scheme, which is returned. -/
def splitVariant (colors : ColorTables) (list : AttributeList) : Stage × Option Text :=
  match valueOf? list variantName with
  | some (.literal _ text) =>
    match colors.compound? text with
    | some styled =>
      ({ list := list.modify variantName (·.setLiteral styled.variant) }, some styled.scheme)
    | none => ({ list }, none)
  | some (.expression text) => ({ list, messages := [variantMessage text] }, none)
  | _ => ({ list }, none)

/-- Writes an implied variant over a literal one, unless that was a compound value. Returns the
attribute to add if there is none. -/
def placeVariant (list : AttributeList) (variant : Option Text) (compound : Bool) :
    AttributeList × List Attribute :=
  match variant with
  | none => (list, [])
  | some text =>
    match valueOf? list variantName with
    | none => (list, [.ofLiteral variantName text])
    | some value =>
      if !compound && value.isLiteral then
        (list.modify variantName (·.setLiteral text), [])
      else (list, [])

/-- Writes a scheme over any `colorScheme` that is no expression. Returns the attribute to add if
there is none. -/
def placeScheme (list : AttributeList) (scheme : Option Text) : Stage × List Attribute :=
  match scheme with
  | none => ({ list }, [])
  | some text =>
    match valueOf? list schemeName with
    | none => ({ list }, [.ofLiteral schemeName text])
    | some (.expression expression) => ({ list, messages := [schemeMessage expression text] }, [])
    | some _ => ({ list := list.modify schemeName (·.setLiteral text) }, [])

/-- Puts new attributes where the colour stood, or else right after `variant`. With nothing to add
the colour's gap is closed. -/
def settle (list : AttributeList) (slot : Option Nat) (added : List Attribute) : AttributeList :=
  if added.isEmpty then (slot.map list.collapseBlankAt).getD list
  else
    let place := slot.or ((list.find? variantName).map (· + 1))
    list.insertAt (place.getD list.length) added

/-- The steps after `color` was taken out: `slot` is where a literal stood, `implied` what it
stands for and `hint` the scheme of a compound variant. -/
def place (list : AttributeList) (slot : Option Nat) (implied : Option Resolution)
    (hint : Option Text) : Stage :=
  let (list, variants) := placeVariant list (implied.bind (·.variant)) hint.isSome
  let (stage, schemes) := placeScheme list ((implied.map (·.scheme)).or hint)
  { stage with list := (settle stage.list slot (variants ++ schemes)).separate }

/-- Maps the colours of an attribute list, with the messages for what was left. -/
def mapList (colors : ColorTables) (list : AttributeList) : Stage :=
  let (start, hint) := colors.splitVariant list
  let rest : Stage :=
    match start.list.find? colorName with
    | none => place start.list none none hint
    | some index =>
      let without : AttributeList := start.list.eraseIdx index
      match valueOf? start.list colorName with
      | some (.literal _ text) => place without (some index) (some (colors.resolve text)) hint
      | some (.expression text) =>
        { list := start.list.separate, messages := [colorMessage text hint] }
      | _ => place (without.collapseBlankAt index) none none hint
  { rest with messages := start.messages ++ rest.messages }

/-- Maps the colours of a tag at `location`. -/
def mapAttributes (colors : ColorTables) (location : Location) (list : AttributeList) :
    AttributeList × List Issue :=
  let mapped := colors.mapList list
  (mapped.list, mapped.messages.map fun message => ⟨.unresolvedValue, location, message⟩)

end Retag.ColorTables
