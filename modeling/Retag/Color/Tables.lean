import Retag.Table
import Retag.Text.Blank
import Retag.Text.Lowercase

/-! The colour vocabulary: which style variant and colour scheme a value stands for. Values are
looked up by their key, the trimmed and lower-cased text. -/
namespace Retag

/-- A style variant with a colour scheme. -/
structure StyledScheme where
  variant : Text
  scheme : Text
deriving DecidableEq

/-- What a colour stands for; it need not imply a variant. -/
structure Resolution where
  variant : Option Text
  scheme : Text
deriving DecidableEq

structure ColorTables where
  /-- Schemes of plain colours. -/
  base : Table Text
  /-- Values that name a style and a colour at once. -/
  compound : Table StyledScheme
  /-- Styles that may stand before a plain colour, joined by a hyphen. -/
  styles : List Text
  /-- Colours that imply a style. -/
  styleColors : Table StyledScheme
  /-- The scheme of a colour that no table has. -/
  fallback : Text
deriving DecidableEq

namespace ColorTables

def builtin : ColorTables where
  base := Table.ofEntries <|
    [("primary", "brand"), ("secondary", "slate"), ("success", "green"), ("danger", "red"),
      ("warning", "yellow"), ("info", "blue"), ("light", "gray"), ("dark", "gray")].map
      fun (color, scheme) => (color.toList, scheme.toList)
  compound := Table.ofEntries <|
    [("outline-primary", "brand"), ("outline-secondary", "slate"), ("outline-success", "green"),
      ("outline-danger", "red"), ("outline-warning", "yellow"), ("outline-info", "blue")].map
      fun (value, scheme) => (value.toList, ⟨"outline".toList, scheme.toList⟩)
  styles := ["outline".toList]
  styleColors := Table.ofEntries
    [("ghost".toList, ⟨"ghost".toList, "brand".toList⟩),
      ("light".toList, ⟨"outline".toList, "gray".toList⟩)]
  fallback := "brand".toList

def key (value : Text) : Text := Text.lowercase (Text.trim value)

/-- The scheme of a plain colour. -/
def schemeOf (colors : ColorTables) (color : Text) : Text :=
  (colors.base.get? color).getD colors.fallback

/-- Reads a key as `style`, a hyphen and a colour. -/
def styled? (colors : ColorTables) (key style : Text) : Option StyledScheme :=
  match Text.dropPrefix? (style ++ ['-']) key with
  | none | some [] => none
  | some color => some ⟨style, colors.schemeOf color⟩

/-- The style and scheme of a key that names both: an entry of the compound table, or else the
first style that stands before a colour. -/
def compoundAt? (colors : ColorTables) (key : Text) : Option StyledScheme :=
  (colors.compound.get? key).or (colors.styles.findSome? (colors.styled? key))

def compound? (colors : ColorTables) (value : Text) : Option StyledScheme :=
  colors.compoundAt? (key value)

/-- What a colour stands for. Compound values come first, then colours that imply a style, then
plain colours. -/
def resolve (colors : ColorTables) (value : Text) : Resolution :=
  match (colors.compound? (key value)).or (colors.styleColors.get? (key value)) with
  | some styled => ⟨some styled.variant, styled.scheme⟩
  | none => ⟨none, colors.schemeOf (key value)⟩

end ColorTables
end Retag
