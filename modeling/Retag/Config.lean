import Retag.Color.Tables

/-! What a migration does: which components are renamed and how, the colour vocabulary, and which
files of a directory take part. -/
namespace Retag

/-- The module that a component was imported from, and the one that it is imported from now. -/
structure ImportMove where
  source : Text
  target : Text
deriving DecidableEq

structure ComponentRule where
  name : Text
  newName : Text
  mapColors : Bool := false
  /-- New names of attributes. -/
  props : Table Text := []
  imports : Option ImportMove := none
deriving DecidableEq

structure WalkRules where
  extensions : List Text
  excludedDirs : List Text
deriving DecidableEq

structure Config where
  components : List ComponentRule
  colors : ColorTables
  walk : WalkRules
deriving DecidableEq

def ComponentRule.builtin : ComponentRule where
  name := "CButton".toList
  newName := "Button".toList
  mapColors := true
  imports := some ⟨"@coreui/react".toList, "@chakra-ui/react".toList⟩

def WalkRules.builtin : WalkRules where
  extensions := ["js", "jsx", "ts", "tsx"].map String.toList
  excludedDirs := ["node_modules".toList]

def Config.builtin : Config := ⟨[.builtin], .builtin, .builtin⟩

end Retag
