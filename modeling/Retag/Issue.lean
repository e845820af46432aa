import Retag.Text.Position

/-! What a migration reports beside its text: places that need a look, and changed regions. -/
namespace Retag

structure Location where
  file : Text
  position : Position
deriving DecidableEq

def Location.render (location : Location) : Text :=
  location.file ++ ':' :: location.position.render

namespace Issue

inductive Kind where
  /-- An attribute's value is an expression and was not mapped. -/
  | unresolvedValue
  /-- An open tag never ends, so it was left alone. -/
  | malformedTag
  /-- An import was kept because its name is still in use. -/
  | stillReferenced
deriving DecidableEq

end Issue

structure Issue where
  kind : Issue.Kind
  location : Location
  message : Text
deriving DecidableEq

def Issue.render (issue : Issue) : Text := issue.location.render ++ ": ".toList ++ issue.message

/-- A changed region and the line on which it starts. -/
structure Edit where
  line : Nat
  before : Text
  after : Text
deriving DecidableEq

end Retag
