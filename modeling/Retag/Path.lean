import Retag.Text.Lines

/-! Paths as they are written. Slashes in a row and a dot between or after names mean nothing; a
dot at the start is kept apart, and two dots stay as they are. -/
namespace Retag.Path

inductive Component where
  | root
  | current
  | parent
  | name (text : Text)
deriving DecidableEq

/-- What a piece between slashes stands for, if it is not the first. -/
def innerComponent? (piece : Text) : Option Component :=
  if piece.isEmpty || piece = ['.'] then none
  else if piece = ['.', '.'] then some .parent
  else some (.name piece)

def firstComponent? (piece : Text) (pieces : List Text) : Option Component :=
  if piece.isEmpty then (if pieces.isEmpty then none else some .root)
  else if piece = ['.'] then some .current
  else innerComponent? piece

/-- The pieces between the slashes, each with what it stands for. -/
def pieces (path : Text) : List (Text × Option Component) :=
  match Text.splitOn '/' path with
  | [] => []
  | first :: rest =>
    (first, firstComponent? first rest) :: rest.map fun piece => (piece, innerComponent? piece)

def components (path : Text) : List Component := (pieces path).filterMap (·.2)

/-- The names in a path. -/
def names (path : Text) : List Text :=
  (components path).filterMap fun
    | .name text => some text
    | _ => none

/-- The path `name` inside a directory. -/
def join (dir name : Text) : Text :=
  if dir.isEmpty || dir.getLast? = some '/' then dir ++ name else dir ++ '/' :: name

/-- Drops pieces up to and with the one that completes `count` components. -/
def dropComponents : (count : Nat) → List (Text × Option Component) → List (Text × Option Component)
  | 0, pieces => pieces
  | _, [] => []
  | count + 1, (_, none) :: pieces => dropComponents (count + 1) pieces
  | count + 1, (_, some _) :: pieces => dropComponents count pieces

/-- The pieces from the first to the last that stands for something, with the slashes between
them. -/
def joinPieces (pieces : List (Text × Option Component)) : Text :=
  let trimmed := pieces.dropWhile (·.2.isNone)
  let trimmed := (trimmed.reverse.dropWhile (·.2.isNone)).reverse
  ['/'].intercalate (trimmed.map (·.1))

/-- The rest of a path below a directory whose components it starts with. -/
def below? (dir path : Text) : Option Text :=
  if (components dir).isPrefixOf (components path) then
    some (joinPieces (dropComponents (components dir).length (pieces path)))
  else none

/-- A path as it is shown to someone who works in `dir`. -/
def label (dir path : Text) : Text := (below? dir path).getD path

def fileName? (path : Text) : Option Text :=
  match (components path).getLast? with
  | some (.name text) => some text
  | _ => none

/-- What follows the last dot of the file name, if something stands before it. -/
def extension? (path : Text) : Option Text := do
  let name ← fileName? path
  let after := (name.reverse.takeWhile (· != '.')).reverse
  if after.length + 1 < name.length then some after else none

end Retag.Path
