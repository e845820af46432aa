import Retag.Config
import Retag.FileTree
import Retag.StableSort

/-! The files of a directory that take part in a migration. -/
namespace Retag.WalkRules

def matchesExtension (rules : WalkRules) (path : Text) : Bool :=
  (Path.extension? path).any rules.extensions.contains

/-- Whether a directory below the root is passed over: hidden ones are, and those listed. -/
def skips (rules : WalkRules) (name : Text) : Bool :=
  name.head? = some '.' || rules.excludedDirs.contains name

/-- Whether two names are in the order of their UTF-8 bytes. -/
def inOrder (a b : Text) : Bool := !decide (b < a)

mutual

/-- The paths of the files in a tree that stands at `path`, directory by directory, with the
entries of each in the order of their names. -/
def collect (rules : WalkRules) (path : Text) : FileTree → List Text
  | .file _ => if rules.matchesExtension path then [path] else []
  | .directory entries =>
    (StableSort.sort (inOrder ·.1 ·.1) (collectEntries rules path entries)).flatMap (·.2)

/-- For each entry of a directory its name and the files in it. -/
def collectEntries (rules : WalkRules) (path : Text) :
    List (Text × FileTree) → List (Text × List Text)
  | [] => []
  | (name, .file content) :: entries =>
    (name, collect rules (Path.join path name) (.file content)) ::
      collectEntries rules path entries
  | (name, .directory children) :: entries =>
    (name, if rules.skips name then []
      else collect rules (Path.join path name) (.directory children)) ::
      collectEntries rules path entries

end

end Retag.WalkRules
