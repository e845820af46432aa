import Retag.Issue
import Retag.Splice

/-! Where the text of a migration came from. A migration makes several passes over a file, and
positions that it reports name the file as it was read. -/
namespace Retag

structure Origin where
  file : Text
  index : LineIndex
  /-- The regions that each pass replaced, latest pass first. -/
  passes : List (List Splice) := []

namespace Origin

def ofSource (file source : Text) : Origin := { file, index := LineIndex.ofText source }

/-- Records a pass by the regions it replaced, which are in order and apart. -/
def push (origin : Origin) (splices : List Splice) : Origin :=
  if splices.isEmpty then origin else { origin with passes := splices :: origin.passes }

/-- The offset in the file as it was read. -/
def sourceOffset (origin : Origin) (offset : Nat) : Nat :=
  origin.passes.foldl (fun offset splices => Splice.trace splices offset) offset

def locate (origin : Origin) (offset : Nat) : Location :=
  ⟨origin.file, origin.index.position (origin.sourceOffset offset)⟩

end Origin
end Retag
