import Retag.Text.Basic

/-! Lines and columns of byte offsets, both counted from one. Columns count characters. -/
namespace Retag

structure Position where
  line : Nat
  column : Nat
deriving DecidableEq

namespace Position

def render (position : Position) : Text :=
  Text.ofNat position.line ++ ':' :: Text.ofNat position.column

def advance (position : Position) (c : Char) : Position :=
  if c == '\n' then ⟨position.line + 1, 1⟩ else ⟨position.line, position.column + 1⟩

/-- Where a text that stands at the start of a file ends. -/
def after (text : Text) : Position := text.foldl advance ⟨1, 1⟩

end Position

/-- The byte offsets at which the lines of a text start, for repeated look-ups. -/
structure LineIndex where
  text : Text
  starts : Array Nat

namespace LineIndex

/-- Offsets just past the line feeds of a text that starts at byte `at`. -/
def startsFrom (at' : Nat) : Text → List Nat
  | [] => []
  | c :: cs =>
    let next := at' + c.utf8Size
    if c == '\n' then next :: startsFrom next cs else startsFrom next cs

def ofText (text : Text) : LineIndex := ⟨text, (0 :: startsFrom 0 text).toArray⟩

/-- The last of the indices `low`, …, `high` at which `starts` is at most `offset`, found by
halving; `low` if there is none. -/
def search (starts : Array Nat) (offset low high : Nat) : Nat :=
  if low < high then
    let middle := (low + high + 1) / 2
    if starts.getD middle 0 ≤ offset then search starts offset middle high
    else search starts offset low (middle - 1)
  else low
termination_by high - low

/-- Offsets past the end count as the end, and offsets inside a character as its start. -/
def position (index : LineIndex) (offset : Nat) : Position :=
  let before := index.text.takeBytes offset
  let offset := before.size
  let line := search index.starts offset 0 (index.starts.size - 1)
  let start := index.starts.getD line 0
  ⟨line + 1, (before.dropBytes start).length + 1⟩

end LineIndex

/-- The position of a byte offset of `text`. -/
def Text.position (text : Text) (offset : Nat) : Position := (LineIndex.ofText text).position offset

end Retag
