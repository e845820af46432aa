import Retag.Text.Basic

/-! Looking for something at the start of a line. -/
namespace Retag.Text

/-- A part of a text with what stands before and after it. -/
structure Found (α : Type) where
  before : Text
  item : α
  after : Text

/-- The first place at the start of a line where `read` succeeds; `read` returns what it found and
the rest. `atStart` says whether the text starts a line. -/
def firstAtLine? (read : Text → Option (α × Text)) (atStart : Bool) : Text → Option (Found α)
  | [] => none
  | c :: cs =>
    match if atStart then read (c :: cs) else none with
    | some (item, rest) => some ⟨[], item, rest⟩
    | none =>
      (firstAtLine? read (c == '\n') cs).map fun found =>
        { found with before := c :: found.before }

end Retag.Text
