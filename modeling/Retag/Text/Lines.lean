import Retag.Text.Basic

/-! Lines of a text. A line ends at a line feed, and a carriage return right before the line feed
belongs to the line's end. -/
namespace Retag.Text

/-- The pieces between the separators, one more than there are separators. -/
def splitOn (separator : Char) : Text → List Text
  | [] => [[]]
  | c :: cs =>
    match splitOn separator cs with
    | [] => []
    | piece :: pieces =>
      if c == separator then [] :: piece :: pieces else (c :: piece) :: pieces

/-- The first piece ends at the first separator, and the others are those of the rest. -/
theorem splitOn_inv {separator : Char} {text piece : Text} {pieces : List Text}
    (split : splitOn separator text = piece :: pieces) :
    (text = piece ∧ pieces = []) ∨
      ∃ rest, text = piece ++ separator :: rest ∧ pieces = splitOn separator rest := by
  induction text generalizing piece pieces with
  | nil =>
    obtain ⟨rfl, rfl⟩ := List.cons.inj split
    exact .inl ⟨rfl, rfl⟩
  | cons c cs ih =>
    rw [splitOn] at split
    split at split
    · cases split
    · rename_i first others inner
      split at split
      · rename_i same
        obtain ⟨rfl, rfl⟩ := List.cons.inj split
        exact .inr ⟨cs, by simpa using same, inner.symm⟩
      · obtain ⟨rfl, rfl⟩ := List.cons.inj split
        rcases ih inner with ⟨rfl, rfl⟩ | ⟨rest, rfl, rfl⟩
        · exact .inl ⟨rfl, rfl⟩
        · exact .inr ⟨rest, rfl, rfl⟩

def dropReturn (line : Text) : Text :=
  if line.getLast? = some '\r' then line.dropLast else line

/-- The lines without their ends. Nothing after the last line feed is no line. -/
def lines (text : Text) : List Text :=
  let pieces := splitOn '\n' text
  let ended := pieces.dropLast.map dropReturn
  match pieces.getLast? with
  | none | some [] => ended
  | some last => ended ++ [last]

end Retag.Text
