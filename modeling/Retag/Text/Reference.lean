import Retag.Text.Word

/-! Whether a name is in use as a whole identifier. -/
namespace Retag.Text

-- The equations of the matches are there for the termination proof.
set_option linter.unusedVariables false in
/-- Whether `name` stands in the text as a whole identifier that does not start between the bytes
`skipStart` and `skipStop`. The text stands at byte `offset`, after the character `last`. The
search goes on after each occurrence. -/
def referencedFrom (name : Text) (skipStart skipStop offset : Nat) (last : Option Char)
    (text : Text) : Bool :=
  match found : dropPrefix? name text with
  | some rest =>
    (!(skipStart ≤ offset && offset < skipStop) && !last.any isIdentifier &&
        !rest.head?.any isIdentifier) ||
      match name, text with
      | [], [] => false
      | [], c :: cs => referencedFrom [] skipStart skipStop (offset + c.utf8Size) (some c) cs
      | _ :: _, _ =>
        referencedFrom name skipStart skipStop (offset + name.size) name.getLast? rest
  | none =>
    match text with
    | [] => false
    | c :: cs => referencedFrom name skipStart skipStop (offset + c.utf8Size) (some c) cs
termination_by text.length
decreasing_by
  · simp
  · have same := congrArg List.length (dropPrefix?_eq_some_iff.1 found)
    simp at same
    omega
  · simp

/-- Whether `name` stands somewhere as a whole identifier, apart from those that start between the
bytes `skipStart` and `skipStop`. -/
def referencedOutside (name : Text) (skipStart skipStop : Nat) (text : Text) : Bool :=
  referencedFrom name skipStart skipStop 0 none text

end Retag.Text
