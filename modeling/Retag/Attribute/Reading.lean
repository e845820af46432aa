import Retag.Attribute.Basic
import Retag.Text.Blank
import Retag.Text.Enclosed

/-! Reading the text between a tag's name and its end. Every text is read: what does not fit the
grammar becomes a bare word or a name without a value. -/
namespace Retag

/-- The tokens of a tag's attribute text, white space included. -/
abbrev AttributeList := List Token

namespace Attribute

/-- The value that follows an equals sign and white space, and the rest. A quote or brace that is
never closed takes all that is left as a bare word. -/
def readValue : Text → Value × Text
  | [] => (.bareWord [], [])
  | c :: cs =>
    match Quote.ofChar? c with
    | some quote =>
      match Text.untilQuote? c cs with
      | some (text, rest) => (.literal quote text, rest)
      | none => (.bareWord (c :: cs), [])
    | none =>
      if c == '{' then
        match Text.untilBrace? none 0 cs with
        | some (text, rest) => (.expression text, rest)
        | none => (.bareWord (c :: cs), [])
      else
        (.bareWord ((c :: cs).takeWhile (!Text.isBlank ·)),
          (c :: cs).dropWhile (!Text.isBlank ·))

def continuesName (c : Char) : Bool := !(c == '=' || Text.isBlank c)

/-- The attribute that starts with `c`, which belongs to its name whatever it is, and the rest.
White space before the equals sign is taken only if there is one. -/
def read (c : Char) (cs : Text) : Attribute × Text :=
  let name := c :: cs.takeWhile continuesName
  let rest := cs.dropWhile continuesName
  match rest.dropWhile Text.isBlank with
  | '=' :: tail =>
    let value := readValue (tail.dropWhile Text.isBlank)
    let spacing := ⟨rest.takeWhile Text.isBlank, tail.takeWhile Text.isBlank⟩
    ({ name, value := value.1, spacing }, value.2)
  | _ => ({ name, value := .boolean }, rest)

/-- The spread that follows an opening brace, as a name without a value, and the rest. -/
def readSpread (cs : Text) : Attribute × Text :=
  match Text.untilBrace? none 0 cs with
  | some (text, rest) => ({ name := '{' :: text ++ ['}'], value := .boolean }, rest)
  | none => ({ name := '{' :: cs, value := .boolean }, [])

theorem length_readValue (text : Text) : (readValue text).2.length ≤ text.length := by
  unfold readValue
  split
  · simp
  · split
    · split
      · rename_i closed
        simp [Text.eq_of_untilQuote? closed]
        omega
      · simp
    · split
      · split
        · rename_i closed
          simp [Text.eq_of_untilBrace? closed]
          omega
        · simp
      · exact (List.dropWhile_sublist _).length_le

theorem length_read (c : Char) (cs : Text) : (read c cs).2.length ≤ cs.length := by
  have name := (List.dropWhile_sublist continuesName (l := cs)).length_le
  dsimp only [read]
  split
  · rename_i tail found
    have blank := (List.dropWhile_sublist Text.isBlank (l := cs.dropWhile continuesName)).length_le
    have after := (List.dropWhile_sublist Text.isBlank (l := tail)).length_le
    have value := length_readValue (tail.dropWhile Text.isBlank)
    rw [found, List.length_cons] at blank
    show (readValue (tail.dropWhile Text.isBlank)).2.length ≤ cs.length
    omega
  · exact name

theorem length_readSpread (cs : Text) : (readSpread cs).2.length ≤ cs.length := by
  unfold readSpread
  split
  · rename_i closed
    simp [Text.eq_of_untilBrace? closed]
    omega
  · simp

end Attribute

namespace AttributeList

def ofText : Text → AttributeList
  | [] => []
  | c :: cs =>
    if Text.isBlank c then
      .blank (c :: cs.takeWhile Text.isBlank) :: ofText (cs.dropWhile Text.isBlank)
    else if c == '/' then .slash :: ofText cs
    else if c == '{' then
      .attr (Attribute.readSpread cs).1 :: ofText (Attribute.readSpread cs).2
    else .attr (Attribute.read c cs).1 :: ofText (Attribute.read c cs).2
termination_by text => text.length
decreasing_by
  · have := (List.dropWhile_sublist Text.isBlank (l := cs)).length_le
    simp only [List.length_cons]
    omega
  · simp
  · have := Attribute.length_readSpread cs
    simp only [List.length_cons]
    omega
  · have := Attribute.length_read c cs
    simp only [List.length_cons]
    omega

def render (list : AttributeList) : Text := list.flatMap Token.render

end AttributeList
end Retag
