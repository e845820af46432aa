import Retag.Attribute.Reading

/-! Reading an attribute text loses nothing. Each reader accounts for what it takes: the item it
returns renders to the characters between its start and the rest. Main statement: the tokens of any
text render to the text, and there are no more of them than characters. -/
namespace Retag

theorem Quote.char_ofChar? {c : Char} {quote : Quote} (found : ofChar? c = some quote) :
    quote.char = c := by
  unfold ofChar? at found
  split at found
  all_goals
    cases found
    try rfl

namespace Attribute

theorem render_readValue (text : Text) :
    (readValue text).1.render ++ (readValue text).2 = text := by
  unfold readValue
  split
  · rfl
  · rename_i c cs
    split
    · rename_i quote quotes
      split
      · rename_i closed
        simp [Value.render, Quote.char_ofChar? quotes, Text.eq_of_untilQuote? closed]
      · simp [Value.render]
    · split
      · rename_i opens
        split
        · rename_i closed
          simp [Value.render, Text.eq_of_untilBrace? closed, beq_iff_eq.1 opens]
        · simp [Value.render]
      · simp [Value.render]

theorem readValue_ne_boolean (text : Text) : (readValue text).1 ≠ .boolean := by
  unfold readValue
  repeat' split
  all_goals simp

theorem render_of_ne_boolean {attr : Attribute} (valued : attr.value ≠ .boolean) :
    attr.render =
      attr.name ++ attr.spacing.before ++ '=' :: attr.spacing.after ++ attr.value.render := by
  unfold render
  split
  · contradiction
  · rfl

theorem render_read (c : Char) (cs : Text) : (read c cs).1.render ++ (read c cs).2 = c :: cs := by
  have name := List.takeWhile_append_dropWhile (p := continuesName) (l := cs)
  dsimp only [read]
  split
  · rename_i tail found
    have before :=
      List.takeWhile_append_dropWhile (p := Text.isBlank) (l := cs.dropWhile continuesName)
    have after := List.takeWhile_append_dropWhile (p := Text.isBlank) (l := tail)
    have value := render_readValue (tail.dropWhile Text.isBlank)
    rw [found] at before
    rw [render_of_ne_boolean (readValue_ne_boolean _)]
    simp only [List.append_assoc, List.cons_append, value, after, before, name]
  · simp [render, name]

theorem render_readSpread (cs : Text) :
    (readSpread cs).1.render ++ (readSpread cs).2 = '{' :: cs := by
  unfold readSpread
  split
  · rename_i closed
    simp [render, Text.eq_of_untilBrace? closed]
  · simp [render]

end Attribute

namespace AttributeList

@[simp] theorem render_nil : render [] = [] := rfl

@[simp] theorem render_cons (token : Token) (list : AttributeList) :
    render (token :: list) = token.render ++ render list := rfl

theorem render_ofText (text : Text) : render (ofText text) = text := by
  fun_induction ofText text with
  | case1 => rfl
  | case2 c cs blank ih =>
    simp [Token.render, ih]
  | case3 c cs notBlank slash ih =>
    simp [Token.render, ih, beq_iff_eq.1 slash]
  | case4 c cs notBlank notSlash opens ih =>
    rw [render_cons, ih, Token.render, Attribute.render_readSpread, beq_iff_eq.1 opens]
  | case5 c cs notBlank notSlash notOpen ih =>
    rw [render_cons, ih, Token.render, Attribute.render_read]

/-- Every token takes a character, so the scan of a text ends after at most one step for each. -/
theorem length_ofText (text : Text) : (ofText text).length ≤ text.length := by
  fun_induction ofText text with
  | case1 => exact Nat.le_refl _
  | case2 c cs blank ih =>
    have rest := (List.dropWhile_sublist Text.isBlank (l := cs)).length_le
    simp only [List.length_cons]
    omega
  | case3 c cs notBlank slash ih =>
    simp only [List.length_cons]
    omega
  | case4 c cs notBlank notSlash opens ih =>
    have rest := Attribute.length_readSpread cs
    simp only [List.length_cons]
    omega
  | case5 c cs notBlank notSlash notOpen ih =>
    have rest := Attribute.length_read c cs
    simp only [List.length_cons]
    omega

/-- Nothing is assumed of the text: malformed values and stray equals signs are rendered back
too. -/
theorem ofText_loses_nothing (text : Text) :
    render (ofText text) = text ∧ (ofText text).length ≤ text.length :=
  ⟨render_ofText text, length_ofText text⟩

end AttributeList
end Retag
