import Retag.Color.Tables
import Retag.Proofs.Text.Lowercase

/-! Which table decides what a colour value stands for. Values are normalised to keys, and a key is
its own key, so looking a value up and looking its key up are the same. Main statement: the order of
precedence of the tables, which is one and the same for all values with one key. -/
namespace Retag.ColorTables
variable {colors : ColorTables} {name style color : Text}

def Joins (name style color : Text) : Prop := name = style ++ '-' :: color ∧ color ≠ []

/-- What a key stands for that may name a style and a colour at once: its entry, or else what the
first style says that stands before a colour. -/
inductive NamesBoth (colors : ColorTables) (name : Text) : Option StyledScheme → Prop
  | entry {styled : StyledScheme} (found : colors.compound.get? name = some styled) :
    NamesBoth colors name (some styled)
  | style {earlier later : List Text} {style color : Text}
    (absent : colors.compound.get? name = none) (order : colors.styles = earlier ++ style :: later)
    (first : ∀ other ∈ earlier, ∀ color, ¬Joins name other color) (joins : Joins name style color) :
    NamesBoth colors name (some ⟨style, (colors.base.get? color).getD colors.fallback⟩)
  | neither (absent : colors.compound.get? name = none)
    (unstyled : ∀ style ∈ colors.styles, ∀ color, ¬Joins name style color) :
    NamesBoth colors name none

/-- What a colour value with this key stands for, given what it names as a style and a colour. -/
inductive StandsFor (colors : ColorTables) (name : Text) : Option StyledScheme → Resolution → Prop
  | both (styled : StyledScheme) :
    StandsFor colors name (some styled) ⟨some styled.variant, styled.scheme⟩
  | styleColor {styled : StyledScheme} (found : colors.styleColors.get? name = some styled) :
    StandsFor colors name none ⟨some styled.variant, styled.scheme⟩
  | plain {scheme : Text} (noStyle : colors.styleColors.get? name = none)
    (found : colors.base.get? name = some scheme) : StandsFor colors name none ⟨none, scheme⟩
  | unknown (noStyle : colors.styleColors.get? name = none) (absent : colors.base.get? name = none) :
    StandsFor colors name none ⟨none, colors.fallback⟩

theorem key_key (value : Text) : key (key value) = key value := by
  unfold key
  rw [Text.trim_lowercase_trim, Text.lowercase_lowercase]

theorem styled?_of_joins (joins : Joins name style color) :
    colors.styled? name style = some ⟨style, colors.schemeOf color⟩ := by
  obtain ⟨rfl, filled⟩ := joins
  obtain ⟨c, cs, rfl⟩ := List.exists_cons_of_ne_nil filled
  have read : Text.dropPrefix? (style ++ ['-']) (style ++ '-' :: c :: cs) = some (c :: cs) :=
    Text.dropPrefix?_eq_some_iff.2 (by simp)
  rw [styled?, read]

theorem styled?_eq_none_iff :
    colors.styled? name style = none ↔ ∀ color, ¬Joins name style color := by
  constructor
  · intro unread color joins
    rw [styled?_of_joins joins] at unread
    cases unread
  · intro apart
    unfold styled?
    split
    · rfl
    · rfl
    · rename_i color filled read
      refine absurd ⟨?_, ?_⟩ (apart color)
      · simpa using Text.dropPrefix?_eq_some_iff.1 read
      · exact filled

theorem joins_of_styled? {styled : StyledScheme} (read : colors.styled? name style = some styled) :
    ∃ color, Joins name style color ∧ styled = ⟨style, colors.schemeOf color⟩ := by
  have joined : ¬∀ color, ¬Joins name style color := by
    rw [← styled?_eq_none_iff, read]
    simp
  obtain ⟨color, joins⟩ := Classical.not_forall_not.1 joined
  rw [styled?_of_joins joins] at read
  exact ⟨color, joins, (Option.some.inj read).symm⟩

theorem namesBoth_compoundAt? (colors : ColorTables) (name : Text) :
    NamesBoth colors name (colors.compoundAt? name) := by
  unfold compoundAt?
  cases entry : colors.compound.get? name with
  | some styled => exact .entry entry
  | none =>
    rw [Option.none_or]
    cases styles : colors.styles.findSome? (colors.styled? name) with
    | none =>
      refine .neither entry fun style member => ?_
      exact styled?_eq_none_iff.1 (List.findSome?_eq_none_iff.1 styles style member)
    | some styled =>
      obtain ⟨earlier, style, later, order, read, first⟩ := List.findSome?_eq_some_iff.1 styles
      obtain ⟨color, joins, rfl⟩ := joins_of_styled? read
      exact .style entry order (fun other member => styled?_eq_none_iff.1 (first other member)) joins

theorem standsFor_resolve (colors : ColorTables) (value : Text) :
    StandsFor colors (key value) (colors.compound? (key value)) (colors.resolve value) := by
  unfold resolve
  cases colors.compound? (key value) with
  | some styled => exact .both styled
  | none =>
    rw [Option.none_or]
    cases style : colors.styleColors.get? (key value) with
    | some styled => exact .styleColor style
    | none =>
      dsimp only
      unfold schemeOf
      cases base : colors.base.get? (key value) with
      | some scheme => exact .plain style base
      | none => exact .unknown style base

theorem compound?_key (colors : ColorTables) (value : Text) :
    colors.compound? (key value) = colors.compound? value := by
  unfold compound?
  rw [key_key]

theorem resolve_congr (colors : ColorTables) {value other : Text} (same : key other = key value) :
    colors.resolve other = colors.resolve value := by
  unfold resolve
  rw [same]

/-- Compound entries come first, then styles before a colour in their order, then colours that imply
a style, then plain colours and the fallback. Two values with one key stand for the same, and a value
stands for what its key does. -/
theorem resolve_precedence (colors : ColorTables) (value : Text) :
    NamesBoth colors (key value) (colors.compound? value) ∧
      StandsFor colors (key value) (colors.compound? value) (colors.resolve value) ∧
      (∀ other, key other = key value →
        colors.compound? other = colors.compound? value ∧
          colors.resolve other = colors.resolve value) ∧
      colors.compound? (key value) = colors.compound? value ∧
      colors.resolve (key value) = colors.resolve value := by
  refine ⟨namesBoth_compoundAt? colors _, ?_, fun other same => ⟨?_, resolve_congr colors same⟩,
    compound?_key colors value, resolve_congr colors (key_key value)⟩
  · have stands := standsFor_resolve colors value
    rwa [compound?_key] at stands
  · unfold compound?
    rw [same]

/-- A sigma is lowered by its place in the word, which is the same in the key. -/
theorem resolve_precedence_sigma :
    let value := "\u00A0Outline-ΑΣ\n".toList
    let other := "OUTLINE-αΣ".toList
    key value = "outline-ας".toList ∧ key other = key value ∧
      builtin.resolve other = builtin.resolve value ∧
      builtin.compound? (key value) = some ⟨"outline".toList, "brand".toList⟩ ∧
      builtin.resolve (key value) = ⟨some "outline".toList, "brand".toList⟩ := by
  intro value other
  have lowered : key value = "outline-ας".toList := by decide +kernel
  have same : key other = key value := by decide +kernel
  have styled : builtin.compound? value = some ⟨"outline".toList, "brand".toList⟩ := by
    decide +kernel
  obtain ⟨-, stands, agree, again, resolved⟩ := resolve_precedence builtin value
  refine ⟨lowered, same, (agree other same).2, again.trans styled, ?_⟩
  rw [styled] at stands
  rw [resolved]
  generalize builtin.resolve value = resolution at stands
  cases stands
  rfl

end Retag.ColorTables
