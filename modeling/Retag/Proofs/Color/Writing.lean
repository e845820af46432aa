import Retag.Color.Mapping
import Retag.Proofs.Attribute.Views

/-! The steps of a colour mapping, each described once. A step that writes an attribute leaves the
list, replaces the first attribute of the name or asks for a new one; expressions are never
replaced. What a step asked for is put in together at one place. -/
namespace Retag

namespace Attribute

def Value.expression? : Value → Option Text
  | .expression text => some text
  | _ => none

theorem Value.expression?_of_isLiteral {value : Value} (literal : value.isLiteral = true) :
    value.expression? = none := by
  cases value with
  | literal | bareWord | boolean => rfl
  | expression => cases literal

@[simp] theorem setLiteral_name (item : Attribute) (text : Text) :
    (item.setLiteral text).name = item.name := by
  unfold setLiteral
  split <;> rfl

theorem setLiteral_isLiteral (item : Attribute) (text : Text) :
    (item.setLiteral text).value.isLiteral = true := by
  unfold setLiteral
  split <;> rfl

/-- The attribute that holds `text` after a write. A literal keeps its quotes and its spacing. -/
def written (name text : Text) : Option Attribute → Attribute
  | some ⟨_, .literal quote _, spacing⟩ => ⟨name, .literal quote text, spacing⟩
  | _ => ⟨name, .literal .double text, {}⟩

theorem written_some (item : Attribute) (text : Text) :
    written item.name text (some item) = item.setLiteral text := by
  obtain ⟨name, value, spacing⟩ := item
  cases value <;> rfl

end Attribute

namespace ColorTables
open AttributeList Attribute

theorem variant_ne_color : variantName ≠ colorName := by decide

theorem variant_ne_scheme : variantName ≠ schemeName := by decide

theorem scheme_ne_color : schemeName ≠ colorName := by decide

def afterWrite (name : Text) (previous : Option Attribute) (text : Option Text) :
    Option Attribute :=
  (text.map fun text => written name text previous).or previous

/-- What a step can do to write a text, if any, to the first attribute called `name`: the list
afterwards and the attributes to add. -/
inductive Writes (name : Text) (list : AttributeList) :
    AttributeList → List Attribute → Option Text → Prop where
  | kept : Writes name list list [] none
  | replaced {item : Attribute} {text : Text} : list.get? name = some item →
      item.value.expression? = none →
      Writes name list (list.modify name (·.setLiteral text)) [] (some text)
  | asked {text : Text} : list.get? name = none →
      Writes name list list [.ofLiteral name text] (some text)

namespace Writes
variable {name other : Text} {list result : AttributeList} {added : List Attribute}
  {text : Option Text}

theorem getAll_ne (writes : Writes name list result added text) (differ : name ≠ other) :
    result.getAll other = list.getAll other := by
  cases writes with
  | kept | asked => rfl
  | replaced => exact getAll_modify_ne (fun item => setLiteral_name item _) list differ

theorem get?_ne (writes : Writes name list result added text) (differ : name ≠ other) :
    result.get? other = list.get? other := by
  rw [get?_eq_head?, writes.getAll_ne differ, get?_eq_head?]

theorem named (writes : Writes name list result added text) : ∀ item ∈ added, item.name = name := by
  cases writes with
  | kept | replaced => simp
  | asked => simp [Attribute.ofLiteral]

theorem filter_self (writes : Writes name list result added text) :
    added.filter (·.name == name) = added :=
  List.filter_eq_self.2 fun item member => by simp [writes.named item member]

theorem filter_ne (writes : Writes name list result added text) (differ : name ≠ other) :
    added.filter (·.name == other) = [] :=
  List.filter_eq_nil_iff.2 fun item member => by simp [writes.named item member, differ]

theorem absent (writes : Writes name list result added text) (some : added ≠ []) :
    result.get? name = none := by
  cases writes with
  | kept | replaced => exact absurd rfl some
  | asked absent => exact absent

theorem get?_or (writes : Writes name list result added text) :
    (result.get? name).or added.head? = afterWrite name (list.get? name) text := by
  cases writes with
  | kept => simp [afterWrite]
  | replaced found =>
    rw [get?_modify_self fun item => setLiteral_name item _, found]
    obtain rfl := name_of_get? found
    simp [afterWrite, written_some]
  | asked absent => simp [afterWrite, absent, written, Attribute.ofLiteral]

end Writes

def styleOf? (colors : ColorTables) (list : AttributeList) : Option StyledScheme :=
  ((valueOf? list variantName).bind (·.literal?)).bind colors.compound?

def impliedBy? (colors : ColorTables) (list : AttributeList) : Option Resolution :=
  ((valueOf? list colorName).bind (·.literal?)).map colors.resolve

def expressionOf? (list : AttributeList) (name : Text) : Option Text :=
  (valueOf? list name).bind (·.expression?)

theorem valueOf?_congr {a b : AttributeList} {name : Text} (same : a.get? name = b.get? name) :
    valueOf? a name = valueOf? b name := congrArg _ same

theorem expressionOf?_congr {a b : AttributeList} {name : Text} (same : a.get? name = b.get? name) :
    expressionOf? a name = expressionOf? b name := by
  rw [expressionOf?, valueOf?_congr same, expressionOf?]

section
variable (colors : ColorTables) (list : AttributeList)

theorem exists_of_valueOf? {list : AttributeList} {name : Text} {value : Value}
    (found : valueOf? list name = some value) :
    ∃ item, list.get? name = some item ∧ item.value = value :=
  Option.map_eq_some_iff.1 found

theorem splitVariant_writes :
    Writes variantName list (colors.splitVariant list).1.list []
        ((colors.styleOf? list).map (·.variant)) ∧
      (colors.splitVariant list).2 = (colors.styleOf? list).map (·.scheme) ∧
      (colors.splitVariant list).1.messages =
        ((expressionOf? list variantName).map variantMessage).toList := by
  unfold splitVariant styleOf? expressionOf?
  cases value : valueOf? list variantName with
  | none => exact ⟨.kept, rfl, rfl⟩
  | some shape =>
    cases shape with
    | literal quote text =>
      obtain ⟨item, found, literal⟩ := exists_of_valueOf? value
      have plain : item.value.expression? = none := by rw [literal]; rfl
      cases compound : colors.compound? text with
      | none => simpa [Value.literal?, Value.expression?, compound] using Writes.kept
      | some styled =>
        simpa [Value.literal?, Value.expression?, compound] using Writes.replaced found plain
    | expression text | bareWord text | boolean => exact ⟨.kept, rfl, rfl⟩

/-- A variant is written where there is none, or over a literal that was not compound. -/
theorem placeVariant_writes (variant : Option Text) (compound : Bool) :
    Writes variantName list (placeVariant list variant compound).1
      (placeVariant list variant compound).2
      (if (valueOf? list variantName).all fun value => !compound && value.isLiteral then variant
        else none) := by
  unfold placeVariant
  cases variant with
  | none => simpa using Writes.kept
  | some text =>
    cases value : valueOf? list variantName with
    | none => exact .asked (by simpa [valueOf?] using value)
    | some shape =>
      obtain ⟨item, found, rfl⟩ := exists_of_valueOf? value
      by_cases writable : (!compound && item.value.isLiteral) = true
      · have plain := Value.expression?_of_isLiteral (Bool.and_eq_true_iff.1 writable).2
        simpa [writable] using Writes.replaced found plain
      · simpa [writable] using Writes.kept

/-- A scheme is written over anything but an expression. -/
theorem placeScheme_writes (scheme : Option Text) :
    Writes schemeName list (placeScheme list scheme).1.list (placeScheme list scheme).2
        (if (expressionOf? list schemeName).isNone then scheme else none) ∧
      (placeScheme list scheme).1.messages =
        ((expressionOf? list schemeName).bind fun expression =>
          scheme.map (schemeMessage expression)).toList := by
  unfold placeScheme expressionOf?
  cases scheme with
  | none => simpa using Writes.kept
  | some text =>
    cases value : valueOf? list schemeName with
    | none => exact ⟨.asked (by simpa [valueOf?] using value), rfl⟩
    | some shape =>
      obtain ⟨item, found, same⟩ := exists_of_valueOf? value
      cases shape with
      | expression expression => exact ⟨.kept, rfl⟩
      | literal quote old | bareWord old | boolean =>
        exact ⟨.replaced found (by rw [same]; rfl), rfl⟩

end

/-- Where attributes are put in: the slot, or else right after the first `variant`. -/
def landing (list : AttributeList) (slot : Option Nat) : Nat :=
  (slot.or ((list.find? variantName).map (· + 1))).getD list.length

theorem landing_some (list : AttributeList) (index : Nat) : landing list (some index) = index := rfl

/-- The attributes to add stand together in the settled list, and the tokens before and after them
are those around the landing, up to white space. -/
theorem settle_split (list : AttributeList) (slot : Option Nat) (added : List Attribute) :
    ∃ front back, (settle list slot added).separate = front ++ spaced added ++ back ∧
      front.ink = ink (list.take (landing list slot)) ∧
      back.ink = ink (list.drop (landing list slot)) := by
  by_cases none : added = []
  -- With nothing to add the list is cut at the landing all the same, and only spaces differ.
  · subst none
    cases slot with
    | none =>
      obtain ⟨front, separated, same⟩ :=
        separate_split (list.take (landing list none)) (list.drop (landing list none))
      rw [List.take_append_drop] at separated
      exact ⟨front, _, by simpa [settle] using separated, same, ink_separate _⟩
    | some index =>
      obtain ⟨front, collapsed, same, -⟩ := collapseBlankAt_eq list index
      obtain ⟨ahead, separated, kept⟩ := separate_split front (list.drop index)
      exact ⟨ahead, separate (list.drop index), by simpa [settle, collapsed] using separated,
        kept.trans same, ink_separate _⟩
  · have settled : settle list slot added = list.insertAt (landing list slot) added := by
      simp [settle, none, landing]
    rw [settled]
    exact separate_insertAt _ _ none

theorem compact_settle {list : AttributeList} {slot : Option Nat} {added : List Attribute}
    (ahead : Compact (list.take (landing list slot)))
    (behind : Compact (list.drop (landing list slot))) (whole : slot = none → Compact list) :
    Compact (settle list slot added).separate := by
  refine compact_separate ?_
  unfold settle
  split
  · cases slot with
    | none => exact whole rfl
    | some index =>
      obtain ⟨-, -, -, compact⟩ := collapseBlankAt_eq list index
      exact compact ahead behind
  · rename_i some
    exact compact_insertAt ahead behind (by simpa using some)

/-- What `place` does: two writes, whose additions are settled together. -/
theorem place_writes (list : AttributeList) (slot : Option Nat) (implied : Option Resolution)
    (hint : Option Text) :
    ∃ middle variants last schemes,
      Writes variantName list middle variants
        (if (valueOf? list variantName).all fun value => !hint.isSome && value.isLiteral then
          implied.bind (·.variant) else none) ∧
      Writes schemeName middle last schemes
        (if (expressionOf? list schemeName).isNone then (implied.map (·.scheme)).or hint
          else none) ∧
      place list slot implied hint =
        { list := (settle last slot (variants ++ schemes)).separate
          messages := ((expressionOf? list schemeName).bind fun expression =>
            ((implied.map (·.scheme)).or hint).map (schemeMessage expression)).toList } := by
  have variant := placeVariant_writes list (implied.bind (·.variant)) hint.isSome
  have scheme := placeScheme_writes (placeVariant list (implied.bind (·.variant)) hint.isSome).1
    ((implied.map (·.scheme)).or hint)
  rw [expressionOf?_congr (variant.get?_ne variant_ne_scheme)] at scheme
  refine ⟨_, _, _, _, variant, scheme.1, ?_⟩
  rw [place, ← scheme.2]

/-- The ways a mapping can go after `variant` was split, by the first `color` of the list. -/
inductive Course (colors : ColorTables) (list : AttributeList) (hint : Option Text) :
    Stage → Prop where
  | absent : list.get? colorName = none → Course colors list hint (place list none none hint)
  | literal {before after : AttributeList} {item : Attribute} {text : Text} :
      list = before ++ .attr item :: after → FirstNamed colorName before item →
      item.value.literal? = some text →
      Course colors list hint
        (place (before ++ after) (some before.length) (some (colors.resolve text)) hint)
  | expression {item : Attribute} {text : Text} :
      list.get? colorName = some item → item.value = .expression text →
      Course colors list hint { list := list.separate, messages := [colorMessage text hint] }
  | plain {before after : AttributeList} {item : Attribute} :
      list = before ++ .attr item :: after → FirstNamed colorName before item →
      item.value.literal? = none → item.value.expression? = none →
      Course colors list hint
        (place (collapseBlankAt (before ++ after) before.length) none none hint)

/-- A mapping splits the variant and then takes one of the courses. -/
theorem mapList_course (colors : ColorTables) (list : AttributeList) :
    ∃ start rest,
      Writes variantName list start [] ((colors.styleOf? list).map (·.variant)) ∧
      Course colors start ((colors.styleOf? list).map (·.scheme)) rest ∧
      colors.mapList list =
        { rest with
          messages := ((expressionOf? list variantName).map variantMessage).toList ++
            rest.messages } := by
  obtain ⟨writes, hint, messages⟩ := splitVariant_writes colors list
  unfold mapList
  rw [← messages, ← hint]
  generalize colors.splitVariant list = split at writes
  obtain ⟨⟨start, reported⟩, hint⟩ := split
  dsimp only at writes ⊢
  refine ⟨start, ?_⟩
  cases found : start.find? colorName with
  | none => exact ⟨_, writes, .absent (find?_eq_none_iff_get?.1 found), rfl⟩
  | some index =>
    obtain ⟨before, item, after, rfl, rfl, first⟩ := split_of_find? found
    have value : valueOf? (before ++ .attr item :: after) colorName = some item.value := by
      rw [valueOf?, first.get?, Option.map_some]
    dsimp only
    rw [eraseIdx_split, value]
    cases shape : item.value with
    | literal quote text => exact ⟨_, writes, .literal rfl first (by rw [shape]; rfl), rfl⟩
    | expression text => exact ⟨_, writes, .expression (first.get? after) shape, rfl⟩
    | bareWord text | boolean =>
      exact ⟨_, writes, .plain rfl first (by rw [shape]; rfl) (by rw [shape]; rfl), rfl⟩

end ColorTables
end Retag
