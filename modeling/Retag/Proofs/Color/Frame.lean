import Mathlib.Data.List.Forall2
import Retag.Proofs.Color.Quiet
import Retag.Proofs.Color.Writing

/-! What a colour mapping leaves alone. Apart from white space, every token of the mapped list is a
token of the list, in order, or a `variant` or `colorScheme` written over one that was no
expression; one colour may be gone, and new attributes stand together at one place. -/
namespace Retag.ColorTables
open AttributeList Attribute

/-- A token of the list beside the one in its place after a mapping. -/
inductive Restyled : Token → Token → Prop where
  | kept (token : Token) : Restyled token token
  | written {old new : Attribute} : old.name = variantName ∨ old.name = schemeName →
      new.name = old.name → old.value.expression? = none → new.value.isLiteral = true →
      Restyled (.attr old) (.attr new)

namespace Restyled
variable {a b c : Token}

theorem trans (first : Restyled a b) (second : Restyled b c) : Restyled a c := by
  cases first with
  | kept => exact second
  | written named same plain literal =>
    cases second with
    | kept => exact .written named same plain literal
    | written _ again _ literal => exact .written named (again.trans same) plain literal

theorem isBlank_eq (restyled : Restyled a b) : a.isBlank = b.isBlank := by
  cases restyled with
  | kept | written => rfl

theorem named_eq (restyled : Restyled a b) (name : Text) : named name a = named name b := by
  cases restyled with
  | kept => rfl
  | written _ same => simp [named, same]

/-- Only a `variant` or a `colorScheme` is written. -/
theorem eq_of_named (restyled : Restyled a b) (isColor : named colorName b = true) : a = b := by
  cases restyled with
  | kept => rfl
  | @written old new named same =>
    have differ : old.name ≠ colorName := by
      rcases named with isVariant | isScheme
      · exact isVariant ▸ variant_ne_color
      · exact isScheme ▸ scheme_ne_color
    exact absurd (same.symm.trans (by simpa [AttributeList.named] using isColor)) differ

end Restyled

abbrev Restyles (a b : AttributeList) : Prop := List.Forall₂ Restyled a b

namespace Restyles
variable {a b c : AttributeList}

theorem refl (a : AttributeList) : Restyles a a := List.forall₂_same.2 fun token _ => .kept token

theorem trans (first : Restyles a b) (second : Restyles b c) : Restyles a c := by
  induction first generalizing c with
  | nil => exact second
  | cons head _ ih =>
    obtain ⟨_, _, next, onward, rfl⟩ := List.forall₂_cons_left_iff.1 second
    exact .cons (head.trans next) (ih onward)

theorem append {d : AttributeList} (first : Restyles a b) (second : Restyles c d) :
    Restyles (a ++ c) (b ++ d) := List.rel_append first second

theorem take (restyles : Restyles a b) (n : Nat) : Restyles (a.take n) (b.take n) :=
  List.forall₂_take n restyles

theorem drop (restyles : Restyles a b) (n : Nat) : Restyles (a.drop n) (b.drop n) :=
  List.forall₂_drop n restyles

theorem ink (restyles : Restyles a b) : Restyles a.ink b.ink := by
  refine List.rel_filter (fun x y restyled => ?_) restyles
  change (!x.isBlank) = true ↔ (!y.isBlank) = true
  rw [restyled.isBlank_eq]

theorem find?_eq (restyles : Restyles a b) (name : Text) : a.find? name = b.find? name := by
  unfold AttributeList.find?
  induction restyles with
  | nil => rfl
  | cons head _ ih => rw [List.findIdx?_cons, List.findIdx?_cons, head.named_eq, ih]

theorem landing_eq (restyles : Restyles a b) (slot : Option Nat) :
    landing a slot = landing b slot := by
  rw [landing, restyles.find?_eq, restyles.length_eq, landing]

theorem compact (restyles : Restyles a b) (compact : Compact a) : Compact b := by
  induction restyles with
  | nil => exact compact
  | cons head tail ih =>
    obtain ⟨next, onward⟩ := compact_cons.1 compact
    refine compact_cons.2 ⟨?_, ih onward⟩
    cases tail with
    | nil => simp
    | cons second _ => simpa [head.isBlank_eq, second.isBlank_eq] using next

theorem unnamed_iff (restyles : Restyles a b) (name : Text) :
    (∀ token ∈ a, named name token = false) ↔ ∀ token ∈ b, named name token = false := by
  rw [← List.findIdx?_eq_none_iff, ← List.findIdx?_eq_none_iff]
  exact Eq.congr_left (restyles.find?_eq name)

/-- The first colour stands in both lists at the same place. -/
theorem split {list before after : AttributeList} {item : Attribute}
    (restyles : Restyles list (before ++ .attr item :: after))
    (first : FirstNamed colorName before item) :
    ∃ left right : AttributeList, list = left ++ .attr item :: right ∧
      FirstNamed colorName left item ∧ Restyles left before ∧ Restyles right after := by
  have ahead : Restyles _ before := List.forall₂_take_append _ _ _ restyles
  obtain ⟨token, right, head, tail, split⟩ :=
    List.forall₂_cons_right_iff.1 (List.forall₂_drop_append _ _ _ restyles)
  obtain rfl := head.eq_of_named (by simp [AttributeList.named, first.isNamed])
  refine ⟨_, right, ?_, ⟨first.isNamed, (ahead.unnamed_iff _).2 first.first⟩, ahead, tail⟩
  rw [← split, List.take_append_drop]

theorem concat {item : Attribute} (restyles : Restyles (a ++ [.attr item]) b) :
    ∃ before other, b = before ++ [.attr other] ∧ Restyles a before ∧ other.name = item.name := by
  have ahead := restyles.take a.length
  have last := restyles.drop a.length
  rw [List.take_left] at ahead
  rw [List.drop_left] at last
  obtain ⟨token, rest, head, tail, split⟩ := List.forall₂_cons_left_iff.1 last
  obtain rfl := List.forall₂_nil_left_iff.1 tail
  cases head with
  | kept => exact ⟨b.take a.length, item, by rw [← split, List.take_append_drop], ahead, rfl⟩
  | @written _ other _ same =>
    exact ⟨b.take a.length, other, by rw [← split, List.take_append_drop], ahead, same⟩

/-- A restyled list has the same tokens of any kind that leaves out what can be written. -/
theorem filter_eq {kind : Token → Bool} (restyles : Restyles a b)
    (fixed : ∀ item, item.name = variantName ∨ item.name = schemeName →
      item.value.expression? = none → kind (.attr item) = false) :
    b.filter kind = a.filter kind := by
  induction restyles with
  | nil => rfl
  | cons head _ ih =>
    cases head with
    | kept token => rw [List.filter_cons, List.filter_cons, ih]
    | @written old new named same plain literal =>
      have left := fixed old named plain
      have right := fixed new (same ▸ named) (Value.expression?_of_isLiteral literal)
      rw [List.filter_cons_of_neg (by simp [right]), List.filter_cons_of_neg (by simp [left]), ih]

end Restyles

namespace Writes
variable {name : Text} {list result : AttributeList} {added : List Attribute} {text : Option Text}

theorem restyles (writes : Writes name list result added text)
    (writable : name = variantName ∨ name = schemeName) : Restyles list result := by
  cases writes with
  | kept | asked => exact .refl list
  | @replaced item text found plain =>
    obtain ⟨before, after, rfl, first⟩ := split_of_get? found
    rw [first.modify]
    refine .append (.refl before) (.cons (.written ?_ ?_ plain ?_) (Restyles.refl after))
    · rwa [first.isNamed]
    · exact setLiteral_name item text
    · exact setLiteral_isLiteral item text

theorem literals (writes : Writes name list result added text) :
    ∀ item ∈ added, item.value.isLiteral = true := by
  cases writes with
  | kept | replaced => simp
  | asked => simp [Attribute.ofLiteral, Value.isLiteral, Value.literal?]

theorem names_sublist (writes : Writes name list result added text) :
    (added.map (·.name)).Sublist [name] := by
  cases writes with
  | kept | replaced => exact List.nil_sublist _
  | asked => exact List.Sublist.refl _

theorem eq_nil (writes : Writes name list result added none) : added = [] := by
  cases writes with
  | kept => rfl

end Writes

/-! ### Where new attributes stand -/

/-- New literals that stand together, a `variant` before a `colorScheme`. -/
structure Together (mapped front : AttributeList) (added : List Attribute)
    (back : AttributeList) : Prop where
  eq : mapped = front ++ spaced added ++ back
  order : (added.map (·.name)).Sublist [variantName, schemeName]
  literals : ∀ item ∈ added, item.value.isLiteral = true

structure Placed (list : AttributeList) (slot : Option Nat) (placed front : AttributeList)
    (added : List Attribute) (back : AttributeList) : Prop
    extends Together placed front added back where
  ahead : Restyles (ink (list.take (landing list slot))) front.ink
  behind : Restyles (ink (list.drop (landing list slot))) back.ink

theorem place_placed (list : AttributeList) (slot : Option Nat) (implied : Option Resolution)
    (hint : Option Text) :
    ∃ front added back, Placed list slot (place list slot implied hint).list front added back ∧
      (added ≠ [] → implied = none → hint.isSome = true) := by
  obtain ⟨middle, variants, last, schemes, first, second, placed⟩ :=
    place_writes list slot implied hint
  obtain ⟨front, back, settled, ahead, behind⟩ := settle_split last slot (variants ++ schemes)
  have restyles := (first.restyles (.inl rfl)).trans (second.restyles (.inr rfl))
  rw [← restyles.landing_eq] at ahead behind
  refine ⟨front, variants ++ schemes, back, ⟨⟨?_, ?_, ?_⟩, ?_, ?_⟩, ?_⟩
  · rw [placed, settled]
  · rw [List.map_append]
    exact first.names_sublist.append second.names_sublist
  · intro item member
    exact (List.mem_append.1 member).elim (first.literals item) (second.literals item)
  · rw [ahead]
    exact (restyles.take _).ink
  · rw [behind]
    exact (restyles.drop _).ink
  · rintro some rfl
    cases hint with
    | some scheme => rfl
    | none =>
      rw [Option.bind_none, ite_self] at first
      rw [Option.map_none, Option.or_none, ite_self] at second
      exact absurd (by rw [first.eq_nil, second.eq_nil, List.append_nil]) some

theorem compact_place {list : AttributeList} {slot : Option Nat}
    (ahead : Compact (list.take (landing list slot)))
    (behind : Compact (list.drop (landing list slot))) (whole : slot = none → Compact list)
    (implied : Option Resolution) (hint : Option Text) :
    Compact (place list slot implied hint).list := by
  obtain ⟨middle, variants, last, schemes, first, second, placed⟩ :=
    place_writes list slot implied hint
  have restyles := (first.restyles (.inl rfl)).trans (second.restyles (.inr rfl))
  rw [placed]
  refine compact_settle ?_ ?_ fun none => restyles.compact (whole none)
  · rw [← restyles.landing_eq]
    exact (restyles.take _).compact ahead
  · rw [← restyles.landing_eq]
    exact (restyles.drop _).compact behind

/-- The list without its first colour, which stays if it is an expression. -/
def remaining (list : AttributeList) : AttributeList :=
  match expressionOf? list colorName, list.find? colorName with
  | none, some index => list.eraseIdx index
  | _, _ => list

theorem remaining_of_split {left right : AttributeList} {item : Attribute}
    (first : FirstNamed colorName left item) (plain : item.value.expression? = none) :
    remaining (left ++ .attr item :: right) = left ++ right := by
  have noExpression : expressionOf? (left ++ .attr item :: right) colorName = none := by
    simp [expressionOf?, valueOf?, first.get?, plain]
  rw [remaining, noExpression, first.find?]
  exact eraseIdx_split left (.attr item) right

/-- A mapped list in three parts: the new attributes, together and in order, and what stands before
and after them. -/
structure Inserted (list mapped front : AttributeList) (added : List Attribute)
    (back : AttributeList) : Prop extends Together mapped front added back where
  /-- All else was there. -/
  kept : Restyles (remaining list).ink (front ++ back).ink
  /-- A literal colour makes place for what is new. -/
  at_color : ∀ item, list.get? colorName = some item → item.value.isLiteral = true →
    ∃ left right : AttributeList, list = left ++ .attr item :: right ∧
      FirstNamed colorName left item ∧ Restyles left.ink front.ink ∧ Restyles right.ink back.ink
  /-- Without one the new attributes follow the first variant. -/
  after_variant : added ≠ [] → (∀ item ∈ list.get? colorName, item.value.isLiteral = false) →
    ∃ before item, front.ink = before ++ [.attr item] ∧ FirstNamed variantName before item

/-- Without a literal colour what is new, if anything, is put in after the variant. -/
theorem inserted_of_base {list base : AttributeList} {hint : Option Text}
    (kept : Restyles (remaining list).ink base.ink)
    (variant : hint.isSome = true → base.get? variantName ≠ none)
    (noLiteral : ∀ item ∈ list.get? colorName, item.value.isLiteral = false) :
    ∃ front added back, Inserted list (place base none none hint).list front added back := by
  obtain ⟨front, added, back, ⟨together, ahead, behind⟩, hinted⟩ :=
    place_placed base none none hint
  refine ⟨front, added, back, together, ?_, ?_, ?_⟩
  · have whole := ahead.append behind
    rw [← ink_append, ← ink_append, List.take_append_drop] at whole
    exact kept.trans whole
  · intro item found literal
    rw [noLiteral item found] at literal
    cases literal
  · intro some _
    obtain ⟨item, found⟩ := Option.ne_none_iff_exists'.1 (variant (hinted some rfl))
    obtain ⟨before, after, rfl, first⟩ := split_of_get? found
    have reached : landing (before ++ .attr item :: after) none = before.length + 1 := by
      simp [landing, first.find?]
    have taken : (before ++ .attr item :: after).take (before.length + 1) =
        before ++ [.attr item] := by
      rw [List.append_cons]
      exact List.take_left' (by simp)
    rw [reached, taken, ink_append] at ahead
    obtain ⟨before', other, split, restyles, same⟩ := Restyles.concat ahead
    refine ⟨before', other, split, same.trans first.isNamed, ?_⟩
    refine (restyles.unnamed_iff variantName).1 fun token member => ?_
    exact first.first token (List.mem_of_mem_filter member)

/-- What is new takes the place of a literal colour. -/
theorem inserted_of_literal {left right before after : AttributeList} {item : Attribute}
    (first : FirstNamed colorName left item) (literal : item.value.isLiteral = true)
    (ahead : Restyles left before) (behind : Restyles right after) (implied : Option Resolution)
    (hint : Option Text) :
    ∃ front added back, Inserted (left ++ .attr item :: right)
      (place (before ++ after) (some before.length) implied hint).list front added back := by
  obtain ⟨front, added, back, ⟨together, placedAhead, placedBehind⟩, -⟩ :=
    place_placed (before ++ after) (some before.length) implied hint
  rw [landing_some, List.take_left] at placedAhead
  rw [landing_some, List.drop_left] at placedBehind
  have allAhead := ahead.ink.trans placedAhead
  have allBehind := behind.ink.trans placedBehind
  refine ⟨front, added, back, together, ?_, ?_, ?_⟩
  · have plain := Value.expression?_of_isLiteral literal
    rw [remaining_of_split first plain, ink_append, ink_append]
    exact allAhead.append allBehind
  · intro other found _
    obtain rfl := Option.some.inj ((first.get? right).symm.trans found)
    exact ⟨left, right, rfl, first, allAhead, allBehind⟩
  · intro _ noLiteral
    rw [noLiteral item (first.get? right)] at literal
    cases literal

theorem variant_of_style {colors : ColorTables} {list : AttributeList}
    (styled : ((colors.styleOf? list).map (·.scheme)).isSome = true) :
    list.get? variantName ≠ none := by
  intro absent
  simp [styleOf?, valueOf?, absent] at styled

theorem mapList_inserted (colors : ColorTables) (list : AttributeList) :
    ∃ front added back, Inserted list (colors.mapList list).list front added back := by
  obtain ⟨start, rest, writes, course, mapped⟩ := mapList_course colors list
  rw [mapped]
  have restyles := writes.restyles (.inl rfl)
  have variant : ((colors.styleOf? list).map (·.scheme)).isSome = true →
      start.get? variantName ≠ none := by
    intro styled
    rw [ne_eq, ← find?_eq_none_iff_get?, ← restyles.find?_eq, find?_eq_none_iff_get?]
    exact variant_of_style styled
  have sameColor := writes.get?_ne variant_ne_color
  -- Each course starts from the split list, which is the list restyled, so that the first colour
  -- is at the same place in both.
  cases course with
  | absent absent =>
    have same : remaining list = list := by
      rw [remaining, find?_eq_none_iff_get?.2 (sameColor.symm.trans absent)]
      cases expressionOf? list colorName <;> rfl
    refine inserted_of_base ?_ variant (by simp [← sameColor, absent])
    rw [same]
    exact restyles.ink
  | @literal before after item text split first literal =>
    subst split
    obtain ⟨left, right, rfl, firstLeft, ahead, behind⟩ := restyles.split first
    exact inserted_of_literal firstLeft (Option.isSome_of_eq_some literal) ahead behind _ _
  | @expression item text found value =>
    rw [sameColor] at found
    have isExpression : expressionOf? list colorName = some text := by
      simp [expressionOf?, valueOf?, found, value, Value.expression?]
    refine ⟨start.separate, [], [], ⟨by simp, by simp, by simp⟩, ?_, ?_, by simp⟩
    · rw [remaining, isExpression, List.append_nil, ink_separate]
      exact restyles.ink
    · intro other found' literal
      obtain rfl := Option.some.inj (found.symm.trans found')
      simp [value, Value.isLiteral, Value.literal?] at literal
  | @plain before after item split first noLiteral plain =>
    subst split
    obtain ⟨left, right, rfl, firstLeft, ahead, behind⟩ := restyles.split first
    refine inserted_of_base ?_ ?_ ?_
    · rw [remaining_of_split firstLeft plain, ink_collapseBlankAt]
      exact (ahead.append behind).ink
    · intro styled absent
      refine variant styled ?_
      rw [get?_eq_none_iff, getAll_eq_of_ink (ink_collapseBlankAt before after)] at absent
      rwa [get?_eq_none_iff, first.getAll_ne after variant_ne_color.symm]
    · intro other found
      obtain rfl := Option.some.inj ((firstLeft.get? right).symm.trans found)
      simp [Value.isLiteral, noLiteral]

/-! ### Tokens of a kind -/

section
variable {kind : Token → Bool} {list : AttributeList}

theorem filter_ink (blank : ∀ run, kind (.blank run) = false) (list : AttributeList) :
    list.ink.filter kind = list.filter kind := by
  rw [ink, List.filter_filter]
  refine List.filter_congr fun token _ => ?_
  cases token with
  | blank run => simp [blank]
  | attr item | slash => simp [Token.isBlank]

theorem filter_remaining
    (fixed : ∀ item, item.name = colorName → item.value.expression? = none →
      kind (.attr item) = false) (list : AttributeList) :
    (remaining list).filter kind = list.filter kind := by
  unfold remaining
  split
  · rename_i plain found
    obtain ⟨before, item, after, rfl, rfl, first⟩ := split_of_find? found
    have noExpression : item.value.expression? = none := by
      simpa [expressionOf?, valueOf?, first.get?] using plain
    rw [eraseIdx_split, List.filter_append, List.filter_append,
      List.filter_cons_of_neg (by simp [fixed item first.isNamed noExpression])]
  · rfl

/-- Tokens of a kind that leaves out white space, and the three names except for expressions, stay
as they are and in order. -/
theorem Inserted.filter_eq {mapped front back : AttributeList} {added : List Attribute}
    (inserted : Inserted list mapped front added back)
    (blank : ∀ run, kind (.blank run) = false)
    (fixed : ∀ item, item.name = variantName ∨ item.name = colorName ∨ item.name = schemeName →
      item.value.expression? = none → kind (.attr item) = false) :
    mapped.filter kind = list.filter kind := by
  have additions : (spaced added).filter kind = [] := by
    rw [← filter_ink blank, ink_spaced, List.filter_eq_nil_iff]
    intro token member
    obtain ⟨item, among, rfl⟩ := List.mem_map.1 member
    have named : item.name = variantName ∨ item.name = schemeName :=
      List.mem_pair.1 (inserted.order.mem (List.mem_map_of_mem among))
    have plain := Value.expression?_of_isLiteral (inserted.literals item among)
    simp [fixed item (named.imp_right .inr) plain]
  calc mapped.filter kind
      = (front ++ back).filter kind := by
        rw [inserted.eq, List.filter_append, List.filter_append, additions, List.append_nil,
          List.filter_append]
    _ = (front ++ back).ink.filter kind := (filter_ink blank _).symm
    _ = (remaining list).ink.filter kind :=
        inserted.kept.filter_eq fun item named => fixed item (named.imp_right .inr)
    _ = (remaining list).filter kind := filter_ink blank _
    _ = list.filter kind := filter_remaining (fun item named => fixed item (.inr (.inl named))) list

end

theorem mapList_compact {list : AttributeList} (colors : ColorTables) (compact : list.Compact) :
    (colors.mapList list).list.Compact := by
  obtain ⟨start, rest, writes, course, mapped⟩ := mapList_course colors list
  rw [mapped]
  have begun := (writes.restyles (.inl rfl)).compact compact
  cases course with
  | absent => exact compact_place (begun.parts _).1 (begun.parts _).2 (fun _ => begun) none _
  | @literal before after item text split first literal =>
    subst split
    obtain ⟨ahead, behind, -⟩ := compact_append.1 begun
    refine compact_place ?_ ?_ (by simp) _ _
    · rwa [landing_some, List.take_left]
    · rw [landing_some, List.drop_left]
      exact (compact_cons.1 behind).2
  | expression => exact compact_separate begun
  | @plain before after item split first _ _ =>
    subst split
    obtain ⟨ahead, behind, -⟩ := compact_append.1 begun
    obtain ⟨front, collapsed, -, closed⟩ := collapseBlankAt_split before after
    have compactBase := closed ahead (compact_cons.1 behind).2
    rw [← collapsed] at compactBase
    exact compact_place (compactBase.parts _).1 (compactBase.parts _).2 (fun _ => compactBase) _ _

def isUnrelated (token : Token) : Bool :=
  !(token.isBlank || named variantName token || named colorName token || named schemeName token)

def holdsExpression (token : Token) : Bool :=
  (token.attr?.bind (·.value.expression?)).isSome

/-- A mapped list beside the list: what stays, how it is spaced, and where new attributes are. -/
structure LeavesRest (list mapped : AttributeList) : Prop where
  others : mapped.filter isUnrelated = list.filter isUnrelated
  expressions : mapped.filter holdsExpression = list.filter holdsExpression
  separated : mapped.Separated
  compact : list.Compact → mapped.Compact
  inserted : ∃ front added back, Inserted list mapped front added back

theorem mapAttributes_leaves_rest (colors : ColorTables) (location : Location)
    (list : AttributeList) : LeavesRest list (colors.mapAttributes location list).1 := by
  obtain ⟨front, added, back, inserted⟩ := mapList_inserted colors list
  constructor
  · refine inserted.filter_eq (fun _ => rfl) fun item isNamed _ => ?_
    rcases isNamed with same | same | same <;> simp [isUnrelated, named, same]
  · refine inserted.filter_eq (fun _ => rfl) fun item _ plain => ?_
    simp [holdsExpression, Token.attr?, plain]
  · exact mapList_separated colors list
  · exact mapList_compact colors
  · exact ⟨front, added, back, inserted⟩

end Retag.ColorTables
