import Retag.Proofs.Color.Writing

/-! What a colour mapping says about the first `variant`, `color` and `colorScheme` of a tag. The
style of a compound variant comes before a variant that the colour implies, the scheme of the colour
before that of the variant, and an expression before both. -/
namespace Retag.ColorTables
open AttributeList Attribute

@[simp] theorem afterWrite_none (name : Text) (previous : Option Attribute) :
    afterWrite name previous none = previous := rfl

@[simp] theorem afterWrite_some (name text : Text) (previous : Option Attribute) :
    afterWrite name previous (some text) = some (written name text previous) := rfl

/-! ### Settling additions -/

section
variable {list middle last : AttributeList} {name : Text} {slot : Option Nat}
  {added variants schemes : List Attribute}

theorem getAll_settle (list : AttributeList) (slot : Option Nat) (added : List Attribute)
    (name : Text) :
    ∃ a b, list.getAll name = a ++ b ∧
      (settle list slot added).separate.getAll name = a ++ added.filter (·.name == name) ++ b := by
  obtain ⟨front, back, settled, ahead, behind⟩ := settle_split list slot added
  refine ⟨front.getAll name, back.getAll name, ?_, ?_⟩
  · rw [getAll_eq_of_ink ahead, getAll_eq_of_ink behind, ← getAll_append, List.take_append_drop]
  · rw [settled, getAll_append, getAll_append, getAll_spaced]

theorem get?_settle {wanted : List Attribute} (filtered : added.filter (·.name == name) = wanted)
    (fresh : wanted ≠ [] → list.get? name = none) :
    (settle list slot added).separate.get? name = (list.get? name).or wanted.head? := by
  obtain ⟨a, b, whole, settled⟩ := getAll_settle list slot added name
  rw [get?_eq_head?, settled, filtered]
  by_cases none : wanted = []
  · simp [none, get?_eq_head?, whole]
  · have absent := fresh none
    obtain ⟨rfl, rfl⟩ := List.append_eq_nil_iff.1 (whole.symm.trans (get?_eq_none_iff.1 absent))
    simp [absent]

/-- Two writes whose additions are settled together do what each says to its name, and nothing to
the colours. -/
theorem get?_settled {variant scheme : Option Text}
    (first : Writes variantName list middle variants variant)
    (second : Writes schemeName middle last schemes scheme) (slot : Option Nat) :
    let mapped := (settle last slot (variants ++ schemes)).separate
    mapped.get? variantName = afterWrite variantName (list.get? variantName) variant ∧
      mapped.get? schemeName = afterWrite schemeName (list.get? schemeName) scheme ∧
      mapped.getAll colorName = list.getAll colorName := by
  have untouched : last.get? variantName = middle.get? variantName :=
    second.get?_ne variant_ne_scheme.symm
  have variantsOnly : (variants ++ schemes).filter (·.name == variantName) = variants := by
    rw [List.filter_append, first.filter_self, second.filter_ne variant_ne_scheme.symm,
      List.append_nil]
  have schemesOnly : (variants ++ schemes).filter (·.name == schemeName) = schemes := by
    rw [List.filter_append, first.filter_ne variant_ne_scheme, second.filter_self, List.nil_append]
  have noColor : (variants ++ schemes).filter (·.name == colorName) = [] := by
    rw [List.filter_append, first.filter_ne variant_ne_color, second.filter_ne scheme_ne_color,
      List.append_nil]
  refine ⟨?_, ?_, ?_⟩
  · rw [get?_settle variantsOnly fun some => untouched.trans (first.absent some), untouched,
      first.get?_or]
  · rw [get?_settle schemesOnly second.absent, second.get?_or,
      first.get?_ne variant_ne_scheme]
  · obtain ⟨a, b, whole, settled⟩ := getAll_settle last slot (variants ++ schemes) colorName
    rw [settled, noColor, List.append_nil, ← whole, second.getAll_ne scheme_ne_color,
      first.getAll_ne variant_ne_color]

end

/-- The variant that a mapping writes: the style of a compound variant, or else the variant that
the colour implies, which is not written over anything but a literal. -/
def variantFor? (colors : ColorTables) (list : AttributeList) : Option Text :=
  ((colors.styleOf? list).map (·.variant)).or
    (if (valueOf? list variantName).all (·.isLiteral) then
      (colors.impliedBy? list).bind (·.variant) else none)

/-- The scheme of a literal colour, or else that of a compound variant. -/
def schemeFor? (colors : ColorTables) (list : AttributeList) : Option Text :=
  ((colors.impliedBy? list).map (·.scheme)).or ((colors.styleOf? list).map (·.scheme))

section
variable {colors : ColorTables} {list start : AttributeList}

theorem place_views (list : AttributeList) (slot : Option Nat) (implied : Option Resolution)
    (hint : Option Text) :
    let placed := (place list slot implied hint).list
    placed.get? variantName = afterWrite variantName (list.get? variantName)
        (if (valueOf? list variantName).all fun value => !hint.isSome && value.isLiteral then
          implied.bind (·.variant) else none) ∧
      placed.get? schemeName = afterWrite schemeName (list.get? schemeName)
        (if (expressionOf? list schemeName).isNone then (implied.map (·.scheme)).or hint
          else none) ∧
      placed.getAll colorName = list.getAll colorName ∧
      (place list slot implied hint).messages =
        ((expressionOf? list schemeName).bind fun expression =>
          ((implied.map (·.scheme)).or hint).map (schemeMessage expression)).toList := by
  obtain ⟨middle, variants, last, schemes, first, second, placed⟩ :=
    place_writes list slot implied hint
  rw [placed]
  obtain ⟨variant, scheme, color⟩ := get?_settled first second slot
  exact ⟨variant, scheme, color, rfl⟩

/-- Unless the first colour is an expression, that colour is taken out and nothing else, and what
it stands for is placed. -/
theorem Course.placed {hint : Option Text} {rest : Stage} (course : Course colors start hint rest)
    (plain : expressionOf? start colorName = none) :
    ∃ base slot, rest = place base slot (colors.impliedBy? start) hint ∧
      base.getAll colorName = (start.getAll colorName).tail ∧
      ∀ other, colorName ≠ other → base.get? other = start.get? other := by
  cases course with
  | absent absent =>
    refine ⟨start, none, ?_, ?_, fun _ _ => rfl⟩
    · simp [impliedBy?, valueOf?, absent]
    · simp [get?_eq_none_iff.1 absent]
  | @literal before after item text split first literal =>
    subst split
    refine ⟨before ++ after, some before.length, ?_, ?_, fun other differ => ?_⟩
    · simp [impliedBy?, valueOf?, first.get?, literal]
    · rw [first.getAll, List.tail_cons]
    · rw [get?_eq_head?, get?_eq_head?, first.getAll_ne after differ]
  | expression found expression =>
    simp [expressionOf?, valueOf?, found, expression, Value.expression?] at plain
  | @plain before after item split first noLiteral _ =>
    subst split
    have kept := ink_collapseBlankAt before after
    refine ⟨collapseBlankAt (before ++ after) before.length, none, ?_, ?_, fun other differ => ?_⟩
    · simp [impliedBy?, valueOf?, first.get?, noLiteral]
    · rw [getAll_eq_of_ink kept, first.getAll, List.tail_cons]
    · rw [get?_eq_head?, get?_eq_head?, getAll_eq_of_ink kept, first.getAll_ne after differ]

/-- An implied variant never replaces the style of a compound one. -/
theorem afterWrite_split (implied : Option Text)
    (split : start.get? variantName = afterWrite variantName (list.get? variantName)
      ((colors.styleOf? list).map (·.variant))) :
    afterWrite variantName (start.get? variantName)
        (if (valueOf? start variantName).all fun value =>
            !((colors.styleOf? list).map (·.scheme)).isSome && value.isLiteral then implied
          else none) =
      afterWrite variantName (list.get? variantName) (((colors.styleOf? list).map (·.variant)).or
        (if (valueOf? list variantName).all (·.isLiteral) then implied else none)) := by
  cases style : colors.styleOf? list with
  | none =>
    have same : start.get? variantName = list.get? variantName := by simpa [style] using split
    rw [same, valueOf?_congr same]
    rfl
  | some styled =>
    -- The style is a literal by now; only the hint tells that it came from a compound value.
    rw [style, Option.map_some, afterWrite_some] at split
    simp [valueOf?, split]

theorem Course.of_expression {hint : Option Text} {rest : Stage} {text : Text}
    (course : Course colors start hint rest)
    (expression : expressionOf? start colorName = some text) :
    rest = { list := start.separate, messages := [colorMessage text hint] } := by
  cases course with
  | absent absent => simp [expressionOf?, valueOf?, absent] at expression
  | literal split first literal =>
    subst split
    have plain := Value.expression?_of_isLiteral (Option.isSome_of_eq_some literal)
    simp [expressionOf?, valueOf?, first.get?, plain] at expression
  | expression found value =>
    obtain rfl : _ = text := by
      simpa [expressionOf?, valueOf?, found, value, Value.expression?] using expression
    rfl
  | plain split first _ plain =>
    subst split
    simp [expressionOf?, valueOf?, first.get?, plain] at expression

/-- The messages for what a mapping leaves: an expression in `variant`, and one in `color` or else
one in a `colorScheme` for which there is a scheme. -/
def messagesFor (colors : ColorTables) (list : AttributeList) : List Text :=
  ((expressionOf? list variantName).map variantMessage).toList ++
    match expressionOf? list colorName with
    | some text => [colorMessage text ((colors.styleOf? list).map (·.scheme))]
    | none =>
      ((expressionOf? list schemeName).bind fun expression =>
        (colors.schemeFor? list).map (schemeMessage expression)).toList

structure Mapped (colors : ColorTables) (list : AttributeList) (mapped : Stage) : Prop where
  variant : mapped.list.get? variantName =
    afterWrite variantName (list.get? variantName) (colors.variantFor? list)
  scheme : mapped.list.get? schemeName = afterWrite schemeName (list.get? schemeName)
    (if (expressionOf? list colorName).isNone && (expressionOf? list schemeName).isNone then
      colors.schemeFor? list else none)
  color : mapped.list.getAll colorName =
    if (expressionOf? list colorName).isNone then (list.getAll colorName).tail
    else list.getAll colorName
  messages : mapped.messages = colors.messagesFor list

theorem impliedBy?_of_expression {text : Text}
    (expression : expressionOf? list colorName = some text) : colors.impliedBy? list = none := by
  obtain ⟨value, found, isExpression⟩ := Option.bind_eq_some_iff.1 expression
  have noLiteral : value.literal? = none := by
    cases value with
    | expression => rfl
    | literal | bareWord | boolean => cases isExpression
  simp [impliedBy?, found, noLiteral]

theorem mapList_mapped (colors : ColorTables) (list : AttributeList) :
    Mapped colors list (colors.mapList list) := by
  obtain ⟨start, rest, writes, course, mapped⟩ := mapList_course colors list
  have split := writes.get?_or
  rw [List.head?_nil, Option.or_none] at split
  have sameColors := writes.getAll_ne variant_ne_color
  have sameColor := writes.get?_ne variant_ne_color
  have sameScheme := writes.get?_ne variant_ne_scheme
  rw [mapped]
  -- The courses differ in the list that is left and in the slot; what is looked up in the result
  -- depends on neither, so only an expression needs a case of its own.
  cases expression : expressionOf? list colorName with
  | some text =>
    have noLiteral : colors.impliedBy? list = none := impliedBy?_of_expression expression
    obtain rfl := course.of_expression ((expressionOf?_congr sameColor).trans expression)
    have kept (name : Text) : start.separate.getAll name = start.getAll name :=
      getAll_eq_of_ink (ink_separate start) name
    constructor
    · rw [get?_eq_head?, kept, ← get?_eq_head?, split]
      simp [variantFor?, noLiteral]
    · rw [get?_eq_head?, kept, ← get?_eq_head?, sameScheme]
      simp [expression]
    · simp [kept, sameColors, expression]
    · simp [messagesFor, expression]
  | none =>
    have sameImplied : colors.impliedBy? start = colors.impliedBy? list := by
      rw [impliedBy?, valueOf?_congr sameColor, impliedBy?]
    have placed := course.placed ((expressionOf?_congr sameColor).trans expression)
    rw [sameImplied, sameColors] at placed
    obtain ⟨base, slot, rfl, color, others⟩ := placed
    obtain ⟨variant, scheme, kept, messages⟩ := place_views base slot (colors.impliedBy? list)
      ((colors.styleOf? list).map (·.scheme))
    have baseVariant := others variantName variant_ne_color.symm
    have baseScheme := (others schemeName scheme_ne_color.symm).trans sameScheme
    rw [baseVariant, valueOf?_congr baseVariant] at variant
    rw [baseScheme, expressionOf?_congr baseScheme] at scheme
    rw [expressionOf?_congr baseScheme] at messages
    constructor
    · exact variant.trans (afterWrite_split _ split)
    · simpa [expression, schemeFor?] using scheme
    · simp [kept, color, expression]
    · simp [messagesFor, expression, schemeFor?, messages]

/-- The colours of a tag moved to `variant` and `colorScheme`, in terms of the first attribute of
each of the three names before and after. -/
structure MovesColors (colors : ColorTables) (location : Location) (list mapped : AttributeList)
    (issues : List Issue) : Prop where
  /-- A colour expression stays, with every other colour. -/
  color_kept : ∀ text, expressionOf? list colorName = some text →
    mapped.getAll colorName = list.getAll colorName
  /-- Any other first colour goes, and no further one. -/
  color_removed : expressionOf? list colorName = none →
    mapped.getAll colorName = (list.getAll colorName).tail
  /-- A compound variant becomes its style, whatever the colour says. -/
  variant_styled : ∀ styled, colors.styleOf? list = some styled →
    mapped.get? variantName = some (written variantName styled.variant (list.get? variantName))
  /-- Otherwise a variant that the colour implies is put in, or written over a literal. -/
  variant_implied : ∀ resolution variant, colors.styleOf? list = none →
    colors.impliedBy? list = some resolution → resolution.variant = some variant →
    (∀ value ∈ valueOf? list variantName, value.isLiteral = true) →
    mapped.get? variantName = some (written variantName variant (list.get? variantName))
  /-- Otherwise the variant stays. -/
  variant_kept : colors.styleOf? list = none →
    ((colors.impliedBy? list).bind (·.variant) = none ∨
      ∃ value ∈ valueOf? list variantName, value.isLiteral = false) →
    mapped.get? variantName = list.get? variantName
  /-- A scheme is put in or written over anything but an expression. -/
  scheme_written : ∀ scheme, expressionOf? list colorName = none →
    expressionOf? list schemeName = none → colors.schemeFor? list = some scheme →
    mapped.get? schemeName = some (written schemeName scheme (list.get? schemeName))
  /-- Without a scheme, or with an expression for the colour or the scheme, the scheme stays. -/
  scheme_kept : (expressionOf? list colorName).isSome = true ∨
    (expressionOf? list schemeName).isSome = true ∨ colors.schemeFor? list = none →
    mapped.get? schemeName = list.get? schemeName
  /-- Every expression that stood in the way is reported where the tag is, and nothing else. -/
  issues_eq : issues =
    (colors.messagesFor list).map fun message => ⟨.unresolvedValue, location, message⟩

theorem mapAttributes_moves_colors (colors : ColorTables) (location : Location)
    (list : AttributeList) :
    MovesColors colors location list (colors.mapAttributes location list).1
      (colors.mapAttributes location list).2 := by
  obtain ⟨variant, scheme, color, messages⟩ := mapList_mapped colors list
  unfold mapAttributes
  constructor
  · intro text expression
    simp [color, expression]
  · intro plain
    simp [color, plain]
  · intro styled style
    simp [variant, variantFor?, style]
  · intro resolution implied style resolved isImplied literal
    have writable : (valueOf? list variantName).all (·.isLiteral) = true := by
      simpa [Option.all_eq_true] using literal
    simp [variant, variantFor?, style, writable, resolved, isImplied]
  · intro style reason
    rw [variant, variantFor?, style, Option.map_none, Option.none_or]
    rcases reason with nothing | ⟨value, found, notLiteral⟩
    · simp [nothing]
    · simp [Option.mem_def.1 found, notLiteral]
  · intro word plain noExpression known
    simp [scheme, plain, noExpression, known]
  · intro reason
    rw [scheme]
    rcases reason with isExpression | isExpression | nothing
    · obtain ⟨text, expression⟩ := Option.isSome_iff_exists.1 isExpression
      simp [expression]
    · obtain ⟨text, expression⟩ := Option.isSome_iff_exists.1 isExpression
      simp [expression]
    · simp [nothing]
  · simp [messages]

end
end Retag.ColorTables
