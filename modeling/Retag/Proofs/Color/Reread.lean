import Retag.Proofs.Attribute.Steady
import Retag.Proofs.Color.Frame
import Retag.Proofs.Color.Semantics

/-! A colour mapping as an edit of text. The mapping works on tokens, and the next run reads the
text that they were written to. Main statement: the built-in mapping writes what is read back token
for token, and a second mapping of that text changes nothing. -/
namespace Retag.ColorTables
open AttributeList Attribute
open Token (Formed Firm)

/-! ### Steps on steady lists -/

/-- Text that can stand between quotes of either kind as it is. -/
def Quotable (text : Text) : Prop := ∀ c ∈ text, c ≠ '"' ∧ c ≠ '\'' ∧ c ≠ '\\'

theorem Quotable.quoted {text : Text} (quotable : Quotable text) (quote : Quote) :
    Text.Quoted quote.char text := by
  induction text with
  | nil => exact .nil
  | cons c cs ih =>
    obtain ⟨notDouble, notSingle, notEscape⟩ := quotable c (by simp)
    have notMark : c ≠ quote.char := by
      cases quote
      · exact notDouble
      · exact notSingle
    exact .plain notMark notEscape (ih fun d member => quotable d (by simp [member]))

theorem isName_variant : IsName variantName :=
  isName_read "ariant".toList (by decide) (by decide) (by decide)

theorem isName_scheme : IsName schemeName :=
  isName_read "olorScheme".toList (by decide) (by decide) (by decide)

theorem firm_ofLiteral {name text : Text} (named : IsName name) (quotable : Quotable text) :
    Firm (.attr (.ofLiteral name text)) :=
  ⟨.literal named ⟨by simp, by simp⟩ (quotable.quoted .double), rfl⟩

theorem firm_setLiteral {item : Attribute} {text : Text} (alone : Alone (.attr item))
    (named : IsName item.name) (quotable : Quotable text) :
    Firm (.attr (item.setLiteral text)) := by
  obtain ⟨name, value, spacing⟩ := item
  cases value with
  | literal quote old =>
    cases formed_of_literal alone rfl with
    | literal _ blank _ => exact ⟨.literal named blank (quotable.quoted quote), rfl⟩
  | expression old | bareWord old | boolean => exact firm_ofLiteral named quotable

theorem Writes.steady {name : Text} {list result : AttributeList} {added : List Attribute}
    {text : Option Text} (writes : Writes name list result added text) (named : IsName name)
    (quotable : ∀ word ∈ text, Quotable word) (steady : Steady list) :
    Steady result ∧ (∀ item ∈ added, Firm (.attr item)) ∧
      ∀ index, (∀ token ∈ list.take index, token.Formed) →
        ∀ token ∈ result.take index, token.Formed := by
  cases writes with
  | kept => exact ⟨steady, by simp, fun _ formed => formed⟩
  | asked =>
    refine ⟨steady, fun item member => ?_, fun _ formed => formed⟩
    obtain rfl := List.mem_singleton.1 member
    exact firm_ofLiteral named (quotable _ rfl)
  | @replaced item text found plain =>
    obtain ⟨before, after, rfl, first⟩ := split_of_get? found
    have firm : Firm (.attr (item.setLiteral text)) :=
      firm_setLiteral (steady.alone (by simp)) (first.isNamed ▸ named) (quotable text rfl)
    rw [first.modify]
    refine ⟨steady.replace firm, by simp, fun index formed token member => ?_⟩
    rw [List.take_append] at formed member
    rcases List.mem_append.1 member with ahead | behind
    · exact formed token (List.mem_append_left _ ahead)
    · cases rest : index - before.length with
      | zero => simp [rest] at behind
      | succ more =>
        rw [rest, List.take_succ_cons] at formed behind
        rcases List.mem_cons.1 behind with rfl | behind
        · exact firm.1
        · exact formed token (by simp [behind])

section
variable {colors : ColorTables} {list base start : AttributeList}

theorem steady_place {slot : Option Nat} {implied : Option Resolution} {hint : Option Text}
    (steady : Steady list)
    (variants : ∀ text ∈ implied.bind (·.variant), Quotable text)
    (schemes : ∀ text ∈ (implied.map (·.scheme)).or hint, Quotable text)
    (formed : implied ≠ none ∨ hint ≠ none →
      ∀ token ∈ list.take (landing list slot), token.Formed) :
    Steady (place list slot implied hint).list := by
  obtain ⟨middle, newVariants, last, newSchemes, first, second, placed⟩ :=
    place_writes list slot implied hint
  have restyles := (first.restyles (.inl rfl)).trans (second.restyles (.inr rfl))
  obtain ⟨steadyMiddle, firmVariants, formedMiddle⟩ := first.steady isName_variant
    (fun word member => variants word (by split at member <;> simp_all)) steady
  obtain ⟨steadyLast, firmSchemes, formedLast⟩ := second.steady isName_scheme
    (fun word member => schemes word (by split at member <;> simp_all)) steadyMiddle
  rw [placed]
  refine Steady.separate ?_
  unfold settle
  split
  · cases slot with
    | none => exact steadyLast
    | some index => exact steadyLast.collapseBlankAt index
  · rename_i some
    have needed : implied ≠ none ∨ hint ≠ none := by
      by_contra neither
      obtain ⟨rfl, rfl⟩ : implied = none ∧ hint = none := by simpa using neither
      rw [Option.bind_none, ite_self] at first
      rw [Option.map_none, Option.or_none, ite_self] at second
      simp [first.eq_nil, second.eq_nil] at some
    refine steadyLast.insertAt ?_ fun item member => ?_
    · have ahead := formedLast _ (formedMiddle _ (formed needed))
      rwa [restyles.landing_eq] at ahead
    · exact (List.mem_append.1 member).elim (firmVariants item) (firmSchemes item)

/-- Nothing is left open up to a variant that is a literal. -/
theorem formed_landing {item : Attribute} (steady : Steady list)
    (found : list.get? variantName = some item) (literal : item.value.isLiteral = true) :
    ∀ token ∈ list.take (landing list none), token.Formed := by
  obtain ⟨before, after, rfl, first⟩ := split_of_get? found
  have reached : landing (before ++ .attr item :: after) none = before.length + 1 := by
    simp [landing, first.find?]
  have taken : (before ++ .attr item :: after).take (before.length + 1) =
      before ++ [.attr item] := by
    rw [List.append_cons]
    exact List.take_left' (by simp)
  rw [reached, taken]
  intro token member
  rcases List.mem_append.1 member with ahead | last
  · exact steady.formed_before token ahead
  · obtain rfl := List.mem_singleton.1 last
    exact steady.formed_literal (by simp) literal

theorem styleOf?_known {styled : StyledScheme} (style : colors.styleOf? list = some styled) :
    colors.Known styled := by
  obtain ⟨text, -, found⟩ := Option.bind_eq_some_iff.1 style
  exact compoundAt?_known found

theorem written_literal? (name text : Text) (previous : Option Attribute) :
    (written name text previous).value.literal? = some text := by
  unfold written
  split <;> rfl

/-- Every mapping with plain words keeps a list steady. -/
theorem steady_mapList (quotable : ∀ word ∈ colors.words, Quotable word) (steady : Steady list) :
    Steady (colors.mapList list).list := by
  obtain ⟨start, rest, writes, course, mapped⟩ := mapList_course colors list
  rw [mapped]
  have variantWord : ∀ word ∈ (colors.styleOf? list).map (·.variant), Quotable word := by
    intro word member
    obtain ⟨styled, style, rfl⟩ := Option.map_eq_some_iff.1 member
    exact quotable _ (styleOf?_known style).1
  have schemeWord : ∀ word ∈ (colors.styleOf? list).map (·.scheme), Quotable word := by
    intro word member
    obtain ⟨styled, style, rfl⟩ := Option.map_eq_some_iff.1 member
    exact quotable _ (styleOf?_known style).2
  obtain ⟨steadyStart, -, -⟩ := writes.steady isName_variant variantWord steady
  -- A hint comes from a compound variant, which was written as a literal.
  have styled : (colors.styleOf? list).map (·.scheme) ≠ none →
      ∃ item, start.get? variantName = some item ∧ item.value.isLiteral = true := by
    intro some
    have split := writes.get?_or
    rw [List.head?_nil, Option.or_none] at split
    obtain ⟨styled, style⟩ : ∃ styled, colors.styleOf? list = Option.some styled :=
      Option.ne_none_iff_exists'.1 (by simpa using some)
    rw [style] at split
    exact ⟨_, split, Option.isSome_of_eq_some (written_literal? _ _ _)⟩
  cases course with
  | absent absent =>
    refine steady_place steadyStart (by simp) schemeWord fun needed => ?_
    obtain ⟨item, found, literal⟩ := styled (needed.resolve_left (by simp))
    exact formed_landing steadyStart found literal
  | @literal before after item text split first literal =>
    subst split
    have known := resolve_known colors text
    refine steady_place steadyStart.erase ?_ ?_ fun _ => ?_
    · exact fun word member => quotable word (known.2 word member)
    · simpa using quotable _ known.1
    · rw [landing_some, List.take_left]
      exact steadyStart.formed_before
  | expression => exact steadyStart.separate
  | @plain before after item split first noLiteral plain =>
    subst split
    have steadyBase := steadyStart.erase.collapseBlankAt before.length
    refine steady_place steadyBase (by simp) schemeWord fun needed => ?_
    obtain ⟨variant, found, literal⟩ := styled (needed.resolve_left (by simp))
    have kept :
        AttributeList.get? (collapseBlankAt (before ++ after) before.length) variantName =
          some variant := by
      rw [get?_eq_head?, getAll_eq_of_ink (ink_collapseBlankAt before after),
        ← first.getAll_ne after variant_ne_color.symm, ← get?_eq_head?, found]
    exact formed_landing steadyBase kept literal

/-! ### A second mapping -/

/-- A list on which a mapping has nothing to do. -/
structure Settled (colors : ColorTables) (list : AttributeList) : Prop where
  color : expressionOf? list colorName = none → list.get? colorName = none
  variant : colors.styleOf? list = none
  separated : Separated list

theorem Settled.mapList_eq (settled : Settled colors list) : (colors.mapList list).list = list := by
  obtain ⟨start, rest, writes, course, mapped⟩ := mapList_course colors list
  rw [settled.variant, Option.map_none] at writes course
  cases writes with
  | kept =>
    rw [mapped]
    cases course with
    | absent => exact separate_of_separated settled.separated
    | expression => exact separate_of_separated settled.separated
    | literal split first literal =>
      subst split
      have plain := Value.expression?_of_isLiteral (Option.isSome_of_eq_some literal)
      have absent := settled.color (by simp [expressionOf?, valueOf?, first.get?, plain])
      rw [first.get?] at absent
      cases absent
    | plain split first _ plain =>
      subst split
      have absent := settled.color (by simp [expressionOf?, valueOf?, first.get?, plain])
      rw [first.get?] at absent
      cases absent

/-- A variant that a mapping writes is a word of the tables. -/
theorem variantFor?_word {word : Text} (written : colors.variantFor? list = some word) :
    word ∈ colors.words := by
  rcases Option.or_eq_some_iff.1 written with style | ⟨-, implied⟩
  · obtain ⟨styled, found, rfl⟩ := Option.map_eq_some_iff.1 style
    exact (styleOf?_known found).1
  · split at implied
    · obtain ⟨resolution, resolved, variant⟩ := Option.bind_eq_some_iff.1 implied
      obtain ⟨text, -, rfl⟩ := Option.map_eq_some_iff.1 resolved
      exact (resolve_known colors text).2 word variant
    · cases implied

/-- With one colour at most, and if no word of the tables is compound itself, a mapped list is
settled. -/
theorem settled_mapList (simple : ∀ word ∈ colors.words, colors.compound? word = none)
    (single : (list.getAll colorName).length ≤ 1) : Settled colors (colors.mapList list).list := by
  obtain ⟨variant, -, color, -⟩ := mapList_mapped colors list
  refine ⟨fun plain => ?_, ?_, mapList_separated colors list⟩
  · cases expression : expressionOf? list colorName with
    | none =>
      rw [expression, Option.isNone_none, if_pos rfl] at color
      rw [get?_eq_none_iff, color]
      exact List.eq_nil_of_length_eq_zero (by rw [List.length_tail]; omega)
    | some text =>
      rw [expression, Option.isNone_some, if_neg (by simp)] at color
      have same : (colors.mapList list).list.get? colorName = list.get? colorName := by
        rw [get?_eq_head?, color, get?_eq_head?]
      rw [expressionOf?_congr same, expression] at plain
      cases plain
  · cases word : colors.variantFor? list with
    | none =>
      rw [word, afterWrite_none] at variant
      have unstyled := (Option.or_eq_none_iff.1 word).1
      rw [styleOf?, valueOf?_congr variant]
      exact Option.map_eq_none_iff.1 unstyled
    | some text =>
      rw [word, afterWrite_some] at variant
      rw [styleOf?, valueOf?, variant, Option.map_some, Option.bind_some, written_literal?]
      exact simple text (variantFor?_word word)

end

/-! ### Through text -/

def mapText (colors : ColorTables) (location : Location) (text : Text) : Text :=
  (colors.mapAttributes location (ofText text)).1.render

theorem builtin_quotable : ∀ word ∈ builtin.words, Quotable word := by
  have plain : (builtin.words.all fun word =>
      word.all fun c => c != '"' && c != '\'' && c != '\\') = true := by decide
  intro word member c inside
  have other := List.all_eq_true.1 (List.all_eq_true.1 plain word member) c inside
  simpa [and_assoc] using other

theorem builtin_simple : ∀ word ∈ builtin.words, builtin.compound? word = none := by
  have simple : (builtin.words.all fun word => (builtin.compound? word).isNone) = true := by
    decide +kernel
  intro word member
  exact Option.isNone_iff_eq_none.1 (List.all_eq_true.1 simple word member)

/-- No name of a mapped list starts with an equals sign, unless one did before. -/
theorem plain_mapList {colors : ColorTables} {list : AttributeList}
    (plain : ∀ item, .attr item ∈ list → item.name.head? ≠ some '=') :
    ∀ item, .attr item ∈ (colors.mapList list).list → item.name.head? ≠ some '=' := by
  intro item member
  cases mapList_provenance member with
  | kept among => exact plain item among
  | written named => rcases named with same | same <;> exact same ▸ by decide

/-- The attributes that the built-in tables map are read from their text as they were written, and
mapping that text again changes nothing if there was one colour at most. -/
theorem mapAttributes_reread (location : Location) (text : Text)
    (plain : ∀ item, .attr item ∈ ofText text → item.name.head? ≠ some '=') :
    ofText (builtin.mapText location text) = (builtin.mapAttributes location (ofText text)).1 ∧
      (((ofText text).getAll colorName).length ≤ 1 →
        ∀ again, builtin.mapText again (builtin.mapText location text) =
          builtin.mapText location text) := by
  have read : ofText (builtin.mapText location text) = (builtin.mapList (ofText text)).list :=
    ofText_render_of_steady (steady_mapList builtin_quotable (steady_ofText text))
      (mapList_compact builtin (compact_ofText text)) (plain_mapList plain)
  refine ⟨read, fun single again => ?_⟩
  have settled := settled_mapList builtin_simple single
  rw [mapText, mapAttributes, read, settled.mapList_eq]
  rfl

/-- A name without a value, a compound variant, a colour with no space before the slash and a value
that is never closed. -/
theorem mapAttributes_reread_unclosed :
    let text := " on variant='outline-primary'color=\"dark\"/ x='y".toList
    let location : Location := ⟨[], ⟨1, 1⟩⟩
    builtin.mapText location text =
        " on variant='outline' colorScheme=\"gray\"/ x='y".toList ∧
      ofText (builtin.mapText location text) =
        (builtin.mapAttributes location (ofText text)).1 ∧
      builtin.mapText location (builtin.mapText location text) = builtin.mapText location text := by
  intro text location
  have named : ((ofText text).all fun token =>
      token.attr?.all fun item => item.name.head? != some '=') = true := by decide +kernel
  have plain : ∀ item, .attr item ∈ ofText text → item.name.head? ≠ some '=' :=
    fun item member => by simpa [Token.attr?] using List.all_eq_true.1 named _ member
  obtain ⟨read, same⟩ := mapAttributes_reread location text plain
  exact ⟨by decide +kernel, read, same (by decide +kernel) location⟩

end Retag.ColorTables
