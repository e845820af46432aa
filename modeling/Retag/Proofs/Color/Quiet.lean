import Retag.Proofs.Attribute.Quiet
import Retag.Proofs.Color.Provenance

/-! Mapping colours keeps an attribute text quiet, if the tables have no `<`. What the tables write
stands in a `variant` or a `colorScheme`, and attributes never touch in the result. -/
namespace Retag
open Tag (Quiet)

namespace Attribute

theorem Read.spacing {name rest : Text} {item : Attribute} (read : Read name item rest) :
    item.spacing.IsBlank := by
  cases read with
  | valued blank => exact blank
  | flag => exact ⟨by simp, by simp⟩

theorem ReadSpread.spacing {rest : Text} {item : Attribute} (read : ReadSpread item rest) :
    item.spacing.IsBlank := by
  cases read with
  | closed | leftOpen => exact ⟨by simp, by simp⟩

theorem Spacing.IsBlank.plain {spacing : Spacing} (blank : spacing.IsBlank) :
    '<' ∉ spacing.before ∧ '<' ∉ spacing.after :=
  ⟨fun member => absurd (blank.1 '<' member) (by decide),
    fun member => absurd (blank.2 '<' member) (by decide)⟩

end Attribute

namespace AttributeList

theorem spacing_of_mem {text : Text} {item : Attribute} (member : .attr item ∈ ofText text) :
    item.spacing.IsBlank := by
  fun_induction ofText text with
  | case1 => simp at member
  | case2 c cs blank ih => exact ih (by simpa using member)
  | case3 c cs notBlank slash ih => exact ih (by simpa using member)
  | case4 c cs notBlank notSlash opens ih =>
    rcases List.mem_cons.1 member with ⟨⟨⟩⟩ | member
    · exact (Attribute.readSpread_inv cs).spacing
    · exact ih member
  | case5 c cs notBlank notSlash notOpen ih =>
    rcases List.mem_cons.1 member with ⟨⟨⟩⟩ | member
    · exact (Attribute.read_inv c cs).spacing
    · exact ih member

end AttributeList

namespace ColorTables

theorem mapList_separated (colors : ColorTables) (list : AttributeList) :
    (colors.mapList list).list.Separated := by
  unfold mapList
  dsimp only
  split
  · exact AttributeList.separated_separate _
  · split
    · exact AttributeList.separated_separate _
    · exact AttributeList.separated_separate _
    · exact AttributeList.separated_separate _

theorem quiet_mapList {name text : Text} {colors : ColorTables}
    (letters : ∀ c ∈ name, c.isAlpha = true) (plain : ∀ word ∈ colors.words, '<' ∉ word)
    (quiet : Quiet name text) :
    Quiet name (colors.mapList (AttributeList.ofText text)).list.render := by
  refine AttributeList.quiet_render letters (fun token member => ?_) (mapList_separated _ _)
  cases mapList_provenance member with
  | kept among => exact AttributeList.tame_of_mem letters quiet among
  | space => exact ⟨by decide, List.all_eq_true.1 (by decide)⟩
  | @written item named value spacing =>
    obtain ⟨quote, word, known, value⟩ := value
    have blank : item.spacing.IsBlank := by
      rcases spacing with none | ⟨old, among, same⟩
      · exact none ▸ ⟨by simp, by simp⟩
      · exact same ▸ AttributeList.spacing_of_mem among
    have nameless : '<' ∉ item.name := by rcases named with same | same <;> exact same ▸ by decide
    have mark : '<' ≠ quote.char := by cases quote <;> decide
    have valued : item.value ≠ .boolean := by simp [value]
    refine .of_plain ?_
    rw [Attribute.render_of_ne_boolean valued]
    simp [value, Attribute.Value.render, nameless, blank.plain, mark, plain word known]

end ColorTables
end Retag
