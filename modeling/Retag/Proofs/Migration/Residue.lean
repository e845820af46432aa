import Retag.Proofs.Color.Quiet
import Retag.Proofs.Import.Quiet
import Retag.Proofs.Migration.Step
import Retag.Proofs.Tag.Residue

/-! What a migration leaves of an old name. Main statement: the built-in migration of a text in which
every tag of the old name can be renamed leaves no place where one opens. -/
namespace Retag

theorem Text.occursIn_open (before name rest : Text) :
    Text.occursIn name (before ++ '<' :: name ++ rest) = true := by
  rw [List.append_cons]
  exact Text.occursIn_append _ _ _

namespace Migration
open Tag (Quiet Clean)

section
variable {state : State} {name module text : Text}

theorem recordImport_quiet (quiet : Quiet name state.text) (quietText : Quiet name text) :
    Quiet name (recordImport state module text).text := by
  unfold recordImport
  split
  · exact quiet
  · exact quietText

variable (letters : ∀ c ∈ name, c.isAlpha = true)
include letters

theorem removeImport_quiet (other : Text) (quiet : Quiet name state.text) (plain : '<' ∉ module) :
    Quiet name (removeImport state other module).text := by
  rcases removeImport_cases state other module with same | ⟨location, same⟩ | same
  · rwa [same]
  · rwa [same]
  · rw [same]
    exact recordImport_quiet quiet (Import.quiet_remove letters other quiet plain)

theorem moveImport_quiet {rule : ComponentRule} (quiet : Quiet name state.text)
    (plain : ∀ move ∈ rule.imports, '<' ∉ move.source ∧ '<' ∉ move.target)
    (plainName : '<' ∉ rule.newName) : Quiet name (moveImport state rule).text := by
  unfold moveImport
  split
  · exact quiet
  · rename_i move found
    obtain ⟨plainSource, plainTarget⟩ := plain move found
    have removed := removeImport_quiet letters rule.name quiet plainSource
    exact recordImport_quiet removed (Import.quiet_ensure letters removed plainTarget plainName)

end

/-- With a single rule, a migration applies it and then moves the import if it found a tag. -/
theorem migrate?_single {config : Config} {rule : ComponentRule} (only : config.components = [rule])
    (file source : Text) :
    migrate? config file source =
      (applyRule? config.colors (start file source) rule).map fun (state, found) =>
        let last := if found then moveImport state rule else state
        { text := last.text
          changed := last.text != source
          occurrences := last.occurrences
          issues := StableSort.sort earlier last.issues
          edits := last.edits } := by
  unfold migrate?
  rw [only, applyRules?]
  cases applyRule? config.colors (start file source) rule with
  | none => rfl
  | some result =>
    obtain ⟨state, found⟩ := result
    cases found <;> rfl

theorem applyRule?_quiet {rule : ComponentRule} {colors : ColorTables} {state next : State}
    {found : Bool} (letters : ∀ c ∈ rule.name, c.isAlpha = true) (nonempty : rule.name ≠ [])
    (fresh : ∀ a b, rule.newName ++ a ≠ rule.name ++ b) (plain : '<' ∉ rule.newName)
    (keeps : ∀ text location, Quiet rule.name text →
      Quiet rule.name (rule.transform colors text location).1)
    (clean : Clean state.text rule.name)
    (applied : applyRule? colors state rule = some (next, found)) : Quiet rule.name next.text := by
  rcases applyRule?_inv applied with ⟨absent, rfl, -⟩ | ⟨result, renamed, same, -⟩
  · intro before rest whole
    rw [whole, Text.occursIn_open] at absent
    cases absent
  · exact same ▸ Tag.rename?_quiet letters nonempty fresh plain keeps clean renamed

section Builtin

theorem builtin_letters : ∀ c ∈ ComponentRule.builtin.name, c.isAlpha = true :=
  List.all_eq_true.1 (by decide)

theorem builtin_fresh (a b : Text) :
    ComponentRule.builtin.newName ++ a ≠ ComponentRule.builtin.name ++ b := by
  intro same
  have heads : ComponentRule.builtin.newName.head?.or a.head? =
      ComponentRule.builtin.name.head?.or b.head? := by
    rw [← List.head?_append, ← List.head?_append, same]
  have new : ComponentRule.builtin.newName.head? = some 'B' := by decide
  have old : ComponentRule.builtin.name.head? = some 'C' := by decide
  rw [new, old] at heads
  cases heads

theorem builtin_transform {text : Text} (location : Location)
    (quiet : Quiet ComponentRule.builtin.name text) :
    Quiet ComponentRule.builtin.name
      (ComponentRule.builtin.transform ColorTables.builtin text location).1 :=
  ColorTables.quiet_mapList builtin_letters (by decide) quiet

/-- A text in which every tag of the old name can be renamed has none of them afterwards. -/
theorem migrate?_quiet {file source : Text} {outcome : Outcome}
    (clean : Clean source ComponentRule.builtin.name)
    (migrated : migrate? Config.builtin file source = some outcome) :
    Quiet ComponentRule.builtin.name outcome.text := by
  rw [migrate?_single rfl] at migrated
  obtain ⟨⟨state, found⟩, applied, rfl⟩ := Option.map_eq_some_iff.1 migrated
  have quiet : Quiet ComponentRule.builtin.name state.text :=
    applyRule?_quiet builtin_letters (by decide) builtin_fresh (by decide)
      (fun _ location => builtin_transform location) clean applied
  cases found with
  | false => exact quiet
  | true =>
    have moved : Quiet ComponentRule.builtin.name (moveImport state .builtin).text := by
      refine moveImport_quiet builtin_letters quiet ?_ (by decide)
      rintro move ⟨⟩
      decide
    exact moved

theorem builtin_named : ∀ rule ∈ Config.builtin.components, rule.Named := by
  intro rule member
  rw [List.mem_singleton.1 member]
  exact ⟨by decide, by decide, by decide⟩

/-- No tag of the old name opens after the built-in migration of a clean text: the pieces of the old
text, the attributes written again and the imports hold none, and none arises where they meet. -/
theorem migrate?_leaves_no_tag (file : Text) {source : Text}
    (clean : Clean source ComponentRule.builtin.name) :
    ∃ outcome, migrate? Config.builtin file source = some outcome ∧
      Tag.openSites outcome.text ComponentRule.builtin.name = [] := by
  obtain ⟨outcome, migrated⟩ := migrate?_exists file source builtin_named
  refine ⟨outcome, migrated, ?_⟩
  exact (migrate?_quiet clean migrated).no_sites

theorem migrate?_leaves_no_tag_nested :
    let source := ("import \x7b CButton \x7d from '@coreui/react'\n" ++
      "<CButton color='ghost' a=\x7b<CButtonGroup/>\x7d>x</CButton>").toList
    Clean source ComponentRule.builtin.name ∧
      ∃ outcome, migrate? Config.builtin [] source = some outcome ∧
        Tag.openSites outcome.text ComponentRule.builtin.name = [] := by
  intro source
  have clean : Clean source ComponentRule.builtin.name := Tag.isClean_iff.1 (by decide +kernel)
  exact ⟨clean, migrate?_leaves_no_tag [] clean⟩

end Builtin

end Migration
end Retag
