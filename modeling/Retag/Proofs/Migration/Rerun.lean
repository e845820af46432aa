import Retag.Proofs.Migration.Residue

/-! A second migration with the built-in rules. Main statement: it changes nothing exactly when no
tag of the old name that ends is left, and none is left of a text in which all of them could be
renamed at once. -/
namespace Retag.Migration
open Tag (Settled Clean)

/-- A tag that ends makes an edit, if the new name is fresh. -/
theorem applyRule?_edits {rule : ComponentRule} {colors : ColorTables} {state next : State}
    {found : Bool} {tag : OpenTag} (fresh : ∀ a b, rule.newName ++ a ≠ rule.name ++ b)
    (site : .bounded tag ∈ Tag.openSites state.text rule.name)
    (applied : applyRule? colors state rule = some (next, found)) : next.edits ≠ [] := by
  rcases applyRule?_inv applied with ⟨absent, -⟩ | ⟨result, renamed, -, -, edits, -⟩
  · obtain ⟨before, rest, whole, -⟩ := Tag.opensIn_of_mem site
    rw [whole, Text.occursIn_open] at absent
    cases absent
  · obtain ⟨text, -, rfl⟩ := Option.map_eq_some_iff.1 renamed
    let renamedTag := Tag.renameOpen rule.newName state.origin (rule.transform colors) tag
    have changed : renamedTag.replacement.after ≠ renamedTag.replacement.before := by
      intro same
      simp only [renamedTag, Tag.renameOpen, OpenTag.text, Tag.name_of_bounded site,
        List.cons_append, List.append_assoc, List.cons.injEq, true_and] at same
      exact fresh _ _ same
    have edit : renamedTag.edit? = some ⟨renamedTag.location.position.line,
        renamedTag.replacement.before, renamedTag.replacement.after⟩ := if_neg changed
    rw [edits]
    refine List.append_ne_nil_of_right_ne_nil _ (List.ne_nil_of_mem (List.mem_filterMap.2
      ⟨renamedTag, List.mem_map.2 ⟨tag, Tag.mem_bounded.2 site, rfl⟩, edit⟩))

section Builtin

theorem migrate?_edits {file source : Text} {outcome : Outcome} {tag : OpenTag}
    (site : .bounded tag ∈ Tag.openSites source ComponentRule.builtin.name)
    (migrated : migrate? Config.builtin file source = some outcome) : outcome.edits ≠ [] := by
  rw [migrate?_single rfl] at migrated
  obtain ⟨⟨state, found⟩, applied, rfl⟩ := Option.map_eq_some_iff.1 migrated
  have edits : state.edits ≠ [] := applyRule?_edits builtin_fresh site applied
  cases found with
  | false => exact edits
  | true => exact (moveImport_edits state .builtin).ne_nil edits

/-- The built-in migration can always be run twice. The second run changes nothing exactly when the
first one left no tag of the old name that ends, and none is left of a clean text. -/
theorem migrate?_twice (file source : Text) :
    ∃ first second, migrate? Config.builtin file source = some first ∧
      migrate? Config.builtin file first.text = some second ∧
      ((second.text = first.text ∧ second.changed = false ∧ second.edits = []) ↔
        Settled first.text ComponentRule.builtin.name) ∧
      (Clean source ComponentRule.builtin.name →
        second.text = first.text ∧ second.changed = false ∧ second.edits = []) := by
  obtain ⟨first, once⟩ := migrate?_exists file source builtin_named
  obtain ⟨second, twice⟩ := migrate?_exists file first.text builtin_named
  have unchanged : Settled first.text ComponentRule.builtin.name →
      second.text = first.text ∧ second.changed = false ∧ second.edits = [] := by
    intro settled
    obtain ⟨_, again, text, changed, edits, -⟩ :=
      migrate?_settled Config.builtin file (by simpa [Config.builtin] using settled)
    obtain rfl := Option.some.inj (again.symm.trans twice)
    exact ⟨text, changed, edits⟩
  refine ⟨first, second, once, twice, ⟨?_, unchanged⟩, fun clean => ?_⟩
  · rintro ⟨-, -, edits⟩ tag site
    exact migrate?_edits site twice edits
  · have none := (migrate?_quiet clean once).no_sites
    exact unchanged fun tag member => by simp [none] at member

/-- The inner tag stands in an attribute and is only renamed by the second run. -/
theorem migrate?_twice_nested :
    ((migrate? Config.builtin [] "<CButton a=\x7b<CButton/>\x7d/>".toList).bind fun first =>
        (migrate? Config.builtin [] first.text).map fun second =>
          (second.text == first.text, second.changed, second.edits.length)) =
      some (false, true, 1) := by
  decide +kernel

theorem migrate?_twice_clean :
    Clean "<CButton color='ghost'/>".toList ComponentRule.builtin.name ∧
      ∃ first second,
        migrate? Config.builtin [] "<CButton color='ghost'/>".toList = some first ∧
        migrate? Config.builtin [] first.text = some second ∧
        second.text = first.text ∧ second.changed = false ∧ second.edits = [] := by
  have clean : Clean "<CButton color='ghost'/>".toList ComponentRule.builtin.name := by
    intro before rest same
    cases before with
    | nil =>
      exact .inl ⟨⟨0, "CButton".toList, " color='ghost'/".toList⟩, by decide +kernel, rfl⟩
    | cons c cs =>
      have inside : '<' ∈ "<CButton color='ghost'/>".toList.tail := by
        rw [same]
        simp
      exact absurd inside (by decide)
  obtain ⟨first, second, once, twice, -, unchanged⟩ :=
    migrate?_twice [] "<CButton color='ghost'/>".toList
  exact ⟨clean, first, second, once, twice, unchanged clean⟩

end Builtin

end Retag.Migration
