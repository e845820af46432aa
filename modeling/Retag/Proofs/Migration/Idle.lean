import Retag.Proofs.Migration.Step

/-! Migrations that rename no open tag. Main statement: such a migration changes nothing, neither
closing tags nor imports, and all that it reports is tags that never end; and it is one exactly when
no tag of any rule ends in the text. -/
namespace Retag.Migration
open Tag (Settled)

/-- A migration applies its rules and then moves the imports of the components it found. -/
theorem migrate?_inv {config : Config} {file source : Text} {outcome : Outcome}
    (migrated : migrate? config file source = some outcome) :
    ∃ state used, applyRules? config.colors (start file source) config.components =
        some (state, used) ∧
      outcome.occurrences = (used.foldl moveImport state).occurrences ∧
      outcome.issues = StableSort.sort earlier (used.foldl moveImport state).issues := by
  obtain ⟨⟨state, used⟩, ran, same⟩ := Option.bind_eq_some_iff.1 migrated
  obtain rfl := Option.some.inj same
  exact ⟨state, used, ran, rfl, rfl⟩

theorem recordImport_occurrences (state : State) (module text : Text) :
    (recordImport state module text).occurrences = state.occurrences := by
  unfold recordImport
  split <;> rfl

theorem removeImport_occurrences (state : State) (name module : Text) :
    (removeImport state name module).occurrences = state.occurrences := by
  rcases removeImport_cases state name module with same | ⟨location, same⟩ | same
  · rw [same]
  · rw [same]
  · rw [same, recordImport_occurrences]

theorem moveImport_occurrences (state : State) (rule : ComponentRule) :
    (moveImport state rule).occurrences = state.occurrences := by
  unfold moveImport
  split
  · rfl
  · exact (recordImport_occurrences _ _ _).trans (removeImport_occurrences _ _ _)

theorem foldl_moveImport_occurrences (state : State) (used : List ComponentRule) :
    (used.foldl moveImport state).occurrences = state.occurrences := by
  induction used generalizing state with
  | nil => rfl
  | cons rule used ih => exact (ih _).trans (moveImport_occurrences state rule)

/-- No open tag is renamed exactly when there is none that ends. -/
theorem settled_iff_idle {config : Config} {file source : Text} :
    (∃ outcome, migrate? config file source = some outcome ∧ outcome.occurrences = 0) ↔
      ∀ rule ∈ config.components, Settled source rule.name := by
  constructor
  · rintro ⟨outcome, migrated, none⟩
    obtain ⟨state, used, ran, occurrences, -⟩ := migrate?_inv migrated
    rw [none, foldl_moveImport_occurrences] at occurrences
    exact settled_of_idle ran occurrences.symm
  · intro settled
    obtain ⟨outcome, migrated, -, -, -, none⟩ := migrate?_settled config file settled
    exact ⟨outcome, migrated, none⟩

/-- Where no tag of the rules ends, only tags that never end are reported. -/
theorem malformed_of_settled {config : Config} {file source : Text} {outcome : Outcome}
    {issue : Issue} (settled : ∀ rule ∈ config.components, Settled source rule.name)
    (migrated : migrate? config file source = some outcome) (member : issue ∈ outcome.issues) :
    issue.kind = .malformedTag := by
  obtain ⟨state, used, ran, -, issues⟩ := migrate?_inv migrated
  obtain ⟨last, again, -⟩ : ∃ last, applyRules? config.colors (start file source)
      config.components = some (last, []) ∧ Unmoved (start file source) last :=
    applyRules?_settled config.colors settled
  obtain ⟨rfl, rfl⟩ := Prod.mk.inj (Option.some.inj (ran.symm.trans again))
  rw [issues, StableSort.mem_sort] at member
  rcases reports_of_applyRules? ran member with
    early | ⟨before, rule, after, middle, used', split, reached, site, opens, reports⟩
  · cases early
  · have settledBefore : ∀ rule ∈ before, Settled (start file source).text rule.name := by
      intro rule' among
      exact settled rule' (by simp [split, among])
    obtain ⟨_, reached', unmoved⟩ := applyRules?_settled config.colors settledBefore
    obtain ⟨rfl, -⟩ := Prod.mk.inj (Option.some.inj (reached'.symm.trans reached))
    rw [unmoved.text] at opens
    cases reports with
    | unterminated same => rw [same]
    | unresolved => exact absurd opens (settled rule (by simp [split]) _)

/-- A migration that renames no open tag leaves everything as it is, whatever its rules are, and it
is one exactly when no tag of a rule ends in the source. So a change to a closing tag or an import
always comes with a renamed open tag. -/
theorem migrate?_changes_nothing_without_tags (config : Config) (file source : Text) :
    (∀ outcome, migrate? config file source = some outcome → outcome.occurrences = 0 →
      outcome.text = source ∧ outcome.changed = false ∧ outcome.edits = [] ∧
        ∀ issue ∈ outcome.issues, issue.kind = .malformedTag) ∧
    ((∃ outcome, migrate? config file source = some outcome ∧ outcome.occurrences = 0) ↔
      ∀ rule ∈ config.components, Settled source rule.name) := by
  refine ⟨?_, settled_iff_idle⟩
  intro outcome migrated none
  have settled := settled_iff_idle.1 ⟨outcome, migrated, none⟩
  obtain ⟨_, again, text, changed, edits, -⟩ := migrate?_settled config file settled
  obtain rfl := Option.some.inj (again.symm.trans migrated)
  exact ⟨text, changed, edits, fun issue member => malformed_of_settled settled migrated member⟩

/-- A closing tag that closes nothing, a tag that never ends, and an import of the name. -/
theorem migrate?_changes_nothing_without_tags_unterminated :
    let config : Config :=
      { Config.builtin with components := [⟨['A'], ['B'], true, [], some ⟨['m'], ['n']⟩⟩] }
    let source := "import \x7b A \x7d from 'm'\n</A><A color=\x7b</A>".toList
    ∃ outcome, migrate? config [] source = some outcome ∧ outcome.occurrences = 0 ∧
      outcome.issues.length = 1 ∧ outcome.text = source ∧ outcome.changed = false ∧
      outcome.edits = [] ∧ ∀ issue ∈ outcome.issues, issue.kind = .malformedTag := by
  intro config source
  have run : (migrate? config [] source).map (fun outcome =>
      (outcome.occurrences, outcome.issues.length)) = some (0, 1) := by decide +kernel
  obtain ⟨outcome, migrated, same⟩ := Option.map_eq_some_iff.1 run
  obtain ⟨none, one⟩ := Prod.mk.inj same
  exact ⟨outcome, migrated, none, one,
    (migrate?_changes_nothing_without_tags config [] source).1 outcome migrated none⟩

end Retag.Migration
