import Retag.Proofs.Migration.Settled

/-! Applying a rule, as one renaming. A rule whose name does not occur in the text is passed over,
and the renaming would do nothing there either, so every rule can be read as a renaming. Rules whose
names can stand in a tag can be applied to every text. What a rule reports, it reports of a tag that
it found, and what a run of rules reports comes from one of them. -/
namespace Retag

namespace Tag

variable {source name newName : Text} {origin : Origin} {transform : AttributeTransform}
  {result : Renaming}

theorem rename?_absent (absent : Text.occursIn name source = false) (newName : Text)
    (origin : Origin) (transform : AttributeTransform) :
    rename? source name newName origin transform =
      some { text := source, tags := [], closings := [], warnings := [], splices := [] } := by
  have sites : openSites source name = [] := by
    apply List.eq_nil_iff_forall_not_mem.2
    intro site member
    obtain ⟨before, rest, whole, -⟩ := opensIn_of_mem member
    rw [whole, List.append_cons, Text.occursIn_append] at absent
    cases absent
  have closings : closingTags source name = [] := by
    apply List.eq_nil_iff_forall_not_mem.2
    intro closing member
    obtain ⟨before, after, whole, -, rfl, -⟩ := closesIn_of_mem member
    have inside : source = before ++ ['<', '/'] ++ closing.name ++
        (closing.blank ++ ['>'] ++ after) := by
      simp [whole, ClosingTag.text]
    rw [inside, Text.occursIn_append] at absent
    cases absent
  simp [rename?, sites, closings, paired, pairedFrom, StableSort.sort, Replacement.replaceAll?,
    Replacement.replaceFrom?]

theorem tags_of_rename? (renamed : rename? source name newName origin transform = some result) :
    result.tags =
      ((openSites source name).filterMap bounded?).map (renameOpen newName origin transform) := by
  obtain ⟨text, -, rfl⟩ := Option.map_eq_some_iff.1 renamed
  rfl

theorem warnings_of_rename? (renamed : rename? source name newName origin transform = some result) :
    result.warnings = ((openSites source name).filterMap unterminated?).map fun start =>
      ⟨.malformedTag, origin.locate start,
        unterminatedMessage name ++ "; occurrence left untouched".toList⟩ := by
  obtain ⟨text, -, rfl⟩ := Option.map_eq_some_iff.1 renamed
  rfl

theorem splices_of_rename? (renamed : rename? source name newName origin transform = some result) :
    result.splices =
      (replacements source name newName origin transform).filterMap Replacement.splice? := by
  obtain ⟨text, -, rfl⟩ := Option.map_eq_some_iff.1 renamed
  simp only [replacements, List.map_map]
  rfl

/-- Whatever the name is, a renaming that has a result replaces what it says. -/
theorem spliced_of_rename? (renamed : rename? source name newName origin transform = some result) :
    Splice.Spliced 0 result.splices source.bytes result.text.bytes := by
  rw [splices_of_rename? renamed]
  obtain ⟨text, replaced, rfl⟩ := Option.map_eq_some_iff.1 renamed
  rw [List.map_map] at replaced
  exact (Replacement.made_of_replaceFrom? (fun _ => replacements_stand) replaced).spliced

theorem settled_of_count (renamed : rename? source name newName origin transform = some result)
    (none : result.count = 0) : Settled source name := by
  intro tag member
  have tags : result.tags = [] := List.eq_nil_of_length_eq_zero none
  rw [tags_of_rename? renamed, List.map_eq_nil_iff] at tags
  have among : tag ∈ (openSites source name).filterMap bounded? := mem_bounded.2 member
  rw [tags] at among
  cases among

end Tag

structure ComponentRule.Named (rule : ComponentRule) : Prop where
  nonempty : rule.name ≠ []
  noSlash : rule.name.head? ≠ some '/'
  plain : '<' ∉ rule.name

namespace Migration
open Tag (Settled)

def State.renamed (state : State) (result : Renaming) : State where
  text := result.text
  origin := state.origin.push result.splices
  occurrences := state.occurrences + result.count
  issues := state.issues ++ result.issues
  edits := state.edits ++ result.edits

def renaming? (colors : ColorTables) (state : State) (rule : ComponentRule) : Option Renaming :=
  Tag.rename? state.text rule.name rule.newName state.origin (rule.transform colors)

/-- The issue is about the tag that opens at this site, which `rule` finds in the text of `state`:
the tag never ends, or one of its attributes could not be mapped. -/
inductive Reports (colors : ColorTables) (state : State) (rule : ComponentRule) (issue : Issue) :
    TagSite → Prop where
  | unterminated {start : Nat} : issue = ⟨.malformedTag, state.origin.locate start,
      Tag.unterminatedMessage rule.name ++ "; occurrence left untouched".toList⟩ →
      Reports colors state rule issue (.unterminated start)
  | unresolved {tag : OpenTag} : issue.kind = .unresolvedValue →
      issue ∈ (rule.transform colors (Tag.splitTail tag.attributes).1
        (state.origin.locate tag.start)).2 →
      issue.location = state.origin.locate tag.start →
      Reports colors state rule issue (.bounded tag)

section
variable {colors : ColorTables} {state last : State} {rule : ComponentRule}
  {rules used : List ComponentRule} {result : Renaming} {issue : Issue} {site : TagSite}

theorem Reports.location (reports : Reports colors state rule issue site) :
    issue.location = state.origin.locate site.start := by
  cases reports with
  | unterminated same => rw [same]; rfl
  | unresolved _ _ location => exact location

theorem applyRule?_eq (colors : ColorTables) (state : State) (rule : ComponentRule) :
    applyRule? colors state rule =
      (renaming? colors state rule).map fun result =>
        (state.renamed result, decide (0 < result.count)) := by
  unfold applyRule? renaming?
  split
  · cases Tag.rename? state.text rule.name rule.newName state.origin (rule.transform colors) <;> rfl
  · rename_i absent
    rw [Tag.rename?_absent (by simpa using absent)]
    simp [State.renamed, Origin.push, Renaming.count, Renaming.issues, Renaming.edits]

/-- A run of rules makes the renaming of the first and goes on from there. -/
theorem applyRules?_cons (ran : applyRules? colors state (rule :: rules) = some (last, used)) :
    ∃ result rest, renaming? colors state rule = some result ∧
      applyRules? colors (state.renamed result) rules = some (last, rest) := by
  rw [applyRules?, applyRule?_eq] at ran
  obtain ⟨⟨next, found⟩, applied, ran⟩ := Option.bind_eq_some_iff.1 ran
  obtain ⟨result, renamed, same⟩ := Option.map_eq_some_iff.1 applied
  obtain ⟨rfl, -⟩ := Prod.mk.inj same
  obtain ⟨⟨final, rest⟩, onward, same⟩ := Option.bind_eq_some_iff.1 ran
  obtain ⟨rfl, -⟩ := Prod.mk.inj (Option.some.inj same)
  exact ⟨result, rest, renamed, onward⟩

theorem applyRules?_of_renaming {rest : List ComponentRule}
    (renamed : renaming? colors state rule = some result)
    (onward : applyRules? colors (state.renamed result) rules = some (last, rest)) :
    ∃ used, applyRules? colors state (rule :: rules) = some (last, used) := by
  refine ⟨if decide (0 < result.count) then rule :: rest else rest, ?_⟩
  simp [applyRules?, applyRule?_eq, renamed, onward]

theorem renaming?_exists (colors : ColorTables) (state : State) (named : rule.Named) :
    ∃ result, renaming? colors state rule = some result := by
  obtain ⟨result, renamed, -⟩ := Tag.rename?_made state.text rule.newName state.origin
    (rule.transform colors) named.nonempty named.noSlash named.plain
  exact ⟨result, renamed⟩

theorem applyRules?_exists (colors : ColorTables) (state : State)
    (named : ∀ rule ∈ rules, rule.Named) :
    ∃ last used, applyRules? colors state rules = some (last, used) := by
  induction rules generalizing state with
  | nil => exact ⟨state, [], rfl⟩
  | cons rule rules ih =>
    obtain ⟨result, renamed⟩ := renaming?_exists colors state (named rule List.mem_cons_self)
    obtain ⟨last, used, ran⟩ := ih (state.renamed result)
      fun other member => named other (List.mem_cons_of_mem _ member)
    exact ⟨last, applyRules?_of_renaming renamed ran⟩

theorem migrate?_exists {config : Config} (file source : Text)
    (named : ∀ rule ∈ config.components, rule.Named) :
    ∃ outcome, migrate? config file source = some outcome := by
  obtain ⟨last, used, ran⟩ := applyRules?_exists config.colors (start file source) named
  rw [migrate?, ran]
  exact ⟨_, rfl⟩

theorem transform_issues (rule : ComponentRule) (colors : ColorTables) (text : Text)
    (location : Location) :
    ∀ issue ∈ (rule.transform colors text location).2,
      issue.kind = .unresolvedValue ∧ issue.location = location := by
  intro issue member
  unfold ComponentRule.transform at member
  dsimp only at member
  split at member
  · obtain ⟨message, -, rfl⟩ := List.mem_map.1 member
    exact ⟨rfl, rfl⟩
  · cases member

theorem reports_of_mem (renamed : renaming? colors state rule = some result)
    (member : issue ∈ result.issues) :
    ∃ site ∈ Tag.openSites state.text rule.name, Reports colors state rule issue site := by
  unfold Renaming.issues at member
  rw [Tag.warnings_of_rename? renamed, Tag.tags_of_rename? renamed, List.mem_append] at member
  rcases member with warned | found
  · obtain ⟨start, among, rfl⟩ := List.mem_map.1 warned
    obtain ⟨site, opens, same⟩ := List.mem_filterMap.1 among
    cases site with
    | bounded tag => cases same
    | unterminated place =>
      obtain rfl := Option.some.inj same
      exact ⟨_, opens, .unterminated rfl⟩
  · rw [List.flatMap_map, List.mem_flatMap] at found
    obtain ⟨tag, among, member⟩ := found
    obtain ⟨kind, location⟩ := transform_issues rule colors _ _ issue member
    exact ⟨_, Tag.mem_bounded.1 among, .unresolved kind member location⟩

/-- Every issue that a run of rules adds was reported by one of them, of a tag in the text that the
rules before it made. -/
theorem reports_of_applyRules? (ran : applyRules? colors state rules = some (last, used))
    (member : issue ∈ last.issues) :
    issue ∈ state.issues ∨ ∃ earlier rule later middle used',
      rules = earlier ++ rule :: later ∧
        applyRules? colors state earlier = some (middle, used') ∧
        ∃ site ∈ Tag.openSites middle.text rule.name, Reports colors middle rule issue site := by
  induction rules generalizing state used with
  | nil =>
    obtain ⟨rfl, -⟩ := Prod.mk.inj (Option.some.inj ran)
    exact .inl member
  | cons rule rules ih =>
    obtain ⟨result, rest, renamed, onward⟩ := applyRules?_cons ran
    rcases ih onward with early | ⟨earlier, rule', later, middle, used', rfl, reached, reported⟩
    · rcases List.mem_append.1 early with before | now
      · exact .inl before
      · exact .inr ⟨[], rule, rules, state, [], rfl, rfl, reports_of_mem renamed now⟩
    · obtain ⟨used'', reached'⟩ := applyRules?_of_renaming renamed reached
      exact .inr ⟨rule :: earlier, rule', later, middle, used'', rfl, reached', reported⟩

/-- What every renaming preserves, a run of rules preserves. -/
theorem applyRules?_preserves {P : State → Prop}
    (step : ∀ state result, ∀ rule ∈ rules, renaming? colors state rule = some result → P state →
      P (state.renamed result))
    (ran : applyRules? colors state rules = some (last, used)) (holds : P state) : P last := by
  induction rules generalizing state used with
  | nil =>
    obtain ⟨rfl, -⟩ := Prod.mk.inj (Option.some.inj ran)
    exact holds
  | cons rule rules ih =>
    obtain ⟨result, rest, renamed, onward⟩ := applyRules?_cons ran
    apply ih _ onward (step state result rule List.mem_cons_self renamed holds)
    intro state result other member
    exact step state result other (List.mem_cons_of_mem _ member)

theorem occurrences_mono (ran : applyRules? colors state rules = some (last, used)) :
    state.occurrences ≤ last.occurrences := by
  apply applyRules?_preserves (P := fun next => state.occurrences ≤ next.occurrences) _ ran
  · exact Nat.le_refl _
  · intro next result _ _ _ le
    exact Nat.le_trans le (Nat.le_add_right _ result.count)

/-- If a run renames no open tag, then none ended in the text that it started from: each rule leaves
the text as it is for the next one. -/
theorem settled_of_idle (ran : applyRules? colors state rules = some (last, used))
    (idle : last.occurrences = state.occurrences) :
    ∀ rule ∈ rules, Settled state.text rule.name := by
  induction rules generalizing state used with
  | nil =>
    intro rule member
    cases member
  | cons first rules ih =>
    obtain ⟨result, rest, renamed, onward⟩ := applyRules?_cons ran
    have forward := occurrences_mono onward
    have total : (state.renamed result).occurrences = state.occurrences + result.count := rfl
    have settled := Tag.settled_of_count renamed (by omega)
    obtain ⟨result', again, text, -⟩ := Tag.rename?_settled settled first.newName state.origin
      (first.transform colors)
    obtain rfl := Option.some.inj (again.symm.trans renamed)
    intro rule member
    rcases List.mem_cons.1 member with rfl | later
    · exact settled
    · have same : (state.renamed result').text = state.text := text
      exact same ▸ ih onward (by omega) rule later

end
end Migration
end Retag
