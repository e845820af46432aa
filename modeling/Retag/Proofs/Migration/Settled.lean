import Retag.Migration
import Retag.Proofs.Tag.Renaming

/-! Texts on which a migration has nothing to do. Closing tags and imports only change together with
an open tag, so a text in which no tag of the rules ends comes back as it is, without edits. -/
namespace Retag

namespace Tag

/-- No open tag of `name` in the text ends. -/
def Settled (source name : Text) : Prop := ∀ tag, .bounded tag ∉ openSites source name

theorem openElements_settled {sites : List TagSite} {stack : List Bool}
    (settled : ∀ tag, .bounded tag ∉ sites) (closed : true ∉ stack) :
    true ∉ openElements stack sites := by
  induction sites generalizing stack with
  | nil => exact closed
  | cons site sites ih =>
    have later : ∀ tag, .bounded tag ∉ sites := fun tag member => settled tag (by simp [member])
    cases site with
    | bounded tag => exact absurd (by simp) (settled tag)
    | unterminated start => exact ih later (by simpa using closed)

theorem pairedFrom_settled {sites : List TagSite} {spanEnd : Nat} {stack : List Bool}
    (closings : List ClosingTag) (settled : ∀ tag, .bounded tag ∉ sites) (closed : true ∉ stack) :
    pairedFrom sites spanEnd stack closings = [] := by
  induction closings generalizing sites spanEnd stack with
  | nil => rfl
  | cons closing rest ih =>
    have passed : ∀ tag, .bounded tag ∉ sites.takeWhile (·.start < closing.start) :=
      fun tag member => settled tag ((List.takeWhile_sublist _).mem member)
    have ahead : ∀ tag, .bounded tag ∉ sites.dropWhile (·.start < closing.start) :=
      fun tag member => settled tag ((List.dropWhile_sublist _).mem member)
    have stacked := openElements_settled passed closed
    simp only [pairedFrom]
    split
    · exact ih ahead stacked
    · split
      · rename_i open'
        simp [open'] at stacked
      · exact ih ahead fun member => stacked (List.mem_of_mem_tail member)

/-- Where no tag ends, there is nothing to rename. -/
theorem rename?_settled {source name : Text} (settled : Settled source name) (newName : Text)
    (origin : Origin) (transform : AttributeTransform) :
    ∃ result, rename? source name newName origin transform = some result ∧
      result.text = source ∧ result.tags = [] ∧ result.splices = [] := by
  have tags : (openSites source name).filterMap bounded? = [] :=
    List.eq_nil_iff_forall_not_mem.2 fun tag member => settled tag (mem_bounded.1 member)
  have closings : paired (openSites source name) (closingTags source name) = [] :=
    pairedFrom_settled _ settled (by simp)
  simp [rename?, tags, closings, StableSort.sort, Replacement.replaceAll?, Replacement.replaceFrom?]

end Tag

namespace Migration
open Tag (Settled)

/-- Taking a component out of its old import does nothing, reports that the import was kept, or
records the change. -/
theorem removeImport_cases (state : State) (name module : Text) :
    removeImport state name module = state ∨
      (∃ location, removeImport state name module = { state with issues := state.issues ++
        [⟨.stillReferenced, location, stillReferencedMessage name module⟩] }) ∨
      removeImport state name module =
        recordImport state module (Import.remove state.text module name) := by
  unfold removeImport
  split
  · exact .inl rfl
  · dsimp only
    split
    · exact .inl rfl
    · split
      · exact .inr (.inl ⟨_, rfl⟩)
      · exact .inr (.inr rfl)

theorem recordImport_edits (state : State) (module text : Text) :
    state.edits <+: (recordImport state module text).edits := by
  unfold recordImport
  split
  · exact List.prefix_refl _
  · exact List.prefix_append _ _

theorem removeImport_edits (state : State) (name module : Text) :
    state.edits <+: (removeImport state name module).edits := by
  rcases removeImport_cases state name module with same | ⟨location, same⟩ | same
  · simp [same]
  · simp [same]
  · rw [same]
    exact recordImport_edits _ _ _

theorem moveImport_edits (state : State) (rule : ComponentRule) :
    state.edits <+: (moveImport state rule).edits := by
  unfold moveImport
  split
  · exact List.prefix_refl _
  · exact (removeImport_edits _ _ _).trans (recordImport_edits _ _ _)

structure Unmoved (before after : State) : Prop where
  text : after.text = before.text
  edits : after.edits = before.edits
  occurrences : after.occurrences = before.occurrences

/-- What a rule does: nothing if its name does not occur, and else a renaming. -/
theorem applyRule?_inv {colors : ColorTables} {state next : State} {rule : ComponentRule}
    {found : Bool} (applied : applyRule? colors state rule = some (next, found)) :
    (Text.occursIn rule.name state.text = false ∧ next = state ∧ found = false) ∨
      ∃ result, Tag.rename? state.text rule.name rule.newName state.origin
          (rule.transform colors) = some result ∧ next.text = result.text ∧
        next.occurrences = state.occurrences + result.count ∧
        next.edits = state.edits ++ result.edits ∧ found = decide (0 < result.count) := by
  unfold applyRule? at applied
  split at applied
  · obtain ⟨result, renamed, same⟩ := Option.bind_eq_some_iff.1 applied
    obtain ⟨rfl, rfl⟩ := Prod.mk.inj (Option.some.inj same)
    exact .inr ⟨result, renamed, rfl, rfl, rfl, rfl⟩
  · rename_i absent
    obtain ⟨rfl, rfl⟩ := Prod.mk.inj (Option.some.inj applied)
    exact .inl ⟨by simpa using absent, rfl, rfl⟩

theorem applyRule?_settled {state : State} {rule : ComponentRule} (colors : ColorTables)
    (settled : Settled state.text rule.name) :
    ∃ next, applyRule? colors state rule = some (next, false) ∧ Unmoved state next := by
  unfold applyRule?
  split
  · obtain ⟨result, renamed, text, tags, -⟩ := Tag.rename?_settled settled rule.newName state.origin
      (rule.transform colors)
    have count : result.count = 0 := by simp [Renaming.count, tags]
    have edits : result.edits = [] := by simp [Renaming.edits, tags]
    rw [renamed]
    refine ⟨_, congrArg some (Prod.ext rfl (by simp [count])), text, ?_, ?_⟩
    · simp [edits]
    · simp [count]
  · exact ⟨state, rfl, rfl, rfl, rfl⟩

theorem applyRules?_settled {state : State} {rules : List ComponentRule} (colors : ColorTables)
    (settled : ∀ rule ∈ rules, Settled state.text rule.name) :
    ∃ last, applyRules? colors state rules = some (last, []) ∧ Unmoved state last := by
  induction rules generalizing state with
  | nil => exact ⟨state, rfl, rfl, rfl, rfl⟩
  | cons rule rules ih =>
    obtain ⟨next, applied, same⟩ := applyRule?_settled colors (settled rule (by simp))
    obtain ⟨last, rest, same'⟩ := ih fun rule member => same.text ▸ settled rule (by simp [member])
    refine ⟨last, by simp [applyRules?, applied, rest], ?_⟩
    exact ⟨same'.text.trans same.text, same'.edits.trans same.edits,
      same'.occurrences.trans same.occurrences⟩

/-- A text in which no tag of the rules ends is left as it is. -/
theorem migrate?_settled (config : Config) {source : Text} (file : Text)
    (settled : ∀ rule ∈ config.components, Settled source rule.name) :
    ∃ outcome, migrate? config file source = some outcome ∧ outcome.text = source ∧
      outcome.changed = false ∧ outcome.edits = [] ∧ outcome.occurrences = 0 := by
  obtain ⟨last, applied, same⟩ : ∃ last, applyRules? config.colors (start file source)
      config.components = some (last, []) ∧ Unmoved (start file source) last :=
    applyRules?_settled config.colors settled
  unfold migrate?
  rw [applied]
  refine ⟨_, rfl, same.text, ?_, same.edits, same.occurrences⟩
  simp [same.text, start]

end Migration
end Retag
