import Retag.Migration
import Retag.Proofs.Import.Removal

/-! Moving the import of a component. Main statement: the component leaves its old import only if
its name is in use nowhere else, and then stands nowhere outside what is left of the statement;
otherwise the text stays as it is and one issue says so. -/
namespace Retag.Migration
open Import (UsedElsewhere)
open Text (StandsAt isIdentifier)

/-- The import stays because its name is in use elsewhere, which is reported once. -/
structure KeepsImport (state : State) (name module : Text) (found : Text.Found NamedImport)
    (next : State) : Prop where
  used : UsedElsewhere name state.text found
  text : next.text = state.text
  issues : next.issues = state.issues ++ [⟨.stillReferenced,
    state.origin.locate found.before.size, stillReferencedMessage name module⟩]

/-- The name is taken out of the import, with the line break after a statement that goes as a whole,
and stands nowhere outside what is left. -/
structure DropsImport (state : State) (name module : Text) (found : Text.Found NamedImport)
    (next : State) : Prop where
  unused : ¬UsedElsewhere name state.text found
  text : next.text = found.before ++ (found.item.without module name ++
    if (found.item.without module name).isEmpty then Import.dropLineBreak found.after
    else found.after)
  issues : next.issues = state.issues
  gone : ∀ place, StandsAt name next.text place → found.before.size ≤ place ∧
    place + name.size ≤ found.before.size + (found.item.without module name).size

/-- A text in which an import was changed is taken over, also if the change made no difference. -/
theorem recordImport_text (state : State) (module text : Text) :
    (recordImport state module text).text = text := by
  unfold recordImport
  split
  · rename_i same
    unfold Splice.between Splice.betweenBytes at same
    split at same
    · rename_i bytes
      exact Text.bytes_inj.1 bytes
    · cases same
  · rfl

theorem recordImport_issues (state : State) (module text : Text) :
    (recordImport state module text).issues = state.issues := by
  unfold recordImport
  split <;> rfl

section
variable {state : State} {name module : Text} {found : Text.Found NamedImport}
variable (first : Import.findNamed? state.text module = some found)
variable (listed : name ∈ found.item.names)
variable (nonempty : name ≠ []) (word : ∀ c ∈ name, isIdentifier c = true)
include first listed nonempty word

theorem removeImport_used (used : UsedElsewhere name state.text found) :
    KeepsImport state name module found (removeImport state name module) := by
  have kept : removeImport state name module = { state with
      issues := state.issues ++ [⟨.stillReferenced, state.origin.locate found.before.size,
        stillReferencedMessage name module⟩] } := by
    unfold removeImport
    simp only [first, List.contains_iff_mem.2 listed,
      (Import.referenced_iff_used first nonempty word).2 used]
    rfl
  rw [kept]
  exact ⟨used, rfl, rfl⟩

theorem removeImport_unused (unused : ¬UsedElsewhere name state.text found) :
    DropsImport state name module found (removeImport state name module) := by
  have removed : removeImport state name module =
      recordImport state module (Import.remove state.text module name) := by
    have unreferenced := mt (Import.referenced_iff_used first nonempty word).1 unused
    unfold removeImport
    simp only [first, List.contains_iff_mem.2 listed, Bool.eq_false_iff.2 unreferenced]
    rfl
  rw [removed]
  refine ⟨unused, ?_, recordImport_issues _ _ _, fun place stands => ?_⟩
  · rw [recordImport_text]
    exact Import.remove_eq first listed
  · rw [recordImport_text] at stands
    exact Import.standsAt_remove first nonempty word listed unused stands

end

/-- The import of a component is kept, and reported once, if its name is in use elsewhere; otherwise
the name is taken out without a report and is in use nowhere else. A tag of that name outside the
statement, whether it ends or not, therefore keeps the import. -/
theorem moveImport_keeps_used {state : State} {rule : ComponentRule} {move : ImportMove}
    {found : Text.Found NamedImport} (nonempty : rule.name ≠ [])
    (word : ∀ c ∈ rule.name, isIdentifier c = true) (moves : rule.imports = some move)
    (first : Import.findNamed? state.text move.source = some found)
    (listed : rule.name ∈ found.item.names) :
    let removed := removeImport state rule.name move.source
    moveImport state rule = recordImport removed move.target
        (Import.ensure removed.text move.target rule.newName) ∧
      (moveImport state rule).issues = removed.issues ∧
      (KeepsImport state rule.name move.source found removed ∨
        DropsImport state rule.name move.source found removed) ∧
      ∀ site ∈ Tag.openSites state.text rule.name,
        site.start < found.before.size ∨
            found.before.size + found.item.text.size ≤ site.start →
          KeepsImport state rule.name move.source found removed ∧
            Import.findNamed? removed.text move.source = some found := by
  intro removed
  have step : moveImport state rule = recordImport removed move.target
      (Import.ensure removed.text move.target rule.newName) := by
    unfold moveImport
    rw [moves]
  refine ⟨step, ?_, ?_, fun site member outside => ?_⟩
  · rw [step]
    exact recordImport_issues _ _ _
  · by_cases used : UsedElsewhere rule.name state.text found
    · exact .inl (removeImport_used first listed nonempty word used)
    · exact .inr (removeImport_unused first listed nonempty word used)
  · have used := Import.usedElsewhere_of_site first nonempty word member outside
    have keeps := removeImport_used first listed nonempty word used
    exact ⟨keeps, keeps.text ▸ first⟩

/-- A tag that never ends keeps the import. -/
theorem moveImport_keeps_used_unterminated :
    let state := start [] ("// x\nimport \x7b CButton, CCard \x7d from '@coreui/react'\n" ++
      "<Button/>\n<CButton a=\x7b").toList
    ∃ found, Import.findNamed? state.text "@coreui/react".toList = some found ∧
      "CButton".toList ∈ found.item.names ∧
      .unterminated 62 ∈ Tag.openSites state.text "CButton".toList ∧
      KeepsImport state "CButton".toList "@coreui/react".toList found
        (removeImport state "CButton".toList "@coreui/react".toList) ∧
      (moveImport state .builtin).issues.map (·.kind) = [.stillReferenced] := by
  intro state
  have read : (Import.findNamed? state.text "@coreui/react".toList).map
      (fun found => (found.before.size + found.item.text.size, found.item.names)) =
        some (51, ["CButton".toList, "CCard".toList]) := by decide +kernel
  obtain ⟨found, first, same⟩ := Option.map_eq_some_iff.1 read
  obtain ⟨stop, names⟩ := Prod.mk.inj same
  have listed : "CButton".toList ∈ found.item.names := names ▸ by decide
  have member : .unterminated 62 ∈ Tag.openSites state.text "CButton".toList := by decide +kernel
  have word : ∀ c ∈ ComponentRule.builtin.name, isIdentifier c = true :=
    List.all_eq_true.1 (by decide +kernel)
  obtain ⟨-, issues, -, survives⟩ := moveImport_keeps_used (by decide) word rfl first listed
  obtain ⟨keeps, -⟩ := survives _ member (.inr (stop ▸ by decide))
  refine ⟨found, first, listed, member, keeps, ?_⟩
  rw [issues, keeps.issues]
  rfl

end Retag.Migration
