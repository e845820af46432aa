import Retag.Migration
import Retag.Proofs.Attribute.Views
import Retag.Proofs.Table

/-! New names of attributes. A rule's table goes over the attributes entry by entry. Only names are
changed, and when the table is followed is a matter of the names alone. -/
namespace Retag

namespace Token

def renamed (table : Table Text) : Token → Token
  | .attr item => .attr { item with name := table.newName item.name }
  | token => token

def unnamed : Token → Token
  | .attr item => .attr { item with name := [] }
  | token => token

theorem unnamed_renamed (table : Table Text) (token : Token) :
    (token.renamed table).unnamed = token.unnamed := by
  cases token <;> rfl

end Token

namespace AttributeList

def names (list : AttributeList) : List Text := list.attributes.map (·.name)

def renameAll (list : AttributeList) (table : Table Text) : AttributeList :=
  table.foldl (fun list (name, newName) => list.rename name newName) list

section
variable {list other : AttributeList} {name : Text}

@[simp] theorem names_append (a b : AttributeList) : names (a ++ b) = names a ++ names b := by
  simp [names]

@[simp] theorem names_attr (item : Attribute) (list : AttributeList) :
    names (.attr item :: list) = item.name :: names list := rfl

theorem not_mem_names (absent : list.find? name = none) : name ∉ list.names := by
  intro member
  obtain ⟨item, inside, same⟩ := List.mem_map.1 member
  exact find?_eq_none_iff.1 absent item inside same

theorem names_rename (list : AttributeList) (name newName : Text) :
    (list.rename name newName).names = list.names.replace name newName := by
  cases found : list.get? name with
  | none =>
    have absent : name ∉ list.names := not_mem_names (find?_eq_none_iff_get?.2 found)
    rw [rename, modify_eq_self found, List.replace_of_not_mem absent]
  | some item =>
    obtain ⟨before, after, rfl, first⟩ := split_of_get? found
    have absent : name ∉ before.names := not_mem_names first.find?_before
    rw [rename, first.modify, names_append, names_attr, names_append, names_attr, first.isNamed,
      List.replace_append_right absent, List.replace_cons_self]

theorem unnamed_rename (list : AttributeList) (name newName : Text) :
    (list.rename name newName).map Token.unnamed = list.map Token.unnamed := by
  cases found : list.get? name with
  | none => rw [rename, modify_eq_self found]
  | some item =>
    obtain ⟨before, after, rfl, first⟩ := split_of_get? found
    rw [rename, first.modify, List.map_append, List.map_cons, List.map_append, List.map_cons]
    rfl

theorem names_renameAll (list : AttributeList) (table : Table Text) :
    (list.renameAll table).names = table.inTurn list.names := by
  induction table generalizing list with
  | nil => rfl
  | cons entry entries ih =>
    change (renameAll (list.rename entry.1 entry.2) entries).names = Table.inTurn entries _
    rw [ih, names_rename]

theorem unnamed_renameAll (list : AttributeList) (table : Table Text) :
    (list.renameAll table).map Token.unnamed = list.map Token.unnamed := by
  induction table generalizing list with
  | nil => rfl
  | cons entry entries ih =>
    change (renameAll (list.rename entry.1 entry.2) entries).map Token.unnamed = _
    rw [ih, unnamed_rename]

theorem names_renamed (table : Table Text) (list : AttributeList) :
    names (list.map (Token.renamed table)) = list.names.map table.newName := by
  induction list with
  | nil => rfl
  | cons token rest ih =>
    cases token with
    | attr item => exact congrArg (table.newName item.name :: ·) ih
    | blank run | slash => exact ih

/-- A list is made of its names and the rest of its tokens. -/
theorem eq_of_unnamed (rest : list.map Token.unnamed = other.map Token.unnamed)
    (names : list.names = other.names) : list = other := by
  induction list generalizing other with
  | nil => exact (List.map_eq_nil_iff.1 rest.symm).symm
  | cons token tokens ih =>
    cases other with
    | nil => cases rest
    | cons token' tokens' =>
      obtain ⟨same, onward⟩ := List.cons.inj rest
      cases token with
      | attr item =>
        cases token' with
        | attr item' =>
          obtain ⟨sameName, sameNames⟩ := List.cons.inj names
          have sameItem : item = item' := by
            cases item
            cases item'
            simp_all [Token.unnamed]
          rw [sameItem, ih onward sameNames]
        | blank run | slash => cases same
      | blank run =>
        cases token' with
        | blank run' => rw [ih onward names, Token.blank.inj same]
        | attr item | slash => cases same
      | slash =>
        cases token' with
        | slash => rw [ih onward names]
        | attr item | blank run => cases same

theorem renameAll_eq_iff (table : Table Text) :
    list.renameAll table = list.map (Token.renamed table) ↔
      table.inTurn list.names = list.names.map table.newName := by
  rw [← names_renameAll, ← names_renamed]
  constructor
  · exact congrArg names
  · apply eq_of_unnamed
    rw [unnamed_renameAll, List.map_map]
    exact List.map_congr_left fun token _ => (token.unnamed_renamed table).symm

end
end AttributeList

namespace ComponentRule

/-- Without colours to map, attributes are renamed by the table in turn and nothing else changes.
That is what the table says, if each attribute renamed to a later key stands after the attribute of
that name. One that stands before it is renamed in its place, and one whose new name is not there is
renamed again. -/
theorem transform_follows_props {rule : ComponentRule} (plain : rule.mapColors = false)
    (ordered : rule.props.Ordered) {text : Text}
    (once : ∀ entry ∈ rule.props, (AttributeList.ofText text).names.count entry.1 ≤ 1)
    (colors : ColorTables) (location : Location) :
    let list := AttributeList.ofText text
    let result := list.renameAll rule.props
    rule.transform colors text location = (result.render, []) ∧
      result.map Token.unnamed = list.map Token.unnamed ∧
      (rule.props.Settles list.names → result = list.map (Token.renamed rule.props)) ∧
      (result = list.map (Token.renamed rule.props) →
        ∀ front name back, list.names = front ++ name :: back →
          ∀ next, rule.props.Chained name next →
            next ∈ front ∨ (next ∉ back ∧ rule.props.Returns)) := by
  intro list result
  refine ⟨?_, AttributeList.unnamed_renameAll list rule.props, ?_, ?_⟩
  · rw [transform, plain]
    rfl
  · intro settles
    rw [AttributeList.renameAll_eq_iff]
    exact Table.inTurn_eq_map ordered once settles
  · intro follows front name back cut next chained
    apply Table.settles_of_inTurn ordered _ cut chained
    exact (AttributeList.renameAll_eq_iff rule.props).1 follows

/-- The second entry renames what the first one writes. -/
def chain : ComponentRule where
  name := ['A']
  newName := ['B']
  props := .ofEntries [(['a'], ['b']), (['b'], ['c'])]

theorem transform_follows_props_chain :
    let names := (AttributeList.ofText " b='2' a='1'".toList).names
    chain.mapColors = false ∧ chain.props.Ordered ∧
      (∀ entry ∈ chain.props, names.count entry.1 ≤ 1) ∧ chain.props.Settles names ∧
      chain.transform .builtin " b='2' a='1'".toList ⟨[], ⟨1, 1⟩⟩ =
        (" c='2' b='1'".toList, []) := by
  intro names
  have read : names = [['b'], ['a']] := by decide +kernel
  have ordered : chain.props.Ordered := Table.ofEntries_ordered _
  have once : ∀ entry ∈ chain.props, names.count entry.1 ≤ 1 := by
    intro entry _
    apply List.nodup_iff_count.1
    rw [read]
    decide
  have first : chain.props.get? ['a'] = some ['b'] := by decide
  have second : chain.props.get? ['b'] = some ['c'] := by decide
  have settles : chain.props.Settles names := by
    rw [read]
    intro front name back cut next chained
    rcases front with _ | ⟨_, _ | ⟨_, _⟩⟩
    · obtain ⟨rfl, -⟩ := List.cons.inj cut
      obtain rfl : ['c'] = next := Option.some.inj (second.symm.trans chained.renamed)
      obtain ⟨last, again, -⟩ := chained.again
      cases again
    · obtain ⟨rfl, onward⟩ := List.cons.inj cut
      obtain ⟨rfl, -⟩ := List.cons.inj onward
      obtain rfl : ['b'] = next := Option.some.inj (first.symm.trans chained.renamed)
      exact List.mem_singleton_self _
    · simp at cut
  obtain ⟨answer, -, follows, -⟩ :=
    transform_follows_props rfl ordered once .builtin ⟨[], ⟨1, 1⟩⟩
  refine ⟨rfl, ordered, once, settles, ?_⟩
  rw [answer, follows settles]
  decide +kernel

/-- In the other order the first attribute is renamed twice and the second not at all. -/
theorem transform_renames_twice :
    let list := AttributeList.ofText " a='1' b='2'".toList
    list.names.Nodup ∧
      chain.transform .builtin " a='1' b='2'".toList ⟨[], ⟨1, 1⟩⟩ =
        (" c='1' b='2'".toList, []) ∧
      AttributeList.render (list.map (Token.renamed chain.props)) = " b='1' c='2'".toList ∧
      (Migration.migrate? ⟨[chain], .builtin, .builtin⟩ [] "<A a='1' b='2'/>".toList).map (·.text) =
        some "<B c='1' b='2'/>".toList := by
  refine ⟨?_, by decide +kernel, by decide +kernel, by decide +kernel⟩
  have read : (AttributeList.ofText " a='1' b='2'".toList).names = [['a'], ['b']] := by
    decide +kernel
  rw [read]
  decide

end ComponentRule
end Retag
