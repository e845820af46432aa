import Retag.Attribute.Editing

/-! Edits of an attribute list: which tokens the result of an edit can hold, and lists in which no
two attributes touch. -/
namespace Retag.AttributeList

theorem attr_of_find? {list : AttributeList} {name : Text} {index : Nat}
    (found : list.find? name = some index) :
    ∃ item, list[index]? = some (.attr item) ∧ item.name = name := by
  obtain ⟨bound, isNamed, -⟩ := List.findIdx?_eq_some_iff_getElem.1 found
  rw [List.getElem?_eq_getElem bound]
  cases token : list[index] with
  | attr item => exact ⟨item, rfl, by simpa [token, named] using isNamed⟩
  | blank run | slash => simp [token, named] at isNamed

theorem mem_modify {list : AttributeList} {name : Text} {change : Attribute → Attribute}
    {token : Token} (member : token ∈ list.modify name change) :
    token ∈ list ∨ ∃ item, .attr item ∈ list ∧ item.name = name ∧ token = .attr (change item) := by
  unfold modify at member
  split at member
  · rename_i index found
    obtain ⟨item, place, isNamed⟩ := attr_of_find? found
    obtain ⟨other, at'⟩ := List.mem_iff_getElem?.1 member
    rw [modifyAt, List.getElem?_modify] at at'
    by_cases same : index = other
    · subst same
      simp only [place, if_true, Option.map_eq_map, Option.map_some, Option.some.injEq] at at'
      exact .inr ⟨item, List.mem_of_getElem? place, isNamed, at'.symm⟩
    · simp only [same, if_false, id_map'] at at'
      exact .inl (List.mem_of_getElem? at')
  · exact .inl member

theorem collapseBlankAt_sublist (list : AttributeList) (index : Nat) :
    (list.collapseBlankAt index).Sublist list := by
  unfold collapseBlankAt
  split
  · exact List.Sublist.refl _
  · split
    · exact List.eraseIdx_sublist _ _
    · exact List.Sublist.refl _

theorem mem_gapBeside {beside : Option Token} {token : Token} (member : token ∈ gapBeside beside) :
    token = Token.space := by
  unfold gapBeside at member
  split at member
  · exact List.mem_singleton.1 member
  · simp at member

theorem mem_intersperse {list : AttributeList} {separator token : Token}
    (member : token ∈ list.intersperse separator) : token ∈ list ∨ token = separator := by
  fun_induction List.intersperse separator list with
  | case1 => simp at member
  | case2 => exact .inl member
  | case3 first rest _ ih =>
    rcases List.mem_cons.1 member with rfl | member
    · exact .inl (by simp)
    · rcases List.mem_cons.1 member with rfl | member
      · exact .inr rfl
      · exact (ih member).imp_left (List.mem_cons_of_mem _)

theorem mem_insertAt {list : AttributeList} {index : Nat} {attrs : List Attribute} {token : Token}
    (member : token ∈ list.insertAt index attrs) :
    token ∈ list ∨ token = Token.space ∨ ∃ item ∈ attrs, token = .attr item := by
  unfold insertAt at member
  split at member
  · exact .inl member
  · simp only [List.mem_append] at member
    rcases member with (((before | gap) | added) | gap) | after
    · exact .inl (List.mem_of_mem_take before)
    · exact .inr (.inl (mem_gapBeside gap))
    · rcases mem_intersperse added with inside | separator
      · obtain ⟨item, among, rfl⟩ := List.mem_map.1 inside
        exact .inr (.inr ⟨item, among, rfl⟩)
      · exact .inr (.inl separator)
    · exact .inr (.inl (mem_gapBeside gap))
    · exact .inl (List.mem_of_mem_drop after)

theorem mem_separate {list : AttributeList} {token : Token} (member : token ∈ list.separate) :
    token ∈ list ∨ token = Token.space := by
  fun_induction separate list with
  | case1 a b rest ih =>
    rcases List.mem_cons.1 member with rfl | member
    · exact .inl (by simp)
    · rcases List.mem_cons.1 member with rfl | member
      · exact .inr rfl
      · exact (ih member).imp_left (List.mem_cons_of_mem _)
  | case2 first rest _ ih =>
    rcases List.mem_cons.1 member with rfl | member
    · exact .inl (by simp)
    · exact (ih member).imp_left (List.mem_cons_of_mem _)
  | case3 => simp at member

/-- No two attributes touch. -/
def Separated : AttributeList → Prop
  | .attr _ :: .attr _ :: _ => False
  | _ :: rest => Separated rest
  | [] => True

theorem separated_cons {token : Token} {rest : AttributeList}
    (apart : token.isAttribute = false ∨ ∀ item tail, rest ≠ .attr item :: tail)
    (separated : Separated rest) : Separated (token :: rest) := by
  unfold Separated
  split
  · rename_i same
    obtain ⟨rfl, rfl⟩ := List.cons.inj same
    rcases apart with other | apart
    · simp [Token.isAttribute, Token.attr?] at other
    · exact absurd rfl (apart _ _)
  · rename_i same
    obtain ⟨-, rfl⟩ := List.cons.inj same
    exact separated
  · trivial

theorem Separated.tail {token : Token} {rest : AttributeList}
    (separated : Separated (token :: rest)) : Separated rest := by
  unfold Separated at separated
  split at separated
  · exact separated.elim
  · rename_i same
    obtain ⟨-, rfl⟩ := List.cons.inj same
    exact separated
  · trivial

/-- What is kept apart starts with the same token. -/
theorem separate_attr {list tail : AttributeList} {item : Attribute}
    (first : list.separate = .attr item :: tail) : ∃ rest, list = .attr item :: rest := by
  unfold separate at first
  split at first
  · obtain ⟨⟨rfl⟩, -⟩ := List.cons.inj first
    exact ⟨_, rfl⟩
  · obtain ⟨rfl, -⟩ := List.cons.inj first
    exact ⟨_, rfl⟩
  · simp at first

theorem separated_separate (list : AttributeList) : Separated list.separate := by
  fun_induction separate list with
  | case1 a b rest ih =>
    exact separated_cons (.inr (by simp [Token.space])) (separated_cons (.inl rfl) ih)
  | case2 token rest noPair ih =>
    refine separated_cons ?_ ih
    cases token with
    | attr a =>
      refine .inr fun item tail first => ?_
      obtain ⟨rest', rfl⟩ := separate_attr first
      exact noPair a item rest' rfl rfl
    | blank run | slash => exact .inl rfl
  | case3 => trivial

theorem separate_of_separated {list : AttributeList} (separated : Separated list) :
    list.separate = list := by
  fun_induction separate list with
  | case1 => exact separated.elim
  | case2 token rest _ ih => rw [ih separated.tail]
  | case3 => rfl

end Retag.AttributeList
