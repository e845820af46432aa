import Mathlib.Data.List.SplitBy
import Retag.Proofs.Attribute.Views

/-! Attributes that are kept apart. Whether two attributes touch depends on the kinds of the tokens
alone, and every edit is looked at where its parts meet. Main statement: keeping attributes apart puts
one space into each place where two touch and does nothing else, and from then on no edit makes two
of them touch. -/
namespace Retag.AttributeList

def apart (a b : Token) : Bool := !(a.isAttribute && b.isAttribute)

inductive Action where
  | insert (index : Nat) (attrs : List Attribute)
  | rename (name newName : Text)
  | setLiteral (name text : Text)
  | setLiteralAt (index : Nat) (text : Text)
  | collapse (index : Nat)

def Action.apply (list : AttributeList) : Action → AttributeList
  | .insert index attrs => list.insertAt index attrs
  | .rename name newName => list.rename name newName
  | .setLiteral name text => list.modify name (·.setLiteral text)
  | .setLiteralAt index text => list.modifyAt index (·.setLiteral text)
  | .collapse index => list.collapseBlankAt index

section
variable {list before after : AttributeList}

theorem separated_iff : Separated list ↔ list.IsChain fun a b => apart a b = true := by
  fun_induction Separated list with
  | case1 => simp [apart]
  | case2 token rest noPair ih =>
    rw [ih, List.isChain_cons]
    refine ⟨fun chain => ⟨fun next first => ?_, chain⟩, And.right⟩
    obtain ⟨tail, rfl⟩ := List.head?_eq_some_iff.1 first
    cases token with
    | attr item =>
      cases next with
      | attr other => exact (noPair item other tail rfl rfl).elim
      | blank run | slash => rfl
    | blank run | slash => rfl
  | case3 => simp

theorem separated_append : Separated (before ++ after) ↔ Separated before ∧ Separated after ∧
    ∀ x ∈ before.getLast?, ∀ y ∈ after.head?, apart x y = true := by
  simp only [separated_iff]
  exact List.isChain_append

/-! ### What keeping apart does -/

/-- A token that does not touch the next one is put before the first run. -/
theorem splitBy_cons_apart {token : Token} {run : AttributeList} {runs : List AttributeList}
    (cut : list.splitBy apart = run :: runs) (near : ∀ next ∈ list.head?, apart token next = true) :
    (token :: list).splitBy apart = (token :: run) :: runs := by
  obtain ⟨rfl, noNil, chains, seams⟩ := List.splitBy_eq_iff.1 cut
  have filled : run ≠ [] := fun none => noNil (by simp [none])
  obtain ⟨first, rest, rfl⟩ := List.exists_cons_of_ne_nil filled
  refine List.splitBy_eq_iff.2 ⟨rfl, by simpa using noNil, ?_, ?_⟩
  · intro other member
    rcases List.mem_cons.1 member with rfl | later
    · exact List.isChain_cons_cons.2 ⟨near first rfl, chains _ List.mem_cons_self⟩
    · exact chains other (List.mem_cons_of_mem _ later)
  · rw [List.isChain_cons] at seams ⊢
    refine ⟨fun next atStart => ?_, seams.2⟩
    obtain ⟨_, filled', touch⟩ := seams.1 next atStart
    exact ⟨by simp, filled', by simpa using touch⟩

theorem intercalate_cons (sep : AttributeList) (token : Token) (run : AttributeList)
    (runs : List AttributeList) :
    sep.intercalate ((token :: run) :: runs) = token :: sep.intercalate (run :: runs) := by
  cases runs <;> simp [List.intercalate]

theorem separate_cons_cons (token next : Token) (rest : AttributeList) :
    separate (token :: next :: rest) =
      if apart token next then token :: separate (next :: rest)
      else token :: Token.space :: separate (next :: rest) := by
  rw [separate_cons, List.head?_cons, Option.any_some, apart]
  cases token.isAttribute && next.isAttribute <;> rfl

/-- The list is cut where two attributes touch, and a space is put into every cut. -/
theorem separate_eq_intercalate (list : AttributeList) :
    list.separate = [Token.space].intercalate (list.splitBy apart) := by
  induction list with
  | nil => rfl
  | cons token rest ih =>
    cases rest with
    | nil => cases token <;> rfl
    | cons next rest =>
      have filled : (next :: rest).splitBy apart ≠ [] := List.splitBy_ne_nil.2 (by simp)
      obtain ⟨run, runs, cut⟩ := List.exists_cons_of_ne_nil filled
      rw [separate_cons_cons, ih]
      cases near : apart token next with
      | true =>
        rw [if_pos rfl, splitBy_cons_apart cut (by simpa using near), cut, intercalate_cons]
      | false =>
        have parted : (token :: next :: rest).splitBy apart =
            [token] :: (next :: rest).splitBy apart :=
          List.splitBy_append_cons (l := [token]) rest (by simpa using near)
        rw [if_neg (by simp), parted, cut]
        simp [List.intercalate]

theorem separate_eq_self_iff : list.separate = list ↔ Separated list :=
  ⟨fun same => same ▸ separated_separate list, separate_of_separated⟩

/-! ### What the edits keep -/

/-- A change of attributes leaves the kinds of the tokens as they are. -/
theorem map_isAttribute_modifyAt (list : AttributeList) (index : Nat)
    (change : Attribute → Attribute) :
    (list.modifyAt index change).map Token.isAttribute = list.map Token.isAttribute := by
  apply List.ext_getElem?
  intro place
  rw [List.getElem?_map, List.getElem?_map, modifyAt, List.getElem?_modify]
  cases list[place]? with
  | none => rfl
  | some token =>
    by_cases same : index = place
    · cases token <;> simp [same, Token.isAttribute, Token.attr?]
    · simp [same]

theorem separated_of_kinds {list' : AttributeList}
    (kinds : list'.map Token.isAttribute = list.map Token.isAttribute) (separated : Separated list) :
    Separated list' := by
  have onKinds (list : AttributeList) :
      Separated list ↔ (list.map Token.isAttribute).IsChain fun a b => (!(a && b)) = true := by
    rw [separated_iff, List.isChain_map]
    rfl
  rw [onKinds] at separated ⊢
  rwa [kinds]

theorem Separated.modifyAt (separated : Separated list) (index : Nat)
    (change : Attribute → Attribute) : Separated (list.modifyAt index change) :=
  separated_of_kinds (map_isAttribute_modifyAt list index change) separated

theorem Separated.modify (separated : Separated list) (name : Text)
    (change : Attribute → Attribute) : Separated (list.modify name change) := by
  unfold AttributeList.modify
  split
  · exact separated.modifyAt _ _
  · exact separated

theorem Separated.collapseBlankAt (separated : Separated list) (index : Nat) :
    Separated (list.collapseBlankAt index) := by
  rcases collapseBlankAt_cases list index with ⟨same, -⟩ | ⟨front, run, ahead, blanks, collapsed⟩
  · rwa [same]
  · rw [collapsed]
    rw [← List.take_append_drop index list, ahead, ← List.append_cons] at separated
    obtain ⟨ahead, behind, -⟩ := separated_append.1 separated
    refine separated_append.2 ⟨ahead, behind.tail, fun x _ y first => ?_⟩
    have blank := blanks y first
    cases y with
    | blank run => simp [apart, Token.isAttribute, Token.attr?]
    | attr item | slash => cases blank

theorem separated_before_gap (separated : Separated before) :
    Separated (before ++ gapBeside before.getLast?) := by
  refine separated_append.2 ⟨separated, ?_, fun x _ y first => ?_⟩
  · unfold gapBeside
    split <;> trivial
  · obtain rfl := mem_gapBeside (List.mem_of_mem_head? first)
    simp [apart]

theorem separated_gap_after (separated : Separated after) :
    Separated (gapBeside after.head? ++ after) := by
  refine separated_append.2 ⟨?_, separated, fun x last y _ => ?_⟩
  · unfold gapBeside
    split <;> trivial
  · obtain rfl := mem_gapBeside (List.mem_of_getLast? last)
    simp [apart]

theorem Separated.insertAt (separated : Separated list) (index : Nat) (attrs : List Attribute) :
    Separated (list.insertAt index attrs) := by
  by_cases none : attrs = []
  · simpa [AttributeList.insertAt, none] using separated
  · rw [← List.take_append_drop index list] at separated
    obtain ⟨ahead, behind, -⟩ := separated_append.1 separated
    have inner : Separated (spaced attrs) := separate_spaced attrs ▸ separated_separate _
    rw [insertAt_eq _ _ none]
    refine separated_append.2 ⟨separated_append.2 ⟨separated_before_gap ahead, inner, ?_⟩,
      separated_gap_after behind, ?_⟩
    · intro x last y _
      simp [apart, apart_before_gap x last]
    · intro x _ y first
      simp [apart, apart_gap_after y first]

theorem attributes_insertAt (list : AttributeList) (index : Nat) (attrs : List Attribute) :
    attributes (list.insertAt index attrs) =
      attributes (list.take index) ++ attrs ++ attributes (list.drop index) := by
  by_cases none : attrs = []
  · have whole := attributes_append (list.take index) (list.drop index)
    rw [List.take_append_drop] at whole
    simpa [insertAt, none] using whole
  · have gap (beside : Option Token) : attributes (gapBeside beside) = [] := by
      rw [← attributes_ink, ink_gapBeside]
      rfl
    have inner : attributes (spaced attrs) = attrs := by
      rw [← attributes_ink, ink_spaced, attributes, List.filterMap_map]
      exact List.filterMap_some
    simp only [insertAt_eq _ _ none, attributes_append, gap, inner, List.append_nil, List.nil_append]

theorem Separated.apply (separated : Separated list) (action : Action) :
    Separated (action.apply list) := by
  cases action with
  | insert index attrs => exact separated.insertAt index attrs
  | rename name newName => exact separated.modify name _
  | setLiteral name text => exact separated.modify name _
  | setLiteralAt index text => exact separated.modifyAt index _
  | collapse index => exact separated.collapseBlankAt index

theorem Separated.run (separated : Separated list) (actions : List Action) :
    Separated (actions.foldl Action.apply list) := by
  induction actions generalizing list with
  | nil => exact separated
  | cons action actions ih => exact ih (separated.apply action)

end

/-- Keeping attributes apart puts a single space wherever two of them touch, so it changes a list
exactly if two touch, and only once. No sequence of edits makes two attributes touch in a list where
none do; attributes that are put in go in order between those before and those behind the index; and
closing a gap takes away nothing but a run of white space. -/
theorem separation_kept (list : AttributeList) :
    (Separated list.separate ∧
      list.separate = [Token.space].intercalate (list.splitBy apart) ∧
      (list.separate = list ↔ Separated list) ∧ list.separate.separate = list.separate) ∧
    (∀ actions : List Action, Separated list → Separated (actions.foldl Action.apply list)) ∧
    (∀ index attrs, attributes (list.insertAt index attrs) =
      attributes (list.take (min index list.length)) ++ attrs ++
        attributes (list.drop (min index list.length))) ∧
    ∀ index, list.collapseBlankAt index = list ∨
      ∃ before run after, list = before ++ .blank run :: after ∧
        list.collapseBlankAt index = before ++ after := by
  refine ⟨⟨separated_separate list, separate_eq_intercalate list, separate_eq_self_iff,
    separate_of_separated (separated_separate list)⟩, fun actions separated => separated.run actions,
    fun index attrs => ?_, fun index => ?_⟩
  · have clamped : list.drop (min index list.length) = list.drop index := by
      rcases Nat.le_total index list.length with within | beyond
      · rw [Nat.min_eq_left within]
      · rw [Nat.min_eq_right beyond, List.drop_length, List.drop_of_length_le beyond]
    rw [attributes_insertAt, List.take_eq_take_min, clamped]
  · rcases collapseBlankAt_cases list index with ⟨same, -⟩ | ⟨front, run, ahead, -, collapsed⟩
    · exact .inl same
    · refine .inr ⟨front, run, list.drop index, ?_, collapsed⟩
      rw [List.append_cons, ← ahead, List.take_append_drop]

/-- Two attributes go between two others, one is renamed and set, and the white space at the end
goes. -/
theorem separation_kept_edits :
    let list := ofText " a b ".toList
    let actions : List Action := [.insert 3 [.ofLiteral ['x'] ['1'], .ofLiteral ['y'] ['2']],
      .rename ['a'] ['c'], .setLiteralAt 1 ['v'], .collapse 9]
    Separated list ∧ Separated (actions.foldl Action.apply list) ∧
      render (actions.foldl Action.apply list) = " c=\"v\" x=\"1\" y=\"2\" b".toList := by
  intro list actions
  obtain ⟨⟨-, -, unchanged, -⟩, kept, -⟩ := separation_kept list
  have separated : Separated list := unchanged.1 (by decide +kernel)
  exact ⟨separated, kept actions separated, by decide +kernel⟩

end Retag.AttributeList
