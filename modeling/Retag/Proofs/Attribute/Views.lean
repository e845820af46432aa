import Mathlib.Data.List.Chain
import Retag.Proofs.Attribute.Editing

/-! Views of an attribute list, and what the edits do to them. Look-ups by name see the attributes
alone; the order of what is written is that of the tokens other than white space; and white space is
kept in single runs. An edit at an index is stated on the two parts of the list around it. -/
namespace Retag

namespace Token

@[simp] theorem isBlank_attr (item : Attribute) : (attr item).isBlank = false := rfl

@[simp] theorem isBlank_space : space.isBlank = true := rfl

@[simp] theorem isAttribute_attr (item : Attribute) : (attr item).isAttribute = true := rfl

@[simp] theorem isAttribute_space : space.isAttribute = false := rfl

theorem isBlank_of_isAttribute {token : Token} (isAttribute : token.isAttribute = true) :
    token.isBlank = false := by
  cases token with
  | attr item => rfl
  | blank run | slash => cases isAttribute

end Token

namespace AttributeList

def attributes (list : AttributeList) : List Attribute := list.filterMap Token.attr?

def getAll (list : AttributeList) (name : Text) : List Attribute :=
  list.attributes.filter (·.name == name)

/-- The tokens that are not white space. -/
def ink (list : AttributeList) : AttributeList := list.filter fun token => !token.isBlank

def Compact (list : AttributeList) : Prop :=
  list.IsChain fun a b => ¬(a.isBlank = true ∧ b.isBlank = true)

def spaced (attrs : List Attribute) : AttributeList :=
  (attrs.map Token.attr).intersperse Token.space

structure FirstNamed (name : Text) (before : AttributeList) (item : Attribute) : Prop where
  isNamed : item.name = name
  first : ∀ token ∈ before, named name token = false

section
variable {list before after : AttributeList} {item : Attribute} {name other : Text}
  {change : Attribute → Attribute}

@[simp] theorem attributes_attr (item : Attribute) (list : AttributeList) :
    attributes (.attr item :: list) = item :: attributes list := rfl

@[simp] theorem attributes_append (a b : AttributeList) :
    attributes (a ++ b) = attributes a ++ attributes b := List.filterMap_append

@[simp] theorem ink_append (a b : AttributeList) : ink (a ++ b) = ink a ++ ink b :=
  List.filter_append a b

theorem ink_cons (token : Token) (list : AttributeList) :
    ink (token :: list) = if token.isBlank then ink list else token :: ink list := by
  cases blank : token.isBlank <;> simp [ink, blank]

@[simp] theorem ink_space (list : AttributeList) : ink (Token.space :: list) = ink list := rfl

@[simp] theorem ink_attr (item : Attribute) (list : AttributeList) :
    ink (.attr item :: list) = .attr item :: ink list := rfl

theorem mem_attributes : item ∈ attributes list ↔ .attr item ∈ list := by
  refine List.mem_filterMap.trans ⟨?_, fun member => ⟨_, member, rfl⟩⟩
  rintro ⟨token, member, found⟩
  cases token with
  | attr other => exact Option.some.inj found ▸ member
  | blank run | slash => cases found

theorem named_iff {token : Token} :
    named name token = true ↔ ∃ item, token = .attr item ∧ item.name = name := by
  cases token with
  | attr item => simp [named]
  | blank run | slash => simp [named]

theorem split_of_find? {index : Nat} (found : list.find? name = some index) :
    ∃ before item after, list = before ++ .attr item :: after ∧ index = before.length ∧
      FirstNamed name before item := by
  obtain ⟨bound, isNamed, first⟩ := List.findIdx?_eq_some_iff_getElem.1 found
  obtain ⟨item, token, named⟩ := named_iff.1 isNamed
  refine ⟨list.take index, item, list.drop (index + 1), ?_, ?_, named, ?_⟩
  · rw [← token, ← List.drop_eq_getElem_cons bound, List.take_append_drop]
  · rw [List.length_take]
    omega
  · intro token member
    obtain ⟨other, place, rfl⟩ := List.mem_iff_getElem.1 member
    rw [List.length_take] at place
    rw [List.getElem_take]
    simpa using first other (by omega)

theorem FirstNamed.find?_before (first : FirstNamed name before item) : before.find? name = none :=
  List.findIdx?_eq_none_iff.2 first.first

theorem FirstNamed.find? (first : FirstNamed name before item) (after : AttributeList) :
    AttributeList.find? (before ++ .attr item :: after) name = some before.length := by
  have unnamed : List.findIdx? (named name) before = none := first.find?_before
  simp [AttributeList.find?, List.findIdx?_append, unnamed, List.findIdx?_cons, named,
    first.isNamed]

theorem FirstNamed.get? (first : FirstNamed name before item) (after : AttributeList) :
    AttributeList.get? (before ++ .attr item :: after) name = some item := by
  simp [AttributeList.get?, first.find?, attrAt?, Token.attr?]

theorem FirstNamed.modify (first : FirstNamed name before item) (after : AttributeList)
    (change : Attribute → Attribute) :
    AttributeList.modify (before ++ .attr item :: after) name change =
      before ++ .attr (change item) :: after := by
  simp [AttributeList.modify, first.find?, modifyAt, List.modify_eq_take_cons_drop]

theorem eraseIdx_split (before : AttributeList) (token : Token) (after : AttributeList) :
    (before ++ token :: after).eraseIdx before.length = before ++ after := by
  simp [List.eraseIdx_append_of_length_le]

theorem find?_eq_none_iff :
    list.find? name = none ↔ ∀ item ∈ list.attributes, item.name ≠ name := by
  rw [find?, List.findIdx?_eq_none_iff]
  constructor
  · intro absent item member same
    have named := absent _ (mem_attributes.1 member)
    simp [AttributeList.named, same] at named
  · intro absent token member
    rw [Bool.eq_false_iff]
    intro isNamed
    obtain ⟨item, rfl, same⟩ := named_iff.1 isNamed
    exact absent item (mem_attributes.2 member) same

theorem get?_eq_head? (list : AttributeList) (name : Text) :
    list.get? name = (list.getAll name).head? := by
  rw [getAll, List.head?_filter]
  cases found : list.find? name with
  | none =>
    have absent := find?_eq_none_iff.1 found
    rw [get?, found, eq_comm]
    simpa using absent
  | some index =>
    obtain ⟨before, item, after, rfl, -, first⟩ := split_of_find? found
    have absent : before.attributes.find? (·.name == name) = none := by
      simpa using find?_eq_none_iff.1 first.find?_before
    rw [first.get?, attributes_append, List.find?_append, absent]
    simp [first.isNamed]

theorem get?_eq_none_iff : list.get? name = none ↔ list.getAll name = [] := by
  rw [get?_eq_head?, List.head?_eq_none_iff]

theorem find?_eq_none_iff_get? : list.find? name = none ↔ list.get? name = none := by
  rw [find?_eq_none_iff, get?_eq_none_iff, getAll, List.filter_eq_nil_iff]
  simp

theorem split_of_get? (found : list.get? name = some item) :
    ∃ before after, list = before ++ .attr item :: after ∧ FirstNamed name before item := by
  obtain ⟨index, place, -⟩ := Option.bind_eq_some_iff.1 found
  obtain ⟨before, other, after, rfl, -, first⟩ := split_of_find? place
  obtain rfl := Option.some.inj ((first.get? after).symm.trans found)
  exact ⟨before, after, rfl, first⟩

theorem name_of_get? (found : list.get? name = some item) : item.name = name := by
  obtain ⟨_, _, -, first⟩ := split_of_get? found
  exact first.isNamed

theorem attributes_ink (list : AttributeList) : list.ink.attributes = list.attributes := by
  rw [attributes, ink, List.filterMap_filter, attributes]
  refine List.filterMap_congr fun token _ => ?_
  cases token <;> rfl

/-- What is looked up does not depend on white space. -/
theorem getAll_eq_of_ink {a b : AttributeList} (same : a.ink = b.ink) (name : Text) :
    a.getAll name = b.getAll name := by
  rw [getAll, ← attributes_ink a, same, attributes_ink, getAll]

theorem getAll_append (a b : AttributeList) (name : Text) :
    (a ++ b).getAll name = a.getAll name ++ b.getAll name := by
  rw [getAll, attributes_append, List.filter_append, getAll, getAll]

/-! ### Changing the first attribute of a name -/

theorem modify_eq_self (absent : list.get? name = none) (change : Attribute → Attribute) :
    list.modify name change = list := by
  rw [modify, find?_eq_none_iff_get?.2 absent]

theorem get?_modify_self (keeps : ∀ item, (change item).name = item.name) (list : AttributeList)
    (name : Text) : (list.modify name change).get? name = (list.get? name).map change := by
  cases found : list.get? name with
  | none => rw [modify_eq_self found, found, Option.map_none]
  | some item =>
    obtain ⟨before, after, rfl, first⟩ := split_of_get? found
    have changed : FirstNamed name before (change item) :=
      ⟨(keeps item).trans first.isNamed, first.first⟩
    rw [first.modify, changed.get?, Option.map_some]

theorem getAll_modify_ne (keeps : ∀ item, (change item).name = item.name) (list : AttributeList)
    (differ : name ≠ other) : (list.modify name change).getAll other = list.getAll other := by
  cases found : list.get? name with
  | none => rw [modify_eq_self found]
  | some item =>
    obtain ⟨before, after, rfl, first⟩ := split_of_get? found
    simp [first.modify, getAll, keeps, first.isNamed, differ]

/-! ### Taking the first attribute of a name out -/

theorem FirstNamed.getAll (first : FirstNamed name before item) (after : AttributeList) :
    AttributeList.getAll (before ++ .attr item :: after) name =
      item :: AttributeList.getAll (before ++ after) name := by
  have absent : before.getAll name = [] :=
    get?_eq_none_iff.1 (find?_eq_none_iff_get?.1 first.find?_before)
  rw [getAll_append, getAll_append, absent]
  simp [AttributeList.getAll, first.isNamed]

theorem FirstNamed.getAll_ne (first : FirstNamed name before item) (after : AttributeList)
    (differ : name ≠ other) :
    AttributeList.getAll (before ++ .attr item :: after) other =
      AttributeList.getAll (before ++ after) other := by
  simp [AttributeList.getAll, first.isNamed, differ]

/-! ### Closing a gap -/

theorem compact_append {a b : AttributeList} :
    Compact (a ++ b) ↔ Compact a ∧ Compact b ∧
      ∀ x ∈ a.getLast?, ∀ y ∈ b.head?, ¬(x.isBlank = true ∧ y.isBlank = true) :=
  List.isChain_append

theorem compact_cons {token : Token} :
    Compact (token :: list) ↔
      (∀ next ∈ list.head?, ¬(token.isBlank = true ∧ next.isBlank = true)) ∧ Compact list :=
  List.isChain_cons

theorem Compact.parts (compact : Compact list) (index : Nat) :
    Compact (list.take index) ∧ Compact (list.drop index) := by
  rw [← List.take_append_drop index list] at compact
  obtain ⟨ahead, behind, -⟩ := compact_append.1 compact
  exact ⟨ahead, behind⟩

theorem collapseBlankAt_concat (front : AttributeList) (last : Token) (after : AttributeList) :
    collapseBlankAt (front ++ last :: after) (front.length + 1) =
      if last.isBlank && after.head?.all Token.isBlank then front ++ after
      else front ++ last :: after := by
  have next : (front ++ last :: after)[front.length + 1]? = after.head? := by
    simp [List.getElem?_append_right, List.head?_eq_getElem?]
  simp [collapseBlankAt, next, eraseIdx_split]

/-- Closing the gap at an index takes away the run of white space before it if white space or nothing
is behind it. Else all stays, and there is no white space on one of the sides. -/
theorem collapseBlankAt_cases (list : AttributeList) (index : Nat) :
    (list.collapseBlankAt index = list ∧
      ∀ x ∈ (list.take index).getLast?, ∀ y ∈ (list.drop index).head?,
        ¬(x.isBlank = true ∧ y.isBlank = true)) ∨
    ∃ front run, list.take index = front ++ [.blank run] ∧
      (∀ next ∈ (list.drop index).head?, next.isBlank = true) ∧
      list.collapseBlankAt index = front ++ list.drop index := by
  rcases Nat.lt_or_ge list.length index with beyond | within
  · exact .inl ⟨by simp [collapseBlankAt, beyond], by simp [List.drop_of_length_le beyond.le]⟩
  rcases List.eq_nil_or_concat (list.take index) with start | ⟨front, last, ahead⟩
  · have none : index = 0 ∨ list = [] := List.take_eq_nil_iff.1 start
    refine .inl ⟨?_, by simp [start]⟩
    rcases none with rfl | rfl <;> simp [collapseBlankAt]
  rw [List.concat_eq_append] at ahead
  have whole : list = front ++ last :: list.drop index := by
    rw [List.append_cons, ← ahead, List.take_append_drop]
  have length : index = front.length + 1 := by
    have sizes := congrArg List.length ahead
    rw [List.length_take, Nat.min_eq_left within] at sizes
    simpa using sizes
  have collapsed := collapseBlankAt_concat front last (list.drop index)
  rw [← whole, ← length] at collapsed
  rw [collapsed, ahead, List.getLast?_concat]
  split
  · rename_i gap
    obtain ⟨blank, blanks⟩ := Bool.and_eq_true_iff.1 gap
    cases last with
    | blank run => exact .inr ⟨front, run, rfl, (Option.all_eq_true _ _).1 blanks, rfl⟩
    | attr item | slash => cases blank
  · rename_i noGap
    refine .inl ⟨rfl, fun x atEnd y atStart blanks => noGap ?_⟩
    obtain rfl := Option.some.inj atEnd
    rw [Option.mem_def.1 atStart]
    simp [blanks]

/-- Closing the gap keeps what is behind it and all but white space of what is before it. -/
theorem collapseBlankAt_eq (list : AttributeList) (index : Nat) :
    ∃ front, list.collapseBlankAt index = front ++ list.drop index ∧
      front.ink = ink (list.take index) ∧
      (Compact (list.take index) → Compact (list.drop index) →
        Compact (list.collapseBlankAt index)) := by
  rcases collapseBlankAt_cases list index with ⟨same, noGap⟩ | ⟨front, run, ahead, -, collapsed⟩
  · refine ⟨list.take index, by rw [same, List.take_append_drop], rfl, fun front behind => ?_⟩
    rw [same, ← List.take_append_drop index list]
    exact compact_append.2 ⟨front, behind, noGap⟩
  · refine ⟨front, collapsed, by simp [ahead, ink, Token.isBlank], fun compact behind => ?_⟩
    -- The run before the gap goes, so the token before that run, which is no white space, is next.
    rw [ahead] at compact
    obtain ⟨front, -, seam⟩ := compact_append.1 compact
    rw [collapsed]
    refine compact_append.2 ⟨front, behind, fun x atEnd y _ blanks => ?_⟩
    exact seam x atEnd (.blank run) rfl ⟨blanks.1, rfl⟩

theorem collapseBlankAt_split (before after : AttributeList) :
    ∃ front, collapseBlankAt (before ++ after) before.length = front ++ after ∧
      front.ink = before.ink ∧
      (Compact before → Compact after → Compact (front ++ after)) := by
  obtain ⟨front, collapsed, same, compact⟩ := collapseBlankAt_eq (before ++ after) before.length
  rw [List.drop_left] at collapsed compact
  rw [List.take_left] at same compact
  exact ⟨front, collapsed, same, collapsed ▸ compact⟩

theorem ink_collapseBlankAt (before after : AttributeList) :
    ink (collapseBlankAt (before ++ after) before.length) = ink (before ++ after) := by
  obtain ⟨front, collapsed, same, -⟩ := collapseBlankAt_split before after
  rw [collapsed, ink_append, same, ink_append]

/-! ### Putting attributes in -/

theorem ink_gapBeside (beside : Option Token) : ink (gapBeside beside) = [] := by
  unfold gapBeside
  split <;> rfl

@[simp] theorem spaced_nil : spaced [] = [] := rfl

@[simp] theorem spaced_singleton (item : Attribute) : spaced [item] = [.attr item] := rfl

@[simp] theorem spaced_cons_cons (item other : Attribute) (rest : List Attribute) :
    spaced (item :: other :: rest) = .attr item :: Token.space :: spaced (other :: rest) := rfl

theorem ink_spaced (attrs : List Attribute) : ink (spaced attrs) = attrs.map Token.attr := by
  induction attrs with
  | nil => rfl
  | cons item rest ih =>
    cases rest with
    | nil => rfl
    | cons other rest => rw [spaced_cons_cons, ink_attr, ink_space, ih, ← List.map_cons]

theorem getAll_spaced (attrs : List Attribute) (name : Text) :
    (spaced attrs).getAll name = attrs.filter (·.name == name) := by
  have mapped : attributes (attrs.map Token.attr) = attrs := by
    rw [attributes, List.filterMap_map]
    exact List.filterMap_some
  rw [getAll, ← attributes_ink, ink_spaced, mapped]

theorem head?_spaced (attrs : List Attribute) :
    (spaced attrs).head? = attrs.head?.map Token.attr := by
  match attrs with
  | [] | [_] | _ :: _ :: _ => rfl

theorem getLast?_spaced (attrs : List Attribute) :
    (spaced attrs).getLast? = attrs.getLast?.map Token.attr := by
  induction attrs with
  | nil => rfl
  | cons item rest ih =>
    cases rest with
    | nil => rfl
    | cons other rest =>
      rw [spaced_cons_cons, List.getLast?_cons_cons, List.getLast?_cons, ih,
        List.getLast?_cons_cons]
      simp [List.getLast?_cons]

theorem insertAt_eq (list : AttributeList) (index : Nat) {attrs : List Attribute}
    (some : attrs ≠ []) :
    list.insertAt index attrs =
      (list.take index ++ gapBeside (list.take index).getLast?) ++ spaced attrs ++
        (gapBeside (list.drop index).head? ++ list.drop index) := by
  simp [insertAt, some, spaced]

theorem apart_before_gap :
    ∀ x ∈ (before ++ gapBeside before.getLast?).getLast?, x.isAttribute = false := by
  intro x atEnd
  rcases List.eq_nil_or_concat before with rfl | ⟨front, last, rfl⟩
  · cases atEnd
  · cases last with
    | attr item | blank run | slash =>
      obtain rfl : _ = x := by simpa [gapBeside] using atEnd
      rfl

theorem apart_gap_after :
    ∀ y ∈ (gapBeside after.head? ++ after).head?, y.isAttribute = false := by
  intro y atStart
  cases after with
  | nil => cases atStart
  | cons first rest =>
    cases first with
    | attr item | blank run | slash =>
      obtain rfl : _ = y := by simpa [gapBeside] using atStart
      rfl

theorem compact_before_gap (compact : Compact before) :
    Compact (before ++ gapBeside before.getLast?) := by
  refine compact_append.2 ⟨compact, ?_, ?_⟩
  · unfold gapBeside
    split <;> simp [Compact]
  · intro x atEnd y atStart blanks
    rw [Option.mem_def.1 atEnd] at atStart
    cases x with
    | blank run | slash => simp [gapBeside] at atStart
    | attr item => simp [Token.isBlank] at blanks

theorem compact_gap_after (compact : Compact after) :
    Compact (gapBeside after.head? ++ after) := by
  cases after with
  | nil => exact compact
  | cons first rest =>
    cases first with
    | attr item => exact List.isChain_cons_cons.2 ⟨by simp [Token.isBlank], compact⟩
    | blank run | slash => exact compact

theorem compact_spaced (attrs : List Attribute) : Compact (spaced attrs) := by
  induction attrs with
  | nil => exact List.isChain_nil
  | cons item rest ih =>
    cases rest with
    | nil => exact List.isChain_singleton _
    | cons other rest =>
      have first : (spaced (other :: rest)).head? = some (.attr other) := head?_spaced _
      refine compact_cons.2 ⟨by simp, compact_cons.2 ⟨fun next atStart => ?_, ih⟩⟩
      obtain rfl := Option.some.inj (first.symm.trans atStart)
      simp

theorem compact_insertAt {index : Nat} (ahead : Compact (list.take index))
    (behind : Compact (list.drop index)) {attrs : List Attribute} (some : attrs ≠ []) :
    Compact (list.insertAt index attrs) := by
  rw [insertAt_eq _ _ some]
  refine compact_append.2 ⟨compact_append.2 ⟨compact_before_gap ahead, compact_spaced attrs, ?_⟩,
    compact_gap_after behind, ?_⟩
  · intro x _ y atStart blanks
    obtain ⟨item, -, rfl⟩ := Option.map_eq_some_iff.1 ((head?_spaced attrs).symm.trans atStart)
    simp at blanks
  · intro x atEnd y _ blanks
    have last : (spaced attrs).getLast? = Option.some x := by
      simpa [List.getLast?_append, getLast?_spaced, some] using atEnd
    obtain ⟨item, -, rfl⟩ := Option.map_eq_some_iff.1 ((getLast?_spaced attrs).symm.trans last)
    simp at blanks

/-! ### Keeping attributes apart -/

theorem separate_cons (token : Token) (rest : AttributeList) :
    separate (token :: rest) =
      if token.isAttribute && rest.head?.any Token.isAttribute then
        token :: Token.space :: rest.separate
      else token :: rest.separate := by
  match token, rest with
  | .attr _, .attr _ :: _ => rfl
  | .attr _, [] | .attr _, .blank _ :: _ | .attr _, .slash :: _ =>
    simp [separate, Token.isAttribute, Token.attr?]
  | .blank _, _ | .slash, _ => simp [separate, Token.isAttribute, Token.attr?]

theorem ink_separate (list : AttributeList) : ink list.separate = ink list := by
  fun_induction separate list with
  | case1 a b rest ih => rw [ink_attr, ink_space, ih, ink_attr _ (_ :: _)]
  | case2 token rest _ ih => rw [ink_cons, ink_cons, ih]
  | case3 => rfl

theorem head?_separate (list : AttributeList) : list.separate.head? = list.head? := by
  cases list with
  | nil => rfl
  | cons token rest =>
    rw [separate_cons]
    split <;> rfl

theorem compact_separate (compact : Compact list) : Compact list.separate := by
  induction list with
  | nil => exact compact
  | cons token rest ih =>
    obtain ⟨next, onward⟩ := compact_cons.1 compact
    rw [separate_cons]
    split
    · rename_i touch
      obtain ⟨isAttribute, following⟩ := Bool.and_eq_true_iff.1 touch
      refine compact_cons.2 ⟨?_, compact_cons.2 ⟨?_, ih onward⟩⟩
      · simp [Token.isBlank_of_isAttribute isAttribute]
      · rw [head?_separate]
        intro next atStart blanks
        rw [atStart] at following
        simp [Token.isBlank_of_isAttribute following] at blanks
    · exact compact_cons.2 ⟨by rwa [head?_separate], ih onward⟩

/-- Two parts whose ends do not touch are kept apart one by one. -/
theorem separate_append {a b : AttributeList}
    (apart : ∀ x ∈ a.getLast?, ∀ y ∈ b.head?, x.isAttribute = true → y.isAttribute = false) :
    separate (a ++ b) = a.separate ++ b.separate := by
  induction a with
  | nil => rfl
  | cons token rest ih =>
    rw [List.cons_append, separate_cons, separate_cons token]
    cases rest with
    | nil =>
      have untouched : (token.isAttribute && b.head?.any Token.isAttribute) = false := by
        cases first : b.head? with
        | none => simp
        | some next => simpa using apart token rfl next first
      simp [untouched, separate]
    | cons next rest =>
      have sameHead : (next :: rest ++ b).head? = (next :: rest).head? := rfl
      rw [ih fun x atEnd => apart x (by rwa [List.getLast?_cons_cons]), sameHead]
      split <;> rfl

theorem separate_spaced (attrs : List Attribute) : (spaced attrs).separate = spaced attrs := by
  induction attrs with
  | nil => rfl
  | cons item rest ih =>
    cases rest with
    | nil => rfl
    | cons other rest => simp [separate_cons, Token.isAttribute, Token.attr?, Token.space, ih]

/-- Keeping apart what stands before a place never reaches past it. -/
theorem separate_split (a b : AttributeList) :
    ∃ front, separate (a ++ b) = front ++ b.separate ∧ front.ink = a.ink := by
  induction a with
  | nil => exact ⟨[], rfl, rfl⟩
  | cons first rest ih =>
    obtain ⟨front, separated, same⟩ := ih
    rw [List.cons_append, separate_cons, separated]
    split
    · exact ⟨first :: Token.space :: front, rfl, by simp [ink_cons, same]⟩
    · exact ⟨first :: front, rfl, by simp [ink_cons, same]⟩

/-- Attributes put in stay together when attributes are kept apart. -/
theorem separate_insertAt (list : AttributeList) (index : Nat) {attrs : List Attribute}
    (some : attrs ≠ []) :
    ∃ front back, (list.insertAt index attrs).separate = front ++ spaced attrs ++ back ∧
      front.ink = ink (list.take index) ∧ back.ink = ink (list.drop index) := by
  refine ⟨separate (list.take index ++ gapBeside (list.take index).getLast?),
    separate (gapBeside (list.drop index).head? ++ list.drop index), ?_, ?_, ?_⟩
  · rw [insertAt_eq _ _ some, separate_append, separate_append, separate_spaced]
    · intro x atEnd _ _ isAttribute
      rw [apart_before_gap x atEnd] at isAttribute
      cases isAttribute
    · exact fun _ _ y atStart _ => apart_gap_after y atStart
  · simp [ink_separate, ink_gapBeside]
  · simp [ink_separate, ink_gapBeside]

end
end AttributeList
end Retag
