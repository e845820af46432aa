import Retag.Proofs.Tag.Separation
import Retag.Tag.Renaming

/-! Open and closing tags in one sequence. The pairing reads two lists side by side; woven together
in the order of the source they are the brackets that it matches, and the tags that a renaming
exchanges are a nested subsequence of them. Pairing such a sequence once more loses nothing. -/
namespace Retag.Tag

inductive Mark where
  | opens (site : TagSite)
  | closes (tag : ClosingTag)
deriving DecidableEq

namespace Mark

def start : Mark → Nat
  | .opens site => site.start
  | .closes tag => tag.start

def stop : Mark → Nat
  | .opens site => site.stop
  | .closes tag => tag.stop

def site? : Mark → Option TagSite
  | .opens site => some site
  | .closes _ => none

def closing? : Mark → Option ClosingTag
  | .opens _ => none
  | .closes tag => some tag

def openTag? : Mark → Option OpenTag
  | .opens site => bounded? site
  | .closes _ => none

end Mark

/-- The marks in the order of their starts, which is that of the pairing: an open tag comes first if
it starts before the closing tag. -/
def weave : List TagSite → List ClosingTag → List Mark
  | sites, [] => sites.map .opens
  | [], closing :: closings => .closes closing :: weave [] closings
  | site :: sites, closing :: closings =>
    if site.start < closing.start then .opens site :: weave sites (closing :: closings)
    else .closes closing :: weave (site :: sites) closings
termination_by sites closings => sites.length + closings.length

/-- The marks that are exchanged by a renaming: open tags that end, and the closing tags that are
paired with one. -/
def exchanged (spanEnd : Nat) (stack : List Bool) : List Mark → List Mark
  | [] => []
  | .opens site :: marks =>
    let later := exchanged site.stop (openElements stack [site]) marks
    match site with
    | .bounded _ => .opens site :: later
    | .unterminated _ => later
  | .closes closing :: marks =>
    if closing.start < spanEnd then exchanged spanEnd stack marks
    else if stack.head? = some true then .closes closing :: exchanged spanEnd stack.tail marks
    else exchanged spanEnd stack.tail marks

/-- All open tags end, and each closing tag closes one of them or of the `depth` elements that are
open at the start. -/
inductive Nested : (depth : Nat) → List Mark → Prop where
  | nil {depth : Nat} : Nested depth []
  | opens {depth : Nat} {tag : OpenTag} {marks : List Mark} :
      Nested (if tag.selfClosing then depth else depth + 1) marks →
      Nested depth (.opens (.bounded tag) :: marks)
  | closes {depth : Nat} {closing : ClosingTag} {marks : List Mark} :
      Nested depth marks → Nested (depth + 1) (.closes closing :: marks)

section
variable {sites : List TagSite} {closings : List ClosingTag} {marks : List Mark}
  {spanEnd depth : Nat} {stack : List Bool}

theorem sites_weave (sites : List TagSite) (closings : List ClosingTag) :
    (weave sites closings).filterMap Mark.site? = sites := by
  fun_induction weave sites closings with
  | case1 sites => simp [List.filterMap_map, Function.comp_def, Mark.site?]
  | case2 closing closings ih => exact ih
  | case3 site sites closing closings before ih => exact congrArg (site :: ·) ih
  | case4 site sites closing closings behind ih => exact ih

theorem closings_weave (sites : List TagSite) (closings : List ClosingTag) :
    (weave sites closings).filterMap Mark.closing? = closings := by
  fun_induction weave sites closings with
  | case1 sites => simp [Mark.closing?]
  | case2 closing closings ih => exact congrArg (closing :: ·) ih
  | case3 site sites closing closings before ih => exact ih
  | case4 site sites closing closings behind ih => exact congrArg (closing :: ·) ih

theorem mem_weave {mark : Mark} (member : mark ∈ weave sites closings) :
    (∃ site ∈ sites, mark = .opens site) ∨ ∃ closing ∈ closings, mark = .closes closing := by
  cases mark with
  | opens site =>
    have among : site ∈ (weave sites closings).filterMap Mark.site? :=
      List.mem_filterMap.2 ⟨_, member, rfl⟩
    rw [sites_weave] at among
    exact .inl ⟨site, among, rfl⟩
  | closes closing =>
    have among : closing ∈ (weave sites closings).filterMap Mark.closing? :=
      List.mem_filterMap.2 ⟨_, member, rfl⟩
    rw [closings_weave] at among
    exact .inr ⟨closing, among, rfl⟩

/-- Two lists in order whose tags do not start together give a list in order. -/
theorem weave_ordered (sitesOrdered : sites.Pairwise fun a b => a.start < b.start)
    (closingsOrdered : closings.Pairwise fun a b => a.start < b.start)
    (apart : ∀ site ∈ sites, ∀ closing ∈ closings, site.start ≠ closing.start) :
    (weave sites closings).Pairwise fun a b => a.start < b.start := by
  fun_induction weave sites closings with
  | case1 sites => exact List.pairwise_map.2 sitesOrdered
  | case2 closing closings ih =>
    obtain ⟨first, onward⟩ := List.pairwise_cons.1 closingsOrdered
    refine List.pairwise_cons.2 ⟨?_, ih .nil onward (by simp)⟩
    intro mark member
    rcases mem_weave member with ⟨site, none, -⟩ | ⟨later, among, rfl⟩
    · cases none
    · exact first later among
  | case3 site sites closing closings before ih =>
    obtain ⟨first, onward⟩ := List.pairwise_cons.1 sitesOrdered
    refine List.pairwise_cons.2 ⟨?_, ih onward closingsOrdered ?_⟩
    · intro mark member
      rcases mem_weave member with ⟨later, among, rfl⟩ | ⟨later, among, rfl⟩
      · exact first later among
      · rcases List.mem_cons.1 among with rfl | behind
        · exact before
        · exact Nat.lt_trans before ((List.pairwise_cons.1 closingsOrdered).1 later behind)
    · intro later among
      exact apart later (List.mem_cons_of_mem _ among)
  | case4 site sites closing closings behind ih =>
    obtain ⟨first, onward⟩ := List.pairwise_cons.1 closingsOrdered
    have next : closing.start < site.start := by
      have differ := apart site List.mem_cons_self closing List.mem_cons_self
      omega
    refine List.pairwise_cons.2 ⟨?_, ih sitesOrdered onward ?_⟩
    · intro mark member
      rcases mem_weave member with ⟨later, among, rfl⟩ | ⟨later, among, rfl⟩
      · rcases List.mem_cons.1 among with rfl | further
        · exact next
        · exact Nat.lt_trans next ((List.pairwise_cons.1 sitesOrdered).1 later further)
      · exact first later among
    · intro other among later member
      exact apart other among later (List.mem_cons_of_mem _ member)

/-- Marks in order are woven from their open and closing tags. -/
theorem weave_marks (ordered : marks.Pairwise fun a b => a.start < b.start) :
    weave (marks.filterMap Mark.site?) (marks.filterMap Mark.closing?) = marks := by
  induction marks with
  | nil => simp [weave]
  | cons mark marks ih =>
    obtain ⟨first, onward⟩ := List.pairwise_cons.1 ordered
    have inner := ih onward
    cases mark with
    | opens site =>
      simp only [Mark.site?, Mark.closing?, List.filterMap_cons]
      cases closings : marks.filterMap Mark.closing? with
      | nil =>
        rw [closings, weave] at inner
        rw [weave, List.map_cons, inner]
      | cons closing closings' =>
        have among : closing ∈ marks.filterMap Mark.closing? := by simp [closings]
        obtain ⟨other, member, same⟩ := List.mem_filterMap.1 among
        have later := first other member
        cases other with
        | opens => cases same
        | closes tag =>
          obtain rfl := Option.some.inj same
          have before : site.start < tag.start := later
          rw [weave, if_pos before, ← closings, inner]
    | closes closing =>
      simp only [Mark.site?, Mark.closing?, List.filterMap_cons]
      cases sites : marks.filterMap Mark.site? with
      | nil =>
        rw [weave, ← sites, inner]
      | cons site sites' =>
        have among : site ∈ marks.filterMap Mark.site? := by simp [sites]
        obtain ⟨other, member, same⟩ := List.mem_filterMap.1 among
        have later := first other member
        cases other with
        | closes => cases same
        | opens found =>
          obtain rfl := Option.some.inj same
          have behind : ¬found.start < closing.start := Nat.lt_asymm later
          rw [weave, if_neg behind, ← sites, inner]

/-- An open tag before the next closing tag is passed first. -/
theorem pairedFrom_pass {site : TagSite} {closing : ClosingTag}
    (before : site.start < closing.start) :
    pairedFrom (site :: sites) spanEnd stack (closing :: closings) =
      pairedFrom sites site.stop (openElements stack [site]) (closing :: closings) := by
  have front : (site :: sites).takeWhile (·.start < closing.start) =
      site :: sites.takeWhile (·.start < closing.start) :=
    List.takeWhile_cons_of_pos (by simpa using before)
  have ahead : (site :: sites).dropWhile (·.start < closing.start) =
      sites.dropWhile (·.start < closing.start) :=
    List.dropWhile_cons_of_pos (by simpa using before)
  have span : ((site :: sites.takeWhile (·.start < closing.start)).getLast?.map (·.stop)).getD
      spanEnd = ((sites.takeWhile (·.start < closing.start)).getLast?.map (·.stop)).getD
        site.stop := by
    cases sites.takeWhile (·.start < closing.start) with
    | nil => rfl
    | cons next more =>
      rw [List.getLast?_cons_cons, List.getLast?_cons]
      rfl
  have opened : openElements stack (site :: sites.takeWhile (·.start < closing.start)) =
      openElements (openElements stack [site]) (sites.takeWhile (·.start < closing.start)) := rfl
  simp only [pairedFrom, front, ahead, span, opened]

/-- A closing tag before all open tags is decided by the stack. -/
theorem pairedFrom_close {closing : ClosingTag}
    (behind : ∀ site ∈ sites.head?, ¬site.start < closing.start) :
    pairedFrom sites spanEnd stack (closing :: closings) =
      if closing.start < spanEnd then pairedFrom sites spanEnd stack closings
      else if stack.head? = some true then closing :: pairedFrom sites spanEnd stack.tail closings
      else pairedFrom sites spanEnd stack.tail closings := by
  have front : sites.takeWhile (·.start < closing.start) = [] := by
    cases sites with
    | nil => rfl
    | cons site sites => exact List.takeWhile_cons_of_neg (by simpa using behind site rfl)
  have ahead : sites.dropWhile (·.start < closing.start) = sites := by
    cases sites with
    | nil => rfl
    | cons site sites => exact List.dropWhile_cons_of_neg (by simpa using behind site rfl)
  have opened : openElements stack [] = stack := rfl
  rw [pairedFrom]
  simp only [front, ahead, opened, List.getLast?_nil, Option.map_none, Option.getD_none]
  congr 1
  split
  · rfl
  · rename_i other
    rw [if_neg]
    intro top
    obtain ⟨rest, rfl⟩ := List.head?_eq_some_iff.1 top
    exact other rest rfl

/-- An open tag adds no closing tag to the pairing. -/
theorem closings_exchanged_opens (site : TagSite) (marks : List Mark) :
    (exchanged spanEnd stack (.opens site :: marks)).filterMap Mark.closing? =
      (exchanged site.stop (openElements stack [site]) marks).filterMap Mark.closing? := by
  cases site <;> rfl

/-- What is paired is what the woven sequence exchanges. -/
theorem pairedFrom_weave (sites : List TagSite) (closings : List ClosingTag) (spanEnd : Nat)
    (stack : List Bool) :
    pairedFrom sites spanEnd stack closings =
      (exchanged spanEnd stack (weave sites closings)).filterMap Mark.closing? := by
  fun_induction weave sites closings generalizing spanEnd stack with
  | case1 sites =>
    induction sites generalizing spanEnd stack with
    | nil => rfl
    | cons site sites ih =>
      rw [List.map_cons, closings_exchanged_opens, ← ih]
      rfl
  | case2 closing closings ih =>
    rw [pairedFrom_close (by simp), exchanged]
    split
    · exact ih _ _
    · split
      · exact congrArg (closing :: ·) (ih _ _)
      · exact ih _ _
  | case3 site sites closing closings before ih =>
    rw [pairedFrom_pass before, closings_exchanged_opens]
    exact ih _ _
  | case4 site sites closing closings behind ih =>
    rw [pairedFrom_close (by simpa using behind), exchanged]
    split
    · exact ih _ _
    · split
      · exact congrArg (closing :: ·) (ih _ _)
      · exact ih _ _

theorem exchanged_sublist (marks : List Mark) :
    (exchanged spanEnd stack marks).Sublist marks := by
  fun_induction exchanged spanEnd stack marks with
  | case1 => exact List.Sublist.refl _
  | case2 spanEnd stack marks tag later ih => exact ih.cons_cons _
  | case3 spanEnd stack marks start later ih => exact ih.cons _
  | case4 spanEnd stack closing marks inside ih => exact ih.cons _
  | case5 spanEnd stack closing marks outside top ih => exact ih.cons_cons _
  | case6 spanEnd stack closing marks outside top ih => exact ih.cons _

/-- Every open tag that ends is exchanged. -/
theorem openTags_exchanged (marks : List Mark) :
    (exchanged spanEnd stack marks).filterMap Mark.openTag? = marks.filterMap Mark.openTag? := by
  fun_induction exchanged spanEnd stack marks with
  | case1 => rfl
  | case2 spanEnd stack marks tag later ih => exact congrArg (tag :: ·) ih
  | case3 spanEnd stack marks start later ih => exact ih
  | case4 spanEnd stack closing marks inside ih => exact ih
  | case5 spanEnd stack closing marks outside top ih => exact ih
  | case6 spanEnd stack closing marks outside top ih => exact ih

theorem openTags_eq (marks : List Mark) :
    marks.filterMap Mark.openTag? = (marks.filterMap Mark.site?).filterMap bounded? := by
  rw [List.filterMap_filterMap]
  congr 1
  funext mark
  cases mark with
  | opens site => cases site <;> rfl
  | closes closing => rfl

/-- The elements that are open with a tag that ends carry the invariant: a closing tag is exchanged
only if the last element on the stack is one of them. -/
theorem nested_exchanged (spanEnd : Nat) (stack : List Bool) (marks : List Mark) :
    Nested (stack.count true) (exchanged spanEnd stack marks) := by
  fun_induction exchanged spanEnd stack marks with
  | case1 => exact .nil
  | case2 spanEnd stack marks tag later ih =>
    have counted : (openElements stack [.bounded tag]).count true =
        if tag.selfClosing then stack.count true else stack.count true + 1 := by
      cases closed : tag.selfClosing <;> simp [openElements, closed]
    rw [counted] at ih
    exact ih.opens
  | case3 spanEnd stack marks start later ih =>
    have opened : openElements stack [.unterminated start] = false :: stack := rfl
    rw [opened, List.count_cons_of_ne (by decide)] at ih
    exact ih
  | case4 spanEnd stack closing marks inside ih => exact ih
  | case5 spanEnd stack closing marks outside top ih =>
    obtain ⟨rest, rfl⟩ := List.head?_eq_some_iff.1 top
    rw [List.count_cons_self]
    exact ih.closes
  | case6 spanEnd stack closing marks outside top ih =>
    cases stack with
    | nil => exact ih
    | cons first rest =>
      have closed : first ≠ true := fun same => top (congrArg some same)
      rwa [List.count_cons_of_ne closed]

/-- Nested marks that stand apart are exchanged as they are. -/
theorem exchanged_nested (nested : Nested depth marks)
    (apart : marks.Pairwise fun a b => a.stop ≤ b.start)
    (after : ∀ mark ∈ marks, spanEnd ≤ mark.start) :
    exchanged spanEnd (List.replicate depth true) marks = marks := by
  induction nested generalizing spanEnd with
  | nil => rfl
  | @opens depth tag marks nested ih =>
    obtain ⟨beyond, apart⟩ := List.pairwise_cons.1 apart
    have opened : openElements (List.replicate depth true) [.bounded tag] =
        List.replicate (if tag.selfClosing then depth else depth + 1) true := by
      cases closed : tag.selfClosing <;> simp [openElements, closed, List.replicate_succ]
    have inner : exchanged tag.stop
        (List.replicate (if tag.selfClosing then depth else depth + 1) true) marks = marks :=
      ih apart beyond
    rw [exchanged, opened]
    exact congrArg _ inner
  | @closes depth closing marks nested ih =>
    obtain ⟨-, apart⟩ := List.pairwise_cons.1 apart
    have outside : ¬closing.start < spanEnd :=
      Nat.not_lt.2 (after _ List.mem_cons_self)
    have inner : exchanged spanEnd (List.replicate depth true) marks = marks :=
      ih apart fun mark member => after mark (List.mem_cons_of_mem _ member)
    have top : (List.replicate (depth + 1) true).head? = some true := rfl
    rw [exchanged, if_neg outside, if_pos top]
    exact congrArg _ inner

/-- All closing tags of a nested sequence are paired. -/
theorem paired_nested (nested : Nested 0 marks)
    (ordered : marks.Pairwise fun a b => a.start < b.start)
    (apart : marks.Pairwise fun a b => a.stop ≤ b.start) :
    paired (marks.filterMap Mark.site?) (marks.filterMap Mark.closing?) =
      marks.filterMap Mark.closing? := by
  have again : exchanged 0 [] marks = marks :=
    exchanged_nested nested apart fun _ _ => Nat.zero_le _
  rw [paired, pairedFrom_weave, weave_marks ordered, again]

/-- A nested sequence consists of its open and its closing tags. -/
theorem Nested.perm (nested : Nested depth marks) :
    marks.Perm ((marks.filterMap Mark.openTag?).map (fun tag => .opens (.bounded tag)) ++
      (marks.filterMap Mark.closing?).map .closes) := by
  induction nested with
  | nil => exact .nil
  | opens _ ih => exact ih.cons _
  | closes _ ih => exact (ih.cons _).trans List.perm_middle.symm

theorem Nested.bounded {site : TagSite} (nested : Nested depth marks)
    (member : .opens site ∈ marks) : ∃ tag, site = .bounded tag := by
  induction nested with
  | nil => cases member
  | opens _ ih =>
    rcases List.mem_cons.1 member with same | later
    · exact ⟨_, Mark.opens.inj same⟩
    · exact ih later
  | closes _ ih =>
    rcases List.mem_cons.1 member with same | later
    · cases same
    · exact ih later

/-- Nested marks that stand apart are in order, since none of them is empty. -/
theorem Nested.ordered (nested : Nested depth marks)
    (apart : marks.Pairwise fun a b => a.stop ≤ b.start) :
    marks.Pairwise fun a b => a.start < b.start := by
  refine apart.imp_of_mem fun {a b} member _ apart => Nat.lt_of_lt_of_le ?_ apart
  cases a with
  | opens site =>
    obtain ⟨tag, rfl⟩ := nested.bounded member
    have size := size_openTag tag
    have filled := Text.size_pos (show tag.text ≠ [] by simp [OpenTag.text])
    simp only [Mark.start, Mark.stop, start_bounded, stop_bounded]
    omega
  | closes closing =>
    exact Nat.lt_add_of_pos_right (Text.size_pos (by simp [ClosingTag.text]))

end
end Retag.Tag
