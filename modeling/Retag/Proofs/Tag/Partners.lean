import Mathlib.Data.Set.Card
import Retag.Proofs.Tag.Nesting
import Retag.Proofs.Tag.Renaming

/-! Which open tag a closing tag belongs to. Partners are stated as brackets are matched: all that
stands between the two is matched among itself. Main statement: a renaming takes exactly the closing
tags whose partner is a tag that ends. -/
namespace Retag.Tag

/-- Every open tag has its closing tag among the marks, and every closing tag its open tag. -/
inductive Matched : List Mark → Prop where
  | nil : Matched []
  | group {site : TagSite} {closing : ClosingTag} {inner rest : List Mark} :
      Matched inner → Matched rest → Matched (.opens site :: inner ++ .closes closing :: rest)

/-- The open tag stands before the closing tag, and what stands between them is matched. -/
def Partners (marks : List Mark) (site : TagSite) (closing : ClosingTag) : Prop :=
  ∃ before inner after,
    marks = before ++ .opens site :: inner ++ .closes closing :: after ∧ Matched inner

/-- Matches marks from left to right, with the open tags that wait for their partner on a stack. -/
def pairs (stack : List TagSite) : List Mark → List (TagSite × ClosingTag)
  | [] => []
  | .opens site :: marks => pairs (site :: stack) marks
  | .closes closing :: marks =>
    match stack with
    | [] => pairs [] marks
    | site :: stack => (site, closing) :: pairs stack marks

/-- The marks leave the open tags on the stack waiting, the last one first. What stands between two
of them is matched; below the first one anything may stand. -/
inductive Waiting : List TagSite → List Mark → Prop where
  | bottom {past : List Mark} : Waiting [] past
  | above {site : TagSite} {stack : List TagSite} {past inner : List Mark} :
      Waiting stack past → Matched inner → Waiting (site :: stack) (past ++ .opens site :: inner)

section
variable {marks : List Mark} {site : TagSite} {closing : ClosingTag} {stack : List TagSite}

theorem Matched.append {a b : List Mark} (first : Matched a) (second : Matched b) :
    Matched (a ++ b) := by
  induction first with
  | nil => exact second
  | group inner _ _ ih =>
    rw [List.append_assoc, List.cons_append]
    exact .group inner ih

theorem Waiting.append {past more : List Mark} (waiting : Waiting stack past)
    (matched : Matched more) : Waiting stack (past ++ more) := by
  cases waiting with
  | bottom => exact .bottom
  | above below inner =>
    rw [List.append_assoc, List.cons_append]
    exact .above below (inner.append matched)

/-- Passing an open tag and what is matched behind it, and then closing it, leaves the stack. -/
theorem Waiting.close {past : List Mark} (waiting : Waiting (site :: stack) past)
    (closing : ClosingTag) :
    Partners (past ++ [.closes closing]) site closing ∧
      Waiting stack (past ++ [.closes closing]) := by
  cases waiting with
  | @above _ _ past inner below matched =>
    refine ⟨⟨past, inner, [], rfl, matched⟩, ?_⟩
    rw [List.append_assoc]
    exact below.append (.group matched .nil)

theorem Partners.append (partners : Partners marks site closing) (more : List Mark) :
    Partners (marks ++ more) site closing := by
  obtain ⟨before, inner, after, rfl, matched⟩ := partners
  exact ⟨before, inner, after ++ more, by simp, matched⟩

/-- What the stack pairs are partners. The marks passed so far carry the invariant. -/
theorem partners_of_mem_pairs {past : List Mark} (waiting : Waiting stack past)
    (member : (site, closing) ∈ pairs stack marks) : Partners (past ++ marks) site closing := by
  induction marks generalizing stack past with
  | nil => cases member
  | cons mark marks ih =>
    rw [← List.singleton_append, ← List.append_assoc]
    cases mark with
    | opens next => exact ih (.above waiting .nil) member
    | closes next =>
      cases stack with
      | nil => exact ih .bottom member
      | cons top stack =>
        obtain ⟨partners, waiting⟩ := waiting.close next
        rcases List.mem_cons.1 member with same | later
        · obtain ⟨rfl, rfl⟩ := Prod.mk.inj same
          exact partners.append marks
        · exact ih waiting later

/-- Matched marks leave the stack as it is. -/
theorem pairs_matched {inner : List Mark} (matched : Matched inner) :
    ∃ found, ∀ stack rest, pairs stack (inner ++ rest) = found ++ pairs stack rest := by
  induction matched with
  | nil => exact ⟨[], fun _ _ => rfl⟩
  | @group site closing inner rest _ _ innerFound restFound =>
    obtain ⟨first, inside⟩ := innerFound
    obtain ⟨second, behind⟩ := restFound
    refine ⟨first ++ (site, closing) :: second, fun stack more => ?_⟩
    calc pairs stack (.opens site :: inner ++ .closes closing :: rest ++ more)
        = pairs (site :: stack) (inner ++ .closes closing :: (rest ++ more)) := by simp [pairs]
      _ = first ++ (site, closing) :: pairs stack (rest ++ more) := inside _ _
      _ = first ++ (site, closing) :: second ++ pairs stack more := by simp [behind]

/-- The pairs found in leading marks stay when more marks follow. -/
theorem pairs_append (stack : List TagSite) (before : List Mark) :
    ∃ found stack', ∀ rest, pairs stack (before ++ rest) = found ++ pairs stack' rest := by
  induction before generalizing stack with
  | nil => exact ⟨[], stack, fun _ => rfl⟩
  | cons mark before ih =>
    cases mark with
    | opens site => exact ih (site :: stack)
    | closes closing =>
      cases stack with
      | nil => exact ih []
      | cons top stack =>
        obtain ⟨found, stack', onward⟩ := ih stack
        exact ⟨(top, closing) :: found, stack', fun rest => congrArg _ (onward rest)⟩

theorem mem_pairs_iff : (site, closing) ∈ pairs [] marks ↔ Partners marks site closing := by
  constructor
  · intro member
    have bottom : Waiting [] [] := .bottom
    exact partners_of_mem_pairs bottom member
  · rintro ⟨before, inner, after, rfl, matched⟩
    obtain ⟨_, stack, passed⟩ := pairs_append [] before
    obtain ⟨_, inside⟩ := pairs_matched matched
    rw [List.append_assoc, List.cons_append, passed, pairs, inside]
    simp [pairs]

theorem closings_pairs_sublist (stack : List TagSite) (marks : List Mark) :
    ((pairs stack marks).map Prod.snd).Sublist (marks.filterMap Mark.closing?) := by
  induction marks generalizing stack with
  | nil => exact List.Sublist.refl _
  | cons mark marks ih =>
    cases mark with
    | opens site => exact ih (site :: stack)
    | closes closing =>
      cases stack with
      | nil => exact (ih []).cons _
      | cons top stack => exact (ih stack).cons_cons _

/-- Each open tag is taken from the stack at most once. -/
theorem sites_pairs_subperm (stack : List TagSite) (marks : List Mark) :
    ((pairs stack marks).map Prod.fst).Subperm (stack ++ marks.filterMap Mark.site?) := by
  induction marks generalizing stack with
  | nil => exact List.nil_subperm
  | cons mark marks ih =>
    cases mark with
    | opens site => exact (ih (site :: stack)).trans List.perm_middle.symm.subperm
    | closes closing =>
      cases stack with
      | nil => exact ih []
      | cons top stack => exact (List.subperm_cons top).2 (ih stack)

/-- Marks in order are different. -/
theorem nodup_of_ordered (ordered : marks.Pairwise fun a b => a.start < b.start) :
    (marks.filterMap Mark.site?).Nodup ∧ (marks.filterMap Mark.closing?).Nodup := by
  constructor <;> refine List.Pairwise.filterMap _ ?_ ordered
  · rintro (a | a) (b | b) before _ ⟨⟩ _ ⟨⟩ rfl
    exact Nat.lt_irrefl _ before
  · rintro (a | a) (b | b) before _ ⟨⟩ _ ⟨⟩ rfl
    exact Nat.lt_irrefl _ before

theorem Partners.site_unique {other : TagSite} (first : Partners marks site closing)
    (second : Partners marks other closing)
    (ordered : marks.Pairwise fun a b => a.start < b.start) : site = other := by
  have distinct := (nodup_of_ordered ordered).2.sublist (closings_pairs_sublist [] marks)
  exact congrArg Prod.fst
    (List.inj_on_of_nodup_map distinct (mem_pairs_iff.2 first) (mem_pairs_iff.2 second) rfl)

theorem Partners.closing_unique {other : ClosingTag} (first : Partners marks site closing)
    (second : Partners marks site other)
    (ordered : marks.Pairwise fun a b => a.start < b.start) : closing = other := by
  obtain ⟨_, perm, among⟩ := sites_pairs_subperm [] marks
  have distinct := perm.nodup_iff.1 ((nodup_of_ordered ordered).1.sublist among)
  exact congrArg Prod.snd
    (List.inj_on_of_nodup_map distinct (mem_pairs_iff.2 first) (mem_pairs_iff.2 second) rfl)

end

/-- Whether the offset lies in the range of one of the tags. A tag that never ends has none. -/
def covers (sites : List TagSite) (offset : Nat) : Bool :=
  sites.any fun site => decide (site.start ≤ offset) && decide (offset < site.stop)

/-- Whether the mark is a bracket: an open tag that does not close itself, or a closing tag that
does not start where `hidden` says. -/
def isBracket (hidden : Nat → Bool) : Mark → Bool
  | .opens (.bounded tag) => !tag.selfClosing
  | .opens (.unterminated _) => true
  | .closes closing => !hidden closing.start

/-- The closing tag of a pair whose open tag ends. -/
def renamed? (pair : TagSite × ClosingTag) : Option ClosingTag :=
  (bounded? pair.1).map fun _ => pair.2

/-- The pairing's stack keeps of each open tag only whether it ends. -/
def ends (stack : List TagSite) : List Bool := stack.map fun site => (bounded? site).isSome

theorem mem_sites_iff {marks : List Mark} {site : TagSite} :
    site ∈ marks.filterMap Mark.site? ↔ .opens site ∈ marks := by
  refine List.mem_filterMap.trans ⟨?_, fun member => ⟨_, member, rfl⟩⟩
  rintro ⟨mark, member, same⟩
  cases mark with
  | opens other => exact Option.some.inj same ▸ member
  | closes other => cases same

theorem mem_closings_iff {marks : List Mark} {closing : ClosingTag} :
    closing ∈ marks.filterMap Mark.closing? ↔ .closes closing ∈ marks := by
  refine List.mem_filterMap.trans ⟨?_, fun member => ⟨_, member, rfl⟩⟩
  rintro ⟨mark, member, same⟩
  cases mark with
  | opens other => cases same
  | closes other => exact Option.some.inj same ▸ member

/-- The end of the last open tag passed and the open tags ahead together say which closing tags are
hidden. -/
structure Spans (hidden : Nat → Bool) (spanEnd : Nat) (marks : List Mark) : Prop where
  ordered : marks.Pairwise fun a b => a.start < b.start
  apart : (marks.filterMap Mark.site?).Pairwise fun a b => a.stop ≤ b.start
  ahead : ∀ site, .opens site ∈ marks → spanEnd ≤ site.start
  hides : ∀ closing, .closes closing ∈ marks → hidden closing.start =
    (decide (closing.start < spanEnd) || covers (marks.filterMap Mark.site?) closing.start)

section
variable {marks : List Mark} {spanEnd : Nat} {hidden : Nat → Bool}

theorem Spans.opens {site : TagSite} (spans : Spans hidden spanEnd (.opens site :: marks)) :
    Spans hidden site.stop marks := by
  obtain ⟨later, ordered⟩ := List.pairwise_cons.1 spans.ordered
  obtain ⟨beyond, apart⟩ := List.pairwise_cons.1 spans.apart
  refine ⟨ordered, apart, fun other member => beyond other (mem_sites_iff.2 member), ?_⟩
  intro closing member
  have behind : site.start < closing.start := later _ member
  have reached : spanEnd ≤ site.start := spans.ahead site List.mem_cons_self
  have past : ¬closing.start < spanEnd := by omega
  rw [spans.hides closing (List.mem_cons_of_mem _ member)]
  simp [covers, Mark.site?, past, Nat.le_of_lt behind]

theorem Spans.closes {closing : ClosingTag}
    (spans : Spans hidden spanEnd (.closes closing :: marks)) :
    hidden closing.start = decide (closing.start < spanEnd) ∧ Spans hidden spanEnd marks := by
  obtain ⟨later, ordered⟩ := List.pairwise_cons.1 spans.ordered
  constructor
  · have clear : covers (marks.filterMap Mark.site?) closing.start = false := by
      refine List.any_eq_false.2 fun site member => ?_
      have behind : closing.start < site.start := later _ (mem_sites_iff.1 member)
      simp [Nat.not_le.2 behind]
    have sites : (Mark.closes closing :: marks).filterMap Mark.site? =
        marks.filterMap Mark.site? := rfl
    rw [spans.hides closing List.mem_cons_self, sites, clear, Bool.or_false]
  · exact ⟨ordered, spans.apart,
      fun site member => spans.ahead site (List.mem_cons_of_mem _ member),
      fun other member => spans.hides other (List.mem_cons_of_mem _ member)⟩

/-- What the pairing exchanges is what the stack pairs among the brackets. -/
theorem closings_exchanged (stack : List TagSite) (spans : Spans hidden spanEnd marks) :
    (exchanged spanEnd (ends stack) marks).filterMap Mark.closing? =
      (pairs stack (marks.filter (isBracket hidden))).filterMap renamed? := by
  induction marks generalizing spanEnd stack with
  | nil => rfl
  | cons mark marks ih =>
    cases mark with
    | opens site =>
      rw [closings_exchanged_opens]
      cases site with
      | bounded tag =>
        by_cases closes : tag.selfClosing = true
        · have passed : openElements (ends stack) [.bounded tag] = ends stack := by
            simp [openElements, closes]
          rw [List.filter_cons_of_neg (by simp [isBracket, closes]), passed]
          exact ih stack spans.opens
        · have opened :
              openElements (ends stack) [.bounded tag] = ends (.bounded tag :: stack) := by
            simp [openElements, closes, ends, bounded?]
          rw [List.filter_cons_of_pos (by simp [isBracket, closes]), opened, pairs]
          exact ih (.bounded tag :: stack) spans.opens
      | unterminated start =>
        rw [List.filter_cons_of_pos rfl, pairs]
        exact ih (.unterminated start :: stack) spans.opens
    | closes closing =>
      obtain ⟨here, spans⟩ := spans.closes
      rw [exchanged]
      by_cases inside : closing.start < spanEnd
      · rw [if_pos inside, List.filter_cons_of_neg (by simp [isBracket, here, inside])]
        exact ih stack spans
      · rw [if_neg inside, List.filter_cons_of_pos (by simp [isBracket, here, inside])]
        cases stack with
        | nil => exact ih [] spans
        | cons site stack =>
          cases site with
          | bounded tag => exact congrArg (closing :: ·) (ih stack spans)
          | unterminated start => exact ih stack spans

end

/-- The tags that are matched as brackets: open tags that do not close themselves, whether they end
or not, and closing tags that start in no open tag. -/
inductive Bracket (source name : Text) : Mark → Prop where
  | bounded {tag : OpenTag} : .bounded tag ∈ openSites source name → tag.selfClosing = false →
      Bracket source name (.opens (.bounded tag))
  | unterminated {start : Nat} : .unterminated start ∈ openSites source name →
      Bracket source name (.opens (.unterminated start))
  | closes {closing : ClosingTag} : closing ∈ closingTags source name →
      (∀ tag, .bounded tag ∈ openSites source name →
        closing.start < tag.start ∨ tag.stop ≤ closing.start) →
      Bracket source name (.closes closing)

def brackets (source name : Text) : List Mark :=
  (weave (openSites source name) (closingTags source name)).filter
    (isBracket (covers (openSites source name)))

section
variable {source name : Text}

theorem covers_eq_false_iff {sites : List TagSite} {offset : Nat} :
    covers sites offset = false ↔
      ∀ tag, .bounded tag ∈ sites → offset < tag.start ∨ tag.stop ≤ offset := by
  simp only [covers, List.any_eq_false, Bool.and_eq_true, decide_eq_true_eq]
  constructor
  · intro outside tag member
    have apart := outside _ member
    simp only [start_bounded, stop_bounded] at apart
    omega
  · intro outside site member
    cases site with
    | bounded tag =>
      have apart := outside tag member
      simp only [start_bounded, stop_bounded]
      omega
    | unterminated start =>
      simp only [start_unterminated, stop_unterminated]
      omega

theorem mem_weave_iff {sites : List TagSite} {closings : List ClosingTag} {mark : Mark} :
    mark ∈ weave sites closings ↔
      (∃ site ∈ sites, mark = .opens site) ∨ ∃ closing ∈ closings, mark = .closes closing := by
  refine ⟨mem_weave, ?_⟩
  rintro (⟨site, member, rfl⟩ | ⟨closing, member, rfl⟩)
  · exact mem_sites_iff.1 (by rwa [sites_weave])
  · exact mem_closings_iff.1 (by rwa [closings_weave])

theorem mem_brackets_iff {mark : Mark} :
    mark ∈ brackets source name ↔ Bracket source name mark := by
  rw [brackets, List.mem_filter, mem_weave_iff]
  constructor
  · rintro ⟨⟨site, member, rfl⟩ | ⟨closing, member, rfl⟩, bracket⟩
    · cases site with
      | bounded tag => exact .bounded member (by simpa [isBracket] using bracket)
      | unterminated start => exact .unterminated member
    · exact .closes member (covers_eq_false_iff.1 (by simpa [isBracket] using bracket))
  · rintro (⟨member, opens⟩ | member | ⟨member, outside⟩)
    · exact ⟨.inl ⟨_, member, rfl⟩, by simp [isBracket, opens]⟩
    · exact ⟨.inl ⟨_, member, rfl⟩, rfl⟩
    · exact ⟨.inr ⟨_, member, rfl⟩, by simp [isBracket, covers_eq_false_iff.2 outside]⟩

variable (nonempty : name ≠ []) (noSlash : name.head? ≠ some '/') (plain : '<' ∉ name)
include nonempty noSlash plain

/-- No two tags start together, so the order of their starts is a strict one. -/
theorem weave_source_ordered (source : Text) :
    (weave (openSites source name) (closingTags source name)).Pairwise
      fun a b => a.start < b.start := by
  refine weave_ordered ((openSites_ordered name source 0).imp And.left) ?_ ?_
  · refine closingTags_ordered.imp fun {a b} apart => Nat.lt_of_lt_of_le ?_ apart
    exact Nat.lt_add_of_pos_right (Text.size_pos (by simp [ClosingTag.text]))
  · intro site opens closing closes same
    have filled : closing.start < closing.stop :=
      Nat.lt_add_of_pos_right (Text.size_pos (by simp [ClosingTag.text]))
    have apart := closing_before_open nonempty noSlash plain (opensIn_of_mem opens)
      (closesIn_of_mem closes)
    omega

theorem paired_eq_pairs (source : Text) :
    paired (openSites source name) (closingTags source name) =
      (pairs [] (brackets source name)).filterMap renamed? := by
  have spans : Spans (covers (openSites source name)) 0
      (weave (openSites source name) (closingTags source name)) := by
    refine ⟨weave_source_ordered nonempty noSlash plain source, ?_, fun _ _ => Nat.zero_le _, ?_⟩
    · rw [sites_weave]
      exact (openSites_ordered name source 0).imp And.right
    · intro closing _
      simp [sites_weave]
  rw [paired, pairedFrom_weave, brackets]
  exact closings_exchanged [] spans

theorem mem_paired_iff {closing : ClosingTag} :
    closing ∈ paired (openSites source name) (closingTags source name) ↔
      ∃ tag, Partners (brackets source name) (.bounded tag) closing := by
  rw [paired_eq_pairs nonempty noSlash plain, List.mem_filterMap]
  constructor
  · rintro ⟨⟨site, other⟩, member, same⟩
    cases site with
    | bounded tag =>
      obtain rfl : other = closing := Option.some.inj same
      exact ⟨tag, mem_pairs_iff.1 member⟩
    | unterminated start => cases same
  · rintro ⟨tag, partners⟩
    exact ⟨_, mem_pairs_iff.2 partners, rfl⟩

omit plain in
/-- An open tag that is replaced is never taken for a closing one. -/
theorem renameClosing_mem_iff {newName : Text} {origin : Origin} {transform : AttributeTransform}
    {closing : ClosingTag} (member : closing ∈ closingTags source name) :
    renameClosing newName closing ∈ replacements source name newName origin transform ↔
      closing ∈ paired (openSites source name) (closingTags source name) := by
  rw [mem_replacements]
  constructor
  · rintro (⟨tag, site, same⟩ | ⟨other, among, same⟩)
    · have text : closing.text = tag.text := congrArg Replacement.before same
      obtain ⟨first, more, named⟩ := List.exists_cons_of_ne_nil nonempty
      simp only [ClosingTag.text, OpenTag.text, name_of_bounded site, named, List.cons_append,
        List.cons.injEq, true_and] at text
      exact absurd (by rw [named, ← text.1]; rfl) noSlash
    · obtain ⟨_, _, _, _, named, _⟩ := closesIn_of_mem member
      obtain ⟨_, _, _, _, named', _⟩ := closesIn_of_mem ((pairedFrom_sublist _ _ _ _).mem among)
      have start : closing.start = other.start := congrArg Replacement.start same
      have text : closing.text = other.text := congrArg Replacement.before same
      have equal : closing = other := by
        cases closing
        cases other
        simp_all [ClosingTag.text]
      exact equal ▸ among
  · intro among
    exact .inr ⟨closing, among, rfl⟩

theorem closingTags_nodup (source : Text) : (closingTags source name).Nodup := by
  have distinct := (nodup_of_ordered (weave_source_ordered nonempty noSlash plain source)).2
  rwa [closings_weave] at distinct

end

/-- What a renaming does to closing tags, `marks` being the brackets in the order of the source. -/
structure PairsByNesting (source name newName : Text) (origin : Origin)
    (transform : AttributeTransform) (marks : List Mark) (result : Renaming) : Prop where
  mem_iff : ∀ mark, mark ∈ marks ↔ Bracket source name mark
  ordered : marks.Pairwise fun a b => a.start < b.start
  /-- At most one open tag before a closing tag has only matched brackets behind it, so it is the
  nearest one. -/
  one_partner : ∀ site other closing, Partners marks site closing → Partners marks other closing →
    site = other
  one_closing : ∀ site closing other, Partners marks site closing → Partners marks site other →
    closing = other
  renamed_iff : ∀ closing, closing ∈ result.closings ↔ ∃ tag, Partners marks (.bounded tag) closing
  /-- The closing tags that are exchanged in the text are the same ones. -/
  exchanged_iff : ∀ closing ∈ closingTags source name,
    renameClosing newName closing ∈ replacements source name newName origin transform ↔
      ∃ tag, Partners marks (.bounded tag) closing
  made : Replacement.Made 0 source (replacements source name newName origin transform) result.text
  closed : result.closings.length =
    {closing | ∃ tag, Partners marks (.bounded tag) closing}.ncard

/-- For every name that can stand in a tag, the closing tags that a renaming takes are those whose
partner by nesting is a tag that ends, and each of them has a partner of its own. -/
theorem rename?_pairs_by_nesting (source name newName : Text) (origin : Origin)
    (transform : AttributeTransform) (nonempty : name ≠ []) (noSlash : name.head? ≠ some '/')
    (plain : '<' ∉ name) :
    ∃ marks result, rename? source name newName origin transform = some result ∧
      PairsByNesting source name newName origin transform marks result := by
  obtain ⟨result, renamed, made, -⟩ :=
    rename?_made source newName origin transform nonempty noSlash plain
  have closings : result.closings = paired (openSites source name) (closingTags source name) := by
    obtain ⟨text, -, rfl⟩ := Option.map_eq_some_iff.1 renamed
    rfl
  have ordered : (brackets source name).Pairwise fun a b => a.start < b.start :=
    (weave_source_ordered nonempty noSlash plain source).filter _
  have taken : ∀ closing, closing ∈ result.closings ↔
      ∃ tag, Partners (brackets source name) (.bounded tag) closing := by
    intro closing
    rw [closings]
    exact mem_paired_iff nonempty noSlash plain
  have distinct : result.closings.Nodup := by
    rw [closings]
    exact (closingTags_nodup nonempty noSlash plain source).sublist (pairedFrom_sublist _ _ _ _)
  refine ⟨brackets source name, result, renamed, ?_⟩
  exact {
    mem_iff := fun _ => mem_brackets_iff
    ordered
    one_partner := fun _ _ _ first second => first.site_unique second ordered
    one_closing := fun _ _ _ first second => first.closing_unique second ordered
    renamed_iff := taken
    exchanged_iff := fun _ member => (renameClosing_mem_iff nonempty noSlash member).trans
      (mem_paired_iff nonempty noSlash plain)
    made
    closed := by
      simp only [← taken]
      rw [← List.toFinset_card_of_nodup distinct, ← Set.ncard_coe_finset, List.coe_toFinset] }

/-- A closing tag in an attribute, a tag that closes itself, nested elements, a closing tag too many
and one that closes a tag without an end. -/
theorem rename?_pairs_by_nesting_mixed :
    ['B'] ≠ [] ∧ ['B'].head? ≠ some '/' ∧ '<' ∉ ['B'] ∧
      ∃ marks result,
        rename? "<B a=\x7b</B>\x7d><B/><B >é</B ></B></B><B '</B>".toList ['B'] ['C']
          (Origin.ofSource [] []) (fun text _ => (text, [])) = some result ∧
        PairsByNesting "<B a=\x7b</B>\x7d><B/><B >é</B ></B></B><B '</B>".toList ['B'] ['C']
          (Origin.ofSource [] []) (fun text _ => (text, [])) marks result :=
  ⟨by decide, by decide, by decide, rename?_pairs_by_nesting _ _ _ _ _ (by decide) (by decide)
    (by decide)⟩

end Retag.Tag
