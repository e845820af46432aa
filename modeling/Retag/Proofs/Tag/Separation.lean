import Retag.Proofs.Tag.Layout
import Retag.Tag.Pairing

/-! Renamed closing tags stand apart from open tags. A closing tag cannot run into an open one,
because its text has no second `<`; it can stand inside an open tag's attribute text, and those are
the ones that the pairing leaves out. -/
namespace Retag.Tag

theorem start_le_stop (site : TagSite) : site.start ≤ site.stop := by
  cases site with
  | bounded tag =>
    rw [start_bounded, stop_bounded, ← size_openTag]
    exact Nat.le_add_right _ _
  | unterminated start => exact Nat.le_refl start

/-- The pairing's end of the last open tag passed. -/
def spanAfter (spanEnd : Nat) (passed : List TagSite) : Nat :=
  (passed.getLast?.map (·.stop)).getD spanEnd

theorem spanAfter_append (spanEnd : Nat) (passed : List TagSite) (last : TagSite) :
    spanAfter spanEnd (passed ++ [last]) = last.stop := by
  simp [spanAfter]

/-- Passing sites in order moves the end forward, past every site passed and before every site
ahead. -/
theorem spanAfter_bounds (spanEnd : Nat) {passed ahead : List TagSite}
    (ordered : (passed ++ ahead).Pairwise fun a b => a.stop ≤ b.start)
    (after : ∀ site ∈ passed ++ ahead, spanEnd ≤ site.start) :
    spanEnd ≤ spanAfter spanEnd passed ∧ (∀ site ∈ passed, site.stop ≤ spanAfter spanEnd passed) ∧
      ∀ site ∈ ahead, spanAfter spanEnd passed ≤ site.start := by
  rcases List.eq_nil_or_concat passed with rfl | ⟨front, last, rfl⟩
  · exact ⟨Nat.le_refl _, by simp, fun site member => after site (by simpa using member)⟩
  · rw [List.concat_eq_append] at ordered after ⊢
    rw [spanAfter_append]
    obtain ⟨inside, _, across⟩ := List.pairwise_append.1 ordered
    obtain ⟨_, _, toLast⟩ := List.pairwise_append.1 inside
    refine ⟨?_, fun site member => ?_, fun site member => across last (by simp) site member⟩
    · have first := after last (by simp)
      have forward := start_le_stop last
      omega
    · rcases List.mem_append.1 member with earlier | final
      · have before := toLast site earlier last (by simp)
        have forward := start_le_stop last
        omega
      · obtain rfl := List.mem_singleton.1 final
        exact Nat.le_refl _

theorem le_start_of_mem_ahead {sites : List TagSite} {limit : Nat} {site : TagSite}
    (ordered : sites.Pairwise fun a b => a.stop ≤ b.start)
    (member : site ∈ sites.dropWhile (·.start < limit)) : limit ≤ site.start := by
  induction sites with
  | nil => simp at member
  | cons first rest ih =>
    obtain ⟨later, ordered⟩ := List.pairwise_cons.1 ordered
    by_cases passed : first.start < limit
    · rw [List.dropWhile_cons_of_pos (by simpa using passed)] at member
      exact ih ordered member
    · rw [List.dropWhile_cons_of_neg (by simpa using passed)] at member
      rcases List.mem_cons.1 member with rfl | behind
      · omega
      · have forward := start_le_stop first
        have next := later site behind
        omega

theorem pairedFrom_sublist (sites : List TagSite) (spanEnd : Nat) (stack : List Bool)
    (closings : List ClosingTag) : (pairedFrom sites spanEnd stack closings).Sublist closings := by
  induction closings generalizing sites spanEnd stack with
  | nil => exact List.Sublist.refl _
  | cons closing rest ih =>
    simp only [pairedFrom]
    split
    · exact (ih _ _ _).cons _
    · split
      · exact (ih _ _ _).cons_cons _
      · exact (ih _ _ _).cons _

/-- A paired closing tag stands past every open tag that starts before it. The end of the last
open tag passed carries the invariant: sites ahead start at or after it. -/
theorem pairedFrom_past {sites : List TagSite} {spanEnd : Nat} {stack : List Bool}
    {closings : List ClosingTag} {closing : ClosingTag}
    (ordered : sites.Pairwise fun a b => a.stop ≤ b.start)
    (after : ∀ site ∈ sites, spanEnd ≤ site.start)
    (member : closing ∈ pairedFrom sites spanEnd stack closings) :
    spanEnd ≤ closing.start ∧
      ∀ site ∈ sites, site.start < closing.start → site.stop ≤ closing.start := by
  induction closings generalizing sites spanEnd stack with
  | nil => simp [pairedFrom] at member
  | cons head rest ih =>
    have split := @List.takeWhile_append_dropWhile _ (fun site => decide (site.start < head.start))
      sites
    obtain ⟨forward, past, ahead⟩ := spanAfter_bounds spanEnd
      (split.symm ▸ ordered) (split.symm ▸ after)
    have remaining := (split.symm ▸ ordered : List.Pairwise _ _) |> List.pairwise_append.1 |>.2.1
    -- What the pairing finds further on is past everything passed here.
    have onward : ∀ {stack}, closing ∈ pairedFrom (sites.dropWhile (·.start < head.start))
        (spanAfter spanEnd (sites.takeWhile (·.start < head.start))) stack rest →
        spanEnd ≤ closing.start ∧
          ∀ site ∈ sites, site.start < closing.start → site.stop ≤ closing.start := by
      intro stack found
      obtain ⟨reached, clear⟩ := ih remaining ahead found
      refine ⟨Nat.le_trans forward reached, fun site among => ?_⟩
      rw [← split] at among
      rcases List.mem_append.1 among with passed | further
      · exact fun _ => Nat.le_trans (past site passed) reached
      · exact clear site further
    simp only [pairedFrom] at member
    split at member
    · exact onward member
    · rename_i outside
      split at member
      · rcases List.mem_cons.1 member with rfl | later
        · have reached := Nat.le_of_not_lt outside
          refine ⟨Nat.le_trans forward reached, fun site among earlier => ?_⟩
          rw [← split] at among
          rcases List.mem_append.1 among with passed | further
          · exact Nat.le_trans (past site passed) reached
          · have further := le_start_of_mem_ahead ordered further
            omega
        · exact onward later
      · exact onward member

theorem lt_not_mem_closing {name : Text} {closing : ClosingTag} (named : closing.name = name)
    (plain : '<' ∉ name) (blank : ∀ c ∈ closing.blank, Text.isAsciiBlank c = true) :
    '<' ∉ '/' :: closing.name ++ closing.blank ++ ['>'] := by
  intro member
  simp only [List.cons_append, List.mem_cons, List.mem_append, List.not_mem_nil, or_false] at member
  rcases member with slash | (inName | inBlank) | last
  · exact absurd slash (by decide)
  · exact plain (named ▸ inName)
  · exact absurd (blank _ inBlank) (by decide)
  · exact absurd last (by decide)

/-- A closing tag that starts before an open one also ends before it, and the two never start
together. -/
theorem closing_before_open {name text : Text} {offset : Nat} {site : TagSite}
    {closing : ClosingTag}
    (nonempty : name ≠ []) (noSlash : name.head? ≠ some '/') (plain : '<' ∉ name)
    (opens : OpensIn name offset text site) (closes : ClosesIn name offset text closing) :
    closing.stop ≤ site.start ∨ site.start < closing.start := by
  obtain ⟨before, rest, rfl, siteStart, -⟩ := opens
  obtain ⟨before', after, same, closingStart, named, blank⟩ := closes
  rw [List.append_assoc, List.append_assoc] at same
  by_cases earlier : before.size < before'.size
  · exact Or.inr (by omega)
  · left
    obtain ⟨middle, rfl, inside⟩ := Text.append_of_size_le same.symm (Nat.le_of_not_lt earlier)
    by_cases clear : closing.text.size ≤ middle.size
    · simp only [ClosingTag.stop, siteStart, closingStart, Text.size_append]
      omega
    -- Otherwise the open tag's `<` stands in the closing tag's text.
    obtain ⟨tail, covers, open'⟩ := Text.append_of_size_le inside.symm (Nat.le_of_not_le clear)
    cases tail with
    | nil =>
      rw [List.append_nil] at covers
      exact absurd (Nat.le_of_eq (congrArg Text.size covers)) clear
    | cons c tail =>
      obtain ⟨rfl, follows⟩ := List.cons.inj open'
      cases middle with
      | nil =>
        obtain ⟨first, more, rfl⟩ := List.exists_cons_of_ne_nil nonempty
        simp only [ClosingTag.text, List.cons_append, List.nil_append, List.cons.injEq,
          true_and] at covers
        rw [← covers] at follows
        have slash : first = '/' := (List.cons.inj follows).1
        exact absurd (by rw [slash]; rfl) noSlash
      | cons d middle =>
        simp only [ClosingTag.text, List.cons_append, List.cons.injEq] at covers
        have second : '<' ∈ '/' :: (closing.name ++ closing.blank ++ ['>']) := by
          rw [covers.2]
          simp
        exact absurd second (lt_not_mem_closing named plain blank)

/-- A renamed closing tag and an open tag that ends have no byte in common. -/
theorem paired_apart {source name : Text} {tag : OpenTag} {closing : ClosingTag}
    (nonempty : name ≠ []) (noSlash : name.head? ≠ some '/') (plain : '<' ∉ name)
    (site : .bounded tag ∈ openSites source name)
    (member : closing ∈ paired (openSites source name) (closingTags source name)) :
    tag.stop ≤ closing.start ∨ closing.stop ≤ tag.start := by
  have ordered := (openSites_ordered name source 0).imp And.right
  have closes := closesIn_of_mem ((pairedFrom_sublist _ _ _ _).mem member)
  rcases closing_before_open nonempty noSlash plain (opensIn_of_mem site) closes with before | after
  · exact Or.inr before
  · exact Or.inl ((pairedFrom_past ordered (fun _ _ => Nat.zero_le _) member).2 _ site after)

end Retag.Tag
