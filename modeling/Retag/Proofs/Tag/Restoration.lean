import Retag.Proofs.Tag.Extent
import Retag.Proofs.Tag.Nesting
import Retag.Proofs.Tag.Renaming

/-! Renaming a tag there and back. In the text that the first renaming makes, the new name stands
where it was written and nowhere else, and the closing tags that were written are nested in the open
ones; so the second renaming finds exactly these. Main statement: it gives the source back. -/
namespace Retag

namespace Text

/-- The pattern starts nowhere in `front`, also not where it would run on into `rest`. -/
def Avoids (pattern : Text) : (front rest : Text) → Prop
  | [], _ => True
  | c :: cs, rest => ¬pattern <+: c :: cs ++ rest ∧ Avoids pattern cs rest

section
variable {pattern front rest : Text}

theorem not_infix_of_not_occursIn (absent : occursIn pattern front = false) :
    ¬pattern <:+: front := by
  rintro ⟨before, after, rfl⟩
  rw [occursIn_append] at absent
  cases absent

theorem not_infix_parts {kept piece : Text} (absent : ¬pattern <:+: kept ++ piece ++ rest) :
    ¬pattern <:+: kept ∧ ¬pattern <:+: piece ∧ ¬pattern <:+: rest := by
  refine ⟨?_, ?_, ?_⟩
  · intro inside
    exact absent (inside.trans ⟨[], piece ++ rest, by simp⟩)
  · intro inside
    exact absent (inside.trans ⟨kept, rest, rfl⟩)
  · intro inside
    exact absent (inside.trans (List.suffix_append _ _).isInfix)

theorem avoids_append {a b : Text} :
    Avoids pattern (a ++ b) rest ↔ Avoids pattern a (b ++ rest) ∧ Avoids pattern b rest := by
  induction a with
  | nil => simp [Avoids]
  | cons c cs ih => simp [Avoids, ih, and_assoc]

theorem avoids_of_plain {c : Char} (plain : c ∉ front) : Avoids (c :: pattern) front rest := by
  induction front with
  | nil => trivial
  | cons d ds ih =>
    constructor
    · intro starts
      obtain ⟨same, -⟩ := List.cons_prefix_cons.1 starts
      exact plain (same ▸ List.mem_cons_self)
    · exact ih fun member => plain (List.mem_cons_of_mem _ member)

/-- A pattern that does not occur in a text starts nowhere in it, if what follows does not go on with
the pattern. -/
theorem avoids_of_absent (rest : Text) (absent : ¬pattern <:+: front)
    (seam : ∀ c ∈ rest.head?, c ∉ pattern.tail) : Avoids pattern front rest := by
  induction front with
  | nil => trivial
  | cons d ds ih =>
    constructor
    · intro starts
      rcases List.prefix_or_prefix_of_prefix starts (List.prefix_append _ rest) with
        within | ⟨beyond, rfl⟩
      · exact absent within.isInfix
      · cases beyond with
        | nil => exact absent (by simp)
        | cons c cs =>
          have follows := (List.prefix_append_right_inj _).1 starts
          obtain ⟨tail, rfl⟩ := follows
          exact seam c rfl (by simp)
    · exact ih fun inside => absent (inside.trans (List.suffix_cons d ds).isInfix)

end
end Text

namespace Tag
open Text (Avoids)

section
variable {name front rest : Text}

theorem openSitesFrom_skip (offset : Nat) (avoids : Avoids ('<' :: name) front rest) :
    openSitesFrom name offset (front ++ rest) = openSitesFrom name (offset + front.size) rest := by
  induction front generalizing offset with
  | nil => rfl
  | cons c cs ih =>
    obtain ⟨here, further⟩ := avoids
    rw [List.cons_append, openSitesFrom]
    split
    · rw [ih _ further, Text.size_cons, Nat.add_assoc]
    · rename_i tail present
      exact absurd ⟨tail, (Text.dropPrefix?_eq_some_iff.1 present).symm⟩ here

theorem closingTagsFrom_skip (offset : Nat) (avoids : Avoids ('<' :: '/' :: name) front rest) :
    closingTagsFrom name offset (front ++ rest) =
      closingTagsFrom name (offset + front.size) rest := by
  induction front generalizing offset with
  | nil => rfl
  | cons c cs ih =>
    obtain ⟨here, further⟩ := avoids
    rw [List.cons_append, closingTagsFrom]
    split
    · rw [ih _ further, Text.size_cons, Nat.add_assoc]
    · rename_i tail present
      exact absurd ⟨tail, (Text.dropPrefix?_eq_some_iff.1 present).symm⟩ here

theorem closingTagsFrom_tag (name : Text) (offset : Nat) (rest : Text) :
    closingTagsFrom name offset ('<' :: '/' :: name ++ '>' :: rest) =
      ⟨offset, name, []⟩ ::
        closingTagsFrom name (offset + Text.size ('<' :: '/' :: name ++ ['>'])) rest := by
  have found := Text.dropPrefix?_append ('<' :: '/' :: name) ('>' :: rest)
  have ended : ('>' :: rest).dropWhile Text.isAsciiBlank = '>' :: rest := rfl
  rw [List.cons_append] at found ⊢
  rw [closingTagsFrom]
  split
  · rename_i absent
    rw [found] at absent
    cases absent
  · rename_i tail present
    obtain rfl : '>' :: rest = tail := Option.some.inj (found.symm.trans present)
    split
    · rename_i after closed
      obtain ⟨-, rfl⟩ := List.cons.inj (ended.symm.trans closed)
      simp [ClosingTag.stop, ClosingTag.text, Text.isAsciiBlank]
    · rename_i open'
      exact absurd ended (open' rest)

end

def keepAttributes : AttributeTransform := fun attributes _ => (attributes, [])

/-- What a renaming that keeps attributes puts in the place of a mark. A tag that never ends is left
alone. -/
def exchange (newName : Text) : Mark → Replacement
  | .opens (.bounded tag) => ⟨tag.start, tag.text, '<' :: newName ++ tag.attributes ++ ['>']⟩
  | .opens (.unterminated start) => ⟨start, [], []⟩
  | .closes closing => renameClosing newName closing

@[simp] theorem start_exchange (newName : Text) (mark : Mark) :
    (exchange newName mark).start = mark.start := by
  cases mark with
  | opens site => cases site <;> rfl
  | closes closing => rfl

@[simp] theorem stop_exchange (newName : Text) (mark : Mark) :
    (exchange newName mark).stop = mark.stop := by
  cases mark with
  | opens site =>
    cases site with
    | bounded tag => exact size_openTag tag
    | unterminated start => rfl
  | closes closing => rfl

theorem exchange_tight {closing : ClosingTag} (newName : Text) (tight : closing.blank = []) :
    exchange newName (.closes closing) =
      ⟨closing.start, '<' :: '/' :: closing.name ++ ['>'], '<' :: '/' :: newName ++ ['>']⟩ := by
  rw [exchange, renameClosing, ClosingTag.text, tight, List.append_nil]

theorem renameOpen_keepAttributes (newName : Text) (origin : Origin) (tag : OpenTag) :
    (renameOpen newName origin keepAttributes tag).replacement =
      exchange newName (.opens (.bounded tag)) := by
  have whole := splitTail_append tag.attributes
  simp only [renameOpen, keepAttributes, exchange, Replacement.mk.injEq, true_and]
  rw [List.append_assoc ('<' :: newName), whole]

/-- The pieces of a renaming that keeps attributes are read off the marks that it exchanges. -/
theorem replacements_eq {source name : Text} {marks : List Mark} (newName : Text) (origin : Origin)
    (nested : Nested 0 marks) (ordered : marks.Pairwise fun a b => a.start < b.start)
    (tags : marks.filterMap Mark.openTag? = (openSites source name).filterMap bounded?)
    (closings : marks.filterMap Mark.closing? =
      paired (openSites source name) (closingTags source name)) :
    replacements source name newName origin keepAttributes = marks.map (exchange newName) := by
  have pieces : ((openSites source name).filterMap bounded?).map
        (fun tag => (renameOpen newName origin keepAttributes tag).replacement) ++
      (paired (openSites source name) (closingTags source name)).map (renameClosing newName) =
      ((marks.filterMap Mark.openTag?).map (fun tag => Mark.opens (.bounded tag)) ++
        (marks.filterMap Mark.closing?).map Mark.closes).map (exchange newName) := by
    rw [tags, closings, List.map_append, List.map_map, List.map_map]
    simp only [renameOpen_keepAttributes]
    rfl
  have increasing : (marks.map (exchange newName)).Pairwise fun a b => a.start < b.start := by
    rw [List.pairwise_map]
    simpa using ordered
  rw [replacements, pieces]
  exact StableSort.sort_eq_of_perm Replacement.start (nested.perm.map _).symm increasing

/-- The mark is read alike wherever it stands: an open tag ends at its own `>`, and a closing tag
holds nothing but the name. -/
def Intact (name : Text) : Mark → Prop
  | .opens (.bounded tag) => tag.name = name ∧ ∀ rest,
      endsName (tag.attributes ++ '>' :: rest) = true ∧
        Text.untilTagEnd? none 0 (tag.attributes ++ '>' :: rest) = some (tag.attributes, rest)
  | .opens (.unterminated _) => False
  | .closes closing => closing.name = name ∧ closing.blank = []

theorem intact_of_site {source name : Text} {tag : OpenTag}
    (member : .bounded tag ∈ openSites source name) : Intact name (.opens (.bounded tag)) := by
  obtain ⟨before, tail, whole, start, ends, named, after, closed⟩ := opensIn_of_mem member
  refine ⟨named, ?_⟩
  intro rest
  refine ⟨?_, Text.untilTagEnd?_rest closed rest⟩
  rw [Text.eq_of_untilTagEnd? closed] at ends
  cases attributes : tag.attributes with
  | nil => rfl
  | cons c cs =>
    rw [attributes] at ends
    exact ends

section
variable {name newName : Text} (plain : '<' ∉ newName) (nonempty : newName ≠ [])
  (noSlash : newName.head? ≠ some '/') (noEnd : '>' ∉ newName)
include plain

/-- An open tag of the new name behind a text in which none starts is the next to be found. -/
theorem openSitesFrom_written {kept attributes rest : Text} (place : Nat)
    (absent : ¬ '<' :: newName <:+: kept) (ends : endsName (attributes ++ '>' :: rest) = true)
    (closed : Text.untilTagEnd? none 0 (attributes ++ '>' :: rest) = some (attributes, rest)) :
    openSitesFrom newName place (kept ++ ('<' :: newName ++ attributes ++ ['>']) ++ rest) =
      .bounded ⟨place + kept.size, newName, attributes⟩ :: openSitesFrom newName
        (place + kept.size + Text.size ('<' :: newName ++ attributes ++ ['>'])) rest := by
  have behind : kept ++ ('<' :: newName ++ attributes ++ ['>']) ++ rest =
      kept ++ ('<' :: newName ++ (attributes ++ '>' :: rest)) := by simp
  have stop : place + kept.size + Text.size ('<' :: newName ++ attributes ++ ['>']) =
      place + kept.size + Text.size ('<' :: newName) + attributes.size + 1 := by
    have one : '>'.utf8Size = 1 := by decide
    simp [one, Nat.add_assoc]
  have skipped := openSitesFrom_skip place (Text.avoids_of_absent
    ('<' :: newName ++ (attributes ++ '>' :: rest)) absent (by simpa using plain))
  rw [behind, stop, skipped]
  exact openSitesFrom_tag newName _ ends closed

theorem closingTagsFrom_written {kept : Text} (rest : Text) (place : Nat)
    (absent : ¬ '<' :: '/' :: newName <:+: kept) :
    closingTagsFrom newName place (kept ++ ('<' :: '/' :: newName ++ ['>']) ++ rest) =
      ⟨place + kept.size, newName, []⟩ :: closingTagsFrom newName
        (place + kept.size + Text.size ('<' :: '/' :: newName ++ ['>'])) rest := by
  have behind : kept ++ ('<' :: '/' :: newName ++ ['>']) ++ rest =
      kept ++ ('<' :: '/' :: newName ++ '>' :: rest) := by simp
  have skipped := closingTagsFrom_skip place (Text.avoids_of_absent
    ('<' :: '/' :: newName ++ '>' :: rest) absent (by simpa using plain))
  rw [behind, skipped]
  exact closingTagsFrom_tag newName _ rest

include nonempty noSlash

/-- No open tag of the new name starts in a closing tag of it. -/
theorem avoids_closingTag (rest : Text) :
    Avoids ('<' :: newName) ('<' :: '/' :: newName ++ ['>']) rest := by
  constructor
  · intro starts
    obtain ⟨c, cs, rfl⟩ := List.exists_cons_of_ne_nil nonempty
    obtain ⟨-, follows⟩ := List.cons_prefix_cons.1 starts
    obtain ⟨slash, -⟩ := List.cons_prefix_cons.1 follows
    exact noSlash (congrArg some slash)
  · apply Text.avoids_of_plain
    simpa using plain

theorem openSitesFrom_passes {kept : Text} (rest : Text) (place : Nat)
    (absent : ¬ '<' :: newName <:+: kept) :
    openSitesFrom newName place (kept ++ ('<' :: '/' :: newName ++ ['>']) ++ rest) =
      openSitesFrom newName
        (place + kept.size + Text.size ('<' :: '/' :: newName ++ ['>'])) rest := by
  have avoids : Avoids ('<' :: newName) (kept ++ ('<' :: '/' :: newName ++ ['>'])) rest := by
    rw [Text.avoids_append]
    refine ⟨Text.avoids_of_absent _ absent (by simpa using plain), ?_⟩
    exact avoids_closingTag plain nonempty noSlash rest
  rw [openSitesFrom_skip place avoids, Text.size_append, Nat.add_assoc]

include noEnd

/-- No closing tag of the new name starts in an open tag of it. -/
theorem avoids_openTag {attributes : Text} (rest : Text)
    (absent : ¬ '<' :: '/' :: newName <:+: attributes) :
    Avoids ('<' :: '/' :: newName) ('<' :: newName ++ attributes ++ ['>']) rest := by
  rw [Text.avoids_append, Text.avoids_append]
  refine ⟨⟨⟨?_, Text.avoids_of_plain plain⟩, ?_⟩, Text.avoids_of_plain (by decide)⟩
  · intro starts
    obtain ⟨c, cs, rfl⟩ := List.exists_cons_of_ne_nil nonempty
    obtain ⟨-, follows⟩ := List.cons_prefix_cons.1 starts
    obtain ⟨slash, -⟩ := List.cons_prefix_cons.1 follows
    exact noSlash (congrArg some slash.symm)
  · apply Text.avoids_of_absent _ absent
    rintro c ⟨⟩
    simpa using noEnd

theorem closingTagsFrom_passes {kept attributes : Text} (rest : Text) (place : Nat)
    (absent : ¬ '<' :: '/' :: newName <:+: kept)
    (absent' : ¬ '<' :: '/' :: newName <:+: attributes) :
    closingTagsFrom newName place (kept ++ ('<' :: newName ++ attributes ++ ['>']) ++ rest) =
      closingTagsFrom newName
        (place + kept.size + Text.size ('<' :: newName ++ attributes ++ ['>'])) rest := by
  have avoids : Avoids ('<' :: '/' :: newName) (kept ++ ('<' :: newName ++ attributes ++ ['>']))
      rest := by
    rw [Text.avoids_append]
    refine ⟨Text.avoids_of_absent _ absent (by simpa using plain), ?_⟩
    exact avoids_openTag plain nonempty noSlash noEnd rest absent'
  rw [closingTagsFrom_skip place avoids, Text.size_append, Nat.add_assoc]

/-- What a renaming wrote is found again, and can be undone. The search goes over the kept pieces and
the written ones in turn: it passes the former, since the new name does not occur in the source, and
takes each of the latter as it was written. -/
theorem found_again {marks : List Mark} {depth offset : Nat} {text changed : Text}
    (nested : Nested depth marks) (intact : ∀ mark ∈ marks, Intact name mark)
    (noOpen : ¬ '<' :: newName <:+: text) (noClosing : ¬ '<' :: '/' :: newName <:+: text)
    (made : Replacement.Made offset text (marks.map (exchange newName)) changed) (place : Nat) :
    ∃ written, Nested depth written ∧
      openSitesFrom newName place changed = written.filterMap Mark.site? ∧
      closingTagsFrom newName place changed = written.filterMap Mark.closing? ∧
      Replacement.Made place changed (written.map (exchange name)) text ∧
      (written.map (exchange name)).map (fun piece => (piece.before, piece.after)) =
        (marks.map (exchange newName)).map fun piece => (piece.after, piece.before) := by
  induction nested generalizing offset text changed place with
  | nil =>
    cases made with
    | done =>
      refine ⟨[], .nil, ?_, ?_, .done, rfl⟩
      · have skipped := openSitesFrom_skip place (Text.avoids_of_absent [] noOpen (by simp))
        simpa [openSitesFrom] using skipped
      · have skipped :=
          closingTagsFrom_skip place (Text.avoids_of_absent [] noClosing (by simp))
        simpa [closingTagsFrom] using skipped
  | @opens depth tag marks nested ih =>
    obtain ⟨rfl, reads⟩ := intact _ List.mem_cons_self
    cases made with
    | @next _ _ _ kept rest changed start made =>
      obtain ⟨noOpenKept, -, noOpenRest⟩ := Text.not_infix_parts noOpen
      obtain ⟨noClosingKept, noClosingTag, noClosingRest⟩ := Text.not_infix_parts noClosing
      have noClosingInside : ¬ '<' :: '/' :: newName <:+: tag.attributes := by
        intro inside
        exact noClosingTag (inside.trans ⟨'<' :: tag.name, ['>'], rfl⟩)
      obtain ⟨written, nested', sites, closings, back, same⟩ :=
        ih (fun mark member => intact mark (List.mem_cons_of_mem _ member)) noOpenRest noClosingRest
          made (place + kept.size + Text.size ('<' :: newName ++ tag.attributes ++ ['>']))
      refine ⟨.opens (.bounded ⟨place + kept.size, newName, tag.attributes⟩) :: written,
        .opens nested', ?_, ?_, ?_, congrArg _ same⟩
      · have found := openSitesFrom_written plain place noOpenKept (reads changed).1 (reads changed).2
        rw [sites] at found
        exact found
      · have passed := closingTagsFrom_passes plain nonempty noSlash noEnd changed place noClosingKept
          noClosingInside
        rw [closings] at passed
        exact passed
      · exact @Replacement.Made.next place
          (exchange tag.name (.opens (.bounded ⟨_, newName, tag.attributes⟩))) _ _ _ _ rfl back
  | @closes depth closing marks nested ih =>
    obtain ⟨rfl, tight⟩ := intact _ List.mem_cons_self
    rw [List.map_cons, exchange_tight newName tight] at made ⊢
    cases made with
    | @next _ _ _ kept rest changed start made =>
      obtain ⟨noOpenKept, -, noOpenRest⟩ := Text.not_infix_parts noOpen
      obtain ⟨noClosingKept, -, noClosingRest⟩ := Text.not_infix_parts noClosing
      obtain ⟨written, nested', sites, closings, back, same⟩ :=
        ih (fun mark member => intact mark (List.mem_cons_of_mem _ member)) noOpenRest noClosingRest
          made (place + kept.size + Text.size ('<' :: '/' :: newName ++ ['>']))
      refine ⟨.closes ⟨place + kept.size, newName, []⟩ :: written, .closes nested', ?_, ?_, ?_, ?_⟩
      · have passed := openSitesFrom_passes plain nonempty noSlash changed place noOpenKept
        rw [sites] at passed
        exact passed
      · have found := closingTagsFrom_written plain changed place noClosingKept
        rw [closings] at found
        exact found
      · rw [List.map_cons, exchange_tight closing.name rfl]
        exact @Replacement.Made.next place ⟨_, '<' :: '/' :: newName ++ ['>'], _⟩ _ _ _ _ rfl back
      · rw [List.map_cons, exchange_tight closing.name rfl]
        exact congrArg _ same

end

def renamedMarks (source name : Text) : List Mark :=
  exchanged 0 [] (weave (openSites source name) (closingTags source name))

def TightlyClosed (source name : Text) : Prop :=
  ∀ blank, '<' :: '/' :: name ++ blank ++ ['>'] <:+: source →
    (∀ c ∈ blank, Text.isAsciiBlank c = true) → blank = []

section
variable {source name newName : Text}

theorem nested_renamedMarks (source name : Text) : Nested 0 (renamedMarks source name) :=
  nested_exchanged 0 [] _

theorem renamedMarks_ordered (source : Text) (nonempty : name ≠ [])
    (noSlash : name.head? ≠ some '/') (plain : '<' ∉ name) :
    (renamedMarks source name).Pairwise fun a b => a.start < b.start := by
  have sites : (openSites source name).Pairwise fun a b => a.start < b.start :=
    (openSites_ordered _ _ _).imp And.left
  have closings : (closingTags source name).Pairwise fun a b => a.start < b.start := by
    refine closingTags_ordered.imp fun {a b} apart => Nat.lt_of_lt_of_le ?_ apart
    exact Nat.lt_add_of_pos_right (Text.size_pos (by simp [ClosingTag.text]))
  refine (weave_ordered sites closings ?_).sublist (exchanged_sublist _)
  intro site opens closing closes
  rcases closing_before_open nonempty noSlash plain (opensIn_of_mem opens) (closesIn_of_mem closes)
    with behind | before
  · have filled : closing.start < closing.stop :=
      Nat.lt_add_of_pos_right (Text.size_pos (by simp [ClosingTag.text]))
    omega
  · exact Nat.ne_of_lt before

theorem replacements_renamedMarks (source newName : Text) (origin : Origin)
    (nonempty : name ≠ []) (noSlash : name.head? ≠ some '/') (plain : '<' ∉ name) :
    replacements source name newName origin keepAttributes =
      (renamedMarks source name).map (exchange newName) := by
  apply replacements_eq
  · exact nested_renamedMarks source name
  · exact renamedMarks_ordered source nonempty noSlash plain
  · rw [renamedMarks, openTags_exchanged, openTags_eq, sites_weave]
  · exact (pairedFrom_weave _ _ 0 []).symm

theorem intact_renamedMarks (tight : TightlyClosed source name) :
    ∀ mark ∈ renamedMarks source name, Intact name mark := by
  intro mark member
  rcases mem_weave ((exchanged_sublist _).mem member) with ⟨site, opens, rfl⟩ | ⟨closing, closes, rfl⟩
  · obtain ⟨tag, rfl⟩ := (nested_renamedMarks source name).bounded member
    exact intact_of_site opens
  · obtain ⟨before, after, whole, -, rfl, blank⟩ := closesIn_of_mem closes
    exact ⟨rfl, tight closing.blank ⟨before, after, whole.symm⟩ blank⟩

/-- Renaming there and back. The new name occurs nowhere in the source, so the second renaming finds
the tags that the first one wrote and exchanges them again; tags that never end, their closing tags
and those without a partner are not among them. -/
theorem rename?_there_and_back (source name newName : Text) (origin origin' : Origin)
    (nonempty : name ≠ []) (noSlash : name.head? ≠ some '/') (plain : '<' ∉ name)
    (nonempty' : newName ≠ []) (noSlash' : newName.head? ≠ some '/') (plain' : '<' ∉ newName)
    (noEnd' : '>' ∉ newName) (noOpen : ¬ '<' :: newName <:+: source)
    (noClosing : ¬ '<' :: '/' :: newName <:+: source) (tight : TightlyClosed source name) :
    ∃ there back, rename? source name newName origin keepAttributes = some there ∧
      rename? there.text newName name origin' keepAttributes = some back ∧ back.text = source ∧
      (replacements there.text newName name origin' keepAttributes).map
          (fun piece => (piece.before, piece.after)) =
        (replacements source name newName origin keepAttributes).map
          fun piece => (piece.after, piece.before) := by
  obtain ⟨there, renamed, made, -⟩ :=
    rename?_made source newName origin keepAttributes nonempty noSlash plain
  obtain ⟨back, restored, remade, -⟩ :=
    rename?_made there.text name origin' keepAttributes nonempty' noSlash' plain'
  have pieces := replacements_renamedMarks source newName origin nonempty noSlash plain
  rw [pieces] at made
  obtain ⟨written, nested, sites, closings, undone, same⟩ :=
    found_again plain' nonempty' noSlash' noEnd' (nested_renamedMarks source name)
      (intact_renamedMarks tight) noOpen noClosing made 0
  have pieces' : replacements there.text newName name origin' keepAttributes =
      written.map (exchange name) := by
    have apart : written.Pairwise fun a b => a.stop ≤ b.start := by
      simpa [List.pairwise_map] using undone.apart
    have ordered := nested.ordered apart
    apply replacements_eq name origin' nested ordered
    · rw [openTags_eq, openSites, sites]
    · rw [openSites, closingTags, sites, closings, paired_nested nested ordered apart]
  rw [pieces'] at remade
  refine ⟨there, back, renamed, restored, remade.unique undone, ?_⟩
  rwa [pieces, pieces']

theorem tightlyClosed_of_no_blank (clear : source.any Text.isAsciiBlank = false) :
    TightlyClosed source name := by
  intro blank inside blanks
  apply List.eq_nil_iff_forall_not_mem.2
  intro c member
  exact List.any_eq_false.1 clear c (inside.subset (by simp [member])) (blanks c member)

theorem rename?_there_and_back_unmatched :
    ¬ "<B".toList <:+: "<A>é</A></A><A/\x7b><A/></A>".toList ∧
      ¬ "</B".toList <:+: "<A>é</A></A><A/\x7b><A/></A>".toList ∧
      TightlyClosed "<A>é</A></A><A/\x7b><A/></A>".toList ['A'] ∧
      ∃ there back,
        rename? "<A>é</A></A><A/\x7b><A/></A>".toList ['A'] ['B'] (Origin.ofSource [] [])
          keepAttributes = some there ∧
        rename? there.text ['B'] ['A'] (Origin.ofSource [] []) keepAttributes = some back ∧
        back.text = "<A>é</A></A><A/\x7b><A/></A>".toList ∧
        (replacements there.text ['B'] ['A'] (Origin.ofSource [] []) keepAttributes).map
            (fun piece => (piece.before, piece.after)) =
          (replacements "<A>é</A></A><A/\x7b><A/></A>".toList ['A'] ['B']
            (Origin.ofSource [] []) keepAttributes).map fun piece => (piece.after, piece.before) := by
  have noOpen : ¬ "<B".toList <:+: "<A>é</A></A><A/\x7b><A/></A>".toList :=
    Text.not_infix_of_not_occursIn (by decide)
  have noClosing : ¬ "</B".toList <:+: "<A>é</A></A><A/\x7b><A/></A>".toList :=
    Text.not_infix_of_not_occursIn (by decide)
  have tight : TightlyClosed "<A>é</A></A><A/\x7b><A/></A>".toList ['A'] :=
    tightlyClosed_of_no_blank (by decide)
  exact ⟨noOpen, noClosing, tight, rename?_there_and_back _ ['A'] ['B'] _ _ (by decide) (by decide)
    (by decide) (by decide) (by decide) (by decide) (by decide) noOpen noClosing tight⟩

end

end Tag
end Retag
