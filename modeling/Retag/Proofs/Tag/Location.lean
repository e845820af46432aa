import Mathlib.Data.List.Pairwise
import Mathlib.Logic.ExistsUnique
import Retag.Proofs.Attribute.Shape
import Retag.Proofs.Tag.Separation
import Retag.Proofs.Text.TagEnd

/-! The searches for tags miss nothing and find nothing else. Main statement: for every name without
a `<`, each place where the name opens is found or lies in a tag that was found before it, each tag
is bounded by the first `>` at which nothing is open, and the closing tags are all there are. -/
namespace Retag.Tag

def InTag (sites : List TagSite) (offset : Nat) : Prop :=
  ∃ tag, .bounded tag ∈ sites ∧ tag.start < offset ∧ offset < tag.stop

section
variable {name text before rest : Text} {offset : Nat}

/-- A second `<` cannot stand in a piece that has only the first one. -/
theorem split_past {piece after tail : Text} (plain : '<' ∉ piece)
    (same : '<' :: piece ++ after = before ++ '<' :: tail) :
    before = [] ∨ ∃ more, before = '<' :: piece ++ more ∧ after = more ++ '<' :: tail := by
  cases before with
  | nil => exact .inl rfl
  | cons c before =>
    right
    obtain ⟨rfl, behind⟩ := List.cons.inj same
    rcases List.append_eq_append_iff.1 behind with ⟨more, rfl, follows⟩ | ⟨more, rfl, follows⟩
    · exact ⟨more, rfl, follows⟩
    · cases more with
      | nil => exact ⟨[], by simp, by simpa using follows.symm⟩
      | cons d more =>
        obtain ⟨rfl, -⟩ := List.cons.inj follows
        simp at plain

theorem InTag.shift {later : List TagSite} {first : TagSite} (inside : InTag later offset) :
    InTag (first :: later) offset := by
  obtain ⟨tag, member, range⟩ := inside
  exact ⟨tag, List.mem_cons_of_mem _ member, range⟩

/-- Each place where the name opens is found, unless it lies in a tag. The cases are those of the
search: after a tag it goes on at the end, and after a name that is longer or has no end behind the
name, in which no second place can lie. -/
theorem found_or_inTag (offset : Nat) (plain : '<' ∉ name)
    (whole : text = before ++ '<' :: name ++ rest) (ends : endsName rest = true) :
    (∃ site ∈ openSitesFrom name offset text, site.start = offset + before.size) ∨
      InTag (openSitesFrom name offset text) (offset + before.size) := by
  fun_induction openSitesFrom name offset text generalizing before with
  | case1 => simp at whole
  | case2 offset c cs absent ih =>
    cases before with
    | nil =>
      rw [whole, List.nil_append, Text.dropPrefix?_append] at absent
      cases absent
    | cons d before =>
      obtain ⟨rfl, tail⟩ := List.cons.inj whole
      rw [Text.size_cons, ← Nat.add_assoc]
      exact ih tail
  | case3 offset c cs rest' found next ends' attributes after closed =>
    rename_i ih
    let tag : OpenTag := ⟨offset, name, attributes⟩
    have stop : offset + tag.text.size = tag.stop := size_openTag tag
    have split : tag.text ++ after = before ++ ('<' :: name ++ rest) := by
      rw [Text.dropPrefix?_eq_some_iff.1 found, Text.eq_of_untilTagEnd? closed] at whole
      simpa [tag, OpenTag.text] using whole
    by_cases inside : before.size < tag.text.size
    · by_cases here : before.size = 0
      · exact .inl ⟨_, List.mem_cons_self, by simp [here]⟩
      · have range : tag.start < offset + before.size ∧ offset + before.size < tag.stop := by
          have start : tag.start = offset := rfl
          omega
        exact .inr ⟨tag, List.mem_cons_self, range⟩
    · obtain ⟨more, rfl, tail⟩ := Text.append_of_size_le split (Nat.le_of_not_lt inside)
      have place : offset + (tag.text ++ more).size = next + attributes.size + 1 + more.size := by
        have one : '>'.utf8Size = 1 := by decide
        simp [tag, OpenTag.text, next, one]
        omega
      rw [place]
      rcases ih (by simpa using tail) with ⟨site, member, start⟩ | inside
      · exact .inl ⟨site, List.mem_cons_of_mem _ member, start⟩
      · exact .inr inside.shift
  | case4 offset c cs rest' found next ends' endless =>
    rename_i ih
    rw [Text.dropPrefix?_eq_some_iff.1 found, List.append_assoc] at whole
    rcases split_past plain whole with rfl | ⟨more, rfl, tail⟩
    · exact .inl ⟨_, List.mem_cons_self, by simp⟩
    · rw [Text.size_append, ← Nat.add_assoc]
      rcases ih (by simpa using tail) with ⟨site, member, start⟩ | inside
      · exact .inl ⟨site, List.mem_cons_of_mem _ member, start⟩
      · exact .inr inside.shift
  | case5 offset c cs rest' found next longer =>
    rename_i ih
    rw [Text.dropPrefix?_eq_some_iff.1 found, List.append_assoc] at whole
    rcases split_past plain whole with rfl | ⟨more, rfl, tail⟩
    · have same : rest' = rest := List.append_cancel_left whole
      exact absurd (same ▸ ends) longer
    · rw [Text.size_append, ← Nat.add_assoc]
      exact ih (by simpa using tail)

theorem mem_of_closesIn {closing : ClosingTag} (plain : '<' ∉ name)
    (closes : ClosesIn name offset text closing) : closing ∈ closingTagsFrom name offset text := by
  obtain ⟨before, after, whole, start, named, blank⟩ := closes
  have pattern : closing.text ++ after = '<' :: '/' :: name ++ (closing.blank ++ '>' :: after) := by
    simp [ClosingTag.text, named]
  have ended : Text.Clear Text.isAsciiBlank ('>' :: after) := by
    rintro c ⟨⟩
    rfl
  rw [List.append_assoc, pattern] at whole
  fun_induction closingTagsFrom name offset text generalizing before with
  | case1 => simp at whole
  | case2 offset c cs absent ih =>
    cases before with
    | nil =>
      rw [whole, List.nil_append, Text.dropPrefix?_append] at absent
      cases absent
    | cons d before =>
      obtain ⟨rfl, tail⟩ := List.cons.inj whole
      exact ih before tail (by rw [start, Text.size_cons, Nat.add_assoc])
  | case3 offset c cs rest' found after' closed tag =>
    rename_i ih
    have noLt : '<' ∉ '/' :: tag.name ++ tag.blank ++ ['>'] :=
      lt_not_mem_closing rfl plain (List.all_eq_true.1 List.all_takeWhile)
    have split : tag.text ++ after' =
        before ++ ('<' :: '/' :: name ++ (closing.blank ++ '>' :: after)) :=
      (closingTag_split offset found closed).symm.trans whole
    rcases split_past noLt split with rfl | ⟨more, rfl, tail⟩
    · rw [Text.dropPrefix?_eq_some_iff.1 found] at whole
      have same : rest' = closing.blank ++ '>' :: after := List.append_cancel_left whole
      have blank : closing.blank = tag.blank := by
        rw [show tag.blank = rest'.takeWhile Text.isAsciiBlank from rfl, same,
          Text.takeWhile_clear blank ended]
      have first : closing = tag := by
        cases closing
        simp_all [tag]
      exact first ▸ List.mem_cons_self
    · have place : closing.start = tag.stop + more.size := by
        rw [start, Text.size_append, ← Nat.add_assoc]
        rfl
      exact List.mem_cons_of_mem _ (ih more tail place)
  | case4 offset c cs rest' found open' ih =>
    rw [Text.dropPrefix?_eq_some_iff.1 found] at whole
    have noLt : '<' ∉ '/' :: name := by simpa using plain
    rcases split_past noLt whole with rfl | ⟨more, rfl, tail⟩
    · have same : rest' = closing.blank ++ '>' :: after := List.append_cancel_left whole
      exact absurd (same ▸ Text.dropWhile_clear blank ended) (open' after)
    · exact ih more tail (by rw [start, Text.size_append, Nat.add_assoc])

end

def asciiBlanks : List Char := [' ', '\t', '\n', '\x0c', '\r']

/-- The name opens at byte `start`, and `rest` follows it. What follows cannot belong to a longer
name: it is white space, `/`, `>` or nothing. -/
def OccursAt (source name : Text) (start : Nat) (rest : Text) : Prop :=
  ∃ before, source = before ++ '<' :: name ++ rest ∧ start = before.size ∧
    ∀ c ∈ rest.head?, c ∈ asciiBlanks ∨ c = '/' ∨ c = '>'

/-- The tag stands in the source as its ranges say, and it ends at the first `>` after the name at
which nothing is open, also byte by byte. -/
def StandsBounded (source name : Text) (tag : OpenTag) : Prop :=
  ∃ before after, source = before ++ '<' :: name ++ tag.attributes ++ '>' :: after ∧
    tag.start = before.size ∧
    tag.attributesRange =
      ⟨(before ++ '<' :: name).size, (before ++ '<' :: name ++ tag.attributes).size⟩ ∧
    tag.stop = tag.attributesRange.stop + 1 ∧
    Text.Enclosure.Reaches {} tag.attributes ∧
    Text.Enclosure.Reaches {} (Text.octets tag.attributes)

/-- What is found of a name in a source. -/
structure LocatesTags (source name : Text) (sites : List TagSite) (closings : List ClosingTag) :
    Prop where
  ordered : sites.Pairwise fun a b => a.start < b.start ∧ a.stop ≤ b.start
  bounded : ∀ tag, .bounded tag ∈ sites → StandsBounded source name tag
  /-- A tag is reported as endless if and only if something is open at each `>` behind its name. -/
  unterminated_iff : ∀ start, .unterminated start ∈ sites ↔
    ¬InTag sites start ∧ ∃ rest, OccursAt source name start rest ∧
      Text.Enclosure.Holds {} rest ∧ Text.Enclosure.Holds {} (Text.octets rest)
  /-- A place where the name opens is found once, or else it lies in a tag found before it. -/
  found_iff : ∀ start rest, OccursAt source name start rest →
    ((∃! site, site ∈ sites ∧ site.start = start) ↔ ¬InTag sites start)
  occurs : ∀ site ∈ sites, ∃ rest, OccursAt source name site.start rest
  closings_iff : ∀ range : ByteRange,
    range ∈ closings.map (fun closing => ⟨closing.start, closing.stop⟩) ↔
      ∃ before blank after, source = before ++ ('<' :: '/' :: name ++ blank ++ ['>']) ++ after ∧
        (∀ c ∈ blank, c ∈ asciiBlanks) ∧
        range = ⟨before.size, before.size + Text.size ('<' :: '/' :: name ++ blank ++ ['>'])⟩
  closings_ordered : closings.Pairwise fun a b => a.stop ≤ b.start

section
variable {source name : Text}

theorem isAsciiBlank_iff {c : Char} : Text.isAsciiBlank c = true ↔ c ∈ asciiBlanks := by
  simp [Text.isAsciiBlank, asciiBlanks, or_assoc]

theorem endsName_iff {rest : Text} :
    endsName rest = true ↔ ∀ c ∈ rest.head?, c ∈ asciiBlanks ∨ c = '/' ∨ c = '>' := by
  cases rest with
  | nil => simp [endsName]
  | cons c rest => simp [endsName, isAsciiBlank_iff, or_assoc]

/-- What follows a place is determined by it. -/
theorem OccursAt.unique {start : Nat} {rest other : Text} (first : OccursAt source name start rest)
    (second : OccursAt source name start other) : rest = other := by
  obtain ⟨before, rfl, place, -⟩ := first
  obtain ⟨before', same, place', -⟩ := second
  rw [List.append_assoc, List.append_assoc] at same
  obtain rfl : before = before' := Text.eq_of_size_eq same (by omega)
  exact List.append_cancel_left (List.append_cancel_left same)

theorem occursAt_of_mem {site : TagSite} (member : site ∈ openSites source name) :
    ∃ rest, OccursAt source name site.start rest ∧ Bounds name rest site := by
  obtain ⟨before, rest, whole, start, ends, bounds⟩ := opensIn_of_mem member
  exact ⟨rest, ⟨before, whole, by rw [start, Nat.zero_add], endsName_iff.1 ends⟩, bounds⟩

theorem standsBounded_of_mem {tag : OpenTag} (member : .bounded tag ∈ openSites source name) :
    StandsBounded source name tag := by
  obtain ⟨rest, ⟨before, whole, start, -⟩, named, after, closed⟩ := occursAt_of_mem member
  obtain ⟨rfl, reached⟩ := Text.untilTagEnd?_eq_some_iff.1 closed
  have place : tag.start = before.size := start
  refine ⟨before, after, by simp [whole], place, ?_, rfl, reached, Text.reaches_octets closed⟩
  simp only [OpenTag.attributesRange, place, named, Text.size_append]

/-- Of two sites one comes first and ends before the other starts. -/
theorem sites_apart {a b : TagSite} (first : a ∈ openSites source name)
    (second : b ∈ openSites source name) :
    a = b ∨ (a.start < b.start ∧ a.stop ≤ b.start) ∨ (b.start < a.start ∧ b.stop ≤ a.start) := by
  have ordered := openSites_ordered name source 0
  refine List.Pairwise.forall_of_forall_of_flip (l := openSites source name)
    (R := fun a b => a = b ∨ (a.start < b.start ∧ a.stop ≤ b.start) ∨
      (b.start < a.start ∧ b.stop ≤ a.start)) ?_ ?_ ?_ first second
  · exact fun _ _ => .inl rfl
  · exact ordered.imp fun before => .inr (.inl before)
  · exact ordered.imp fun before => .inr (.inr before)

theorem not_inTag_of_mem {site : TagSite} (member : site ∈ openSites source name) :
    ¬InTag (openSites source name) site.start := by
  rintro ⟨tag, among, after, before⟩
  rcases sites_apart among member with rfl | ordered | ordered
  · exact Nat.lt_irrefl _ after
  · exact Nat.not_lt.2 ordered.2 before
  · exact Nat.lt_asymm after ordered.1

theorem exists_site (plain : '<' ∉ name) {start : Nat} {rest : Text}
    (occurs : OccursAt source name start rest) (outside : ¬InTag (openSites source name) start) :
    ∃ site ∈ openSites source name, site.start = start := by
  obtain ⟨before, whole, rfl, ends⟩ := occurs
  have found := found_or_inTag 0 plain whole (endsName_iff.2 ends)
  rw [Nat.zero_add] at found
  exact found.resolve_right outside

theorem mem_unterminated_iff (plain : '<' ∉ name) {start : Nat} :
    .unterminated start ∈ openSites source name ↔
      ¬InTag (openSites source name) start ∧ ∃ rest, OccursAt source name start rest ∧
        Text.Enclosure.Holds {} rest ∧ Text.Enclosure.Holds {} (Text.octets rest) := by
  constructor
  · intro member
    obtain ⟨rest, occurs, endless⟩ := occursAt_of_mem member
    exact ⟨not_inTag_of_mem member, rest, occurs, Text.untilTagEnd?_eq_none_iff.1 endless,
      Text.holds_octets endless⟩
  · rintro ⟨outside, rest, occurs, held, -⟩
    obtain ⟨site, member, rfl⟩ := exists_site plain occurs outside
    obtain ⟨other, occurs', bounds⟩ := occursAt_of_mem member
    obtain rfl := occurs.unique occurs'
    cases site with
    | bounded tag =>
      obtain ⟨-, after, closed⟩ := bounds
      rw [Text.untilTagEnd?_eq_none_iff.2 held] at closed
      cases closed
    | unterminated start => exact member

theorem existsUnique_site_iff (plain : '<' ∉ name) {start : Nat} {rest : Text}
    (occurs : OccursAt source name start rest) :
    (∃! site, site ∈ openSites source name ∧ site.start = start) ↔
      ¬InTag (openSites source name) start := by
  constructor
  · rintro ⟨site, ⟨member, rfl⟩, -⟩
    exact not_inTag_of_mem member
  · intro outside
    obtain ⟨site, member, rfl⟩ := exists_site plain occurs outside
    refine ⟨site, ⟨member, rfl⟩, ?_⟩
    rintro other ⟨among, same⟩
    rcases sites_apart among member with equal | ordered | ordered
    · exact equal
    · exact absurd same (Nat.ne_of_lt ordered.1)
    · exact absurd same (Nat.ne_of_gt ordered.1)

theorem mem_closingRanges_iff (plain : '<' ∉ name) {range : ByteRange} :
    range ∈ (closingTags source name).map (fun closing => ⟨closing.start, closing.stop⟩) ↔
      ∃ before blank after, source = before ++ ('<' :: '/' :: name ++ blank ++ ['>']) ++ after ∧
        (∀ c ∈ blank, c ∈ asciiBlanks) ∧
        range = ⟨before.size, before.size + Text.size ('<' :: '/' :: name ++ blank ++ ['>'])⟩ := by
  rw [List.mem_map]
  constructor
  · rintro ⟨closing, member, rfl⟩
    obtain ⟨before, after, whole, start, rfl, blank⟩ := closesIn_of_mem member
    rw [Nat.zero_add] at start
    refine ⟨before, closing.blank, after, whole,
      fun c inside => isAsciiBlank_iff.1 (blank c inside), ?_⟩
    rw [ClosingTag.stop, start]
    rfl
  · rintro ⟨before, blank, after, whole, isBlank, rfl⟩
    have closes : ClosesIn name 0 source ⟨before.size, name, blank⟩ :=
      ⟨before, after, whole, by simp, rfl, fun c inside => isAsciiBlank_iff.2 (isBlank c inside)⟩
    exact ⟨_, mem_of_closesIn plain closes, rfl⟩

end

/-- For every source and every name without a `<` the tags found are exactly those that stand there.
A name that is empty or starts with a slash is no exception. -/
theorem openSites_locates_tags (source name : Text) (plain : '<' ∉ name) :
    LocatesTags source name (openSites source name) (closingTags source name) where
  ordered := openSites_ordered name source 0
  bounded _ member := standsBounded_of_mem member
  unterminated_iff _ := mem_unterminated_iff plain
  found_iff _ _ occurs := existsUnique_site_iff plain occurs
  occurs site member := by
    obtain ⟨rest, occurs, -⟩ := occursAt_of_mem member
    exact ⟨rest, occurs⟩
  closings_iff _ := mem_closingRanges_iff plain
  closings_ordered := closingTags_ordered

/-- A longer name, a tag in a tag, quotes and braces that hide a `>`, and tags without an end. -/
theorem openSites_locates_tags_nested :
    '<' ∉ ['B'] ∧
      LocatesTags "<Bc><B t='\\é>' a=\x7b<B>\x7d\x7d>é</B\n></B x><B `<B/>".toList ['B']
        (openSites "<Bc><B t='\\é>' a=\x7b<B>\x7d\x7d>é</B\n></B x><B `<B/>".toList ['B'])
        (closingTags "<Bc><B t='\\é>' a=\x7b<B>\x7d\x7d>é</B\n></B x><B `<B/>".toList ['B']) :=
  ⟨by decide, openSites_locates_tags _ _ (by decide)⟩

end Retag.Tag
