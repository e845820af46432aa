import Retag.Proofs.Replacement
import Retag.Proofs.Tag.Separation

/-! Renaming replaces the open tags that end and the closing tags that belong to them, and nothing
else. Main statement: for a name that can stand in a tag the pieces never overlap, so the renaming
has a result, which is the source with exactly these pieces exchanged. -/
namespace Retag.Tag

theorem splitTail_append (attributes : Text) :
    (splitTail attributes).1 ++ (splitTail attributes).2 = attributes := by
  have leading : (splitTail attributes).1 <+: attributes := by
    have trimmed : Text.trimEnd attributes <+: attributes := by
      obtain ⟨blanks, split, -⟩ := Text.trimEnd_append attributes
      exact ⟨blanks, split.symm⟩
    dsimp only [splitTail]
    split
    · exact (List.dropLast_prefix _).trans trimmed
    · exact trimmed
  exact List.prefix_iff_eq_append.1 leading

def replacements (source name newName : Text) (origin : Origin) (transform : AttributeTransform) :
    List Replacement :=
  StableSort.sort (·.start ≤ ·.start)
    (((openSites source name).filterMap bounded?).map
        (fun tag => (renameOpen newName origin transform tag).replacement) ++
      (paired (openSites source name) (closingTags source name)).map (renameClosing newName))

section
variable {source name newName : Text} {origin : Origin} {transform : AttributeTransform}

theorem mem_bounded {sites : List TagSite} {tag : OpenTag} :
    tag ∈ sites.filterMap bounded? ↔ .bounded tag ∈ sites := by
  refine List.mem_filterMap.trans ⟨?_, fun member => ⟨_, member, rfl⟩⟩
  rintro ⟨site, member, found⟩
  cases site with
  | bounded other => exact Option.some.inj found ▸ member
  | unterminated start => cases found

theorem mem_replacements {replacement : Replacement} :
    replacement ∈ replacements source name newName origin transform ↔
      (∃ tag, .bounded tag ∈ openSites source name ∧
        replacement = (renameOpen newName origin transform tag).replacement) ∨
      ∃ closing ∈ paired (openSites source name) (closingTags source name),
        replacement = renameClosing newName closing := by
  simp only [replacements, StableSort.mem_sort, List.mem_append, List.mem_map, mem_bounded,
    eq_comm (a := replacement)]

theorem name_of_bounded {tag : OpenTag} (site : .bounded tag ∈ openSites source name) :
    tag.name = name := by
  obtain ⟨_, _, _, _, _, named, _⟩ := opensIn_of_mem site
  exact named

theorem openTag_stands {tag : OpenTag} (site : .bounded tag ∈ openSites source name) :
    (renameOpen newName origin transform tag).replacement.StandsIn 0 source := by
  obtain ⟨before, rest, whole, start, -, rfl, after, closed⟩ := opensIn_of_mem site
  refine ⟨before, after, ?_, start⟩
  rw [whole, Text.eq_of_untilTagEnd? closed]
  simp [renameOpen, OpenTag.text]

theorem closing_stands {closing : ClosingTag}
    (member : closing ∈ paired (openSites source name) (closingTags source name)) :
    (renameClosing newName closing).StandsIn 0 source := by
  obtain ⟨before, after, whole, start, -⟩ :=
    closesIn_of_mem ((pairedFrom_sublist _ _ _ _).mem member)
  exact ⟨before, after, whole, start⟩

theorem replacements_stand {replacement : Replacement}
    (member : replacement ∈ replacements source name newName origin transform) :
    replacement.StandsIn 0 source := by
  rcases mem_replacements.1 member with ⟨tag, site, rfl⟩ | ⟨closing, among, rfl⟩
  · exact openTag_stands site
  · exact closing_stands among

theorem stop_renameOpen (tag : OpenTag) :
    (renameOpen newName origin transform tag).replacement.stop = tag.stop :=
  size_openTag tag

theorem replacements_filled {replacement : Replacement}
    (member : replacement ∈ replacements source name newName origin transform) :
    replacement.start < replacement.stop := by
  refine Nat.lt_add_of_pos_right (Text.size_pos ?_)
  rcases mem_replacements.1 member with ⟨tag, -, rfl⟩ | ⟨closing, -, rfl⟩
  · simp [renameOpen, OpenTag.text]
  · simp [renameClosing, ClosingTag.text]

/-- No two pieces have a byte in common: open tags follow each other, closing tags follow each
other, and a renamed closing tag stands outside every open tag. -/
theorem replacements_apart (source newName : Text) (origin : Origin)
    (transform : AttributeTransform) (nonempty : name ≠ []) (noSlash : name.head? ≠ some '/')
    (plain : '<' ∉ name) :
    (replacements source name newName origin transform).Pairwise fun a b => a.stop ≤ b.start := by
  refine Replacement.sort_apart
    (fun replacement member => replacements_filled (StableSort.mem_sort.2 member)) ?_
  refine List.pairwise_append.2 ⟨?_, ?_, ?_⟩
  · rw [List.pairwise_map, List.pairwise_filterMap]
    refine (openSites_ordered _ _ _).imp fun {a b} apart tag found other found' => ?_
    cases a <;> cases b <;> simp only [bounded?, Option.some.injEq, reduceCtorEq] at found found'
    rw [← found, ← found', stop_renameOpen]
    exact Or.inl apart.2
  · rw [List.pairwise_map]
    exact (closingTags_ordered.sublist (pairedFrom_sublist _ _ _ _)).imp Or.inl
  · intro a first b second
    obtain ⟨tag, site, rfl⟩ := List.mem_map.1 first
    obtain ⟨closing, member, rfl⟩ := List.mem_map.1 second
    rw [stop_renameOpen]
    exact paired_apart nonempty noSlash plain (mem_bounded.1 site) member

/-- A name that can stand in a tag always has a renaming, and it makes the replacements. -/
theorem rename?_made (source newName : Text) (origin : Origin) (transform : AttributeTransform)
    (nonempty : name ≠ []) (noSlash : name.head? ≠ some '/') (plain : '<' ∉ name) :
    ∃ result, rename? source name newName origin transform = some result ∧
      Replacement.Made 0 source (replacements source name newName origin transform) result.text ∧
      result.tags =
        ((openSites source name).filterMap bounded?).map (renameOpen newName origin transform) ∧
      result.splices =
        (replacements source name newName origin transform).filterMap Replacement.splice? := by
  obtain ⟨text, replaced, made⟩ := Replacement.replaceFrom?_made
    (fun _ => replacements_stand)
    (replacements_apart source newName origin transform nonempty noSlash plain)
  have pieces : replacements source name newName origin transform =
      StableSort.sort (·.start ≤ ·.start)
        ((((openSites source name).filterMap bounded?).map
              (renameOpen newName origin transform)).map (·.replacement) ++
          (paired (openSites source name) (closingTags source name)).map
            (renameClosing newName)) := by
    rw [List.map_map]
    rfl
  rw [pieces] at replaced made ⊢
  refine ⟨_, congrArg (Option.map _) replaced, made, rfl, rfl⟩

theorem mem_splices {pieces : List Replacement} {splice : Splice} :
    splice ∈ pieces.filterMap Replacement.splice? ↔
      ∃ piece ∈ pieces, piece.after ≠ piece.before ∧
        splice = ⟨piece.start, piece.stop, piece.after.size⟩ := by
  rw [List.mem_filterMap]
  refine exists_congr fun piece => and_congr_right fun _ => ?_
  rw [Replacement.splice?]
  split <;> simp_all [eq_comm]

theorem splices_apart {pieces : List Replacement}
    (apart : pieces.Pairwise fun a b => a.stop ≤ b.start) :
    (pieces.filterMap Replacement.splice?).Pairwise fun a b => a.stop ≤ b.start := by
  rw [List.pairwise_filterMap]
  refine apart.imp fun {a b} apart splice found splice' found' => ?_
  rw [Replacement.splice?] at found found'
  split at found
  · cases found
  · split at found'
    · cases found'
    · cases found
      cases found'
      exact apart

/-- Walking over the bytes after the name finds the same end, or finds none either. -/
theorem byte_walk_of_site {site : TagSite} (member : site ∈ openSites source name) :
    (Text.untilTagEnd? none 0
        ((Text.octets source).drop (site.start + Text.size ('<' :: name)))).map Prod.fst =
      (bounded? site).map fun tag => Text.octets tag.attributes := by
  obtain ⟨before, rest, rfl, start, -, bounds⟩ := opensIn_of_mem member
  have place : site.start + Text.size ('<' :: name) = Text.size (before ++ '<' :: name) := by
    rw [start, Text.size_append, Nat.zero_add]
  rw [place, Text.drop_octets, Text.untilTagEnd?_octets (by simp)]
  cases site with
  | bounded tag =>
    obtain ⟨-, after, closed⟩ := bounds
    simp [closed, bounded?]
  | unterminated start => simp [show Text.untilTagEnd? none 0 rest = none from bounds, bounded?]

end

/-- The piece is an open tag that ends. Its attribute text goes through the transform up to its
tail, and takes the new name. -/
def OpenPiece (source name newName : Text) (origin : Origin) (transform : AttributeTransform)
    (piece : Replacement) : Prop :=
  ∃ tag head tail, .bounded tag ∈ openSites source name ∧
    splitTail tag.attributes = (head, tail) ∧ head ++ tail = tag.attributes ∧
    piece = ⟨tag.start, '<' :: name ++ tag.attributes ++ ['>'],
      '<' :: newName ++ (transform head (origin.locate tag.start)).1 ++ tail ++ ['>']⟩

/-- The piece is a closing tag whose partner is an open tag that ends. -/
def ClosingPiece (source name newName : Text) (piece : Replacement) : Prop :=
  ∃ closing ∈ paired (openSites source name) (closingTags source name),
    piece = ⟨closing.start, '<' :: '/' :: name ++ closing.blank ++ ['>'],
      '<' :: '/' :: newName ++ ['>']⟩

/-- What a renaming does: `pieces` are the replacements it makes, in the order of the source. -/
structure Renames (source name newName : Text) (origin : Origin) (transform : AttributeTransform)
    (pieces : List Replacement) (result : Renaming) : Prop where
  mem_iff : ∀ piece, piece ∈ pieces ↔
    OpenPiece source name newName origin transform piece ∨ ClosingPiece source name newName piece
  /-- Each covers some bytes of the source, from one character boundary to another. -/
  stands : ∀ piece ∈ pieces, piece.start < piece.stop ∧ piece.StandsIn 0 source
  apart : pieces.Pairwise fun a b => a.stop ≤ b.start
  /-- The result is the source with these pieces exchanged and all else in its place. -/
  made : Replacement.Made 0 source pieces result.text
  /-- A walk over the bytes bounds the open tags in the same way. -/
  byteWalk : ∀ site ∈ openSites source name,
    (Text.untilTagEnd? none 0
        ((Text.octets source).drop (site.start + Text.size ('<' :: name)))).map Prod.fst =
      (bounded? site).map fun tag => Text.octets tag.attributes
  splices_iff : ∀ splice, splice ∈ result.splices ↔
    ∃ piece ∈ pieces, piece.after ≠ piece.before ∧
      splice = ⟨piece.start, piece.stop, piece.after.size⟩
  splices_apart : result.splices.Pairwise fun a b => a.stop ≤ b.start

theorem mem_replacements_iff {source name newName : Text} {origin : Origin}
    {transform : AttributeTransform} {piece : Replacement} :
    piece ∈ replacements source name newName origin transform ↔
      OpenPiece source name newName origin transform piece ∨
        ClosingPiece source name newName piece := by
  rw [mem_replacements]
  refine or_congr ⟨?_, ?_⟩ (exists_congr fun closing => and_congr_right fun member => ?_)
  · rintro ⟨tag, site, rfl⟩
    refine ⟨tag, _, _, site, rfl, splitTail_append _, ?_⟩
    rw [← name_of_bounded site]
    rfl
  · rintro ⟨tag, head, tail, site, split, -, rfl⟩
    obtain ⟨rfl, rfl⟩ := Prod.mk.inj split
    refine ⟨tag, site, ?_⟩
    rw [← name_of_bounded site]
    rfl
  · obtain ⟨_, _, _, _, rfl, _⟩ := closesIn_of_mem ((pairedFrom_sublist _ _ _ _).mem member)
    rfl

/-- For every name that is not empty, does not start with a slash and has no `<`, the renaming has
a result, whatever the source and the transform are. A slash or an empty name can make an open and
a closing tag start together, and then there is none. -/
theorem rename?_exchanges_tags (source name newName : Text) (origin : Origin)
    (transform : AttributeTransform) (nonempty : name ≠ []) (noSlash : name.head? ≠ some '/')
    (plain : '<' ∉ name) :
    ∃ pieces result, rename? source name newName origin transform = some result ∧
      Renames source name newName origin transform pieces result := by
  obtain ⟨result, renamed, made, -, splices⟩ := rename?_made source newName origin
    transform nonempty noSlash plain
  have apart := replacements_apart source newName origin transform nonempty noSlash plain
  refine ⟨replacements source name newName origin transform, result, renamed, ?_⟩
  exact {
    mem_iff := fun _ => mem_replacements_iff
    stands := fun _ member => ⟨replacements_filled member, replacements_stand member⟩
    apart
    made
    byteWalk := fun _ => byte_walk_of_site
    splices_iff := fun _ => splices ▸ mem_splices
    splices_apart := splices ▸ splices_apart apart }

theorem rename?_exchanges_tags_nested :
    ['B'] ≠ [] ∧ ['B'].head? ≠ some '/' ∧ '<' ∉ ['B'] ∧
      ∃ pieces result,
        rename? "<B t='\\é>' a=\x7b</B>\x7d>é</B ><B".toList ['B'] ['C'] (Origin.ofSource [] [])
          (fun text _ => (text.reverse, [])) = some result ∧
        Renames "<B t='\\é>' a=\x7b</B>\x7d>é</B ><B".toList ['B'] ['C'] (Origin.ofSource [] [])
          (fun text _ => (text.reverse, [])) pieces result :=
  ⟨by decide, by decide, by decide, rename?_exchanges_tags _ _ _ _ _ (by decide) (by decide)
    (by decide)⟩

end Retag.Tag
