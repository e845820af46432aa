import Retag.Proofs.Tag.Quiet
import Retag.Proofs.Tag.Renaming

/-! What a renaming leaves of the old name. If every tag of the name that could open does open and
end, then no such tag is left, whatever quiet text the transform makes of quiet attributes. -/
namespace Retag.Tag

/-- Wherever `<name` stands, it starts a tag that ends, or the name goes on. -/
def Clean (source name : Text) : Prop :=
  ∀ before rest, source = before ++ '<' :: name ++ rest →
    (∃ tag, .bounded tag ∈ openSites source name ∧ tag.start = before.size) ∨ GoesOn rest

section
variable {source name newName : Text} {tag : OpenTag}

def isClean (source name : Text) : Bool :=
  (List.range (source.length + 1)).all fun n =>
    (Text.dropPrefix? ('<' :: name) (source.drop n)).all fun rest =>
      ((openSites source name).filterMap bounded?).any (·.start == Text.size (source.take n)) ||
        rest.head?.any (!canEndName ·)

theorem isClean_iff : isClean source name = true ↔ Clean source name := by
  simp only [isClean, List.all_eq_true, List.mem_range, Option.all_eq_true, Bool.or_eq_true,
    List.any_eq_true, mem_bounded, beq_iff_eq, Option.any_eq_true, Bool.not_eq_true']
  constructor
  · intro checked before rest whole
    have cut : source.take before.length = before ∧
        source.drop before.length = '<' :: name ++ rest := by
      rw [whole, List.append_assoc]
      exact ⟨List.take_left, List.drop_left⟩
    have bound : before.length < source.length + 1 := by
      rw [whole, List.append_assoc, List.length_append]
      omega
    have here := checked before.length bound rest (Text.dropPrefix?_eq_some_iff.2 cut.2)
    rwa [cut.1] at here
  · intro clean n _ rest found
    apply clean (source.take n) rest
    rw [List.append_assoc, ← Text.dropPrefix?_eq_some_iff.1 found, List.take_append_drop]

/-- No tag that ends starts inside another one. -/
theorem stop_le_start {other : OpenTag} (member : .bounded tag ∈ openSites source name)
    (among : .bounded other ∈ openSites source name) (later : tag.start < other.start) :
    tag.stop ≤ other.start := by
  have ordered := openSites_ordered name source 0
  obtain ⟨front, rest, split⟩ := List.append_of_mem member
  rw [openSites] at split among
  rw [split] at ordered among
  obtain ⟨-, onward, across⟩ := List.pairwise_append.1 ordered
  rcases List.mem_append.1 among with earlier | among
  · have reverse := (across _ earlier (.bounded tag) (by simp)).1
    simp only [start_bounded] at reverse
    omega
  · rcases List.mem_cons.1 among with ⟨⟨⟩⟩ | further
    · omega
    · exact ((List.pairwise_cons.1 onward).1 _ further).2

theorem quiet_attributes (clean : Clean source name)
    (member : .bounded tag ∈ openSites source name) : Quiet name tag.attributes := by
  intro before rest split
  obtain ⟨front, tail, whole, start, -, named, after, closed⟩ := opensIn_of_mem member
  rw [Text.eq_of_untilTagEnd? closed, split] at whole
  rcases clean (front ++ '<' :: name ++ before) (rest ++ '>' :: after) (by simp [whole]) with
    ⟨other, among, place⟩ | goesOn
  · -- Another tag would start inside this one.
    have first : tag.start = front.size := by simpa using start
    have size := size_openTag tag
    have apart := stop_le_start member among
    rw [place, first] at apart
    rw [← size, first] at apart
    simp only [OpenTag.text, named, split, Text.size_append, Text.size_cons] at apart
    have positive := ('<').utf8Size_pos
    omega
  · cases rest with
    | nil =>
      obtain ⟨c, first, inert⟩ := goesOn
      obtain rfl : '>' = c := by simpa using first
      exact absurd inert (by decide)
    | cons c cs => exact goesOn

theorem splitTail_tail (attributes : Text) :
    ∀ c ∈ (splitTail attributes).2, Text.isBlank c = true ∨ c = '/' := by
  obtain ⟨blanks, split, blank⟩ := Text.trimEnd_append attributes
  have tail : (splitTail attributes).2 = blanks ∨ (splitTail attributes).2 = '/' :: blanks := by
    dsimp only [splitTail]
    generalize Text.trimEnd attributes = trimmed at split
    subst split
    split
    · rename_i slash
      obtain ⟨front, rfl⟩ := List.getLast?_eq_some_iff.1 (beq_iff_eq.1 slash)
      exact .inr (by simp)
    · exact .inl (by simp)
  intro c member
  rcases tail with tail | tail
  · exact .inl (blank c (tail ▸ member))
  · rw [tail] at member
    exact (List.mem_cons.1 member).symm.imp_left (blank c)

variable (letters : ∀ c ∈ name, c.isAlpha = true)
include letters

theorem quiet_head (clean : Clean source name) (member : .bounded tag ∈ openSites source name) :
    Quiet name (splitTail tag.attributes).1 := by
  have quiet := quiet_attributes clean member
  rw [← splitTail_append tag.attributes] at quiet
  refine quiet.left letters (.inr fun c first => ?_)
  rcases splitTail_tail _ c (List.mem_of_mem_head? first) with blank | rfl
  · simp [canEndName, blank]
  · decide

omit letters in
/-- A tag of a fresh name is quiet if what follows the name is. -/
theorem quiet_tag {text : Text} (fresh : ∀ a b, newName ++ a ≠ name ++ b) (plain : '<' ∉ newName)
    (quiet : Quiet name text) : Quiet name ('<' :: newName ++ text) := by
  intro before rest same
  cases before with
  | nil => exact absurd (List.cons.inj same).2 (fresh _ _)
  | cons c before =>
    have tail : newName ++ text = before ++ ('<' :: name ++ rest) := by
      simpa using (List.cons.inj same).2
    rcases List.append_eq_append_iff.1 tail with ⟨middle, -, within⟩ | ⟨middle, longer, within⟩
    · exact quiet middle rest (by simp [within])
    · cases middle with
      | nil => exact quiet [] rest within.symm
      | cons d ds =>
        obtain ⟨rfl, -⟩ := List.cons.inj within
        exact absurd (by simp [longer]) plain

theorem quiet_openPiece {transform : AttributeTransform} {origin : Origin}
    (fresh : ∀ a b, newName ++ a ≠ name ++ b) (plain : '<' ∉ newName)
    (keeps : ∀ text location, Quiet name text → Quiet name (transform text location).1)
    (clean : Clean source name) (member : .bounded tag ∈ openSites source name) :
    Quiet name (renameOpen newName origin transform tag).replacement.after := by
  have changed := keeps _ (origin.locate tag.start) (quiet_head letters clean member)
  have tail : '<' ∉ (splitTail tag.attributes).2 ++ ['>'] := by
    simp only [List.mem_append, not_or]
    refine ⟨fun inside => ?_, by decide⟩
    rcases splitTail_tail _ '<' inside with blank | slash
    · exact absurd blank (by decide)
    · exact absurd slash (by decide)
  have starts : ∀ c ∈ ((splitTail tag.attributes).2 ++ ['>']).head?, c.isAlpha = false := by
    intro c first
    rcases List.mem_append.1 (List.mem_of_mem_head? first) with inside | last
    · rcases splitTail_tail _ c inside with blank | rfl
      · exact isAlpha_of_blank blank
      · decide
    · exact List.mem_singleton.1 last ▸ by decide
  have whole := quiet_tag fresh plain (.append letters changed (.of_plain tail) (.inr starts))
  simpa [renameOpen] using whole

/-- A text is quiet up to the `<` after it if the name goes on wherever it starts before that. -/
theorem quiet_kept {kept : Text} (more : Text) (nonempty : name ≠ [])
    (goesOn : ∀ front tail, kept ++ '<' :: more = front ++ '<' :: name ++ tail →
      front.size < kept.size → GoesOn tail) : Quiet name (kept ++ ['<']) := by
  intro front tail same
  cases tail with
  | nil =>
    obtain ⟨start, last, rfl⟩ := List.eq_nil_or_concat name |>.resolve_left nonempty
    have letter := letters last (by simp)
    have same : kept ++ ['<'] = (front ++ '<' :: start) ++ [last] := by simpa using same
    obtain ⟨-, final⟩ := List.append_inj' same rfl
    obtain rfl : '<' = last := by simpa using final
    exact absurd letter (by decide)
  | cons c cs =>
    have whole : kept ++ '<' :: more = front ++ '<' :: name ++ (c :: cs ++ more) := by
      rw [← List.append_assoc, ← same]
      simp
    have sizes := congrArg Text.size same
    simp only [Text.size_append, Text.size_cons, Text.size_nil] at sizes
    have width := c.utf8Size_pos
    have onward : GoesOn (c :: cs ++ more) := goesOn front _ whole (by omega)
    exact onward

/-- Quiet pieces make a quiet text, if the name goes on wherever it starts outside them. -/
theorem quiet_made {offset : Nat} {text changed : Text} {pieces : List Replacement}
    (made : Replacement.Made offset text pieces changed) (nonempty : name ≠ [])
    (filled : ∀ piece ∈ pieces, piece.start < piece.stop)
    (apart : pieces.Pairwise fun a b => a.stop ≤ b.start)
    (opens : ∀ piece ∈ pieces, piece.before.head? = some '<' ∧ piece.after.head? = some '<')
    (quiet : ∀ piece ∈ pieces, Quiet name piece.after ∧ EndsOutside piece.after)
    (covered : ∀ before rest, text = before ++ '<' :: name ++ rest →
      (∃ piece ∈ pieces, piece.start = offset + before.size) ∨ GoesOn rest) :
    Quiet name changed := by
  induction made with
  | done =>
    intro before rest same
    rcases covered before rest same with ⟨piece, member, -⟩ | goesOn
    · simp at member
    · exact goesOn
  | @next offset piece pieces kept rest changed start made ih =>
    obtain ⟨beyond, apart⟩ := List.pairwise_cons.1 apart
    obtain ⟨before, opened⟩ := List.head?_eq_some_iff.1 (opens piece (by simp)).1
    obtain ⟨after, opens'⟩ := List.head?_eq_some_iff.1 (opens piece (by simp)).2
    obtain ⟨pieceQuiet, ends⟩ := quiet piece (by simp)
    have positive := filled piece (by simp)
    have inner : Quiet name changed := by
      refine ih (fun piece member => filled piece (by simp [member])) apart
        (fun piece member => opens piece (by simp [member]))
        (fun piece member => quiet piece (by simp [member])) fun front tail same => ?_
      refine (covered (kept ++ piece.before ++ front) tail (by simp [same])).imp_left ?_
      rintro ⟨other, member, place⟩
      have stop : other.start = piece.stop + front.size := by
        rw [place, Replacement.stop, start]
        simp only [Text.size_append]
        omega
      rcases List.mem_cons.1 member with rfl | member
      · omega
      · exact ⟨other, member, stop⟩
    have keptQuiet : Quiet name (kept ++ ['<']) := by
      refine quiet_kept letters (before ++ rest) nonempty fun front tail same shorter => ?_
      rcases covered front tail (by rw [← same, opened]; simp) with ⟨other, member, place⟩ | goesOn
      · -- The pieces start with this one, so the name starts before all of them.
        have later : piece.start ≤ other.start := by
          rcases List.mem_cons.1 member with rfl | member
          · exact Nat.le_refl _
          · exact Nat.le_trans (Nat.le_of_lt positive) (beyond other member)
        omega
      · exact goesOn
    rw [List.append_assoc, opens', List.cons_append]
    refine keptQuiet.append_open letters ?_
    rw [← List.cons_append, ← opens']
    exact pieceQuiet.append letters inner (.inl ends)

/-- Renaming to a fresh name leaves a clean text quiet, if the transform keeps attributes quiet. -/
theorem rename?_quiet {origin : Origin} {transform : AttributeTransform} {result : Renaming}
    (nonempty : name ≠ []) (fresh : ∀ a b, newName ++ a ≠ name ++ b) (plain : '<' ∉ newName)
    (keeps : ∀ text location, Quiet name text → Quiet name (transform text location).1)
    (clean : Clean source name)
    (renamed : rename? source name newName origin transform = some result) :
    Quiet name result.text := by
  have noSlash : name.head? ≠ some '/' := fun first =>
    absurd (letters '/' (List.mem_of_mem_head? first)) (by decide)
  have noOpen : '<' ∉ name := fun member => absurd (letters '<' member) (by decide)
  obtain ⟨_, again, made, -⟩ := rename?_made source newName origin transform nonempty noSlash noOpen
  obtain rfl := Option.some.inj (again.symm.trans renamed)
  refine quiet_made letters made nonempty (fun _ => replacements_filled)
    (replacements_apart _ _ _ _ nonempty noSlash noOpen) ?_ ?_ ?_
  · intro piece member
    rcases mem_replacements.1 member with ⟨tag, -, rfl⟩ | ⟨closing, -, rfl⟩ <;> exact ⟨rfl, rfl⟩
  · intro piece member
    rcases mem_replacements.1 member with ⟨tag, site, rfl⟩ | ⟨closing, -, rfl⟩
    · exact ⟨quiet_openPiece letters fresh plain keeps clean site, endsOutside_concat _ (by decide)⟩
    · have slash : ∀ a b, '/' :: newName ++ a ≠ name ++ b := by
        obtain ⟨c, cs, rfl⟩ := List.exists_cons_of_ne_nil nonempty
        intro a b same
        exact absurd (congrArg some (List.cons.inj same).1.symm) noSlash
      have closing : Quiet name ('<' :: ('/' :: newName) ++ ['>']) :=
        quiet_tag slash (by simpa using plain) (.of_plain (by decide))
      exact ⟨closing, endsOutside_concat _ (by decide)⟩
  · intro before rest same
    refine (clean before rest same).imp_left ?_
    rintro ⟨tag, site, place⟩
    exact ⟨_, mem_replacements.2 (.inl ⟨tag, site, rfl⟩), by simpa [renameOpen] using place⟩

end
end Retag.Tag
