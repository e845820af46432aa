import Retag.Import.Statement
import Retag.Proofs.Attribute.Shape

/-! Lists of names. A list that was written in either layout is read as the names it was written
from, with the same indentation, and every name that was read can be written again. -/
namespace Retag

namespace Text

def Blank (text : Text) : Prop := ∀ c ∈ text, isBlank c = true

theorem Blank.not_mem {text : Text} {c : Char} (blank : Blank text) (ink : isBlank c = false) :
    c ∉ text := by
  intro member
  rw [blank c member] at ink
  cases ink

theorem blank_of_spaceOrTab {text : Text} (inside : ∀ c ∈ text, isSpaceOrTab c = true) :
    Blank text := by
  intro c member
  have either := inside c member
  simp only [isSpaceOrTab, Bool.or_eq_true, beq_iff_eq] at either
  rcases either with rfl | rfl <;> decide

theorem trimEnd_between {front back : Text} (ink : ∀ c ∈ front.getLast?, isBlank c = false)
    (blank : Blank back) : trimEnd (front ++ back) = front := by
  have clear : Clear isBlank front.reverse := by
    intro c first
    rw [List.head?_reverse] at first
    exact ink c first
  rw [trimEnd, List.reverse_append, dropWhile_clear ?_ clear, List.reverse_reverse]
  exact fun c member => blank c (List.mem_reverse.1 member)

/-- Neither the first nor the last character is white space. -/
theorem trim_ends (text : Text) :
    Clear isBlank (trim text) ∧ ∀ c ∈ (trim text).getLast?, isBlank c = false := by
  constructor
  · intro c first
    obtain ⟨blanks, split, -⟩ := trimEnd_append (trimStart text)
    refine clear_dropWhile isBlank text c ?_
    obtain ⟨rest, head⟩ := List.head?_eq_some_iff.1 first
    change c ∈ (trimStart text).head?
    rw [split, show trimEnd (trimStart text) = c :: rest from head]
    rfl
  · intro c last
    rw [trim, trimEnd, List.getLast?_reverse] at last
    exact clear_dropWhile isBlank _ c last

theorem trim_between {a name b : Text} (before : Blank a) (after : Blank b) (filled : name ≠ [])
    (trimmed : trim name = name) : trim (a ++ name ++ b) = name := by
  have ends := trim_ends name
  rw [trimmed] at ends
  have clear : Clear isBlank (name ++ b) := by
    obtain ⟨c, cs, rfl⟩ := List.exists_cons_of_ne_nil filled
    exact ends.1
  rw [trim, trimStart, List.append_assoc, dropWhile_clear before clear]
  exact trimEnd_between ends.2 after

theorem trim_eq_self {text : Text} (clear : Clear isBlank text)
    (ink : ∀ c ∈ text.getLast?, isBlank c = false) : trim text = text := by
  have nothing : Blank [] := by simp [Blank]
  have start : trimStart text = text := dropWhile_clear nothing clear
  have stop := trimEnd_between ink nothing
  rw [trim, start]
  simpa using stop

theorem trim_trim (text : Text) : trim (trim text) = trim text :=
  trim_eq_self (trim_ends text).1 (trim_ends text).2

theorem trim_ne_nil {text : Text} {c : Char} (member : c ∈ text) (ink : isBlank c = false) :
    trim text ≠ [] := by
  intro empty
  obtain ⟨blanks, split, blank⟩ := trimEnd_append (trimStart text)
  rw [show trimEnd (trimStart text) = [] from empty, List.nil_append] at split
  rw [← List.takeWhile_append_dropWhile (p := isBlank) (l := text)] at member
  rcases List.mem_append.1 member with front | back
  · rw [List.all_eq_true.1 List.all_takeWhile c front] at ink
    cases ink
  · exact Blank.not_mem blank ink (split ▸ back)

theorem mem_of_mem_trim {text : Text} {c : Char} (member : c ∈ trim text) : c ∈ text := by
  obtain ⟨blanks, split, -⟩ := trimEnd_append (trimStart text)
  refine (List.dropWhile_sublist isBlank).mem (?_ : c ∈ trimStart text)
  rw [split]
  exact List.mem_append_left _ member

theorem splitOn_ne_nil (separator : Char) (text : Text) : splitOn separator text ≠ [] := by
  induction text with
  | nil => simp [splitOn]
  | cons c cs ih =>
    rw [splitOn]
    split
    · exact absurd ‹_› ih
    · split <;> simp

theorem splitOn_of_not_mem {separator : Char} {text : Text} (absent : separator ∉ text) :
    splitOn separator text = [text] := by
  obtain ⟨piece, pieces, split⟩ := List.exists_cons_of_ne_nil (splitOn_ne_nil separator text)
  rcases splitOn_inv split with ⟨rfl, rfl⟩ | ⟨rest, rfl, -⟩
  · exact split
  · simp at absent

theorem splitOn_append {separator : Char} {front : Text} (absent : separator ∉ front)
    (rest : Text) :
    splitOn separator (front ++ separator :: rest) = front :: splitOn separator rest := by
  induction front with
  | nil =>
    obtain ⟨piece, pieces, split⟩ := List.exists_cons_of_ne_nil (splitOn_ne_nil separator rest)
    simp [splitOn, split]
  | cons c cs ih =>
    simp only [List.mem_cons, not_or] at absent
    rw [List.cons_append, splitOn, ih absent.2]
    simp [Ne.symm absent.1]

/-- A piece has no separator, and its characters are those of the text. -/
theorem mem_splitOn {separator : Char} {text piece : Text}
    (member : piece ∈ splitOn separator text) : separator ∉ piece ∧ piece ⊆ text := by
  induction text generalizing piece with
  | nil => simp_all [splitOn]
  | cons c cs ih =>
    rw [splitOn] at member
    split at member
    · cases member
    · rename_i first others inner
      have among : ∀ other ∈ first :: others, separator ∉ other ∧ other ⊆ c :: cs :=
        fun other inside => ⟨(ih (inner ▸ inside)).1,
          List.subset_cons_of_subset c (ih (inner ▸ inside)).2⟩
      split at member
      · rcases List.mem_cons.1 member with rfl | member
        · simp
        · exact among piece member
      · rename_i differ
        rcases List.mem_cons.1 member with rfl | member
        · obtain ⟨absent, sub⟩ := among first (by simp)
          refine ⟨?_, List.cons_subset.2 ⟨by simp, sub⟩⟩
          simp only [List.mem_cons, not_or]
          exact ⟨fun same => differ (by simp [same]), absent⟩
        · exact among piece (by simp [member])

/-- A character that a piece does not have stands behind it. -/
theorem append_past {x : Char} {piece rest before after : Text} (absent : x ∉ piece)
    (same : piece ++ rest = before ++ x :: after) :
    ∃ more, before = piece ++ more ∧ rest = more ++ x :: after := by
  rcases List.append_eq_append_iff.1 same with ⟨more, rfl, follows⟩ | ⟨more, rfl, follows⟩
  · exact ⟨more, rfl, follows⟩
  · cases more with
    | nil => exact ⟨[], by simp, by simpa using follows.symm⟩
    | cons c more =>
      obtain ⟨rfl, -⟩ := List.cons.inj follows
      simp at absent

theorem lines_append {front : Text} (line : '\n' ∉ front) (rest : Text) :
    lines (front ++ '\n' :: rest) = dropReturn front :: lines rest := by
  obtain ⟨piece, pieces, split⟩ := List.exists_cons_of_ne_nil (splitOn_ne_nil '\n' rest)
  simp only [lines, splitOn_append line, split, List.dropLast_cons_cons, List.map_cons,
    List.getLast?_cons_cons]
  split <;> rfl

theorem lines_of_not_mem {text : Text} (line : '\n' ∉ text) : (lines text).drop 1 = [] := by
  simp only [lines, splitOn_of_not_mem line]
  split <;> simp

/-- A carriage return at the end of a line is not its only character that is not white space. -/
theorem dropReturn_append {front more : Text} {c : Char} (ink : isBlank c = false) :
    ∃ rest, dropReturn (front ++ c :: more) = front ++ c :: rest := by
  unfold dropReturn
  split
  · rename_i last
    rcases List.eq_nil_or_concat more with rfl | ⟨rest, d, rfl⟩
    · obtain rfl : c = '\r' := by simpa using last
      exact absurd ink (by decide)
    · refine ⟨rest, ?_⟩
      rw [List.concat_eq_append, ← List.cons_append, ← List.append_assoc, List.dropLast_concat]
  · exact ⟨more, rfl⟩

end Text

namespace Import
open Text (Blank Clear)

structure IsEntry (name : Text) : Prop where
  filled : name ≠ []
  trimmed : Text.trim name = name
  noComma : ',' ∉ name
  noBrace : '}' ∉ name

theorem isEntry_of_mem {list name : Text} (inside : '}' ∉ list)
    (member : name ∈ readNames list) : IsEntry name ∧ name ⊆ list := by
  obtain ⟨among, filled⟩ := List.mem_filter.1 member
  obtain ⟨piece, split, rfl⟩ := List.mem_map.1 among
  obtain ⟨noComma, sub⟩ := Text.mem_splitOn split
  have sub : Text.trim piece ⊆ list := fun c inside => sub (Text.mem_of_mem_trim inside)
  exact ⟨⟨by simpa using filled, Text.trim_trim piece,
    fun comma => noComma (Text.mem_of_mem_trim comma), fun brace => inside (sub brace)⟩, sub⟩

section
variable {name a b : Text} (entry : IsEntry name) (before : Blank a) (after : Blank b)
include entry before after

theorem comma_not_mem_padded : ',' ∉ a ++ name ++ b := by
  simp only [List.mem_append, not_or]
  exact ⟨⟨before.not_mem (by decide), entry.noComma⟩, after.not_mem (by decide)⟩

theorem readNames_last : readNames (a ++ name ++ b) = [name] := by
  rw [readNames, Text.splitOn_of_not_mem (comma_not_mem_padded entry before after),
    List.map_singleton, Text.trim_between before after entry.filled entry.trimmed]
  simp [entry.filled]

theorem readNames_next (rest : Text) :
    readNames (a ++ name ++ b ++ ',' :: rest) = name :: readNames rest := by
  rw [readNames, Text.splitOn_append (comma_not_mem_padded entry before after), List.map_cons,
    Text.trim_between before after entry.filled entry.trimmed,
    List.filter_cons_of_pos (by simp [entry.filled])]
  rfl

end

def renderList (multiline : Bool) (indent : Text) (names : List Text) : Text :=
  if multiline then '\n' :: names.flatMap fun name => indent ++ name ++ ",\n".toList
  else ' ' :: ", ".toList.intercalate names ++ [' ']

section
variable {names : List Text} (entries : ∀ name ∈ names, IsEntry name)
include entries

theorem readNames_intercalate (filled : names ≠ []) {a b : Text} (before : Blank a)
    (after : Blank b) : readNames (a ++ ", ".toList.intercalate names ++ b) = names := by
  induction names generalizing a with
  | nil => exact absurd rfl filled
  | cons name rest ih =>
    have entry := entries name (by simp)
    cases rest with
    | nil => simpa using readNames_last entry before after
    | cons next rest =>
      have space : Blank [' '] := List.all_eq_true.1 (by decide)
      have nothing : Blank [] := by simp [Blank]
      have inner := ih (fun other member => entries other (by simp [member])) (by simp) space
      have first := readNames_next entry before nothing
        ([' '] ++ ", ".toList.intercalate (next :: rest) ++ b)
      rw [inner] at first
      rw [List.intercalate_cons_cons]
      simpa using first

theorem readNames_lines {indent : Text} (blank : Blank indent) :
    readNames ('\n' :: names.flatMap fun name => indent ++ name ++ ",\n".toList) = names := by
  induction names with
  | nil => rfl
  | cons name rest ih =>
    have line : Blank ('\n' :: indent) := by
      intro c member
      rcases List.mem_cons.1 member with rfl | member
      · decide
      · exact blank c member
    have inner := ih fun other member => entries other (by simp [member])
    have first := readNames_next (entries name (by simp)) line (b := []) (by simp [Blank])
      ('\n' :: rest.flatMap fun name => indent ++ name ++ ",\n".toList)
    rw [inner] at first
    simpa using first

end

/-- The indentation is spaces and tabs. -/
theorem readIndent_inside (list : Text) : ∀ c ∈ readIndent list, Text.isSpaceOrTab c = true := by
  unfold readIndent
  split
  · exact List.all_eq_true.1 List.all_takeWhile
  · exact List.all_eq_true.1 (by decide)

/-- A list on one line has no indentation of its own. -/
theorem readIndent_of_not_mem {list : Text} (line : '\n' ∉ list) : readIndent list = [' ', ' '] := by
  rw [readIndent, Text.lines_of_not_mem line]
  rfl

theorem readIndent_line {indent name : Text} (inside : ∀ c ∈ indent, Text.isSpaceOrTab c = true)
    (entry : IsEntry name) (rest : Text) :
    readIndent ('\n' :: (indent ++ name ++ ",\n".toList ++ rest)) = indent := by
  have blank := Text.blank_of_spaceOrTab inside
  obtain ⟨c, cs, rfl⟩ := List.exists_cons_of_ne_nil entry.filled
  have ink : Text.isBlank c = false := by
    have ends := (Text.trim_ends (c :: cs)).1
    rw [entry.trimmed] at ends
    exact ends c rfl
  have notTab : Text.isSpaceOrTab c = false := by
    rw [Bool.eq_false_iff]
    intro isTab
    have alone : ∀ d ∈ [c], Text.isSpaceOrTab d = true := by simpa using isTab
    rw [Text.blank_of_spaceOrTab alone c (by simp)] at ink
    cases ink
  have noBreak : '\n' ∉ indent ++ [c] := by
    simp only [List.mem_append, List.mem_singleton, not_or]
    refine ⟨fun member => absurd (inside '\n' member) (by decide), ?_⟩
    rintro rfl
    exact absurd ink (by decide)
  -- The name may go over several lines; the first of them starts with the indentation.
  obtain ⟨line, others, whole, first⟩ : ∃ line others,
      indent ++ c :: cs ++ ",\n".toList ++ rest = line ++ '\n' :: others ∧ '\n' ∉ line :=
    List.eq_append_cons_of_mem (by simp)
  have split : (indent ++ [c]) ++ (cs ++ ",\n".toList ++ rest) = line ++ '\n' :: others := by
    simpa using whole
  obtain ⟨more, rfl, -⟩ := Text.append_past noBreak split
  rw [← List.append_cons] at whole first
  obtain ⟨kept, ended⟩ : ∃ kept, Text.dropReturn (indent ++ c :: more) = indent ++ c :: kept :=
    Text.dropReturn_append ink
  have lines : (Text.lines ('\n' :: (indent ++ c :: cs ++ ",\n".toList ++ rest))).drop 1 =
      (indent ++ c :: kept) :: Text.lines others := by
    have opening (text : Text) : Text.lines ('\n' :: text) = Text.dropReturn [] :: Text.lines text :=
      Text.lines_append List.not_mem_nil text
    rw [opening, whole, Text.lines_append first, ended]
    rfl
  have visible : Text.trim (indent ++ c :: kept) ≠ [] := Text.trim_ne_nil (by simp) ink
  rw [readIndent, lines, List.find?_cons_of_pos (by simp [visible])]
  exact Text.takeWhile_clear inside fun d atStart => by
    obtain rfl : c = d := by simpa using atStart
    exact notTab

theorem mem_intercalate {separator : Text} {names : List Text} {c : Char}
    (member : c ∈ separator.intercalate names) : c ∈ separator ∨ ∃ name ∈ names, c ∈ name := by
  induction names with
  | nil => simp at member
  | cons name rest ih =>
    cases rest with
    | nil => exact .inr ⟨name, by simp, by simpa using member⟩
    | cons next rest =>
      rw [List.intercalate_cons_cons, List.append_assoc, List.mem_append, List.mem_append] at member
      rcases member with here | between | later
      · exact .inr ⟨name, by simp, here⟩
      · exact .inl between
      · exact (ih later).imp_right fun ⟨other, among, inside⟩ => ⟨other, by simp [among], inside⟩

/-- A written list holds the names and what its layout puts between them. -/
theorem mem_renderList {multiline : Bool} {indent : Text} {names : List Text} {c : Char}
    (member : c ∈ renderList multiline indent names) :
    c = ' ' ∨ c = ',' ∨ multiline = true ∧ (c = '\n' ∨ c ∈ indent) ∨ ∃ name ∈ names, c ∈ name := by
  cases multiline with
  | true =>
    rcases List.mem_cons.1 member with rfl | member
    · simp
    · obtain ⟨name, among, inside⟩ := List.mem_flatMap.1 member
      rw [List.mem_append, List.mem_append] at inside
      rcases inside with (before | here) | after
      · simp [before]
      · exact .inr (.inr (.inr ⟨name, among, here⟩))
      · have after : c = ',' ∨ c = '\n' := by simpa using after
        rcases after with rfl | rfl <;> simp
  | false =>
    have split : c = ' ' ∨ c ∈ ", ".toList.intercalate names := by
      simpa [renderList, or_comm, or_left_comm] using member
    rcases split with rfl | inside
    · simp
    · rcases mem_intercalate inside with between | name
      · have between : c = ',' ∨ c = ' ' := by simpa using between
        rcases between with rfl | rfl <;> simp
      · exact .inr (.inr (.inr name))

theorem brace_not_mem_of_names {names : List Text} {indent : Text}
    (noBrace : ∀ name ∈ names, '}' ∉ name) (inside : ∀ c ∈ indent, Text.isSpaceOrTab c = true)
    (multiline : Bool) : '}' ∉ renderList multiline indent names := by
  intro member
  rcases mem_renderList member with same | same | ⟨-, same | among⟩ | ⟨name, among, brace⟩
  · exact absurd same (by decide)
  · exact absurd same (by decide)
  · exact absurd same (by decide)
  · exact (Text.blank_of_spaceOrTab inside).not_mem (by decide) among
  · exact noBrace name among brace

section
variable {names : List Text} {indent : Text} (entries : ∀ name ∈ names, IsEntry name)
variable (inside : ∀ c ∈ indent, Text.isSpaceOrTab c = true)
include entries inside

theorem brace_not_mem_renderList (multiline : Bool) : '}' ∉ renderList multiline indent names :=
  brace_not_mem_of_names (fun name member => (entries name member).noBrace) inside multiline

/-- The names of a written list are those it was written from. -/
theorem readNames_renderList (filled : names ≠ []) (multiline : Bool) :
    readNames (renderList multiline indent names) = names := by
  cases multiline with
  | true => exact readNames_lines entries (Text.blank_of_spaceOrTab inside)
  | false =>
    have space : Blank [' '] := List.all_eq_true.1 (by decide)
    simpa [renderList] using readNames_intercalate entries filled space space

/-- The layout of a written list is the one it was written in, if no name breaks a line that is to
be one. -/
theorem layout_renderList (filled : names ≠ []) {multiline : Bool}
    (single : multiline = false → indent = [' ', ' '] ∧ ∀ name ∈ names, '\n' ∉ name) :
    (renderList multiline indent names).contains '\n' = multiline ∧
      readIndent (renderList multiline indent names) = indent := by
  cases multiline with
  | true =>
    refine ⟨by simp [renderList], ?_⟩
    obtain ⟨name, rest, rfl⟩ := List.exists_cons_of_ne_nil filled
    have read := readIndent_line inside (entries name (by simp))
      (rest.flatMap fun name => indent ++ name ++ ",\n".toList)
    simpa [renderList] using read
  | false =>
    obtain ⟨rfl, line⟩ := single rfl
    have noBreak : '\n' ∉ renderList false [' ', ' '] names := by
      intro member
      rcases mem_renderList member with same | same | ⟨isMultiline, -⟩ | ⟨name, among, inside⟩
      · exact absurd same (by decide)
      · exact absurd same (by decide)
      · cases isMultiline
      · exact line name among inside
    exact ⟨by simpa using noBreak, readIndent_of_not_mem noBreak⟩

end

end Import
end Retag
