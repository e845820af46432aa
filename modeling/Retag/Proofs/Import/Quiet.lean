import Retag.Import.Editing
import Retag.Proofs.Import.Grammar
import Retag.Proofs.Text.Offset

/-! Edits of imports keep a text quiet. A list of names may hold anything between its commas, but
what is quiet there stays quiet when the statement is written again, and everything else that is
written has no `<`. -/
namespace Retag

namespace Import
open Tag (Quiet EndsOutside endsOutside_concat canEndName isDelimiter)

variable {name : Text} (letters : ∀ c ∈ name, c.isAlpha = true)
include letters

theorem quiet_trim {text : Text} (quiet : Quiet name text) : Quiet name (Text.trim text) := by
  have start : Quiet name (Text.trimStart text) := by
    rw [← List.takeWhile_append_dropWhile (p := Text.isBlank) (l := text)] at quiet
    exact quiet.right
  obtain ⟨blanks, split, blank⟩ := Text.trimEnd_append (Text.trimStart text)
  rw [split] at start
  refine start.left letters (.inr fun c first => ?_)
  simp [canEndName, blank c (List.mem_of_mem_head? first)]

theorem quiet_splitOn {list : Text} (quiet : Quiet name list) :
    ∀ piece ∈ Text.splitOn ',' list, Quiet name piece := by
  generalize pieces : Text.splitOn ',' list = split
  induction split generalizing list with
  | nil => simp
  | cons first others ih =>
    intro piece member
    rcases Text.splitOn_inv pieces with ⟨rfl, rfl⟩ | ⟨rest, rfl, rfl⟩
    · exact List.mem_singleton.1 member ▸ quiet
    · rcases List.mem_cons.1 member with rfl | member
      · exact quiet.left letters (.inr (by simp; decide))
      · rw [← List.singleton_append, ← List.append_assoc] at quiet
        exact ih quiet.right rfl piece member

theorem quiet_readNames {list : Text} (quiet : Quiet name list) :
    ∀ entry ∈ readNames list, Quiet name entry := by
  intro entry member
  obtain ⟨piece, among, rfl⟩ := List.mem_map.1 (List.mem_filter.1 member).1
  exact quiet_trim letters (quiet_splitOn letters quiet piece among)

omit letters in
theorem plain_renderFrom {module : Text} (plain : '<' ∉ module) (quote : Quote) (semicolon : Bool) :
    '<' ∉ renderFrom module quote semicolon := by
  have mark : '<' ≠ quote.char := by cases quote <;> decide
  have last : '<' ∉ if semicolon then [';'] else [] := by cases semicolon <;> decide
  delta renderFrom
  simp only [List.mem_append, List.mem_cons, not_or]
  exact ⟨⟨by decide, mark, plain⟩, mark, last⟩

omit letters in
theorem endsOutside_of_ends {text : Text} (ends : EndsAt text []) : EndsOutside text := by
  obtain ⟨front, c, rfl, mark⟩ := ends
  exact endsOutside_concat front (by rcases mark with rfl | rfl | rfl <;> decide)

/-- A quiet text stays quiet between two that have no `<`. -/
theorem quiet_between {a b c : Text} (plainA : '<' ∉ a) (ends : EndsOutside a)
    (quiet : Quiet name b) (plainC : '<' ∉ c) (starts : ∀ d ∈ c.head?, d.isAlpha = false) :
    Quiet name (a ++ (b ++ c)) :=
  .append letters (.of_plain plainA) (.append letters quiet (.of_plain plainC) (.inr starts))
    (.inl ends)

theorem quiet_intercalate {names : List Text} (quiet : ∀ entry ∈ names, Quiet name entry) :
    Quiet name (", ".toList.intercalate names) := by
  induction names with
  | nil => exact .of_plain (by simp)
  | cons entry rest ih =>
    have first := quiet entry (by simp)
    have inner := ih fun entry member => quiet entry (by simp [member])
    cases rest with
    | nil => simpa using first
    | cons next rest =>
      have comma : Quiet name (", ".toList ++ ", ".toList.intercalate (next :: rest)) :=
        .append letters (.of_plain (by decide)) inner (.inl (endsOutside_concat [','] (by decide)))
      rw [List.intercalate_cons_cons, List.append_assoc]
      exact .append letters first comma (.inr (by simp))

theorem quiet_lines {names : List Text} {indent : Text}
    (blank : ∀ c ∈ indent, Text.isBlank c = true) (quiet : ∀ entry ∈ names, Quiet name entry) :
    Quiet name (names.flatMap fun entry => indent ++ entry ++ ",\n".toList) := by
  have plain : '<' ∉ indent := fun member => absurd (blank '<' member) (by decide)
  have ends : EndsOutside indent := fun c last =>
    Tag.isDelimiter_of_blank (blank c (List.mem_of_getLast? last))
  induction names with
  | nil => exact .of_plain (by simp)
  | cons entry rest ih =>
    have line := quiet_between letters plain ends (quiet entry (by simp)) (c := ",\n".toList)
      (by decide) (by simp)
    have inner := ih fun entry member => quiet entry (by simp [member])
    rw [List.flatMap_cons]
    rw [← List.append_assoc] at line
    exact .append letters line inner (.inl (by
      rw [show ",\n".toList = [','] ++ ['\n'] from rfl, ← List.append_assoc]
      exact endsOutside_concat _ (by decide)))

/-- A list of quiet names is quiet in either layout. -/
theorem quiet_list {statement : NamedImport} {names : List Text}
    (blank : ∀ c ∈ statement.indent, Text.isBlank c = true)
    (quiet : ∀ entry ∈ names, Quiet name entry) :
    Quiet name (if statement.multiline then
        '\n' :: names.flatMap fun entry => statement.indent ++ entry ++ ",\n".toList
      else ' ' :: ", ".toList.intercalate names ++ [' ']) := by
  split
  · exact .append letters (a := ['\n']) (.of_plain (by decide)) (quiet_lines letters blank quiet)
      (.inl (endsOutside_concat [] (by decide)))
  · exact quiet_between letters (a := [' ']) (by decide) (endsOutside_concat [] (by decide))
      (quiet_intercalate letters quiet) (by decide) (by simp)

theorem quiet_statement {start list ending : Text} (plain : '<' ∉ start) (quiet : Quiet name list)
    (plainEnd : '<' ∉ ending) :
    Quiet name ("import ".toList ++ start ++ '{' :: list ++ '}' :: ' ' :: ending) := by
  have opening : '<' ∉ "import ".toList ++ start ++ ['\x7b'] := by
    simp only [List.mem_append, not_or]
    exact ⟨⟨by decide, plain⟩, by decide⟩
  have closing : '<' ∉ '\x7d' :: ' ' :: ending := by
    simp only [List.mem_cons, not_or]
    exact ⟨by decide, by decide, plainEnd⟩
  have whole := quiet_between letters opening (endsOutside_concat _ (by decide)) quiet closing
    (by simp)
  simpa only [List.append_assoc, List.cons_append, List.nil_append] using whole

/-- A statement is quiet with any quiet names, if nothing else in it has a `<`. -/
theorem quiet_render {statement : NamedImport} {module : Text} {names : List Text}
    (default : ∀ text ∈ statement.defaultName, '<' ∉ text)
    (blank : ∀ c ∈ statement.indent, Text.isBlank c = true) (plain : '<' ∉ module)
    (quiet : ∀ entry ∈ names, Quiet name entry) : Quiet name (statement.render module names) := by
  have ending := plain_renderFrom plain statement.quote statement.semicolon
  unfold NamedImport.render
  split
  · split
    · rename_i text found
      refine .of_plain ?_
      simp only [List.mem_append, List.mem_cons, not_or]
      exact ⟨⟨by decide, default text found⟩, by decide, ending⟩
    · exact .of_plain (by simp)
  · refine quiet_statement letters ?_ (quiet_list letters blank quiet) ending
    split
    · rename_i text found
      simp only [List.mem_append, not_or]
      exact ⟨default text found, by decide⟩
    · simp

omit letters in
theorem endsOutside_render (statement : NamedImport) (module : Text) (names : List Text) :
    EndsOutside (statement.render module names) := by
  by_cases empty : statement.render module names = []
  · rw [empty]
    simp [EndsOutside]
  · exact endsOutside_of_ends (render_ends empty)

omit letters in
theorem plain_of_nameChars {text : Text}
    (inside : ∀ c ∈ text, startsName c = true ∨ continuesName c = true) : '<' ∉ text := by
  intro member
  rcases inside '<' member with starts | continues
  · exact absurd starts (by decide)
  · exact absurd continues (by decide +kernel)

/-- Other names can take the place of those of an import, in the text before and after it. -/
theorem quiet_rewrite {source module after : Text} {found : Text.Found NamedImport}
    (change : List Text → List Text) (first : findNamed? source module = some found)
    (quiet : Quiet name source) (plain : '<' ∉ module) (suffix : after <:+ found.after)
    (entries : ∀ entry ∈ change found.item.names,
      entry ∈ found.item.names ∨ '<' ∉ entry) :
    Quiet name (found.before ++ found.item.render module (change found.item.names) ++ after) := by
  obtain ⟨line, rfl, reads, last⟩ := findNamed?_inv first
  obtain ⟨front, list, back, split, -, names, -, indent⟩ := reads.list
  have newline : EndsOutside found.before := fun c ends => last c ends ▸ by decide
  have listQuiet : Quiet name list := by
    have inner : Quiet name ((front ++ ['\x7b']) ++ (list ++ '\x7d' :: back)) := by
      simpa only [split, List.append_assoc, List.cons_append, List.nil_append] using quiet.right
    exact inner.right.left letters (.inr (by simp; decide))
  have namesQuiet : ∀ entry ∈ change found.item.names, Quiet name entry := by
    intro entry member
    rcases entries entry member with old | new
    · exact quiet_readNames letters listQuiet entry (names ▸ old)
    · exact .of_plain new
  have rendered : Quiet name (found.item.render module (change found.item.names)) :=
    quiet_render letters (fun text member => plain_of_nameChars (reads.default text member))
      (indent ▸ Text.blank_of_spaceOrTab (readIndent_inside list)) plain namesQuiet
  have afterQuiet : Quiet name after := by
    obtain ⟨dropped, same⟩ := suffix
    have inner := quiet.right
    rw [reads.whole, ← same] at inner
    exact inner.right.right
  rw [List.append_assoc]
  refine .append letters (quiet.left letters (.inl newline)) ?_ (.inl newline)
  exact .append letters rendered afterQuiet (.inl (endsOutside_render _ _ _))

omit letters in
theorem dropLineBreak_suffix (text : Text) : dropLineBreak text <:+ text := by
  unfold dropLineBreak
  split
  · rename_i rest
    exact (List.suffix_cons '\n' rest).trans (List.suffix_cons '\r' _)
  · exact List.suffix_cons _ _
  · exact List.suffix_refl _

theorem quiet_remove {source module : Text} (other : Text) (quiet : Quiet name source)
    (plain : '<' ∉ module) : Quiet name (remove source module other) := by
  unfold remove
  split
  · exact quiet
  · rename_i found first
    split
    · refine quiet_rewrite letters (List.filter (· != other)) first quiet plain ?_
        fun entry member => .inl (List.mem_filter.1 member).1
      split
      · exact dropLineBreak_suffix _
      · exact List.suffix_refl _
    · exact quiet

omit letters in
theorem plain_single {module newName : Text} (plain : '<' ∉ module) (plainName : '<' ∉ newName)
    (quote : Quote) (semicolon : Bool) : '<' ∉ single module newName quote semicolon := by
  delta single
  simp only [List.mem_append, not_or]
  exact ⟨⟨⟨by decide, plainName⟩, by decide⟩, plain_renderFrom plain quote semicolon⟩

omit letters in
theorem endsOutside_single (front module newName : Text) (quote : Quote) (semicolon : Bool) :
    EndsOutside (front ++ single module newName quote semicolon) := by
  delta single
  rw [← List.append_assoc]
  exact endsOutside_of_ends ((renderFrom_ends _ _ _).of_suffix (List.suffix_append _ _))

theorem quiet_ensure {source module newName : Text} (quiet : Quiet name source)
    (plain : '<' ∉ module) (plainName : '<' ∉ newName) :
    Quiet name (ensure source module newName) := by
  unfold ensure
  split
  · rename_i found first
    split
    · exact quiet
    · refine quiet_rewrite letters (· ++ [newName]) first quiet plain
        (List.suffix_refl _) fun entry member => ?_
      rcases List.mem_append.1 member with old | new
      · exact .inl old
      · exact .inr (List.mem_singleton.1 new ▸ plainName)
  · split
    · rename_i last found
      obtain ⟨front, c, rest, rfl, mark, stop⟩ := stop_of_mem (List.mem_of_getLast? found)
      have ends : EndsOutside (front ++ [c]) :=
        endsOutside_concat _ (by rcases mark with rfl | rfl | rfl <;> decide)
      rw [stop, Nat.zero_add, Text.takeBytes_size, Text.dropBytes_size]
      have inserted : '<' ∉ '\n' :: single module newName last.quote last.semicolon := by
        simp only [List.mem_cons, not_or]
        exact ⟨by decide, plain_single plain plainName _ _⟩
      rw [List.append_assoc]
      refine .append letters (quiet.left letters (.inl ends)) ?_ (.inl ends)
      exact .append letters (.of_plain inserted) quiet.right
        (.inl (endsOutside_single ['\n'] _ _ _ _))
    · have gap : '<' ∉ gapBefore source ∧ EndsOutside (gapBefore source) := by
        unfold gapBefore
        split
        · exact ⟨by decide, endsOutside_concat [] (by decide)⟩
        · exact ⟨by decide, endsOutside_concat [] (by decide)⟩
        · exact ⟨by decide, endsOutside_concat ['\n'] (by decide)⟩
      rw [List.append_assoc]
      refine .append letters (.of_plain (plain_single plain plainName _ _)) ?_
        (.inl (endsOutside_single [] _ _ _ _))
      exact .append letters (.of_plain gap.1) quiet (.inl gap.2)

end Import
end Retag
