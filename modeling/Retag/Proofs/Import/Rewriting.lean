import Retag.Proofs.Import.Removal

/-! Statements as they are written, and where they are found again. A statement that starts a line
is the first of its module if no line before it could be read and no list is open there, so a
statement that was written in place of the first one is the first one. Main statement: with other
names written into it, a statement is found in the same place and layout, with these names. -/
namespace Retag

namespace Import
open Text (Blank Clear FirstAt startsLine)

theorem blank_space : Blank [' '] := List.all_eq_true.1 (by decide)

def renderDefault : Option Text → Text
  | some name => name ++ [',', ' ']
  | none => []

theorem binds_renderDefault {default : Option Text} (binding : ∀ name ∈ default, IsBinding name) :
    Binds default (renderDefault default) := by
  cases default with
  | none => exact .none
  | some name =>
    have comma : Clear continuesName [','] := by
      intro c first
      obtain rfl := Option.some.inj first
      decide +kernel
    exact .some (a := []) (binding name rfl) comma (by simp [Blank]) blank_space

def Spelling.written (module : Text) {default : Option Text}
    (binding : ∀ name ∈ default, IsBinding name) (quote : Quote) {list : Text}
    (inside : '}' ∉ list) : Spelling module where
  default := default
  opening := "import".toList ++ ([' '] ++ (renderDefault default ++ ['{']))
  list := list
  quote := quote
  closing := [' '] ++ ("from".toList ++ ([' '] ++ quote.char :: (module ++ [quote.char])))
  opens := @Opens.mk _ [] _ _ (by simp) blank_space (by simp) (binds_renderDefault binding)
  inside := inside
  closes := .mk blank_space blank_space quote

def renderSemicolon (semicolon : Bool) : Text := if semicolon then [';'] else []

theorem readSemicolon_again {text rest : Text} {semicolon : Bool}
    (read : readSemicolon text = (semicolon, rest)) :
    readSemicolon (renderSemicolon semicolon ++ rest) = (semicolon, rest) := by
  cases semicolon with
  | true => simp [readSemicolon, renderSemicolon, Text.isSpaceOrTab]
  | false =>
    unfold readSemicolon at read
    split at read
    · cases read
    · obtain ⟨-, rfl⟩ := Prod.mk.inj read
      rename_i absent
      simp only [renderSemicolon, Bool.false_eq_true, if_false, List.nil_append]
      unfold readSemicolon
      split
      · exact absurd ‹_› (absent _)
      · rfl

theorem startsAfresh_written {module list : Text} {default : Option Text} {quote : Quote}
    (binding : ∀ name ∈ default, IsBinding name) (inside : '}' ∉ list) (rest : Text) :
    StartsAfresh ((Spelling.written module binding quote inside).text ++ rest) := by
  simp only [Spelling.text, Spelling.written, List.append_assoc, List.singleton_append]
  cases default with
  | none => exact startsAfresh_import (by decide) (by decide) _
  | some name =>
    have bound := binding name rfl
    have clear := bound.clear []
    obtain @⟨c, cs, starts, continues⟩ := bound
    refine startsAfresh_import (clear c rfl) ?_ _
    rintro rfl
    exact absurd starts (by decide)

theorem renderFrom_eq (module : Text) (quote : Quote) (semicolon : Bool) :
    renderFrom module quote semicolon =
      "from".toList ++ ([' '] ++ quote.char :: (module ++ [quote.char])) ++
        renderSemicolon semicolon := by
  unfold renderFrom
  cases semicolon <;> simp [renderSemicolon]

theorem not_bound : ∀ name ∈ (none : Option Text), IsBinding name := by simp

theorem single_eq {module name : Text} (quote : Quote) (semicolon : Bool)
    (inside : '}' ∉ renderList false [] [name]) :
    single module name quote semicolon =
      (Spelling.written module not_bound quote inside).text ++ renderSemicolon semicolon := by
  unfold single
  simp [renderFrom_eq, Spelling.text, Spelling.written, renderList, renderDefault]

/-- Every list that a statement opens within the text is closed there. -/
def Closed (text : Text) : Prop :=
  ∀ before opening inside default, text = before ++ (opening ++ inside) →
    startsLine true before = true → Opens default opening → '}' ∈ inside

/-- A line of its own is the first to be read, if none before it was and no list is open. -/
theorem firstAt_afresh {module before old line : Text} (noBreak : '\n' ∉ module)
    (fresh : StartsAfresh line) (first : FirstAt (readNamed? module) true before old)
    (closed : Closed before) : FirstAt (readNamed? module) true (before ++ ['\n']) line := by
  intro a b split filled atLine
  rcases List.eq_nil_or_concat b with rfl | ⟨front, c, rfl⟩
  · exact absurd rfl filled
  rw [List.concat_eq_append, ← List.append_assoc] at split
  obtain ⟨rfl, same⟩ := List.append_inj' split rfl
  obtain rfl : '\n' = c := by simpa using same
  rw [List.concat_eq_append, List.append_assoc, List.singleton_append]
  cases read : readNamed? module (front ++ '\n' :: line) with
  | none => rfl
  | some found =>
    have readable : readNamed? module (front ++ '\n' :: line) ≠ none := by simp [read]
    rcases readNamed?_before fresh noBreak readable with
      all | ⟨_, opening, inside, opens, rfl, unclosed⟩
    · by_cases empty : front = []
      · exact absurd rfl (empty ▸ all [])
      · exact absurd (first a front rfl empty atLine) (all old)
    · exact absurd (closed a opening inside _ rfl atLine opens) unclosed

/-- A list that is still open at a statement is closed by the statement's own brace, and what is read
ends with that statement. -/
theorem exists_read_enclosing {module opening inside : Text} {default : Option Text}
    (opens : Opens default opening) (unclosed : '}' ∉ inside) (spelling : Spelling module)
    (tail : Text) : ∃ statement ending semicolon rest,
      readSemicolon tail = (semicolon, rest) ∧ tail = ending ++ rest ∧
      readNamed? module (opening ++ (inside ++ (spelling.text ++ tail))) = some (statement, rest) ∧
      statement.text = opening ++ (inside ++ (spelling.text ++ ending)) := by
  have absent : '}' ∉ inside ++ (spelling.opening ++ spelling.list) := by
    simp only [List.mem_append, not_or]
    exact ⟨unclosed, spelling.opens.not_mem, spelling.inside⟩
  let enclosing : Spelling module :=
    ⟨default, opening, _, spelling.quote, spelling.closing, opens, absent, spelling.closes⟩
  have whole (more : Text) :
      opening ++ (inside ++ (spelling.text ++ more)) = enclosing.text ++ more := by
    simp [enclosing, Spelling.text]
  obtain ⟨ending, semicolon, rest, ends, split, read⟩ := enclosing.exists_read tail
  exact ⟨_, ending, semicolon, rest, ends, split, by rw [whole, read], (whole ending).symm⟩

theorem readNamed?_enclosing {module opening inside : Text} {default : Option Text}
    (opens : Opens default opening) (unclosed : '}' ∉ inside) (spelling : Spelling module)
    (tail : Text) : readNamed? module (opening ++ (inside ++ (spelling.text ++ tail))) ≠ none := by
  obtain ⟨_, _, _, _, -, -, read, -⟩ := exists_read_enclosing opens unclosed spelling tail
  simp [read]

/-- What is written in place of the first statement is the first one. -/
theorem firstAt_replaced {module before line tail : Text} {spelling : Spelling module}
    (noBreak : '\n' ∉ module) (fresh : StartsAfresh line) (starts : startsLine true before = true)
    (first : FirstAt (readNamed? module) true before (spelling.text ++ tail)) :
    FirstAt (readNamed? module) true before line := by
  by_cases empty : before = []
  · intro a b split filled
    exact absurd (List.append_eq_nil_iff.1 (split.symm.trans empty)).2 filled
  obtain ⟨front, rfl⟩ := Text.break_of_startsLine empty starts
  refine firstAt_afresh noBreak fresh first.left fun a opening inside default split atLine opens => ?_
  by_cases closed : '}' ∈ inside
  · exact closed
  · have unclosed : '}' ∉ inside ++ ['\n'] := by simpa using closed
    have unread := first a (opening ++ (inside ++ ['\n'])) (by simp [split]) (by simp) atLine
    rw [List.append_assoc] at unread
    exact absurd unread (readNamed?_enclosing opens unclosed spelling tail)

/-- With names that fit between the braces, the statement is written as a statement. -/
theorem render_written {module ending : Text} {semicolon : Bool} {names : List Text}
    (spelling : Spelling module) (filled : names ≠ [])
    (inside : '}' ∉ renderList (spelling.list.contains '\n') (readIndent spelling.list) names) :
    (spelling.statement ending semicolon).render module names =
      (Spelling.written module spelling.binding spelling.quote inside).text ++
        renderSemicolon semicolon := by
  obtain ⟨name, rest, rfl⟩ := List.exists_cons_of_ne_nil filled
  simp only [NamedImport.render, Spelling.statement, Spelling.text, Spelling.written, renderList,
    renderFrom_eq]
  cases spelling.default <;> simp [renderDefault]

section
variable {module ending rest : Text} {semicolon : Bool} {names : List Text}
variable (spelling : Spelling module) (filled : names ≠ [])
variable (entries : ∀ name ∈ names, IsEntry name)

/-- The statement as it is written with other names, in the same layout. -/
def Spelling.withNames : Spelling module :=
  .written module spelling.binding spelling.quote
    (brace_not_mem_renderList entries (readIndent_inside spelling.list)
      (spelling.list.contains '\n'))

include filled

theorem render_eq : (spelling.statement ending semicolon).render module names =
    (spelling.withNames entries).text ++ renderSemicolon semicolon :=
  render_written spelling filled _

theorem readNamed?_render (ends : readSemicolon (ending ++ rest) = (semicolon, rest)) :
    readNamed? module ((spelling.statement ending semicolon).render module names ++ rest) =
      some ((spelling.withNames entries).statement (renderSemicolon semicolon) semicolon, rest) := by
  rw [render_eq spelling filled entries, List.append_assoc]
  exact readNamed?_spelling _ (readSemicolon_again ends)

theorem readNames_withNames : readNames (spelling.withNames entries).list = names :=
  readNames_renderList entries (readIndent_inside spelling.list) filled _

end

structure Takes (statement : NamedImport) (name : Text) : Prop extends IsEntry name where
  line : statement.multiline = false → '\n' ∉ name

/-- Written with other names, a statement differs from the old one in its names. -/
theorem statement_withNames {module ending : Text} {semicolon : Bool} {names : List Text}
    (spelling : Spelling module) (filled : names ≠ [])
    (takes : ∀ name ∈ names, Takes (spelling.statement ending semicolon) name) :
    (spelling.withNames fun name member => (takes name member).toIsEntry).statement
        (renderSemicolon semicolon) semicolon =
      { spelling.statement ending semicolon with
        text := (spelling.statement ending semicolon).render module names, names } := by
  have entries : ∀ name ∈ names, IsEntry name := fun name member => (takes name member).toIsEntry
  have single : spelling.list.contains '\n' = false →
      readIndent spelling.list = [' ', ' '] ∧ ∀ name ∈ names, '\n' ∉ name :=
    fun oneLine => ⟨readIndent_of_not_mem (by simpa using oneLine),
      fun name member => (takes name member).line oneLine⟩
  obtain ⟨multiline, indent⟩ :=
    layout_renderList entries (readIndent_inside spelling.list) filled single
  rw [render_eq spelling filled entries]
  simp only [Spelling.statement, readNames_withNames spelling filled entries]
  simp only [Spelling.withNames, Spelling.written, multiline, indent]

/-- What is found once other names were written into the statement. -/
def rewritten (found : Text.Found NamedImport) (module : Text) (names : List Text) :
    Text.Found NamedImport :=
  { found with item := { found.item with text := found.item.render module names, names } }

section
variable {source module : Text} {found : Text.Found NamedImport}
variable (first : findNamed? source module = some found)
include first

/-- The names that were read can be written again. -/
theorem takes_of_found : ∀ name ∈ found.item.names, Takes found.item name := by
  obtain ⟨spelling, ending, semicolon, same, -⟩ := findNamed?_spelling first
  rw [same]
  intro name member
  obtain ⟨entry, sub⟩ := isEntry_of_mem spelling.inside member
  refine ⟨entry, fun oneLine inside => ?_⟩
  have absent : '\n' ∉ spelling.list := by simpa [Spelling.statement] using oneLine
  exact absent (sub inside)

/-- Written in place of the statement, other names are read, in this order. -/
theorem exists_read_render {names : List Text} (filled : names ≠ [])
    (entries : ∀ name ∈ names, IsEntry name) : ∃ statement,
    readNamed? module (found.item.render module names ++ found.after) =
      some (statement, found.after) ∧ statement.names = names := by
  obtain ⟨spelling, ending, semicolon, same, ends⟩ := findNamed?_spelling first
  rw [same]
  exact ⟨_, readNamed?_render spelling filled entries ends,
    readNames_withNames spelling filled entries⟩

/-- A statement on a line of its own, in place of the first one, is the first one. -/
theorem findNamed?_in_place {line : Text} {statement : NamedImport} (noBreak : '\n' ∉ module)
    (fresh : StartsAfresh line) (here : readNamed? module line = some (statement, found.after)) :
    findNamed? (found.before ++ line) module = some ⟨found.before, statement, found.after⟩ := by
  obtain ⟨old, -, read, starts, unread⟩ := Text.first_of_firstAtLine? first
  obtain ⟨spelling, ending, semicolon, rfl, -, -⟩ := exists_spelling read
  exact Text.firstAtLine?_of_first starts (fresh.ne (by simp)).symm here
    (firstAt_replaced noBreak fresh starts unread)

theorem findNamed?_render {names : List Text} (noBreak : '\n' ∉ module) (filled : names ≠ [])
    (takes : ∀ name ∈ names, Takes found.item name) :
    findNamed? (found.before ++ found.item.render module names ++ found.after) module =
      some (rewritten found module names) := by
  obtain ⟨spelling, ending, semicolon, same, ends⟩ := findNamed?_spelling first
  rw [same] at takes
  have entries : ∀ name ∈ names, IsEntry name := fun name member => (takes name member).toIsEntry
  have here := readNamed?_render spelling filled entries ends
  rw [statement_withNames spelling filled takes] at here
  have fresh : StartsAfresh
      ((spelling.statement ending semicolon).render module names ++ found.after) := by
    rw [render_eq spelling filled entries, List.append_assoc]
    exact startsAfresh_written spelling.binding _ _
  rw [rewritten, same, List.append_assoc]
  exact findNamed?_in_place first noBreak fresh here

/-- Names that could not be read again still make a statement that is found in the same place. -/
theorem findNamed?_written {names : List Text} (noBreak : '\n' ∉ module) (filled : names ≠ [])
    (noBrace : ∀ name ∈ names, '}' ∉ name) :
    ∃ statement, findNamed? (found.before ++ found.item.render module names ++ found.after) module =
        some ⟨found.before, statement, found.after⟩ ∧
      statement.text = found.item.render module names := by
  obtain ⟨spelling, ending, semicolon, same, ends⟩ := findNamed?_spelling first
  have inside := brace_not_mem_of_names noBrace (readIndent_inside spelling.list)
    (spelling.list.contains '\n')
  rw [same, render_written spelling filled inside, List.append_assoc, List.append_assoc]
  refine ⟨_, findNamed?_in_place first noBreak (startsAfresh_written spelling.binding inside _)
    (readNamed?_spelling _ (readSemicolon_again ends)), rfl⟩

theorem ensure_append {name : Text} (absent : name ∉ found.item.names) :
    ensure source module name =
      found.before ++ found.item.render module (found.item.names ++ [name]) ++ found.after := by
  unfold ensure
  rw [first]
  dsimp only
  rw [if_neg (by simpa using absent)]

theorem remove_filter {name : Text} (listed : name ∈ found.item.names)
    (left : found.item.names.filter (· != name) ≠ []) :
    remove source module name =
      found.before ++ found.item.render module (found.item.names.filter (· != name)) ++
        found.after := by
  obtain ⟨other, rest, names⟩ := List.exists_cons_of_ne_nil left
  have filled : (found.item.without module name).isEmpty = false := by
    rw [NamedImport.without, names]
    simp [NamedImport.render]
  rw [remove_eq first listed, filled, List.append_assoc]
  rfl

theorem findNamed?_ensure {name : Text} (noBreak : '\n' ∉ module)
    (absent : name ∉ found.item.names) (takes : Takes found.item name) :
    findNamed? (ensure source module name) module =
      some (rewritten found module (found.item.names ++ [name])) := by
  rw [ensure_append first absent]
  exact findNamed?_render first noBreak (by simp)
    (List.forall_mem_append.2 ⟨takes_of_found first, by simpa using takes⟩)

theorem findNamed?_remove {name : Text} (noBreak : '\n' ∉ module)
    (listed : name ∈ found.item.names) (left : found.item.names.filter (· != name) ≠ []) :
    findNamed? (remove source module name) module =
      some (rewritten found module (found.item.names.filter (· != name))) := by
  rw [remove_filter first listed left]
  exact findNamed?_render first noBreak left fun other member =>
    takes_of_found first other (List.mem_filter.1 member).1

end

/-- With other names written into it, the first statement is found where it was, with these names and
otherwise as before. So taking a name out, or adding one, changes its list alone. -/
theorem findNamed?_rewritten {source module : Text} {found : Text.Found NamedImport}
    {names : List Text} (noBreak : '\n' ∉ module) (first : findNamed? source module = some found)
    (filled : names ≠ []) (takes : ∀ name ∈ names, Takes found.item name) :
    source = found.before ++ found.item.text ++ found.after ∧
      findNamed? (found.before ++ found.item.render module names ++ found.after) module =
        some (rewritten found module names) ∧
      (∀ name ∈ found.item.names, found.item.names.filter (· != name) ≠ [] →
        findNamed? (remove source module name) module =
          some (rewritten found module (found.item.names.filter (· != name)))) ∧
      ∀ name ∉ found.item.names, Takes found.item name →
        findNamed? (ensure source module name) module =
          some (rewritten found module (found.item.names ++ [name])) := by
  have split : source = found.before ++ found.item.text ++ found.after := by
    rw [List.append_assoc]
    exact findNamed?_split first
  exact ⟨split, findNamed?_render first noBreak filled takes,
    fun name => findNamed?_remove first noBreak, fun name => findNamed?_ensure first noBreak⟩

/-- An indented statement with a default name and a list over several lines, behind a line that could
open a list of its own. -/
theorem findNamed?_rewritten_lines :
    let source := ("import x\n\n \timport R ,\n \x7b useMemo,\n\tuseState\n\x7d from\"react' ;\n" ++
      "import \x7b A \x7d from 'react'\n").toList
    let names := ["useRef".toList, "use\nState as s".toList]
    ∃ found, findNamed? source "react".toList = some found ∧
      found.item.names = ["useMemo".toList, "useState".toList] ∧
      found.item.render "react".toList names =
        "import R, \x7b\n\tuseRef,\n\tuse\nState as s,\n\x7d from \"react\";".toList ∧
      findNamed? (found.before ++ found.item.render "react".toList names ++ found.after)
        "react".toList = some (rewritten found "react".toList names) ∧
      findNamed? (remove source "react".toList "useMemo".toList) "react".toList =
        some (rewritten found "react".toList ["useState".toList]) := by
  intro source names
  have read : (findNamed? source "react".toList).map (fun found =>
      (found.item.multiline, found.item.names, found.item.render "react".toList names)) =
        some (true, ["useMemo".toList, "useState".toList],
          "import R, \x7b\n\tuseRef,\n\tuse\nState as s,\n\x7d from \"react\";".toList) := by
    decide +kernel
  obtain ⟨found, first, same⟩ := Option.map_eq_some_iff.1 read
  obtain ⟨lines, listed, rendered⟩ := (Prod.mk.inj same).imp_right Prod.mk.inj
  have takes : ∀ name ∈ names, Takes found.item name := by
    intro name member
    have among : name = "useRef".toList ∨ name = "use\nState as s".toList := by
      simpa [names] using member
    refine ⟨?_, by simp [lines]⟩
    rcases among with rfl | rfl <;> exact ⟨by decide, by decide, by decide, by decide⟩
  obtain ⟨-, written, removed, -⟩ :=
    findNamed?_rewritten (by decide) first (by simp [names]) takes
  refine ⟨found, first, listed, rendered, written, ?_⟩
  have left : found.item.names.filter (· != "useMemo".toList) = ["useState".toList] := by
    rw [listed]
    decide
  have again := removed "useMemo".toList (by rw [listed]; decide) (by rw [left]; simp)
  rwa [left] at again

end Import
end Retag
