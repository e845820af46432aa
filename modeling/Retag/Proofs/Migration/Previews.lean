import Mathlib.Order.Bounds.Defs
import Retag.Proofs.Import.Ensuring
import Retag.Proofs.Migration.ImportMove
import Retag.Proofs.Migration.Settled

/-! What the edits of an import say. An edit shows the first statement of the module before a step
and the first one after it, which need not be the statement that the step changed. Main statement:
when the two are the change that was made. -/
namespace Retag

/-- The edit is the change from one text to another: behind `front` its statement gives way to the
new one, or goes with at most one line break, or is put in with line breaks around it. -/
inductive Edit.Describes (edit : Edit) (front old new : Text) : Prop
  | replaced {back : Text} (filled : edit.before ≠ [] ∧ edit.after ≠ [])
    (was : old = front ++ (edit.before ++ back)) (becomes : new = front ++ (edit.after ++ back))
  | deleted {back rest : Text} (filled : edit.before ≠ []) (gone : edit.after = [])
    (was : old = front ++ (edit.before ++ back)) (becomes : new = front ++ rest)
    (kept : rest = back ∨ rest = Import.dropLineBreak back)
  | inserted (lead trail back : Text) (fresh : edit.before = []) (filled : edit.after ≠ [])
    (was : old = front ++ back)
    (becomes : new = front ++ (lead ++ (edit.after ++ (trail ++ back))))
    (breaks : ∀ c ∈ lead ++ trail, c = '\n')

namespace Import
open Text (FirstAt startsLine)

def statementOf (source module : Text) : Text :=
  ((findNamed? source module).map (·.item.text)).getD []

theorem statementOf_some {source module : Text} {found : Text.Found NamedImport}
    (first : findNamed? source module = some found) :
    statementOf source module = found.item.text := by
  rw [statementOf, first, Option.map_some, Option.getD_some]

theorem statementOf_none {source module : Text} (none : findNamed? source module = none) :
    statementOf source module = [] := by
  rw [statementOf, none, Option.map_none, Option.getD_none]

section
variable {source module name : Text} {found : Text.Found NamedImport} {line : Nat}

theorem text_ne_nil (first : findNamed? source module = some found) : found.item.text ≠ [] := by
  obtain ⟨spelling, ending, semicolon, same, -⟩ := findNamed?_spelling first
  rw [same]
  simp [Spelling.statement, Spelling.text]

theorem binding_of_found (first : findNamed? source module = some found) :
    ∀ default ∈ found.item.defaultName, IsBinding default := by
  obtain ⟨spelling, ending, semicolon, same, -⟩ := findNamed?_spelling first
  rw [same]
  exact spelling.binding

theorem readOpening?_default {default : Text} (binding : IsBinding default) (tail : Text) :
    readOpening? ("import".toList ++ ([' '] ++ (default ++ ' ' :: 'f' :: tail))) = none := by
  have unindented : ("import".toList ++ ([' '] ++ (default ++ ' ' :: 'f' :: tail))).dropWhile
      Text.isSpaceOrTab = "import".toList ++ ([' '] ++ (default ++ ' ' :: 'f' :: tail)) := rfl
  have clear := binding.clear (' ' :: 'f' :: tail)
  rw [readOpening?, unindented, Text.dropPrefix?_append]
  simp only [bind, Option.bind_some, dropBlanks?_append blank_space (by simp) clear]
  obtain @⟨c, cs, starts, continues⟩ := binding
  have stops : Text.Clear continuesName (' ' :: 'f' :: tail) := by
    simp only [Text.Clear, List.head?_cons, Option.mem_some, forall_eq']
    decide +kernel
  -- Behind the name comes a word and no comma, so nothing is taken and no brace is found.
  have unbound : readDefault (c :: cs ++ ' ' :: 'f' :: tail) =
      (none, c :: cs ++ ' ' :: 'f' :: tail) := by
    rw [List.cons_append, readDefault, if_pos starts, Text.dropWhile_clear continues stops]
    rfl
  have noBrace : '{' ≠ c := by
    rintro rfl
    exact absurd starts (by decide)
  rw [unbound]
  simp [Text.dropPrefix?, noBrace]

/-- An import of a default name alone is no named import. -/
theorem text_ne_default (first : findNamed? source module = some found) {default : Text}
    (binding : IsBinding default) (quote : Quote) (semicolon : Bool) :
    found.item.text ≠ "import ".toList ++ default ++ ' ' :: renderFrom module quote semicolon := by
  intro same
  obtain ⟨spelling, ending, _, statement, -⟩ := findNamed?_spelling first
  have opened : readOpening? (spelling.text ++ ending) ≠ none := by
    rw [Spelling.text, List.append_assoc, readOpening?_eq_some_iff.2 ⟨_, rfl, spelling.opens⟩]
    simp
  have whole : spelling.text ++ ending = "import".toList ++ ([' '] ++ (default ++ ' ' :: 'f' ::
      ("rom ".toList ++ quote.char :: module ++ quote.char :: renderSemicolon semicolon))) := by
    rw [statement] at same
    refine Eq.trans same ?_
    rw [renderFrom_eq]
    simp
  rw [whole] at opened
  exact opened (readOpening?_default binding _)

/-! ### Taking a name out -/

theorem dropLineBreak_length (text : Text) : (dropLineBreak text).length ≤ text.length := by
  obtain ⟨front, split, -⟩ := dropLineBreak_split text
  have lengths := congrArg List.length split
  rw [List.length_append] at lengths
  omega

/-- Names are left, and the statement is found again with them. -/
theorem describes_shortened (noBreak : '\n' ∉ module) (first : findNamed? source module = some found)
    (listed : name ∈ found.item.names) (left : found.item.names.filter (· != name) ≠ []) :
    Edit.Describes ⟨line, found.item.text, statementOf (remove source module name) module⟩
      found.before source (remove source module name) := by
  have again := findNamed?_remove first noBreak listed left
  have filled := text_ne_nil again
  rw [statementOf_some again, remove_filter first listed left, List.append_assoc]
  exact .replaced ⟨text_ne_nil first, filled⟩ (findNamed?_split first) rfl

/-- Nothing is left, and what the edit shows instead is another statement, if there is one. -/
theorem describes_gone_iff (first : findNamed? source module = some found)
    (listed : name ∈ found.item.names) (nothing : found.item.names.filter (· != name) = [])
    (noDefault : found.item.defaultName = none) :
    Edit.Describes ⟨line, found.item.text, statementOf (remove source module name) module⟩
      found.before source (remove source module name) ↔
      findNamed? (remove source module name) module = none := by
  have emptied : found.item.without module name = [] := by
    rw [NamedImport.without, nothing, NamedImport.render, noDefault]
  have removed : remove source module name = found.before ++ dropLineBreak found.after := by
    rw [remove_eq first listed, emptied]
    rfl
  constructor
  · intro describes
    cases other : findNamed? (remove source module name) module with
    | none => rfl
    | some next =>
      rw [statementOf_some other] at describes
      cases describes with
      | replaced filled was becomes =>
        -- The text would be longer by the other statement, and it is shorter.
        have same := List.append_cancel_left
          (List.append_cancel_left ((findNamed?_split first).symm.trans was))
        have lengths := congrArg List.length
          (List.append_cancel_left (removed.symm.trans becomes))
        have shorter := dropLineBreak_length found.after
        have positive := List.length_pos_iff.2 (text_ne_nil other)
        rw [List.length_append, ← same] at lengths
        dsimp only at lengths
        omega
      | deleted _ gone => exact absurd gone (text_ne_nil other)
      | inserted _ _ _ fresh => exact absurd fresh (text_ne_nil first)
  · intro other
    rw [statementOf_none other]
    exact .deleted (text_ne_nil first) rfl (findNamed?_split first) removed (.inr rfl)

/-- The default name is left, which the edit never shows. -/
theorem not_describes_default (first : findNamed? source module = some found)
    (listed : name ∈ found.item.names) (nothing : found.item.names.filter (· != name) = [])
    {default : Text} (bound : found.item.defaultName = some default) :
    ¬Edit.Describes ⟨line, found.item.text, statementOf (remove source module name) module⟩
      found.before source (remove source module name) := by
  have left : found.item.without module name = "import ".toList ++ default ++
      ' ' :: renderFrom module found.item.quote found.item.semicolon := by
    rw [NamedImport.without, nothing, NamedImport.render, bound]
  have filled : found.item.without module name ≠ [] := by
    rw [left]
    simp
  have removed : remove source module name =
      found.before ++ (found.item.without module name ++ found.after) := by
    rw [remove_eq first listed, if_neg (by simpa using filled)]
  have split := findNamed?_split first
  intro describes
  cases describes with
  | replaced _ was becomes =>
    have same := List.append_cancel_left (List.append_cancel_left (split.symm.trans was))
    have shown := List.append_cancel_left (removed.symm.trans becomes)
    rw [← same] at shown
    replace shown := List.append_cancel_right shown
    cases other : findNamed? (remove source module name) module with
    | none => exact filled (shown.trans (statementOf_none other))
    | some next =>
      refine text_ne_default other (binding_of_found first default bound) found.item.quote
        found.item.semicolon ?_
      rw [← left, shown]
      exact (statementOf_some other).symm
  | deleted _ _ was becomes kept =>
    have same := List.append_cancel_left (List.append_cancel_left (split.symm.trans was))
    have lengths := congrArg List.length (List.append_cancel_left (removed.symm.trans becomes))
    have positive := List.length_pos_iff.2 filled
    rw [List.length_append] at lengths
    rcases kept with rfl | rfl
    · rw [same] at lengths
      omega
    · have shorter := dropLineBreak_length found.after
      rw [← same] at lengths
      omega
  | inserted _ _ _ fresh => exact absurd fresh (text_ne_nil first)

theorem listed_of_remove_ne (changed : remove source module name ≠ source) :
    ∃ found, findNamed? source module = some found ∧ name ∈ found.item.names := by
  unfold remove at changed
  split at changed
  · exact absurd rfl changed
  · rename_i found first
    split at changed
    · rename_i listed
      exact ⟨found, first, List.contains_iff_mem.1 listed⟩
    · exact absurd rfl changed

theorem describes_remove_iff (noBreak : '\n' ∉ module)
    (first : findNamed? source module = some found) (listed : name ∈ found.item.names) :
    Edit.Describes ⟨line, found.item.text, statementOf (remove source module name) module⟩
      found.before source (remove source module name) ↔
      found.item.names.filter (· != name) ≠ [] ∨
        (found.item.defaultName = none ∧
          findNamed? (remove source module name) module = none) := by
  by_cases left : found.item.names.filter (· != name) = []
  · cases bound : found.item.defaultName with
    | none => simp [left, describes_gone_iff first listed left bound]
    | some default => simp [left, not_describes_default first listed left bound]
  · simp [left, describes_shortened noBreak first listed left]

/-! ### Making sure of a name -/

/-- A statement for one name is written as a statement, in which no other list is open. -/
theorem exists_spelling_single (module : Text) (noBrace : '}' ∉ name) (quote : Quote)
    (semicolon : Bool) : ∃ spelling : Spelling module,
      single module name quote semicolon = spelling.text ++ renderSemicolon semicolon ∧
      ∀ rest, StartsAfresh (single module name quote semicolon ++ rest) := by
  have noBraces : ∀ other ∈ [name], '}' ∉ other := by simpa using noBrace
  have noIndent : ∀ c ∈ ([] : Text), Text.isSpaceOrTab c = true := by simp
  have inside := brace_not_mem_of_names noBraces noIndent false
  have written : single module name quote semicolon = _ := single_eq quote semicolon inside
  refine ⟨_, written, fun rest => ?_⟩
  rw [written, List.append_assoc]
  exact startsAfresh_written not_bound inside _

/-- A statement for one name is found as it was written, if no line before it could be read. -/
theorem findNamed?_as_written {before tail rest : Text} {semicolon : Bool} (noBrace : '}' ∉ name)
    (starts : startsLine true before = true)
    (first : ∀ line, StartsAfresh line → FirstAt (readNamed? module) true before line)
    (quote : Quote) (ends : readSemicolon tail = (semicolon, rest)) :
    ∃ statement, findNamed? (before ++ (single module name quote semicolon ++ rest)) module =
        some ⟨before, statement, rest⟩ ∧
      statement.text = single module name quote semicolon := by
  obtain ⟨spelling, written, fresh⟩ := exists_spelling_single module noBrace quote semicolon
  have read := readNamed?_spelling spelling (readSemicolon_again ends)
  rw [← List.append_assoc, ← written] at read
  refine ⟨_, Text.firstAtLine?_of_first starts ((fresh rest).ne (by simp)).symm read
    (first _ (fresh rest)), ?_⟩
  rw [written]
  rfl

theorem single_ne_nil (module name : Text) (quote : Quote) (semicolon : Bool) :
    single module name quote semicolon ≠ [] := by
  unfold single
  simp

/-- The statement is found again with the name added. -/
theorem describes_appended (noBreak : '\n' ∉ module) (noBrace : '}' ∉ name)
    (first : findNamed? source module = some found) (absent : name ∉ found.item.names) :
    Edit.Describes ⟨line, found.item.text, statementOf (ensure source module name) module⟩
      found.before source (ensure source module name) := by
  have noBraces : ∀ other ∈ found.item.names ++ [name], '}' ∉ other :=
    List.forall_mem_append.2 ⟨fun other member => (takes_of_found first other member).noBrace,
      by simpa using noBrace⟩
  obtain ⟨statement, again, text⟩ := findNamed?_written first noBreak (by simp) noBraces
  rw [← ensure_append first absent] at again
  have filled := text_ne_nil again
  rw [statementOf_some again]
  refine .replaced ⟨text_ne_nil first, filled⟩ (findNamed?_split first) ?_
  rw [ensure_append first absent, List.append_assoc]
  exact congrArg (fun written => found.before ++ (written ++ found.after)) text.symm

theorem gapBefore_breaks (source : Text) :
    (∃ rest, gapBefore source = '\n' :: rest) ∧ ∀ c ∈ gapBefore source, c = '\n' := by
  unfold gapBefore
  split <;> simp

/-- A statement put on top of the text is the first one. -/
theorem describes_onTop (noBrace : '}' ∉ name) (none : findNamed? source module = none)
    (noSite : sites source = []) :
    Edit.Describes ⟨line, [], statementOf (ensure source module name) module⟩ [] source
      (ensure source module name) := by
  have result : ensure source module name =
      single module name .single false ++ (gapBefore source ++ source) := by
    unfold ensure
    rw [none]
    simp [noSite]
  obtain ⟨⟨rest, starts⟩, breaks⟩ := gapBefore_breaks source
  have ends : readSemicolon (gapBefore source ++ source) = (false, gapBefore source ++ source) := by
    rw [starts]
    rfl
  have shown : statementOf (ensure source module name) module =
      single module name .single false := by
    have nothingBefore : ∀ line, StartsAfresh line → FirstAt (readNamed? module) true [] line := by
      intro line _ a b split filled
      exact absurd (List.append_eq_nil_iff.1 split.symm).2 filled
    obtain ⟨statement, found, text⟩ :=
      findNamed?_as_written noBrace rfl nothingBefore .single ends
    rw [result]
    exact (statementOf_some found).trans text
  rw [shown]
  exact .inserted [] (gapBefore source) source rfl (single_ne_nil _ _ _ _) rfl result breaks

/-- Where a list is open, what is read goes on to the end of the next statement. -/
theorem readNamed?_open (module : Text) {opening inside tail rest : Text} {default : Option Text}
    {semicolon : Bool} (opens : Opens default opening) (absent : '}' ∉ inside)
    (noBrace : '}' ∉ name) (quote : Quote) (ends : readSemicolon tail = (semicolon, rest)) :
    ∃ statement, readNamed? module
        (opening ++ (inside ++ '\n' :: (single module name quote semicolon ++ rest))) =
          some (statement, rest) ∧
      statement.text = opening ++ (inside ++ '\n' :: single module name quote semicolon) := by
  obtain ⟨spelling, written, -⟩ := exists_spelling_single module noBrace quote semicolon
  have unclosed : '}' ∉ inside ++ ['\n'] := by simpa using absent
  obtain ⟨statement, ending, _, behind, again, whole, read, text⟩ :=
    exists_read_enclosing opens unclosed spelling (renderSemicolon semicolon ++ rest)
  obtain ⟨-, rfl⟩ := Prod.mk.inj ((readSemicolon_again ends).symm.trans again)
  obtain rfl := List.append_cancel_right whole
  refine ⟨statement, ?_, ?_⟩
  · simpa [written] using read
  · simpa [written] using text

/-- A list is open at the end of the text, in a statement that starts at the byte offset. -/
def OpenAt (text : Text) (place : Nat) : Prop :=
  ∃ before opening inside default, text = before ++ (opening ++ inside) ∧
    startsLine true before = true ∧ Opens default opening ∧ '}' ∉ inside ∧ place = before.size

theorem exists_openAt {text : Text} (unclosed : ¬Closed text) : ∃ place, OpenAt text place := by
  simp only [Closed, Classical.not_forall] at unclosed
  obtain ⟨before, opening, inside, default, whole, starts, opens, absent⟩ := unclosed
  exact ⟨_, before, opening, inside, default, whole, starts, opens, absent, rfl⟩

/-- The search stops no later than at a list that is open. -/
theorem findNamed?_at_open (module : Text) {above opening inside tail rest : Text}
    {default : Option Text} {semicolon : Bool} (starts : startsLine true above = true)
    (opens : Opens default opening) (absent : '}' ∉ inside) (noBrace : '}' ∉ name) (quote : Quote)
    (ends : readSemicolon tail = (semicolon, rest)) :
    ∃ found more, findNamed? (above ++ (opening ++ inside) ++ '\n' ::
        (single module name quote semicolon ++ rest)) module = some found ∧
      above = found.before ++ more := by
  obtain ⟨_, here, -⟩ := readNamed?_open module opens absent noBrace quote ends
  obtain ⟨found, more, first, cut⟩ := Text.exists_first_of_readable starts
    (by simp [opens.ne_nil]) (Option.ne_none_iff_exists'.2 ⟨_, here⟩)
  exact ⟨found, more, by simpa [findNamed?] using first, cut⟩

theorem findNamed?_le_openAt {before tail rest : Text} {quote : Quote} {semicolon : Bool}
    {place : Nat} (noBrace : '}' ∉ name) (ends : readSemicolon tail = (semicolon, rest))
    (first : findNamed? (before ++ '\n' :: (single module name quote semicolon ++ rest)) module =
      some found) (opened : OpenAt before place) : found.before.size ≤ place := by
  obtain ⟨above, opening, inside, default, rfl, starts, opens, absent, rfl⟩ := opened
  obtain ⟨other, more, again, rfl⟩ :=
    findNamed?_at_open module starts opens absent noBrace quote ends
  obtain rfl := Option.some.inj (again.symm.trans first)
  rw [Text.size_append]
  exact Nat.le_add_right _ _

section Behind
variable {before tail after : Text} {quote : Quote} {semicolon : Bool}
  (unread : findNamed? source module = none) (split : source = before ++ after)
  (ends : readSemicolon tail = (semicolon, after)) (noBreak : '\n' ∉ module) (noBrace : '}' ∉ name)
include unread split ends noBreak noBrace

/-- On a line of its own, the statement is found if no list is open before it. -/
theorem findNamed?_behind (closed : Closed before) :
    ∃ statement,
      findNamed? (before ++ '\n' :: (single module name quote semicolon ++ after)) module =
        some ⟨before ++ ['\n'], statement, after⟩ ∧
      statement.text = single module name quote semicolon := by
  rw [List.append_cons]
  apply findNamed?_as_written noBrace _ _ quote ends
  · rw [Text.startsLine_concat]
    rfl
  · exact fun line fresh => firstAt_afresh noBreak fresh (firstAt_of_none unread split) closed

/-- Otherwise what is found starts further up, where the first of the open lists was opened, and
ends with it. -/
theorem findNamed?_enclosed {place : Nat} (opened : OpenAt before place) :
    ∃ found opening inside,
      findNamed? (before ++ '\n' :: (single module name quote semicolon ++ after)) module =
        some found ∧
      IsLeast {place | OpenAt before place} found.before.size ∧ opening ≠ [] ∧
      found.item.text = opening ++ (inside ++ '\n' :: single module name quote semicolon) := by
  obtain ⟨above, opening, inside, default, whole, starts, opens, absent, -⟩ := opened
  obtain ⟨found, more, first, rfl⟩ :=
    findNamed?_at_open module starts opens absent noBrace quote ends
  rw [← whole] at first
  obtain ⟨line, lines, there, begins, -⟩ := Text.first_of_firstAtLine? first
  obtain ⟨-, -, fresh⟩ := exists_spelling_single module noBrace quote semicolon
  have cut : before = found.before ++ (more ++ (opening ++ inside)) := by simp [whole]
  obtain rfl : (more ++ (opening ++ inside)) ++ '\n' ::
      (single module name quote semicolon ++ after) = line := by
    apply List.append_cancel_left
    rw [← lines, cut, List.append_assoc found.before]
  rcases readNamed?_before (fresh after) noBreak (Option.ne_none_iff_exists'.2 ⟨_, there⟩)
    with all | ⟨default', opening', inside', opens', cut', absent'⟩
  · -- The statement would have been there before.
    have old := Text.firstAtLine?_eq_none_iff.1 unread found.before
      ((more ++ (opening ++ inside)) ++ after) (by simp [split, cut]) (by simp [opens.ne_nil])
      begins
    exact absurd old (all after)
  · obtain ⟨statement, read, text⟩ := readNamed?_open module opens' absent' noBrace quote ends
    rw [cut', List.append_assoc, read] at there
    obtain ⟨rfl, -⟩ := Prod.mk.inj (Option.some.inj there)
    have here : OpenAt before found.before.size :=
      ⟨found.before, opening', inside', default', cut' ▸ cut, begins, opens', absent', rfl⟩
    have least : found.before.size ∈ lowerBounds {place | OpenAt before place} :=
      fun _ other => findNamed?_le_openAt noBrace ends first other
    exact ⟨found, opening', inside', first, ⟨here, least⟩, opens'.ne_nil, text⟩

end Behind

/-- Where the statement goes that is put in behind the last import. -/
theorem exists_behind {last : ImportSite} (unread : findNamed? source module = none)
    (site : (sites source).getLast? = some last) (name : Text) :
    ∃ before tail after, source = before ++ after ∧ before.size = last.stop ∧
      readSemicolon tail = (last.semicolon, after) ∧
      ensure source module name =
        before ++ '\n' :: (single module name last.quote last.semicolon ++ after) := by
  obtain ⟨before, old, new, after, ensured, split, result⟩ := exists_ensured source module name
  cases ensured with
  | listed first | appended first => cases unread.symm.trans first
  | onTop _ noSite => simp [noSite] at site
  | @behind other _ _ _ ends stop =>
    obtain rfl := Option.some.inj (site.symm.trans ends)
    rw [List.nil_append] at split
    rw [List.cons_append] at result
    obtain ⟨tail, semicolon⟩ := semicolon_of_mem (List.mem_of_getLast? site) split
      (by rw [← stop, Nat.zero_add])
    exact ⟨before, tail, after, split, stop, semicolon, result⟩

/-- Behind the last import, the edit shows the new statement exactly if no list is open there. -/
theorem describes_behind_iff {last : ImportSite} (unread : findNamed? source module = none)
    (site : (sites source).getLast? = some last) (noBreak : '\n' ∉ module) (noBrace : '}' ∉ name) :
    (∃ front, Edit.Describes ⟨line, [], statementOf (ensure source module name) module⟩ front source
      (ensure source module name)) ↔ Closed (source.takeBytes last.stop) := by
  obtain ⟨before, tail, after, split, stop, semicolon, result⟩ := exists_behind unread site name
  have cut : source.takeBytes last.stop = before := by rw [← stop, split, Text.takeBytes_size]
  rw [cut, result]
  constructor
  · rintro ⟨front, describes⟩
    apply Classical.byContradiction
    intro unclosed
    obtain ⟨place, opened⟩ := exists_openAt unclosed
    obtain ⟨found, opening, inside, first, -, filled, text⟩ :=
      findNamed?_enclosed unread split semicolon noBreak noBrace opened
    rw [statementOf_some first, text] at describes
    cases describes with
    | replaced filled => exact filled.1 rfl
    | deleted filled => exact filled rfl
    | inserted lead trail back _ _ was becomes =>
      -- The edit would be longer than all that was put in.
      have lengths := congrArg List.length becomes
      have before := congrArg List.length (split.symm.trans was)
      have positive := List.length_pos_iff.2 filled
      simp only [List.length_append, List.length_cons] at lengths before
      omega
  · intro closed
    obtain ⟨statement, found, text⟩ :=
      findNamed?_behind unread split semicolon noBreak noBrace closed
    rw [statementOf_some found, text]
    exact ⟨before, .inserted ['\n'] [] after rfl (single_ne_nil _ _ _ _) split (by simp) (by simp)⟩

end
end Import

namespace Migration
open Import (statementOf Closed)

/-- A step changes nothing, or it changes the text and says so in one edit. -/
def Notes (state next : State) (holds : Edit → Prop) : Prop :=
  (next.text = state.text ∧ next.edits = state.edits) ∨
    ∃ edit, next.text ≠ state.text ∧ next.edits = state.edits ++ [edit] ∧ holds edit

theorem recordImport_notes {state : State} {module text : Text} {holds : Edit → Prop}
    (shown : ∀ line, text ≠ state.text →
      holds ⟨line, statementOf state.text module, statementOf text module⟩) :
    Notes state (recordImport state module text) holds := by
  unfold recordImport
  split
  · exact .inl ⟨rfl, rfl⟩
  · rename_i between
    have changed : text ≠ state.text := by
      rintro rfl
      simp [Splice.between, Splice.betweenBytes] at between
    exact .inr ⟨_, changed, rfl, shown _ changed⟩

/-- Taking a component out of its import: the edit is the change that was made exactly if names are
left in the statement, or nothing is left of it and the module has no other. -/
theorem removeImport_notes {state : State} {name module : Text} (noBreak : '\n' ∉ module) :
    Notes state (removeImport state name module) fun edit =>
      ∃ found, Import.findNamed? state.text module = some found ∧
        (edit.Describes found.before state.text (removeImport state name module).text ↔
          found.item.names.filter (· != name) ≠ [] ∨
            (found.item.defaultName = none ∧
              Import.findNamed? (removeImport state name module).text module = none)) := by
  rcases removeImport_cases state name module with same | ⟨location, same⟩ | same
  · rw [same]
    exact .inl ⟨rfl, rfl⟩
  · rw [same]
    exact .inl ⟨rfl, rfl⟩
  · rw [same]
    apply recordImport_notes
    intro line changed
    obtain ⟨found, first, listed⟩ := Import.listed_of_remove_ne changed
    rw [recordImport_text, Import.statementOf_some first]
    exact ⟨found, first, Import.describes_remove_iff noBreak first listed⟩

/-- Making sure of the new import: the edit is the change that was made if the module was imported
by name before, and else exactly if no list is open where the statement was put in. -/
theorem ensureImport_notes {state : State} {name module : Text} (noBreak : '\n' ∉ module)
    (noBrace : '}' ∉ name) :
    let next := recordImport state module (Import.ensure state.text module name)
    Notes state next fun edit =>
      (∀ found, Import.findNamed? state.text module = some found →
        edit.Describes found.before state.text next.text) ∧
      (Import.findNamed? state.text module = none →
        ((∃ front, edit.Describes front state.text next.text) ↔
          ∀ last ∈ (Import.sites state.text).getLast?, Closed (state.text.takeBytes last.stop))) := by
  intro next
  apply recordImport_notes
  intro line changed
  simp only [next, recordImport_text]
  constructor
  · intro found first
    rw [Import.statementOf_some first]
    apply Import.describes_appended noBreak noBrace first
    exact fun listed => changed (Import.ensure_listed first listed)
  · intro unread
    rw [Import.statementOf_none unread]
    cases site : (Import.sites state.text).getLast? with
    | none =>
      have noSite := List.getLast?_eq_none_iff.1 site
      simpa using ⟨[], Import.describes_onTop noBrace unread noSite⟩
    | some last =>
      simpa using Import.describes_behind_iff unread site noBreak noBrace

/-- Moving an import makes at most two edits, and each of them is the change that its step made, but
in two cases. A statement that goes as a whole is shown next to another one of its module, or as
gone although its default name is left. And a statement that is put in where a list is open is shown
with what stands before it. -/
theorem moveImport_notes_changes (state : State) {rule : ComponentRule} {move : ImportMove}
    (moves : rule.imports = some move) (noBreak : '\n' ∉ move.source)
    (noBreak' : '\n' ∉ move.target) (noBrace : '}' ∉ rule.newName) :
    let removed := removeImport state rule.name move.source
    let moved := moveImport state rule
    (Notes state removed fun edit =>
      ∃ found, Import.findNamed? state.text move.source = some found ∧
        (edit.Describes found.before state.text removed.text ↔
          found.item.names.filter (· != rule.name) ≠ [] ∨
            (found.item.defaultName = none ∧
              Import.findNamed? removed.text move.source = none))) ∧
    Notes removed moved fun edit =>
      (∀ found, Import.findNamed? removed.text move.target = some found →
        edit.Describes found.before removed.text moved.text) ∧
      (Import.findNamed? removed.text move.target = none →
        ((∃ front, edit.Describes front removed.text moved.text) ↔
          ∀ last ∈ (Import.sites removed.text).getLast?,
            Closed (removed.text.takeBytes last.stop))) := by
  intro removed moved
  have step : moved = recordImport removed move.target
      (Import.ensure removed.text move.target rule.newName) := by
    simp only [moved, moveImport, moves, removed]
  rw [step]
  exact ⟨removeImport_notes noBreak, ensureImport_notes noBreak' noBrace⟩

/-- A default name and another name stay, and the new import goes behind them. -/
theorem moveImport_notes_changes_shared :
    let rule : ComponentRule := { name := ['A'], newName := ['B'], imports := some ⟨['m'], ['n']⟩ }
    let state := start [] "import C, \x7b A, D \x7d from 'm'\nf(C)\n".toList
    let removed := removeImport state rule.name ['m']
    let moved := moveImport state rule
    ∃ first second front, moved.edits = [first, second] ∧
      first.after = "import C, \x7b D \x7d from 'm'".toList ∧
      second.after = "import \x7b B \x7d from 'n'".toList ∧
      first.Describes [] state.text removed.text ∧
      second.Describes front removed.text moved.text := by
  intro rule state removed moved
  have moves : rule.imports = some ⟨['m'], ['n']⟩ := rfl
  obtain ⟨removal, insertion⟩ :=
    moveImport_notes_changes state moves (by decide) (by decide) (by decide)
  have steps : (removed.text, moved.edits.map (·.after)) =
      ("import C, \x7b D \x7d from 'm'\nf(C)\n".toList,
        ["import C, \x7b D \x7d from 'm'".toList, "import \x7b B \x7d from 'n'".toList]) := by
    decide +kernel
  obtain ⟨text, edits⟩ := Prod.mk.inj steps
  rcases removal with ⟨same, -⟩ | ⟨first, -, shown, found, here, describes⟩
  · exact absurd (text.symm.trans same) (by decide)
  rcases insertion with ⟨-, same⟩ | ⟨second, -, shown', -, describes'⟩
  · rw [same, shown] at edits
    exact absurd (congrArg List.length edits) (by simp [state, start])
  have both : moved.edits = [first, second] := by
    rw [shown', shown]
    rfl
  rw [both] at edits
  obtain ⟨after, rest⟩ := List.cons.inj edits
  have read : (Import.findNamed? state.text ['m']).map (fun found =>
      (found.before, found.item.names)) = some ([], [['A'], ['D']]) := by decide +kernel
  rw [here] at read
  obtain ⟨place, names⟩ := Prod.mk.inj (Option.some.inj read)
  have left : found.item.names.filter (· != ['A']) ≠ [] := by
    rw [names]
    decide
  have unread : Import.findNamed? removed.text ['n'] = none := by
    rw [text, ← Option.isNone_iff_eq_none]
    decide +kernel
  have closed : ∀ last ∈ (Import.sites removed.text).getLast?,
      Closed (removed.text.takeBytes last.stop) := by
    rw [text]
    intro last ends
    have stops : (Import.sites "import C, \x7b D \x7d from 'm'\nf(C)\n".toList).getLast?.map
        (·.stop) = some 24 := by decide +kernel
    rw [Option.mem_def.1 ends] at stops
    have cut : Text.takeBytes 24 "import C, \x7b D \x7d from 'm'\nf(C)\n".toList =
        "import C, \x7b D ".toList ++ '\x7d' :: " from 'm'".toList := by decide +kernel
    rw [show last.stop = 24 from Option.some.inj stops, cut]
    exact Import.closed_of_last_brace (by decide)
  obtain ⟨front, behind⟩ := (describes' unread).2 closed
  exact ⟨first, second, front, both, after, (List.cons.inj rest).1,
    place ▸ describes.2 (.inl left), behind⟩

/-- The module is imported twice, and the statement that goes is shown to give way to the other one,
which stays where it is. -/
theorem removeImport_shows_other_statement :
    let state := start [] ("import \x7b CButton \x7d from '@coreui/react'\n" ++
      "import \x7b CCard \x7d from '@coreui/react'\n<Button/>\n").toList
    let removed := removeImport state "CButton".toList "@coreui/react".toList
    removed.text = "import \x7b CCard \x7d from '@coreui/react'\n<Button/>\n".toList ∧
      ∃ edit, removed.edits = [edit] ∧
        edit.before = "import \x7b CButton \x7d from '@coreui/react'".toList ∧
        edit.after = "import \x7b CCard \x7d from '@coreui/react'".toList ∧
        ∀ front, ¬edit.Describes front state.text removed.text := by
  intro state removed
  have step : (removed.text, removed.edits) =
      ("import \x7b CCard \x7d from '@coreui/react'\n<Button/>\n".toList,
        [⟨1, "import \x7b CButton \x7d from '@coreui/react'".toList,
          "import \x7b CCard \x7d from '@coreui/react'".toList⟩]) := by decide +kernel
  obtain ⟨text, edits⟩ := Prod.mk.inj step
  refine ⟨text, _, edits, rfl, rfl, ?_⟩
  intro front describes
  cases describes with
  | replaced _ was becomes =>
    have old := congrArg List.length was
    have new := congrArg List.length (text.symm.trans becomes)
    simp [state, start] at old new
    omega
  | deleted _ gone => simp at gone
  | inserted _ _ _ fresh => simp at fresh

end Migration
end Retag
