import Retag.Proofs.Import.Rewriting
import Retag.Proofs.Text.Offset

/-! Making sure that a name is imported. One part of the source gives way to another: nothing, the
first statement of the module, or the place behind the last import or on top. Main statements: the
first statement of the result lists the name, so doing it again changes nothing; and the source is
left as it is exactly if its first statement lists the name, whatever later statements list. -/
namespace Retag.Import
open Text (FirstAt startsLine)

/-- Which part of the source gives way to what, so that `name` is imported. -/
inductive Ensured (source module name : Text) : (before old new after : Text) → Prop
  | listed {found : Text.Found NamedImport} (first : findNamed? source module = some found)
    (listed : name ∈ found.item.names) :
    Ensured source module name found.before found.item.text found.item.text found.after
  | appended {found : Text.Found NamedImport} (first : findNamed? source module = some found)
    (absent : name ∉ found.item.names) :
    Ensured source module name found.before found.item.text
      (found.item.render module (found.item.names ++ [name])) found.after
  | behind {last : ImportSite} {before after : Text} (none : findNamed? source module = none)
    (ends : (sites source).getLast? = some last) (stop : before.size = last.stop) :
    Ensured source module name before []
      ('\n' :: single module name last.quote last.semicolon) after
  | onTop (none : findNamed? source module = none) (noSite : sites source = []) :
    Ensured source module name [] [] (single module name .single false ++ gapBefore source) source

theorem ensure_listed {source module name : Text} {found : Text.Found NamedImport}
    (first : findNamed? source module = some found) (listed : name ∈ found.item.names) :
    ensure source module name = source := by
  unfold ensure
  rw [first]
  dsimp only
  rw [if_pos (List.contains_iff_mem.2 listed)]

theorem exists_ensured (source module name : Text) :
    ∃ before old new after, Ensured source module name before old new after ∧
      source = before ++ (old ++ after) ∧ ensure source module name = before ++ (new ++ after) := by
  cases first : findNamed? source module with
  | some found =>
    have split := findNamed?_split first
    by_cases listed : name ∈ found.item.names
    · exact ⟨_, _, _, _, .listed first listed, split, (ensure_listed first listed).trans split⟩
    · exact ⟨_, _, _, _, .appended first listed, split,
        by rw [ensure_append first listed, List.append_assoc]⟩
  | none =>
    cases ends : (sites source).getLast? with
    | some last =>
      obtain ⟨front, c, rest, whole, -, stop⟩ := stop_of_mem (List.mem_of_getLast? ends)
      rw [Nat.zero_add] at stop
      refine ⟨front ++ [c], _, _, rest, .behind first ends stop.symm, whole, ?_⟩
      unfold ensure
      rw [first]
      dsimp only
      rw [ends]
      dsimp only
      rw [stop, whole, Text.takeBytes_size, Text.dropBytes_size]
      simp
    | none =>
      have noSite := List.getLast?_eq_none_iff.1 ends
      refine ⟨_, _, _, _, .onTop first noSite, rfl, ?_⟩
      unfold ensure
      rw [first]
      dsimp only
      rw [ends]
      simp

/-- A statement for one name is read with this name, whatever follows. -/
theorem readNamed?_single {module name : Text} (entry : IsEntry name) (quote : Quote)
    (semicolon : Bool) (tail : Text) :
    StartsAfresh (single module name quote semicolon ++ tail) ∧ ∃ statement rest,
      readNamed? module (single module name quote semicolon ++ tail) = some (statement, rest) ∧
      statement.names = [name] := by
  have entries : ∀ other ∈ [name], IsEntry other := by simpa using entry
  have noIndent : ∀ c ∈ ([] : Text), Text.isSpaceOrTab c = true := by simp
  have inside := brace_not_mem_renderList entries noIndent false
  rw [single_eq quote semicolon inside, List.append_assoc]
  refine ⟨startsAfresh_written not_bound inside _, ?_⟩
  obtain ⟨_, _, rest, -, -, read⟩ := (Spelling.written module not_bound quote inside).exists_read
    (renderSemicolon semicolon ++ tail)
  exact ⟨_, rest, read, readNames_renderList entries noIndent (by simp) false⟩

theorem firstAt_of_none {source module before after : Text}
    (none : findNamed? source module = none) (split : source = before ++ after) :
    FirstAt (readNamed? module) true before after := by
  intro a b whole filled starts
  have split : source = a ++ (b ++ after) := by rw [split, whole, List.append_assoc]
  exact Text.firstAtLine?_eq_none_iff.1 none a _ split (by simp [filled]) starts

theorem findNamed?_single {module name before : Text} (entry : IsEntry name)
    (starts : startsLine true before = true)
    (first : ∀ line, StartsAfresh line → FirstAt (readNamed? module) true before line)
    (quote : Quote) (semicolon : Bool) (after : Text) :
    ∃ found, findNamed? (before ++ (single module name quote semicolon ++ after)) module =
      some found ∧ name ∈ found.item.names := by
  obtain ⟨fresh, statement, rest, read, names⟩ := readNamed?_single entry quote semicolon after
  exact ⟨_, Text.firstAtLine?_of_first starts (fresh.ne (by simp)).symm read (first _ fresh),
    by simp [names]⟩

/-- The first statement of the result lists the name. -/
theorem Ensured.lists {source module name before old new after : Text}
    (ensured : Ensured source module name before old new after)
    (split : source = before ++ (old ++ after))
    (result : ensure source module name = before ++ (new ++ after))
    (noBreak : '\n' ∉ module) (entry : IsEntry name) (line : '\n' ∉ name)
    (closed : ∀ last ∈ (sites source).getLast?, Closed (source.takeBytes last.stop)) :
    ∃ found, findNamed? (ensure source module name) module = some found ∧
      name ∈ found.item.names := by
  cases ensured with
  | listed first listed => exact ⟨_, by rwa [ensure_listed first listed], listed⟩
  | appended first absent =>
    exact ⟨_, findNamed?_ensure first noBreak absent ⟨entry, fun _ => line⟩, by simp [rewritten]⟩
  | @behind last _ _ none ends stop =>
    have unread := firstAt_of_none none split
    have closed := closed last ends
    rw [← stop, split, Text.takeBytes_size] at closed
    rw [result, List.cons_append, List.append_cons]
    exact findNamed?_single entry (by rw [Text.startsLine_concat]; rfl)
      (fun _ fresh => firstAt_afresh noBreak fresh unread closed) _ _ after
  | onTop none noSite =>
    rw [result, List.append_assoc]
    refine findNamed?_single entry rfl ?_ _ _ _
    intro line _ a b split filled
    exact absurd (List.append_eq_nil_iff.1 split.symm).2 filled

/-- If every list is closed that is opened before the end of the last import, the first statement of
the module lists the name once it was ensured, ensuring it again changes nothing, and one part of the
text was replaced, with what is before and after it kept. -/
theorem ensure_lists_name {source module name : Text} (noBreak : '\n' ∉ module)
    (entry : IsEntry name) (line : '\n' ∉ name)
    (closed : ∀ last ∈ (sites source).getLast?, Closed (source.takeBytes last.stop)) :
    (∃ found, findNamed? (ensure source module name) module = some found ∧
      name ∈ found.item.names) ∧
    ensure (ensure source module name) module name = ensure source module name ∧
    ∃ before old new after, Ensured source module name before old new after ∧
      source = before ++ (old ++ after) ∧
      ensure source module name = before ++ (new ++ after) := by
  obtain ⟨before, old, new, after, ensured, split, result⟩ := exists_ensured source module name
  obtain ⟨found, first, listed⟩ := ensured.lists split result noBreak entry line closed
  exact ⟨⟨found, first, listed⟩, ensure_listed first listed,
    before, old, new, after, ensured, split, result⟩

/-- Lists are closed where the last brace is a closing one. -/
theorem closed_of_last_brace {front back : Text} (none : '{' ∉ back) :
    Closed (front ++ '}' :: back) := by
  intro before opening inside default split _ opens
  obtain ⟨start, rfl⟩ := opens.ends
  have last : (before ++ (start ++ ['{'])).getLast? = some '{' := by simp
  rw [← List.append_assoc before] at split
  rcases List.append_eq_append_iff.1 split with ⟨more, ends, same⟩ | ⟨more, -, same⟩
  · cases more with
    | nil => simp [← show '}' :: back = inside from same]
    | cons c more =>
      -- The opening brace would stand in `back`.
      obtain ⟨rfl, rfl⟩ := List.cons.inj same
      rw [ends, List.getLast?_append] at last
      have member : '{' ∈ '}' :: more := List.mem_of_getLast? (by simpa using last)
      exact absurd (by simpa using member) fun inMore => none (List.mem_append_left inside inMore)
  · rw [same]
    simp

/-- The only list is closed before the last import, which the new statement takes its quotes and
semicolon from. -/
theorem ensure_lists_name_behind :
    let source : Text := "import \x7b\n a \x7d from 'x'\nimport y from \"z\"; f()\n".toList
    let name := "B as C".toList
    (∀ last ∈ (sites source).getLast?, Closed (source.takeBytes last.stop)) ∧
      ensure source "m".toList name = ("import \x7b\n a \x7d from 'x'\nimport y from \"z\";\n" ++
        "import \x7b B as C \x7d from \"m\"; f()\n").toList ∧
      (∃ found, findNamed? (ensure source "m".toList name) "m".toList = some found ∧
        name ∈ found.item.names) ∧
      ensure (ensure source "m".toList name) "m".toList name = ensure source "m".toList name := by
  intro source name
  have closed : ∀ last ∈ (sites source).getLast?, Closed (source.takeBytes last.stop) := by
    intro last ends
    have stops : (sites source).getLast?.map (·.stop) = some 41 := by decide +kernel
    rw [Option.mem_def.1 ends] at stops
    have cut : source.takeBytes 41 = "import \x7b\n a ".toList ++ '\x7d' ::
        " from 'x'\nimport y from \"z\";".toList := by decide +kernel
    rw [show last.stop = 41 from Option.some.inj stops, cut]
    exact closed_of_last_brace (by decide)
  have entry : IsEntry name := ⟨by decide, by decide, by decide, by decide⟩
  have noBreak : '\n' ∉ "m".toList := by decide
  obtain ⟨lists, again, -⟩ := ensure_lists_name noBreak entry (by decide) closed
  exact ⟨closed, by decide +kernel, lists, again⟩

theorem gapBefore_ne_nil (source : Text) : gapBefore source ≠ [] := by
  unfold gapBefore
  split <;> simp

/-- A name that could be read from a list is added unless the first statement lists it. -/
theorem listed_of_ensure_eq {source module name : Text} (entry : IsEntry name)
    (same : ensure source module name = source) :
    ∃ found, findNamed? source module = some found ∧ name ∈ found.item.names := by
  obtain ⟨before, old, new, after, ensured, split, result⟩ := exists_ensured source module name
  have unchanged : new = old := by
    rw [same, split] at result
    exact (List.append_cancel_right (List.append_cancel_left result)).symm
  cases ensured with
  | @listed found first listed => exact ⟨found, first, listed⟩
  | @appended found first absent =>
    -- The text of the statement would be read with the name and without it.
    have entries : ∀ other ∈ found.item.names ++ [name], IsEntry other :=
      List.forall_mem_append.2 ⟨fun other member => (takes_of_found first other member).toIsEntry,
        by simpa using entry⟩
    obtain ⟨statement, read, names⟩ := exists_read_render first (by simp) entries
    obtain ⟨line, whole, read', -⟩ := Text.first_of_firstAtLine? first
    rw [unchanged, ← List.append_cancel_left (whole.symm.trans split), read'] at read
    rw [← (Prod.mk.inj (Option.some.inj read)).1] at names
    simp at names
  | behind => cases unchanged
  | onTop => exact absurd (List.append_eq_nil_iff.1 unchanged).2 (gapBefore_ne_nil source)

/-- If a statement lists the name, wherever it stands, the source is left as it is exactly if the
first statement of the module lists the name. -/
theorem ensure_eq_self_iff_first {source module name before line rest : Text}
    {statement : NamedImport} (split : source = before ++ line)
    (starts : startsLine true before = true)
    (read : readNamed? module line = some (statement, rest)) (listed : name ∈ statement.names) :
    ∃ found, findNamed? source module = some found ∧
      (ensure source module name = source ↔ name ∈ found.item.names) := by
  cases first : findNamed? source module with
  | none =>
    have filled : line ≠ [] := by
      rintro rfl
      cases read
    have unread := Text.firstAtLine?_eq_none_iff.1 first before line split filled starts
    rw [unread] at read
    cases read
  | some found =>
    obtain ⟨spelling, _, _, -, -, rfl⟩ := exists_spelling read
    obtain ⟨entry, -⟩ := isEntry_of_mem spelling.inside listed
    refine ⟨found, rfl, fun same => ?_, ensure_listed first⟩
    obtain ⟨other, again, among⟩ := listed_of_ensure_eq entry same
    obtain rfl := Option.some.inj (first.symm.trans again)
    exact among

/-- The second statement lists `B`, and `B` is imported twice. -/
theorem ensure_imports_twice :
    let first := "import \x7b A \x7d from 'm'\n".toList
    let second := "import \x7b B \x7d from 'm'\n".toList
    startsLine true first = true ∧
      (readNamed? "m".toList second).map (·.1.names) = some ["B".toList] ∧
      ensure (first ++ second) "m".toList "B".toList ≠ first ++ second ∧
      ensure (first ++ second) "m".toList "B".toList =
        "import \x7b A, B \x7d from 'm'\n".toList ++ second := by
  decide +kernel

theorem ensure_eq_self_iff_first_lists :
    let first := "import \x7b A, B \x7d from 'm'\n".toList
    let second := "import \x7b B \x7d from 'm'\n".toList
    (readNamed? "m".toList second).map (·.1.names) = some ["B".toList] ∧
      ensure (first ++ second) "m".toList "B".toList = first ++ second := by
  intro first second
  have read : (readNamed? "m".toList second).map (·.1.names) = some ["B".toList] := by
    decide +kernel
  obtain ⟨⟨statement, rest⟩, here, names⟩ := Option.map_eq_some_iff.1 read
  have among : "B".toList ∈ statement.names := by
    rw [show statement.names = _ from names]
    decide
  have starts : startsLine true first = true := by decide
  obtain ⟨found, found?, unchanged⟩ := ensure_eq_self_iff_first rfl starts here among
  have listed : (findNamed? (first ++ second) "m".toList).map (·.item.names) =
      some ["A".toList, "B".toList] := by decide +kernel
  rw [found?] at listed
  exact ⟨read, unchanged.2 (by simp [Option.some.inj listed])⟩

end Retag.Import
