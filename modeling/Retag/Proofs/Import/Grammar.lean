import Retag.Proofs.Import.Layout
import Retag.Proofs.Import.Names
import Retag.Proofs.Tag.Quiet
import Retag.Proofs.Text.LineMatch

/-! The spelling of a named import. The reader takes exactly the lines that start with a spelling,
and what it returns is told by the spelling. A statement that was begun further up ends before a
line that starts with `import`, or its list is still open there. -/
namespace Retag

namespace Text

theorem exists_trimStart (text : Text) : ∃ blanks, text = blanks ++ trimStart text ∧ Blank blanks :=
  ⟨text.takeWhile isBlank, List.takeWhile_append_dropWhile.symm,
    List.all_eq_true.1 List.all_takeWhile⟩

/-- `piece` ends before `line`, wherever the line break before `line` is. -/
def EndsBefore (line piece rest : Text) : Prop :=
  ∀ before, piece ++ rest = before ++ '\n' :: line →
    ∃ more, before = piece ++ more ∧ rest = more ++ '\n' :: line

namespace EndsBefore
variable {line a b rest : Text}

theorem of_not_mem (absent : '\n' ∉ a) : EndsBefore line a rest :=
  fun _ same => append_past absent same

/-- White space can only run into a line that starts with white space or is all that follows. -/
theorem of_blank (blank : Blank a) (ink : Clear isBlank line) (apart : rest ≠ line) :
    EndsBefore line a rest := by
  intro before same
  rcases List.append_eq_append_iff.1 same with ⟨more, rfl, follows⟩ | ⟨more, rfl, follows⟩
  · exact ⟨more, rfl, follows⟩
  · cases more with
    | nil => exact ⟨[], by simp, by simpa using follows.symm⟩
    | cons c more =>
      obtain ⟨-, behind⟩ := List.cons.inj follows
      cases more with
      | nil => exact absurd behind.symm apart
      | cons d more =>
        have outside := ink d (by rw [behind]; rfl)
        rw [blank d (by simp)] at outside
        cases outside

theorem append (first : EndsBefore line a (b ++ rest)) (second : EndsBefore line b rest) :
    EndsBefore line (a ++ b) rest := by
  intro before same
  rw [List.append_assoc] at same
  obtain ⟨_, rfl, behind⟩ := first before same
  obtain ⟨more, rfl, last⟩ := second _ behind
  exact ⟨more, (List.append_assoc a b more).symm, last⟩

end EndsBefore

end Text

namespace Import
open Text (Blank Clear EndsBefore takeWhile_clear dropWhile_clear)

theorem startsName_blank {c : Char} (blank : Text.isBlank c = true) : startsName c = false := by
  simp only [startsName, Tag.isAlpha_of_blank blank, Bool.false_or, Bool.or_eq_false_iff,
    beq_eq_false_iff_ne]
  constructor <;> rintro rfl <;> exact absurd blank (by decide)

inductive IsBinding : Text → Prop
  | mk {c : Char} {cs : Text} (starts : startsName c = true)
    (continues : ∀ d ∈ cs, continuesName d = true) : IsBinding (c :: cs)

/-- What stands before the brace to import a default name, or none. The name goes as far as it
can. -/
inductive Binds : Option Text → Text → Prop
  | none : Binds none []
  | some {name a b : Text} (binding : IsBinding name) (ends : Clear continuesName (a ++ [',']))
    (before : Blank a) (after : Blank b) : Binds (some name) (name ++ (a ++ ',' :: b))

inductive Opens (default : Option Text) : Text → Prop
  | mk {indent gap binding : Text}
    (inside : ∀ c ∈ indent, Text.isSpaceOrTab c = true) (blank : Blank gap) (filled : gap ≠ [])
    (binds : Binds default binding) :
    Opens default (indent ++ ("import".toList ++ (gap ++ (binding ++ ['{']))))

/-- A statement from its closing brace to the quote behind the module. The two quotes may differ. -/
inductive Closes (module : Text) (quote : Quote) : Text → Prop
  | mk {a b : Text} (before : Blank a) (after : Blank b) (other : Quote) :
    Closes module quote (a ++ ("from".toList ++ (b ++ quote.char :: (module ++ [other.char]))))

/-- How a named import of `module` is written, up to the quote behind the module. -/
structure Spelling (module : Text) where
  default : Option Text
  opening : Text
  list : Text
  quote : Quote
  closing : Text
  opens : Opens default opening
  inside : '}' ∉ list
  closes : Closes module quote closing

namespace Spelling
variable {module : Text}

def text (spelling : Spelling module) : Text :=
  spelling.opening ++ (spelling.list ++ '}' :: spelling.closing)

/-- The statement that is spelled, with what follows the quote and belongs to it. -/
def statement (spelling : Spelling module) (ending : Text) (semicolon : Bool) : NamedImport where
  text := spelling.text ++ ending
  defaultName := spelling.default
  names := readNames spelling.list
  multiline := spelling.list.contains '\n'
  indent := readIndent spelling.list
  quote := spelling.quote
  semicolon := semicolon

end Spelling

theorem IsBinding.clear {name : Text} (binding : IsBinding name) (rest : Text) :
    Clear Text.isBlank (name ++ rest) := by
  obtain ⟨starts, -⟩ := binding
  intro d first
  obtain rfl := Option.some.inj first
  rw [Bool.eq_false_iff]
  intro blank
  rw [startsName_blank blank] at starts
  cases starts

theorem readDefault_binds {default : Option Text} {binding : Text} (binds : Binds default binding)
    (rest : Text) : readDefault (binding ++ '{' :: rest) = (default, '{' :: rest) := by
  cases binds with
  | none => simp [readDefault, show startsName '{' = false by decide]
  | @some name a b binding ends before after =>
    obtain @⟨c, cs, starts, continues⟩ := binding
    have stops : Clear continuesName (a ++ ',' :: (b ++ '{' :: rest)) := by
      cases a <;> exact ends
    have comma : Clear Text.isBlank (',' :: (b ++ '{' :: rest)) := by simp [Clear]; decide
    have brace : Clear Text.isBlank ('{' :: rest) := by simp [Clear]; decide
    simp only [List.cons_append, List.append_assoc, readDefault, starts, if_true]
    rw [dropWhile_clear continues stops, takeWhile_clear continues stops, Text.trimStart,
      dropWhile_clear before comma]
    simp only [Text.trimStart, dropWhile_clear after brace]

theorem binds_readDefault (text : Text) :
    ∃ binding, text = binding ++ (readDefault text).2 ∧ Binds (readDefault text).1 binding := by
  unfold readDefault
  split
  · exact ⟨[], rfl, .none⟩
  · rename_i c cs
    split
    · rename_i starts
      split
      · rename_i tail found
        obtain ⟨a, split, before⟩ := Text.exists_trimStart (cs.dropWhile continuesName)
        obtain ⟨b, split', after⟩ := Text.exists_trimStart tail
        have ends := Text.clear_dropWhile continuesName cs
        rw [split, found] at ends
        replace ends : Clear continuesName (a ++ [',']) := by cases a <;> exact ends
        have binding : IsBinding (c :: cs.takeWhile continuesName) :=
          .mk starts (List.all_eq_true.1 List.all_takeWhile)
        refine ⟨_, ?_, .some binding ends before after⟩
        calc c :: cs
          _ = c :: (cs.takeWhile continuesName ++ cs.dropWhile continuesName) := by
            rw [List.takeWhile_append_dropWhile]
          _ = c :: (cs.takeWhile continuesName ++ (a ++ ',' :: (b ++ Text.trimStart tail))) := by
            rw [← split', ← found, ← split]
          _ = _ := by simp
      · exact ⟨[], rfl, .none⟩
    · exact ⟨[], rfl, .none⟩

theorem dropBlanks?_append {gap rest : Text} (blank : Blank gap) (filled : gap ≠ [])
    (clear : Clear Text.isBlank rest) : dropBlanks? (gap ++ rest) = some rest := by
  obtain ⟨c, cs, rfl⟩ := List.exists_cons_of_ne_nil filled
  rw [List.cons_append, dropBlanks?, if_pos (blank c (by simp)),
    dropWhile_clear (fun d member => blank d (by simp [member])) clear]

theorem exists_dropBlanks? {text rest : Text} (read : dropBlanks? text = some rest) :
    ∃ gap, text = gap ++ rest ∧ Blank gap ∧ gap ≠ [] := by
  cases text with
  | nil => simp [dropBlanks?] at read
  | cons c cs =>
    rw [dropBlanks?] at read
    split at read
    · rename_i blank
      obtain rfl := Option.some.inj read
      refine ⟨c :: cs.takeWhile Text.isBlank, by simp, fun d member => ?_, by simp⟩
      rcases List.mem_cons.1 member with rfl | member
      · exact blank
      · exact List.all_eq_true.1 List.all_takeWhile d member
    · cases read

theorem untilChar?_append {stop : Char} {front : Text} (absent : stop ∉ front) (rest : Text) :
    untilChar? stop (front ++ stop :: rest) = some (front, rest) := by
  have inside : ∀ c ∈ front, (c != stop) = true := by
    intro c member
    simp only [bne_iff_ne]
    rintro rfl
    exact absent member
  have clear : Clear (· != stop) (stop :: rest) := by simp [Clear]
  simp [untilChar?, dropWhile_clear inside clear, takeWhile_clear inside clear]

theorem untilChar?_inv {stop : Char} {text front rest : Text}
    (read : untilChar? stop text = some (front, rest)) :
    text = front ++ stop :: rest ∧ stop ∉ front := by
  unfold untilChar? at read
  split at read
  · cases read
  · rename_i c tail found
    obtain ⟨rfl, rfl⟩ := Prod.mk.inj (Option.some.inj read)
    have stops := List.head?_dropWhile_not (· != stop) text
    rw [found] at stops
    obtain rfl : c = stop := by simpa using stops
    refine ⟨by rw [← found, List.takeWhile_append_dropWhile], fun member => ?_⟩
    simpa using List.all_eq_true.1 List.all_takeWhile c member

@[simp] theorem readQuote?_char (quote : Quote) (rest : Text) :
    readQuote? (quote.char :: rest) = some (quote, rest) := by
  cases quote <;> rfl

theorem readQuote?_inv {text rest : Text} {quote : Quote}
    (read : readQuote? text = some (quote, rest)) : text = quote.char :: rest := by
  cases text with
  | nil => simp [readQuote?] at read
  | cons c cs =>
    obtain ⟨found, quotes, same⟩ := Option.map_eq_some_iff.1 read
    obtain ⟨rfl, rfl⟩ := Prod.mk.inj same
    unfold Quote.ofChar? at quotes
    split at quotes <;> cases quotes <;> rfl

def readOpening? (line : Text) : Option (Option Text × Text) := do
  let rest ← Text.dropPrefix? "import".toList (line.dropWhile Text.isSpaceOrTab)
  let rest ← dropBlanks? rest
  let (default, rest) := readDefault rest
  let rest ← Text.dropPrefix? ['{'] rest
  return (default, rest)

def readClosing? (module text : Text) : Option (Quote × Text) := do
  let rest ← Text.dropPrefix? "from".toList (Text.trimStart text)
  let (quote, rest) ← readQuote? (Text.trimStart rest)
  let rest ← Text.dropPrefix? module rest
  let (_, rest) ← readQuote? rest
  return (quote, rest)

theorem readNamed?_eq (module line : Text) : readNamed? module line = (do
    let (default, rest) ← readOpening? line
    let (list, rest) ← untilChar? '}' rest
    let (quote, rest) ← readClosing? module rest
    let (semicolon, rest) := readSemicolon rest
    return (⟨line.take (line.length - rest.length), default, readNames list, list.contains '\n',
      readIndent list, quote, semicolon⟩, rest)) := by
  simp only [readNamed?, readOpening?, readClosing?, bind, pure, Option.bind_assoc,
    Option.bind_some]

theorem readOpening?_eq_some_iff {line rest : Text} {default : Option Text} :
    readOpening? line = some (default, rest) ↔
      ∃ opening, line = opening ++ rest ∧ Opens default opening := by
  constructor
  · intro read
    simp only [readOpening?, bind, Option.bind_eq_some_iff, pure, Option.some.injEq,
      Prod.mk.injEq] at read
    obtain ⟨afterImport, keyword, afterBlanks, blanks, afterOpen, opens, rfl, rfl⟩ := read
    obtain ⟨gap, split, blank, filled⟩ := exists_dropBlanks? blanks
    obtain ⟨binding, split', binds⟩ := binds_readDefault afterBlanks
    have indented : ∀ c ∈ line.takeWhile Text.isSpaceOrTab, Text.isSpaceOrTab c = true :=
      List.all_eq_true.1 List.all_takeWhile
    refine ⟨_, ?_, .mk indented blank filled binds⟩
    calc line
      _ = line.takeWhile Text.isSpaceOrTab ++ line.dropWhile Text.isSpaceOrTab :=
        List.takeWhile_append_dropWhile.symm
      _ = line.takeWhile Text.isSpaceOrTab ++
          ("import".toList ++ (gap ++ (binding ++ (['{'] ++ afterOpen)))) := by
        rw [← Text.dropPrefix?_eq_some_iff.1 opens, ← split', ← split,
          Text.dropPrefix?_eq_some_iff.1 keyword]
      _ = _ := by simp only [List.append_assoc]
  · rintro ⟨_, rfl, opens⟩
    obtain @⟨indent, gap, binding, indented, blank, filled, binds⟩ := opens
    have keyword : Clear Text.isSpaceOrTab
        ("import".toList ++ (gap ++ (binding ++ ['{'])) ++ rest) := by simp [Clear]; decide
    have clear : Clear Text.isBlank (binding ++ '{' :: rest) := by
      cases binds with
      | none => simp [Clear]; decide
      | some binding => simpa using binding.clear _
    rw [readOpening?, List.append_assoc, dropWhile_clear indented keyword]
    simp only [List.append_assoc, List.singleton_append, Text.dropPrefix?_append, bind,
      Option.bind_some, dropBlanks?_append blank filled clear, readDefault_binds binds]
    rfl

theorem readClosing?_eq_some_iff {module text rest : Text} {quote : Quote} :
    readClosing? module text = some (quote, rest) ↔
      ∃ closing, text = closing ++ rest ∧ Closes module quote closing := by
  constructor
  · intro read
    simp only [readClosing?, bind, Option.bind_eq_some_iff, pure, Option.some.injEq,
      Prod.mk.injEq, Prod.exists] at read
    obtain ⟨afterFrom, word, quote, afterQuote, quotes, afterModule, moduleText, other, _, quotes',
      rfl, rfl⟩ := read
    obtain ⟨a, split, before⟩ := Text.exists_trimStart text
    obtain ⟨b, split', after⟩ := Text.exists_trimStart afterFrom
    refine ⟨_, ?_, .mk before after other⟩
    rw [split, Text.dropPrefix?_eq_some_iff.1 word, split', readQuote?_inv quotes,
      Text.dropPrefix?_eq_some_iff.1 moduleText, readQuote?_inv quotes']
    simp
  · rintro ⟨_, rfl, closes⟩
    obtain @⟨a, b, before, after, other⟩ := closes
    have word : Clear Text.isBlank
        ("from".toList ++ (b ++ quote.char :: (module ++ [other.char])) ++ rest) := by
      simp [Clear]; decide
    have quoted : Clear Text.isBlank (quote.char :: (module ++ [other.char]) ++ rest) := by
      cases quote <;> simp [Clear, Quote.char] <;> decide
    rw [readClosing?, List.append_assoc, Text.trimStart, dropWhile_clear before word]
    simp only [List.append_assoc, Text.dropPrefix?_append, bind, Option.bind_some, Text.trimStart]
    rw [dropWhile_clear after quoted]
    simp only [List.cons_append, List.append_assoc, readQuote?_char, Option.bind_some,
      Text.dropPrefix?_append, List.nil_append]
    rfl

/-- A spelling is read as it says, whatever follows. -/
theorem readNamed?_spelling {module ending rest : Text} {semicolon : Bool}
    (spelling : Spelling module) (ends : readSemicolon (ending ++ rest) = (semicolon, rest)) :
    readNamed? module (spelling.text ++ (ending ++ rest)) =
      some (spelling.statement ending semicolon, rest) := by
  have opened : readOpening? (spelling.text ++ (ending ++ rest)) =
      some (spelling.default, spelling.list ++ '}' :: (spelling.closing ++ (ending ++ rest))) :=
    readOpening?_eq_some_iff.2 ⟨spelling.opening, by simp [Spelling.text], spelling.opens⟩
  have closed : readClosing? module (spelling.closing ++ (ending ++ rest)) =
      some (spelling.quote, ending ++ rest) :=
    readClosing?_eq_some_iff.2 ⟨spelling.closing, rfl, spelling.closes⟩
  have taken : (spelling.text ++ (ending ++ rest)).take
      ((spelling.text ++ (ending ++ rest)).length - rest.length) = spelling.text ++ ending := by
    rw [← List.append_assoc, List.length_append, Nat.add_sub_cancel, List.take_left]
  rw [readNamed?_eq]
  simp only [opened, bind, Option.bind_some, untilChar?_append spelling.inside, closed, ends, taken]
  rfl

theorem Spelling.exists_read {module : Text} (spelling : Spelling module) (tail : Text) :
    ∃ ending semicolon rest, readSemicolon tail = (semicolon, rest) ∧ tail = ending ++ rest ∧
      readNamed? module (spelling.text ++ tail) =
        some (spelling.statement ending semicolon, rest) := by
  obtain ⟨ending, split⟩ := readSemicolon_suffix tail
  have ends : readSemicolon (ending ++ (readSemicolon tail).2) = readSemicolon tail := by rw [split]
  have read := readNamed?_spelling spelling ends
  rw [split] at read
  exact ⟨ending, _, _, rfl, split.symm, read⟩

/-- A line that is read starts with a spelling of the statement. -/
theorem exists_spelling {module line rest : Text} {statement : NamedImport}
    (read : readNamed? module line = some (statement, rest)) :
    ∃ (spelling : Spelling module) (ending : Text) (semicolon : Bool),
      line = spelling.text ++ (ending ++ rest) ∧
      readSemicolon (ending ++ rest) = (semicolon, rest) ∧
      statement = spelling.statement ending semicolon := by
  have stages := read
  rw [readNamed?_eq] at stages
  simp only [bind, Option.bind_eq_some_iff, Prod.exists] at stages
  obtain ⟨default, afterOpening, opened, list, afterList, listed, quote, tail, closed, -⟩ := stages
  obtain ⟨opening, rfl, opens⟩ := readOpening?_eq_some_iff.1 opened
  obtain ⟨closing, rfl, closes⟩ := readClosing?_eq_some_iff.1 closed
  obtain ⟨rfl, inside⟩ := untilChar?_inv listed
  let spelling : Spelling module :=
    ⟨default, opening, list, quote, closing, opens, inside, closes⟩
  have whole : opening ++ (list ++ '}' :: (closing ++ tail)) = spelling.text ++ tail := by
    simp [spelling, Spelling.text]
  obtain ⟨ending, semicolon, behind, ends, rfl, read'⟩ := spelling.exists_read tail
  rw [whole, read'] at read
  obtain ⟨rfl, rfl⟩ := Prod.mk.inj (Option.some.inj read)
  exact ⟨spelling, ending, semicolon, whole, ends, rfl⟩

theorem IsBinding.characters {name : Text} (binding : IsBinding name) :
    ∀ c ∈ name, startsName c = true ∨ continuesName c = true := by
  obtain @⟨c, cs, starts, continues⟩ := binding
  intro d member
  rcases List.mem_cons.1 member with rfl | member
  · exact .inl starts
  · exact .inr (continues d member)

theorem IsBinding.not_mem {name : Text} {c : Char} (binding : IsBinding name)
    (outside : (startsName c || continuesName c) = false) : c ∉ name := by
  intro member
  rw [Bool.or_eq_false_iff] at outside
  rcases binding.characters c member with starts | continues
  · rw [outside.1] at starts
    cases starts
  · rw [outside.2] at continues
    cases continues

theorem Opens.binding {name opening : Text} (opens : Opens (some name) opening) :
    IsBinding name := by
  obtain ⟨-, -, -, binds⟩ := opens
  cases binds
  assumption

theorem Spelling.binding {module : Text} (spelling : Spelling module) :
    ∀ name ∈ spelling.default, IsBinding name := by
  intro name bound
  have opens := spelling.opens
  rw [Option.mem_def.1 bound] at opens
  exact opens.binding

theorem Opens.ends {default : Option Text} {opening : Text} (opens : Opens default opening) :
    ∃ start, opening = start ++ ['{'] := by
  obtain @⟨indent, gap, binding, -, -, -, -⟩ := opens
  exact ⟨indent ++ ("import".toList ++ (gap ++ binding)), by simp⟩

theorem Opens.ne_nil {default : Option Text} {opening : Text} (opens : Opens default opening) :
    opening ≠ [] := by
  obtain ⟨start, brace⟩ := opens.ends
  simp [brace]

theorem Opens.not_mem {default : Option Text} {opening : Text} (opens : Opens default opening) :
    '}' ∉ opening := by
  obtain @⟨indent, gap, binding, indented, blank, filled, binds⟩ := opens
  have noBrace : '}' ∉ binding := by
    cases binds with
    | none => simp
    | some binding ends before after =>
      simp only [List.mem_append, List.mem_cons, not_or]
      exact ⟨binding.not_mem (by decide +kernel), before.not_mem (by decide), by decide,
        after.not_mem (by decide)⟩
  simp only [List.mem_append, not_or]
  exact ⟨(Text.blank_of_spaceOrTab indented).not_mem (by decide), by decide,
    blank.not_mem (by decide), noBrace, by decide⟩

theorem Closes.ends {module closing : Text} {quote : Quote} (closes : Closes module quote closing) :
    EndsAt closing [] := by
  obtain @⟨a, b, -, -, other⟩ := closes
  refine ⟨a ++ ("from".toList ++ (b ++ quote.char :: module)), other.char, by simp, ?_⟩
  cases other <;> simp [Quote.char]

/-- What a named import says about the line that it was read from. -/
structure Reads (line : Text) (statement : NamedImport) (rest : Text) : Prop where
  whole : line = statement.text ++ rest
  ends : EndsAt line rest
  default : ∀ name ∈ statement.defaultName, ∀ c ∈ name, startsName c = true ∨ continuesName c = true
  list : ∃ front list back, line = front ++ '{' :: list ++ '}' :: back ∧ rest <:+ back ∧
    statement.names = readNames list ∧ statement.multiline = list.contains '\n' ∧
    statement.indent = readIndent list

theorem readNamed?_inv {module line rest : Text} {statement : NamedImport}
    (read : readNamed? module line = some (statement, rest)) : Reads line statement rest := by
  obtain ⟨spelling, ending, semicolon, rfl, semicolon?, rfl⟩ := exists_spelling read
  obtain ⟨start, opening⟩ := spelling.opens.ends
  obtain ⟨front, c, closing, mark⟩ := spelling.closes.ends
  have split : spelling.text ++ (ending ++ rest) = start ++ '{' :: spelling.list ++
      '}' :: (spelling.closing ++ (ending ++ rest)) := by
    simp [Spelling.text, opening]
  have ends : EndsAt (spelling.text ++ (ending ++ rest)) (ending ++ rest) :=
    ⟨start ++ '{' :: spelling.list ++ '}' :: front, c, by simp [split, closing], mark⟩
  exact {
    whole := by simp [Spelling.statement]
    ends := by simpa [semicolon?] using readSemicolon_ends ends
    default := fun name bound => (spelling.binding name bound).characters
    list := ⟨start, spelling.list, _, split, ⟨spelling.closing ++ ending, by simp⟩, rfl, rfl, rfl⟩ }

theorem findNamed?_inv {source module : Text} {found : Text.Found NamedImport}
    (first : findNamed? source module = some found) :
    ∃ line, source = found.before ++ line ∧ Reads line found.item found.after ∧
      ∀ c ∈ found.before.getLast?, c = '\n' := by
  obtain ⟨line, whole, read, starts, -⟩ := Text.first_of_firstAtLine? first
  refine ⟨line, whole, readNamed?_inv read, fun c last => ?_⟩
  by_cases empty : found.before = []
  · simp [empty] at last
  · obtain ⟨front, split⟩ := Text.break_of_startsLine empty starts
    simpa [split, eq_comm] using last

/-- The statement that was found is spelled in some way. -/
theorem findNamed?_spelling {source module : Text} {found : Text.Found NamedImport}
    (first : findNamed? source module = some found) :
    ∃ (spelling : Spelling module) (ending : Text) (semicolon : Bool),
      found.item = spelling.statement ending semicolon ∧
      readSemicolon (ending ++ found.after) = (semicolon, found.after) := by
  obtain ⟨_, -, read, -⟩ := Text.first_of_firstAtLine? first
  obtain ⟨spelling, ending, semicolon, -, ends, same⟩ := exists_spelling read
  exact ⟨spelling, ending, semicolon, same, ends⟩

/-- A line that no statement goes on with before its list of names, or behind the list. -/
structure StartsAfresh (line : Text) : Prop where
  keyword : line.head? = some 'i'
  noDefault : readDefault line = (none, line)

theorem startsAfresh_import {c : Char} (ink : Text.isBlank c = false) (notComma : c ≠ ',')
    (rest : Text) : StartsAfresh ("import".toList ++ ' ' :: c :: rest) := by
  refine ⟨rfl, ?_⟩
  have inside : ∀ d ∈ "mport".toList, continuesName d = true :=
    List.all_eq_true.1 (by decide +kernel)
  have stops : Clear continuesName (' ' :: c :: rest) := by
    simp only [Clear, List.head?_cons, Option.mem_some, forall_eq']
    decide +kernel
  have clear : Clear Text.isBlank (c :: rest) := by simpa [Clear] using ink
  have space : Blank [' '] := List.all_eq_true.1 (by decide)
  change readDefault ('i' :: ("mport".toList ++ ' ' :: c :: rest)) = _
  rw [readDefault, if_pos (by decide), dropWhile_clear inside stops, Text.trimStart,
    ← List.singleton_append, dropWhile_clear space clear]
  split
  · rename_i same
    exact absurd (List.cons.inj same).1 notComma
  · rfl

section
variable {line : Text} (fresh : StartsAfresh line)
include fresh

theorem StartsAfresh.ne {rest : Text} (differ : rest.head? ≠ some 'i') : rest ≠ line := by
  rintro rfl
  exact differ fresh.keyword

theorem StartsAfresh.ink : Clear Text.isBlank line := by
  intro c first
  rw [fresh.keyword] at first
  obtain rfl := Option.some.inj first
  decide

theorem StartsAfresh.endsBefore {blanks rest : Text} (blank : Blank blanks)
    (differ : rest.head? ≠ some 'i') : EndsBefore line blanks rest :=
  .of_blank blank fresh.ink (fresh.ne differ)

theorem Binds.ne {default : Option Text} {binding : Text} (binds : Binds default binding)
    (rest : Text) : binding ++ '{' :: rest ≠ line := by
  intro same
  have read := readDefault_binds binds rest
  rw [same, fresh.noDefault] at read
  exact fresh.ne (by simp) (Prod.mk.inj read).2.symm

theorem Binds.endsBefore {default : Option Text} {binding : Text} (binds : Binds default binding)
    (rest : Text) : EndsBefore line binding ('{' :: rest) := by
  cases binds with
  | none => exact .of_not_mem (by simp)
  | some binding ends before after =>
    refine .append (.of_not_mem (binding.not_mem (by decide +kernel)))
      (.append (fresh.endsBefore before (by simp)) ?_)
    exact .append (a := [',']) (.of_not_mem (by decide)) (fresh.endsBefore after (by simp))

/-- The opening brace stands before the line, and so does all that comes before the brace. -/
theorem Opens.endsBefore {default : Option Text} {opening : Text} (opens : Opens default opening)
    (rest : Text) : EndsBefore line opening rest := by
  obtain @⟨indent, gap, binding, indented, blank, filled, binds⟩ := opens
  have noBreak : '\n' ∉ indent := fun member => absurd (indented '\n' member) (by decide)
  refine .append (.of_not_mem noBreak) (.append (.of_not_mem (by decide)) (.append ?_ ?_))
  · exact .of_blank blank fresh.ink (by simpa using binds.ne fresh rest)
  · exact .append (binds.endsBefore fresh rest) (.of_not_mem (by decide))

theorem Closes.endsBefore {module closing : Text} {quote : Quote} (noBreak : '\n' ∉ module)
    (closes : Closes module quote closing) (rest : Text) : EndsBefore line closing rest := by
  obtain @⟨a, b, before, after, other⟩ := closes
  have mark (quote : Quote) : quote.char ≠ 'i' ∧ '\n' ∉ [quote.char] := by cases quote <;> decide
  refine .append (fresh.endsBefore before (by simp)) (.append (.of_not_mem (by decide)) ?_)
  refine .append (fresh.endsBefore after (by simp [(mark quote).1])) ?_
  refine .append (a := [quote.char]) (.of_not_mem (mark quote).2) ?_
  exact .append (.of_not_mem noBreak) (.of_not_mem (mark other).2)

/-- A statement that is read from a line further up ends before this line, or opens a list that is
not closed before it. -/
theorem readNamed?_before {module before : Text} (noBreak : '\n' ∉ module)
    (read : readNamed? module (before ++ '\n' :: line) ≠ none) :
    (∀ rest, readNamed? module (before ++ rest) ≠ none) ∨
      ∃ default opening inside, Opens default opening ∧ before = opening ++ inside ∧
        '}' ∉ inside := by
  obtain ⟨⟨statement, after⟩, read⟩ := Option.ne_none_iff_exists'.1 read
  obtain ⟨spelling, ending, _, whole, -⟩ := exists_spelling read
  rw [Spelling.text, List.append_assoc] at whole
  obtain ⟨behind, rfl, same⟩ := spelling.opens.endsBefore fresh _ _ whole.symm
  by_cases closed : '}' ∈ behind
  · left
    obtain ⟨list, more, rfl, inside⟩ := List.eq_append_cons_of_mem closed
    have once := untilChar?_append spelling.inside (spelling.closing ++ (ending ++ after))
    rw [← List.cons_append, ← List.append_assoc, same, List.append_assoc, List.cons_append,
      untilChar?_append inside] at once
    obtain ⟨rfl, behind⟩ := Prod.mk.inj (Option.some.inj once)
    obtain ⟨more, rfl, -⟩ := spelling.closes.endsBefore fresh noBreak _ _ behind.symm
    intro rest
    obtain ⟨_, _, _, -, -, read⟩ := spelling.exists_read (more ++ rest)
    have regroup : spelling.opening ++ (spelling.list ++ '}' :: (spelling.closing ++ more)) ++ rest =
        spelling.text ++ (more ++ rest) := by
      simp [Spelling.text]
    simp [regroup, read]
  · exact .inr ⟨_, _, behind, spelling.opens, rfl, closed⟩

end

end Import
end Retag
