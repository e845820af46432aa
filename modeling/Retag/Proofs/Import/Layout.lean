import Retag.Import.Site
import Retag.Proofs.Text.Offset

/-! How import statements end. Every statement that is read or written ends right after a closing
quote or a semicolon. -/
namespace Retag.Import

theorem suffix_of_dropPrefix? {front text rest : Text}
    (read : Text.dropPrefix? front text = some rest) : rest <:+ text := by
  rw [Text.dropPrefix?_eq_some_iff.1 read]
  exact List.suffix_append front rest

theorem trimStart_suffix (text : Text) : Text.trimStart text <:+ text := List.dropWhile_suffix _

/-- The text was read up to a closing quote or a semicolon. -/
def EndsAt (text rest : Text) : Prop :=
  ∃ front c, text = front ++ c :: rest ∧ (c = '"' ∨ c = '\'' ∨ c = ';')

theorem EndsAt.of_suffix {tail text rest : Text} (ends : EndsAt tail rest)
    (suffix : tail <:+ text) : EndsAt text rest := by
  obtain ⟨front, c, rfl, mark⟩ := ends
  obtain ⟨before, rfl⟩ := suffix
  exact ⟨before ++ front, c, by simp, mark⟩

theorem readQuote?_ends {text rest : Text} {quote : Quote}
    (read : readQuote? text = some (quote, rest)) : EndsAt text rest := by
  cases text with
  | nil => simp [readQuote?] at read
  | cons c cs =>
    obtain ⟨found, quotes, same⟩ := Option.map_eq_some_iff.1 read
    obtain ⟨rfl, rfl⟩ := Prod.mk.inj same
    refine ⟨[], c, rfl, ?_⟩
    unfold Quote.ofChar? at quotes
    split at quotes <;> simp_all

theorem readSemicolon_ends {text inner : Text} (ends : EndsAt text inner) :
    EndsAt text (readSemicolon inner).2 := by
  unfold readSemicolon
  split
  · rename_i rest found
    obtain ⟨front, c, rfl, -⟩ := ends
    have tail : ';' :: rest <:+ inner := found ▸ List.dropWhile_suffix _
    obtain ⟨blanks, rfl⟩ := tail
    exact ⟨front ++ c :: blanks, ';', by simp, .inr (.inr rfl)⟩
  · exact ends

theorem readModule?_ends {text rest : Text} {ending : Ending}
    (read : readModule? text = some (ending, rest)) : EndsAt text rest := by
  simp only [readModule?, bind, Option.bind_eq_some_iff, pure, Option.some.injEq,
    Prod.mk.injEq, Prod.exists] at read
  obtain ⟨_, opened, first, _, closed, second, _, rfl⟩ := read
  have inner := (readQuote?_ends second).of_suffix (List.dropWhile_suffix _)
  exact readSemicolon_ends (inner.of_suffix (suffix_of_readQuote? first))

theorem readModule?_semicolon {text rest : Text} {ending : Ending}
    (read : readModule? text = some (ending, rest)) :
    ∃ tail, readSemicolon tail = (ending.semicolon, rest) := by
  simp only [readModule?, bind, Option.bind_eq_some_iff, pure, Option.some.injEq,
    Prod.mk.injEq, Prod.exists] at read
  obtain ⟨_, _, -, _, closed, -, rfl, rfl⟩ := read
  exact ⟨closed, rfl⟩

theorem readFrom?_inv {text rest : Text} {ending : Ending}
    (read : readFrom? text = some (ending, rest)) :
    ∃ tail, tail <:+ text ∧ readModule? tail = some (ending, rest) := by
  obtain ⟨tail, found, read⟩ := Option.bind_eq_some_iff.1 read
  exact ⟨_, (trimStart_suffix tail).trans (suffix_of_dropPrefix? found), read⟩

theorem searchFrom?_inv {last : Char} {text rest : Text} {ending : Ending}
    (read : searchFrom? last text = some (ending, rest)) :
    ∃ tail, tail <:+ text ∧ readModule? tail = some (ending, rest) := by
  fun_induction searchFrom? last text with
  | case1 last text found here =>
    cases read
    split at here
    · simp at here
    · exact readFrom?_inv here
  | case2 => simp at read
  | case3 => simp at read
  | case4 last c cs _ _ ih =>
    obtain ⟨tail, suffix, read⟩ := ih read
    exact ⟨tail, suffix.trans (List.suffix_cons c cs), read⟩

/-- Whatever its form, a statement ends with a module in quotes. -/
theorem readSite?_inv {line rest : Text} {ending : Ending}
    (read : readSite? line = some (ending, rest)) :
    ∃ tail, tail <:+ line ∧ readModule? tail = some (ending, rest) := by
  obtain ⟨behind, found, read⟩ := Option.bind_eq_some_iff.1 read
  have keyword : behind <:+ line := suffix_of_dropPrefix? found
  split at read
  · rename_i direct
    cases read
    exact ⟨_, (trimStart_suffix behind).trans keyword, direct⟩
  · split at read
    · simp at read
    · split at read
      · obtain ⟨tail, suffix, read⟩ := searchFrom?_inv read
        exact ⟨tail, (suffix.trans (List.suffix_cons _ _)).trans keyword, read⟩
      · simp at read

/-- A site stops where the module of its statement was read to. -/
theorem read_of_mem {offset : Nat} {atStart : Bool} {text : Text} {site : ImportSite}
    (member : site ∈ sitesFrom offset atStart text) :
    ∃ front tail ending rest, text = front ++ (tail ++ rest) ∧
      readModule? (tail ++ rest) = some (ending, rest) ∧
      site.stop = offset + Text.size (front ++ tail) ∧ site.semicolon = ending.semicolon := by
  fun_induction sitesFrom offset atStart text with
  | case1 => simp at member
  | case2 offset atStart c cs ending rest found stop ih =>
    split at found
    · obtain ⟨line, ⟨front, whole⟩, read⟩ := readSite?_inv found
      obtain ⟨tail, rfl⟩ := suffix_of_readModule? read
      have reached : stop = offset + Text.size (front ++ tail) := by
        simp only [stop, ← whole, Text.size_append]
        omega
      rcases List.mem_cons.1 member with rfl | later
      · exact ⟨front, tail, ending, rest, whole.symm, read, reached, rfl⟩
      · obtain ⟨front', tail', ending', rest', rfl, read', stop', semicolon⟩ := ih later
        refine ⟨front ++ (tail ++ front'), tail', ending', rest', by simp [← whole], read', ?_,
          semicolon⟩
        rw [stop', reached]
        simp only [Text.size_append]
        omega
    · cases found
  | case3 offset atStart c cs absent ih =>
    obtain ⟨front, tail, ending, rest, rfl, read, stop, semicolon⟩ := ih member
    refine ⟨c :: front, tail, ending, rest, rfl, read, ?_, semicolon⟩
    rw [stop]
    simp only [List.cons_append, Text.size_cons]
    omega

/-- An import ends right after a closing quote or a semicolon. -/
theorem stop_of_mem {offset : Nat} {atStart : Bool} {text : Text} {site : ImportSite}
    (member : site ∈ sitesFrom offset atStart text) :
    ∃ front c rest, text = front ++ [c] ++ rest ∧ (c = '"' ∨ c = '\'' ∨ c = ';') ∧
      site.stop = offset + Text.size (front ++ [c]) := by
  obtain ⟨before, tail, ending, rest, rfl, read, stop, -⟩ := read_of_mem member
  obtain ⟨front, c, split, mark⟩ := readModule?_ends read
  obtain rfl : tail = front ++ [c] := List.append_cancel_right (split.trans (by simp))
  exact ⟨before ++ front, c, rest, by simp, mark, by rw [stop, List.append_assoc]⟩

/-- What follows an import is what is left once its semicolon was read, if there is one. -/
theorem semicolon_of_mem {offset : Nat} {atStart : Bool} {text front rest : Text}
    {site : ImportSite} (member : site ∈ sitesFrom offset atStart text)
    (split : text = front ++ rest) (stop : site.stop = offset + front.size) :
    ∃ tail, readSemicolon tail = (site.semicolon, rest) := by
  obtain ⟨before, tail, ending, behind, whole, read, stop', semicolon⟩ := read_of_mem member
  rw [← List.append_assoc, split] at whole
  obtain rfl := Text.eq_of_size_eq whole (by omega)
  rw [List.append_cancel_left whole, semicolon]
  exact readModule?_semicolon read

theorem renderFrom_ends (module : Text) (quote : Quote) (semicolon : Bool) :
    EndsAt (renderFrom module quote semicolon) [] := by
  cases semicolon with
  | true =>
    refine ⟨"from ".toList ++ quote.char :: module ++ [quote.char], ';', ?_, .inr (.inr rfl)⟩
    delta renderFrom
    simp only [if_true, List.append_assoc, List.cons_append, List.nil_append]
  | false =>
    refine ⟨"from ".toList ++ quote.char :: module, quote.char, rfl, ?_⟩
    cases quote
    · exact .inl rfl
    · exact .inr (.inl rfl)

/-- A statement that is left with something to import ends like the one that was read. -/
theorem render_ends {statement : NamedImport} {module : Text} {names : List Text}
    (filled : statement.render module names ≠ []) : EndsAt (statement.render module names) [] := by
  have ending := renderFrom_ends module statement.quote statement.semicolon
  unfold NamedImport.render at filled ⊢
  split at filled
  · split at filled
    · rw [List.append_cons]
      exact ending.of_suffix (List.suffix_append _ _)
    · exact absurd rfl filled
  · rw [List.append_cons _ '\x7d', List.append_cons _ ' ' (renderFrom _ _ _)]
    exact ending.of_suffix (List.suffix_append _ _)

end Retag.Import
