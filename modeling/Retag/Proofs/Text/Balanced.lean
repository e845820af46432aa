import Retag.Text.Enclosed

/-! The grammar of quoted and braced text. The readers up to a closing quote or brace accept exactly
what the grammar derives, for every nesting of groups and strings. -/
namespace Retag.Text

/-- The inside of a string: its mark stands there only after a backslash, and the backslash never
escapes the mark that closes. -/
inductive Quoted (mark : Char) : Text → Prop where
  | nil : Quoted mark []
  | escape {c : Char} {rest : Text} : Quoted mark rest → Quoted mark ('\\' :: c :: rest)
  | plain {c : Char} {rest : Text} : c ≠ mark → c ≠ '\\' → Quoted mark rest →
      Quoted mark (c :: rest)

/-- Text in which braces match and strings are closed. Braces in strings do not count. -/
inductive Balanced : Text → Prop where
  | nil : Balanced []
  | plain {c : Char} {rest : Text} : isQuoteMark c = false → c ≠ '{' → c ≠ '}' → Balanced rest →
      Balanced (c :: rest)
  | group {body rest : Text} : Balanced body → Balanced rest →
      Balanced ('{' :: body ++ '}' :: rest)
  | string {mark : Char} {body rest : Text} : isQuoteMark mark = true → Quoted mark body →
      Balanced rest → Balanced (mark :: body ++ mark :: rest)

theorem isQuoteMark_ne_escape {mark : Char} (quotes : isQuoteMark mark = true) : mark ≠ '\\' := by
  rintro rfl
  exact absurd quotes (by decide)

theorem untilQuote?_of_quoted {mark : Char} {body rest : Text} (quoted : Quoted mark body)
    (noEscape : mark ≠ '\\') : untilQuote? mark (body ++ mark :: rest) = some (body, rest) := by
  induction quoted with
  | nil => simp [untilQuote?.eq_def]
  | escape _ ih => simp [untilQuote?, ih, noEscape.symm, consFirst]
  | plain other notEscape _ ih =>
    rw [List.cons_append, untilQuote?.eq_def]
    simp [ih, other, notEscape, consFirst]

theorem quoted_of_untilQuote? {mark : Char} {text body rest : Text}
    (read : untilQuote? mark text = some (body, rest)) : Quoted mark body := by
  fun_induction untilQuote? mark text generalizing body rest with
  | case1 => simp at read
  | case2 =>
    obtain ⟨rfl, -⟩ := Prod.mk.inj (Option.some.inj read)
    exact .nil
  | case3 => simp at read
  | case4 c other escape d ds ih =>
    obtain ⟨tail, inner, rfl⟩ := eq_of_map_consFirst read
    obtain rfl := beq_iff_eq.1 escape
    exact .escape (ih inner)
  | case5 c cs other notEscape ih =>
    obtain ⟨tail, inner, rfl⟩ := eq_of_map_consFirst read
    exact .plain (by simpa using other) (by simpa using notEscape) (ih inner)

theorem untilQuote?_eq_some_iff {mark : Char} {text body rest : Text} (noEscape : mark ≠ '\\') :
    untilQuote? mark text = some (body, rest) ↔ text = body ++ mark :: rest ∧ Quoted mark body := by
  constructor
  · intro read
    exact ⟨eq_of_untilQuote? read, quoted_of_untilQuote? read⟩
  · rintro ⟨rfl, quoted⟩
    exact untilQuote?_of_quoted quoted noEscape

theorem untilBrace?_string {mark : Char} {body : Text} (depth : Nat) (rest : Text)
    (quoted : Quoted mark body) (noEscape : mark ≠ '\\') :
    untilBrace? (some mark) depth (body ++ mark :: rest) =
      (untilBrace? none depth rest).map (consFirst (body ++ [mark])) := by
  induction quoted with
  | nil =>
    rw [List.nil_append, untilBrace?.eq_def]
    simp [noEscape]
  | escape _ ih => simp [untilBrace?, ih]
  | plain other notEscape _ ih =>
    rw [List.cons_append, untilBrace?.eq_def]
    simp [ih, other, notEscape]

/-- Balanced text leaves the reader where it was, at every depth. -/
theorem untilBrace?_balanced {body rest : Text} {depth : Nat} (balanced : Balanced body) :
    untilBrace? none depth (body ++ rest) = (untilBrace? none depth rest).map (consFirst body) := by
  induction balanced generalizing depth rest with
  | nil => simp
  | plain unquoted notOpen notClose _ ih => simp [untilBrace?, unquoted, notOpen, notClose, ih]
  | @group body tail _ _ bodyRead tailRead =>
    have opens : isQuoteMark '{' = false := by decide
    have closes : isQuoteMark '}' = false := by decide
    simp [untilBrace?, opens, closes, bodyRead, tailRead]
  | @string mark body tail quotes quoted _ ih =>
    have inner := untilBrace?_string depth (tail ++ rest) quoted (isQuoteMark_ne_escape quotes)
    simp [untilBrace?, quotes, inner, ih]

/-- What the reader has still to take before the closing brace, with a string of mark `quote` open
and `depth` further groups: the string's end, then balanced text up to each group's end. -/
inductive Remainder : Option Char → Nat → Text → Prop where
  | last {text : Text} : Balanced text → Remainder none 0 text
  | group {depth : Nat} {front tail : Text} : Balanced front → Remainder none depth tail →
      Remainder none (depth + 1) (front ++ '}' :: tail)
  | string {mark : Char} {depth : Nat} {front tail : Text} : Quoted mark front →
      Remainder none depth tail → Remainder (some mark) depth (front ++ mark :: tail)

theorem Remainder.prepend {front text : Text} {depth : Nat}
    (keeps : ∀ {rest}, Balanced rest → Balanced (front ++ rest))
    (remainder : Remainder none depth text) : Remainder none depth (front ++ text) := by
  cases remainder with
  | last balanced => exact .last (keeps balanced)
  | group balanced remainder =>
    rw [← List.append_assoc]
    exact .group (keeps balanced) remainder

theorem remainder_of_untilBrace? {quote : Option Char} {depth : Nat} {text body rest : Text}
    (quotes : ∀ mark ∈ quote, isQuoteMark mark = true)
    (read : untilBrace? quote depth text = some (body, rest)) : Remainder quote depth body := by
  fun_induction untilBrace? quote depth text generalizing body rest with
  | case1 => simp at read
  | case2 => simp at read
  | case3 depth c mark escape d ds ih =>
    obtain ⟨taken, inner, rfl⟩ := eq_of_map_consFirst read
    obtain rfl := beq_iff_eq.1 escape
    cases ih quotes inner with
    | string quoted remainder => exact .string (.escape quoted) remainder
  | case4 depth c cs mark notEscape ih =>
    obtain ⟨taken, inner, rfl⟩ := eq_of_map_consFirst read
    by_cases closes : c = mark
    · subst closes
      simp only [beq_self_eq_true, if_true] at inner ih
      exact .string .nil (ih (by simp) inner)
    · simp only [beq_iff_eq, closes, if_false] at inner ih
      cases ih quotes inner with
      | string quoted remainder =>
        exact .string (.plain closes (by simpa using notEscape) quoted) remainder
  | case5 depth c cs opens ih =>
    obtain ⟨taken, inner, rfl⟩ := eq_of_map_consFirst read
    cases ih (by simpa using opens) inner with
    | @string _ _ string tail quoted remainder =>
      have front : Remainder none depth ((c :: string ++ [c]) ++ tail) :=
        remainder.prepend fun balanced => by simpa using Balanced.string opens quoted balanced
      simpa using front
  | case6 depth c cs unquoted opens ih =>
    obtain ⟨taken, inner, rfl⟩ := eq_of_map_consFirst read
    obtain rfl := beq_iff_eq.1 opens
    cases ih quotes inner with
    | @group _ group tail balanced remainder =>
      have front : Remainder none depth (('{' :: group ++ ['}']) ++ tail) :=
        remainder.prepend fun more => by simpa using Balanced.group balanced more
      simpa using front
  | case7 c cs unquoted notOpen closes =>
    obtain ⟨rfl, -⟩ := Prod.mk.inj (Option.some.inj read)
    exact .last .nil
  | case8 c cs unquoted notOpen closes depth ih =>
    obtain ⟨taken, inner, rfl⟩ := eq_of_map_consFirst read
    obtain rfl := beq_iff_eq.1 closes
    exact .group .nil (ih quotes inner)
  | case9 depth c cs unquoted notOpen notClose ih =>
    obtain ⟨taken, inner, rfl⟩ := eq_of_map_consFirst read
    exact (ih quotes inner).prepend fun balanced =>
      .plain (by simpa using unquoted) (by simpa using notOpen) (by simpa using notClose) balanced

theorem untilBrace?_eq_some_iff {text body rest : Text} :
    untilBrace? none 0 text = some (body, rest) ↔ text = body ++ '}' :: rest ∧ Balanced body := by
  constructor
  · intro read
    cases remainder_of_untilBrace? (by simp) read with
    | last balanced => exact ⟨eq_of_untilBrace? read, balanced⟩
  · rintro ⟨rfl, balanced⟩
    rw [untilBrace?_balanced balanced]
    simp [untilBrace?, show isQuoteMark '}' = false by decide, consFirst]

end Retag.Text
