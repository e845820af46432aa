import Retag.Text.Basic

/-! Text up to a closing quote or brace. Each reader returns what stands before the closing
character and what follows it, and nothing when the text ends first. -/
namespace Retag.Text

/-- Puts characters in front of the first part of a split. -/
def consFirst (front : Text) : Text × Text → Text × Text
  | (first, rest) => (front ++ first, rest)

@[simp] theorem consFirst_nil : consFirst [] = id := by
  funext split
  simp [consFirst]

@[simp] theorem consFirst_comp (a b : Text) : consFirst a ∘ consFirst b = consFirst (a ++ b) := by
  funext split
  simp [consFirst]

/-- Reads up to the closing quote. A backslash keeps the next character from closing. -/
def untilQuote? (quote : Char) : Text → Option (Text × Text)
  | [] => none
  | c :: cs =>
    if c == quote then some ([], cs)
    else if c == '\\' then
      match cs with
      | [] => none
      | d :: ds => (untilQuote? quote ds).map (consFirst [c, d])
    else (untilQuote? quote cs).map (consFirst [c])

/-- Marks that open a string inside an expression. -/
def isQuoteMark (c : Char) : Bool := c == '"' || c == '\'' || c == '`'

/-- Reads up to the brace that closes a group, `depth` further groups being open inside it. Braces
in strings do not count; `quote` is the mark of the string that is open. -/
def untilBrace? (quote : Option Char) (depth : Nat) : Text → Option (Text × Text)
  | [] => none
  | c :: cs =>
    match quote with
    | some mark =>
      if c == '\\' then
        match cs with
        | [] => none
        | d :: ds => (untilBrace? quote depth ds).map (consFirst [c, d])
      else (untilBrace? (if c == mark then none else quote) depth cs).map (consFirst [c])
    | none =>
      if isQuoteMark c then (untilBrace? (some c) depth cs).map (consFirst [c])
      else if c == '{' then (untilBrace? none (depth + 1) cs).map (consFirst [c])
      else if c == '}' then
        match depth with
        | 0 => some ([], cs)
        | depth + 1 => (untilBrace? none depth cs).map (consFirst [c])
      else (untilBrace? none depth cs).map (consFirst [c])

/-- Reads up to the `>` that ends a tag, which stands in no string and in no brace group. A
closing brace without an opening one counts for nothing. -/
def untilTagEnd? (quote : Option Char) (depth : Nat) : Text → Option (Text × Text)
  | [] => none
  | c :: cs =>
    match quote with
    | some mark =>
      if c == '\\' then
        match cs with
        | [] => none
        | d :: ds => (untilTagEnd? quote depth ds).map (consFirst [c, d])
      else (untilTagEnd? (if c == mark then none else quote) depth cs).map (consFirst [c])
    | none =>
      if isQuoteMark c then (untilTagEnd? (some c) depth cs).map (consFirst [c])
      else if c == '{' then (untilTagEnd? none (depth + 1) cs).map (consFirst [c])
      else if c == '}' then (untilTagEnd? none (depth - 1) cs).map (consFirst [c])
      else if c == '>' && depth == 0 then some ([], cs)
      else (untilTagEnd? none depth cs).map (consFirst [c])

theorem eq_of_map_consFirst {front first rest : Text} {read : Option (Text × Text)}
    (same : read.map (consFirst front) = some (first, rest)) :
    ∃ tail, read = some (tail, rest) ∧ first = front ++ tail := by
  obtain ⟨⟨tail, rest'⟩, inner, eq⟩ := Option.map_eq_some_iff.1 same
  simp only [consFirst, Prod.mk.injEq] at eq
  exact ⟨tail, by rw [inner, eq.2], eq.1.symm⟩

theorem eq_of_untilQuote? {quote : Char} {text first rest : Text}
    (read : untilQuote? quote text = some (first, rest)) : text = first ++ quote :: rest := by
  fun_induction untilQuote? quote text generalizing first rest with
  | case1 => simp at read
  | case2 => simp_all
  | case3 => simp at read
  | case4 c _ _ d ds ih =>
    obtain ⟨tail, inner, rfl⟩ := eq_of_map_consFirst read
    simp [ih inner]
  | case5 c cs _ _ ih =>
    obtain ⟨tail, inner, rfl⟩ := eq_of_map_consFirst read
    simp [ih inner]

theorem eq_of_untilBrace? {quote : Option Char} {depth : Nat} {text first rest : Text}
    (read : untilBrace? quote depth text = some (first, rest)) :
    text = first ++ '}' :: rest := by
  fun_induction untilBrace? quote depth text generalizing first rest with
  | case1 => simp at read
  | case2 => simp at read
  | case7 => simp_all
  | case3 _ _ _ _ _ _ ih | case4 _ _ _ _ _ ih | case5 _ _ _ _ ih | case6 _ _ _ _ _ ih
  | case8 _ _ _ _ _ _ ih | case9 _ _ _ _ _ _ ih =>
    obtain ⟨tail, inner, rfl⟩ := eq_of_map_consFirst read
    simp [ih inner]

theorem eq_of_untilTagEnd? {quote : Option Char} {depth : Nat} {text first rest : Text}
    (read : untilTagEnd? quote depth text = some (first, rest)) :
    text = first ++ '>' :: rest := by
  fun_induction untilTagEnd? quote depth text generalizing first rest with
  | case1 => simp at read
  | case2 => simp at read
  | case8 => simp_all
  | case3 _ _ _ _ _ _ ih | case4 _ _ _ _ _ ih | case5 _ _ _ _ ih | case6 _ _ _ _ _ ih
  | case7 _ _ _ _ _ _ ih | case9 _ _ _ _ _ _ _ ih =>
    obtain ⟨tail, inner, rfl⟩ := eq_of_map_consFirst read
    simp [ih inner]

end Retag.Text
