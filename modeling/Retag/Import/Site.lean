import Retag.Import.Statement

/-! Import statements of any form, as far as it takes to know where they end and how they are
written. -/
namespace Retag

structure ImportSite where
  start : Nat
  stop : Nat
  quote : Quote
  semicolon : Bool
deriving DecidableEq

namespace Import

/-- How a statement ends. -/
structure Ending where
  quote : Quote
  semicolon : Bool

/-- Reads a module in quotes, which hold no quote and no line feed, and a semicolon if there is
one. The two quotes may differ. -/
def readModule? (text : Text) : Option (Ending × Text) := do
  let (quote, rest) ← readQuote? text
  let (_, rest) ← readQuote? (rest.dropWhile fun c => c != '\'' && c != '"' && c != '\n')
  let (semicolon, rest) := readSemicolon rest
  return (⟨quote, semicolon⟩, rest)

def readFrom? (text : Text) : Option (Ending × Text) := do
  let rest ← Text.dropPrefix? "from".toList text
  readModule? (Text.trimStart rest)

/-- Reads up to and with the first `from` that starts a word and stands before a module, without
passing a semicolon. `last` is the character before the text. -/
def searchFrom? (last : Char) (text : Text) : Option (Ending × Text) :=
  match if Text.isWord last then none else readFrom? text with
  | some found => some found
  | none =>
    match text with
    | [] => none
    | c :: cs => if c == ';' then none else searchFrom? c cs

/-- Reads a statement at the start of a line. -/
def readSite? (line : Text) : Option (Ending × Text) := do
  let rest ← Text.dropPrefix? "import".toList line
  match readModule? (Text.trimStart rest) with
  | some found => some found
  | none =>
    match rest with
    | [] => none
    | c :: cs => if Text.isBlank c || c == '{' then searchFrom? c cs else none

theorem suffix_of_readModule? {text rest : Text} {ending : Ending}
    (read : readModule? text = some (ending, rest)) : rest <:+ text := by
  simp only [readModule?, bind, Option.bind_eq_some_iff, pure, Option.some.injEq,
    Prod.mk.injEq, Prod.exists] at read
  obtain ⟨_, opened, first, _, closed, second, _, rfl⟩ := read
  exact (readSemicolon_suffix closed).trans <| (suffix_of_readQuote? second).trans <|
    (List.dropWhile_suffix _).trans (suffix_of_readQuote? first)

theorem suffix_of_readFrom? {text rest : Text} {ending : Ending}
    (read : readFrom? text = some (ending, rest)) : rest <:+ text := by
  obtain ⟨tail, found, read⟩ := Option.bind_eq_some_iff.1 read
  rw [Text.dropPrefix?_eq_some_iff.1 found]
  exact ((suffix_of_readModule? read).trans (List.dropWhile_suffix _)).trans
    (List.suffix_append _ _)

theorem suffix_of_searchFrom? {last : Char} {text rest : Text} {ending : Ending}
    (read : searchFrom? last text = some (ending, rest)) : rest <:+ text := by
  fun_induction searchFrom? last text with
  | case1 last text found here =>
    cases read
    split at here
    · simp at here
    · exact suffix_of_readFrom? here
  | case2 => simp at read
  | case3 => simp at read
  | case4 last c cs _ _ ih => exact (ih read).trans (List.suffix_cons c cs)

theorem length_of_readSite? {line rest : Text} {ending : Ending}
    (read : readSite? line = some (ending, rest)) : rest.length < line.length := by
  obtain ⟨tail, found, read⟩ := Option.bind_eq_some_iff.1 read
  have same := congrArg List.length (Text.dropPrefix?_eq_some_iff.1 found)
  have le : rest.length ≤ tail.length := by
    split at read
    · rename_i direct
      cases read
      exact ((suffix_of_readModule? direct).trans (List.dropWhile_suffix _)).length_le
    · split at read
      · simp at read
      · split at read
        · exact ((suffix_of_searchFrom? read).trans (List.suffix_cons _ _)).length_le
        · simp at read
  simp at same
  omega

-- The equations of the matches are there for the termination proof.
set_option linter.unusedVariables false in
/-- The statements in a text that stands at byte `offset`; `atStart` says whether it starts a
line. -/
def sitesFrom (offset : Nat) (atStart : Bool) : Text → List ImportSite
  | [] => []
  | c :: cs =>
    match found : if atStart then readSite? (c :: cs) else none with
    | some (ending, rest) =>
      let stop := offset + (Text.size (c :: cs) - rest.size)
      ⟨offset, stop, ending.quote, ending.semicolon⟩ :: sitesFrom stop false rest
    | none => sitesFrom (offset + c.utf8Size) (c == '\n') cs
termination_by text => text.length
decreasing_by
  · split at found
    · exact length_of_readSite? found
    · simp at found
  · simp

/-- Every import statement, in the order of the source. -/
def sites (source : Text) : List ImportSite := sitesFrom 0 true source

end Import
end Retag
