import Retag.Proofs.Attribute.RoundTrip
import Retag.Proofs.Text.Balanced

/-! What the readers of names, values and spreads return. Each reader is inverted once: a value is
closed, or a word up to white space, or it was left open and takes all of the text; a name without a
value ends at white space. -/
namespace Retag

namespace Text

def Clear (p : Char → Bool) (text : Text) : Prop := ∀ c ∈ text.head?, p c = false

theorem takeWhile_clear {p : Char → Bool} {front rest : Text} (inside : ∀ c ∈ front, p c = true)
    (clear : Clear p rest) : (front ++ rest).takeWhile p = front := by
  rw [List.takeWhile_append_of_pos inside]
  cases rest with
  | nil => simp
  | cons c cs => simp [clear c rfl]

theorem dropWhile_clear {p : Char → Bool} {front rest : Text} (inside : ∀ c ∈ front, p c = true)
    (clear : Clear p rest) : (front ++ rest).dropWhile p = rest := by
  rw [List.dropWhile_append_of_pos inside]
  cases rest with
  | nil => rfl
  | cons c cs => simp [clear c rfl]

theorem clear_dropWhile (p : Char → Bool) (text : Text) : Clear p (text.dropWhile p) := by
  intro c first
  have outside := List.head?_dropWhile_not p text
  rw [first] at outside
  exact outside

end Text

namespace Attribute
open Text (Clear takeWhile_clear dropWhile_clear clear_dropWhile)

/-- A name that is no spread. An equals sign can only be its first character. -/
def IsName (name : Text) : Prop :=
  ∃ c cs, name = c :: cs ∧ Text.isBlank c = false ∧ c ≠ '/' ∧ c ≠ '{' ∧
    ∀ d ∈ cs, d ≠ '=' ∧ Text.isBlank d = false

def opensValue (c : Char) : Bool := c == '"' || c == '\'' || c == '{'

def IsWord (text : Text) : Prop :=
  text ≠ [] ∧ (∀ c ∈ text, Text.isBlank c = false) ∧ ∀ c ∈ text.head?, opensValue c = false

def Spacing.IsBlank (spacing : Spacing) : Prop :=
  (∀ c ∈ spacing.before, Text.isBlank c = true) ∧ ∀ c ∈ spacing.after, Text.isBlank c = true

theorem continuesName_of {cs : Text} (inside : ∀ d ∈ cs, d ≠ '=' ∧ Text.isBlank d = false) :
    ∀ d ∈ cs, continuesName d = true := by
  intro d member
  obtain ⟨notEquals, notBlank⟩ := inside d member
  simp [continuesName, notEquals, notBlank]

theorem clear_continuesName {text : Text} (clear : Clear (fun c => !Text.isBlank c) text) :
    Clear continuesName text := by
  intro d first
  have blank := clear d first
  simp only [Bool.not_eq_false'] at blank
  simp [continuesName, blank]

theorem read_flag {c : Char} {cs rest : Text} (inside : ∀ d ∈ cs, continuesName d = true)
    (clear : Clear continuesName rest)
    (noValue : Clear (· == '=') (rest.dropWhile Text.isBlank)) :
    read c (cs ++ rest) = ({ name := c :: cs, value := .boolean }, rest) := by
  simp only [read, takeWhile_clear inside clear, dropWhile_clear inside clear]
  split
  · rename_i tail found
    have equals := noValue '=' (by rw [found]; rfl)
    exact absurd equals (by decide)
  · rfl

theorem read_valued {c : Char} {cs text : Text} {spacing : Spacing}
    (inside : ∀ d ∈ cs, continuesName d = true) (blank : spacing.IsBlank)
    (clear : Clear Text.isBlank text) :
    read c (cs ++ spacing.before ++ '=' :: spacing.after ++ text) =
      ({ name := c :: cs, value := (readValue text).1, spacing }, (readValue text).2) := by
  have endsName : Clear continuesName (spacing.before ++ '=' :: (spacing.after ++ text)) := by
    intro d first
    cases before : spacing.before with
    | nil =>
      rw [before] at first
      obtain rfl : '=' = d := by simpa using first
      decide
    | cons e es =>
      rw [before] at first
      obtain rfl : e = d := by simpa using first
      simp [continuesName, blank.1 e (by simp [before])]
  have equals : Clear Text.isBlank ('=' :: (spacing.after ++ text)) := by
    rintro d ⟨⟩
    decide
  simp only [read, List.append_assoc, List.cons_append, takeWhile_clear inside endsName,
    dropWhile_clear inside endsName, takeWhile_clear blank.1 equals,
    dropWhile_clear blank.1 equals, takeWhile_clear blank.2 clear, dropWhile_clear blank.2 clear]

theorem ofChar?_char (quote : Quote) : Quote.ofChar? quote.char = some quote := by
  cases quote <;> rfl

theorem readValue_literal {quote : Quote} {text : Text} (rest : Text)
    (quoted : Text.Quoted quote.char text) :
    readValue ((Value.literal quote text).render ++ rest) = (.literal quote text, rest) := by
  have noEscape : quote.char ≠ '\\' := by cases quote <;> decide
  have read : Text.untilQuote? quote.char (text ++ quote.char :: rest) = some (text, rest) :=
    (Text.untilQuote?_eq_some_iff noEscape).2 ⟨rfl, quoted⟩
  simp only [Value.render, List.cons_append, List.append_assoc, List.nil_append, readValue,
    ofChar?_char, read]

theorem readValue_expression {text : Text} (rest : Text) (balanced : Text.Balanced text) :
    readValue ((Value.expression text).render ++ rest) = (.expression text, rest) := by
  have read : Text.untilBrace? none 0 (text ++ '}' :: rest) = some (text, rest) :=
    Text.untilBrace?_eq_some_iff.2 ⟨rfl, balanced⟩
  have unquoted : Quote.ofChar? '{' = none := rfl
  simp [Value.render, readValue, unquoted, read]

theorem opensValue_eq_false_iff {c : Char} :
    opensValue c = false ↔ Quote.ofChar? c = none ∧ c ≠ '{' := by
  unfold Quote.ofChar? opensValue
  split <;> simp_all

theorem readValue_word {text rest : Text} (word : IsWord text)
    (clear : Clear (fun c => !Text.isBlank c) rest) :
    readValue (text ++ rest) = (.bareWord text, rest) := by
  obtain ⟨filled, inside, start⟩ := word
  obtain ⟨c, cs, rfl⟩ := List.exists_cons_of_ne_nil filled
  obtain ⟨unquoted, notOpen⟩ := opensValue_eq_false_iff.1 (start c rfl)
  have all : ∀ d ∈ c :: cs, (!Text.isBlank d) = true := fun d member => by simp [inside d member]
  rw [List.cons_append, readValue, unquoted]
  simp only [beq_iff_eq, notOpen, if_false, ← List.cons_append, takeWhile_clear all clear,
    dropWhile_clear all clear]

theorem isName_read {c : Char} (cs : Text) (notBlank : Text.isBlank c = false) (notSlash : c ≠ '/')
    (notOpen : c ≠ '{') : IsName (c :: cs.takeWhile continuesName) := by
  refine ⟨c, _, rfl, notBlank, notSlash, notOpen, fun d member => ?_⟩
  have inside := List.all_eq_true.1 List.all_takeWhile d member
  simpa [continuesName] using inside

inductive ReadValue : Value → Text → Prop where
  | literal {quote : Quote} {body rest : Text} : Text.Quoted quote.char body →
      ReadValue (.literal quote body) rest
  | expression {body rest : Text} : Text.Balanced body → ReadValue (.expression body) rest
  | word {word rest : Text} : IsWord word → Clear (fun c => !Text.isBlank c) rest →
      ReadValue (.bareWord word) rest
  /-- There is nothing after the equals sign. -/
  | missing : ReadValue (.bareWord []) []
  /-- A quote or brace is never closed. -/
  | leftOpen {c : Char} {cs : Text} : opensValue c = true → ReadValue (.bareWord (c :: cs)) []

theorem readValue_inv {text : Text} (clear : Clear Text.isBlank text) :
    ReadValue (readValue text).1 (readValue text).2 := by
  unfold readValue
  split
  · exact .missing
  rename_i c cs
  split
  · rename_i quote quotes
    split
    · rename_i read
      rw [← Quote.char_ofChar? quotes] at read
      exact .literal (Text.quoted_of_untilQuote? read)
    · refine .leftOpen ?_
      rw [← Quote.char_ofChar? quotes]
      cases quote <;> decide
  · rename_i unquoted
    split
    · rename_i opens
      split
      · rename_i read
        exact .expression (Text.untilBrace?_eq_some_iff.1 read).2
      · exact .leftOpen (by simp [opensValue, beq_iff_eq.1 opens])
    · rename_i notOpen
      have plain := opensValue_eq_false_iff.2 ⟨unquoted, by simpa using notOpen⟩
      refine .word ⟨?_, fun d member => ?_, ?_⟩ (clear_dropWhile _ _)
      · simp [clear c rfl]
      · simpa using List.all_eq_true.1 List.all_takeWhile d member
      · simpa [List.takeWhile_cons, clear c rfl] using plain

/-- A name is read with a value, or without one and then no equals sign comes after it and the white
space that ends it. -/
inductive Read (name : Text) : Attribute → Text → Prop where
  | valued {value : Value} {spacing : Spacing} {rest : Text} : spacing.IsBlank →
      ReadValue value rest → Read name { name, value, spacing } rest
  | flag {rest : Text} : Clear (fun c => !Text.isBlank c) rest →
      Clear (· == '=') (rest.dropWhile Text.isBlank) → Read name { name, value := .boolean } rest

theorem read_inv (c : Char) (cs : Text) :
    Read (c :: cs.takeWhile continuesName) (read c cs).1 (read c cs).2 := by
  dsimp only [read]
  split
  · refine .valued ⟨?_, ?_⟩ (readValue_inv (clear_dropWhile _ _))
    · exact List.all_eq_true.1 List.all_takeWhile
    · exact List.all_eq_true.1 List.all_takeWhile
  · rename_i noEquals
    have noValue : Clear (· == '=') ((cs.dropWhile continuesName).dropWhile Text.isBlank) := by
      intro d first
      obtain ⟨tail, found⟩ := List.head?_eq_some_iff.1 first
      simp only [beq_eq_false_iff_ne]
      rintro rfl
      exact noEquals tail found
    refine .flag (fun d first => ?_) noValue
    -- What stops a name is white space or an equals sign, and the second would start a value.
    obtain ⟨tail, found⟩ := List.head?_eq_some_iff.1 first
    dsimp only at found
    by_cases blank : Text.isBlank d = true
    · simp [blank]
    · have stops := clear_dropWhile continuesName cs d first
      have notEquals : (d == '=') = false := noValue d (by simp [found, blank])
      simp [continuesName, blank, notEquals] at stops

/-- A spread that is never closed takes all of the text. -/
inductive ReadSpread : Attribute → Text → Prop where
  | closed {body rest : Text} : Text.Balanced body →
      ReadSpread { name := '{' :: body ++ ['}'], value := .boolean } rest
  | leftOpen {cs : Text} : (∀ body rest, Text.Balanced body → cs ≠ body ++ '}' :: rest) →
      ReadSpread { name := '{' :: cs, value := .boolean } []

theorem readSpread_inv (cs : Text) : ReadSpread (readSpread cs).1 (readSpread cs).2 := by
  unfold readSpread
  split
  · rename_i read
    exact .closed (Text.untilBrace?_eq_some_iff.1 read).2
  · rename_i unread
    refine .leftOpen fun body rest balanced whole => ?_
    have read : Text.untilBrace? none 0 cs = some (body, rest) :=
      Text.untilBrace?_eq_some_iff.2 ⟨whole, balanced⟩
    simp [read] at unread

end Attribute
end Retag
