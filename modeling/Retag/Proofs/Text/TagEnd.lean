import Retag.Proofs.Text.Octet

/-! Where a tag ends, stated place by place. What is open at a place is read off the characters
before it, each taken by itself; the tag ends at the first `>` at which nothing is open. Main
statement: this is the place that the search finds, and it finds none only if there is none. -/
namespace Retag.Text

/-- What is open at a place: a string, perhaps with a backslash right before the place, and brace
groups. -/
structure Enclosure where
  quote : Option Char := none
  /-- A backslash hides the next character of the string. -/
  escaped : Bool := false
  depth : Nat := 0

namespace Enclosure

/-- One character further. A closing brace without an opening one counts for nothing. -/
def next (state : Enclosure) (c : Char) : Enclosure :=
  match state.quote with
  | some mark =>
    if state.escaped then { state with escaped := false }
    else if c = '\\' then { state with escaped := true }
    else if c = mark then { state with quote := none }
    else state
  | none =>
    if isQuoteMark c then { state with quote := some c }
    else if c = '{' then { state with depth := state.depth + 1 }
    else if c = '}' then { state with depth := state.depth - 1 }
    else state

def after (state : Enclosure) (text : Text) : Enclosure := text.foldl next state

def isFree (state : Enclosure) : Bool := state.quote.isNone && state.depth == 0

/-- The text leads to a place where nothing is open, and no earlier `>` stands at one. -/
def Reaches (state : Enclosure) (front : Text) : Prop :=
  (state.after front).isFree = true ∧
    ∀ shorter later, front = shorter ++ '>' :: later → (state.after shorter).isFree = false

def Holds (state : Enclosure) (text : Text) : Prop :=
  ∀ front later, text = front ++ '>' :: later → (state.after front).isFree = false

section
variable {state : Enclosure} {c : Char} {cs front other : Text}

@[simp] theorem reaches_nil : state.Reaches [] ↔ state.isFree = true := by
  simp [Reaches, after]

@[simp] theorem holds_nil : state.Holds [] := by
  simp [Holds]

/-- Passing one character: it must not be a `>` at which the tag ends. -/
@[simp] theorem reaches_cons :
    state.Reaches (c :: cs) ↔ (c = '>' → state.isFree = false) ∧ (state.next c).Reaches cs := by
  constructor
  · rintro ⟨free, first⟩
    refine ⟨?_, free, fun shorter later same => first (c :: shorter) later (by simp [same])⟩
    rintro rfl
    exact first [] cs rfl
  · rintro ⟨here, free, first⟩
    refine ⟨free, fun shorter later same => ?_⟩
    cases shorter with
    | nil => exact here (List.cons.inj same).1
    | cons d shorter =>
      obtain ⟨rfl, tail⟩ := List.cons.inj same
      exact first shorter later tail

@[simp] theorem holds_cons :
    state.Holds (c :: cs) ↔ (c = '>' → state.isFree = false) ∧ (state.next c).Holds cs := by
  constructor
  · intro held
    refine ⟨?_, fun front later same => held (c :: front) later (by simp [same])⟩
    rintro rfl
    exact held [] cs rfl
  · rintro ⟨here, held⟩ front later same
    cases front with
    | nil => exact here (List.cons.inj same).1
    | cons d front =>
      obtain ⟨rfl, tail⟩ := List.cons.inj same
      exact held front later tail

end
end Enclosure

/-- The search as a walk that takes one character at a time. -/
def untilFree? (state : Enclosure) : Text → Option (Text × Text)
  | [] => none
  | c :: cs =>
    if c = '>' ∧ state.isFree = true then some ([], cs)
    else (untilFree? (state.next c) cs).map (consFirst [c])

section
variable {quote : Option Char} {depth : Nat} {state : Enclosure} {text front rest : Text}

theorem untilFree?_pass {c : Char} {cs : Text} (within : ¬(c = '>' ∧ state.isFree = true)) :
    untilFree? state (c :: cs) = (untilFree? (state.next c) cs).map (consFirst [c]) :=
  if_neg within

theorem untilFree?_quoted (mark : Char) (escaped : Bool) (depth : Nat) (c : Char) (cs : Text) :
    untilFree? ⟨some mark, escaped, depth⟩ (c :: cs) =
      (untilFree? (Enclosure.next ⟨some mark, escaped, depth⟩ c) cs).map (consFirst [c]) :=
  untilFree?_pass fun ending => absurd ending.2 (by simp [Enclosure.isFree])

/-- The search passes a backslash together with what it hides; the walk does so in two steps. -/
theorem untilTagEnd?_eq_untilFree? (quote : Option Char) (depth : Nat) (text : Text) :
    untilTagEnd? quote depth text = untilFree? ⟨quote, false, depth⟩ text := by
  fun_induction untilTagEnd? quote depth text with
  | case1 => rfl
  | case2 depth c mark escape =>
    rw [untilFree?_quoted]
    rfl
  | case3 depth c mark escape d ds ih =>
    obtain rfl := beq_iff_eq.1 escape
    simp [untilFree?_quoted, Enclosure.next, ih]
  | case4 depth c cs mark plain ih =>
    have notEscape : c ≠ '\\' := by simpa using plain
    rw [untilFree?_quoted, ih]
    by_cases closes : c = mark
    · have plain : mark ≠ '\\' := closes ▸ notEscape
      simp [Enclosure.next, plain, closes]
    · simp [Enclosure.next, notEscape, closes]
  | case5 depth c cs quoted ih =>
    have within : ¬(c = '>' ∧ Enclosure.isFree ⟨none, false, depth⟩ = true) := by
      rintro ⟨rfl, -⟩
      exact absurd quoted (by decide)
    rw [untilFree?_pass within, ih]
    simp [Enclosure.next, quoted]
  | case6 depth c cs unquoted opening ih =>
    obtain rfl := beq_iff_eq.1 opening
    rw [untilFree?_pass (by simp), ih]
    simp [Enclosure.next, unquoted]
  | case7 depth c cs unquoted notOpen closing ih =>
    obtain rfl := beq_iff_eq.1 closing
    rw [untilFree?_pass (by simp), ih]
    simp [Enclosure.next, unquoted]
  | case8 depth c cs unquoted notOpen notClose ending =>
    simp only [Bool.and_eq_true, beq_iff_eq] at ending
    obtain ⟨rfl, rfl⟩ := ending
    simp [untilFree?, Enclosure.isFree]
  | case9 depth c cs unquoted notOpen notClose notEnd ih =>
    have within : ¬(c = '>' ∧ Enclosure.isFree ⟨none, false, depth⟩ = true) := by
      simpa [Enclosure.isFree] using notEnd
    simp only [beq_iff_eq] at notOpen notClose
    rw [untilFree?_pass within, ih]
    simp [Enclosure.next, unquoted, notOpen, notClose]

theorem untilFree?_eq_some_iff :
    untilFree? state text = some (front, rest) ↔
      text = front ++ '>' :: rest ∧ state.Reaches front := by
  induction text generalizing state front with
  | nil => simp [untilFree?]
  | cons c cs ih =>
    by_cases ending : c = '>' ∧ state.isFree = true
    · rw [untilFree?, if_pos ending]
      constructor
      · rintro ⟨⟩
        exact ⟨by rw [ending.1]; rfl, Enclosure.reaches_nil.2 ending.2⟩
      · rintro ⟨same, reached⟩
        cases front with
        | nil =>
          obtain ⟨-, rfl⟩ := List.cons.inj same
          rfl
        | cons d tail =>
          obtain ⟨rfl, -⟩ := List.cons.inj same
          have open' := (Enclosure.reaches_cons.1 reached).1 ending.1
          rw [ending.2] at open'
          cases open'
    · rw [untilFree?_pass ending]
      constructor
      · intro read
        obtain ⟨tail, inner, rfl⟩ := eq_of_map_consFirst read
        obtain ⟨rfl, reached⟩ := ih.1 inner
        refine ⟨rfl, Enclosure.reaches_cons.2 ⟨fun last => ?_, reached⟩⟩
        simpa [last] using ending
      · rintro ⟨same, reached⟩
        cases front with
        | nil =>
          exact absurd ⟨(List.cons.inj same).1, Enclosure.reaches_nil.1 reached⟩ ending
        | cons d tail =>
          obtain ⟨rfl, tail⟩ := List.cons.inj same
          rw [ih.2 ⟨tail, (Enclosure.reaches_cons.1 reached).2⟩]
          rfl

theorem untilFree?_eq_none_iff : untilFree? state text = none ↔ state.Holds text := by
  induction text generalizing state with
  | nil => simp [untilFree?]
  | cons c cs ih =>
    by_cases ending : c = '>' ∧ state.isFree = true
    · simp [untilFree?, ending]
    · rw [untilFree?_pass ending, Option.map_eq_none_iff, ih, Enclosure.holds_cons]
      simp_all

/-- The search stops at the first `>` at which nothing is open. -/
theorem untilTagEnd?_eq_some_iff :
    untilTagEnd? none 0 text = some (front, rest) ↔
      text = front ++ '>' :: rest ∧ Enclosure.Reaches {} front := by
  rw [untilTagEnd?_eq_untilFree?]
  exact untilFree?_eq_some_iff

theorem untilTagEnd?_eq_none_iff : untilTagEnd? none 0 text = none ↔ Enclosure.Holds {} text := by
  rw [untilTagEnd?_eq_untilFree?]
  exact untilFree?_eq_none_iff

/-- Byte by byte the tag ends at the same place. -/
theorem reaches_octets (read : untilTagEnd? none 0 text = some (front, rest)) :
    Enclosure.Reaches {} (octets front) := by
  have walked : untilTagEnd? none 0 (octets text) = some (octets front, octets rest) := by
    rw [untilTagEnd?_octets (by simp), read]
    rfl
  exact (untilTagEnd?_eq_some_iff.1 walked).2

theorem holds_octets (endless : untilTagEnd? none 0 text = none) :
    Enclosure.Holds {} (octets text) := by
  have walked : untilTagEnd? none 0 (octets text) = none := by
    rw [untilTagEnd?_octets (by simp), endless]
    rfl
  exact untilTagEnd?_eq_none_iff.1 walked

end
end Retag.Text
