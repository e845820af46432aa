import Retag.Proofs.Tag.Layout

/-! Texts in which no tag of a name opens. `Quiet` is a condition on each place where the tag could
start, so that it can be kept while a text is taken apart and put together again: what matters at a
seam is that no character of the name stands there. -/
namespace Retag.Tag

/-- Characters that can end a name: white space, the end of a tag, and what stands between the names
of an import. -/
def canEndName (c : Char) : Bool :=
  Text.isBlank c || c == '/' || c == '>' || c == ',' || c == '}'

def GoesOn (rest : Text) : Prop := ∃ c ∈ rest.head?, canEndName c = false

/-- Wherever `<name` stands, the name goes on. -/
def Quiet (name text : Text) : Prop :=
  ∀ before rest, text = before ++ '<' :: name ++ rest → GoesOn rest

section
variable {name a b : Text}

theorem not_goesOn_nil : ¬GoesOn [] := by
  rintro ⟨c, first, -⟩
  simp at first

theorem GoesOn.append (goesOn : GoesOn a) (b : Text) : GoesOn (a ++ b) := by
  obtain ⟨c, first, inert⟩ := goesOn
  obtain ⟨tail, rfl⟩ := List.head?_eq_some_iff.1 first
  exact ⟨c, rfl, inert⟩

theorem Quiet.of_plain (plain : '<' ∉ a) : Quiet name a := by
  rintro before rest rfl
  simp at plain

theorem Quiet.right (quiet : Quiet name (a ++ b)) : Quiet name b := by
  rintro before rest rfl
  exact quiet (a ++ before) rest (by simp)

/-- Characters that do not stand in `<name`, if the name is made of letters. -/
def isDelimiter (c : Char) : Bool := c != '<' && !c.isAlpha

def EndsOutside (text : Text) : Prop := ∀ c ∈ text.getLast?, isDelimiter c = true

theorem endsOutside_concat {c : Char} (front : Text) (delimiter : isDelimiter c = true) :
    EndsOutside (front ++ [c]) := by
  simpa [EndsOutside] using delimiter

theorem isAlpha_of_blank {c : Char} (blank : Text.isBlank c = true) : c.isAlpha = false := by
  simp only [Text.isBlank, Text.inRanges, Text.blankRanges, List.any_cons, List.any_nil,
    Bool.or_false, Bool.or_eq_true, Bool.and_eq_true, decide_eq_true_eq] at blank
  delta Char.isAlpha Char.isUpper Char.isLower
  simp only [Bool.or_eq_false_iff, Bool.and_eq_false_iff, decide_eq_false_iff_not, ge_iff_le,
    UInt32.le_iff_toNat_le]
  constructor <;> simp <;> omega

theorem isDelimiter_of_blank {c : Char} (blank : Text.isBlank c = true) : isDelimiter c = true := by
  simp only [isDelimiter, isAlpha_of_blank blank, Bool.not_false, Bool.and_true, bne_iff_ne]
  rintro rfl
  exact absurd blank (by decide)

variable (letters : ∀ c ∈ name, c.isAlpha = true)
include letters

theorem not_mem_of_delimiter {c : Char} (delimiter : isDelimiter c = true) : c ∉ '<' :: name := by
  simp only [isDelimiter, Bool.and_eq_true, bne_iff_ne, Bool.not_eq_true'] at delimiter
  intro member
  rcases List.mem_cons.1 member with rfl | member
  · exact absurd rfl delimiter.1
  · simp [letters c member] at delimiter

/-- The front of a quiet text is quiet if it does not end within the name, or if what follows can
end a name. -/
theorem Quiet.left (quiet : Quiet name (a ++ b))
    (cut : EndsOutside a ∨ ∀ c ∈ b.head?, canEndName c = true) :
    Quiet name a := by
  rintro before rest rfl
  obtain ⟨c, first, inert⟩ := quiet before (rest ++ b) (by simp)
  cases rest with
  | cons d ds => exact ⟨c, first, inert⟩
  | nil =>
    rcases cut with last | ends
    · have inside : ('<' :: name).getLast (by simp) ∈ '<' :: name := List.getLast_mem _
      exact absurd inside
        (not_mem_of_delimiter letters (last _ (by simp [List.getLast?_eq_some_getLast])))
    · simp [ends c first] at inert

/-- Quiet texts can be joined where the first does not end within the name or the second does not
start within it. -/
theorem Quiet.append (quietA : Quiet name a) (quietB : Quiet name b)
    (seam : EndsOutside a ∨ ∀ c ∈ b.head?, c.isAlpha = false) :
    Quiet name (a ++ b) := by
  intro before rest same
  rcases List.append_eq_append_iff.1 same with ⟨middle, longer, rfl⟩ | ⟨middle, rfl, rfl⟩
  · rcases List.append_eq_append_iff.1 longer with ⟨inner, rfl, tail⟩ | ⟨inner, rfl, rfl⟩
    · match inner, middle, tail with
      | [], _, rfl => exact quietB [] rest (by simp)
      | c :: cs, [], tail => exact absurd (quietA before [] (by simp [tail])) not_goesOn_nil
      | c :: cs, d :: ds, tail =>
        -- The name starts in the first text and ends in the second.
        rcases seam with last | first
        · have inside : (c :: cs).getLast (by simp) ∈ '<' :: name :=
            tail ▸ List.mem_append_left _ (List.getLast_mem _)
          exact absurd inside
            (not_mem_of_delimiter letters (last _ (by simp [List.getLast?_eq_some_getLast])))
        · obtain ⟨-, rfl⟩ := List.cons.inj tail
          have letter := letters d (by simp)
          simp [first d (by simp)] at letter
    · exact quietB inner rest (by simp)
  · exact (quietA before middle rfl).append b

/-- Before a `<` the first text need not be quiet by itself: the name goes on there too. -/
theorem Quiet.append_open (quietA : Quiet name (a ++ ['<'])) (quietB : Quiet name ('<' :: b)) :
    Quiet name (a ++ '<' :: b) := by
  intro before rest same
  rcases List.append_eq_append_iff.1 same with ⟨middle, longer, whole⟩ | ⟨middle, rfl, rfl⟩
  · rcases List.append_eq_append_iff.1 longer with ⟨inner, rfl, tail⟩ | ⟨inner, rfl, rfl⟩
    · match inner, middle, tail with
      | [], _, rfl => exact quietB [] rest (by simpa using whole)
      | c :: cs, [], tail =>
        obtain ⟨d, first, inert⟩ := quietA before ['<'] (by simp [tail])
        exact ⟨d, by rw [← List.nil_append rest, ← whole]; simpa using first, inert⟩
      | c :: cs, d :: ds, tail =>
        obtain ⟨-, rfl⟩ := List.cons.inj tail
        have letter := letters d (by simp)
        obtain ⟨rfl, -⟩ := List.cons.inj whole
        exact absurd letter (by decide)
    · exact quietB inner rest (by simp [whole])
  · have goesOn := quietA before (middle ++ ['<']) (by simp)
    cases middle with
    | nil => exact ⟨'<', rfl, by decide⟩
    | cons d ds => exact goesOn

omit letters in
theorem canEndName_of_ends {c : Char} {rest : Text} (ends : endsName (c :: rest) = true) :
    canEndName c = true := by
  simp only [endsName, Text.isAsciiBlank, Bool.or_eq_true, beq_iff_eq] at ends
  rcases ends with ((((((rfl | rfl) | rfl) | rfl) | rfl) | rfl) | rfl) <;> decide

omit letters in
theorem Quiet.no_sites {text : Text} (quiet : Quiet name text) : openSites text name = [] := by
  refine List.eq_nil_iff_forall_not_mem.2 fun site member => ?_
  obtain ⟨before, rest, whole, -, ends, -⟩ := opensIn_of_mem member
  obtain ⟨c, first, inert⟩ := quiet before rest whole
  obtain ⟨tail, rfl⟩ := List.head?_eq_some_iff.1 first
  simp [canEndName_of_ends ends] at inert

end
end Retag.Tag
