import Retag.Proofs.Text.Offset
import Retag.Text.Reference

/-! Whole identifiers in a text, and where they can stand when texts are joined. Main statement: the
search for a name, which goes on behind each occurrence, finds every place where the name stands
whole, because an occurrence that overlaps an earlier one is not whole. -/
namespace Retag.Text

def Apart (before rest : Text) : Prop :=
  (∀ c ∈ before.getLast?, isIdentifier c = false) ∧ ∀ c ∈ rest.head?, isIdentifier c = false

/-- `name` stands in the text as a whole identifier, from byte `start` on. -/
def StandsAt (name text : Text) (start : Nat) : Prop :=
  ∃ before rest, text = before ++ name ++ rest ∧ start = before.size ∧ Apart before rest

/-- `name` stands somewhere as a whole identifier that lies before byte `start` or behind `stop`. -/
def UsedOutside (name text : Text) (start stop : Nat) : Prop :=
  ∃ place, StandsAt name text place ∧ (place + name.size ≤ start ∨ stop ≤ place)

/-- `name` stands whole and starts outside the skipped bytes, in a text that stands at byte `offset`
behind the character `last`. -/
def ReferencedBehind (name : Text) (skipStart skipStop offset : Nat) (last : Option Char)
    (text : Text) : Prop :=
  ∃ before rest, text = before ++ name ++ rest ∧
    ¬(skipStart ≤ offset + before.size ∧ offset + before.size < skipStop) ∧
    (∀ c ∈ before.getLast?.or last, isIdentifier c = false) ∧
    ∀ c ∈ rest.head?, isIdentifier c = false

theorem not_any_iff {found : Option Char} :
    ¬found.any isIdentifier = true ↔ ∀ c ∈ found, isIdentifier c = false := by
  cases found <;> simp

section
variable {name : Text} {skipStart skipStop offset : Nat} {last : Option Char}

/-- Where the name does not start, the search moves on by one character. -/
theorem referencedBehind_cons {c : Char} {cs : Text} (absent : dropPrefix? name (c :: cs) = none) :
    ReferencedBehind name skipStart skipStop offset last (c :: cs) ↔
      ReferencedBehind name skipStart skipStop (offset + c.utf8Size) (some c) cs := by
  constructor
  · rintro ⟨before, rest, whole, outside, left, right⟩
    cases before with
    | nil =>
      rw [whole, List.nil_append, dropPrefix?_append] at absent
      cases absent
    | cons d before =>
      obtain ⟨rfl, rfl⟩ := List.cons.inj whole
      refine ⟨before, rest, rfl, ?_, ?_, right⟩
      · simpa [Nat.add_assoc] using outside
      · simpa [List.getLast?_cons] using left
  · rintro ⟨before, rest, rfl, outside, left, right⟩
    refine ⟨c :: before, rest, rfl, ?_, ?_, right⟩
    · simpa [Nat.add_assoc] using outside
    · simpa [List.getLast?_cons] using left

theorem getLast?_append_name (nonempty : name ≠ []) (before : Text) (last : Option Char) :
    (name ++ before).getLast?.or last = before.getLast?.or name.getLast? := by
  rw [List.getLast?_append, List.getLast?_eq_some_getLast nonempty, Option.or_assoc, Option.some_or]

variable (nonempty : name ≠ []) (word : ∀ c ∈ name, isIdentifier c = true)
include nonempty word

/-- Where the name starts, it stands whole there or the search goes on behind it. -/
theorem referencedBehind_append (tail : Text) :
    ReferencedBehind name skipStart skipStop offset last (name ++ tail) ↔
      (¬(skipStart ≤ offset ∧ offset < skipStop) ∧ (∀ c ∈ last, isIdentifier c = false) ∧
          ∀ c ∈ tail.head?, isIdentifier c = false) ∨
        ReferencedBehind name skipStart skipStop (offset + name.size) name.getLast? tail := by
  constructor
  · rintro ⟨before, rest, whole, outside, left, right⟩
    rw [List.append_assoc] at whole
    rcases List.append_eq_append_iff.1 whole with ⟨more, rfl, rest'⟩ | ⟨more, split, rest'⟩
    · refine .inr ⟨more, rest, by simpa using rest', ?_, ?_, right⟩
      · simpa [Nat.add_assoc] using outside
      · rwa [getLast?_append_name nonempty] at left
    · rcases List.eq_nil_or_concat before with rfl | ⟨front, c, rfl⟩
      · obtain rfl : name = more := by simpa using split
        obtain rfl : rest = tail := List.append_cancel_left rest'
        exact .inl ⟨by simpa using outside, by simpa using left, right⟩
      · -- The occurrence would start inside this one, behind a character of the name.
        have inside : isIdentifier c = true := word c (by rw [split]; simp)
        have ends : isIdentifier c = false := left c (by simp)
        rw [inside] at ends
        cases ends
  · rintro (⟨outside, left, right⟩ | ⟨before, rest, rfl, outside, left, right⟩)
    · exact ⟨[], tail, rfl, by simpa using outside, by simpa using left, right⟩
    · refine ⟨name ++ before, rest, by simp, ?_, ?_, right⟩
      · simpa [Nat.add_assoc] using outside
      · rwa [getLast?_append_name nonempty]

theorem referencedFrom_iff (skipStart skipStop offset : Nat) (last : Option Char) (text : Text) :
    referencedFrom name skipStart skipStop offset last text = true ↔
      ReferencedBehind name skipStart skipStop offset last text := by
  fun_induction referencedFrom name skipStart skipStop offset last text with
  | case1 name offset last text tail found ih =>
    obtain rfl := dropPrefix?_eq_some_iff.1 found
    rw [referencedBehind_append nonempty word]
    cases name with
    | nil => exact absurd rfl nonempty
    | cons c cs =>
      rw [Bool.or_eq_true, ← ih nonempty word]
      apply or_congr_left
      simp only [Bool.and_eq_true, Bool.not_eq_true', Bool.eq_false_iff, ne_eq, not_any_iff,
        decide_eq_true_eq, and_assoc]
  | case2 name offset last absent =>
    constructor
    · intro found
      cases found
    · rintro ⟨before, rest, whole, -⟩
      simp [nonempty] at whole
  | case3 name offset last c cs absent ih =>
    rw [referencedBehind_cons absent, ih nonempty word]

/-- A name is referenced exactly if it stands somewhere as a whole identifier that does not start
in the skipped bytes. -/
theorem referencedOutside_iff (skipStart skipStop : Nat) (text : Text) :
    referencedOutside name skipStart skipStop text = true ↔
      ∃ start, StandsAt name text start ∧ ¬(skipStart ≤ start ∧ start < skipStop) := by
  rw [referencedOutside, referencedFrom_iff nonempty word]
  constructor
  · rintro ⟨before, rest, whole, outside, left, right⟩
    refine ⟨before.size, ⟨before, rest, whole, rfl, ?_, right⟩, ?_⟩
    · simpa using left
    · simpa using outside
  · rintro ⟨start, ⟨before, rest, whole, rfl, left, right⟩, outside⟩
    refine ⟨before, rest, whole, ?_, ?_, right⟩
    · simpa using outside
    · simpa using left

end

/-- What stands around the names of tags and imports cannot belong to them. -/
theorem isIdentifier_mark {c : Char} (mark : c ∈ " \t\n\r\x0c<>/;'\"".toList) :
    isIdentifier c = false := by
  have marks : (" \t\n\r\x0c<>/;'\"".toList.all fun c => !isIdentifier c) = true := by
    decide +kernel
  simpa using List.all_eq_true.1 marks c mark

section
variable {name a b : Text} {start : Nat}

def Seam (a b : Text) : Prop :=
  (∀ c ∈ a.getLast?, isIdentifier c = false) ∨ ∀ c ∈ b.head?, isIdentifier c = false

theorem StandsAt.stop_le (stands : StandsAt name a start) : start + name.size ≤ a.size := by
  obtain ⟨before, rest, rfl, rfl, -⟩ := stands
  simp only [size_append]
  omega

variable (nonempty : name ≠ []) (word : ∀ c ∈ name, isIdentifier c = true)
include nonempty word

/-- A whole identifier never stands across a seam. -/
theorem split_of_seam {before rest : Text} (seam : Seam a b)
    (whole : a ++ b = before ++ name ++ rest) :
    (∃ more, a = before ++ name ++ more ∧ rest = more ++ b) ∨
      ∃ more, before = a ++ more ∧ b = more ++ name ++ rest := by
  rcases List.append_eq_append_iff.1 (whole.trans (List.append_assoc before name rest)) with
    ⟨more, rfl, rest'⟩ | ⟨more, rfl, rest'⟩
  · exact .inr ⟨more, rfl, by simpa using rest'⟩
  rcases List.append_eq_append_iff.1 rest' with ⟨inner, rfl, rfl⟩ | ⟨inner, rfl, rfl⟩
  · exact .inl ⟨inner, by simp, rfl⟩
  · -- The name starts in the first text and ends in the second, unless one part is empty.
    rcases List.eq_nil_or_concat more with rfl | ⟨front, c, rfl⟩
    · exact .inr ⟨[], by simp, by simp⟩
    cases inner with
    | nil => exact .inl ⟨[], by simp, by simp⟩
    | cons d inner =>
      rcases seam with last | first
      · have inside := word c (by simp)
        rw [last c (by simp)] at inside
        cases inside
      · have inside := word d (by simp)
        rw [first d (by simp)] at inside
        cases inside

/-- Across a seam every whole identifier stands in the one text or in the other. -/
theorem standsAt_append (seam : Seam a b) :
    StandsAt name (a ++ b) start ↔
      StandsAt name a start ∨ ∃ behind, start = a.size + behind ∧ StandsAt name b behind := by
  constructor
  · rintro ⟨before, rest, whole, rfl, left, right⟩
    rcases split_of_seam nonempty word seam whole with ⟨more, rfl, rfl⟩ | ⟨more, rfl, rfl⟩
    · refine .inl ⟨before, more, rfl, rfl, left, fun c first => right c ?_⟩
      rw [List.head?_append, Option.mem_def.1 first]
      rfl
    · refine .inr ⟨size more, size_append a more, more, rest, rfl, rfl, fun c last => left c ?_, right⟩
      rw [List.getLast?_append, Option.mem_def.1 last]
      rfl
  · rintro (⟨before, rest, rfl, rfl, left, right⟩ | ⟨behind, rfl, before, rest, rfl, rfl, left, right⟩)
    · refine ⟨before, rest ++ b, by simp, rfl, left, fun c first => ?_⟩
      cases rest with
      | cons d rest => exact right c (by simpa using first)
      | nil =>
        rcases seam with last | heads
        · have inside := word _ (List.getLast_mem nonempty)
          rw [last _ (by simp [List.getLast?_append, List.getLast?_eq_some_getLast nonempty])] at inside
          cases inside
        · exact heads c (by simpa using first)
    · refine ⟨a ++ before, rest, by simp, (size_append a before).symm, fun c last => ?_, right⟩
      rcases List.eq_nil_or_concat before with rfl | ⟨front, d, rfl⟩
      · rcases seam with lasts | first
        · exact lasts c (by simpa using last)
        · have inside := word _ (List.head_mem nonempty)
          rw [first _ (by simp [List.head?_append, List.head?_eq_some_head nonempty])] at inside
          cases inside
      · exact left c (by simpa using last)

/-- Between two seams, a whole identifier stands in one of the three texts. -/
theorem standsAt_between {c : Text} (left : Seam a (b ++ c)) (right : Seam b c) :
    StandsAt name (a ++ (b ++ c)) start ↔ StandsAt name a start ∨
      (∃ behind, start = a.size + behind ∧ StandsAt name b behind) ∨
        ∃ behind, start = a.size + b.size + behind ∧ StandsAt name c behind := by
  rw [standsAt_append nonempty word left]
  apply or_congr_right
  constructor
  · rintro ⟨behind, rfl, stands⟩
    rcases (standsAt_append nonempty word right).1 stands with inner | ⟨after, rfl, outer⟩
    · exact .inl ⟨behind, rfl, inner⟩
    · exact .inr ⟨after, by omega, outer⟩
  · rintro (⟨behind, rfl, inner⟩ | ⟨after, rfl, outer⟩)
    · exact ⟨behind, rfl, (standsAt_append nonempty word right).2 (.inl inner)⟩
    · exact ⟨b.size + after, by omega,
        (standsAt_append nonempty word right).2 (.inr ⟨after, rfl, outer⟩)⟩

/-- Between two seams, a name is in use outside the middle text if it stands in one of the others. -/
theorem usedOutside_iff {c : Text} (left : Seam a (b ++ c)) (right : Seam b c) :
    UsedOutside name (a ++ (b ++ c)) a.size (a.size + b.size) ↔
      (∃ start, StandsAt name a start) ∨ ∃ start, StandsAt name c start := by
  have filled := size_pos nonempty
  constructor
  · rintro ⟨place, stands, outside⟩
    rcases (standsAt_between nonempty word left right).1 stands with
      inA | ⟨behind, rfl, inB⟩ | ⟨behind, rfl, inC⟩
    · exact .inl ⟨place, inA⟩
    · have bound := inB.stop_le
      omega
    · exact .inr ⟨behind, inC⟩
  · rintro (⟨place, inA⟩ | ⟨behind, inC⟩)
    · exact ⟨place, (standsAt_between nonempty word left right).2 (.inl inA), .inl inA.stop_le⟩
    · exact ⟨a.size + b.size + behind,
        (standsAt_between nonempty word left right).2 (.inr (.inr ⟨behind, rfl, inC⟩)),
        .inr (Nat.le_add_right _ _)⟩

/-- Between two seams it makes no difference that the search looks only at where a name starts. -/
theorem referencedOutside_iff_used {c : Text} (left : Seam a (b ++ c)) (right : Seam b c) :
    referencedOutside name a.size (a.size + b.size) (a ++ (b ++ c)) = true ↔
      UsedOutside name (a ++ (b ++ c)) a.size (a.size + b.size) := by
  have filled := size_pos nonempty
  rw [referencedOutside_iff nonempty word]
  constructor
  · rintro ⟨place, stands, outside⟩
    refine ⟨place, stands, ?_⟩
    rcases (standsAt_between nonempty word left right).1 stands with
      inA | ⟨behind, rfl, inB⟩ | ⟨behind, rfl, inC⟩
    · exact .inl inA.stop_le
    · have bound := inB.stop_le
      omega
    · exact .inr (Nat.le_add_right _ _)
  · rintro ⟨place, stands, outside⟩
    exact ⟨place, stands, by omega⟩

end
end Retag.Text
