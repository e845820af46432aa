import Retag.Proofs.Import.Names
import Retag.Text.Lowercase

/-! Lower-casing leaves its own results alone. No lower-case form is lowered further, is white space
or is a capital sigma, so a text that was trimmed and then lowered is trimmed and lowered. -/
namespace Retag.Text

namespace Unicode
variable {run other : LowerRun} {code : Nat}

theorem LowerRun.covers_iff : run.covers code = true ↔
    run.first ≤ code ∧ code ≤ run.last ∧ (code - run.first) % run.step = 0 := by
  simp [covers, and_assoc]

/-- The last of a run's lower-case forms; `target` is the first. -/
def LowerRun.reach (run : LowerRun) : Nat := run.target + (run.last - run.first)

def LowerRun.avoids (run : LowerRun) (first last : Nat) : Bool :=
  Nat.blt run.reach first || Nat.blt last run.target

/-- No lower-case form is lowered by the other run: they lie apart, or between its code points. -/
def LowerRun.clears (run other : LowerRun) : Bool :=
  run.avoids other.first other.last ||
    (run.step == 2 || run.first == run.last) && other.step == 2 &&
      (run.target + other.first) % 2 == 1

/-- The lower-case forms are characters other than white space and the capital I with a dot above,
and no run lowers them further. -/
def LowerRun.settles (run : LowerRun) : Bool :=
  run.reach < 0x110000 && run.avoids 0xD800 0xDFFF && run.avoids 0x130 0x130 &&
    (blankRanges.all fun (first, last) => run.avoids first last) && lowerRuns.all run.clears

theorem lowerRuns_settle : lowerRuns.all LowerRun.settles = true := by decide +kernel

section
variable (covers : run.covers code = true)
include covers

theorem LowerRun.lower_bounds : run.target ≤ run.lower code ∧ run.lower code ≤ run.reach := by
  obtain ⟨first, last, -⟩ := covers_iff.1 covers
  unfold lower reach
  omega

theorem LowerRun.lower_outside {first last : Nat} (avoids : run.avoids first last = true) :
    run.lower code < first ∨ last < run.lower code := by
  obtain ⟨lower, upper⟩ := lower_bounds covers
  simp only [LowerRun.avoids, Bool.or_eq_true, Nat.blt_eq] at avoids
  omega

theorem LowerRun.not_covers_lower (clears : run.clears other = true) :
    other.covers (run.lower code) = false := by
  rw [Bool.eq_false_iff]
  intro again
  obtain ⟨first, last, aligned⟩ := covers_iff.1 covers
  obtain ⟨first', last', aligned'⟩ := covers_iff.1 again
  rcases Bool.or_eq_true_iff.1 clears with apart | between
  · have outside := lower_outside covers apart
    omega
  · -- The lower-case forms keep the distance of the code points, so they all lie between.
    simp only [Bool.and_eq_true, Bool.or_eq_true, beq_iff_eq] at between
    obtain ⟨⟨even, two⟩, odd⟩ := between
    rw [two, LowerRun.lower] at aligned'
    rw [LowerRun.lower] at first'
    rcases even with two' | single
    · rw [two'] at aligned
      omega
    · omega

end

end Unicode

open Unicode (LowerRun lowerRuns lowerRuns_settle)

def isLowered (c : Char) : Bool := c != 'İ' && lowerRuns.all fun run => !run.covers c.toNat

theorem isLowered_iff {c : Char} :
    isLowered c = true ↔ c ≠ 'İ' ∧ ∀ run ∈ lowerRuns, run.covers c.toNat = false := by
  simp [isLowered]

theorem lowerChar_of_isLowered {c : Char} (lowered : isLowered c = true) : lowerChar c = [c] := by
  obtain ⟨plain, uncovered⟩ := isLowered_iff.1 lowered
  have none : lowerRuns.find? (·.covers c.toNat) = none := by simpa using uncovered
  simp [lowerChar, plain, lowerCode, none]

theorem ne_sigma_of_isLowered {c : Char} (lowered : isLowered c = true) : c ≠ 'Σ' := by
  rintro rfl
  exact absurd lowered (by decide +kernel)

/-- The code point of a run's lower-case form is that of a character, which is lowered and not white
space. -/
theorem isLowered_lower {run : LowerRun} {code : Nat} (member : run ∈ lowerRuns)
    (covers : run.covers code = true) :
    isLowered (Char.ofNat (run.lower code)) = true ∧
      isBlank (Char.ofNat (run.lower code)) = false := by
  have settles := List.all_eq_true.1 lowerRuns_settle run member
  simp only [LowerRun.settles, Bool.and_eq_true, decide_eq_true_eq] at settles
  obtain ⟨⟨⟨⟨limit, surrogates⟩, dotted⟩, blanks⟩, clears⟩ := settles
  have outside := LowerRun.lower_outside covers surrogates
  have undotted := LowerRun.lower_outside covers dotted
  have bounds := LowerRun.lower_bounds covers
  have valid : (run.lower code).isValidChar := by
    unfold Nat.isValidChar
    omega
  have same : (Char.ofNat (run.lower code)).toNat = run.lower code := by
    rw [Char.ofNat, dif_pos valid]
    rfl
  constructor
  · rw [isLowered_iff, same]
    refine ⟨fun isDotted => ?_, fun other among => ?_⟩
    · have dot : 'İ'.toNat = 0x130 := rfl
      rw [isDotted] at same
      omega
    · exact LowerRun.not_covers_lower covers (List.all_eq_true.1 clears other among)
  · rw [isBlank, inRanges, same, List.any_eq_false]
    intro range among
    have apart := LowerRun.lower_outside covers (List.all_eq_true.1 blanks range among)
    simp
    omega

/-- What the next character is lowered to: at least one character, all of them lowered, and none of
them white space if it was not. -/
theorem lowercaseAfter_cons (before : Text) (c : Char) (cs : Text) :
    ∃ lowered, lowercaseAfter before (c :: cs) = lowered ++ lowercaseAfter (c :: before) cs ∧
      lowered ≠ [] ∧ ∀ d ∈ lowered, isLowered d = true ∧ (isBlank c = false → isBlank d = false) := by
  have single {d : Char} (lowered : isLowered d = true) (ink : isBlank c = false → isBlank d = false) :
      [d] ≠ [] ∧ ∀ e ∈ [d], isLowered e = true ∧ (isBlank c = false → isBlank e = false) := by
    simpa using ⟨lowered, ink⟩
  refine ⟨_, rfl, ?_⟩
  split
  · split
    · exact single (by decide +kernel) fun _ => by decide
    · exact single (by decide +kernel) fun _ => by decide
  · unfold lowerChar
    split
    · constructor
      · simp
      · intro d member
        obtain rfl | rfl : d = 'i' ∨ d = '\u0307' := by simpa using member
        · exact ⟨by decide +kernel, fun _ => by decide⟩
        · exact ⟨by decide +kernel, fun _ => by decide⟩
    · rename_i plain
      unfold lowerCode
      split
      · rename_i run found
        have covers := List.find?_some found
        obtain ⟨lowered, ink⟩ := isLowered_lower (List.mem_of_find?_eq_some found) covers
        exact single lowered fun _ => ink
      · rename_i absent
        rw [Char.ofNat_toNat]
        apply single
        · exact isLowered_iff.2 ⟨by simpa using plain, by simpa using absent⟩
        · exact id

theorem isLowered_of_mem {before text : Text} {d : Char} (member : d ∈ lowercaseAfter before text) :
    isLowered d = true := by
  induction text generalizing before with
  | nil => cases member
  | cons c cs ih =>
    obtain ⟨lowered, split, -, each⟩ := lowercaseAfter_cons before c cs
    rw [split] at member
    rcases List.mem_append.1 member with here | later
    · exact (each d here).1
    · exact ih later

theorem lowercaseAfter_eq_self {before text : Text} (lowered : ∀ c ∈ text, isLowered c = true) :
    lowercaseAfter before text = text := by
  induction text generalizing before with
  | nil => rfl
  | cons c cs ih =>
    have here := lowered c (by simp)
    simp only [lowercaseAfter, beq_iff_eq, ne_sigma_of_isLowered here, if_false,
      lowerChar_of_isLowered here, ih fun d member => lowered d (by simp [member])]
    rfl

theorem lowercase_lowercase (text : Text) : lowercase (lowercase text) = lowercase text :=
  lowercaseAfter_eq_self fun _ => isLowered_of_mem

/-- A text that starts or ends with a character other than white space still does when lowered. -/
theorem lowercaseAfter_ends (before : Text) {text : Text} :
    (Clear isBlank text → Clear isBlank (lowercaseAfter before text)) ∧
      ((∀ c ∈ text.getLast?, isBlank c = false) →
        ∀ c ∈ (lowercaseAfter before text).getLast?, isBlank c = false) := by
  induction text generalizing before with
  | nil => exact ⟨id, id⟩
  | cons c cs ih =>
    obtain ⟨lowered, split, filled, each⟩ := lowercaseAfter_cons before c cs
    rw [split]
    constructor
    · intro clear d first
      obtain ⟨e, rest, rfl⟩ := List.exists_cons_of_ne_nil filled
      obtain rfl : e = d := Option.some.inj first
      exact (each e (by simp)).2 (clear c rfl)
    · intro ink d last
      cases cs with
      | nil =>
        rw [lowercaseAfter, List.append_nil] at last
        exact (each d (List.mem_of_getLast? last)).2 (ink c rfl)
      | cons next cs =>
        obtain ⟨more, split', filled', -⟩ := lowercaseAfter_cons (c :: before) next cs
        refine (ih (c :: before)).2 (by simpa using ink) d ?_
        rw [List.getLast?_append] at last
        simpa [split', filled'] using last

/-- Trimming has nothing to do after lower-casing that it did not do before. -/
theorem trim_lowercase_trim (text : Text) : trim (lowercase (trim text)) = lowercase (trim text) := by
  obtain ⟨clear, ink⟩ := trim_ends text
  exact trim_eq_self ((lowercaseAfter_ends []).1 clear) ((lowercaseAfter_ends []).2 ink)

end Retag.Text
