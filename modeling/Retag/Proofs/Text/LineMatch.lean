import Retag.Text.LineMatch

/-! The first match at the start of a line. A search succeeds exactly where a line can be read and
no line before it can, and fails exactly if no line can be read. -/
namespace Retag.Text

/-- Whether what follows `before` starts a line; `atStart` says so of `before` itself. -/
def startsLine (atStart : Bool) : (before : Text) → Bool
  | [] => atStart
  | c :: cs => startsLine (c == '\n') cs

theorem startsLine_concat (atStart : Bool) (before : Text) (c : Char) :
    startsLine atStart (before ++ [c]) = (c == '\n') := by
  induction before generalizing atStart with
  | nil => rfl
  | cons d ds ih => exact ih (d == '\n')

/-- A text that starts a line and is not at the start of the whole follows a line feed. -/
theorem break_of_startsLine {atStart : Bool} {before : Text} (filled : before ≠ [])
    (starts : startsLine atStart before = true) : ∃ front, before = front ++ ['\n'] := by
  rcases List.eq_nil_or_concat before with rfl | ⟨front, c, rfl⟩
  · exact absurd rfl filled
  · rw [List.concat_eq_append, startsLine_concat, beq_iff_eq] at starts
    exact ⟨front, by rw [List.concat_eq_append, starts]⟩

section
variable {α : Type} {read : Text → Option (α × Text)} {atStart : Bool}

theorem firstAtLine?_eq_none_iff {text : Text} :
    firstAtLine? read atStart text = none ↔
      ∀ before line, text = before ++ line → line ≠ [] → startsLine atStart before = true →
        read line = none := by
  induction text generalizing atStart with
  | nil =>
    refine ⟨fun _ before line whole filled => ?_, fun _ => rfl⟩
    exact absurd (List.append_eq_nil_iff.1 whole.symm).2 filled
  | cons c cs ih =>
    have step : firstAtLine? read atStart (c :: cs) = none ↔
        (atStart = true → read (c :: cs) = none) ∧ firstAtLine? read (c == '\n') cs = none := by
      rw [firstAtLine?]
      cases atStart with
      | false => simp
      | true => cases read (c :: cs) <;> simp
    rw [step, ih]
    constructor
    · rintro ⟨here, later⟩ before line whole filled starts
      cases before with
      | nil => exact (show c :: cs = line from whole) ▸ here starts
      | cons d before =>
        obtain ⟨rfl, rfl⟩ := List.cons.inj whole
        exact later before line rfl filled starts
    · intro unread
      refine ⟨unread [] (c :: cs) rfl (by simp), fun before line whole filled starts => ?_⟩
      exact unread (c :: before) line (by rw [whole, List.cons_append]) filled starts

/-- No line that starts in `before` can be read, where `line` follows. -/
def FirstAt (read : Text → Option (α × Text)) (atStart : Bool) (before line : Text) : Prop :=
  ∀ a b, before = a ++ b → b ≠ [] → startsLine atStart a = true → read (b ++ line) = none

theorem FirstAt.left {front back line : Text} (first : FirstAt read atStart (front ++ back) line) :
    FirstAt read atStart front (back ++ line) := by
  intro a b split filled starts
  have unread := first a (b ++ back) (by rw [split, List.append_assoc]) (by simp [filled]) starts
  rwa [List.append_assoc] at unread

theorem firstAtLine?_of_first {before line after : Text} {item : α}
    (starts : startsLine atStart before = true) (filled : line ≠ [])
    (here : read line = some (item, after)) (first : FirstAt read atStart before line) :
    firstAtLine? read atStart (before ++ line) = some ⟨before, item, after⟩ := by
  induction before generalizing atStart with
  | nil =>
    obtain ⟨c, cs, rfl⟩ := List.exists_cons_of_ne_nil filled
    have atStart : atStart = true := starts
    simp [firstAtLine?, atStart, here]
  | cons c cs ih =>
    have unread : (if atStart then read (c :: (cs ++ line)) else none) = none := by
      split
      · exact first [] (c :: cs) rfl (by simp) ‹_›
      · rfl
    have later := ih starts fun a b split => first (c :: a) b (by rw [split, List.cons_append])
    rw [List.cons_append, firstAtLine?, unread, later]
    rfl

theorem first_of_firstAtLine? {text : Text} {found : Found α}
    (search : firstAtLine? read atStart text = some found) :
    ∃ line, text = found.before ++ line ∧ read line = some (found.item, found.after) ∧
      startsLine atStart found.before = true ∧ FirstAt read atStart found.before line := by
  induction text generalizing atStart found with
  | nil => simp [firstAtLine?] at search
  | cons c cs ih =>
    rw [firstAtLine?] at search
    split at search
    · rename_i item rest here
      obtain rfl := Option.some.inj search
      split at here
      · refine ⟨c :: cs, rfl, here, ‹_›, fun a b split filled => ?_⟩
        exact absurd (List.append_eq_nil_iff.1 split.symm).2 filled
      · cases here
    · rename_i absent
      obtain ⟨later, second, rfl⟩ := Option.map_eq_some_iff.1 search
      obtain ⟨line, rfl, here, starts, first⟩ := ih second
      refine ⟨line, rfl, here, starts, fun a b split filled atLine => ?_⟩
      cases a with
      | nil =>
        obtain rfl : c :: later.before = b := split
        rwa [if_pos (show atStart = true from atLine)] at absent
      | cons d a =>
        obtain ⟨rfl, behind⟩ := List.cons.inj split
        exact first a b behind filled atLine

/-- The first match stands no later than a line that can be read. -/
theorem exists_first_of_readable {before line : Text} (starts : startsLine atStart before = true)
    (filled : line ≠ []) (readable : read line ≠ none) :
    ∃ found more, firstAtLine? read atStart (before ++ line) = some found ∧
      before = found.before ++ more := by
  cases search : firstAtLine? read atStart (before ++ line) with
  | none => exact absurd (firstAtLine?_eq_none_iff.1 search before line rfl filled starts) readable
  | some found =>
    obtain ⟨line', whole, -, -, first⟩ := first_of_firstAtLine? search
    rcases List.append_eq_append_iff.1 whole with ⟨more, split, rest⟩ | ⟨more, split, -⟩
    · by_cases empty : more = []
      · exact ⟨found, [], rfl, by simp [split, empty]⟩
      · exact absurd (rest ▸ first before more split empty starts) readable
    · exact ⟨found, more, rfl, split⟩

end
end Retag.Text
