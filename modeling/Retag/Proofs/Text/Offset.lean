import Retag.Text.Basic

/-! Byte offsets that fall between characters. Every cut made at the size of a leading part gives
that part back, and two such cuts of one text compare as their sizes do. -/
namespace Retag.Text

theorem size_eq_zero_iff {text : Text} : size text = 0 ↔ text = [] := by
  cases text with
  | nil => simp
  | cons c cs =>
    have positive := c.utf8Size_pos
    simp
    omega

theorem size_pos {text : Text} (nonempty : text ≠ []) : 0 < size text :=
  Nat.pos_of_ne_zero fun zero => nonempty (size_eq_zero_iff.1 zero)

@[simp] theorem splitAtByte_zero (text : Text) : splitAtByte 0 text = ([], text) := by
  cases text with
  | nil => rfl
  | cons c cs =>
    have positive := c.utf8Size_pos
    rw [splitAtByte, if_neg (by omega)]

@[simp] theorem splitAtByte_size (front rest : Text) :
    splitAtByte (size front) (front ++ rest) = (front, rest) := by
  induction front with
  | nil => simp
  | cons c cs ih =>
    rw [List.cons_append, splitAtByte, size_cons, if_pos (Nat.le_add_right _ _),
      Nat.add_sub_cancel_left, ih]

@[simp] theorem takeBytes_size (front rest : Text) :
    takeBytes (size front) (front ++ rest) = front := by
  rw [takeBytes, splitAtByte_size]

@[simp] theorem dropBytes_size (front rest : Text) :
    dropBytes (size front) (front ++ rest) = rest := by
  rw [dropBytes, splitAtByte_size]

theorem size_takeBytes_le (n : Nat) (text : Text) : size (takeBytes n text) ≤ n := by
  induction text generalizing n with
  | nil => exact Nat.zero_le n
  | cons c cs ih =>
    rw [takeBytes, splitAtByte]
    split
    · have further : size (splitAtByte (n - c.utf8Size) cs).1 ≤ n - c.utf8Size := ih _
      rw [size_cons]
      omega
    · exact Nat.zero_le n

/-- A leading part that fits is cut off whole. -/
theorem size_le_takeBytes {n : Nat} {front : Text} (rest : Text) (fits : size front ≤ n) :
    size front ≤ size (takeBytes n (front ++ rest)) := by
  induction front generalizing n with
  | nil => exact Nat.zero_le _
  | cons c cs ih =>
    rw [size_cons] at fits
    have further : size cs ≤ size (splitAtByte (n - c.utf8Size) (cs ++ rest)).1 := ih (by omega)
    rw [takeBytes, List.cons_append, splitAtByte, if_pos (by omega), size_cons, size_cons]
    omega

/-- Of two leading parts of one text the smaller is a leading part of the other. -/
theorem append_of_size_le {a b c d : Text} (same : a ++ b = c ++ d) (smaller : size a ≤ size c) :
    ∃ middle, c = a ++ middle ∧ b = middle ++ d := by
  rcases List.append_eq_append_iff.1 same with ⟨middle, longer, rest⟩ | ⟨middle, longer, rest⟩
  · exact ⟨middle, longer, rest⟩
  · have none : middle = [] := by
      rw [longer, size_append] at smaller
      exact size_eq_zero_iff.1 (by omega)
    subst none
    exact ⟨[], by simpa using longer.symm, by simpa using rest.symm⟩

theorem eq_of_size_eq {a b c d : Text} (same : a ++ b = c ++ d) (sizes : size a = size c) :
    a = c := by
  rw [← takeBytes_size a b, same, sizes, takeBytes_size]

@[simp] theorem bytes_nil : bytes [] = [] := rfl

@[simp] theorem bytes_cons (c : Char) (cs : Text) :
    bytes (c :: cs) = String.utf8EncodeChar c ++ bytes cs := rfl

@[simp] theorem bytes_append (a b : Text) : bytes (a ++ b) = bytes a ++ bytes b := by
  simp [bytes]

@[simp] theorem length_bytes (text : Text) : (bytes text).length = size text := by
  induction text with
  | nil => rfl
  | cons c cs ih => simp [ih]

theorem bytes_inj {a b : Text} : bytes a = bytes b ↔ a = b := by
  constructor
  · intro same
    apply String.ofList_injective
    apply String.toByteArray_inj.1
    rw [String.toByteArray_ofList, String.toByteArray_ofList]
    exact congrArg List.toByteArray same
  · rintro rfl
    rfl

end Retag.Text
