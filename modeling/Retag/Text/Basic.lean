/-! Source text as its characters. Offsets and lengths of text are counted in the bytes of its
UTF-8 form. -/
namespace Retag

abbrev Text := List Char

namespace Text

/-- Bytes of the UTF-8 form. -/
def size : Text → Nat
  | [] => 0
  | c :: cs => c.utf8Size + size cs

@[simp] theorem size_nil : size [] = 0 := rfl

@[simp] theorem size_cons (c : Char) (cs : Text) : size (c :: cs) = c.utf8Size + size cs := rfl

@[simp] theorem size_append (a b : Text) : size (a ++ b) = size a + size b := by
  induction a with
  | nil => simp
  | cons c cs ih => simp [ih, Nat.add_assoc]

/-- The UTF-8 form. -/
def bytes (text : Text) : List UInt8 := text.flatMap String.utf8EncodeChar

/-- Cuts the text at a byte offset. An offset inside a character is lowered to its start, and one
past the end to the end. -/
def splitAtByte : Nat → Text → Text × Text
  | _, [] => ([], [])
  | n, c :: cs =>
    if c.utf8Size ≤ n then
      let (before, after) := splitAtByte (n - c.utf8Size) cs
      (c :: before, after)
    else ([], c :: cs)

def takeBytes (n : Nat) (text : Text) : Text := (splitAtByte n text).1

def dropBytes (n : Nat) (text : Text) : Text := (splitAtByte n text).2

theorem splitAtByte_append (n : Nat) (text : Text) :
    (splitAtByte n text).1 ++ (splitAtByte n text).2 = text := by
  induction text generalizing n with
  | nil => rfl
  | cons c cs ih =>
    rw [splitAtByte]
    split
    · simp [ih]
    · rfl

/-- What follows `front` at the start of the text. -/
def dropPrefix? : (front : Text) → Text → Option Text
  | [], text => some text
  | _ :: _, [] => none
  | p :: front, c :: cs => if p = c then dropPrefix? front cs else none

theorem dropPrefix?_eq_some_iff {front text rest : Text} :
    dropPrefix? front text = some rest ↔ text = front ++ rest := by
  fun_induction dropPrefix? front text with
  | case1 text => simp
  | case2 => simp
  | case3 => simp_all
  | case4 p front c cs other => simp [Ne.symm other]

@[simp] theorem dropPrefix?_append (front rest : Text) :
    dropPrefix? front (front ++ rest) = some rest :=
  dropPrefix?_eq_some_iff.2 rfl

def occursIn (pattern : Text) : Text → Bool
  | [] => pattern.isEmpty
  | c :: cs => (dropPrefix? pattern (c :: cs)).isSome || occursIn pattern cs

theorem occursIn_append (before pattern rest : Text) :
    occursIn pattern (before ++ pattern ++ rest) = true := by
  induction before with
  | nil =>
    rw [List.nil_append]
    cases whole : pattern ++ rest with
    | nil => simp [occursIn, (List.append_eq_nil_iff.1 whole).1]
    | cons c cs => simp [occursIn, ← whole]
  | cons c cs ih => rw [List.cons_append, List.cons_append, occursIn, ih, Bool.or_true]

def ofNat (n : Nat) : Text := (toString n).toList

end Text
end Retag
