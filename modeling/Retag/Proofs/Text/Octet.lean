import Retag.Proofs.Text.Offset
import Retag.Text.Enclosed

/-! The search for the end of a tag, made byte by byte. Bytes are read as the characters of their
codes, so that the byte walk is the same reader on another text. Only ASCII characters steer it,
and no byte of a wider character is one of them: a walk that skips a single byte after a backslash
still stops between characters. -/
namespace Retag.Text

def octet (c : Char) : Text := (String.utf8EncodeChar c).map fun byte => Char.ofNat byte.toNat

def octets (text : Text) : Text := text.bytes.map fun byte => Char.ofNat byte.toNat

@[simp] theorem octets_nil : octets [] = [] := rfl

@[simp] theorem octets_cons (c : Char) (cs : Text) : octets (c :: cs) = octet c ++ octets cs := by
  simp [octets, octet]

@[simp] theorem octets_append (a b : Text) : octets (a ++ b) = octets a ++ octets b := by
  simp [octets]

@[simp] theorem length_octets (text : Text) : (octets text).length = size text := by
  simp [octets]

theorem drop_octets (front rest : Text) :
    (octets (front ++ rest)).drop (size front) = octets rest := by
  rw [octets_append, ← length_octets, List.drop_left]

theorem octet_ascii {c : Char} (ascii : c.toNat ≤ 127) : octet c = [c] := by
  have code : c.val.toNat ≤ 127 := ascii
  rw [octet, String.utf8EncodeChar, if_pos code]
  simp only [List.map_cons, List.map_nil, UInt8.toNat_ofNat', Nat.reducePow]
  rw [Nat.mod_eq_of_lt (by omega)]
  exact congrArg (fun d => [d]) (Char.ofNat_toNat c)

theorem toNat_ofNat_byte (byte : UInt8) : (Char.ofNat byte.toNat).toNat = byte.toNat := by
  have small := byte.toNat_lt
  have valid : byte.toNat.isValidChar := Or.inl (by omega)
  rw [Char.ofNat, dif_pos valid]
  rfl

/-- A character outside ASCII has no ASCII byte. -/
theorem octet_wide {c d : Char} (wide : 127 < c.toNat) (member : d ∈ octet c) : 127 < d.toNat := by
  have code : 127 < c.val.toNat := wide
  obtain ⟨byte, among, rfl⟩ := List.mem_map.1 member
  rw [toNat_ofNat_byte]
  rw [String.utf8EncodeChar, if_neg (by omega)] at among
  split at among
  · simp only [List.mem_cons, List.not_mem_nil, or_false] at among
    rcases among with rfl | rfl <;> simp only [UInt8.toNat_ofNat'] <;> omega
  · split at among
    · simp only [List.mem_cons, List.not_mem_nil, or_false] at among
      rcases among with rfl | rfl | rfl <;> simp only [UInt8.toNat_ofNat'] <;> omega
    · simp only [List.mem_cons, List.not_mem_nil, or_false] at among
      rcases among with rfl | rfl | rfl | rfl <;> simp only [UInt8.toNat_ofNat'] <;> omega

theorem octet_ne_nil (c : Char) : octet c ≠ [] := by
  have positive := c.utf8Size_pos
  intro none
  have length := congrArg List.length none
  simp [octet] at length
  omega

/-- An ASCII character stands where its byte does. -/
theorem getElem?_octets_iff {text : Text} {offset : Nat} {d : Char} (ascii : d.toNat ≤ 127) :
    (octets text)[offset]? = some d ↔
      ∃ before rest, text = before ++ d :: rest ∧ offset = before.size := by
  constructor
  · intro found
    induction text generalizing offset with
    | nil => simp at found
    | cons c cs ih =>
      rw [octets_cons] at found
      by_cases inside : offset < (octet c).length
      · rw [List.getElem?_append_left inside] at found
        by_cases wide : 127 < c.toNat
        · exact absurd (octet_wide wide (List.mem_of_getElem? found)) (Nat.not_lt.2 ascii)
        · rw [octet_ascii (Nat.le_of_not_lt wide)] at found inside
          obtain rfl : offset = 0 := Nat.lt_one_iff.1 inside
          obtain rfl := Option.some.inj found
          exact ⟨[], cs, rfl, rfl⟩
      · have beyond := Nat.le_of_not_lt inside
        rw [List.getElem?_append_right beyond] at found
        obtain ⟨before, rest, rfl, place⟩ := ih found
        have length : (octet c).length = c.utf8Size := by simp [octet]
        refine ⟨c :: before, rest, rfl, ?_⟩
        rw [size_cons]
        omega
  · rintro ⟨before, rest, rfl, rfl⟩
    rw [octets_append, octets_cons, octet_ascii ascii, ← length_octets]
    simp

theorem map_octets_consFirst (front : Text) (read : Option (Text × Text)) :
    (read.map (consFirst front)).map (Prod.map octets octets) =
      (read.map (Prod.map octets octets)).map (consFirst (octets front)) := by
  cases read <;> simp [consFirst]

theorem ne_of_wide {c d : Char} (wide : 127 < c.toNat) (ascii : d.toNat ≤ 127) : c ≠ d := by
  rintro rfl
  omega

theorem isQuoteMark_ascii {c : Char} (mark : isQuoteMark c = true) : c.toNat ≤ 127 := by
  simp only [isQuoteMark, Bool.or_eq_true, beq_iff_eq] at mark
  rcases mark with (rfl | rfl) | rfl <;> decide

/-- Wide characters leave the state of the search as it is. -/
theorem untilTagEnd?_wide {quote : Option Char} {depth : Nat} {run rest : Text}
    (mark : ∀ c ∈ quote, c.toNat ≤ 127) (wide : ∀ c ∈ run, 127 < c.toNat) :
    untilTagEnd? quote depth (run ++ rest) =
      (untilTagEnd? quote depth rest).map (consFirst run) := by
  induction run with
  | nil => simp
  | cons c cs ih =>
    have large := wide c List.mem_cons_self
    have inner := ih fun d member => wide d (List.mem_cons_of_mem _ member)
    rw [List.cons_append, untilTagEnd?.eq_def]
    cases quote with
    | some other =>
      have notMark := ne_of_wide large (mark other rfl)
      have notEscape : c ≠ '\\' := ne_of_wide large (by decide)
      simp [notMark, notEscape, inner]
    | none =>
      have notQuote : isQuoteMark c = false :=
        Bool.eq_false_iff.2 fun quoted => ne_of_wide large (isQuoteMark_ascii quoted) rfl
      have notOpen : c ≠ '{' := ne_of_wide large (by decide)
      have notClose : c ≠ '}' := ne_of_wide large (by decide)
      have notEnd : c ≠ '>' := ne_of_wide large (by decide)
      simp [notQuote, notOpen, notClose, notEnd, inner]

/-- The walk over the bytes stops where the walk over the characters does. After a backslash the
bytes of a wide character are skipped in part only; the others are passed as wide. -/
theorem untilTagEnd?_octets {quote : Option Char} {depth : Nat} {text : Text}
    (mark : ∀ c ∈ quote, c.toNat ≤ 127) :
    untilTagEnd? quote depth (octets text) =
      (untilTagEnd? quote depth text).map (Prod.map octets octets) := by
  fun_induction untilTagEnd? quote depth text with
  | case1 => simp [untilTagEnd?]
  | case2 depth c other escape =>
    obtain rfl := beq_iff_eq.1 escape
    simp [octet_ascii (c := '\\') (by decide), untilTagEnd?]
  | case3 depth c other escape d ds ih =>
    obtain rfl := beq_iff_eq.1 escape
    obtain ⟨first, more, split⟩ := List.exists_cons_of_ne_nil (octet_ne_nil d)
    have rest : untilTagEnd? (some other) depth (more ++ octets ds) =
        (untilTagEnd? (some other) depth (octets ds)).map (consFirst more) := by
      by_cases ascii : d.toNat ≤ 127
      · rw [octet_ascii ascii] at split
        obtain ⟨-, rfl⟩ := List.cons.inj split
        simp
      · refine untilTagEnd?_wide mark fun e member => ?_
        exact octet_wide (Nat.lt_of_not_le ascii) (split ▸ List.mem_cons_of_mem _ member)
    rw [map_octets_consFirst, ← ih mark, octets_cons, octets_cons,
      octet_ascii (c := '\\') (by decide), split]
    simp [untilTagEnd?, rest, octet_ascii (c := '\\') (by decide), split]
  | case4 depth c cs other escape ih =>
    have next : ∀ e ∈ (if c == other then none else some other), e.toNat ≤ 127 := by
      intro e member
      split at member
      · simp at member
      · exact mark e member
    rw [map_octets_consFirst, ← ih next, octets_cons]
    by_cases ascii : c.toNat ≤ 127
    · have notEscape : c ≠ '\\' := by simpa using escape
      simp [octet_ascii ascii, untilTagEnd?.eq_def (some other) depth (c :: octets cs), notEscape]
    · have large := Nat.lt_of_not_le ascii
      have notMark := ne_of_wide large (mark other rfl)
      rw [untilTagEnd?_wide mark fun e member => octet_wide large member]
      simp [notMark]
  | case5 depth c cs quoted ih =>
    have ascii := isQuoteMark_ascii quoted
    have next : ∀ e ∈ some c, e.toNat ≤ 127 := by
      rintro e ⟨⟩
      exact ascii
    rw [map_octets_consFirst, ← ih next, octets_cons]
    simp [octet_ascii ascii, untilTagEnd?.eq_def none depth (c :: octets cs), quoted]
  | case6 depth c cs unquoted opening ih =>
    obtain rfl := beq_iff_eq.1 opening
    rw [map_octets_consFirst, ← ih mark, octets_cons]
    simp [octet_ascii (c := '{') (by decide), untilTagEnd?.eq_def none depth ('{' :: octets cs),
      unquoted]
  | case7 depth c cs unquoted notOpen closing ih =>
    obtain rfl := beq_iff_eq.1 closing
    rw [map_octets_consFirst, ← ih mark, octets_cons]
    simp [octet_ascii (c := '}') (by decide), untilTagEnd?.eq_def none depth ('}' :: octets cs),
      unquoted]
  | case8 depth c cs unquoted notOpen notClose ending =>
    simp only [Bool.and_eq_true, beq_iff_eq] at ending
    obtain ⟨rfl, rfl⟩ := ending
    simp [octet_ascii (c := '>') (by decide), untilTagEnd?.eq_def none 0 ('>' :: octets cs),
      unquoted]
  | case9 depth c cs unquoted notOpen notClose notEnd ih =>
    rw [map_octets_consFirst, ← ih mark, octets_cons]
    by_cases ascii : c.toNat ≤ 127
    · rw [octet_ascii ascii]
      rw [List.singleton_append, untilTagEnd?.eq_def]
      simp [unquoted, notOpen, notClose, notEnd, octet_ascii ascii]
    · have large := Nat.lt_of_not_le ascii
      rw [untilTagEnd?_wide mark fun e member => octet_wide large member]
      simp

end Retag.Text
