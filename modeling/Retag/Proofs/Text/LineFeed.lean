import Retag.Proofs.Splice.Between
import Retag.Proofs.Text.LineMatch
import Retag.Proofs.Text.Octet
import Retag.Proofs.Text.Position

/-! Line feeds among the bytes of a text. No other character has a byte of that value, so the line
of an offset can be counted in bytes, also where the offset falls inside a character. -/
namespace Retag.Text

theorem feed_of_mem {c : Char} (member : 10 ∈ String.utf8EncodeChar c) : c = '\n' := by
  have among : '\n' ∈ octet c := List.mem_map.2 ⟨10, member, rfl⟩
  by_cases wide : 127 < c.toNat
  · exact absurd (octet_wide wide among) (by decide)
  · rw [octet_ascii (Nat.le_of_not_lt wide), List.mem_singleton] at among
    exact among.symm

theorem feed_mem_bytes_iff {text : Text} : 10 ∈ text.bytes ↔ '\n' ∈ text := by
  constructor
  · intro member
    obtain ⟨c, among, byte⟩ := List.mem_flatMap.1 member
    exact feed_of_mem byte ▸ among
  · exact fun member => List.mem_flatMap.2 ⟨'\n', member, by decide⟩

theorem head?_bytes_feed_iff {text : Text} :
    text.bytes.head? = some 10 ↔ text.head? = some '\n' := by
  cases text with
  | nil => simp
  | cons c cs =>
    constructor
    · intro head
      obtain ⟨first, more, same⟩ :=
        List.exists_cons_of_ne_nil (String.utf8EncodeChar_ne_nil (c := c))
      rw [bytes_cons, same] at head
      obtain rfl := Option.some.inj head
      have feed : c = '\n' := feed_of_mem (same ▸ List.mem_cons_self)
      rw [feed]
      rfl
    · intro head
      obtain rfl := Option.some.inj head
      rfl

theorem getElem?_cut {text : Text} {offset : Nat} (cut : (text.takeBytes offset).size = offset)
    (feed : (text.dropBytes offset).head? = some '\n') : text.bytes[offset]? = some 10 := by
  have whole : text.takeBytes offset ++ text.dropBytes offset = text :=
    splitAtByte_append offset text
  rw [← whole, bytes_append, List.getElem?_append_right (by rw [length_bytes, cut]), length_bytes,
    cut, Nat.sub_self, ← List.head?_eq_getElem?]
  exact head?_bytes_feed_iff.2 feed

/-- Where characters start a line, bytes do. -/
theorem startsLine_bytes {lead : Text} (starts : startsLine true lead = true) :
    Splice.StartsLine lead.bytes lead.size := by
  by_cases empty : lead = []
  · subst empty
    exact .inl rfl
  · obtain ⟨front, rfl⟩ := break_of_startsLine empty starts
    refine .inr ⟨front.size, by rw [size_append]; rfl, ?_⟩
    rw [bytes_append, ← length_bytes, List.getElem?_append_right (Nat.le_refl _), Nat.sub_self]
    rfl

theorem count_takeBytes (text : Text) (offset : Nat) :
    (text.takeBytes offset).count '\n' = (text.bytes.take offset).count 10 := by
  induction text generalizing offset with
  | nil => simp [takeBytes, splitAtByte]
  | cons c cs ih =>
    rw [takeBytes, splitAtByte]
    split
    · rename_i fits
      have whole : (String.utf8EncodeChar c).count 10 = if c == '\n' then 1 else 0 := by
        by_cases feed : c = '\n'
        · subst feed
          rfl
        · rw [List.count_eq_zero.2 (mt feed_of_mem feed), if_neg (by simpa using feed)]
      have rest := ih (offset - c.utf8Size)
      rw [takeBytes] at rest
      rw [bytes_cons, List.take_append, String.length_utf8EncodeChar,
        List.take_of_length_le (by simpa using fits), List.count_append, List.count_cons, whole,
        rest, Nat.add_comm]
    · rename_i partial'
      have none : 10 ∉ (String.utf8EncodeChar c).take offset := by
        intro member
        obtain rfl := feed_of_mem (List.mem_of_mem_take member)
        obtain rfl : offset = 0 := by
          have one : Char.utf8Size '\n' = 1 := rfl
          omega
        cases member
      rw [bytes_cons, List.take_append_of_le_length (by simpa using Nat.le_of_not_le partial'),
        List.count_eq_zero.2 none]
      rfl

/-- The line of an offset counts the line feeds before it. -/
theorem line_position (text : Text) (offset : Nat) :
    (text.position offset).line = (text.bytes.take offset).count 10 + 1 := by
  obtain ⟨_, _, -, -, -, -, scanned⟩ := LineIndex.exists_last_line (text.takeBytes offset)
  rw [position_takeBytes, scanned, LineIndex.length_startsFrom, count_takeBytes]

theorem line_eq_iff_of_le {text : Text} {a b : Nat} (le : a ≤ b) :
    (text.position a).line = (text.position b).line ↔ 10 ∉ (text.bytes.take b).drop a := by
  have parts := List.take_append_drop a (text.bytes.take b)
  rw [List.take_take, Nat.min_eq_left le] at parts
  rw [line_position, line_position, ← parts, List.count_append, ← List.count_eq_zero, parts]
  omega

def NoFeedBetween (text : Text) (a b : Nat) : Prop :=
  10 ∉ (text.bytes.take (max a b)).drop (min a b)

/-- Two offsets are on one line exactly if no line feed stands between them. -/
theorem line_eq_iff {text : Text} {a b : Nat} :
    (text.position a).line = (text.position b).line ↔ text.NoFeedBetween a b := by
  unfold NoFeedBetween
  rcases Nat.le_total a b with le | le
  · rw [Nat.max_eq_right le, Nat.min_eq_left le, line_eq_iff_of_le le]
  · rw [Nat.max_eq_left le, Nat.min_eq_right le, eq_comm, line_eq_iff_of_le le]

theorem line_lt_of_feed {text : Text} {a b : Nat} (feed : text.bytes[a]? = some 10) (lt : a < b) :
    (text.position a).line < (text.position b).line := by
  have further : (text.bytes.take (a + 1)).count 10 ≤ (text.bytes.take b).count 10 :=
    (List.take_prefix_take_left lt).sublist.count_le 10
  rw [List.take_add_one, feed, List.count_append] at further
  rw [line_position, line_position]
  exact Nat.succ_lt_succ further

end Retag.Text
