import Mathlib.Data.List.Induction
import Mathlib.Order.Bounds.Defs
import Retag.Proofs.Text.LineMatch
import Retag.Proofs.Text.Offset
import Retag.Text.Position

/-! The line index against a plain scan of the text. The lines that start before an offset come first
in the index, and the search by halving ends at the last of them. Main statement: the position of an
offset counts the line feeds before it and the characters behind the last of them, where an offset
inside a character is that of its start; so positions are in the order of the offsets. -/
namespace Retag

namespace Position

/-- An earlier line, or the same line and an earlier column. -/
def Precedes (a b : Position) : Prop := a.line < b.line ∨ (a.line = b.line ∧ a.column < b.column)

theorem Precedes.trans {a b c : Position} (first : a.Precedes b) (second : b.Precedes c) :
    a.Precedes c := by
  unfold Precedes at *
  omega

theorem not_precedes (position : Position) : ¬position.Precedes position := by
  unfold Precedes
  omega

theorem precedes_advance (position : Position) (c : Char) : position.Precedes (position.advance c) := by
  unfold advance
  split
  · exact .inl (Nat.lt_succ_self _)
  · exact .inr ⟨rfl, Nat.lt_succ_self _⟩

/-- Every further character moves the position on. -/
theorem precedes_foldl {text : Text} (filled : text ≠ []) (position : Position) :
    position.Precedes (text.foldl advance position) := by
  induction text generalizing position with
  | nil => exact absurd rfl filled
  | cons c cs ih =>
    have step := precedes_advance position c
    rw [List.foldl_cons]
    by_cases last : cs = []
    · rwa [last]
    · exact step.trans (ih last _)

theorem precedes_after (before : Text) {more : Text} (filled : more ≠ []) :
    (after before).Precedes (after (before ++ more)) := by
  rw [after, after, List.foldl_append]
  exact precedes_foldl filled _

end Position

namespace LineIndex

/-- Halving ends at the last start that is at most the offset, if these come first. -/
theorem search_eq {starts : Array Nat} {offset low high last : Nat} (above : low ≤ last)
    (below : last ≤ high) (reached : ∀ i ≤ last, starts.getD i 0 ≤ offset)
    (ahead : ∀ i, last < i → i ≤ high → offset < starts.getD i 0) :
    search starts offset low high = last := by
  fun_induction search starts offset low high with
  | case1 low high open' middle early ih =>
    have before : middle ≤ last := by
      apply Nat.le_of_not_lt
      intro beyond
      have late := ahead middle beyond (by omega)
      omega
    exact ih before below ahead
  | case2 low high open' middle late ih =>
    have beyond : last < middle := by
      apply Nat.lt_of_not_le
      intro before
      exact late (reached middle before)
    apply ih above (by omega)
    intro i further within
    exact ahead i further (by omega)
  | case3 low high closed => omega

theorem startsFrom_append (offset : Nat) (front rest : Text) :
    startsFrom offset (front ++ rest) =
      startsFrom offset front ++ startsFrom (offset + front.size) rest := by
  induction front generalizing offset with
  | nil => rfl
  | cons c cs ih =>
    rw [List.cons_append, startsFrom, startsFrom]
    simp only [ih, Text.size_cons, Nat.add_assoc]
    split <;> rfl

theorem startsFrom_bounds {offset start : Nat} {text : Text}
    (member : start ∈ startsFrom offset text) : offset < start ∧ start ≤ offset + text.size := by
  induction text generalizing offset with
  | nil => cases member
  | cons c cs ih =>
    have positive := c.utf8Size_pos
    have further (later : start ∈ startsFrom (offset + c.utf8Size) cs) :
        offset < start ∧ start ≤ offset + Text.size (c :: cs) := by
      have bounds := ih later
      rw [Text.size_cons]
      omega
    rw [startsFrom] at member
    split at member
    · rcases List.mem_cons.1 member with rfl | later
      · rw [Text.size_cons]
        omega
      · exact further later
    · exact further member

theorem length_startsFrom (offset : Nat) (text : Text) :
    (startsFrom offset text).length = text.count '\n' := by
  induction text generalizing offset with
  | nil => rfl
  | cons c cs ih =>
    rw [startsFrom, List.count_cons]
    split <;> simp [ih]

/-- The last line of a text starts where the index says, and a scan of the text ends as many
characters behind that. -/
theorem exists_last_line (text : Text) :
    ∃ lead line, text = lead ++ line ∧ Text.startsLine true lead = true ∧ '\n' ∉ line ∧
      (0 :: startsFrom 0 text).getLast? = some (Text.size lead) ∧
      Position.after text = ⟨(startsFrom 0 text).length + 1, line.length + 1⟩ := by
  induction text using List.reverseRecOn with
  | nil => exact ⟨[], [], rfl, rfl, by simp, rfl, rfl⟩
  | append_singleton text c ih =>
    obtain ⟨lead, line, whole, starts, noBreak, last, scanned⟩ := ih
    have scan : Position.after (text ++ [c]) = (Position.after text).advance c := by
      simp [Position.after]
    rw [scan, scanned, startsFrom_append, startsFrom, startsFrom, Position.advance]
    by_cases feed : c = '\n'
    · refine ⟨text ++ [c], [], by simp, ?_, by simp, ?_, ?_⟩
      · rw [Text.startsLine_concat, feed]
        rfl
      · simp [feed, List.getLast?_cons]
      · simp [feed]
    · refine ⟨lead, line ++ [c], by simp [whole], starts, ?_, ?_, ?_⟩
      · simpa [noBreak] using Ne.symm feed
      · simpa [feed] using last
      · simp [feed]

section
variable (before rest : Text)

theorem ofText_append : (ofText (before ++ rest)).starts =
    ((0 :: startsFrom 0 before) ++ startsFrom before.size rest).toArray := by
  rw [ofText, startsFrom_append, Nat.zero_add, List.cons_append]

theorem getD_starts (i : Nat) : (ofText (before ++ rest)).starts.getD i 0 =
    ((0 :: startsFrom 0 before) ++ startsFrom before.size rest)[i]?.getD 0 := by
  rw [ofText_append]
  simp

/-- The lines of the text before the offset start at most there. -/
theorem starts_reached {i : Nat} (le : i ≤ (startsFrom 0 before).length) :
    (ofText (before ++ rest)).starts.getD i 0 ≤ before.size := by
  have inside : i < (0 :: startsFrom 0 before).length := Nat.lt_succ_of_le le
  rw [getD_starts, List.getElem?_append_left inside, List.getElem?_eq_getElem inside,
    Option.getD_some]
  rcases List.mem_cons.1 (List.getElem_mem inside) with zero | member
  · omega
  · have bounds := startsFrom_bounds member
    omega

/-- The lines of the text behind the offset start after it. -/
theorem starts_ahead {i : Nat} (lt : (startsFrom 0 before).length < i)
    (le : i ≤ (ofText (before ++ rest)).starts.size - 1) :
    before.size < (ofText (before ++ rest)).starts.getD i 0 := by
  have beyond : (0 :: startsFrom 0 before).length ≤ i := lt
  have inside : i - (0 :: startsFrom 0 before).length < (startsFrom before.size rest).length := by
    simp only [ofText_append, List.size_toArray, List.length_append] at le
    omega
  rw [getD_starts, List.getElem?_append_right beyond, List.getElem?_eq_getElem inside,
    Option.getD_some]
  exact (startsFrom_bounds (List.getElem_mem inside)).1

end

end LineIndex

theorem Text.position_size (before rest : Text) :
    Text.position (before ++ rest) before.size = Position.after before := by
  obtain ⟨lead, line, whole, -, -, last, scanned⟩ := LineIndex.exists_last_line before
  have found : LineIndex.search (LineIndex.ofText (before ++ rest)).starts before.size 0
      ((LineIndex.ofText (before ++ rest)).starts.size - 1) =
        (LineIndex.startsFrom 0 before).length := by
    apply LineIndex.search_eq (Nat.zero_le _)
    · rw [LineIndex.ofText_append]
      simp
    · exact fun i => LineIndex.starts_reached before rest
    · exact fun i => LineIndex.starts_ahead before rest
  have start : (LineIndex.ofText (before ++ rest)).starts.getD
      (LineIndex.startsFrom 0 before).length 0 = lead.size := by
    have inside : (LineIndex.startsFrom 0 before).length <
        (0 :: LineIndex.startsFrom 0 before).length := Nat.lt_succ_self _
    rw [List.getLast?_eq_getElem?] at last
    rw [LineIndex.getD_starts, List.getElem?_append_left inside]
    exact congrArg (Option.getD · 0) last
  have taken : (LineIndex.ofText (before ++ rest)).text.takeBytes before.size = before :=
    Text.takeBytes_size before rest
  have dropped : before.dropBytes lead.size = line := by
    rw [whole, Text.dropBytes_size]
  rw [Text.position, LineIndex.position, scanned]
  simp only [taken, found, start, dropped]

/-- The byte offset is an end of the text or falls between two of its characters. -/
def Text.IsBoundary (text : Text) (offset : Nat) : Prop :=
  ∃ before rest, text = before ++ rest ∧ offset = before.size

/-- A cut is made at the last boundary up to the offset. -/
theorem Text.isGreatest_takeBytes (text : Text) (offset : Nat) :
    IsGreatest {o | o ≤ min offset text.size ∧ text.IsBoundary o} (text.takeBytes offset).size := by
  have whole : text = text.takeBytes offset ++ text.dropBytes offset :=
    (splitAtByte_append offset text).symm
  refine ⟨⟨Nat.le_min.2 ⟨size_takeBytes_le offset text, ?_⟩, _, _, whole, rfl⟩, ?_⟩
  · nth_rewrite 2 [whole]
    rw [size_append]
    omega
  · rintro o ⟨within, before, rest, rfl, rfl⟩
    exact size_le_takeBytes rest (Nat.le_trans within (Nat.min_le_left _ _))

/-- An offset has the position of the boundary at or before it. -/
theorem Text.position_takeBytes (text : Text) (offset : Nat) :
    text.position offset = Position.after (text.takeBytes offset) := by
  have cut := position_size (text.takeBytes offset) (text.dropBytes offset)
  have whole : text.takeBytes offset ++ text.dropBytes offset = text := splitAtByte_append offset text
  have same : text.takeBytes (text.takeBytes offset).size = text.takeBytes offset := by
    have taken := takeBytes_size (text.takeBytes offset) (text.dropBytes offset)
    rwa [whole] at taken
  rw [whole] at cut
  rw [← cut, position, position, LineIndex.position, LineIndex.position]
  simp only [LineIndex.ofText, same]

theorem Text.precedes_of_boundaries {text : Text} {a b : Nat} (first : text.IsBoundary a)
    (second : text.IsBoundary b) (lt : a < b) : (text.position a).Precedes (text.position b) := by
  obtain ⟨before, rest, rfl, rfl⟩ := first
  obtain ⟨before', rest', same, rfl⟩ := second
  obtain ⟨more, rfl, rfl⟩ := append_of_size_le same (Nat.le_of_lt lt)
  have filled : more ≠ [] := by
    rintro rfl
    simp at lt
  have further := position_size (before ++ more) rest'
  rw [List.append_assoc] at further
  rw [position_size, further]
  exact Position.precedes_after before filled

/-- Looking an offset up is the same as scanning the text before it, once it is lowered to a boundary;
and the positions of boundaries are in their order, so no two of them are the same. -/
theorem LineIndex.position_scans (text : Text) :
    (∀ offset, ∃ lead line rest, text = lead ++ line ++ rest ∧
      IsGreatest {o | o ≤ min offset text.size ∧ text.IsBoundary o} (lead ++ line).size ∧
      Text.startsLine true lead = true ∧ '\n' ∉ line ∧
      (ofText text).position offset = ⟨1 + (lead ++ line).count '\n', 1 + line.length⟩) ∧
    ∀ a b, text.IsBoundary a → text.IsBoundary b →
      (a < b → ((ofText text).position a).Precedes ((ofText text).position b)) ∧
      ((ofText text).position a = (ofText text).position b → a = b) := by
  constructor
  · intro offset
    obtain ⟨lead, line, before, starts, noBreak, -, scanned⟩ :=
      exists_last_line (text.takeBytes offset)
    have whole : text.takeBytes offset ++ text.dropBytes offset = text :=
      Text.splitAtByte_append offset text
    have greatest := text.isGreatest_takeBytes offset
    have position : (ofText text).position offset = _ := text.position_takeBytes offset
    rw [scanned, length_startsFrom] at position
    rw [before] at whole greatest position
    refine ⟨lead, line, text.dropBytes offset, whole.symm, greatest, starts, noBreak, ?_⟩
    rw [position, Nat.add_comm, Nat.add_comm line.length]
  · intro a b first second
    refine ⟨Text.precedes_of_boundaries first second, fun same => ?_⟩
    have same : text.position a = text.position b := same
    rcases Nat.lt_trichotomy a b with lt | eq | gt
    · exact absurd (Text.precedes_of_boundaries first second lt) (same ▸ Position.not_precedes _)
    · exact eq
    · exact absurd (Text.precedes_of_boundaries second first gt) (same ▸ Position.not_precedes _)

/-- The offset 1 is inside a character, and a line feed follows that character. -/
theorem LineIndex.position_scans_wide :
    let text : Text := "é\nb".toList
    text.IsBoundary 2 ∧ text.IsBoundary 3 ∧
      ((ofText text).position 2).Precedes ((ofText text).position 3) ∧
      (ofText text).position 1 = ⟨1, 1⟩ ∧ (ofText text).position 3 = ⟨2, 1⟩ := by
  intro text
  have first : text.IsBoundary 2 := ⟨['é'], ['\n', 'b'], rfl, rfl⟩
  have second : text.IsBoundary 3 := ⟨['é', '\n'], ['b'], rfl, rfl⟩
  exact ⟨first, second, ((position_scans text).2 2 3 first second).1 (by decide), by decide +kernel,
    by decide +kernel⟩

end Retag
