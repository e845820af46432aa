import Retag.Proofs.Splice.Between

/-! A line that is put into a text, and where its start is traced to. If a line feed follows, both
texts have it there, so the region starts behind it and the new line is traced to the start of the
line that it pushed down. Otherwise the region starts with the line at whose end the new one was put
in, and ends where the two lines begin to end alike. -/
namespace Retag.Splice

theorem trace_single (splice : Splice) (offset : Nat) : trace [splice] offset =
    if offset < splice.start then offset
    else if offset - splice.start < splice.size then
      splice.start + min (offset - splice.start) (splice.stop - splice.start)
    else splice.stop + (offset - (splice.start + splice.size)) := by
  simp [trace, traceFrom]

theorem trace_of_le_start {splice : Splice} {offset : Nat} (le : offset ≤ splice.start)
    (filled : 0 < splice.size) : trace [splice] offset = offset := by
  rw [trace_single]
  split
  · rfl
  · rw [if_pos (by omega)]
    omega

section
variable {front inserted rest : List UInt8} {splice : Splice}
  (delimits : Delimits splice (front ++ rest) (front ++ 10 :: inserted ++ rest))
include delimits

theorem Delimits.size_inserted :
    splice.size = splice.stop - splice.start + inserted.length + 1 := by
  have forward := delimits.forward
  have inside := delimits.inside
  have inside' := delimits.inside'
  have same := delimits.rest
  simp only [List.length_append, List.length_cons] at inside inside' same
  omega

/-- No line that starts up to the end of the front is left out of what the texts share. -/
theorem Delimits.le_start {offset : Nat} (within : offset ≤ front.length)
    (starts : StartsLine front offset) : offset ≤ splice.start := by
  have taken : (front.take offset).length = offset := by
    rw [List.length_take]
    omega
  have lead (more : List UInt8) : front.take offset <+: front ++ more :=
    (List.take_prefix _ _).trans (List.prefix_append _ _)
  have latest := delimits.latest _ (lead rest) (by simpa using lead (10 :: inserted ++ rest))
  rw [taken] at latest
  exact latest ((startsLine_lead (List.prefix_append _ _) within).2 starts)

theorem Delimits.start_of_break (feed : rest.head? = some 10) :
    front.length + 1 ≤ splice.start := by
  obtain ⟨tail, rfl⟩ := List.head?_eq_some_iff.1 feed
  have latest := delimits.latest (front ++ [10]) ⟨tail, by simp⟩ ⟨inserted ++ 10 :: tail, by simp⟩
  rw [List.length_append, List.length_singleton] at latest
  exact latest (.inr ⟨front.length, rfl, by simp⟩)

theorem Delimits.start_le_front (noFeed : rest.head? ≠ some 10) : splice.start ≤ front.length := by
  apply Nat.le_of_not_lt
  intro beyond
  have same := congrArg (·[front.length]?) delimits.front
  simp only [List.getElem?_take, if_pos beyond] at same
  apply noFeed
  rw [List.head?_eq_getElem?]
  simpa [List.getElem?_append_right] using same

/-- The front ends with the line that the region starts with. -/
theorem Delimits.not_break : 10 ∉ front.drop splice.start := by
  intro member
  obtain ⟨place, found⟩ := List.mem_iff_getElem?.1 member
  rw [List.getElem?_drop] at found
  obtain ⟨inside, -⟩ := List.getElem?_eq_some_iff.1 found
  have reached := delimits.le_start inside (.inr ⟨_, rfl, found⟩)
  omega

section
variable (noFeed : rest.head? ≠ some 10)
include noFeed

/-- Endings of the old line and of the new one are endings of the texts from the start on. -/
theorem Delimits.longest_line {ending : List UInt8} (old : ending <:+ front.drop splice.start)
    (new : ending <:+ inserted) : splice.stop + ending.length ≤ front.length := by
  have within := delimits.start_le_front noFeed
  have behind {a b : List UInt8} (ends : a <:+ b) : a ++ rest <:+ b ++ rest := by
    obtain ⟨before, rfl⟩ := ends
    exact ⟨before, by simp⟩
  have longest := delimits.longest (ending ++ rest)
  rw [List.append_assoc, List.drop_append_of_le_length within, List.drop_append_of_le_length within,
    ← List.append_assoc, List.length_append, List.length_append] at longest
  have reached := longest (behind old)
    (behind (new.trans ((List.suffix_cons _ _).trans (List.suffix_append _ _))))
  omega

theorem Delimits.stop_le_front : splice.stop ≤ front.length :=
  delimits.longest_line noFeed List.nil_suffix List.nil_suffix

theorem Delimits.front_ends : front.drop splice.stop <:+ front ++ 10 :: inserted := by
  have back := delimits.back
  rw [List.drop_append_of_le_length (delimits.stop_le_front noFeed)] at back
  obtain ⟨before, whole⟩ := List.drop_suffix (splice.start + splice.size)
    (front ++ 10 :: inserted ++ rest)
  rw [← back, ← List.append_assoc] at whole
  exact ⟨before, List.append_cancel_right whole⟩

/-- The region ends where its line begins to end like the new one. -/
theorem Delimits.stop_common :
    splice.stop + commonLength (front.drop splice.start).reverse inserted.reverse =
      front.length := by
  have within := delimits.stop_le_front noFeed
  have ends := delimits.front_ends noFeed
  have line : front.drop splice.stop <:+ front.drop splice.start :=
    List.drop_suffix_drop_left _ delimits.forward
  apply Nat.le_antisymm
  · have counted := commonLength_le (front.drop splice.start).reverse inserted.reverse
    have shared := drop_commonLength (a := front.drop splice.start) (b := inserted) (Nat.le_refl _)
    have new := List.drop_suffix
      (inserted.length - commonLength (front.drop splice.start).reverse inserted.reverse) inserted
    have longest := delimits.longest_line noFeed (List.drop_suffix _ _) (shared ▸ new)
    rw [List.length_drop] at longest
    rw [List.length_reverse, List.length_reverse] at counted
    omega
  · have short : (front.drop splice.stop).length ≤ inserted.length := by
      apply Nat.le_of_not_lt
      intro longer
      have whole : 10 :: inserted <:+ front.drop splice.stop :=
        List.suffix_of_suffix_length_le (List.suffix_append _ _) ends longer
      exact delimits.not_break (line.mem (whole.mem List.mem_cons_self))
    have shared := length_le_commonLength_reverse line
      (List.suffix_of_suffix_length_le ends ((List.suffix_cons _ _).trans (List.suffix_append _ _))
        short)
    rw [List.length_drop] at shared
    omega

/-- The region starts with the last line of the front. -/
theorem Delimits.drop_start {lead line : List UInt8} (whole : front = lead ++ line)
    (starts : StartsLine lead lead.length) (noBreak : 10 ∉ line) :
    front.drop splice.start = line := by
  have within : lead.length ≤ front.length := by simp [whole]
  have reached := delimits.le_start within
    ((startsLine_lead ⟨line, whole.symm⟩ (Nat.le_refl _)).2 starts)
  have same : splice.start = lead.length := by
    apply Nat.le_antisymm _ reached
    rcases (startsLine_lead (List.prefix_append _ _) (delimits.start_le_front noFeed)).1
      delimits.startsLine with zero | ⟨last, place, feed⟩
    · omega
    · apply Nat.le_of_not_lt
      intro beyond
      rw [whole, List.getElem?_append_right (by omega)] at feed
      exact noBreak (List.mem_of_getElem? feed)
  rw [same, whole, List.drop_left]

theorem Delimits.trace_behind : trace [splice] (front.length + 1) = splice.stop := by
  have forward := delimits.forward
  have within := delimits.stop_le_front noFeed
  have size := delimits.size_inserted
  have shared := delimits.stop_common noFeed
  have counted := commonLength_le (front.drop splice.start).reverse inserted.reverse
  rw [List.length_reverse, List.length_reverse] at counted
  rw [trace_single, if_neg (by omega)]
  split <;> omega

/-- Without a line feed, the new line is traced into the one before it: to where that one begins to
end like the new line. -/
theorem Delimits.trace_behind_line {lead line : List UInt8} (whole : front = lead ++ line)
    (starts : StartsLine lead lead.length) (noBreak : 10 ∉ line) :
    trace [splice] (front.length + 1) + commonLength line.reverse inserted.reverse =
      front.length := by
  rw [delimits.trace_behind noFeed, ← delimits.drop_start noFeed whole starts noBreak]
  exact delimits.stop_common noFeed

end

theorem Delimits.trace_behind_break (feed : rest.head? = some 10) :
    trace [splice] (front.length + 1) = front.length + 1 := by
  have size := delimits.size_inserted
  exact trace_of_le_start (delimits.start_of_break feed) (by omega)

/-- What starts a line up to the end of the front stays in its place. -/
theorem Delimits.trace_line_start {offset : Nat} (within : offset ≤ front.length)
    (starts : StartsLine front offset) : trace [splice] offset = offset := by
  have size := delimits.size_inserted
  exact trace_of_le_start (delimits.le_start within starts) (by omega)

end
end Retag.Splice
