import Mathlib.Data.List.Induction
import Retag.Proofs.Splice.Trace
import Retag.Proofs.Text.Offset

/-! The one region in which two texts differ. Counting what the texts share gives the most that they
share, at the front and at the end, and the region starts with the last line that starts in what they
share at the front. Main statement: this fixes the region, and no subtraction that finds it goes below
zero, however much the shared parts overlap. -/
namespace Retag.Splice

def StartsLine (bytes : List UInt8) (offset : Nat) : Prop :=
  offset = 0 ∨ ∃ last, offset = last + 1 ∧ bytes[last]? = some 10

/-- The splice takes one text to the other. It starts with the last line that both texts reach
unchanged, and stops where the longest ending begins that they share from there on. -/
structure Delimits (splice : Splice) (before after : List UInt8) : Prop where
  forward : splice.start ≤ splice.stop
  inside : splice.stop ≤ before.length
  inside' : splice.start + splice.size ≤ after.length
  startsLine : StartsLine before splice.start
  front : before.take splice.start = after.take splice.start
  back : before.drop splice.stop = after.drop (splice.start + splice.size)
  latest : ∀ lead, lead <+: before → lead <+: after → StartsLine before lead.length →
    lead.length ≤ splice.start
  longest : ∀ ending, ending <:+ before.drop splice.start → ending <:+ after.drop splice.start →
    splice.stop + ending.length ≤ before.length

def changeStart (before after : List UInt8) : Nat :=
  lineStart (before.take (commonLength before after))

/-- The search for the region with subtractions that fail below zero. -/
def betweenBytes? (before after : List UInt8) : Option (Option Splice) :=
  if before = after then some none
  else do
    let start := changeStart before after
    let most ← Nat.psub (min before.length after.length) start
    let kept := min most (commonLength before.reverse after.reverse)
    let stop ← Nat.psub before.length kept
    let changed ← Nat.psub after.length start
    let size ← Nat.psub changed kept
    return some ⟨start, stop, size⟩

section
variable {α : Type} [DecidableEq α]

theorem take_commonLength (a b : List α) : a.take (commonLength a b) = b.take (commonLength a b) := by
  fun_induction commonLength a b with
  | case1 _ as bs ih => rw [List.take_succ_cons, ih, List.take_succ_cons]
  | case2 => rfl
  | case3 => rfl

theorem commonLength_le (a b : List α) : commonLength a b ≤ min a.length b.length := by
  fun_induction commonLength a b with
  | case1 _ as bs ih =>
    simp only [List.length_cons]
    omega
  | case2 => exact Nat.zero_le _
  | case3 => exact Nat.zero_le _

theorem length_le_commonLength {lead a b : List α} (first : lead <+: a) (second : lead <+: b) :
    lead.length ≤ commonLength a b := by
  induction lead generalizing a b with
  | nil => exact Nat.zero_le _
  | cons c cs ih =>
    obtain ⟨as, rfl, within⟩ := List.cons_prefix_iff.1 first
    obtain ⟨bs, rfl, within'⟩ := List.cons_prefix_iff.1 second
    rw [commonLength, if_pos rfl]
    exact Nat.succ_le_succ (ih within within')

/-- What two lists share at the end, counted from there. -/
theorem drop_commonLength {a b : List α} {count : Nat}
    (within : count ≤ commonLength a.reverse b.reverse) :
    a.drop (a.length - count) = b.drop (b.length - count) := by
  have whole := congrArg (List.take count) (take_commonLength a.reverse b.reverse)
  rw [List.take_take, List.take_take, Nat.min_eq_left within, List.take_reverse,
    List.take_reverse] at whole
  exact List.reverse_inj.1 whole

theorem length_le_commonLength_reverse {ending a b : List α} (first : ending <:+ a)
    (second : ending <:+ b) : ending.length ≤ commonLength a.reverse b.reverse := by
  rw [← List.length_reverse]
  exact length_le_commonLength (List.reverse_prefix.2 first) (List.reverse_prefix.2 second)

end

/-! ### The start of the last line -/

theorem lineStart_concat (bytes : List UInt8) (byte : UInt8) :
    lineStart (bytes ++ [byte]) = if byte = 10 then bytes.length + 1 else lineStart bytes := by
  by_cases feed : byte = 10 <;> simp [lineStart, feed]

theorem lineStart_le (bytes : List UInt8) : lineStart bytes ≤ bytes.length := by
  have suffix := (List.dropWhile_suffix (l := bytes.reverse) (· != 10)).length_le
  rwa [List.length_reverse] at suffix

theorem startsLine_lead {lead bytes : List UInt8} {offset : Nat} (within : lead <+: bytes)
    (reached : offset ≤ lead.length) : StartsLine bytes offset ↔ StartsLine lead offset := by
  obtain ⟨rest, rfl⟩ := within
  refine or_congr Iff.rfl (exists_congr fun last => and_congr_right fun place => ?_)
  rw [List.getElem?_append_left (by omega)]

theorem startsLine_lineStart (bytes : List UInt8) : StartsLine bytes (lineStart bytes) := by
  induction bytes using List.reverseRecOn with
  | nil => exact .inl rfl
  | append_singleton bytes byte ih =>
    rw [lineStart_concat]
    split
    · rename_i feed
      exact .inr ⟨bytes.length, rfl, by simp [feed]⟩
    · exact (startsLine_lead (List.prefix_append _ _) (lineStart_le bytes)).2 ih

theorem le_lineStart {bytes : List UInt8} {offset : Nat} (starts : StartsLine bytes offset)
    (within : offset ≤ bytes.length) : offset ≤ lineStart bytes := by
  induction bytes using List.reverseRecOn with
  | nil => exact Nat.le_trans within (Nat.zero_le _)
  | append_singleton bytes byte ih =>
    rw [lineStart_concat]
    rw [List.length_append, List.length_singleton] at within
    split
    · exact within
    · rename_i other
      have reached : offset ≤ bytes.length := by
        apply Nat.le_of_not_lt
        intro beyond
        rcases starts with zero | ⟨last, place, feed⟩
        · omega
        · obtain rfl : last = bytes.length := by omega
          simp [other] at feed
      exact ih ((startsLine_lead (List.prefix_append _ _) reached).1 starts) reached

/-! ### The region -/

section
variable {before after : List UInt8} {splice splice' : Splice}

theorem Delimits.start_le (delimits : Delimits splice before after)
    (delimits' : Delimits splice' before after) : splice.start ≤ splice'.start := by
  have reached : (before.take splice.start).length = splice.start := by
    rw [List.length_take]
    have := delimits.forward
    have := delimits.inside
    omega
  have same := delimits'.latest (before.take splice.start) (List.take_prefix _ _)
    (delimits.front ▸ List.take_prefix _ _)
  rw [reached] at same
  exact same delimits.startsLine

theorem Delimits.stop_le (delimits : Delimits splice before after)
    (delimits' : Delimits splice' before after) (start : splice.start = splice'.start) :
    splice'.stop ≤ splice.stop := by
  have ending : before.drop splice.stop <:+ before.drop splice'.start :=
    List.drop_suffix_drop_left _ (start ▸ delimits.forward)
  have ending' : before.drop splice.stop <:+ after.drop splice'.start := by
    rw [delimits.back]
    exact List.drop_suffix_drop_left _ (start ▸ Nat.le_add_right _ _)
  have longest := delimits'.longest _ ending ending'
  have := delimits.inside
  rw [List.length_drop] at longest
  omega

/-- What follows the region is as long in both texts. -/
theorem Delimits.rest (delimits : Delimits splice before after) :
    before.length - splice.stop = after.length - (splice.start + splice.size) := by
  have lengths := congrArg List.length delimits.back
  rwa [List.length_drop, List.length_drop] at lengths

theorem Delimits.unique (delimits : Delimits splice before after)
    (delimits' : Delimits splice' before after) : splice = splice' := by
  have start : splice.start = splice'.start :=
    Nat.le_antisymm (delimits.start_le delimits') (delimits'.start_le delimits)
  have stop : splice.stop = splice'.stop :=
    Nat.le_antisymm (delimits'.stop_le delimits start.symm) (delimits.stop_le delimits' start)
  have size : splice.size = splice'.size := by
    have rest := delimits.rest
    have rest' := delimits'.rest
    have := delimits.inside'
    have := delimits'.inside'
    omega
  cases splice
  cases splice'
  simp_all

/-- All that is outside the region stays. -/
theorem Delimits.spliced (delimits : Delimits splice before after) :
    Spliced 0 [splice] before after := by
  have forward := delimits.forward
  have inside := delimits.inside
  have inside' := delimits.inside'
  have old : before.take splice.start ++ (before.drop splice.start).take (splice.stop - splice.start)
      ++ before.drop splice.stop = before := by
    rw [List.append_assoc, ← Nat.add_sub_cancel' forward, ← List.drop_drop,
      Nat.add_sub_cancel_left, List.take_append_drop, List.take_append_drop]
  have new : before.take splice.start ++ (after.drop splice.start).take splice.size
      ++ before.drop splice.stop = after := by
    rw [delimits.front, delimits.back, List.append_assoc, ← List.drop_drop, List.take_append_drop,
      List.take_append_drop]
  have start : splice.start = 0 + (before.take splice.start).length := by
    rw [List.length_take]
    omega
  have stop : splice.stop = splice.start +
      ((before.drop splice.start).take (splice.stop - splice.start)).length := by
    rw [List.length_take, List.length_drop]
    omega
  have size : splice.size = ((after.drop splice.start).take splice.size).length := by
    rw [List.length_take, List.length_drop]
    omega
  have rest : Spliced splice.stop [] (before.drop splice.stop) (before.drop splice.stop) := .done
  have made := Spliced.next start stop size rest
  rwa [old, new] at made

end

section
variable {before after : List UInt8}

theorem le_changeStart {lead : List UInt8} (first : lead <+: before) (second : lead <+: after)
    (starts : StartsLine before lead.length) : lead.length ≤ changeStart before after := by
  have taken : lead <+: before.take (commonLength before after) :=
    List.prefix_take_iff.2 ⟨first, length_le_commonLength first second⟩
  exact le_lineStart ((startsLine_lead (List.take_prefix _ _) taken.length_le).1 starts)
    taken.length_le

theorem changeStart_shared : changeStart before after ≤ commonLength before after :=
  Nat.le_trans (lineStart_le _) (List.length_take_le _ _)

theorem changeStart_le : changeStart before after ≤ min before.length after.length :=
  Nat.le_trans changeStart_shared (commonLength_le before after)

theorem take_changeStart :
    before.take (changeStart before after) = after.take (changeStart before after) := by
  have front := congrArg (List.take (changeStart before after)) (take_commonLength before after)
  rwa [List.take_take, List.take_take, Nat.min_eq_left changeStart_shared] at front

theorem startsLine_changeStart : StartsLine before (changeStart before after) :=
  (startsLine_lead (List.take_prefix _ before) (lineStart_le _)).2 (startsLine_lineStart _)

/-- From a line that both texts reach unchanged, the longest ending that they share delimits the
region. -/
theorem delimits_of_start {start kept : Nat} (within : start ≤ min before.length after.length)
    (starts : StartsLine before start) (front : before.take start = after.take start)
    (latest : ∀ lead, lead <+: before → lead <+: after → StartsLine before lead.length →
      lead.length ≤ start)
    (most : kept = min (min before.length after.length - start)
      (commonLength before.reverse after.reverse)) :
    Delimits ⟨start, before.length - kept, after.length - start - kept⟩ before after where
  forward := by
    show start ≤ before.length - kept
    omega
  inside := Nat.sub_le _ _
  inside' := by
    show start + (after.length - start - kept) ≤ after.length
    omega
  startsLine := starts
  front := front
  back := by
    have place : start + (after.length - start - kept) = after.length - kept := by omega
    show before.drop (before.length - kept) = after.drop (start + (after.length - start - kept))
    rw [place]
    exact drop_commonLength (by omega)
  latest := latest
  longest := by
    intro ending (first : ending <:+ before.drop start) (second : ending <:+ after.drop start)
    have bound := first.length_le
    have bound' := second.length_le
    have shared := length_le_commonLength_reverse (first.trans (List.drop_suffix _ _))
      (second.trans (List.drop_suffix _ _))
    rw [List.length_drop] at bound bound'
    show before.length - kept + ending.length ≤ before.length
    omega

theorem delimits_of_betweenBytes {splice : Splice}
    (found : betweenBytes before after = some splice) : Delimits splice before after := by
  unfold betweenBytes at found
  split at found
  · cases found
  · obtain rfl := Option.some.inj found
    exact delimits_of_start changeStart_le startsLine_changeStart take_changeStart
      (fun _ => le_changeStart) rfl

theorem betweenBytes_eq_none_iff : betweenBytes before after = none ↔ before = after := by
  unfold betweenBytes
  split <;> simp [*]

theorem betweenBytes_eq_some_iff {splice : Splice} :
    betweenBytes before after = some splice ↔ before ≠ after ∧ Delimits splice before after := by
  constructor
  · intro found
    refine ⟨fun same => ?_, delimits_of_betweenBytes found⟩
    rw [betweenBytes_eq_none_iff.2 same] at found
    cases found
  · rintro ⟨differ, delimits⟩
    obtain ⟨other, found⟩ := Option.ne_none_iff_exists'.1 (mt betweenBytes_eq_none_iff.1 differ)
    rw [found, (delimits_of_betweenBytes found).unique delimits]

/-- The shared parts are counted apart from each other, so the subtractions are safe. -/
theorem betweenBytes?_eq : betweenBytes? before after = some (betweenBytes before after) := by
  unfold betweenBytes? betweenBytes
  split
  · rfl
  · have within : changeStart before after ≤ min before.length after.length := changeStart_le
    have kept := Nat.min_le_left (min before.length after.length - changeStart before after)
      (commonLength before.reverse after.reverse)
    simp only [Nat.psub_eq_sub within, Option.bind_eq_bind, Option.bind_some]
    rw [Nat.psub_eq_sub (by omega), Nat.psub_eq_sub (by omega)]
    simp only [Option.bind_some]
    rw [Nat.psub_eq_sub (by omega)]
    rfl

end

/-- Two texts have no region in which they differ exactly if they are the same; otherwise it is the
one that their bytes delimit, and replacing it makes the one text from the other. -/
theorem between_delimits (before after : Text) :
    betweenBytes? before.bytes after.bytes = some (between before after) ∧
    (between before after = none ↔ before = after) ∧
    (∀ splice, between before after = some splice ↔
      before ≠ after ∧ Delimits splice before.bytes after.bytes) ∧
    ∀ splice, between before after = some splice →
      Spliced 0 [splice] before.bytes after.bytes := by
  refine ⟨betweenBytes?_eq, betweenBytes_eq_none_iff.trans Text.bytes_inj, fun splice => ?_, ?_⟩
  · rw [← Text.bytes_inj.ne]
    exact betweenBytes_eq_some_iff
  · exact fun splice found => (delimits_of_betweenBytes found).spliced

/-- A line that is the same as the one before it goes, and the shared parts overlap. -/
example : between "a\na\n".toList "a\n".toList = some ⟨2, 4, 0⟩ := by decide

end Retag.Splice
