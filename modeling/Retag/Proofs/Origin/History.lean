import Retag.Origin
import Retag.Proofs.Splice.Trace
import Retag.Proofs.Text.Offset

/-! Tracing an offset back through a history of passes, as many as there are. What one pass does to
offsets carries over from text to text. Main statement: every offset of the last text has a place in
the first one, in the same order, and a byte that no pass replaced has its own. -/
namespace Retag.Origin
open Splice (Spliced Keeps Replaces)

/-- The offset in the file as it was read, with subtractions that fail below zero. -/
def sourceOffset? (origin : Origin) (offset : Nat) : Option Nat :=
  origin.passes.foldlM (fun offset splices => Splice.trace? splices offset) offset

@[simp] theorem push_file (origin : Origin) (splices : List Splice) :
    (origin.push splices).file = origin.file := by
  cases splices <;> rfl

@[simp] theorem push_index (origin : Origin) (splices : List Splice) :
    (origin.push splices).index = origin.index := by
  cases splices <;> rfl

theorem sourceOffset_push (origin : Origin) (splices : List Splice) (offset : Nat) :
    (origin.push splices).sourceOffset offset =
      origin.sourceOffset (Splice.trace splices offset) := by
  cases splices with
  | nil => simp [push, Splice.trace, Splice.traceFrom]
  | cons splice splices => rfl

theorem sourceOffset?_push (origin : Origin) (splices : List Splice) (offset : Nat) :
    (origin.push splices).sourceOffset? offset =
      (Splice.trace? splices offset).bind origin.sourceOffset? := by
  cases splices with
  | nil => simp [push, Splice.trace?, Splice.traceFrom?]
  | cons splice splices => rfl

def after (file source : Text) (passes : Nat → List Splice) : Nat → Origin
  | 0 => ofSource file source
  | n + 1 => (after file source passes n).push (passes n)

theorem after_congr {passes passes' : Nat → List Splice} {n : Nat}
    (same : ∀ k < n, passes k = passes' k) (file source : Text) :
    after file source passes n = after file source passes' n := by
  induction n with
  | zero => rfl
  | succ n ih =>
    rw [after, after, ih fun k lt => same k (Nat.lt_succ_of_lt lt), same n (Nat.lt_succ_self n)]

theorem after_index (file source : Text) (passes : Nat → List Splice) (n : Nat) :
    (after file source passes n).index = LineIndex.ofText source := by
  induction n with
  | zero => rfl
  | succ n ih => rw [after, push_index, ih]

/-- The byte at `input` of text `first` stands at `output` of text `last`, and no pass between them
replaced it. -/
inductive Untouched (texts : Nat → List UInt8) (passes : Nat → List Splice) (first input : Nat) :
    (last output : Nat) → Prop where
  | here : input < (texts first).length → Untouched texts passes first input first input
  | pass {n middle output : Nat} : Untouched texts passes first input n middle →
      Keeps 0 middle output (passes n) (texts n) (texts (n + 1)) →
      Untouched texts passes first input (n + 1) output

section
variable {texts : Nat → List UInt8} {passes : Nat → List Splice} {first input input' : Nat}
  {n o o' : Nat}

/-- An untouched byte is traced as far back as it is untouched. -/
theorem Untouched.sourceOffset (file source : Text)
    (untouched : Untouched texts passes first input n o) :
    (after file source passes n).sourceOffset o =
      (after file source passes first).sourceOffset input := by
  induction untouched with
  | here => rfl
  | pass _ kept ih => rw [after, sourceOffset_push, Splice.trace_kept kept, ih]

theorem Untouched.same_byte (untouched : Untouched texts passes first input n o) :
    ∃ byte, (texts first)[input]? = some byte ∧ (texts n)[o]? = some byte := by
  induction untouched with
  | here inside => exact ⟨_, List.getElem?_eq_getElem inside, List.getElem?_eq_getElem inside⟩
  | pass _ kept ih =>
    obtain ⟨byte, start, middle⟩ := ih
    obtain ⟨byte', middle', last⟩ := kept.same_byte
    obtain rfl := Option.some.inj (middle.symm.trans middle')
    exact ⟨byte, start, last⟩

/-- What stands behind an untouched byte is traced to behind it. -/
theorem Untouched.lt_sourceOffset (file source : Text)
    (untouched : Untouched texts passes 0 input n o) (lt : o < o') :
    input < (after file source passes n).sourceOffset o' := by
  induction untouched generalizing o' with
  | here => exact lt
  | pass _ kept ih =>
    rw [after, sourceOffset_push]
    exact ih (Splice.lt_trace_of_kept kept lt)

/-- Untouched bytes keep their order. -/
theorem Untouched.lt_of_lt (untouched : Untouched texts passes 0 input n o)
    (untouched' : Untouched texts passes 0 input' n o') (lt : o < o') : input < input' := by
  have further := untouched.lt_sourceOffset [] [] lt
  rwa [untouched'.sourceOffset] at further

variable (passed : ∀ k < n, Spliced 0 (passes k) (texts k) (texts (k + 1)))
include passed

theorem sourceOffset?_eq (file source : Text) (o : Nat) :
    (after file source passes n).sourceOffset? o =
      some ((after file source passes n).sourceOffset o) := by
  induction n generalizing o with
  | zero => rfl
  | succ n ih =>
    have last := passed n (Nat.lt_succ_self n)
    rw [after, sourceOffset?_push, sourceOffset_push, Splice.trace?_eq last, Option.bind_some]
    exact ih (fun k lt => passed k (Nat.lt_succ_of_lt lt)) _

theorem sourceOffset_mono (file source : Text) (le : o ≤ o') :
    (after file source passes n).sourceOffset o ≤ (after file source passes n).sourceOffset o' := by
  induction n generalizing o o' with
  | zero => exact le
  | succ n ih =>
    simp only [after, sourceOffset_push]
    apply ih fun k lt => passed k (Nat.lt_succ_of_lt lt)
    exact Splice.trace_mono (passed n (Nat.lt_succ_self n)) le

theorem sourceOffset_end (file source : Text) :
    (after file source passes n).sourceOffset (texts n).length = (texts 0).length := by
  induction n with
  | zero => rfl
  | succ n ih =>
    rw [after, sourceOffset_push, Splice.trace_end (passed n (Nat.lt_succ_self n))]
    exact ih fun k lt => passed k (Nat.lt_succ_of_lt lt)

/-- Every byte of the last text is untouched since the first, or since the pass that wrote it. -/
theorem untouched_or_written (inside : o < (texts n).length) :
    (∃ input, Untouched texts passes 0 input n o) ∨
      ∃ k < n, ∃ splice start input,
        Replaces 0 splice start (passes k) (texts k) (texts (k + 1)) ∧
          start ≤ input ∧ input < start + splice.size ∧ Untouched texts passes (k + 1) input n o := by
  induction n generalizing o with
  | zero => exact .inl ⟨o, .here inside⟩
  | succ n ih =>
    have last := passed n (Nat.lt_succ_self n)
    rcases Splice.keeps_or_replaces last inside with ⟨middle, kept⟩ | ⟨splice, start, replaces, range⟩
    · obtain ⟨byte, found, -⟩ := kept.same_byte
      obtain ⟨inside, -⟩ := List.getElem?_eq_some_iff.1 found
      rcases ih (fun k lt => passed k (Nat.lt_succ_of_lt lt)) inside with
        ⟨input, untouched⟩ | ⟨k, lt, splice, start, input, replaces, low, high, untouched⟩
      · exact .inl ⟨input, untouched.pass kept⟩
      · exact .inr ⟨k, by omega, splice, start, input, replaces, low, high, untouched.pass kept⟩
    · exact .inr ⟨n, by omega, splice, start, o, replaces, range.1, range.2, .here inside⟩

end

/-- What tracing back from text `n` gives, where `source` is the file as it was read. -/
structure Traces (file source : Text) (texts : Nat → List UInt8) (passes : Nat → List Splice)
    (n : Nat) : Prop where
  /-- No subtraction goes below zero. -/
  checked : ∀ o ≤ (texts n).length, (after file source passes n).sourceOffset? o =
    some ((after file source passes n).sourceOffset o)
  inside : ∀ o ≤ (texts n).length, (after file source passes n).sourceOffset o ≤ source.size
  mono : ∀ o o', o ≤ o' → o' ≤ (texts n).length →
    (after file source passes n).sourceOffset o ≤ (after file source passes n).sourceOffset o'
  ends : (after file source passes n).sourceOffset (texts n).length = source.size
  /-- A byte that no pass replaced goes to itself. -/
  untouched : ∀ input o, Untouched texts passes 0 input n o →
    (after file source passes n).sourceOffset o = input ∧
      ∃ byte, source.bytes[input]? = some byte ∧ (texts n)[o]? = some byte
  injective : ∀ input input' o o', Untouched texts passes 0 input n o →
    Untouched texts passes 0 input' n o' → (after file source passes n).sourceOffset o =
      (after file source passes n).sourceOffset o' → o = o'
  /-- The first byte that pass `k` wrote for a splice goes where the start of the splice went. -/
  written : ∀ k < n, ∀ splice start o,
    Replaces 0 splice start (passes k) (texts k) (texts (k + 1)) → 0 < splice.size →
    Untouched texts passes (k + 1) start n o → (after file source passes n).sourceOffset o =
      (after file source passes k).sourceOffset splice.start
  /-- Every byte is untouched since the file was read or since the pass that wrote it. -/
  covered : ∀ o < (texts n).length, (∃ input, Untouched texts passes 0 input n o) ∨
    ∃ k < n, ∃ splice start input, Replaces 0 splice start (passes k) (texts k) (texts (k + 1)) ∧
      start ≤ input ∧ input < start + splice.size ∧ Untouched texts passes (k + 1) input n o

/-- Offsets are traced exactly through any passes that replace what they say. -/
theorem sourceOffset_traces {file source : Text} {texts : Nat → List UInt8}
    {passes : Nat → List Splice} {n : Nat} (start : texts 0 = source.bytes)
    (passed : ∀ k < n, Spliced 0 (passes k) (texts k) (texts (k + 1))) :
    Traces file source texts passes n := by
  have ends : (after file source passes n).sourceOffset (texts n).length = source.size := by
    rw [sourceOffset_end passed, start, Text.length_bytes]
  exact {
    checked := fun o _ => sourceOffset?_eq passed file source o
    inside := fun o le => ends ▸ sourceOffset_mono passed file source le
    mono := fun _ _ le _ => sourceOffset_mono passed file source le
    ends
    untouched := fun input o untouched => ⟨untouched.sourceOffset file source,
      start ▸ untouched.same_byte⟩
    injective := by
      intro input input' o o' untouched untouched' same
      rw [untouched.sourceOffset, untouched'.sourceOffset] at same
      have same : input = input' := same
      rcases Nat.lt_trichotomy o o' with lt | eq | gt
      · exact absurd (untouched.lt_of_lt untouched' lt) (by omega)
      · exact eq
      · exact absurd (untouched'.lt_of_lt untouched gt) (by omega)
    written := by
      intro k _ splice start o replaces filled untouched
      rw [untouched.sourceOffset, after, sourceOffset_push, Splice.trace_replaced replaces filled]
    covered := fun _ => untouched_or_written passed }

/-- The first pass takes `b` out, puts `XY` in right behind it and replaces `d`, and the second
shortens what the first put in. -/
theorem sourceOffset_traces_twice :
    let texts : Nat → List UInt8
      | 0 => Text.bytes "abcd".toList
      | 1 => Text.bytes "aXYcé".toList
      | _ => Text.bytes "aWcé".toList
    let passes : Nat → List Splice
      | 0 => [⟨1, 2, 0⟩, ⟨2, 2, 2⟩, ⟨3, 4, 2⟩]
      | _ => [⟨1, 3, 1⟩]
    texts 0 = Text.bytes "abcd".toList ∧
      (∀ k < 2, Spliced 0 (passes k) (texts k) (texts (k + 1))) ∧
      Traces [] "abcd".toList texts passes 2 := by
  intro texts passes
  have first : Spliced 0 [⟨1, 2, 0⟩, ⟨2, 2, 2⟩, ⟨3, 4, 2⟩]
      ([97] ++ [98] ++ ([] ++ [] ++ ([99] ++ [100] ++ [])))
      ([97] ++ [] ++ ([] ++ [88, 89] ++ ([99] ++ [195, 169] ++ []))) :=
    .next rfl rfl rfl (.next rfl rfl rfl (.next rfl rfl rfl .done))
  have second : Spliced 0 [⟨1, 3, 1⟩] ([97] ++ [88, 89] ++ [99, 195, 169])
      ([97] ++ [87] ++ [99, 195, 169]) :=
    .next rfl rfl rfl .done
  have passed : ∀ k < 2, Spliced 0 (passes k) (texts k) (texts (k + 1)) := by
    intro k lt
    match k with
    | 0 => exact first
    | 1 => exact second
  exact ⟨rfl, passed, sourceOffset_traces rfl passed⟩

end Retag.Origin
