import Mathlib.Data.Nat.PSub
import Retag.Splice

/-! Tracing an offset back through one pass. What a pass does is a relation between the bytes before
and after it; where a byte came from is read off that relation, and the trace is shown to agree with
it without ever subtracting below zero. -/
namespace Retag.Splice

/-- The bytes of each splice were replaced by as many as it says, and all others stayed, in a text
that stood at byte `offset`. The splices are in order, apart and inside the text. -/
inductive Spliced : Nat → List Splice → List UInt8 → List UInt8 → Prop where
  | done {offset : Nat} {kept : List UInt8} : Spliced offset [] kept kept
  | next {offset : Nat} {splice : Splice} {splices : List Splice}
      {kept old new rest changed : List UInt8} : splice.start = offset + kept.length →
      splice.stop = splice.start + old.length → splice.size = new.length →
      Spliced splice.stop splices rest changed →
      Spliced offset (splice :: splices) (kept ++ old ++ rest) (kept ++ new ++ changed)

/-- The byte at `input` before a pass stands at `output` after it: it is in no splice. -/
inductive Keeps (offset input output : Nat) :
    List Splice → List UInt8 → List UInt8 → Prop where
  | intro {earlier later : List Splice} {front changed rest rest' : List UInt8} {byte : UInt8} :
      Spliced offset earlier front changed → input = front.length → output = changed.length →
      Spliced (offset + input + 1) later rest rest' →
      Keeps offset input output (earlier ++ later) (front ++ byte :: rest) (changed ++ byte :: rest')

/-- What a pass put in the place of `splice` starts at `output`. -/
inductive Replaces (offset : Nat) (splice : Splice) (output : Nat) :
    List Splice → List UInt8 → List UInt8 → Prop where
  | intro {earlier later : List Splice} {front changed old new rest rest' : List UInt8} :
      Spliced offset earlier front changed → splice.start = offset + front.length →
      splice.stop = splice.start + old.length → output = changed.length →
      splice.size = new.length → Spliced splice.stop later rest rest' →
      Replaces offset splice output (earlier ++ splice :: later) (front ++ old ++ rest)
        (changed ++ new ++ rest')

/-- The trace with subtractions that fail below zero. -/
def traceFrom? (offset inputEnd outputEnd : Nat) : List Splice → Option Nat
  | [] => do
    let beyond ← Nat.psub offset outputEnd
    return inputEnd + beyond
  | splice :: splices => do
    let kept ← Nat.psub splice.start inputEnd
    let outputStart := outputEnd + kept
    if offset < outputStart then
      let beyond ← Nat.psub offset outputEnd
      return inputEnd + beyond
    else
      let within ← Nat.psub offset outputStart
      let length ← Nat.psub splice.stop splice.start
      if within < splice.size then return splice.start + min within length
      else traceFrom? offset splice.stop (outputStart + splice.size) splices

def trace? (splices : List Splice) (offset : Nat) : Option Nat := traceFrom? offset 0 0 splices

section
variable {offset o o' out input output : Nat} {splice : Splice} {splices earlier later : List Splice}
  {before after front changed : List UInt8}

theorem Spliced.le_start (spliced : Spliced offset splices before after) :
    ∀ first ∈ splices.head?, offset ≤ first.start := by
  cases spliced with
  | done => simp
  | next start =>
    rintro first ⟨⟩
    omega

/-- Bytes that stay can be added in front. -/
theorem Spliced.behind (front : List UInt8)
    (spliced : Spliced (offset + front.length) splices before after) :
    Spliced offset splices (front ++ before) (front ++ after) := by
  cases spliced with
  | done => exact .done
  | @next _ splice splices kept old new rest changed start stop size inner =>
    have start' : splice.start = offset + (front ++ kept).length := by
      rw [List.length_append]
      omega
    simpa only [List.append_assoc] using Spliced.next start' stop size inner

theorem le_traceFrom (spliced : Spliced offset splices before after) :
    offset ≤ traceFrom o offset out splices := by
  induction spliced generalizing out with
  | done => exact Nat.le_add_right _ _
  | next start stop _ _ ih =>
    simp only [traceFrom]
    split
    · exact Nat.le_add_right _ _
    · split
      · omega
      · exact Nat.le_trans (by omega) ih

theorem traceFrom?_eq (spliced : Spliced offset splices before after) (reached : out ≤ o) :
    traceFrom? o offset out splices = some (traceFrom o offset out splices) := by
  induction spliced generalizing out with
  | done => simp [traceFrom?, traceFrom, Nat.psub_eq_sub reached]
  | @next offset splice splices kept old new rest changed start stop _ _ ih =>
    have first : Nat.psub splice.start offset = some (splice.start - offset) :=
      Nat.psub_eq_sub (by omega)
    have length : Nat.psub splice.stop splice.start = some (splice.stop - splice.start) :=
      Nat.psub_eq_sub (by omega)
    simp only [traceFrom?, traceFrom, first, Option.bind_eq_bind, Option.bind_some]
    split
    · simp [Nat.psub_eq_sub reached]
    · rename_i beyond
      rw [Nat.psub_eq_sub (Nat.le_of_not_lt beyond), length]
      simp only [Option.bind_some]
      split
      · rfl
      · exact ih (by omega)

/-- Bytes that stay move the ends before and after the pass alike. -/
theorem traceFrom_shift (kept : Nat) (reached : out + kept ≤ o)
    (ahead : ∀ first ∈ splices.head?, offset + kept ≤ first.start) :
    traceFrom o offset out splices = traceFrom o (offset + kept) (out + kept) splices := by
  cases splices with
  | nil =>
    simp only [traceFrom]
    omega
  | cons first rest =>
    have start := ahead first rfl
    have place : out + kept + (first.start - (offset + kept)) = out + (first.start - offset) := by
      omega
    simp only [traceFrom, place]
    split
    · omega
    · rfl

/-- Beyond what the earlier splices made, the trace goes on behind them. -/
theorem traceFrom_past (spliced : Spliced offset earlier front changed)
    (ahead : ∀ first ∈ later.head?, offset + front.length ≤ first.start)
    (reached : out + changed.length ≤ o) :
    traceFrom o offset out (earlier ++ later) =
      traceFrom o (offset + front.length) (out + changed.length) later := by
  induction spliced generalizing out with
  | done => exact traceFrom_shift _ reached ahead
  | @next offset splice splices kept old new rest changed start stop size _ ih =>
    simp only [List.length_append] at reached ahead ⊢
    have place : out + (splice.start - offset) = out + kept.length := by omega
    rw [List.cons_append]
    simp only [traceFrom, place]
    rw [if_neg (by omega), if_neg (by omega), ih (fun first found => ?_) (by omega)]
    · congr 1 <;> omega
    · have := ahead first found
      omega

theorem traceFrom_mono (spliced : Spliced offset splices before after) (reached : out ≤ o)
    (le : o ≤ o') : traceFrom o offset out splices ≤ traceFrom o' offset out splices := by
  induction spliced generalizing out with
  | done =>
    simp only [traceFrom]
    omega
  | @next offset splice splices kept old new rest changed start stop size inner ih =>
    have place : out + (splice.start - offset) = out + kept.length := by omega
    have behind : splice.stop ≤ traceFrom o' splice.stop (out + kept.length + splice.size) splices :=
      le_traceFrom inner
    simp only [traceFrom, place]
    -- The smaller offset lies before what replaced the splice, in it, or behind it.
    by_cases ahead : o < out + kept.length
    · rw [if_pos ahead]
      split
      · omega
      · split <;> omega
    have ahead' : ¬o' < out + kept.length := by omega
    rw [if_neg ahead, if_neg ahead']
    by_cases inside : o - (out + kept.length) < splice.size
    · rw [if_pos inside]
      split <;> omega
    · rw [if_neg inside, if_neg (by omega)]
      exact ih (by omega)

theorem trace_end (spliced : Spliced 0 splices before after) :
    trace splices after.length = before.length := by
  have past : traceFrom after.length 0 0 (splices ++ []) =
      traceFrom after.length (0 + before.length) (0 + after.length) [] :=
    traceFrom_past spliced (by simp) (by omega)
  rw [List.append_nil] at past
  rw [trace, past, traceFrom]
  omega

theorem trace_mono (spliced : Spliced 0 splices before after) (le : o ≤ o') :
    trace splices o ≤ trace splices o' :=
  traceFrom_mono spliced (Nat.zero_le o) le

theorem trace?_eq (spliced : Spliced 0 splices before after) (o : Nat) :
    trace? splices o = some (trace splices o) :=
  traceFrom?_eq spliced (Nat.zero_le o)

/-- From a kept byte on, the trace goes on at the byte that it was. -/
theorem trace_from_kept (kept : Keeps 0 input output splices before after) (le : output ≤ o) :
    ∃ later rest rest', Spliced (input + 1) later rest rest' ∧
      trace splices o = traceFrom o input output later := by
  cases kept with
  | @intro earlier later front changed rest rest' byte first place place' second =>
    rw [Nat.zero_add] at second
    refine ⟨later, rest, rest', second, ?_⟩
    have ahead : ∀ next ∈ later.head?, 0 + front.length ≤ next.start := by
      intro next found
      have start := second.le_start next found
      omega
    rw [trace, traceFrom_past first ahead (by omega), place, place', Nat.zero_add, Nat.zero_add]

theorem trace_kept (kept : Keeps 0 input output splices before after) :
    trace splices output = input := by
  obtain ⟨later, rest, rest', spliced, same⟩ := trace_from_kept kept (Nat.le_refl output)
  rw [same]
  cases spliced with
  | done => simp [traceFrom]
  | next start =>
    rw [traceFrom, if_pos (by omega)]
    omega

/-- What stands after a kept byte is traced to after the byte that it was. -/
theorem lt_trace_of_kept (kept : Keeps 0 input output splices before after) (lt : output < o) :
    input < trace splices o := by
  obtain ⟨later, rest, rest', spliced, same⟩ := trace_from_kept kept (Nat.le_of_lt lt)
  rw [same, traceFrom_shift 1 lt spliced.le_start]
  exact le_traceFrom spliced

theorem Keeps.same_byte (kept : Keeps offset input output splices before after) :
    ∃ byte, before[input]? = some byte ∧ after[output]? = some byte := by
  cases kept with
  | @intro _ _ _ _ _ _ byte _ place place' _ => exact ⟨byte, by simp [place], by simp [place']⟩

/-- What stands inside a replacement is traced to the same distance from the start of what it
replaced, or to its end. -/
theorem trace_inside {distance : Nat} (replaces : Replaces 0 splice output splices before after)
    (inside : distance < splice.size) :
    trace splices (output + distance) =
      splice.start + min distance (splice.stop - splice.start) := by
  cases replaces with
  | @intro earlier later front changed old new rest rest' first start stop place size second =>
    have ahead : ∀ next ∈ (splice :: later).head?, 0 + front.length ≤ next.start := by
      rintro next ⟨⟩
      omega
    have within : output + distance - (0 + changed.length + (splice.start - (0 + front.length))) =
        distance := by omega
    rw [trace, traceFrom_past first ahead (by omega), traceFrom, if_neg (by omega), within,
      if_pos inside]

theorem trace_replaced (replaces : Replaces 0 splice output splices before after)
    (filled : 0 < splice.size) : trace splices output = splice.start := by
  have traced := trace_inside replaces filled
  rwa [Nat.zero_min, Nat.add_zero, Nat.add_zero] at traced

theorem Replaces.mem (replaces : Replaces offset splice output splices before after) :
    splice ∈ splices := by
  cases replaces with
  | intro => simp

theorem Replaces.forward (replaces : Replaces offset splice output splices before after) :
    splice.start ≤ splice.stop := by
  cases replaces with
  | intro _ _ stop => omega

section
variable {kept old new : List UInt8} (start : splice.start = offset + kept.length)
  (stop : splice.stop = splice.start + old.length) (size : splice.size = new.length)
include start stop size

theorem Keeps.prepend (keeps : Keeps splice.stop input output splices before after) :
    Keeps offset (kept.length + old.length + input) (kept.length + new.length + output)
      (splice :: splices) (kept ++ old ++ before) (kept ++ new ++ after) := by
  cases keeps with
  | intro first place place' second =>
    have behind : offset + (kept.length + old.length + input) + 1 = splice.stop + input + 1 := by
      omega
    simp only [← List.append_assoc, ← List.cons_append]
    refine .intro (.next start stop size first) ?_ ?_ (behind ▸ second)
    · simp only [List.length_append]
      omega
    · simp only [List.length_append]
      omega

theorem Replaces.prepend {later : Splice}
    (replaces : Replaces splice.stop later output splices before after) :
    Replaces offset later (kept.length + new.length + output)
      (splice :: splices) (kept ++ old ++ before) (kept ++ new ++ after) := by
  cases replaces with
  | intro first start' stop' place size' second =>
    simp only [← List.append_assoc, ← List.cons_append]
    refine .intro (.next start stop size first) ?_ stop' ?_ size' second
    · simp only [List.length_append]
      omega
    · simp only [List.length_append]
      omega

end

theorem exists_split {bytes : List UInt8} (inside : o < bytes.length) :
    ∃ front byte rest, bytes = front ++ byte :: rest ∧ o = front.length := by
  refine ⟨bytes.take o, bytes[o], bytes.drop (o + 1), ?_, ?_⟩
  · rw [← List.drop_eq_getElem_cons inside, List.take_append_drop]
  · rw [List.length_take]
    omega

/-- Every byte after a pass was kept or stands in what replaced a splice. -/
theorem keeps_or_replaces (spliced : Spliced offset splices before after)
    (inside : o < after.length) :
    (∃ input, Keeps offset input o splices before after) ∨
      ∃ splice output, Replaces offset splice output splices before after ∧
        output ≤ o ∧ o < output + splice.size := by
  induction spliced generalizing o with
  | @done offset kept =>
    obtain ⟨front, byte, rest, rfl, place⟩ := exists_split inside
    have keeps : Keeps offset o o ([] ++ []) (front ++ byte :: rest) (front ++ byte :: rest) :=
      .intro .done place place .done
    exact .inl ⟨o, keeps⟩
  | @next offset splice splices kept old new rest changed start stop size inner ih =>
    by_cases ahead : o < kept.length
    · obtain ⟨front, byte, more, rfl, place⟩ := exists_split ahead
      have later : Spliced (offset + o + 1) (splice :: splices) (more ++ old ++ rest)
          (more ++ new ++ changed) := by
        simp only [List.length_append, List.length_cons] at start
        exact .next (by omega) stop size inner
      have keeps : Keeps offset o o ([] ++ splice :: splices)
          (front ++ byte :: (more ++ old ++ rest)) (front ++ byte :: (more ++ new ++ changed)) :=
        .intro .done place place later
      exact .inl ⟨o, by simpa using keeps⟩
    by_cases within : o < kept.length + new.length
    · have replaces : Replaces offset splice kept.length ([] ++ splice :: splices)
          (kept ++ old ++ rest) (kept ++ new ++ changed) :=
        .intro .done start stop rfl size inner
      exact .inr ⟨splice, kept.length, replaces, by omega, by omega⟩
    · simp only [List.length_append] at inside
      obtain ⟨shift, same⟩ := Nat.exists_eq_add_of_le (Nat.le_of_not_lt within)
      subst same
      rcases ih (o := shift) (by omega) with ⟨input, keeps⟩ | ⟨later, output, replaces, low, high⟩
      · exact .inl ⟨_, keeps.prepend start stop size⟩
      · exact .inr ⟨later, _, replaces.prepend start stop size, by omega, by omega⟩

end
end Retag.Splice
