import Retag.Proofs.Sorting
import Retag.Proofs.Splice.Trace
import Retag.Proofs.Text.Offset
import Retag.Tag.Renaming

/-! Replacements made in a text. What the pieces and their places have to satisfy is stated without
the function that makes them, and pieces that stand apart are enough for it to succeed. -/
namespace Retag.Replacement

/-- The replaced piece stands at its place in a text that stands at byte `offset`. Both its ends
are the sizes of leading parts, so they lie inside the text and between characters. -/
def StandsIn (offset : Nat) (text : Text) (replacement : Replacement) : Prop :=
  ∃ before after, text = before ++ replacement.before ++ after ∧
    replacement.start = offset + before.size

/-- The text that stands at byte `offset` becomes another when each replacement is made where its
piece stands and everything else stays. -/
inductive Made : Nat → Text → List Replacement → Text → Prop where
  | done {offset : Nat} {kept : Text} : Made offset kept [] kept
  | next {offset : Nat} {replacement : Replacement} {replacements : List Replacement}
      {kept rest changed : Text} : replacement.start = offset + kept.size →
      Made replacement.stop rest replacements changed →
      Made offset (kept ++ replacement.before ++ rest) (replacement :: replacements)
        (kept ++ replacement.after ++ changed)

theorem StandsIn.beyond {first later : Replacement} {offset : Nat} {kept rest : Text}
    (stands : later.StandsIn offset (kept ++ first.before ++ rest))
    (start : first.start = offset + kept.size) (apart : first.stop ≤ later.start) :
    later.StandsIn first.stop rest := by
  obtain ⟨before, after, same, place⟩ := stands
  have size : (kept ++ first.before).size ≤ before.size := by
    rw [stop] at apart
    rw [Text.size_append]
    omega
  obtain ⟨middle, rfl, rfl⟩ :=
    Text.append_of_size_le (same.trans (List.append_assoc before _ after)) size
  refine ⟨middle, after, by simp, ?_⟩
  rw [place, stop, start, Text.size_append, Text.size_append]
  omega

/-- Pieces that stand in the text, each ending before the next starts, can be replaced. -/
theorem replaceFrom?_made {replacements : List Replacement} {offset : Nat} {text : Text}
    (stand : ∀ replacement ∈ replacements, replacement.StandsIn offset text)
    (apart : replacements.Pairwise fun a b => a.stop ≤ b.start) :
    ∃ changed, replaceFrom? offset text replacements = some changed ∧
      Made offset text replacements changed := by
  induction replacements generalizing offset text with
  | nil => exact ⟨text, rfl, .done⟩
  | cons first rest ih =>
    obtain ⟨beyond, apart⟩ := List.pairwise_cons.1 apart
    obtain ⟨kept, tail, rfl, start⟩ := stand first List.mem_cons_self
    obtain ⟨changed, replaced, made⟩ := ih (fun later member =>
      (stand later (List.mem_cons_of_mem _ member)).beyond start (beyond later member)) apart
    refine ⟨kept ++ first.after ++ changed, ?_, .next start made⟩
    have place : first.start - offset = kept.size := by omega
    rw [replaceFrom?, if_neg (by omega), place, List.append_assoc, Text.splitAtByte_size]
    simp only [Text.dropBytes_size, replaced, Option.map_some]

/-- Replacements that were made stand apart and in order. -/
theorem apart_of_replaceFrom? {replacements : List Replacement} {offset : Nat} {text changed : Text}
    (replaced : replaceFrom? offset text replacements = some changed) :
    (∀ replacement ∈ replacements, offset ≤ replacement.start) ∧
      replacements.Pairwise fun a b => a.stop ≤ b.start := by
  induction replacements generalizing offset text changed with
  | nil => simp
  | cons first rest ih =>
    rw [replaceFrom?] at replaced
    split at replaced
    · cases replaced
    · rename_i start
      obtain ⟨_, later, -⟩ := Option.map_eq_some_iff.1 replaced
      obtain ⟨beyond, apart⟩ := ih later
      refine ⟨List.forall_mem_cons.2 ⟨Nat.le_of_not_lt start, ?_⟩, .cons beyond apart⟩
      intro replacement member
      have further := beyond replacement member
      rw [stop] at further
      omega

theorem made_of_replaceFrom? {replacements : List Replacement} {offset : Nat} {text changed : Text}
    (stand : ∀ replacement ∈ replacements, replacement.StandsIn offset text)
    (replaced : replaceFrom? offset text replacements = some changed) :
    Made offset text replacements changed := by
  obtain ⟨_, again, made⟩ := replaceFrom?_made stand (apart_of_replaceFrom? replaced).2
  obtain rfl := Option.some.inj (again.symm.trans replaced)
  exact made

theorem Made.le_start {replacements : List Replacement} {offset : Nat} {text changed : Text}
    (made : Made offset text replacements changed) :
    ∀ replacement ∈ replacements, offset ≤ replacement.start := by
  induction made with
  | done => simp
  | next start made ih =>
    intro replacement member
    rcases List.mem_cons.1 member with rfl | later
    · omega
    · have beyond := ih replacement later
      rw [stop] at beyond
      omega

/-- What can be replaced stands apart and in order. -/
theorem Made.apart {replacements : List Replacement} {offset : Nat} {text changed : Text}
    (made : Made offset text replacements changed) :
    replacements.Pairwise fun a b => a.stop ≤ b.start := by
  induction made with
  | done => exact .nil
  | next start made ih => exact List.pairwise_cons.2 ⟨made.le_start, ih⟩

theorem Made.unique {replacements : List Replacement} {offset : Nat} {text a b : Text}
    (first : Made offset text replacements a) (second : Made offset text replacements b) :
    a = b := by
  induction replacements generalizing offset text a b with
  | nil =>
    cases first
    cases second
    rfl
  | cons replacement replacements ih =>
    generalize whole : text = text' at second
    cases first with
    | @next _ _ _ kept rest changed start made =>
      cases second with
      | @next _ _ _ kept' rest' changed' start' made' =>
        rw [List.append_assoc, List.append_assoc] at whole
        obtain rfl : kept = kept' := Text.eq_of_size_eq whole (by omega)
        obtain rfl : rest = rest' :=
          List.append_cancel_left (List.append_cancel_left whole)
        rw [ih made made']

/-- The splices that are recorded say what was done to the bytes. A piece that was replaced by itself
is not among them. -/
theorem Made.spliced {replacements : List Replacement} {offset : Nat} {text changed : Text}
    (made : Made offset text replacements changed) :
    Splice.Spliced offset (replacements.filterMap splice?) text.bytes changed.bytes := by
  induction made with
  | done => exact .done
  | @next offset replacement replacements kept rest changed start made ih =>
    rw [List.filterMap_cons, splice?]
    by_cases same : replacement.after = replacement.before
    · rw [if_pos same, same, Text.bytes_append, Text.bytes_append _ changed]
      apply Splice.Spliced.behind
      have place : offset + (Text.bytes (kept ++ replacement.before)).length = replacement.stop := by
        rw [Text.length_bytes, Text.size_append, stop]
        omega
      rwa [place]
    · rw [if_neg same]
      simp only [Text.bytes_append]
      apply Splice.Spliced.next _ _ _ ih
      · simpa using start
      · simp [stop]
      · simp

/-- Sorted by their starts, pieces that have no byte in common each end before the next starts. -/
theorem sort_apart {replacements : List Replacement}
    (filled : ∀ replacement ∈ replacements, replacement.start < replacement.stop)
    (apart : replacements.Pairwise fun a b => a.stop ≤ b.start ∨ b.stop ≤ a.start) :
    (StableSort.sort (·.start ≤ ·.start) replacements).Pairwise fun a b => a.stop ≤ b.start := by
  have perm := StableSort.sort_perm (·.start ≤ ·.start) replacements
  have either := perm.symm.pairwise apart Or.symm
  have ordered := StableSort.sort_ordered Replacement.start replacements
  refine (either.and ordered).imp_of_mem fun _ member both => ?_
  have nonempty := filled _ (perm.mem_iff.1 member)
  omega

end Retag.Replacement
