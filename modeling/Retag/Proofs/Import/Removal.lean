import Retag.Import.Editing
import Retag.Proofs.Import.Grammar
import Retag.Proofs.Tag.Layout
import Retag.Proofs.Text.Reference

/-! Taking a name out of an import, and where the name stands around it. Main statement: a name that
is not in use outside the statement stands, once it was taken out, nowhere but in what is left of
the statement. Nothing arises where the pieces meet, because a statement starts a line and ends with
a quote or a semicolon. -/
namespace Retag

def NamedImport.without (statement : NamedImport) (module name : Text) : Text :=
  statement.render module (statement.names.filter (· != name))

namespace Import
open Text (StandsAt Seam UsedOutside isIdentifier)

/-- `name` stands as a whole identifier outside the statement that was found. -/
def UsedElsewhere (name source : Text) (found : Text.Found NamedImport) : Prop :=
  UsedOutside name source found.before.size (found.before.size + found.item.text.size)

theorem EndsAt.seam {text : Text} (ends : EndsAt text []) (next : Text) : Seam text next := by
  obtain ⟨front, c, rfl, mark⟩ := ends
  refine .inl fun d last => ?_
  obtain rfl : c = d := by simpa using last
  rcases mark with rfl | rfl | rfl <;> exact Text.isIdentifier_mark (by simp)

theorem without_seam (statement : NamedImport) (module name next : Text) :
    Seam (statement.without module name) next := by
  by_cases empty : statement.without module name = []
  · rw [empty]
    exact .inl (by simp)
  · exact (render_ends empty).seam next

/-- A line break that is dropped ends what stood before it. -/
theorem dropLineBreak_split (text : Text) :
    ∃ front, text = front ++ dropLineBreak text ∧ Seam front (dropLineBreak text) := by
  have newline : isIdentifier '\n' = false := Text.isIdentifier_mark (by simp)
  unfold dropLineBreak
  split
  · exact ⟨['\r', '\n'], rfl, .inl (by simpa using newline)⟩
  · exact ⟨['\n'], rfl, .inl (by simpa using newline)⟩
  · exact ⟨[], rfl, .inl (by simp)⟩

section
variable {source module name : Text} {found : Text.Found NamedImport}
variable (first : findNamed? source module = some found)
include first

theorem findNamed?_split : source = found.before ++ (found.item.text ++ found.after) := by
  obtain ⟨line, rfl, reads, -⟩ := findNamed?_inv first
  rw [reads.whole]

theorem before_seam (next : Text) : Seam found.before next := by
  obtain ⟨-, -, -, last⟩ := findNamed?_inv first
  exact .inl fun c ends => last c ends ▸ Text.isIdentifier_mark (by simp)

theorem statement_seam (next : Text) : Seam found.item.text next := by
  obtain ⟨line, -, reads, -⟩ := findNamed?_inv first
  obtain ⟨front, c, split, mark⟩ := reads.ends
  have same : found.item.text ++ found.after = (front ++ [c]) ++ found.after := by
    rw [← reads.whole, split, List.append_cons]
  exact EndsAt.seam ⟨front, c, List.append_cancel_right same, mark⟩ next

theorem remove_eq (listed : name ∈ found.item.names) :
    remove source module name = found.before ++ (found.item.without module name ++
      if (found.item.without module name).isEmpty then dropLineBreak found.after
      else found.after) := by
  unfold remove
  rw [first]
  dsimp only
  rw [if_pos (List.contains_iff_mem.2 listed), List.append_assoc]
  rfl

variable (nonempty : name ≠ []) (word : ∀ c ∈ name, isIdentifier c = true)
include nonempty word

/-- The search that guards an import finds a use exactly if there is one outside the statement. -/
theorem referenced_iff_used :
    Text.referencedOutside name found.before.size (found.before.size + found.item.text.size) source
        = true ↔ UsedElsewhere name source found := by
  rw [UsedElsewhere, findNamed?_split first]
  exact Text.referencedOutside_iff_used nonempty word (before_seam first _) (statement_seam first _)

/-- Without uses outside the statement, a name that was taken out stands only in what is left. -/
theorem standsAt_remove (listed : name ∈ found.item.names)
    (unused : ¬UsedElsewhere name source found) {place : Nat}
    (stands : StandsAt name (remove source module name) place) :
    found.before.size ≤ place ∧
      place + name.size ≤ found.before.size + (found.item.without module name).size := by
  rw [UsedElsewhere, findNamed?_split first,
    Text.usedOutside_iff nonempty word (before_seam first _) (statement_seam first _)] at unused
  rw [remove_eq first listed, Text.standsAt_between nonempty word (before_seam first _)
    (without_seam found.item module name _)] at stands
  rcases stands with before | ⟨behind, rfl, left⟩ | ⟨behind, rfl, after⟩
  · exact absurd (.inl ⟨place, before⟩) unused
  · have bound := left.stop_le
    omega
  · refine absurd (.inr ?_) unused
    split at after
    · obtain ⟨front, split, seam⟩ := dropLineBreak_split found.after
      rw [split]
      exact ⟨front.size + behind,
        (Text.standsAt_append nonempty word seam).2 (.inr ⟨behind, rfl, after⟩)⟩
    · exact ⟨behind, after⟩

end

section
variable {source module name : Text} {found : Text.Found NamedImport}

/-- A name that opens a tag stands there as a whole identifier, behind the bracket. -/
theorem standsAt_of_site {site : TagSite} (member : site ∈ Tag.openSites source name) :
    ∃ before rest, source = before ++ '<' :: name ++ rest ∧ site.start = before.size ∧
      StandsAt name source (site.start + 1) := by
  obtain ⟨before, rest, whole, start, ends, -⟩ := Tag.opensIn_of_mem member
  rw [Nat.zero_add] at start
  refine ⟨before, rest, whole, start, before ++ ['<'], rest, by simp [whole], ?_, ?_, ?_⟩
  · rw [start, Text.size_append]
    rfl
  · intro c last
    obtain rfl : '<' = c := by simpa using last
    exact Text.isIdentifier_mark (by simp)
  · intro c follows
    cases rest with
    | nil => cases follows
    | cons d rest =>
      obtain rfl : d = c := by simpa using follows
      simp only [Tag.endsName, Text.isAsciiBlank, Bool.or_eq_true, beq_iff_eq] at ends
      apply Text.isIdentifier_mark
      rcases ends with ((((((rfl | rfl) | rfl) | rfl) | rfl) | rfl) | rfl) <;> simp

/-- A tag that opens outside the statement is a use of its name, whether the tag ends or not. -/
theorem usedElsewhere_of_site (first : findNamed? source module = some found) (nonempty : name ≠ [])
    (word : ∀ c ∈ name, isIdentifier c = true) {site : TagSite}
    (member : site ∈ Tag.openSites source name)
    (outside : site.start < found.before.size ∨
      found.before.size + found.item.text.size ≤ site.start) :
    UsedElsewhere name source found := by
  obtain ⟨before, rest, whole, start, stands⟩ := standsAt_of_site member
  refine ⟨site.start + 1, stands, ?_⟩
  rcases outside with earlier | later
  · have split := findNamed?_split first
    rw [split, Text.standsAt_between nonempty word (before_seam first _)
      (statement_seam first _)] at stands
    rcases stands with inside | ⟨behind, place, -⟩ | ⟨behind, place, -⟩
    · exact .inl inside.stop_le
    · -- The bracket would be the last character before the statement, which is a line break.
      have reach : Text.size (before ++ ['<']) = found.before.size := by
        rw [Text.size_append, ← start]
        have one : Text.size ['<'] = 1 := by decide
        omega
      have same : (before ++ ['<']) ++ (name ++ rest) =
          found.before ++ (found.item.text ++ found.after) := by
        rw [← split, whole]
        simp
      have ends : before ++ ['<'] = found.before := Text.eq_of_size_eq same reach
      obtain ⟨-, -, -, last⟩ := findNamed?_inv first
      exact absurd (last '<' (by simp [← ends])) (by decide)
    · exact .inr (by omega)
  · exact .inr (by omega)

end

end Import
end Retag
