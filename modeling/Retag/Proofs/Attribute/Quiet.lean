import Retag.Proofs.Attribute.Editing
import Retag.Proofs.Attribute.Shape
import Retag.Proofs.Tag.Quiet

/-! Quiet attribute texts, token by token. A token that could run into the next one is followed by
white space, so the tokens of a quiet text are quiet; and tokens can be put together in any order
that keeps attributes apart. -/
namespace Retag
open Tag (Quiet EndsOutside endsOutside_concat canEndName isDelimiter)

namespace Attribute

theorem canEndName_of_clear {text : Text} (clear : Text.Clear (fun c => !Text.isBlank c) text) :
    ∀ c ∈ text.head?, canEndName c = true := by
  intro c first
  have blank : Text.isBlank c = true := by simpa using clear c first
  simp [canEndName, blank]

theorem Read.cut {name rest : Text} {item : Attribute} (read : Read name item rest) :
    EndsOutside item.render ∨ ∀ c ∈ rest.head?, canEndName c = true := by
  cases read with
  | flag clear => exact .inr (canEndName_of_clear clear)
  | valued blank value =>
    cases value with
    | @literal quote =>
      rw [render_of_ne_boolean (by simp), Value.render, ← List.append_assoc]
      exact .inl (endsOutside_concat _ (by cases quote <;> decide))
    | expression =>
      rw [render_of_ne_boolean (by simp), Value.render, ← List.append_assoc]
      exact .inl (endsOutside_concat _ (by decide))
    | word _ clear => exact .inr (canEndName_of_clear clear)
    | missing | leftOpen => exact .inr (by simp)

theorem ReadSpread.cut {rest : Text} {item : Attribute} (read : ReadSpread item rest) :
    EndsOutside item.render ∨ ∀ c ∈ rest.head?, canEndName c = true := by
  cases read with
  | closed => exact .inl (endsOutside_concat _ (by decide))
  | leftOpen => exact .inr (by simp)

end Attribute

def Token.Tame (name : Text) : Token → Prop
  | .blank run => run ≠ [] ∧ ∀ c ∈ run, Text.isBlank c = true
  | .attr item => Quiet name item.render
  | .slash => True

namespace AttributeList

variable {name : Text} (letters : ∀ c ∈ name, c.isAlpha = true)
include letters

theorem tame_of_mem {text : Text} {token : Token} (quiet : Quiet name text)
    (member : token ∈ ofText text) : token.Tame name := by
  fun_induction ofText text with
  | case1 => simp at member
  | case2 c cs blank ih =>
    rcases List.mem_cons.1 member with rfl | member
    · refine ⟨by simp, fun d inside => ?_⟩
      rcases List.mem_cons.1 inside with rfl | inside
      · exact blank
      · exact List.all_eq_true.1 List.all_takeWhile d inside
    · refine ih ?_ member
      rw [← List.takeWhile_append_dropWhile (p := Text.isBlank) (l := cs),
        ← List.cons_append] at quiet
      exact quiet.right
  | case3 c cs notBlank slash ih =>
    rcases List.mem_cons.1 member with rfl | member
    · trivial
    · exact ih (Quiet.right (a := [c]) quiet) member
  | case4 c cs notBlank notSlash opens ih =>
    obtain rfl := beq_iff_eq.1 opens
    rw [← Attribute.render_readSpread] at quiet
    rcases List.mem_cons.1 member with rfl | member
    · exact quiet.left letters (Attribute.readSpread_inv cs).cut
    · exact ih quiet.right member
  | case5 c cs notBlank notSlash notOpen ih =>
    rw [← Attribute.render_read] at quiet
    rcases List.mem_cons.1 member with rfl | member
    · exact quiet.left letters (Attribute.read_inv c cs).cut
    · exact ih quiet.right member

theorem quiet_render {list : AttributeList} (tame : ∀ token ∈ list, token.Tame name)
    (separated : Separated list) : Quiet name (render list) := by
  induction list with
  | nil => exact .of_plain (by simp)
  | cons token rest ih =>
    have inner := ih (fun token member => tame token (by simp [member])) separated.tail
    have first := tame token (by simp)
    rw [render_cons]
    cases token with
    | blank run =>
      have plain : '<' ∉ run := fun member => absurd (first.2 '<' member) (by decide)
      refine Quiet.append letters (.of_plain plain) inner (.inl fun c last => ?_)
      exact Tag.isDelimiter_of_blank (first.2 c (List.mem_of_getLast? last))
    | slash =>
      exact Quiet.append letters (.of_plain (by decide)) inner (.inl (endsOutside_concat [] rfl))
    | attr item =>
      refine Quiet.append letters first inner (.inr fun c next => ?_)
      match rest with
      | [] => simp at next
      | .blank run :: _ =>
        obtain ⟨filled, blank⟩ := tame (.blank run) (by simp)
        obtain ⟨d, ds, rfl⟩ := List.exists_cons_of_ne_nil filled
        obtain rfl : d = c := by simpa [Token.render] using next
        exact Tag.isAlpha_of_blank (blank d (by simp))
      | .slash :: _ =>
        obtain rfl : '/' = c := by simpa [Token.render] using next
        decide
      | .attr _ :: _ => exact separated.elim

end AttributeList
end Retag
