import Retag.Proofs.Text.Octet
import Retag.Tag.Basic

/-! Where the tags of one name stand in a source. The searches for open and closing tags are read
once, by what each item says about the text around it and by the order of the items; everything
about overlaps follows from these facts. -/
namespace Retag.Tag

/-- What the text after the name says about a site: the tag ends, and this is its attribute text,
or it never does. -/
def Bounds (name rest : Text) : TagSite → Prop
  | .bounded tag => tag.name = name ∧
      ∃ after, Text.untilTagEnd? none 0 rest = some (tag.attributes, after)
  | .unterminated _ => Text.untilTagEnd? none 0 rest = none

def OpensIn (name : Text) (offset : Nat) (text : Text) (site : TagSite) : Prop :=
  ∃ before rest, text = before ++ '<' :: name ++ rest ∧ site.start = offset + before.size ∧
    endsName rest = true ∧ Bounds name rest site

def ClosesIn (name : Text) (offset : Nat) (text : Text) (closing : ClosingTag) : Prop :=
  ∃ before after, text = before ++ closing.text ++ after ∧ closing.start = offset + before.size ∧
    closing.name = name ∧ ∀ c ∈ closing.blank, Text.isAsciiBlank c = true

@[simp] theorem start_bounded (tag : OpenTag) : (TagSite.bounded tag).start = tag.start := rfl

@[simp] theorem stop_bounded (tag : OpenTag) : (TagSite.bounded tag).stop = tag.stop := rfl

@[simp] theorem start_unterminated (start : Nat) : (TagSite.unterminated start).start = start := rfl

@[simp] theorem stop_unterminated (start : Nat) : (TagSite.unterminated start).stop = start := rfl

theorem OpensIn.shift {name front text : Text} {offset : Nat} {site : TagSite}
    (opens : OpensIn name (offset + front.size) text site) :
    OpensIn name offset (front ++ text) site := by
  obtain ⟨before, rest, rfl, start, ends, bounds⟩ := opens
  refine ⟨front ++ before, rest, by simp, ?_, ends, bounds⟩
  rw [start, Text.size_append]
  omega

theorem ClosesIn.shift {name front text : Text} {offset : Nat} {closing : ClosingTag}
    (closes : ClosesIn name (offset + front.size) text closing) :
    ClosesIn name offset (front ++ text) closing := by
  obtain ⟨before, after, rfl, start, named, blank⟩ := closes
  refine ⟨front ++ before, after, by simp, ?_, named, blank⟩
  rw [start, Text.size_append]
  omega

theorem size_openTag (tag : OpenTag) : tag.start + tag.text.size = tag.stop := by
  simp [OpenTag.text, OpenTag.stop, OpenTag.attributesRange]
  have one : '>'.utf8Size = 1 := by decide
  omega

theorem opensIn_of_mem {name text : Text} {offset : Nat} {site : TagSite}
    (member : site ∈ openSitesFrom name offset text) : OpensIn name offset text site := by
  fun_induction openSitesFrom name offset text with
  | case1 => simp at member
  | case2 offset c cs absent ih =>
    have moved : OpensIn name offset ([c] ++ cs) site := .shift (by simpa using ih member)
    simpa using moved
  | case3 offset c cs rest found next ends attributes after closed ih =>
    rw [Text.dropPrefix?_eq_some_iff.1 found]
    rcases List.mem_cons.1 member with rfl | later
    · exact ⟨[], rest, by simp, by simp, ends, rfl, after, closed⟩
    · have moved : OpensIn name offset (('<' :: name ++ attributes ++ ['>']) ++ after) site := by
        refine OpensIn.shift ?_
        have one : '>'.utf8Size = 1 := by decide
        simpa [next, one, Nat.add_assoc] using ih later
      simpa [Text.eq_of_untilTagEnd? closed] using moved
  | case4 offset c cs rest found next ends endless ih =>
    rw [Text.dropPrefix?_eq_some_iff.1 found]
    rcases List.mem_cons.1 member with rfl | later
    · exact ⟨[], rest, by simp, by simp, ends, endless⟩
    · exact OpensIn.shift (ih later)
  | case5 offset c cs rest found next longer ih =>
    rw [Text.dropPrefix?_eq_some_iff.1 found]
    exact OpensIn.shift (ih member)

theorem le_start_of_mem {name text : Text} {offset : Nat} {site : TagSite}
    (member : site ∈ openSitesFrom name offset text) : offset ≤ site.start := by
  obtain ⟨before, _, _, start, _⟩ := opensIn_of_mem member
  omega

/-- Each site ends before the next one starts. -/
theorem openSites_ordered (name text : Text) (offset : Nat) :
    (openSitesFrom name offset text).Pairwise fun a b => a.start < b.start ∧ a.stop ≤ b.start := by
  fun_induction openSitesFrom name offset text with
  | case1 => exact .nil
  | case2 _ _ _ _ ih => exact ih
  | case3 offset c cs rest found next ends attributes after closed ih =>
    refine List.pairwise_cons.2 ⟨fun site member => ?_, ih⟩
    have later := le_start_of_mem member
    have stop : (OpenTag.mk offset name attributes).stop = next + attributes.size + 1 := by
      simp [OpenTag.stop, OpenTag.attributesRange, next]
    have first : offset ≤ next := Nat.le_add_right _ _
    simp only [start_bounded, stop_bounded, stop]
    omega
  | case4 offset c cs rest found next ends endless ih =>
    refine List.pairwise_cons.2 ⟨fun site member => ?_, ih⟩
    have later := le_start_of_mem member
    have first : offset < next := Nat.lt_add_of_pos_right (Text.size_pos (by simp))
    simp only [start_unterminated, stop_unterminated]
    omega
  | case5 _ _ _ _ _ _ _ ih => exact ih

/-- What the search for closing tags has read when it finds one. -/
theorem closingTag_split {name text rest after : Text} (offset : Nat)
    (found : Text.dropPrefix? ('<' :: '/' :: name) text = some rest)
    (closed : rest.dropWhile Text.isAsciiBlank = '>' :: after) :
    text = ClosingTag.text ⟨offset, name, rest.takeWhile Text.isAsciiBlank⟩ ++ after := by
  have split := List.takeWhile_append_dropWhile (p := Text.isAsciiBlank) (l := rest)
  rw [closed] at split
  calc text = '<' :: '/' :: name ++ rest := Text.dropPrefix?_eq_some_iff.1 found
    _ = '<' :: '/' :: name ++ (rest.takeWhile Text.isAsciiBlank ++ '>' :: after) := by rw [split]
    _ = ClosingTag.text ⟨offset, name, rest.takeWhile Text.isAsciiBlank⟩ ++ after := by
      simp [ClosingTag.text]

theorem closesIn_of_mem {name text : Text} {offset : Nat} {closing : ClosingTag}
    (member : closing ∈ closingTagsFrom name offset text) : ClosesIn name offset text closing := by
  fun_induction closingTagsFrom name offset text with
  | case1 => simp at member
  | case2 offset c cs absent ih =>
    have moved : ClosesIn name offset ([c] ++ cs) closing := .shift (by simpa using ih member)
    simpa using moved
  | case3 offset c cs rest found after closed tag ih =>
    have whole : c :: cs = tag.text ++ after := closingTag_split offset found closed
    rw [whole]
    rcases List.mem_cons.1 member with rfl | later
    · exact ⟨[], after, by simp, by simp [tag], rfl, List.all_eq_true.1 List.all_takeWhile⟩
    · exact ClosesIn.shift (ih later)
  | case4 offset c cs rest found open' ih =>
    rw [Text.dropPrefix?_eq_some_iff.1 found]
    exact ClosesIn.shift (ih member)

/-- Each closing tag ends before the next one starts. -/
theorem closingTags_ordered {name text : Text} {offset : Nat} :
    (closingTagsFrom name offset text).Pairwise fun a b => a.stop ≤ b.start := by
  fun_induction closingTagsFrom name offset text with
  | case1 => exact .nil
  | case2 _ _ _ _ ih => exact ih
  | case3 offset c cs rest found after closed tag ih =>
    refine List.pairwise_cons.2 ⟨fun closing member => ?_, ih⟩
    obtain ⟨before, _, _, start, _⟩ := closesIn_of_mem member
    omega
  | case4 _ _ _ _ _ _ ih => exact ih

end Retag.Tag
