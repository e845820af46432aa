import Retag.Text.Blank
import Retag.Text.Enclosed

/-! Finding the open and closing tags of one name in a source text. -/
namespace Retag

/-- A part of a text, by the byte offsets of its ends. -/
structure ByteRange where
  start : Nat
  stop : Nat
deriving DecidableEq

/-- An open tag whose end is known. -/
structure OpenTag where
  start : Nat
  name : Text
  /-- What stands between the name and the end. -/
  attributes : Text
deriving DecidableEq

namespace OpenTag

def text (tag : OpenTag) : Text := '<' :: tag.name ++ tag.attributes ++ ['>']

def attributesRange (tag : OpenTag) : ByteRange :=
  let start := tag.start + Text.size ('<' :: tag.name)
  ⟨start, start + tag.attributes.size⟩

def stop (tag : OpenTag) : Nat := tag.attributesRange.stop + 1

/-- Whether a slash stands before the end. -/
def selfClosing (tag : OpenTag) : Bool := (Text.trimEnd tag.attributes).getLast? == some '/'

end OpenTag

structure ClosingTag where
  start : Nat
  name : Text
  /-- White space between the name and the end. -/
  blank : Text
deriving DecidableEq

namespace ClosingTag

def text (tag : ClosingTag) : Text := '<' :: '/' :: tag.name ++ tag.blank ++ ['>']

def stop (tag : ClosingTag) : Nat := tag.start + tag.text.size

end ClosingTag

/-- A place where a tag opens. -/
inductive TagSite where
  | bounded (tag : OpenTag)
  /-- The tag that starts here never ends. -/
  | unterminated (start : Nat)
deriving DecidableEq

namespace TagSite

def start : TagSite → Nat
  | .bounded tag => tag.start
  | .unterminated start => start

/-- The end of what belongs to the tag: nothing does if it never ends. -/
def stop : TagSite → Nat
  | .bounded tag => tag.stop
  | .unterminated start => start

end TagSite

namespace Tag

/-- Whether a name that stands before this text ends there, so that `<Button` is not found in
`<ButtonGroup`. -/
def endsName : Text → Bool
  | [] => true
  | c :: _ => Text.isAsciiBlank c || c == '/' || c == '>'

-- The equations of the matches are there for the termination proof.
set_option linter.unusedVariables false in
/-- The places where `name` opens in a text that stands at byte `offset`. The search goes on after
the end of a tag, or after the name if the tag never ends. -/
def openSitesFrom (name : Text) (offset : Nat) : Text → List TagSite
  | [] => []
  | c :: cs =>
    match found : Text.dropPrefix? ('<' :: name) (c :: cs) with
    | none => openSitesFrom name (offset + c.utf8Size) cs
    | some rest =>
      let next := offset + Text.size ('<' :: name)
      if endsName rest then
        match closed : Text.untilTagEnd? none 0 rest with
        | some (attributes, after) =>
          .bounded ⟨offset, name, attributes⟩ ::
            openSitesFrom name (next + attributes.size + 1) after
        | none => .unterminated offset :: openSitesFrom name next rest
      else openSitesFrom name next rest
termination_by text => text.length
decreasing_by
  · simp
  · have same := congrArg List.length (Text.dropPrefix?_eq_some_iff.1 found)
    have tail := congrArg List.length (Text.eq_of_untilTagEnd? closed)
    simp at same tail ⊢
    omega
  · have same := congrArg List.length (Text.dropPrefix?_eq_some_iff.1 found)
    simp at same ⊢
    omega
  · have same := congrArg List.length (Text.dropPrefix?_eq_some_iff.1 found)
    simp at same ⊢
    omega

/-- The places where `name` opens, in the order of the source. -/
def openSites (source name : Text) : List TagSite := openSitesFrom name 0 source

set_option linter.unusedVariables false in
/-- The closing tags of `name` in a text that stands at byte `offset`. -/
def closingTagsFrom (name : Text) (offset : Nat) : Text → List ClosingTag
  | [] => []
  | c :: cs =>
    match found : Text.dropPrefix? ('<' :: '/' :: name) (c :: cs) with
    | none => closingTagsFrom name (offset + c.utf8Size) cs
    | some rest =>
      match closed : rest.dropWhile Text.isAsciiBlank with
      | '>' :: after =>
        let tag : ClosingTag := ⟨offset, name, rest.takeWhile Text.isAsciiBlank⟩
        tag :: closingTagsFrom name tag.stop after
      | _ => closingTagsFrom name (offset + Text.size ('<' :: '/' :: name)) rest
termination_by text => text.length
decreasing_by
  · simp
  · have same := congrArg List.length (Text.dropPrefix?_eq_some_iff.1 found)
    have tail := (List.dropWhile_sublist Text.isAsciiBlank (l := rest)).length_le
    rw [closed] at tail
    simp at same tail ⊢
    omega
  · have same := congrArg List.length (Text.dropPrefix?_eq_some_iff.1 found)
    simp at same ⊢
    omega

/-- The closing tags of `name`, in the order of the source. -/
def closingTags (source name : Text) : List ClosingTag := closingTagsFrom name 0 source

end Tag
end Retag
