import Retag.Origin
import Retag.StableSort
import Retag.Tag.Pairing

/-! Renaming a tag throughout a text. Attribute texts go through a transform on the way; tags that
never end stay as they are, and so do their closing tags. -/
namespace Retag

/-- A piece of text that stands at byte `start` and what takes its place. -/
structure Replacement where
  start : Nat
  before : Text
  after : Text
deriving DecidableEq

namespace Replacement

def stop (replacement : Replacement) : Nat := replacement.start + replacement.before.size

def splice? (replacement : Replacement) : Option Splice :=
  if replacement.after = replacement.before then none
  else some ⟨replacement.start, replacement.stop, replacement.after.size⟩

/-- Makes replacements, in the order of their starts, in a text that stands at byte `offset`.
There is no result if a replacement starts before the end of the one before it. -/
def replaceFrom? (offset : Nat) (text : Text) : List Replacement → Option Text
  | [] => some text
  | replacement :: rest =>
    if replacement.start < offset then none
    else
      let (kept, tail) := text.splitAtByte (replacement.start - offset)
      (replaceFrom? replacement.stop (tail.dropBytes replacement.before.size) rest).map
        fun changed => kept ++ replacement.after ++ changed

def replaceAll? (text : Text) (replacements : List Replacement) : Option Text :=
  replaceFrom? 0 text replacements

end Replacement

/-- What becomes of a tag's attribute text, with the issues found in it. -/
abbrev AttributeTransform := Text → Location → Text × List Issue

/-- An open tag that was renamed. -/
structure RenamedTag where
  location : Location
  /-- The attribute text given to the transform. -/
  attributes : Text
  replacement : Replacement
  issues : List Issue

structure Renaming where
  text : Text
  tags : List RenamedTag
  /-- The closing tags that were renamed. -/
  closings : List ClosingTag
  /-- Tags that never end. -/
  warnings : List Issue
  splices : List Splice

namespace Tag

/-- Cuts the attribute text before its tail: the white space at the end and a slash before it. -/
def splitTail (attributes : Text) : Text × Text :=
  let trimmed := Text.trimEnd attributes
  let head := if trimmed.getLast? == some '/' then trimmed.dropLast else trimmed
  (head, attributes.drop head.length)

def renameOpen (newName : Text) (origin : Origin) (transform : AttributeTransform)
    (tag : OpenTag) : RenamedTag :=
  let location := origin.locate tag.start
  let (head, tail) := splitTail tag.attributes
  let (changed, issues) := transform head location
  { location, attributes := head, issues
    replacement := ⟨tag.start, tag.text, '<' :: newName ++ changed ++ tail ++ ['>']⟩ }

def renameClosing (newName : Text) (tag : ClosingTag) : Replacement :=
  ⟨tag.start, tag.text, '<' :: '/' :: newName ++ ['>']⟩

def unterminatedMessage (name : Text) : Text :=
  "unterminated <".toList ++ name ++ "> tag".toList

/-- Says that the tag which starts at `position` never ends. -/
def boundaryMessage (position : Position) (name : Text) : Text :=
  "Tag boundary error at line ".toList ++ Text.ofNat position.line ++ ", column ".toList ++
    Text.ofNat position.column ++ ": ".toList ++ unterminatedMessage name

def bounded? : TagSite → Option OpenTag
  | .bounded tag => some tag
  | .unterminated _ => none

def unterminated? : TagSite → Option Nat
  | .bounded _ => none
  | .unterminated start => some start

/-- Renames `name` to `newName`. There is no result if an open and a closing tag overlap, which
needs a name that is empty or starts with a slash. -/
def rename? (source name newName : Text) (origin : Origin) (transform : AttributeTransform) :
    Option Renaming :=
  let sites := openSites source name
  let closings := paired sites (closingTags source name)
  let tags := (sites.filterMap bounded?).map (renameOpen newName origin transform)
  let replacements := StableSort.sort (·.start ≤ ·.start)
    (tags.map (·.replacement) ++ closings.map (renameClosing newName))
  let warning (start : Nat) : Issue := ⟨.malformedTag, origin.locate start,
    unterminatedMessage name ++ "; occurrence left untouched".toList⟩
  (Replacement.replaceAll? source replacements).map fun text =>
    { text, tags, closings
      warnings := (sites.filterMap unterminated?).map warning
      splices := replacements.filterMap Replacement.splice? }

end Tag

/-- The change as a preview shows it, if there is one. -/
def RenamedTag.edit? (tag : RenamedTag) : Option Edit :=
  if tag.replacement.after = tag.replacement.before then none
  else some ⟨tag.location.position.line, tag.replacement.before, tag.replacement.after⟩

namespace Renaming

def count (result : Renaming) : Nat := result.tags.length

def edits (result : Renaming) : List Edit := result.tags.filterMap RenamedTag.edit?

def issues (result : Renaming) : List Issue :=
  result.warnings ++ result.tags.flatMap (·.issues)

end Renaming
end Retag
