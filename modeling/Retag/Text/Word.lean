import Retag.Text.Blank
import Retag.Text.Unicode.Alphabetic
import Retag.Text.Unicode.Numeric
import Retag.Text.Unicode.Mark
import Retag.Text.Unicode.Recent

/-! The characters that words and identifiers are made of. Identifiers follow version 17 of the
Unicode standard, and words version 16. -/
namespace Retag.Text

def isAlphanumeric (c : Char) : Bool :=
  inRanges Unicode.alphabetic c || inRanges Unicode.numeric c

/-- Characters of a word: letters, marks, decimal digits, connecting punctuation and join
controls, as of version 16 of the standard. -/
def isWord (c : Char) : Bool :=
  (inRanges Unicode.alphabetic c || inRanges Unicode.mark c || inRanges Unicode.decimal c ||
    inRanges Unicode.connector c || inRanges Unicode.joinControl c) &&
    !inRanges Unicode.recent c

/-- Characters that can continue an identifier in source code. -/
def isIdentifier (c : Char) : Bool := isAlphanumeric c || c == '_' || c == '$'

end Retag.Text
