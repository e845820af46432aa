import Retag.Text.Blank
import Retag.Text.Unicode.Case
import Retag.Text.Unicode.Lower

/-! Full lower-casing. A capital sigma becomes the final form at the end of a word, and capital I
with a dot above becomes two characters. -/
namespace Retag.Text

def lowerCode (code : Nat) : Nat :=
  match Unicode.lowerRuns.find? (·.covers code) with
  | some run => run.lower code
  | none => code

/-- Lower-case form of a character that does not depend on its neighbours. -/
def lowerChar (c : Char) : Text :=
  if c == 'İ' then ['i', '\u0307'] else [Char.ofNat (lowerCode c.toNat)]

/-- Whether the first character that counts for casing belongs to a word. -/
def startsCased (text : Text) : Bool :=
  match text.dropWhile (inRanges Unicode.caseIgnorable) with
  | [] => false
  | c :: _ => inRanges Unicode.cased c

/-- Lower-cases `text`, where `before` is what precedes it, nearest character first. -/
def lowercaseAfter (before : Text) : Text → Text
  | [] => []
  | c :: cs =>
    let lowered :=
      if c == 'Σ' then [if startsCased before && !startsCased cs then 'ς' else 'σ']
      else lowerChar c
    lowered ++ lowercaseAfter (c :: before) cs

def lowercase (text : Text) : Text := lowercaseAfter [] text

end Retag.Text
