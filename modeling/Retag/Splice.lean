import Retag.Text.Basic

/-! Replaced regions of a text, in bytes, and the way back from an offset after the replacement to
one before it. -/
namespace Retag

/-- The bytes from `start` to `stop` were replaced by `size` bytes. -/
structure Splice where
  start : Nat
  stop : Nat
  size : Nat
deriving DecidableEq

namespace Splice

/-- How many items two lists have in common at the front. -/
def commonLength [DecidableEq α] : List α → List α → Nat
  | a :: as, b :: bs => if a = b then commonLength as bs + 1 else 0
  | _, _ => 0

/-- How many bytes stand before the last line of a text. -/
def lineStart (bytes : List UInt8) : Nat := (bytes.reverse.dropWhile (· != 10)).length

/-- The one region in which two byte sequences differ. It starts at the start of a line, so that a
line taken out is not compared with the beginning of the next. -/
def betweenBytes (before after : List UInt8) : Option Splice :=
  if before = after then none
  else
    let start := lineStart (before.take (commonLength before after))
    let most := min before.length after.length - start
    let kept := min most (commonLength before.reverse after.reverse)
    some ⟨start, before.length - kept, after.length - start - kept⟩

/-- The one region in which two texts differ. -/
def between (before after : Text) : Option Splice := betweenBytes before.bytes after.bytes

/-- Traces an offset after a pass back to before it. The splices are in order; the ends of what
was passed so far are `inputEnd` before the pass and `outputEnd` after it. An offset in a
replacement goes to the same place in what it replaced, or to its end. -/
def traceFrom (offset inputEnd outputEnd : Nat) : List Splice → Nat
  | [] => inputEnd + (offset - outputEnd)
  | splice :: splices =>
    let outputStart := outputEnd + (splice.start - inputEnd)
    if offset < outputStart then inputEnd + (offset - outputEnd)
    else if offset - outputStart < splice.size then
      splice.start + min (offset - outputStart) (splice.stop - splice.start)
    else traceFrom offset splice.stop (outputStart + splice.size) splices

def trace (splices : List Splice) (offset : Nat) : Nat := traceFrom offset 0 0 splices

end Splice
end Retag
