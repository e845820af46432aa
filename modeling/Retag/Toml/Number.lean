import Retag.Toml.Value

/-! Numbers of a TOML document. -/
namespace Retag.Toml

/-- Takes out the underscores, each of which must stand between two digits. -/
def plainDigits? (isDigit : Char → Bool) : Text → Option Text
  | [] => none
  | [c] => if isDigit c then some [c] else none
  | c :: '_' :: rest => if isDigit c then (plainDigits? isDigit rest).map (c :: ·) else none
  | c :: rest => if isDigit c then (plainDigits? isDigit rest).map (c :: ·) else none

def digitValue (c : Char) : Nat :=
  if c.isDigit then c.toNat - '0'.toNat
  else if 'a' ≤ c && c ≤ 'f' then c.toNat - 'a'.toNat + 10
  else if 'A' ≤ c && c ≤ 'F' then c.toNat - 'A'.toNat + 10
  else 0

def isHexDigit (c : Char) : Bool :=
  c.isDigit || ('a' ≤ c && c ≤ 'f') || ('A' ≤ c && c ≤ 'F')

def ofDigits (base : Nat) (digits : Text) : Nat :=
  digits.foldl (fun value c => value * base + digitValue c) 0

/-- Integers have 64 bits. -/
def integer? (value : Int) : Option Value :=
  if -9223372036854775808 ≤ value && value ≤ 9223372036854775807 then some (.integer value)
  else none

/-- Splits a sign off: true for minus. -/
def splitSign : Text → Bool × Text
  | '-' :: rest => (true, rest)
  | '+' :: rest => (false, rest)
  | text => (false, text)

/-- Decimal digits without a leading zero, unless it is the only one. -/
def wholeDigits? (text : Text) : Option Text :=
  match text with
  | '0' :: _ :: _ => none
  | _ => plainDigits? Char.isDigit text

def readInteger? (token : Text) : Option Value :=
  match token with
  | '0' :: 'x' :: rest => do integer? (ofDigits 16 (← plainDigits? isHexDigit rest))
  | '0' :: 'o' :: rest => do
    integer? (ofDigits 8 (← plainDigits? (fun c => '0' ≤ c && c ≤ '7') rest))
  | '0' :: 'b' :: rest => do
    integer? (ofDigits 2 (← plainDigits? (fun c => c == '0' || c == '1') rest))
  | _ => do
    let (negative, body) := splitSign token
    let value := ofDigits 10 (← wholeDigits? body)
    integer? (if negative then -value else value)

/-- Whether `digits` times a power of ten rounds to infinity as a number of 64 bits: from half a
step above the largest finite number on. -/
def overflows (digits : Text) (exponent : Int) : Bool :=
  let digits := digits.dropWhile (· == '0')
  let magnitude : Int := digits.length + exponent
  if digits.isEmpty || magnitude < 300 then false
  else if 320 < magnitude then true
  else
    let limit := Nat.pow 2 1024 - Nat.pow 2 970
    let value := ofDigits 10 digits
    if 0 ≤ exponent then limit ≤ value * Nat.pow 10 exponent.toNat
    else limit * Nat.pow 10 (-exponent).toNat ≤ value

/-- A number with a fraction, an exponent or both. One that rounds to plus infinity is refused. -/
def readFloat? (token : Text) : Option Value := do
  let (negative, body) := splitSign token
  if body = "inf".toList || body = "nan".toList then return .float token
  let isMark (c : Char) : Bool := c == '.' || c == 'e' || c == 'E'
  let whole ← wholeDigits? (body.takeWhile (!isMark ·))
  let (fraction, rest) ← match body.dropWhile (!isMark ·) with
    | '.' :: rest => do
      let digits ← plainDigits? Char.isDigit (rest.takeWhile (!isMark ·))
      some (digits, rest.dropWhile (!isMark ·))
    | rest => if rest.isEmpty then none else some ([], rest)
  let exponent ← match rest with
    | [] => some 0
    | mark :: power => do
      if mark == '.' then none
      else
        let (small, digits) := splitSign power
        let value : Int := ofDigits 10 (← plainDigits? Char.isDigit digits)
        some (if small then -value else value)
  if !negative && overflows (whole ++ fraction) (exponent - fraction.length) then none
  else return .float token

end Retag.Toml
