import Retag.Toml.Number

/-! Dates and times of a TOML document. -/
namespace Retag.Toml

/-- Reads a number of exactly `count` digits that lies between `low` and `high`. -/
def readField? (count low high : Nat) (text : Text) : Option (Nat × Text) :=
  let digits := text.take count
  let value := ofDigits 10 digits
  if digits.length = count && digits.all Char.isDigit && low ≤ value && value ≤ high then
    some (value, text.drop count)
  else none

def daysIn (year month : Nat) : Nat :=
  if month = 2 then
    if (year % 4 = 0 && year % 100 != 0) || year % 400 = 0 then 29 else 28
  else if month = 4 || month = 6 || month = 9 || month = 11 then 30
  else 31

/-- Reads a date, and returns it with the rest. -/
def readDate? (text : Text) : Option (Text × Text) := do
  let (year, rest) ← readField? 4 0 9999 text
  let rest ← Text.dropPrefix? ['-'] rest
  let (month, rest) ← readField? 2 1 12 rest
  let rest ← Text.dropPrefix? ['-'] rest
  let (_, rest) ← readField? 2 1 (daysIn year month) rest
  return (text.take 10, rest)

/-- The first nine digits of a fraction of a second, without zeros at the end. -/
def renderFraction (digits : Text) : Text :=
  match ((digits.take 9).reverse.dropWhile (· == '0')).reverse with
  | [] => []
  | kept => '.' :: kept

/-- Reads a time of day; a leap second is allowed in every minute. -/
def readTime? (text : Text) : Option (Text × Text) := do
  let (_, rest) ← readField? 2 0 23 text
  let rest ← Text.dropPrefix? [':'] rest
  let (_, rest) ← readField? 2 0 59 rest
  let rest ← Text.dropPrefix? [':'] rest
  let (_, rest) ← readField? 2 0 60 rest
  match rest with
  | '.' :: tail =>
    let digits := tail.takeWhile Char.isDigit
    if digits.isEmpty then none
    else some (text.take 8 ++ renderFraction digits, tail.dropWhile Char.isDigit)
  | _ => some (text.take 8, rest)

/-- Reads the distance from universal time, which must end the text. -/
def readOffset? (text : Text) : Option Text :=
  match text with
  | [] => some []
  | ['Z'] | ['z'] => some ['Z']
  | sign :: rest => do
    if sign != '+' && sign != '-' then none
    let (hours, tail) ← readField? 2 0 23 rest
    let tail ← Text.dropPrefix? [':'] tail
    let (minutes, tail) ← readField? 2 0 59 tail
    if !tail.isEmpty then none
    else some ((if hours = 0 && minutes = 0 then '+' else sign) :: rest)

/-- Reads a time with the distance from universal time, if it is given. -/
def readInstant? (text : Text) : Option Text := do
  let (time, rest) ← readTime? text
  return time ++ (← readOffset? rest)

/-- A date, a date with a time after `T`, or a time. -/
def readDatetime? (token : Text) : Option Value :=
  match readDate? token with
  | some (date, []) => some (.datetime date)
  | some (date, mark :: rest) =>
    if mark == 'T' || mark == 't' then
      (readInstant? rest).map fun instant => .datetime (date ++ 'T' :: instant)
    else none
  | none =>
    match readTime? token with
    | some (time, []) => some (.datetime time)
    | _ => none

def isTokenChar (c : Char) : Bool :=
  c.isAlphanum || c == '_' || c == '+' || c == '-' || c == '.' || c == ':'

/-- Reads a value that has no quotes, brackets or braces. A blank may stand for the `T` between a
date and a time. -/
def readScalar? (text : Text) : Option (Value × Text) :=
  let token := text.takeWhile isTokenChar
  let rest := text.dropWhile isTokenChar
  if token = "true".toList then some (.boolean true, rest)
  else if token = "false".toList then some (.boolean false, rest)
  else
    match readDate? token, rest with
    | some (date, []), ' ' :: tail =>
      match readInstant? (tail.takeWhile isTokenChar) with
      | some instant =>
        some (.datetime (date ++ 'T' :: instant), tail.dropWhile isTokenChar)
      | none => some (.datetime date, rest)
    | _, _ =>
      ((readDatetime? token).or ((readFloat? token).or (readInteger? token))).map (·, rest)

end Retag.Toml
