import Retag.Toml.Number

/-! Strings of a TOML document. -/
namespace Retag.Toml

def isWhite (c : Char) : Bool := c == ' ' || c == '\t'

/-- Characters that a string or a comment may hold as they are: no control character but the
tab. -/
def isPlain (c : Char) : Bool := c == '\t' || (' ' ≤ c && c ≤ '~') || '\x80' ≤ c

def dropNewline? : Text → Option Text
  | '\n' :: rest => some rest
  | '\r' :: '\n' :: rest => some rest
  | _ => none

/-- The character with a code of exactly `count` hexadecimal digits. -/
def readCode? (count : Nat) (text : Text) : Option (Char × Text) :=
  let digits := text.take count
  let code := ofDigits 16 digits
  if digits.length = count && digits.all isHexDigit && code.isValidChar then
    some (Char.ofNat code, text.drop count)
  else none

/-- Reads what follows a backslash. -/
def readEscape? : Text → Option (Char × Text)
  | 'b' :: rest => some ('\x08', rest)
  | 't' :: rest => some ('\t', rest)
  | 'n' :: rest => some ('\n', rest)
  | 'f' :: rest => some ('\x0c', rest)
  | 'r' :: rest => some ('\r', rest)
  | '"' :: rest => some ('"', rest)
  | '\\' :: rest => some ('\\', rest)
  | 'u' :: rest => readCode? 4 rest
  | 'U' :: rest => readCode? 8 rest
  | _ => none

/-- The rest of a string in double quotes on one line. `fuel` bounds its length. -/
def readBasic? : (fuel : Nat) → Text → Option (Text × Text)
  | 0, _ | _, [] => none
  | fuel + 1, c :: cs =>
    if c == '"' then some ([], cs)
    else if c == '\\' then do
      let (escaped, rest) ← readEscape? cs
      let (text, rest) ← readBasic? fuel rest
      return (escaped :: text, rest)
    else if isPlain c then do
      let (text, rest) ← readBasic? fuel cs
      return (c :: text, rest)
    else none

/-- The rest of a string in single quotes on one line. -/
def readLiteral? : Text → Option (Text × Text)
  | [] => none
  | c :: cs =>
    if c == '\'' then some ([], cs)
    else if isPlain c then do
      let (text, rest) ← readLiteral? cs
      return (c :: text, rest)
    else none

/-- Drops white space and line breaks after a backslash at the end of a line. -/
def dropLineEnd? (text : Text) : Option Text :=
  (dropNewline? (text.dropWhile isWhite)).map skip
where
  skip : Text → Text
    | '\r' :: '\n' :: rest => skip rest
    | c :: rest => if isWhite c || c == '\n' then skip rest else c :: rest
    | [] => []

/-- The rest of a string over several lines. Three quotes end it, and one or two more before them
belong to it; `escapes` says whether a backslash is special. -/
def readLong? (quote : Char) (escapes : Bool) : (fuel : Nat) → Text → Option (Text × Text)
  | 0, _ | _, [] => none
  | fuel + 1, c :: cs =>
    if c == quote then
      let run := (c :: cs).takeWhile (· == quote)
      if 3 ≤ run.length then
        let inside := min (run.length - 3) 2
        some (List.replicate inside quote, (c :: cs).drop (inside + 3))
      else do
        let (text, rest) ← readLong? quote escapes fuel ((c :: cs).drop run.length)
        return (run ++ text, rest)
    else if c == '\\' && escapes then
      match dropLineEnd? cs with
      | some rest => readLong? quote escapes fuel rest
      | none => do
        let (escaped, rest) ← readEscape? cs
        let (text, rest) ← readLong? quote escapes fuel rest
        return (escaped :: text, rest)
    else
      match dropNewline? (c :: cs) with
      | some rest => do
        let (text, rest) ← readLong? quote escapes fuel rest
        return ('\n' :: text, rest)
      | none =>
        if isPlain c then do
          let (text, rest) ← readLong? quote escapes fuel cs
          return (c :: text, rest)
        else none

/-- A string on one line. -/
def readLineString? : Text → Option (Text × Text)
  | '"' :: rest => readBasic? rest.length.succ rest
  | '\'' :: rest => readLiteral? rest
  | _ => none

/-- A string of any form. A line break right after three quotes does not count. -/
def readString? (text : Text) : Option (Text × Text) :=
  match text with
  | '"' :: '"' :: '"' :: rest =>
    let rest := (dropNewline? rest).getD rest
    readLong? '"' true rest.length.succ rest
  | '\'' :: '\'' :: '\'' :: rest =>
    let rest := (dropNewline? rest).getD rest
    readLong? '\'' false rest.length.succ rest
  | _ => readLineString? text

end Retag.Toml
