import Retag.Text.Basic

/-! Attributes of a tag, and the tokens of the text between a tag's name and its end. Texts are
kept as they were read: nothing is unescaped, so every token renders to its source. -/
namespace Retag

inductive Quote where
  | double
  | single
deriving DecidableEq

def Quote.char : Quote → Char
  | .double => '"'
  | .single => '\''

def Quote.ofChar? : Char → Option Quote
  | '"' => some .double
  | '\'' => some .single
  | _ => none

namespace Attribute

inductive Value where
  /-- Quoted text. -/
  | literal (quote : Quote) (text : Text)
  /-- An expression in braces; the braces are not part of the text. -/
  | expression (text : Text)
  /-- Text without quotes. It also holds a value whose quote or brace is never closed. -/
  | bareWord (text : Text)
  /-- No value. -/
  | boolean
deriving DecidableEq

/-- White space around the equals sign. -/
structure Spacing where
  before : Text := []
  after : Text := []
deriving DecidableEq

end Attribute

structure Attribute where
  name : Text
  value : Attribute.Value
  spacing : Attribute.Spacing := {}
deriving DecidableEq

namespace Attribute

def Value.literal? : Value → Option Text
  | .literal _ text => some text
  | _ => none

def Value.isLiteral (value : Value) : Bool := value.literal?.isSome

def Value.render : Value → Text
  | .literal quote text => quote.char :: text ++ [quote.char]
  | .expression text => '{' :: text ++ ['}']
  | .bareWord text => text
  | .boolean => []

def render (attr : Attribute) : Text :=
  match attr.value with
  | .boolean => attr.name
  | value =>
    attr.name ++ attr.spacing.before ++ '=' :: attr.spacing.after ++ value.render

/-- An attribute with a double-quoted value. -/
def ofLiteral (name text : Text) : Attribute := { name, value := .literal .double text }

/-- Replaces the value by a literal. A literal keeps its quotes; any other value becomes
double-quoted and loses its spacing. -/
def setLiteral (attr : Attribute) (text : Text) : Attribute :=
  match attr.value with
  | .literal quote _ => { attr with value := .literal quote text }
  | _ => ofLiteral attr.name text

end Attribute

inductive Token where
  | blank (run : Text)
  | attr (item : Attribute)
  | slash
deriving DecidableEq

namespace Token

def space : Token := .blank [' ']

def attr? : Token → Option Attribute
  | .attr item => some item
  | _ => none

def isAttribute (token : Token) : Bool := token.attr?.isSome

def isBlank : Token → Bool
  | .blank _ => true
  | _ => false

def render : Token → Text
  | .blank run => run
  | .attr item => item.render
  | .slash => ['/']

end Token
end Retag
