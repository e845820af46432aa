import Retag.Attribute.Reading

/-! Edits of an attribute list. Indices count tokens, white space included, and no edit touches a
token that it was not asked to. -/
namespace Retag.AttributeList

/-- Whether the token is an attribute called `name`. -/
def named (name : Text) : Token → Bool
  | .attr item => item.name == name
  | _ => false

/-- Index of the first attribute called `name`. -/
def find? (list : AttributeList) (name : Text) : Option Nat := list.findIdx? (named name)

def attrAt? (list : AttributeList) (index : Nat) : Option Attribute :=
  list[index]?.bind Token.attr?

/-- The first attribute called `name`. -/
def get? (list : AttributeList) (name : Text) : Option Attribute :=
  (list.find? name).bind list.attrAt?

/-- Changes the attribute at `index`; any other token stays. -/
def modifyAt (list : AttributeList) (index : Nat) (change : Attribute → Attribute) :
    AttributeList :=
  list.modify index fun
    | .attr item => .attr (change item)
    | token => token

/-- Changes the first attribute called `name`. -/
def modify (list : AttributeList) (name : Text) (change : Attribute → Attribute) :
    AttributeList :=
  match list.find? name with
  | some index => list.modifyAt index change
  | none => list

/-- Takes one token out and leaves the white space around it. -/
def remove? (list : AttributeList) (index : Nat) : Option (Token × AttributeList) :=
  list[index]?.map fun token => (token, list.eraseIdx index)

/-- A single space if the token is an attribute. -/
def gapBeside : Option Token → AttributeList
  | some (.attr _) => [Token.space]
  | _ => []

/-- Puts attributes in at `index`, or at the end if the list is shorter, with a single space
wherever two attributes would touch. -/
def insertAt (list : AttributeList) (index : Nat) (attrs : List Attribute) : AttributeList :=
  if attrs.isEmpty then list
  else
    let before := list.take index
    let after := list.drop index
    before ++ gapBeside before.getLast? ++ (attrs.map Token.attr).intersperse Token.space ++
      gapBeside after.head? ++ after

/-- Renames the first attribute called `name`. -/
def rename (list : AttributeList) (name newName : Text) : AttributeList :=
  list.modify name fun item => { item with name := newName }

/-- Tidies the gap left by a removal at `index`: of two runs of white space the first goes, and so
does white space at the end of the list. -/
def collapseBlankAt (list : AttributeList) (index : Nat) : AttributeList :=
  if index = 0 || list.length < index then list
  else if list[index - 1]?.any Token.isBlank && list[index]?.all Token.isBlank then
    list.eraseIdx (index - 1)
  else list

/-- Puts a single space between attributes that touch. -/
def separate : AttributeList → AttributeList
  | .attr a :: .attr b :: rest => .attr a :: Token.space :: separate (.attr b :: rest)
  | token :: rest => token :: separate rest
  | [] => []

end Retag.AttributeList
