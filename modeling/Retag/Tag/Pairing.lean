import Retag.Tag.Basic

/-! Which closing tags belong to open tags that end. -/
namespace Retag.Tag

/-- Opens elements on a stack: an entry says whether the element's open tag ends. A tag that closes
itself opens none. -/
def openElements (stack : List Bool) (sites : List TagSite) : List Bool :=
  sites.foldl (fun stack site =>
    match site with
    | .bounded tag => if tag.selfClosing then stack else true :: stack
    | .unterminated _ => false :: stack) stack

/-- Pairs closing tags with the elements on the stack and those that `sites` open. `spanEnd` is the
end of the last open tag passed: a closing tag before it stands inside that tag and does not
count. -/
def pairedFrom (sites : List TagSite) (spanEnd : Nat) (stack : List Bool) :
    List ClosingTag → List ClosingTag
  | [] => []
  | closing :: rest =>
    let passed := sites.takeWhile (·.start < closing.start)
    let ahead := sites.dropWhile (·.start < closing.start)
    let spanEnd := (passed.getLast?.map (·.stop)).getD spanEnd
    let stack := openElements stack passed
    if closing.start < spanEnd then pairedFrom ahead spanEnd stack rest
    else
      match stack with
      | true :: stack => closing :: pairedFrom ahead spanEnd stack rest
      | _ => pairedFrom ahead spanEnd stack.tail rest

/-- The closing tags whose partner, by nesting, is an open tag that ends. -/
def paired (sites : List TagSite) (closings : List ClosingTag) : List ClosingTag :=
  pairedFrom sites 0 [] closings

end Retag.Tag
