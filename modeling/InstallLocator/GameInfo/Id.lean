import InstallLocator.Text.White

/-!
# The product id of a client

The id stands in the first `<id>` element of the client's metadata that holds
no further tag. An element of white space alone has no id, and hides any later
one.
-/

set_option autoImplicit false

namespace InstallLocator.GameInfo

def openTag : List Char := ['<', 'i', 'd', '>']
def closeTag : List Char := ['<', '/', 'i', 'd', '>']

def elementAt? (cs : List Char) : Option (List Char) := do
  let rest ← openTag.isPrefixOf? cs
  if closeTag.isPrefixOf (rest.dropWhile (· ≠ '<')) then some (rest.takeWhile (· ≠ '<')) else none

def firstElement? : List Char → Option (List Char)
  | [] => none
  | c :: cs =>
    match elementAt? (c :: cs) with
    | some t => some t
    | none => firstElement? cs

def idOf? (cs : List Char) : Option (List Char) :=
  match firstElement? cs with
  | some t => if trimChars t = [] then none else some (trimChars t)
  | none => none

def extractId (content : String) : Option String :=
  (idOf? content.toList).map String.ofList

end InstallLocator.GameInfo
