import InstallLocator.FileTree.Basic

/-!
# Resolving paths

A walk takes the names of a path one after the other, from a directory. A link
on the way is replaced by its own text, at most forty times in all. What
happens at the last name depends on the request: the link there is followed or
kept, or nothing need be there yet.
-/

set_option autoImplicit false

namespace InstallLocator.FileTree

inductive LastName
  | followed
  | kept
  | created
deriving DecidableEq

/-- A walk up to the first link to follow, which is left to `onLink`. -/
def walk (t : FileTree) (last : LastName)
    (onLink : Location → List Name → Except IoError Location) :
    Location → List Name → Except IoError Location
  | l, [] => .ok l
  | l, n :: rest =>
    if n = Path.finalSlash then
      if t.holdsDirectory l then walk t last onLink l rest else .error .notADirectory
    else if !t.isDirectoryAt l then .error (t.refusal l)
    else if n = Path.currentName then walk t last onLink l rest
    else if n = Path.parentName then walk t last onLink l.tail rest
    else if 255 < n.length then .error .nameTooLong
    else match t.find? (n :: l) with
      | none => if rest = [] ∧ last = .created then .ok (n :: l) else .error .notFound
      | some (.link target) =>
        if rest = [] ∧ last = .kept then .ok (n :: l)
        else onLink (if (Path.mk target).isAbsolute then [] else l) (Path.steps target ++ rest)
      | some _ => walk t last onLink (n :: l) rest

def follow (t : FileTree) (last : LastName) :
    Nat → Location → List Name → Except IoError Location
  | 0 => walk t last fun _ _ => .error .tooManyLinks
  | links + 1 => walk t last (follow t last links)

def maxLinks : Nat := 40
def maxPathLength : Nat := 4095

def resolve (t : FileTree) (here : Location) (last : LastName) (p : Path) :
    Except IoError Location :=
  if p.bytes.contains 0 then .error .nulInPath
  else if p.bytes = [] then .error .notFound
  else if maxPathLength < p.bytes.length then .error .nameTooLong
  else t.follow last maxLinks (if p.isAbsolute then [] else here) (Path.steps p.bytes)

end InstallLocator.FileTree
