import InstallLocator.FileTree.Resolve

/-!
# Changing a tree

Edits name their places by paths. Missing parent directories are made, and an
edit that cannot be done leaves the tree as it is.
-/

set_option autoImplicit false

namespace InstallLocator

inductive Edit
  | directory (p : Path)
  | file (p : Path) (content : Bytes)
  | link (p : Path) (target : Bytes)
  | remove (p : Path)
  | rename (p q : Path)

namespace FileTree

def makeDirectories (t : FileTree) (here : Location) (names : List Name) : FileTree :=
  (List.range names.length).foldl (fun t i =>
    match t.follow .created maxLinks here (names.take (i + 1)) with
    | .ok (n :: l) => if (t.find? (n :: l)).isNone then t.put n l .directory else t
    | _ => t) t

def place (t : FileTree) (here : Location) (last : LastName) (p : Path) :
    FileTree × Option (Name × Location) :=
  let base := if p.isAbsolute then [] else here
  let t := t.makeDirectories base (Path.steps p.bytes).dropLast
  match t.follow last maxLinks base (Path.steps p.bytes) with
  | .ok (n :: l) => (t, some (n, l))
  | _ => (t, none)

/-- The place a path names whether anything stands there or not, a link there
not followed. -/
def placeOfName (t : FileTree) (here : Location) (p : Path) :
    FileTree × Option (Name × Location) :=
  match (Path.steps p.bytes).getLast? with
  | none => (t, none)
  | some n =>
    let base := if p.isAbsolute then [] else here
    let parents := (Path.steps p.bytes).dropLast
    let t := t.makeDirectories base parents
    match t.follow .followed maxLinks base parents with
    | .ok l => (t, some (n, l))
    | .error _ => (t, none)

def putAll (t : FileTree) (n : Name) (l : Location) (es : List (Location × Entry)) : FileTree :=
  es.foldl (fun t x => match x.1 with
    | [] => t.put n l x.2
    | a :: m => t.put a (m ++ n :: l) x.2) t

def edit (t : FileTree) (here : Location) : Edit → FileTree
  | .directory p =>
    t.makeDirectories (if p.isAbsolute then [] else here) (Path.steps p.bytes)
  | .file p content =>
    match t.place here .created p with
    | (t, some (n, l)) => t.put n l (.file content)
    | (t, none) => t
  | .link p target =>
    match t.placeOfName here p with
    | (t, some (n, l)) => if (t.find? (n :: l)).isNone then t.put n l (.link target) else t
    | (t, none) => t
  | .remove p =>
    match t.placeOfName here p with
    | (t, some (n, l)) => t.erase n l
    | (t, none) => t
  | .rename p q =>
    match t.placeOfName here p with
    | (t, none) => t
    | (t, some (n, l)) =>
      match t.placeOfName here q with
      | (t, none) => t
      | (t, some (a, m)) => ((t.erase n l).erase a m).putAll a m (t.below (n :: l))

def edits (t : FileTree) (here : Location) (es : List Edit) : FileTree :=
  es.foldl (fun t e => t.edit here e) t

end FileTree
end InstallLocator
