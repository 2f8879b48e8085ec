import InstallLocator.FileTree.Resolve

/-!
# The machine a search runs on

Its file tree, the directory that relative paths start from, and the variables
of the environment that name directories. Everything a strategy learns about
files it learns through the requests below.
-/

set_option autoImplicit false

namespace InstallLocator

structure Environment where
  home : Option Path
  configHome : Option Path
  dataHome : Option Path
  snapData : Option Path

structure Host where
  tree : FileTree
  here : Location
  environment : Environment

namespace Host

def entryAt (h : Host) (l : Location) : Except IoError Entry :=
  match h.tree.find? l with
  | some e => .ok e
  | none => .error .notFound

/-- What a path leads to, links followed. -/
def stat (h : Host) (p : Path) : Except IoError Entry := do
  h.entryAt (← h.tree.resolve h.here .followed p)

/-- What a path names, a link at its end not followed. -/
def statLink (h : Host) (p : Path) : Except IoError Entry := do
  h.entryAt (← h.tree.resolve h.here .kept p)

def isDirectory (h : Host) (p : Path) : Bool :=
  match h.stat p with
  | .ok e => e.isDirectory
  | .error _ => false

def exists? (h : Host) (p : Path) : Bool :=
  (h.stat p).isOk

/-- The entries of a directory in byte order of their names, whatever the order
in which they are listed. -/
def list (h : Host) (p : Path) : Except IoError (List (Name × Entry)) := do
  let l ← h.tree.resolve h.here .followed p
  if h.tree.isDirectoryAt l then
    let names := (h.tree.namesIn l).mergeSort Name.le
    return names.filterMap fun n => (h.tree.find? (n :: l)).map (n, ·)
  else
    throw (h.tree.refusal l)

def read (h : Host) (p : Path) : Except IoError Bytes := do
  (← h.stat p).read

def readText (h : Host) (p : Path) : Except IoError String :=
  match h.read p with
  | .error e => .error e
  | .ok bytes =>
    match Utf8.decode? bytes with
    | some cs => .ok (String.ofList cs)
    | none => .error .invalidText

end Host
end InstallLocator
