import InstallLocator.Glob.Match
import InstallLocator.Host

/-!
# The paths a pattern stands for

The pattern is cut into components at slashes. Components without
metacharacters are looked up; at one with metacharacters the directory is
listed and the walk goes on, in byte order of the names, with each entry that
matches. A component `**` is tried on the entry it has reached and on
everything below. Only the first paths are worked out, as many as asked for.
-/

set_option autoImplicit false

namespace InstallLocator.Glob

structure ExpandError where
  path : Path
  cause : IoError

def ExpandError.message (e : ExpandError) : String :=
  "attempting to read `" ++ e.path.shown ++ "` resulted in an error: " ++ e.cause.message

abbrev Component := List Token

def isRecursive (c : Component) : Bool :=
  c.contains .anyDirectories

structure Pattern where
  absolute : Bool
  components : List Component
  onlyDirectories : Bool

/-- The components between slashes, the one after a final slash left out. -/
def pieces (cs : List Char) : List (List Char) :=
  let parts := cs.splitOn '/'
  if parts.getLast? = some [] then parts.dropLast else parts

def Pattern.ofText (text : String) : Except PatternError Pattern := do
  let _ ← parse text
  let cs := text.toList
  let absolute := cs.head? = some '/'
  let rest := if absolute then cs.drop 1 else cs
  let components ← (pieces rest).mapM fun p => tokens 0 none p
  return ⟨absolute, if rest = [] then [[]] else components, cs.getLast? = some '/'⟩

/-- What is left to do with a path: it is a result, or its last name has still
to match the first of these components, or it could not be listed. -/
inductive Task
  | found (p : Path) (directory : Bool)
  | matching (p : Path) (directory : Bool) (components : List Component)
  | failed (e : ExpandError)

/-- The path is `.`, perhaps with slashes or further `.` after it. -/
def isHere (p : Path) : Bool :=
  p.components = [.current]

def nameText? (p : Path) : Option (List Char) :=
  p.fileName?.bind Utf8.decode?

def currentChars : List Char := ['.']
def parentChars : List Char := ['.', '.']

def entryTask (h : Host) (p : Path) (components : List Component) (x : Name × Entry) : Task :=
  let q := if isHere p then ⟨x.1⟩ else p.child x.1
  let directory := match x.2 with
    | .link _ => h.isDirectory q
    | e => e.isDirectory
  .matching q directory components

def descend (h : Host) : List Component → Path → Bool → List Task
  | [], _, _ => []
  | c :: rest, p, directory =>
    let add (q : Path) : List Task :=
      if rest.isEmpty then [.found q (h.isDirectory q)]
      else descend h rest q (h.isDirectory q)
    match literal? c with
    | some s =>
      let step : Path := ⟨Utf8.encode s⟩
      let q := if isHere p then step else p.join step
      let there :=
        if s = currentChars ∨ s = parentChars then directory
        else (h.stat q).isOk || (h.statLink q).isOk
      if there then add q else []
    | none =>
      if directory then
        match h.list p with
        | .error e => [.failed ⟨p, e⟩]
        | .ok entries =>
          let special (s : List Char) : List Task :=
            if c.head? = some (.char '.') ∧ isMatch c s then add (p.join ⟨Utf8.encode s⟩) else []
          special parentChars ++ special currentChars ++ entries.map (entryTask h p (c :: rest))
      else []

def matchName (h : Host) (onlyDirectories : Bool) (p : Path) (directory : Bool) :
    List Component → Option Path × List Task
  | [] => (none, [])
  | c :: rest =>
    match nameText? p with
    | none => (none, [])
    | some name =>
      if isMatch c name then
        if rest.isEmpty then
          (if !onlyDirectories || directory then some p else none, [])
        else (none, descend h rest p directory)
      else (none, [])

def perform (h : Host) (onlyDirectories : Bool) :
    Task → Option (Except ExpandError Path) × List Task
  | .failed e => (some (.error e), [])
  | .found p directory =>
    (if onlyDirectories && !directory then none else some (.ok p), [])
  | .matching p directory components =>
    let rest := components.dropWhile isRecursive
    if components.length = rest.length then
      let (r, more) := matchName h onlyDirectories p directory components
      (r.map .ok, more)
    else
      let recursive := components.take (components.length - rest.length)
      let inside := if directory then descend h (recursive.getLast?.toList ++ rest) p true else []
      if rest.isEmpty then (if directory then some (.ok p) else none, inside)
      else
        let (r, more) := matchName h onlyDirectories p directory rest
        (r.map .ok, more ++ inside)

def firstOf {α β : Type} (results : Nat → α → List β) : Nat → List α → List β
  | _, [] => []
  | 0, _ => []
  | limit, t :: ts =>
    let found := results limit t
    found ++ firstOf results (limit - found.length) ts

/-- The first results of a task and of all it leads to. Every path is longer
than the one it comes from, so the longest path bounds the depth. -/
def results (h : Host) (onlyDirectories : Bool) :
    Nat → Nat → Task → List (Except ExpandError Path)
  | 0, _, _ => []
  | depth + 1, limit, t =>
    let (r, more) := perform h onlyDirectories t
    let found := r.toList.take limit
    found ++ firstOf (results h onlyDirectories depth) (limit - found.length) more

def Pattern.expand (h : Host) (pattern : Pattern) (limit : Nat) :
    List (Except ExpandError Path) :=
  let scope : Path := ⟨if pattern.absolute then [Path.slash] else Path.currentName⟩
  firstOf (results h pattern.onlyDirectories (FileTree.maxPathLength + 2)) limit
    (descend h pattern.components scope (h.isDirectory scope))

end InstallLocator.Glob
