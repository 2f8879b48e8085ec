import InstallLocator.Search.Walk
import InstallLocator.Strategy.Basic

/-!
# Search roots

Directories of the user's choice are walked for metadata files; the directory
that holds one is a candidate. Depth zero looks at the root alone, and no
depth beyond a fixed bound is used.
-/

set_option autoImplicit false

namespace InstallLocator.Strategy

def searchRootName : String := "search-root"

def isGameInfo (p : Path) (e : Entry) : Bool :=
  e.isFile && p.fileName? == some (Utf8.encode Constants.gameInfoFile.toList)

def visitCandidate (h : Host) (root : Path) : Search.Visit → Logged (List Candidate)
  | .error e => ⟨[], [.walkFailed (.traversal root e)]⟩
  | .ok (p, e) =>
    if isGameInfo p e then
      match p.parent? with
      | some directory => identified h searchRootName directory
      | none => .silent []
    else .silent []

def rootCandidates (h : Host) (depth : Nat) (root : Path) : Logged (List Candidate) :=
  .gather (⟨[], [.rootEntered root depth]⟩ ::
    (Search.walk h (depth + 1) root).map (visitCandidate h root))

def searchRoots (roots : List Path) (maxDepth : Nat) : Strategy where
  name := searchRootName
  probe h :=
    let depth := min maxDepth Constants.maxSearchDepth
    (Logged.gather (roots.map (rootCandidates h depth))).map .ok

end InstallLocator.Strategy
