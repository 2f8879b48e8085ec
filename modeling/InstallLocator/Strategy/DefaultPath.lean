import InstallLocator.Glob.Expand
import InstallLocator.Strategy.Basic

/-!
# Default install paths

Well-known places are fixed patterns and patterns below the home directory, whose
own characters stand for themselves; which ones depends on the platform. Of each
pattern the first few paths are looked at, and of those the directories.
-/

set_option autoImplicit false

namespace InstallLocator.Strategy

def defaultPathName : String := "default-path"

/-- The systems that differ in where clients lie; others are as `linux`. -/
inductive Platform
  | linux
  | windows
  | macos
deriving DecidableEq, Repr

namespace Platform

def separator : Platform → String
  | windows => "\\"
  | _ => "/"

def fixedPatterns : Platform → List String
  | windows => Constants.windowsPatterns
  | _ => []

def relativePatterns : Platform → List String
  | linux => Constants.homePatterns
  | windows => []
  | macos => Constants.macHomePatterns

/-- The patterns of a platform, those below the home directory if it is known. -/
def patterns (platform : Platform) (home : Option Path) : List String :=
  platform.fixedPatterns ++
    match home with
    | none => []
    | some home =>
      platform.relativePatterns.map fun p =>
        Glob.escape home.shown ++ platform.separator ++ p

end Platform

def homePatterns (home : Option Path) : List String := Platform.linux.patterns home

def matchCandidate (h : Host) (pattern : String) :
    Except Glob.ExpandError Path → Logged (List Candidate)
  | .error e => ⟨[], [.matchUnreadable pattern e]⟩
  | .ok p => if h.isDirectory p then identified h defaultPathName p else .silent []

def patternCandidates (h : Host) (pattern : String) : Logged (List Candidate) :=
  match Glob.Pattern.ofText pattern with
  | .error e => ⟨[], [.patternSkipped (.pattern pattern e)]⟩
  | .ok parsed =>
    .gather ((parsed.expand h Constants.maxPatternMatches).map (matchCandidate h pattern))

def defaultPaths (patterns : List String) : Strategy where
  name := defaultPathName
  probe h := (Logged.gather (patterns.map (patternCandidates h))).map .ok

end InstallLocator.Strategy
