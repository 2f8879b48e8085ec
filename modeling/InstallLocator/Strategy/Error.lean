import InstallLocator.GameInfo.Error
import InstallLocator.Glob.Expand
import InstallLocator.Search.Walk
import InstallLocator.Steam.Error

/-!
# Why a strategy or a candidate failed

Each with the error it comes from, where there is one.
-/

set_option autoImplicit false

namespace InstallLocator

inductive ProbeError
  | unidentified (e : GameInfo.Error)
  | registry (key : String) (cause : IoError)
  | steam (e : Steam.Error)
  | pattern (text : String) (e : Glob.PatternError)
  | traversal (root : Path) (e : Search.WalkError)

namespace ProbeError

def message : ProbeError → String
  | unidentified e => e.message
  | registry key cause => "Registry access to '" ++ key ++ "' failed: " ++ cause.message
  | steam e => "Steam lookup failed: " ++ e.message
  | pattern text e => "Invalid path pattern '" ++ text ++ "': " ++ e.message
  | traversal root e => "Error traversing '" ++ root.shown ++ "': " ++ e.message

def cause? : ProbeError → Option String
  | unidentified e => e.cause?
  | registry _ cause => some cause.message
  | steam e => some e.message
  | pattern _ e => some e.message
  | traversal _ e => some e.message

end ProbeError
end InstallLocator
