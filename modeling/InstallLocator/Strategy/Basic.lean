import InstallLocator.GameInfo.Read

/-!
# Strategies

A strategy is a name and a way to find candidates on a host. It reports
candidates, not verdicts: a candidate it cannot identify is logged and left
out, and it fails only when nothing at all could be looked at.
-/

set_option autoImplicit false

namespace InstallLocator

structure Strategy where
  name : String
  probe : Host → Logged (Except ProbeError (List Candidate))

namespace Strategy

def identified (h : Host) (source : String) (directory : Path) : Logged (List Candidate) :=
  let found := GameInfo.identify h directory
  match found.value with
  | .ok region => ⟨[⟨region, directory, source⟩], found.events⟩
  | .error e => ⟨[], found.events ++ [.unidentified source directory e]⟩

def fixed (name : String) (found : List (Region × Path)) : Strategy where
  name := name
  probe _ := .silent (.ok (found.map fun x => ⟨x.1, x.2, name⟩))

def failing (name : String) (e : ProbeError) : Strategy where
  name := name
  probe _ := .silent (.error e)

def overrides (paths : List (Region × Path)) : Strategy := fixed "override" paths

end Strategy
end InstallLocator
