import InstallLocator.Steam.Library
import InstallLocator.Strategy.Basic

/-!
# The Steam strategy

Steam distributes the worldwide client only, so a directory it names without
readable metadata is taken for that client. An id of another product drops it.
How Steam is asked for the directory is left open, since the strategy relies on
nothing that the answer might satisfy.
-/

set_option autoImplicit false

namespace InstallLocator.Strategy

def steamName : String := "steam"

def steamCandidate (h : Host) (directory : Path) : Logged (List Candidate) :=
  let found := GameInfo.identify h directory
  match found.value with
  | .ok region => ⟨[⟨region, directory, steamName⟩], found.events⟩
  | .error (.unknownId _ id) => ⟨[], found.events ++ [.steamUnknownId directory id]⟩
  | .error e =>
    ⟨[⟨.worldwide, directory, steamName⟩], found.events ++ [.steamAssumed directory e]⟩

/-- Where Steam says an app is, and what is logged on the way. -/
abbrev SteamLookup := Host → Nat → Logged (Except Steam.Error (Option Path))

def steamLookup : SteamLookup := fun h app =>
  match Steam.installation? h with
  | none => .silent (.error .noInstallation)
  | some steam => ⟨Steam.appDirectory? h steam app, [.steamFound steam]⟩

def steamFrom (lookup : SteamLookup) (app : Nat) : Strategy where
  name := steamName
  probe h :=
    let found := lookup h app
    match found.value with
    | .error e => ⟨.error (.steam e), found.events⟩
    | .ok none => ⟨.ok [], found.events ++ [.appNotInstalled app]⟩
    | .ok (some directory) =>
      let candidates := steamCandidate h directory
      ⟨.ok candidates.value, found.events ++ candidates.events⟩

def steam (app : Nat) : Strategy := steamFrom steamLookup app

end InstallLocator.Strategy
