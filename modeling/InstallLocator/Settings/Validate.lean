import InstallLocator.Path
import InstallLocator.RegionMap
import InstallLocator.Constants
import InstallLocator.Settings.Error
import InstallLocator.Text.LowerCase

/-!
# Validated settings

Each setting is judged on its own: what it is worth, and the warnings it
deserves. A value that is refused leaves the default of that setting alone.
-/

set_option autoImplicit false

namespace InstallLocator

structure Settings where
  useRegistry : Bool
  useSteam : Bool
  useDefaultPaths : Bool
  searchRoots : List Path
  maxDepth : Nat
  publishers : List String
  overrides : RegionMap Path
  logLevel : Option String
deriving DecidableEq

namespace Settings

def default : Settings where
  useRegistry := true
  useSteam := true
  useDefaultPaths := true
  searchRoots := []
  maxDepth := Constants.defaultSearchDepth
  publishers := Constants.publishers
  overrides := .empty
  logLevel := none

def isDefault (s : Settings) : Bool := s = default

structure Judged (α : Type) where
  value : α
  warnings : List String

def acceptedDepths : String :=
  "0-" ++ toString Constants.maxSearchDepth ++ "; using default (" ++
    toString Constants.defaultSearchDepth ++ ")"

def judgeMaxDepth : Option Nat → Judged Nat
  | none => ⟨Constants.defaultSearchDepth, []⟩
  | some depth =>
    if depth ≤ Constants.maxSearchDepth then ⟨depth, []⟩
    else ⟨Constants.defaultSearchDepth,
      [(ConfigError.invalidValue "discovery.max_depth" (toString depth) acceptedDepths).message]⟩

def emptyRoot : String := "[discovery] search_roots contains an empty entry; skipped."

def relativeRoot (root : String) : String :=
  "[discovery] search root \"" ++ root ++ "\" is not an absolute path; skipped."

def tooManyRoots : String :=
  "[discovery] search_roots has more than " ++ toString Constants.maxSearchRoots ++
    " entries; the rest are ignored."

/-- Goes through the roots while `room` for more of them is left. -/
def judgeRoots : Nat → List String → Judged (List Path)
  | _, [] => ⟨[], []⟩
  | room, root :: rest =>
    let text := trim root
    let path := Path.ofText text
    if text = "" then
      let later := judgeRoots room rest
      ⟨later.value, emptyRoot :: later.warnings⟩
    else if !path.isAbsolute then
      let later := judgeRoots room rest
      ⟨later.value, relativeRoot text :: later.warnings⟩
    else match room with
      | 0 => ⟨[], [tooManyRoots]⟩
      | room + 1 =>
        let later := judgeRoots room rest
        ⟨path :: later.value, later.warnings⟩

def judgeSearchRoots (roots : Option (List String)) : Judged (List Path) :=
  judgeRoots Constants.maxSearchRoots (roots.getD [])

def noPublishers : String :=
  "[discovery] publishers is empty. Using the built-in publisher list."

def judgePublishers : Option (List String) → Judged (List String)
  | none => ⟨Constants.publishers, []⟩
  | some names =>
    match (names.map trim).filter (· ≠ "") with
    | [] => ⟨Constants.publishers, [noPublishers]⟩
    | kept => ⟨kept, []⟩

def relativeOverride (key value : String) : String :=
  "[overrides] " ++ key ++ " = \"" ++ value ++ "\" is not an absolute path; entry ignored."

def unknownOverride (u : UnknownRegion) : String :=
  "[overrides] " ++ u.message ++ "; entry ignored."

def judgeOverride (before : RegionMap Path) (entry : String × String) :
    Judged (RegionMap Path) :=
  match Region.parse entry.1 with
  | .error u => ⟨before, [unknownOverride u]⟩
  | .ok region =>
    let path := Path.ofText (trim entry.2)
    if path.isAbsolute then ⟨before.set region path, []⟩
    else ⟨before, [relativeOverride entry.1 entry.2]⟩

def judgeOverridesFrom (before : RegionMap Path) :
    List (String × String) → Judged (RegionMap Path)
  | [] => ⟨before, []⟩
  | entry :: rest =>
    let first := judgeOverride before entry
    let later := judgeOverridesFrom first.value rest
    ⟨later.value, first.warnings ++ later.warnings⟩

/-- The overrides in byte order of their keys, whatever the order of the lines. -/
def judgeOverrides (entries : List (String × String)) : Judged (RegionMap Path) :=
  judgeOverridesFrom .empty (entries.mergeSort fun a b => textLe a.1 b.1)

def unknownLevel (level : String) : String :=
  "[logging] level = \"" ++ level ++ "\" is not recognised. Valid values: " ++
    String.intercalate ", " Constants.logLevels ++ ". Using default (" ++
    Constants.defaultLogLevel ++ ")."

def judgeLevel : Option String → Judged (Option String)
  | none => ⟨none, []⟩
  | some level =>
    if Constants.logLevels.contains (lowerCase level) then ⟨some (lowerCase level), []⟩
    else ⟨none, [unknownLevel level]⟩

def ofRaw (raw : RawSettings) : Settings × List String :=
  let depth := judgeMaxDepth raw.maxDepth
  let roots := judgeSearchRoots raw.searchRoots
  let publishers := judgePublishers raw.publishers
  let overrides := judgeOverrides raw.overrides
  let level := judgeLevel raw.level
  ({ useRegistry := raw.registry.getD true
     useSteam := raw.steam.getD true
     useDefaultPaths := raw.defaultPaths.getD true
     searchRoots := roots.value
     maxDepth := depth.value
     publishers := publishers.value
     overrides := overrides.value
     logLevel := level.value },
   depth.warnings ++ roots.warnings ++ publishers.warnings ++ overrides.warnings ++
     level.warnings)

end Settings
end InstallLocator
