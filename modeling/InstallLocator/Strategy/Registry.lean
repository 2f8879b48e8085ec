import InstallLocator.Strategy.Basic

/-!
# The uninstall registry

An entry whose key is a product id stands for that region. Any other entry
counts only if its publisher is one of those accepted, and then the region is
read from the install itself.
-/

set_option autoImplicit false

namespace InstallLocator

structure UninstallEntry where
  key : String
  publisher : Option String
  location : Option String
deriving DecidableEq, Repr

/-- Where entries come from: a list of them or why there is none, with what is
logged on the way. -/
structure UninstallSource where
  entries : Host → Logged (Except ProbeError (List UninstallEntry))

namespace UninstallSource

/-- No entries, as on systems without a registry. -/
def absent : UninstallSource := ⟨fun _ => ⟨.ok [], [.noUninstallRegistry]⟩⟩

def listed (entries : List UninstallEntry) : UninstallSource :=
  ⟨fun _ => .silent (.ok entries)⟩

def failing (key : String) (cause : IoError) : UninstallSource :=
  ⟨fun _ => .silent (.error (.registry key cause))⟩

end UninstallSource

namespace Strategy

def isAccepted (publishers : List String) (publisher : Option String) : Bool :=
  match publisher with
  | some p => publishers.any fun known => sameIgnoringCase known (trim p)
  | none => false

def registryName : String := "registry"

def registryCandidate (h : Host) (publishers : List String) (e : UninstallEntry) :
    Logged (List Candidate) :=
  match (e.location.map trim).filter (· ≠ "") with
  | none => ⟨[], [.noInstallLocation e.key]⟩
  | some location =>
    let path := Path.ofText location
    match Region.ofGameId? e.key with
    | some region => .silent [⟨region, path, registryName⟩]
    | none =>
      if isAccepted publishers e.publisher then identified h registryName path
      else .silent []

def registry (source : UninstallSource) (publishers : List String) : Strategy where
  name := registryName
  probe h :=
    let listed := source.entries h
    match listed.value with
    | .error e => ⟨.error e, listed.events⟩
    | .ok entries =>
      let found := Logged.gather (entries.map (registryCandidate h publishers))
      ⟨.ok found.value, listed.events ++ found.events⟩

end Strategy
end InstallLocator
