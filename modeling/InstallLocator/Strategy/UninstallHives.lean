import InstallLocator.Strategy.Registry

/-!
# The hives of the uninstall registry

Launchers install for one user and older installers for the whole machine, so
both hives are read, the user's first. What cannot be read within a hive is left
out; the registry fails only if no hive opens, with the failure of the last.
-/

set_option autoImplicit false

namespace InstallLocator

/-- A key that is open: the names of its subkeys, and the named texts of each. -/
structure UninstallKey where
  names : List (Except IoError String)
  subkey : String → Except IoError (String → Except IoError String)

/-- A part of the registry, and the answer to opening a key in it. -/
structure Hive where
  name : String
  openKey : String → Except IoError UninstallKey

namespace UninstallKey

def entryOf (name : String) (values : String → Except IoError String) : UninstallEntry where
  key := name
  publisher := (values Constants.publisherValue).toOption
  location := (values Constants.installLocationValue).toOption

def readSubkey (hive : String) (key : UninstallKey) :
    Except IoError String → Logged (List UninstallEntry)
  | .error cause => ⟨[], [.subkeyNameUnreadable hive cause]⟩
  | .ok name =>
    match key.subkey name with
    | .error cause => ⟨[], [.subkeyUnreadable name cause]⟩
    | .ok values => .silent [entryOf name values]

end UninstallKey

namespace Hive

def read (v : Hive) : Logged (Except ProbeError (List UninstallEntry)) :=
  match v.openKey Constants.uninstallKey with
  | .error cause =>
    ⟨.error (.registry (v.name ++ "\\" ++ Constants.uninstallKey) cause),
      [.hiveUnopened v.name cause]⟩
  | .ok key => (Logged.gather (key.names.map (key.readSubkey v.name))).map .ok

def failure? (v : Hive) : Option ProbeError :=
  match v.read.value with
  | .error e => some e
  | .ok _ => none

def opened (hives : List Hive) : List (List UninstallEntry) :=
  hives.filterMap fun v => v.read.value.toOption

end Hive

namespace UninstallSource

def ofHives (hives : List Hive) : UninstallSource where
  entries _ :=
    let events := hives.flatMap fun v => v.read.events
    match Hive.opened hives, (hives.filterMap Hive.failure?).getLast? with
    | [], some e => ⟨.error e, events⟩
    | lists, _ => ⟨.ok lists.flatten, events ++ [.uninstallEntriesRead lists.flatten.length]⟩

def windows (user machine : String → Except IoError UninstallKey) : UninstallSource :=
  ofHives [⟨"HKCU", user⟩, ⟨"HKLM", machine⟩]

end UninstallSource
end InstallLocator
