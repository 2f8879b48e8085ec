import InstallLocator.Log.Event

/-!
# Directories of the user

The settings directory lies below the directory for settings that the
environment names, if that is absolute, and else below the home directory.
-/

set_option autoImplicit false

namespace InstallLocator

structure PlatformPaths where
  configDirectory : Path
  home : Option Path

namespace PlatformPaths

def configBase? (e : Environment) : Option Path :=
  match e.configHome.filter Path.isAbsolute with
  | some p => some p
  | none => e.home.map fun h => h.join (.ofText ".config")

def resolve (e : Environment) : Logged PlatformPaths :=
  match configBase? e with
  | some base =>
    let directory := base.join (.ofText Constants.appName)
    ⟨⟨directory, e.home⟩, [.pathsResolved directory e.home]⟩
  | none =>
    let directory := Path.ofText "."
    ⟨⟨directory, e.home⟩, [.noPlatformDirectories, .pathsResolved directory e.home]⟩

def configFile (p : PlatformPaths) : Path :=
  p.configDirectory.join (.ofText Constants.configFile)

end PlatformPaths
end InstallLocator
