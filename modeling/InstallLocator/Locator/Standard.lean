import InstallLocator.Locator
import InstallLocator.Settings.Validate
import InstallLocator.Strategy.DefaultPath
import InstallLocator.Strategy.Registry
import InstallLocator.Strategy.SearchRoot
import InstallLocator.Strategy.Steam

/-!
# The standard chain

The strategies that the settings ask for, in order of priority: overrides, the
uninstall registry, Steam, default paths, search roots. Overrides and search
roots are left out when there are none. A chain is standard for any registry and
any way of asking Steam; `ofSettings` is the one of a system that has no registry.
-/

set_option autoImplicit false

namespace InstallLocator

namespace Settings

def overrideStrategies (s : Settings) : List Strategy :=
  if s.overrides.entries.isEmpty then [] else [.overrides s.overrides.entries]

def registryStrategies (source : UninstallSource) (s : Settings) : List Strategy :=
  if s.useRegistry then [.registry source s.publishers] else []

def steamStrategies (lookup : Strategy.SteamLookup) (s : Settings) : List Strategy :=
  if s.useSteam then [.steamFrom lookup Constants.steamAppId] else []

def defaultPathStrategies (s : Settings) (home : Option Path) : List Strategy :=
  if s.useDefaultPaths then [.defaultPaths (Strategy.homePatterns home)] else []

def searchRootStrategies (s : Settings) : List Strategy :=
  if s.searchRoots.isEmpty then [] else [.searchRoots s.searchRoots s.maxDepth]

def chain (source : UninstallSource) (lookup : Strategy.SteamLookup) (s : Settings)
    (home : Option Path) : List Strategy :=
  s.overrideStrategies ++ s.registryStrategies source ++ s.steamStrategies lookup ++
    s.defaultPathStrategies home ++ s.searchRootStrategies

end Settings

namespace Locator

def ofSettingsFrom (source : UninstallSource) (lookup : Strategy.SteamLookup) (s : Settings)
    (home : Option Path) : Locator :=
  .ofChain (s.chain source lookup home)

def ofSettings (s : Settings) (home : Option Path) : Locator :=
  ofSettingsFrom .absent Strategy.steamLookup s home

end Locator

end InstallLocator
