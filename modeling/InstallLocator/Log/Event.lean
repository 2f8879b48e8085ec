import InstallLocator.Constants
import InstallLocator.Log.Level
import InstallLocator.Region
import InstallLocator.Strategy.Error
import InstallLocator.Text.Quoted

/-!
# Log events

What the program reports while it works. An event is a value with its data;
its level, its target, its message and its named fields follow from it.
-/

set_option autoImplicit false

namespace InstallLocator

inductive PathProblem
  | empty
  | relative
  | missing
  | notADirectory
deriving DecidableEq, Repr

def PathProblem.message : PathProblem → String
  | empty => "empty path"
  | relative => "path is not absolute"
  | missing => "path does not exist"
  | notADirectory => "path is not a directory"

structure Candidate where
  region : Region
  path : Path
  source : String
deriving DecidableEq

inductive Event
  | pathsResolved (config : Path) (home : Option Path)
  | noPlatformDirectories
  | loggingStarted
  | starting (config : Path)
  | settingWarning (warning : String)
  | chainBuilt (strategies : List String)
  | gameIdRead (path : Path) (id : String)
  | unidentified (source : String) (directory : Path) (e : GameInfo.Error)
  | noUninstallRegistry
  | hiveUnopened (hive : String) (cause : IoError)
  | subkeyNameUnreadable (hive : String) (cause : IoError)
  | subkeyUnreadable (key : String) (cause : IoError)
  | uninstallEntriesRead (count : Nat)
  | noInstallLocation (key : String)
  | steamFound (path : Path)
  | appNotInstalled (app : Nat)
  | steamUnknownId (directory : Path) (id : String)
  | steamAssumed (directory : Path) (e : GameInfo.Error)
  | patternSkipped (e : ProbeError)
  | matchUnreadable (pattern : String) (e : Glob.ExpandError)
  | rootEntered (root : Path) (depth : Nat)
  | walkFailed (e : ProbeError)
  | restSkipped (next : String)
  | strategyFailed (strategy : String) (e : ProbeError)
  | strategyProbed (strategy : String) (candidates : Nat)
  | alreadyResolved (c : Candidate)
  | candidateRejected (c : Candidate) (problem : PathProblem)
  | candidateAccepted (c : Candidate)
  | nothingFound
  | installsFound (count : Nat)
  | installFound (region : Region) (path : Path) (source : String)
  | printFailed (message : String)

namespace Event

def level : Event → Level
  | printFailed _ => .error
  | noPlatformDirectories => .warn
  | settingWarning _ => .warn
  | patternSkipped _ => .warn
  | nothingFound => .warn
  | starting _ => .info
  | installsFound _ => .info
  | installFound _ _ _ => .info
  | noUninstallRegistry => .trace
  | noInstallLocation _ => .trace
  | alreadyResolved _ => .trace
  | _ => .debug

inductive Topic
  | program
  | configuration
  | logging
  | gameInfo
  | strategy
  | locator
  | registry
  | steam

def Topic.target : Topic → String
  | program => Constants.appName
  | configuration => Constants.appName ++ "::platform::config"
  | logging => Constants.appName ++ "::util::logging"
  | gameInfo => Constants.appName ++ "::core::game_info"
  | strategy => Constants.appName ++ "::core::strategy"
  | locator => Constants.appName ++ "::core::locator"
  | registry => Constants.appName ++ "::platform::registry"
  | steam => Constants.appName ++ "::platform::steam"

def topic : Event → Topic
  | pathsResolved _ _ => .configuration
  | noPlatformDirectories => .configuration
  | loggingStarted => .logging
  | starting _ => .program
  | settingWarning _ => .program
  | chainBuilt _ => .program
  | printFailed _ => .program
  | gameIdRead _ _ => .gameInfo
  | unidentified _ _ _ => .strategy
  | noInstallLocation _ => .strategy
  | appNotInstalled _ => .strategy
  | steamUnknownId _ _ => .strategy
  | steamAssumed _ _ => .strategy
  | patternSkipped _ => .strategy
  | matchUnreadable _ _ => .strategy
  | rootEntered _ _ => .strategy
  | walkFailed _ => .strategy
  | noUninstallRegistry => .registry
  | hiveUnopened _ _ => .registry
  | subkeyNameUnreadable _ _ => .registry
  | subkeyUnreadable _ _ => .registry
  | uninstallEntriesRead _ => .registry
  | steamFound _ => .steam
  | _ => .locator

def target (e : Event) : String := e.topic.target

def message : Event → String
  | pathsResolved _ _ => "Platform paths resolved"
  | noPlatformDirectories => "Could not determine platform directories, using current directory"
  | loggingStarted => "Logging initialised"
  | starting _ => "wowsdirectory starting"
  | settingWarning _ => "Config validation warning"
  | chainBuilt _ => "Discovery chain"
  | gameIdRead _ _ => "Read game id"
  | unidentified _ _ _ => "Candidate rejected"
  | noUninstallRegistry => "No uninstall registry on this platform"
  | hiveUnopened _ _ => "Cannot open Uninstall key"
  | subkeyNameUnreadable _ _ => "Skipping unreadable subkey name"
  | subkeyUnreadable _ _ => "Skipping unreadable subkey"
  | uninstallEntriesRead _ => "Read uninstall entries"
  | noInstallLocation _ => "No install location"
  | steamFound _ => "Located Steam"
  | appNotInstalled _ => "App not installed in any Steam library"
  | steamUnknownId _ _ => "Steam app has an unknown game id"
  | steamAssumed _ _ => "Assuming global client"
  | patternSkipped _ => "Invalid default path pattern, skipping"
  | matchUnreadable _ _ => "Unreadable glob match"
  | rootEntered _ _ => "Walking search root"
  | walkFailed _ => "Search root traversal warning"
  | restSkipped _ => "All regions resolved; skipping remaining strategies"
  | strategyFailed _ _ => "Discovery strategy failed"
  | strategyProbed _ _ => "Strategy probed"
  | alreadyResolved _ => "Region already resolved by a higher-priority strategy"
  | candidateRejected _ _ => "Candidate path rejected"
  | candidateAccepted _ => "Candidate accepted"
  | nothingFound => "No game directory found"
  | installsFound _ => "Found game directories"
  | installFound _ _ _ => "Game directory"
  | printFailed _ => "Failed to print results"

def shownOption (p : Option Path) : String :=
  match p with
  | some p => "Some(" ++ Quoted.bytes p.bytes ++ ")"
  | none => "None"

def shownNames (names : List String) : String :=
  "[" ++ String.intercalate ", " (names.map Quoted.text) ++ "]"

def candidateFields (c : Candidate) : List (String × String) :=
  [("server", c.region.code), ("path", c.path.shown), ("strategy", c.source)]

def fields : Event → List (String × String)
  | pathsResolved config home => [("config", config.shown), ("home", shownOption home)]
  | noPlatformDirectories => []
  | loggingStarted => [("app", Constants.appName), ("version", Constants.appVersion)]
  | starting config => [("version", Constants.appVersion), ("config", config.shown)]
  | settingWarning warning => [("warning", warning)]
  | chainBuilt strategies => [("strategies", shownNames strategies)]
  | gameIdRead path id => [("path", path.shown), ("id", id)]
  | unidentified source directory e =>
    [("strategy", source), ("dir", directory.shown), ("error", e.message)]
  | noUninstallRegistry => []
  | hiveUnopened hive cause => [("hive", hive), ("error", cause.message)]
  | subkeyNameUnreadable hive cause => [("hive", hive), ("error", cause.message)]
  | subkeyUnreadable key cause => [("key", key), ("error", cause.message)]
  | uninstallEntriesRead count => [("count", toString count)]
  | noInstallLocation key => [("key", key)]
  | steamFound path => [("steam", path.shown)]
  | appNotInstalled app => [("app_id", toString app)]
  | steamUnknownId directory id => [("dir", directory.shown), ("id", id)]
  | steamAssumed directory e => [("dir", directory.shown), ("error", e.message)]
  | patternSkipped e => [("error", e.message)]
  | matchUnreadable pattern e => [("pattern", pattern), ("error", e.message)]
  | rootEntered root depth => [("root", root.shown), ("max_depth", toString depth)]
  | walkFailed e => [("error", e.message)]
  | restSkipped next => [("skipped", next)]
  | strategyFailed strategy e => [("strategy", strategy), ("error", e.message)]
  | strategyProbed strategy candidates =>
    [("strategy", strategy), ("candidates", toString candidates)]
  | alreadyResolved c => candidateFields c
  | candidateRejected c problem => candidateFields c ++ [("reason", problem.message)]
  | candidateAccepted c => candidateFields c
  | nothingFound => []
  | installsFound count => [("count", toString count)]
  | installFound region path source =>
    [("server", region.code), ("path", path.shown), ("source", source)]
  | printFailed message => [("error", message)]

def hasField (e : Event) (name : String) : Bool :=
  name == "message" || (e.fields.map Prod.fst).contains name

end Event

/-- A value with the events that led to it. -/
structure Logged (α : Type) where
  value : α
  events : List Event

namespace Logged

def silent {α : Type} (a : α) : Logged α := ⟨a, []⟩

def map {α β : Type} (f : α → β) (x : Logged α) : Logged β := ⟨f x.value, x.events⟩

def gather {α : Type} (xs : List (Logged (List α))) : Logged (List α) :=
  ⟨xs.flatMap value, xs.flatMap events⟩

end Logged
end InstallLocator
