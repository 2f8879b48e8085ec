/-!
# Names, limits and defaults
-/

set_option autoImplicit false

namespace InstallLocator.Constants

def appName : String := "wowsdirectory"
def appVersion : String := "1.0.0"

/-- The file at the root of every client that tells which client it is. -/
def gameInfoFile : String := "game_info.xml"
def maxGameInfoSize : Nat := 1048576

def steamAppId : Nat := 552990

def uninstallKey : String := "SOFTWARE\\Microsoft\\Windows\\CurrentVersion\\Uninstall"
def publisherValue : String := "Publisher"
def installLocationValue : String := "InstallLocation"

def publishers : List String :=
  ["Wargaming.net", "Wargaming Group Limited", "360.cn", "Lesta Games"]

def windowsPatterns : List String :=
  ["C:\\Games\\World_of_Warships*",
   "D:\\Games\\World_of_Warships*",
   "C:\\Program Files (x86)\\Steam\\steamapps\\common\\World of Warships",
   "C:\\Program Files\\Wargaming.net\\World_of_Warships*"]

def homePatterns : List String :=
  ["Games/world-of-warships/drive_c/Games/World_of_Warships*",
   ".wine/drive_c/Games/World_of_Warships*",
   ".local/share/Steam/steamapps/common/World of Warships"]

def macHomePatterns : List String :=
  ["Library/Application Support/Steam/steamapps/common/World of Warships"]

def maxPatternMatches : Nat := 16

def defaultSearchDepth : Nat := 3
def maxSearchDepth : Nat := 8
def maxSearchRoots : Nat := 32

def defaultLogLevel : String := "info"
def logLevels : List String := ["error", "warn", "info", "debug", "trace"]

def configFile : String := "config.toml"

end InstallLocator.Constants
