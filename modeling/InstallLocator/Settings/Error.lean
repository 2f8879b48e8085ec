import InstallLocator.IoError
import InstallLocator.Path
import InstallLocator.Settings.Raw

/-!
# What is wrong with the settings

A fault of the file or of one of its values. None is fatal: each becomes a
warning.
-/

set_option autoImplicit false

namespace InstallLocator

inductive ConfigError
  | notFound (path : Path)
  | unreadable (path : Path) (cause : IoError)
  | malformed (path : Path) (e : SettingsError)
  | invalidValue (key value accepted : String)

namespace ConfigError

def message : ConfigError → String
  | notFound path => "config file '" ++ path.shown ++ "' does not exist"
  | unreadable path cause =>
    "cannot read config file '" ++ path.shown ++ "': " ++ cause.message
  | malformed path e => "malformed config file '" ++ path.shown ++ "': " ++ e.message
  | invalidValue key value accepted =>
    key ++ " = " ++ value ++ " is not accepted (allowed: " ++ accepted ++ ")"

def cause? : ConfigError → Option String
  | unreadable _ cause => some cause.message
  | malformed _ e => some e.message
  | _ => none

end ConfigError

end InstallLocator
