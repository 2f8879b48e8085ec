import InstallLocator.Host
import InstallLocator.Settings.Validate

/-!
# Reading the settings file

A file that cannot be used at all gives the default settings as a whole, and
one warning. A file that is not there is worth a warning only if it was asked
for.
-/

set_option autoImplicit false

namespace InstallLocator

namespace Settings

/-- `origin` is the path that warnings name. -/
def parse (text : String) (origin : Path) : Settings × List String :=
  match RawSettings.parse text with
  | .ok raw => ofRaw raw
  | .error e =>
    (default, [(ConfigError.malformed origin e).message ++
      ". Using defaults. See config.example.toml for the expected format."])

def load (h : Host) (p : Path) (explicit : Bool) : Settings × List String :=
  if !h.exists? p then
    (default,
      if explicit then [(ConfigError.notFound p).message ++ ". Using defaults."] else [])
  else match h.readText p with
    | .error e => (default, [(ConfigError.unreadable p e).message ++ ". Using defaults."])
    | .ok text => parse text p

end Settings
end InstallLocator
