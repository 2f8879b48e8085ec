import InstallLocator.IoError
import InstallLocator.Path

/-!
# Why a client could not be identified
-/

set_option autoImplicit false

namespace InstallLocator.GameInfo

/-- Each with the path of the metadata file. -/
inductive Error
  | missing (path : Path)
  | unreadable (path : Path) (cause : IoError)
  | tooLarge (path : Path) (size limit : Nat)
  | noId (path : Path)
  | unknownId (path : Path) (id : String)

def Error.message : Error → String
  | missing path => "No game_info.xml at '" ++ path.shown ++ "'"
  | unreadable path cause => "Cannot read '" ++ path.shown ++ "': " ++ cause.message
  | tooLarge path size limit =>
    "'" ++ path.shown ++ "' is " ++ toString size ++ " bytes, exceeds maximum of " ++
      toString limit ++ " bytes"
  | noId path => "'" ++ path.shown ++ "' has no <id> element"
  | unknownId path id => "'" ++ path.shown ++ "' names unknown game id '" ++ id ++ "'"

def Error.cause? : Error → Option String
  | unreadable _ cause => some cause.message
  | _ => none

end InstallLocator.GameInfo
