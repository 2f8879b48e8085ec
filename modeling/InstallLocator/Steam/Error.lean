import InstallLocator.IoError
import InstallLocator.Path

/-!
# Why Steam could not be asked

What the parser of a malformed file would say of it is not kept: such a file
is only marked as one that is not in the key-value format.
-/

set_option autoImplicit false

namespace InstallLocator.Steam

inductive FileKind
  | libraryFolders
  | app
deriving DecidableEq, Repr

def FileKind.name : FileKind → String
  | libraryFolders => "LibraryFolders"
  | app => "App"

inductive FileFault
  | missing
  | malformed
  | shape
deriving DecidableEq, Repr

def FileFault.message : FileFault → String
  | missing => "Expected file was missing"
  | malformed => "<vdf>"
  | shape => "File did not match expected structure"

inductive Error
  | noInstallation
  | unreadable (path : Path) (cause : IoError)
  | badFile (kind : FileKind) (fault : FileFault) (path : Path)

def Error.message : Error → String
  | noInstallation =>
    "Failed validating steam dir. Error: The Steam installation directory either isn't " ++
      "a directory or doesn't exist"
  | unreadable path cause =>
    "Encountered an I/O error: " ++ cause.message ++ " at " ++ path.shown
  | badFile kind fault path =>
    "Failed parsing VDF file. File kind: " ++ kind.name ++ ", Error: " ++ fault.message ++
      " at " ++ path.shown

end InstallLocator.Steam
