import InstallLocator.GameInfo.Id
import InstallLocator.Log.Event

/-!
# Identifying a client

Which region a client directory belongs to is read from its metadata file.
-/

set_option autoImplicit false

namespace InstallLocator.GameInfo

def file (directory : Path) : Path :=
  directory.join (.ofText Constants.gameInfoFile)

/-- Looks whether a metadata file is there and is small enough to be read. -/
def checkFile (h : Host) (path : Path) : Except Error Unit :=
  match h.stat path with
  | .error .notFound => .error (.missing path)
  | .error e => .error (.unreadable path e)
  | .ok e =>
    match e.size? with
    | none => .error (.missing path)
    | some size =>
      if Constants.maxGameInfoSize < size then
        .error (.tooLarge path size Constants.maxGameInfoSize)
      else .ok ()

/-- The id that a metadata file holds. That the file is there does not mean that
it can be read. -/
def readId (h : Host) (path : Path) : Except Error String := do
  checkFile h path
  let content ← (h.read path).mapError (.unreadable path)
  match idOf? (Utf8.decodeLossy content) with
  | some id => return String.ofList id
  | none => throw (.noId path)

def regionOf (path : Path) (id : String) : Except Error Region :=
  match Region.ofGameId? id with
  | some r => .ok r
  | none => .error (.unknownId path id)

def identify (h : Host) (directory : Path) : Logged (Except Error Region) :=
  let path := file directory
  match readId h path with
  | .ok id => ⟨regionOf path id, [.gameIdRead path id]⟩
  | .error e => ⟨.error e, []⟩

end InstallLocator.GameInfo
