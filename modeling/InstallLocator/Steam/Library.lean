import InstallLocator.Host
import InstallLocator.Steam.Error
import InstallLocator.Steam.Manifest

/-!
# Steam libraries

Where Steam is installed, which library directories it lists, and which of
them is the first to hold an app.
-/

set_option autoImplicit false

namespace InstallLocator.Steam

def below (p : Path) (names : List String) : Path :=
  names.foldl (fun p n => p.join (.ofText n)) p

/-- The places Steam may be installed in, the first to try first. -/
def installations (e : Environment) (home : Path) : List Path :=
  let flatpak := below home [".var/app/com.valvesoftware.Steam"]
  let data := e.dataHome.getD (below home [".local/share"])
  let snap := below (e.snapData.getD (below home ["snap"])) ["steam/common"]
  let inside (p : Path) :=
    [below p [".local/share/Steam"], below p [".steam/steam"], below p [".steam/root"]]
  inside flatpak ++
    [below data ["Steam"], below home [".steam/steam"], below home [".steam/root"],
     below home [".steam/debian-installation"]] ++
    inside snap

def apps (p : Path) : Path := below p ["steamapps"]

def installation? (h : Host) : Option Path :=
  h.environment.home.bind fun home =>
    (installations h.environment home).find? fun p => h.isDirectory (apps p)

def readText (h : Host) (p : Path) : Except Error String :=
  (h.readText p).mapError (.unreadable p)

def isNumberKey (key : String) : Bool :=
  (parseNatural? (Nat.pow 2 32) key.toList).isSome

/-- The pairs of an object in byte order of their keys, each key with its first
value only. -/
def firstValues (pairs : List (String × KeyValue)) : List (String × KeyValue) :=
  (pairs.eraseDupsBy fun a b => a.1 == b.1).mergeSort fun a b => textLe a.1 b.1

def libraryPath? : KeyValue → Option Path
  | .object pairs =>
    match (KeyValue.valuesOf "path" pairs).head? with
    | some (.text s) => some (.ofText s)
    | _ => none
  | .text _ => none

def libraries (h : Host) (steam : Path) : Except Error (List Path) := do
  let p := below (apps steam) ["libraryfolders.vdf"]
  let isFile := match h.stat p with
    | .ok e => e.isFile
    | .error _ => false
  if !isFile then throw (.badFile .libraryFolders .missing p)
  match KeyValue.parse (← readText h p) with
  | none => throw (.badFile .libraryFolders .malformed p)
  | some (_, .text _) => throw (.badFile .libraryFolders .shape p)
  | some (_, .object pairs) =>
    match ((firstValues pairs).filter fun x => isNumberKey x.1).mapM fun x => libraryPath? x.2 with
    | some paths => return paths
    | none => throw (.badFile .libraryFolders .shape p)

def manifestStart : Bytes := Utf8.encode "appmanifest_".toList
def manifestEnd : Bytes := Utf8.encode ".acf".toList

def manifestId? (n : Name) : Option Nat := do
  let rest ← manifestStart.isPrefixOf? n
  let digits ← (manifestEnd.reverse.isPrefixOf? rest.reverse).map List.reverse
  parseNatural? (Nat.pow 2 32) (← Utf8.decode? digits)

def holdsApp (h : Host) (app : Nat) (library : Path) : Bool :=
  match h.list (apps library) with
  | .ok entries => entries.any fun x => manifestId? x.1 = some app
  | .error _ => false

/-- The directory of an app, as the first library that holds it says. -/
def appDirectory? (h : Host) (steam : Path) (app : Nat) : Except Error (Option Path) := do
  match (← libraries h steam).find? (holdsApp h app) with
  | none => return none
  | some library =>
    let p := below (apps library) ["appmanifest_" ++ toString app ++ ".acf"]
    match Manifest.parse? (← readText h p) with
    | some m => return some (below (apps library) ["common", m.directory])
    | none => throw (.badFile .app .malformed p)

end InstallLocator.Steam
