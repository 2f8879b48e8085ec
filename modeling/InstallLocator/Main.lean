import InstallLocator.Program

/-!
# The command

A run on the machine at hand. The part of the file system that a run can look
at is copied into a tree first, the settings file before the directories that
the settings name; all else is computed from the tree. A file that may not be
read is copied as a sealed one, and a directory that may not be entered as a
closed one. So is a directory that may be entered but not listed, unless a path
leads through it; then it holds what is asked for by its name. Links are copied
as links to the place they lead to in the end. Names that are not UTF-8 are not
found, since the system interface has no text for them.
-/

set_option autoImplicit false

namespace InstallLocator.Machine

def pathText (l : Location) : String :=
  "/" ++ String.intercalate "/" (l.reverse.map fun n => Path.shown ⟨n⟩)

def locationOf (text : String) : Location :=
  ((Path.segments (Path.ofText text).bytes).filter (· ≠ [])).reverse

/-- No entry has this name, so a link to it leads nowhere. -/
def nowhere : Name := [0]

def isRead (n : Name) : Bool :=
  let ends (s : String) := (Path.ofText s).bytes.isSuffixOf n
  ends Constants.gameInfoFile || ends ".vdf" || ends ".acf"

/-- The number of an error, which some requests give with the opposite sign. -/
def errorNumber (code : UInt32) : Int := min code.toNat (0 - code).toNat

def refusal : IO.Error → IoError
  | .alreadyExists _ code _ | .otherError code _ | .resourceBusy code _
  | .resourceVanished code _ | .unsupportedOperation code _ | .hardwareFault code _
  | .unsatisfiedConstraints code _ | .illegalOperation code _ | .protocolError code _
  | .timeExpired code _ | .interrupted _ code _ | .noFileOrDirectory _ code _
  | .invalidArgument _ code _ | .permissionDenied _ code _ | .resourceExhausted _ code _
  | .inappropriateType _ code _ | .noSuchThing _ code _ => .ofCode (errorNumber code)
  | e => .other (toString e)

def fileEntry (l : Location) (size : Nat) (wanted : Bool) : IO Entry := do
  if !wanted then return .file []
  match ← (IO.FS.readBinFile (pathText l)).toBaseIO with
  | .ok bytes => return .file bytes.toList
  | .error e => return .sealed size (refusal e)

/-- A directory is open if the name `.` can be looked up in it. -/
def directoryEntry (l : Location) : IO Entry := do
  let p := (← IO.currentDir) / pathText l / "."
  match ← p.symlinkMetadata.toBaseIO with
  | .ok _ => return .directory
  | .error e => return .closed (refusal e)

def entry? (l : Location) (wanted : Bool) : IO (Option Entry) := do
  let p := (← IO.currentDir) / pathText l
  match ← p.symlinkMetadata.toBaseIO with
  | .error _ => return none
  | .ok m =>
    match m.type with
    | .dir => return some (← directoryEntry l)
    | .file => return some (← fileEntry l m.byteSize.toNat wanted)
    | .other => return some .device
    | .symlink =>
      match ← (IO.FS.realPath p).toBaseIO with
      | .ok target => return some (.link (Path.ofText target.toString).bytes)
      | .error _ => return some (.link nowhere)

def copyEntry (t : FileTree) (n : Name) (l : Location) (wanted : Bool) :
    IO (FileTree × Option Entry) := do
  match t.find? (n :: l) with
  | some (.file []) =>
    let e ← entry? (n :: l) wanted
    return ((e.map (t.put n l)).getD t, e)
  | some e => return (t, some e)
  | none =>
    let e ← entry? (n :: l) wanted
    return ((e.map (t.put n l)).getD t, e)

/-- Copies the directories down to a location that no link leads through. -/
def copyPlain (t : FileTree) : Location → IO FileTree
  | [] => return t
  | n :: l => do
    let t ← copyPlain t l
    return (← copyEntry t n l true).1

def targetOf (target : Bytes) : Option Location :=
  if target = nowhere then none else some (Path.steps target).reverse

def copyAlong (t : FileTree) (l : Location) : List Name → IO (FileTree × Option Location)
  | [] => return (t, some l)
  | n :: rest => do
    if n = Path.currentName then copyAlong t l rest
    else if n = Path.parentName then copyAlong t l.tail rest
    else
      let (t, e) ← copyEntry t n l true
      match e with
      | none => return (t, none)
      | some (.link target) =>
        match targetOf target with
        | none => return (t, none)
        | some m => copyAlong (← copyPlain t m) m rest
      | some _ => copyAlong t (n :: l) rest

def shut (t : FileTree) (cause : IoError) : Location → FileTree
  | [] => t
  | n :: l => if t.namesIn (n :: l) = [] then (t.erase n l).put n l (.closed cause) else t

def copyBelow (t : FileTree) (l : Location) : Nat → IO FileTree
  | 0 => return t
  | depth + 1 => do
    let p := (← IO.currentDir) / pathText l
    match ← p.readDir.toBaseIO with
    | .error e => return shut t (refusal e) l
    | .ok found =>
      let names := found.toList.map fun (e : IO.FS.DirEntry) => (Path.ofText e.fileName).bytes
      names.foldlM (fun t n => do
        let (t, e) ← copyEntry t n l (isRead n)
        match e with
        | some .directory => copyBelow t (n :: l) depth
        | some (.link target) =>
          match targetOf target with
          | none => return t
          | some m => copyBelow (← copyPlain t m) m depth
        | _ => return t) t

structure Place where
  path : Path
  depth : Nat

def copyPlace (h : Host) (p : Place) : IO Host := do
  let start := if p.path.isAbsolute then [] else h.here
  let (t, l) ← copyAlong h.tree start (Path.steps p.path.bytes)
  match l with
  | none => return { h with tree := t }
  | some l => return { h with tree := ← copyBelow t l p.depth }

/-- The ways to all places are copied before what lies below any of them. -/
def copyPlaces (h : Host) (places : List Place) : IO Host := do
  let h ← places.foldlM (fun h p => copyPlace h { p with depth := 0 }) h
  places.foldlM copyPlace h

def searchPlaces (s : Settings) (home : Option Path) : List Place :=
  let patterns := home.toList.flatMap fun h =>
    Constants.homePatterns.filterMap fun p => (h.join (.ofText p)).parent?
  s.overrides.entries.map (fun x => ⟨x.2, 0⟩) ++ patterns.map (fun p => ⟨p, 2⟩) ++
    s.searchRoots.map fun p => ⟨p, s.maxDepth + 1⟩

def steamPlaces (e : Environment) : List Place :=
  e.home.toList.flatMap fun home =>
    (Steam.installations e home).map fun p => ⟨Steam.apps p, 1⟩

def libraryPlaces (h : Host) : List Place :=
  match (Steam.installation? h).map (Steam.libraries h) with
  | some (.ok libraries) => libraries.map fun p => ⟨Steam.apps p, 1⟩
  | _ => []

def appPlaces (h : Host) : List Place :=
  match (Steam.installation? h).map fun p => Steam.appDirectory? h p Constants.steamAppId with
  | some (.ok (some p)) => [⟨p, 1⟩]
  | _ => []

def copySteam (h : Host) : IO Host := do
  let h ← copyPlaces h (steamPlaces h.environment)
  let h ← copyPlaces h (libraryPlaces h)
  copyPlaces h (appPlaces h)

def copyFor (o : Options) (h : Host) : IO Host := do
  let paths := (PlatformPaths.resolve h.environment).value
  let h ← copyPlaces h [⟨Program.configPath o paths, 0⟩]
  let settings := (Program.loadSettings h o).1
  let h ← if settings.useSteam then copySteam h else pure h
  copyPlaces h (searchPlaces settings paths.home)

def pathVariable (name : String) : IO (Option Path) := do
  return (← IO.getEnv name).map Path.ofText

def bare : IO Host := do
  let environment : Environment :=
    ⟨(← pathVariable "HOME").filter (·.bytes ≠ []), ← pathVariable "XDG_CONFIG_HOME",
      ← pathVariable "XDG_DATA_HOME", ← pathVariable "SNAP_USER_DATA"⟩
  let here := locationOf (← IO.currentDir).toString
  return ⟨← copyPlain .empty here, here, environment⟩

def logLine (e : Event) : String :=
  e.level.title ++ " " ++ e.message ++
    String.join (e.fields.map fun x => " " ++ x.1 ++ "=" ++ x.2)

def close (status : Nat) (log : List Event) (failure : Option String) : IO UInt32 := do
  log.forM fun e => IO.eprintln (logLine e)
  failure.forM fun m => IO.eprintln ("Error: " ++ m)
  return status.toUInt32

def print (text : String) : IO Unit := do
  let out ← IO.getStdout
  out.putStr text
  out.flush

/-- Ends a run; if its output is refused, the run ends as one without room for
output. -/
def finish (h : Host) (i : Program.Inputs) : IO UInt32 := do
  match Program.run h i with
  | .refused e =>
    IO.eprintln e.message
    return Program.refusedStatus.toUInt32
  | .finished status text log failure =>
    match ← (print text).toBaseIO with
    | .ok () => close status log failure
    | .error e =>
      match Program.run h { i with output := ⟨some 0, refusal e⟩ } with
      | .refused _ => return Program.refusedStatus.toUInt32
      | .finished status _ log failure => close status log failure

end InstallLocator.Machine

open InstallLocator in
def main (arguments : List String) : IO UInt32 := do
  let h ← Machine.bare
  let h ← match CommandLine.parse arguments with
    | .ok (.run o) => Machine.copyFor o h
    | _ => pure h
  Machine.finish h ⟨arguments, ← IO.getEnv "RUST_LOG", .unlimited⟩
