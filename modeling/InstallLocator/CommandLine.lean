import InstallLocator.Constants
import InstallLocator.Text.Terminal

/-!
# The command line

Arguments are read from the left. An option that takes a value waits for it:
whether the value is there, and whether the option was given before, is judged
when the next option comes or when the arguments end, so that an argument that
is not known at all is reported first.
-/

set_option autoImplicit false

namespace InstallLocator

structure Options where
  config : Option String
  json : Bool
  debug : Bool
deriving DecidableEq, Repr

inductive UsageError
  | unknownArgument (argument : String)
  | repeated (option : String)
  | missingValue
  | unexpectedValue (value option : String)
deriving DecidableEq, Repr

inductive Request
  | run (o : Options)
  | help (long : Bool)
  | version
deriving DecidableEq, Repr

namespace UsageError

/-- The whole message; what the user typed is shown without what a terminal
would interpret. -/
def text : UsageError → String
  | unknownArgument argument =>
    "error: unexpected argument '" ++ Terminal.visible argument ++ "' found"
  | repeated option => "error: the argument '" ++ option ++ "' cannot be used multiple times"
  | missingValue =>
    "error: a value is required for '--config <CONFIG>' but none was supplied"
  | unexpectedValue value option =>
    "error: unexpected value '" ++ Terminal.visible value ++ "' for '" ++ option ++
      "' found; no more were expected"

/-- The first line of the message; what the user typed may have more. -/
def message (e : UsageError) : String := Terminal.firstLine e.text

end UsageError

namespace CommandLine

def versionText : String :=
  Constants.appName ++ " " ++ Constants.appVersion ++ "\n"

def shortHelp : String :=
  "wowsdirectory - locate World of Warships installations\n\n" ++
  "Usage: wowsdirectory [OPTIONS]\n\n" ++
  "Options:\n" ++
  "  -c, --config <CONFIG>  Alternate config.toml (defaults to the platform config directory)\n" ++
  "      --json             Print the install record as JSON instead of plain lines\n" ++
  "  -d, --debug            Enable debug logging (equivalent to RUST_LOG=debug)\n" ++
  "  -h, --help             Print help (see more with '--help')\n" ++
  "  -V, --version          Print version\n"

def longHelp : String :=
  "wowsdirectory - locate World of Warships installations.\n\n" ++
  "Prints the worldwide client directory, then one line per server region (WW, CN, PT). " ++
  "An unresolved region prints an empty line.\n\n" ++
  "Usage: wowsdirectory [OPTIONS]\n\n" ++
  "Options:\n" ++
  "  -c, --config <CONFIG>\n" ++
  "          Alternate config.toml (defaults to the platform config directory)\n\n" ++
  "      --json\n" ++
  "          Print the install record as JSON instead of plain lines\n\n" ++
  "  -d, --debug\n" ++
  "          Enable debug logging (equivalent to RUST_LOG=debug)\n\n" ++
  "  -h, --help\n" ++
  "          Print help (see a summary with '-h')\n\n" ++
  "  -V, --version\n" ++
  "          Print version\n"

/-- The option that takes a value, while its value is open: still to come, or
given but not yet judged. -/
inductive Pending
  | nothing
  | waiting
  | given (value : String)
deriving DecidableEq

structure State where
  options : Options
  pending : Pending

def start : State := ⟨⟨none, false, false⟩, .nothing⟩

inductive Stop
  | refused (e : UsageError)
  | asked (r : Request)

def configOption : String := "--config <CONFIG>"

def setConfig (o : Options) (value : String) : Except Stop Options :=
  if o.config.isSome then .error (.refused (.repeated configOption))
  else if value = "" then .error (.refused .missingValue)
  else .ok { o with config := some value }

def settle (s : State) : Except Stop Options :=
  match s.pending with
  | .nothing => .ok s.options
  | .waiting => .error (.refused .missingValue)
  | .given value => setConfig s.options value

inductive Flag
  | json
  | debug
  | help (long : Bool)
  | version

def flag (f : Flag) (s : State) : Except Stop State := do
  let o ← settle s
  match f with
  | .json =>
    if o.json then throw (.refused (.repeated "--json"))
    return ⟨{ o with json := true }, .nothing⟩
  | .debug =>
    if o.debug then throw (.refused (.repeated "--debug"))
    return ⟨{ o with debug := true }, .nothing⟩
  | .help long => throw (.asked (.help long))
  | .version => throw (.asked .version)

def config (value : Option String) (s : State) : Except Stop State := do
  let o ← settle s
  match value with
  | some v => return ⟨← setConfig o v, .nothing⟩
  | none => return ⟨o, .waiting⟩

def unknown {α : Type} (argument : String) : Except Stop α :=
  .error (.refused (.unknownArgument argument))

def longFlag? (name : String) : Option Flag :=
  if name = "json" then some .json
  else if name = "debug" then some .debug
  else if name = "help" then some (.help true)
  else if name = "version" then some .version
  else none

def long (cs : List Char) (s : State) : Except Stop State :=
  let name := String.ofList (cs.takeWhile (· ≠ '='))
  let value := match cs.dropWhile (· ≠ '=') with
    | [] => none
    | _ :: v => some (String.ofList v)
  if name = "config" then config value s
  else match longFlag? name, value with
    | none, _ => unknown ("--" ++ name)
    | some _, some v => .error (.refused (.unexpectedValue v ("--" ++ name)))
    | some f, none => flag f s

def shortFlag? (c : Char) : Option Flag :=
  if c = 'd' then some .debug
  else if c = 'h' then some (.help false)
  else if c = 'V' then some .version
  else none

/-- An argument after its one dash: flags one after the other, and perhaps the
option with its value at the end. -/
def short : List Char → State → Except Stop State
  | [], s => .ok s
  | c :: cs, s =>
    if c = 'c' then
      match cs with
      | [] => config none s
      | '=' :: v => config (some (String.ofList v)) s
      | v => config (some (String.ofList v)) s
    else match shortFlag? c with
      | some f => do short cs (← flag f s)
      | none => unknown (String.ofList ['-', c])

/-- The arguments; nothing may follow `--`. -/
def arguments : List String → State → Except Stop State
  | [], s => .ok s
  | a :: rest, s =>
    match a.toList with
    | ['-', '-'] =>
      match rest with
      | [] => .ok s
      | b :: _ => unknown b
    | '-' :: '-' :: cs => do arguments rest (← long cs s)
    | '-' :: c :: cs => do arguments rest (← short (c :: cs) s)
    | _ =>
      match s.pending with
      | .waiting => arguments rest { s with pending := .given a }
      | _ => unknown a

def parse (args : List String) : Except UsageError Request :=
  let result := do
    let s ← arguments args start
    settle s
  match result with
  | .ok o => .ok (.run o)
  | .error (.asked r) => .ok r
  | .error (.refused e) => .error e

end CommandLine

def Request.text? : Request → Option String
  | .run _ => none
  | .help long => some (if long then CommandLine.longHelp else CommandLine.shortHelp)
  | .version => some CommandLine.versionText

end InstallLocator
