import InstallLocator.Number.Shortest
import InstallLocator.Text.Quoted
import InstallLocator.Toml.Parser

/-!
# Settings as written

A settings file is a TOML document with three known sections; anything unknown
in it is passed over. The sections `discovery` and `logging` may also be given
as arrays, their values then in a fixed order. The first value of a wrong
shape, in the order of the document, spoils the file.
-/

set_option autoImplicit false

namespace InstallLocator

structure RawSettings where
  registry : Option Bool
  steam : Option Bool
  defaultPaths : Option Bool
  searchRoots : Option (List String)
  maxDepth : Option Nat
  publishers : Option (List String)
  overrides : List (String × String)
  level : Option String
deriving DecidableEq, Repr

def RawSettings.empty : RawSettings :=
  ⟨none, none, none, none, none, none, [], none⟩

inductive ShapeError
  | type (found expected : String)
  | value (found expected : String)
deriving DecidableEq, Repr

def ShapeError.message : ShapeError → String
  | type found expected => "invalid type: " ++ found ++ ", expected " ++ expected
  | value found expected => "invalid value: " ++ found ++ ", expected " ++ expected

inductive SettingsError
  | malformed
  | shape (e : ShapeError)
deriving DecidableEq, Repr

/-- Where the text of a malformed document goes wrong is not told. -/
def SettingsError.message : SettingsError → String
  | malformed => "<toml>"
  | shape e => "<toml: " ++ e.message ++ ">"

namespace Toml.Item

def shown : Item → String
  | text s => "string " ++ Quoted.text s
  | integer n => "integer `" ++ toString n ++ "`"
  | float x => "floating point `" ++ Shortest.text x ++ "`"
  | boolean b => "boolean `" ++ toString b ++ "`"
  | moment => "map"
  | array _ => "sequence"
  | table _ _ => "map"
  | tables _ => "sequence"

abbrev Decoder (α : Type) := Item → Except ShapeError α

def toBoolean : Decoder Bool
  | boolean b => .ok b
  | item => .error (.type item.shown "a boolean")

def toText : Decoder String
  | text s => .ok s
  | item => .error (.type item.shown "a string")

def toNatural : Decoder Nat
  | integer n => if 0 ≤ n then .ok n.toNat else .error (.value (shown (integer n)) "usize")
  | item => .error (.type item.shown "usize")

/-- The elements of an array or of an array of tables. -/
def elements? : Item → Option (List Item)
  | array items => some items
  | tables es => some (es.map (table .header))
  | _ => none

def toTexts (item : Item) : Except ShapeError (List String) :=
  match item.elements? with
  | some items => items.mapM toText
  | none => .error (.type item.shown "a sequence")

/-- The one key of a date or time, which counts as a table. -/
def momentKey : String := "$__toml_private_datetime"

def pairs? : Item → Option Pairs
  | table _ pairs => some pairs
  | moment => some [(momentKey, text "")]
  | _ => none

def toTextPairs (item : Item) : Except ShapeError (List (String × String)) :=
  match item.pairs? with
  | some pairs => pairs.mapM fun p => (toText p.2).map (p.1, ·)
  | none => .error (.type item.shown "a map")

end Toml.Item

namespace RawSettings

open Toml (Item)

structure Field where
  name : String
  set : Item → RawSettings → Except ShapeError RawSettings

def field {α : Type} (name : String) (decode : Item → Except ShapeError α)
    (put : RawSettings → Option α → RawSettings) : Field :=
  ⟨name, fun item s => (decode item).map fun a => put s (some a)⟩

def discoveryFields : List Field :=
  [field "registry" Item.toBoolean fun s x => { s with registry := x },
   field "steam" Item.toBoolean fun s x => { s with steam := x },
   field "default_paths" Item.toBoolean fun s x => { s with defaultPaths := x },
   field "search_roots" Item.toTexts fun s x => { s with searchRoots := x },
   field "max_depth" Item.toNatural fun s x => { s with maxDepth := x },
   field "publishers" Item.toTexts fun s x => { s with publishers := x }]

def loggingFields : List Field :=
  [field "level" Item.toText fun s x => { s with level := x }]

def setNamed (fields : List Field) (s : RawSettings) (p : String × Item) :
    Except ShapeError RawSettings :=
  match fields.find? fun f => f.name = p.1 with
  | some f => f.set p.2 s
  | none => .ok s

/-- A section by the names of its fields or, as an array, by their order. -/
def setSection (fields : List Field) (expected : String) (item : Item) (s : RawSettings) :
    Except ShapeError RawSettings :=
  match item.pairs?, item.elements? with
  | some pairs, _ => pairs.foldlM (setNamed fields) s
  | none, some items => (fields.zip items).foldlM (fun s x => x.1.set x.2 s) s
  | none, none => .error (.type item.shown expected)

def sections : List Field :=
  [⟨"discovery", setSection discoveryFields "struct DiscoverySection"⟩,
   ⟨"overrides", fun item s => item.toTextPairs.map fun ps => { s with overrides := ps }⟩,
   ⟨"logging", setSection loggingFields "struct LoggingSection"⟩]

def ofPairs (pairs : Toml.Pairs) : Except ShapeError RawSettings :=
  pairs.foldlM (setNamed sections) .empty

def parse (text : String) : Except SettingsError RawSettings :=
  match Toml.parse text with
  | none => .error .malformed
  | some pairs => (ofPairs pairs).mapError .shape

end RawSettings
end InstallLocator
