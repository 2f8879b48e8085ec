import InstallLocator.Log.Level
import InstallLocator.Log.Pattern
import InstallLocator.Number.Reading
import InstallLocator.Text.Utf8
import InstallLocator.Text.White

/-!
# Log directives

A directive gives a threshold to a part of the log: to the events of a target,
to those inside a span, or to those with certain fields. It is written
`target[span\x7bfield=value\x7d]=level`, and each part may be missing, but not all.
-/

set_option autoImplicit false

namespace InstallLocator

inductive FieldValue
  | boolean (b : Bool)
  | float (x : Binary64)
  | natural (n : Nat)
  | integer (n : Int)
  | pattern (text : String)
deriving DecidableEq

namespace FieldValue

def integer? : List Char → Option Int
  | '-' :: '+' :: _ => none
  | '-' :: rest => (parseNatural? (Nat.pow 2 63 + 1) rest).map fun n => -(n : Int)
  | _ => none

/-- A value of the first kind that has such a text; none if all fail. -/
def parse? (text : String) : Option FieldValue :=
  let cs := text.toList
  if text = "true" then some (.boolean true)
  else if text = "false" then some (.boolean false)
  else (parseNatural? (Nat.pow 2 64) cs).map natural
    |>.or ((integer? cs).map integer)
    |>.or ((Binary64.parse? cs).map float)
    |>.or (if Pattern.isValid text then some (.pattern text) else none)

def shown : FieldValue → String
  | boolean b => toString b
  | float x => x.plainText
  | natural n => toString n
  | integer n => toString n
  | pattern text => text

def kind : FieldValue → Nat
  | boolean _ => 0
  | float _ => 1
  | natural _ => 2
  | integer _ => 3
  | pattern _ => 4

def order : FieldValue → FieldValue → Ordering
  | boolean b, boolean c => compare b c
  | float x, float y => Binary64.order x y
  | natural n, natural m => compare n m
  | integer n, integer m => compare n m
  | pattern s, pattern t => compare s t
  | v, w => compare v.kind w.kind

end FieldValue

structure FieldTest where
  name : String
  value : Option FieldValue
deriving DecidableEq

namespace FieldTest

/-- A name, and after the first equals sign a value; what follows a second one
is dropped. -/
def parse? (cs : List Char) : Option FieldTest :=
  let name := String.ofList (cs.takeWhile (· ≠ '='))
  match cs.dropWhile (· ≠ '=') with
  | [] => some ⟨name, none⟩
  | _ :: rest =>
    (FieldValue.parse? (String.ofList (rest.takeWhile (· ≠ '=')))).map fun v => ⟨name, some v⟩

def shown (f : FieldTest) : String :=
  match f.value with
  | none => f.name
  | some v => f.name ++ "=" ++ v.shown

def order (f g : FieldTest) : Ordering :=
  match f.value, g.value with
  | none, some _ => .lt
  | some _, none => .gt
  | none, none => compare f.name g.name
  | some v, some w => (compare f.name g.name).then (v.order w)

def orderAll : List FieldTest → List FieldTest → Ordering
  | [], [] => .eq
  | [], _ :: _ => .lt
  | _ :: _, [] => .gt
  | f :: fs, g :: gs => (f.order g).then (orderAll fs gs)

end FieldTest

structure Directive where
  target : Option String
  span : Option String
  fields : List FieldTest
  threshold : Threshold
deriving DecidableEq

namespace Directive

/-- All that a filter without directives of its own lets pass. -/
def errors : Directive := ⟨none, none, [], ⟨some .error⟩⟩

inductive Place
  | start
  | word (first : Nat)
  | span (first : Nat)
  | field (first : Nat)
  | afterFields
  | afterSpan
  | level (first : Nat)

structure Reading where
  place : Place
  found : Directive

def Reading.start : Reading := ⟨.start, ⟨none, none, [], ⟨some .trace⟩⟩⟩

def startsWord (c : Char) : Bool :=
  c == '-' || c == ':' || c == '_' || isAlphanumeric c

def cut (bytes : Bytes) (first last : Nat) : String :=
  String.ofList (Utf8.decodeLossy ((bytes.take last).drop first))

def Reading.step? (bytes : Bytes) (r : Reading) (pos : Nat) (c : Char) : Option Reading :=
  let d := r.found
  match r.place with
  | .start =>
    if c = '[' then some ⟨.span (pos + 1), d⟩
    else if startsWord c then some ⟨.word pos, d⟩
    else none
  | .word first =>
    if c = '=' then some ⟨.level (pos + 1), { d with target := some (cut bytes first pos) }⟩
    else if c = '[' then some ⟨.span (pos + 1), { d with target := some (cut bytes first pos) }⟩
    else some r
  | .span first =>
    if c = ']' then some ⟨.afterSpan, { d with span := some (cut bytes first pos) }⟩
    else if c = '\x7b' then
      some ⟨.field (pos + 1), { d with span := some (cut bytes first pos) |>.filter (· ≠ "") }⟩
    else some r
  | .field first =>
    if c = '\x7d' then
      if first = pos then none
      else (FieldTest.parse? (cut bytes first pos).toList).map fun f =>
        ⟨.afterFields, { d with fields := d.fields ++ [f] }⟩
    else some r
  | .afterFields => if c = ']' then some ⟨.afterSpan, d⟩ else none
  | .afterSpan => if c = '=' then some ⟨.level (pos + 1), d⟩ else none
  | .level _ => some r

def Reading.steps? (bytes : Bytes) (r : Reading) (pos : Nat) : List Char → Option Reading
  | [] => some r
  | c :: rest => do Reading.steps? bytes (← r.step? bytes pos c) (pos + c.utf8Size) rest

/-- The end of a directive. A word alone is a threshold if it can be one, and
else a target from which everything passes. -/
def Reading.finish? (bytes : Bytes) (r : Reading) : Option Directive :=
  match r.place with
  | .word first =>
    let text := cut bytes first bytes.length
    match Threshold.parse? text with
    | some t => some { r.found with threshold := t }
    | none => some { r.found with target := some text }
  | .afterSpan => some r.found
  | .level first =>
    let text := cut bytes first bytes.length
    if text = "" then some r.found
    else (Threshold.parse? text).map fun t => { r.found with threshold := t }
  | _ => none

/-- Blanks around a directive are not looked at, but they keep their places:
what is cut from the text is cut at the places found without the first blanks. -/
def parse? (text : String) : Option Directive := do
  let bytes := Utf8.encode text.toList
  let r ← Reading.start.steps? bytes 0 (trimChars text.toList)
  r.finish? bytes

def shownFields (fields : List String) : String :=
  if fields.isEmpty then "" else "\x7b" ++ String.intercalate "," fields ++ "\x7d"

def render (target : Option String) (inner : Option String) (threshold : Threshold) : String :=
  let subject := target.getD "" ++ (inner.map fun s => "[" ++ s ++ "]").getD ""
  if target.isNone && inner.isNone then threshold.name else subject ++ "=" ++ threshold.name

def shown (d : Directive) : String :=
  let inner := if d.span.isNone && d.fields.isEmpty then none
    else some (d.span.getD "" ++ shownFields (d.fields.map FieldTest.shown))
  render d.target inner d.threshold

/-- How special a directive is: by the length of its target, by whether it has a
span, and by the number of its fields; what is as special is in the order of
the texts. -/
def order (d e : Directive) : Ordering :=
  (compare (d.target.map String.utf8ByteSize) (e.target.map String.utf8ByteSize))
    |>.then (compare d.span.isSome e.span.isSome)
    |>.then (compare d.fields.length e.fields.length)
    |>.then (compare d.target e.target)
    |>.then (compare d.span e.span)
    |>.then (FieldTest.orderAll d.fields e.fields)

end Directive
end InstallLocator
