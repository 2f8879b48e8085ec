/-!
# UTF-8

Bytes are read one at a time by an automaton whose state is the sequence that
is still open. The pieces it finds are characters and maximal broken parts: a
part is broken as soon as no continuation could make it a character, and the
byte that showed this starts afresh. Reading strictly accepts characters only;
reading leniently puts U+FFFD for each broken part.
-/

set_option autoImplicit false

namespace InstallLocator

abbrev Bytes := List UInt8

namespace Utf8

def encode (cs : List Char) : Bytes :=
  cs.flatMap String.utf8EncodeChar

inductive Piece
  | char (c : Char)
  | broken (bytes : Bytes)
deriving DecidableEq, Repr

/-- A sequence that has begun: the bytes read, the value so far, the number of
bytes to come, and the range of the next one. -/
structure Open where
  seen : Bytes
  value : Nat
  missing : Nat
  low : UInt8
  high : UInt8

def start (b : UInt8) : List Piece × Option Open :=
  if b < 0x80 then ([.char (Char.ofNat b.toNat)], none)
  else if 0xC2 ≤ b ∧ b ≤ 0xDF then ([], some ⟨[b], b.toNat % 32, 1, 0x80, 0xBF⟩)
  else if b = 0xE0 then ([], some ⟨[b], 0, 2, 0xA0, 0xBF⟩)
  else if b = 0xED then ([], some ⟨[b], 13, 2, 0x80, 0x9F⟩)
  else if 0xE1 ≤ b ∧ b ≤ 0xEF then ([], some ⟨[b], b.toNat % 16, 2, 0x80, 0xBF⟩)
  else if b = 0xF0 then ([], some ⟨[b], 0, 3, 0x90, 0xBF⟩)
  else if 0xF1 ≤ b ∧ b ≤ 0xF3 then ([], some ⟨[b], b.toNat % 8, 3, 0x80, 0xBF⟩)
  else if b = 0xF4 then ([], some ⟨[b], 4, 3, 0x80, 0x8F⟩)
  else ([.broken [b]], none)

def step : Option Open → UInt8 → List Piece × Option Open
  | none, b => start b
  | some o, b =>
    if o.low ≤ b ∧ b ≤ o.high then
      let value := o.value * 64 + b.toNat % 64
      if o.missing ≤ 1 then ([.char (Char.ofNat value)], none)
      else ([], some ⟨o.seen ++ [b], value, o.missing - 1, 0x80, 0xBF⟩)
    else
      let (ps, next) := start b
      (.broken o.seen :: ps, next)

def finish : Option Open → List Piece
  | none => []
  | some o => [.broken o.seen]

/-- The pieces of the bytes, the last one first, in front of those found before. -/
def scan (found : List Piece) : Option Open → Bytes → List Piece
  | o, [] => (finish o).reverse ++ found
  | o, b :: bs =>
    let (ps, next) := step o b
    scan (ps.reverse ++ found) next bs

def pieces (bs : Bytes) : List Piece :=
  (scan [] none bs).reverse

theorem scan_found (found : List Piece) (o : Option Open) (bs : Bytes) :
    scan found o bs = scan [] o bs ++ found := by
  induction bs generalizing found o with
  | nil => simp [scan]
  | cons b bs ih =>
    simp only [scan]
    rw [ih, ih ((step o b).1.reverse ++ [])]
    simp

def Piece.shown : Piece → Char
  | .char c => c
  | .broken _ => '\uFFFD'

def Piece.char? : Piece → Option Char
  | .char c => some c
  | .broken _ => none

/-- Every broken part becomes one replacement character. -/
def decodeLossy (bs : Bytes) : List Char :=
  (pieces bs).map Piece.shown

def decode? (bs : Bytes) : Option (List Char) :=
  let ps := pieces bs
  if ps.all fun p => p.char?.isSome then some (ps.filterMap Piece.char?) else none

end Utf8
end InstallLocator
