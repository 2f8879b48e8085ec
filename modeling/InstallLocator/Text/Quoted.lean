import InstallLocator.Text.Printable
import InstallLocator.Text.Utf8

/-!
# Quoted texts

How names and paths appear inside diagnostics: between double quotes, with
backslash escapes for the quote, the backslash and every character that would
not be seen as it is. Bytes that are not UTF-8 are written in hexadecimal.
-/

set_option autoImplicit false

namespace InstallLocator.Quoted

def hex (n : Nat) : List Char :=
  Nat.toDigits 16 n

def escapeChar (c : Char) : List Char :=
  if c = '\x00' then ['\\', '0']
  else if c = '\t' then ['\\', 't']
  else if c = '\n' then ['\\', 'n']
  else if c = '\r' then ['\\', 'r']
  else if c = '"' then ['\\', '"']
  else if c = '\\' then ['\\', '\\']
  else if isExtender c || !isPrintable c then ['\\', 'u', '\x7b'] ++ hex c.toNat ++ ['\x7d']
  else [c]

def escapeByte (b : UInt8) : List Char :=
  let digits := (hex b.toNat).map Char.toUpper
  ['\\', 'x'] ++ List.replicate (2 - digits.length) '0' ++ digits

def escapePiece : Utf8.Piece → List Char
  | .char c => escapeChar c
  | .broken bs => bs.flatMap escapeByte

def text (s : String) : String :=
  String.ofList ('"' :: s.toList.flatMap escapeChar ++ ['"'])

def bytes (bs : Bytes) : String :=
  String.ofList ('"' :: (Utf8.pieces bs).flatMap escapePiece ++ ['"'])

end InstallLocator.Quoted
