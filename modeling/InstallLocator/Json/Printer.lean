import InstallLocator.Text.Utf8

/-!
# JSON documents

Values, and the text of a value with two blanks of indentation for each level.
-/

set_option autoImplicit false

namespace InstallLocator

/-- A number is kept as the text it was written with. -/
inductive Json
  | null
  | boolean (b : Bool)
  | number (digits : List Char)
  | text (s : String)
  | array (items : List Json)
  | object (members : List (String × Json))

namespace Json

def unicodeEscape (c : Char) : List Char :=
  let digits := Nat.toDigits 16 c.toNat
  ['\\', 'u'] ++ List.replicate (4 - digits.length) '0' ++ digits

/-- Quotes, backslashes and control characters are escaped, nothing else. -/
def escapeChar (c : Char) : List Char :=
  if c = '"' then ['\\', '"']
  else if c = '\\' then ['\\', '\\']
  else if c = '\n' then ['\\', 'n']
  else if c = '\r' then ['\\', 'r']
  else if c = '\t' then ['\\', 't']
  else if c = '\x08' then ['\\', 'b']
  else if c = '\x0c' then ['\\', 'f']
  else if c.toNat < 0x20 then unicodeEscape c
  else [c]

def quoted (s : String) : List Char :=
  '"' :: s.toList.flatMap escapeChar ++ ['"']

def indentation (level : Nat) : List Char :=
  '\n' :: List.replicate (2 * level) ' '

mutual

def print (level : Nat) : Json → List Char
  | null => ['n', 'u', 'l', 'l']
  | boolean true => ['t', 'r', 'u', 'e']
  | boolean false => ['f', 'a', 'l', 's', 'e']
  | number digits => digits
  | text s => quoted s
  | array [] => ['[', ']']
  | array (j :: js) =>
    '[' :: indentation (level + 1) ++ print (level + 1) j ++ printItems (level + 1) js ++
      indentation level ++ [']']
  | object [] => ['\x7b', '\x7d']
  | object ((k, j) :: ms) =>
    '\x7b' :: indentation (level + 1) ++ quoted k ++ [':', ' '] ++ print (level + 1) j ++
      printMembers (level + 1) ms ++ indentation level ++ ['\x7d']

def printItems (level : Nat) : List Json → List Char
  | [] => []
  | j :: js => ',' :: indentation level ++ print level j ++ printItems level js

def printMembers (level : Nat) : List (String × Json) → List Char
  | [] => []
  | (k, j) :: ms =>
    ',' :: indentation level ++ quoted k ++ [':', ' '] ++ print level j ++ printMembers level ms

end

def render (j : Json) : String := String.ofList (print 0 j)

end Json
end InstallLocator
