/-!
# Patterns of paths

A pattern is a text in which `?` stands for any character, `*` for any run of
them, brackets for one character of a set, and `**`, as a whole component, for
any number of directories. Positions in errors count characters from zero.
-/

set_option autoImplicit false

namespace InstallLocator.Glob

inductive CharClass
  | single (c : Char)
  | range (first last : Char)
deriving DecidableEq, Repr

inductive Token
  | char (c : Char)
  | anyChar
  | anySequence
  | anyDirectories
  | within (set : List CharClass)
  | outside (set : List CharClass)
deriving DecidableEq, Repr

inductive PatternFault
  | wildcards
  | recursiveWildcards
  | range
deriving DecidableEq, Repr

structure PatternError where
  position : Nat
  fault : PatternFault
deriving DecidableEq, Repr

def PatternFault.message : PatternFault → String
  | wildcards => "wildcards are either regular `*` or recursive `**`"
  | recursiveWildcards => "recursive wildcards must form a single path component"
  | range => "invalid range pattern"

def PatternError.message (e : PatternError) : String :=
  "Pattern syntax error near position " ++ toString e.position ++ ": " ++ e.fault.message

/-- The members of a bracket: `a-b` is a range unless the `-` stands at an end. -/
def classes : List Char → List CharClass
  | a :: '-' :: b :: rest => .range a b :: classes rest
  | a :: rest => .single a :: classes rest
  | [] => []

def closing : List Char → Option (List Char × List Char)
  | [] => none
  | c :: rest =>
    if c = ']' then some ([], rest)
    else (closing rest).map fun x => (c :: x.1, x.2)

theorem closing_length {cs inside after : List Char} (h : closing cs = some (inside, after)) :
    after.length < cs.length := by
  induction cs generalizing inside with
  | nil => simp [closing] at h
  | cons c rest ih =>
    by_cases hc : c = ']'
    · simp only [closing, hc, if_true, Option.some.injEq, Prod.mk.injEq] at h
      simp [h.2]
    · simp only [closing, hc, if_false, Option.map_eq_some_iff] at h
      obtain ⟨⟨i, a⟩, hi, he⟩ := h
      simp only [Prod.mk.injEq] at he
      have := ih (he.2 ▸ hi)
      simp only [List.length_cons]
      omega

/-- A bracket after its `[`. The first character inside, after a `!`, belongs
to the set even if it is `]`. -/
def bracket : List Char → Option (Token × List Char)
  | [] => none
  | ['!'] => none
  | '!' :: c :: rest =>
    (closing rest).map fun x => (.outside (classes (c :: x.1)), x.2)
  | c :: rest => (closing rest).map fun x => (.within (classes (c :: x.1)), x.2)

theorem bracket_length {cs after : List Char} {t : Token} (h : bracket cs = some (t, after)) :
    after.length < cs.length := by
  unfold bracket at h
  split at h
  · cases h
  · cases h
  all_goals
    obtain ⟨⟨i, a⟩, hi, he⟩ := Option.map_eq_some_iff.1 h
    simp only [Prod.mk.injEq] at he
    have := closing_length (he.2 ▸ hi)
    simp only [List.length_cons]
    omega

def isSeparator (c : Char) : Bool := c == '/'

def tokens (position : Nat) (before : Option Char) (cs : List Char) :
    Except PatternError (List Token) :=
  match cs with
  | [] => .ok []
  | '?' :: rest => do return .anyChar :: (← tokens (position + 1) (some '?') rest)
  | '*' :: '*' :: '*' :: _ => .error ⟨position + 2, .wildcards⟩
  | '*' :: '*' :: rest =>
    if before.all isSeparator then
      match rest with
      | [] => .ok [.anyDirectories]
      | c :: rest =>
        if isSeparator c then do
          return .anyDirectories :: (← tokens (position + 3) (some c) rest)
        else .error ⟨position + 2, .recursiveWildcards⟩
    else .error ⟨position - 1, .recursiveWildcards⟩
  | '*' :: rest => do return .anySequence :: (← tokens (position + 1) (some '*') rest)
  | '[' :: rest =>
    match h : bracket rest with
    | some (t, after) =>
      have := bracket_length h
      do return t :: (← tokens (position + 1 + (rest.length - after.length)) (some ']') after)
    | none => .error ⟨position, .range⟩
  | c :: rest => do return .char c :: (← tokens (position + 1) (some c) rest)
termination_by cs.length

def parse (text : String) : Except PatternError (List Token) :=
  tokens 0 none text.toList

/-- Each of `?`, `*`, `[` and `]` is put into brackets of its own. -/
def escapeChars (cs : List Char) : List Char :=
  cs.flatMap fun c =>
    if c = '?' ∨ c = '*' ∨ c = '[' ∨ c = ']' then ['[', c, ']'] else [c]

def escape (text : String) : String :=
  String.ofList (escapeChars text.toList)

/-- A pattern without metacharacters stands for its own text. -/
def literal? : List Token → Option (List Char)
  | [] => some []
  | .char c :: ts => (literal? ts).map (c :: ·)
  | _ :: _ => none

end InstallLocator.Glob
