import InstallLocator.Glob.Pattern

/-!
# Names that match a pattern

The whole name must match. Once a name has run out before the pattern, no
shorter rest of it can match either, so the search gives up there.
-/

set_option autoImplicit false

namespace InstallLocator.Glob

def CharClass.holds (c : Char) : CharClass → Bool
  | .single d => c == d
  | .range first last => first.toNat ≤ c.toNat && c.toNat ≤ last.toNat

def Token.holds (c : Char) : Token → Bool
  | .char d => c == d
  | .anyChar => true
  | .within set => set.any (·.holds c)
  | .outside set => !set.any (·.holds c)
  | .anySequence => false
  | .anyDirectories => false

inductive Attempt
  | matched
  | failed
  | exhausted
deriving DecidableEq

/-- Tries the rests of a text, the longest first, until one decides. -/
def Attempt.onRests (attempt : List Char → Attempt) : List Char → Attempt
  | [] => attempt []
  | c :: cs =>
    match attempt (c :: cs) with
    | .failed => onRests attempt cs
    | decided => decided

def attempt : List Token → List Char → Attempt
  | [], [] => .matched
  | [], _ :: _ => .failed
  | .anySequence :: ts, cs => Attempt.onRests (attempt ts) cs
  | .anyDirectories :: ts, cs => Attempt.onRests (attempt ts) cs
  | _ :: _, [] => .exhausted
  | t :: ts, c :: cs => if t.holds c then attempt ts cs else .failed

def isMatch (ts : List Token) (name : List Char) : Bool :=
  attempt ts name == .matched

end InstallLocator.Glob
