/-!
# Key-value files

A file is one key with its value: a text, or an object of further pairs in
braces. Texts are quoted, with backslash escapes, or bare. A key may stand
several times in an object, and then has several values. Blanks and `//`
comments may stand before every text and brace. References to other files,
`#base` and a name, may come first and are passed over; their names know no
escapes.
-/

set_option autoImplicit false

namespace InstallLocator

inductive KeyValue
  | text (s : String)
  | object (pairs : List (String × KeyValue))

namespace KeyValue

inductive Token
  | text (s : List Char)
  | opening
  | closing
deriving DecidableEq, Repr

def isBlank (c : Char) : Bool :=
  c == ' ' || c == '\t' || c == '\r' || c == '\n'

def skipFrom (inComment : Bool) : List Char → List Char
  | [] => []
  | c :: rest =>
    if inComment then skipFrom (c ≠ '\n') rest
    else if isBlank c then skipFrom false rest
    else if c = '/' ∧ rest.head? = some '/' then skipFrom true rest
    else c :: rest

def skip (cs : List Char) : List Char := skipFrom false cs

def isBare (c : Char) : Bool :=
  !isBlank c && c != '"' && c != '\x7b' && c != '\x7d'

def unescape? : Char → Option Char
  | '"' => some '"'
  | '\\' => some '\\'
  | 'n' => some '\n'
  | 'r' => some '\r'
  | 't' => some '\t'
  | _ => none

/-- A quoted text after its first quote, and the rest; `afterSlash` says that a
backslash is open. -/
def quoted? (afterSlash : Bool) : List Char → Option (List Char × List Char)
  | [] => none
  | c :: rest =>
    if afterSlash then do
      let d ← unescape? c
      let (s, rest) ← quoted? false rest
      return (d :: s, rest)
    else if c = '"' then some ([], rest)
    else if c = '\\' then quoted? true rest
    else do
      let (s, rest) ← quoted? false rest
      return (c :: s, rest)

def token? (cs : List Char) : Option (Token × List Char) :=
  match skip cs with
  | [] => none
  | '\x7b' :: rest => some (.opening, rest)
  | '\x7d' :: rest => some (.closing, rest)
  | '"' :: rest => (quoted? false rest).map fun x => (.text x.1, x.2)
  | c :: rest => some (.text (c :: rest.takeWhile isBare), rest.dropWhile isBare)

theorem skip_length (cs : List Char) : (skip cs).length ≤ cs.length := by
  have h : ∀ b, (skipFrom b cs).length ≤ cs.length := by
    induction cs with
    | nil => intro b; simp [skipFrom]
    | cons c cs ih =>
      intro b
      simp only [skipFrom, List.length_cons]
      have h1 := ih true
      have h2 := ih false
      have h3 := ih (decide (c ≠ '\n'))
      split
      · omega
      · split
        · omega
        · split
          · omega
          · simp
  exact h false

theorem quoted?_length {b : Bool} {cs s rest : List Char} (h : quoted? b cs = some (s, rest)) :
    rest.length < cs.length := by
  induction cs generalizing b s with
  | nil => simp [quoted?] at h
  | cons c cs ih =>
    have next : ∀ {b s}, quoted? b cs = some (s, rest) → rest.length < (c :: cs).length :=
      fun h => Nat.lt_succ_of_lt (ih h)
    rw [quoted?] at h
    split at h
    · simp only [Option.bind_eq_bind, Option.bind_eq_some_iff, Option.pure_def,
        Option.some.injEq, Prod.mk.injEq] at h
      obtain ⟨d, -, ⟨s, r⟩, hq, -, rfl⟩ := h
      exact next hq
    · split at h
      · simp only [Option.some.injEq, Prod.mk.injEq] at h
        simp [h.2]
      · split at h
        · exact next h
        · simp only [Option.bind_eq_bind, Option.bind_eq_some_iff, Option.pure_def,
            Option.some.injEq, Prod.mk.injEq] at h
          obtain ⟨⟨s, r⟩, hq, -, rfl⟩ := h
          exact next hq

theorem token?_length {cs rest : List Char} {t : Token} (h : token? cs = some (t, rest)) :
    rest.length < cs.length := by
  have hs := skip_length cs
  have shorter : ∀ {c r}, skip cs = c :: r → rest.length ≤ r.length → rest.length < cs.length := by
    intro c r hc hr
    rw [hc, List.length_cons] at hs
    omega
  rw [token?] at h
  split at h
  · simp at h
  · rename_i r hc
    simp only [Option.some.injEq, Prod.mk.injEq] at h
    exact shorter hc (by simp [h.2])
  · rename_i r hc
    simp only [Option.some.injEq, Prod.mk.injEq] at h
    exact shorter hc (by simp [h.2])
  · rename_i r hc
    obtain ⟨⟨s, r'⟩, hq, he⟩ := Option.map_eq_some_iff.1 h
    simp only [Prod.mk.injEq] at he
    exact shorter hc (Nat.le_of_lt (quoted?_length (he.2 ▸ hq)))
  · rename_i c r _ _ _ hc
    simp only [Option.some.injEq, Prod.mk.injEq] at h
    exact shorter hc (h.2 ▸ (r.dropWhile_sublist isBare).length_le)

/-- Objects that are still open, the innermost first: the key, and the pairs so
far in reverse. -/
abbrev Pending := List (String × List (String × KeyValue))

/-- How far the reading of a pair has come: to its end, or to some open objects
and perhaps a key whose value comes next. -/
inductive Progress
  | complete (key : String) (value : KeyValue)
  | within (stack : Pending) (key : Option String)

def Pending.add (key : String) (value : KeyValue) : Pending → Progress
  | [] => .complete key value
  | (k, ps) :: stack => .within ((k, (key, value) :: ps) :: stack) none

def Pending.addText (stack : Pending) (key : Option String) (s : List Char) : Progress :=
  match key with
  | none => .within stack (some (String.ofList s))
  | some k => stack.add k (.text (String.ofList s))

def Pending.step (stack : Pending) (key : Option String) : Token → Option Progress
  | .text s => some (stack.addText key s)
  | .opening => key.map fun k => .within ((k, []) :: stack) none
  | .closing =>
    match key, stack with
    | none, (k, ps) :: stack => some (Pending.add k (.object ps.reverse) stack)
    | _, _ => none

def pair? (stack : Pending) (key : Option String) (cs : List Char) :
    Option ((String × KeyValue) × List Char) :=
  match _h : token? cs with
  | none => none
  | some (t, rest) =>
    match stack.step key t with
    | none => none
    | some (.complete k v) => some ((k, v), rest)
    | some (.within stack key) => pair? stack key rest
termination_by cs.length
decreasing_by exact token?_length _h

/-- What comes after the name in a reference: a raw text up to the next quote,
or a bare one. -/
def afterName? (cs : List Char) : Option (List Char) :=
  match cs with
  | '"' :: rest =>
    match rest.dropWhile (· ≠ '"') with
    | [] => none
    | _ :: rest => some rest
  | rest => if (rest.takeWhile isBare).isEmpty then none else some (rest.dropWhile isBare)

/-- What comes after a reference; a `#base` without a name is none. -/
def afterBase? (cs : List Char) : Option (List Char) :=
  match skip cs with
  | '#' :: 'b' :: 'a' :: 's' :: 'e' :: rest => afterName? (skip rest)
  | _ => none

theorem afterName?_length {cs rest : List Char} (h : afterName? cs = some rest) :
    rest.length ≤ cs.length := by
  unfold afterName? at h
  split at h
  · rename_i r
    have hd := (r.dropWhile_sublist (· ≠ '"')).length_le
    split at h
    · simp at h
    · rename_i q r' hr
      simp only [Option.some.injEq] at h
      rw [hr, List.length_cons, h] at hd
      rw [List.length_cons]
      omega
  · split at h
    · simp at h
    · simp only [Option.some.injEq] at h
      exact h ▸ (cs.dropWhile_sublist isBare).length_le

theorem afterBase?_length {cs rest : List Char} (h : afterBase? cs = some rest) :
    rest.length < cs.length := by
  have hs := skip_length cs
  rw [afterBase?] at h
  split at h
  · rename_i r hr
    have h1 := afterName?_length h
    have h2 := skip_length r
    rw [hr] at hs
    simp only [List.length_cons] at hs
    omega
  · simp at h

def dropBases (cs : List Char) : List Char :=
  match _h : afterBase? cs with
  | some rest => dropBases rest
  | none => cs
termination_by cs.length
decreasing_by exact afterBase?_length _h

/-- One NUL may stand at the end, among blanks and comments. -/
def isEnd (cs : List Char) : Bool :=
  match skip cs with
  | '\x00' :: rest => (skip rest).isEmpty
  | rest => rest.isEmpty

def parse (text : String) : Option (String × KeyValue) := do
  let (p, rest) ← pair? [] none (dropBases text.toList)
  if isEnd rest then some p else none

def valuesOf (key : String) (pairs : List (String × KeyValue)) : List KeyValue :=
  (pairs.filter fun p => p.1 = key).map Prod.snd

end KeyValue
end InstallLocator
