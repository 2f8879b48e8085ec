import InstallLocator.Proofs.Splitting
import InstallLocator.Toml.Parser

/-!
# Documents written in TOML

Tables one after the other, each with a header and with one key on a line. A
text is written as a basic string; which of the ways to write a character is
taken is left to the writer, as long as it is one. Such a document is read as
the tables that were written.
-/

set_option autoImplicit false

namespace InstallLocator.Toml

/-- The ways to write a character in a basic string. -/
inductive Spells (c : Char) : List Char → Prop
  | plain (hp : isPlain c = true) (hq : c ≠ '"') (hb : c ≠ '\\') : Spells c [c]
  | short {e : Char} (h : shortEscape? e = some c) : Spells c ['\\', e]
  | four {i j k l : Char} (h : codePoint? [i, j, k, l] = some c) : Spells c ['\\', 'u', i, j, k, l]
  | eight {i j k l m n o p : Char} (h : codePoint? [i, j, k, l, m, n, o, p] = some c) :
    Spells c ['\\', 'U', i, j, k, l, m, n, o, p]

/-- A choice of how to write each character. -/
structure Spelling where
  chars : Char → List Char
  spells : ∀ c, Spells c (chars c)

theorem basicBody_short {e c : Char} (h : shortEscape? e = some c) (rest : List Char) :
    basicBody ('\\' :: e :: rest) = prepend (some c) (basicBody rest) := by
  unfold shortEscape? at h
  split at h <;> cases h <;> rfl

theorem basicBody_plain {c : Char} (hp : isPlain c = true) (hq : c ≠ '"') (hb : c ≠ '\\')
    (rest : List Char) : basicBody (c :: rest) = prepend (some c) (basicBody rest) := by
  rw [basicBody.eq_def]
  -- Every other form of the body starts with a quote or a backslash.
  split
  · next h => cases h
  · next h => exact absurd (List.cons.inj h).1 hq
  · next h => exact absurd (List.cons.inj h).1 hb
  · next h => exact absurd (List.cons.inj h).1 hb
  · next h => exact absurd (List.cons.inj h).1 hb
  · next h =>
    obtain ⟨rfl, rfl⟩ := List.cons.inj h
    rw [if_pos ⟨hp, hb⟩]

theorem basicBody_spells {c : Char} {cs : List Char} (h : Spells c cs) (rest : List Char) :
    basicBody (cs ++ rest) = prepend (some c) (basicBody rest) := by
  cases h with
  | plain hp hq hb => exact basicBody_plain hp hq hb rest
  | short h => exact basicBody_short h rest
  | four h => exact congrArg (fun c => prepend c (basicBody rest)) h
  | eight h => exact congrArg (fun c => prepend c (basicBody rest)) h

theorem Spells.head_ne_quote {c : Char} {cs : List Char} (h : Spells c cs) (rest : List Char) :
    ∃ d more, cs ++ rest = d :: more ∧ d ≠ '"' := by
  cases h with
  | plain hp hq hb => exact ⟨_, _, rfl, hq⟩
  | short h => exact ⟨_, _, rfl, by decide⟩
  | four h => exact ⟨_, _, rfl, by decide⟩
  | eight h => exact ⟨_, _, rfl, by decide⟩

namespace Spelling

variable (sp : Spelling)

def text (s : String) : List Char := '"' :: (s.toList.flatMap sp.chars ++ ['"'])

theorem basicBody_text (cs rest : List Char) :
    basicBody (cs.flatMap sp.chars ++ '"' :: rest) = some (cs, rest) := by
  induction cs with
  | nil => rfl
  | cons c cs ih =>
    rw [List.flatMap_cons, List.append_assoc, basicBody_spells (sp.spells c), ih]
    rfl

theorem text_ne_long (s : String) {rest : List Char} (hr : rest.head? ≠ some '"')
    (after : List Char) : sp.text s ++ rest ≠ '"' :: '"' :: '"' :: after := by
  intro h
  simp only [text, List.cons_append, List.append_assoc, List.nil_append] at h
  have hbody := (List.cons.inj h).2
  cases hs : s.toList with
  | nil =>
    rw [hs] at hbody
    obtain rfl := (List.cons.inj hbody).2
    exact hr rfl
  | cons c cs =>
    obtain ⟨d, more, hd, hne⟩ := (sp.spells c).head_ne_quote
      (cs.flatMap sp.chars ++ '"' :: rest)
    rw [hs, List.flatMap_cons, List.append_assoc, hd] at hbody
    exact hne (List.cons.inj hbody).1

theorem string_text (s : String) {rest : List Char} (hr : rest.head? ≠ some '"') :
    string (sp.text s ++ rest) = some (s.toList, rest) := by
  have hline : lineString (sp.text s ++ rest) = some (s.toList, rest) := by
    simp only [text, List.cons_append, List.append_assoc, List.nil_append]
    exact sp.basicBody_text s.toList rest
  rw [← hline, string.eq_def]
  -- Only an opening of three quotes is read in another way than a line.
  split
  · next after h => exact absurd h (sp.text_ne_long s hr after)
  · next h => cases h
  · rfl

end Spelling

def escapeChar (c : Char) : List Char :=
  if c = '"' ∨ c = '\\' then ['\\', c]
  else if c.toNat < 0x20 ∨ (0x7F ≤ c.toNat ∧ c.toNat < 0xA0) then
    ['\\', 'u', '0', '0', Nat.digitChar (c.toNat / 16), Nat.digitChar (c.toNat % 16)]
  else [c]

theorem hexDigit?_digitChar : ∀ d < 16, hexDigit? (Nat.digitChar d) = some d := by
  decide

theorem codePoint?_byte {n : Nat} (h : n < 256) :
    codePoint? ['0', '0', Nat.digitChar (n / 16), Nat.digitChar (n % 16)] =
      some (Char.ofNat n) := by
  have hv : n.isValidChar := by
    unfold Nat.isValidChar
    omega
  have hd : ['0', '0', Nat.digitChar (n / 16), Nat.digitChar (n % 16)].mapM hexDigit? =
      some [0, 0, n / 16, n % 16] := by
    simp [hexDigit?_digitChar (n / 16) (by omega), hexDigit?_digitChar (n % 16) (by omega),
      show hexDigit? '0' = some 0 from rfl]
  have hn : ofDigits 16 [0, 0, n / 16, n % 16] = n := by
    simp [ofDigits]
    omega
  simp [codePoint?, hd, hn, hv]

theorem escapeChar_spells (c : Char) : Spells c (escapeChar c) := by
  unfold escapeChar
  by_cases hq : c = '"' ∨ c = '\\'
  · rw [if_pos hq]
    rcases hq with rfl | rfl
    · exact .short rfl
    · exact .short rfl
  rw [if_neg hq]
  by_cases hc : c.toNat < 0x20 ∨ (0x7F ≤ c.toNat ∧ c.toNat < 0xA0)
  · rw [if_pos hc]
    have hcode := codePoint?_byte (n := c.toNat) (by omega)
    rw [Char.ofNat_toNat] at hcode
    exact .four hcode
  · have hplain : isPlain c = true := by
      simp [isPlain]
      omega
    rw [not_or] at hq
    rw [if_neg hc]
    exact .plain hplain hq.1 hq.2

def Spelling.escaping : Spelling := ⟨escapeChar, escapeChar_spells⟩

/-- The values that are written: flags, digits, texts and lists of texts. -/
inductive Literal
  | boolean (b : Bool)
  | digit (n : Fin 10)
  | text (s : String)
  | texts (ss : List String)

namespace Literal

def item : Literal → Item
  | boolean b => .boolean b
  | digit n => .integer n
  | text s => .text s
  | texts ss => .array (ss.map .text)

def chars (sp : Spelling) : Literal → List Char
  | boolean true => ['t', 'r', 'u', 'e']
  | boolean false => ['f', 'a', 'l', 's', 'e']
  | digit n => [Nat.digitChar n]
  | text s => sp.text s
  | texts [] => ['[', ']']
  | texts (s :: ss) => '[' :: (sp.text s ++ ss.flatMap (fun t => ',' :: ' ' :: sp.text t) ++ [']'])

end Literal

theorem fixedDigits_eq_none {count : Nat} {cs : List Char} {c : Char} (hc : c ∈ cs.take count)
    (hd : decimalDigit? c = none) : fixedDigits count cs = none := by
  have hlt : ((cs.take count).filterMap decimalDigit?).length < (cs.take count).length :=
    List.length_filterMap_lt_length_iff_exists.2 ⟨c, hc, hd⟩
  have hle := List.length_take_le count cs
  rw [fixedDigits, if_neg (by omega)]

theorem moment?_digit (c : Char) (rest : List Char) : moment? (c :: '\n' :: rest) = none := by
  have hdate : date? (c :: '\n' :: rest) = none := by
    rw [date?, fixedDigits_eq_none (c := '\n') (by simp) (by decide)]
    rfl
  have htime : time? (c :: '\n' :: rest) = none := by
    rw [time?, hourMinute?, fixedDigits_eq_none (c := '\n') (by simp) (by decide)]
    rfl
  rw [moment?, hdate, htime]

theorem number_digit (n : Fin 10) (rest : List Char) :
    number (Nat.digitChar n :: '\n' :: rest) = some (.integer n, '\n' :: rest) := by
  rw [number.eq_def, moment?_digit]
  match n with
  | 0 | 1 | 2 | 3 | 4 | 5 | 6 | 7 | 8 | 9 => rfl

theorem skipLines_blank (rest : List Char) :
    skipLines false (' ' :: rest) = skipLines false rest := by
  rw [skipLines.eq_def]
  rfl

/-- A character that no line break, blank or comment begins with. -/
def Solid (c : Char) : Prop := isBlank c = false ∧ c ≠ '#' ∧ c ≠ '\n' ∧ c ≠ '\r'

instance (c : Char) : Decidable (Solid c) := inferInstanceAs (Decidable (_ ∧ _))

theorem skipLines_solid {c : Char} (hc : Solid c) (rest : List Char) :
    skipLines false (c :: rest) = some (c :: rest) := by
  obtain ⟨hb, hh, hn, hr⟩ := hc
  rw [skipLines.eq_def]
  split
  · next h => cases h
  · next h => exact absurd (List.cons.inj h).1 hn
  · next h => exact absurd (List.cons.inj h).1 hr
  · next h =>
    obtain ⟨rfl, rfl⟩ := List.cons.inj h
    simp [hb, hh]

theorem Spelling.skipLines_text (sp : Spelling) (s : String) (rest : List Char) :
    skipLines false (sp.text s ++ rest) = some (sp.text s ++ rest) :=
  skipLines_solid (by decide) _

section

variable {item : List Char → Read Item} {cs rest more next : List Char} {v : Item}

theorem arrayItems_last (hv : item cs = some (v, rest))
    (hs : skipLines false rest = some (']' :: more)) : arrayItems item cs = some ([v], more) := by
  rw [arrayItems, hv]
  simp only [hs]

theorem arrayItems_next (hv : item cs = some (v, rest))
    (hs : skipLines false rest = some (',' :: more)) (hm : skipLines false more = some next)
    (hb : next.head? ≠ some ']') (hlen : next.length < cs.length) :
    arrayItems item cs = (arrayItems item next).map fun x => (v :: x.1, x.2) := by
  rw [arrayItems, hv]
  simp only [hs, hm]
  split
  · next h =>
    cases h
    exact absurd rfl hb
  · next h =>
    cases h
    rw [if_pos hlen]
  · next h => cases h

theorem arrayItems_texts (sp : Spelling) (s : String) (ss : List String)
    (h : ∀ t rest, rest.head? ≠ some '"' → item (sp.text t ++ rest) = some (.text t, rest)) :
    arrayItems item (sp.text s ++ (ss.flatMap (fun t => ',' :: ' ' :: sp.text t) ++ ']' :: rest)) =
      some ((s :: ss).map .text, rest) := by
  induction ss generalizing s with
  | nil =>
    apply arrayItems_last (h s _ (by simp))
    exact skipLines_solid (by decide) rest
  | cons t ss ih =>
    simp only [List.flatMap_cons, List.cons_append, List.append_assoc]
    rw [arrayItems_next (h s _ (by simp)) (skipLines_solid (by decide) _)
      (by rw [skipLines_blank, sp.skipLines_text]) (by simp [Spelling.text]) ?_, ih t]
    · rfl
    · simp only [List.length_append, List.length_cons]
      omega

end

theorem value_text (sp : Spelling) (depth : Nat) (s : String) {rest : List Char}
    (hr : rest.head? ≠ some '"') : value depth (sp.text s ++ rest) = some (.text s, rest) := by
  have hs := sp.string_text s hr
  rw [Spelling.text, List.cons_append] at hs ⊢
  rw [value.eq_def]
  simp only [hs, Option.map_some, String.ofList_toList]

theorem value_array {depth : Nat} {cs next : List Char} (hs : skipLines false cs = some next)
    (hb : next.head? ≠ some ']') :
    value (depth + 1) ('[' :: cs) =
      (arrayItems (value depth) next).map fun x => (.array x.1, x.2) := by
  rw [value]
  simp only [hs]
  split
  · next h =>
    cases h
    exact absurd rfl hb
  · next h =>
    cases h
    rfl
  · next h => cases h

theorem value_texts (sp : Spelling) (depth : Nat) (ss : List String) (rest : List Char) :
    value (depth + 1) ((Literal.texts ss).chars sp ++ rest) =
      some ((Literal.texts ss).item, rest) := by
  cases ss with
  | nil =>
    rw [Literal.chars, value.eq_def]
    rfl
  | cons s ss =>
    simp only [Literal.chars, List.cons_append, List.append_assoc, List.nil_append]
    rw [value_array (sp.skipLines_text s _) (by simp [Spelling.text]),
      arrayItems_texts sp s ss fun t rest => value_text sp depth t]
    rfl

theorem value_digit (depth : Nat) (n : Fin 10) (rest : List Char) :
    value depth (Nat.digitChar n :: '\n' :: rest) = some (.integer n, '\n' :: rest) := by
  have hvalue : value depth (Nat.digitChar n :: '\n' :: rest) =
      number (Nat.digitChar n :: '\n' :: rest) := by
    rw [value.eq_def]
    match n with
    | 0 | 1 | 2 | 3 | 4 | 5 | 6 | 7 | 8 | 9 => rfl
  rw [hvalue, number_digit]

theorem value_literal (sp : Spelling) (depth : Nat) (v : Literal) (rest : List Char) :
    value (depth + 1) (v.chars sp ++ '\n' :: rest) = some (v.item, '\n' :: rest) := by
  cases v with
  | boolean b =>
    cases b <;>
    · rw [value.eq_def]
      rfl
  | digit n => exact value_digit (depth + 1) n rest
  | text s => exact value_text sp (depth + 1) s (by simp)
  | texts ss => exact value_texts sp depth ss ('\n' :: rest)

theorem Literal.exists_cons (sp : Spelling) (v : Literal) :
    ∃ c cs, v.chars sp = c :: cs ∧ Solid c := by
  cases v with
  | boolean b => cases b <;> exact ⟨_, _, rfl, by decide⟩
  | digit n =>
    have hdigit : ∀ n : Fin 10, Solid (Nat.digitChar n) := by decide
    exact ⟨_, _, rfl, hdigit n⟩
  | text s => exact ⟨_, _, rfl, by decide⟩
  | texts ss => cases ss <;> exact ⟨_, _, rfl, by decide⟩

def Bare (k : String) : Prop := k ≠ "" ∧ ∀ c ∈ k.toList, isBareKeyChar c = true

instance (k : String) : Decidable (Bare k) :=
  @instDecidableAnd _ _ inferInstance (List.decidableBAll _ _)

theorem solid_of_isBareKeyChar {c : Char} (hc : isBareKeyChar c = true) : Solid c := by
  have hne : ∀ d, isBareKeyChar d = false → c ≠ d := by
    rintro d hd rfl
    rw [hd] at hc
    cases hc
  have hblank : isBlank c = false := by
    simp [isBlank, hne ' ' (by decide), hne '\t' (by decide)]
  exact ⟨hblank, hne '#' (by decide), hne '\n' (by decide), hne '\r' (by decide)⟩

theorem skipBlanks_solid {c : Char} (hc : Solid c) (rest : List Char) :
    skipBlanks (c :: rest) = c :: rest := by
  rw [skipBlanks, List.dropWhile_cons, hc.1]
  rfl

namespace Bare

variable {k : String}

theorem exists_cons (hk : Bare k) : ∃ c cs, k.toList = c :: cs ∧ isBareKeyChar c = true := by
  have hne : k.toList ≠ [] := fun h => hk.1 (String.toList_eq_nil_iff.1 h)
  obtain ⟨c, cs, h⟩ := List.exists_cons_of_ne_nil hne
  exact ⟨c, cs, h, hk.2 c (h ▸ List.mem_cons_self)⟩

theorem append_ne (hk : Bare k) {q : Char} (hq : isBareKeyChar q = false)
    (more rest : List Char) : k.toList ++ more ≠ q :: rest := by
  intro h
  obtain ⟨c, cs, hcs, hc⟩ := hk.exists_cons
  rw [hcs, List.cons_append] at h
  rw [(List.cons.inj h).1, hq] at hc
  cases hc

variable {d : Char} {more next : List Char}

theorem simpleKey (hk : Bare k) (hd : isBareKeyChar d = false) :
    Toml.simpleKey (k.toList ++ d :: more) = some (k.toList, d :: more) := by
  have htake : (k.toList ++ d :: more).takeWhile isBareKeyChar = k.toList := by
    simp [List.takeWhile_append_of_pos hk.2, hd]
  have hdrop : (k.toList ++ d :: more).dropWhile isBareKeyChar = d :: more := by
    simp [List.dropWhile_append_of_pos hk.2, hd]
  have hne : k.toList.isEmpty = false := by
    simpa using hk.1
  rw [Toml.simpleKey.eq_def]
  split
  · next h => exact absurd h (hk.append_ne (by decide) _ _)
  · next h => exact absurd h (hk.append_ne (by decide) _ _)
  · rw [htake, hdrop, hne]
    rfl

theorem dottedKey (hk : Bare k) (hd : isBareKeyChar d = false)
    (hs : skipBlanks (d :: more) = next) (hdot : next.head? ≠ some '.') :
    Toml.dottedKey (k.toList ++ d :: more) = some ([k], next) := by
  obtain ⟨c, cs, hcs, hc⟩ := hk.exists_cons
  have hskip : skipBlanks (k.toList ++ d :: more) = k.toList ++ d :: more := by
    rw [hcs]
    exact skipBlanks_solid (solid_of_isBareKeyChar hc) _
  rw [Toml.dottedKey, hskip, hk.simpleKey hd]
  simp only [hs]
  split
  · exact absurd rfl hdot
  · rw [String.ofList_toList]

theorem key (hk : Bare k) (hd : isBareKeyChar d = false)
    (hs : skipBlanks (d :: more) = next) (hdot : next.head? ≠ some '.') :
    Toml.key (k.toList ++ d :: more) = some ([k], next) := by
  rw [Toml.key, hk.dottedKey hd hs hdot]
  rfl

theorem header (hk : Bare k) (rest : List Char) :
    Toml.header [']'] (k.toList ++ ']' :: rest) = some (([], k), rest) := by
  rw [Toml.header, hk.key (by decide) (skipBlanks_solid (by decide) rest) (by simp)]
  rfl

theorem keyValue (hk : Bare k) {item : List Char → Read Item} {v : Item}
    {cs rest : List Char} (hs : skipBlanks (' ' :: cs) = cs) (hv : item cs = some (v, rest)) :
    Toml.keyValue item (k.toList ++ ' ' :: '=' :: ' ' :: cs) = some (([], k, v), rest) := by
  have hequals : skipBlanks (' ' :: '=' :: ' ' :: cs) = '=' :: ' ' :: cs :=
    skipBlanks_solid (c := '=') (by decide) (' ' :: cs)
  have hkey := hk.key (by decide) hequals (by simp)
  rw [Toml.keyValue, hkey]
  show (item (skipBlanks (' ' :: cs))).bind (fun x => some (([], k, x.1), x.2)) = _
  rw [hs, hv]
  rfl

end Bare

/-- A table to be written: its name, and its keys with their values. -/
structure Section where
  name : String
  pairs : List (String × Literal)
  bare : Bare name
  bare_keys : ∀ k ∈ pairs.map Prod.fst, Bare k
  keys_nodup : (pairs.map Prod.fst).Nodup

namespace Section

variable (sp : Spelling) (t : Section)

def headerLine : List Char := '[' :: (t.name.toList ++ [']'])

def pairLine (p : String × Literal) : List Char :=
  p.1.toList ++ ' ' :: '=' :: ' ' :: p.2.chars sp

def lines : List (List Char × Statement) :=
  (t.headerLine, .table [] t.name) ::
    t.pairs.map fun p => (pairLine sp p, .assign [] p.1 p.2.item)

def item : String × Item :=
  (t.name, .table .header (t.pairs.map fun p => (p.1, p.2.item)))

end Section

/-- The line is read as the statement, up to its end. -/
structure Says (line : List Char) (s : Statement) : Prop where
  solid : ∃ c cs, line = c :: cs ∧ Solid c
  statement : ∀ rest, Toml.statement (line ++ '\n' :: rest) = some (s, '\n' :: rest)

theorem Section.headerLine_says (t : Section) : Says t.headerLine (.table [] t.name) where
  solid := ⟨'[', _, rfl, by decide⟩
  statement rest := by
    simp only [headerLine, List.cons_append, List.append_assoc, List.nil_append]
    rw [statement.eq_def]
    split
    · next h => exact absurd (List.cons.inj h).2 (t.bare.append_ne (by decide) _ _)
    · next h =>
      obtain rfl := (List.cons.inj h).2
      rw [t.bare.header]
      rfl
    · next h => exact absurd rfl (h _)

theorem Section.pairLine_says (sp : Spelling) {p : String × Literal} (hp : Bare p.1) :
    Says (pairLine sp p) (.assign [] p.1 p.2.item) := by
  constructor
  · obtain ⟨c, cs, hcs, hc⟩ := hp.exists_cons
    exact ⟨c, _, by rw [pairLine, hcs]; rfl, solid_of_isBareKeyChar hc⟩
  · intro rest
    obtain ⟨d, ds, hds, hd⟩ := p.2.exists_cons sp
    have hskip : skipBlanks (' ' :: (p.2.chars sp ++ '\n' :: rest)) =
        p.2.chars sp ++ '\n' :: rest := by
      rw [hds]
      exact skipBlanks_solid hd _
    have hvalue := hp.keyValue hskip (value_literal sp 78 p.2 rest)
    simp only [pairLine, List.cons_append, List.append_assoc]
    rw [statement.eq_def]
    split
    · next h => exact absurd h (hp.append_ne (by decide) _ _)
    · next h => exact absurd h (hp.append_ne (by decide) _ _)
    · rw [show maxDepth - 1 = 78 + 1 from rfl, hvalue]
      rfl

theorem Section.says (sp : Spelling) (t : Section) : ∀ l ∈ t.lines sp, Says l.1 l.2 := by
  intro l hl
  rcases List.mem_cons.1 hl with rfl | hl
  · exact t.headerLine_says
  · obtain ⟨p, hp, rfl⟩ := List.mem_map.1 hl
    exact pairLine_says sp (t.bare_keys p.1 (List.mem_map_of_mem hp))

theorem lineEnd?_newline (rest : List Char) : lineEnd? ('\n' :: rest) = some rest :=
  rfl

theorem lineEnd?_solid {c : Char} (hc : Solid c) (rest : List Char) :
    lineEnd? (c :: rest) = none := by
  have hcomment : skipComment (c :: rest) = c :: rest := by
    rw [skipComment.eq_def]
    split
    · next h => exact absurd (List.cons.inj h).1 hc.2.1
    · rfl
  rw [lineEnd?, skipBlanks_solid hc, hcomment]
  show newline? (c :: rest) = none
  rw [newline?.eq_def]
  split
  · next h => exact absurd (List.cons.inj h).1 hc.2.2.1
  · next h => exact absurd (List.cons.inj h).1 hc.2.2.2
  · rfl

theorem statements_line {line : List Char} {s : Statement} (h : Says line s) (rest : List Char) :
    statements (line ++ '\n' :: rest) = (statements rest).map (s :: ·) := by
  obtain ⟨c, cs, hcs, hc⟩ := h.solid
  have hskip : skipBlanks (line ++ '\n' :: rest) = line ++ '\n' :: rest := by
    rw [hcs]
    exact skipBlanks_solid hc _
  have hend : lineEnd? (line ++ '\n' :: rest) = none := by
    rw [hcs]
    exact lineEnd?_solid hc _
  have hne : (line ++ '\n' :: rest).isEmpty = false := by
    simp
  have hlen : rest.length < (line ++ '\n' :: rest).length := by
    simp only [List.length_append, List.length_cons]
    omega
  rw [statements, hskip, hne, hend, h.statement]
  simp only [lineEnd?_newline]
  rw [if_pos hlen]
  rfl

theorem statements_lines {ls : List (List Char × Statement)} (h : ∀ l ∈ ls, Says l.1 l.2) :
    statements (terminated '\n' (ls.map Prod.fst)) = some (ls.map Prod.snd) := by
  induction ls with
  | nil =>
    rw [statements]
    rfl
  | cons l ls ih =>
    obtain ⟨hl, hls⟩ := List.forall_mem_cons.1 h
    rw [List.map_cons, terminated_cons, statements_line hl, ih hls]
    rfl

namespace Pairs

variable {key : String} {ps : Pairs}

theorem find?_of_not_mem (h : key ∉ List.map Prod.fst ps) : find? key ps = none := by
  rw [find?, Option.map_eq_none_iff, List.find?_eq_none]
  intro p hp hkey
  rw [decide_eq_true_eq] at hkey
  exact h (List.mem_map.2 ⟨p, hp, hkey⟩)

theorem add?_of_not_mem (h : key ∉ List.map Prod.fst ps) (v : Item) :
    add? key v ps = some (ps ++ [(key, v)]) := by
  rw [add?, find?_of_not_mem h]
  rfl

end Pairs

namespace Draft

theorem step_assign {d : Draft} {key : String} (h : key ∉ d.pairs.map Prod.fst) (v : Item) :
    d.step (.assign [] key v) = some { d with pairs := d.pairs ++ [(key, v)] } := by
  rw [step, Pairs.assign]
  exact congrArg (Option.map fun ps => { d with pairs := ps }) (Pairs.add?_of_not_mem h v)

theorem foldlM_assign (d : Draft) (qs : Pairs) (h : ((d.pairs ++ qs).map Prod.fst).Nodup) :
    (qs.map fun q => Statement.assign [] q.1 q.2).foldlM step d =
      some { d with pairs := d.pairs ++ qs } := by
  induction qs generalizing d with
  | nil =>
    rw [List.append_nil]
    rfl
  | cons q qs ih =>
    have hq : q.1 ∉ d.pairs.map Prod.fst := by
      rw [List.map_append, List.map_cons, List.nodup_append] at h
      exact fun hm => h.2.2 _ hm _ List.mem_cons_self rfl
    rw [List.map_cons, List.foldlM_cons, step_assign hq]
    show (qs.map _).foldlM step { d with pairs := d.pairs ++ [(q.1, q.2)] } = _
    rw [ih _ (by simpa using h)]
    simp

end Draft

namespace Section

def statements (t : Section) : List Statement :=
  .table [] t.name :: (t.pairs.map fun p => (p.1, p.2.item)).map fun q => .assign [] q.1 q.2

theorem map_snd_lines (sp : Spelling) (t : Section) :
    (t.lines sp).map Prod.snd = t.statements := by
  simp [lines, statements]

theorem foldlM_statements {d : Draft} {root : Pairs} (hd : d.close = some root) (t : Section)
    (hn : t.name ∉ List.map Prod.fst root) :
    ∃ e, t.statements.foldlM Draft.step d = some e ∧ e.close = some (root ++ [t.item]) := by
  have hopen : d.step (.table [] t.name) = some ⟨root, .table [] t.name, []⟩ := by
    rw [Draft.step, hd]
    show Draft.open? root [] t.name = _
    simp only [Draft.open?, Pairs.descend?, bind, Option.bind, Pairs.find?_of_not_mem hn]
    rfl
  have hkeys : ((t.pairs.map fun p => (p.1, p.2.item)).map Prod.fst).Nodup := by
    simpa [Function.comp_def] using t.keys_nodup
  have hfill : t.statements.foldlM Draft.step d =
      some ⟨root, .table [] t.name, t.pairs.map fun p => (p.1, p.2.item)⟩ := by
    rw [statements, List.foldlM_cons, hopen]
    exact Draft.foldlM_assign ⟨root, .table [] t.name, []⟩ _ hkeys
  exact ⟨_, hfill, Pairs.add?_of_not_mem hn _⟩

theorem foldlM_flatMap {d : Draft} {root : Pairs} (hd : d.close = some root) (ts : List Section)
    (hn : (List.map Prod.fst root ++ ts.map name).Nodup) :
    ((ts.flatMap statements).foldlM Draft.step d).bind Draft.close =
      some (root ++ ts.map item) := by
  -- The table being filled is in no root yet, so the induction is on closed drafts.
  induction ts generalizing d root with
  | nil => simpa using hd
  | cons t ts ih =>
    have ht : t.name ∉ List.map Prod.fst root := by
      rw [List.map_cons, List.nodup_append] at hn
      exact fun hm => hn.2.2 _ hm _ List.mem_cons_self rfl
    obtain ⟨e, he, hclose⟩ := foldlM_statements hd t ht
    have hrest : (List.map Prod.fst (root ++ [t.item]) ++ ts.map name).Nodup := by
      simpa [item] using hn
    rw [List.flatMap_cons, List.foldlM_append, he]
    show ((ts.flatMap statements).foldlM Draft.step e).bind Draft.close = _
    rw [ih hclose hrest]
    simp

end Section

def document (sp : Spelling) (ts : List Section) : List Char :=
  terminated '\n' ((ts.flatMap (Section.lines sp)).map Prod.fst)

theorem dropMark_document (sp : Spelling) (ts : List Section) :
    dropMark (document sp ts) = document sp ts := by
  cases ts <;> rfl

/-- A document of tables with different names is read as those tables. -/
theorem parse_document (sp : Spelling) {ts : List Section} (hn : (ts.map Section.name).Nodup) :
    parse (String.ofList (document sp ts)) = some (ts.map Section.item) := by
  have hsays : ∀ l ∈ ts.flatMap (Section.lines sp), Says l.1 l.2 := by
    intro l hl
    obtain ⟨t, -, ht⟩ := List.mem_flatMap.1 hl
    exact t.says sp l ht
  have hread : statements (document sp ts) = some (ts.flatMap Section.statements) := by
    rw [document, statements_lines hsays, List.map_flatMap]
    simp only [Section.map_snd_lines]
  have hstart : Draft.start.close = some [] := rfl
  rw [parse, String.toList_ofList, dropMark_document, hread]
  exact Section.foldlM_flatMap hstart ts hn

end InstallLocator.Toml
