import InstallLocator.Glob.Expand
import InstallLocator.Proofs.Splitting

/-!
# Escaped texts as patterns

An escaped text is read as one token a character, whatever its characters, and
those tokens match that text alone. Slashes are not escaped, so the components
of an escaped path are the escaped names of the path.
-/

set_option autoImplicit false

namespace InstallLocator.Glob

/-- A character that stands for more than itself in a pattern. -/
def IsMeta (c : Char) : Prop := c = '?' ∨ c = '*' ∨ c = '[' ∨ c = ']'

instance (c : Char) : Decidable (IsMeta c) := inferInstanceAs (Decidable (_ ∨ _))

/-- A character that stands for itself, in a name and in a pattern. -/
def isPlain (c : Char) : Bool := c != '/' && !decide (IsMeta c)

theorem escapeChars_meta {c : Char} (hc : IsMeta c) (cs : List Char) :
    escapeChars (c :: cs) = '[' :: c :: ']' :: escapeChars cs := by
  rw [escapeChars, List.flatMap_cons]
  exact congrArg (· ++ escapeChars cs) (if_pos hc)

theorem escapeChars_plain {c : Char} (hc : ¬ IsMeta c) (cs : List Char) :
    escapeChars (c :: cs) = c :: escapeChars cs := by
  rw [escapeChars, List.flatMap_cons]
  exact congrArg (· ++ escapeChars cs) (if_neg hc)

theorem escapeChars_append (as bs : List Char) :
    escapeChars (as ++ bs) = escapeChars as ++ escapeChars bs :=
  List.flatMap_append

theorem escapeChars_of_plain {cs : List Char} (h : ∀ c ∈ cs, ¬ IsMeta c) :
    escapeChars cs = cs := by
  induction cs with
  | nil => rfl
  | cons c cs ih =>
    obtain ⟨hc, hcs⟩ := List.forall_mem_cons.1 h
    rw [escapeChars_plain hc, ih hcs]

def literalToken (c : Char) : Token := if IsMeta c then .within [.single c] else .char c

def literalTokens (cs : List Char) : List Token := cs.map literalToken

theorem literalTokens_cons (c : Char) (cs : List Char) :
    literalTokens (c :: cs) = literalToken c :: literalTokens cs :=
  rfl

theorem tokens_plain (position : Nat) (before : Option Char) {c : Char} (hc : ¬ IsMeta c)
    (rest : List Char) : tokens position before (c :: rest) =
      (tokens (position + 1) (some c) rest).map (.char c :: ·) := by
  unfold IsMeta at hc
  simp only [not_or] at hc
  obtain ⟨h1, h2, h3, -⟩ := hc
  rw [tokens] <;> simp_all
  rfl

theorem bracket_meta {c : Char} (hc : IsMeta c) (rest : List Char) :
    bracket (c :: ']' :: rest) = some (.within [.single c], rest) := by
  rcases hc with rfl | rfl | rfl | rfl <;> rfl

theorem tokens_meta (position : Nat) (before : Option Char) {c : Char} (hc : IsMeta c)
    (rest : List Char) : tokens position before ('[' :: c :: ']' :: rest) =
      (tokens (position + 3) (some ']') rest).map (.within [.single c] :: ·) := by
  have hb := bracket_meta hc rest
  rw [tokens]
  split
  · next t after ht =>
    rw [hb] at ht
    obtain ⟨rfl, rfl⟩ := Prod.mk.inj (Option.some.inj ht)
    have hp : position + 1 + ((c :: ']' :: rest).length - rest.length) = position + 3 := by
      simp only [List.length_cons]
      omega
    rw [hp]
    cases tokens (position + 3) (some ']') rest <;> rfl
  · next ht =>
    rw [hb] at ht
    cases ht

theorem tokens_escape (position : Nat) (before : Option Char) (cs rest : List Char) :
    ∃ position' before', tokens position before (escapeChars cs ++ rest) =
      (tokens position' before' rest).map (literalTokens cs ++ ·) := by
  -- Reading goes on after the text with another position and another character before it.
  induction cs generalizing position before with
  | nil =>
    refine ⟨position, before, ?_⟩
    change tokens position before rest = _
    cases tokens position before rest <;> rfl
  | cons c cs ih =>
    rw [literalTokens_cons, literalToken]
    by_cases hc : IsMeta c
    · obtain ⟨p, b, h⟩ := ih (position + 3) (some ']')
      refine ⟨p, b, ?_⟩
      rw [escapeChars_meta hc, if_pos hc, List.cons_append, List.cons_append,
        List.cons_append, tokens_meta position before hc, h]
      cases tokens p b rest <;> rfl
    · obtain ⟨p, b, h⟩ := ih (position + 1) (some c)
      refine ⟨p, b, ?_⟩
      rw [escapeChars_plain hc, if_neg hc, List.cons_append, tokens_plain position before hc, h]
      cases tokens p b rest <;> rfl

/-- The characters `cs` as a component of a pattern, which may go on after them. -/
def component (cs : List Char) (openEnded : Bool) : Component :=
  literalTokens cs ++ if openEnded then [.anySequence] else []

def componentText (cs : List Char) (openEnded : Bool) : List Char :=
  escapeChars cs ++ if openEnded then ['*'] else []

theorem tokens_component (position : Nat) (before : Option Char) (cs : List Char)
    (openEnded : Bool) : tokens position before (componentText cs openEnded) =
      .ok (component cs openEnded) := by
  obtain ⟨p, b, h⟩ := tokens_escape position before cs (if openEnded then ['*'] else [])
  rw [componentText, component, h]
  cases openEnded with
  | false =>
    have hn : tokens p b [] = .ok [] := by rw [tokens]
    simp only [Bool.false_eq_true, if_false, hn]
    rfl
  | true =>
    have hs : tokens p b ['*'] = .ok [.anySequence] := by
      rw [tokens]
      · rw [tokens]
        rfl
      · simp
      · simp
    simp only [if_true, hs]
    rfl

theorem literalToken_ne_anyDirectories (c : Char) : literalToken c ≠ .anyDirectories := by
  unfold literalToken
  split <;> simp

theorem not_isRecursive_component (cs : List Char) (openEnded : Bool) :
    isRecursive (component cs openEnded) = false := by
  cases openEnded <;>
    simp [isRecursive, component, literalTokens, literalToken_ne_anyDirectories]

theorem component_cons (c : Char) (cs : List Char) (openEnded : Bool) :
    component (c :: cs) openEnded = literalToken c :: component cs openEnded :=
  rfl

theorem literal?_of_plain {cs : List Char} (h : ∀ c ∈ cs, ¬ IsMeta c) :
    literal? (component cs false) = some cs := by
  induction cs with
  | nil => rfl
  | cons c cs ih =>
    obtain ⟨hc, hcs⟩ := List.forall_mem_cons.1 h
    rw [component_cons, literalToken, if_neg hc, literal?, ih hcs]
    rfl

theorem literal?_of_meta {cs : List Char} {openEnded : Bool}
    (h : openEnded = true ∨ ∃ c ∈ cs, IsMeta c) : literal? (component cs openEnded) = none := by
  induction cs with
  | nil =>
    obtain rfl : openEnded = true := by simpa using h
    rfl
  | cons c cs ih =>
    rw [component_cons, literalToken]
    by_cases hc : IsMeta c
    · rw [if_pos hc]
      rfl
    · have hcs : openEnded = true ∨ ∃ d ∈ cs, IsMeta d := by
        refine h.imp_right ?_
        rintro ⟨d, hd, hm⟩
        rcases List.mem_cons.1 hd with rfl | hd
        · exact absurd hm hc
        · exact ⟨d, hd, hm⟩
      rw [if_neg hc, literal?, ih hcs]
      rfl

theorem holds_literalToken (c d : Char) : (literalToken d).holds c = (c == d) := by
  unfold literalToken
  split <;> simp [Token.holds, CharClass.holds]

theorem attempt_literalToken_nil (c : Char) (ts : List Token) :
    attempt (literalToken c :: ts) [] = .exhausted := by
  unfold literalToken
  split <;> rfl

theorem attempt_literalToken_cons (c d : Char) (ts : List Token) (name : List Char) :
    attempt (literalToken c :: ts) (d :: name) = if d = c then attempt ts name else .failed := by
  have h : attempt (literalToken c :: ts) (d :: name) =
      if (literalToken c).holds d then attempt ts name else .failed := by
    unfold literalToken
    split <;> rfl
  rw [h, holds_literalToken]
  simp

theorem attempt_literalTokens (cs : List Char) (rest : List Token) (name : List Char) :
    attempt (literalTokens cs ++ rest) name = .matched ↔
      ∃ more, name = cs ++ more ∧ attempt rest more = .matched := by
  induction cs generalizing name with
  | nil => simp [literalTokens]
  | cons c cs ih =>
    rw [literalTokens_cons, List.cons_append]
    cases name with
    | nil => simp [attempt_literalToken_nil]
    | cons d name =>
      rw [attempt_literalToken_cons]
      by_cases hd : d = c
      · simp [hd, ih]
      · simp [hd]

theorem attempt_anySequence (name : List Char) : attempt [.anySequence] name = .matched := by
  change Attempt.onRests (attempt []) name = .matched
  induction name with
  | nil => rfl
  | cons c name ih => exact ih

theorem isMatch_component {cs name : List Char} {openEnded : Bool} :
    isMatch (component cs openEnded) name = true ↔
      ∃ more, name = cs ++ more ∧ (openEnded = false → more = []) := by
  rw [isMatch, beq_iff_eq, component, attempt_literalTokens]
  refine exists_congr fun more => and_congr_right fun _ => ?_
  cases openEnded with
  | false => cases more <;> simp [attempt]
  | true => simp [attempt_anySequence]

theorem mem_escapeChars {c : Char} {cs : List Char} (h : c ∈ escapeChars cs) :
    c ∈ cs ∨ IsMeta c := by
  induction cs with
  | nil => exact Or.inl h
  | cons d cs ih =>
    by_cases hd : IsMeta d
    · rw [escapeChars_meta hd] at h
      simp only [List.mem_cons] at h
      rcases h with rfl | rfl | rfl | h
      · exact Or.inr (by decide)
      · exact Or.inr hd
      · exact Or.inr (by decide)
      · exact (ih h).imp_left (List.mem_cons_of_mem d)
    · rw [escapeChars_plain hd] at h
      rcases List.mem_cons.1 h with rfl | h
      · exact Or.inl List.mem_cons_self
      · exact (ih h).imp_left (List.mem_cons_of_mem d)

theorem slash_not_mem_componentText {cs : List Char} (h : '/' ∉ cs) (openEnded : Bool) :
    '/' ∉ componentText cs openEnded := by
  have he : '/' ∉ escapeChars cs := by
    intro hm
    rcases mem_escapeChars hm with hc | hc
    · exact h hc
    · revert hc
      decide
  cases openEnded <;> simp [componentText, he]

theorem componentText_ne_nil {cs : List Char} (h : cs ≠ []) (openEnded : Bool) :
    componentText cs openEnded ≠ [] := by
  obtain ⟨c, cs, rfl⟩ := List.exists_cons_of_ne_nil h
  by_cases hc : IsMeta c
  · simp [componentText, escapeChars_meta hc]
  · simp [componentText, escapeChars_plain hc]

def slashed (names : List (List Char)) (last : List Char) : List Char :=
  (names.flatMap fun n => n ++ ['/']) ++ last

theorem slashed_cons (n : List Char) (names : List (List Char)) (last : List Char) :
    slashed (n :: names) last = n ++ '/' :: slashed names last := by
  simp [slashed]

theorem slashed_append (names : List (List Char)) (last more : List Char) :
    slashed names last ++ more = slashed names (last ++ more) :=
  List.append_assoc _ _ _

theorem slashed_append_names (as bs : List (List Char)) (last : List Char) :
    slashed (as ++ bs) last = slashed as (slashed bs last) := by
  simp [slashed]

theorem splitOn_slashed {names : List (List Char)} {last : List Char}
    (hnames : ∀ n ∈ names, '/' ∉ n) (hlast : '/' ∉ last) :
    (slashed names last).splitOn '/' = names ++ [last] :=
  splitOn_terminated hnames hlast

theorem slashed_splitOn (cs more : List Char) :
    slashed (cs.splitOn '/') more = cs ++ '/' :: more := by
  change terminated '/' (cs.splitOn '/') ++ more = _
  rw [terminated_splitOn, List.append_assoc]
  rfl

theorem escapeChars_slashed (names : List (List Char)) (last : List Char) :
    escapeChars (slashed names last) = slashed (names.map escapeChars) (escapeChars last) := by
  induction names with
  | nil => rfl
  | cons n names ih =>
    rw [slashed_cons, escapeChars_append, escapeChars_plain (by decide), ih, List.map_cons,
      slashed_cons]

theorem getLast?_slashed (names : List (List Char)) {last : List Char} (hne : last ≠ [])
    (hlast : '/' ∉ last) : ('/' :: slashed names last).getLast? ≠ some '/' := by
  rw [slashed, ← List.cons_append, List.getLast?_append, List.getLast?_eq_some_getLast hne,
    Option.some_or]
  intro h
  exact hlast (Option.some.inj h ▸ List.getLast_mem hne)

theorem pieces_slashed {names : List (List Char)} {last : List Char}
    (hnames : ∀ n ∈ names, '/' ∉ n) (hlast : '/' ∉ last) (hne : last ≠ []) (openEnded : Bool) :
    pieces (slashed (names.map escapeChars) (componentText last openEnded)) =
      names.map escapeChars ++ [componentText last openEnded] := by
  have hn : ∀ n ∈ names.map escapeChars, '/' ∉ n := by
    intro n hn
    obtain ⟨m, hm, rfl⟩ := List.mem_map.1 hn
    simpa [componentText] using slash_not_mem_componentText (hnames m hm) false
  rw [pieces, splitOn_slashed hn (slash_not_mem_componentText hlast openEnded),
    if_neg (by simpa using componentText_ne_nil hne openEnded)]

theorem mapM_tokens (names : List (List Char)) (last : List Char) (openEnded : Bool) :
    (names.map escapeChars ++ [componentText last openEnded]).mapM (fun p => tokens 0 none p) =
      .ok ((names.map fun n => component n false) ++ [component last openEnded]) := by
  induction names with
  | nil =>
    rw [List.map_nil, List.nil_append, List.mapM_cons, tokens_component]
    rfl
  | cons n names ih =>
    have ht : tokens 0 none (escapeChars n) = .ok (component n false) := by
      simpa [componentText] using tokens_component 0 none n false
    rw [List.map_cons, List.cons_append, List.mapM_cons, ht, ih]
    rfl

/-- A path of names is a pattern with those names as components, whatever
characters they have. -/
theorem ofText_slashed {text : String} {names : List (List Char)} {last : List Char}
    {openEnded : Bool} (hnames : ∀ n ∈ names, '/' ∉ n) (hlast : '/' ∉ last) (hne : last ≠ [])
    (htext : text.toList = componentText ('/' :: slashed names last) openEnded) :
    Pattern.ofText text = .ok ⟨true,
      (names.map fun n => component n false) ++ [component last openEnded], false⟩ := by
  have hcs : text.toList =
      '/' :: slashed (names.map escapeChars) (componentText last openEnded) := by
    rw [htext, componentText, escapeChars_plain (by decide), escapeChars_slashed,
      List.cons_append, slashed_append]
    rfl
  have hparse : parse text = .ok (component ('/' :: slashed names last) openEnded) := by
    rw [parse, htext, tokens_component]
  have hpieces := pieces_slashed hnames hlast hne openEnded
  have hend := getLast?_slashed (names.map escapeChars) (componentText_ne_nil hne openEnded)
    (slash_not_mem_componentText hlast openEnded)
  have hrest : slashed (names.map escapeChars) (componentText last openEnded) ≠ [] := by
    intro h
    exact componentText_ne_nil hne openEnded (List.append_eq_nil_iff.1 h).2
  simp only [Pattern.ofText, hparse, hcs, List.head?_cons, if_true, List.drop_succ_cons,
    List.drop_zero, hpieces, mapM_tokens, bind, Except.bind]
  rw [if_neg hrest, decide_eq_false hend]
  rfl

end InstallLocator.Glob
