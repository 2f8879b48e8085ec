import InstallLocator.Json.Parser
import InstallLocator.Proofs.Utf8Exact

/-!
# Printed documents read back

The text of a value is read as that value again, whatever follows it. For a
string this is a matter of one character at a time, each either escaped or kept;
for an array or an object of one item at a time, and then of the depth of
nesting. Numbers are left out: they are kept as they are written, and not every
text is a number.
-/

set_option autoImplicit false

namespace InstallLocator

namespace Utf8

theorem length_le_encode (cs : List Char) : cs.length ≤ (encode cs).length := by
  induction cs with
  | nil => exact Nat.le_refl 0
  | cons c cs ih =>
    have hc := List.length_pos_iff.2 (encodeChar_ne_nil c)
    rw [encode, List.flatMap_cons, List.length_append, List.length_cons]
    show cs.length + 1 ≤ _ + (encode cs).length
    omega

end Utf8

namespace Json

theorem stringBody_escaped {cs next : List Char} {c : Char} (h : escaped cs = .ok (c, next))
    (hlen : next.length ≤ cs.length) :
    stringBody ('\\' :: cs) = (stringBody next).map fun x => (c :: x.1, x.2) := by
  rw [stringBody, h]
  show (if next.length ≤ cs.length then _ else _) = _
  rw [if_pos hlen]
  cases stringBody next <;> rfl

theorem stringBody_plain {c : Char} (hq : c ≠ '"') (hb : c ≠ '\\') (hc : ¬ c.toNat < 0x20)
    (cs : List Char) : stringBody (c :: cs) = (stringBody cs).map fun x => (c :: x.1, x.2) := by
  rw [stringBody]
  · rw [if_neg hc]
    cases stringBody cs <;> rfl
  · exact hq
  · exact hb

theorem unit_append {ds : List Char} (hlen : ds.length = 4) {n : Nat}
    (hn : (ds.mapM hexDigit?).map (ofDigits 16) = some n) (rest : List Char) :
    unit (ds ++ rest) = .ok (n, rest) := by
  have hbytes := Utf8.length_le_encode ds
  obtain ⟨es, hes, hval⟩ := Option.map_eq_some_iff.1 hn
  rw [unit, List.take_left' hlen, List.drop_left' hlen, if_neg (by omega), hes]
  exact congrArg (fun n => Except.ok (n, rest)) hval

theorem unicode_append {ds : List Char} (hlen : ds.length = 4) {n : Nat}
    (hn : (ds.mapM hexDigit?).map (ofDigits 16) = some n) (hs : n < 0xD800) (rest : List Char) :
    unicode (ds ++ rest) = .ok (Char.ofNat n, rest) := by
  have ht : isTrailing n = false := by
    simp [isTrailing]
    omega
  have hl : isLeading n = false := by
    simp [isLeading]
    omega
  rw [unicode, unit_append hlen hn]
  show (if isTrailing n = true then _ else if isLeading n = true then _ else _) = _
  rw [ht, hl]
  rfl

theorem unicodeEscape_control : ∀ n < 0x20,
    let ds := (unicodeEscape (Char.ofNat n)).drop 2
    unicodeEscape (Char.ofNat n) = '\\' :: 'u' :: ds ∧ ds.length = 4 ∧
      (ds.mapM hexDigit?).map (ofDigits 16) = some n := by
  decide

theorem escapeChar_cases (c : Char) :
    (∃ d, escapeChar c = ['\\', d] ∧ ∀ rest, escaped (d :: rest) = .ok (c, rest)) ∨
    (escapeChar c = unicodeEscape c ∧ c.toNat < 0x20) ∨
    (escapeChar c = [c] ∧ c ≠ '"' ∧ c ≠ '\\' ∧ ¬ c.toNat < 0x20) := by
  have hshort : ∀ d e, escapeChar d = ['\\', e] → (∀ rest, escaped (e :: rest) = .ok (d, rest)) →
      c = d → ∃ d, escapeChar c = ['\\', d] ∧ ∀ rest, escaped (d :: rest) = .ok (c, rest) :=
    fun d e hd he hc => hc ▸ ⟨e, hd, he⟩
  by_cases hquote : c = '"'
  · exact Or.inl (hshort _ '"' (by decide) (fun _ => rfl) hquote)
  by_cases hback : c = '\\'
  · exact Or.inl (hshort _ '\\' (by decide) (fun _ => rfl) hback)
  by_cases hline : c = '\n'
  · exact Or.inl (hshort _ 'n' (by decide) (fun _ => rfl) hline)
  by_cases hreturn : c = '\r'
  · exact Or.inl (hshort _ 'r' (by decide) (fun _ => rfl) hreturn)
  by_cases htab : c = '\t'
  · exact Or.inl (hshort _ 't' (by decide) (fun _ => rfl) htab)
  by_cases hbackspace : c = '\x08'
  · exact Or.inl (hshort _ 'b' (by decide) (fun _ => rfl) hbackspace)
  by_cases hfeed : c = '\x0c'
  · exact Or.inl (hshort _ 'f' (by decide) (fun _ => rfl) hfeed)
  rw [escapeChar, if_neg hquote, if_neg hback, if_neg hline, if_neg hreturn, if_neg htab,
    if_neg hbackspace, if_neg hfeed]
  by_cases hcontrol : c.toNat < 0x20
  · exact Or.inr (Or.inl ⟨if_pos hcontrol, hcontrol⟩)
  · exact Or.inr (Or.inr ⟨if_neg hcontrol, hquote, hback, hcontrol⟩)

theorem stringBody_escapeChar (c : Char) (rest : List Char) :
    stringBody (escapeChar c ++ rest) = (stringBody rest).map fun x => (c :: x.1, x.2) := by
  rcases escapeChar_cases c with ⟨d, heq, hd⟩ | ⟨heq, hc⟩ | ⟨heq, hquote, hback, hc⟩
  · rw [heq]
    exact stringBody_escaped (hd rest) (Nat.le_succ _)
  · obtain ⟨hesc, hlen, hn⟩ := unicodeEscape_control c.toNat hc
    rw [Char.ofNat_toNat] at hesc hlen hn
    have hu : escaped ('u' :: ((unicodeEscape c).drop 2 ++ rest)) =
        .ok (Char.ofNat c.toNat, rest) := unicode_append hlen hn (by omega) rest
    rw [Char.ofNat_toNat] at hu
    rw [heq, hesc]
    apply stringBody_escaped hu
    simp only [List.length_cons, List.length_append]
    omega
  · rw [heq]
    exact stringBody_plain hquote hback hc rest

theorem stringBody_quoted (cs rest : List Char) :
    stringBody (cs.flatMap escapeChar ++ '"' :: rest) = .ok (cs, rest) := by
  induction cs with
  | nil => rw [List.flatMap_nil, List.nil_append, stringBody]
  | cons c cs ih =>
    rw [List.flatMap_cons, List.append_assoc, stringBody_escapeChar, ih]
    rfl

theorem quoted_append (s : String) (rest : List Char) :
    quoted s ++ rest = '"' :: (s.toList.flatMap escapeChar ++ '"' :: rest) := by
  simp [quoted]

theorem skip_of_not_isBlank {c : Char} (hc : isBlank c = false) (cs : List Char) :
    skip (c :: cs) = c :: cs := by
  rw [skip, List.dropWhile_cons, hc]
  rfl

theorem skip_indentation (level : Nat) (cs : List Char) :
    skip (indentation level ++ cs) = skip cs := by
  apply List.dropWhile_append_of_pos
  intro c hc
  rcases List.mem_cons.1 hc with rfl | hc
  · rfl
  · rw [List.eq_of_mem_replicate hc]
    rfl

theorem skip_skip (cs : List Char) : skip (skip cs) = skip cs := by
  cases h : skip cs with
  | nil => rfl
  | cons c rest =>
    have hc := List.head?_dropWhile_not isBlank cs
    rw [show cs.dropWhile isBlank = c :: rest from h] at hc
    exact skip_of_not_isBlank hc rest

theorem value_skip (depth : Nat) (cs : List Char) : value depth (skip cs) = value depth cs := by
  rw [value.eq_def, value.eq_def depth cs, skip_skip]

/-- No blank and no closing bracket stands at the start. -/
def Begins (cs : List Char) : Prop := ∃ c rest, cs = c :: rest ∧ isBlank c = false ∧ c ≠ ']'

theorem Begins.append {cs : List Char} (h : Begins cs) (more : List Char) :
    Begins (cs ++ more) := by
  obtain ⟨c, rest, rfl, hc⟩ := h
  exact ⟨c, rest ++ more, rfl, hc⟩

theorem Begins.skip {cs : List Char} (h : Begins cs) : Json.skip cs = cs := by
  obtain ⟨c, rest, rfl, hc, -⟩ := h
  exact skip_of_not_isBlank hc rest

section

variable {item : List Char → Read Json} {cs rest more next : List Char}

theorem items_last {j : Json} (hj : item cs = .ok (j, rest)) (hs : skip rest = ']' :: more) :
    items item cs = .ok ([j], more) := by
  rw [items, hj]
  simp only [bind, Except.bind, hs]
  rfl

theorem items_next {j : Json} (hj : item cs = .ok (j, rest)) (hs : skip rest = ',' :: more)
    (hm : skip more = next) (hb : Begins next) (hlen : next.length < cs.length) :
    items item cs = (items item next).map fun x => (j :: x.1, x.2) := by
  obtain ⟨c, more, rfl, -, hc⟩ := hb
  rw [items, hj]
  simp only [bind, Except.bind, hs, hm]
  split
  · next h => cases h
  · next h => exact absurd (List.cons.inj h).1 hc
  · rw [if_pos hlen]
    cases items item (c :: more) <;> rfl

theorem member_eq {k : List Char} {j : Json} (hk : stringBody cs = .ok (k, ':' :: rest))
    (hj : item rest = .ok (j, more)) : member item cs = .ok ((String.ofList k, j), more) := by
  have hcolon : skip (':' :: rest) = ':' :: rest := skip_of_not_isBlank (by decide) rest
  rw [member, hk]
  simp only [bind, Except.bind, hcolon, hj]
  rfl

theorem members_last {m : String × Json} (hm : member item cs = .ok (m, rest))
    (hs : skip rest = '\x7d' :: more) : members item cs = .ok ([m], more) := by
  rw [members, hm]
  simp only [bind, Except.bind, hs]
  rfl

theorem members_next {m : String × Json} (hm : member item cs = .ok (m, rest))
    (hs : skip rest = ',' :: more) (hq : skip more = '"' :: next)
    (hlen : next.length < cs.length) :
    members item cs = (members item next).map fun x => (m :: x.1, x.2) := by
  rw [members, hm]
  simp only [bind, Except.bind, hs, hq]
  rw [if_pos hlen]
  cases members item next <;> rfl

theorem items_print {level : Nat} (outer : Nat) (j : Json) (js : List Json)
    (hb : ∀ x ∈ j :: js, Begins (print level x))
    (h : ∀ x ∈ j :: js, ∀ rest, item (print level x ++ rest) = .ok (x, rest)) :
    items item (print level j ++ (printItems level js ++ (indentation outer ++ ']' :: rest))) =
      .ok (j :: js, rest) := by
  -- Each step hands the next item to the rest of the list as its first one.
  induction js generalizing j with
  | nil =>
    apply items_last (h j List.mem_cons_self _)
    rw [printItems, List.nil_append, skip_indentation, skip_of_not_isBlank (by decide)]
  | cons k js ih =>
    have hbk := hb k (List.mem_cons_of_mem j List.mem_cons_self)
    have hk := ih k (fun x hx => hb x (List.mem_cons_of_mem j hx))
      (fun x hx => h x (List.mem_cons_of_mem j hx))
    simp only [printItems, List.cons_append, List.append_assoc]
    rw [items_next (h j List.mem_cons_self _) (skip_of_not_isBlank (by decide) _)
      (by rw [skip_indentation, (hbk.append _).skip]) (hbk.append _) ?_, hk]
    · rfl
    · simp only [List.length_append, List.length_cons]
      omega

theorem member_print {level : Nat} {m : String × Json}
    (h : ∀ rest, item (' ' :: (print level m.2 ++ rest)) = .ok (m.2, rest)) (rest : List Char) :
    member item (m.1.toList.flatMap escapeChar ++ '"' :: ':' :: ' ' :: (print level m.2 ++ rest)) =
      .ok (m, rest) := by
  rw [member_eq (stringBody_quoted m.1.toList _) (h rest), String.ofList_toList]

theorem members_print {level : Nat} (outer : Nat) (m : String × Json) (ms : List (String × Json))
    (h : ∀ x ∈ m :: ms, ∀ rest, item (' ' :: (print level x.2 ++ rest)) = .ok (x.2, rest)) :
    members item (m.1.toList.flatMap escapeChar ++ '"' :: ':' :: ' ' :: (print level m.2 ++
      (printMembers level ms ++ (indentation outer ++ '\x7d' :: rest)))) = .ok (m :: ms, rest) := by
  induction ms generalizing m with
  | nil =>
    apply members_last (member_print (h m List.mem_cons_self) _)
    rw [printMembers, List.nil_append, skip_indentation, skip_of_not_isBlank (by decide)]
  | cons n ms ih =>
    have hn := ih n (fun x hx => h x (List.mem_cons_of_mem m hx))
    simp only [printMembers, List.cons_append, List.append_assoc, List.nil_append, quoted_append]
    rw [members_next (member_print (h m List.mem_cons_self) _) (skip_of_not_isBlank (by decide) _)
      (by rw [skip_indentation, skip_of_not_isBlank (by decide)]) ?_, hn]
    · rfl
    · simp only [List.length_append, List.length_cons]
      omega

end

/-- Nested at most so many levels deep, and without numbers. -/
def Fits : Nat → Json → Prop
  | _, .null => True
  | _, .boolean _ => True
  | _, .number _ => False
  | _, .text _ => True
  | 0, .array _ => False
  | depth + 1, .array js => ∀ j ∈ js, Fits depth j
  | 0, .object _ => False
  | depth + 1, .object ms => ∀ m ∈ ms, Fits depth m.2

theorem begins_print {depth : Nat} {j : Json} (hj : Fits depth j) (level : Nat) :
    Begins (print level j) := by
  cases j with
  | null => exact ⟨_, _, rfl, by decide⟩
  | boolean b => cases b <;> exact ⟨_, _, rfl, by decide⟩
  | number digits => cases depth <;> exact hj.elim
  | text s => exact ⟨_, _, rfl, by decide⟩
  | array js => cases js <;> exact ⟨_, _, rfl, by decide⟩
  | object ms => cases ms <;> exact ⟨_, _, rfl, by decide⟩

theorem value_blank (depth : Nat) (cs : List Char) : value depth (' ' :: cs) = value depth cs := by
  rw [← value_skip depth (' ' :: cs), ← value_skip depth cs]
  rfl

theorem value_null_print (depth level : Nat) (rest : List Char) :
    value depth (print level .null ++ rest) = .ok (.null, rest) := by
  rw [value.eq_def]
  rfl

theorem value_boolean_print (depth level : Nat) (b : Bool) (rest : List Char) :
    value depth (print level (.boolean b) ++ rest) = .ok (.boolean b, rest) := by
  cases b <;>
  · rw [value.eq_def]
    rfl

theorem value_text_print (depth level : Nat) (s : String) (rest : List Char) :
    value depth (print level (.text s) ++ rest) = .ok (.text s, rest) := by
  have hq : ∀ cs, skip ('"' :: cs) = '"' :: cs := skip_of_not_isBlank (by decide)
  rw [print, quoted_append, value.eq_def]
  simp only [hq, stringBody_quoted, bind, Except.bind, String.ofList_toList]
  rfl

theorem value_array {depth : Nat} {cs next : List Char} (hs : skip cs = next) (hb : Begins next) :
    value (depth + 1) ('[' :: cs) = (items (value depth) next).map fun x => (.array x.1, x.2) := by
  obtain ⟨c, rest, rfl, -, hc⟩ := hb
  have hopen : skip ('[' :: cs) = '[' :: cs := skip_of_not_isBlank (by decide) cs
  rw [value]
  simp only [hopen, hs]
  split
  · next h => cases h
  · next h => exact absurd (List.cons.inj h).1 hc
  · rfl

theorem value_object {depth : Nat} {cs next : List Char} (hs : skip cs = '"' :: next) :
    value (depth + 1) ('\x7b' :: cs) =
      (members (value depth) next).map fun x => (.object x.1, x.2) := by
  have hopen : skip ('\x7b' :: cs) = '\x7b' :: cs := skip_of_not_isBlank (by decide) cs
  rw [value]
  simp only [hopen, hs]

theorem value_array_print {depth : Nat} (level : Nat) {js : List Json}
    (hb : ∀ x ∈ js, Begins (print (level + 1) x))
    (h : ∀ x ∈ js, ∀ rest, value depth (print (level + 1) x ++ rest) = .ok (x, rest))
    (rest : List Char) :
    value (depth + 1) (print level (.array js) ++ rest) = .ok (.array js, rest) := by
  cases js with
  | nil => rfl
  | cons j js =>
    have hj := (hb j List.mem_cons_self).append
    simp only [print, List.cons_append, List.append_assoc, List.nil_append]
    rw [value_array (by rw [skip_indentation, (hj _).skip]) (hj _), items_print level j js hb h]
    rfl

theorem value_object_print {depth : Nat} (level : Nat) {ms : List (String × Json)}
    (h : ∀ x ∈ ms, ∀ rest, value depth (print (level + 1) x.2 ++ rest) = .ok (x.2, rest))
    (rest : List Char) :
    value (depth + 1) (print level (.object ms) ++ rest) = .ok (.object ms, rest) := by
  cases ms with
  | nil => rfl
  | cons m ms =>
    have hm : ∀ x ∈ m :: ms, ∀ rest, value depth (' ' :: (print (level + 1) x.2 ++ rest)) =
        .ok (x.2, rest) := by
      intro x hx rest
      rw [value_blank]
      exact h x hx rest
    simp only [print, quoted_append, List.cons_append, List.append_assoc, List.nil_append]
    rw [value_object (by rw [skip_indentation, skip_of_not_isBlank (by decide)]),
      members_print level m ms hm]
    rfl

/-- The text of a value is read as that value, and the reading stops after it. -/
theorem value_print {depth : Nat} {j : Json} (hj : Fits depth j) (level : Nat)
    (rest : List Char) : value depth (print level j ++ rest) = .ok (j, rest) := by
  -- On the depth that is left to nest, which the reader counts down too.
  induction depth generalizing j level rest with
  | zero =>
    cases j with
    | null => exact value_null_print 0 level rest
    | boolean b => exact value_boolean_print 0 level b rest
    | text s => exact value_text_print 0 level s rest
    | number digits => exact hj.elim
    | array js => exact hj.elim
    | object ms => exact hj.elim
  | succ depth ih =>
    cases j with
    | null => exact value_null_print (depth + 1) level rest
    | boolean b => exact value_boolean_print (depth + 1) level b rest
    | text s => exact value_text_print (depth + 1) level s rest
    | number digits => exact hj.elim
    | array js =>
      exact value_array_print level (fun x hx => begins_print (hj x hx) (level + 1))
        (fun x hx => ih (hj x hx) (level + 1)) rest
    | object ms =>
      exact value_object_print level (fun x hx => ih (hj x hx) (level + 1)) rest

theorem document_print {j : Json} (hj : Fits maxDepth j) {blank : List Char}
    (hb : skip blank = []) : document (print 0 j ++ blank) = .ok j := by
  rw [document, value_print hj]
  simp only [bind, Except.bind, hb]
  rfl

theorem parse_render_blank {j : Json} (hj : Fits maxDepth j) {blank : String}
    (hb : skip blank.toList = []) : parse (render j ++ blank) = .ok j := by
  rw [parse, String.toList_append, render, String.toList_ofList, document_print hj hb]
  rfl

theorem parse_render {j : Json} (hj : Fits maxDepth j) : parse (render j) = .ok j := by
  rw [← String.append_empty (s := render j)]
  exact parse_render_blank hj rfl

end Json
end InstallLocator
