import InstallLocator.GameInfo.Id
import Mathlib.Data.List.Infix
import Mathlib.Data.List.TakeWhile

/-!
# The first element of an id

An `<id>` element is an opening tag, a text without `<`, and the closing tag.
Where an element stands its text is determined, and a scan from the left finds
the text of the first one. An opening tag that no closing tag follows is passed
over together with what stands after it.
-/

set_option autoImplicit false

namespace InstallLocator.GameInfo

/-- At this place of the content an `<id>` element with this text begins. -/
def ElementAt (cs : List Char) (i : Nat) (t : List Char) : Prop :=
  '<' ∉ t ∧ openTag ++ t ++ closeTag <+: cs.drop i

/-- No element begins before this one. -/
def FirstElement (cs : List Char) (i : Nat) (t : List Char) : Prop :=
  ElementAt cs i t ∧ ∀ j u, ElementAt cs j u → i ≤ j

/-- The text ends here, or another tag begins. -/
def AtTag (cs : List Char) : Prop := ∀ c ∈ cs.head?, c = '<'

variable {c : Char} {cs t u rest : List Char}

theorem takeWhile_text (ht : '<' ∉ t) (hrest : AtTag rest) :
    (t ++ rest).takeWhile (· ≠ '<') = t := by
  rw [List.takeWhile_append_of_pos (fun c hc => by simpa using fun h : c = '<' => ht (h ▸ hc))]
  cases rest with
  | nil => simp
  | cons c cs => simp [hrest c rfl]

theorem dropWhile_text (ht : '<' ∉ t) (hrest : AtTag rest) :
    (t ++ rest).dropWhile (· ≠ '<') = rest := by
  rw [List.dropWhile_append_of_pos (fun c hc => by simpa using fun h : c = '<' => ht (h ▸ hc))]
  cases rest with
  | nil => rfl
  | cons c cs => simp [hrest c rfl]

theorem atTag_dropWhile (cs : List Char) : AtTag (cs.dropWhile (· ≠ '<')) := by
  intro c hc
  have h := List.head?_dropWhile_not (· ≠ '<') cs
  rw [Option.mem_def.1 hc] at h
  simpa using h

theorem not_mem_takeWhile (cs : List Char) : '<' ∉ cs.takeWhile (· ≠ '<') := by
  intro h
  simpa using List.mem_takeWhile_imp h

theorem exists_text (cs : List Char) : ∃ t rest, '<' ∉ t ∧ AtTag rest ∧ cs = t ++ rest :=
  ⟨_, _, not_mem_takeWhile cs, atTag_dropWhile cs, List.takeWhile_append_dropWhile.symm⟩

theorem elementAt?_open (ht : '<' ∉ t) (hrest : AtTag rest) :
    elementAt? (openTag ++ (t ++ rest)) = if closeTag <+: rest then some t else none := by
  have hopen : openTag.isPrefixOf? (openTag ++ (t ++ rest)) = some (t ++ rest) :=
    List.isPrefixOf?_eq_some_iff_append_eq.2 rfl
  rw [elementAt?, hopen]
  simp only [Option.bind_eq_bind, Option.bind_some, takeWhile_text ht hrest,
    dropWhile_text ht hrest, List.isPrefixOf_iff_prefix]

theorem elementAt?_of_unopened (h : ¬openTag <+: cs) : elementAt? cs = none := by
  have hopen : openTag.isPrefixOf? cs = none := by
    cases hp : openTag.isPrefixOf? cs with
    | none => rfl
    | some rest => exact absurd ⟨rest, List.isPrefixOf?_eq_some_iff_append_eq.1 hp⟩ h
  rw [elementAt?, hopen]
  rfl

theorem atTag_of_closeTag (h : closeTag <+: rest) : AtTag rest := by
  obtain ⟨after, rfl⟩ := h
  intro c hc
  exact (Option.mem_some_iff.1 hc).symm

theorem elementAt?_eq_some_iff :
    elementAt? cs = some t ↔ '<' ∉ t ∧ openTag ++ t ++ closeTag <+: cs := by
  constructor
  · intro h
    by_cases hopen : openTag <+: cs
    · obtain ⟨body, rfl⟩ := hopen
      obtain ⟨u, rest, hu, hrest, rfl⟩ := exists_text body
      rw [elementAt?_open hu hrest] at h
      split at h
      · rename_i hclose
        obtain rfl := Option.some.inj h
        obtain ⟨after, rfl⟩ := hclose
        exact ⟨hu, after, by simp only [List.append_assoc]⟩
      · cases h
    · rw [elementAt?_of_unopened hopen] at h
      cases h
  · rintro ⟨ht, after, rfl⟩
    have hclose : closeTag <+: closeTag ++ after := List.prefix_append _ _
    simp only [List.append_assoc]
    rw [elementAt?_open ht (atTag_of_closeTag hclose), if_pos hclose]

theorem elementAt_iff {i : Nat} : ElementAt cs i t ↔ elementAt? (cs.drop i) = some t :=
  elementAt?_eq_some_iff.symm

theorem ElementAt.text_eq {i : Nat} (ht : ElementAt cs i t) (hu : ElementAt cs i u) : t = u :=
  Option.some.inj ((elementAt_iff.1 ht).symm.trans (elementAt_iff.1 hu))

theorem not_elementAt_nil {i : Nat} : ¬ElementAt [] i t := by
  rintro ⟨-, h⟩
  have hle := h.length_le
  simp [openTag] at hle

theorem firstElement_zero (h : elementAt? cs = some t) : FirstElement cs 0 t :=
  ⟨elementAt_iff.2 h, fun _ _ _ => Nat.zero_le _⟩

theorem firstElement_succ_iff (hc : elementAt? (c :: cs) = none) {i : Nat} :
    FirstElement (c :: cs) (i + 1) t ↔ FirstElement cs i t := by
  constructor
  · rintro ⟨ht, hfirst⟩
    exact ⟨ht, fun j u hu => Nat.le_of_succ_le_succ (hfirst (j + 1) u hu)⟩
  · rintro ⟨ht, hfirst⟩
    refine ⟨ht, fun j u hu => ?_⟩
    cases j with
    | zero => cases (elementAt_iff.1 hu).symm.trans hc
    | succ j => exact Nat.succ_le_succ (hfirst j u hu)

/-- The scan finds the text of the first element, whatever follows it. -/
theorem firstElement?_eq_some_iff :
    firstElement? cs = some t ↔ ∃ i, FirstElement cs i t := by
  induction cs with
  | nil => exact ⟨fun h => (by cases h), fun ⟨_, h⟩ => absurd h.1 not_elementAt_nil⟩
  | cons c cs ih =>
    rw [firstElement?]
    cases hc : elementAt? (c :: cs) with
    | some u =>
      constructor
      · intro h
        exact ⟨0, firstElement_zero (hc.trans h)⟩
      · rintro ⟨i, hfirst⟩
        have hzero : ElementAt (c :: cs) 0 u := elementAt_iff.2 hc
        obtain rfl := Nat.le_zero.1 (hfirst.2 0 u hzero)
        exact hc.symm.trans (elementAt_iff.1 hfirst.1)
    | none =>
      refine ih.trans ⟨fun ⟨i, h⟩ => ⟨i + 1, (firstElement_succ_iff hc).2 h⟩, ?_⟩
      rintro ⟨i, hfirst⟩
      cases i with
      | zero => cases (elementAt_iff.1 hfirst.1).symm.trans hc
      | succ i => exact ⟨i, (firstElement_succ_iff hc).1 hfirst⟩

theorem firstElement?_eq_none_iff :
    firstElement? cs = none ↔ ∀ i t, ¬ElementAt cs i t := by
  induction cs with
  | nil => exact ⟨fun _ _ _ => not_elementAt_nil, fun _ => rfl⟩
  | cons c cs ih =>
    rw [firstElement?]
    cases hc : elementAt? (c :: cs) with
    | some u =>
      have hzero : ElementAt (c :: cs) 0 u := elementAt_iff.2 hc
      exact ⟨fun h => (by cases h), fun h => absurd hzero (h 0 u)⟩
    | none =>
      refine ih.trans ⟨fun h i t ht => ?_, fun h i t => h (i + 1) t⟩
      cases i with
      | zero => cases (elementAt_iff.1 ht).symm.trans hc
      | succ i => exact h i t ht

theorem firstElement?_of_elementAt? (h : elementAt? cs = some t) : firstElement? cs = some t :=
  firstElement?_eq_some_iff.2 ⟨0, firstElement_zero h⟩

theorem firstElement?_cons (hc : elementAt? (c :: cs) = none) :
    firstElement? (c :: cs) = firstElement? cs := by
  rw [firstElement?, hc]

theorem firstElement?_drop {n : Nat} (h : ∀ i t, ElementAt cs i t → n ≤ i) :
    firstElement? cs = firstElement? (cs.drop n) := by
  -- No element begins at the first place, so the scan passes on to the next.
  induction n generalizing cs with
  | zero => rfl
  | succ n ih =>
    cases cs with
    | nil => rfl
    | cons c cs =>
      have hc : elementAt? (c :: cs) = none := by
        cases hc : elementAt? (c :: cs) with
        | none => rfl
        | some t =>
          have hzero : ElementAt (c :: cs) 0 t := elementAt_iff.2 hc
          exact absurd (h 0 t hzero) (Nat.not_succ_le_zero n)
      rw [firstElement?_cons hc, List.drop_succ_cons]
      exact ih fun i t ht => Nat.le_of_succ_le_succ (h (i + 1) t ht)

theorem firstElement?_text (ht : '<' ∉ t) (rest : List Char) :
    firstElement? (t ++ rest) = firstElement? rest := by
  induction t with
  | nil => rfl
  | cons c t ih =>
    obtain ⟨hc, ht⟩ := List.ne_and_not_mem_of_not_mem_cons ht
    have hnot : ¬openTag <+: c :: (t ++ rest) := fun h => hc (List.cons_prefix_cons.1 h).1
    rw [List.cons_append, firstElement?_cons (elementAt?_of_unopened hnot), ih ht]

theorem firstElement?_unclosed (ht : '<' ∉ t) (hrest : AtTag rest) (hclose : ¬closeTag <+: rest) :
    firstElement? (openTag ++ (t ++ rest)) = firstElement? rest := by
  have hnone : elementAt? (openTag ++ (t ++ rest)) = none := by
    rw [elementAt?_open ht hrest, if_neg hclose]
  have htag : '<' ∉ ['i', 'd', '>'] := by decide
  rw [openTag, List.cons_append] at hnone ⊢
  rw [firstElement?_cons hnone, firstElement?_text htag, firstElement?_text ht]

/-- Only its first character is a `<`, so a tag does not begin in front of another
unless it ends there. -/
theorem openTag_begins (hcs : cs ≠ []) (h : openTag <+: cs ++ openTag ++ rest) :
    openTag <+: cs := by
  rw [List.append_assoc] at h
  rcases List.prefix_or_prefix_of_prefix h (List.prefix_append cs _) with hopen | hcut
  · exact hopen
  · obtain ⟨tail, htail⟩ := hcut
    have hstart : cs ++ tail <+: cs ++ (openTag ++ rest) := by rwa [htail]
    obtain ⟨c, cs, rfl⟩ := List.exists_cons_of_ne_nil hcs
    cases tail with
    | nil => exact ⟨[], by rw [← htail, List.append_nil, List.append_nil]⟩
    | cons d tail =>
      have hd : d = '<' :=
        (List.cons_prefix_cons.1 ((List.prefix_append_right_inj (c :: cs)).1 hstart)).1
      have hmem : '<' ∈ ['i', 'd', '>'] := by
        rw [← (List.cons.inj htail).2, hd]
        exact List.mem_append_right _ List.mem_cons_self
      exact absurd hmem (by decide)

theorem firstElement?_before (hcs : ¬openTag <:+: cs) (rest : List Char) :
    firstElement? (cs ++ openTag ++ rest) = firstElement? (openTag ++ rest) := by
  have hfirst : ∀ i t, ElementAt (cs ++ openTag ++ rest) i t → cs.length ≤ i := by
    rintro i t ⟨-, helement⟩
    by_contra hi
    have hopen : openTag <+: cs.drop i ++ openTag ++ rest := by
      rw [List.append_assoc, ← List.drop_append_of_le_length (by omega), ← List.append_assoc]
      exact (((List.prefix_append openTag t).trans (List.prefix_append _ _)).trans helement)
    have hne : cs.drop i ≠ [] := List.ne_nil_of_length_pos (by rw [List.length_drop]; omega)
    exact hcs ((openTag_begins hne hopen).isInfix.trans (List.drop_suffix i cs).isInfix)
  rw [firstElement?_drop hfirst, List.append_assoc, List.drop_left]

end InstallLocator.GameInfo
