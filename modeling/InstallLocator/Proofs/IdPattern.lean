import InstallLocator.Proofs.IdElement
import Mathlib.Data.List.DropRight

/-!
# The id as what a pattern captures

An id can also be described by a pattern: the opening tag, white space, a text
without `<` that is captured, white space, and the closing tag. A pattern may
read one text in several ways. Its runs prefer to be long or to be short, an
earlier part of the pattern decides before a later one, and of all places the
leftmost one counts. Here both runs of white space are to be long and the
captured run short; what it captures is then the trimmed text of the first
element.
-/

set_option autoImplicit false

namespace InstallLocator

inductive TextPattern
  | exactly (cs : List Char)
  | run (accepts : Char → Bool) (greedy : Bool)
  | captured (p : TextPattern)
  | followed (p q : TextPattern)

namespace TextPattern

/-- One way to read the start of a text: what is captured and what is left. -/
structure Reading where
  capture : Option (List Char)
  rest : List Char

/-- All readings of the start of a text, the preferred ones first. -/
def readings : TextPattern → List Char → List Reading
  | exactly w, cs => ((w.isPrefixOf? cs).map fun rest => ⟨none, rest⟩).toList
  | run accepts greedy, cs =>
    let sizes := List.range ((cs.takeWhile accepts).length + 1)
    (if greedy then sizes.reverse else sizes).map fun k => ⟨none, cs.drop k⟩
  | captured p, cs =>
    (p.readings cs).map fun r => ⟨some (cs.take (cs.length - r.rest.length)), r.rest⟩
  | followed p q, cs =>
    (p.readings cs).flatMap fun r =>
      (q.readings r.rest).map fun s => ⟨s.capture.or r.capture, s.rest⟩

def read? (p : TextPattern) (cs : List Char) : Option Reading := (p.readings cs).head?

/-- The preferred reading at the leftmost place that has one. -/
def find? (p : TextPattern) : List Char → Option Reading
  | [] => p.read? []
  | c :: cs => (p.read? (c :: cs)).or (p.find? cs)

variable {p q : TextPattern} {accepts : Char → Bool} {cs t rest : List Char} {r : Reading}

theorem read?_followed : (followed p q).read? cs =
    (p.readings cs).findSome? fun r =>
      (q.read? r.rest).map fun s => ⟨s.capture.or r.capture, s.rest⟩ := by
  rw [read?, readings, List.head?_flatMap]
  simp only [List.head?_map, read?]

theorem read?_exactly_followed (w cs : List Char) :
    (followed (exactly w) q).read? (w ++ cs) = q.read? cs := by
  have hw : w.isPrefixOf? (w ++ cs) = some cs := List.isPrefixOf?_eq_some_iff_append_eq.2 rfl
  rw [read?_followed, readings, hw]
  simp

theorem readings_exactly_of_unread {w : List Char} (h : ¬w <+: cs) :
    (exactly w).readings cs = [] := by
  rw [readings]
  cases hp : w.isPrefixOf? cs with
  | none => rfl
  | some rest => exact absurd ⟨rest, List.isPrefixOf?_eq_some_iff_append_eq.1 hp⟩ h

-- `t` is all that the run can take of the text.
section

variable (ht : ∀ c ∈ t, accepts c = true) (hrest : ∀ c ∈ rest.head?, accepts c = false)

include ht hrest

theorem takeWhile_run : (t ++ rest).takeWhile accepts = t := by
  rw [List.takeWhile_append_of_pos ht]
  cases rest with
  | nil => simp
  | cons c cs => simp [hrest c rfl]

theorem read?_long : (followed (run accepts true) q).read? (t ++ rest) =
    (List.range (t.length + 1)).reverse.findSome? fun k => q.read? ((t ++ rest).drop k) := by
  rw [read?_followed, readings, takeWhile_run ht hrest, List.findSome?_map]
  simp [Function.comp_def]

theorem read?_short : (followed (captured (run accepts false)) q).read? (t ++ rest) =
    (List.range (t.length + 1)).findSome? fun k => (q.read? ((t ++ rest).drop k)).map fun s =>
      ⟨s.capture.or (some ((t ++ rest).take k)), s.rest⟩ := by
  have hsize : ∀ k, (t ++ rest).take ((t ++ rest).length - ((t ++ rest).drop k).length) =
      (t ++ rest).take k := by
    intro k
    rw [List.length_drop, List.take_eq_take_iff]
    omega
  rw [read?_followed, readings, readings, takeWhile_run ht hrest, List.map_map, List.findSome?_map]
  simp only [Bool.false_eq_true, if_false, Function.comp_def, hsize]

/-- A long run goes as far as it can, if what follows it can be read there. -/
theorem read?_long_of_some (h : q.read? rest = some r) :
    (followed (run accepts true) q).read? (t ++ rest) = some r := by
  have hlast : q.read? ((t ++ rest).drop t.length) = some r := by rwa [List.drop_left]
  rw [read?_long ht hrest, List.range_succ, List.reverse_append, List.reverse_singleton,
    List.singleton_append, List.findSome?_cons, hlast]

theorem read?_long_of_none (h : ∀ k ≤ t.length, q.read? (t.drop k ++ rest) = none) :
    (followed (run accepts true) q).read? (t ++ rest) = none := by
  rw [read?_long ht hrest, List.findSome?_eq_none_iff]
  intro k hk
  have hle : k ≤ t.length := by simpa [Nat.lt_succ_iff] using hk
  rw [List.drop_append_of_le_length hle, h k hle]

/-- A short run goes no further than to the first place where what follows it can
be read. -/
theorem read?_short_of_some {k : Nat} (hk : k ≤ t.length) (h : q.read? (t.drop k ++ rest) = some r)
    (hbefore : ∀ j < k, q.read? (t.drop j ++ rest) = none) :
    (followed (captured (run accepts false)) q).read? (t ++ rest) =
      some ⟨r.capture.or (some (t.take k)), r.rest⟩ := by
  obtain ⟨more, hmore⟩ := Nat.exists_eq_add_of_le hk
  have hsizes : List.range (t.length + 1) =
      List.range k ++ k :: (List.range more).map fun j => k + (j + 1) := by
    rw [hmore, Nat.add_assoc, List.range_add, List.range_succ_eq_map, List.map_cons, List.map_map]
    rfl
  rw [read?_short ht hrest, List.findSome?_eq_some_iff]
  refine ⟨_, k, _, hsizes, ?_, fun j hj => ?_⟩
  · rw [List.drop_append_of_le_length hk, h, List.take_append_of_le_length hk]
    rfl
  · have hlt : j < k := List.mem_range.1 hj
    rw [List.drop_append_of_le_length (by omega), hbefore j hlt]
    rfl

theorem read?_short_of_none (h : ∀ k ≤ t.length, q.read? (t.drop k ++ rest) = none) :
    (followed (captured (run accepts false)) q).read? (t ++ rest) = none := by
  rw [read?_short ht hrest, List.findSome?_eq_none_iff]
  intro k hk
  have hle : k ≤ t.length := Nat.lt_succ_iff.1 (List.mem_range.1 hk)
  rw [List.drop_append_of_le_length hle, h k hle]
  rfl

end

end TextPattern

namespace GameInfo

open TextPattern

def closing : TextPattern := .followed (.run isWhite true) (.exactly closeTag)

def capture : TextPattern := .followed (.captured (.run (· ≠ '<') false)) closing

def body : TextPattern := .followed (.run isWhite true) capture

/-- The pattern `<id>\s*([^<]*?)\s*</id>`. -/
def idPattern : TextPattern := .followed (.exactly openTag) body

variable {cs t rest : List Char}

theorem not_isWhite_of_atTag (hrest : AtTag rest) : ∀ c ∈ rest.head?, isWhite c = false := by
  intro c hc
  rw [hrest c hc]
  decide

theorem head_not_isWhite (t : List Char) (hrest : AtTag rest) :
    ∀ c ∈ (t.dropWhile isWhite ++ rest).head?, isWhite c = false := by
  intro c hc
  rw [List.head?_append] at hc
  rcases Option.or_eq_some_iff.1 (Option.mem_def.1 hc) with ht | ⟨-, hr⟩
  · exact not_isWhite_head ht
  · exact not_isWhite_of_atTag hrest c hr

theorem text_of_not_mem (ht : '<' ∉ t) : ∀ c ∈ t, decide (c ≠ '<') = true := by
  intro c hc
  simpa using fun h : c = '<' => ht (h ▸ hc)

theorem tag_of_atTag (hrest : AtTag rest) : ∀ c ∈ rest.head?, decide (c ≠ '<') = false := by
  intro c hc
  simpa using hrest c hc

theorem closeTag_prefix_iff (ht : '<' ∉ t) :
    closeTag <+: t ++ rest ↔ t = [] ∧ closeTag <+: rest := by
  cases t with
  | nil => simp
  | cons c t =>
    have hc : '<' ≠ c := (List.ne_and_not_mem_of_not_mem_cons ht).1
    constructor
    · intro h
      exact absurd (List.cons_prefix_cons.1 h).1 hc
    · rintro ⟨h, -⟩
      cases h

theorem read?_closing_eq_none (ht : '<' ∉ t) (hrest : AtTag rest)
    (h : ¬((∀ c ∈ t, isWhite c = true) ∧ closeTag <+: rest)) :
    closing.read? (t ++ rest) = none := by
  have hsplit : t.takeWhile isWhite ++ t.dropWhile isWhite = t := List.takeWhile_append_dropWhile
  rw [← hsplit, List.append_assoc]
  apply read?_long_of_none (fun c hc => List.mem_takeWhile_imp hc) (head_not_isWhite t hrest)
  intro k hk
  have hmem : '<' ∉ (t.takeWhile isWhite).drop k ++ t.dropWhile isWhite := by
    intro hc
    apply ht
    rw [← hsplit]
    exact List.mem_append.2 ((List.mem_append.1 hc).imp_left fun hd => List.mem_of_mem_drop hd)
  have hnot : ¬closeTag <+: (t.takeWhile isWhite).drop k ++ (t.dropWhile isWhite ++ rest) := by
    rw [← List.append_assoc, closeTag_prefix_iff hmem]
    rintro ⟨hnil, hclose⟩
    exact h ⟨List.dropWhile_eq_nil_iff.1 (List.append_eq_nil_iff.1 hnil).2, hclose⟩
  rw [read?, readings_exactly_of_unread hnot]
  rfl

theorem read?_closing (hwhite : ∀ c ∈ t, isWhite c = true) (after : List Char) :
    closing.read? (t ++ (closeTag ++ after)) = some ⟨none, after⟩ := by
  have hclose := atTag_of_closeTag (List.prefix_append closeTag after)
  apply read?_long_of_some hwhite (not_isWhite_of_atTag hclose)
  rw [read?, readings, List.isPrefixOf?_eq_some_iff_append_eq.2 rfl]
  rfl

theorem read?_capture {a w : List Char} (ha : ∀ c ∈ a.getLast?, isWhite c = false)
    (hw : ∀ c ∈ w, isWhite c = true) (ht : '<' ∉ a ++ w) (after : List Char) :
    capture.read? (a ++ w ++ (closeTag ++ after)) = some ⟨some a, after⟩ := by
  have hclose : AtTag (closeTag ++ after) := atTag_of_closeTag (List.prefix_append _ _)
  have hread : closing.read? ((a ++ w).drop a.length ++ (closeTag ++ after)) =
      some ⟨none, after⟩ := by
    rw [List.drop_left]
    exact read?_closing hw after
  have hbefore : ∀ j < a.length, closing.read? ((a ++ w).drop j ++ (closeTag ++ after)) = none := by
    intro j hj
    apply read?_closing_eq_none (fun hc => ht (List.mem_of_mem_drop hc)) hclose
    rintro ⟨hwhite, -⟩
    have hne : a.drop j ≠ [] := List.ne_nil_of_length_pos (by rw [List.length_drop]; omega)
    have hmem : (a.drop j).getLast hne ∈ (a ++ w).drop j := by
      rw [List.drop_append_of_le_length (Nat.le_of_lt hj)]
      exact List.mem_append_left w (List.getLast_mem hne)
    have hne : a ≠ [] := fun h => hne (by rw [h, List.drop_nil])
    rw [List.getLast_drop] at hmem
    cases (hwhite _ hmem).symm.trans (ha _ (List.getLast?_eq_some_getLast hne))
  have hle : a.length ≤ (a ++ w).length := by simp
  rw [capture, read?_short_of_some (text_of_not_mem ht) (tag_of_atTag hclose) hle hread hbefore,
    List.take_left]
  rfl

theorem read?_capture_eq_none (ht : '<' ∉ t) (hrest : AtTag rest) (h : ¬closeTag <+: rest) :
    capture.read? (t ++ rest) = none := by
  apply read?_short_of_none (text_of_not_mem ht) (tag_of_atTag hrest)
  intro k _
  exact read?_closing_eq_none (fun hc => ht (List.mem_of_mem_drop hc)) hrest fun hc => h hc.2

theorem read?_body (ht : '<' ∉ t) (after : List Char) :
    body.read? (t ++ (closeTag ++ after)) = some ⟨some (trimChars t), after⟩ := by
  have hclose : AtTag (closeTag ++ after) := atTag_of_closeTag (List.prefix_append _ _)
  have hstart : t.takeWhile isWhite ++ t.dropWhile isWhite = t := List.takeWhile_append_dropWhile
  have hend : trimChars t ++ (t.dropWhile isWhite).rtakeWhile isWhite = t.dropWhile isWhite :=
    List.rdropWhile_append_rtakeWhile
  have hlast : ∀ c ∈ (trimChars t).getLast?, isWhite c = false := by
    simpa [trim] using (trim_trimmed (String.ofList t)).2
  have hmem : '<' ∉ trimChars t ++ (t.dropWhile isWhite).rtakeWhile isWhite := by
    rw [hend]
    exact fun hc => ht ((List.dropWhile_suffix isWhite).subset hc)
  have hread : capture.read? (t.dropWhile isWhite ++ (closeTag ++ after)) =
      some ⟨some (trimChars t), after⟩ := by
    rw [← hend]
    exact read?_capture hlast (fun c hc => List.mem_rtakeWhile_imp hc) hmem after
  rw [← hstart, List.append_assoc, hstart]
  exact read?_long_of_some (fun c hc => List.mem_takeWhile_imp hc) (head_not_isWhite t hclose) hread

theorem read?_body_eq_none (ht : '<' ∉ t) (hrest : AtTag rest) (h : ¬closeTag <+: rest) :
    body.read? (t ++ rest) = none := by
  have hstart : t.takeWhile isWhite ++ t.dropWhile isWhite = t := List.takeWhile_append_dropWhile
  rw [← hstart, List.append_assoc]
  apply read?_long_of_none (fun c hc => List.mem_takeWhile_imp hc) (head_not_isWhite t hrest)
  intro k _
  rw [← List.append_assoc]
  apply read?_capture_eq_none _ hrest h
  intro hc
  apply ht
  rw [← hstart]
  exact List.mem_append.2 ((List.mem_append.1 hc).imp_left fun hd => List.mem_of_mem_drop hd)

/-- The pattern reads just the elements, and captures their texts trimmed. -/
theorem capture_read? (cs : List Char) : (idPattern.read? cs).map Reading.capture =
    (elementAt? cs).map fun t => some (trimChars t) := by
  by_cases hopen : openTag <+: cs
  · obtain ⟨content, rfl⟩ := hopen
    obtain ⟨t, rest, ht, hrest, rfl⟩ := exists_text content
    rw [idPattern, read?_exactly_followed, elementAt?_open ht hrest]
    by_cases hclose : closeTag <+: rest
    · rw [if_pos hclose]
      obtain ⟨after, rfl⟩ := hclose
      rw [read?_body ht after]
      rfl
    · rw [if_neg hclose, read?_body_eq_none ht hrest hclose]
      rfl
  · rw [elementAt?_of_unopened hopen, idPattern, read?_followed,
      readings_exactly_of_unread hopen]
    rfl

theorem capture_find? (cs : List Char) : (idPattern.find? cs).map Reading.capture =
    (firstElement? cs).map fun t => some (trimChars t) := by
  induction cs with
  | nil => exact capture_read? []
  | cons c cs ih =>
    have hread := capture_read? (c :: cs)
    rw [find?, Option.map_or, ih, hread, firstElement?]
    cases elementAt? (c :: cs) <;> rfl

theorem idOf?_eq_capture (cs : List Char) :
    idOf? cs = ((idPattern.find? cs).bind Reading.capture).filter (· ≠ []) := by
  have hjoin : (idPattern.find? cs).bind Reading.capture =
      ((idPattern.find? cs).map Reading.capture).join := by
    cases idPattern.find? cs <;> rfl
  rw [hjoin, capture_find?, idOf?]
  cases firstElement? cs with
  | none => rfl
  | some t => by_cases hblank : trimChars t = [] <;> simp [hblank, Option.filter]

/-- What a content names as its id: the trimmed text of its first element, unless
that is nothing or there is no element. -/
inductive NamesId (cs : List Char) : Option String → Prop
  | absent (nowhere : ∀ i t, ¬ElementAt cs i t) : NamesId cs none
  | blank {i : Nat} {t : List Char} (first : FirstElement cs i t) (blank : trimChars t = []) :
    NamesId cs none
  | told {i : Nat} {t : List Char} (first : FirstElement cs i t) (solid : trimChars t ≠ []) :
    NamesId cs (some (String.ofList (trimChars t)))

theorem namesId_extractId (content : String) : NamesId content.toList (extractId content) := by
  rw [extractId, idOf?]
  cases hf : firstElement? content.toList with
  | none => exact .absent (firstElement?_eq_none_iff.1 hf)
  | some t =>
    obtain ⟨i, hfirst⟩ := firstElement?_eq_some_iff.1 hf
    by_cases hblank : trimChars t = []
    · simpa [hblank] using NamesId.blank hfirst hblank
    · simpa [hblank] using NamesId.told hfirst hblank

theorem extractId_of_namesId {content : String} {id : Option String}
    (h : NamesId content.toList id) : extractId content = id := by
  rw [extractId, idOf?]
  cases h with
  | absent nowhere => rw [firstElement?_eq_none_iff.2 nowhere, Option.map_none]
  | blank first blank => rw [firstElement?_eq_some_iff.2 ⟨_, first⟩]; simp [blank]
  | told first solid => rw [firstElement?_eq_some_iff.2 ⟨_, first⟩]; simp [solid]

theorem mem_of_mem_trimChars {c : Char} (h : c ∈ trimChars t) : c ∈ t := by
  have hend : trimChars t <+: t.dropWhile isWhite := List.rdropWhile_prefix isWhite _
  exact (List.dropWhile_suffix isWhite).subset (hend.subset h)

/-- The id is that of the first element, whose text is determined by its place.
It is not empty, has no `<` and no white space around it, and an opening tag that
is not closed is skipped. It is also what the pattern captures. -/
theorem extractId_first_element (content : String) :
    (∀ id, extractId content = id ↔ NamesId content.toList id) ∧
      (∀ i t u, ElementAt content.toList i t → ElementAt content.toList i u → t = u) ∧
      (∀ id, extractId content = some id → id ≠ "" ∧ '<' ∉ id.toList ∧ Trimmed id) ∧
      (∀ before t rest, content.toList = before ++ (openTag ++ (t ++ rest)) →
        (∀ i u, ElementAt content.toList i u → before.length ≤ i) → '<' ∉ t → AtTag rest →
          ¬closeTag <+: rest → extractId content = extractId (String.ofList rest)) ∧
      extractId content = (((idPattern.find? content.toList).bind Reading.capture).filter
        (· ≠ [])).map String.ofList := by
  refine ⟨fun id => ⟨fun h => h ▸ namesId_extractId content, extractId_of_namesId⟩,
    fun i t u ht hu => ht.text_eq hu, fun id h => ?_, ?_, ?_⟩
  · obtain _ | _ | ⟨first, solid⟩ := h ▸ namesId_extractId content
    refine ⟨?_, ?_, ?_⟩
    · rwa [Ne, String.ofList_eq_empty_iff]
    · rw [String.toList_ofList]
      exact fun hc => first.1.1 (mem_of_mem_trimChars hc)
    · simpa [trim] using trim_trimmed (String.ofList _)
  · intro before t rest hcontent hbefore ht hrest hclose
    have hskip : firstElement? content.toList = firstElement? rest := by
      rw [firstElement?_drop hbefore, hcontent, List.drop_left,
        firstElement?_unclosed ht hrest hclose]
    rw [extractId, extractId, idOf?, idOf?, String.toList_ofList, hskip]
  · rw [extractId, idOf?_eq_capture]

/-- An element that is not closed, and one after it. -/
theorem extractId_first_element_second :
    extractId "<id>one<id> two </id>" = extractId "<id> two </id>" ∧
      extractId "<id> two </id>" = some "two" := by
  have htwo : extractId "<id> two </id>" = some "two" := by decide
  have hskip := (extractId_first_element "<id>one<id> two </id>").2.2.2.1 [] "one".toList
    "<id> two </id>".toList (by decide) (fun _ _ _ => Nat.zero_le _) (by decide)
    (fun c hc => by simpa using hc.symm) (by decide)
  exact ⟨hskip, htwo⟩

end GameInfo
end InstallLocator
