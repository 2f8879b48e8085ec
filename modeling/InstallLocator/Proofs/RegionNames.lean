import InstallLocator.Region
import Mathlib.Data.List.Forall2
import Mathlib.Data.List.TakeWhile

/-!
# The texts that name a region

A region is named by its code or its product id, spelled in capital or small
letters and with any white space around it. A text names one region at most, so
it makes no difference in which order the regions are tried. No other text is
accepted, and the one that is refused is reported as it was given.
-/

set_option autoImplicit false

namespace InstallLocator

def IsCapitalOf (c d : Char) : Prop :=
  'A'.toNat ≤ c.toNat ∧ c.toNat ≤ 'Z'.toNat ∧ d.toNat = c.toNat + 32

/-- Equal up to the case of ASCII letters. -/
def SameLetter (c d : Char) : Prop := c = d ∨ IsCapitalOf c d ∨ IsCapitalOf d c

instance (c d : Char) : Decidable (IsCapitalOf c d) := inferInstanceAs (Decidable (_ ∧ _ ∧ _))

instance (c d : Char) : Decidable (SameLetter c d) := inferInstanceAs (Decidable (_ ∨ _ ∨ _))

variable {c d : Char}

theorem toNat_toLower (c : Char) :
    c.toLower.toNat =
      if 'A'.toNat ≤ c.toNat ∧ c.toNat ≤ 'Z'.toNat then c.toNat + 32 else c.toNat := by
  have hcapital : (c.val ≥ 'A'.val ∧ c.val ≤ 'Z'.val) ↔
      'A'.toNat ≤ c.toNat ∧ c.toNat ≤ 'Z'.toNat := by
    rw [ge_iff_le, UInt32.le_iff_toNat_le, UInt32.le_iff_toNat_le]
    rfl
  by_cases h : 'A'.toNat ≤ c.toNat ∧ c.toNat ≤ 'Z'.toNat
  · have hz : c.toNat ≤ 90 := h.2
    have hlower : c.toLower.val = c.val + ('a'.val - 'A'.val) :=
      congrArg Char.val (dif_pos (hcapital.2 h))
    rw [if_pos h, Char.toNat, hlower, UInt32.toNat_add]
    change (c.toNat + 32) % 4294967296 = c.toNat + 32
    omega
  · have hkeep : c.toLower = c := dif_neg (mt hcapital.1 h)
    rw [if_neg h, hkeep]

theorem toLower_eq_iff : c.toLower = d.toLower ↔ SameLetter c d := by
  have ha : 'A'.toNat = 65 := rfl
  have hz : 'Z'.toNat = 90 := rfl
  rw [← Char.toNat_inj, toNat_toLower, toNat_toLower, SameLetter, IsCapitalOf, IsCapitalOf,
    ← Char.toNat_inj]
  split <;> split <;> omega

theorem sameIgnoringCase_iff {s t : String} :
    sameIgnoringCase s t = true ↔ List.Forall₂ SameLetter s.toList t.toList := by
  rw [sameIgnoringCase, beq_iff_eq, ← List.forall₂_eq_eq_eq, List.forall₂_map_left_iff,
    List.forall₂_map_right_iff]
  simp only [toLower_eq_iff]

theorem forall_of_sameLetters {P : Char → Prop} (hP : ∀ c d, SameLetter c d → P c → P d)
    {cs ds : List Char} (h : List.Forall₂ SameLetter cs ds) (hcs : ∀ c ∈ cs, P c) :
    ∀ d ∈ ds, P d := by
  induction h with
  | nil => exact List.forall_mem_nil _
  | cons hcd _ ih =>
    obtain ⟨hc, hrest⟩ := List.forall_mem_cons.1 hcs
    exact List.forall_mem_cons.2 ⟨hP _ _ hcd hc, ih hrest⟩

theorem exists_around_trimChars (cs : List Char) : ∃ w v, cs = w ++ trimChars cs ++ v ∧
    (∀ c ∈ w, isWhite c = true) ∧ ∀ c ∈ v, isWhite c = true := by
  have hwhite : ∀ ds : List Char, ∀ c ∈ ds.takeWhile isWhite, isWhite c = true :=
    fun ds c hc => List.mem_takeWhile_imp hc
  refine ⟨cs.takeWhile isWhite, ((cs.dropWhile isWhite).reverse.takeWhile isWhite).reverse, ?_,
    hwhite cs, fun c hc => hwhite _ c (List.mem_reverse.1 hc)⟩
  rw [trimChars, List.append_assoc, ← List.reverse_append, List.takeWhile_append_dropWhile,
    List.reverse_reverse, List.takeWhile_append_dropWhile]

theorem isWhite_toLower (c : Char) : isWhite c.toLower = isWhite c := by
  have ha : 'A'.toNat = 65 := rfl
  have hz : 'Z'.toNat = 90 := rfl
  rw [Bool.eq_iff_iff]
  simp only [isWhite, toNat_toLower, Bool.or_eq_true, Bool.and_eq_true, decide_eq_true_eq]
  split <;> omega

theorem SameLetter.isWhite_eq (h : SameLetter c d) : isWhite c = isWhite d := by
  rw [← isWhite_toLower c, toLower_eq_iff.2 h, isWhite_toLower]

theorem trimChars_map_toLower (cs : List Char) :
    trimChars (cs.map Char.toLower) = (trimChars cs).map Char.toLower := by
  have hwhite : isWhite ∘ Char.toLower = isWhite := funext isWhite_toLower
  rw [trimChars, trimChars, List.dropWhile_map, hwhite, ← List.map_reverse, List.dropWhile_map,
    hwhite, ← List.map_reverse]

theorem sameIgnoringCase_trim {t u : String} (h : sameIgnoringCase t u = true) :
    sameIgnoringCase (trim t) (trim u) = true := by
  rw [sameIgnoringCase, beq_iff_eq] at h ⊢
  rw [trim, trim, String.toList_ofList, String.toList_ofList, ← trimChars_map_toLower,
    ← trimChars_map_toLower, h]

/-- The text is the name up to the case of ASCII letters, with white space around it. -/
def SpelledBy (name text : String) : Prop :=
  ∃ w k v, text.toList = w ++ k ++ v ∧ (∀ c ∈ w, isWhite c = true) ∧
    (∀ c ∈ v, isWhite c = true) ∧ List.Forall₂ SameLetter name.toList k

def Solid (name : String) : Prop := ∀ c ∈ name.toList, isWhite c = false

theorem sameIgnoringCase_trim_iff {name text : String} (hname : Solid name) :
    sameIgnoringCase name (trim text) = true ↔ SpelledBy name text := by
  rw [sameIgnoringCase_iff, trim, String.toList_ofList]
  constructor
  · intro h
    obtain ⟨w, v, hcut, hw, hv⟩ := exists_around_trimChars text.toList
    exact ⟨w, _, v, hcut, hw, hv, h⟩
  · rintro ⟨w, k, v, hcut, hw, hv, hk⟩
    have hsolid : ∀ c ∈ k, isWhite c = false :=
      forall_of_sameLetters (fun c d hcd hc => hcd.isWhite_eq ▸ hc) hk hname
    have htrimmed : Trimmed (String.ofList k) := by
      rw [Trimmed, String.toList_ofList]
      exact ⟨fun c hc => hsolid c (List.mem_of_mem_head? hc),
        fun c hc => hsolid c (List.mem_of_mem_getLast? hc)⟩
    have hkeep := congrArg String.toList (trim_of_trimmed htrimmed)
    rw [trim, String.toList_ofList, String.toList_ofList] at hkeep
    rwa [hcut, trimChars_append hw hv, hkeep]

namespace Region

/-- The reader accepts a text for a region if it spells the name of the region, for
one region at most, and whatever the order in which the regions are tried. White
space around the text and the case of its letters make no difference. -/
structure Recognises (read : String → Option Region) (name : Region → String) : Prop where
  accepts : ∀ t s, read t = some s ↔ SpelledBy (name s) t
  apart : ∀ t r s, SpelledBy (name r) t → SpelledBy (name s) t → r = s
  tried : ∀ order : List Region, (∀ s, s ∈ order) → ∀ t,
    (order.find? fun s => sameIgnoringCase (name s) (trim t)) = read t
  padded : ∀ w t v : String, (∀ c ∈ w.toList, isWhite c = true) →
    (∀ c ∈ v.toList, isWhite c = true) → read (w ++ t ++ v) = read t
  recased : ∀ t u : String, List.Forall₂ SameLetter t.toList u.toList → read t = read u

theorem recognises_find? {name : Region → String} (solid : ∀ s, Solid (name s))
    (apart : ∀ r s, sameIgnoringCase (name r) (name s) = true → r = s) :
    Recognises (fun t => all.find? fun s => sameIgnoringCase (name s) (trim t)) name := by
  have hfind : ∀ order : List Region, (∀ s, s ∈ order) → ∀ t s,
      (order.find? fun s => sameIgnoringCase (name s) (trim t)) = some s ↔
        SpelledBy (name s) t := fun order hall t s =>
    (find?_spelled_iff hall apart).trans (sameIgnoringCase_trim_iff (solid s))
  refine ⟨hfind all mem_all, fun t r s hr hs => ?_, fun order hall t => ?_, fun w t v hw hv => ?_,
    fun t u htu => ?_⟩
  · rw [← hfind all mem_all] at hr hs
    exact Option.some.inj (hr.symm.trans hs)
  · refine Option.ext fun s => ?_
    rw [hfind order hall, hfind all mem_all]
  · simp only [trim, String.toList_append, trimChars_append hw hv]
  · have hsame := sameIgnoringCase_trim (sameIgnoringCase_iff.2 htu)
    have htest : ∀ s, sameIgnoringCase (name s) (trim t) = sameIgnoringCase (name s) (trim u) := by
      intro s
      rw [Bool.eq_iff_iff]
      exact ⟨fun h => sameIgnoringCase_trans h hsame,
        fun h => sameIgnoringCase_trans h (sameIgnoringCase_symm _ _ ▸ hsame)⟩
    simp only [htest]

theorem gameId_solid (s : Region) : Solid s.gameId := by
  refine List.forall_iff_forall_mem.1 ?_
  cases s <;> decide

theorem code_solid (s : Region) : Solid s.code := by
  refine List.forall_iff_forall_mem.1 ?_
  cases s <;> decide

theorem toOption_parse (t : String) : (parse t).toOption = ofCode? t := by
  unfold parse
  cases ofCode? t <;> rfl

/-- Product ids and codes are recognised, spelled in any case and with white space
around them, and nothing else is. A text that is no code comes back untrimmed in
the error, and an id may be trimmed first. -/
theorem recognises_names :
    Recognises ofGameId? gameId ∧ Recognises (fun t => (parse t).toOption) code ∧
      (∀ t u, parse t = .error u ↔ u.text = t ∧ ∀ s, ¬SpelledBy (code s) t) ∧
      ∀ t, ofGameId? (trim t) = ofGameId? t := by
  have hids : Recognises ofGameId? gameId := recognises_find? gameId_solid gameId_apart
  have hcodes : Recognises ofCode? code := recognises_find? code_solid code_apart
  refine ⟨hids, ?_, fun t u => ?_, fun t => ?_⟩
  · rwa [funext toOption_parse]
  · rw [parse_eq_error_iff, Option.eq_none_iff_forall_ne_some]
    simp only [ne_eq, hcodes.accepts]
    cases u
    simp [and_comm]
  · rw [ofGameId?, ofGameId?, trim_of_trimmed (trim_trimmed t)]

/-- The long s is no letter of an id, though its capital is. -/
example : ofGameId? " wOwS.pT.production\u3000" = some .publicTest ∧
    ofGameId? "WOW\u017F.PT.PRODUCTION" = none := by decide

end Region
end InstallLocator
