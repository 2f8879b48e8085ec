import Mathlib.Data.List.Basic
import InstallLocator.Proofs.Utf8Exact
import InstallLocator.Settings.Validate

/-!
# Names of log levels

A level is compared in lower case, for all of Unicode. The level names are
spelled with letters that are the lower case of nothing but themselves and
their capitals, so this comparison leaves out of account the case of ASCII
letters and nothing more. The letter k, which the Kelvin sign becomes too, is
in none of them.
-/

set_option autoImplicit false

namespace InstallLocator

/-- A letter from `a` to `z` that only itself and its capital become. -/
def OwnLower (c : Char) : Prop := c.isLower = true ∧ c ≠ 'k'

instance (c : Char) : Decidable (OwnLower c) := inferInstanceAs (Decidable (_ ∧ _))

variable {c : Char}

theorem ascii_forall {P : Char → Prop} (h : ∀ n < 128, P (Char.ofNat n)) (hc : c.toNat < 128) :
    P c := by
  have hp := h c.toNat hc
  rwa [Char.ofNat_toNat] at hp

theorem OwnLower.toNat_lt (h : OwnLower c) : c.toNat < 128 := by
  have hlower : (decide (c.val ≥ 'a'.val) && decide (c.val ≤ 'z'.val)) = true := h.1
  rw [Bool.and_eq_true, decide_eq_true_eq, decide_eq_true_eq] at hlower
  exact Nat.lt_of_le_of_lt (UInt32.le_iff_toNat_le.1 hlower.2) (by decide)

theorem OwnLower.toLower (h : OwnLower c) : c.toLower = c :=
  ascii_forall (P := fun c => OwnLower c → c.toLower = c) (by decide +kernel) h.toNat_lt h

theorem ofNat_not_ownLower {n : Nat} (h : 128 ≤ n) : ¬OwnLower (Char.ofNat n) := by
  by_cases hn : n.isValidChar
  · intro ho
    have hlt := ho.toNat_lt
    rw [Utf8.toNat_ofNat hn] at hlt
    omega
  · rw [Char.ofNat, dif_neg hn]
    decide

theorem lowerChar_ascii (h : c.toNat < 128) : lowerChar c = [c.toLower] :=
  ascii_forall (P := fun c => lowerChar c = [c.toLower]) (by decide +kernel) h

theorem toLower_beyond (h : 128 ≤ c.toNat) : c.toLower = c := by
  refine dif_neg fun hup => ?_
  have hle : c.toNat ≤ 'Z'.toNat := UInt32.le_iff_toNat_le.1 hup.2
  exact absurd (Nat.le_trans h hle) (by decide)

/-- A run beyond ASCII also ends up there, the Kelvin sign apart. -/
theorem caseRuns_apart : ∀ r ∈ caseRuns,
    r.last < 128 ∨ r.first = 0x212A ∧ r.last = 0x212A ∧ r.shift = -8383 ∨
      128 ≤ (r.first : Int) + r.shift := by
  decide +kernel

theorem CaseRun.bounds {r : CaseRun} {n : Nat} (h : r.covers n = true) :
    r.first ≤ n ∧ n ≤ r.last := by
  simp only [CaseRun.covers, Bool.and_eq_true, decide_eq_true_eq] at h
  exact h.1

theorem exists_not_ownLower (h : 128 ≤ c.toNat) : ∃ d ∈ lowerChar c, ¬OwnLower d := by
  unfold lowerChar
  split
  · exact ⟨'\u0307', by decide, by decide⟩
  · cases hr : caseRuns.find? (fun r => r.covers c.toNat) with
    | none => exact ⟨c, List.mem_singleton_self c, fun ho => absurd ho.toNat_lt (Nat.not_lt.2 h)⟩
    | some r =>
      refine ⟨_, List.mem_singleton_self _, ?_⟩
      have hcovers : r.covers c.toNat = true := by simpa using List.find?_some hr
      obtain ⟨hfirst, hlast⟩ := CaseRun.bounds hcovers
      rcases caseRuns_apart r (List.mem_of_find?_eq_some hr) with hlow | ⟨hf, hl, hs⟩ | hhigh
      · omega
      · -- The Kelvin sign becomes a k.
        have hk : c.toNat = 0x212A := by omega
        rw [hk, hs]
        decide
      · exact ofNat_not_ownLower (by omega)

theorem flatMap_lowerChar_ascii {cs : List Char} (h : ∀ c ∈ cs, c.toNat < 128) :
    cs.flatMap lowerChar = cs.map Char.toLower := by
  rw [List.map_eq_flatMap]
  exact List.flatMap_congr fun c hc => lowerChar_ascii (h c hc)

theorem flatMap_lowerChar_eq_iff {cs name : List Char} (hn : ∀ c ∈ name, OwnLower c) :
    cs.flatMap lowerChar = name ↔ cs.map Char.toLower = name := by
  constructor
  · rintro rfl
    refine (flatMap_lowerChar_ascii fun c hc => ?_).symm
    by_contra hbeyond
    obtain ⟨d, hd, hdn⟩ := exists_not_ownLower (Nat.le_of_not_lt hbeyond)
    exact hdn (hn d (List.mem_flatMap.2 ⟨c, hc, hd⟩))
  · rintro rfl
    refine flatMap_lowerChar_ascii fun c hc => ?_
    by_contra hbeyond
    have hlt := (hn c.toLower (List.mem_map_of_mem hc)).toNat_lt
    rw [toLower_beyond (Nat.le_of_not_lt hbeyond)] at hlt
    exact hbeyond hlt

theorem lowerCase_eq_iff {name text : String} (hn : ∀ c ∈ name.toList, OwnLower c) :
    lowerCase text = name ↔ sameIgnoringCase name text = true := by
  have hname : name.toList.map Char.toLower = name.toList :=
    (List.map_congr_left fun c hc => (hn c hc).toLower).trans (List.map_id _)
  rw [sameIgnoringCase, beq_iff_eq, hname, eq_comm (a := name.toList),
    ← flatMap_lowerChar_eq_iff hn, lowerCase]
  exact ⟨fun h => by rw [← h, String.toList_ofList], fun h => by rw [h, String.ofList_toList]⟩

namespace Settings

/-- No text that is not ASCII has a level name as its lower case. -/
theorem lowerCase_eq_level_iff {l text : String} (hl : l ∈ Constants.logLevels) :
    lowerCase text = l ↔ sameIgnoringCase l text = true := by
  have hletters : ∀ l ∈ Constants.logLevels, (l.toList.all fun c => OwnLower c) = true := by decide
  exact lowerCase_eq_iff (by simpa using hletters l hl)

theorem judgeLevel_eq_some_iff {level : Option String} {l : String} :
    (judgeLevel level).value = some l ↔
      l ∈ Constants.logLevels ∧ ∃ text, level = some text ∧ sameIgnoringCase l text = true := by
  cases level with
  | none => simp [judgeLevel]
  | some text =>
    rw [judgeLevel]
    constructor
    · split
      · rename_i hmem
        rintro ⟨⟩
        have hl : lowerCase text ∈ Constants.logLevels := List.contains_iff_mem.1 hmem
        exact ⟨hl, text, rfl, (lowerCase_eq_level_iff hl).1 rfl⟩
      · rintro ⟨⟩
    · rintro ⟨hl, _, ⟨⟩, hspelled⟩
      obtain rfl := (lowerCase_eq_level_iff hl).2 hspelled
      rw [if_pos (List.contains_iff_mem.2 hl)]

theorem judgeLevel_warnings (text : String) :
    (judgeLevel (some text)).warnings =
      if (judgeLevel (some text)).value = none then [unknownLevel text] else [] := by
  rw [judgeLevel]
  split <;> rfl

end Settings
end InstallLocator
