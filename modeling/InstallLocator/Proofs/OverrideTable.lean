import InstallLocator.Proofs.Listing
import InstallLocator.Settings.Load

/-!
# The table of overrides

An entry whose key names no region, or whose value is no absolute path, is
refused with a warning of its own and changes nothing else. Of the other
entries the one with the greatest key stands for its region. Keys that differ
in case or in white space may name the same region: all such entries but the
last are lost, and no warning says so.
-/

set_option autoImplicit false

namespace InstallLocator

namespace Settings

def overridePath (entry : String × String) : Path := .ofText (trim entry.2)

/-- The key names the region and the value is an absolute path. -/
def StandsFor (s : Region) (entry : String × String) : Prop :=
  Region.parse entry.1 = .ok s ∧ (overridePath entry).isAbsolute = true

instance (s : Region) (entry : String × String) : Decidable (StandsFor s entry) :=
  decidable_of_iff (Region.ofCode? entry.1 = some s ∧ (overridePath entry).isAbsolute = true)
    (and_congr_left' Region.parse_eq_ok_iff.symm)

/-- The warning for an entry that stands for no region. -/
def refusal? (entry : String × String) : Option String :=
  match Region.parse entry.1 with
  | .error u => some (unknownOverride u)
  | .ok _ =>
    if (overridePath entry).isAbsolute then none else some (relativeOverride entry.1 entry.2)

theorem refusal?_eq_none_iff {entry : String × String} :
    refusal? entry = none ↔ ∃ s, StandsFor s entry := by
  unfold refusal? StandsFor
  cases Region.parse entry.1 <;> simp

theorem judgeOverride_get (before : RegionMap Path) (entry : String × String) (s : Region) :
    (judgeOverride before entry).value.get s =
      if StandsFor s entry then some (overridePath entry) else before.get s := by
  cases hk : Region.parse entry.1 with
  | error u =>
    have hs : ¬StandsFor s entry := fun hs => by simp [StandsFor, hk] at hs
    simp [judgeOverride, hk, hs]
  | ok r =>
    by_cases ha : (overridePath entry).isAbsolute = true
    · have hs : StandsFor s entry ↔ s = r := by simp [StandsFor, hk, ha, eq_comm]
      simp only [judgeOverride, hk, hs]
      rw [if_pos (show (Path.ofText (trim entry.2)).isAbsolute = true from ha)]
      exact RegionMap.get_set before r s _
    · have hs : ¬StandsFor s entry := fun hs => ha hs.2
      simp only [judgeOverride, hk, if_neg hs]
      rw [if_neg (show ¬(Path.ofText (trim entry.2)).isAbsolute = true from ha)]

theorem judgeOverride_warnings (before : RegionMap Path) (entry : String × String) :
    (judgeOverride before entry).warnings = (refusal? entry).toList := by
  unfold judgeOverride refusal? overridePath
  cases Region.parse entry.1 with
  | error u => rfl
  | ok r => by_cases ha : (Path.ofText (trim entry.2)).isAbsolute = true <;> simp [ha]

theorem judgeOverridesFrom_get (before : RegionMap Path) (entries : List (String × String))
    (s : Region) :
    (judgeOverridesFrom before entries).value.get s =
      ((entries.reverse.find? fun e => StandsFor s e).map overridePath).or (before.get s) := by
  induction entries generalizing before with
  | nil => rfl
  | cons e rest ih =>
    simp only [judgeOverridesFrom]
    -- The first entry comes last in reverse, so any later one goes before it.
    rw [ih, judgeOverride_get, List.reverse_cons, List.find?_append]
    by_cases he : StandsFor s e
    · simp [he, Option.or_some]
    · simp [he]

theorem judgeOverridesFrom_warnings (before : RegionMap Path)
    (entries : List (String × String)) :
    (judgeOverridesFrom before entries).warnings = entries.filterMap refusal? := by
  induction entries generalizing before with
  | nil => rfl
  | cons e rest ih =>
    simp only [judgeOverridesFrom]
    rw [ih, judgeOverride_warnings, List.filterMap_cons]
    cases refusal? e <;> rfl

theorem textLe_refl (a : String) : textLe a a = true := Name.le_refl _

theorem textLe_trans {a b c : String} (hab : textLe a b = true) (hbc : textLe b c = true) :
    textLe a c = true :=
  Name.le_trans _ _ _ hab hbc

theorem textLe_total (a b : String) : (textLe a b || textLe b a) = true := Name.le_total _ _

/-- The entries in byte order of their keys. -/
def inKeyOrder (entries : List (String × String)) : List (String × String) :=
  entries.mergeSort fun a b => textLe a.1 b.1

theorem mem_inKeyOrder {entries : List (String × String)} {e : String × String} :
    e ∈ inKeyOrder entries ↔ e ∈ entries :=
  List.mem_mergeSort

theorem inKeyOrder_sorted (entries : List (String × String)) :
    (inKeyOrder entries).Pairwise fun a b => textLe a.1 b.1 = true := by
  have htrans : ∀ a b c : String × String, textLe a.1 b.1 = true → textLe b.1 c.1 = true →
      textLe a.1 c.1 = true :=
    fun _ _ _ => textLe_trans
  have htotal : ∀ a b : String × String, (textLe a.1 b.1 || textLe b.1 a.1) = true :=
    fun a b => textLe_total a.1 b.1
  exact List.pairwise_mergeSort htrans htotal entries

theorem inKeyOrder_of_sorted {entries : List (String × String)}
    (hs : entries.Pairwise fun a b => textLe a.1 b.1 = true) : inKeyOrder entries = entries :=
  List.mergeSort_of_pairwise hs

/-- No entry of the table that stands for the region has a greater key. -/
structure LastFor (s : Region) (entries : List (String × String)) (last : String × String) :
    Prop where
  mem : last ∈ entries
  standsFor : StandsFor s last
  greatest : ∀ e ∈ entries, StandsFor s e → textLe e.1 last.1 = true

theorem lastFor_of_find? {s : Region} {entries : List (String × String)}
    {last : String × String}
    (hl : (inKeyOrder entries).reverse.find? (fun e => StandsFor s e) = some last) :
    LastFor s entries last := by
  obtain ⟨hs, later, earlier, hsplit, hlater⟩ := List.find?_eq_some_iff_append.1 hl
  have hsorted := List.pairwise_reverse.2 (inKeyOrder_sorted entries)
  have hmem : ∀ e, e ∈ entries ↔ e ∈ later ++ last :: earlier := by
    intro e
    rw [← mem_inKeyOrder, ← List.mem_reverse, hsplit]
  rw [hsplit] at hsorted
  refine ⟨(hmem last).2 (by simp), by simpa using hs, fun e he hse => ?_⟩
  rcases List.mem_append.1 ((hmem e).1 he) with he | he
  · exact absurd hse (by simpa using hlater e he)
  rcases List.mem_cons.1 he with rfl | he
  · exact textLe_refl _
  · exact List.rel_of_pairwise_cons (List.pairwise_append.1 hsorted).2.1 he

theorem judgeOverrides_get {s : Region} {entries : List (String × String)}
    {e : String × String} (he : e ∈ entries) (hs : StandsFor s e) :
    ∃ last, LastFor s entries last ∧
      (judgeOverrides entries).value.get s = some (overridePath last) := by
  have hget := judgeOverridesFrom_get .empty (inKeyOrder entries) s
  cases hl : (inKeyOrder entries).reverse.find? fun e => StandsFor s e with
  | some last =>
    rw [hl] at hget
    exact ⟨last, lastFor_of_find? hl, hget⟩
  | none =>
    have hno := List.find?_eq_none.1 hl e (List.mem_reverse.2 (mem_inKeyOrder.2 he))
    exact absurd hs (by simpa using hno)

theorem judgeOverrides_get_eq_none {s : Region} {entries : List (String × String)}
    (h : ∀ e ∈ entries, ¬StandsFor s e) : (judgeOverrides entries).value.get s = none := by
  have hget := judgeOverridesFrom_get .empty (inKeyOrder entries) s
  have hno : (inKeyOrder entries).reverse.find? (fun e => StandsFor s e) = none := by
    apply List.find?_eq_none.2
    intro e he
    simpa using h e (mem_inKeyOrder.1 (List.mem_reverse.1 he))
  rw [hno, RegionMap.get_empty] at hget
  exact hget

theorem judgeOverrides_warnings (entries : List (String × String)) :
    (judgeOverrides entries).warnings = (inKeyOrder entries).filterMap refusal? :=
  judgeOverridesFrom_warnings .empty _

theorem parse_of_wellShaped {text : String} {raw : RawSettings}
    (hraw : RawSettings.parse text = .ok raw) (origin : Path) : parse text origin = ofRaw raw := by
  simp only [parse, hraw]

/-- Every entry of the overrides is refused with a warning that names its key,
or its region has the path of the entry with the greatest key among those that
stand for it. Refused entries give one warning each, in the order of their
keys, and there is no other warning about the overrides: an entry that stands
for its region and is not the last one is lost without any. -/
theorem parse_overrides_last_stays {text : String} {raw : RawSettings} {key value : String}
    (origin : Path) (hraw : RawSettings.parse text = .ok raw)
    (he : (key, value) ∈ raw.overrides) :
    (parse text origin).2 =
        (judgeMaxDepth raw.maxDepth).warnings ++ (judgeSearchRoots raw.searchRoots).warnings ++
          (judgePublishers raw.publishers).warnings ++
          (inKeyOrder raw.overrides).filterMap refusal? ++ (judgeLevel raw.level).warnings ∧
      (Region.parse key = .error ⟨key⟩ ∧ unknownOverride ⟨key⟩ ∈ (parse text origin).2 ∨
        ∃ s, Region.parse key = .ok s ∧
          ((overridePath (key, value)).isAbsolute = false ∧
              relativeOverride key value ∈ (parse text origin).2 ∨
            (overridePath (key, value)).isAbsolute = true ∧ refusal? (key, value) = none ∧
              ∃ last, LastFor s raw.overrides last ∧
                (parse text origin).1.overrides.get s = some (overridePath last))) := by
  rw [parse_of_wellShaped hraw]
  have hwarnings : (ofRaw raw).2 =
      (judgeMaxDepth raw.maxDepth).warnings ++ (judgeSearchRoots raw.searchRoots).warnings ++
        (judgePublishers raw.publishers).warnings ++
        (inKeyOrder raw.overrides).filterMap refusal? ++ (judgeLevel raw.level).warnings := by
    rw [← judgeOverrides_warnings]
    rfl
  have hwarn : ∀ w, refusal? (key, value) = some w → w ∈ (ofRaw raw).2 := by
    intro w hw
    rw [hwarnings]
    have hmem := List.mem_filterMap.2 ⟨_, mem_inKeyOrder.2 he, hw⟩
    exact List.mem_append_left _ (List.mem_append_right _ hmem)
  refine ⟨hwarnings, ?_⟩
  cases hk : Region.parse key with
  | error u =>
    obtain rfl := (Region.parse_eq_error_iff.1 hk).2
    exact Or.inl ⟨rfl, hwarn _ (by simp [refusal?, hk])⟩
  | ok s =>
    refine Or.inr ⟨s, rfl, ?_⟩
    by_cases ha : (overridePath (key, value)).isAbsolute = true
    · have hs : StandsFor s (key, value) := ⟨hk, ha⟩
      exact Or.inr ⟨ha, refusal?_eq_none_iff.2 ⟨s, hs⟩, judgeOverrides_get he hs⟩
    · have ha : (overridePath (key, value)).isAbsolute = false := Bool.eq_false_iff.2 ha
      exact Or.inl ⟨ha, hwarn _ (by simp [refusal?, hk, ha])⟩

/-- Two spellings of one region: the entry of the smaller key is not the last one. -/
theorem parse_overrides_last_stays_twice :
    ∃ last, LastFor .worldwide [("ww", "/b"), ("WW", "/a")] last ∧
      (parse "[overrides]\nww = \"/b\"\nWW = \"/a\"\n" (Path.ofText "/c")).1.overrides.get
        .worldwide = some (overridePath last) := by
  have hraw : RawSettings.parse "[overrides]\nww = \"/b\"\nWW = \"/a\"\n" =
      .ok { RawSettings.empty with overrides := [("ww", "/b"), ("WW", "/a")] } := by
    with_unfolding_all rfl
  have hk : Region.parse "WW" = .ok .worldwide := by with_unfolding_all rfl
  have ha : (overridePath ("WW", "/a")).isAbsolute = true := by decide
  have he : ("WW", "/a") ∈ [("ww", "/b"), ("WW", "/a")] := by decide
  obtain ⟨-, hrefused | ⟨s, hs, hrest⟩⟩ := parse_overrides_last_stays (Path.ofText "/c") hraw he
  · rw [hk] at hrefused
    cases hrefused.1
  · obtain rfl : s = .worldwide := by
      rw [hk] at hs
      cases hs
      rfl
    rcases hrest with ⟨hr, -⟩ | ⟨-, -, hlast⟩
    · rw [ha] at hr
      cases hr
    · exact hlast

/-- An entry that names its region and holds an absolute path: its region has
another path, and there is no warning at all. -/
theorem parse_overrides_lost_silently :
    RawSettings.parse "[overrides]\nWW = \"/a\"\nww = \"/b\"\n" =
        .ok { RawSettings.empty with overrides := [("WW", "/a"), ("ww", "/b")] } ∧
      Region.parse "WW" = .ok .worldwide ∧
      (overridePath ("WW", "/a")).isAbsolute = true ∧
      (parse "[overrides]\nWW = \"/a\"\nww = \"/b\"\n" (Path.ofText "/c")).1.overrides.get
        .worldwide = some (.ofText "/b") ∧
      overridePath ("WW", "/a") ≠ .ofText "/b" ∧
      (parse "[overrides]\nWW = \"/a\"\nww = \"/b\"\n" (Path.ofText "/c")).2 = [] := by
  have hraw : RawSettings.parse "[overrides]\nWW = \"/a\"\nww = \"/b\"\n" =
      .ok { RawSettings.empty with overrides := [("WW", "/a"), ("ww", "/b")] } := by
    with_unfolding_all rfl
  have hk : Region.parse "WW" = .ok .worldwide := by with_unfolding_all rfl
  have horder : inKeyOrder [("WW", "/a"), ("ww", "/b")] = [("WW", "/a"), ("ww", "/b")] :=
    inKeyOrder_of_sorted (by decide)
  have hjudged : judgeOverrides [("WW", "/a"), ("ww", "/b")] =
      ⟨⟨some (.ofText "/b"), none, none⟩, []⟩ := by
    rw [judgeOverrides, ← inKeyOrder, horder]
    with_unfolding_all rfl
  refine ⟨hraw, hk, by decide, ?_, by decide, ?_⟩
  · rw [parse_of_wellShaped hraw, ofRaw, hjudged]
    rfl
  · rw [parse_of_wellShaped hraw, ofRaw, hjudged]
    rfl

end Settings
end InstallLocator
