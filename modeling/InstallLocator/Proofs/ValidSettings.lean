import InstallLocator.Proofs.Descent
import InstallLocator.Proofs.Offers
import InstallLocator.Proofs.PathNames
import InstallLocator.Settings.Load

/-!
# Settings read from a file are valid

Whatever a settings file holds, the settings that come of it are within their
bounds. So no depth is ever cut short on the way to a walk, and overrides and
search roots from a file only ever offer absolute paths.
-/

set_option autoImplicit false

namespace InstallLocator

namespace Settings

/-- What every file guarantees of its settings. -/
structure Valid (s : Settings) : Prop where
  maxDepth_le : s.maxDepth ≤ 8
  roots_length : s.searchRoots.length ≤ 32
  root : ∀ p ∈ s.searchRoots, p.isAbsolute = true ∧ ∃ text, p = Path.ofText text ∧ Trimmed text
  publishers_ne_nil : s.publishers ≠ []
  publisher : ∀ name ∈ s.publishers, name ≠ "" ∧ Trimmed name
  override : ∀ r p, s.overrides.get r = some p → p.isAbsolute = true
  level : ∀ l ∈ s.logLevel, l ∈ ["error", "warn", "info", "debug", "trace"]

theorem valid_default : default.Valid where
  maxDepth_le := by decide
  roots_length := by decide
  root p hp := by cases hp
  publishers_ne_nil := by decide
  publisher := by decide
  override r p hp := by simp [default] at hp
  level l hl := by cases hl

theorem judgeMaxDepth_le (depth : Option Nat) : (judgeMaxDepth depth).value ≤ 8 := by
  cases depth with
  | none => decide
  | some depth =>
    rw [judgeMaxDepth]
    split
    · assumption
    · exact valid_default.maxDepth_le

theorem judgeRoots_length (room : Nat) (roots : List String) :
    (judgeRoots room roots).value.length ≤ room := by
  fun_induction judgeRoots room roots with
  | case1 => exact Nat.zero_le _
  | case2 room root rest text hempty later ih => exact ih
  | case3 room root rest text path hempty hrelative later ih => exact ih
  | case4 root rest text path hempty habsolute => exact Nat.le_refl _
  | case5 root rest text path hempty habsolute room later ih => exact Nat.succ_le_succ ih

theorem judgeRoots_mem {room : Nat} {roots : List String} {p : Path}
    (hp : p ∈ (judgeRoots room roots).value) :
    p.isAbsolute = true ∧ ∃ text, p = Path.ofText text ∧ Trimmed text := by
  fun_induction judgeRoots room roots with
  | case1 => cases hp
  | case2 room root rest text hempty later ih => exact ih hp
  | case3 room root rest text path hempty hrelative later ih => exact ih hp
  | case4 root rest text path hempty habsolute => cases hp
  | case5 root rest text path hempty habsolute room later ih =>
    rcases List.mem_cons.1 hp with rfl | hlater
    · exact ⟨by simpa using habsolute, text, rfl, trim_trimmed root⟩
    · exact ih hlater

theorem judgePublishers_ne_nil (names : Option (List String)) :
    (judgePublishers names).value ≠ [] := by
  cases names with
  | none => exact valid_default.publishers_ne_nil
  | some names =>
    rw [judgePublishers]
    split
    · exact valid_default.publishers_ne_nil
    · assumption

theorem judgePublishers_mem {names : Option (List String)} {name : String}
    (hn : name ∈ (judgePublishers names).value) : name ≠ "" ∧ Trimmed name := by
  cases names with
  | none => exact valid_default.publisher name hn
  | some names =>
    rw [judgePublishers] at hn
    split at hn
    · exact valid_default.publisher name hn
    · obtain ⟨hmem, hne⟩ := List.mem_filter.1 hn
      obtain ⟨text, -, rfl⟩ := List.mem_map.1 hmem
      exact ⟨by simpa using hne, trim_trimmed text⟩

def AllAbsolute (m : RegionMap Path) : Prop := ∀ r p, m.get r = some p → p.isAbsolute = true

theorem judgeOverride_absolute {before : RegionMap Path} (hb : AllAbsolute before)
    (entry : String × String) : AllAbsolute (judgeOverride before entry).value := by
  unfold judgeOverride
  split
  · exact hb
  · dsimp only
    split
    · rename_i region _ ha
      intro r p hp
      rw [RegionMap.get_set] at hp
      split at hp
      · exact Option.some.inj hp ▸ ha
      · exact hb r p hp
    · exact hb

theorem judgeOverridesFrom_absolute {before : RegionMap Path} (hb : AllAbsolute before)
    (entries : List (String × String)) :
    AllAbsolute (judgeOverridesFrom before entries).value := by
  induction entries generalizing before with
  | nil => exact hb
  | cons entry rest ih =>
    simp only [judgeOverridesFrom]
    exact ih (judgeOverride_absolute hb entry)

theorem judgeOverrides_absolute (entries : List (String × String)) :
    AllAbsolute (judgeOverrides entries).value := by
  refine judgeOverridesFrom_absolute (fun r p hp => ?_) _
  rw [RegionMap.get_empty] at hp
  cases hp

theorem judgeLevel_mem {level : Option String} {l : String} (hl : l ∈ (judgeLevel level).value) :
    l ∈ ["error", "warn", "info", "debug", "trace"] := by
  cases level with
  | none => cases hl
  | some level =>
    rw [judgeLevel] at hl
    split at hl
    · rename_i hc
      exact Option.mem_some.1 hl ▸ List.contains_iff_mem.1 hc
    · exact absurd hl (Option.not_mem_none l)

theorem valid_ofRaw (raw : RawSettings) : (ofRaw raw).1.Valid where
  maxDepth_le := judgeMaxDepth_le raw.maxDepth
  roots_length := judgeRoots_length _ _
  root _ hp := judgeRoots_mem hp
  publishers_ne_nil := judgePublishers_ne_nil raw.publishers
  publisher _ hn := judgePublishers_mem hn
  override := judgeOverrides_absolute raw.overrides
  level _ hl := judgeLevel_mem hl

theorem valid_parse (text : String) (origin : Path) : (parse text origin).1.Valid := by
  unfold parse
  split
  · exact valid_ofRaw _
  · exact valid_default

theorem valid_load (h : Host) (p : Path) (explicit : Bool) : (load h p explicit).1.Valid := by
  unfold load
  split
  · exact valid_default
  · split
    · exact valid_default
    · exact valid_parse _ p

end Settings

namespace Search

variable {h : Host} {depth : Nat} {p q : Path} {e : Entry}

theorem isAbsolute_of_mem_below (hp : p.isAbsolute = true) (hq : .ok (q, e) ∈ below h depth p) :
    q.isAbsolute = true := by
  induction depth generalizing p with
  | zero => cases hq
  | succ depth ih =>
    rw [below] at hq
    split at hq
    · cases List.mem_singleton.1 hq
    · obtain ⟨x, -, hx⟩ := List.mem_flatMap.1 hq
      have hchild : (p.child x.1).isAbsolute = true :=
        Path.isAbsolute_join_of_isAbsolute hp ⟨x.1⟩
      rcases List.mem_cons.1 hx with hself | hbelow
      · cases hself
        exact hchild
      · split at hbelow
        · exact ih hchild hbelow
        · cases hbelow

theorem isAbsolute_of_mem_walk (hp : p.isAbsolute = true) (hq : .ok (q, e) ∈ walk h depth p) :
    q.isAbsolute = true := by
  rcases walk_cases h p with ⟨cause, herror⟩ | ⟨entry, hends | hbelow⟩
  · rw [herror] at hq
    cases List.mem_singleton.1 hq
  · rw [hends] at hq
    cases List.mem_singleton.1 hq
    exact hp
  · rw [hbelow] at hq
    rcases List.mem_cons.1 hq with hself | hq
    · cases hself
      exact hp
    · exact isAbsolute_of_mem_below hp hq

end Search

namespace Strategy

variable {h : Host} {root : Path} {c : Candidate}

theorem isAbsolute_of_searchRoots {roots : List Path} {maxDepth : Nat}
    (hroots : ∀ p ∈ roots, p.isAbsolute = true)
    (hc : c ∈ (searchRoots roots maxDepth).candidates h) : c.path.isAbsolute = true := by
  rw [candidates_searchRoots] at hc
  obtain ⟨root, hr, hc⟩ := List.mem_flatMap.1 hc
  obtain ⟨p, e, hwalk, -, hparent, -⟩ := mem_rootCandidates_iff.1 hc
  exact Path.isAbsolute_of_parent? (Search.isAbsolute_of_mem_walk (hroots root hr) hwalk) hparent

end Strategy

namespace Settings

theorem Valid.searchRoots_probe {s : Settings} (hs : s.Valid) (h : Host) :
    (Strategy.searchRoots s.searchRoots s.maxDepth).probe h =
      (Logged.gather (s.searchRoots.map (Strategy.rootCandidates h s.maxDepth))).map .ok := by
  have hmin : min s.maxDepth Constants.maxSearchDepth = s.maxDepth := Nat.min_eq_left hs.maxDepth_le
  simp only [Strategy.searchRoots, hmin]

theorem Valid.isAbsolute_of_offered {s : Settings} (hs : s.Valid) {h : Host} {c : Candidate}
    (hc : c ∈ (Strategy.overrides s.overrides.entries).candidates h ∨
      c ∈ (Strategy.searchRoots s.searchRoots s.maxDepth).candidates h) :
    c.path.isAbsolute = true := by
  rcases hc with ho | hr
  · rw [Strategy.candidates_overrides] at ho
    obtain ⟨x, hx, rfl⟩ := List.mem_map.1 ho
    exact hs.override x.1 x.2 (RegionMap.mem_entries.1 hx)
  · exact Strategy.isAbsolute_of_searchRoots (fun p hp => (hs.root p hp).1) hr

/-- Settings that come of a text or of a file. -/
inductive Read : Settings → Prop
  | parsed (text : String) (origin : Path) : Read (parse text origin).1
  | loaded (h : Host) (p : Path) (explicit : Bool) : Read (load h p explicit).1

/-- Settings that were read are valid, walks go as deep as they say, and neither
their overrides nor their search roots offer a relative path. -/
theorem valid_of_read {s : Settings} (hs : s.Read) :
    s.Valid ∧
      (∀ h, (Strategy.searchRoots s.searchRoots s.maxDepth).probe h =
        (Logged.gather (s.searchRoots.map (Strategy.rootCandidates h s.maxDepth))).map .ok) ∧
      ∀ h c, c ∈ (Strategy.overrides s.overrides.entries).candidates h ∨
        c ∈ (Strategy.searchRoots s.searchRoots s.maxDepth).candidates h →
          c.path.isAbsolute = true := by
  have hv : s.Valid := by
    cases hs with
    | parsed text origin => exact valid_parse text origin
    | loaded h p explicit => exact valid_load h p explicit
  exact ⟨hv, hv.searchRoots_probe, fun _ _ hc => hv.isAbsolute_of_offered hc⟩

/-- A depth out of bounds, and a relative root beside one with blanks around it. -/
theorem valid_of_read_refused :
    let s := (parse "[discovery]\nmax_depth = 99\nsearch_roots = [\" /g \", \"g\"]\n"
      (Path.ofText "/c")).1
    (s.maxDepth = 3 ∧ s.searchRoots = [Path.ofText "/g"]) ∧ s.Valid :=
  ⟨by decide +kernel, (valid_of_read (.parsed _ _)).1⟩

end Settings
end InstallLocator
