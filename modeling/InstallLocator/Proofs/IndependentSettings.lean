import InstallLocator.Proofs.LevelNames
import InstallLocator.Proofs.OverrideOrder
import InstallLocator.Proofs.RootLimit

/-!
# Settings do not depend on each other

A warning tells by its first words which setting it is about. Two files that
say the same about one setting give it the same value and the same warnings,
whatever they say about the others.
-/

set_option autoImplicit false

namespace InstallLocator

inductive Setting
  | registry
  | steam
  | defaultPaths
  | maxDepth
  | searchRoots
  | publishers
  | overrides
  | level
deriving DecidableEq

namespace Setting

/-- Both files say the same about the setting. The overrides are a table, and a table
has no order. -/
def SameWritten : Setting → RawSettings → RawSettings → Prop
  | registry, raw, other => raw.registry = other.registry
  | steam, raw, other => raw.steam = other.steam
  | defaultPaths, raw, other => raw.defaultPaths = other.defaultPaths
  | maxDepth, raw, other => raw.maxDepth = other.maxDepth
  | searchRoots, raw, other => raw.searchRoots = other.searchRoots
  | publishers, raw, other => raw.publishers = other.publishers
  | overrides, raw, other => raw.overrides.Perm other.overrides
  | level, raw, other => raw.level = other.level

def SameValue : Setting → Settings → Settings → Prop
  | registry, s, t => s.useRegistry = t.useRegistry
  | steam, s, t => s.useSteam = t.useSteam
  | defaultPaths, s, t => s.useDefaultPaths = t.useDefaultPaths
  | maxDepth, s, t => s.maxDepth = t.maxDepth
  | searchRoots, s, t => s.searchRoots = t.searchRoots
  | publishers, s, t => s.publishers = t.publishers
  | overrides, s, t => s.overrides = t.overrides
  | level, s, t => s.logLevel = t.logLevel

/-- How a warning about the setting begins. Nothing is wrong with a switch. -/
def opening? : Setting → Option String
  | maxDepth => some "discovery.max_depth = "
  | searchRoots => some "[discovery] search"
  | publishers => some "[discovery] publishers "
  | overrides => some "[overrides] "
  | level => some "[logging] level "
  | registry | steam | defaultPaths => none

def concerns (k : Setting) (w : String) : Bool :=
  k.opening?.any fun o => o.toList.isPrefixOf w.toList

def warningsIn (k : Setting) (ws : List String) : List String :=
  ws.filter k.concerns

/-- What judging the setting by itself has to say. -/
def judged : Setting → RawSettings → List String
  | maxDepth, raw => (Settings.judgeMaxDepth raw.maxDepth).warnings
  | searchRoots, raw => (Settings.judgeSearchRoots raw.searchRoots).warnings
  | publishers, raw => (Settings.judgePublishers raw.publishers).warnings
  | overrides, raw => (Settings.judgeOverrides raw.overrides).warnings
  | level, raw => (Settings.judgeLevel raw.level).warnings
  | registry, _ | steam, _ | defaultPaths, _ => []

def warned : List Setting := [maxDepth, searchRoots, publishers, overrides, level]

variable {k l : Setting} {w : String} {raw other : RawSettings}

theorem concerns_iff :
    k.concerns w = true ↔ ∃ o, k.opening? = some o ∧ o.toList <+: w.toList := by
  unfold concerns
  cases k.opening? <;> simp

theorem concerns_append {v : String} (h : k.concerns w = true) : k.concerns (w ++ v) = true := by
  obtain ⟨o, ho, hw⟩ := concerns_iff.1 h
  refine concerns_iff.2 ⟨o, ho, ?_⟩
  rw [String.toList_append]
  exact hw.trans (List.prefix_append _ _)

theorem opening_apart {o p : String} (hk : k.opening? = some o) (hl : l.opening? = some p)
    (hop : o.toList <+: p.toList) : k = l := by
  rw [← List.isPrefixOf_iff_prefix] at hop
  cases k <;> cases hk <;> cases l <;> cases hl <;> first | rfl | exact absurd hop (by decide)

theorem eq_of_concerns (hk : k.concerns w = true) (hl : l.concerns w = true) : k = l := by
  obtain ⟨o, ho, how⟩ := concerns_iff.1 hk
  obtain ⟨p, hp, hpw⟩ := concerns_iff.1 hl
  -- Of two beginnings of one warning, the shorter is a beginning of the longer.
  rcases Nat.le_total o.toList.length p.toList.length with hle | hle
  · exact opening_apart ho hp (List.prefix_of_prefix_length_le how hpw hle)
  · exact (opening_apart hp ho (List.prefix_of_prefix_length_le hpw how hle)).symm

theorem concerns_rootRefusal {entry : String} (h : Settings.rootRefusal? entry = some w) :
    searchRoots.concerns w = true := by
  rw [Settings.rootRefusal?] at h
  split at h
  · cases h
  · cases h
    split
    · decide
    · exact concerns_append (concerns_append (by decide))

theorem concerns_refusal {entry : String × String} (h : Settings.refusal? entry = some w) :
    overrides.concerns w = true := by
  rw [Settings.refusal?] at h
  split at h
  · cases h
    exact concerns_append (concerns_append (by decide))
  · split at h
    · cases h
    · cases h
      exact concerns_append (concerns_append (concerns_append (concerns_append (by decide))))

theorem concerns_of_mem_judged (h : w ∈ k.judged raw) : k.concerns w = true := by
  cases k with
  | registry | steam | defaultPaths => cases h
  | maxDepth =>
    simp only [judged, Settings.judgeMaxDepth] at h
    split at h
    · cases h
    · split at h
      · cases h
      · cases List.mem_singleton.1 h
        exact concerns_append (concerns_append (concerns_append (concerns_append (by decide))))
  | searchRoots =>
    obtain ⟨heard, -, -, hwarnings⟩ :=
      Settings.judgeRoots_limitKept Constants.maxSearchRoots (raw.searchRoots.getD [])
    rw [judged, Settings.judgeSearchRoots, hwarnings, List.mem_append] at h
    rcases h with h | h
    · obtain ⟨entry, -, he⟩ := List.mem_filterMap.1 h
      exact concerns_rootRefusal he
    · split at h
      · cases List.mem_singleton.1 h
        decide
      · cases h
  | publishers =>
    simp only [judged, Settings.judgePublishers] at h
    split at h
    · cases h
    · split at h
      · cases List.mem_singleton.1 h
        decide
      · cases h
  | overrides =>
    rw [judged, Settings.judgeOverrides_warnings] at h
    obtain ⟨entry, -, he⟩ := List.mem_filterMap.1 h
    exact concerns_refusal he
  | level =>
    simp only [judged, Settings.judgeLevel] at h
    split at h
    · cases h
    · split at h
      · cases h
      · cases List.mem_singleton.1 h
        unfold Settings.unknownLevel
        exact concerns_append (concerns_append (concerns_append (concerns_append
          (concerns_append (concerns_append (by decide))))))

theorem warningsIn_judged : k.warningsIn (l.judged raw) = if l = k then l.judged raw else [] := by
  split
  · rename_i hlk
    subst hlk
    exact List.filter_eq_self.2 fun w hw => concerns_of_mem_judged hw
  · rename_i hlk
    exact List.filter_eq_nil_iff.2 fun w hw hk =>
      hlk (eq_of_concerns (concerns_of_mem_judged hw) hk)

theorem ofRaw_warnings (raw : RawSettings) :
    (Settings.ofRaw raw).2 = warned.flatMap fun k => k.judged raw := by
  simp only [warned, List.flatMap_cons, List.flatMap_nil, List.append_nil, ← List.append_assoc]
  rfl

theorem warningsIn_ofRaw (k : Setting) (raw : RawSettings) :
    k.warningsIn (Settings.ofRaw raw).2 = k.judged raw := by
  have hone : k.warningsIn (Settings.ofRaw raw).2 =
      warned.flatMap fun l => if l = k then l.judged raw else [] := by
    rw [ofRaw_warnings, warningsIn, List.filter_flatMap]
    exact List.flatMap_congr fun l _ => warningsIn_judged
  rw [hone]
  cases k <;> simp [warned, judged]

theorem judgeOverrides_of_perm {entries others : List (String × String)}
    (hn : (entries.map Prod.fst).Nodup) (hp : entries.Perm others) :
    Settings.judgeOverrides entries = Settings.judgeOverrides others :=
  congrArg (Settings.judgeOverridesFrom .empty) (Settings.inKeyOrder_eq_of_perm hn hp)

theorem judged_agree {α : Type} {a b : Settings.Judged α} (h : a = b) :
    a.value = b.value ∧ a.warnings = b.warnings :=
  ⟨congrArg _ h, congrArg _ h⟩

theorem SameWritten.agree (hn : (raw.overrides.map Prod.fst).Nodup)
    (h : k.SameWritten raw other) :
    k.SameValue (Settings.ofRaw raw).1 (Settings.ofRaw other).1 ∧
      k.judged raw = k.judged other := by
  cases k with
  | registry | steam | defaultPaths => exact ⟨congrArg (fun s : Option Bool => s.getD true) h, rfl⟩
  | maxDepth => exact judged_agree (congrArg Settings.judgeMaxDepth h)
  | searchRoots => exact judged_agree (congrArg Settings.judgeSearchRoots h)
  | publishers => exact judged_agree (congrArg Settings.judgePublishers h)
  | overrides => exact judged_agree (judgeOverrides_of_perm hn h)
  | level => exact judged_agree (congrArg Settings.judgeLevel h)

end Setting

namespace Settings

def keptPublishers (names : Option (List String)) : List String :=
  ((names.getD []).map trim).filter (· ≠ "")

theorem judgePublishers_value (names : Option (List String)) :
    (judgePublishers names).value =
      if keptPublishers names = [] then Constants.publishers else keptPublishers names := by
  cases names with
  | none => rfl
  | some names =>
    rw [judgePublishers]
    split
    · rename_i hnone
      exact (if_pos hnone).symm
    · rename_i hsome
      exact (if_neg hsome).symm

theorem judgePublishers_warnings (names : Option (List String)) :
    (judgePublishers names).warnings =
      if names ≠ none ∧ keptPublishers names = [] then [noPublishers] else [] := by
  cases names with
  | none => rfl
  | some names =>
    rw [judgePublishers]
    split
    · rename_i hnone
      exact (if_pos ⟨Option.some_ne_none _, hnone⟩).symm
    · rename_i hsome
      exact (if_neg fun h => hsome h.2).symm

/-- Files that say the same about a setting get the same value and the same warnings
for it. All warnings are those about the depth, the search roots, the publishers,
the overrides and the level, in this order. Publishers are the names given, without
white space around them and without blank ones; if none is left they are the
built-in ones, with a warning if the key is there. A level is one of five names in
any case of its ASCII letters, and no other text has one of these names as its
lower case. -/
theorem parse_settings_independent {text : String} {raw : RawSettings} (origin : Path)
    (hraw : RawSettings.parse text = .ok raw) :
    (∀ (more : String) (other : RawSettings) (there : Path),
        RawSettings.parse more = .ok other → ∀ k : Setting, k.SameWritten raw other →
          k.SameValue (parse text origin).1 (parse more there).1 ∧
            k.warningsIn (parse text origin).2 = k.warningsIn (parse more there).2) ∧
      (parse text origin).2 =
        Setting.maxDepth.warningsIn (parse text origin).2 ++
          Setting.searchRoots.warningsIn (parse text origin).2 ++
          Setting.publishers.warningsIn (parse text origin).2 ++
          Setting.overrides.warningsIn (parse text origin).2 ++
          Setting.level.warningsIn (parse text origin).2 ∧
      (parse text origin).1.publishers =
        (if keptPublishers raw.publishers = [] then Constants.publishers
          else keptPublishers raw.publishers) ∧
      Setting.publishers.warningsIn (parse text origin).2 =
        (if raw.publishers ≠ none ∧ keptPublishers raw.publishers = [] then [noPublishers]
          else []) ∧
      (∀ l, (parse text origin).1.logLevel = some l ↔ l ∈ Constants.logLevels ∧
        ∃ t, raw.level = some t ∧ sameIgnoringCase l t = true) ∧
      (∀ t, raw.level = some t → Setting.level.warningsIn (parse text origin).2 =
        if (parse text origin).1.logLevel = none then [unknownLevel t] else []) ∧
      ∀ l ∈ Constants.logLevels, ∀ t, lowerCase t = l ↔ sameIgnoringCase l t = true := by
  have hn : (raw.overrides.map Prod.fst).Nodup := by
    obtain ⟨pairs, ht, hp⟩ := RawSettings.parse_eq_ok_iff.1 hraw
    exact RawSettings.overrides_keys_nodup (Toml.parse_keyed ht) hp
  simp only [parse_of_wellShaped hraw, Setting.warningsIn_ofRaw]
  refine ⟨fun more other there hother k hk => ?_, rfl, judgePublishers_value _,
    judgePublishers_warnings _, fun l => judgeLevel_eq_some_iff, fun t ht => ?_,
    fun l hl t => lowerCase_eq_level_iff hl⟩
  · rw [parse_of_wellShaped hother, Setting.warningsIn_ofRaw]
    exact hk.agree hn
  · change (judgeLevel raw.level).warnings = if (judgeLevel raw.level).value = none then _ else _
    rw [ht]
    exact judgeLevel_warnings t

/-- A file without a proper publisher and one that says nothing about publishers have
the same level in common. -/
theorem parse_settings_independent_faulty :
    let text := "[discovery]\npublishers = [' ']\n[logging]\nlevel = 'Debug'\n"
    let more := "[discovery]\nsteam = false\n[logging]\nlevel = 'Debug'\n"
    let found := parse text (.ofText "/a")
    let other := parse more (.ofText "/b")
    found.1.logLevel = other.1.logLevel ∧ found.1.logLevel = some "debug" ∧
      Setting.level.warningsIn found.2 = Setting.level.warningsIn other.2 ∧
      found.1.publishers = Constants.publishers ∧
      Setting.publishers.warningsIn found.2 = [noPublishers] := by
  intro text more found other
  have hraw : RawSettings.parse text = .ok { RawSettings.empty with
      publishers := some [" "], level := some "Debug" } :=
    RawSettings.parse_of_toOption (by decide +kernel)
  have hmore : RawSettings.parse more = .ok { RawSettings.empty with
      steam := some false, level := some "Debug" } :=
    RawSettings.parse_of_toOption (by decide +kernel)
  obtain ⟨hagree, -, hpublishers, hwarned, hlevel, -, -⟩ :=
    parse_settings_independent (.ofText "/a") hraw
  obtain ⟨hvalue, hwarnings⟩ := hagree more _ (.ofText "/b") hmore .level rfl
  exact ⟨hvalue, (hlevel _).2 ⟨by decide, _, rfl, by decide⟩, hwarnings,
    hpublishers.trans (by decide), hwarned.trans (by decide)⟩

end Settings
end InstallLocator
