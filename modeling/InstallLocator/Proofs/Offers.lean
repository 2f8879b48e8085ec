import InstallLocator.Locator.Standard
import InstallLocator.Proofs.FirstUsable

/-!
# What each strategy offers

The candidates of a strategy as a list, without the events on the way, and the
list that a standard chain offers. Strategies that are left out because they
have nothing to look at would have offered nothing.
-/

set_option autoImplicit false

namespace InstallLocator

@[simp] theorem Logged.gather_value {α : Type} (xs : List (Logged (List α))) :
    (gather xs).value = xs.flatMap value :=
  rfl

namespace Strategy

theorem mem_identified_iff {h : Host} {source : String} {directory : Path} {c : Candidate} :
    c ∈ (identified h source directory).value ↔
      (GameInfo.identify h directory).value = .ok c.region ∧ c.path = directory ∧
        c.source = source := by
  unfold identified
  cases hi : (GameInfo.identify h directory).value with
  | error e => simp [hi]
  | ok region =>
    obtain ⟨r, p, s⟩ := c
    simp [hi, eq_comm]

theorem candidates_overrides (h : Host) (paths : List (Region × Path)) :
    (overrides paths).candidates h = paths.map fun x => ⟨x.1, x.2, "override"⟩ :=
  rfl

theorem mem_candidates_registry_iff {source : UninstallSource} {publishers : List String}
    {h : Host} {c : Candidate} :
    c ∈ (registry source publishers).candidates h ↔
      ∃ entries, (source.entries h).value = .ok entries ∧
        ∃ e ∈ entries, c ∈ (registryCandidate h publishers e).value := by
  unfold candidates registry
  cases hs : (source.entries h).value with
  | error e => simp [hs]
  | ok entries => simp [hs, List.flatMap_map]

theorem candidates_registry_absent (h : Host) (publishers : List String) :
    (registry .absent publishers).candidates h = [] :=
  rfl

theorem candidates_defaultPaths (h : Host) (patterns : List String) :
    (defaultPaths patterns).candidates h =
      patterns.flatMap fun pattern => (patternCandidates h pattern).value := by
  simp [candidates, defaultPaths, Logged.map, List.flatMap_map]

theorem candidates_searchRoots (h : Host) (roots : List Path) (maxDepth : Nat) :
    (searchRoots roots maxDepth).candidates h =
      roots.flatMap fun root =>
        (rootCandidates h (min maxDepth Constants.maxSearchDepth) root).value := by
  simp [candidates, searchRoots, Logged.map, List.flatMap_map]

theorem mem_visitCandidate_iff {h : Host} {root : Path} {visit : Search.Visit} {c : Candidate} :
    c ∈ (visitCandidate h root visit).value ↔
      ∃ p e, visit = .ok (p, e) ∧ isGameInfo p e = true ∧ p.parent? = some c.path ∧
        (GameInfo.identify h c.path).value = .ok c.region ∧ c.source = searchRootName := by
  constructor
  · intro hc
    unfold visitCandidate at hc
    split at hc
    · cases hc
    rename_i p e
    split at hc
    · rename_i hgame
      split at hc
      · rename_i directory hparent
        obtain ⟨hid, rfl, hsource⟩ := mem_identified_iff.1 hc
        exact ⟨p, e, rfl, hgame, hparent, hid, hsource⟩
      · cases hc
    · cases hc
  · rintro ⟨p, e, rfl, hgame, hparent, hid, hsource⟩
    simp only [visitCandidate, hgame, if_true, hparent]
    exact mem_identified_iff.2 ⟨hid, rfl, hsource⟩

theorem mem_rootCandidates_iff {h : Host} {depth : Nat} {root : Path} {c : Candidate} :
    c ∈ (rootCandidates h depth root).value ↔
      ∃ p e, .ok (p, e) ∈ Search.walk h (depth + 1) root ∧ isGameInfo p e = true ∧
        p.parent? = some c.path ∧ (GameInfo.identify h c.path).value = .ok c.region ∧
          c.source = searchRootName := by
  rw [rootCandidates, Logged.gather_value, List.flatMap_cons, List.nil_append,
    List.flatMap_map, List.mem_flatMap]
  simp only [mem_visitCandidate_iff]
  constructor
  · rintro ⟨_, hv, p, e, rfl, hc⟩
    exact ⟨p, e, hv, hc⟩
  · rintro ⟨p, e, hv, hc⟩
    exact ⟨_, hv, p, e, rfl, hc⟩

/-- The region of a directory that Steam names, by what its metadata says. -/
def steamRegion? : Except GameInfo.Error Region → Option Region
  | .ok s => some s
  | .error (.unknownId _ _) => none
  | .error _ => some .worldwide

theorem steamRegion?_eq_some_iff {outcome : Except GameInfo.Error Region} {s : Region} :
    steamRegion? outcome = some s ↔ outcome = .ok s ∨
      s = .worldwide ∧ ∃ e, outcome = .error e ∧ ∀ p id, e ≠ .unknownId p id := by
  cases outcome with
  | ok r => simp [steamRegion?]
  | error e => cases e <;> simp [steamRegion?, eq_comm]

theorem steamCandidate_value (h : Host) (directory : Path) :
    (steamCandidate h directory).value =
      (steamRegion? (GameInfo.identify h directory).value).toList.map
        fun s => ⟨s, directory, steamName⟩ := by
  unfold steamCandidate
  cases hi : (GameInfo.identify h directory).value with
  | ok s => simp [hi, steamRegion?]
  | error e => cases e <;> simp [hi, steamRegion?]

theorem candidates_steamFrom (lookup : SteamLookup) (app : Nat) (h : Host) :
    (steamFrom lookup app).candidates h =
      match (lookup h app).value with
      | .ok (some directory) => (steamCandidate h directory).value
      | _ => [] := by
  unfold candidates steamFrom
  cases hl : (lookup h app).value with
  | error e => simp [hl]
  | ok found => cases found <;> simp [hl]

theorem mem_candidates_steamFrom_iff {lookup : SteamLookup} {app : Nat} {h : Host}
    {c : Candidate} :
    c ∈ (steamFrom lookup app).candidates h ↔
      (lookup h app).value = .ok (some c.path) ∧ c.source = steamName ∧
        steamRegion? (GameInfo.identify h c.path).value = some c.region := by
  rw [candidates_steamFrom]
  obtain ⟨r, p, s⟩ := c
  constructor
  · intro hc
    split at hc
    · rename_i directory hl
      rw [steamCandidate_value] at hc
      obtain ⟨region, hr, he⟩ := List.mem_map.1 hc
      cases he
      exact ⟨hl, rfl, Option.mem_toList.1 hr⟩
    · cases hc
  · rintro ⟨hl, rfl, hr⟩
    rw [hl]
    change _ ∈ (steamCandidate h p).value
    rw [steamCandidate_value, hr]
    simp

end Strategy

namespace Survey

theorem offered_append (h : Host) (chain rest : List Strategy) :
    offered h (chain ++ rest) = offered h chain ++ offered h rest :=
  List.flatMap_append

theorem offered_singleton (h : Host) (s : Strategy) : offered h [s] = s.candidates h := by
  simp [offered]

theorem mem_candidates_of_switched {h : Host} {on : Bool} {s : Strategy} {c : Candidate}
    (hc : c ∈ offered h (if on then [s] else [])) : c ∈ s.candidates h := by
  cases on with
  | false => cases hc
  | true => rwa [if_pos rfl, offered_singleton] at hc

end Survey

namespace Settings

theorem offered_overrideStrategies (h : Host) (s : Settings) :
    Survey.offered h s.overrideStrategies =
      s.overrides.entries.map fun x => ⟨x.1, x.2, "override"⟩ := by
  unfold overrideStrategies
  split
  · rename_i he
    rw [List.isEmpty_iff.1 he]
    rfl
  · rw [Survey.offered_singleton, Strategy.candidates_overrides]

theorem offered_registryStrategies_absent (h : Host) (s : Settings) :
    Survey.offered h (s.registryStrategies .absent) = [] := by
  unfold registryStrategies
  split
  · rw [Survey.offered_singleton, Strategy.candidates_registry_absent]
  · rfl

theorem offered_searchRootStrategies (h : Host) (s : Settings) :
    Survey.offered h s.searchRootStrategies =
      s.searchRoots.flatMap fun root =>
        (Strategy.rootCandidates h (min s.maxDepth Constants.maxSearchDepth) root).value := by
  unfold searchRootStrategies
  split
  · rename_i he
    rw [List.isEmpty_iff.1 he]
    rfl
  · rw [Survey.offered_singleton, Strategy.candidates_searchRoots]

/-- What a standard chain offers, strategy by strategy. -/
theorem offered_chain (source : UninstallSource) (lookup : Strategy.SteamLookup) (h : Host)
    (s : Settings) (home : Option Path) :
    Survey.offered h (s.chain source lookup home) =
      Survey.offered h s.overrideStrategies ++
        Survey.offered h (s.registryStrategies source) ++
        Survey.offered h (s.steamStrategies lookup) ++
        Survey.offered h (s.defaultPathStrategies home) ++
        Survey.offered h s.searchRootStrategies := by
  simp only [chain, Survey.offered_append]

theorem mem_offered_chain_iff {source : UninstallSource} {lookup : Strategy.SteamLookup}
    {h : Host} {s : Settings} {home : Option Path} {c : Candidate} :
    c ∈ Survey.offered h (s.chain source lookup home) ↔
      c ∈ Survey.offered h s.overrideStrategies ∨
        c ∈ Survey.offered h (s.registryStrategies source) ∨
        c ∈ Survey.offered h (s.steamStrategies lookup) ∨
        c ∈ Survey.offered h (s.defaultPathStrategies home) ∨
        c ∈ Survey.offered h s.searchRootStrategies := by
  rw [offered_chain]
  simp only [List.mem_append, or_assoc]

end Settings
end InstallLocator
