import InstallLocator.Proofs.Offers
import InstallLocator.Proofs.ShapeWalks
import Mathlib.Data.List.Basic

/-!
# What a survey reads

A survey sees the shape of the tree and the content of some metadata files: the
list of libraries and the manifest that Steam keeps, and the file by which a
directory is identified. Machines on which these are the same have the same
record.
-/

set_option autoImplicit false

namespace InstallLocator

namespace Steam

def librariesFile (steam : Path) : Path := below (apps steam) ["libraryfolders.vdf"]

def manifestFile (app : Nat) (library : Path) : Path :=
  below (apps library) ["appmanifest_" ++ toString app ++ ".acf"]

def library? (h : Host) (steam : Path) (app : Nat) : Option Path :=
  match libraries h steam with
  | .ok found => found.find? (holdsApp h app)
  | .error _ => none

/-- The files that are read to find an app, and to identify its directory. -/
def metadataFiles (h : Host) (app : Nat) : List Path :=
  (installation? h).toList.flatMap fun steam =>
    librariesFile steam :: ((library? h steam app).map (manifestFile app)).toList ++
      ((appDirectory? h steam app).toOption.join.map GameInfo.file).toList

end Steam

namespace Strategy

def visitMetadata? : Search.Visit → Option Path
  | .error _ => none
  | .ok (p, e) => if isGameInfo p e then p.parent?.map GameInfo.file else none

def rootMetadata (h : Host) (depth : Nat) (root : Path) : List Path :=
  (Search.walk h (depth + 1) root).filterMap visitMetadata?

def matchMetadata? (h : Host) : Except Glob.ExpandError Path → Option Path
  | .error _ => none
  | .ok p => if h.isDirectory p then some (GameInfo.file p) else none

def patternMetadata (h : Host) (pattern : String) : List Path :=
  match Glob.Pattern.ofText pattern with
  | .error _ => []
  | .ok parsed => (parsed.expand h Constants.maxPatternMatches).filterMap (matchMetadata? h)

end Strategy

/-- The metadata files that a survey with these settings reads. -/
def Settings.metadataFiles (h : Host) (s : Settings) (home : Option Path) : List Path :=
  (if s.useSteam then Steam.metadataFiles h Constants.steamAppId else []) ++
    (if s.useDefaultPaths then
      (Strategy.homePatterns home).flatMap (Strategy.patternMetadata h) else []) ++
    s.searchRoots.flatMap (Strategy.rootMetadata h (min s.maxDepth Constants.maxSearchDepth))

/-- Both machines answer alike for these files. -/
def Host.SameAt (h g : Host) (files : List Path) : Prop := ∀ p ∈ files, h.stat p = g.stat p

variable {h g : Host}

theorem Host.SameAt.subset {files more : List Path} (hm : h.SameAt g more)
    (hsub : ∀ p ∈ files, p ∈ more) : h.SameAt g files :=
  fun p hp => hm p (hsub p hp)

theorem GameInfo.identify_congr {d : Path} (hd : h.stat (file d) = g.stat (file d)) :
    identify h d = identify g d := by
  have hread : h.read (file d) = g.read (file d) := by rw [Host.read, hd, Host.read]
  simp only [identify, readId, checkFile, hd, hread]

namespace Strategy

theorem identified_congr {source : String} {d : Path}
    (hd : h.stat (GameInfo.file d) = g.stat (GameInfo.file d)) :
    identified h source d = identified g source d := by
  simp only [identified, GameInfo.identify_congr hd]

theorem isGameInfo_shape (p : Path) (e : Entry) : isGameInfo p e.shape = isGameInfo p e := by
  simp only [isGameInfo, Entry.shape_isFile]

theorem visitCandidate_outline (h : Host) (root : Path) (v : Search.Visit) :
    visitCandidate h root v.outline = visitCandidate h root v := by
  cases v with
  | error e => rfl
  | ok x =>
    obtain ⟨p, e⟩ := x
    change visitCandidate h root (.ok (p, e.shape)) = _
    simp only [visitCandidate, isGameInfo_shape]

theorem visitCandidate_congr {root : Path} {v : Search.Visit}
    (hv : h.SameAt g (visitMetadata? v).toList) :
    visitCandidate h root v = visitCandidate g root v := by
  cases v with
  | error e => rfl
  | ok x =>
    obtain ⟨p, e⟩ := x
    simp only [visitCandidate, visitMetadata?] at hv ⊢
    split
    · rename_i hgame
      cases hparent : p.parent? with
      | none => rfl
      | some d => exact identified_congr (hv (GameInfo.file d) (by simp [hgame, hparent]))
    · rfl

theorem rootCandidates_congr (hs : h.SameOutline g) {depth : Nat} {root : Path}
    (hm : h.SameAt g (rootMetadata h depth root)) :
    rootCandidates h depth root = rootCandidates g depth root := by
  have hvisits : (Search.walk h (depth + 1) root).map (visitCandidate h root) =
      (Search.walk h (depth + 1) root).map (visitCandidate g root) := by
    refine List.map_congr_left fun v hv => visitCandidate_congr (hm.subset fun p hp => ?_)
    exact List.mem_filterMap.2 ⟨v, hv, Option.mem_toList.1 hp⟩
  rw [rootCandidates, hvisits,
    map_eq_of_map_eq (visitCandidate_outline g root) (Search.walk_outline hs _ root)]
  rfl

theorem matchCandidate_congr (hs : h.SameOutline g) {pattern : String}
    {found : Except Glob.ExpandError Path} (hm : h.SameAt g (matchMetadata? h found).toList) :
    matchCandidate h pattern found = matchCandidate g pattern found := by
  cases found with
  | error e => rfl
  | ok p =>
    simp only [matchCandidate, matchMetadata?, ← hs.isDirectory] at hm ⊢
    split
    · rename_i hdir
      exact identified_congr (hm _ (by simp [hdir]))
    · rfl

theorem patternCandidates_congr (hs : h.SameOutline g) {pattern : String}
    (hm : h.SameAt g (patternMetadata h pattern)) :
    patternCandidates h pattern = patternCandidates g pattern := by
  unfold patternCandidates
  unfold patternMetadata at hm
  cases hp : Glob.Pattern.ofText pattern with
  | error e => rfl
  | ok parsed =>
    simp only [hp] at hm ⊢
    rw [← Glob.expand_congr hs]
    congr 1
    refine List.map_congr_left fun found hf => matchCandidate_congr hs (hm.subset fun p hp => ?_)
    exact List.mem_filterMap.2 ⟨found, hf, Option.mem_toList.1 hp⟩

end Strategy

namespace Steam

theorem installation?_congr (hs : h.SameOutline g) : installation? h = installation? g := by
  simp only [installation?, hs.environment, hs.isDirectory]

theorem readText_congr {p : Path} (hp : h.stat p = g.stat p) : readText h p = readText g p := by
  simp only [readText, Host.readText, Host.read, hp]

theorem libraries_congr {steam : Path}
    (hf : h.stat (librariesFile steam) = g.stat (librariesFile steam)) :
    libraries h steam = libraries g steam := by
  have hread := readText_congr hf
  simp only [libraries, librariesFile] at hf hread ⊢
  rw [hf, hread]

theorem holdsApp_congr (hs : h.SameOutline g) (app : Nat) (library : Path) :
    holdsApp h app library = holdsApp g app library := by
  unfold holdsApp
  rcases map_eq_map_cases (hs.list (apps library)) with ⟨e, hh, hg⟩ | ⟨es, fs, hh, hg, hef⟩
  · rw [hh, hg]
  · have hany : ∀ xs : List (Name × Entry), (xs.any fun x => manifestId? x.1 = some app) =
        (xs.map Entry.outline).any fun x => manifestId? x.1 = some app := by
      intro xs
      rw [List.any_map]
      rfl
    rw [hh, hg]
    simp only
    rw [hany es, hany fs, hef]

theorem appDirectory?_congr (hs : h.SameOutline g) {steam : Path} {app : Nat}
    (hf : h.stat (librariesFile steam) = g.stat (librariesFile steam))
    (hm : ∀ library, library? h steam app = some library →
      h.stat (manifestFile app library) = g.stat (manifestFile app library)) :
    appDirectory? h steam app = appDirectory? g steam app := by
  have hlibraries := libraries_congr hf
  have hholds : holdsApp h app = holdsApp g app := funext (holdsApp_congr hs app)
  unfold library? at hm
  unfold appDirectory?
  rw [hlibraries, hholds] at hm ⊢
  simp only [bind, Except.bind]
  cases hl : libraries g steam with
  | error e => simp only
  | ok found =>
    simp only [hl] at hm ⊢
    cases hfind : found.find? (holdsApp g app) with
    | none => rfl
    | some library =>
      have hread := readText_congr (hm library hfind)
      unfold manifestFile at hread
      simp only [hread]

end Steam

namespace Strategy

theorem steamCandidate_congr {d : Path}
    (hd : h.stat (GameInfo.file d) = g.stat (GameInfo.file d)) :
    steamCandidate h d = steamCandidate g d := by
  simp only [steamCandidate, GameInfo.identify_congr hd]

theorem candidates_steam_congr (hs : h.SameOutline g) {app : Nat}
    (hm : h.SameAt g (Steam.metadataFiles h app)) :
    (steamFrom steamLookup app).candidates h = (steamFrom steamLookup app).candidates g := by
  rw [candidates_steamFrom, candidates_steamFrom]
  unfold steamLookup
  rw [← Steam.installation?_congr hs]
  cases hi : Steam.installation? h with
  | none => rfl
  | some steam =>
    simp only [Steam.metadataFiles, hi, Option.toList_some, List.flatMap_cons, List.flatMap_nil,
      List.append_nil] at hm
    have happ : Steam.appDirectory? h steam app = Steam.appDirectory? g steam app := by
      refine Steam.appDirectory?_congr hs (hm _ (by simp)) fun library hl => hm _ ?_
      simp [hl]
    simp only [← happ]
    cases hd : Steam.appDirectory? h steam app with
    | error e => rfl
    | ok found =>
      cases found with
      | none => rfl
      | some d =>
        refine congrArg Logged.value (steamCandidate_congr (hm _ ?_))
        simp [hd, Except.toOption]

end Strategy

namespace Settings

variable {s : Settings} {home : Option Path}

theorem offered_steam_congr (hs : h.SameOutline g) (hm : h.SameAt g (s.metadataFiles h home)) :
    Survey.offered h (s.steamStrategies Strategy.steamLookup) =
      Survey.offered g (s.steamStrategies Strategy.steamLookup) := by
  unfold steamStrategies
  split
  · rename_i hsteam
    rw [Survey.offered_singleton, Survey.offered_singleton]
    refine Strategy.candidates_steam_congr hs (hm.subset fun p hp => ?_)
    simp [metadataFiles, hsteam, hp]
  · rfl

theorem offered_defaultPaths_congr (hs : h.SameOutline g)
    (hm : h.SameAt g (s.metadataFiles h home)) :
    Survey.offered h (s.defaultPathStrategies home) =
      Survey.offered g (s.defaultPathStrategies home) := by
  unfold defaultPathStrategies
  split
  · rename_i hdefault
    rw [Survey.offered_singleton, Survey.offered_singleton, Strategy.candidates_defaultPaths,
      Strategy.candidates_defaultPaths]
    refine List.flatMap_congr fun pattern hpattern => congrArg Logged.value ?_
    refine Strategy.patternCandidates_congr hs (hm.subset fun p hp => ?_)
    have hmem : p ∈ (Strategy.homePatterns home).flatMap (Strategy.patternMetadata h) :=
      List.mem_flatMap.2 ⟨pattern, hpattern, hp⟩
    simp only [metadataFiles, hdefault, if_true, List.mem_append, hmem, or_true, true_or]
  · rfl

theorem offered_searchRoots_congr (hs : h.SameOutline g)
    (hm : h.SameAt g (s.metadataFiles h home)) :
    Survey.offered h s.searchRootStrategies = Survey.offered g s.searchRootStrategies := by
  rw [offered_searchRootStrategies, offered_searchRootStrategies]
  refine List.flatMap_congr fun root hroot => congrArg Logged.value ?_
  refine Strategy.rootCandidates_congr hs (hm.subset fun p hp => ?_)
  exact List.mem_append_right _ (List.mem_flatMap.2 ⟨root, hroot, hp⟩)

theorem offered_congr (hs : h.SameOutline g) (hm : h.SameAt g (s.metadataFiles h home)) :
    Survey.offered h (s.chain .absent Strategy.steamLookup home) =
      Survey.offered g (s.chain .absent Strategy.steamLookup home) := by
  rw [offered_chain, offered_chain, offered_steam_congr hs hm, offered_defaultPaths_congr hs hm,
    offered_searchRoots_congr hs hm, offered_overrideStrategies, offered_overrideStrategies,
    offered_registryStrategies_absent, offered_registryStrategies_absent]

end Settings

theorem Survey.firstUsable_congr (hs : h.SameOutline g) : firstUsable h = firstUsable g := by
  funext cs r
  have hfits : ∀ c, decide (Fits h r c) = decide (Fits g r c) := fun c =>
    decide_eq_decide.2 (by rw [Fits, Fits, Host.Usable, Host.Usable, hs.isDirectory])
  simp only [firstUsable, hfits]

namespace Locator

/-- What is not read leaves no trace in the record. -/
theorem locate_record_congr (hs : h.SameOutline g) {s : Settings} {home : Option Path}
    (hm : h.SameAt g (s.metadataFiles h home)) :
    ((ofSettings s home).locate h).value.record = ((ofSettings s home).locate g).value.record := by
  refine RegionMap.ext_get fun r => ?_
  have hoffered : Survey.offered h (ofSettings s home).chain =
      Survey.offered g (ofSettings s home).chain :=
    Settings.offered_congr hs hm
  rw [locate_get, locate_get, hoffered, Survey.firstUsable_congr hs]

end Locator
end InstallLocator
