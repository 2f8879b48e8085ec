import InstallLocator.Proofs.Precedence

/-!
# Installs that Steam names

Asking Steam fails or names at most one directory, and the metadata in that
directory decides its region. Metadata that cannot be read is no hindrance, so
even a directory that is gone is a candidate. Such a candidate is not usable, and
then a survey with Steam finds what a survey without it finds.
-/

set_option autoImplicit false

namespace InstallLocator

namespace Strategy

/-- What Steam's answer comes to: no candidate, or the directory it names for the
region that the metadata there tells. -/
inductive SteamFinds (h : Host) : Option Path → List Candidate → Prop
  | notInstalled : SteamFinds h none []
  | named {d : Path} {s : Region} (region : (GameInfo.identify h d).value = .ok s) :
    SteamFinds h (some d) [⟨s, d, steamName⟩]
  | unnamed {d : Path} {e : GameInfo.Error} (fault : (GameInfo.identify h d).value = .error e)
    (other : ∀ p id, e ≠ .unknownId p id) : SteamFinds h (some d) [⟨.worldwide, d, steamName⟩]
  | foreign {d p : Path} {id : String}
    (product : (GameInfo.identify h d).value = .error (.unknownId p id)) :
    SteamFinds h (some d) []

variable {lookup : SteamLookup} {app : Nat} {h : Host} {d : Path} {found : Option Path}
  {cs : List Candidate}

theorem steamFinds_candidate (h : Host) (d : Path) :
    SteamFinds h (some d) (steamCandidate h d).value := by
  rw [steamCandidate_value]
  cases hi : (GameInfo.identify h d).value with
  | ok s => exact .named hi
  | error e =>
    cases e with
    | unknownId p id => exact .foreign hi
    | _ => exact .unnamed hi (by simp)

theorem steamFinds_none_iff : SteamFinds h none cs ↔ cs = [] := by
  constructor
  · rintro ⟨⟩
    rfl
  · rintro rfl
    exact .notInstalled

theorem steamFinds_some_iff : SteamFinds h (some d) cs ↔ cs = (steamCandidate h d).value := by
  constructor
  · intro hc
    rw [steamCandidate_value]
    cases hc with
    | named region =>
      rw [region]
      rfl
    | unnamed fault other =>
      rw [steamRegion?_eq_some_iff.2 (.inr ⟨rfl, _, fault, other⟩)]
      rfl
    | foreign product =>
      rw [product]
      rfl
  · rintro rfl
    exact steamFinds_candidate h d

theorem SteamFinds.eq_nil_iff (hc : SteamFinds h found cs) :
    cs = [] ↔ found = none ∨
      ∃ d p id, found = some d ∧ (GameInfo.identify h d).value = .error (.unknownId p id) := by
  cases hc with
  | notInstalled => simp
  | named region => simp [region]
  | unnamed fault other => simpa [fault] using other
  | foreign product => simp [product]

theorem steamFrom_eq_error_iff {e : ProbeError} :
    ((steamFrom lookup app).probe h).value = .error e ↔
      ∃ cause, e = .steam cause ∧ (lookup h app).value = .error cause := by
  simp only [steamFrom]
  cases (lookup h app).value with
  | error cause => simp [eq_comm]
  | ok found => cases found <;> simp

theorem steamFrom_eq_ok_iff :
    ((steamFrom lookup app).probe h).value = .ok cs ↔
      ∃ found, (lookup h app).value = .ok found ∧ SteamFinds h found cs := by
  simp only [steamFrom]
  cases (lookup h app).value with
  | error cause => simp
  | ok found =>
    cases found with
    | none => simp [steamFinds_none_iff, eq_comm]
    | some d => simp [steamFinds_some_iff, eq_comm]

end Strategy

namespace Settings

def withSteam (s : Settings) (use : Bool) : Settings := { s with useSteam := use }

variable (source : UninstallSource) (lookup : Strategy.SteamLookup) (home : Option Path)
  (h : Host) (s : Settings)

theorem firstUsable_steam
    (hd : ∀ d, (lookup h Constants.steamAppId).value = .ok (some d) → ¬h.Usable d) (r : Region) :
    Survey.firstUsable h (Survey.offered h (s.steamStrategies lookup)) r = none := by
  rw [Survey.firstUsable_eq_none_iff]
  rintro ⟨c, hc, -, hu⟩
  have hfound := Strategy.mem_candidates_steamFrom_iff.1 (Survey.mem_candidates_of_switched hc)
  exact hd c.path hfound.1 hu

theorem record_withSteam
    (hd : ∀ d, (lookup h Constants.steamAppId).value = .ok (some d) → ¬h.Usable d) :
    (s.withSteam true).record source lookup home h =
      (s.withSteam false).record source lookup home h := by
  have hrecord : ∀ use r, ((s.withSteam use).record source lookup home h).get r =
      (((Survey.firstUsable h (Survey.offered h s.overrideStrategies) r).or
        (Survey.firstUsable h (Survey.offered h (s.registryStrategies source)) r)).or
        (Survey.firstUsable h (Survey.offered h (s.defaultPathStrategies home)) r)).or
        (Survey.firstUsable h (Survey.offered h s.searchRootStrategies) r) := by
    intro use r
    rw [record_get, offered_chain]
    simp only [Survey.firstUsable_append, firstUsable_steam lookup h _ hd, Option.or_none]
    rfl
  exact RegionMap.ext_get fun r => (hrecord true r).trans (hrecord false r).symm

/-- Asking Steam for an app fails if and only if the lookup fails. It finds at most
one candidate, in the directory that the lookup names: for the region of the
metadata there, for the worldwide client if no product is named, and none if the
app is not installed or another product is named. If the lookup fails, names
nothing, or names what is not usable, then the record is the one without Steam. -/
theorem steam_finds_without_shadowing (source : UninstallSource)
    (lookup : Strategy.SteamLookup) (h : Host) :
    (∀ app e, ((Strategy.steamFrom lookup app).probe h).value = .error e ↔
        ∃ cause, e = .steam cause ∧ (lookup h app).value = .error cause) ∧
      (∀ app cs, ((Strategy.steamFrom lookup app).probe h).value = .ok cs ↔
        ∃ found, (lookup h app).value = .ok found ∧ Strategy.SteamFinds h found cs) ∧
      (∀ found cs, Strategy.SteamFinds h found cs → (cs = [] ↔ found = none ∨
        ∃ d p id, found = some d ∧ (GameInfo.identify h d).value = .error (.unknownId p id))) ∧
      ∀ (s : Settings) (home : Option Path),
        (∀ d, (lookup h Constants.steamAppId).value = .ok (some d) → ¬h.Usable d) →
          (s.withSteam true).record source lookup home h =
            (s.withSteam false).record source lookup home h :=
  ⟨fun _ _ => Strategy.steamFrom_eq_error_iff, fun _ _ => Strategy.steamFrom_eq_ok_iff,
    fun _ _ hc => hc.eq_nil_iff, fun s home hd => record_withSteam source lookup home h s hd⟩

def nameOf (text : String) : Name := Utf8.encode text.toList

def listText : String := "l { 0 { path /Steam } }"
def manifestText : String := "a { appid 552990 installdir x }"

/-- A machine whose Steam has one library, `/Steam` itself, and a manifest there for
an app whose directory is gone. -/
def withStaleManifest : Host where
  tree := (((FileTree.empty.put (nameOf "Steam") [] .directory).put
    (nameOf "steamapps") [nameOf "Steam"] .directory).put
    (nameOf "libraryfolders.vdf") [nameOf "steamapps", nameOf "Steam"]
      (.file (nameOf listText))).put
    (nameOf "appmanifest_552990.acf") [nameOf "steamapps", nameOf "Steam"]
      (.file (nameOf manifestText))
  here := []
  environment := ⟨some (.ofText "/"), none, some (.ofText "/"), none⟩

def staleDirectory : Path := .ofText "/Steam/steamapps/common/x"

theorem libraries_withStaleManifest :
    Steam.libraries withStaleManifest (.ofText "/Steam") = .ok [.ofText "/Steam"] := by
  have hstat : withStaleManifest.stat (Steam.below (Steam.apps (.ofText "/Steam"))
      ["libraryfolders.vdf"]) = .ok (.file (nameOf listText)) := by
    with_unfolding_all rfl
  have hread : Steam.readText withStaleManifest (Steam.below (Steam.apps (.ofText "/Steam"))
      ["libraryfolders.vdf"]) = .ok listText := by
    with_unfolding_all rfl
  have hparse : KeyValue.parse listText =
      some ("l", .object [("0", .object [("path", .text "/Steam")])]) := by
    with_unfolding_all rfl
  have hfirst : Steam.firstValues [("0", .object [("path", .text "/Steam")])] =
      [("0", .object [("path", .text "/Steam")])] :=
    List.mergeSort_singleton _
  simp only [Steam.libraries, hstat, hread, bind, Except.bind, hparse, hfirst]
  rfl

theorem holdsApp_withStaleManifest :
    Steam.holdsApp withStaleManifest Constants.steamAppId (.ofText "/Steam") = true := by
  have hresolve : withStaleManifest.tree.resolve withStaleManifest.here .followed
      (Steam.apps (.ofText "/Steam")) = .ok [nameOf "steamapps", nameOf "Steam"] := by
    with_unfolding_all rfl
  have hmem : (nameOf "appmanifest_552990.acf", Entry.file (nameOf manifestText)) ∈
      withStaleManifest.tree.listing [nameOf "steamapps", nameOf "Steam"] :=
    FileTree.mem_listing.2 (by with_unfolding_all rfl)
  rw [Steam.holdsApp, Host.list_of_directory hresolve (by decide)]
  exact List.any_eq_true.2 ⟨_, hmem, by decide⟩

theorem steamLookup_withStaleManifest :
    (Strategy.steamLookup withStaleManifest Constants.steamAppId).value =
      .ok (some staleDirectory) := by
  have hsteam : Steam.installation? withStaleManifest = some (.ofText "/Steam") := by
    decide +kernel
  have hread : Steam.readText withStaleManifest (Steam.below (Steam.apps (.ofText "/Steam"))
      ["appmanifest_552990.acf"]) = .ok manifestText := by
    with_unfolding_all rfl
  have hparse : KeyValue.parse manifestText =
      some ("a", .object [("appid", .text "552990"), ("installdir", .text "x")]) := by
    with_unfolding_all rfl
  have hmanifest : Steam.Manifest.parse? manifestText = some ⟨552990, "x"⟩ := by
    rw [Steam.Manifest.parse?, hparse]
    with_unfolding_all rfl
  have hpath : Steam.below (Steam.apps (.ofText "/Steam")) ["common", "x"] = staleDirectory := by
    decide
  have hkey : ["appmanifest_" ++ toString Constants.steamAppId ++ ".acf"] =
      ["appmanifest_552990.acf"] := by
    decide
  simp only [Strategy.steamLookup, hsteam, Steam.appDirectory?, libraries_withStaleManifest, bind,
    Except.bind, List.find?_cons, holdsApp_withStaleManifest, hkey, hread, hmanifest, hpath]
  rfl

/-- The directory is gone, and still a candidate for the worldwide client; the record
is the one without Steam. -/
theorem steam_finds_without_shadowing_stale :
    (Strategy.steamLookup withStaleManifest Constants.steamAppId).value =
        .ok (some staleDirectory) ∧
      ((Strategy.steam Constants.steamAppId).probe withStaleManifest).value =
        .ok [⟨.worldwide, staleDirectory, "steam"⟩] ∧
      ¬withStaleManifest.Usable staleDirectory ∧
      (default.withSteam true).record .absent Strategy.steamLookup none withStaleManifest =
        (default.withSteam false).record .absent Strategy.steamLookup none withStaleManifest := by
  have hlookup := steamLookup_withStaleManifest
  have hgone : ¬withStaleManifest.Usable staleDirectory := by decide +kernel
  have hfault : (GameInfo.identify withStaleManifest staleDirectory).value =
      .error (.missing (GameInfo.file staleDirectory)) := by
    with_unfolding_all rfl
  obtain ⟨-, hprobe, -, hrecord⟩ :=
    steam_finds_without_shadowing .absent Strategy.steamLookup withStaleManifest
  refine ⟨hlookup, (hprobe _ _).2 ⟨_, hlookup, .unnamed hfault (by simp)⟩, hgone,
    hrecord default none fun d hd => ?_⟩
  cases hlookup.symm.trans hd
  exact hgone

end Settings
end InstallLocator
