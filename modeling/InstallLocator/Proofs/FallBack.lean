import InstallLocator.Proofs.DocumentShape
import InstallLocator.Proofs.Listing
import InstallLocator.Proofs.OverrideTable

/-!
# Falling back to the defaults

A settings file is taken as a whole or not at all. Where a path leads nowhere, to
a directory, to what may not be read, to bytes that are no text, or to a text that
is no document of the right shape, all settings are the default ones.
-/

set_option autoImplicit false

namespace InstallLocator.Settings

open RawSettings (Misfit documentAsked ofPairs)

/-- What is read at the path. A device that is no file holds nothing. -/
inductive Holds (h : Host) (p : Path) : Bytes → Prop
  | file {content : Bytes} (there : h.stat p = .ok (.file content)) : Holds h p content
  | device (there : h.stat p = .ok .device) : Holds h p []

def usingDefaults (e : ConfigError) : String := e.message ++ ". Using defaults."

def spoiled (p : Path) (e : SettingsError) : String :=
  (ConfigError.malformed p e).message ++
    ". Using defaults. See config.example.toml for the expected format."

/-- What loading the settings at a path comes to. -/
inductive Loaded (h : Host) (p : Path) (explicit : Bool) : Settings × List String → Prop
  | missing {cause : IoError} (nothing : h.stat p = .error cause) :
    Loaded h p explicit (default, if explicit then [usingDefaults (.notFound p)] else [])
  | directory (there : h.stat p = .ok .directory) :
    Loaded h p explicit (default, [usingDefaults (.unreadable p .isADirectory)])
  | refused {e : Entry} {cause : IoError} (there : h.stat p = .ok e)
    (refusal : e.refusal? = some cause) :
    Loaded h p explicit (default, [usingDefaults (.unreadable p cause)])
  | noText {content : Bytes} (holds : Holds h p content)
    (broken : ∀ text : String, content ≠ Utf8.encode text.toList) :
    Loaded h p explicit (default, [usingDefaults (.unreadable p .invalidText)])
  | malformed {text : String} (holds : Holds h p (Utf8.encode text.toList))
    (bad : Toml.parse text = none) : Loaded h p explicit (default, [spoiled p .malformed])
  | misshapen {text : String} {pairs : Toml.Pairs} {e : ShapeError}
    (holds : Holds h p (Utf8.encode text.toList)) (document : Toml.parse text = some pairs)
    (fault : Misfit documentAsked pairs) (first : ofPairs pairs = .error e) :
    Loaded h p explicit (default, [spoiled p (.shape e)])
  | valid {text : String} {pairs : Toml.Pairs} {raw : RawSettings}
    (holds : Holds h p (Utf8.encode text.toList)) (document : Toml.parse text = some pairs)
    (shape : ¬Misfit documentAsked pairs) (read : ofPairs pairs = .ok raw) :
    Loaded h p explicit (ofRaw raw)

variable {h : Host} {p : Path} {explicit : Bool} {content : Bytes} {text : String}
  {pairs : Toml.Pairs} {r : Settings × List String}

theorem load_of_error {cause : IoError} (hs : h.stat p = .error cause) :
    load h p explicit =
      (default, if explicit then [usingDefaults (.notFound p)] else []) := by
  rw [load, Host.exists?, hs]
  rfl

theorem load_of_stat {e : Entry} (hs : h.stat p = .ok e) :
    load h p explicit = match h.readText p with
      | .error cause => (default, [usingDefaults (.unreadable p cause)])
      | .ok text => parse text p := by
  rw [load, Host.exists?, hs]
  rfl

theorem Holds.exists_stat (hc : Holds h p content) : ∃ e, h.stat p = .ok e := by
  cases hc with
  | file there => exact ⟨_, there⟩
  | device there => exact ⟨_, there⟩

theorem Holds.read (hc : Holds h p content) : h.read p = .ok content := by
  cases hc with
  | file there => exact Host.read_of_stat there
  | device there => exact Host.read_of_stat there

theorem Holds.readText (hc : Holds h p (Utf8.encode text.toList)) : h.readText p = .ok text := by
  simp only [Host.readText, hc.read, Utf8.decode?_eq_some_iff.2 rfl, String.ofList_toList]

theorem Holds.readText_broken (hc : Holds h p content)
    (broken : ∀ text : String, content ≠ Utf8.encode text.toList) :
    h.readText p = .error .invalidText := by
  have hnone : Utf8.decode? content = none := by
    refine Option.eq_none_iff_forall_ne_some.2 fun cs hcs => broken (String.ofList cs) ?_
    rw [String.toList_ofList]
    exact Utf8.decode?_eq_some_iff.1 hcs
  simp only [Host.readText, hc.read, hnone]

theorem load_of_text (hc : Holds h p (Utf8.encode text.toList)) :
    load h p explicit = parse text p := by
  obtain ⟨e, hs⟩ := hc.exists_stat
  rw [load_of_stat hs, hc.readText]

theorem load_of_unread {e : Entry} {cause : IoError} (hs : h.stat p = .ok e)
    (hr : e.read = .error cause) :
    load h p explicit = (default, [usingDefaults (.unreadable p cause)]) := by
  simp only [load_of_stat hs, Host.readText, Host.read_of_stat hs, hr]

theorem read_of_refusal {e : Entry} {cause : IoError} (he : e.refusal? = some cause) :
    e.read = .error cause := by
  cases e <;> cases he <;> rfl

theorem parse_of_no_document (hd : Toml.parse text = none) :
    parse text p = (default, [spoiled p .malformed]) := by
  simp only [parse, RawSettings.parse, hd]
  rfl

theorem parse_of_misshapen {e : ShapeError} (hd : Toml.parse text = some pairs)
    (he : ofPairs pairs = .error e) : parse text p = (default, [spoiled p (.shape e)]) := by
  simp only [parse, RawSettings.parse, hd, he]
  rfl

theorem Loaded.load_eq (hl : Loaded h p explicit r) : load h p explicit = r := by
  cases hl with
  | missing nothing => exact load_of_error nothing
  | directory there => exact load_of_unread there rfl
  | refused there refusal => exact load_of_unread there (read_of_refusal refusal)
  | noText holds broken =>
    obtain ⟨e, hs⟩ := holds.exists_stat
    rw [load_of_stat hs, holds.readText_broken broken]
  | malformed holds bad => rw [load_of_text holds, parse_of_no_document bad]
  | misshapen holds document fault first =>
    rw [load_of_text holds, parse_of_misshapen document first]
  | valid holds document shape read => rw [load_of_text holds, parse_of_pairs document read]

theorem Holds.exists_loaded (hc : Holds h p content) (explicit : Bool) :
    ∃ r, Loaded h p explicit r := by
  by_cases htext : ∃ text : String, content = Utf8.encode text.toList
  · obtain ⟨text, rfl⟩ := htext
    cases hd : Toml.parse text with
    | none => exact ⟨_, .malformed hc hd⟩
    | some pairs =>
      have hfault := RawSettings.ofPairs_error_iff pairs
      cases hr : ofPairs pairs with
      | error e => exact ⟨_, .misshapen hc hd (hfault.1 ⟨e, hr⟩) hr⟩
      | ok raw =>
        refine ⟨_, .valid hc hd (fun hm => ?_) hr⟩
        obtain ⟨e, he⟩ := hfault.2 hm
        cases hr.symm.trans he
  · exact ⟨_, .noText hc (not_exists.1 htext)⟩

theorem exists_loaded (h : Host) (p : Path) (explicit : Bool) : ∃ r, Loaded h p explicit r := by
  cases hs : h.stat p with
  | error cause => exact ⟨_, .missing hs⟩
  | ok e =>
    cases e with
    | directory => exact ⟨_, .directory hs⟩
    | closed cause | sealed size cause => exact ⟨_, .refused hs rfl⟩
    | file content => exact (Holds.file hs).exists_loaded explicit
    | device => exact (Holds.device hs).exists_loaded explicit
    | link target => cases Host.isLink_of_stat hs

theorem load_eq_iff : load h p explicit = r ↔ Loaded h p explicit r := by
  constructor
  · rintro rfl
    obtain ⟨r, hr⟩ := exists_loaded h p explicit
    rwa [hr.load_eq]
  · exact Loaded.load_eq

/-- A path that leads nowhere, for whatever cause, gives the default settings, and
one warning if the file was asked for. A directory, what may not be read, bytes
that are no text, a text that is no document, and a document with a misfit anywhere
give them with one warning; any other file gives what judging its settings gives.
Whether the file was asked for makes no difference where a path leads somewhere. A
document is refused exactly for a misfit. -/
theorem load_falls_back (h : Host) (p : Path) :
    (∀ explicit r, load h p explicit = r ↔ Loaded h p explicit r) ∧
      (∀ e, h.stat p = .ok e → load h p true = load h p false) ∧
      ∀ pairs, (∃ e, ofPairs pairs = .error e) ↔ Misfit documentAsked pairs := by
  refine ⟨fun explicit r => load_eq_iff, fun e hs => ?_, RawSettings.ofPairs_error_iff⟩
  rw [load_of_stat hs, load_of_stat hs]

def hostHolding (content : Bytes) : Host where
  tree := FileTree.empty.put [0x63] [] (.file content)
  here := []
  environment := ⟨none, none, none, none⟩

def misfitText : String := "[discovery]\nsteam = false\nregistry = 0\n"

def misfitPairs : Toml.Pairs :=
  [("discovery", .table .header [("steam", .boolean false), ("registry", .integer 0)])]

/-- A switch that is no boolean spoils the one before it too, and nothing is at `/d`. -/
theorem load_falls_back_misfit :
    let h := hostHolding (Utf8.encode misfitText.toList)
    let p := Path.ofText "/c"
    Toml.parse misfitText = some misfitPairs ∧ Misfit documentAsked misfitPairs ∧
      load h p true = (default, [spoiled p (.shape (.type "integer `0`" "a boolean"))]) ∧
      load h p true = load h p false ∧
      load h (.ofText "/d") true = (default, [usingDefaults (.notFound (.ofText "/d"))]) ∧
      load h (.ofText "/d") false = (default, []) := by
  intro h p
  have hholds : Holds h p (Utf8.encode misfitText.toList) := .file rfl
  have hnothing : h.stat (.ofText "/d") = .error .notFound := rfl
  have hdocument : Toml.parse misfitText = some misfitPairs := by
    with_unfolding_all rfl
  have hfirst : ofPairs misfitPairs = .error (.type "integer `0`" "a boolean") := by
    with_unfolding_all rfl
  obtain ⟨hload, hasked, hmisfit⟩ := load_falls_back h p
  obtain ⟨e, hthere⟩ := hholds.exists_stat
  have hfault := (hmisfit misfitPairs).1 ⟨_, hfirst⟩
  have hmissing := (load_falls_back h (.ofText "/d")).1
  exact ⟨hdocument, hfault, (hload _ _).2 (.misshapen hholds hdocument hfault hfirst),
    hasked e hthere, (hmissing _ _).2 (.missing hnothing), (hmissing _ _).2 (.missing hnothing)⟩

end InstallLocator.Settings
