import InstallLocator.Program
import InstallLocator.Proofs.LevelText
import InstallLocator.Proofs.MetadataReads
import InstallLocator.Proofs.Utf8Exact

/-!
# The answer does not depend on the log

What a run prints and the status it ends with are settled by the record alone.
Trouble with the settings, the log level and the choice of what is logged leave
no trace in them, as long as the settings file is not read as a metadata file
besides.
-/

set_option autoImplicit false

namespace InstallLocator

/-- The status of a run and what it printed, if it was not refused. -/
def Outcome.answer? : Outcome → Option (Nat × String)
  | .refused _ => none
  | .finished status output _ _ => some (status, output)

namespace Program

def settingsPath (h : Host) (o : Options) : Path :=
  configPath o (PlatformPaths.resolve h.environment).value

def loadedSettings (h : Host) (o : Options) : Settings :=
  (Settings.load h (settingsPath h o) o.config.isSome).1

def home (h : Host) : Option Path := (PlatformPaths.resolve h.environment).value.home

/-- What a run has to print: the record of a survey with the settings it loads. -/
def answer (h : Host) (o : Options) : String :=
  render o ((Locator.ofSettings (loadedSettings h o) (home h)).locate h).value.record

variable {h : Host} {i j : Inputs} {o : Options}

theorem run_answer? (hi : CommandLine.parse i.arguments = .ok (.run o)) :
    (run h i).answer? = match i.output.write (answer h o) with
      | .ok text => some (0, text)
      | .error _ => some (1, "") := by
  have hanswer : render o (survey h o (loadSettings h o)).value.record = answer h o := rfl
  simp only [run, hi, runWith, hanswer]
  cases i.output.write (answer h o) <;> rfl

theorem write_cases (s : Sink) (text : String) :
    s.write text = .ok text ∨ s.write text = .error s.refusal := by
  unfold Sink.write
  cases s.room with
  | none => exact Or.inl rfl
  | some room =>
    by_cases hroom : text.utf8ByteSize ≤ room
    · exact Or.inl (if_pos hroom)
    · exact Or.inr (if_neg hroom)

theorem write_eq_ok {s : Sink} {text : String} (hs : (s.write text).isOk = true) :
    s.write text = .ok text := by
  rcases write_cases s text with hw | hw
  · exact hw
  · rw [hw] at hs
    cases hs

theorem run_finished (hi : CommandLine.parse i.arguments = .ok (.run o))
    (hw : (i.output.write (answer h o)).isOk = true) :
    ∃ log, run h i = .finished 0 (answer h o) log none := by
  have hanswer : render o (survey h o (loadSettings h o)).value.record = answer h o := rfl
  simp only [run, hi, runWith, hanswer, write_eq_ok hw]
  exact ⟨_, rfl⟩

theorem answer_refilled {l : Location} {c d : Bytes}
    (hl : h.tree.resolve h.here .followed (settingsPath h o) = .ok l)
    (hc : h.tree.find? l = some (.file c)) (apart : Settings.FilesApart c d)
    (alone : ∀ p ∈ (loadedSettings h o).metadataFiles h (home h),
      h.tree.resolve h.here .followed p ≠ .ok l) (debug : Bool) :
    answer (h.refilled l d) { o with debug := debug } = answer h o := by
  have hstat : h.stat (settingsPath h o) = .ok (.file c) := Host.stat_eq_ok_iff.2 ⟨l, hl, hc⟩
  have hsettings : (loadedSettings (h.refilled l d) o).unlevelled =
      (loadedSettings h o).unlevelled :=
    Settings.load_apart hstat (Host.stat_refilled hl hc) apart o.config.isSome
  have hsame : h.SameAt (h.refilled l d) ((loadedSettings h o).metadataFiles h (home h)) :=
    fun p hp => (Host.stat_refilled_of_ne (alone p hp)).symm
  have hrecord : ((Locator.ofSettings (loadedSettings (h.refilled l d) o) (home h)).locate
      (h.refilled l d)).value.record =
      ((Locator.ofSettings (loadedSettings h o) (home h)).locate h).value.record := by
    rw [Locator.locate_record_congr (h.sameOutline_refilled l d) hsame]
    change ((Locator.ofSettings (loadedSettings (h.refilled l d) o).unlevelled (home h)).locate
      (h.refilled l d)).value.record = _
    rw [hsettings]
    rfl
  exact congrArg (render o) hrecord

/-- With room for its output, an accepted run ends with status zero and prints the
record, whatever becomes of its settings. Two runs that differ in what they log
end and print alike, and so do two whose settings files differ in the text of
the log level, unless that file is read as metadata too. -/
theorem run_ignores_logging :
    (∀ (h : Host) (i : Inputs) (o : Options), CommandLine.parse i.arguments = .ok (.run o) →
      (i.output.write (answer h o)).isOk = true →
        ∃ log, run h i = .finished 0 (answer h o) log none) ∧
    (∀ (h : Host) (i j : Inputs) (o : Options) (debug : Bool),
      CommandLine.parse i.arguments = .ok (.run o) →
      CommandLine.parse j.arguments = .ok (.run { o with debug := debug }) →
      j.output = i.output → (run h j).answer? = (run h i).answer?) ∧
    ∀ (h : Host) (i j : Inputs) (o : Options) (debug : Bool) (l : Location) (c d : Bytes),
      CommandLine.parse i.arguments = .ok (.run o) →
      CommandLine.parse j.arguments = .ok (.run { o with debug := debug }) →
      j.output = i.output →
      h.tree.resolve h.here .followed (settingsPath h o) = .ok l →
      h.tree.find? l = some (.file c) → Settings.FilesApart c d →
      (∀ p ∈ (loadedSettings h o).metadataFiles h (home h),
        h.tree.resolve h.here .followed p ≠ .ok l) →
        (run (h.refilled l d) j).answer? = (run h i).answer? := by
  refine ⟨fun h i o hi hw => run_finished hi hw, fun h i j o debug hi hj hout => ?_,
    fun h i j o debug l c d hi hj hout hl hc apart alone => ?_⟩
  · have hanswer : answer h { o with debug := debug } = answer h o := rfl
    rw [run_answer? hi, run_answer? hj, hanswer, hout]
  · rw [run_answer? hi, run_answer? hj, answer_refilled hl hc apart alone debug, hout]

def levelText (level : String) : String :=
  "[discovery]\nsearch_roots = [\"/c\"]\n[logging]\nlevel = \"" ++ level ++ "\"\n"

def levelDocument (level : String) : Toml.Pairs :=
  [("discovery", .table .header [("search_roots", .array [.text "/c"])]),
   ("logging", .table .header [("level", .text level)])]

def levelContent (level : String) : Bytes := Utf8.encode (levelText level).toList

theorem levelContent_apart {a b : String} (ha : Toml.parse (levelText a) = some (levelDocument a))
    (hb : Toml.parse (levelText b) = some (levelDocument b)) :
    Settings.FilesApart (levelContent a) (levelContent b) := by
  have hdecode : ∀ level, Utf8.decode? (levelContent level) = some (levelText level).toList :=
    fun level => Utf8.decode?_eq_some_iff.2 rfl
  have hparse : ∀ level, Toml.parse (levelText level) = some (levelDocument level) →
      Toml.parse (String.ofList (levelText level).toList) = some (levelDocument level) :=
    fun level hl => by rwa [String.ofList_toList]
  refine .level (hdecode a) (hdecode b) (hparse a ha) (hparse b hb) ?_
  exact .between [("discovery", .table .header [("search_roots", .array [.text "/c"])])] []
    (.table .header [] [] a b)

theorem parse_debug : Toml.parse (levelText "debug") = some (levelDocument "debug") := by
  with_unfolding_all rfl

def gameInfoLocation : Location := [Utf8.encode Constants.gameInfoFile.toList, [0x63]]

def withClientAnd (content : Bytes) : Host where
  tree := ((FileTree.empty.put [0x63] [] .directory).put
    (Utf8.encode Constants.gameInfoFile.toList) [[0x63]]
    (.file (Utf8.encode "<id>WOWS.PT.PRODUCTION</id>".toList))).put [0x73] [] (.file content)
  here := []
  environment := ⟨none, none, none, none⟩

/-- A level that is no level, and a run that logs all there is. -/
theorem run_ignores_logging_loud :
    let h := withClientAnd (levelContent "debug")
    let i : Inputs := ⟨["-c", "/s"], none, .unlimited⟩
    let j : Inputs := ⟨["-d", "-c", "/s"], some "trace", .unlimited⟩
    (run h i).answer? = some (0, "\n\n\n/c\n") ∧ (∃ log, run h i = .finished 0 (answer h
      ⟨some "/s", false, false⟩) log none) ∧ (run h j).answer? = (run h i).answer? ∧
      (run (h.refilled [[0x73]] (levelContent "loud")) j).answer? = (run h i).answer? := by
  intro h i j
  let o : Options := ⟨some "/s", false, false⟩
  have hi : CommandLine.parse i.arguments = .ok (.run o) := rfl
  have hj : CommandLine.parse j.arguments = .ok (.run { o with debug := true }) := rfl
  have hl : h.tree.resolve h.here .followed (settingsPath h o) = .ok [[0x73]] := rfl
  have hc : h.tree.find? [[0x73]] = some (.file (levelContent "debug")) := rfl
  have hloud : Toml.parse (levelText "loud") = some (levelDocument "loud") := by
    with_unfolding_all rfl
  have hfiles : (loadedSettings h o).metadataFiles h (home h) = [.ofText "/c/game_info.xml"] := by
    decide +kernel
  have alone : ∀ p ∈ (loadedSettings h o).metadataFiles h (home h),
      h.tree.resolve h.here .followed p ≠ .ok [[0x73]] := by
    rw [hfiles]
    intro p hp hr
    have hx : h.tree.resolve h.here .followed (.ofText "/c/game_info.xml") =
        .ok gameInfoLocation := rfl
    cases List.mem_singleton.1 hp
    cases hx.symm.trans hr
  obtain ⟨hfinished, hdebug, hlevel⟩ := run_ignores_logging
  exact ⟨by decide +kernel, hfinished h i o hi rfl, hdebug h i j o true hi hj rfl,
    hlevel h i j o true [[0x73]] _ _ hi hj rfl hl hc (levelContent_apart parse_debug hloud) alone⟩

def withSettingsIn (content : Bytes) : Host where
  tree := (FileTree.empty.put [0x63] [] .directory).put
    (Utf8.encode Constants.gameInfoFile.toList) [[0x63]] (.file content)
  here := []
  environment := ⟨none, none, none, none⟩

/-- A settings file that is a metadata file too: the text of its log level is read as
the id of a client. -/
theorem run_of_level_as_id :
    let h := withSettingsIn (levelContent "debug")
    let i : Inputs := ⟨["-c", "/c/game_info.xml"], none, .unlimited⟩
    let d := levelContent "<id>WOWS.WW.PRODUCTION</id>"
    h.tree.find? gameInfoLocation = some (.file (levelContent "debug")) ∧
      Settings.FilesApart (levelContent "debug") d ∧
      (run h i).answer? = some (0, "\n\n\n\n") ∧
      (run (h.refilled gameInfoLocation d) i).answer? = some (0, "/c\n/c\n\n\n") := by
  intro h i d
  have hid : Toml.parse (levelText "<id>WOWS.WW.PRODUCTION</id>") =
      some (levelDocument "<id>WOWS.WW.PRODUCTION</id>") := by
    with_unfolding_all rfl
  exact ⟨rfl, levelContent_apart parse_debug hid, by decide +kernel, by decide +kernel⟩

end Program
end InstallLocator
