import InstallLocator.Proofs.LossyText
import InstallLocator.Proofs.OverrideTable
import InstallLocator.Proofs.TomlWriting
import InstallLocator.Proofs.ValidSettings

/-!
# Settings written down

The settings that a file can give are also what a file of theirs gives: with
every setting written out, no value is refused, cut or changed, and there is
nothing to warn of.
-/

set_option autoImplicit false

namespace InstallLocator

namespace Settings

/-- Valid settings whose overrides, too, are texts as they stand in a file. -/
structure Expressible (s : Settings) : Prop extends Valid s where
  override_text : ∀ r p, s.overrides.get r = some p → ∃ text, p = Path.ofText text ∧ Trimmed text

theorem judgeOverrides_text {entries : List (String × String)} {r : Region} {p : Path}
    (hp : (judgeOverrides entries).value.get r = some p) :
    ∃ text, p = Path.ofText text ∧ Trimmed text := by
  have hget := judgeOverridesFrom_get .empty (inKeyOrder entries) r
  rw [RegionMap.get_empty, Option.or_none] at hget
  obtain ⟨e, -, rfl⟩ := Option.map_eq_some_iff.1 (hget.symm.trans hp)
  exact ⟨trim e.2, rfl, trim_trimmed e.2⟩

theorem expressible_parse (text : String) (origin : Path) :
    (parse text origin).1.Expressible := by
  have hvalid := valid_parse text origin
  unfold parse at hvalid ⊢
  split
  · next raw hraw =>
    rw [hraw] at hvalid
    exact ⟨hvalid, fun r p hp => judgeOverrides_text hp⟩
  · exact ⟨valid_default, fun r p hp => by simp [default] at hp⟩

def discoverySection (s : Settings) : Toml.Section where
  name := "discovery"
  pairs :=
    [("registry", .boolean s.useRegistry),
     ("steam", .boolean s.useSteam),
     ("default_paths", .boolean s.useDefaultPaths),
     ("search_roots", .texts (s.searchRoots.map Path.shown)),
     ("max_depth", .digit (Fin.ofNat 10 s.maxDepth)),
     ("publishers", .texts s.publishers)]
  bare := by decide
  bare_keys := by
    show ∀ k ∈ ["registry", "steam", "default_paths", "search_roots", "max_depth", "publishers"], _
    decide
  keys_nodup := by
    show ["registry", "steam", "default_paths", "search_roots", "max_depth", "publishers"].Nodup
    decide

def overrideEntries (s : Settings) : List (String × String) :=
  s.overrides.entries.map fun x => (x.1.code, x.2.shown)

theorem overrideEntries_keys_nodup (s : Settings) : (s.overrideEntries.map Prod.fst).Nodup := by
  rw [overrideEntries]
  rcases s.overrides with ⟨_ | w, _ | c, _ | p⟩ <;>
    simp [RegionMap.entries, RegionMap.get, Region.all, Region.code]

theorem bare_code (r : Region) : Toml.Bare r.code := by
  cases r <;> decide

theorem mem_overrideEntries {s : Settings} {e : String × String} :
    e ∈ s.overrideEntries ↔ ∃ r p, s.overrides.get r = some p ∧ e = (r.code, p.shown) := by
  rw [overrideEntries, List.mem_map]
  constructor
  · rintro ⟨⟨r, p⟩, hx, rfl⟩
    exact ⟨r, p, RegionMap.mem_entries.1 hx, rfl⟩
  · rintro ⟨r, p, hr, rfl⟩
    exact ⟨(r, p), RegionMap.mem_entries.2 hr, rfl⟩

def overridesSection (s : Settings) : Toml.Section where
  name := "overrides"
  pairs := s.overrideEntries.map fun e => (e.1, .text e.2)
  bare := by decide
  bare_keys := by
    intro k hk
    simp only [List.mem_map, mem_overrideEntries] at hk
    obtain ⟨_, ⟨_, ⟨r, p, -, rfl⟩, rfl⟩, rfl⟩ := hk
    exact bare_code r
  keys_nodup := by
    simpa [Function.comp_def] using s.overrideEntries_keys_nodup

def loggingSection (level : Option String) : Toml.Section where
  name := "logging"
  pairs := (level.map fun l => ("level", .text l)).toList
  bare := by decide
  bare_keys := by
    have hlevel : Toml.Bare "level" := by decide
    cases level with
    | none => simp
    | some l => simpa using hlevel
  keys_nodup := by
    cases level <;> simp

/-- The tables of the document. Without a level, the table for it may be left out. -/
def sections (keep : Bool) (s : Settings) : List Toml.Section :=
  [s.discoverySection, s.overridesSection] ++
    if keep = true ∨ s.logLevel.isSome = true then [loggingSection s.logLevel] else []

/-- The text of a settings file with all the settings. -/
def document (sp : Toml.Spelling) (keep : Bool) (s : Settings) : String :=
  String.ofList (Toml.document sp (s.sections keep))

def written (s : Settings) : RawSettings where
  registry := some s.useRegistry
  steam := some s.useSteam
  defaultPaths := some s.useDefaultPaths
  searchRoots := some (s.searchRoots.map Path.shown)
  maxDepth := some s.maxDepth
  publishers := some s.publishers
  overrides := s.overrideEntries
  level := s.logLevel

theorem sections_names_nodup (keep : Bool) (s : Settings) :
    ((s.sections keep).map Toml.Section.name).Nodup := by
  unfold sections
  split
  · show ["discovery", "overrides", "logging"].Nodup
    decide
  · show ["discovery", "overrides"].Nodup
    decide

theorem mapM_map_ok {α β ε : Type} {read : β → Except ε α} {write : α → β}
    (h : ∀ a, read (write a) = .ok a) (as : List α) : (as.map write).mapM read = .ok as := by
  induction as with
  | nil => rfl
  | cons a as ih =>
    rw [List.map_cons, List.mapM_cons, h a, ih]
    rfl

theorem toTexts_texts (ss : List String) :
    Toml.Item.toTexts (Toml.Literal.texts ss).item = .ok ss := by
  show (ss.map Toml.Item.text).mapM Toml.Item.toText = .ok ss
  apply mapM_map_ok
  intro s
  rfl

theorem toTextPairs_texts (es : List (String × String)) :
    Toml.Item.toTextPairs (.table .header (es.map fun e => (e.1, .text e.2))) = .ok es := by
  show (es.map fun e => (e.1, Toml.Item.text e.2)).mapM
    (fun p => (Toml.Item.toText p.2).map (p.1, ·)) = .ok es
  apply mapM_map_ok
  intro e
  rfl

theorem toNatural_digit {n : Nat} (hn : n < 10) :
    Toml.Item.toNatural (Toml.Literal.digit (Fin.ofNat 10 n)).item = .ok n := by
  have hval : (Fin.ofNat 10 n).val = n := Nat.mod_eq_of_lt hn
  rw [Toml.Literal.item, hval, Toml.Item.toNatural, if_pos (Int.natCast_nonneg n), Int.toNat_natCast]

theorem setNamed_discovery {s : Settings} (hs : s.maxDepth ≤ 8) (raw : RawSettings) :
    RawSettings.setNamed RawSettings.sections raw s.discoverySection.item =
      .ok { raw with
        registry := some s.useRegistry
        steam := some s.useSteam
        defaultPaths := some s.useDefaultPaths
        searchRoots := some (s.searchRoots.map Path.shown)
        maxDepth := some s.maxDepth
        publishers := some s.publishers } := by
  have hsection : ∀ pairs, RawSettings.setNamed RawSettings.sections raw
      ("discovery", .table .header pairs) =
        pairs.foldlM (RawSettings.setNamed RawSettings.discoveryFields) raw :=
    fun _ => rfl
  have hboolean : ∀ b, (Toml.Literal.boolean b).item.toBoolean = .ok b := fun _ => rfl
  have hdepth : s.maxDepth < 10 := by omega
  rw [Toml.Section.item, discoverySection, hsection]
  simp only [RawSettings.setNamed, RawSettings.discoveryFields, RawSettings.field, List.map_cons,
    List.map_nil, List.foldlM_cons, List.foldlM_nil, List.find?_cons_of_pos,
    List.find?_cons_of_neg, String.reduceEq, decide_true, decide_false, Bool.false_eq_true,
    not_false_eq_true, hboolean, toTexts_texts, toNatural_digit hdepth, Except.map, bind,
    Except.bind, pure, Except.pure]

theorem setNamed_overrides (s : Settings) (raw : RawSettings) :
    RawSettings.setNamed RawSettings.sections raw s.overridesSection.item =
      .ok { raw with overrides := s.overrideEntries } := by
  have hsection : ∀ item, RawSettings.setNamed RawSettings.sections raw ("overrides", item) =
      (Toml.Item.toTextPairs item).map fun ps => { raw with overrides := ps } :=
    fun _ => rfl
  rw [Toml.Section.item, overridesSection, hsection, List.map_map]
  show (Toml.Item.toTextPairs (.table .header (s.overrideEntries.map fun e =>
    (e.1, .text e.2)))).map _ = _
  rw [toTextPairs_texts]
  rfl

theorem setNamed_logging (level : Option String) (raw : RawSettings) :
    RawSettings.setNamed RawSettings.sections raw (loggingSection level).item =
      .ok { raw with level := level.or raw.level } := by
  cases level <;> rfl

theorem ofPairs_sections (keep : Bool) {s : Settings} (hs : s.maxDepth ≤ 8) :
    RawSettings.ofPairs ((s.sections keep).map Toml.Section.item) = .ok s.written := by
  rw [sections, RawSettings.ofPairs]
  by_cases hk : keep = true ∨ s.logLevel.isSome = true
  · rw [if_pos hk]
    simp [setNamed_discovery hs, setNamed_overrides, setNamed_logging, bind, Except.bind, pure,
      Except.pure, written, RawSettings.empty]
  · have hlevel : s.logLevel = none := by
      simpa using (not_or.1 hk).2
    rw [if_neg hk]
    simp [setNamed_discovery hs, setNamed_overrides, bind, Except.bind, pure, Except.pure, written,
      RawSettings.empty, hlevel]

theorem rawParse_document (sp : Toml.Spelling) (keep : Bool) {s : Settings}
    (hs : s.maxDepth ≤ 8) : RawSettings.parse (s.document sp keep) = .ok s.written := by
  rw [RawSettings.parse, document, Toml.parse_document sp (sections_names_nodup keep s)]
  show (RawSettings.ofPairs _).mapError _ = _
  rw [ofPairs_sections keep hs]
  rfl

theorem trim_shown {p : Path} (hp : ∃ text, p = Path.ofText text ∧ Trimmed text) :
    Path.ofText (trim p.shown) = p := by
  obtain ⟨text, rfl, ht⟩ := hp
  rw [Path.shown_ofText, trim_of_trimmed ht]

theorem judgeMaxDepth_of_le {depth : Nat} (hd : depth ≤ 8) :
    judgeMaxDepth (some depth) = ⟨depth, []⟩ :=
  if_pos hd

theorem judgeRoots_shown {room : Nat} {roots : List Path} (hlen : roots.length ≤ room)
    (h : ∀ p ∈ roots, p.isAbsolute = true ∧ ∃ text, p = Path.ofText text ∧ Trimmed text) :
    judgeRoots room (roots.map Path.shown) = ⟨roots, []⟩ := by
  induction roots generalizing room with
  | nil => rw [List.map_nil, judgeRoots]
  | cons p roots ih =>
    obtain ⟨⟨ha, ht⟩, hroots⟩ := List.forall_mem_cons.1 h
    have hpath := trim_shown ht
    -- An absolute path begins with a slash, so its text is no empty entry.
    have hne : trim p.shown ≠ "" := by
      intro hempty
      rw [hempty] at hpath
      rw [← hpath] at ha
      revert ha
      decide
    cases room with
    | zero => cases hlen
    | succ room =>
      rw [List.map_cons, judgeRoots]
      simp [hne, hpath, ha, ih (Nat.le_of_succ_le_succ hlen) hroots]

theorem judgeSearchRoots_shown {roots : List Path} (hlen : roots.length ≤ 32)
    (h : ∀ p ∈ roots, p.isAbsolute = true ∧ ∃ text, p = Path.ofText text ∧ Trimmed text) :
    judgeSearchRoots (some (roots.map Path.shown)) = ⟨roots, []⟩ :=
  judgeRoots_shown hlen h

theorem judgePublishers_trimmed {names : List String} (hne : names ≠ [])
    (h : ∀ name ∈ names, name ≠ "" ∧ Trimmed name) :
    judgePublishers (some names) = ⟨names, []⟩ := by
  have htrim : names.map trim = names := by
    conv => rhs; rw [← List.map_id names]
    exact List.map_congr_left fun name hn => trim_of_trimmed (h name hn).2
  have hfilter : names.filter (· ≠ "") = names := by
    apply List.filter_eq_self.2
    intro name hn
    simpa using (h name hn).1
  rw [judgePublishers, htrim, hfilter]
  cases names with
  | nil => exact absurd rfl hne
  | cons name names => rfl

theorem parse_code (r : Region) : Region.parse r.code = .ok r := by
  cases r <;> with_unfolding_all rfl

theorem Expressible.standsFor {s : Settings} (hs : s.Expressible) {r : Region} {p : Path}
    (hr : s.overrides.get r = some p) : StandsFor r (r.code, p.shown) := by
  have habsolute : (overridePath (r.code, p.shown)).isAbsolute = true := by
    rw [overridePath, trim_shown (hs.override_text r p hr)]
    exact hs.override r p hr
  exact ⟨parse_code r, habsolute⟩

theorem eq_of_standsFor {s : Settings} {r : Region} {e : String × String}
    (he : e ∈ s.overrideEntries) (hr : StandsFor r e) :
    ∃ p, s.overrides.get r = some p ∧ e = (r.code, p.shown) := by
  obtain ⟨r', p, hp, rfl⟩ := mem_overrideEntries.1 he
  have hcode := hr.1
  rw [parse_code] at hcode
  cases hcode
  exact ⟨p, hp, rfl⟩

theorem judgeOverrides_entries {s : Settings} (hs : s.Expressible) :
    judgeOverrides s.overrideEntries = ⟨s.overrides, []⟩ := by
  have hvalue : (judgeOverrides s.overrideEntries).value = s.overrides := by
    apply RegionMap.ext_get
    intro r
    cases hr : s.overrides.get r with
    | none =>
      apply judgeOverrides_get_eq_none
      intro e he hstands
      obtain ⟨p, hp, -⟩ := eq_of_standsFor he hstands
      rw [hr] at hp
      cases hp
    | some p =>
      obtain ⟨last, hlast, hget⟩ :=
        judgeOverrides_get (mem_overrideEntries.2 ⟨r, p, hr, rfl⟩) (hs.standsFor hr)
      obtain ⟨q, hq, rfl⟩ := eq_of_standsFor hlast.mem hlast.standsFor
      rw [hget, overridePath, trim_shown (hs.override_text r q hq), ← hq, hr]
  have hwarnings : (judgeOverrides s.overrideEntries).warnings = [] := by
    rw [judgeOverrides_warnings, List.filterMap_eq_nil_iff]
    intro e he
    obtain ⟨r, p, hr, rfl⟩ := mem_overrideEntries.1 (mem_inKeyOrder.1 he)
    exact refusal?_eq_none_iff.2 ⟨r, hs.standsFor hr⟩
  cases hj : judgeOverrides s.overrideEntries
  simp_all

theorem judgeLevel_known {level : Option String}
    (h : ∀ l ∈ level, l ∈ ["error", "warn", "info", "debug", "trace"]) :
    judgeLevel level = ⟨level, []⟩ := by
  cases level with
  | none => rfl
  | some l =>
    have hlower : ∀ l ∈ Constants.logLevels, lowerCase l = l := by
      decide +kernel
    have hl : l ∈ Constants.logLevels := h l rfl
    rw [judgeLevel, hlower l hl, if_pos (List.contains_iff_mem.2 hl)]

/-- Nothing is refused, cut or changed. -/
theorem ofRaw_written {s : Settings} (hs : s.Expressible) : ofRaw s.written = (s, []) := by
  simp only [ofRaw, written, judgeMaxDepth_of_le hs.maxDepth_le,
    judgeSearchRoots_shown hs.roots_length hs.root,
    judgePublishers_trimmed hs.publishers_ne_nil hs.publisher, judgeOverrides_entries hs,
    judgeLevel_known hs.level, Option.getD_some, List.append_nil]

/-- Settings that a file can express are given back exactly by the file that
holds them all, and nothing is warned of. -/
theorem parse_written {s : Settings} (hs : s.Expressible) (sp : Toml.Spelling) (keep : Bool)
    (origin : Path) : parse (s.document sp keep) origin = (s, []) := by
  rw [parse_of_wellShaped (rawParse_document sp keep hs.maxDepth_le), ofRaw_written hs]

/-- Quotes, backslashes, line breaks and other control characters in every text. -/
theorem parse_written_escaped :
    let s : Settings :=
      { useRegistry := false
        useSteam := true
        useDefaultPaths := false
        searchRoots := [.ofText "/g\"a\\m\te", .ofText "/\x01\x7f/\u00e9"]
        maxDepth := 8
        publishers := ["\"W\"", "\\"]
        overrides := RegionMap.empty.set .china (.ofText "/a\nb")
        logLevel := some "debug" }
    s.Expressible ∧ parse (s.document .escaping false) (.ofText "/c") = (s, []) := by
  intro s
  have hs : s.Expressible :=
    { maxDepth_le := by decide
      roots_length := by decide
      root := by
        intro p hp
        simp only [s, List.mem_cons, List.not_mem_nil, or_false] at hp
        rcases hp with rfl | rfl
        · exact ⟨by decide, _, rfl, by decide⟩
        · exact ⟨by decide, _, rfl, by decide⟩
      publishers_ne_nil := by decide
      publisher := by decide
      override := by
        intro r p hp
        cases r <;> cases hp
        decide
      level := by decide
      override_text := by
        intro r p hp
        cases r <;> cases hp
        exact ⟨_, rfl, by decide⟩ }
  exact ⟨hs, parse_written hs .escaping false (.ofText "/c")⟩

end Settings
end InstallLocator
