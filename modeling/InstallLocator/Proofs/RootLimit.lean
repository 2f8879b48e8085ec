import InstallLocator.Proofs.OverrideTable

/-!
# The limit on search roots

Of the search roots of a file the first absolute ones are taken, up to the
limit. A blank or relative entry does not count towards it and is reported. The
first absolute entry beyond the limit ends the reading: it is reported once, and
nothing after it is looked at.
-/

set_option autoImplicit false

namespace InstallLocator.Settings

def rootPath (entry : String) : Path := .ofText (trim entry)

/-- The entry can be taken as a search root. -/
def IsRoot (entry : String) : Prop := (rootPath entry).isAbsolute = true

instance (entry : String) : Decidable (IsRoot entry) :=
  inferInstanceAs (Decidable (_ = true))

/-- The warning for an entry that cannot be taken. -/
def rootRefusal? (entry : String) : Option String :=
  if IsRoot entry then none
  else some (if trim entry = "" then emptyRoot else relativeRoot (trim entry))

/-- The entries that are looked at: all of them, or those before the first root
beyond the limit. -/
inductive Heard (limit : Nat) : List String → List String → Prop
  | all {entries : List String} (few : entries.countP IsRoot ≤ limit) : Heard limit entries entries
  | cut {heard : List String} {next : String} (rest : List String)
    (full : heard.countP IsRoot = limit) (next_root : IsRoot next) :
    Heard limit (heard ++ next :: rest) heard

variable {limit : Nat} {entry : String} {entries heard : List String}

theorem rootRefusal?_eq_none_iff : rootRefusal? entry = none ↔ IsRoot entry := by
  simp [rootRefusal?]

theorem not_isRoot_of_blank (h : trim entry = "") : ¬IsRoot entry := by
  rw [IsRoot, rootPath, h]
  decide

theorem Heard.cons_refused (h : Heard limit entries heard) (hroot : ¬IsRoot entry) :
    Heard limit (entry :: entries) (entry :: heard) := by
  have hcount : ∀ es : List String, (entry :: es).countP IsRoot = es.countP IsRoot := fun es =>
    List.countP_cons_of_neg (by simpa using hroot)
  cases h with
  | all few => exact .all (by rwa [hcount])
  | cut rest full next_root =>
    rw [← List.cons_append]
    exact .cut rest (by rwa [hcount]) next_root

theorem Heard.cons_root (h : Heard limit entries heard) (hroot : IsRoot entry) :
    Heard (limit + 1) (entry :: entries) (entry :: heard) := by
  have hcount : ∀ es : List String, (entry :: es).countP IsRoot = es.countP IsRoot + 1 :=
    fun es => List.countP_cons_of_pos (by simpa using hroot)
  cases h with
  | all few => exact .all (by rw [hcount]; exact Nat.succ_le_succ few)
  | cut rest full next_root =>
    rw [← List.cons_append]
    exact .cut rest (by rw [hcount, full]) next_root

/-- What is to be made of the entries: the first roots are taken, and the warnings
are those of the entries looked at, with one more if a root was left. -/
def LimitKept (limit : Nat) (entries : List String) (judged : Judged (List Path)) : Prop :=
  ∃ heard, Heard limit entries heard ∧
    judged.value = ((entries.map rootPath).filter Path.isAbsolute).take limit ∧
    judged.warnings = heard.filterMap rootRefusal? ++
      if limit < entries.countP IsRoot then [tooManyRoots] else []

theorem LimitKept.cons_refused {w : String} {judged : Judged (List Path)}
    (h : LimitKept limit entries judged) (hw : rootRefusal? entry = some w) :
    LimitKept limit (entry :: entries) ⟨judged.value, w :: judged.warnings⟩ := by
  have hroot : ¬IsRoot entry := fun hr => by simp [rootRefusal?_eq_none_iff.2 hr] at hw
  obtain ⟨heard, hheard, hvalue, hwarnings⟩ := h
  refine ⟨entry :: heard, hheard.cons_refused hroot, ?_, ?_⟩
  · rw [hvalue, List.map_cons, List.filter_cons_of_neg hroot]
  · rw [hwarnings, List.filterMap_cons_some hw, List.countP_cons_of_neg (by simpa using hroot)]
    rfl

theorem LimitKept.cons_root {judged : Judged (List Path)} (h : LimitKept limit entries judged)
    (hroot : IsRoot entry) :
    LimitKept (limit + 1) (entry :: entries)
      ⟨rootPath entry :: judged.value, judged.warnings⟩ := by
  obtain ⟨heard, hheard, hvalue, hwarnings⟩ := h
  refine ⟨entry :: heard, hheard.cons_root hroot, ?_, ?_⟩
  · rw [hvalue, List.map_cons, List.filter_cons_of_pos hroot, List.take_succ_cons]
  · rw [hwarnings, List.filterMap_cons_none (rootRefusal?_eq_none_iff.2 hroot),
      List.countP_cons_of_pos (by simpa using hroot)]
    simp only [Nat.add_lt_add_iff_right]

theorem limitKept_of_full (hroot : IsRoot entry) (rest : List String) :
    LimitKept 0 (entry :: rest) ⟨[], [tooManyRoots]⟩ := by
  have hcut : Heard 0 ([] ++ entry :: rest) [] := .cut rest rfl hroot
  refine ⟨[], hcut, rfl, ?_⟩
  rw [List.countP_cons_of_pos (by simpa using hroot), if_pos (Nat.zero_lt_succ _)]
  rfl

theorem judgeRoots_limitKept (limit : Nat) (entries : List String) :
    LimitKept limit entries (judgeRoots limit entries) := by
  fun_induction judgeRoots limit entries with
  | case1 limit => exact ⟨[], .all (Nat.zero_le _), by simp, by simp⟩
  | case2 limit entry rest text hblank later ih =>
    refine ih.cons_refused ?_
    rw [rootRefusal?, if_neg (not_isRoot_of_blank hblank), if_pos hblank]
  | case3 limit entry rest text path hblank hrel later ih =>
    have hroot : ¬IsRoot entry := Bool.eq_false_iff.1 (by simpa using hrel : path.isAbsolute = false)
    refine ih.cons_refused ?_
    rw [rootRefusal?, if_neg hroot, if_neg hblank]
  | case4 entry rest text path hblank habs =>
    have hroot : path.isAbsolute = true := by simpa using habs
    exact limitKept_of_full hroot rest
  | case5 entry rest text path hblank habs limit later ih =>
    have hroot : path.isAbsolute = true := by simpa using habs
    exact ih.cons_root hroot

theorem Heard.eq_of_le (h : Heard limit entries heard) (hle : entries.countP IsRoot ≤ limit) :
    heard = entries := by
  cases h with
  | all few => rfl
  | cut rest full next_root =>
    rw [List.countP_append, full, List.countP_cons_of_pos (by simpa using next_root)] at hle
    omega

section

variable {roots refused : List String} (hroots : ∀ entry ∈ roots, IsRoot entry)

include hroots

theorem filterMap_roots_append :
    (roots ++ refused).filterMap rootRefusal? = refused.filterMap rootRefusal? := by
  have hnone : roots.filterMap rootRefusal? = [] :=
    List.filterMap_eq_nil_iff.2 fun entry he => rootRefusal?_eq_none_iff.2 (hroots entry he)
  rw [List.filterMap_append, hnone, List.nil_append]

variable (hrefused : ∀ entry ∈ refused, ¬IsRoot entry)

include hrefused

theorem countP_roots_append : (roots ++ refused).countP IsRoot = roots.length := by
  rw [List.countP_append, List.countP_eq_length.2 (by simpa using hroots),
    List.countP_eq_zero.2 (by simpa using hrefused), Nat.add_zero]

theorem filter_roots_append :
    ((roots ++ refused).map rootPath).filter Path.isAbsolute = roots.map rootPath := by
  have hkept : (roots.map rootPath).filter Path.isAbsolute = roots.map rootPath := by
    rw [List.filter_eq_self]
    exact List.forall_mem_map.2 hroots
  have hnone : (refused.map rootPath).filter Path.isAbsolute = [] := by
    rw [List.filter_eq_nil_iff]
    exact List.forall_mem_map.2 hrefused
  rw [List.map_append, List.filter_append, hkept, hnone, List.append_nil]

end

/-- The search roots of a file are its first thirty-two absolute entries, white
space around them left out, and no other setting depends on its entries. Its
warnings come between those of the depth and those of the rest: one for each
blank or relative entry before the thirty-third absolute one, and then the one
about the limit if there is a thirty-third. So thirty-two roots are all taken,
and without a word about the limit, whatever refused entries follow. -/
theorem parse_searchRoots_limit {text : String} {raw : RawSettings} {entries : List String}
    (origin : Path) (hraw : RawSettings.parse text = .ok raw)
    (hentries : raw.searchRoots = some entries) :
    (parse text origin).1 = { (ofRaw { raw with searchRoots := none }).1 with
        searchRoots := ((entries.map rootPath).filter Path.isAbsolute).take 32 } ∧
      ∃ before after, before = (judgeMaxDepth raw.maxDepth).warnings ∧
        (ofRaw { raw with searchRoots := none }).2 = before ++ after ∧
        (∃ heard, Heard 32 entries heard ∧
          (parse text origin).2 = before ++ (heard.filterMap rootRefusal? ++
            if 33 ≤ entries.countP IsRoot then [tooManyRoots] else []) ++ after) ∧
        ∀ roots refused, entries = roots ++ refused → roots.length = 32 →
          (∀ entry ∈ roots, IsRoot entry) → (∀ entry ∈ refused, ¬IsRoot entry) →
            (parse text origin).1.searchRoots = roots.map rootPath ∧
              (parse text origin).2 = before ++ refused.filterMap rootRefusal? ++ after := by
  have hparse := parse_of_wellShaped hraw origin
  obtain ⟨heard, hheard, hvalue, hwarnings⟩ := judgeRoots_limitKept 32 entries
  have hjudge : judgeSearchRoots raw.searchRoots = judgeRoots 32 entries := by
    rw [hentries]
    rfl
  have hsettings : (parse text origin).1 = { (ofRaw { raw with searchRoots := none }).1 with
      searchRoots := ((entries.map rootPath).filter Path.isAbsolute).take 32 } := by
    rw [hparse, ← hvalue, ← hjudge]
    rfl
  let before := (judgeMaxDepth raw.maxDepth).warnings
  let after := (judgePublishers raw.publishers).warnings ++
    ((judgeOverrides raw.overrides).warnings ++ (judgeLevel raw.level).warnings)
  have hadded : (parse text origin).2 = before ++ (heard.filterMap rootRefusal? ++
      if 33 ≤ entries.countP IsRoot then [tooManyRoots] else []) ++ after := by
    have hall : (ofRaw raw).2 = before ++ (judgeSearchRoots raw.searchRoots).warnings ++ after := by
      simp only [ofRaw, before, after, List.append_assoc]
    rw [hparse, hall, hjudge, hwarnings]
    rfl
  have hothers : (ofRaw { raw with searchRoots := none }).2 = before ++ after := by
    simp only [ofRaw, before, after, List.append_assoc]
    rfl
  refine ⟨hsettings, before, after, rfl, hothers, ⟨heard, hheard, hadded⟩, ?_⟩
  rintro roots refused rfl hlength hroots hrefused
  have hcount := (countP_roots_append hroots hrefused).trans hlength
  rw [hheard.eq_of_le (Nat.le_of_eq hcount), filterMap_roots_append hroots, hcount] at hadded
  rw [hsettings, filter_roots_append hroots hrefused]
  refine ⟨List.take_of_length_le (Nat.le_of_eq (by rw [List.length_map, hlength])), ?_⟩
  simpa using hadded

/-- Thirty-two roots and two entries that are none: all roots are taken, and the
limit is not reached. -/
theorem parse_searchRoots_limit_reached :
    let text := "[discovery]\nsearch_roots = [" ++
      "'/', '/', '/', '/', '/', '/', '/', '/', '/', '/', '/', '/', '/', '/', '/', '/', " ++
      "'/', '/', '/', '/', '/', '/', '/', '/', '/', '/', '/', '/', '/', '/', '/', '/', " ++
      "' ', 'a']\n"
    (parse text (.ofText "/c")).1.searchRoots = (List.replicate 32 "/").map rootPath ∧
      (parse text (.ofText "/c")).2 = [emptyRoot, relativeRoot "a"] := by
  intro text
  have hraw : RawSettings.parse text = .ok { RawSettings.empty with
      searchRoots := some (List.replicate 32 "/" ++ [" ", "a"]) } := by
    have hread : (RawSettings.parse text).toOption = some { RawSettings.empty with
        searchRoots := some (List.replicate 32 "/" ++ [" ", "a"]) } := by
      decide +kernel
    cases hp : RawSettings.parse text with
    | error e =>
      rw [hp] at hread
      cases hread
    | ok raw =>
      rw [hp] at hread
      exact congrArg Except.ok (Option.some.inj hread)
  obtain ⟨-, before, after, hbefore, hothers, -, hroots⟩ :=
    parse_searchRoots_limit (.ofText "/c") hraw rfl
  have hnothing : before ++ after = [] := hothers.symm.trans (by with_unfolding_all rfl)
  obtain ⟨rfl, rfl⟩ := List.append_eq_nil_iff.1 hnothing
  obtain ⟨htaken, hwarnings⟩ := hroots (List.replicate 32 "/") [" ", "a"] rfl (by decide)
    (by decide) (by decide)
  exact ⟨htaken, hwarnings.trans (by with_unfolding_all rfl)⟩

end InstallLocator.Settings
