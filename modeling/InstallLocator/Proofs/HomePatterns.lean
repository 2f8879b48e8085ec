import InstallLocator.Proofs.Expansion
import InstallLocator.Proofs.Offers

/-!
# Clients below the home directory

Whatever characters the home directory has, the patterns below it are read, and
they stand for the paths below that directory and no others. Each pattern is a
place: directories and the name of an entry in the last of them, or what that
name starts with.
-/

set_option autoImplicit false

namespace InstallLocator
namespace Strategy

/-- A place below the home directory, written in plain characters. -/
structure Place where
  directories : List (List Char)
  last : List Char
  openEnded : Bool
  directories_ne_nil : directories ≠ []
  plain : ∀ n ∈ last :: directories, n ≠ [] ∧ n.all Glob.isPlain = true
  undotted : last.head? ≠ some '.'

namespace Place

def pattern (place : Place) : String :=
  String.ofList (Glob.slashed place.directories place.last ++
    if place.openEnded then ['*'] else [])

/-- The directory that a place is in: the names of the home directory, and then
those of the place, each as it is. -/
def base (home : Path) (place : Place) : Path :=
  (home.names ++ place.directories.map Utf8.encode).foldl Path.child ⟨[Path.slash]⟩

/-- The names a place stands for. An open one takes every entry whose name starts
right, be it a link to nowhere. -/
def Admits (h : Host) (home : Path) (place : Place) (n : Name) : Prop :=
  if place.openEnded then
    (∃ l e, h.tree.resolve h.here .followed (place.base home) = .ok l ∧
      h.tree.find? (n :: l) = some e) ∧
    ∃ more, Utf8.decode? n = some (place.last ++ more)
  else n = Utf8.encode place.last ∧ h.exists? ((place.base home).child n) = true

end Place

def homePlaces : List Place :=
  [⟨["Games".toList, "world-of-warships".toList, "drive_c".toList, "Games".toList],
      "World_of_Warships".toList, true, by decide, by decide, by decide⟩,
    ⟨[".wine".toList, "drive_c".toList, "Games".toList],
      "World_of_Warships".toList, true, by decide, by decide, by decide⟩,
    ⟨[".local".toList, "share".toList, "Steam".toList, "steamapps".toList, "common".toList],
      "World of Warships".toList, false, by decide, by decide, by decide⟩]

theorem homePlaces_pattern : homePlaces.map Place.pattern = Constants.homePatterns := by
  decide

/-- The candidate in a directory below the home directory. -/
def homeCandidate? (h : Host) (directory : Path) : Option Candidate :=
  if h.isDirectory directory then
    match (GameInfo.identify h directory).value with
    | .ok s => some ⟨s, directory, defaultPathName⟩
    | .error _ => none
  else none

theorem exists_chars {home : Path} (ha : home.isAbsolute = true)
    (ht : home.text?.isSome = true) : ∃ cs, home = ⟨Utf8.encode ('/' :: cs)⟩ := by
  obtain ⟨bytes⟩ := home
  obtain ⟨cs, hcs⟩ := Option.isSome_iff_exists.1 (Option.isSome_map ▸ ht)
  obtain rfl := Utf8.decode?_eq_some_iff.1 hcs
  cases cs with
  | nil => cases ha
  | cons c cs =>
    obtain ⟨b, bs, hb⟩ := List.exists_cons_of_ne_nil (Utf8.encodeChar_ne_nil c)
    have hs : b = Path.slash := by
      have he : Utf8.encode (c :: cs) = b :: (bs ++ Utf8.encode cs) := congrArg (· ++ _) hb
      simpa [Path.isAbsolute, he] using ha
    have hc : Path.slash ∈ String.utf8EncodeChar c := by simp [hb, hs]
    refine ⟨cs, ?_⟩
    rw [Utf8.eq_of_mem_encodeChar hc (by decide)]
    rfl

theorem segments_slashed {ns : List (List Char)} (hns : ∀ n ∈ ns, '/' ∉ n) :
    Path.segments (Utf8.encode (Glob.slashed ns [])) = ns.map Utf8.encode ++ [[]] := by
  induction ns with
  | nil => rfl
  | cons n ns ih =>
    obtain ⟨hn, hrest⟩ := List.forall_mem_cons.1 hns
    have hs : Utf8.encode ('/' :: Glob.slashed ns []) =
        Path.slash :: Utf8.encode (Glob.slashed ns []) := rfl
    rw [Glob.slashed_cons, Utf8.encode_append, hs, Path.segments_append_slash, ih hrest,
      Path.segments_of_not_mem (Glob.slash_not_mem_encode hn)]
    rfl

theorem segments_encode (cs : List Char) :
    Path.segments (Utf8.encode cs) = (cs.splitOn '/').map Utf8.encode := by
  have hall := segments_slashed fun n (hn : n ∈ cs.splitOn '/') =>
    not_mem_of_mem_splitOn hn
  have hs : Utf8.encode (cs ++ ['/']) = Utf8.encode cs ++ Path.slash :: [] := by
    rw [Utf8.encode_append]
    rfl
  rw [Glob.slashed_splitOn, hs, Path.segments_append_slash] at hall
  exact List.append_cancel_right hall

theorem names_encode (cs : List Char) : Path.names ⟨Utf8.encode ('/' :: cs)⟩ =
    ((cs.splitOn '/').map Utf8.encode).filter (· ≠ []) := by
  have hs : Utf8.encode ('/' :: cs) = [] ++ Path.slash :: Utf8.encode cs := rfl
  rw [Path.names, hs, Path.segments_append_slash, segments_encode]
  simp [Path.segments]

theorem foldl_child_nil {p : Path} (hp : p.bytes ≠ []) {n : Name} (hn : Path.slash ∉ n)
    (ns : List Name) : (n :: ns).foldl Path.child (p.child []) = (n :: ns).foldl Path.child p := by
  rw [List.foldl_cons, List.foldl_cons]
  exact congrArg (ns.foldl Path.child) (Path.join_nil_join hp hn)

theorem foldl_child_filter {p : Path} (hp : p.isAbsolute = true) {ns : List Name} {n : Name}
    (hns : ∀ m ∈ ns, Path.slash ∉ m) (hn : Path.slash ∉ n) (ms : List Name) :
    (ns.filter (· ≠ []) ++ n :: ms).foldl Path.child p =
      (ns ++ n :: ms).foldl Path.child p := by
  induction ns generalizing p with
  | nil => rfl
  | cons m ns ih =>
    obtain ⟨hm, hrest⟩ := List.forall_mem_cons.1 hns
    have hb := Path.ne_nil_of_isAbsolute hp
    have hq : (p.child m).isAbsolute = true := (Path.isAbsolute_join hb hm).trans hp
    by_cases he : m = []
    · subst he
      rw [List.filter_cons_of_neg (by simp), List.cons_append, List.foldl_cons, ← ih hq hrest]
      cases hf : ns.filter (· ≠ []) with
      | nil => exact (foldl_child_nil hb hn ms).symm
      | cons k ks =>
        have hk := hrest k (List.mem_filter.1 (hf ▸ List.mem_cons_self)).1
        exact (foldl_child_nil hb hk _).symm
    · rw [List.filter_cons_of_pos (by simpa using he), List.cons_append, List.cons_append,
        List.foldl_cons, List.foldl_cons, ih hq hrest]

theorem under_eq_foldl (p : Path) (ns : List (List Char)) :
    Glob.under p ns = (ns.map Utf8.encode).foldl Path.child p :=
  List.foldl_map.symm

theorem Place.plain_of_mem (place : Place) {n : List Char}
    (hn : n ∈ place.last :: place.directories) {c : Char} (hc : c ∈ n) :
    c ≠ '/' ∧ ¬ Glob.IsMeta c := by
  have hp := List.all_eq_true.1 (place.plain n hn).2 c hc
  simpa [Glob.isPlain] using hp

theorem Place.slash_not_mem (place : Place) {n : List Char}
    (hn : n ∈ place.last :: place.directories) : '/' ∉ n :=
  fun hc => (place.plain_of_mem hn hc).1 rfl

theorem under_eq_base {home : Path} {cs : List Char} (hc : home = ⟨Utf8.encode ('/' :: cs)⟩)
    (place : Place) : Glob.under ⟨[Path.slash]⟩ (cs.splitOn '/' ++ place.directories) =
      place.base home := by
  obtain ⟨d, ds, hd⟩ := List.exists_cons_of_ne_nil place.directories_ne_nil
  have hds : '/' ∉ d := place.slash_not_mem (hd ▸ List.mem_cons_of_mem _ List.mem_cons_self)
  rw [hc, under_eq_foldl, Place.base, names_encode, hd, List.map_append, List.map_cons]
  symm
  apply foldl_child_filter rfl _ (Glob.slash_not_mem_encode hds)
  intro m hm
  obtain ⟨n, hn, rfl⟩ := List.mem_map.1 hm
  exact Glob.slash_not_mem_encode (not_mem_of_mem_splitOn hn)

theorem Place.escapeChars_slashed (place : Place) :
    Glob.escapeChars (Glob.slashed place.directories place.last) =
      Glob.slashed place.directories place.last := by
  apply Glob.escapeChars_of_plain
  intro c hc
  rw [Glob.slashed, List.mem_append, List.mem_flatMap] at hc
  rcases hc with ⟨n, hn, hc⟩ | hc
  · rcases List.mem_append.1 hc with hc | hc
    · exact (place.plain_of_mem (List.mem_cons_of_mem _ hn) hc).2
    · rw [List.mem_singleton.1 hc]
      decide
  · exact (place.plain_of_mem List.mem_cons_self hc).2

def Place.patternBelow (home : Path) (place : Place) : String :=
  Glob.escape home.shown ++ "/" ++ place.pattern

theorem homePatterns_some (home : Path) :
    homePatterns (some home) = homePlaces.map (Place.patternBelow home) := by
  change Constants.homePatterns.map _ = _
  rw [← homePlaces_pattern, List.map_map]
  rfl

theorem patternBelow_toList {home : Path} {cs : List Char}
    (hc : home = ⟨Utf8.encode ('/' :: cs)⟩) (place : Place) :
    (place.patternBelow home).toList =
      Glob.componentText ('/' :: Glob.slashed (cs.splitOn '/' ++ place.directories) place.last)
        place.openEnded := by
  have hsplit : '/' :: Glob.slashed (cs.splitOn '/' ++ place.directories) place.last =
      ('/' :: cs) ++ '/' :: Glob.slashed place.directories place.last := by
    rw [Glob.slashed_append_names, Glob.slashed_splitOn]
    rfl
  rw [hsplit, Glob.componentText, Glob.escapeChars_append,
    Glob.escapeChars_plain (by decide) (Glob.slashed place.directories place.last),
    place.escapeChars_slashed, Place.patternBelow, hc, Path.shown, Utf8.decodeLossy_encode,
    Glob.escape, Place.pattern]
  simp

namespace Place

variable {h : Host} {home : Path} {place : Place} {n : Name}

def opensWith (place : Place) (n : Name) : Bool :=
  (Utf8.decode? n).any (Glob.isMatch (Glob.component place.last true))

theorem opensWith_iff : place.opensWith n = true ↔
    ∃ more, Utf8.decode? n = some (place.last ++ more) := by
  rw [opensWith, Option.any_eq_true]
  constructor
  · rintro ⟨name, hname, hm⟩
    obtain ⟨more, rfl, -⟩ := Glob.isMatch_component.1 hm
    exact ⟨more, hname⟩
  · rintro ⟨more, hmore⟩
    exact ⟨_, hmore, Glob.isMatch_component.2 ⟨more, rfl, by simp⟩⟩

def names (h : Host) (home : Path) (place : Place) : List Name :=
  if place.openEnded then
    match h.list (place.base home) with
    | .ok es => (es.map Prod.fst).filter place.opensWith
    | .error _ => []
  else if h.exists? ((place.base home).child (Utf8.encode place.last)) then
    [Utf8.encode place.last]
  else []

theorem names_sorted (h : Host) (home : Path) (place : Place) :
    (place.names h home).Pairwise Name.Before := by
  unfold names
  split
  · cases hl : h.list (place.base home) with
    | error e => exact List.Pairwise.nil
    | ok es =>
      obtain ⟨l, -, -, rfl⟩ := Host.list_eq_ok_iff.1 hl
      exact (h.tree.listing_sorted l).filter _
  · split
    · exact List.pairwise_singleton _ _
    · exact List.Pairwise.nil

theorem mem_names_iff : n ∈ place.names h home ↔ place.Admits h home n := by
  unfold names Admits
  split
  · rw [← opensWith_iff]
    cases hl : h.list (place.base home) with
    | error e =>
      simp only [List.not_mem_nil, false_iff]
      rintro ⟨⟨l, f, hr, hf⟩, -⟩
      rw [Host.list_of_directory hr (FileTree.isDirectoryAt_of_find? hf)] at hl
      cases hl
    | ok es => rw [List.mem_filter, Host.mem_list_iff hl]
  · constructor
    · intro hn
      split at hn
      · rename_i hx
        obtain rfl := List.mem_singleton.1 hn
        exact ⟨rfl, hx⟩
      · cases hn
    · rintro ⟨rfl, hx⟩
      rw [if_pos hx]
      exact List.mem_singleton_self _

theorem last_ne_dots (place : Place) :
    ¬ (place.last = Glob.currentChars ∨ place.last = Glob.parentChars) := by
  rintro (he | he)
  all_goals
    apply place.undotted
    rw [he]
    rfl

theorem last_ne_nil (place : Place) : place.last ≠ [] :=
  (place.plain place.last List.mem_cons_self).1

theorem not_isMeta_last (place : Place) : ∀ c ∈ place.last, ¬ Glob.IsMeta c :=
  fun _ hc => (place.plain_of_mem List.mem_cons_self hc).2

theorem isThere_last_iff {p : Path} {directory : Bool} :
    Glob.isThere h p directory place.last = true ↔
      (∃ e, h.stat (p.child (Utf8.encode place.last)) = .ok e) ∨
        ∃ e, h.statLink (p.child (Utf8.encode place.last)) = .ok e := by
  rw [Glob.isThere, if_neg place.last_ne_dots, Bool.or_eq_true, Host.isOk_iff, Host.isOk_iff]

theorem isThere_of_exists {p : Path} (directory : Bool)
    (hx : h.exists? (p.child (Utf8.encode place.last)) = true) :
    Glob.isThere h p directory place.last = true :=
  isThere_last_iff.2 (Or.inl (Host.isOk_iff.1 hx))

theorem stat_of_isThere {p : Path} {directory : Bool} (hp : p.bytes ≠ [])
    (ht : Glob.isThere h p directory place.last = true) : h.stat p = .ok .directory := by
  have hs := Glob.slash_not_mem_encode (place.slash_not_mem List.mem_cons_self)
  have hne := Utf8.encode_ne_nil place.last_ne_nil
  apply Host.stat_directory_iff.2
  rcases isThere_last_iff.1 ht with ⟨e, he⟩ | ⟨e, he⟩
  · obtain ⟨l, hl, -⟩ := Host.stat_eq_ok_iff.1 he
    exact FileTree.resolve_of_resolve_join hl hp hs hne
  · obtain ⟨l, hl, -⟩ := Host.statLink_eq_ok_iff.1 he
    exact FileTree.resolve_of_resolve_join hl hp hs hne

def lastComponent (place : Place) : Glob.Component :=
  Glob.component place.last place.openEnded

theorem onlyErrors_last (place : Place) (depth : Nat) (p : Path) (directory : Bool)
    (hp : p.isAbsolute = true) (hd : h.stat p ≠ .ok .directory) :
    Glob.OnlyErrors (Glob.expansion h depth [place.lastComponent] p directory) := by
  unfold lastComponent
  cases ho : place.openEnded with
  | true =>
    exact Glob.expansion_unlisted (Glob.literal?_of_meta (Or.inl rfl))
      (Glob.undotted_of_head? place.last_ne_nil place.undotted) hd
  | false =>
    cases depth with
    | zero =>
      rw [Glob.expansion_zero]
      exact Glob.onlyErrors_nil
    | succ depth =>
      rw [Glob.expansion_last hp place.not_isMeta_last, if_neg]
      · exact Glob.onlyErrors_nil
      · intro ht
        exact hd (stat_of_isThere (Path.ne_nil_of_isAbsolute hp) ht)

end Place

def resultCandidates (h : Host) : Except Glob.ExpandError Path → List Candidate
  | .ok p => (homeCandidate? h p).toList
  | .error _ => []

theorem matchCandidate_value (h : Host) (pattern : String) (r : Except Glob.ExpandError Path) :
    (matchCandidate h pattern r).value = resultCandidates h r := by
  cases r with
  | error e => rfl
  | ok p =>
    simp only [matchCandidate, resultCandidates, homeCandidate?, identified]
    split
    · cases (GameInfo.identify h p).value <;> rfl
    · rfl

theorem patternCandidates_value (h : Host) {pattern : String} {parsed : Glob.Pattern}
    (hp : Glob.Pattern.ofText pattern = .ok parsed) :
    (patternCandidates h pattern).value =
      (parsed.expand h Constants.maxPatternMatches).flatMap (resultCandidates h) := by
  rw [patternCandidates, hp]
  simp only [Logged.gather_value, List.flatMap_map]
  exact congrArg (List.flatMap · _) (funext (matchCandidate_value h pattern))

theorem resultCandidates_errors {h : Host} {rs : List (Except Glob.ExpandError Path)}
    (he : Glob.OnlyErrors rs) : rs.flatMap (resultCandidates h) = [] := by
  rw [List.flatMap_eq_nil_iff]
  intro r hr
  obtain ⟨e, rfl⟩ := he r hr
  rfl

theorem resultCandidates_ok (h : Host) (ps : List Path) :
    (ps.map Except.ok).flatMap (resultCandidates h) = ps.filterMap (homeCandidate? h) := by
  induction ps with
  | nil => rfl
  | cons p ps ih =>
    rw [List.map_cons, List.flatMap_cons, ih, resultCandidates, List.filterMap_cons]
    cases homeCandidate? h p <;> rfl

namespace Place

variable {h : Host} {home p : Path} {place : Place}

theorem flatMap_opensWith (place : Place) (p : Path) (es : List (Name × Entry)) :
    (es.flatMap fun x => if place.opensWith x.1 = true then
      [(.ok (p.child x.1) : Except Glob.ExpandError Path)] else []) =
      (((es.map Prod.fst).filter place.opensWith).map p.child).map .ok := by
  induction es with
  | nil => rfl
  | cons x es ih =>
    rw [List.flatMap_cons, ih, List.map_cons]
    by_cases hx : place.opensWith x.1 = true
    · rw [if_pos hx, List.filter_cons_of_pos hx]
      rfl
    · rw [if_neg hx, List.filter_cons_of_neg hx]
      rfl

theorem expansion_openEnded (ho : place.openEnded = true) (depth : Nat)
    (ha : (place.base home).isAbsolute = true) (hd : h.stat (place.base home) = .ok .directory) :
    Glob.expansion h (depth + 1) [place.lastComponent] (place.base home) true =
      ((place.names h home).map (place.base home).child).map .ok := by
  obtain ⟨l, hr, hl⟩ := Host.stat_directory_iff.1 hd
  rw [lastComponent, ho, Glob.expansion_listed ha hr hl (Glob.literal?_of_meta (Or.inl rfl))
    (Glob.undotted_of_head? place.last_ne_nil place.undotted), names, if_pos ho,
    Host.list_of_directory hr hl]
  exact flatMap_opensWith place (place.base home) (h.tree.listing l)

theorem homeCandidate?_of_missing (hx : ¬ h.exists? p = true) : homeCandidate? h p = none := by
  rw [homeCandidate?, if_neg]
  intro hd
  obtain ⟨e, hs, -⟩ := Host.isDirectory_iff.1 hd
  apply hx
  rw [Host.exists?, hs]
  rfl

theorem candidates_of_directory (limit depth : Nat)
    (ha : (place.base home).isAbsolute = true) (hd : h.stat (place.base home) = .ok .directory) :
    ((Glob.expansion h (depth + 1) [place.lastComponent] (place.base home) true).take
      limit).flatMap (resultCandidates h) =
      (((place.names h home).map (place.base home).child).take limit).filterMap
        (homeCandidate? h) := by
  cases ho : place.openEnded with
  | true =>
    rw [expansion_openEnded ho depth ha hd, ← List.map_take, resultCandidates_ok]
  | false =>
    rw [lastComponent, ho, Glob.expansion_last ha place.not_isMeta_last, names, ho]
    simp only [Bool.false_eq_true, if_false]
    by_cases hx : h.exists? ((place.base home).child (Utf8.encode place.last)) = true
    · rw [if_pos (isThere_of_exists true hx), if_pos hx, List.map_singleton,
        ← resultCandidates_ok, List.map_take]
      rfl
    · have hnone := homeCandidate?_of_missing hx
      rw [if_neg hx]
      split
      · cases limit with
        | zero => rfl
        | succ limit => simp [resultCandidates, hnone]
      · simp

theorem names_of_not_directory (hp : (place.base home).isAbsolute = true)
    (hd : h.stat (place.base home) ≠ .ok .directory) : place.names h home = [] := by
  rw [names]
  split
  · cases hl : h.list (place.base home) with
    | error e => rfl
    | ok es => exact absurd (Host.stat_of_list hl) hd
  · rw [if_neg]
    intro hx
    exact hd (stat_of_isThere (Path.ne_nil_of_isAbsolute hp) (isThere_of_exists true hx))

section
variable {cs : List Char}

theorem slash_not_mem_components (cs : List Char) (place : Place) :
    ∀ n ∈ cs.splitOn '/' ++ place.directories, '/' ∉ n := by
  intro n hn
  rcases List.mem_append.1 hn with hn | hn
  · exact not_mem_of_mem_splitOn hn
  · exact place.slash_not_mem (List.mem_cons_of_mem _ hn)

theorem ofText_patternBelow (hc : home = ⟨Utf8.encode ('/' :: cs)⟩) (place : Place) :
    Glob.Pattern.ofText (place.patternBelow home) = .ok ⟨true,
      ((cs.splitOn '/' ++ place.directories).map fun n => Glob.component n false) ++
        [place.lastComponent], false⟩ :=
  Glob.ofText_slashed (slash_not_mem_components cs place) (place.slash_not_mem List.mem_cons_self)
    place.last_ne_nil (patternBelow_toList hc place)

theorem expansion_base (hc : home = ⟨Utf8.encode ('/' :: cs)⟩)
    (hd : h.stat (place.base home) = .ok .directory) :
    ∃ depth, Glob.expansion h (FileTree.maxPathLength + 2)
      (((cs.splitOn '/' ++ place.directories).map fun n => Glob.component n false) ++
        [place.lastComponent]) ⟨[Path.slash]⟩ true =
      Glob.expansion h (depth + 1) [place.lastComponent] (place.base home) true := by
  have hbase := under_eq_base hc place
  obtain ⟨l, hl, -⟩ := Host.stat_directory_iff.1 hd
  have hlen := (FileTree.resolve_eq_ok_iff.1 hl).1.length_le
  rw [← hbase] at hd hlen ⊢
  apply Glob.expansion_under rfl (slash_not_mem_components cs place) hd
  simp only [List.length_singleton]
  omega

theorem patternCandidates_below (h : Host) (hc : home = ⟨Utf8.encode ('/' :: cs)⟩)
    (place : Place) : (patternCandidates h (place.patternBelow home)).value =
      (((place.names h home).map (place.base home).child).take
        Constants.maxPatternMatches).filterMap (homeCandidate? h) := by
  have hnames := slash_not_mem_components cs place
  have hbase := under_eq_base hc place
  have habs : (place.base home).isAbsolute = true := by
    rw [← hbase]
    exact Glob.isAbsolute_under rfl hnames
  rw [patternCandidates_value h (ofText_patternBelow hc place), Glob.expand_eq_take]
  by_cases hd : h.stat (place.base home) = .ok .directory
  · have hroot : h.isDirectory ⟨[Path.slash]⟩ = true :=
      Host.isDirectory_of_stat (Glob.stat_of_under rfl hnames (hbase ▸ hd))
    obtain ⟨depth, he⟩ := expansion_base hc hd
    rw [hroot, he, candidates_of_directory _ depth habs hd]
  · rw [names_of_not_directory habs hd, resultCandidates_errors]
    · simp
    · intro r hr
      exact Glob.onlyErrors_of_not_directory place.onlyErrors_last rfl hnames (hbase ▸ hd) r
        (List.mem_of_mem_take hr)

end

end Place

/-- Below an absolute home directory of valid UTF-8, whatever its characters, every pattern
is valid and stands for the names that its place admits, in byte order. The candidates are
the first of them that are directories of a known client. -/
theorem defaultPaths_home (h : Host) (home : Path) (absolute : home.isAbsolute = true)
    (text : home.text?.isSome = true) :
    homePlaces.map Place.pattern = Constants.homePatterns ∧
    (∀ pattern ∈ homePatterns (some home), ∃ parsed, Glob.Pattern.ofText pattern = .ok parsed) ∧
    ∃ names : Place → List Name,
      (∀ place, (names place).Pairwise Name.Before ∧
        ∀ n, n ∈ names place ↔ place.Admits h home n) ∧
      ((defaultPaths (homePatterns (some home))).probe h).value =
        .ok (homePlaces.flatMap fun place =>
          (((names place).map (place.base home).child).take Constants.maxPatternMatches).filterMap
            (homeCandidate? h)) := by
  obtain ⟨cs, hc⟩ := exists_chars absolute text
  rw [homePatterns_some]
  refine ⟨homePlaces_pattern, ?_, Place.names h home, ?_, ?_⟩
  · intro pattern hp
    obtain ⟨place, -, rfl⟩ := List.mem_map.1 hp
    exact ⟨_, place.ofText_patternBelow hc⟩
  · intro place
    exact ⟨place.names_sorted h home, fun n => Place.mem_names_iff⟩
  · simp only [defaultPaths, Logged.map, Logged.gather_value, List.map_map, List.flatMap_map,
      Function.comp_def, Place.patternCandidates_below h hc]

end Strategy

def Host.withDirectories (names : List Name) : Host where
  tree := (names.foldl (fun x n => (x.1.put n x.2 .directory, n :: x.2)) (FileTree.empty, [])).1
  here := []
  environment := ⟨none, none, none, none⟩

namespace Strategy

/-- A home directory whose name would, as a pattern, stand for other names. -/
theorem defaultPaths_home_bracketed :
    let client := Utf8.encode "World_of_Warships".toList
    let h := Host.withDirectories
      ((["[!b]*", ".wine", "drive_c", "Games"].map fun n => Utf8.encode n.toList) ++ [client])
    let home := Path.ofText "/[!b]*"
    home.isAbsolute = true ∧ home.text?.isSome = true ∧ ∃ names : Place → List Name,
      (∃ place ∈ homePlaces, client ∈ names place) ∧
      ((defaultPaths (homePatterns (some home))).probe h).value =
        .ok (homePlaces.flatMap fun place =>
          (((names place).map (place.base home).child).take Constants.maxPatternMatches).filterMap
            (homeCandidate? h)) := by
  intro client h home
  obtain ⟨-, -, names, hnames, hvalue⟩ := defaultPaths_home h home rfl rfl
  refine ⟨rfl, rfl, names, ⟨_, List.mem_cons_of_mem _ List.mem_cons_self, ?_⟩, hvalue⟩
  rw [(hnames _).2]
  exact ⟨⟨_, _, rfl, rfl⟩, [], rfl⟩

end Strategy
end InstallLocator
