import InstallLocator.Proofs.DistinctKeys
import InstallLocator.Proofs.SectionReading
import InstallLocator.Proofs.Utf8Exact
import InstallLocator.Proofs.WrittenSettings
import Mathlib.Data.List.Nodup
import Mathlib.Data.List.Perm.Basic
import Mathlib.Data.Set.List

/-!
# The order of the overrides

No key of the table of overrides stands twice, and its entries are judged in byte
order of their keys. So the order of the lines makes no difference to the
settings and to the warnings, and for each region there is one entry that decides.
-/

set_option autoImplicit false

namespace InstallLocator

theorem textLe_antisymm {a b : String} (hab : textLe a b = true) (hba : textLe b a = true) :
    a = b :=
  String.toList_inj.1 (Utf8.encode_injective (Name.le_antisymm hab hba))

namespace Toml

/-- Two documents that differ in the order of the pairs of one table, if at all. -/
inductive PermutedIn (name : String) : Pairs → Pairs → Prop
  | table (before after : Pairs) (kind otherKind : TableKind) {inner others : Pairs}
      (perm : inner.Perm others) :
      PermutedIn name (before ++ (name, .table kind inner) :: after)
        (before ++ (name, .table otherKind others) :: after)

def entry (e : String × String) : String × Item := (e.1, .text e.2)

theorem entry_injective : Function.Injective entry := by
  rintro ⟨k, v⟩ ⟨l, w⟩ h
  cases h
  rfl

theorem keys_entries (es : List (String × String)) :
    (es.map entry).map Prod.fst = es.map Prod.fst := by
  rw [List.map_map]
  rfl

namespace Item

theorem map_toText_eq_ok {p : String × Item} {e : String × String}
    (h : (toText p.2).map (p.1, ·) = .ok e) : p = entry e := by
  obtain ⟨key, item⟩ := p
  cases item <;> cases h
  rfl

theorem mapM_eq_ok_iff {α β : Type} {decode : α → Except ShapeError β} {encode : β → α}
    (h : ∀ a b, decode a = .ok b ↔ a = encode b) {as : List α} {bs : List β} :
    as.mapM decode = .ok bs ↔ as = bs.map encode := by
  constructor
  · intro hm
    induction as generalizing bs with
    | nil =>
      cases hm
      rfl
    | cons a as ih =>
      rw [List.mapM_cons] at hm
      obtain ⟨b, hb, hm⟩ := RawSettings.bind_eq_ok_iff.1 hm
      obtain ⟨more, hmore, hm⟩ := RawSettings.bind_eq_ok_iff.1 hm
      cases hm
      rw [(h a b).1 hb, ih hmore, List.map_cons]
  · rintro rfl
    exact Settings.mapM_map_ok (fun b => (h _ _).2 rfl) bs

theorem mapM_toText_eq_ok_iff {pairs : Pairs} {es : List (String × String)} :
    (pairs.mapM fun p => (toText p.2).map (p.1, ·)) = .ok es ↔ pairs = es.map entry := by
  refine mapM_eq_ok_iff fun p e => ⟨map_toText_eq_ok, ?_⟩
  rintro rfl
  rfl

theorem toTextPairs_eq_ok_iff {item : Item} {es : List (String × String)} :
    item.toTextPairs = .ok es ↔ item.pairs? = some (es.map entry) := by
  unfold toTextPairs
  cases item.pairs? with
  | none => simp
  | some pairs => rw [Option.some_inj, ← mapM_toText_eq_ok_iff]

theorem Keyed.pairs? {item : Item} (h : item.Keyed) {ps : Pairs} (hp : item.pairs? = some ps) :
    ps.Keyed := by
  cases h with
  | table kind keyed =>
    cases hp
    exact keyed
  | moment =>
    cases hp
    exact Pairs.keyed_nil.concat rfl (.text "")
  | _ => cases hp

theorem toTextPairs_keys_nodup {item : Item} (h : item.Keyed) {es : List (String × String)}
    (he : item.toTextPairs = .ok es) : (es.map Prod.fst).Nodup :=
  keys_entries es ▸ (h.pairs? (toTextPairs_eq_ok_iff.1 he)).nodup

theorem toTextPairs_perm {kind : TableKind} (otherKind : TableKind) {inner others : Pairs}
    (hp : inner.Perm others) {es : List (String × String)}
    (he : toTextPairs (.table kind inner) = .ok es) :
    ∃ fs, toTextPairs (.table otherKind others) = .ok fs ∧ es.Perm fs := by
  obtain rfl : inner = es.map entry := Option.some_inj.1 (toTextPairs_eq_ok_iff.1 he)
  have hothers : others ∈ Set.range (List.map entry) := by
    rw [Set.range_list_map]
    intro p hmem
    obtain ⟨e, -, rfl⟩ := List.mem_map.1 (hp.mem_iff.2 hmem)
    exact ⟨e, rfl⟩
  obtain ⟨fs, rfl⟩ := hothers
  exact ⟨fs, toTextPairs_eq_ok_iff.2 rfl, (List.map_perm_map_iff entry_injective).1 hp⟩

end Item
end Toml

namespace RawSettings

open Toml (Item)

def withOverrides (s : RawSettings) (es : List (String × String)) : RawSettings :=
  { s with overrides := es }

/-- Reads a part of a document that has nothing to do with the overrides. -/
def KeepsOverrides (read : Reading) : Prop :=
  ∀ s es, read (s.withOverrides es) = (read s).map (·.withOverrides es)

theorem keepsOverrides_composes : Composes KeepsOverrides where
  ok _ _ := rfl
  error _ _ _ := rfl
  bind := by
    intro f g hf hg s es
    dsimp only
    rw [hf]
    cases f s with
    | error e => rfl
    | ok t => exact hg t es

theorem keepsOverrides_field {α : Type} (name : String) (decode : Item → Except ShapeError α)
    {put : RawSettings → Option α → RawSettings}
    (hput : ∀ s es x, put (s.withOverrides es) x = (put s x).withOverrides es) (item : Item) :
    KeepsOverrides ((field name decode put).set item) := by
  intro s es
  dsimp only [field]
  cases decode item with
  | error e => rfl
  | ok a => exact congrArg Except.ok (hput s es (some a))

theorem keepsOverrides_discovery {f : Field} (hf : f ∈ discoveryFields) (item : Item) :
    KeepsOverrides (f.set item) := by
  simp only [discoveryFields, List.mem_cons, List.not_mem_nil, or_false] at hf
  rcases hf with rfl | rfl | rfl | rfl | rfl | rfl <;>
    exact keepsOverrides_field _ _ (fun _ _ _ => rfl) item

theorem keepsOverrides_logging {f : Field} (hf : f ∈ loggingFields) (item : Item) :
    KeepsOverrides (f.set item) := by
  cases List.mem_singleton.1 hf
  exact keepsOverrides_field _ _ (fun _ _ _ => rfl) item

theorem keepsOverrides_section {f : Field} (hf : f ∈ sections) (hname : f.name ≠ "overrides")
    (item : Item) : KeepsOverrides (f.set item) := by
  simp only [sections, List.mem_cons, List.not_mem_nil, or_false] at hf
  rcases hf with rfl | rfl | rfl
  · exact keepsOverrides_composes.setSection _ (fun f hf => keepsOverrides_discovery hf) item
  · exact absurd rfl hname
  · exact keepsOverrides_composes.setSection _ (fun f hf => keepsOverrides_logging hf) item

theorem keepsOverrides_pairs {pairs : Toml.Pairs} (hno : "overrides" ∉ pairs.map Prod.fst) :
    KeepsOverrides fun s => pairs.foldlM (setNamed sections) s := by
  refine keepsOverrides_composes.foldlM fun p hp =>
    keepsOverrides_composes.setNamed_of_name fun f hf hname => ?_
  refine keepsOverrides_section hf (fun ho => hno ?_) p.2
  exact (hname.symm.trans ho) ▸ List.mem_map_of_mem hp

theorem KeepsOverrides.overrides_eq {read : Reading} (h : KeepsOverrides read)
    {s t : RawSettings} (hs : read s = .ok t) : t.overrides = s.overrides := by
  have hkeep : read s = (read s).map (·.withOverrides s.overrides) := h s s.overrides
  rw [hs] at hkeep
  have ht : t = t.withOverrides s.overrides := Except.ok.inj hkeep
  rw [ht]
  rfl

theorem ofPairs_eq_ok_iff {before after : Toml.Pairs} {item : Item} {raw : RawSettings}
    (hafter : "overrides" ∉ after.map Prod.fst) :
    ofPairs (before ++ ("overrides", item) :: after) = .ok raw ↔
      ∃ es t, item.toTextPairs = .ok es ∧ ofPairs (before ++ after) = .ok t ∧
        t.withOverrides es = raw := by
  have hset : ∀ s : RawSettings, setNamed sections s ("overrides", item) =
      item.toTextPairs.map s.withOverrides :=
    fun _ => rfl
  simp only [ofPairs, List.foldlM_append, List.foldlM_cons, hset]
  cases before.foldlM (setNamed sections) RawSettings.empty with
  | error e => simp [bind, Except.bind]
  | ok s =>
    have hrest := keepsOverrides_pairs hafter s
    cases item.toTextPairs with
    | error e => simp [bind, Except.bind, Except.map]
    | ok es =>
      simp only [bind, Except.bind, Except.map] at hrest ⊢
      rw [hrest]
      cases after.foldlM (setNamed sections) s <;> simp

theorem overrides_keys_nodup {pairs : Toml.Pairs} (hk : pairs.Keyed) {raw : RawSettings}
    (hraw : ofPairs pairs = .ok raw) : (raw.overrides.map Prod.fst).Nodup := by
  by_cases hmem : "overrides" ∈ pairs.map Prod.fst
  · obtain ⟨⟨_, item⟩, hp, rfl⟩ := List.mem_map.1 hmem
    obtain ⟨before, after, rfl⟩ := List.append_of_mem hp
    obtain ⟨es, t, hes, -, rfl⟩ := (ofPairs_eq_ok_iff hk.not_mem_after).1 hraw
    exact Item.toTextPairs_keys_nodup (hk.of_mem hp) hes
  · rw [(keepsOverrides_pairs hmem).overrides_eq hraw]
    exact List.nodup_nil

theorem eq_entries_of_mem {pairs inner : Toml.Pairs} {kind : Toml.TableKind} (hk : pairs.Keyed)
    (hmem : ("overrides", Item.table kind inner) ∈ pairs) {raw : RawSettings}
    (hraw : ofPairs pairs = .ok raw) : inner = raw.overrides.map Toml.entry := by
  obtain ⟨before, after, rfl⟩ := List.append_of_mem hmem
  obtain ⟨es, t, hes, -, rfl⟩ := (ofPairs_eq_ok_iff hk.not_mem_after).1 hraw
  exact Option.some_inj.1 (Item.toTextPairs_eq_ok_iff.1 hes)

theorem ofPairs_permutedIn {pairs others : Toml.Pairs} (hk : pairs.Keyed)
    (hp : Toml.PermutedIn "overrides" pairs others) {raw : RawSettings}
    (hraw : ofPairs pairs = .ok raw) :
    ∃ es, raw.overrides.Perm es ∧ ofPairs others = .ok (raw.withOverrides es) := by
  obtain ⟨before, after, kind, otherKind, perm⟩ := hp
  obtain ⟨es, t, hes, ht, rfl⟩ := (ofPairs_eq_ok_iff hk.not_mem_after).1 hraw
  obtain ⟨fs, hfs, hperm⟩ := Item.toTextPairs_perm otherKind perm hes
  exact ⟨fs, hperm, (ofPairs_eq_ok_iff hk.not_mem_after).2 ⟨fs, t, hfs, ht, rfl⟩⟩

end RawSettings

namespace Settings

theorem inKeyOrder_perm (entries : List (String × String)) : (inKeyOrder entries).Perm entries :=
  List.mergeSort_perm entries _

/-- Entries with distinct keys have one order by their keys. -/
theorem inKeyOrder_eq_of_perm {entries others : List (String × String)}
    (hn : (entries.map Prod.fst).Nodup) (hp : entries.Perm others) :
    inKeyOrder entries = inKeyOrder others := by
  have hperm : (inKeyOrder entries).Perm (inKeyOrder others) :=
    (inKeyOrder_perm entries).trans (hp.trans (inKeyOrder_perm others).symm)
  refine List.Perm.eq_of_pairwise (fun a b ha hb hab hba => ?_) (inKeyOrder_sorted entries)
    (inKeyOrder_sorted others) hperm
  have ha : a ∈ entries := mem_inKeyOrder.1 ha
  have hb : b ∈ entries := hp.mem_iff.2 (mem_inKeyOrder.1 hb)
  exact List.inj_on_of_nodup_map hn ha hb (textLe_antisymm hab hba)

theorem inKeyOrder_strict {entries : List (String × String)}
    (hn : (entries.map Prod.fst).Nodup) :
    (inKeyOrder entries).Pairwise fun a b => textLe a.1 b.1 = true ∧ a.1 ≠ b.1 := by
  have hkeys : ((inKeyOrder entries).map Prod.fst).Nodup :=
    ((inKeyOrder_perm entries).map Prod.fst).nodup_iff.2 hn
  exact (inKeyOrder_sorted entries).and (List.pairwise_map.1 hkeys)

theorem standsFor_iff {s : Region} {e : String × String} :
    StandsFor s e ↔
      sameIgnoringCase s.code (trim e.1) = true ∧ (overridePath e).isAbsolute = true :=
  and_congr_left' (Region.parse_eq_ok_iff.trans Region.ofCode?_eq_some_iff)

variable {entries others : List (String × String)} {s : Region} {a b : String × String}

theorem LastFor.eq (hn : (entries.map Prod.fst).Nodup) (ha : LastFor s entries a)
    (hb : LastFor s entries b) : a = b :=
  List.inj_on_of_nodup_map hn ha.mem hb.mem
    (textLe_antisymm (hb.greatest a ha.mem ha.standsFor) (ha.greatest b hb.mem hb.standsFor))

theorem judgeOverrides_get_eq_none_iff :
    (judgeOverrides entries).value.get s = none ↔ ∀ e ∈ entries, ¬StandsFor s e := by
  refine ⟨fun h e he hs => ?_, judgeOverrides_get_eq_none⟩
  obtain ⟨last, -, hget⟩ := judgeOverrides_get he hs
  rw [h] at hget
  cases hget

theorem judgeOverrides_get_eq_some_iff (hn : (entries.map Prod.fst).Nodup) {p : Path} :
    (judgeOverrides entries).value.get s = some p ↔
      ∃ last, LastFor s entries last ∧ overridePath last = p := by
  constructor
  · intro h
    by_cases hany : ∃ e ∈ entries, StandsFor s e
    · obtain ⟨e, he, hs⟩ := hany
      obtain ⟨last, hlast, hget⟩ := judgeOverrides_get he hs
      exact ⟨last, hlast, Option.some_inj.1 (hget.symm.trans h)⟩
    · push Not at hany
      rw [judgeOverrides_get_eq_none hany] at h
      cases h
  · rintro ⟨last, hlast, rfl⟩
    obtain ⟨other, hother, hget⟩ := judgeOverrides_get hlast.mem hlast.standsFor
    rw [hget, hother.eq hn hlast]

def accepted (entries : List (String × String)) : List (String × String) :=
  entries.filter fun e => refusal? e = none

theorem mem_accepted_of_standsFor (ha : a ∈ entries) (hs : StandsFor s a) :
    a ∈ accepted entries :=
  List.mem_filter.2 ⟨ha, decide_eq_true (refusal?_eq_none_iff.2 ⟨s, hs⟩)⟩

theorem lastFor_accepted_iff : LastFor s (accepted entries) a ↔ LastFor s entries a := by
  constructor
  · intro h
    exact ⟨(List.mem_filter.1 h.mem).1, h.standsFor,
      fun e he hs => h.greatest e (mem_accepted_of_standsFor he hs) hs⟩
  · intro h
    exact ⟨mem_accepted_of_standsFor h.mem h.standsFor, h.standsFor,
      fun e he hs => h.greatest e (List.mem_filter.1 he).1 hs⟩

theorem judgeOverrides_accepted (hn : (entries.map Prod.fst).Nodup) :
    (judgeOverrides (accepted entries)).value = (judgeOverrides entries).value := by
  have hna : ((accepted entries).map Prod.fst).Nodup :=
    hn.sublist (List.filter_sublist.map _)
  refine RegionMap.ext_get fun s => Option.ext fun p => ?_
  rw [judgeOverrides_get_eq_some_iff hna, judgeOverrides_get_eq_some_iff hn]
  simp only [lastFor_accepted_iff]

theorem ofRaw_withOverrides_of_perm {raw : RawSettings}
    (hn : (raw.overrides.map Prod.fst).Nodup) (hp : raw.overrides.Perm others) :
    ofRaw (raw.withOverrides others) = ofRaw raw := by
  have hjudge : judgeOverrides (raw.withOverrides others).overrides =
      judgeOverrides raw.overrides :=
    congrArg (judgeOverridesFrom .empty) (inKeyOrder_eq_of_perm hn hp).symm
  simp only [ofRaw, hjudge]
  rfl

theorem ofRaw_accepted {raw : RawSettings} (hn : (raw.overrides.map Prod.fst).Nodup) :
    (ofRaw (raw.withOverrides (accepted raw.overrides))).1 = (ofRaw raw).1 := by
  have hjudge : (judgeOverrides (raw.withOverrides (accepted raw.overrides)).overrides).value =
      (judgeOverrides raw.overrides).value :=
    judgeOverrides_accepted hn
  simp only [ofRaw, hjudge]
  rfl

theorem parse_of_pairs {text : String} {pairs : Toml.Pairs} {raw : RawSettings} {origin : Path}
    (ht : Toml.parse text = some pairs) (hraw : RawSettings.ofPairs pairs = .ok raw) :
    parse text origin = ofRaw raw :=
  parse_of_wellShaped (RawSettings.parse_eq_ok_iff.2 ⟨pairs, ht, hraw⟩) origin

/-- The order of the lines of the overrides makes no difference. A region has the
trimmed path of the entry with the greatest key among those that spell its code
and hold an absolute path, or no path if there is none. Every other entry gives
one warning, in byte order of the keys, and counts for nothing else. -/
theorem parse_overrides_unordered {text : String} {pairs : Toml.Pairs} {raw : RawSettings}
    (origin : Path) (ht : Toml.parse text = some pairs)
    (hraw : RawSettings.ofPairs pairs = .ok raw) :
    (∀ more others, Toml.parse more = some others →
        Toml.PermutedIn "overrides" pairs others → parse more origin = parse text origin) ∧
      (∀ kind inner, ("overrides", Toml.Item.table kind inner) ∈ pairs →
        inner = raw.overrides.map Toml.entry) ∧
      (∀ s p, (parse text origin).1.overrides.get s = some p ↔
        ∃ last, LastFor s raw.overrides last ∧ overridePath last = p) ∧
      (∀ s, (parse text origin).1.overrides.get s = none ↔
        ∀ e ∈ raw.overrides, ¬StandsFor s e) ∧
      (∀ s e, StandsFor s e ↔ sameIgnoringCase s.code (trim e.1) = true ∧
        (Path.ofText (trim e.2)).isAbsolute = true) ∧
      (∃ entries : List (String × String), entries.Perm raw.overrides ∧
        (entries.Pairwise fun a b => textLe a.1 b.1 = true ∧ a.1 ≠ b.1) ∧
        (parse text origin).2 =
          (judgeMaxDepth raw.maxDepth).warnings ++ (judgeSearchRoots raw.searchRoots).warnings ++
            (judgePublishers raw.publishers).warnings ++ entries.filterMap refusal? ++
            (judgeLevel raw.level).warnings) ∧
      (∀ e, refusal? e = none ↔ ∃ s, StandsFor s e) ∧
      (ofRaw (raw.withOverrides (accepted raw.overrides))).1 = (parse text origin).1 := by
  have hk := Toml.parse_keyed ht
  have hn := RawSettings.overrides_keys_nodup hk hraw
  rw [parse_of_pairs ht hraw]
  refine ⟨fun more others hm hp => ?_,
    fun kind inner hmem => RawSettings.eq_entries_of_mem hk hmem hraw,
    fun s p => judgeOverrides_get_eq_some_iff hn, fun s => judgeOverrides_get_eq_none_iff,
    fun s e => standsFor_iff,
    ⟨inKeyOrder raw.overrides, inKeyOrder_perm _, inKeyOrder_strict hn, ?_⟩,
    fun e => refusal?_eq_none_iff, ofRaw_accepted hn⟩
  · obtain ⟨es, hperm, hmore⟩ := RawSettings.ofPairs_permutedIn hk hp hraw
    rw [parse_of_pairs hm hmore, ofRaw_withOverrides_of_perm hn hperm]
  · rw [← judgeOverrides_warnings]
    rfl

/-- Two spellings of one region and a key that names none, in two orders. -/
theorem parse_overrides_unordered_spellings :
    parse "[overrides]\nxx = \"/c\"\nww = \"/b\"\nWW = \"/a\"\n" (Path.ofText "/d") =
        parse "[overrides]\nWW = \"/a\"\nxx = \"/c\"\nww = \"/b\"\n" (Path.ofText "/d") ∧
      (parse "[overrides]\nWW = \"/a\"\nxx = \"/c\"\nww = \"/b\"\n"
        (Path.ofText "/d")).1.overrides.get .worldwide = some (.ofText "/b") := by
  have ht : Toml.parse "[overrides]\nWW = \"/a\"\nxx = \"/c\"\nww = \"/b\"\n" =
      some [("overrides", .table .header
        [("WW", .text "/a"), ("xx", .text "/c"), ("ww", .text "/b")])] := by
    with_unfolding_all rfl
  have hm : Toml.parse "[overrides]\nxx = \"/c\"\nww = \"/b\"\nWW = \"/a\"\n" =
      some [("overrides", .table .header
        [("xx", .text "/c"), ("ww", .text "/b"), ("WW", .text "/a")])] := by
    with_unfolding_all rfl
  have hraw : RawSettings.ofPairs [("overrides", .table .header
      [("WW", .text "/a"), ("xx", .text "/c"), ("ww", .text "/b")])] =
        .ok { RawSettings.empty with overrides := [("WW", "/a"), ("xx", "/c"), ("ww", "/b")] } :=
    rfl
  have hp : Toml.PermutedIn "overrides"
      [("overrides", .table .header
        [("WW", .text "/a"), ("xx", .text "/c"), ("ww", .text "/b")])]
      [("overrides", .table .header
        [("xx", .text "/c"), ("ww", .text "/b"), ("WW", .text "/a")])] :=
    .table [] [] .header .header
      ((List.perm_append_singleton ("WW", "/a") [("xx", "/c"), ("ww", "/b")]).symm.map Toml.entry)
  have hlast : LastFor .worldwide [("WW", "/a"), ("xx", "/c"), ("ww", "/b")] ("ww", "/b") :=
    ⟨by decide, by decide, by decide⟩
  obtain ⟨horder, -, hget, -⟩ := parse_overrides_unordered (Path.ofText "/d") ht hraw
  exact ⟨horder _ _ hm hp, (hget .worldwide _).2 ⟨_, hlast, rfl⟩⟩

end Settings
end InstallLocator
