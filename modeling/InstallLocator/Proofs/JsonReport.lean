import InstallLocator.Proofs.JsonRoundTrip
import InstallLocator.Proofs.LossyText
import InstallLocator.Report

/-!
# What the JSON report tells

The report is one document and a line break. It is read as an object for each
region, in the order of the regions, and from these the shown path and the
source of each install can be told, whatever bytes and characters they have.
-/

set_option autoImplicit false

namespace InstallLocator

namespace InstallRecord

/-- What a report tells of an install. -/
def told (i : Install) : String × String := (i.path.shown, i.source)

/-- All paths are texts, none has a broken part. -/
def InText (r : InstallRecord) : Prop := ∀ s i, r.get s = some i → i.path.text?.isSome = true

theorem told_injective {i j : Install} (hi : i.path.text?.isSome = true)
    (hj : j.path.text?.isSome = true) (h : told i = told j) : i = j := by
  obtain ⟨a, ha⟩ := Option.isSome_iff_exists.1 hi
  obtain ⟨b, hb⟩ := Option.isSome_iff_exists.1 hj
  have hpath := (Prod.mk.inj h).1
  have hsource := (Prod.mk.inj h).2
  rw [Path.text?_eq_some_iff] at ha hb
  rw [ha, hb, Path.shown_ofText, Path.shown_ofText] at hpath
  cases i
  cases j
  simp only at ha hb hsource
  rw [ha, hb, hpath, hsource]

theorem eq_of_told {r r' : InstallRecord} (hr : r.InText) (hr' : r'.InText)
    (h : ∀ s, (r.get s).map told = (r'.get s).map told) : r = r' := by
  apply RegionMap.ext_get
  intro s
  have hs := h s
  cases hi : r.get s with
  | none =>
    rw [hi, Option.map_none] at hs
    exact (Option.map_eq_none_iff.1 hs.symm).symm
  | some i =>
    rw [hi, Option.map_some] at hs
    obtain ⟨j, hj, ht⟩ := Option.map_eq_some_iff.1 hs.symm
    rw [hj, told_injective (hr s i hi) (hr' s j hj) ht.symm]

end InstallRecord

namespace Report

open InstallRecord (told)

theorem optionalText_fits (depth : Nat) (t : Option String) : Json.Fits depth (optionalText t) := by
  cases t <;> cases depth <;> exact trivial

theorem report_fits (r : InstallRecord) :
    Json.Fits Json.maxDepth (.array (Region.all.map (regionJson r))) := by
  intro j hj
  obtain ⟨s, -, rfl⟩ := List.mem_map.1 hj
  intro m hm
  simp only [List.mem_cons, List.not_mem_nil, or_false] at hm
  rcases hm with rfl | rfl | rfl
  · exact trivial
  · exact optionalText_fits _ _
  · exact optionalText_fits _ _

theorem regionJson_of_get {r : InstallRecord} {s : Region} {i : Install} (hi : r.get s = some i) :
    regionJson r s = .object
      [("server", .text s.mark), ("path", .text i.path.shown), ("source", .text i.source)] := by
  simp [regionJson, hi, optionalText]

theorem regionJson_of_get_none {r : InstallRecord} {s : Region} (hn : r.get s = none) :
    regionJson r s = .object [("server", .text s.mark), ("path", .null), ("source", .null)] := by
  simp [regionJson, hn, optionalText]

theorem regionJson_eq_iff {r r' : InstallRecord} {s : Region} :
    regionJson r s = regionJson r' s ↔ (r.get s).map told = (r'.get s).map told := by
  cases hr : r.get s with
  | none =>
    cases hr' : r'.get s with
    | none => simp [regionJson_of_get_none hr, regionJson_of_get_none hr']
    | some j => simp [regionJson_of_get_none hr, regionJson_of_get hr']
  | some i =>
    cases hr' : r'.get s with
    | none => simp [regionJson_of_get hr, regionJson_of_get_none hr']
    | some j => simp [regionJson_of_get hr, regionJson_of_get hr', told]

theorem parse_json (r : InstallRecord) :
    Json.parse (json r) = .ok (.array (Region.all.map (regionJson r))) :=
  Json.parse_render_blank (report_fits r) (by decide)

theorem json_eq_iff {r r' : InstallRecord} :
    json r = json r' ↔ ∀ s, (r.get s).map told = (r'.get s).map told := by
  constructor
  · intro h s
    -- Both are read back from the one text, so they are equal object by object.
    have hp := parse_json r
    rw [h, parse_json r'] at hp
    have hmap := Json.array.inj (Except.ok.inj hp)
    exact regionJson_eq_iff.1 (List.map_inj_left.1 hmap s (Region.mem_all s)).symm
  · intro h
    rw [json, json, List.map_congr_left fun s _ => regionJson_eq_iff.2 (h s)]

/-- What can be read off the JSON report of a record. -/
structure JsonTells (r : InstallRecord) : Prop where
  /-- There is one document, and a line break after it. It is read as an object
  for each region, where a region is resolved exactly if its path and its source
  are not null, and these are then the shown path and the source. -/
  decodes : ∃ (document : String) (path source : Region → Json),
    json r = document ++ "\n" ∧
    Json.parse document = .ok (.array
      [.object [("server", .text "WW"), ("path", path .worldwide), ("source", source .worldwide)],
       .object [("server", .text "CN"), ("path", path .china), ("source", source .china)],
       .object [("server", .text "PT"), ("path", path .publicTest),
         ("source", source .publicTest)]]) ∧
    ∀ s, (path s = .null ↔ r.get s = none) ∧ (source s = .null ↔ r.get s = none) ∧
      ∀ i, r.get s = some i → path s = .text i.path.shown ∧ source s = .text i.source
  /-- Two records have the same report exactly if it tells the same of them. -/
  same_iff : ∀ r' : InstallRecord, json r = json r' ↔
    ∀ s, (r.get s).map told = (r'.get s).map told
  /-- Records whose paths are texts have the same report only if they are the same. -/
  injective : r.InText → ∀ r' : InstallRecord, r'.InText → json r = json r' → r = r'

theorem optionalText_get (r : InstallRecord) (s : Region) (tell : Install → String) :
    (optionalText ((r.get s).map tell) = .null ↔ r.get s = none) ∧
      ∀ i, r.get s = some i → optionalText ((r.get s).map tell) = .text (tell i) := by
  cases r.get s with
  | none => simp [optionalText]
  | some i => simp [optionalText]

/-- The report of any record is read back as what the record holds, and records
that hold different texts have different reports. -/
theorem json_tells_record (r : InstallRecord) : JsonTells r where
  decodes := by
    refine ⟨Json.render (.array (Region.all.map (regionJson r))),
      fun s => optionalText ((r.get s).map fun i : Install => i.path.shown),
      fun s => optionalText ((r.get s).map Install.source), rfl,
      Json.parse_render (report_fits r), fun s => ?_⟩
    have hpath := optionalText_get r s fun i : Install => i.path.shown
    have hsource := optionalText_get r s Install.source
    exact ⟨hpath.1, hsource.1, fun i hi => ⟨hpath.2 i hi, hsource.2 i hi⟩⟩
  same_iff r' := json_eq_iff
  injective hr r' hr' h := InstallRecord.eq_of_told hr hr' (json_eq_iff.1 h)

/-- A path with a quote, a backslash and a line break, found in two ways. -/
theorem json_tells_record_source :
    let r : InstallRecord := RegionMap.empty.set .china ⟨.ofText "/a\"b\\c\nd", "registry"⟩
    let r' : InstallRecord := RegionMap.empty.set .china ⟨.ofText "/a\"b\\c\nd", "steam"⟩
    r.InText ∧ r'.InText ∧ json r ≠ json r' := by
  intro r r'
  have hr : r.InText := by
    intro s i hi
    cases s <;> cases hi
    decide
  have hr' : r'.InText := by
    intro s i hi
    cases s <;> cases hi
    decide
  refine ⟨hr, hr', fun h => ?_⟩
  have heq := (json_tells_record r).injective hr r' hr' h
  revert heq
  decide

end Report
end InstallLocator
