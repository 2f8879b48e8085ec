import InstallLocator.Proofs.Identified
import InstallLocator.Proofs.IdElement
import InstallLocator.Proofs.LossyText
import InstallLocator.Proofs.RegionNames

/-!
# Identified whatever else the file holds

The tags of an id are ASCII, and so are the ids of the regions. Reading leniently
neither loses nor makes up an ASCII character, so the bytes before the first
opening tag and after its closing tag may be in any encoding or in none: a file
with the id of a region in its first element identifies that region.
-/

set_option autoImplicit false

namespace InstallLocator

namespace Region

variable {s : Region} {t : String} {c : Char}

theorem spelling_solid (h : sameIgnoringCase s.gameId t = true) (hc : c ∈ t.toList) :
    isWhite c = false ∧ c ≠ '<' := by
  have hid : ∀ d ∈ s.gameId.toList, isWhite d = false ∧ d.toLower ≠ '<' := by
    refine List.forall_iff_forall_mem.1 ?_
    cases s <;> decide
  have hspelled := forall_of_sameLetters
    (fun d e hde hd => ⟨hde.isWhite_eq ▸ hd.1, toLower_eq_iff.2 hde ▸ hd.2⟩)
    (sameIgnoringCase_iff.1 h) hid c hc
  refine ⟨hspelled.1, ?_⟩
  rintro rfl
  exact hspelled.2 rfl

theorem spelling_trimmed (h : sameIgnoringCase s.gameId t = true) : Trimmed t :=
  ⟨fun _ hc => (spelling_solid h (List.mem_of_mem_head? hc)).1,
    fun _ hc => (spelling_solid h (List.mem_of_mem_getLast? hc)).1⟩

theorem spelling_ne_nil (h : sameIgnoringCase s.gameId t = true) : t.toList ≠ [] := by
  intro hnil
  have hid : s.gameId.toList.map Char.toLower = [] := by rw [eq_of_beq h, hnil, List.map_nil]
  cases s <;> exact absurd hid (by decide)

theorem ofGameId?_of_spelling (h : sameIgnoringCase s.gameId t = true) :
    ofGameId? t = some s := by
  rwa [ofGameId?_eq_some_iff, trim_of_trimmed (spelling_trimmed h)]

end Region

namespace GameInfo

variable {before after : Bytes} {t : List Char}

theorem openTag_ascii : ∀ b ∈ Utf8.encode openTag, b.toNat < 0x80 :=
  List.forall_iff_forall_mem.1 (by decide)

/-- The first element of a content is where the first opening tag of the bytes is. -/
theorem firstElement?_decodeLossy (hbefore : ¬Utf8.encode openTag <:+: before) (ht : '<' ∉ t) :
    firstElement? (Utf8.decodeLossy
      (before ++ Utf8.encode (openTag ++ (t ++ closeTag)) ++ after)) = some t := by
  have hread : Utf8.decodeLossy (before ++ Utf8.encode (openTag ++ (t ++ closeTag)) ++ after) =
      Utf8.decodeLossy before ++ openTag ++ (t ++ (closeTag ++ Utf8.decodeLossy after)) := by
    have hcut : Utf8.encode (openTag ++ (t ++ closeTag)) ++ after =
        0x3C :: (Utf8.encode (['i', 'd', '>'] ++ (t ++ closeTag)) ++ after) :=
      rfl
    rw [List.append_assoc, hcut, Utf8.decodeLossy_ascii _ _ (by decide),
      Utf8.decodeLossy_encode_append]
    simp [openTag]
  have hopen : ¬openTag <:+: Utf8.decodeLossy before := fun h =>
    hbefore (Utf8.infix_of_decodeLossy (w := Utf8.encode openTag) openTag_ascii h)
  have hclose : closeTag <+: closeTag ++ Utf8.decodeLossy after := List.prefix_append _ _
  rw [hread, firstElement?_before hopen]
  exact firstElement?_of_elementAt? (by
    rw [elementAt?_open ht (atTag_of_closeTag hclose), if_pos hclose])

/-- The id of a region in the first element identifies the region, in upper or
lower case, with white space around it, and with any bytes around the element. -/
theorem identify_of_first_id {h : Host} {directory : Path} {s : Region} {k : String}
    {w v : List Char} (hbefore : ¬Utf8.encode openTag <:+: before)
    (hw : ∀ c ∈ w, isWhite c = true) (hv : ∀ c ∈ v, isWhite c = true)
    (hk : sameIgnoringCase s.gameId k = true) {content : Bytes}
    (hcontent : content =
      before ++ Utf8.encode (openTag ++ (w ++ k.toList ++ v ++ closeTag)) ++ after)
    (hfile : h.stat (file directory) = .ok (.file content)) (hsize : content.length ≤ 1048576) :
    (identify h directory).value = .ok s := by
  have hwhite : isWhite '<' = false := by decide
  have htext : '<' ∉ w ++ k.toList ++ v := by
    simp only [List.mem_append, not_or]
    refine ⟨⟨fun hc => ?_, fun hc => (Region.spelling_solid hk hc).2 rfl⟩, fun hc => ?_⟩
    · cases (hw _ hc).symm.trans hwhite
    · cases (hv _ hc).symm.trans hwhite
  have htrim : trimChars (w ++ k.toList ++ v) = k.toList := by
    have hkeep := congrArg String.toList (trim_of_trimmed (Region.spelling_trimmed hk))
    rwa [trim, String.toList_ofList, ← trimChars_append hw hv] at hkeep
  have hid : idOf? (Utf8.decodeLossy content) = some k.toList := by
    rw [hcontent, idOf?, firstElement?_decodeLossy hbefore htext]
    simp only [htrim, if_neg (Region.spelling_ne_nil hk)]
  refine identify_eq_ok_iff.2 ⟨k, readId_eq_ok_iff.2 ⟨content, hfile, hsize, ?_⟩,
    Region.ofGameId?_of_spelling hk⟩
  rw [hid, Option.map_some, String.ofList_toList]

/-- A file with a cut character right before the first tag, a no-break space in
the element, and a byte after it that is no UTF-8. -/
def brokenContent : Bytes :=
  [0xE2, 0x82] ++ Utf8.encode (openTag ++ (['\u00A0'] ++ "wows.Cn.production".toList ++ ['\n'] ++
    closeTag)) ++ [0xFF, 0x3C]

theorem identify_of_first_id_broken :
    let h : Host := ⟨(FileTree.empty.put [0x63] [] .directory).put
      (Utf8.encode Constants.gameInfoFile.toList) [[0x63]] (.file brokenContent), [],
      ⟨none, none, none, none⟩⟩
    h.stat (file (.ofText "/c")) = .ok (.file brokenContent) ∧
      (identify h (.ofText "/c")).value = .ok .china := by
  intro h
  have hfile : h.stat (file (.ofText "/c")) = .ok (.file brokenContent) := by decide
  have hbefore : ¬Utf8.encode openTag <:+: ([0xE2, 0x82] : Bytes) := by decide
  have hw : ∀ c ∈ ['\u00A0'], isWhite c = true := List.forall_mem_singleton.2 rfl
  have hv : ∀ c ∈ ['\n'], isWhite c = true := List.forall_mem_singleton.2 rfl
  have hk : sameIgnoringCase Region.china.gameId "wows.Cn.production" = true := by decide
  exact ⟨hfile, identify_of_first_id hbefore hw hv hk rfl hfile (by decide)⟩

end GameInfo
end InstallLocator
