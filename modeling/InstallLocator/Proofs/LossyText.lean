import InstallLocator.Path
import InstallLocator.Proofs.Utf8Exact

/-!
# ASCII characters in lenient reading

A byte below `0x80` is never part of a longer sequence, so it ends whatever is
open and is read as itself. A text read leniently therefore has the same ASCII
characters at the same places as the bytes, broken parts or not.
-/

set_option autoImplicit false

namespace InstallLocator

namespace Utf8

def AboveAscii (o : Option Open) : Prop := ∀ s, o = some s → 0x80 ≤ s.low.toNat

theorem aboveAscii_none : AboveAscii none := by
  intro s hs
  cases hs

theorem aboveAscii_some {s : Open} (hs : 0x80 ≤ s.low.toNat) : AboveAscii (some s) := by
  intro t ht
  exact Option.some.inj ht ▸ hs

theorem start_aboveAscii (b : UInt8) : AboveAscii (start b).2 := by
  by_cases h1 : b.toNat < 0x80
  · rw [start_one h1]
    exact aboveAscii_none
  by_cases h2 : 0xC2 ≤ b.toNat ∧ b.toNat ≤ 0xDF
  · rw [start_two h2.1 h2.2]
    exact aboveAscii_some (Nat.le_refl 0x80)
  by_cases h3 : 0xE0 ≤ b.toNat ∧ b.toNat ≤ 0xEF
  · rw [start_three h3.1 h3.2]
    refine aboveAscii_some ?_
    dsimp only
    split <;> decide
  by_cases h4 : 0xF0 ≤ b.toNat ∧ b.toNat ≤ 0xF4
  · rw [start_four h4.1 h4.2]
    refine aboveAscii_some ?_
    dsimp only
    split <;> decide
  · rw [start_other h1 h2 h3 h4]
    exact aboveAscii_none

theorem step_aboveAscii (o : Option Open) (b : UInt8) : AboveAscii (step o b).2 := by
  cases o with
  | none => exact start_aboveAscii b
  | some s =>
    rw [step]
    split
    · dsimp only
      split
      · exact aboveAscii_none
      · exact aboveAscii_some (Nat.le_refl 0x80)
    · exact start_aboveAscii b

theorem step_ascii {o : Option Open} (ho : AboveAscii o) {b : UInt8} (hb : b.toNat < 0x80) :
    step o b = (finish o ++ [.char (Char.ofNat b.toNat)], none) := by
  cases o with
  | none => exact start_one hb
  | some s =>
    have hlow : ¬(s.low ≤ b ∧ b ≤ s.high) := by
      intro h
      have hs := ho s rfl
      have hle := UInt8.le_iff_toNat_le.1 h.1
      omega
    rw [step, if_neg hlow, start_one hb]
    rfl

/-- The bytes before and after an ASCII byte are read apart. -/
theorem piecesFrom_ascii {o : Option Open} (ho : AboveAscii o) (before after : Bytes) {b : UInt8}
    (hb : b.toNat < 0x80) :
    piecesFrom o (before ++ b :: after) =
      piecesFrom o before ++ .char (Char.ofNat b.toNat) :: piecesFrom none after := by
  -- Every byte may change what is open, so the induction is for any open sequence.
  induction before generalizing o with
  | nil =>
    rw [List.nil_append, piecesFrom_cons, step_ascii ho hb, piecesFrom_nil]
    simp
  | cons a before ih =>
    rw [List.cons_append, piecesFrom_cons, piecesFrom_cons, ih (step_aboveAscii o a),
      List.append_assoc]

theorem decodeLossy_ascii (before after : Bytes) {b : UInt8} (hb : b.toNat < 0x80) :
    decodeLossy (before ++ b :: after) =
      decodeLossy before ++ Char.ofNat b.toNat :: decodeLossy after := by
  have hpieces : pieces (before ++ b :: after) =
      pieces before ++ .char (Char.ofNat b.toNat) :: pieces after :=
    piecesFrom_ascii aboveAscii_none before after hb
  rw [decodeLossy, hpieces, List.map_append, List.map_cons]
  rfl

theorem bytes_of_shown_ascii {p : Piece} {b : UInt8} (hb : b.toNat < 0x80)
    (h : p.shown = Char.ofNat b.toNat) : p.bytes = [b] := by
  have hv : b.toNat.isValidChar := by
    unfold Nat.isValidChar
    omega
  cases p with
  | char c =>
    obtain rfl : c = Char.ofNat b.toNat := h
    rw [Piece.bytes, encodeChar_ofNat hv, if_pos (by omega), UInt8.ofNat_toNat]
  | broken part =>
    have hn : '\uFFFD'.toNat = (Char.ofNat b.toNat).toNat := congrArg Char.toNat h
    rw [toNat_ofNat hv] at hn
    exact absurd hn (by simp only [Char.reduceToNat]; omega)

/-- Broken parts neither hide an ASCII character nor bring one about. -/
theorem mem_decodeLossy_iff {bs : Bytes} {b : UInt8} (hb : b.toNat < 0x80) :
    Char.ofNat b.toNat ∈ decodeLossy bs ↔ b ∈ bs := by
  constructor
  · intro h
    obtain ⟨p, hp, hshown⟩ := List.mem_map.1 h
    rw [← pieces_bytes bs]
    refine List.mem_flatMap.2 ⟨p, hp, ?_⟩
    rw [bytes_of_shown_ascii hb hshown]
    exact List.mem_singleton_self b
  · intro h
    obtain ⟨before, after, rfl⟩ := List.append_of_mem h
    rw [decodeLossy_ascii before after hb]
    exact List.mem_append_right _ List.mem_cons_self

theorem bytes_of_map_shown_ascii {w : Bytes} (hw : ∀ b ∈ w, b.toNat < 0x80) {ps : List Piece}
    (h : ps.map Piece.shown = w.map fun b => Char.ofNat b.toNat) : ps.flatMap Piece.bytes = w := by
  induction w generalizing ps with
  | nil => rw [List.map_eq_nil_iff.1 h, List.flatMap_nil]
  | cons b w ih =>
    obtain ⟨p, ps, rfl, hp, hps⟩ := List.map_eq_cons_iff.1 h
    rw [List.flatMap_cons, bytes_of_shown_ascii (hw b List.mem_cons_self) hp,
      ih (fun c hc => hw c (List.mem_cons_of_mem b hc)) hps, List.singleton_append]

theorem infix_of_decodeLossy {w bs : Bytes} (hw : ∀ b ∈ w, b.toNat < 0x80)
    (h : (w.map fun b => Char.ofNat b.toNat) <:+: decodeLossy bs) : w <:+: bs := by
  obtain ⟨before, after, hread⟩ := h
  obtain ⟨ps, rest, hpieces, hps, -⟩ := List.map_eq_append_iff.1 hread.symm
  obtain ⟨qs, mid, rfl, -, hmid⟩ := List.map_eq_append_iff.1 hps
  refine ⟨qs.flatMap Piece.bytes, rest.flatMap Piece.bytes, ?_⟩
  rw [← pieces_bytes bs, hpieces, List.flatMap_append, List.flatMap_append,
    bytes_of_map_shown_ascii hw hmid]

theorem pieces_encode_append (cs : List Char) (bs : Bytes) :
    pieces (encode cs ++ bs) = cs.map .char ++ pieces bs := by
  change piecesFrom none (encode cs ++ bs) = _
  induction cs with
  | nil => rfl
  | cons c cs ih =>
    rw [List.map_cons, List.cons_append, ← ih, encode, List.flatMap_cons, List.append_assoc]
    exact piecesFrom_encodeChar c (encode cs ++ bs)

theorem decodeLossy_encode_append (cs : List Char) (bs : Bytes) :
    decodeLossy (encode cs ++ bs) = cs ++ decodeLossy bs := by
  rw [decodeLossy, pieces_encode_append, List.map_append, List.map_map]
  exact congrArg (· ++ decodeLossy bs) (List.map_id cs)

theorem decodeLossy_eq_nil_iff {bs : Bytes} : decodeLossy bs = [] ↔ bs = [] := by
  constructor
  · intro h
    rw [← pieces_bytes bs, List.map_eq_nil_iff.1 h]
    rfl
  · rintro rfl
    rfl

end Utf8

namespace Path

theorem shown_eq_empty_iff {p : Path} : p.shown = "" ↔ p.bytes = [] := by
  rw [shown, String.ofList_eq_empty_iff, Utf8.decodeLossy_eq_nil_iff]

theorem newline_mem_shown_iff {p : Path} : '\n' ∈ p.shown.toList ↔ 0x0A ∈ p.bytes := by
  rw [shown, String.toList_ofList]
  exact Utf8.mem_decodeLossy_iff (b := 0x0A) (by decide)

theorem text?_eq_some_iff {p : Path} {s : String} : p.text? = some s ↔ p = ofText s := by
  have hd : ∀ cs, Utf8.decode? p.bytes = some cs ↔ p = ⟨Utf8.encode cs⟩ := by
    intro cs
    rw [Utf8.decode?_eq_some_iff]
    exact ⟨fun h => congrArg mk h, congrArg bytes⟩
  rw [text?, Option.map_eq_some_iff]
  constructor
  · rintro ⟨cs, hcs, rfl⟩
    rw [ofText, String.toList_ofList]
    exact (hd cs).1 hcs
  · intro h
    exact ⟨s.toList, (hd s.toList).2 h, String.ofList_toList⟩

theorem shown_ofText (s : String) : (ofText s).shown = s := by
  rw [shown, ofText, Utf8.decodeLossy_encode, String.ofList_toList]

end Path
end InstallLocator
