import InstallLocator.Text.Utf8

/-!
# Reading UTF-8 loses nothing

The pieces found in a sequence of bytes make up those bytes, so a text that is
read strictly is the only one with that encoding. An open sequence carries the
invariant that however it is completed, the character found is encoded by the
bytes read.
-/

set_option autoImplicit false

namespace InstallLocator.Utf8

/-- The pieces that bytes give when a sequence is already open. -/
def piecesFrom (o : Option Open) (bs : Bytes) : List Piece := (scan [] o bs).reverse

theorem piecesFrom_nil (o : Option Open) : piecesFrom o [] = finish o := by
  simp [piecesFrom, scan]

theorem piecesFrom_cons (o : Option Open) (b : UInt8) (bs : Bytes) :
    piecesFrom o (b :: bs) = (step o b).1 ++ piecesFrom (step o b).2 bs := by
  simp only [piecesFrom, scan]
  rw [scan_found]
  simp

theorem toNat_ofNat {n : Nat} (h : n.isValidChar) : (Char.ofNat n).toNat = n := by
  rw [Char.ofNat, dif_pos h]
  rfl

theorem encodeChar_ofNat {n : Nat} (h : n.isValidChar) :
    String.utf8EncodeChar (Char.ofNat n) =
      if n ≤ 0x7F then [UInt8.ofNat n]
      else if n ≤ 0x7FF then
        [UInt8.ofNat (n / 64 % 0x20 + 0xC0), UInt8.ofNat (n % 0x40 + 0x80)]
      else if n ≤ 0xFFFF then
        [UInt8.ofNat (n / 4096 % 0x10 + 0xE0), UInt8.ofNat (n / 64 % 0x40 + 0x80),
          UInt8.ofNat (n % 0x40 + 0x80)]
      else
        [UInt8.ofNat (n / 262144 % 8 + 0xF0), UInt8.ofNat (n / 4096 % 0x40 + 0x80),
          UInt8.ofNat (n / 64 % 0x40 + 0x80), UInt8.ofNat (n % 0x40 + 0x80)] := by
  have hv : (Char.ofNat n).val.toNat = n := toNat_ofNat h
  rw [String.utf8EncodeChar, hv]

theorem byte_eq {n : Nat} {b : UInt8} (h : n = b.toNat) : UInt8.ofNat n = b := by
  rw [h, UInt8.ofNat_toNat]

theorem exists_byte {n : Nat} (h : n < 256) : ∃ b : UInt8, UInt8.ofNat n = b ∧ b.toNat = n :=
  ⟨_, rfl, UInt8.toNat_ofNat_of_lt' h⟩

section
variable {b c k low high : UInt8}

theorem low_le_iff (hl : 0x80 ≤ low.toNat) : (if b = k then low else 0x80) ≤ c ↔
    0x80 ≤ c.toNat ∧ (b.toNat = k.toNat → low.toNat ≤ c.toNat) := by
  rw [UInt8.toNat_inj, UInt8.le_iff_toNat_le]
  by_cases hb : b = k
  · simp only [hb, if_true, true_implies]
    omega
  · simp only [hb, if_false, false_implies, and_true]
    exact Iff.rfl

theorem le_high_iff (hh : high.toNat ≤ 0xBF) : c ≤ (if b = k then high else 0xBF) ↔
    c.toNat ≤ 0xBF ∧ (b.toNat = k.toNat → c.toNat ≤ high.toNat) := by
  rw [UInt8.toNat_inj, UInt8.le_iff_toNat_le]
  by_cases hb : b = k
  · simp only [hb, if_true, true_implies]
    omega
  · simp only [hb, if_false, false_implies, and_true]
    exact Iff.rfl

theorem start_one (h : b.toNat < 0x80) : start b = ([.char (Char.ofNat b.toNat)], none) :=
  if_pos (UInt8.lt_iff_toNat_lt.2 h)

theorem start_two (hl : 0xC2 ≤ b.toNat) (hh : b.toNat ≤ 0xDF) :
    start b = ([], some ⟨[b], b.toNat % 32, 1, 0x80, 0xBF⟩) := by
  have h1 : ¬ b < 0x80 := by
    simp only [UInt8.lt_iff_toNat_lt, UInt8.reduceToNat]
    omega
  have h2 : 0xC2 ≤ b ∧ b ≤ 0xDF := ⟨hl, hh⟩
  rw [start, if_neg h1, if_pos h2]

theorem start_three (hl : 0xE0 ≤ b.toNat) (hh : b.toNat ≤ 0xEF) :
    start b = ([], some ⟨[b], b.toNat % 16, 2, if b = 0xE0 then 0xA0 else 0x80,
      if b = 0xED then 0x9F else 0xBF⟩) := by
  have h1 : ¬ b < 0x80 := by
    simp only [UInt8.lt_iff_toNat_lt, UInt8.reduceToNat]
    omega
  have h2 : ¬ (0xC2 ≤ b ∧ b ≤ 0xDF) := by
    simp only [UInt8.le_iff_toNat_le, UInt8.reduceToNat]
    omega
  have h3 : b = 0xE0 ∨ 0xE1 ≤ b ∧ b ≤ 0xEF := by
    simp only [UInt8.le_iff_toNat_le, ← UInt8.toNat_inj, UInt8.reduceToNat]
    omega
  rw [start, if_neg h1, if_neg h2]
  by_cases he : b = 0xE0
  · rw [if_pos he, he]
    rfl
  rw [if_neg he]
  by_cases hd : b = 0xED
  · rw [if_pos hd, hd]
    rfl
  · rw [if_neg hd, if_pos (h3.resolve_left he), if_neg he, if_neg hd]

theorem start_four (hl : 0xF0 ≤ b.toNat) (hh : b.toNat ≤ 0xF4) :
    start b = ([], some ⟨[b], b.toNat % 8, 3, if b = 0xF0 then 0x90 else 0x80,
      if b = 0xF4 then 0x8F else 0xBF⟩) := by
  have h : b = 0xF0 ∨ b = 0xF1 ∨ b = 0xF2 ∨ b = 0xF3 ∨ b = 0xF4 := by
    simp only [← UInt8.toNat_inj, UInt8.reduceToNat]
    omega
  rcases h with rfl | rfl | rfl | rfl | rfl <;> rfl

theorem start_other (h1 : ¬ b.toNat < 0x80) (h2 : ¬ (0xC2 ≤ b.toNat ∧ b.toNat ≤ 0xDF))
    (h3 : ¬ (0xE0 ≤ b.toNat ∧ b.toNat ≤ 0xEF)) (h4 : ¬ (0xF0 ≤ b.toNat ∧ b.toNat ≤ 0xF4)) :
    start b = ([.broken [b]], none) := by
  simp only [start, UInt8.lt_iff_toNat_lt, UInt8.le_iff_toNat_le, ← UInt8.toNat_inj,
    UInt8.reduceToNat]
  repeat rw [if_neg (by omega)]

end

theorem encode_append (as bs : List Char) : encode (as ++ bs) = encode as ++ encode bs :=
  List.flatMap_append

theorem encodeChar_ne_nil (c : Char) : String.utf8EncodeChar c ≠ [] := by
  rw [← List.length_pos_iff, String.length_utf8EncodeChar]
  exact c.utf8Size_pos

theorem encode_ne_nil {cs : List Char} (h : cs ≠ []) : encode cs ≠ [] := by
  obtain ⟨c, cs, rfl⟩ := List.exists_cons_of_ne_nil h
  intro he
  exact encodeChar_ne_nil c (List.append_eq_nil_iff.1 he).1

theorem eq_of_mem_encodeChar {c : Char} {b : UInt8} (h : b ∈ String.utf8EncodeChar c)
    (hb : b.toNat < 0x80) : c = Char.ofNat b.toNat := by
  obtain ⟨n, hn, rfl⟩ : ∃ n : Nat, n.isValidChar ∧ c = Char.ofNat n :=
    ⟨c.toNat, c.valid, (Char.ofNat_toNat c).symm⟩
  rw [encodeChar_ofNat hn] at h
  have big : ∀ k, 0x80 ≤ k → k < 0x100 → b ≠ UInt8.ofNat k := by
    rintro k hk hk' rfl
    rw [UInt8.toNat_ofNat_of_lt' hk'] at hb
    omega
  split at h
  · rename_i hs
    rw [List.mem_singleton.1 h, UInt8.toNat_ofNat_of_lt' (Nat.lt_of_le_of_lt hs (by decide))]
  · exfalso
    split at h
    · simp only [List.mem_cons, List.not_mem_nil, or_false] at h
      rcases h with h | h <;> exact big _ (by omega) (by omega) h
    split at h
    · simp only [List.mem_cons, List.not_mem_nil, or_false] at h
      rcases h with h | h | h <;> exact big _ (by omega) (by omega) h
    · simp only [List.mem_cons, List.not_mem_nil, or_false] at h
      rcases h with h | h | h | h <;> exact big _ (by omega) (by omega) h

theorem mem_of_mem_encode {cs : List Char} {b : UInt8} (h : b ∈ encode cs)
    (hb : b.toNat < 0x80) : Char.ofNat b.toNat ∈ cs := by
  obtain ⟨c, hc, hm⟩ := List.mem_flatMap.1 h
  exact eq_of_mem_encodeChar hm hb ▸ hc

/-- The bytes a piece was read from. -/
def Piece.bytes : Piece → Bytes
  | .char c => String.utf8EncodeChar c
  | .broken bs => bs

/-- However the sequence is completed, its character is encoded by its bytes. -/
structure Open.Sound (o : Open) : Prop where
  missing : 0 < o.missing
  completed : ∀ c rest, o.low ≤ c → c ≤ o.high → rest.length + 1 = o.missing →
    (∀ d ∈ rest, 0x80 ≤ d ∧ d ≤ 0xBF) →
    String.utf8EncodeChar (Char.ofNat
      ((c :: rest).foldl (fun v d => v * 64 + d.toNat % 64) o.value)) = o.seen ++ c :: rest

theorem sound_two {b : UInt8} (hl : 0xC2 ≤ b.toNat) (hh : b.toNat ≤ 0xDF) :
    Open.Sound ⟨[b], b.toNat % 32, 1, 0x80, 0xBF⟩ := by
  refine ⟨Nat.succ_pos _, ?_⟩
  intro c rest hlow hhigh hrest _
  obtain rfl : rest = [] := List.length_eq_zero_iff.1 (Nat.succ.inj hrest)
  simp only [UInt8.le_iff_toNat_le, UInt8.reduceToNat] at hlow hhigh
  have hv : (b.toNat % 32 * 64 + c.toNat % 64).isValidChar := by
    unfold Nat.isValidChar
    omega
  simp only [List.foldl_cons, List.foldl_nil]
  rw [encodeChar_ofNat hv, if_neg (by omega), if_pos (by omega), byte_eq (b := b) (by omega),
    byte_eq (b := c) (by omega)]
  rfl

theorem sound_three {b : UInt8} (hl : 0xE0 ≤ b.toNat) (hh : b.toNat ≤ 0xEF) :
    Open.Sound ⟨[b], b.toNat % 16, 2, if b = 0xE0 then 0xA0 else 0x80,
      if b = 0xED then 0x9F else 0xBF⟩ := by
  refine ⟨Nat.succ_pos _, ?_⟩
  intro c rest hlow hhigh hrest hall
  obtain ⟨d, rfl⟩ := List.length_eq_one_iff.1 (Nat.succ.inj hrest)
  obtain ⟨hd, hd'⟩ := hall d (by simp)
  replace hlow := (low_le_iff (by decide)).1 hlow
  replace hhigh := (le_high_iff (by decide)).1 hhigh
  simp only [UInt8.le_iff_toNat_le, UInt8.reduceToNat] at hlow hhigh hd hd'
  have hv : ((b.toNat % 16 * 64 + c.toNat % 64) * 64 + d.toNat % 64).isValidChar := by
    unfold Nat.isValidChar
    omega
  simp only [List.foldl_cons, List.foldl_nil]
  rw [encodeChar_ofNat hv, if_neg (by omega), if_neg (by omega), if_pos (by omega),
    byte_eq (b := b) (by omega), byte_eq (b := c) (by omega), byte_eq (b := d) (by omega)]
  rfl

theorem sound_four {b : UInt8} (hl : 0xF0 ≤ b.toNat) (hh : b.toNat ≤ 0xF4) :
    Open.Sound ⟨[b], b.toNat % 8, 3, if b = 0xF0 then 0x90 else 0x80,
      if b = 0xF4 then 0x8F else 0xBF⟩ := by
  refine ⟨Nat.succ_pos _, ?_⟩
  intro c rest hlow hhigh hrest hall
  match rest, hrest with
  | [d, e], _ =>
  obtain ⟨hd, hd'⟩ := hall d (by simp)
  obtain ⟨he, he'⟩ := hall e (by simp)
  replace hlow := (low_le_iff (by decide)).1 hlow
  replace hhigh := (le_high_iff (by decide)).1 hhigh
  simp only [UInt8.le_iff_toNat_le, UInt8.reduceToNat] at hlow hhigh hd hd' he he'
  have hv : (((b.toNat % 8 * 64 + c.toNat % 64) * 64 + d.toNat % 64) * 64 +
      e.toNat % 64).isValidChar := by
    unfold Nat.isValidChar
    omega
  simp only [List.foldl_cons, List.foldl_nil]
  rw [encodeChar_ofNat hv, if_neg (by omega), if_neg (by omega), if_neg (by omega),
    byte_eq (b := b) (by omega), byte_eq (b := c) (by omega), byte_eq (b := d) (by omega),
    byte_eq (b := e) (by omega)]
  rfl

def Sound (o : Option Open) : Prop := ∀ s, o = some s → s.Sound

def seen : Option Open → Bytes
  | none => []
  | some o => o.seen

theorem sound_none : Sound none := by
  intro s hs
  cases hs

theorem sound_some {o : Open} (h : o.Sound) : Sound (some o) := by
  intro s hs
  exact Option.some.inj hs ▸ h

theorem start_sound (b : UInt8) :
    (start b).1.flatMap Piece.bytes ++ seen (start b).2 = [b] ∧ Sound (start b).2 := by
  by_cases h1 : b.toNat < 0x80
  · have hv : b.toNat.isValidChar := by
      unfold Nat.isValidChar
      omega
    rw [start_one h1]
    refine ⟨?_, sound_none⟩
    simp [Piece.bytes, seen, encodeChar_ofNat hv, Nat.le_of_lt_succ h1]
  by_cases h2 : 0xC2 ≤ b.toNat ∧ b.toNat ≤ 0xDF
  · rw [start_two h2.1 h2.2]
    exact ⟨rfl, sound_some (sound_two h2.1 h2.2)⟩
  by_cases h3 : 0xE0 ≤ b.toNat ∧ b.toNat ≤ 0xEF
  · rw [start_three h3.1 h3.2]
    exact ⟨rfl, sound_some (sound_three h3.1 h3.2)⟩
  by_cases h4 : 0xF0 ≤ b.toNat ∧ b.toNat ≤ 0xF4
  · rw [start_four h4.1 h4.2]
    exact ⟨rfl, sound_some (sound_four h4.1 h4.2)⟩
  · rw [start_other h1 h2 h3 h4]
    exact ⟨rfl, sound_none⟩

theorem step_sound {o : Option Open} (ho : Sound o) (b : UInt8) :
    (step o b).1.flatMap Piece.bytes ++ seen (step o b).2 = seen o ++ [b] ∧
      Sound (step o b).2 := by
  cases o with
  | none => exact start_sound b
  | some o =>
    obtain ⟨hpos, hdone⟩ := ho o rfl
    rw [step]
    by_cases hb : o.low ≤ b ∧ b ≤ o.high
    · rw [if_pos hb]
      by_cases hm : o.missing ≤ 1
      · have hc := hdone b [] hb.1 hb.2 (by simp only [List.length_nil]; omega) (by simp)
        simp only [List.foldl_cons, List.foldl_nil] at hc
        simp only [if_pos hm]
        refine ⟨?_, sound_none⟩
        simp [Piece.bytes, seen, hc]
      · simp only [if_neg hm]
        refine ⟨rfl, sound_some ⟨Nat.sub_pos_of_lt (by omega), ?_⟩⟩
        intro c rest hl hh hlen hrest
        simp only at hlen
        have hc := hdone b (c :: rest) hb.1 hb.2 (by rw [List.length_cons]; omega)
          (List.forall_mem_cons.2 ⟨⟨hl, hh⟩, hrest⟩)
        rw [List.append_assoc]
        exact hc
    · rw [if_neg hb]
      obtain ⟨hs, hn⟩ := start_sound b
      refine ⟨?_, hn⟩
      change o.seen ++ (start b).1.flatMap Piece.bytes ++ _ = _
      rw [List.append_assoc, hs]
      rfl

theorem piecesFrom_bytes {o : Option Open} (ho : Sound o) (bs : Bytes) :
    (piecesFrom o bs).flatMap Piece.bytes = seen o ++ bs := by
  induction bs generalizing o with
  | nil =>
    rw [piecesFrom_nil, List.append_nil]
    cases o with
    | none => rfl
    | some o => simp [finish, Piece.bytes, seen]
  | cons b bs ih =>
    obtain ⟨hb, hn⟩ := step_sound ho b
    rw [piecesFrom_cons, List.flatMap_append, ih hn, ← List.append_assoc, hb,
      List.append_assoc]
    rfl

theorem pieces_bytes (bs : Bytes) : (pieces bs).flatMap Piece.bytes = bs :=
  piecesFrom_bytes sound_none bs

section
variable {o : Open} {b c d e : UInt8}

theorem piecesFrom_last (hl : o.low ≤ b) (hh : b ≤ o.high) (hm : o.missing = 1)
    (bs : Bytes) : piecesFrom (some o) (b :: bs) =
      .char (Char.ofNat (o.value * 64 + b.toNat % 64)) :: piecesFrom none bs := by
  rw [piecesFrom_cons, step, if_pos ⟨hl, hh⟩, hm]
  rfl

theorem piecesFrom_next (hl : o.low ≤ b) (hh : b ≤ o.high) (hm : 1 < o.missing)
    (bs : Bytes) : piecesFrom (some o) (b :: bs) =
      piecesFrom (some ⟨o.seen ++ [b], o.value * 64 + b.toNat % 64, o.missing - 1,
        0x80, 0xBF⟩) bs := by
  rw [piecesFrom_cons, step, if_pos ⟨hl, hh⟩]
  simp only [if_neg (Nat.not_le.2 hm)]
  rfl

theorem piecesFrom_two (hl : 0xC2 ≤ b.toNat) (hh : b.toNat ≤ 0xDF)
    (hc : (0x80 : UInt8) ≤ c) (hc' : c ≤ (0xBF : UInt8)) (bs : Bytes) :
    piecesFrom none (b :: c :: bs) =
      .char (Char.ofNat (b.toNat % 32 * 64 + c.toNat % 64)) :: piecesFrom none bs := by
  rw [piecesFrom_cons, step, start_two hl hh, List.nil_append]
  exact piecesFrom_last hc hc' rfl bs

theorem piecesFrom_three (hl : 0xE0 ≤ b.toNat) (hh : b.toNat ≤ 0xEF)
    (hc : 0x80 ≤ c.toNat ∧ (b.toNat = 0xE0 → 0xA0 ≤ c.toNat))
    (hc' : c.toNat ≤ 0xBF ∧ (b.toNat = 0xED → c.toNat ≤ 0x9F))
    (hd : (0x80 : UInt8) ≤ d) (hd' : d ≤ (0xBF : UInt8)) (bs : Bytes) :
    piecesFrom none (b :: c :: d :: bs) =
      .char (Char.ofNat ((b.toNat % 16 * 64 + c.toNat % 64) * 64 + d.toNat % 64)) ::
        piecesFrom none bs := by
  rw [piecesFrom_cons, step, start_three hl hh, List.nil_append,
    piecesFrom_next ((low_le_iff (by decide)).2 hc) ((le_high_iff (by decide)).2 hc')
      (Nat.lt_succ_self 1)]
  exact piecesFrom_last hd hd' rfl bs

theorem piecesFrom_four (hl : 0xF0 ≤ b.toNat) (hh : b.toNat ≤ 0xF4)
    (hc : 0x80 ≤ c.toNat ∧ (b.toNat = 0xF0 → 0x90 ≤ c.toNat))
    (hc' : c.toNat ≤ 0xBF ∧ (b.toNat = 0xF4 → c.toNat ≤ 0x8F))
    (hd : (0x80 : UInt8) ≤ d) (hd' : d ≤ (0xBF : UInt8))
    (he : (0x80 : UInt8) ≤ e) (he' : e ≤ (0xBF : UInt8)) (bs : Bytes) :
    piecesFrom none (b :: c :: d :: e :: bs) =
      .char (Char.ofNat (((b.toNat % 8 * 64 + c.toNat % 64) * 64 + d.toNat % 64) * 64 +
        e.toNat % 64)) :: piecesFrom none bs := by
  rw [piecesFrom_cons, step, start_four hl hh, List.nil_append,
    piecesFrom_next ((low_le_iff (by decide)).2 hc) ((le_high_iff (by decide)).2 hc')
      (Nat.lt_succ_of_le (Nat.le_succ 1)),
    piecesFrom_next hd hd' (Nat.lt_succ_self 1)]
  exact piecesFrom_last he he' rfl bs

end

theorem piecesFrom_encodeChar (c : Char) (bs : Bytes) :
    piecesFrom none (String.utf8EncodeChar c ++ bs) = .char c :: piecesFrom none bs := by
  obtain ⟨n, hn, rfl⟩ : ∃ n : Nat, n.isValidChar ∧ c = Char.ofNat n :=
    ⟨c.toNat, c.valid, (Char.ofNat_toNat c).symm⟩
  rw [encodeChar_ofNat hn]
  unfold Nat.isValidChar at hn
  by_cases h1 : n ≤ 0x7F
  · obtain ⟨b, hb, hbn⟩ := exists_byte (n := n) (by omega)
    rw [if_pos h1, hb, List.singleton_append, piecesFrom_cons, step, start_one (by omega), hbn]
    rfl
  obtain ⟨d, hd, hdn⟩ := exists_byte (n := n % 0x40 + 0x80) (by omega)
  have hdr : (0x80 : UInt8) ≤ d ∧ d ≤ (0xBF : UInt8) := by
    simp only [UInt8.le_iff_toNat_le, UInt8.reduceToNat]
    omega
  rw [if_neg h1, hd]
  by_cases h2 : n ≤ 0x7FF
  · obtain ⟨b, hb, hbn⟩ := exists_byte (n := n / 64 % 0x20 + 0xC0) (by omega)
    have hv : b.toNat % 32 * 64 + d.toNat % 64 = n := by omega
    have hp := piecesFrom_two (by omega) (by omega) hdr.1 hdr.2 (b := b) bs
    rw [if_pos h2, hb]
    rwa [hv] at hp
  obtain ⟨c, hc, hcn⟩ := exists_byte (n := n / 64 % 0x40 + 0x80) (by omega)
  have hcr : (0x80 : UInt8) ≤ c ∧ c ≤ (0xBF : UInt8) := by
    simp only [UInt8.le_iff_toNat_le, UInt8.reduceToNat]
    omega
  rw [if_neg h2, hc]
  by_cases h3 : n ≤ 0xFFFF
  · obtain ⟨b, hb, hbn⟩ := exists_byte (n := n / 4096 % 0x10 + 0xE0) (by omega)
    have hv : (b.toNat % 16 * 64 + c.toNat % 64) * 64 + d.toNat % 64 = n := by omega
    have hp := piecesFrom_three (b := b) (c := c) (by omega) (by omega) (by omega) (by omega)
      hdr.1 hdr.2 bs
    rw [if_pos h3, hb]
    rwa [hv] at hp
  · obtain ⟨a, ha, han⟩ := exists_byte (n := n / 262144 % 8 + 0xF0) (by omega)
    obtain ⟨b, hb, hbn⟩ := exists_byte (n := n / 4096 % 0x40 + 0x80) (by omega)
    have hv : ((a.toNat % 8 * 64 + b.toNat % 64) * 64 + c.toNat % 64) * 64 +
        d.toNat % 64 = n := by omega
    have hp := piecesFrom_four (b := a) (c := b) (by omega) (by omega) (by omega) (by omega)
      hcr.1 hcr.2 hdr.1 hdr.2 bs
    rw [if_neg h3, ha, hb]
    rwa [hv] at hp

theorem pieces_encode (cs : List Char) : pieces (encode cs) = cs.map .char := by
  change piecesFrom none (encode cs) = _
  induction cs with
  | nil => rfl
  | cons c cs ih =>
    rw [List.map_cons, ← ih]
    exact piecesFrom_encodeChar c (encode cs)

theorem pieces_of_decode? {bs : Bytes} {cs : List Char} (h : decode? bs = some cs) :
    pieces bs = cs.map .char := by
  simp only [decode?, Option.ite_none_right_eq_some, Option.some.injEq, List.all_eq_true] at h
  obtain ⟨hall, rfl⟩ := h
  generalize pieces bs = ps at hall
  induction ps with
  | nil => rfl
  | cons p ps ih =>
    obtain ⟨hp, hps⟩ := List.forall_mem_cons.1 hall
    cases p with
    | char c => simp [Piece.char?, ← ih hps]
    | broken b => cases hp

/-- A text read strictly is the one that the bytes encode. -/
theorem decode?_eq_some_iff {bs : Bytes} {cs : List Char} :
    decode? bs = some cs ↔ bs = encode cs := by
  constructor
  · intro h
    rw [← pieces_bytes bs, pieces_of_decode? h, List.flatMap_map]
    rfl
  · rintro rfl
    rw [decode?, pieces_encode]
    simp [Piece.char?, Function.comp_def]

theorem encode_injective {cs ds : List Char} (h : encode cs = encode ds) : cs = ds := by
  have hd : decode? (encode cs) = some ds := decode?_eq_some_iff.2 h
  rw [decode?_eq_some_iff.2 rfl] at hd
  exact Option.some.inj hd

theorem decodeLossy_encode (cs : List Char) : decodeLossy (encode cs) = cs := by
  rw [decodeLossy, pieces_encode, List.map_map]
  exact List.map_id cs

end InstallLocator.Utf8
