/-!
# White space

The characters with the Unicode property `White_Space`, and the part of a text
that is left when they are removed from both ends.
-/

set_option autoImplicit false

namespace InstallLocator

def isWhite (c : Char) : Bool :=
  let n := c.toNat
  (9 ≤ n && n ≤ 13) || n = 0x20 || n = 0x85 || n = 0xA0 || n = 0x1680 ||
    (0x2000 ≤ n && n ≤ 0x200A) || n = 0x2028 || n = 0x2029 || n = 0x202F ||
    n = 0x205F || n = 0x3000

def trimChars (cs : List Char) : List Char :=
  ((cs.dropWhile isWhite).reverse.dropWhile isWhite).reverse

def trim (s : String) : String :=
  String.ofList (trimChars s.toList)

/-- Neither the first nor the last character is white space. -/
def Trimmed (s : String) : Prop :=
  (∀ c ∈ s.toList.head?, isWhite c = false) ∧ ∀ c ∈ s.toList.getLast?, isWhite c = false

instance (s : String) : Decidable (Trimmed s) :=
  @instDecidableAnd _ _ (Option.decidableForallMem _) (Option.decidableForallMem _)

theorem not_isWhite_head {cs : List Char} {c : Char}
    (hc : c ∈ (cs.dropWhile isWhite).head?) : isWhite c = false := by
  have h := List.head?_dropWhile_not isWhite cs
  rw [Option.mem_def.1 hc] at h
  exact h

theorem trimChars_append {w v : List Char} (hw : ∀ c ∈ w, isWhite c = true)
    (hv : ∀ c ∈ v, isWhite c = true) (cs : List Char) : trimChars (w ++ cs ++ v) = trimChars cs := by
  have hrev : ∀ c ∈ v.reverse, isWhite c = true := fun c hc => hv c (List.mem_reverse.1 hc)
  rw [trimChars, trimChars, List.append_assoc, List.dropWhile_append_of_pos hw,
    List.dropWhile_append]
  split
  · rename_i hnil
    have hdrop : v.dropWhile isWhite = [] := by
      rw [← List.append_nil v, List.dropWhile_append_of_pos hv, List.dropWhile_nil]
    rw [hdrop, List.isEmpty_iff.1 hnil]
  · rw [List.reverse_append, List.dropWhile_append_of_pos hrev]

/-- What is left at the end was the end before, so the start is trimmed still. -/
theorem trim_trimmed (s : String) : Trimmed (trim s) := by
  unfold Trimmed trim trimChars
  rw [String.toList_ofList, List.head?_reverse, List.getLast?_reverse]
  refine ⟨fun c hc => ?_, fun c hc => not_isWhite_head hc⟩
  obtain ⟨before, hb⟩ := List.dropWhile_suffix isWhite (l := (s.toList.dropWhile isWhite).reverse)
  have hlast : c ∈ (s.toList.dropWhile isWhite).reverse.getLast? := by
    rw [← hb, List.getLast?_append, Option.mem_def.1 hc]
    rfl
  rw [List.getLast?_reverse] at hlast
  exact not_isWhite_head hlast

theorem trim_of_trimmed {s : String} (hs : Trimmed s) : trim s = s := by
  have hdrop : ∀ cs : List Char, (∀ c ∈ cs.head?, isWhite c = false) → cs.dropWhile isWhite = cs := by
    intro cs h
    cases cs with
    | nil => rfl
    | cons c cs =>
      rw [List.dropWhile_cons, h c rfl]
      rfl
  have hlast : ∀ c ∈ s.toList.reverse.head?, isWhite c = false := by
    rw [List.head?_reverse]
    exact hs.2
  rw [trim, trimChars, hdrop _ hs.1, hdrop _ hlast, List.reverse_reverse, String.ofList_toList]

end InstallLocator
