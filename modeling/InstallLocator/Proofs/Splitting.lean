/-!
# Texts cut at a separator

Pieces that each end in the separator are found again when their text is cut at
it, if none of them holds the separator, and only then.
-/

set_option autoImplicit false

namespace InstallLocator

section
variable {x : Char} {cs : List Char} {pieces : List (List Char)}

def terminated (x : Char) (pieces : List (List Char)) : List Char :=
  pieces.flatMap fun p => p ++ [x]

theorem terminated_cons (x : Char) (p : List Char) (pieces : List (List Char)) :
    terminated x (p :: pieces) = p ++ x :: terminated x pieces := by
  simp [terminated]

theorem splitOn_terminated (hp : ∀ p ∈ pieces, x ∉ p) {last : List Char} (hlast : x ∉ last) :
    (terminated x pieces ++ last).splitOn x = pieces ++ [last] := by
  induction pieces with
  | nil => exact List.splitOn_eq_singleton hlast
  | cons p ps ih =>
    obtain ⟨hn, hns⟩ := List.forall_mem_cons.1 hp
    rw [terminated_cons, List.append_assoc, List.cons_append,
      List.splitOn_append_cons_self_of_not_mem hn, ih hns]
    rfl

theorem terminated_splitOn (x : Char) (cs : List Char) :
    terminated x (cs.splitOn x) = cs ++ [x] := by
  induction cs with
  | nil => rfl
  | cons c cs ih =>
    rw [List.splitOn_cons_eq_if_modifyHead]
    by_cases hc : c = x
    · rw [if_pos (by simpa using hc), terminated_cons, ih, hc]
      rfl
    · obtain ⟨s, ss, hs⟩ := List.exists_cons_of_ne_nil (List.splitOn_ne_nil x cs)
      rw [hs, terminated_cons] at ih
      rw [if_neg (by simpa using hc), hs, List.modifyHead_cons, terminated_cons, List.cons_append,
        ih, List.cons_append]

theorem not_mem_of_mem_splitOn {p : List Char} (hp : p ∈ cs.splitOn x) : x ∉ p := by
  induction cs generalizing p with
  | nil => simp_all
  | cons c cs ih =>
    rw [List.splitOn_cons_eq_if_modifyHead] at hp
    by_cases hc : c = x
    · rw [if_pos (by simpa using hc)] at hp
      rcases List.mem_cons.1 hp with rfl | hp
      · simp
      · exact ih hp
    · obtain ⟨s, ss, hs⟩ := List.exists_cons_of_ne_nil (List.splitOn_ne_nil x cs)
      rw [if_neg (by simpa using hc), hs, List.modifyHead_cons] at hp
      rcases List.mem_cons.1 hp with rfl | hp
      · have h := ih (hs ▸ List.mem_cons_self)
        simp [h, Ne.symm hc]
      · exact ih (hs ▸ List.mem_cons_of_mem s hp)

/-- Cut text gives the pieces back exactly if none of them holds the separator. -/
theorem splitOn_terminated_iff :
    (terminated x pieces).splitOn x = pieces ++ [[]] ↔ ∀ p ∈ pieces, x ∉ p := by
  constructor
  · intro h p hp
    exact not_mem_of_mem_splitOn (h ▸ List.mem_append_left _ hp)
  · intro hp
    simpa using splitOn_terminated hp (List.not_mem_nil (a := x))

end

end InstallLocator
