/-!
# Texts up to the case of ASCII letters

Only `A` to `Z` and `a` to `z` have two cases here; every other character
equals itself alone.
-/

set_option autoImplicit false

namespace InstallLocator

/-- Both texts are the same once `A` to `Z` are written as `a` to `z`. -/
def sameIgnoringCase (s t : String) : Bool :=
  s.toList.map Char.toLower == t.toList.map Char.toLower

theorem sameIgnoringCase_symm (s t : String) :
    sameIgnoringCase s t = sameIgnoringCase t s := by
  rw [sameIgnoringCase, sameIgnoringCase, BEq.comm]

theorem sameIgnoringCase_trans {s t u : String} (hst : sameIgnoringCase s t = true)
    (htu : sameIgnoringCase t u = true) : sameIgnoringCase s u = true :=
  beq_iff_eq.2 ((eq_of_beq hst).trans (eq_of_beq htu))

end InstallLocator
