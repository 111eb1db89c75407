/-
# Families

A family gives each index a value whose type may depend on the index.  `Family.set` changes it
at one index.
-/

namespace RequestCache.Family

variable {ι : Type} [DecidableEq ι] {F : ι → Type}

/-- The family with `a` at `i`. -/
def set (f : (i : ι) → F i) (i : ι) (a : F i) : (j : ι) → F j :=
  fun j => if h : i = j then h ▸ a else f j

@[simp] theorem set_same (f : (i : ι) → F i) (i : ι) (a : F i) : set f i a i = a := by
  simp [set]

theorem set_other (f : (i : ι) → F i) {i j : ι} (a : F i) (h : j ≠ i) : set f i a j = f j := by
  simp [set, Ne.symm h]

end RequestCache.Family
