import Mathlib.Data.List.Count
import Mathlib.Data.List.Perm.Basic
import Mathlib.Logic.Function.Basic

/-!
# Objects that are passed on

An object is allocated by a thread of its own, handed over to a shared place
(a queue, the hands of a worker) and freed by whoever holds it. In custody, an
allocated object has one holder and a freed one none, so that holding an object
is enough to use it and to free it.
-/

namespace Custody

variable {ι : Type*} [DecidableEq ι]

/-- `own i`: the thread that allocated `i` still holds it. -/
def InCustody (live own : ι → Bool) (shared : List ι) : Prop :=
  ∀ i, (own i).toNat + shared.count i = (live i).toNat

variable {live own : ι → Bool} {shared shared' : List ι} {i j : ι}

theorem inCustody_start : InCustody (fun _ : ι => false) (fun _ => false) [] := fun _ => rfl

namespace InCustody

theorem perm (h : InCustody live own shared) (hp : shared.Perm shared') : InCustody live own shared' := by
  intro i
  rw [← hp.count_eq]
  exact h i

theorem live_of_own (h : InCustody live own shared) (hi : own i = true) : live i = true := by
  have hcount := h i
  cases hl : live i with
  | true => rfl
  | false =>
    rw [hi, hl] at hcount
    simp at hcount

theorem live_of_shared (h : InCustody live own shared) (hi : i ∈ shared) : live i = true := by
  have hcount := h i
  have hpos := List.count_pos_iff.mpr hi
  cases hl : live i with
  | true => rfl
  | false =>
    rw [hl] at hcount
    simp only [Bool.toNat_false] at hcount
    omega

theorem not_shared (h : InCustody live own shared) (hi : own i = true) : i ∉ shared := by
  intro hmem
  have hcount := h i
  have hpos := List.count_pos_iff.mpr hmem
  have hle := Bool.toNat_le (live i)
  rw [hi, Bool.toNat_true] at hcount
  omega

theorem create (h : InCustody live own shared) (hi : live i = false) :
    InCustody (Function.update live i true) (Function.update own i true) shared := by
  intro j
  have hcount := h j
  by_cases hj : j = i
  · subst hj
    rw [hi, Bool.toNat_false] at hcount
    simp only [Function.update_self, Bool.toNat_true]
    omega
  · simpa only [Function.update_of_ne hj] using hcount

/-- The thread that allocated `i` frees it. -/
theorem discard (h : InCustody live own shared) (hi : own i = true) :
    InCustody (Function.update live i false) (Function.update own i false) shared := by
  intro j
  by_cases hj : j = i
  · subst hj
    simp only [Function.update_self, Bool.toNat_false, Nat.zero_add]
    exact List.count_eq_zero.mpr (h.not_shared hi)
  · simpa only [Function.update_of_ne hj] using h j

theorem handOver (h : InCustody live own shared) (hi : own i = true) :
    InCustody live (Function.update own i false) (i :: shared) := by
  intro j
  have hcount := h j
  by_cases hj : j = i
  · subst hj
    rw [hi, Bool.toNat_true] at hcount
    simp only [Function.update_self, Bool.toNat_false, List.count_cons_self]
    omega
  · rw [List.count_cons_of_ne (Ne.symm hj)]
    simpa only [Function.update_of_ne hj] using hcount

/-- Whoever holds `i` in the shared place frees it. -/
theorem release (h : InCustody live own (i :: shared)) :
    InCustody (Function.update live i false) own shared := by
  intro j
  have hcount := h j
  by_cases hj : j = i
  · subst hj
    rw [List.count_cons_self] at hcount
    have hle := Bool.toNat_le (live j)
    simp only [Function.update_self, Bool.toNat_false]
    omega
  · rw [List.count_cons_of_ne (Ne.symm hj)] at hcount
    simpa only [Function.update_of_ne hj] using hcount

end InCustody

end Custody
