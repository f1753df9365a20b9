import ToDoList.Header
import ToDoList.CLib.Strtol

/-!
# Integer fields (util.c)

`str_to_int` tests the result of `strtol` against LONG_MIN alone, so a number
that saturates at the upper end passes, and every `long` is cut to an `int`. An
empty string is read to its end too.
-/

namespace ToDoList
open CLib

/-- The result is the number that the string denotes; a number that is no `int`
and a string without a digit are rejected. -/
structure Unchanged (str : Bytes) : Prop where
  result : ∀ res, strToInt str = some res → Denotes str res ∧ IsInt32 res
  range : ∀ v, Denotes str v → ¬IsInt32 v → strToInt str = none
  digits : (∀ b ∈ str, isDigit b = false) → strToInt str = none

theorem strToInt_denotes {str : Bytes} {v : ℤ} (h : Denotes str v) :
    strToInt str = if v ≤ longMin then none else some (toInt32 (min longMax v)) := by
  unfold strToInt
  rw [strtol_denotes h]
  dsimp only
  unfold clampLong
  by_cases hmin : v ≤ longMin
  · have hclamp : max longMin (min longMax v) = longMin := by
      rw [max_eq_left (le_trans (min_le_right _ _) hmin)]
    rw [if_pos (Or.inl hclamp), if_pos hmin]
  · have hlt : longMin < min longMax v := lt_min (by decide) (lt_of_not_ge hmin)
    have hno : ¬(max longMin (min longMax v) = longMin ∨ ([] : Bytes) ≠ []) := by
      rw [max_eq_right hlt.le]
      rintro (heq | hne)
      · exact absurd heq hlt.ne'
      · exact hne rfl
    rw [if_neg hno, if_neg hmin, max_eq_right hlt.le]

theorem strToInt_cases {str : Bytes} {res : ℤ} (h : strToInt str = some res) :
    str = [] ∨ ∃ v, Denotes str v := by
  by_cases hnil : str = []
  · exact .inl hnil
  · refine .inr (denotes_of_strtol ?_ hnil)
    unfold strToInt at h
    dsimp only at h
    split at h
    · cases h
    · rename_i hno
      exact not_not.mp fun hend => hno (.inr hend)

/-- The strings whose number is an `int`, where they denote one above LONG_MIN. -/
def SafeNumber (str : Bytes) : Prop := str ≠ [] ∧ ∀ v, Denotes str v → longMin < v → IsInt32 v

/-- Integer fields come through unchanged just for the non-empty strings that do
not denote a number above LONG_MIN outside an `int`. -/
theorem unchanged_iff_safe (str : Bytes) : Unchanged str ↔ SafeNumber str := by
  constructor
  · intro h
    refine ⟨?_, ?_⟩
    · rintro rfl
      have hnone := h.digits (by simp)
      exact absurd hnone (by decide)
    · intro v hv hmin
      by_contra hint
      have hnone := h.range v hv hint
      rw [strToInt_denotes hv, if_neg (not_le.mpr hmin)] at hnone
      cases hnone
  · rintro ⟨hne, hsafe⟩
    have hresult : ∀ res, strToInt str = some res → Denotes str res ∧ IsInt32 res := by
      intro res hres
      obtain ⟨v, hv⟩ := (strToInt_cases hres).resolve_left hne
      rw [strToInt_denotes hv] at hres
      split at hres
      · cases hres
      · rename_i hmin
        have hint := hsafe v hv (lt_of_not_ge hmin)
        have hmax : v ≤ longMax := by
          have hhi := hint.2
          unfold longMax
          omega
        rw [min_eq_right hmax, toInt32_of_isInt32 hint] at hres
        cases hres
        exact ⟨hv, hint⟩
    refine ⟨hresult, ?_, ?_⟩
    · intro v hv hint
      cases hres : strToInt str with
      | none => rfl
      | some res =>
        obtain ⟨hd, hr⟩ := hresult res hres
        exact absurd (hd.unique hv ▸ hr) hint
    · intro hdigits
      cases hres : strToInt str with
      | none => rfl
      | some res =>
        obtain ⟨b, hb, hdigit⟩ := (hresult res hres).1.digit
        rw [hdigits b hb] at hdigit
        cases hdigit

/-- 2^32 + 1 is read as 1. -/
theorem long_number_cut : ¬Unchanged (ascii "4294967297") := by
  intro h
  have hone : strToInt (ascii "4294967297") = some 1 := by decide +kernel
  have hbased : Based (byte '4' :: ascii "294967297") 10 (byte '4' :: ascii "294967297") :=
    .decimal (by decide) (by decide +kernel)
  have hnumber : Denotes (ascii "4294967297") 4294967297 :=
    ⟨[], [], false, _, _, _, rfl, by simp, .none, hbased, by decide +kernel⟩
  have hsame := (h.result 1 hone).1.unique hnumber
  cases hsame

/-- What `%d` has printed of an `int` is such a string. -/
theorem decimalInt_safe {z : ℤ} (h : IsInt32 z) : SafeNumber (decimalInt z) := by
  obtain ⟨hlo, hhi⟩ := h
  have hmin : longMin ≤ z := by
    unfold longMin
    omega
  have hmax : z ≤ longMax := by
    unfold longMax
    omega
  refine ⟨?_, fun v hv hlow => ?_⟩
  · have hne := decimal_ne_nil z.natAbs
    unfold decimalInt
    split <;> simp [hne]
  · have hread := strtol_denotes hv
    rw [strtol_decimalInt z hmin hmax, Prod.mk.injEq] at hread
    have hclamp := hread.1
    unfold clampLong longMin longMax at hclamp
    unfold longMin at hlow
    exact ⟨by omega, by omega⟩

end ToDoList
