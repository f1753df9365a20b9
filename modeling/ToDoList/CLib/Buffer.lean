import ToDoList.CLib.Text
import Mathlib.Data.Vector.Basic

/-!
# Fixed-size `char` arrays

An array of `n` bytes carries its size in its type. `memcpy` answers `none`
when it would read or write outside the two objects; `strncpy` pads with NULs
and leaves no terminator when the source fills the array.
-/

namespace CLib

abbrev CArray (n : ℕ) := List.Vector UInt8 n

def zeros (n : ℕ) : CArray n := List.Vector.replicate n 0

def strncpy (n : ℕ) (s : Bytes) : CArray n :=
  ⟨(s ++ List.replicate n 0).take n, by
    rw [List.length_take, List.length_append, List.length_replicate]
    omega⟩

/-- `memcpy(dst, src, len)`; `none` when `len` passes the end of either object. -/
def memcpy {n : ℕ} (dst : CArray n) (src : Bytes) (len : ℕ) : Option (CArray n) :=
  if h : len ≤ n ∧ len ≤ src.length then
    some ⟨src.take len ++ dst.toList.drop len, by
      rw [List.length_append, List.length_take, List.length_drop, List.Vector.toList_length]
      omega⟩
  else none

theorem memcpy_eq_some {n : ℕ} {dst out : CArray n} {src : Bytes} {len : ℕ}
    (h : memcpy dst src len = some out) :
    len ≤ n ∧ len ≤ src.length ∧ out.toList = src.take len ++ dst.toList.drop len := by
  unfold memcpy at h
  split at h
  · rename_i hb
    cases h
    exact ⟨hb.1, hb.2, rfl⟩
  · cases h

theorem memcpy_of_le {n : ℕ} (dst : CArray n) (src : Bytes) (len : ℕ) (hn : len ≤ n)
    (hs : len ≤ src.length) : ∃ out : CArray n, memcpy dst src len = some out := by
  have hb : len ≤ n ∧ len ≤ src.length := ⟨hn, hs⟩
  unfold memcpy
  rw [dif_pos hb]
  exact ⟨_, rfl⟩

theorem memcpy_eq_none {n : ℕ} (dst : CArray n) (src : Bytes) (len : ℕ)
    (h : ¬(len ≤ n ∧ len ≤ src.length)) : memcpy dst src len = none := by
  unfold memcpy
  rw [dif_neg h]

theorem take_memcpy {n : ℕ} {dst out : CArray n} {src : Bytes} {len : ℕ}
    (h : memcpy dst src len = some out) : out.toList.take len = src.take len := by
  obtain ⟨-, hs, ho⟩ := memcpy_eq_some h
  have hl : (src.take len).length = len := by
    rw [List.length_take]
    omega
  rw [ho, List.take_left' hl]

theorem toList_zeros (n : ℕ) : (zeros n).toList = List.replicate n 0 := rfl

theorem toList_strncpy (n : ℕ) (s : Bytes) (h : s.length ≤ n) :
    (strncpy n s).toList = s ++ List.replicate (n - s.length) 0 := by
  show (s ++ List.replicate n 0).take n = _
  rw [List.take_append, List.take_of_length_le h, List.take_replicate]
  congr 2
  omega

theorem zeros_eq_strncpy (n : ℕ) : zeros n = strncpy n [] := by
  apply List.Vector.eq
  rw [toList_strncpy n [] (Nat.zero_le n), toList_zeros]
  rfl

end CLib
