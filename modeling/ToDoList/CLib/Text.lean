import Mathlib.Data.List.TakeWhile
import Mathlib.Tactic

/-!
# C text: byte strings, decimal numerals and `strtoul`

Byte level of the C library calls that print and read text. A `char` array is
a list of bytes, the C string it holds ends before its first NUL, and numbers
are printed by `%lu` / `%d` as ASCII decimals and read back by `strtoul` or
`strtol` (skip white space, optional sign, digits, saturation at the bounds of
the type); `strtol` in base 0 takes the base from the prefix of the digits.
-/

namespace CLib

abbrev Bytes := List UInt8

def byte (c : Char) : UInt8 := UInt8.ofNat c.toNat

def ascii (s : String) : Bytes := s.toList.map byte

/-- The C string in a buffer: the bytes before the first NUL. -/
def cString (buf : Bytes) : Bytes := buf.takeWhile (· ≠ 0)

theorem crlf_eq : ascii "\r\n" = [byte '\r', byte '\n'] := rfl

theorem crlf_no_nul : ∀ b ∈ ascii "\r\n", b ≠ 0 := by
  intro b hb
  rw [crlf_eq] at hb
  rcases List.mem_pair.mp hb with rfl | rfl
  · decide
  · decide

def isSpace (b : UInt8) : Bool := b == 32 || (9 ≤ b && b ≤ 13)

def isDigit (b : UInt8) : Bool := 48 ≤ b && b ≤ 57

theorem crlf_first : ∀ b ∈ (ascii "\r\n").head?, isSpace b = true ∧ isDigit b = false := by
  intro b hb
  cases hb
  decide

theorem cString_of_no_nul (s : Bytes) (h : ∀ b ∈ s, b ≠ 0) : cString s = s := by
  unfold cString
  rw [List.takeWhile_eq_self_iff]
  intro b hb
  simpa using h b hb

theorem cString_append_nul (s rest : Bytes) (h : ∀ b ∈ s, b ≠ 0) :
    cString (s ++ 0 :: rest) = s := by
  unfold cString
  rw [List.takeWhile_append_of_pos (by intro b hb; simpa using h b hb)]
  simp

/-! ### Decimal numerals -/

/-- `%lu`: ASCII decimal, most significant digit first. -/
def decimal (n : ℕ) : Bytes := (Nat.toDigits 10 n).map byte

/-- `%d`, `%ld`: a minus sign in front of negative values. -/
def decimalInt (z : ℤ) : Bytes :=
  if z < 0 then byte '-' :: decimal z.natAbs else decimal z.natAbs

def digitsVal (ds : Bytes) : ℕ := ds.foldl (fun v d => 10 * v + (d.toNat - 48)) 0

theorem isDigit_byte (c : Char) (h : c.isDigit = true) : isDigit (byte c) = true := by
  simp only [Char.isDigit, Bool.and_eq_true, decide_eq_true_eq, ge_iff_le] at h
  have hlo : 48 ≤ c.toNat := h.1
  have hhi : c.toNat ≤ 57 := h.2
  have hn : (byte c).toNat = c.toNat := by
    unfold byte
    rw [UInt8.toNat_ofNat']
    omega
  simp only [isDigit, Bool.and_eq_true, decide_eq_true_eq, UInt8.le_iff_toNat_le, hn]
  exact ⟨hlo, hhi⟩

theorem byte_toNat_digit (c : Char) (h : c.isDigit = true) : (byte c).toNat = c.toNat := by
  simp only [Char.isDigit, Bool.and_eq_true, decide_eq_true_eq, ge_iff_le] at h
  have hhi : c.toNat ≤ 57 := h.2
  unfold byte
  rw [UInt8.toNat_ofNat']
  omega

theorem decimal_isDigit (n : ℕ) : ∀ b ∈ decimal n, isDigit b = true := by
  intro b hb
  obtain ⟨c, hc, rfl⟩ := List.mem_map.mp hb
  exact isDigit_byte c (Nat.isDigit_of_mem_toDigits (by decide) (by decide) hc)

theorem decimal_ne_nil (n : ℕ) : decimal n ≠ [] := by
  unfold decimal
  simp [Nat.toDigits_ne_nil]

theorem decimal_length_le (n k : ℕ) (hk : 0 < k) (h : n < 10 ^ k) : (decimal n).length ≤ k := by
  unfold decimal
  rw [List.length_map]
  exact (Nat.length_toDigits_le_iff (by decide) hk).mpr h

theorem decimal_toNat_length (n : UInt64) : (decimal n.toNat).length ≤ 20 := by
  apply decimal_length_le _ _ (by decide)
  have h := n.toNat_lt
  omega

theorem digitsVal_map_byte (cs : List Char) (h : ∀ c ∈ cs, c.isDigit = true) (init : ℕ) :
    (cs.map byte).foldl (fun v d => 10 * v + (d.toNat - 48)) init =
      Nat.ofDigitChars 10 cs init := by
  induction cs generalizing init with
  | nil => simp
  | cons c cs ih =>
    have hc := h c (List.mem_cons_self ..)
    have hcs : ∀ x ∈ cs, x.isDigit = true := fun x hx => h x (List.mem_cons_of_mem _ hx)
    rw [List.map_cons, List.foldl_cons, byte_toNat_digit c hc, ih hcs, Nat.ofDigitChars_cons]
    rfl

theorem digitsVal_decimal (n : ℕ) : digitsVal (decimal n) = n := by
  unfold digitsVal decimal
  have hd : ∀ c ∈ Nat.toDigits 10 n, c.isDigit = true := fun c hc =>
    Nat.isDigit_of_mem_toDigits (by decide) (by decide) hc
  rw [digitsVal_map_byte _ hd]
  exact Nat.ofDigitChars_ten_toDigits

theorem isDigit_not_isSpace (b : UInt8) (h : isDigit b = true) : isSpace b = false := by
  simp only [isDigit, Bool.and_eq_true, decide_eq_true_eq, UInt8.le_iff_toNat_le] at h
  have h1 : (48 : ℕ) ≤ b.toNat := h.1
  simp only [isSpace, Bool.or_eq_false_iff, beq_eq_false_iff_ne, Bool.and_eq_false_iff,
    decide_eq_false_iff_not, UInt8.le_iff_toNat_le]
  refine ⟨?_, Or.inr ?_⟩
  · rintro rfl
    exact absurd h1 (by decide)
  · intro hle
    have h2 : b.toNat ≤ 13 := hle
    omega

theorem isDigit_ne (b c : UInt8) (h : isDigit b = true) (hc : isDigit c = false) : b ≠ c := by
  rintro rfl
  rw [h] at hc
  exact Bool.noConfusion hc

/-! ### `strtoul` -/

/-- The value `strtoul` returns for a digit string: `ULONG_MAX` past 64 bits,
otherwise the value, negated as an unsigned number behind a minus sign. -/
def ulongValue (neg : Bool) (v : ℕ) : UInt64 :=
  if 2 ^ 64 ≤ v then UInt64.ofNat (2 ^ 64 - 1)
  else if neg then 0 - UInt64.ofNat v else UInt64.ofNat v

def splitSign : Bytes → Bool × Bytes
  | [] => (false, [])
  | b :: s => if b = byte '-' then (true, s) else if b = byte '+' then (false, s) else (false, b :: s)

/-- The subject sequence of `strtoul` in base 10: its value and what follows
it, or nothing when there is no digit. -/
def scanUlong (s : Bytes) : Option (UInt64 × Bytes) :=
  let body := splitSign (s.dropWhile isSpace)
  let ds := body.2.takeWhile isDigit
  if ds = [] then none
  else some (ulongValue body.1 (digitsVal ds), body.2.dropWhile isDigit)

/-- `strtoull(s, &end, 10)`; 0 when no digit was read. -/
def strtoull (s : Bytes) : UInt64 := ((scanUlong (cString s)).map Prod.fst).getD 0

theorem takeWhile_append_stop (p : UInt8 → Bool) (ds rest : Bytes) (hd : ∀ b ∈ ds, p b = true)
    (hr : ∀ b ∈ rest.head?, p b = false) : (ds ++ rest).takeWhile p = ds := by
  rw [List.takeWhile_append_of_pos hd]
  cases rest with
  | nil => simp
  | cons b rest =>
    have hb := hr b (by simp)
    simp [hb]

theorem dropWhile_append_stop (p : UInt8 → Bool) (ds rest : Bytes) (hd : ∀ b ∈ ds, p b = true)
    (hr : ∀ b ∈ rest.head?, p b = false) : (ds ++ rest).dropWhile p = rest := by
  rw [List.dropWhile_append_of_pos hd]
  cases rest with
  | nil => simp
  | cons b rest =>
    have hb := hr b (by simp)
    simp [hb]

theorem splitSign_of_digit (b : UInt8) (s : Bytes) (h : isDigit b = true) :
    splitSign (b :: s) = (false, b :: s) := by
  have h1 : b ≠ byte '-' := isDigit_ne b _ h (by decide)
  have h2 : b ≠ byte '+' := isDigit_ne b _ h (by decide)
  simp [splitSign, h1, h2]

theorem scanUlong_decimal (n : ℕ) (hn : n < 2 ^ 64) (rest : Bytes)
    (hr : ∀ b ∈ rest.head?, isDigit b = false) :
    scanUlong (decimal n ++ rest) = some (UInt64.ofNat n, rest) := by
  obtain ⟨d, ds, hds⟩ := List.exists_cons_of_ne_nil (decimal_ne_nil n)
  have hall := decimal_isDigit n
  have hd : isDigit d = true := hall d (by rw [hds]; exact List.mem_cons_self ..)
  have hsp : (decimal n ++ rest).dropWhile isSpace = decimal n ++ rest := by
    rw [hds, List.cons_append, List.dropWhile_cons, isDigit_not_isSpace d hd]
    simp
  have hsg : splitSign (decimal n ++ rest) = (false, decimal n ++ rest) := by
    rw [hds, List.cons_append]
    exact splitSign_of_digit d (ds ++ rest) hd
  have hge : ¬2 ^ 64 ≤ n := by omega
  unfold scanUlong
  rw [hsp, hsg]
  simp only [takeWhile_append_stop isDigit _ _ hall hr, dropWhile_append_stop isDigit _ _ hall hr,
    decimal_ne_nil, digitsVal_decimal, ulongValue, hge, if_false, Bool.false_eq_true]

theorem strtoull_decimal (n : ℕ) (hn : n < 2 ^ 64) : strtoull (decimal n) = UInt64.ofNat n := by
  have hz : ∀ b ∈ decimal n, b ≠ 0 := fun b hb =>
    isDigit_ne b 0 (decimal_isDigit n b hb) (by decide)
  have hs := scanUlong_decimal n hn [] (by simp)
  unfold strtoull
  rw [cString_of_no_nul _ hz]
  rw [List.append_nil] at hs
  rw [hs]
  rfl

/-! ### `strtol` in base 0 -/

/-- The value of a digit in any base up to 36, or 36. -/
def digitNum (b : UInt8) : ℕ :=
  if isDigit b then b.toNat - 48
  else if byte 'a' ≤ b ∧ b ≤ byte 'z' then b.toNat - 87
  else if byte 'A' ≤ b ∧ b ≤ byte 'Z' then b.toNat - 55
  else 36

def isDigitIn (base : ℕ) (b : UInt8) : Bool := digitNum b < base

def digitsValIn (base : ℕ) (ds : Bytes) : ℕ := ds.foldl (fun v d => base * v + digitNum d) 0

/-- `0x` before a hexadecimal digit and `0` select the base; the digits begin
behind `0x`, and with the `0` itself. -/
def splitBase : Bytes → ℕ × Bytes
  | z :: x :: d :: s =>
    if z = byte '0' then
      if (x = byte 'x' ∨ x = byte 'X') ∧ isDigitIn 16 d then (16, d :: s) else (8, z :: x :: d :: s)
    else (10, z :: x :: d :: s)
  | z :: s => if z = byte '0' then (8, z :: s) else (10, z :: s)
  | [] => (10, [])

def longMin : ℤ := -2 ^ 63
def longMax : ℤ := 2 ^ 63 - 1

/-- `strtol(s, &end, 0)`: the value and the string `end` points to, which is
`s` itself when there is no digit. -/
def strtol (s : Bytes) : ℤ × Bytes :=
  let t := splitSign (s.dropWhile isSpace)
  let b := splitBase t.2
  let ds := b.2.takeWhile (isDigitIn b.1)
  if ds = [] then (0, s)
  else
    let v : ℤ := digitsValIn b.1 ds
    (max longMin (min longMax (if t.1 then -v else v)), b.2.drop ds.length)

theorem decimal_head_ne_zero (n : ℕ) (hn : 0 < n) : ∀ b ∈ (decimal n).head?, b ≠ byte '0' := by
  induction n using Nat.strongRecOn with
  | ind n ih =>
    unfold decimal
    rw [Nat.toDigits_eq_if (by decide)]
    split
    · rename_i hlt
      interval_cases n <;> decide +kernel
    · rename_i hge
      have hq : 0 < n / 10 := Nat.div_pos (by omega) (by decide)
      have hrec := ih (n / 10) (by omega) hq
      obtain ⟨d, ds, hds⟩ := List.exists_cons_of_ne_nil (decimal_ne_nil (n / 10))
      rw [List.map_append, show (Nat.toDigits 10 (n / 10)).map byte = d :: ds from hds]
      rw [hds] at hrec
      exact hrec

theorem digitNum_of_digit {b : UInt8} (h : isDigit b = true) : digitNum b = b.toNat - 48 := by
  rw [digitNum, if_pos h]

theorem isDigitIn_ten {b : UInt8} (h : isDigit b = true) : isDigitIn 10 b = true := by
  rw [isDigitIn, digitNum_of_digit h]
  simp only [isDigit, Bool.and_eq_true, decide_eq_true_eq, UInt8.le_iff_toNat_le] at h ⊢
  have hhi : b.toNat ≤ 57 := h.2
  omega

theorem digitsValIn_ten (ds : Bytes) (h : ∀ b ∈ ds, isDigit b = true) :
    digitsValIn 10 ds = digitsVal ds := by
  unfold digitsValIn digitsVal
  generalize 0 = v
  induction ds generalizing v with
  | nil => rfl
  | cons d ds ih =>
    rw [List.foldl_cons, List.foldl_cons, digitNum_of_digit (h d (List.mem_cons_self ..))]
    exact ih (fun b hb => h b (List.mem_cons_of_mem _ hb)) _

theorem splitBase_of_ne_zero (s : Bytes) (h : ∀ b ∈ s.head?, b ≠ byte '0') : splitBase s = (10, s) := by
  match s with
  | [] => rfl
  | [z] =>
    have hz : z ≠ byte '0' := h z rfl
    simp [splitBase, hz]
  | [z, x] =>
    have hz : z ≠ byte '0' := h z rfl
    simp [splitBase, hz]
  | z :: x :: d :: s =>
    have hz : z ≠ byte '0' := h z rfl
    simp [splitBase, hz]

theorem splitSign_decimal (n : ℕ) : splitSign (decimal n) = (false, decimal n) := by
  obtain ⟨d, ds, hds⟩ := List.exists_cons_of_ne_nil (decimal_ne_nil n)
  have hd : isDigit d = true := decimal_isDigit n d (by rw [hds]; exact List.mem_cons_self ..)
  rw [hds]
  exact splitSign_of_digit d ds hd

theorem splitSign_decimalInt (z : ℤ) :
    splitSign ((decimalInt z).dropWhile isSpace) = (decide (z < 0), decimal z.natAbs) := by
  unfold decimalInt
  by_cases hz : z < 0
  · rw [if_pos hz]
    have hdrop : (byte '-' :: decimal z.natAbs).dropWhile isSpace = byte '-' :: decimal z.natAbs := by
      rw [List.dropWhile_cons_of_neg (by decide)]
    rw [hdrop]
    simp [splitSign, hz]
  · rw [if_neg hz]
    obtain ⟨d, ds, hds⟩ := List.exists_cons_of_ne_nil (decimal_ne_nil z.natAbs)
    have hd : isDigit d = true :=
      decimal_isDigit z.natAbs d (by rw [hds]; exact List.mem_cons_self ..)
    have hdrop : (decimal z.natAbs).dropWhile isSpace = decimal z.natAbs := by
      rw [hds, List.dropWhile_cons_of_neg (by simp [isDigit_not_isSpace d hd])]
    rw [hdrop, splitSign_decimal]
    simp [hz]

theorem natAbs_signed (z : ℤ) :
    (if decide (z < 0) = true then -(z.natAbs : ℤ) else (z.natAbs : ℤ)) = z := by
  by_cases hz : z < 0
  · simp only [hz, decide_true, if_true]
    omega
  · simp only [hz, decide_false, Bool.false_eq_true, if_false]
    omega

/-- What `%d` or `%ld` has printed is read back. -/
theorem strtol_decimalInt (z : ℤ) (hlo : longMin ≤ z) (hhi : z ≤ longMax) :
    strtol (decimalInt z) = (z, []) := by
  have hclamp : max longMin (min longMax z) = z := by
    rw [min_eq_right hhi, max_eq_right hlo]
  have hall := decimal_isDigit z.natAbs
  unfold strtol
  dsimp only
  rw [splitSign_decimalInt]
  rcases Nat.eq_zero_or_pos z.natAbs with h0 | hpos
  · have hz : z = 0 := Int.natAbs_eq_zero.mp h0
    subst hz
    decide
  · have hbase : splitBase (decimal z.natAbs) = (10, decimal z.natAbs) :=
      splitBase_of_ne_zero _ (decimal_head_ne_zero _ hpos)
    have htake : (decimal z.natAbs).takeWhile (isDigitIn 10) = decimal z.natAbs :=
      List.takeWhile_eq_self_iff.mpr fun b hb => isDigitIn_ten (hall b hb)
    dsimp only
    rw [hbase]
    dsimp only
    rw [htake, if_neg (decimal_ne_nil _), digitsValIn_ten _ hall, digitsVal_decimal, natAbs_signed z, hclamp,
      List.drop_length]

end CLib
