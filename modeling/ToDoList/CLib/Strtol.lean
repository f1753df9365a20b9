import ToDoList.CLib.Text

/-!
# The numbers that `strtol` reads

`Denotes s v` is the grammar of the C library: blanks, a sign, and digits in the
base that their prefix selects, with nothing behind them. `strtol` in base 0
reads a string to its end just when the string is such a number or empty, and
then answers the number cut off at the bounds of a `long`.
-/

namespace CLib

/-- A text with its base and its digits. -/
inductive Based : Bytes → ℕ → Bytes → Prop where
  | hex {x : UInt8} {ds : Bytes} (hx : x = byte 'x' ∨ x = byte 'X') (hne : ds ≠ [])
      (hds : ∀ b ∈ ds, isDigitIn 16 b = true) : Based (byte '0' :: x :: ds) 16 ds
  | octal {ds : Bytes} (hds : ∀ b ∈ ds, isDigitIn 8 b = true) :
      Based (byte '0' :: ds) 8 (byte '0' :: ds)
  | decimal {d : UInt8} {ds : Bytes} (hd : d ≠ byte '0')
      (hds : ∀ b ∈ d :: ds, isDigitIn 10 b = true) : Based (d :: ds) 10 (d :: ds)

/-- The sign in front of the digits, and whether it is a minus. -/
inductive Sign : Bytes → Bool → Prop where
  | none : Sign [] false
  | plus : Sign [byte '+'] false
  | minus : Sign [byte '-'] true

def signed (neg : Bool) (v : ℕ) : ℤ := if neg then -v else v

def Denotes (s : Bytes) (v : ℤ) : Prop :=
  ∃ blanks sign neg body base ds, s = blanks ++ (sign ++ body) ∧ (∀ b ∈ blanks, isSpace b = true) ∧
    Sign sign neg ∧ Based body base ds ∧ v = signed neg (digitsValIn base ds)

/-! ### Digits -/

theorem isDigit_of_isDigitIn_ten {b : UInt8} (h : isDigitIn 10 b = true) : isDigit b = true := by
  by_contra hb
  rw [isDigitIn, decide_eq_true_eq, digitNum, if_neg hb] at h
  split at h
  · rename_i hlow
    have hle : (97 : ℕ) ≤ b.toNat := UInt8.le_iff_toNat_le.mp hlow.1
    omega
  · split at h
    · rename_i hup
      have hle : (65 : ℕ) ≤ b.toNat := UInt8.le_iff_toNat_le.mp hup.1
      omega
    · omega

theorem Based.head {body ds : Bytes} {base : ℕ} (h : Based body base ds) :
    ∃ d rest, body = d :: rest ∧ isDigit d = true := by
  cases h with
  | hex hx hne hds => exact ⟨_, _, rfl, by decide⟩
  | octal hds => exact ⟨_, _, rfl, by decide⟩
  | decimal hd hds => exact ⟨_, _, rfl, isDigit_of_isDigitIn_ten (hds _ (List.mem_cons_self ..))⟩

theorem Based.digits {body ds : Bytes} {base : ℕ} (h : Based body base ds) :
    ds ≠ [] ∧ ∀ b ∈ ds, isDigitIn base b = true := by
  cases h with
  | hex hx hne hds => exact ⟨hne, hds⟩
  | octal hds =>
    refine ⟨by simp, fun b hb => ?_⟩
    rcases List.mem_cons.mp hb with rfl | hb
    · decide
    · exact hds b hb
  | decimal hd hds => exact ⟨by simp, hds⟩

theorem Based.splitBase {body ds : Bytes} {base : ℕ} (h : Based body base ds) :
    splitBase body = (base, ds) := by
  cases h with
  | @hex x ds hx hne hds =>
    obtain ⟨d, rest, rfl⟩ := List.exists_cons_of_ne_nil hne
    simp [CLib.splitBase, hx, hds d (List.mem_cons_self ..)]
  | @octal ds hds =>
    cases ds with
    | nil => rfl
    | cons x ds =>
      cases ds with
      | nil => simp [CLib.splitBase]
      | cons d rest =>
        have hx : isDigitIn 8 x = true := hds x (List.mem_cons_self ..)
        have hne : ¬(x = byte 'x' ∨ x = byte 'X') := by
          rintro (rfl | rfl)
          · exact absurd hx (by decide)
          · exact absurd hx (by decide)
        simp [CLib.splitBase, hne]
  | decimal hd hds =>
    refine splitBase_of_ne_zero _ fun b hb => ?_
    cases hb
    exact hd

/-- The other way round: what `splitBase` cuts, when it is digits to its end. -/
theorem based_splitBase {body : Bytes} (hne : (splitBase body).2 ≠ [])
    (hds : ∀ b ∈ (splitBase body).2, isDigitIn (splitBase body).1 b = true) :
    Based body (splitBase body).1 (splitBase body).2 := by
  have hplain : ∀ z rest, body = z :: rest →
      splitBase body = (if z = byte '0' then 8 else 10, body) →
      Based body (splitBase body).1 (splitBase body).2 := by
    intro z rest hbody hsplit
    rw [hsplit] at hds ⊢
    subst hbody
    by_cases hz : z = byte '0'
    · subst hz
      rw [if_pos rfl] at hds ⊢
      exact .octal fun b hb => hds b (List.mem_cons_of_mem _ hb)
    · rw [if_neg hz] at hds ⊢
      exact .decimal hz hds
  match body, hne, hds, hplain with
  | [], hne, _, _ => exact absurd rfl hne
  | [z], _, _, hplain =>
    refine hplain z [] rfl ?_
    by_cases hz : z = byte '0' <;> simp [splitBase, hz]
  | [z, x], _, _, hplain =>
    refine hplain z [x] rfl ?_
    by_cases hz : z = byte '0' <;> simp [splitBase, hz]
  | z :: x :: d :: rest, hne, hds, hplain =>
    by_cases hhex : z = byte '0' ∧ (x = byte 'x' ∨ x = byte 'X') ∧ isDigitIn 16 d = true
    · obtain ⟨rfl, hx, hd⟩ := hhex
      have hsplit : splitBase (byte '0' :: x :: d :: rest) = (16, d :: rest) := by
        simp [splitBase, hx, hd]
      rw [hsplit] at hne hds ⊢
      exact .hex hx hne hds
    · refine hplain z (x :: d :: rest) rfl ?_
      by_cases hz : z = byte '0'
      · have hno : ¬((x = byte 'x' ∨ x = byte 'X') ∧ isDigitIn 16 d = true) := fun h => hhex ⟨hz, h⟩
        simp only [splitBase, hz, if_true, hno, if_false]
      · simp [splitBase, hz]

/-! ### Signs -/

theorem Sign.splitSign {sign body : Bytes} {neg : Bool} (h : Sign sign neg)
    (hbody : ∀ d ∈ body.head?, isDigit d = true) : splitSign (sign ++ body) = (neg, body) := by
  cases h with
  | none =>
    cases body with
    | nil => rfl
    | cons d rest => exact splitSign_of_digit d rest (hbody d rfl)
  | plus => simp [CLib.splitSign, (by decide : byte '+' ≠ byte '-')]
  | minus => simp [CLib.splitSign]

theorem sign_splitSign (t : Bytes) :
    ∃ sign, t = sign ++ (splitSign t).2 ∧ Sign sign (splitSign t).1 := by
  cases t with
  | nil => exact ⟨[], rfl, .none⟩
  | cons b t =>
    unfold splitSign
    dsimp only
    by_cases hminus : b = byte '-'
    · rw [if_pos hminus, hminus]
      exact ⟨_, rfl, .minus⟩
    · rw [if_neg hminus]
      by_cases hplus : b = byte '+'
      · rw [if_pos hplus, hplus]
        exact ⟨_, rfl, .plus⟩
      · rw [if_neg hplus]
        exact ⟨[], rfl, .none⟩

/-! ### strtol -/

def clampLong (v : ℤ) : ℤ := max longMin (min longMax v)

theorem denotes_body {s : Bytes} {v : ℤ} (h : Denotes s v) :
    v = signed (splitSign (s.dropWhile isSpace)).1
        (digitsValIn (splitBase (splitSign (s.dropWhile isSpace)).2).1
          (splitBase (splitSign (s.dropWhile isSpace)).2).2) ∧
      Based (splitSign (s.dropWhile isSpace)).2
        (splitBase (splitSign (s.dropWhile isSpace)).2).1
        (splitBase (splitSign (s.dropWhile isSpace)).2).2 := by
  obtain ⟨blanks, sign, neg, body, base, ds, rfl, hblanks, hsign, hbased, hv⟩ := h
  obtain ⟨d, rest, hbody, hd⟩ := hbased.head
  have hfirst : ∀ b ∈ (sign ++ body).head?, isSpace b = false := by
    intro b hb
    cases hsign with
    | none =>
      rw [hbody] at hb
      cases hb
      exact isDigit_not_isSpace d hd
    | plus =>
      cases hb
      decide
    | minus =>
      cases hb
      decide
  have hhead : ∀ b ∈ body.head?, isDigit b = true := by
    intro b hb
    rw [hbody] at hb
    cases hb
    exact hd
  rw [dropWhile_append_stop isSpace blanks _ hblanks hfirst, hsign.splitSign hhead]
  dsimp only
  rw [hbased.splitBase]
  exact ⟨hv, hbased⟩

theorem strtol_denotes {s : Bytes} {v : ℤ} (h : Denotes s v) : strtol s = (clampLong v, []) := by
  obtain ⟨hv, hbased⟩ := denotes_body h
  obtain ⟨hne, hds⟩ := hbased.digits
  unfold strtol
  dsimp only
  rw [List.takeWhile_eq_self_iff.mpr hds, if_neg hne, List.drop_length, hv]
  rfl

theorem denotes_of_strtol {s : Bytes} (hend : (strtol s).2 = []) (hne : s ≠ []) : ∃ v, Denotes s v := by
  obtain ⟨sign, hsplit, hsign⟩ := sign_splitSign (s.dropWhile isSpace)
  unfold strtol at hend
  dsimp only at hend
  split at hend
  · exact absurd hend hne
  · rename_i hdigits
    have hall : ∀ b ∈ (splitBase (splitSign (s.dropWhile isSpace)).2).2,
        isDigitIn (splitBase (splitSign (s.dropWhile isSpace)).2).1 b = true := by
      rw [← List.takeWhile_eq_self_iff]
      refine (List.takeWhile_prefix _).eq_of_length_le ?_
      rw [List.drop_eq_nil_iff] at hend
      exact hend
    have hnonempty : (splitBase (splitSign (s.dropWhile isSpace)).2).2 ≠ [] := by
      intro hnil
      rw [hnil] at hdigits
      exact hdigits rfl
    refine ⟨_, s.takeWhile isSpace, sign, _, _, _, _, ?_, ?_, hsign, based_splitBase hnonempty hall, rfl⟩
    · rw [← hsplit, List.takeWhile_append_dropWhile]
    · intro b hb
      exact List.mem_takeWhile_imp hb

/-- A string denotes one number at most. -/
theorem Denotes.unique {s : Bytes} {v w : ℤ} (h : Denotes s v) (h' : Denotes s w) : v = w :=
  (denotes_body h).1.trans (denotes_body h').1.symm

theorem Denotes.digit {s : Bytes} {v : ℤ} (h : Denotes s v) : ∃ b ∈ s, isDigit b = true := by
  obtain ⟨blanks, sign, neg, body, base, ds, rfl, -, -, hbased, -⟩ := h
  obtain ⟨d, rest, rfl, hd⟩ := hbased.head
  exact ⟨d, by simp, hd⟩

end CLib
