import ToDoList.CLib.Text

/-!
# Line input and formatted input

`fgets` cuts a stream into lines of at most `n - 1` bytes. `sscanf` walks its
format over the input: a white-space directive skips any white space, other
characters must match, and each conversion stores one value; it stops at the
first directive that fails, keeping what was stored before.
-/

namespace CLib

/-! ### fgets -/

/-- The successive results of `fgets(line, n, f)` on the bytes of `f`. `acc`
is what the current call has stored; a call ends after a newline, after
`n - 1` bytes, or at end of file if it stored anything. -/
def fgetsLines (n : ℕ) : Bytes → Bytes → List Bytes
  | [], [] => []
  | a :: acc, [] => [a :: acc]
  | acc, b :: bs =>
    if b = byte '\n' ∨ n ≤ acc.length + 2 then (acc ++ [b]) :: fgetsLines n [] bs
    else fgetsLines n (acc ++ [b]) bs

theorem fgetsLines_cons (n : ℕ) (acc : Bytes) (b : UInt8) (bs : Bytes) :
    fgetsLines n acc (b :: bs) =
      if b = byte '\n' ∨ n ≤ acc.length + 2 then (acc ++ [b]) :: fgetsLines n [] bs
      else fgetsLines n (acc ++ [b]) bs := by
  cases acc <;> rfl

theorem fgetsLines_line_acc (n : ℕ) (acc line rest : Bytes) (hnl : ∀ b ∈ line, b ≠ byte '\n')
    (hlen : acc.length + line.length + 1 < n) :
    fgetsLines n acc (line ++ byte '\n' :: rest) =
      (acc ++ line ++ [byte '\n']) :: fgetsLines n [] rest := by
  induction line generalizing acc with
  | nil =>
    rw [List.nil_append, fgetsLines_cons]
    simp
  | cons b line ih =>
    have hb : b ≠ byte '\n' := hnl b (List.mem_cons_self ..)
    have htail : ∀ c ∈ line, c ≠ byte '\n' := fun c hc => hnl c (List.mem_cons_of_mem _ hc)
    have hroom : ¬n ≤ acc.length + 2 := by
      simp only [List.length_cons] at hlen
      omega
    have hstop : ¬(b = byte '\n' ∨ n ≤ acc.length + 2) := by
      rintro (h | h)
      · exact hb h
      · exact hroom h
    rw [List.cons_append, fgetsLines_cons, if_neg hstop]
    have hih := ih (acc ++ [b]) htail (by
      simp only [List.length_append, List.length_cons, List.length_nil] at hlen ⊢
      omega)
    rw [hih]
    simp

theorem fgetsLines_line (n : ℕ) (line rest : Bytes) (hnl : ∀ b ∈ line, b ≠ byte '\n')
    (hlen : line.length + 1 < n) :
    fgetsLines n [] (line ++ byte '\n' :: rest) =
      (line ++ [byte '\n']) :: fgetsLines n [] rest := by
  have h := fgetsLines_line_acc n [] line rest hnl (by
    simp only [List.length_nil]
    omega)
  simpa using h

/-- A call that fills its buffer leaves the rest of the line to the next. -/
theorem fgetsLines_full_acc (n : ℕ) (acc body rest : Bytes) (hnl : ∀ b ∈ body, b ≠ byte '\n')
    (hne : body ≠ []) (hlen : acc.length + body.length + 1 = n) :
    fgetsLines n acc (body ++ rest) = (acc ++ body) :: fgetsLines n [] rest := by
  induction body generalizing acc with
  | nil => exact absurd rfl hne
  | cons b body ih =>
    rw [List.length_cons] at hlen
    rw [List.cons_append, fgetsLines_cons]
    cases body with
    | nil =>
      have hfull : n ≤ acc.length + 2 := by
        rw [List.length_nil] at hlen
        omega
      rw [if_pos (Or.inr hfull), List.nil_append]
    | cons c body =>
      have hb : b ≠ byte '\n' := hnl b (List.mem_cons_self ..)
      have hroom : ¬n ≤ acc.length + 2 := by
        rw [List.length_cons] at hlen
        omega
      have hstop : ¬(b = byte '\n' ∨ n ≤ acc.length + 2) := by
        rintro (h | h)
        · exact hb h
        · exact hroom h
      rw [if_neg hstop, ih (acc ++ [b]) (fun x hx => hnl x (List.mem_cons_of_mem _ hx))
        (List.cons_ne_nil _ _) (by rw [List.length_append, List.length_singleton]; omega)]
      simp

theorem fgetsLines_full (n : ℕ) (body rest : Bytes) (hnl : ∀ b ∈ body, b ≠ byte '\n')
    (hne : body ≠ []) (hlen : body.length + 1 = n) :
    fgetsLines n [] (body ++ rest) = body :: fgetsLines n [] rest := by
  have h := fgetsLines_full_acc n [] body rest hnl hne (by rw [List.length_nil]; omega)
  simpa using h

/-! ### sscanf -/

inductive Directive where
  | white
  | lit (b : UInt8)
  | str
  | set (excluded : Bytes) (width : ℕ)
  | skipChar
  | ulong
deriving Repr, DecidableEq

inductive Value where
  | text (bs : Bytes)
  | num (n : UInt64)
deriving Repr, DecidableEq

def lits (s : String) : List Directive := (ascii s).map .lit

/-- `sscanf`: the values stored, in order. -/
def sscanf : List Directive → Bytes → List Value
  | [], _ => []
  | .white :: ds, s => sscanf ds (s.dropWhile isSpace)
  | .lit _ :: _, [] => []
  | .lit b :: ds, c :: s => if b = c then sscanf ds s else []
  | .str :: ds, s =>
    let t := s.dropWhile isSpace
    let w := t.takeWhile fun b => !isSpace b
    if w = [] then [] else .text w :: sscanf ds (t.drop w.length)
  | .set excluded width :: ds, s =>
    let w := (s.takeWhile fun b => !excluded.contains b).take width
    if w = [] then [] else .text w :: sscanf ds (s.drop w.length)
  | .skipChar :: _, [] => []
  | .skipChar :: ds, _ :: s => sscanf ds s
  | .ulong :: ds, s =>
    match scanUlong s with
    | none => []
    | some (v, t) => .num v :: sscanf ds t

theorem sscanf_lits (p : Bytes) (ds : List Directive) (s : Bytes) :
    sscanf (p.map Directive.lit ++ ds) (p ++ s) = sscanf ds s := by
  induction p with
  | nil => rfl
  | cons b p ih =>
    rw [List.map_cons, List.cons_append, List.cons_append, sscanf, if_pos rfl]
    exact ih

theorem sscanf_white_blank (ds : List Directive) (s : Bytes)
    (h : ∀ b ∈ s.head?, isSpace b = false) :
    sscanf (.white :: ds) (byte ' ' :: s) = sscanf ds s := by
  have hb : (byte ' ' :: s).dropWhile isSpace = s := by
    have h1 := dropWhile_append_stop isSpace [byte ' '] s (by decide +kernel) h
    simpa using h1
  rw [sscanf, hb]

theorem sscanf_str_word (ds : List Directive) (w rest : Bytes) (hw : ∀ b ∈ w, isSpace b = false)
    (hne : w ≠ []) (hr : ∀ b ∈ rest.head?, isSpace b = true) :
    sscanf (.str :: ds) (w ++ rest) = .text w :: sscanf ds rest := by
  obtain ⟨a, t, rfl⟩ := List.exists_cons_of_ne_nil hne
  have ha : isSpace a = false := hw a (List.mem_cons_self ..)
  have hdrop : ((a :: t) ++ rest).dropWhile isSpace = (a :: t) ++ rest := by
    rw [List.cons_append, List.dropWhile_cons, ha]
    simp
  have htake : ((a :: t) ++ rest).takeWhile (fun b => !isSpace b) = a :: t := by
    apply takeWhile_append_stop
    · intro b hb
      simp [hw b hb]
    · intro b hb
      simp [hr b hb]
  rw [sscanf]
  simp only [hdrop, htake, List.cons_ne_nil, if_false, List.drop_left]

/-- `%w[^..]` on a text within the width that an excluded byte or the end of
input ends. -/
theorem sscanf_set_run (ds : List Directive) (excluded : Bytes) (width : ℕ) (w rest : Bytes)
    (hw : ∀ b ∈ w, b ∉ excluded) (hne : w ≠ []) (hlen : w.length ≤ width)
    (hr : ∀ b ∈ rest.head?, b ∈ excluded) :
    sscanf (.set excluded width :: ds) (w ++ rest) = .text w :: sscanf ds rest := by
  have htake : (w ++ rest).takeWhile (fun b => !excluded.contains b) = w := by
    apply takeWhile_append_stop
    · intro b hb
      have := hw b hb
      simpa using this
    · intro b hb
      simp [hr b hb]
  rw [sscanf]
  simp only [htake, List.take_of_length_le hlen, hne, if_false, List.drop_left]

theorem sscanf_set_word (ds : List Directive) (x : UInt8) (width : ℕ) (w rest : Bytes)
    (hw : ∀ b ∈ w, b ≠ x) (hne : w ≠ []) (hlen : w.length ≤ width) (hr : ∀ b ∈ rest.head?, b = x) :
    sscanf (.set [x] width :: ds) (w ++ rest) = .text w :: sscanf ds rest :=
  sscanf_set_run ds [x] width w rest (fun b hb => by simpa using hw b hb) hne hlen
    fun b hb => by simpa using hr b hb

theorem sscanf_ulong_decimal (ds : List Directive) (n : ℕ) (hn : n < 2 ^ 64) (rest : Bytes)
    (hr : ∀ b ∈ rest.head?, isDigit b = false) :
    sscanf (.ulong :: ds) (decimal n ++ rest) = .num (UInt64.ofNat n) :: sscanf ds rest := by
  rw [sscanf, scanUlong_decimal n hn rest hr]

/-! Every text that is stored is a piece of the input. -/

theorem splitSign_suffix (s : Bytes) : (splitSign s).2 <:+ s := by
  unfold splitSign
  split
  · exact List.suffix_rfl
  · rename_i b t
    split
    · exact List.suffix_cons b t
    · split
      · exact List.suffix_cons b t
      · exact List.suffix_rfl

theorem scanUlong_suffix {s t : Bytes} {v : UInt64} (h : scanUlong s = some (v, t)) : t <:+ s := by
  unfold scanUlong at h
  dsimp only at h
  split at h
  · cases h
  · cases h
    exact (List.dropWhile_suffix _).trans ((splitSign_suffix _).trans (List.dropWhile_suffix _))

theorem sscanf_text_part {ds : List Directive} {s w : Bytes} (h : .text w ∈ sscanf ds s) :
    w <:+: s := by
  induction ds generalizing s with
  | nil =>
    rw [sscanf] at h
    cases h
  | cons d ds ih =>
    cases d with
    | white =>
      rw [sscanf] at h
      exact (ih h).trans (List.dropWhile_suffix _).isInfix
    | lit b =>
      cases s with
      | nil =>
        rw [sscanf] at h
        cases h
      | cons c s =>
        rw [sscanf] at h
        split at h
        · exact (ih h).trans (List.suffix_cons c s).isInfix
        · cases h
    | str =>
      have hword := (List.takeWhile_prefix (l := s.dropWhile isSpace) fun b => !isSpace b).isInfix
      have hblank := (List.dropWhile_suffix (l := s) isSpace).isInfix
      rw [sscanf] at h
      split at h
      · cases h
      · rcases List.mem_cons.mp h with hw | hrest
        · cases hw
          exact hword.trans hblank
        · exact ((ih hrest).trans (List.drop_suffix _ _).isInfix).trans hblank
    | set excluded width =>
      have hrun := (List.takeWhile_prefix (l := s) fun b => !excluded.contains b).isInfix
      rw [sscanf] at h
      split at h
      · cases h
      · rcases List.mem_cons.mp h with hw | hrest
        · cases hw
          exact (List.take_prefix _ _).isInfix.trans hrun
        · exact (ih hrest).trans (List.drop_suffix _ _).isInfix
    | skipChar =>
      cases s with
      | nil =>
        rw [sscanf] at h
        cases h
      | cons c s =>
        rw [sscanf] at h
        exact (ih h).trans (List.suffix_cons c s).isInfix
    | ulong =>
      rw [sscanf] at h
      split at h
      · cases h
      · rename_i v t hscan
        rcases List.mem_cons.mp h with hw | hrest
        · cases hw
        · exact (ih hrest).trans (scanUlong_suffix hscan).isInfix

end CLib
