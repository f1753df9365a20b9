import ToDoList.CLib.StepRun

/-!
# Readers

A reader gives a stream out in pieces, one for each request. `Cut P` says that
the pieces lie in the stream one behind the other and that each is what its
request is to get; `Throughout` is about every moment of a run.
-/

namespace Reader

variable {σ ι β φ κ : Type*} (read : σ → ι → Except φ (List β × σ))

/-- The pieces for the requests, and the reader behind them. -/
def reads : σ → List ι → Except φ (List (List β) × σ)
  | s, [] => .ok ([], s)
  | s, n :: ns =>
    match read s n with
    | .error f => .error f
    | .ok (piece, s) =>
      match reads s ns with
      | .error f => .error f
      | .ok (pieces, s) => .ok (piece :: pieces, s)

/-! ### Pieces of a stream -/

/-- `P n piece rest`: the request `n` gets `piece` when `rest` is what follows. -/
inductive Cut (P : ι → List β → List β → Prop) : List ι → List (List β) → List β → List β → Prop where
  | nil (stream : List β) : Cut P [] [] stream stream
  | cons {n : ι} {ns : List ι} {piece rest left : List β} {pieces : List (List β)} (hpiece : P n piece rest)
      (hrest : Cut P ns pieces rest left) : Cut P (n :: ns) (piece :: pieces) (piece ++ rest) left

variable {P : ι → List β → List β → Prop} {ns : List ι} {pieces : List (List β)} {stream left : List β}

theorem Cut.flatten (h : Cut P ns pieces stream left) : pieces.flatten ++ left = stream := by
  induction h with
  | nil stream => rfl
  | cons hpiece hrest ih => rw [List.flatten_cons, List.append_assoc, ih]

/-- Where a request leaves no choice, the stream alone decides the pieces. -/
theorem Cut.unique {pieces' : List (List β)} {left' : List β}
    (hP : ∀ n p r p' r', P n p r → P n p' r' → p ++ r = p' ++ r' → p = p')
    (h : Cut P ns pieces stream left) (h' : Cut P ns pieces' stream left') : pieces = pieces' := by
  induction h generalizing pieces' left' with
  | nil stream =>
    cases h'
    rfl
  | @cons n ns piece rest left pieces hpiece hrest ih =>
    generalize hstream : piece ++ rest = stream at h'
    cases h' with
    | @cons _ _ piece' rest' _ pieces' hpiece' hrest' =>
      have hsame : piece = piece' := hP n piece rest piece' rest' hpiece hpiece' hstream
      subst hsame
      rw [List.append_cancel_left hstream] at ih
      rw [ih hrest']

theorem reads_cut {Holds : σ → List β → Prop}
    (hread : ∀ s stream n, Holds s stream →
      ∃ piece s' rest, read s n = .ok (piece, s') ∧ stream = piece ++ rest ∧ P n piece rest ∧ Holds s' rest)
    {s : σ} (h : Holds s stream) (ns : List ι) :
    ∃ pieces s' left, reads read s ns = .ok (pieces, s') ∧ Cut P ns pieces stream left ∧ Holds s' left := by
  induction ns generalizing s stream with
  | nil => exact ⟨[], s, stream, rfl, .nil stream, h⟩
  | cons n ns ih =>
    obtain ⟨piece, t, rest, hone, rfl, hpiece, ht⟩ := hread s stream n h
    obtain ⟨pieces, u, left, hmore, hcut, hu⟩ := ih ht
    exact ⟨piece :: pieces, u, left, by simp only [reads, hone, hmore], .cons hpiece hcut, hu⟩

/-! ### Every moment of a run -/

/-- No request fails, and `Q` holds of the pieces so far and the reader behind
them, before the first request and behind each. -/
def Throughout (Q : List (List β) → σ → Prop) (s : σ) (ns : List ι) : Prop :=
  ∀ done more, ns = done ++ more → ∃ pieces t, reads read s done = .ok (pieces, t) ∧ Q pieces t

variable {read} {Q : List (List β) → σ → Prop} {s : σ}

theorem throughout_nil : Throughout read Q s [] ↔ Q [] s := by
  constructor
  · intro h
    obtain ⟨pieces, t, hrun, hQ⟩ := h [] [] rfl
    cases hrun
    exact hQ
  · intro h done more hsplit
    obtain ⟨rfl, rfl⟩ := List.append_eq_nil_iff.mp hsplit.symm
    exact ⟨[], s, rfl, h⟩

theorem throughout_cons {n : ι} : Throughout read Q s (n :: ns) ↔
    Q [] s ∧ ∃ piece t, read s n = .ok (piece, t) ∧ Throughout read (fun pieces => Q (piece :: pieces)) t ns := by
  constructor
  · intro h
    have hstart : Q [] s := throughout_nil.mp fun done more hsplit => by
      obtain ⟨rfl, rfl⟩ := List.append_eq_nil_iff.mp hsplit.symm
      exact h [] (n :: ns) rfl
    refine ⟨hstart, ?_⟩
    cases hone : read s n with
    | error f =>
      obtain ⟨pieces, t, hrun, -⟩ := h [n] ns rfl
      simp only [reads, hone] at hrun
      cases hrun
    | ok p =>
      refine ⟨p.1, p.2, rfl, fun done more hsplit => ?_⟩
      obtain ⟨pieces, t, hrun, hQ⟩ := h (n :: done) more (by rw [hsplit]; rfl)
      simp only [reads, hone] at hrun
      cases hmore : reads read p.2 done with
      | error f =>
        rw [hmore] at hrun
        cases hrun
      | ok q =>
        rw [hmore] at hrun
        cases hrun
        exact ⟨q.1, q.2, rfl, hQ⟩
  · rintro ⟨hstart, piece, t, hone, hrest⟩ done more hsplit
    cases done with
    | nil => exact ⟨[], s, rfl, hstart⟩
    | cons m done =>
      obtain ⟨rfl, hmore⟩ := List.cons_eq_cons.mp hsplit
      obtain ⟨pieces, u, hrun, hQ⟩ := hrest done more hmore
      exact ⟨piece :: pieces, u, by simp only [reads, hone, hrun], hQ⟩

/-- If the requests that meet `C` keep the invariant and the other ones break
`Q` at once, `Q` holds throughout just the runs whose requests all meet `C`. The
condition is about a state `k` of its own, which the invariant ties to the run. -/
theorem throughout_iff {step : κ → ι → Option κ} {C : κ → ι → Prop} {I : κ → List (List β) → σ → Prop}
    (hQ : ∀ k before s, I k before s → Q before s)
    (hgood : ∀ k before s n, I k before s → C k n →
      ∃ piece t k', read s n = .ok (piece, t) ∧ step k n = some k' ∧ I k' (before ++ [piece]) t)
    (hbad : ∀ k before s n, I k before s → ¬C k n →
      ∀ piece t, read s n = .ok (piece, t) → ¬Q (before ++ [piece]) t)
    {k : κ} {before : List (List β)} (h : I k before s) (ns : List ι) :
    Throughout read (fun pieces => Q (before ++ pieces)) s ns ↔ StepRun.AllSteps step C k ns := by
  induction ns generalizing k before s with
  | nil =>
    rw [throughout_nil, List.append_nil]
    exact iff_of_true (hQ k before s h) trivial
  | cons n ns ih =>
    rw [throughout_cons, List.append_nil]
    have hshift : ∀ piece, (fun pieces => Q (before ++ piece :: pieces)) =
        fun pieces => Q (before ++ [piece] ++ pieces) := fun piece => by simp
    by_cases hC : C k n
    · obtain ⟨piece, t, k', hone, hstep, ht⟩ := hgood k before s n h hC
      constructor
      · rintro ⟨-, piece', t', hone', hrest⟩
        cases hone.symm.trans hone'
        refine ⟨hC, fun k'' hk => ?_⟩
        cases hstep.symm.trans hk
        rw [hshift] at hrest
        exact (ih ht).mp hrest
      · rintro ⟨-, hrest⟩
        refine ⟨hQ k before s h, piece, t, hone, ?_⟩
        rw [hshift]
        exact (ih ht).mpr (hrest k' hstep)
    · refine iff_of_false ?_ fun hall => hC hall.1
      rintro ⟨-, piece, t, hone, hrest⟩
      obtain ⟨pieces, u, hrun, hQt⟩ := hrest [] ns rfl
      cases hrun
      exact hbad k before s n h hC piece t hone hQt

end Reader
