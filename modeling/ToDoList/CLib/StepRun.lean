import Mathlib.Data.Nat.Notation
import Mathlib.Data.Option.Basic

/-!
# Runs of a partial step function

`step s e = none` means that the event `e` cannot happen in `s`. A run folds a
list of events; `AllSteps C` says that `C` holds of every state-event pair the
run passes. Invariants are proved once per step and carried along whole runs.
-/

namespace StepRun

variable {σ ε : Type*} (step : σ → ε → Option σ)

def run : σ → List ε → Option σ
  | s, [] => some s
  | s, e :: es => (step s e).bind fun t => run t es

/-- `C` holds of every step the run takes. -/
def AllSteps (C : σ → ε → Prop) : σ → List ε → Prop
  | _, [] => True
  | s, e :: es => C s e ∧ ∀ t, step s e = some t → AllSteps C t es

instance decidableAllSteps (C : σ → ε → Prop) [∀ s e, Decidable (C s e)] :
    ∀ s es, Decidable (AllSteps step C s es)
  | _, [] => isTrue trivial
  | s, e :: es =>
    match h : step s e with
    | none => decidable_of_iff (C s e) ⟨fun hC => ⟨hC, fun t ht => by simp [h] at ht⟩, And.left⟩
    | some u =>
      haveI := decidableAllSteps C u es
      decidable_of_iff (C s e ∧ AllSteps step C u es) (by simp [AllSteps, h])

variable {step}

theorem run_cons_eq_some {s u : σ} {e : ε} {es : List ε} :
    run step s (e :: es) = some u ↔ ∃ t, step s e = some t ∧ run step t es = some u := by
  simp only [run, Option.bind_eq_some_iff]

theorem run_append_eq_some {s t u : σ} {es es' : List ε} (h : run step s es = some t)
    (h' : run step t es' = some u) : run step s (es ++ es') = some u := by
  induction es generalizing s with
  | nil =>
    cases h
    exact h'
  | cons e es ih =>
    obtain ⟨v, hv, hr⟩ := run_cons_eq_some.mp h
    exact run_cons_eq_some.mpr ⟨v, hv, ih hr⟩

theorem run_take {s u : σ} {es : List ε} (h : run step s es = some u) (n : ℕ) :
    ∃ t, run step s (es.take n) = some t := by
  induction es generalizing s n with
  | nil => exact ⟨s, by rw [List.take_nil]; rfl⟩
  | cons e es ih =>
    cases n with
    | zero => exact ⟨s, rfl⟩
    | succ n =>
      obtain ⟨v, hv, hr⟩ := run_cons_eq_some.mp h
      obtain ⟨t, ht⟩ := ih hr n
      exact ⟨t, run_cons_eq_some.mpr ⟨v, hv, ht⟩⟩

theorem run_snoc_eq_some {s u : σ} {es : List ε} {e : ε} :
    run step s (es ++ [e]) = some u ↔ ∃ t, run step s es = some t ∧ step t e = some u := by
  induction es generalizing s with
  | nil => simp [run]
  | cons d es ih =>
    rw [List.cons_append, run_cons_eq_some]
    constructor
    · rintro ⟨v, hv, hr⟩
      obtain ⟨t, ht, hu⟩ := ih.mp hr
      exact ⟨t, run_cons_eq_some.mpr ⟨v, hv, ht⟩, hu⟩
    · rintro ⟨t, ht, hu⟩
      obtain ⟨v, hv, hr⟩ := run_cons_eq_some.mp ht
      exact ⟨v, hv, ih.mpr ⟨t, hr, hu⟩⟩

/-- Some run leads from `s` to `t`. -/
def Reach (step : σ → ε → Option σ) (s t : σ) : Prop := ∃ es, run step s es = some t

theorem Reach.refl (s : σ) : Reach step s s := ⟨[], rfl⟩

theorem Reach.head {s t u : σ} {e : ε} (h : step s e = some t) (h' : Reach step t u) :
    Reach step s u := by
  obtain ⟨es, hes⟩ := h'
  exact ⟨e :: es, run_cons_eq_some.mpr ⟨t, h, hes⟩⟩

theorem Reach.trans {s t u : σ} (h : Reach step s t) (h' : Reach step t u) : Reach step s u := by
  obtain ⟨es, hes⟩ := h
  obtain ⟨es', hes'⟩ := h'
  exact ⟨es ++ es', run_append_eq_some hes hes'⟩

/-- A property kept by every step that meets `C` holds at the end of a run
whose steps all meet `C`. -/
theorem run_invariant {C : σ → ε → Prop} {I : σ → Prop}
    (hstep : ∀ s e t, I s → C s e → step s e = some t → I t)
    {s u : σ} {es : List ε} (hI : I s) (hC : AllSteps step C s es)
    (hrun : run step s es = some u) : I u := by
  induction es generalizing s with
  | nil =>
    cases hrun
    exact hI
  | cons e es ih =>
    obtain ⟨t, ht, hr⟩ := run_cons_eq_some.mp hrun
    exact ih (hstep s e t hI hC.1 ht) (hC.2 t ht) hr

/-- An invariant of the steps that meet `C` gives its consequences at every
step of such a run. -/
theorem allSteps_of_invariant {C P : σ → ε → Prop} {I : σ → Prop}
    (hstep : ∀ s e t, I s → C s e → step s e = some t → I t)
    (hP : ∀ s e, I s → C s e → P s e)
    {s : σ} {es : List ε} (hI : I s) (hC : AllSteps step C s es) : AllSteps step P s es := by
  induction es generalizing s with
  | nil => trivial
  | cons e es ih =>
    exact ⟨hP s e hI hC.1, fun t ht => ih (hstep s e t hI hC.1 ht) (hC.2 t ht)⟩

theorem allSteps_of_forall {C : σ → ε → Prop} (h : ∀ s e, C s e) (s : σ) (es : List ε) :
    AllSteps step C s es := by
  induction es generalizing s with
  | nil => trivial
  | cons e es ih => exact ⟨h s e, fun t _ => ih t⟩

theorem allSteps_and {C D : σ → ε → Prop} {s : σ} {es : List ε} (hC : AllSteps step C s es)
    (hD : AllSteps step D s es) : AllSteps step (fun s e => C s e ∧ D s e) s es := by
  induction es generalizing s with
  | nil => trivial
  | cons e es ih => exact ⟨⟨hC.1, hD.1⟩, fun t ht => ih (hC.2 t ht) (hD.2 t ht)⟩

theorem allSteps_of_append {C : σ → ε → Prop} {s : σ} {es es' : List ε}
    (h : AllSteps step C s (es ++ es')) : AllSteps step C s es := by
  induction es generalizing s with
  | nil => trivial
  | cons e es ih => exact ⟨h.1, fun t ht => ih (h.2 t ht)⟩

theorem allSteps_snoc {C : σ → ε → Prop} {s : σ} {es : List ε} {e : ε}
    (h : AllSteps step C s (es ++ [e])) :
    AllSteps step C s es ∧ ∀ t, run step s es = some t → C t e := by
  refine ⟨allSteps_of_append h, ?_⟩
  induction es generalizing s with
  | nil =>
    intro t ht
    cases ht
    exact h.1
  | cons d es ih =>
    intro t ht
    obtain ⟨v, hv, hr⟩ := run_cons_eq_some.mp ht
    exact ih (h.2 v hv) t hr

/-! ### Every state of a run -/

/-- `P` holds of every state the run passes, the first and the last included. -/
def Always (step : σ → ε → Option σ) (P : σ → Prop) (s : σ) (es : List ε) : Prop :=
  ∀ k t, run step s (es.take k) = some t → P t

theorem always_nil {P : σ → Prop} {s : σ} : Always step P s [] ↔ P s := by
  constructor
  · intro h
    exact h 0 s rfl
  · intro h k t ht
    rw [List.take_nil] at ht
    cases ht
    exact h

theorem always_cons {P : σ → Prop} {s : σ} {e : ε} {es : List ε} :
    Always step P s (e :: es) ↔ P s ∧ ∀ t, step s e = some t → Always step P t es := by
  constructor
  · intro h
    refine ⟨h 0 s rfl, fun t ht k u hu => h (k + 1) u ?_⟩
    rw [List.take_succ_cons]
    exact run_cons_eq_some.mpr ⟨t, ht, hu⟩
  · rintro ⟨hs, hrest⟩ k u hu
    cases k with
    | zero =>
      cases hu
      exact hs
    | succ k =>
      rw [List.take_succ_cons] at hu
      obtain ⟨t, ht, hr⟩ := run_cons_eq_some.mp hu
      exact hrest t ht k u hr

instance decidableAlways (P : σ → Prop) [DecidablePred P] :
    ∀ s es, Decidable (Always step P s es)
  | s, [] => decidable_of_iff (P s) always_nil.symm
  | s, e :: es =>
    match h : step s e with
    | none => decidable_of_iff (P s) (by simp [always_cons, h])
    | some u =>
      haveI := decidableAlways P u es
      decidable_of_iff (P s ∧ Always step P u es) (by simp [always_cons, h])

/-- If a step keeps `P` exactly when it meets `C`, then `P` holds all along the
runs whose steps meet `C`, and along no other. -/
theorem always_iff_allSteps {C : σ → ε → Prop} {I P : σ → Prop}
    (hI : ∀ s e t, I s → step s e = some t → I t)
    (hstep : ∀ s e t, I s → P s → step s e = some t → (P t ↔ C s e))
    (hnone : ∀ s e, I s → P s → step s e = none → C s e)
    {s : σ} {es : List ε} (hs : I s) (hP : P s) : Always step P s es ↔ AllSteps step C s es := by
  induction es generalizing s with
  | nil => exact ⟨fun _ => trivial, fun _ => always_nil.mpr hP⟩
  | cons e es ih =>
    rw [always_cons]
    cases ht : step s e with
    | none => simp [AllSteps, ht, hP, hnone s e hs hP ht]
    | some t =>
      have hiff := hstep s e t hs hP ht
      constructor
      · rintro ⟨-, hrest⟩
        have hPt : P t := hrest t rfl 0 t rfl
        refine ⟨hiff.mp hPt, fun u hu => ?_⟩
        cases ht.symm.trans hu
        exact (ih (hI s e t hs ht) hPt).mp (hrest t rfl)
      · rintro ⟨hC, hrest⟩
        refine ⟨hP, fun u hu => ?_⟩
        cases hu
        exact (ih (hI s e t hs ht) (hiff.mpr hC)).mpr (hrest t ht)

/-! ### Steps that may fail -/

theorem mem_toOption {φ α : Type*} {x : Except φ α} {a : α} : a ∈ x.toOption ↔ x = .ok a := by
  cases x with
  | error f => simp [Except.toOption]
  | ok b => simp [Except.toOption]

theorem toOption_map_eq_some {φ α β : Type*} {x : Except φ α} {f : α → β} {b : β}
    (h : x.toOption.map f = some b) : ∃ a, x = .ok a ∧ f a = b := by
  obtain ⟨a, ha, hf⟩ := Option.map_eq_some_iff.mp h
  exact ⟨a, mem_toOption.mp ha, hf⟩

/-! ### Two runs side by side -/

/-- Both results are the same failure, or both are there and related. -/
inductive Together {φ α β : Type*} (R : α → β → Prop) : Except φ α → Except φ β → Prop where
  | fault (f : φ) : Together R (.error f) (.error f)
  | ok {a : α} {b : β} (h : R a b) : Together R (.ok a) (.ok b)

theorem Together.cases {φ α β : Type*} {R : α → β → Prop} {x : Except φ α} {y : Except φ β}
    (h : Together R x y) :
    (∃ f, x = .error f ∧ y = .error f) ∨ ∃ a b, x = .ok a ∧ y = .ok b ∧ R a b := by
  cases h with
  | fault f => exact Or.inl ⟨f, rfl, rfl⟩
  | ok h => exact Or.inr ⟨_, _, rfl, rfl, h⟩

theorem rel_cases {α β : Type*} {R : α → β → Prop} {x : Option α} {y : Option β}
    (h : Option.Rel R x y) : (x = none ∧ y = none) ∨ ∃ a b, x = some a ∧ y = some b ∧ R a b := by
  cases h with
  | none => exact Or.inl ⟨rfl, rfl⟩
  | some h => exact Or.inr ⟨_, _, rfl, rfl, h⟩

theorem run_together {τ : Type*} {step : σ → ε → Option σ} {step' : τ → ε → Option τ}
    {R : σ → τ → Prop} {C : ε → Prop}
    (hstep : ∀ s t e, C e → R s t → Option.Rel R (step s e) (step' t e))
    {s : σ} {t : τ} {es : List ε} (hC : ∀ e ∈ es, C e) (h : R s t) :
    Option.Rel R (run step s es) (run step' t es) := by
  induction es generalizing s t with
  | nil => exact .some h
  | cons e es ih =>
    have hrest : ∀ d ∈ es, C d := fun d hd => hC d (List.mem_cons_of_mem _ hd)
    unfold run
    rcases rel_cases (hstep s t e (hC e (List.mem_cons_self ..)) h) with ⟨hs, ht⟩ | ⟨u, v, hs, ht, huv⟩
    · rw [hs, ht]
      exact .none
    · rw [hs, ht]
      exact ih hrest huv

/-- A relation between the states of two systems that every step keeps, for as
many steps as it is indexed: each run of one is matched by the run of the other
on the events it is mapped to. -/
theorem run_simulates {τ δ : Type*} {step : σ → ε → Option σ} {step' : τ → δ → Option τ} (f : ε → δ)
    {R : ℕ → σ → τ → Prop} {N : ℕ}
    (hstep : ∀ n s t e, n < N → R n s t → Option.Rel (R (n + 1)) (step s e) (step' t (f e)))
    {n : ℕ} {s : σ} {t : τ} {es : List ε} (hn : n + es.length ≤ N) (h : R n s t) :
    Option.Rel (R (n + es.length)) (run step s es) (run step' t (es.map f)) := by
  induction es generalizing n s t with
  | nil => exact .some h
  | cons e es ih =>
    rw [List.length_cons, Nat.add_comm es.length, ← Nat.add_assoc] at hn ⊢
    rw [List.map_cons]
    unfold run
    rcases rel_cases (hstep n s t e (by omega) h) with ⟨hs, ht⟩ | ⟨u, v, hs, ht, huv⟩
    · rw [hs, ht]
      exact .none
    · rw [hs, ht]
      exact ih hn huv

end StepRun
