import Mathlib.Data.List.OfFn
import Mathlib.Data.List.Perm.Basic
import Mathlib.Data.Fintype.Perm
import Mathlib.Data.List.FinRange
import Mathlib.Logic.Function.Basic
import Mathlib.Tactic

/-!
# Machines that act on one cell at a time

A state is a family of cells and every operation reads and writes the cell its
key names. Then the final content of a cell, and what the operations on it
returned, depend on the operations on that cell alone, in their order.
-/

namespace KeyedMachine

variable {κ ω α ρ : Type*} [DecidableEq κ]

/-- Operations with the cell they use, their effect on it and their result. -/
structure Machine (κ ω α ρ : Type*) where
  key : ω → κ
  act : ω → α → α × ρ

variable (M : Machine κ ω α ρ)

def step (s : κ → α) (o : ω) : κ → α := Function.update s (M.key o) (M.act o (s (M.key o))).1

def run (s : κ → α) (os : List ω) : κ → α := os.foldl (step M) s

def log : (κ → α) → List ω → List (ω × ρ)
  | _, [] => []
  | s, o :: os => (o, (M.act o (s (M.key o))).2) :: log (step M s o) os

def onKey (k : κ) (os : List ω) : List ω := os.filter fun o => M.key o = k

def cellRun (a : α) (os : List ω) : α := os.foldl (fun a o => (M.act o a).1) a

def cellLog : α → List ω → List (ω × ρ)
  | _, [] => []
  | a, o :: os => (o, (M.act o a).2) :: cellLog (M.act o a).1 os

theorem step_same (s : κ → α) (o : ω) : step M s o (M.key o) = (M.act o (s (M.key o))).1 := by
  simp [step]

theorem step_other (s : κ → α) (o : ω) (k : κ) (h : M.key o ≠ k) : step M s o k = s k := by
  simp [step, Function.update_of_ne (Ne.symm h)]

/-- Operations commute when they use different cells, and on one cell when
their effects on it do. -/
theorem step_comm (o p : ω)
    (h : M.key o = M.key p → ∀ a, (M.act p (M.act o a).1).1 = (M.act o (M.act p a).1).1)
    (s : κ → α) : step M (step M s o) p = step M (step M s p) o := by
  by_cases hk : M.key o = M.key p
  · unfold step
    rw [hk, Function.update_self, Function.update_self, Function.update_idem, Function.update_idem,
      h hk]
  · have hp : step M s o (M.key p) = s (M.key p) := step_other M s o _ hk
    have ho : step M s p (M.key o) = s (M.key o) := step_other M s p _ (Ne.symm hk)
    show Function.update (step M s o) (M.key p) (M.act p (step M s o (M.key p))).1 =
      Function.update (step M s p) (M.key o) (M.act o (step M s p (M.key o))).1
    rw [hp, ho]
    exact Function.update_comm hk ..

theorem run_apply (s : κ → α) (os : List ω) (k : κ) :
    run M s os k = cellRun M (s k) (onKey M k os) := by
  induction os generalizing s with
  | nil => rfl
  | cons o os ih =>
    have hrun : run M s (o :: os) = run M (step M s o) os := rfl
    rw [hrun, ih]
    by_cases hk : M.key o = k
    · subst hk
      simp [onKey, cellRun, step_same]
    · simp [onKey, hk, step_other M s o k hk]

theorem log_onKey (s : κ → α) (os : List ω) (k : κ) :
    (log M s os).filter (fun r => M.key r.1 = k) = cellLog M (s k) (onKey M k os) := by
  induction os generalizing s with
  | nil => rfl
  | cons o os ih =>
    by_cases hk : M.key o = k
    · subst hk
      simp [log, onKey, cellLog, ← step_same M s o, ih]
    · have hs := ih (step M s o)
      rw [step_other M s o k hk] at hs
      simp [log, onKey, hk, hs]

variable {M}

theorem run_congr {os os' : List ω} (h : ∀ k, onKey M k os = onKey M k os') (s : κ → α) :
    run M s os = run M s os' := by
  funext k
  rw [run_apply, run_apply, h]

theorem log_onKey_congr {os os' : List ω} (h : ∀ k, onKey M k os = onKey M k os') (s : κ → α)
    (k : κ) : (log M s os).filter (fun r => M.key r.1 = k) =
      (log M s os').filter (fun r => M.key r.1 = k) := by
  rw [log_onKey, log_onKey, h]

theorem mem_log_congr {os os' : List ω} (h : ∀ k, onKey M k os = onKey M k os') (s : κ → α)
    (r : ω × ρ) : r ∈ log M s os ↔ r ∈ log M s os' := by
  have hk := log_onKey_congr h s (M.key r.1)
  have hl : ∀ os'' : List ω,
      r ∈ log M s os'' ↔ r ∈ (log M s os'').filter (fun q => M.key q.1 = M.key r.1) := by
    intro os''
    simp [List.mem_filter]
  rw [hl os, hl os', hk]

/-- The machine on operations that carry a tag. -/
def tag (ι : Type*) (M : Machine κ ω α ρ) : Machine κ (ι × ω) α ρ where
  key p := M.key p.2
  act p := M.act p.2

theorem run_tag {ι : Type*} (s : κ → α) (os : List (ι × ω)) :
    run (tag ι M) s os = run M s (os.map Prod.snd) := by
  induction os generalizing s with
  | nil => rfl
  | cons o os ih => exact ih (step M s o.2)

/-- A reordering of numbered operations that keeps the order on every cell
leaves the operations on each cell as they are. -/
theorem onKey_reorder {n : ℕ} (M : Machine κ ω α ρ) (f : Fin n → ω) (σ : Equiv.Perm (Fin n))
    (hσ : ∀ i j, i < j → M.key (f (σ i)) = M.key (f (σ j)) → σ i < σ j) (k : κ) :
    onKey (tag (Fin n) M) k (List.ofFn fun i => (σ i, f (σ i))) =
      onKey (tag (Fin n) M) k (List.ofFn fun i => (i, f i)) := by
  have hperm : (List.ofFn fun i => (σ i, f (σ i))).Perm (List.ofFn fun i => (i, f i)) :=
    Equiv.Perm.ofFn_comp_perm σ fun i => (i, f i)
  have hl : (onKey (tag (Fin n) M) k (List.ofFn fun i => (σ i, f (σ i)))).Pairwise
      fun a b => a.1 < b.1 := by
    have hall : (List.ofFn fun i => (σ i, f (σ i))).Pairwise
        fun a b => M.key a.2 = M.key b.2 → a.1 < b.1 :=
      List.pairwise_ofFn.mpr fun i j hij => hσ i j hij
    refine (hall.filter _).imp_of_mem fun {a b} ha hb hab => hab ?_
    have hka : M.key a.2 = k := of_decide_eq_true (List.mem_filter.mp ha).2
    have hkb : M.key b.2 = k := of_decide_eq_true (List.mem_filter.mp hb).2
    rw [hka, hkb]
  have hr : (onKey (tag (Fin n) M) k (List.ofFn fun i => (i, f i))).Pairwise
      fun a b => a.1 < b.1 := by
    have hall : (List.ofFn fun i => (i, f i)).Pairwise fun a b => a.1 < b.1 :=
      List.pairwise_ofFn.mpr fun i j hij => hij
    exact hall.filter _
  exact (hperm.filter _).eq_of_pairwise
    (fun a b _ _ hab hba => absurd hab (lt_asymm hba)) hl hr

end KeyedMachine

/-! ### Orders that differ by commuting steps -/

namespace CommutingOrder

variable {κ σ ω : Type*} [DecidableEq κ] (act : σ → ω → σ)

theorem perm_of_filter_eq (f : ω → κ) {l l' : List ω}
    (h : ∀ k, l.filter (fun o => f o = k) = l'.filter (fun o => f o = k)) : l.Perm l' := by
  classical
  rw [List.perm_iff_count]
  intro a
  have hc : ∀ m : List ω, m.count a = (m.filter fun o => f o = f a).count a := by
    intro m
    rw [List.count_filter (by simp)]
  rw [hc l, hc l', h]

theorem foldl_move_front (o : ω) (pre : List ω) (s : σ)
    (h : ∀ p ∈ pre, ∀ t, act (act t p) o = act (act t o) p) :
    act (pre.foldl act s) o = pre.foldl act (act s o) := by
  induction pre generalizing s with
  | nil => rfl
  | cons p pre ih =>
    have hp := h p (List.mem_cons_self ..) s
    have htail : ∀ q ∈ pre, ∀ t, act (act t q) o = act (act t o) q :=
      fun q hq => h q (List.mem_cons_of_mem _ hq)
    rw [List.foldl_cons, List.foldl_cons, ih (act s p) htail, hp]

theorem split_at_first (f : ω → κ) (o : ω) {l rest : List ω}
    (h : l.filter (fun p => f p = f o) = o :: rest) :
    ∃ pre post, l = pre ++ o :: post ∧ (∀ p ∈ pre, f p ≠ f o) ∧
      post.filter (fun p => f p = f o) = rest := by
  obtain ⟨pre, post, hl, hpre, -, hpost⟩ := List.filter_eq_cons_iff.mp h
  exact ⟨pre, post, hl, fun p hp => by simpa using hpre p hp, hpost⟩

/-- Two orders of the same steps that keep the order within each class lead to
the same state, when steps of different classes commute. -/
theorem foldl_eq_of_commuting (f : ω → κ) {l l' : List ω}
    (h : ∀ k, l.filter (fun o => f o = k) = l'.filter (fun o => f o = k))
    (hcomm : ∀ o ∈ l, ∀ p ∈ l, f o ≠ f p → ∀ s, act (act s o) p = act (act s p) o) (s : σ) :
    l.foldl act s = l'.foldl act s := by
  induction l generalizing l' s with
  | nil =>
    have hnil : l' = [] := List.Perm.eq_nil (perm_of_filter_eq f h).symm
    rw [hnil]
  | cons o os ih =>
    have hfirst : l'.filter (fun p => f p = f o) = o :: os.filter (fun p => f p = f o) := by
      rw [← h (f o)]
      simp
    obtain ⟨pre, post, rfl, hpre, hpost⟩ := split_at_first f o hfirst
    have hmem : ∀ p ∈ pre, p ∈ o :: os := fun p hp =>
      (perm_of_filter_eq f h).mem_iff.mpr (List.mem_append_left _ hp)
    have hfront : ∀ p ∈ pre, ∀ t, act (act t p) o = act (act t o) p := fun p hp =>
      hcomm p (hmem p hp) o (List.mem_cons_self ..) (hpre p hp)
    have hrest : ∀ k, os.filter (fun p => f p = k) = (pre ++ post).filter (fun p => f p = k) := by
      intro k
      have hk := h k
      simp only [List.filter_append, List.filter_cons] at hk ⊢
      by_cases ho : f o = k
      · subst ho
        have hno : pre.filter (fun p => f p = f o) = [] := by
          rw [List.filter_eq_nil_iff]
          intro p hp
          simpa using hpre p hp
        simpa [hno] using hk
      · simpa [ho] using hk
    have htail := ih hrest (fun p hp q hq => hcomm p (List.mem_cons_of_mem _ hp) q
      (List.mem_cons_of_mem _ hq)) (act s o)
    rw [List.foldl_cons, htail, List.foldl_append, List.foldl_append, List.foldl_cons,
      foldl_move_front act o pre s hfront]

end CommutingOrder
