import ToDoList.CLib.Replay

/-!
# Copies of a replayed state

A copy has received the first `got` operations of a history, has some of them
still to apply, and knows of its state that it is that of the first `done`
operations, or knows nothing. It goes on knowing when it applies its next
operation in turn or takes over a state of which the number is known, and
forgets it when it applies an operation out of turn.
-/

namespace Replay

structure Copy (σ ρ : Type*) where
  state : σ
  pend : List ρ
  got : ℕ
  done : Option ℕ

variable {σ ρ : Type*} (apply : σ → ρ → σ)

namespace Copy

/-- Nothing is missing between the state and the operations still to apply. -/
def InTurn (c : Copy σ ρ) : Prop := c.done.map (· + c.pend.length) = some c.got

instance decidableInTurn (c : Copy σ ρ) : Decidable c.InTurn :=
  inferInstanceAs (Decidable (c.done.map (· + c.pend.length) = some c.got))

/-- What is known of the state behind the next operation. -/
def doneNext (c : Copy σ ρ) : Option ℕ := if c.InTurn then c.done.map (· + 1) else none

def receive (c : Copy σ ρ) (r : ρ) : Copy σ ρ := { c with pend := c.pend ++ [r], got := c.got + 1 }

def applyNext (c : Copy σ ρ) : Copy σ ρ :=
  match c.pend with
  | [] => c
  | r :: rest => { c with state := apply c.state r, pend := rest, done := c.doneNext }

def install (c : Copy σ ρ) (x : σ) (done : Option ℕ) : Copy σ ρ := { c with state := x, done := done }

def drop (c : Copy σ ρ) : Copy σ ρ := { c with pend := [] }

/-- What is known is true, and what is to be applied are the newest received. -/
structure Sound (init : σ) (hist : List ρ) (c : Copy σ ρ) : Prop where
  got_le : c.got ≤ hist.length
  pend : c.pend <:+ hist.take c.got
  done : ∀ k ∈ c.done, k ≤ hist.length ∧ c.state = exec apply init (hist.take k)

variable {apply} {init x : σ} {hist : List ρ} {c : Copy σ ρ} {r : ρ} {k : ℕ}

theorem inTurn_iff : c.InTurn ↔ ∃ k, c.done = some k ∧ k + c.pend.length = c.got := by
  unfold InTurn
  simp only [Option.map_eq_some_iff]

theorem Sound.issue (h : c.Sound apply init hist) (r : ρ) : c.Sound apply init (hist ++ [r]) := by
  have hlen : (hist ++ [r]).length = hist.length + 1 := by simp
  refine ⟨?_, ?_, ?_⟩
  · have hle := h.got_le
    omega
  · rw [List.take_append_of_le_length h.got_le]
    exact h.pend
  · intro k hk
    obtain ⟨hle, hstate⟩ := h.done k hk
    refine ⟨by omega, ?_⟩
    rw [List.take_append_of_le_length hle]
    exact hstate

theorem Sound.receive (h : c.Sound apply init hist) (hr : hist[c.got]? = some r) :
    (c.receive r).Sound apply init hist := by
  refine ⟨(List.getElem?_eq_some_iff.mp hr).1, ?_, h.done⟩
  show c.pend ++ [r] <:+ hist.take (c.got + 1)
  rw [take_snoc_of_getElem? hr]
  exact suffix_snoc h.pend r

/-- The operation a copy in turn applies next is the one its state is without. -/
theorem Sound.next (h : c.Sound apply init hist) (hturn : k + c.pend.length = c.got) {rest : List ρ}
    (hpend : c.pend = r :: rest) : hist[k]? = some r := by
  obtain ⟨front, hfront⟩ := h.pend
  have hlen := congrArg List.length hfront
  have hle := h.got_le
  rw [hpend] at hfront hlen hturn
  rw [List.length_append, List.length_take, List.length_cons] at hlen
  rw [List.length_cons] at hturn
  have hk : front.length = k := by omega
  have hget : (hist.take c.got)[k]? = some r := by
    rw [← hfront, ← hk, List.getElem?_append_right le_rfl, Nat.sub_self]
    rfl
  rwa [List.getElem?_take_of_lt (by omega)] at hget

theorem Sound.applyNext (h : c.Sound apply init hist) : (c.applyNext apply).Sound apply init hist := by
  unfold Copy.applyNext
  cases hpend : c.pend with
  | nil => exact h
  | cons r rest =>
    refine ⟨h.got_le, ?_, ?_⟩
    · have hsuffix := h.pend
      rw [hpend] at hsuffix
      exact (List.suffix_cons r rest).trans hsuffix
    · intro j hj
      simp only [doneNext] at hj
      split at hj
      · rename_i hturn
        obtain ⟨k, hk, hlen⟩ := inTurn_iff.mp hturn
        obtain ⟨hle, hstate⟩ := h.done k hk
        have hnext := h.next hlen hpend
        rw [hk] at hj
        cases hj
        refine ⟨(List.getElem?_eq_some_iff.mp hnext).1, ?_⟩
        rw [take_snoc_of_getElem? hnext, hstate]
        unfold exec
        rw [List.foldl_append]
        rfl
      · cases hj

theorem Sound.install (h : c.Sound apply init hist) {done : Option ℕ}
    (hx : ∀ k ∈ done, k ≤ hist.length ∧ x = exec apply init (hist.take k)) :
    (c.install x done).Sound apply init hist :=
  ⟨h.got_le, h.pend, hx⟩

theorem Sound.drop (h : c.Sound apply init hist) : c.drop.Sound apply init hist :=
  ⟨h.got_le, List.nil_suffix, h.done⟩

theorem sound_start {got : ℕ} (h : got ≤ hist.length) :
    (⟨init, [], got, some 0⟩ : Copy σ ρ).Sound apply init hist := by
  refine ⟨h, List.nil_suffix, ?_⟩
  intro k hk
  cases hk
  exact ⟨Nat.zero_le _, rfl⟩

/-! ### Staying in turn -/

theorem InTurn.receive (h : c.InTurn) (r : ρ) : (c.receive r).InTurn := by
  obtain ⟨k, hk, hlen⟩ := inTurn_iff.mp h
  refine inTurn_iff.mpr ⟨k, hk, ?_⟩
  simp only [Copy.receive, List.length_append, List.length_singleton]
  omega

theorem InTurn.applyNext (h : c.InTurn) : (c.applyNext apply).InTurn := by
  obtain ⟨k, hk, hlen⟩ := inTurn_iff.mp h
  unfold Copy.applyNext
  cases hpend : c.pend with
  | nil => exact h
  | cons r rest =>
    rw [hpend, List.length_cons] at hlen
    refine inTurn_iff.mpr ⟨k + 1, ?_, by dsimp only; omega⟩
    dsimp only
    rw [doneNext, if_pos h, hk]
    rfl

theorem InTurn.drop (h : c.InTurn) (hpend : c.pend = []) : c.drop.InTurn := by
  unfold InTurn at h ⊢
  rw [hpend] at h
  exact h

end Copy

end Replay
