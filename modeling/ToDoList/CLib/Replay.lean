import Mathlib.Data.List.Infix
import Mathlib.Data.List.TakeDrop

/-!
# Replaying a shared history

Operations of a history are applied in order. A replica that has received the
first `n` of them is in step when its state, followed by the operations it has
still to apply, gives what the first `n` operations give from the start. It
stays in step when it applies its next operation, and a snapshot of the first
`c` operations puts it in step when exactly the operations from `c` to `n` are
still to come.
-/

namespace Replay

variable {σ ρ : Type*} (apply : σ → ρ → σ)

def exec (x : σ) (ops : List ρ) : σ := ops.foldl apply x

structure InStep (init : σ) (hist : List ρ) (n : ℕ) (x : σ) (pend : List ρ) : Prop where
  suffix : pend <:+ hist.take n
  state : exec apply x pend = exec apply init (hist.take n)

variable {apply} {init x : σ} {hist pend : List ρ} {r : ρ} {n c : ℕ}

theorem take_snoc_of_getElem? (h : hist[n]? = some r) : hist.take (n + 1) = hist.take n ++ [r] := by
  obtain ⟨hlt, hr⟩ := List.getElem?_eq_some_iff.mp h
  rw [List.take_succ_eq_append_getElem hlt, hr]

theorem suffix_snoc {pre : List ρ} (h : pend <:+ pre) (r : ρ) : pend ++ [r] <:+ pre ++ [r] := by
  obtain ⟨front, rfl⟩ := h
  exact ⟨front, by rw [List.append_assoc]⟩

theorem prefix_snoc {pre : List ρ} (h : pre <+: hist) (hr : hist[pre.length]? = some r) :
    pre ++ [r] <+: hist := by
  obtain ⟨rest, rfl⟩ := h
  rw [List.getElem?_append_right le_rfl, Nat.sub_self, ← List.head?_eq_getElem?] at hr
  obtain ⟨tail, rfl⟩ := List.head?_eq_some_iff.mp hr
  exact ⟨tail, by simp⟩

theorem InStep.receive (h : InStep apply init hist n x pend) (hr : hist[n]? = some r) :
    InStep apply init hist (n + 1) x (pend ++ [r]) where
  suffix := by
    rw [take_snoc_of_getElem? hr]
    exact suffix_snoc h.suffix r
  state := by
    have hs := h.state
    unfold exec at hs ⊢
    rw [take_snoc_of_getElem? hr, List.foldl_append, List.foldl_append, hs]

theorem InStep.apply_next (h : InStep apply init hist n x (r :: pend)) :
    InStep apply init hist n (apply x r) pend where
  suffix := (List.suffix_cons r pend).trans h.suffix
  state := h.state

/-- A snapshot of the first `c` operations, with the rest still to come. -/
theorem InStep.snapshot (hsuf : pend <:+ hist.take n) (hn : n ≤ hist.length)
    (hc : c + pend.length = n) : InStep apply init hist n (exec apply init (hist.take c)) pend where
  suffix := hsuf
  state := by
    obtain ⟨front, hfront⟩ := hsuf
    have hlen : front.length = c := by
      have hl := congrArg List.length hfront
      rw [List.length_append, List.length_take, min_eq_left hn] at hl
      omega
    have htake : hist.take c = front := by
      have hle : c ≤ n := by omega
      have hcut : (hist.take n).take c = front := by rw [← hfront, ← hlen, List.take_left]
      rw [← hcut, List.take_take, min_eq_left hle]
    unfold exec
    rw [htake, ← List.foldl_append, hfront]

theorem InStep.done (h : InStep apply init hist n x []) : x = exec apply init (hist.take n) := h.state

theorem InStep.issue (h : InStep apply init hist n x pend) (hn : n ≤ hist.length) (r : ρ) :
    InStep apply init (hist ++ [r]) n x pend where
  suffix := by
    rw [List.take_append_of_le_length hn]
    exact h.suffix
  state := by
    rw [List.take_append_of_le_length hn]
    exact h.state

end Replay
