import ToDoList.LogRuns
import Mathlib.Data.List.Cycle

/-!
# The linked log as a ring

`enqueue` sets all four links at the seam of a ring; `dequeue` sets the `prev`
of the new head and leaves the `next` of the tail with the node that it gives
out, which its caller frees.
-/

namespace ToDoList
open Fifo StepRun

variable {α : Type}

/-- The links of a ring: tail and head lead to one another, `next` and `prev`
are inverse, and no link of a node leaves the ring. -/
structure Ring (m : Memory α) (q : LogQueue) (nodes : List Addr) : Prop where
  tailNext : ∀ t, q.tail = some t → nextAt m t = some q.head
  headPrev : ∀ a, q.head = some a → prevAt m a = some q.tail
  inverse : ∀ a ∈ nodes, ∀ b ∈ nodes, nextAt m a = some (some b) ↔ prevAt m b = some (some a)
  nextIn : ∀ a ∈ nodes, ∃ b ∈ nodes, nextAt m a = some (some b)
  prevIn : ∀ a ∈ nodes, ∃ b ∈ nodes, prevAt m a = some (some b)

theorem getLast?_getElem {nodes : List Addr} {i : ℕ} (hi : i < nodes.length) (hlast : i + 1 = nodes.length) :
    nodes.getLast? = some nodes[i] := by
  rw [List.getLast?_eq_getElem?, ← hlast, Nat.add_sub_cancel]
  exact List.getElem?_eq_getElem hi

theorem head?_getElem {nodes : List Addr} (h : 0 < nodes.length) : nodes.head? = some nodes[0] := by
  rw [List.head?_eq_getElem?]
  exact List.getElem?_eq_getElem h

theorem Rep.nextAt_eq {m : Memory α} {q : LogQueue} {nodes : List Addr} (h : Rep m q nodes)
    (hseam : Seam m nodes) {a : Addr} (ha : a ∈ nodes) :
    nextAt m a = some (some (nodes.next a ha)) := by
  obtain ⟨i, hi, rfl⟩ := List.getElem_of_mem ha
  rw [List.next_getElem nodes h.nodup i hi]
  by_cases hlast : i + 1 = nodes.length
  · have hzero : (i + 1) % nodes.length = 0 := by rw [hlast, Nat.mod_self]
    have hpos : 0 < nodes.length := by omega
    simp only [hzero]
    rw [← head?_getElem hpos]
    exact hseam nodes[i] (getLast?_getElem hi hlast)
  · have hlt : i + 1 < nodes.length := by omega
    simp only [Nat.mod_eq_of_lt hlt]
    exact List.isChain_iff_getElem.mp h.next i hlt

theorem Rep.prevAt_eq {m : Memory α} {q : LogQueue} {nodes : List Addr} (h : Rep m q nodes)
    {a : Addr} (ha : a ∈ nodes) : prevAt m a = some (some (nodes.prev a ha)) := by
  obtain ⟨i, hi, rfl⟩ := List.getElem_of_mem ha
  rw [List.prev_getElem nodes h.nodup i hi]
  cases i with
  | zero =>
    have hlast : (0 + (nodes.length - 1)) % nodes.length = nodes.length - 1 := by
      rw [Nat.zero_add]
      exact Nat.mod_eq_of_lt (by omega)
    simp only [hlast]
    rw [← getLast?_getElem (i := nodes.length - 1) (by omega) (by omega)]
    exact h.headPrev nodes[0] (head?_getElem hi)
  | succ i =>
    have hprev : (i + 1 + (nodes.length - 1)) % nodes.length = i := by
      rw [show i + 1 + (nodes.length - 1) = i + nodes.length by omega, Nat.add_mod_right]
      exact Nat.mod_eq_of_lt (by omega)
    simp only [hprev]
    exact List.isChain_iff_getElem.mp h.prev i hi

/-- The `next` of the tail is the only link that can be wrong. -/
theorem Rep.ring_iff {m : Memory α} {q : LogQueue} {nodes : List Addr} (h : Rep m q nodes) :
    Ring m q nodes ↔ Seam m nodes := by
  constructor
  · intro hring t ht
    rw [← h.head]
    exact hring.tailNext t (h.tail.trans ht)
  · intro hseam
    refine ⟨?_, ?_, ?_, ?_, ?_⟩
    · intro t ht
      rw [h.tail] at ht
      rw [hseam t ht, h.head]
    · intro a ha
      rw [h.head] at ha
      rw [h.headPrev a ha, h.tail]
    · intro a ha b hb
      rw [h.nextAt_eq hseam ha, h.prevAt_eq hb]
      simp only [Option.some.injEq]
      constructor
      · rintro rfl
        exact List.prev_next nodes h.nodup a ha
      · rintro rfl
        exact List.next_prev nodes h.nodup b hb
    · intro a ha
      exact ⟨_, List.next_mem nodes a ha, h.nextAt_eq hseam ha⟩
    · intro a ha
      exact ⟨_, List.prev_mem nodes a ha, h.prevAt_eq ha⟩

def AllRings (s : LogState α) : Prop := ∀ t, Ring s.mem (s.log.queue t) (s.queues t)

/-- The call is no `dequeue` on a queue of two or more nodes. -/
def Shallow (s : LogState α) (e : LogCall α) : Prop :=
  CanCall s e → ¬(e.op = .pop ∧ 2 ≤ (s.queues e.mType).length)

theorem LogInv.rings_iff {limit : LogMsgType → ℕ} {s : LogState α} (h : LogInv limit s) :
    AllRings s ↔ ∀ t, Seam s.mem (s.queues t) :=
  forall_congr' fun t => (h.rep t).ring_iff

/-- In every state of a run the log is made of rings if and only if no dequeue
of the run leaves a node behind. -/
theorem rings_iff_shallow (nrlLimit ctrlLimit : ℕ) (mem : Memory α) (es : List (LogCall α)) :
    Always (logNext (limitOf nrlLimit ctrlLimit)) AllRings (logStart nrlLimit ctrlLimit mem) es ↔
      AllSteps (logNext (limitOf nrlLimit ctrlLimit)) Shallow (logStart nrlLimit ctrlLimit mem) es := by
  have hstart := logInv_start nrlLimit ctrlLimit mem
  refine always_iff_allSteps (I := LogInv (limitOf nrlLimit ctrlLimit)) ?_ ?_ ?_ hstart ?_
  · intro s e u hs hnext
    exact logNext_inv hs hnext
  · intro s e u hs hrings hnext
    have hinv := logNext_inv hs hnext
    unfold logNext at hnext
    split at hnext
    · rename_i he
      obtain ⟨reply, log, mem, hcall, -, -, hseam⟩ := call_step hs he
      rw [hcall] at hnext
      cases hnext
      rw [hinv.rings_iff, hseam (hs.rings_iff.mp hrings)]
      exact (imp_iff_right he).symm
    · cases hnext
  · intro s e hs _ hnone he
    obtain ⟨reply, log, mem, hcall, -⟩ := call_step hs he
    rw [logNext, if_pos he, hcall] at hnone
    cases hnone
  · rw [hstart.rings_iff]
    intro t a ha
    simp [logStart] at ha

/-- Two nodes go in and the first comes out: the second still leads to it. -/
def threeCalls : List (LogCall Unit) :=
  let world : Addr → Option (LogNode Unit) := fun _ => some ⟨(), none, none⟩
  [⟨world, .normal, .push 1⟩, ⟨world, .normal, .push 2⟩, ⟨fun _ => none, .normal, .pop⟩]

theorem tail_left_dangling :
    ¬Always (logNext (limitOf 50 50)) AllRings (logStart 50 50 ⟨fun _ => none, []⟩) threeCalls := by
  intro h
  have hend : (run (logNext (limitOf 50 50)) (logStart 50 50 ⟨fun _ => none, []⟩)
      (threeCalls.take 3)).any (fun u => u.log.nrl.head = some 2 ∧ u.log.nrl.tail = some 2 ∧
        nextAt u.mem 2 = some (some 1)) = true := by
    decide +kernel
  obtain ⟨u, hrun, hu⟩ := (Option.any_eq_true _ _).mp hend
  obtain ⟨hhead, htail, hnext⟩ := of_decide_eq_true hu
  have hring := (h 3 u hrun .normal).tailNext 2 htail
  rw [hnext, show (u.log.queue .normal).head = some 2 from hhead] at hring
  cases hring

end ToDoList
