import Mathlib.Data.Int.Notation
import Mathlib.Data.List.Count
import Mathlib.Data.List.Nodup
import Mathlib.Logic.Function.Basic

/-!
# Descriptors and the connections they denote

A descriptor is a number that denotes a connection from `accept` until
`close`; afterwards the number may be given to another connection. Code keeps
handles: a descriptor together with the connection it was accepted for. A
`Ledger` is the descriptor table with a count of the closes of every
connection. `serve` is the ownership rule: code that ends the handles it owns,
each with one close and writes before it only, never touches a descriptor of
another connection.
-/

namespace Descriptors

abbrev Handle := ℤ × ℕ

inductive Act where
  | write (h : Handle)
  | close (h : Handle)
deriving DecidableEq

structure Ledger where
  fds : ℤ → Option ℕ
  closes : ℕ → ℕ
  next : ℕ

def Ledger.empty : Ledger := ⟨fun _ => none, fun _ => 0, 0⟩

def Ledger.accept (L : Ledger) (fd : ℤ) : Ledger :=
  ⟨Function.update L.fds fd (some L.next), L.closes, L.next + 1⟩

/-- Closing a number closes the connection it denotes, whoever meant it. -/
def Ledger.act (L : Ledger) : Act → Ledger
  | .write _ => L
  | .close h =>
    match L.fds h.1 with
    | none => L
    | some c => ⟨Function.update L.fds h.1 none, Function.update L.closes c (L.closes c + 1), L.next⟩

def Ledger.acts (L : Ledger) (as : List Act) : Ledger := as.foldl Ledger.act L

/-- Every action finds its descriptor denoting its own connection. -/
def Owned : Ledger → List Act → Prop
  | _, [] => True
  | L, .write h :: as => L.fds h.1 = some h.2 ∧ Owned L as
  | L, .close h :: as => L.fds h.1 = some h.2 ∧ Owned (L.act (.close h)) as

instance decidableOwned : ∀ L as, Decidable (Owned L as)
  | _, [] => isTrue trivial
  | L, .write h :: as =>
    haveI := decidableOwned L as
    inferInstanceAs (Decidable (L.fds h.1 = some h.2 ∧ Owned L as))
  | L, .close h :: as =>
    haveI := decidableOwned (L.act (.close h)) as
    inferInstanceAs (Decidable (L.fds h.1 = some h.2 ∧ Owned (L.act (.close h)) as))

/-- The actions write to and then close the handles of a list, one after the other. -/
inductive Serves : List Handle → List Act → Prop where
  | nil : Serves [] []
  | write {h hs as} (rest : Serves (h :: hs) as) : Serves (h :: hs) (.write h :: as)
  | close {h hs as} (rest : Serves hs as) : Serves (h :: hs) (.close h :: as)

theorem Serves.append {hs hs' : List Handle} {as as' : List Act} (h : Serves hs as)
    (h' : Serves hs' as') : Serves (hs ++ hs') (as ++ as') := by
  induction h with
  | nil => exact h'
  | write _ ih => exact .write ih
  | close _ ih => exact .close ih

/-- `held` are the handles that are still owned by somebody. -/
structure Ledger.Holds (L : Ledger) (held : List Handle) : Prop where
  fds_nodup : (held.map Prod.fst).Nodup
  fds_iff : ∀ fd c, L.fds fd = some c ↔ (fd, c) ∈ held
  lt_next : ∀ h ∈ held, h.2 < L.next
  once : ∀ c < L.next, L.closes c + (held.map Prod.snd).count c = 1
  fresh : ∀ c, L.next ≤ c → L.closes c = 0

theorem Ledger.holds_empty : Ledger.empty.Holds [] where
  fds_nodup := List.nodup_nil
  fds_iff fd c := by simp [Ledger.empty]
  lt_next h hh := absurd hh List.not_mem_nil
  once c hc := absurd hc (Nat.not_lt_zero c)
  fresh c _ := rfl

theorem Ledger.Holds.perm {L : Ledger} {held held' : List Handle} (h : L.Holds held)
    (hp : held.Perm held') : L.Holds held' where
  fds_nodup := ((hp.map Prod.fst).nodup_iff).mp h.fds_nodup
  fds_iff fd c := (h.fds_iff fd c).trans hp.mem_iff
  lt_next p hp' := h.lt_next p (hp.mem_iff.mpr hp')
  once c hc := by
    rw [← (hp.map Prod.snd).count_eq]
    exact h.once c hc
  fresh := h.fresh

theorem Ledger.Holds.accept {L : Ledger} {held : List Handle} (h : L.Holds held) {fd : ℤ}
    (hfd : L.fds fd = none) : (L.accept fd).Holds ((fd, L.next) :: held) := by
  have hfree : ∀ c, (fd, c) ∉ held := by
    intro c hc
    rw [← h.fds_iff, hfd] at hc
    cases hc
  have hcount : (held.map Prod.snd).count L.next = 0 := by
    rw [List.count_eq_zero]
    intro hm
    obtain ⟨p, hp, hpn⟩ := List.mem_map.mp hm
    have hlt := h.lt_next p hp
    omega
  refine ⟨?_, ?_, ?_, ?_, fun c hc => h.fresh c (Nat.le_of_succ_le hc)⟩
  · rw [List.map_cons, List.nodup_cons]
    refine ⟨?_, h.fds_nodup⟩
    intro hm
    obtain ⟨⟨fd', c⟩, hp, rfl⟩ := List.mem_map.mp hm
    exact hfree c hp
  · intro fd' c
    by_cases hf : fd' = fd
    · subst hf
      simp only [Ledger.accept, Function.update_self, List.mem_cons, Prod.mk.injEq, true_and,
        hfree c, or_false, Option.some.injEq]
      exact eq_comm
    · simp [Ledger.accept, h.fds_iff, hf]
  · intro p hp
    rcases List.mem_cons.mp hp with rfl | hp
    · exact Nat.lt_succ_self _
    · exact Nat.lt_succ_of_lt (h.lt_next p hp)
  · intro c hc
    show L.closes c + (L.next :: held.map Prod.snd).count c = 1
    have hc' : c < L.next + 1 := hc
    by_cases he : c = L.next
    · subst he
      rw [List.count_cons_self, hcount, h.fresh _ (Nat.le_refl _)]
    · rw [List.count_cons_of_ne (Ne.symm he)]
      exact h.once c (by omega)

theorem Ledger.Holds.close {L : Ledger} {held : List Handle} {p : Handle}
    (h : L.Holds (p :: held)) : L.fds p.1 = some p.2 ∧ (L.act (.close p)).Holds held := by
  have hp : L.fds p.1 = some p.2 := (h.fds_iff p.1 p.2).mpr (List.mem_cons_self ..)
  refine ⟨hp, ?_⟩
  have hnd := h.fds_nodup
  rw [List.map_cons, List.nodup_cons] at hnd
  have hact : L.act (.close p) =
      ⟨Function.update L.fds p.1 none, Function.update L.closes p.2 (L.closes p.2 + 1), L.next⟩ := by
    simp only [Ledger.act, hp]
  rw [hact]
  refine ⟨hnd.2, ?_, ?_, ?_, ?_⟩
  · intro fd c
    by_cases hf : fd = p.1
    · subst hf
      simp only [Function.update_self, reduceCtorEq, false_iff]
      intro hm
      exact hnd.1 (List.mem_map.mpr ⟨_, hm, rfl⟩)
    · have hne : (fd, c) ≠ p := by
        rintro rfl
        exact hf rfl
      show Function.update L.fds p.1 none fd = some c ↔ (fd, c) ∈ held
      rw [Function.update_of_ne hf, h.fds_iff, List.mem_cons]
      simp [hne]
  · intro q hq
    exact h.lt_next q (List.mem_cons_of_mem _ hq)
  · intro c hc
    have hone := h.once c hc
    rw [List.map_cons] at hone
    by_cases he : c = p.2
    · subst he
      rw [List.count_cons_self] at hone
      show Function.update L.closes p.2 (L.closes p.2 + 1) p.2 + _ = 1
      rw [Function.update_self]
      omega
    · rw [List.count_cons_of_ne (Ne.symm he)] at hone
      show Function.update L.closes p.2 (L.closes p.2 + 1) c + _ = 1
      rw [Function.update_of_ne he]
      exact hone
  · intro c hc
    have hlt := h.lt_next p (List.mem_cons_self ..)
    have hne : c ≠ p.2 := by
      rintro rfl
      exact absurd hlt (Nat.not_lt.mpr hc)
    show Function.update L.closes p.2 (L.closes p.2 + 1) c = 0
    rw [Function.update_of_ne hne]
    exact h.fresh c hc

theorem Ledger.Holds.serve {hs : List Handle} {as : List Act} (hserve : Serves hs as) {L : Ledger}
    {rest : List Handle} (h : L.Holds (hs ++ rest)) : Owned L as ∧ (L.acts as).Holds rest := by
  induction hserve generalizing L with
  | nil => exact ⟨trivial, h⟩
  | @write p hs as _ ih =>
    obtain ⟨hown, hrest⟩ := ih h
    exact ⟨⟨(Ledger.Holds.close h).1, hown⟩, hrest⟩
  | @close p hs as _ ih =>
    obtain ⟨hp, hclosed⟩ := Ledger.Holds.close h
    obtain ⟨hown, hrest⟩ := ih hclosed
    exact ⟨⟨hp, hown⟩, hrest⟩

end Descriptors
