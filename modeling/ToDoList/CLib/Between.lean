import Mathlib.Data.List.Basic

/-!
# Between two events of a kind

`Separated P Q` says of a list of events that any two with `P` have one with
`Q` between them. `Guarded P Q` is what is then true behind an event with `P`.
-/

namespace Between

variable {α : Type*} {P Q : α → Prop}

def Separated (P Q : α → Prop) (l : List α) : Prop :=
  ∀ a b c x y, l = a ++ x :: (b ++ y :: c) → P x → P y → ∃ z ∈ b, Q z

def Guarded (P Q : α → Prop) (l : List α) : Prop :=
  ∀ b y c, l = b ++ y :: c → P y → ∃ z ∈ b, Q z

theorem guarded_nil : Guarded P Q [] := by
  intro b y c h
  simp at h

theorem guarded_cons {x : α} {l : List α} :
    Guarded P Q (x :: l) ↔ ¬P x ∧ (Q x ∨ Guarded P Q l) := by
  constructor
  · intro h
    refine ⟨fun hx => ?_, ?_⟩
    · obtain ⟨z, hz, -⟩ := h [] x l rfl hx
      cases hz
    · by_cases hQ : Q x
      · exact Or.inl hQ
      · refine Or.inr fun b y c hl hy => ?_
        obtain ⟨z, hz, hQz⟩ := h (x :: b) y c (by rw [hl, List.cons_append]) hy
        rcases List.mem_cons.mp hz with rfl | hz
        · exact absurd hQz hQ
        · exact ⟨z, hz, hQz⟩
  · rintro ⟨hx, hrest⟩ b y c hl hy
    cases b with
    | nil =>
      obtain ⟨rfl, -⟩ := List.cons.inj hl
      exact absurd hy hx
    | cons z b =>
      obtain ⟨rfl, htail⟩ := List.cons.inj hl
      rcases hrest with hQ | hrest
      · exact ⟨x, List.mem_cons_self .., hQ⟩
      · obtain ⟨w, hw, hQw⟩ := hrest b y c htail hy
        exact ⟨w, List.mem_cons_of_mem _ hw, hQw⟩

theorem separated_nil : Separated P Q [] := by
  intro a b c x y h
  simp at h

theorem separated_cons {x : α} {l : List α} :
    Separated P Q (x :: l) ↔ (P x → Guarded P Q l) ∧ Separated P Q l := by
  constructor
  · intro h
    refine ⟨fun hx b y c hl hy => ?_, fun a b c y z hl hy hz => ?_⟩
    · exact h [] b c x y (by rw [hl, List.nil_append]) hx hy
    · exact h (x :: a) b c y z (by rw [hl, List.cons_append]) hy hz
  · rintro ⟨hx, hrest⟩ a b c y z hl hy hz
    cases a with
    | nil =>
      obtain ⟨rfl, htail⟩ := List.cons.inj hl
      exact hx hy b z c htail hz
    | cons w a => exact hrest a b c y z (List.cons.inj hl).2 hy hz

end Between
