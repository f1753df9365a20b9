import ToDoList.ServerSpec

/-!
# What a prune pass throws away

The NORMAL worker takes requests in log order and either executes or discards
each. With `is_prune` set it empties the whole log, wherever the checkpoints
stand in it and whatever role the server has by then.
-/

namespace ToDoList
open CLib

/-- The requests an iteration takes from the NORMAL log, in order, with `true`
for those it executes. -/
def taken (effs : List Effect) : List (ClientCtx × Bool) :=
  effs.filterMap fun
    | .exec c => some (c, true)
    | .discard c => some (c, false)
    | _ => none

theorem taken_append (a b : List Effect) : taken (a ++ b) = taken a ++ taken b :=
  List.filterMap_append

@[simp] theorem taken_closeFd (ctx : ClientCtx) : taken (closeFd ctx) = [] := by
  unfold closeFd
  split <;> rfl

theorem executeMsg_taken {env : Env} {s t : Server} {ctx : ClientCtx} {effs : List Effect}
    (h : executeMsg env s ctx = .ok (t, effs)) : taken effs = [(ctx, true)] := by
  obtain ⟨ret, store, ctx', fail, -, -, hfail, rfl⟩ := executeMsg_cases h
  have hexec : taken (.exec ctx :: fail) = [(ctx, true)] := by
    rcases hfail with rfl | rfl <;> rfl
  rw [taken_append, taken_append, hexec, taken_closeFd]
  rfl

/-! ### One iteration of the NORMAL worker -/

theorem pruneLoop_taken {env : Env} {log : List ClientCtx} {s t : Server} {effs : List Effect}
    (h : pruneLoop env log s = .ok (t, effs)) :
    taken effs = log.map fun c => (c, decide (c.req.msgType = .msgChkPt)) := by
  induction log generalizing s effs with
  | nil =>
    cases h
    rfl
  | cons c rest ih =>
    rw [pruneLoop] at h
    by_cases hc : c.req.msgType = .msgChkPt
    · rw [if_neg (not_not.mpr hc)] at h
      split at h
      · cases h
      · rename_i u effs₁ hexec
        split at h
        · cases h
        · rename_i v effs₂ hloop
          cases h
          rw [taken_append, executeMsg_taken hexec, ih hloop]
          simp [hc]
    · rw [if_pos hc] at h
      split at h
      · cases h
      · rename_i u effs₁ hloop
        cases h
        have hdis : taken (.discard c :: closeFd c) = [(c, false)] := by
          rw [← List.singleton_append, taken_append, taken_closeFd]
          rfl
        rw [taken_append, hdis, ih hloop]
        simp [hc]

theorem runNormal_taken {env : Env} {s t : Server} {effs : List Effect}
    (h : runNormal env s = .ok (t, effs)) :
    (s.isPrune = true ∧ taken effs = s.nrl.map fun c => (c, decide (c.req.msgType = .msgChkPt))) ∨
      (s.isPrune = false ∧ (taken effs = [] ∨ ∃ c rest, s.nrl = c :: rest ∧ taken effs = [(c, true)])) := by
  rcases runNormal_cases h with ⟨hp, hturn⟩ | ⟨hp, u, hloop, -⟩
  · refine Or.inr ⟨hp, ?_⟩
    rcases normalTurn_cases hturn with ⟨rfl, -⟩ | ⟨c, rest, hlog, -, hexec⟩
    · exact Or.inl rfl
    · exact Or.inr ⟨c, rest, hlog, executeMsg_taken hexec⟩
  · exact Or.inl ⟨hp, pruneLoop_taken hloop⟩

/-! ### Covered requests -/

/-- A discarded request is covered: the server is a backup, and a checkpoint
taken later, so one that was logged later, is executed by the same pass. -/
def Covered (s : Server) (effs : List Effect) : Prop :=
  ∀ (i : ℕ) (c : ClientCtx), (taken effs)[i]? = some (c, false) →
    isPassiveBackup s = true ∧ ∃ (j : ℕ) (chk : ClientCtx), i < j ∧
      (taken effs)[j]? = some (chk, true) ∧ chk.req.msgType = .msgChkPt

/-- The flag is down, or there is no request to lose, or the server is a backup
whose newest log entry is a checkpoint. -/
def PruneSafe (s : Server) : Prop :=
  s.isPrune = true → (∀ c ∈ s.nrl, c.req.msgType = .msgChkPt) ∨
    (isPassiveBackup s = true ∧ ∃ c, s.nrl.getLast? = some c ∧ c.req.msgType = .msgChkPt)

theorem last_of_later {α : Type*} {p : α → Prop} {l : List α}
    (h : ∀ (i : ℕ) x, l[i]? = some x → ¬p x → ∃ (j : ℕ) (y : α), i < j ∧ l[j]? = some y ∧ p y) (hl : l ≠ []) :
    ∃ x, l.getLast? = some x ∧ p x := by
  refine ⟨l.getLast hl, List.getLast?_eq_some_getLast hl, ?_⟩
  by_contra hn
  have hlast : l[l.length - 1]? = some (l.getLast hl) := by
    rw [← List.getLast?_eq_getElem?, List.getLast?_eq_some_getLast hl]
  obtain ⟨j, y, hj, hy, -⟩ := h _ _ hlast hn
  have hlt : j < l.length := (List.getElem?_eq_some_iff.mp hy).1
  omega

theorem later_of_last {α : Type*} {p : α → Prop} {l : List α} (h : ∃ x, l.getLast? = some x ∧ p x) (i : ℕ)
    (x : α) (hx : l[i]? = some x) (hn : ¬p x) : ∃ (j : ℕ) (y : α), i < j ∧ l[j]? = some y ∧ p y := by
  obtain ⟨y, hy, hp⟩ := h
  rw [List.getLast?_eq_getElem?] at hy
  refine ⟨l.length - 1, y, ?_, hy, hp⟩
  have hlt : i < l.length := (List.getElem?_eq_some_iff.mp hx).1
  have hne : i ≠ l.length - 1 := by
    rintro rfl
    rw [hy] at hx
    cases hx
    exact hn hp
  omega

theorem covered_iff {env : Env} {s t : Server} {effs : List Effect}
    (h : runNormal env s = .ok (t, effs)) : Covered s effs ↔ PruneSafe s := by
  rcases runNormal_taken h with ⟨hp, htaken⟩ | ⟨hp, htaken⟩
  · have hget : ∀ (i : ℕ) (c : ClientCtx) b, (taken effs)[i]? = some (c, b) ↔
        s.nrl[i]? = some c ∧ decide (c.req.msgType = .msgChkPt) = b := by
      intro i c b
      rw [htaken, List.getElem?_map, Option.map_eq_some_iff]
      constructor
      · rintro ⟨d, hd, heq⟩
        cases heq
        exact ⟨hd, rfl⟩
      · rintro ⟨hd, rfl⟩
        exact ⟨c, hd, rfl⟩
    simp only [Covered, PruneSafe, hp, forall_true_left, hget, decide_eq_false_iff_not,
      decide_eq_true_eq]
    constructor
    · intro hcov
      by_cases hall : ∀ c ∈ s.nrl, c.req.msgType = .msgChkPt
      · exact Or.inl hall
      · push Not at hall
        obtain ⟨c, hc, hn⟩ := hall
        obtain ⟨i, hi⟩ := List.mem_iff_getElem?.mp hc
        refine Or.inr ⟨(hcov i c ⟨hi, hn⟩).1, ?_⟩
        refine last_of_later (p := fun c : ClientCtx => c.req.msgType = .msgChkPt) ?_
          (List.ne_nil_of_mem hc)
        intro j x hx hnx
        obtain ⟨-, k, chk, hk, ⟨hget', -⟩, hchk⟩ := hcov j x ⟨hx, hnx⟩
        exact ⟨k, chk, hk, hget', hchk⟩
    · rintro (hall | ⟨hb, hlast⟩) i c ⟨hi, hn⟩
      · exact absurd (hall c (List.mem_of_getElem? hi)) hn
      · obtain ⟨j, chk, hj, hjget, hchk⟩ :=
          later_of_last (p := fun c : ClientCtx => c.req.msgType = .msgChkPt) hlast i c hi hn
        exact ⟨hb, j, chk, hj, ⟨hjget, hchk⟩, hchk⟩
  · have hexec : ∀ (i : ℕ) (c : ClientCtx), (taken effs)[i]? ≠ some (c, false) := by
      intro i c hi
      have hmem := List.mem_of_getElem? hi
      rcases htaken with h0 | ⟨d, rest, -, h1⟩
      · simp [h0] at hmem
      · simp [h1] at hmem
    constructor
    · intro _ hp'
      rw [hp] at hp'
      cases hp'
    · intro _ i c hi
      exact absurd hi (hexec i c)

/-- `P` holds of every iteration of the NORMAL worker that returns. -/
def AtNormal (env : Env) (P : Server → List Effect → Prop) (s : Server) (e : ServerEvent) : Prop :=
  e = .normal → ∀ t effs, runNormal env s = .ok (t, effs) → P s effs

theorem runNormal_in_order {env : Env} {s t : Server} {effs : List Effect}
    (h : runNormal env s = .ok (t, effs)) : (taken effs).map Prod.fst <+: s.nrl := by
  rcases runNormal_taken h with ⟨-, htaken⟩ | ⟨-, htaken | ⟨c, rest, hlog, htaken⟩⟩
  · rw [htaken, List.map_map]
    have hid : (Prod.fst ∘ fun c : ClientCtx => (c, decide (c.req.msgType = .msgChkPt))) = id := rfl
    rw [hid, List.map_id]
  · rw [htaken]
    exact List.nil_prefix
  · rw [htaken, hlog]
    exact ⟨rest, rfl⟩

theorem prune_discards_covered_iff (env : Env) (id : ℤ) (es : List ServerEvent) :
    StepRun.AllSteps (serverNext env)
      (AtNormal env fun s effs =>
        (taken effs).map Prod.fst <+: s.nrl ∧ (Covered s effs ↔ PruneSafe s))
      { serverId := id } es := by
  apply StepRun.allSteps_of_forall
  intro s e _ t effs h
  exact ⟨runNormal_in_order h, covered_iff h⟩

theorem not_pruneSafe {s : Server} {c : ClientCtx} (hp : s.isPrune = true)
    (hlast : s.nrl.getLast? = some c) (hc : c.req.msgType ≠ .msgChkPt) : ¬PruneSafe s := by
  intro h
  rcases h hp with hall | ⟨-, d, hd, hchk⟩
  · exact hc (hall c (List.mem_of_getLast? hlast))
  · rw [hlast] at hd
    cases hd
    exact hc hchk

def backupCommand : ClientRequest :=
  { msgType := .msgRepMgr, repMgrMsg := { repMode := .passiveRep, serverState := .passiveBackup } }

/-- A backup logs a checkpoint and then a request; the next pass executes the
first and throws the second away. -/
def lateRequest : List ServerEvent :=
  [.connection 1 { fd := 4, conn := 0, req := backupCommand }, .control,
   .connection 1 { fd := 4, conn := 1, req := checkpointRequest 0 (ascii "FILE_END\n") },
   .connection 1 { fd := 5, conn := 2, req := removeRequest 7 }]

theorem prune_drops_late_request :
    ∃ s t effs,
      StepRun.run (serverNext (zeroEnv fun _ => some 1)) { serverId := 1 } lateRequest = some s ∧
      serverStep (zeroEnv fun _ => some 1) s .normal = .ok (t, effs) ∧ ¬Covered s effs := by
  refine ⟨_, _, _, rfl, rfl, ?_⟩
  intro hcov
  have hsafe := (@covered_iff (zeroEnv fun _ => some 1) _ _ _ rfl).mp hcov
  exact not_pruneSafe rfl rfl (by decide) hsafe

end ToDoList
