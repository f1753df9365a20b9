import ToDoList.Prune

/-!
# From the logs to the handlers

Which requests `enqueue` accepts and which ones the workers hand to `hdl_nrl`
and `hdl_ctrl`. The calls are listed with the server they start on, so that a
later development can look at each of them; their requests are the executed
ones among the effects of an iteration. As long as `is_prune` is down, what was
handed over and what is still in the log is what was accepted, in order.
-/

namespace ToDoList
open CLib

/-! ### Calls of the handlers -/

def pruneCalls (env : Env) : List ClientCtx → Server → List (Server × ClientCtx)
  | [], _ => []
  | ctx :: rest, s =>
    if ctx.req.msgType ≠ .msgChkPt then pruneCalls env rest { s with nrl := rest }
    else
      let s := { s with nrl := rest, isPrune := false }
      (s, ctx) :: match executeMsg env s ctx with
        | .error _ => []
        | .ok (s, _) => pruneCalls env rest s

def turnCalls (s : Server) : List (Server × ClientCtx) :=
  if s.isPrune = false ∧ isPassiveBackup s then []
  else
    match s.nrl with
    | [] => []
    | ctx :: rest => if s.state = .quiesce then [] else [({ s with nrl := rest }, ctx)]

/-- The calls of `hdl_nrl` in one iteration. Behind the prune loop the log is
empty and the iteration makes no further call. -/
def hdlNrlCalls (env : Env) (s : Server) : List (Server × ClientCtx) :=
  if s.isPrune then pruneCalls env s.nrl s else turnCalls s

/-- The requests an iteration executes, as its effects tell. -/
def executed (effs : List Effect) : List ClientCtx :=
  ((taken effs).filter Prod.snd).map Prod.fst

/-- What holds of the loop at every call: an invariant of the log that is left
and the server that no discarded and no executed request breaks. -/
theorem pruneCalls_forall {env : Env} {I : List ClientCtx → Server → Prop}
    {Q : Server × ClientCtx → Prop}
    (hdiscard : ∀ c rest s, I (c :: rest) s → I rest { s with nrl := rest })
    (hexecute : ∀ c rest s t effs, I (c :: rest) s →
      executeMsg env { s with nrl := rest, isPrune := false } c = .ok (t, effs) → I rest t)
    (hcall : ∀ c rest s, I (c :: rest) s → Q ({ s with nrl := rest, isPrune := false }, c))
    (log : List ClientCtx) (s : Server) (h : I log s) : ∀ p ∈ pruneCalls env log s, Q p := by
  induction log generalizing s with
  | nil =>
    intro p hp
    exact absurd hp List.not_mem_nil
  | cons c rest ih =>
    rw [pruneCalls]
    split
    · exact ih _ (hdiscard c rest s h)
    · intro p hp
      rcases List.mem_cons.mp hp with rfl | hp
      · exact hcall c rest s h
      · cases hexec : executeMsg env { s with nrl := rest, isPrune := false } c with
        | error f =>
          rw [hexec] at hp
          exact absurd hp List.not_mem_nil
        | ok r =>
          obtain ⟨t, effs⟩ := r
          rw [hexec] at hp
          exact ih t (hexecute c rest s t effs h hexec) p hp

theorem pruneCalls_executed {env : Env} {log : List ClientCtx} {s t : Server} {effs : List Effect}
    (h : pruneLoop env log s = .ok (t, effs)) :
    (pruneCalls env log s).map Prod.snd = log.filter fun c => c.req.msgType = .msgChkPt := by
  induction log generalizing s t effs with
  | nil => rfl
  | cons c rest ih =>
    rw [pruneLoop] at h
    rw [pruneCalls]
    by_cases hc : c.req.msgType = .msgChkPt
    · rw [if_neg (not_not.mpr hc)] at h ⊢
      dsimp only
      cases hexec : executeMsg env { s with nrl := rest, isPrune := false } c with
      | error f =>
        rw [hexec] at h
        cases h
      | ok p =>
        obtain ⟨u, effs₁⟩ := p
        rw [hexec] at h
        dsimp only at h ⊢
        split at h
        · cases h
        · rename_i hloop
          rw [List.map_cons, ih hloop]
          simp [hc]
    · rw [if_pos hc] at h ⊢
      split at h
      · cases h
      · rename_i hloop
        rw [ih hloop]
        simp [hc]

theorem turnCalls_cases (s : Server) :
    turnCalls s = [] ∨
      ∃ ctx rest, s.nrl = ctx :: rest ∧ s.state ≠ .quiesce ∧
        ¬(s.isPrune = false ∧ isPassiveBackup s = true) ∧
        turnCalls s = [({ s with nrl := rest }, ctx)] := by
  unfold turnCalls
  split
  · exact Or.inl rfl
  · rename_i hawake
    split
    · exact Or.inl rfl
    · rename_i ctx rest hlog
      split
      · exact Or.inl rfl
      · rename_i hstate
        exact Or.inr ⟨ctx, rest, hlog, hstate, hawake, rfl⟩

/-- A turn is its one call, or it makes none and leaves the logs alone. -/
theorem normalTurn_calls {env : Env} {s t : Server} {effs : List Effect}
    (h : normalTurn env s = .ok (t, effs)) :
    (turnCalls s = [] ∧ effs = [] ∧ (t = s ∨ (s.state = .passivePreprimary ∧ s.nrl = [] ∧ t = promoted s))) ∨
      ∃ ctx rest, s.nrl = ctx :: rest ∧ turnCalls s = [({ s with nrl := rest }, ctx)] ∧
        executeMsg env { s with nrl := rest } ctx = .ok (t, effs) := by
  unfold turnCalls
  rcases normalTurn_inv h with ⟨heffs, ht, hsleep | hnil | hq⟩ | ⟨heffs, hpre, hnil, ht⟩ |
    ⟨ctx, rest, hlog, ⟨hawake, hstate⟩, hexec⟩
  · rw [if_pos hsleep]
    exact Or.inl ⟨rfl, heffs, Or.inl ht⟩
  · rw [hnil]
    exact Or.inl ⟨ite_self _, heffs, Or.inl ht⟩
  · refine Or.inl ⟨?_, heffs, Or.inl ht⟩
    cases s.nrl with
    | nil => exact ite_self _
    | cons ctx rest =>
      dsimp only
      rw [if_pos hq, ite_self]
  · rw [hnil]
    exact Or.inl ⟨ite_self _, heffs, Or.inr ⟨hpre, rfl, ht⟩⟩
  · rw [if_neg hawake, hlog]
    dsimp only
    rw [if_neg hstate]
    exact Or.inr ⟨ctx, rest, rfl, rfl, hexec⟩

/-- The requests handed to `hdl_nrl` are those the effects show as executed. -/
theorem hdlNrlCalls_executed {env : Env} {s t : Server} {effs : List Effect}
    (h : runNormal env s = .ok (t, effs)) : (hdlNrlCalls env s).map Prod.snd = executed effs := by
  unfold hdlNrlCalls
  rcases runNormal_cases h with ⟨hp, hturn⟩ | ⟨hp, u, hloop, -⟩
  · rw [hp, if_neg Bool.false_ne_true]
    rcases normalTurn_calls hturn with ⟨hcalls, rfl, -⟩ | ⟨ctx, rest, -, hcalls, hexec⟩
    · rw [hcalls]
      rfl
    · rw [hcalls, executed, executeMsg_taken hexec]
      rfl
  · rw [hp, if_pos rfl, pruneCalls_executed hloop, executed, pruneLoop_taken hloop, List.filter_map,
      List.map_map]
    exact (List.map_id _).symm

/-! ### The logs and their history -/

/-- The request a connection thread leaves in a log. -/
def accepted (s : Server) (rand : ℕ) (ctx : ClientCtx) : Option ClientCtx :=
  let p := parkPayload s rand ctx
  if isQuiesceCommand p.2.req.msgType then none
  else if (enqueueClientReq p.1 p.2).1 = 0 then some { p.2 with isBacklog := isPassiveBackup p.1 }
  else none

/-- A server process as `main` starts it. -/
def bootServer (serverId : ℤ) : Server := { serverId := serverId }

theorem serverNext_eq_some {env : Env} {s t : Server} {e : ServerEvent}
    (h : serverNext env s e = some t) : ∃ effs, serverStep env s e = .ok (t, effs) := by
  unfold serverNext at h
  split at h
  · cases h
  · rename_i u effs hstep
    cases h
    exact ⟨effs, hstep⟩

end ToDoList
