import ToDoList.Failover
import ToDoList.Manager

/-!
# Active replicas

Every client sends its requests in order to every replica, each over its own
connection; a replica logs what arrives and executes its log, and no replica
knows what the others have received. `arrived` keeps, for each replica, the
order in which the requests of all clients have come in.
-/

namespace ToDoList
open CLib KeyedMachine Replay

variable {κ : Type} [DecidableEq κ]

structure Service (κ : Type) where
  replica : Replica → Server
  arrived : Replica → List (κ × ClientRequest) := fun _ => []

inductive ServiceEvent (κ : Type) where
  | arrive (r : Replica) (k : κ) (ctx : ClientCtx)
  | command (r : Replica) (ctx : ClientCtx)
  | normal (r : Replica)
  | control (r : Replica)
  | chkptThread (r : Replica)

def Service.from (g : Service κ) (r : Replica) (k : κ) : List (κ × ClientRequest) :=
  (g.arrived r).filter fun o => o.1 = k

def Service.set (g : Service κ) (r : Replica) (s : Server) : Service κ :=
  { g with replica := Function.update g.replica r s }

/-- `arrive` delivers the next request of a client to one replica, where it
finds room in the log. -/
def serviceStep (env : Env) (issued : κ → List ClientRequest) (g : Service κ) :
    ServiceEvent κ → Option (Service κ)
  | .arrive r k ctx =>
    match (issued k)[(g.from r k).length]? with
    | none => none
    | some req =>
      if hasRoom (g.replica r) req.msgType then
        (handleConnection (g.replica r) 0 { ctx with req := req }).toOption.map fun out =>
          { g.set r out.1 with
            arrived := Function.update g.arrived r (g.arrived r ++ [(k, req)]) }
      else none
  | .command r ctx =>
    if isCommand ctx.req then
      (handleConnection (g.replica r) 0 ctx).toOption.map fun out => g.set r out.1
    else none
  | .normal r => (runNormal env (g.replica r)).toOption.map fun out => g.set r out.1
  | .control r => (runControl env (g.replica r)).toOption.map fun out => g.set r out.1
  | .chkptThread r => (serverStep env (g.replica r) .chkptThread).toOption.map fun out => g.set r out.1

/-! ### Requests that do not commute -/

/-- Two calls on one key that leave different queues in the two orders. -/
def Call.conflicts : Call → Call → Bool
  | .insert key data len, .insert key' data' len' =>
    key = key' && key ≠ 0 && (data.take len.toNat, len) ≠ (data'.take len'.toNat, len')
  | .insert key _ _, .delete key' => key = key' && key ≠ 0
  | .delete key, .insert key' _ _ => key = key' && key ≠ 0
  | .delete _, .delete _ => false

def conflicts (env : Env) (a b : ClientRequest) : Bool :=
  match requestCall env a, requestCall env b with
  | some c, some d => c.conflicts d
  | _, _ => false

theorem call_comm {c d : Call} (h : c.conflicts d = false) (hk : c.key = d.key) (q : List Entry) :
    (queueAct d (queueAct c q).1).1 = (queueAct c (queueAct d q).1).1 := by
  cases c with
  | insert key data len =>
    cases d with
    | insert key' data' len' =>
      have hkey : key = key' := hk
      subst hkey
      by_cases h0 : key = 0
      · simp [queueAct, h0]
      · have he : (data.take len.toNat, len) = (data'.take len'.toNat, len') := by
          simpa [Call.conflicts, h0] using h
        simp only [queueAct, if_neg h0, he]
    | delete key' =>
      have hkey : key = key' := hk
      subst hkey
      have h0 : key = 0 := by simpa [Call.conflicts] using h
      simp [queueAct, h0]
  | delete key =>
    cases d with
    | insert key' data' len' =>
      have hkey : key = key' := hk
      subst hkey
      have h0 : key = 0 := by simpa [Call.conflicts] using h
      simp [queueAct, h0]
    | delete key' =>
      have hkey : key = key' := hk
      subst hkey
      rfl

theorem applyRequest_comm {env : Env} {a b : ClientRequest} (h : conflicts env a b = false)
    (q : Cells) :
    applyRequest env (applyRequest env q a) b = applyRequest env (applyRequest env q b) a := by
  unfold conflicts at h
  unfold applyRequest
  cases ha : requestCall env a with
  | none => rfl
  | some c =>
    cases hb : requestCall env b with
    | none => rfl
    | some d =>
      rw [ha, hb] at h
      refine step_comm tableMachine c d (fun hk => ?_) q
      exact call_comm h (congrArg Prod.snd hk)

/-! ### What a replica has executed -/

/-- An add or remove request as the clients send it, without payload. -/
def ClientUpdate (req : ClientRequest) : Prop :=
  isUpdate req.msgType = true ∧ req.payload.size = 0

instance decidableClientUpdate (req : ClientRequest) : Decidable (ClientUpdate req) :=
  inferInstanceAs (Decidable (isUpdate req.msgType = true ∧ req.payload.size = 0))

/-- The table followed by the log is what the arrived requests make of `start`;
what has left the log has been executed. -/
structure CaughtUp (env : Env) (start : Cells) (s : Server) (arrived : List ClientRequest) : Prop where
  prune : s.isPrune = false
  inStep : InStep (applyRequest env) start arrived arrived.length (cells s.store.htable)
    (s.nrl.map fun c => c.req)
  update : ∀ c ∈ s.nrl, isUpdate c.req.msgType = true
  ran : ∀ req ∈ arrived, req ∈ s.nrl.map (fun c => c.req) ∨ Executable req

section
variable {env : Env} {start : Cells} {s t : Server} {arrived : List ClientRequest}
  {effs : List Effect}

theorem CaughtUp.frame (h : CaughtUp env start s arrived) (hnrl : t.nrl = s.nrl)
    (hstore : t.store = s.store) (hprune : t.isPrune = s.isPrune) : CaughtUp env start t arrived := by
  refine ⟨hprune.trans h.prune, ?_, ?_, ?_⟩
  · rw [hnrl, hstore]
    exact h.inStep
  · rw [hnrl]
    exact h.update
  · rw [hnrl]
    exact h.ran

theorem CaughtUp.arrive {req : ClientRequest} {rand : ℕ} {ctx : ClientCtx}
    (h : CaughtUp env start s arrived) (hctx : ctx.req = req) (hup : ClientUpdate req)
    (hroom : hasRoom s req.msgType = true) (hconn : handleConnection s rand ctx = .ok (t, effs)) :
    CaughtUp env start t (arrived ++ [req]) := by
  subst hctx
  rw [handleConnection_update hup.1 hup.2 hroom hconn]
  refine ⟨h.prune, ?_, ?_, ?_⟩
  · have hlast : (arrived ++ [ctx.req])[arrived.length]? = some ctx.req := by simp
    have hnext := (h.inStep.issue le_rfl ctx.req).receive hlast
    simpa using hnext
  · intro c hc
    rcases List.mem_append.mp hc with hc | hc
    · exact h.update c hc
    · rw [List.mem_singleton.mp hc]
      exact hup.1
  · intro req hreq
    rw [List.map_append]
    rcases List.mem_append.mp hreq with hold | hlast
    · rcases h.ran req hold with hwait | hdone
      · exact Or.inl (List.mem_append_left _ hwait)
      · exact Or.inr hdone
    · exact Or.inl (List.mem_append_right _ hlast)

theorem CaughtUp.normal (h : CaughtUp env start s arrived) (hrun : runNormal env s = .ok (t, effs)) :
    CaughtUp env start t arrived := by
  rcases runNormal_cases hrun with ⟨-, hturn⟩ | ⟨hp, -⟩
  · rcases normalTurn_cases hturn with ⟨-, rfl | ⟨-, rfl⟩⟩ | ⟨c, rest, hlog, -, hexec⟩
    · exact h
    · exact h.frame rfl rfl rfl
    · have hc := h.update c (by rw [hlog]; exact List.mem_cons_self ..)
      obtain ⟨hnrl, -, hprune, -⟩ := executeMsg_frame hexec
      have hstep := h.inStep
      rw [hlog] at hstep
      refine ⟨hprune.trans h.prune, ?_, ?_, ?_⟩
      · rw [hnrl, (executeMsg_update hexec hc).1]
        exact hstep.apply_next
      · rw [hnrl]
        intro d hd
        exact h.update d (by rw [hlog]; exact List.mem_cons_of_mem _ hd)
      · rw [hnrl]
        intro req hreq
        rcases h.ran req hreq with hwait | hdone
        · rw [hlog, List.map_cons] at hwait
          rcases List.mem_cons.mp hwait with rfl | hrest
          · obtain ⟨ret, store, ctx', fail, hh, -⟩ := executeMsg_cases hexec
            exact Or.inr (executable_of_returns hh)
          · exact Or.inl hrest
        · exact Or.inr hdone
  · rw [h.prune] at hp
    cases hp

theorem CaughtUp.done (h : CaughtUp env start s arrived) (hlog : s.nrl = []) :
    cells s.store.htable = exec (applyRequest env) start arrived := by
  have hstep := h.inStep
  rw [hlog] at hstep
  have hdone := hstep.done
  rwa [List.take_length] at hdone

end

/-! ### Runs of the service -/

structure ServiceInv (env : Env) (issued : κ → List ClientRequest) (start : Cells)
    (g : Service κ) : Prop where
  caughtUp : ∀ r, CaughtUp env start (g.replica r) ((g.arrived r).map Prod.snd)
  inOrder : ∀ r k, g.from r k <+: (issued k).map (Prod.mk k)

section
variable {env : Env} {issued : κ → List ClientRequest} {start : Cells} {g g' : Service κ}

theorem ServiceInv.set {r : Replica} {s : Server} (h : ServiceInv env issued start g)
    (hs : CaughtUp env start s ((g.arrived r).map Prod.snd)) :
    ServiceInv env issued start (g.set r s) := by
  refine ⟨fun r' => ?_, h.inOrder⟩
  by_cases hr : r' = r
  · subst hr
    show CaughtUp env start (Function.update g.replica r' s r') _
    rw [Function.update_self]
    exact hs
  · show CaughtUp env start (Function.update g.replica r s r') _
    rw [Function.update_of_ne hr]
    exact h.caughtUp r'

theorem ServiceInv.arrive {r : Replica} {k : κ} {req : ClientRequest} {s : Server}
    (h : ServiceInv env issued start g) (hreq : (issued k)[(g.from r k).length]? = some req)
    (hs : CaughtUp env start s ((g.arrived r).map Prod.snd ++ [req])) :
    ServiceInv env issued start { g.set r s with
      arrived := Function.update g.arrived r (g.arrived r ++ [(k, req)]) } := by
  have hnext : ((issued k).map (Prod.mk k))[(g.from r k).length]? = some (k, req) := by
    rw [List.getElem?_map, hreq]
    rfl
  constructor
  · intro r'
    by_cases hr : r' = r
    · subst hr
      show CaughtUp env start (Function.update g.replica r' s r')
        ((Function.update g.arrived r' (g.arrived r' ++ [(k, req)]) r').map Prod.snd)
      rw [Function.update_self, Function.update_self, List.map_append]
      exact hs
    · show CaughtUp env start (Function.update g.replica r s r')
        ((Function.update g.arrived r (g.arrived r ++ [(k, req)]) r').map Prod.snd)
      rw [Function.update_of_ne hr, Function.update_of_ne hr]
      exact h.caughtUp r'
  · intro r' l
    by_cases hr : r' = r
    · subst hr
      show (Function.update g.arrived r' (g.arrived r' ++ [(k, req)]) r').filter _ <+: _
      rw [Function.update_self, List.filter_append]
      by_cases hl : k = l
      · subst hl
        have hone : [(k, req)].filter (fun o : κ × ClientRequest => o.1 = k) = [(k, req)] := by simp
        rw [hone]
        exact prefix_snoc (h.inOrder r' k) hnext
      · have hnone : [(k, req)].filter (fun o : κ × ClientRequest => o.1 = l) = [] := by simp [hl]
        rw [hnone, List.append_nil]
        exact h.inOrder r' l
    · show (Function.update g.arrived r (g.arrived r ++ [(k, req)]) r').filter _ <+: _
      rw [Function.update_of_ne hr]
      exact h.inOrder r' l

theorem serviceStep_inv {e : ServiceEvent κ} (hup : ∀ k, ∀ req ∈ issued k, ClientUpdate req)
    (h : ServiceInv env issued start g) (hstep : serviceStep env issued g e = some g') :
    ServiceInv env issued start g' := by
  cases e with
  | arrive r k ctx =>
    rw [serviceStep] at hstep
    split at hstep
    · cases hstep
    · rename_i req hreq
      split at hstep
      · rename_i hroom
        obtain ⟨⟨t, effs⟩, hconn, rfl⟩ := StepRun.toOption_map_eq_some hstep
        have hreq' := hup k req (List.mem_of_getElem? hreq)
        exact h.arrive hreq ((h.caughtUp r).arrive rfl hreq' hroom hconn)
      · cases hstep
  | command r ctx =>
    rw [serviceStep] at hstep
    split at hstep
    · rename_i hcmd
      obtain ⟨⟨t, effs⟩, hconn, rfl⟩ := StepRun.toOption_map_eq_some hstep
      obtain ⟨hnrl, hstore, hprune⟩ := handleConnection_command hcmd hconn
      exact h.set ((h.caughtUp r).frame hnrl hstore hprune)
    · cases hstep
  | normal r =>
    obtain ⟨⟨t, effs⟩, hrun, rfl⟩ := StepRun.toOption_map_eq_some hstep
    exact h.set ((h.caughtUp r).normal hrun)
  | control r =>
    obtain ⟨⟨t, effs⟩, hrun, rfl⟩ := StepRun.toOption_map_eq_some hstep
    obtain ⟨hnrl, hstore, hprune, -⟩ := runControl_frame hrun
    exact h.set ((h.caughtUp r).frame hnrl hstore hprune)
  | chkptThread r =>
    obtain ⟨⟨t, effs⟩, hrun, rfl⟩ := StepRun.toOption_map_eq_some hstep
    obtain ⟨hnrl, hstore, hprune, -⟩ := chkptThread_frame hrun
    exact h.set ((h.caughtUp r).frame hnrl hstore hprune)

end

/-- A replica in ACTIVE_RUNNING with an empty log and a given table. -/
structure ActiveReady (start : Cells) (s : Server) : Prop where
  mode : s.repMode = .activeRep
  state : s.state = .activeRunning
  prune : s.isPrune = false
  log : s.nrl = []
  table : cells s.store.htable = start

/-- Every request of every client has arrived at every replica and no log holds
one any more. -/
def Served (issued : κ → List ClientRequest) (g : Service κ) : Prop :=
  ∀ r, (g.replica r).nrl = [] ∧ ∀ k, (g.from r k).length = (issued k).length

instance decidableServed [Fintype κ] (issued : κ → List ClientRequest) (g : Service κ) :
    Decidable (Served issued g) :=
  inferInstanceAs (Decidable (∀ r, (g.replica r).nrl = [] ∧
    ∀ k, (g.from r k).length = (issued k).length))

theorem serviceInv_ready {env : Env} {issued : κ → List ClientRequest} {start : Cells}
    {g : Service κ} (hready : ∀ r, ActiveReady start (g.replica r)) (hnone : ∀ r, g.arrived r = []) :
    ServiceInv env issued start g := by
  constructor
  · intro r
    have hr := hready r
    rw [hnone r]
    refine ⟨hr.prune, ?_, ?_, ?_⟩
    · rw [hr.log, hr.table]
      exact ⟨List.suffix_refl _, rfl⟩
    · rw [hr.log]
      intro c hc
      cases hc
    · intro req hreq
      cases hreq
  · intro r k
    have hfrom : g.from r k = [] := by
      rw [Service.from, hnone r]
      rfl
    rw [hfrom]
    exact List.nil_prefix

/-- Replicas in ACTIVE_RUNNING that start alike hold the same entries for every
key once all of them have executed all requests, in whatever orders these have
arrived. -/
def AgreeWhenServed (env : Env) (issued : κ → List ClientRequest) : Prop :=
  ∀ (start : Cells) (g₀ g : Service κ) (es : List (ServiceEvent κ)),
    (∀ r, ActiveReady start (g₀.replica r)) → (∀ r, g₀.arrived r = []) →
    StepRun.run (serviceStep env issued) g₀ es = some g → Served issued g →
    ∀ r r' key, entriesOf (g.replica r).store.htable key = entriesOf (g.replica r').store.htable key

/-- What every replica has served: each client's requests in their order, all of
them executed. -/
theorem served_spec {env : Env} {issued : κ → List ClientRequest} {start : Cells} {g₀ g : Service κ}
    {es : List (ServiceEvent κ)} (hup : ∀ k, ∀ req ∈ issued k, ClientUpdate req)
    (hready : ∀ r, ActiveReady start (g₀.replica r)) (hnone : ∀ r, g₀.arrived r = [])
    (hrun : StepRun.run (serviceStep env issued) g₀ es = some g) (hserved : Served issued g)
    (r : Replica) :
    (∀ k, g.from r k = (issued k).map (Prod.mk k)) ∧ (∀ o ∈ g.arrived r, Executable o.2) ∧
      cells (g.replica r).store.htable =
        (g.arrived r).foldl (fun q o => applyRequest env q o.2) start := by
  have hinv : ServiceInv env issued start g :=
    StepRun.run_invariant (C := fun _ _ => True) (fun _ _ _ h _ hstep => serviceStep_inv hup h hstep)
      (serviceInv_ready hready hnone) (StepRun.allSteps_of_forall (fun _ _ => trivial) _ _) hrun
  refine ⟨fun k => ?_, fun o ho => ?_, ?_⟩
  · refine (hinv.inOrder r k).eq_of_length ?_
    rw [List.length_map]
    exact (hserved r).2 k
  · rcases (hinv.caughtUp r).ran o.2 (List.mem_map_of_mem ho) with hwait | hdone
    · rw [(hserved r).1] at hwait
      cases hwait
    · exact hdone
  · rw [(hinv.caughtUp r).done (hserved r).1, exec, List.foldl_map]

theorem agree_of_conflict_free {env : Env} {issued : κ → List ClientRequest}
    (hup : ∀ k, ∀ req ∈ issued k, ClientUpdate req)
    (hfree : ∀ k l, k ≠ l → ∀ a ∈ issued k, ∀ b ∈ issued l, Executable a → Executable b →
      conflicts env a b = false) : AgreeWhenServed env issued := by
  intro start g₀ g es hready hnone hrun hserved r r' key
  obtain ⟨hfrom, hexec, hcells⟩ := served_spec hup hready hnone hrun hserved r
  obtain ⟨hfrom', -, hcells'⟩ := served_spec hup hready hnone hrun hserved r'
  have hissued : ∀ o ∈ g.arrived r, o.2 ∈ issued o.1 := by
    intro o ho
    have hmem : o ∈ g.from r o.1 := List.mem_filter.mpr ⟨ho, by simp⟩
    rw [hfrom o.1] at hmem
    obtain ⟨req, hreq, he⟩ := List.mem_map.mp hmem
    have hsnd : req = o.2 := congrArg Prod.snd he
    rw [← hsnd]
    exact hreq
  refine entriesOf_eq ?_ key
  rw [hcells, hcells']
  refine CommutingOrder.foldl_eq_of_commuting _ Prod.fst (fun k => ?_) ?_ start
  · exact (hfrom k).trans (hfrom' k).symm
  · intro o ho p hp hne q
    exact applyRequest_comm (hfree o.1 p.1 hne o.2 (hissued o ho) p.2 (hissued p hp)
      (hexec o ho) (hexec p hp)) q

/-! ### Two requests in both orders -/

structure Idle (s : Server) : Prop where
  mode : s.repMode = .activeRep
  state : s.state = .activeRunning
  prune : s.isPrune = false
  log : s.nrl = []
  limit : s.nrlQLimit = 50

theorem idle_receives {s : Server} {ctx : ClientCtx} (h : Idle s) (hup : ClientUpdate ctx.req) :
    hasRoom s ctx.req.msgType = true ∧ handleConnection s 0 ctx =
      .ok ({ s with nrl := [{ ctx with isBacklog := false }] }, []) := by
  have hback : isPassiveBackup s = false := by simp [isPassiveBackup, h.mode]
  have hpark : parkPayload s 0 ctx = (s, ctx) := by rw [parkPayload, if_pos hup.2]
  rcases isUpdate_cases hup.1 with hty | hty
  · constructor
    · simp [hasRoom, hty, isControl, h.log, h.limit]
    · simp [handleConnection, hpark, hty, isQuiesceCommand, enqueueClientReq, isControl, enqueue, hback,
        h.log, h.limit, earlyClose, h.state, h.prune]
  · constructor
    · simp [hasRoom, hty, isControl, h.log, h.limit]
    · simp [handleConnection, hpark, hty, isQuiesceCommand, enqueueClientReq, isControl, enqueue, hback,
        h.log, h.limit, earlyClose, h.state, h.prune]

theorem runNormal_of_no_prune {env : Env} {s : Server} (h : s.isPrune = false) :
    runNormal env s = normalTurn env s := by
  unfold runNormal
  rw [if_neg (by simp [h])]
  dsimp only
  cases normalTurn env s with
  | error f => rfl
  | ok out => rfl

theorem idle_executes {env : Env} {s : Server} {ctx : ClientCtx} (h : Idle s)
    (hup : ClientUpdate ctx.req) (hex : Executable ctx.req) :
    ∃ t effs, runNormal env { s with nrl := [ctx] } = .ok (t, effs) ∧ Idle t := by
  obtain ⟨ret, u, ctx', hu⟩ := handleStorage_returns env s.store hup.1 hex
  have hexec : ∃ effs, executeMsg env { s with nrl := [] } ctx =
      .ok ({ s with nrl := [], store := u }, effs) := by
    simp [executeMsg, h.mode, hu]
  obtain ⟨effs, hexec⟩ := hexec
  have hturn : normalTurn env { s with nrl := [ctx] } = executeMsg env { s with nrl := [] } ctx := by
    simp [normalTurn, isPassiveBackup, h.mode, h.state]
  refine ⟨{ s with nrl := [], store := u }, effs, ?_, ⟨h.mode, h.state, h.prune, rfl, h.limit⟩⟩
  have hawake : runNormal env { s with nrl := [ctx] } = normalTurn env { s with nrl := [ctx] } :=
    runNormal_of_no_prune h.prune
  rw [hawake, hturn, hexec]

theorem idle_serves {env : Env} {s : Server} {ctx : ClientCtx} (h : Idle s)
    (hup : ClientUpdate ctx.req) (hex : Executable ctx.req) :
    hasRoom s ctx.req.msgType = true ∧ ∃ u t effs, handleConnection s 0 ctx = .ok (u, []) ∧
      runNormal env u = .ok (t, effs) ∧ Idle t := by
  obtain ⟨hroom, hconn⟩ := idle_receives h hup
  obtain ⟨t, effs, hrun, ht⟩ := @idle_executes env s { ctx with isBacklog := false } h hup hex
  exact ⟨hroom, _, t, effs, hconn, hrun, ht⟩

/-- A request is received and executed at once. -/
def serve (r : Replica) (k : κ) : List (ServiceEvent κ) := [.arrive r k { fd := 4 }, .normal r]

def Service.served (g : Service κ) (r : Replica) (s : Server) (k : κ) (req : ClientRequest) : Service κ :=
  { g.set r s with arrived := Function.update g.arrived r (g.arrived r ++ [(k, req)]) }

theorem serve_one (env : Env) {issued : κ → List ClientRequest} {g : Service κ} {r : Replica} {k : κ}
    {req : ClientRequest} (hreq : (issued k)[(g.from r k).length]? = some req)
    (hidle : Idle (g.replica r)) (hup : ClientUpdate req) (hex : Executable req) :
    ∃ s, Idle s ∧ StepRun.run (serviceStep env issued) g (serve r k) = some (g.served r s k req) := by
  obtain ⟨hroom, u, s, effs, hconn, hrun, hs⟩ :=
    @idle_serves env (g.replica r) { fd := 4, req := req } hidle hup hex
  have harrive : serviceStep env issued g (.arrive r k { fd := 4 }) = some (g.served r u k req) := by
    simp only [serviceStep, hreq, if_pos hroom, hconn]
    rfl
  have hnormal : serviceStep env issued (g.served r u k req) (.normal r) = some (g.served r s k req) := by
    have hreplica : (g.served r u k req).replica r = u := Function.update_self ..
    rw [serviceStep, hreplica, hrun]
    show some ((g.served r u k req).set r s) = _
    simp [Service.served, Service.set]
  exact ⟨s, hs, StepRun.run_cons_eq_some.mpr ⟨_, harrive, StepRun.run_cons_eq_some.mpr ⟨_, hnormal, rfl⟩⟩⟩

theorem serve_two (env : Env) {issued : κ → List ClientRequest} {g : Service κ} {r : Replica} {k l : κ}
    {a b : ClientRequest} (hkl : k ≠ l) (hk : issued k = [a]) (hl : issued l = [b])
    (hup : ClientUpdate a ∧ ClientUpdate b) (hex : Executable a ∧ Executable b)
    (hidle : Idle (g.replica r)) (hnone : g.arrived r = []) :
    ∃ g', StepRun.run (serviceStep env issued) g (serve r k ++ serve r l) = some g' ∧
      Idle (g'.replica r) ∧ g'.arrived r = [(k, a), (l, b)] ∧
      ∀ r', r' ≠ r → g'.replica r' = g.replica r' ∧ g'.arrived r' = g.arrived r' := by
  have hfirst : (issued k)[(g.from r k).length]? = some a := by
    simp [Service.from, hnone, hk]
  obtain ⟨s, hs, hrun⟩ := serve_one env hfirst hidle hup.1 hex.1
  have harrived : (g.served r s k a).arrived r = [(k, a)] := by
    simp [Service.served, hnone]
  have hsecond : (issued l)[((g.served r s k a).from r l).length]? = some b := by
    simp [Service.from, harrived, hkl, hl]
  have hreplica : (g.served r s k a).replica r = s := Function.update_self ..
  obtain ⟨t, ht, hrun'⟩ := serve_one env hsecond (by rw [hreplica]; exact hs) hup.2 hex.2
  refine ⟨_, StepRun.run_append_eq_some hrun hrun', ?_, ?_, ?_⟩
  · rw [show ((g.served r s k a).served r t l b).replica r = t from Function.update_self ..]
    exact ht
  · simp [Service.served, hnone]
  · intro r' hr
    simp [Service.served, Service.set, hr]

theorem conflict_differs {env : Env} {a b : ClientRequest} (h : conflicts env a b = true) :
    ∃ key, applyRequest env (applyRequest env (fun _ => []) a) b (hashFunc key, key) ≠
      applyRequest env (applyRequest env (fun _ => []) b) a (hashFunc key, key) := by
  unfold conflicts at h
  unfold applyRequest
  cases ha : requestCall env a with
  | none =>
    rw [ha] at h
    cases h
  | some c =>
    cases hb : requestCall env b with
    | none =>
      rw [ha, hb] at h
      cases h
    | some d =>
      rw [ha, hb] at h
      refine ⟨c.key, ?_⟩
      cases c with
      | insert key data len =>
        cases d with
        | insert key' data' len' =>
          simp only [Call.conflicts, Bool.and_eq_true, decide_eq_true_eq] at h
          obtain ⟨⟨rfl, h0⟩, hne⟩ := h
          intro heq
          have hlists : [(data.take len.toNat, len), (data'.take len'.toNat, len')] =
              [(data'.take len'.toNat, len'), (data.take len.toNat, len)] := by
            simpa [step, tableMachine, Call.key, queueAct, h0] using heq
          exact hne (List.cons.inj hlists).1
        | delete key' =>
          simp only [Call.conflicts, Bool.and_eq_true, decide_eq_true_eq] at h
          obtain ⟨rfl, h0⟩ := h
          simp [step, tableMachine, Call.key, queueAct, h0]
      | delete key =>
        cases d with
        | insert key' data' len' =>
          simp only [Call.conflicts, Bool.and_eq_true, decide_eq_true_eq] at h
          obtain ⟨rfl, h0⟩ := h
          simp [step, tableMachine, Call.key, queueAct, h0]
        | delete key' => cases h

section
omit [DecidableEq κ]

def freshService : Service κ where
  replica i := { serverId := i.val, repMode := .activeRep, state := .activeRunning }

theorem freshService_idle (r : Replica) : Idle ((freshService : Service κ).replica r) :=
  ⟨rfl, rfl, rfl, rfl, rfl⟩

theorem freshService_ready (r : Replica) :
    ActiveReady (fun _ => []) ((freshService : Service κ).replica r) :=
  ⟨rfl, rfl, rfl, rfl, rfl⟩

end

def bothOrders (k l : κ) : List (ServiceEvent κ) :=
  (serve 0 k ++ serve 0 l) ++ ((serve 1 l ++ serve 1 k) ++ (serve 2 k ++ serve 2 l))

theorem bothOrders_run (env : Env) {issued : κ → List ClientRequest} {k l : κ}
    {a b : ClientRequest} (hkl : k ≠ l) (hk : issued k = [a]) (hl : issued l = [b])
    (hup : ClientUpdate a ∧ ClientUpdate b) (hex : Executable a ∧ Executable b) :
    ∃ g : Service κ, StepRun.run (serviceStep env issued) freshService (bothOrders k l) = some g ∧
      (∀ r, Idle (g.replica r)) ∧ g.arrived 0 = [(k, a), (l, b)] ∧ g.arrived 1 = [(l, b), (k, a)] ∧
      g.arrived 2 = [(k, a), (l, b)] := by
  obtain ⟨g₀, hrun₀, hidle₀, harr₀, hother₀⟩ := serve_two env hkl hk hl hup hex
    (freshService_idle 0) rfl
  have h01 := hother₀ 1 (by decide)
  have h02 := hother₀ 2 (by decide)
  obtain ⟨g₁, hrun₁, hidle₁, harr₁, hother₁⟩ := serve_two env hkl.symm hl hk hup.symm hex.symm
    (by rw [h01.1]; exact freshService_idle 1) h01.2
  have h10 := hother₁ 0 (by decide)
  have h12 := hother₁ 2 (by decide)
  obtain ⟨g₂, hrun₂, hidle₂, harr₂, hother₂⟩ := serve_two env hkl hk hl hup hex
    (by rw [h12.1, h02.1]; exact freshService_idle 2) (h12.2.trans h02.2)
  have h20 := hother₂ 0 (by decide)
  have h21 := hother₂ 1 (by decide)
  refine ⟨g₂, StepRun.run_append_eq_some hrun₀ (StepRun.run_append_eq_some hrun₁ hrun₂), ?_, ?_, ?_, harr₂⟩
  · intro r
    fin_cases r
    · exact h20.1 ▸ h10.1 ▸ hidle₀
    · exact h21.1 ▸ hidle₁
    · exact hidle₂
  · rw [h20.2, h10.2, harr₀]
  · rw [h21.2, harr₁]

theorem disagree_of_conflict {env : Env} {issued : κ → List ClientRequest} {k l : κ}
    {a b : ClientRequest} (hkl : k ≠ l) (hk : issued k = [a]) (hl : issued l = [b])
    (hrest : ∀ x, x ≠ k → x ≠ l → issued x = [])
    (hup : ClientUpdate a ∧ ClientUpdate b) (hex : Executable a ∧ Executable b)
    (hconf : conflicts env a b = true) : ¬AgreeWhenServed env issued := by
  intro hagree
  obtain ⟨g, hrun, hidle, h0, h1, h2⟩ := bothOrders_run env hkl hk hl hup hex
  have horder : ∀ r, g.arrived r = [(k, a), (l, b)] ∨ g.arrived r = [(l, b), (k, a)] := by
    intro r
    fin_cases r
    · exact Or.inl h0
    · exact Or.inr h1
    · exact Or.inl h2
  have hserved : Served issued g := by
    intro r
    refine ⟨(hidle r).log, fun x => ?_⟩
    by_cases hxk : x = k
    · subst hxk
      rcases horder r with hr | hr
      · simp [Service.from, hr, hk, Ne.symm hkl]
      · simp [Service.from, hr, hk, Ne.symm hkl]
    · by_cases hxl : x = l
      · subst hxl
        rcases horder r with hr | hr
        · simp [Service.from, hr, hl, hkl]
        · simp [Service.from, hr, hl, hkl]
      · rcases horder r with hr | hr
        · simp [Service.from, hr, hrest x hxk hxl, Ne.symm hxk, Ne.symm hxl]
        · simp [Service.from, hr, hrest x hxk hxl, Ne.symm hxk, Ne.symm hxl]
  have hall : ∀ x, ∀ req ∈ issued x, ClientUpdate req := by
    intro x req hreq
    by_cases hxk : x = k
    · rw [hxk, hk] at hreq
      rw [List.mem_singleton.mp hreq]
      exact hup.1
    · by_cases hxl : x = l
      · rw [hxl, hl] at hreq
        rw [List.mem_singleton.mp hreq]
        exact hup.2
      · rw [hrest x hxk hxl] at hreq
        cases hreq
  obtain ⟨-, -, hcells⟩ := served_spec hall freshService_ready (fun _ => rfl) hrun hserved 0
  obtain ⟨-, -, hcells'⟩ := served_spec hall freshService_ready (fun _ => rfl) hrun hserved 1
  rw [h0] at hcells
  rw [h1] at hcells'
  obtain ⟨key, hne⟩ := conflict_differs hconf
  have hsame : cells (g.replica 0).store.htable (hashFunc key, key) =
      cells (g.replica 1).store.htable (hashFunc key, key) :=
    hagree _ freshService g _ freshService_ready (fun _ => rfl) hrun hserved 0 1 key
  rw [hcells, hcells'] at hsame
  exact hne hsame

/-- Whatever finite sequences the clients take from their pools of requests, and
whatever orders the replicas receive, the replicas agree: exactly when no two
requests in the pools of different clients conflict. -/
theorem active_replicas_agree_iff (env : Env) (pool : κ → Set ClientRequest)
    (hup : ∀ k, ∀ req ∈ pool k, ClientUpdate req) :
    (∀ issued : κ → List ClientRequest, (∀ k, ∀ req ∈ issued k, req ∈ pool k) →
        AgreeWhenServed env issued) ↔
      ∀ k l, k ≠ l → ∀ a ∈ pool k, ∀ b ∈ pool l, Executable a → Executable b →
        conflicts env a b = false := by
  constructor
  · intro hagree k l hkl a ha b hb hxa hxb
    by_contra hconf
    have hpair := hagree (fun x => if x = k then [a] else if x = l then [b] else []) (by
      intro x req hreq
      split at hreq
      · rename_i hx
        rw [hx, List.mem_singleton.mp hreq]
        exact ha
      · split at hreq
        · rename_i hx
          rw [hx, List.mem_singleton.mp hreq]
          exact hb
        · cases hreq)
    refine disagree_of_conflict hkl (if_pos rfl) ?_ ?_ ⟨hup k a ha, hup l b hb⟩ ⟨hxa, hxb⟩
      (by simpa using hconf) hpair
    · simp [Ne.symm hkl]
    · intro x hxk hxl
      simp [hxk, hxl]
  · intro hfree issued hissued
    refine agree_of_conflict_free (fun k req hreq => hup k req (hissued k req hreq)) ?_
    intro k l hkl a ha b hb
    exact hfree k l hkl a (hissued k a ha) b (hissued l b hb)

def addAndRemove (key : UInt64) : Bool → List ClientRequest
  | true => [addRequest (ascii "buy milk")]
  | false => [removeRequest key]

theorem active_replicas_agree_iff_otherKey :
    ∃ g, StepRun.run (serviceStep milkEnv (addAndRemove 7)) freshService (bothOrders true false) =
        some g ∧ Served (addAndRemove 7) g ∧
      ∀ r r' key, entriesOf (g.replica r).store.htable key = entriesOf (g.replica r').store.htable key := by
  have hup : ∀ k, ∀ req ∈ addAndRemove 7 k, ClientUpdate req := by decide +kernel
  have hfree : ∀ k l, k ≠ l → ∀ a ∈ addAndRemove 7 k, ∀ b ∈ addAndRemove 7 l,
      conflicts milkEnv a b = false := by decide +kernel
  have hend : (StepRun.run (serviceStep milkEnv (addAndRemove 7)) freshService
      (bothOrders true false)).any (fun g => decide (Served (addAndRemove 7) g)) = true := by
    decide +kernel
  obtain ⟨g, hrun, hserved⟩ := (Option.any_eq_true _ _).mp hend
  have hagree : AgreeWhenServed milkEnv (addAndRemove 7) :=
    (active_replicas_agree_iff milkEnv (fun k => { req | req ∈ addAndRemove 7 k }) hup).mpr
      (fun k l hkl a ha b hb _ _ => hfree k l hkl a ha b hb) (addAndRemove 7) (fun _ _ hreq => hreq)
  exact ⟨g, hrun, of_decide_eq_true hserved, hagree _ _ g _ freshService_ready (fun _ => rfl) hrun
    (of_decide_eq_true hserved)⟩

/-- The add and the remove of one key, executed in either order. -/
theorem active_replicas_disagree :
    ¬∀ issued : Bool → List ClientRequest, (∀ k, ∀ req ∈ issued k, ClientUpdate req) →
      AgreeWhenServed milkEnv issued := by
  intro h
  have hup : ∀ k, ∀ req ∈ addAndRemove milkKey k, ClientUpdate req := by decide +kernel
  have hend : (StepRun.run (serviceStep milkEnv (addAndRemove milkKey)) freshService
      (bothOrders true false)).any (fun g => decide (Served (addAndRemove milkKey) g ∧
        entriesOf (g.replica 0).store.htable milkKey ≠ entriesOf (g.replica 1).store.htable milkKey)) =
      true := by
    decide +kernel
  obtain ⟨g, hrun, hbad⟩ := (Option.any_eq_true _ _).mp hend
  obtain ⟨hserved, hne⟩ := of_decide_eq_true hbad
  exact hne (h (addAndRemove milkKey) hup _ _ g _ freshService_ready (fun _ => rfl) hrun hserved 0 1
    milkKey)

end ToDoList
