import ToDoList.Delivery

/-!
# Promotion of a backup

A request is marked `is_backlog` when it is logged by a PASSIVE_BACKUP. A
PASSIVE_PREPRIMARY becomes PASSIVE_PRIMARY when it executes a request that is
not marked, or finds its log empty. The mark says something about one request
only: a request logged before the backup period and still waiting makes the
server primary ahead of the whole backlog behind it.
-/

namespace ToDoList
open CLib

def noBacklog (log : List ClientCtx) : Prop := ∀ c ∈ log, c.isBacklog = false

instance (log : List ClientCtx) : Decidable (noBacklog log) :=
  inferInstanceAs (Decidable (∀ c ∈ log, c.isBacklog = false))

/-- The test at the start of `execute_msg`. -/
def promotes (p : Server × ClientCtx) : Bool :=
  p.1.repMode = .passiveRep && p.1.state = .passivePreprimary && !p.2.isBacklog

/-- Where an iteration of the NORMAL worker turns a PASSIVE_PREPRIMARY into a
PASSIVE_PRIMARY, in `execute_msg` or in `run`, no backlog is left in the log. -/
def PromotedReplayed (env : Env) (s : Server) : ServerEvent → Prop
  | .normal => (∀ p ∈ hdlNrlCalls env s, promotes p = true → noBacklog p.1.nrl) ∧
      ∀ t ∈ serverNext env s .normal, s.state = .passivePreprimary → t.state = .passivePrimary →
        noBacklog t.nrl
  | _ => True

/-- Role commands of passive replication. -/
def PassiveCommand (ctx : ClientCtx) : Prop :=
  ctx.req.msgType = .msgRepMgr → ctx.req.repMgrMsg.repMode = .passiveRep ∧
    (ctx.req.repMgrMsg.serverState = .passiveBackup ∨
      ctx.req.repMgrMsg.serverState = .passivePreprimary)

def PassiveRun (_ : Server) : ServerEvent → Prop
  | .connection _ ctx => PassiveCommand ctx
  | _ => True

/-- A backup takes a request for the NORMAL log only while that log holds
nothing but backlog. -/
def BacklogFirst (s : Server) : ServerEvent → Prop
  | .connection _ ctx => isPassiveBackup s = true → isControl ctx.req.msgType = false →
      ∀ c ∈ s.nrl, c.isBacklog = true
  | _ => True

structure BacklogInv (s : Server) : Prop where
  mode : s.repMode = .unknownRep ∨ s.repMode = .passiveRep
  prev : s.prevState = .unknownState
  commands : ∀ c ∈ s.ctrl, PassiveCommand c
  ordered : s.nrl.Pairwise fun a b => b.isBacklog = true → a.isBacklog = true
  thread : s.isChkptThrdRunning = true → s.state = .passivePrimary
  primary : s.state = .passivePrimary → noBacklog s.nrl

theorem noBacklog_of_ordered {c : ClientCtx} {rest : List ClientCtx}
    (h : (c :: rest).Pairwise fun a b => b.isBacklog = true → a.isBacklog = true)
    (hc : c.isBacklog = false) : noBacklog rest := by
  intro d hd
  have himp := (List.pairwise_cons.mp h).1 d hd
  cases hb : d.isBacklog with
  | false => rfl
  | true =>
    rw [himp hb] at hc
    cases hc

/-! ### What the steps do to the role -/

theorem executeMsg_backlog {env : Env} {s t : Server} {ctx : ClientCtx} {effs : List Effect}
    (h : executeMsg env s ctx = .ok (t, effs)) :
    ∃ store, (t = { s with store := store } ∧ promotes (s, ctx) = false) ∨
      (t = { promoted s with store := store } ∧ promotes (s, ctx) = true) := by
  unfold executeMsg at h
  dsimp only at h
  by_cases hp : s.repMode = .passiveRep ∧ s.state = .passivePreprimary ∧ ctx.isBacklog = false
  · have hpro : promotes (s, ctx) = true := by simp [promotes, hp]
    rw [if_pos hp, setState_primary s hp.1] at h
    dsimp only at h
    split at h
    · cases h
    · rename_i ret store ctx' hh
      cases h
      exact ⟨store, Or.inr ⟨rfl, hpro⟩⟩
  · have hpro : promotes (s, ctx) = false := by
      rw [← Bool.not_eq_true]
      intro hpro
      apply hp
      simpa [promotes, and_assoc] using hpro
    rw [if_neg hp] at h
    dsimp only at h
    split at h
    · cases h
    · rename_i ret store ctx' hh
      cases h
      exact ⟨store, Or.inl ⟨rfl, hpro⟩⟩

/-- A quiesce command fails its assertion in passive mode. -/
theorem quiesce_refused {s t : Server} {type : MsgType} {ret : ℤ} (h : BacklogInv s)
    (htype : isQuiesceCommand type = true) : handleQuiesceCommand s type ≠ .ok (ret, t) := by
  intro hok
  have hmode : stateAllowed s.repMode .quiesce = false ∧ stateAllowed s.repMode .unknownState = false := by
    rcases h.mode with hm | hm
    · rw [hm]
      exact ⟨rfl, rfl⟩
    · rw [hm]
      exact ⟨by decide, by decide⟩
  unfold handleQuiesceCommand at hok
  split at hok
  · simp [putInQuiesence, setState, hmode.1] at hok
    cases hok
  · split at hok
    · simp [removeFromQuiesence, setState, h.prev, hmode.2] at hok
      cases hok
    · simp_all [isQuiesceCommand]

theorem handleRepMsg_passive {s t : Server} {ctx : ClientCtx} (hmode : s.repMode = .unknownRep ∨
      s.repMode = .passiveRep) (htype : ctx.req.msgType = .msgRepMgr) (hcmd : PassiveCommand ctx)
    (h : handleRepMsg s ctx = .ok t) :
    t = { s with
      repMode := .passiveRep
      state := ctx.req.repMgrMsg.serverState
      isChkptThrdRunning := false
      bckupSvr := ctx.req.repMgrMsg.bckupSvr
      checkpointFreq := ctx.req.repMgrMsg.checkpointFreq } := by
  obtain ⟨hm, hs⟩ := hcmd htype
  have hset : (if s.repMode = .unknownRep then setMode s ctx.req.repMgrMsg.repMode else .ok s) =
      .ok { s with repMode := .passiveRep } := by
    rcases hmode with hu | hp
    · rw [if_pos hu, hm]
      simp [setMode, hu]
    · have hne : s.repMode ≠ .unknownRep := by
        rw [hp]
        decide
      rw [if_neg hne, ← hp]
  unfold handleRepMsg at h
  simp only [hset] at h
  rcases hs with hb | hb
  · simp [setState, stateAllowed, hb, killChkptThrdIfRunning] at h
    rw [hb]
    exact h.symm
  · simp [setState, stateAllowed, hb, killChkptThrdIfRunning] at h
    rw [hb]
    exact h.symm

/-! ### The steps keep the order -/

theorem handleConnection_backlog {s t : Server} {rand : ℕ} {ctx : ClientCtx} {effs : List Effect}
    (h : BacklogInv s) (hcmd : PassiveCommand ctx) (hfirst : BacklogFirst s (.connection rand ctx))
    (hstep : handleConnection s rand ctx = .ok (t, effs)) : BacklogInv t := by
  obtain ⟨u, ctx', hpark⟩ : ∃ u ctx', parkPayload s rand ctx = (u, ctx') := ⟨_, _, rfl⟩
  obtain ⟨⟨name, rfl⟩, hu⟩ := parkPayload_frame hpark
  have hinv : BacklogInv u := by
    rw [hu]
    exact ⟨h.mode, h.prev, h.commands, h.ordered, h.thread, h.primary⟩
  have hbackup : isPassiveBackup u = isPassiveBackup s := by rw [hu]; rfl
  have hlog : u.nrl = s.nrl := by rw [hu]
  rcases handleConnection_cases hpark hstep with ⟨hq, ⟨ret, hquiesce⟩, -⟩ | ⟨-, rfl, -⟩
  · exact absurd hquiesce (quiesce_refused hinv hq)
  · rcases enqueueClientReq_cases u { ctx with req := { ctx.req with filename := name } } with
      ⟨-, he⟩ | ⟨-, -, he⟩ | ⟨-, hc, he⟩
    · rw [he]
      exact ⟨hinv.mode, hinv.prev, hinv.commands, hinv.ordered, hinv.thread, hinv.primary⟩
    · rw [he]
      refine ⟨hinv.mode, hinv.prev, ?_, hinv.ordered, hinv.thread, hinv.primary⟩
      intro c hc
      rcases List.mem_append.mp hc with hc | hc
      · exact hinv.commands c hc
      · rw [List.mem_singleton.mp hc]
        exact hcmd
    · rw [he]
      refine ⟨hinv.mode, hinv.prev, hinv.commands, ?_, hinv.thread, ?_⟩
      · refine List.pairwise_append.mpr ⟨hinv.ordered, List.pairwise_singleton .., ?_⟩
        intro a ha b hb hback
        rw [List.mem_singleton.mp hb] at hback
        have hs : isPassiveBackup s = true := hbackup ▸ hback
        exact hfirst hs hc a (hlog ▸ ha)
      · intro hprim c hmem
        rcases List.mem_append.mp hmem with hmem | hmem
        · exact hinv.primary hprim c hmem
        · rw [List.mem_singleton.mp hmem]
          have hst : u.state = .passivePrimary := hprim
          simp [isPassiveBackup, hst]

theorem executeMsg_backlogInv {env : Env} {s t : Server} {ctx : ClientCtx} {rest : List ClientCtx}
    {effs : List Effect} (h : BacklogInv { s with nrl := ctx :: rest })
    (hexec : executeMsg env { s with nrl := rest } ctx = .ok (t, effs)) : BacklogInv t := by
  have htail := (List.pairwise_cons.mp h.ordered).2
  obtain ⟨store, ⟨rfl, -⟩ | ⟨rfl, hpro⟩⟩ := executeMsg_backlog hexec
  · refine ⟨h.mode, h.prev, h.commands, htail, h.thread, fun hprim c hc => ?_⟩
    exact h.primary hprim c (List.mem_cons_of_mem _ hc)
  · have hctx : ctx.isBacklog = false := by
      simp only [promotes, Bool.and_eq_true, Bool.not_eq_true'] at hpro
      exact hpro.2
    exact ⟨h.mode, h.prev, h.commands, htail, fun _ => rfl, fun _ => noBacklog_of_ordered h.ordered hctx⟩

theorem BacklogInv.discard {s : Server} {ctx : ClientCtx} {rest : List ClientCtx} {prune : Bool}
    (h : BacklogInv { s with nrl := ctx :: rest }) :
    BacklogInv { s with nrl := rest, isPrune := prune } where
  mode := h.mode
  prev := h.prev
  commands := h.commands
  ordered := (List.pairwise_cons.mp h.ordered).2
  thread := h.thread
  primary hprim c hc := h.primary hprim c (List.mem_cons_of_mem _ hc)

theorem pruneLoop_backlogInv {env : Env} {log : List ClientCtx} {s t : Server} {effs : List Effect}
    (h : BacklogInv s) (hlog : s.nrl = log) (hloop : pruneLoop env log s = .ok (t, effs)) :
    BacklogInv t := by
  induction log generalizing s t effs with
  | nil =>
    cases hloop
    exact h
  | cons c rest ih =>
    have hcons : BacklogInv { s with nrl := c :: rest } := by
      rw [← hlog]
      exact h
    rw [pruneLoop] at hloop
    split at hloop
    · split at hloop
      · cases hloop
      · rename_i hrest
        cases hloop
        exact ih (s := { s with nrl := rest }) (hcons.discard) rfl hrest
    · split at hloop
      · cases hloop
      · rename_i u effs₁ hexec
        split at hloop
        · cases hloop
        · rename_i hrest
          cases hloop
          have hu : BacklogInv u := executeMsg_backlogInv (s := { s with isPrune := false })
            ⟨hcons.mode, hcons.prev, hcons.commands, hcons.ordered, hcons.thread, hcons.primary⟩ hexec
          exact ih hu (executeMsg_frame hexec).1 hrest

theorem BacklogInv.promoted {s : Server} (h : BacklogInv s) (hnil : s.nrl = []) :
    BacklogInv (promoted s) where
  mode := h.mode
  prev := h.prev
  commands := h.commands
  ordered := h.ordered
  thread _ := rfl
  primary _ := by
    show noBacklog s.nrl
    rw [hnil]
    exact fun c hc => absurd hc List.not_mem_nil

theorem runNormal_backlogInv {env : Env} {s t : Server} {effs : List Effect} (h : BacklogInv s)
    (hrun : runNormal env s = .ok (t, effs)) : BacklogInv t := by
  rcases runNormal_cases hrun with ⟨-, hturn⟩ | ⟨-, u, hloop, ht⟩
  · rcases normalTurn_calls hturn with ⟨-, -, rfl | ⟨-, hnil, rfl⟩⟩ | ⟨c, rest, hlog, -, hexec⟩
    · exact h
    · exact h.promoted hnil
    · refine executeMsg_backlogInv ?_ hexec
      rw [← hlog]
      exact h
  · have hu := pruneLoop_backlogInv h rfl hloop
    rcases ht with rfl | ⟨-, rfl⟩
    · exact hu
    · exact hu.promoted (pruneLoop_frame hloop rfl).1

theorem runControl_backlogInv {env : Env} {s t : Server} {effs : List Effect} (h : BacklogInv s)
    (hrun : runControl env s = .ok (t, effs)) : BacklogInv t := by
  rcases runControl_cases hrun with ⟨-, rfl, -⟩ | ⟨ctx, rest, hlog, hexec⟩
  · exact h
  · have hrest : ∀ c ∈ rest, PassiveCommand c := fun c hc =>
      h.commands c (by rw [hlog]; exact List.mem_cons_of_mem _ hc)
    obtain ⟨body, -, ⟨htype, hrep, -⟩ | ⟨-, -, hsend⟩ | ⟨rfl, -⟩⟩ := executeMsgCtrl_cases hexec
    · have hcmd := h.commands ctx (by rw [hlog]; exact List.mem_cons_self ..)
      have hstate : ctx.req.repMgrMsg.serverState ≠ .passivePrimary := by
        rcases (hcmd htype).2 with hs | hs
        · rw [hs]
          decide
        · rw [hs]
          decide
      rw [handleRepMsg_passive (s := { s with ctrl := rest }) h.mode htype hcmd hrep]
      exact ⟨Or.inr rfl, h.prev, hrest, h.ordered, fun hon => absurd hon Bool.false_ne_true,
        fun hprim => absurd hprim hstate⟩
    · obtain ⟨file, -, rfl, -⟩ := sendCheckpoint_cases hsend
      exact ⟨h.mode, h.prev, hrest, h.ordered, h.thread, h.primary⟩
    · exact ⟨h.mode, h.prev, hrest, h.ordered, h.thread, h.primary⟩

theorem serverNext_backlogInv {env : Env} {s t : Server} {e : ServerEvent} (h : BacklogInv s)
    (hcmd : PassiveRun s e) (hfirst : BacklogFirst s e) (hstep : serverNext env s e = some t) :
    BacklogInv t := by
  obtain ⟨effs, hs⟩ := serverNext_eq_some hstep
  cases e with
  | connection rand ctx => exact handleConnection_backlog h hcmd hfirst hs
  | reject ctx msg =>
    cases hs
    exact h
  | normal => exact runNormal_backlogInv h hs
  | control => exact runControl_backlogInv h hs
  | chkptThread =>
    obtain ⟨n, rfl⟩ := chkptThread_cases hs
    exact ⟨h.mode, h.prev, h.commands, h.ordered, h.thread, h.primary⟩

/-! ### Promotions -/

theorem pruneCalls_replayed (env : Env) (log : List ClientCtx) (s : Server) (h : BacklogInv s)
    (hlog : s.nrl = log) :
    ∀ p ∈ pruneCalls env log s, promotes p = true → noBacklog p.1.nrl := by
  have hcons : ∀ (c : ClientCtx) (rest : List ClientCtx) (s : Server), BacklogInv s ∧ s.nrl = c :: rest →
      BacklogInv { s with nrl := c :: rest } := by
    rintro c rest s ⟨h, hlog⟩
    rw [← hlog]
    exact h
  refine pruneCalls_forall (I := fun log s => BacklogInv s ∧ s.nrl = log) ?_ ?_ ?_ log s ⟨h, hlog⟩
  · intro c rest s h
    exact ⟨(hcons c rest s h).discard, rfl⟩
  · intro c rest s t effs h hexec
    have hcons := hcons c rest s h
    refine ⟨executeMsg_backlogInv (s := { s with isPrune := false }) ?_ hexec,
      (executeMsg_frame hexec).1⟩
    exact ⟨hcons.mode, hcons.prev, hcons.commands, hcons.ordered, hcons.thread, hcons.primary⟩
  · rintro c rest s ⟨h, hlog⟩ hpro
    have hord := h.ordered
    rw [hlog] at hord
    refine noBacklog_of_ordered hord ?_
    simp only [promotes, Bool.and_eq_true, Bool.not_eq_true'] at hpro
    exact hpro.2

theorem promotedReplayed_of_inv (env : Env) (s : Server) (e : ServerEvent) (h : BacklogInv s) :
    PromotedReplayed env s e := by
  cases e with
  | normal =>
    refine ⟨?_, fun t ht _ hprim => ?_⟩
    · unfold hdlNrlCalls
      split
      · exact pruneCalls_replayed env s.nrl s h rfl
      · intro p hp hpro
        rcases turnCalls_cases s with hcalls | ⟨ctx, rest, hlog, -, -, hcalls⟩
        · rw [hcalls] at hp
          exact absurd hp List.not_mem_nil
        · rw [hcalls] at hp
          obtain rfl := List.mem_singleton.mp hp
          have hord := h.ordered
          rw [hlog] at hord
          refine noBacklog_of_ordered hord ?_
          simp only [promotes, Bool.and_eq_true, Bool.not_eq_true'] at hpro
          exact hpro.2
    · obtain ⟨effs, hs⟩ := serverNext_eq_some ht
      exact (runNormal_backlogInv h hs).primary hprim
  | connection rand ctx => trivial
  | reject ctx msg => trivial
  | control => trivial
  | chkptThread => trivial

theorem bootServer_backlogInv (serverId : ℤ) : BacklogInv (bootServer serverId) where
  mode := Or.inl rfl
  prev := rfl
  commands c hc := absurd hc List.not_mem_nil
  ordered := List.Pairwise.nil
  thread h := absurd h Bool.false_ne_true
  primary h := by cases h

/-- In every run under passive role commands in which a backup logs requests
only behind backlog, promotion comes behind the backlog, and while a checkpoint
thread runs there is none left. -/
theorem promotion_follows_backlog (env : Env) (serverId : ℤ) (es : List ServerEvent)
    (hcmd : StepRun.AllSteps (serverNext env) PassiveRun (bootServer serverId) es)
    (hfirst : StepRun.AllSteps (serverNext env) BacklogFirst (bootServer serverId) es) :
    StepRun.AllSteps (serverNext env)
      (fun s e => PromotedReplayed env s e ∧ (s.isChkptThrdRunning = true → noBacklog s.nrl))
      (bootServer serverId) es := by
  have hboth : StepRun.AllSteps (serverNext env) (fun s e => PassiveRun s e ∧ BacklogFirst s e)
      (bootServer serverId) es := StepRun.allSteps_and hcmd hfirst
  exact StepRun.allSteps_of_invariant (I := BacklogInv)
    (fun s e t hs he hstep => serverNext_backlogInv hs he.1 he.2 hstep)
    (fun s e hs _ => ⟨promotedReplayed_of_inv env s e hs, fun hon => hs.primary (hs.thread hon)⟩)
    (bootServer_backlogInv serverId) hboth

/-! ### Two runs -/

instance (ctx : ClientCtx) : Decidable (PassiveCommand ctx) :=
  inferInstanceAs (Decidable (ctx.req.msgType = .msgRepMgr →
    ctx.req.repMgrMsg.repMode = .passiveRep ∧
      (ctx.req.repMgrMsg.serverState = .passiveBackup ∨
        ctx.req.repMgrMsg.serverState = .passivePreprimary)))

instance decidablePassiveRun (s : Server) (e : ServerEvent) : Decidable (PassiveRun s e) :=
  match e with
  | .connection _ ctx => inferInstanceAs (Decidable (PassiveCommand ctx))
  | .reject _ _ => isTrue trivial
  | .normal => isTrue trivial
  | .control => isTrue trivial
  | .chkptThread => isTrue trivial

instance decidableBacklogFirst (s : Server) (e : ServerEvent) : Decidable (BacklogFirst s e) :=
  match e with
  | .connection _ ctx => inferInstanceAs (Decidable (isPassiveBackup s = true →
      isControl ctx.req.msgType = false → ∀ c ∈ s.nrl, c.isBacklog = true))
  | .reject _ _ => isTrue trivial
  | .normal => isTrue trivial
  | .control => isTrue trivial
  | .chkptThread => isTrue trivial

def passiveRole (state : ServerStates) : ClientCtx :=
  { fd := 4, req :=
      { msgType := .msgRepMgr, repMgrMsg := { repMode := .passiveRep, serverState := state } } }

def drainedRun : List ServerEvent :=
  [.connection 0 (passiveRole .passiveBackup), .control,
    .connection 0 { fd := 5, req := removeRequest 7 },
    .connection 0 (passiveRole .passivePreprimary), .control, .normal, .normal, .chkptThread]

theorem promotion_follows_backlog_drainedRun :
    StepRun.AllSteps (serverNext (zeroEnv fun _ => none))
      (fun s e => PromotedReplayed (zeroEnv fun _ => none) s e ∧
        (s.isChkptThrdRunning = true → noBacklog s.nrl)) (bootServer 1) drainedRun :=
  promotion_follows_backlog _ 1 drainedRun (by decide +kernel) (by decide +kernel)

def earlyRequest : List ServerEvent :=
  [.connection 0 { fd := 4, req := removeRequest 5 }, .connection 0 (passiveRole .passiveBackup),
    .control, .connection 0 { fd := 5, req := removeRequest 7 },
    .connection 0 (passiveRole .passivePreprimary), .control]

/-- The early request makes the server primary, with its checkpoint thread
started, while a request of the backup period still waits. -/
theorem promotion_ahead_of_backlog :
    StepRun.AllSteps (serverNext (zeroEnv fun _ => none)) PassiveRun (bootServer 1) earlyRequest ∧
      ∃ s t, StepRun.run (serverNext (zeroEnv fun _ => none)) (bootServer 1) earlyRequest = some s ∧
        ¬PromotedReplayed (zeroEnv fun _ => none) s .normal ∧
        serverNext (zeroEnv fun _ => none) s .normal = some t ∧
        t.state = .passivePrimary ∧ t.isChkptThrdRunning = true ∧ ¬noBacklog t.nrl := by
  refine ⟨by decide +kernel, ?_⟩
  have hend : (StepRun.run (serverNext (zeroEnv fun _ => none)) (bootServer 1) earlyRequest).any
      (fun s => s.state = .passivePreprimary ∧ (serverNext (zeroEnv fun _ => none) s .normal).any
        (fun t => t.state = .passivePrimary ∧ t.isChkptThrdRunning = true ∧ ¬noBacklog t.nrl) = true) =
      true := by decide +kernel
  obtain ⟨s, hrun, hs⟩ := (Option.any_eq_true _ _).mp hend
  obtain ⟨hpre, hnext⟩ := of_decide_eq_true hs
  obtain ⟨t, hstep, ht⟩ := (Option.any_eq_true _ _).mp hnext
  obtain ⟨hprim, hon, hleft⟩ := of_decide_eq_true ht
  exact ⟨s, t, hrun, fun h => hleft (h.2 t hstep hpre hprim), hstep, hprim, hon, hleft⟩

end ToDoList
