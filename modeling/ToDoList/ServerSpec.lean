import ToDoList.Server

/-!
# What the steps of a server can do

One lemma for each function of Server.lean that lists its outcomes. The
developments on pruning, descriptors and replication use these and do not
unfold the functions again.
-/

namespace ToDoList
open CLib

/-! ### Roles -/

theorem setState_cases {s t : Server} {sState : ServerStates} (h : setState s sState = .ok t) :
    stateAllowed s.repMode sState = true ∧
      ∃ running, t = { s with state := sState, isChkptThrdRunning := running } := by
  unfold setState at h
  split at h
  · rename_i hallow
    refine ⟨hallow, ?_⟩
    cases h
    split
    · split
      · exact ⟨true, rfl⟩
      · split
        · exact ⟨false, rfl⟩
        · exact ⟨s.isChkptThrdRunning, rfl⟩
    · exact ⟨s.isChkptThrdRunning, rfl⟩
  · cases h

/-- What `set_state(PASSIVE_PRIMARY)` does in passive mode. -/
def promoted (s : Server) : Server :=
  { s with isChkptThrdRunning := true, state := .passivePrimary }

theorem setState_primary (s : Server) (h : s.repMode = .passiveRep) :
    setState s .passivePrimary = .ok (promoted s) := by
  simp [setState, stateAllowed, h, startCkhptThread, promoted]

theorem handleQuiesceCommand_cases {s t : Server} {type : MsgType} {ret : ℤ}
    (h : handleQuiesceCommand s type = .ok (ret, t)) :
    ∃ state prev running,
      t = { s with state := state, prevState := prev, isChkptThrdRunning := running } := by
  unfold handleQuiesceCommand at h
  split at h
  · unfold putInQuiesence at h
    cases hs : setState { s with prevState := s.state } .quiesce with
    | error f =>
      rw [hs] at h
      cases h
    | ok u =>
      rw [hs] at h
      cases h
      obtain ⟨-, running, rfl⟩ := setState_cases hs
      exact ⟨_, _, running, rfl⟩
  · split at h
    · unfold removeFromQuiesence at h
      cases hs : setState s s.prevState with
      | error f =>
        rw [hs] at h
        cases h
      | ok u =>
        rw [hs] at h
        cases h
        obtain ⟨-, running, rfl⟩ := setState_cases hs
        exact ⟨_, _, running, rfl⟩
    · cases h
      exact ⟨_, _, _, rfl⟩

/-! ### Connection threads -/

def hasRoom (s : Server) (type : MsgType) : Bool :=
  if isControl type then s.ctrl.length < s.ctrlQLimit else s.nrl.length < s.nrlQLimit

def pruneAfter (s : Server) (type : MsgType) : Bool :=
  s.isPrune || (type = MsgType.msgChkPt && isPassiveBackup s)

theorem enqueueClientReq_cases (s : Server) (ctx : ClientCtx) :
    (hasRoom s ctx.req.msgType = false ∧
      enqueueClientReq s ctx = (-1, { s with isPrune := pruneAfter s ctx.req.msgType })) ∨
    (hasRoom s ctx.req.msgType = true ∧ isControl ctx.req.msgType = true ∧
      enqueueClientReq s ctx = (0, { s with
        isPrune := pruneAfter s ctx.req.msgType,
        ctrl := s.ctrl ++ [{ ctx with isBacklog := isPassiveBackup s }] })) ∨
    (hasRoom s ctx.req.msgType = true ∧ isControl ctx.req.msgType = false ∧
      enqueueClientReq s ctx = (0, { s with
        isPrune := pruneAfter s ctx.req.msgType,
        nrl := s.nrl ++ [{ ctx with isBacklog := isPassiveBackup s }] })) := by
  unfold enqueueClientReq enqueue hasRoom
  dsimp only
  cases hc : isControl ctx.req.msgType with
  | true =>
    by_cases hl : s.ctrlQLimit ≤ s.ctrl.length
    · simp [hl, pruneAfter]
    · simp [hl, not_le.mp hl, pruneAfter]
  | false =>
    by_cases hl : s.nrlQLimit ≤ s.nrl.length
    · simp [hl, pruneAfter]
    · simp [hl, not_le.mp hl, pruneAfter]

theorem enqueueClientReq_role (s : Server) (ctx : ClientCtx) :
    (enqueueClientReq s ctx).2.repMode = s.repMode ∧ (enqueueClientReq s ctx).2.state = s.state := by
  rcases enqueueClientReq_cases s ctx with ⟨-, he⟩ | ⟨-, -, he⟩ | ⟨-, -, he⟩
  · rw [he]
    exact ⟨rfl, rfl⟩
  · rw [he]
    exact ⟨rfl, rfl⟩
  · rw [he]
    exact ⟨rfl, rfl⟩

theorem parkPayload_cases (s : Server) (rand : ℕ) (ctx : ClientCtx) :
    (ctx.req.payload.size = 0 ∧ parkPayload s rand ctx = (s, ctx)) ∨
    (ctx.req.payload.size ≠ 0 ∧ parkPayload s rand ctx =
      ({ s with store := ⟨s.store.htable,
          Function.update s.store.files (tmpName s rand) (some ctx.req.payload.data)⟩ },
        { ctx with req := { ctx.req with filename := tmpName s rand } })) := by
  unfold parkPayload
  by_cases h : ctx.req.payload.size = 0
  · exact Or.inl ⟨h, by rw [if_pos h]⟩
  · exact Or.inr ⟨h, by rw [if_neg h]⟩

theorem parkPayload_frame {s u : Server} {rand : ℕ} {ctx ctx' : ClientCtx}
    (h : parkPayload s rand ctx = (u, ctx')) :
    (∃ name, ctx' = { ctx with req := { ctx.req with filename := name } }) ∧
      u = { s with store := u.store } := by
  rcases parkPayload_cases s rand ctx with ⟨-, hp⟩ | ⟨-, hp⟩
  · rw [hp] at h
    cases h
    exact ⟨⟨ctx.req.filename, rfl⟩, rfl⟩
  · rw [hp] at h
    cases h
    exact ⟨⟨_, rfl⟩, rfl⟩

theorem handleConnection_cases {s t u : Server} {rand : ℕ} {ctx ctx' : ClientCtx}
    {effs : List Effect} (hpark : parkPayload s rand ctx = (u, ctx'))
    (h : handleConnection s rand ctx = .ok (t, effs)) :
    (isQuiesceCommand ctx'.req.msgType = true ∧
      (∃ ret, handleQuiesceCommand u ctx'.req.msgType = .ok (ret, t)) ∧ effs = closeFd ctx') ∨
    (isQuiesceCommand ctx'.req.msgType = false ∧ t = (enqueueClientReq u ctx').2 ∧
      (((enqueueClientReq u ctx').1 ≠ 0 ∧ effs = closeFd ctx') ∨
        ((enqueueClientReq u ctx').1 = 0 ∧ earlyClose t ctx'.req.msgType = true ∧
          effs = [.close ctx'.fd ctx'.conn]) ∨
        ((enqueueClientReq u ctx').1 = 0 ∧ earlyClose t ctx'.req.msgType = false ∧ effs = []))) := by
  unfold handleConnection at h
  rw [hpark] at h
  dsimp only at h
  split at h
  · rename_i hq
    split at h
    · cases h
    · rename_i ret v hv
      cases h
      exact Or.inl ⟨hq, ⟨ret, hv⟩, rfl⟩
  · rename_i hq
    refine Or.inr ⟨by simpa using hq, ?_⟩
    split at h
    · rename_i hr
      cases h
      exact ⟨rfl, Or.inl ⟨hr, rfl⟩⟩
    · rename_i hr
      have hr0 := not_not.mp hr
      split at h
      · rename_i he
        cases h
        exact ⟨rfl, Or.inr (Or.inl ⟨hr0, he, rfl⟩)⟩
      · rename_i he
        cases h
        exact ⟨rfl, Or.inr (Or.inr ⟨hr0, by simpa using he, rfl⟩)⟩

/-! ### Executing requests -/

theorem handleStorage_ctx {env : Env} {s u : Store} {ctx ctx' : ClientCtx} {ret : ℤ}
    (h : handleStorage env s ctx = .ok (ret, u, ctx')) :
    ctx'.fd = ctx.fd ∧ ctx'.conn = ctx.conn := by
  unfold handleStorage at h
  dsimp only at h
  split at h
  · split at h
    · cases h
    · split at h
      · cases h
      · cases h
        exact ⟨rfl, rfl⟩
  all_goals first
    | (cases h; exact ⟨rfl, rfl⟩)
    | (split at h
       · cases h
       · cases h
         exact ⟨rfl, rfl⟩)

/-- The file of a checkpoint is removed behind its import; no other request
touches the files. -/
theorem handleStorage_files {env : Env} {s u : Store} {ctx ctx' : ClientCtx} {ret : ℤ}
    (h : handleStorage env s ctx = .ok (ret, u, ctx')) :
    u.files = if ctx.req.msgType = .msgChkPt then Function.update s.files ctx.req.filename none
      else s.files := by
  unfold handleStorage at h
  dsimp only at h
  split at h
  · rename_i htype
    rw [htype, if_neg (by decide)]
    split at h
    · cases h
    · split at h
      · cases h
      · cases h
        rfl
  · rename_i htype
    rw [htype, if_neg (by decide)]
    split at h
    · cases h
    · cases h
      rfl
  · rename_i htype
    rw [htype, if_neg (by decide)]
    cases h
    rfl
  · rename_i htype
    rw [htype, if_neg (by decide)]
    split at h
    · cases h
    · cases h
      rfl
  · rename_i htype
    rw [htype, if_neg (by decide)]
    cases h
    rfl
  · rename_i htype
    rw [htype, if_neg (by decide)]
    cases h
    rfl
  · rename_i htype
    rw [htype, if_pos rfl]
    split at h
    · cases h
    · cases h
      rfl
  · rename_i hchk
    rw [if_neg (by assumption)]
    cases h
    rfl

theorem executeMsg_cases {env : Env} {s t : Server} {ctx : ClientCtx} {effs : List Effect}
    (h : executeMsg env s ctx = .ok (t, effs)) :
    ∃ ret store ctx' fail, handleStorage env s.store ctx = .ok (ret, store, ctx') ∧
      (t = { s with store := store } ∨
        (s.repMode = .passiveRep ∧ s.state = .passivePreprimary ∧
          t = { promoted s with store := store })) ∧
      (fail = [] ∨ fail = [writeClientResponce t ctx' "FAIL" "Check inputs"]) ∧
      effs = .exec ctx :: fail ++ [writeClientResponce t ctx' "OK" "Success"] ++ closeFd ctx' := by
  unfold executeMsg at h
  dsimp only at h
  by_cases hp : s.repMode = .passiveRep ∧ s.state = .passivePreprimary ∧ ctx.isBacklog = false
  · rw [if_pos hp, setState_primary s hp.1] at h
    dsimp only at h
    have hstore : (promoted s).store = s.store := rfl
    rw [hstore] at h
    cases hh : handleStorage env s.store ctx with
    | error f =>
      rw [hh] at h
      cases h
    | ok r =>
      obtain ⟨ret, store, ctx'⟩ := r
      rw [hh] at h
      cases h
      refine ⟨ret, store, ctx', _, rfl, Or.inr ⟨hp.1, hp.2.1, rfl⟩, ?_, rfl⟩
      split
      · exact Or.inr rfl
      · exact Or.inl rfl
  · rw [if_neg hp] at h
    dsimp only at h
    cases hh : handleStorage env s.store ctx with
    | error f =>
      rw [hh] at h
      cases h
    | ok r =>
      obtain ⟨ret, store, ctx'⟩ := r
      rw [hh] at h
      cases h
      refine ⟨ret, store, ctx', _, rfl, Or.inl rfl, ?_, rfl⟩
      split
      · exact Or.inr rfl
      · exact Or.inl rfl

theorem executeMsg_frame {env : Env} {s t : Server} {ctx : ClientCtx} {effs : List Effect}
    (h : executeMsg env s ctx = .ok (t, effs)) :
    t.nrl = s.nrl ∧ t.ctrl = s.ctrl ∧ t.isPrune = s.isPrune ∧ t.repMode = s.repMode := by
  obtain ⟨ret, store, ctx', fail, -, rfl | ⟨-, -, rfl⟩, -, -⟩ := executeMsg_cases h
  · exact ⟨rfl, rfl, rfl, rfl⟩
  · exact ⟨rfl, rfl, rfl, rfl⟩

theorem handleRepMsg_cases {s t : Server} {ctx : ClientCtx} (h : handleRepMsg s ctx = .ok t) :
    ∃ repMode state running bckupSvr freq, t = { s with
      repMode := repMode, state := state, isChkptThrdRunning := running,
      bckupSvr := bckupSvr, checkpointFreq := freq } := by
  unfold handleRepMsg at h
  dsimp only at h
  split at h
  · cases h
  · rename_i u hu
    have hmode : ∃ m, u = { s with repMode := m } := by
      split at hu
      · unfold setMode at hu
        split at hu
        · cases hu
          exact ⟨_, rfl⟩
        · cases hu
      · cases hu
        exact ⟨_, rfl⟩
    obtain ⟨m, rfl⟩ := hmode
    obtain ⟨-, running, rfl⟩ := setState_cases h
    exact ⟨_, _, _, _, _, rfl⟩

theorem handleRepMsg_state {s t : Server} {ctx : ClientCtx} (h : handleRepMsg s ctx = .ok t) :
    t.state = ctx.req.repMgrMsg.serverState := by
  unfold handleRepMsg at h
  dsimp only at h
  split at h
  · cases h
  · obtain ⟨-, running, rfl⟩ := setState_cases h
    rfl

theorem sendCheckpoint_cases {env : Env} {s t : Server} {effs : List Effect}
    (h : sendCheckpoint env s = .ok (t, effs)) :
    ∃ file, exportDbInternal env s.store.htable = .ok file ∧
      t = { s with chkPointNum := s.chkPointNum + 1 } ∧
      effs = [.checkpoint s.bckupSvr.1 s.serverId s.chkPointNum file,
        .checkpoint s.bckupSvr.2 s.serverId s.chkPointNum file] := by
  unfold sendCheckpoint at h
  split at h
  · cases h
  · rename_i file hfile
    cases h
    exact ⟨file, hfile, rfl, rfl⟩

/-- A control message changes the role, or the checkpoint number, or nothing. -/
theorem executeMsgCtrl_cases {env : Env} {s t : Server} {ctx : ClientCtx} {effs : List Effect}
    (h : executeMsgCtrl env s ctx = .ok (t, effs)) :
    ∃ body, effs = body ++ [writeClientResponce t ctx "OK" "Success"] ++ closeFd ctx ∧
      ((ctx.req.msgType = .msgRepMgr ∧ handleRepMsg s ctx = .ok t ∧ body = []) ∨
        (ctx.req.msgType = .msgSendChkpt ∧ s.prevState ≠ .activeRecover ∧
          sendCheckpoint env s = .ok (t, body)) ∨
        (t = s ∧ body = [])) := by
  unfold executeMsgCtrl at h
  dsimp only at h
  split at h
  · cases h
  · rename_i u body hbody
    cases h
    refine ⟨body, rfl, ?_⟩
    split at hbody
    · rename_i htype
      split at hbody
      · cases hbody
      · rename_i v hv
        cases hbody
        exact Or.inl ⟨htype, hv, rfl⟩
    · rename_i htype
      split at hbody
      · rename_i hp
        exact Or.inr (Or.inl ⟨htype, hp, hbody⟩)
      · cases hbody
        exact Or.inr (Or.inr ⟨rfl, rfl⟩)
    · cases hbody
      exact Or.inr (Or.inr ⟨rfl, rfl⟩)

theorem executeMsgCtrl_frame {env : Env} {s t : Server} {ctx : ClientCtx} {effs : List Effect}
    (h : executeMsgCtrl env s ctx = .ok (t, effs)) :
    t.nrl = s.nrl ∧ t.ctrl = s.ctrl ∧ t.isPrune = s.isPrune ∧ t.store = s.store := by
  obtain ⟨body, -, ⟨-, hrep, -⟩ | ⟨-, -, hsend⟩ | ⟨rfl, -⟩⟩ := executeMsgCtrl_cases h
  · obtain ⟨_, _, _, _, _, rfl⟩ := handleRepMsg_cases hrep
    exact ⟨rfl, rfl, rfl, rfl⟩
  · obtain ⟨file, -, rfl, -⟩ := sendCheckpoint_cases hsend
    exact ⟨rfl, rfl, rfl, rfl⟩
  · exact ⟨rfl, rfl, rfl, rfl⟩

/-! ### The workers -/

/-- Behind the prune loop an iteration does nothing, makes a preprimary without
requests the primary, or executes the oldest request. -/
theorem normalTurn_inv {env : Env} {s t : Server} {effs : List Effect}
    (h : normalTurn env s = .ok (t, effs)) :
    (effs = [] ∧ t = s ∧
      ((s.isPrune = false ∧ isPassiveBackup s = true) ∨ s.nrl = [] ∨ s.state = .quiesce)) ∨
    (effs = [] ∧ s.state = .passivePreprimary ∧ s.nrl = [] ∧ t = promoted s) ∨
      ∃ ctx rest, s.nrl = ctx :: rest ∧
        (¬(s.isPrune = false ∧ isPassiveBackup s = true) ∧ s.state ≠ .quiesce) ∧
        executeMsg env { s with nrl := rest } ctx = .ok (t, effs) := by
  unfold normalTurn at h
  dsimp only at h
  by_cases hsleep : s.isPrune = false ∧ isPassiveBackup s = true
  · rw [if_pos hsleep] at h
    cases h
    exact Or.inl ⟨rfl, rfl, Or.inl hsleep⟩
  rw [if_neg hsleep] at h
  by_cases hp : s.repMode = .passiveRep ∧ s.state = .passivePreprimary ∧ s.nrl = []
  · rw [if_pos hp, setState_primary s hp.1] at h
    dsimp only at h
    have hnil : (promoted s).nrl = [] := hp.2.2
    rw [hnil] at h
    cases h
    exact Or.inr (Or.inl ⟨rfl, hp.2.1, hp.2.2, rfl⟩)
  rw [if_neg hp] at h
  dsimp only at h
  cases hlog : s.nrl with
  | nil =>
    rw [hlog] at h
    cases h
    exact Or.inl ⟨rfl, rfl, Or.inr (Or.inl rfl)⟩
  | cons ctx rest =>
    rw [hlog] at h
    dsimp only at h
    by_cases hq : s.state = .quiesce
    · rw [if_pos hq] at h
      cases h
      exact Or.inl ⟨rfl, rfl, Or.inr (Or.inr hq)⟩
    · rw [if_neg hq] at h
      exact Or.inr (Or.inr ⟨ctx, rest, rfl, ⟨hsleep, hq⟩, h⟩)

theorem normalTurn_cases {env : Env} {s t : Server} {effs : List Effect}
    (h : normalTurn env s = .ok (t, effs)) :
    (effs = [] ∧ (t = s ∨ (s.state = .passivePreprimary ∧ t = promoted s))) ∨
      ∃ ctx rest, s.nrl = ctx :: rest ∧
        (¬(s.isPrune = false ∧ isPassiveBackup s = true) ∧ s.state ≠ .quiesce) ∧
        executeMsg env { s with nrl := rest } ctx = .ok (t, effs) := by
  rcases normalTurn_inv h with ⟨heffs, ht, -⟩ | ⟨heffs, hpre, -, ht⟩ | hexec
  · exact Or.inl ⟨heffs, Or.inl ht⟩
  · exact Or.inl ⟨heffs, Or.inr ⟨hpre, ht⟩⟩
  · exact Or.inr hexec

theorem pruneLoop_frame {env : Env} {log : List ClientCtx} {s t : Server} {effs : List Effect}
    (h : pruneLoop env log s = .ok (t, effs)) (hs : s.nrl = log) : t.nrl = [] ∧ t.ctrl = s.ctrl := by
  induction log generalizing s effs with
  | nil =>
    cases h
    exact ⟨hs, rfl⟩
  | cons c rest ih =>
    rw [pruneLoop] at h
    split at h
    · split at h
      · cases h
      · rename_i hloop
        cases h
        have hrest := ih hloop rfl
        exact hrest
    · split at h
      · cases h
      · rename_i u effs₁ hexec
        split at h
        · cases h
        · rename_i hloop
          cases h
          obtain ⟨hnrl, hctrl, -, -⟩ := executeMsg_frame hexec
          obtain ⟨hn, hc⟩ := ih hloop hnrl
          exact ⟨hn, hc.trans hctrl⟩

/-- An iteration with the flag down is one turn; with the flag up it empties
the log, and the turn behind the loop finds nothing to execute. -/
theorem runNormal_cases {env : Env} {s t : Server} {effs : List Effect}
    (h : runNormal env s = .ok (t, effs)) :
    (s.isPrune = false ∧ normalTurn env s = .ok (t, effs)) ∨
      (s.isPrune = true ∧ ∃ u, pruneLoop env s.nrl s = .ok (u, effs) ∧
        (t = u ∨ (u.state = .passivePreprimary ∧ t = promoted u))) := by
  unfold runNormal at h
  split at h
  · cases h
  · rename_i u effs₁ hfirst
    split at h
    · cases h
    · rename_i v effs₂ hturn
      cases h
      cases hp : s.isPrune with
      | false =>
        rw [hp] at hfirst
        cases hfirst
        exact Or.inl ⟨rfl, hturn⟩
      | true =>
        rw [if_pos hp] at hfirst
        have hnil := (pruneLoop_frame hfirst rfl).1
        rcases normalTurn_cases hturn with ⟨rfl, ht⟩ | ⟨c, rest, hlog, -, -⟩
        · exact Or.inr ⟨rfl, u, by rw [hfirst, List.append_nil], ht⟩
        · rw [hnil] at hlog
          cases hlog

/-- The role, the role before QUIESCE and the CONTROL log are the same. -/
structure SameRole (s t : Server) : Prop where
  mode : t.repMode = s.repMode
  state : t.state = s.state
  prev : t.prevState = s.prevState
  ctrl : t.ctrl = s.ctrl

theorem executeMsg_sameRole {env : Env} {s t : Server} {ctx : ClientCtx} {effs : List Effect}
    (h : executeMsg env s ctx = .ok (t, effs)) (hs : s.state ≠ .passivePreprimary) : SameRole s t := by
  obtain ⟨ret, store, ctx', fail, -, rfl | ⟨-, hpre, -⟩, -, -⟩ := executeMsg_cases h
  · exact ⟨rfl, rfl, rfl, rfl⟩
  · exact absurd hpre hs

theorem pruneLoop_sameRole {env : Env} {log : List ClientCtx} {s t : Server} {effs : List Effect}
    (h : pruneLoop env log s = .ok (t, effs)) (hs : s.state ≠ .passivePreprimary) : SameRole s t := by
  induction log generalizing s t effs with
  | nil =>
    cases h
    exact ⟨rfl, rfl, rfl, rfl⟩
  | cons c rest ih =>
    rw [pruneLoop] at h
    split at h
    · split at h
      · cases h
      · rename_i hloop
        cases h
        have hrest := ih hloop hs
        exact ⟨hrest.mode, hrest.state, hrest.prev, hrest.ctrl⟩
    · split at h
      · cases h
      · rename_i u effs₁ hexec
        split at h
        · cases h
        · rename_i hloop
          cases h
          have hu := executeMsg_sameRole hexec hs
          have hus : u.state = s.state := hu.state
          have hrest := ih hloop (by rw [hus]; exact hs)
          exact ⟨hrest.mode.trans hu.mode, hrest.state.trans hu.state, hrest.prev.trans hu.prev,
            hrest.ctrl.trans hu.ctrl⟩

/-- Only a PASSIVE_PREPRIMARY changes its role in the NORMAL worker. -/
theorem runNormal_sameRole {env : Env} {s t : Server} {effs : List Effect}
    (h : runNormal env s = .ok (t, effs)) (hs : s.state ≠ .passivePreprimary) : SameRole s t := by
  rcases runNormal_cases h with ⟨-, hturn⟩ | ⟨-, u, hloop, rfl | ⟨hpre, -⟩⟩
  · rcases normalTurn_cases hturn with ⟨-, rfl | ⟨hpre, -⟩⟩ | ⟨c, rest, -, -, hexec⟩
    · exact ⟨rfl, rfl, rfl, rfl⟩
    · exact absurd hpre hs
    · have hu := executeMsg_sameRole hexec hs
      exact ⟨hu.mode, hu.state, hu.prev, hu.ctrl⟩
  · exact pruneLoop_sameRole hloop hs
  · have hu := pruneLoop_sameRole hloop hs
    exact absurd (hu.state.symm.trans hpre) hs

theorem runControl_cases {env : Env} {s t : Server} {effs : List Effect}
    (h : runControl env s = .ok (t, effs)) :
    (s.ctrl = [] ∧ t = s ∧ effs = []) ∨
      ∃ ctx rest, s.ctrl = ctx :: rest ∧ executeMsgCtrl env { s with ctrl := rest } ctx = .ok (t, effs) := by
  unfold runControl at h
  split at h
  · rename_i hnil
    cases h
    exact Or.inl ⟨hnil, rfl, rfl⟩
  · rename_i ctx rest hlog
    exact Or.inr ⟨ctx, rest, hlog, h⟩

theorem chkptThread_cases {env : Env} {s t : Server} {effs : List Effect}
    (h : serverStep env s .chkptThread = .ok (t, effs)) : ∃ n, t = { s with chkPointNum := n } := by
  rw [serverStep] at h
  split at h
  · obtain ⟨file, -, rfl, -⟩ := sendCheckpoint_cases h
    exact ⟨_, rfl⟩
  · cases h
    exact ⟨_, rfl⟩

end ToDoList
