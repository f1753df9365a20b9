import ToDoList.Primaries
import ToDoList.Quiesce

/-!
# Recovery in active mode and the assertions of state.c

The manager writes to the factory of a replica in order: the role, the start
and the stop of a quiesce period. The role waits in the CONTROL log of the
server while the quiesce commands act at once. No assertion fails as long as a
start finds the mode already set and no start is lost whose stop gets through.
-/

namespace ToDoList
open CLib StepRun

/-! ### Where assertions can fail -/

def asserts {α : Type} : Except Fault α → Bool
  | .error .assertFailed => true
  | _ => false

theorem asserts_error {α β : Type} {x : Except Fault α} {f : Fault} (h : asserts x = false)
    (hx : x = .error f) : asserts (.error f : Except Fault β) = false := by
  rw [hx] at h
  cases f with
  | assertFailed => cases h
  | outOfBounds | nullDeref | noReturn => rfl

theorem asserts_hashTableInsert (env : Env) (t : HTable) (key : UInt64) (data : Bytes) (len : UInt64) :
    asserts (hashTableInsert env t key data len) = false := by
  unfold hashTableInsert
  split
  · rfl
  · dsimp only
    split <;> rfl

theorem asserts_searchList (fuel : ℕ) (chain : List DataPoint) (key : UInt64) :
    asserts (searchList fuel chain key) = false := by
  induction fuel with
  | zero => rfl
  | succ fuel ih =>
    cases chain with
    | nil => rfl
    | cons temp next =>
      rw [searchList]
      split
      · rfl
      · exact ih

theorem asserts_hashTableModify (env : Env) (t : HTable) (key : UInt64) (status : TStatus) :
    asserts (hashTableModify env t key status) = false := by
  unfold hashTableModify
  dsimp only
  split
  · exact asserts_error (asserts_searchList ..) ‹_›
  · rfl
  · rfl

theorem asserts_rawString (d : DataPoint) : asserts (rawString d) = false := by
  unfold rawString
  split <;> rfl

theorem asserts_getAllLoop (size pos : ℕ) (ds : List DataPoint) :
    asserts (getAllLoop size pos ds) = false := by
  induction ds generalizing pos with
  | nil => rfl
  | cons d ds ih =>
    rw [getAllLoop, getAllRecord]
    split
    · rename_i hrec
      split at hrec
      · cases hrec
        exact asserts_error (asserts_rawString d) ‹_›
      · cases hrec
    · split
      · exact ih _
      · rfl

theorem asserts_hashTableGetAll (t : HTable) : asserts (hashTableGetAll t) = false := by
  unfold hashTableGetAll
  dsimp only
  split
  · rfl
  · exact asserts_getAllLoop ..

theorem asserts_exportEntries (env : Env) (ds : List DataPoint) :
    asserts (exportEntries env ds) = false := by
  induction ds with
  | nil => rfl
  | cons d ds ih =>
    rw [exportEntries, exportEntry]
    split
    · rename_i hentry
      split at hentry
      · cases hentry
        exact asserts_error (asserts_rawString d) ‹_›
      · cases hentry
    · split
      · exact asserts_error ih ‹_›
      · rfl

theorem asserts_importLoop (env : Env) (lines : List Bytes) (st : ImportState) :
    asserts (importLoop env lines st) = false := by
  induction lines generalizing st with
  | nil => rfl
  | cons buf lines ih =>
    rw [importLoop]
    split
    · split
      · exact asserts_error (asserts_hashTableInsert ..) ‹_›
      · exact ih _
    · split
      · rfl
      · exact ih _

theorem asserts_importDbInternal (env : Env) (t : HTable) (file : Option Bytes) :
    asserts (importDbInternal env t file) = false := by
  cases file with
  | none => rfl
  | some bytes =>
    rw [importDbInternal]
    split
    · exact asserts_error (asserts_importLoop ..) ‹_›
    · rfl

theorem asserts_generateKey (env : Env) (rawData : CArray taskLength) (clientId : ℤ) (len : UInt64) :
    asserts (generateKey env rawData clientId len) = false := by
  unfold generateKey
  split <;> rfl

theorem asserts_handleStorage (env : Env) (s : Store) (ctx : ClientCtx) :
    asserts (handleStorage env s ctx) = false := by
  unfold handleStorage
  dsimp only
  split
  · split
    · exact asserts_error (asserts_generateKey ..) ‹_›
    · split
      · exact asserts_error (asserts_hashTableInsert ..) ‹_›
      · rfl
  · split
    · exact asserts_error (asserts_hashTableModify ..) ‹_›
    · rfl
  · rfl
  · split
    · exact asserts_error (asserts_hashTableGetAll ..) ‹_›
    · rfl
  · rfl
  · rfl
  · split
    · exact asserts_error (asserts_importDbInternal ..) ‹_›
    · rfl
  · rfl

theorem asserts_sendCheckpoint (env : Env) (s : Server) : asserts (sendCheckpoint env s) = false := by
  unfold sendCheckpoint
  split
  · exact asserts_error (asserts_exportEntries ..) ‹_›
  · rfl

theorem asserts_executeMsg (env : Env) {s : Server} (ctx : ClientCtx) (h : s.repMode ≠ .passiveRep) :
    asserts (executeMsg env s ctx) = false := by
  unfold executeMsg
  dsimp only
  rw [if_neg fun hp => h hp.1]
  dsimp only
  split
  · exact asserts_error (asserts_handleStorage ..) ‹_›
  · rfl

theorem asserts_pruneLoop (env : Env) (log : List ClientCtx) {s : Server}
    (h : s.repMode ≠ .passiveRep) : asserts (pruneLoop env log s) = false := by
  induction log generalizing s with
  | nil => rfl
  | cons c rest ih =>
    rw [pruneLoop]
    split
    · split
      · exact asserts_error (ih (s := { s with nrl := rest }) h) ‹_›
      · rfl
    · split
      · exact asserts_error (asserts_executeMsg env (s := { s with nrl := rest, isPrune := false }) c h) ‹_›
      · rename_i t effs hexec
        have ht : t.repMode ≠ .passiveRep := by
          rw [(executeMsg_frame hexec).2.2.2]
          exact h
        split
        · exact asserts_error (ih ht) ‹_›
        · rfl

theorem asserts_normalTurn (env : Env) {s : Server} (h : s.repMode ≠ .passiveRep) :
    asserts (normalTurn env s) = false := by
  unfold normalTurn
  dsimp only
  split
  · rfl
  · rw [if_neg fun hp => h hp.1]
    dsimp only
    split
    · rfl
    · split
      · rfl
      · exact asserts_executeMsg env _ h

theorem asserts_runNormal (env : Env) {s : Server} (h : s.repMode ≠ .passiveRep)
    (hs : s.state ≠ .passivePreprimary) : asserts (runNormal env s) = false := by
  unfold runNormal
  split
  · rename_i hloop
    split at hloop
    · exact asserts_error (asserts_pruneLoop env s.nrl h) hloop
    · cases hloop
  · rename_i t effs hloop
    have ht : t.repMode ≠ .passiveRep := by
      split at hloop
      · rw [(pruneLoop_sameRole hloop hs).mode]
        exact h
      · cases hloop
        exact h
    split
    · exact asserts_error (asserts_normalTurn env ht) ‹_›
    · rfl

/-! ### A server under an active manager -/

def activeRole (req : ClientRequest) : Prop :=
  req.msgType = .msgRepMgr → req.repMgrMsg.repMode = .activeRep ∧
    (req.repMgrMsg.serverState = .activeRunning ∨ req.repMgrMsg.serverState = .activeRecover)

structure Unassigned (s : Server) : Prop where
  mode : s.repMode = .unknownRep
  state : s.state = .unknownState
  prev : s.prevState = .unknownState

structure Assigned (s : Server) : Prop where
  mode : s.repMode = .activeRep
  state : stateAllowed .activeRep s.state = true
  prev : s.prevState = .unknownState ∨ stateAllowed .activeRep s.prevState = true

structure Legit (s : Server) : Prop where
  role : Unassigned s ∨ Assigned s
  ctrl : ∀ ctx ∈ s.ctrl, activeRole ctx.req

theorem allowed_ne_unknown {state : ServerStates} (h : stateAllowed .activeRep state = true) :
    state ≠ .unknownState := by
  rintro rfl
  cases h

theorem Legit.not_passive {s : Server} (h : Legit s) : s.repMode ≠ .passiveRep := by
  rcases h.role with hs | hs <;> rw [hs.mode] <;> simp

theorem Legit.not_preprimary {s : Server} (h : Legit s) : s.state ≠ .passivePreprimary := by
  rcases h.role with hs | hs
  · rw [hs.state]
    simp
  · intro hpre
    have hallow := hs.state
    rw [hpre] at hallow
    cases hallow

theorem role_same {s t : Server} (h : Unassigned s ∨ Assigned s) (hmode : t.repMode = s.repMode)
    (hstate : t.state = s.state) (hprev : t.prevState = s.prevState) : Unassigned t ∨ Assigned t := by
  rcases h with hs | hs
  · exact .inl ⟨hmode ▸ hs.mode, hstate ▸ hs.state, hprev ▸ hs.prev⟩
  · exact .inr ⟨hmode ▸ hs.mode, hstate ▸ hs.state, hprev ▸ hs.prev⟩

theorem Legit.same {s t : Server} (h : Legit s) (hst : SameRole s t) : Legit t :=
  ⟨role_same h.role hst.mode hst.state hst.prev, hst.ctrl ▸ h.ctrl⟩

theorem legit_quiesce {s : Server} (rand : ℕ) (ctx : ClientCtx) (h : Assigned s)
    (hctrl : ∀ c ∈ s.ctrl, activeRole c.req) (hq : isQuiesceCommand ctx.req.msgType = true)
    (hstop : ctx.req.msgType = .msgQuiesceStop → s.prevState ≠ .unknownState) :
    ∃ t effs, handleConnection s rand ctx = .ok (t, effs) ∧ Legit t ∧
      t.prevState ≠ .unknownState := by
  have hprev : ctx.req.msgType = .msgQuiesceStop → stateAllowed .activeRep s.prevState = true :=
    fun htype => h.prev.resolve_left (hstop htype)
  obtain ⟨⟨t, effs⟩, hconn⟩ := handleConnection_active_ok rand h.mode hprev
  refine ⟨t, effs, hconn, ?_⟩
  obtain ⟨u, ctx', hpark⟩ : ∃ u ctx', parkPayload s rand ctx = (u, ctx') := ⟨_, _, rfl⟩
  obtain ⟨⟨name, rfl⟩, hu⟩ := parkPayload_frame hpark
  rcases handleConnection_cases hpark hconn with ⟨-, ⟨ret, hquiesce⟩, -⟩ | ⟨hno, -, -⟩
  · have humode : u.repMode = .activeRep := by
      rw [hu]
      exact h.mode
    obtain ⟨hallow, running, rfl⟩ := handleQuiesceCommand_active humode hq hquiesce
    have hsaved : stateAllowed .activeRep (roleBehind u ctx.req.msgType).2 = true := by
      unfold roleBehind
      split
      · rw [hu]
        exact h.state
      · rename_i hstart
        rw [hu]
        exact hprev (by simpa [isQuiesceCommand, hstart] using hq)
    refine ⟨⟨.inr ⟨humode, hallow, .inr hsaved⟩, ?_⟩, allowed_ne_unknown hsaved⟩
    rw [hu]
    exact hctrl
  · rw [hq] at hno
    cases hno

theorem legit_enqueue {s : Server} (rand : ℕ) (ctx : ClientCtx) (h : Legit s)
    (hrole : activeRole ctx.req) (hq : isQuiesceCommand ctx.req.msgType = false) :
    ∃ t effs, handleConnection s rand ctx = .ok (t, effs) ∧ Legit t ∧ t.prevState = s.prevState := by
  obtain ⟨t, effs, hconn⟩ : ∃ t effs, handleConnection s rand ctx = .ok (t, effs) := by
    obtain ⟨u, ctx', hpark⟩ : ∃ u ctx', parkPayload s rand ctx = (u, ctx') := ⟨_, _, rfl⟩
    obtain ⟨⟨name, rfl⟩, -⟩ := parkPayload_frame hpark
    simp only [handleConnection, hpark, hq]
    rw [if_neg Bool.false_ne_true]
    split
    · exact ⟨_, _, rfl⟩
    · split <;> exact ⟨_, _, rfl⟩
  refine ⟨t, effs, hconn, ?_⟩
  obtain ⟨u, ctx', hpark⟩ : ∃ u ctx', parkPayload s rand ctx = (u, ctx') := ⟨_, _, rfl⟩
  obtain ⟨⟨name, rfl⟩, hu⟩ := parkPayload_frame hpark
  have hlegit : Legit u := by
    rw [hu]
    exact h.same ⟨rfl, rfl, rfl, rfl⟩
  have hprev : u.prevState = s.prevState := by rw [hu]
  rw [← hprev]
  rcases handleConnection_cases hpark hconn with ⟨hyes, -, -⟩ | ⟨-, rfl, -⟩
  · rw [hq] at hyes
    cases hyes
  · rcases enqueueClientReq_cases u { ctx with req := { ctx.req with filename := name } } with
      ⟨-, he⟩ | ⟨-, -, he⟩ | ⟨-, -, he⟩
    · rw [he]
      exact ⟨hlegit.same ⟨rfl, rfl, rfl, rfl⟩, rfl⟩
    · rw [he]
      refine ⟨⟨role_same hlegit.role rfl rfl rfl, ?_⟩, rfl⟩
      intro c hc
      rcases List.mem_append.mp hc with hc | hc
      · exact hlegit.ctrl c hc
      · rw [List.mem_singleton.mp hc]
        exact hrole
    · rw [he]
      exact ⟨hlegit.same ⟨rfl, rfl, rfl, rfl⟩, rfl⟩

theorem legit_repMsg {s : Server} {ctx : ClientCtx} (h : Unassigned s ∨ Assigned s)
    (hrole : activeRole ctx.req) (htype : ctx.req.msgType = .msgRepMgr) :
    ∃ t, handleRepMsg s ctx = .ok t ∧ Assigned t ∧ t.prevState = s.prevState ∧ t.ctrl = s.ctrl := by
  obtain ⟨hmode, hstate⟩ := hrole htype
  have hallow : stateAllowed .activeRep ctx.req.repMgrMsg.serverState = true := by
    rcases hstate with hs | hs <;> rw [hs] <;> rfl
  have hprev : s.prevState = .unknownState ∨ stateAllowed .activeRep s.prevState = true := by
    rcases h with hs | hs
    · exact .inl hs.prev
    · exact hs.prev
  refine ⟨{ s with
    repMode := .activeRep, state := ctx.req.repMgrMsg.serverState, isChkptThrdRunning := false,
    bckupSvr := ctx.req.repMgrMsg.bckupSvr, checkpointFreq := ctx.req.repMgrMsg.checkpointFreq },
    ?_, ⟨rfl, hallow, hprev⟩, rfl, rfl⟩
  rcases h with hs | hs
  · simp [handleRepMsg, setMode, setState, killChkptThrdIfRunning, hs.mode, hmode, hallow]
  · simp [handleRepMsg, setState, killChkptThrdIfRunning, hs.mode, hallow]

theorem asserts_runControl (env : Env) {s : Server} (h : Legit s) : asserts (runControl env s) = false := by
  unfold runControl
  split
  · rfl
  · rename_i ctx rest hlog
    have hctx : activeRole ctx.req := h.ctrl ctx (by rw [hlog]; exact List.mem_cons_self ..)
    have hrole : Unassigned { s with ctrl := rest } ∨ Assigned { s with ctrl := rest } :=
      role_same h.role rfl rfl rfl
    unfold executeMsgCtrl
    dsimp only
    split
    · rename_i hbody
      split at hbody
      · rename_i htype
        obtain ⟨t, ht, -⟩ := legit_repMsg hrole hctx htype
        rw [ht] at hbody
        cases hbody
      · split at hbody
        · exact asserts_error (asserts_sendCheckpoint ..) hbody
        · cases hbody
      · cases hbody
    · rfl

theorem runControl_legit {env : Env} {s t : Server} {effs : List Effect} (h : Legit s)
    (hs : runControl env s = .ok (t, effs)) : Legit t ∧ t.prevState = s.prevState := by
  rcases runControl_cases hs with ⟨-, rfl, -⟩ | ⟨ctx, rest, hlog, hexec⟩
  · exact ⟨h, rfl⟩
  · have hctx : activeRole ctx.req := h.ctrl ctx (by rw [hlog]; exact List.mem_cons_self ..)
    have hrest : ∀ c ∈ rest, activeRole c.req := fun c hc =>
      h.ctrl c (by rw [hlog]; exact List.mem_cons_of_mem _ hc)
    have hrole : Unassigned { s with ctrl := rest } ∨ Assigned { s with ctrl := rest } :=
      role_same h.role rfl rfl rfl
    obtain ⟨body, -, ⟨htype, hrep, -⟩ | ⟨-, -, hsend⟩ | ⟨rfl, -⟩⟩ := executeMsgCtrl_cases hexec
    · obtain ⟨u, hu, hassigned, hprev, hctrl⟩ := legit_repMsg hrole hctx htype
      rw [hu] at hrep
      cases hrep
      exact ⟨⟨.inr hassigned, hctrl ▸ hrest⟩, hprev⟩
    · obtain ⟨file, -, rfl, -⟩ := sendCheckpoint_cases hsend
      exact ⟨⟨role_same h.role rfl rfl rfl, hrest⟩, rfl⟩
    · exact ⟨⟨hrole, hrest⟩, rfl⟩

theorem legit_worker (env : Env) {s : Server} {e : ServerEvent} (h : Legit s) (he : isWorker e = true) :
    asserts (serverStep env s e) = false ∧
      ∀ t effs, serverStep env s e = .ok (t, effs) → Legit t ∧ t.prevState = s.prevState := by
  cases e with
  | connection rand ctx => cases he
  | reject ctx msg => cases he
  | normal =>
    refine ⟨asserts_runNormal env h.not_passive h.not_preprimary, ?_⟩
    intro t effs hs
    have hsame := runNormal_sameRole hs h.not_preprimary
    exact ⟨h.same hsame, hsame.prev⟩
  | control => exact ⟨asserts_runControl env h, fun t effs hs => runControl_legit h hs⟩
  | chkptThread =>
    constructor
    · rw [serverStep]
      split
      · exact asserts_sendCheckpoint ..
      · rfl
    · intro t effs hs
      obtain ⟨n, rfl⟩ := chkptThread_cases hs
      exact ⟨h.same ⟨rfl, rfl, rfl, rfl⟩, rfl⟩

/-! ### Orders in flight -/

def isStartup : FactoryMsg → Bool
  | .startup _ => true
  | _ => false

/-- A stop comes behind a start, with no new server process in between. The
flag says that the server has been quiesced before. -/
def Ordered : Bool → List FactoryMsg → Prop
  | _, [] => True
  | _, .startup _ :: orders => Ordered false orders
  | _, .quiesceBegin :: orders => Ordered true orders
  | quiesced, .quiesceStop :: orders => quiesced = true ∧ Ordered quiesced orders
  | quiesced, _ :: orders => Ordered quiesced orders

theorem Ordered.mono {b b' : Bool} {orders : List FactoryMsg} (h : Ordered b orders)
    (hb : b = true → b' = true) : Ordered b' orders := by
  induction orders generalizing b b' with
  | nil => trivial
  | cons m orders ih =>
    cases m with
    | startup server | quiesceBegin => exact h
    | quiesceStop => exact ⟨hb h.1, ih h.2 hb⟩
    | changeState repMode serverState backups | sendChkpt => exact ih (b := b) h hb

theorem Ordered.tail {b : Bool} {m : FactoryMsg} {orders : List FactoryMsg}
    (h : Ordered b (m :: orders)) : Ordered true orders := by
  cases m with
  | startup server => exact Ordered.mono (b := false) h (fun _ => rfl)
  | quiesceBegin => exact h
  | quiesceStop => exact h.2.mono fun _ => rfl
  | changeState repMode serverState backups | sendChkpt => exact Ordered.mono (b := b) h fun _ => rfl

theorem Ordered.suffix {b : Bool} {orders orders' : List FactoryMsg}
    (h : Ordered b (orders ++ orders')) : Ordered true orders' := by
  induction orders generalizing b with
  | nil => exact h.mono fun _ => rfl
  | cons m orders ih => exact ih (Ordered.tail h)

theorem Ordered.append {b : Bool} {orders orders' : List FactoryMsg} (h : Ordered b orders)
    (h' : Ordered false orders') : Ordered b (orders ++ orders') := by
  induction orders generalizing b with
  | nil => exact h'.mono (by simp)
  | cons m orders ih =>
    cases m with
    | startup server | quiesceBegin => exact ih h
    | quiesceStop => exact ⟨h.1, ih h.2⟩
    | changeState repMode serverState backups | sendChkpt => exact ih (b := b) h

/-- A second server process on the port changes nothing for the first. -/
theorem Ordered.drop_startup {b : Bool} {server : ServerInfo} {orders orders' : List FactoryMsg}
    (h : Ordered b (orders ++ .startup server :: orders')) : Ordered b (orders ++ orders') := by
  induction orders generalizing b with
  | nil => exact Ordered.mono (b := false) h (by simp)
  | cons m orders ih =>
    cases m with
    | startup server | quiesceBegin => exact ih h
    | quiesceStop => exact ⟨h.1, ih h.2⟩
    | changeState repMode serverState backups | sendChkpt => exact ih (b := b) h

theorem ordered_of_no_stop {orders : List FactoryMsg} (h : ∀ m ∈ orders, m ≠ .quiesceStop) (b : Bool) :
    Ordered b orders := by
  induction orders generalizing b with
  | nil => trivial
  | cons m orders ih =>
    have hrest : ∀ m ∈ orders, m ≠ .quiesceStop := fun m hm => h m (List.mem_cons_of_mem _ hm)
    cases m with
    | startup server | quiesceBegin => exact ih hrest _
    | quiesceStop => exact absurd rfl (h .quiesceStop (List.mem_cons_self ..))
    | changeState repMode serverState backups | sendChkpt => exact ih hrest b

theorem ordered_of_no_startup {orders : List FactoryMsg} (h : ∀ m ∈ orders, isStartup m = false) :
    Ordered true orders := by
  induction orders with
  | nil => trivial
  | cons m orders ih =>
    have hrest : Ordered true orders := ih fun m hm => h m (List.mem_cons_of_mem _ hm)
    cases m with
    | startup server => cases h (.startup server) (List.mem_cons_self ..)
    | quiesceBegin => exact hrest
    | quiesceStop => exact ⟨rfl, hrest⟩
    | changeState repMode serverState backups | sendChkpt => exact hrest

/-! ### The orders of one call in active mode -/

variable {net : ℕ → Bool}

def runningReplicas (v : Roles) : List Replica :=
  (List.finRange 3).filter fun i => v.state i = .running

/-- One attempt for each of them, the first one the `start`-th of the call. -/
def attempts (net : ℕ → Bool) (msg : FactoryMsg) (start : ℕ) (replicas : List Replica) : List Sent :=
  replicas.mapIdx fun n i => ⟨i, msg, net (start + n)⟩

theorem attempts_cons (msg : FactoryMsg) (start : ℕ) (i : Replica) (is : List Replica) :
    attempts net msg start (i :: is) = ⟨i, msg, net start⟩ :: attempts net msg (start + 1) is := by
  unfold attempts
  rw [List.mapIdx_cons]
  refine congrArg _ (congrArg (fun f => List.mapIdx f is) ?_)
  funext n j
  rw [Nat.add_right_comm, Nat.add_assoc]

theorem mem_attempts {msg : FactoryMsg} {start : ℕ} {replicas : List Replica} {s : Sent} :
    s ∈ attempts net msg start replicas ↔
      ∃ n i, replicas[n]? = some i ∧ s = ⟨i, msg, net (start + n)⟩ := by
  unfold attempts
  rw [List.mem_iff_getElem?]
  simp only [List.getElem?_mapIdx, Option.map_eq_some_iff]
  constructor
  · rintro ⟨n, i, hi, rfl⟩
    exact ⟨n, i, hi, rfl⟩
  · rintro ⟨n, i, hi, rfl⟩
    exact ⟨n, i, hi, rfl⟩

theorem toRunning_sent (msg : FactoryMsg) (t : Turn) :
    (toRunning net msg t).sent =
      t.sent ++ attempts net msg t.sent.length (runningReplicas t.mgr.roles) := by
  unfold toRunning runningReplicas
  induction List.finRange 3 generalizing t with
  | nil => simp [attempts]
  | cons i is ih =>
    rw [List.foldl_cons, ih]
    by_cases hrun : (t.mgr.node i).state = .running
    · have hroles : t.mgr.roles.state i = .running := hrun
      rw [if_pos hrun, List.filter_cons_of_pos (by simpa using hroles), attempts_cons]
      simp only [send, List.length_append, List.length_singleton, List.append_assoc,
        List.singleton_append]
      rfl
    · have hroles : ¬t.mgr.roles.state i = .running := hrun
      rw [if_neg hrun, List.filter_cons_of_neg (by simpa using hroles)]

/-- The attempts of a recovery of `r` under the primary `p`. -/
def recoveryAttempts (net : ℕ → Bool) (m : Manager) (r p : Replica) (running : List Replica) :
    List Sent :=
  [⟨r, .changeState .activeRep .activeRecover none, net 0⟩] ++
    attempts net .quiesceBegin 1 running ++ [⟨p, .sendChkpt, net (running.length + 1)⟩] ++
    attempts net .quiesceStop (running.length + 2) running ++
    [⟨r, fillMessageForPrimaryElection m r, net (running.length + 2 + running.length)⟩]

theorem activeUp_sent {t : Turn} {r p : Replica} (ht : t.sent = [])
    (hp : t.mgr.primaryReplicaId = some p) :
    (activeUp net t r .running).sent = recoveryAttempts net (setNodeState t.mgr r .running) r p
      (runningReplicas (setNodeState t.mgr r .running).roles) := by
  unfold activeUp recoveryAttempts
  rw [hp]
  simp only [noted_sent, sendChangeStatusToServer, instructPrimaryToSendChkpt, stopQuiesceAll,
    quiesceAll, send, toRunning_sent, toRunning_mgr, noted_mgr, setTurnState, ht]
  simp only [attempts, List.nil_append, List.length_append, List.length_singleton, List.length_nil,
    List.length_mapIdx, reduceCtorEq, and_false, and_self, if_false, if_true,
    Nat.add_comm 1 (List.length _)]

theorem delivered_append (sent sent' : List Sent) (j : Replica) :
    delivered (sent ++ sent') j = delivered sent j ++ delivered sent' j := by
  simp [delivered]

theorem delivered_eq_nil {sent : List Sent} {j : Replica}
    (h : ∀ s ∈ sent, s.ok = true → s.replica ≠ j) : delivered sent j = [] := by
  simpa [delivered] using h

theorem mem_delivered_of {sent : List Sent} {s : Sent} (h : s ∈ sent) (hok : s.ok = true) :
    s.msg ∈ delivered sent s.replica :=
  List.mem_map_of_mem (List.mem_filter.mpr ⟨h, by simp [hok]⟩)

theorem delivered_one {s : Sent} {j : Replica} {msg : FactoryMsg} (h : msg ∈ delivered [s] j) :
    msg = s.msg := by
  obtain ⟨s', hs, -, rfl⟩ := mem_delivered h
  rw [List.mem_singleton.mp hs]

theorem delivered_attempts {msg m : FactoryMsg} {start : ℕ} {replicas : List Replica} {j : Replica}
    (h : m ∈ delivered (attempts net msg start replicas) j) : m = msg := by
  obtain ⟨s, hs, -, rfl⟩ := mem_delivered h
  obtain ⟨n, i, -, rfl⟩ := mem_attempts.mp hs
  rfl

theorem begin_of_stop {running : List Replica}
    (hnet : ∀ n, n < running.length → net (n + 1) = false → net (n + running.length + 2) = false)
    {j : Replica}
    (hstop : delivered (attempts net .quiesceStop (running.length + 2) running) j ≠ []) :
    ∃ starts, delivered (attempts net .quiesceBegin 1 running) j = .quiesceBegin :: starts := by
  have hsome : delivered (attempts net .quiesceBegin 1 running) j ≠ [] := by
    intro hnone
    refine hstop (delivered_eq_nil ?_)
    rintro s hs hok rfl
    obtain ⟨n, i, hi, rfl⟩ := mem_attempts.mp hs
    have hlt : n < running.length := (List.getElem?_eq_some_iff.mp hi).1
    have hstart : net (1 + n) = true := by
      by_contra hlost
      have hback := hnet n hlt (by rw [Nat.add_comm]; simpa using hlost)
      rw [show n + running.length + 2 = running.length + 2 + n by omega] at hback
      rw [hback] at hok
      cases hok
    have hmem : FactoryMsg.quiesceBegin ∈ delivered (attempts net .quiesceBegin 1 running) i :=
      mem_delivered_of (mem_attempts.mpr ⟨n, i, hi, rfl⟩) hstart
    rw [hnone] at hmem
    cases hmem
  obtain ⟨start, starts, hs⟩ := List.exists_cons_of_ne_nil hsome
  have hbegin : start = .quiesceBegin :=
    delivered_attempts (hs ▸ List.mem_cons_self ..)
  exact ⟨starts, by rw [hs, hbegin]⟩

/-- Whoever is told to stop has been told to start, if no start is lost whose
stop gets through. -/
theorem ordered_recovery {m : Manager} {r p : Replica} {running : List Replica}
    (hnet : ∀ n, n < running.length → net (n + 1) = false → net (n + running.length + 2) = false)
    (hm : m.mode = .active) (j : Replica) :
    Ordered false (delivered (recoveryAttempts net m r p running) j) := by
  have hfill : isStartup (fillMessageForPrimaryElection m r) = false ∧
      fillMessageForPrimaryElection m r ≠ .quiesceStop := by
    rw [fillMessageForPrimaryElection, hm]
    exact ⟨rfl, by simp⟩
  have hrecover : ∀ msg ∈ delivered [⟨r, .changeState .activeRep .activeRecover none, net 0⟩] j,
      msg ≠ .quiesceStop := by
    intro msg hmsg
    rw [delivered_one hmsg]
    simp
  unfold recoveryAttempts
  by_cases hstop : delivered (attempts net .quiesceStop (running.length + 2) running) j = []
  · refine ordered_of_no_stop ?_ _
    intro msg hmsg
    simp only [delivered_append, hstop, List.append_nil, List.mem_append] at hmsg
    rcases hmsg with ((hmsg | hmsg) | hmsg) | hmsg
    · exact hrecover msg hmsg
    · rw [delivered_attempts hmsg]
      simp
    · rw [delivered_one hmsg]
      simp
    · rw [delivered_one hmsg]
      exact hfill.2
  · obtain ⟨starts, hs⟩ := begin_of_stop hnet hstop
    simp only [delivered_append, List.append_assoc]
    refine (ordered_of_no_stop hrecover false).append ?_
    rw [hs, List.cons_append]
    refine ordered_of_no_startup ?_
    intro msg hmsg
    simp only [List.mem_append] at hmsg
    rcases hmsg with hmsg | hmsg | hmsg | hmsg
    · rw [delivered_attempts (show msg ∈ delivered (attempts net .quiesceBegin 1 running) j by
        rw [hs]
        exact List.mem_cons_of_mem _ hmsg)]
      rfl
    · rw [delivered_one hmsg]
      rfl
    · rw [delivered_attempts hmsg]
      rfl
    · rw [delivered_one hmsg]
      exact hfill.1

def activeOrder : FactoryMsg → Prop
  | .changeState repMode serverState _ => repMode = .activeRep ∧
      (serverState = .activeRunning ∨ serverState = .activeRecover)
  | _ => True

/-- In a recovery no start is lost whose stop gets through. The starts are the
attempts behind the first one of the call, the stops follow one attempt later. -/
def StartsArrive (m : Manager) (report : Report) (net : ℕ → Bool) : Prop :=
  report.state = .running → (m.node report.replicaId).state = .faulted → m.primaryReplicaId ≠ none →
    ∀ n, n < (runningReplicas (setNodeState m report.replicaId .running).roles).length →
      net (n + 1) = false →
      net (n + (runningReplicas (setNodeState m report.replicaId .running).roles).length + 2) = false

theorem activeOrder_election {m : Manager} (hm : m.mode = .active) (r : Replica) :
    activeOrder (fillMessageForPrimaryElection m r) ∧
      fillMessageForPrimaryElection m r ≠ .quiesceStop := by
  rw [fillMessageForPrimaryElection, hm]
  exact ⟨⟨rfl, .inl rfl⟩, by simp⟩

def plainOrder (s : Sent) : Prop := activeOrder s.msg ∧ s.msg ≠ .quiesceStop

theorem sends_activeDown_plain {t : Turn} {r : Replica} (ht : t.sent = []) (hm : t.mgr.mode = .active) :
    Sends plainOrder (activeDown net t r) := by
  have hrestart : Sends plainOrder (restartServer net t r) :=
    sends_restartServer (sends_nil ht) fun _ => ⟨trivial, by simp⟩
  unfold activeDown
  dsimp only
  split
  · obtain ⟨state, hroles⟩ := restartServer_roles net t r
    have hmode : (restartServer net t r).mgr.mode = .active := by
      rw [← hm]
      exact congrArg Roles.mode hroles
    exact sends_noted (sends_electNewPrimary hrestart fun _ => activeOrder_election hmode _)
  · exact hrestart

theorem recoveryAttempts_active {m : Manager} {r p : Replica} {running : List Replica} {s : Sent}
    (hm : m.mode = .active) (hs : s ∈ recoveryAttempts net m r p running) : activeOrder s.msg := by
  simp only [recoveryAttempts, List.mem_append, List.mem_singleton] at hs
  rcases hs with (((rfl | hs) | rfl) | hs) | rfl
  · exact ⟨rfl, .inr rfl⟩
  · obtain ⟨n, i, -, rfl⟩ := mem_attempts.mp hs
    trivial
  · trivial
  · obtain ⟨n, i, -, rfl⟩ := mem_attempts.mp hs
    trivial
  · exact (activeOrder_election hm r).1

def GoodOrders (sent : List Sent) : Prop :=
  ∀ j, Ordered false (delivered sent j) ∧ ∀ msg ∈ delivered sent j, activeOrder msg

theorem goodOrders_of_plain {t : Turn} (h : Sends plainOrder t) : GoodOrders t.sent := by
  intro j
  constructor
  · refine ordered_of_no_stop ?_ _
    intro msg hmsg
    obtain ⟨s, hs, -, rfl⟩ := mem_delivered hmsg
    exact (h s hs).2
  · intro msg hmsg
    obtain ⟨s, hs, -, rfl⟩ := mem_delivered hmsg
    exact (h s hs).1

theorem handleReport_orders {t u : Turn} {report : Report} {b : Bool} (ht : t.sent = [])
    (hm : t.mgr.mode = .active) (hnet : StartsArrive t.mgr report net)
    (h : handleReport net t report = .ok (u, b)) : GoodOrders u.sent := by
  have hnone : GoodOrders t.sent := goodOrders_of_plain (sends_nil ht)
  unfold handleReport at h
  dsimp only at h
  cases hrep : report.state with
  | running =>
    rw [hrep, hm] at h
    dsimp only at h
    split at h
    · rename_i hfaulted
      cases h
      cases hp : t.mgr.primaryReplicaId with
      | none =>
        refine goodOrders_of_plain (t := activeUp net t report.replicaId .running) ?_
        unfold activeUp
        rw [hp]
        exact sends_noted (sends_changeStatus (sends_nil ht) (fun _ _ => activeOrder_election hm _)
          fun _ => ⟨⟨rfl, .inl rfl⟩, by simp⟩)
      | some p =>
        show GoodOrders (activeUp net t report.replicaId .running).sent
        have hset : (setNodeState t.mgr report.replicaId .running).mode = .active := hm
        rw [activeUp_sent ht hp]
        intro j
        refine ⟨ordered_recovery (hnet hrep hfaulted (by simp [hp])) hset j, ?_⟩
        intro msg hmsg
        obtain ⟨s, hs, -, rfl⟩ := mem_delivered hmsg
        exact recoveryAttempts_active hset hs
    · cases h
      exact hnone
  | faulted =>
    rw [hrep, hm] at h
    dsimp only at h
    split at h
    · cases h
      exact goodOrders_of_plain (sends_activeDown_plain ht hm)
    · cases h
      exact hnone
  | sentStartupReq | other n =>
    rw [hrep] at h
    cases h
    exact hnone

theorem handleState_orders {m m' : Manager} {report : Report} {ret : ℤ} {sent : List Sent}
    (h : handleState net m report = .ok (ret, m', sent)) (hm : m.mode = .active)
    (hnet : StartsArrive m report net) : GoodOrders sent := by
  have hentered : StartsArrive (entered m report) report net := by
    intro hrun hfaulted hp
    rw [roles_setNodeState, entered_roles, ← roles_setNodeState]
    rw [entered_state] at hfaulted
    exact hnet hrun hfaulted hp
  rw [handleState_entered net m report (handleState_free h)] at h
  split at h
  · cases h
  · rename_i t hreport
    cases h
    exact handleReport_orders (t := { mgr := entered m report }) rfl hm hentered hreport
  · rename_i t hreport
    cases h
    exact handleReport_orders (t := { mgr := entered m report }) rfl hm hentered hreport

/-! ### The cluster -/

def wasQuiesced : Option Server → Bool
  | none => true
  | some s => s.prevState ≠ .unknownState

/-- What waits for one replica: relayed orders, then those its factory has not
taken yet. -/
structure Waiting (server : Option Server) (toServer : List ClientRequest)
    (toFactory relayed : List FactoryMsg) : Prop where
  sent : toServer = relayed.map relay
  up : server = none → relayed = []
  running : ∀ m ∈ relayed, isStartup m = false
  active : ∀ m ∈ relayed ++ toFactory, activeOrder m
  ordered : Ordered (wasQuiesced server) (relayed ++ toFactory)

structure Recoverable (c : Cluster) : Prop where
  mode : c.mgr.mode = .active
  plain : c.mgr.roles.Plain
  legit : ∀ i s, c.server i = some s → Legit s
  waiting : ∀ i, ∃ relayed, Waiting (c.server i) (c.toServer i) (c.toFactory i) relayed

theorem relay_role {m : FactoryMsg} (h : activeOrder m) : activeRole (relay m) := by
  cases m with
  | changeState repMode serverState backups =>
    intro _
    obtain ⟨hmode, hstate⟩ := relay_changeState repMode serverState backups
    rw [hmode, hstate]
    exact h
  | startup server | sendChkpt | quiesceBegin | quiesceStop =>
    intro htype
    cases htype

theorem Waiting.crash {server : Option Server} {toServer : List ClientRequest}
    {toFactory relayed : List FactoryMsg} (h : Waiting server toServer toFactory relayed) :
    Waiting none [] toFactory [] :=
  ⟨rfl, fun _ => rfl, by simp, fun m hm => h.active m (List.mem_append_right _ hm), h.ordered.suffix⟩

theorem Waiting.server {s t : Server} {toServer : List ClientRequest}
    {toFactory relayed : List FactoryMsg} (h : Waiting (some s) toServer toFactory relayed)
    (hprev : t.prevState = s.prevState) : Waiting (some t) toServer toFactory relayed := by
  refine ⟨h.sent, by simp, h.running, h.active, ?_⟩
  have hsame : wasQuiesced (some t) = wasQuiesced (some s) := by simp [wasQuiesced, hprev]
  rw [hsame]
  exact h.ordered

theorem recoverable_crash {c : Cluster} (h : Recoverable c) (i : Replica) :
    Recoverable (crashServer c i) := by
  refine ⟨h.mode, h.plain, ?_, ?_⟩
  · intro j s hs
    unfold crashServer at hs
    dsimp only at hs
    by_cases hj : j = i
    · subst hj
      rw [Function.update_self] at hs
      cases hs
    · rw [Function.update_of_ne hj] at hs
      exact h.legit j s hs
  · intro j
    obtain ⟨relayed, hw⟩ := h.waiting j
    unfold crashServer
    dsimp only
    by_cases hj : j = i
    · subst hj
      rw [Function.update_self, Function.update_self]
      exact ⟨[], hw.crash⟩
    · rw [Function.update_of_ne hj, Function.update_of_ne hj]
      exact ⟨relayed, hw⟩

theorem recoverable_update {c : Cluster} (h : Recoverable c) {i : Replica} {t : Server}
    {toServer : List ClientRequest} {relayed : List FactoryMsg} (ht : Legit t)
    (hw : Waiting (some t) toServer (c.toFactory i) relayed) :
    Recoverable { c with
      server := Function.update c.server i (some t)
      toServer := Function.update c.toServer i toServer } := by
  refine ⟨h.mode, h.plain, ?_, ?_⟩
  · intro j s hs
    dsimp only at hs
    by_cases hj : j = i
    · subst hj
      rw [Function.update_self] at hs
      cases hs
      exact ht
    · rw [Function.update_of_ne hj] at hs
      exact h.legit j s hs
  · intro j
    dsimp only
    by_cases hj : j = i
    · subst hj
      rw [Function.update_self, Function.update_self]
      exact ⟨relayed, hw⟩
    · rw [Function.update_of_ne hj, Function.update_of_ne hj]
      exact h.waiting j

/-! ### Steps of the cluster -/

/-- A start finds the mode set, and no start is lost whose stop gets through. -/
def InTime (c : Cluster) : ClusterEvent → Prop
  | .report i net => ∀ report ∈ (c.toMgr i).head?, StartsArrive c.mgr report net
  | .relayed i _ _ _ => ∀ req ∈ (c.toServer i).head?, ∀ s ∈ c.server i,
      req.msgType = .msgQuiesceStart → s.repMode ≠ .unknownRep
  | _ => True

theorem relayed_returns {s : Server} {m : FactoryMsg} {orders : List FactoryMsg} (rand : ℕ) (fd : ℤ)
    (conn : ℕ) (h : Legit s) (hm : activeOrder m) (hup : isStartup m = false)
    (hord : Ordered (wasQuiesced (some s)) (m :: orders))
    (hstart : (relay m).msgType = .msgQuiesceStart → s.repMode ≠ .unknownRep) :
    ∃ t effs, handleConnection s rand { fd := fd, conn := conn, req := relay m } = .ok (t, effs) ∧
      Legit t ∧ Ordered (wasQuiesced (some t)) orders := by
  have hquiesced : ∀ t : Server, t.prevState ≠ .unknownState → wasQuiesced (some t) = true := by
    intro t ht
    simp [wasQuiesced, ht]
  cases m with
  | startup server => cases hup
  | quiesceBegin =>
    have hassigned : Assigned s := h.role.resolve_left fun hs => hstart rfl hs.mode
    obtain ⟨t, effs, hconn, ht, hprev⟩ := legit_quiesce rand
      { fd := fd, conn := conn, req := relay .quiesceBegin } hassigned h.ctrl rfl
      (fun hstop => by cases hstop)
    refine ⟨t, effs, hconn, ht, ?_⟩
    rw [hquiesced t hprev]
    exact hord
  | quiesceStop =>
    have hprevS : s.prevState ≠ .unknownState := by simpa [wasQuiesced] using hord.1
    have hassigned : Assigned s := h.role.resolve_left fun hs => hprevS hs.prev
    obtain ⟨t, effs, hconn, ht, hprev⟩ := legit_quiesce rand
      { fd := fd, conn := conn, req := relay .quiesceStop } hassigned h.ctrl rfl
      (fun _ => hprevS)
    refine ⟨t, effs, hconn, ht, ?_⟩
    rw [hquiesced t hprev]
    exact hord.2.mono fun _ => rfl
  | changeState repMode serverState backups =>
    obtain ⟨t, effs, hconn, ht, hprev⟩ := legit_enqueue rand
      { fd := fd, conn := conn, req := relay (.changeState repMode serverState backups) } h (relay_role hm) rfl
    refine ⟨t, effs, hconn, ht, ?_⟩
    simp only [wasQuiesced, hprev]
    exact hord
  | sendChkpt =>
    obtain ⟨t, effs, hconn, ht, hprev⟩ := legit_enqueue rand
      { fd := fd, conn := conn, req := relay .sendChkpt } h (relay_role hm) rfl
    refine ⟨t, effs, hconn, ht, ?_⟩
    simp only [wasQuiesced, hprev]
    exact hord

/-- The head of the queue of relayed orders, delivered. -/
theorem Recoverable.relayed {c : Cluster} (h : Recoverable c) {i : Replica} {rand : ℕ} {fd : ℤ} {conn : ℕ}
    {req : ClientRequest} {rest : List ClientRequest} {s : Server} (hq : c.toServer i = req :: rest)
    (hs : c.server i = some s) (htime : InTime c (.relayed i rand fd conn)) :
    ∃ t effs relayed, handleConnection s rand { fd := fd, conn := conn, req := req } = .ok (t, effs) ∧
      Legit t ∧ Waiting (some t) rest (c.toFactory i) relayed := by
  obtain ⟨relayed, hw⟩ := h.waiting i
  have hsent := hw.sent
  rw [hq] at hsent
  cases relayed with
  | nil => cases hsent
  | cons m relayed =>
    obtain ⟨rfl, hrest⟩ := List.cons.inj hsent
    have hord := hw.ordered
    rw [hs] at hord
    have hstart : (relay m).msgType = .msgQuiesceStart → s.repMode ≠ .unknownRep :=
      htime (relay m) (by rw [hq]; rfl) s hs
    obtain ⟨t, effs, hconn, ht, horder⟩ := relayed_returns rand fd conn
      (h.legit i s hs) (hw.active m (by simp)) (hw.running m (by simp)) hord hstart
    refine ⟨t, effs, relayed, hconn, ht, hrest, by simp, ?_, ?_, horder⟩
    · exact fun m' hm' => hw.running m' (List.mem_cons_of_mem _ hm')
    · exact fun m' hm' => hw.active m' (List.mem_cons_of_mem _ hm')

theorem Recoverable.client {c : Cluster} (h : Recoverable c) {i : Replica} (rand : ℕ) {ctx : ClientCtx}
    {s : Server} (hs : c.server i = some s) (htype : fromClient ctx.req.msgType = true) :
    ∃ t effs, handleConnection s rand ctx = .ok (t, effs) ∧ Legit t ∧ t.prevState = s.prevState := by
  obtain ⟨hrep, hq⟩ : ctx.req.msgType ≠ .msgRepMgr ∧ isQuiesceCommand ctx.req.msgType = false := by
    simpa [fromClient] using htype
  exact legit_enqueue rand ctx (h.legit i s hs) (fun hmsg => absurd hmsg hrep) hq

theorem recoverable_server {c : Cluster} (h : Recoverable c) {i : Replica} {s t : Server}
    (hs : c.server i = some s) (ht : Legit t) (hprev : t.prevState = s.prevState) :
    Recoverable { c with server := Function.update c.server i (some t) } := by
  obtain ⟨relayed, hw⟩ := h.waiting i
  rw [hs] at hw
  have hup := recoverable_update h ht (hw.server hprev)
  rw [Function.update_eq_self] at hup
  exact hup

/-- A factory relays the order it has taken. -/
theorem Waiting.forward {s : Server} {toServer : List ClientRequest} {msg : FactoryMsg}
    {rest relayed : List FactoryMsg} (hw : Waiting (some s) toServer (msg :: rest) relayed)
    (hmsg : isStartup msg = false) :
    Waiting (some s) (toServer ++ [relay msg]) rest (relayed ++ [msg]) := by
  refine ⟨by rw [hw.sent, List.map_append]; rfl, by simp, ?_, ?_, ?_⟩
  · intro m hm
    rcases List.mem_append.mp hm with hm | hm
    · exact hw.running m hm
    · rw [List.mem_singleton.mp hm]
      exact hmsg
  · rw [List.append_assoc]
    exact hw.active
  · rw [List.append_assoc]
    exact hw.ordered

/-- What waits for one replica changes, and nothing else. -/
theorem recoverable_queues {c : Cluster} (h : Recoverable c) {i : Replica}
    {toServer : List ClientRequest} {toFactory : List FactoryMsg} (relayed : List FactoryMsg)
    (hw : Waiting (c.server i) toServer toFactory relayed) :
    Recoverable { c with
      toServer := Function.update c.toServer i toServer
      toFactory := Function.update c.toFactory i toFactory } := by
  refine ⟨h.mode, h.plain, h.legit, ?_⟩
  intro j
  dsimp only
  by_cases hji : j = i
  · subst hji
    rw [Function.update_self, Function.update_self]
    exact ⟨relayed, hw⟩
  · rw [Function.update_of_ne hji, Function.update_of_ne hji]
    exact h.waiting j

theorem recoverable_factory {c : Cluster} (h : Recoverable c) {i : Replica} {msg : FactoryMsg}
    {rest : List FactoryMsg} (hq : c.toFactory i = msg :: rest) :
    Recoverable (handleRepManCommand { c with toFactory := Function.update c.toFactory i rest } i msg) := by
  obtain ⟨relayed, hw⟩ := h.waiting i
  rw [hq] at hw
  have hactive : ∀ m ∈ relayed ++ rest, activeOrder m := by
    intro m hm
    refine hw.active m ?_
    rcases List.mem_append.mp hm with hm | hm
    · exact List.mem_append_left _ hm
    · exact List.mem_append_right _ (List.mem_cons_of_mem _ hm)
  cases hs : c.server i with
  | none =>
    have hnil : relayed = [] := hw.up hs
    subst hnil
    rw [hs] at hw
    cases msg with
    | startup server =>
      simp only [handleRepManCommand, hs]
      refine ⟨h.mode, h.plain, ?_, ?_⟩
      · intro j s hj
        dsimp only at hj
        by_cases hji : j = i
        · subst hji
          rw [Function.update_self] at hj
          cases hj
          exact ⟨.inl ⟨rfl, rfl, rfl⟩, by simp⟩
        · rw [Function.update_of_ne hji] at hj
          exact h.legit j s hj
      · intro j
        dsimp only
        by_cases hji : j = i
        · subst hji
          rw [Function.update_self, Function.update_self]
          exact ⟨[], hw.sent, by simp, by simp, hactive, hw.ordered⟩
        · rw [Function.update_of_ne hji, Function.update_of_ne hji]
          exact h.waiting j
    | changeState repMode serverState backups | sendChkpt | quiesceBegin | quiesceStop =>
      simp only [handleRepManCommand, hs]
      have hrest : Waiting (c.server i) (c.toServer i) rest [] := by
        rw [hs]
        exact ⟨hw.sent, fun _ => rfl, by simp, hactive, Ordered.tail hw.ordered⟩
      have hrec := recoverable_queues h _ hrest
      rw [Function.update_eq_self] at hrec
      exact hrec
  | some s =>
    rw [hs] at hw
    cases msg with
    | startup server =>
      simp only [handleRepManCommand, hs]
      have hrest : Waiting (c.server i) (c.toServer i) rest relayed := by
        rw [hs]
        exact ⟨hw.sent, by simp, hw.running, hactive, hw.ordered.drop_startup⟩
      have hrec := recoverable_queues h _ hrest
      rw [Function.update_eq_self] at hrec
      exact hrec
    | changeState repMode serverState backups | sendChkpt | quiesceBegin | quiesceStop =>
      simp only [handleRepManCommand, hs]
      have hrest := hw.forward rfl
      rw [← hs] at hrest
      exact recoverable_queues h _ hrest

theorem recoverable_report {c : Cluster} (h : Recoverable c) {i : Replica} {report : Report}
    {rest : List Report} {ret : ℤ} {mgr : Manager} {sent : List Sent}
    (hcall : handleState net c.mgr report = .ok (ret, mgr, sent))
    (hnet : StartsArrive c.mgr report net) :
    Recoverable { c with
      mgr := mgr
      toMgr := Function.update c.toMgr i rest
      toFactory := fun j => c.toFactory j ++ delivered sent j } := by
  obtain ⟨-, hroles⟩ := handleState_spec hcall (h.plain.ne_sent _)
  have hmgr : mgr.roles.Plain ∧ mgr.roles.mode = .active := by
    rcases hroles with ⟨-, hr⟩ | ⟨-, hr, -⟩
    · rw [hr]
      exact ⟨plain_next h.plain _ _, (next_mode ..).trans h.mode⟩
    · rw [hr]
      exact ⟨h.plain, h.mode⟩
  have hgood := handleState_orders hcall h.mode hnet
  refine ⟨hmgr.2, hmgr.1, h.legit, ?_⟩
  intro j
  obtain ⟨relayed, hw⟩ := h.waiting j
  refine ⟨relayed, hw.sent, hw.up, hw.running, ?_, ?_⟩
  · intro m hm
    rw [← List.append_assoc] at hm
    rcases List.mem_append.mp hm with hm | hm
    · exact hw.active m hm
    · exact (hgood j).2 m hm
  · rw [← List.append_assoc]
    exact hw.ordered.append (hgood j).1

def serverCall (env : Env) (c : Cluster) : ClusterEvent → Option (Except Fault (Server × List Effect))
  | .relayed i rand fd conn =>
    match c.toServer i, c.server i with
    | req :: _, some s => some (handleConnection s rand { fd := fd, conn := conn, req := req })
    | _, _ => none
  | .client i rand ctx =>
    match c.server i with
    | none => none
    | some s => if fromClient ctx.req.msgType then some (handleConnection s rand ctx) else none
  | .worker i e =>
    match c.server i with
    | none => none
    | some s => if isWorker e then some (serverStep env s e) else none
  | _ => none

def NoAssertion (env : Env) (c : Cluster) (e : ClusterEvent) : Prop :=
  ∀ r ∈ serverCall env c e, asserts r = false

theorem recoverable_noAssertion {env : Env} {c : Cluster} {e : ClusterEvent} (h : Recoverable c)
    (htime : InTime c e) : NoAssertion env c e := by
  intro r hr
  cases e with
  | connect i | heartbeat i | report i net | factory i | crash i => cases hr
  | relayed i rand fd conn =>
    rw [serverCall] at hr
    split at hr
    · rename_i req rest s hq hs
      obtain ⟨t, effs, relayed, hconn, -⟩ := h.relayed hq hs htime
      rw [hconn] at hr
      cases hr
      rfl
    · cases hr
  | client i rand ctx =>
    rw [serverCall] at hr
    split at hr
    · cases hr
    · rename_i s hs
      split at hr
      · rename_i htype
        obtain ⟨t, effs, hconn, -⟩ := h.client rand hs htype
        rw [hconn] at hr
        cases hr
        rfl
      · cases hr
  | worker i e =>
    rw [serverCall] at hr
    split at hr
    · cases hr
    · rename_i s hs
      split at hr
      · rename_i hw
        cases hr
        exact (legit_worker env (h.legit i s hs) hw).1
      · cases hr

theorem clusterStep_recoverable {env : Env} {c c' : Cluster} {e : ClusterEvent} (h : Recoverable c)
    (htime : InTime c e) (hstep : clusterStep env c e = some c') : Recoverable c' := by
  cases clusterStep_move hstep with
  | connect i hidle => exact ⟨h.mode, h.plain, h.legit, h.waiting⟩
  | heartbeat i hprobing => exact ⟨h.mode, h.plain, h.legit, h.waiting⟩
  | report hq hcall => exact recoverable_report h hcall (htime _ (by rw [hq]; rfl))
  | factory hq => exact recoverable_factory h hq
  | relayed hq hs hsettle =>
    obtain ⟨t, effs, relayed, hconn, ht, hw⟩ := h.relayed hq hs htime
    rw [hconn] at hsettle
    cases hsettle
    exact recoverable_update h ht hw
  | @client i rand ctx s c' hs htype hsettle =>
    obtain ⟨t, effs, hconn, ht, hprev⟩ := h.client rand hs htype
    rw [hconn] at hsettle
    cases hsettle
    exact recoverable_server h hs ht hprev
  | @worker i e s c' hs hw hsettle =>
    have hlegit := (legit_worker env (h.legit i s hs) hw).2
    unfold settle at hsettle
    split at hsettle
    · rename_i t effs hok
      cases hsettle
      obtain ⟨ht, hprev⟩ := hlegit t effs hok
      exact recoverable_server h hs ht hprev
    · cases hsettle
    · cases hsettle
      exact recoverable_crash h i
  | @crash i s hs => exact recoverable_crash h i

/-! ### Runs -/

def activeCluster (freq : ℤ) (server : Replica → ServerInfo) : Cluster :=
  { mgr := initManager .active freq server }

theorem activeCluster_recoverable (freq : ℤ) (server : Replica → ServerInfo) :
    Recoverable (activeCluster freq server) := by
  refine ⟨rfl, initManager_plain .active freq server, ?_, ?_⟩
  · intro i s hs
    cases hs
  · intro i
    exact ⟨[], rfl, fun _ => rfl, by simp, by simp [activeCluster], trivial⟩

/-- No assertion of `set_mode` or `set_state` fails in a run in which every
start finds the mode set and no start is lost whose stop gets through. -/
theorem recovery_trips_no_assertion (env : Env) (freq : ℤ) (server : Replica → ServerInfo)
    (es : List ClusterEvent) (htime : AllSteps (clusterStep env) InTime (activeCluster freq server) es) :
    AllSteps (clusterStep env) (NoAssertion env) (activeCluster freq server) es :=
  allSteps_of_invariant (fun _ _ _ h ht hs => clusterStep_recoverable h ht hs)
    (fun _ _ h ht => recoverable_noAssertion h ht) (activeCluster_recoverable freq server) htime

instance (m : Manager) (report : Report) (net : ℕ → Bool) : Decidable (StartsArrive m report net) :=
  inferInstanceAs (Decidable (report.state = .running → (m.node report.replicaId).state = .faulted →
    m.primaryReplicaId ≠ none →
      ∀ n, n < (runningReplicas (setNodeState m report.replicaId .running).roles).length →
        net (n + 1) = false →
        net (n + (runningReplicas (setNodeState m report.replicaId .running).roles).length + 2) = false))

instance decidableInTime (c : Cluster) : ∀ e, Decidable (InTime c e)
  | .report i net => inferInstanceAs (Decidable (∀ report ∈ (c.toMgr i).head?,
      StartsArrive c.mgr report net))
  | .relayed i _ _ _ => inferInstanceAs (Decidable (∀ req ∈ (c.toServer i).head?, ∀ s ∈ c.server i,
      req.msgType = .msgQuiesceStart → s.repMode ≠ .unknownRep))
  | .connect _ => isTrue trivial
  | .heartbeat _ => isTrue trivial
  | .factory _ => isTrue trivial
  | .client .. => isTrue trivial
  | .worker .. => isTrue trivial
  | .crash _ => isTrue trivial

instance (env : Env) (c : Cluster) (e : ClusterEvent) : Decidable (NoAssertion env c e) :=
  inferInstanceAs (Decidable (∀ r ∈ serverCall env c e, asserts r = false))

/-- Replica 0 runs, replica 1 is started and found up: the manager has sent the
role, the start and the stop to replica 1. -/
def rejoined : List ClusterEvent :=
  [.connect 0, handled 0, .factory 0, .connect 0, handled 0] ++ commanded 0 ++
    [.connect 1, handled 1, .factory 1, .connect 1, handled 1]

/-- The CONTROL worker of replica 1 is in time. -/
def recovered : List ClusterEvent :=
  rejoined ++ commanded 1 ++
    [.factory 1, .relayed 1 0 5 1, .factory 1, .relayed 1 0 6 2] ++ commanded 1 ++
    [.factory 0, .relayed 0 0 7 3] ++ commanded 0 ++ [.factory 0, .relayed 0 0 8 4]

theorem recovery_trips_no_assertion_recovered :
    ((run (clusterStep quietEnv) (activeCluster 10 plainServers) recovered).any fun c =>
      (c.server 0).any (fun s => s.state = .activeRunning) &&
        (c.server 1).any fun s => s.state = .activeRunning) = true ∧
      AllSteps (clusterStep quietEnv) (NoAssertion quietEnv) (activeCluster 10 plainServers) recovered :=
  ⟨by decide +kernel, recovery_trips_no_assertion quietEnv 10 plainServers recovered (by decide +kernel)⟩

/-- The start overtakes the role that waits in the CONTROL log. -/
theorem start_overtakes_role :
    ¬∀ (env : Env) (freq : ℤ) (server : Replica → ServerInfo) (es : List ClusterEvent),
      AllSteps (clusterStep env) (NoAssertion env) (activeCluster freq server) es := by
  intro h
  have hrun := h quietEnv 10 plainServers (rejoined ++ [.factory 1, .relayed 1 0 4 0, .factory 1,
    .relayed 1 0 5 1])
  revert hrun
  decide +kernel

end ToDoList
