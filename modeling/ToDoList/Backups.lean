import ToDoList.Active
import ToDoList.ReplicaGroup
import ToDoList.PassiveRoles

/-!
# Primaries, backups and how one becomes the other

What stands in the table and the log of a server of passive mode between two
requests, and what a checkpoint, a promotion and a new start as a backup make of
it. `exec (applyRequest env)` of the logged requests says what a backup would have
after executing them.
-/

namespace ToDoList
open CLib KeyedMachine StepRun Replay

/-! ### The size of a checkpoint -/

def entryCount (t : HTable) : ℕ := (allEntries t).length

theorem entryCount_update {t u : HTable} {b : Fin hashTableLen} {chain : List DataPoint}
    (h : u.data = Function.update t.data b chain) (hchain : chain.length ≤ (t.data b).length + 1) :
    entryCount u ≤ entryCount t + 1 := by
  have ht := (allEntries_perm t b).length_eq
  have hu := (allEntries_perm u b).length_eq
  rw [h, otherEntries_update, Function.update_self] at hu
  simp only [List.length_append] at ht hu
  unfold entryCount
  omega

theorem entryCount_of_view {t u : HTable} (h : ∀ b, (u.data b).map view = (t.data b).map view) :
    entryCount u = entryCount t := by
  have hlen (b : Fin hashTableLen) : (u.data b).length = (t.data b).length := by
    have hmap := congrArg List.length (h b)
    rwa [List.length_map, List.length_map] at hmap
  unfold entryCount allEntries
  rw [List.length_flatMap, List.length_flatMap]
  exact congrArg List.sum (List.map_congr_left fun b _ => hlen b)

theorem entryCount_call {env : Env} {t u : HTable} {c : Call} {ret : ℤ} (h : c.run env t = .ok (ret, u)) :
    entryCount u ≤ entryCount t + 1 := by
  cases c with
  | insert key data len =>
    rcases hashTableInsert_cases h with ⟨-, -, rfl⟩ | ⟨-, -, raw, -, rfl⟩
    · omega
    · exact entryCount_update rfl (by rw [List.length_append, List.length_singleton])
  | delete key =>
    rw [run_delete h]
    unfold hashTableDelete
    cases hunlink : unlink key (t.data (hashFunc key)) with
    | none => exact Nat.le_succ _
    | some r =>
      obtain ⟨d, chain⟩ := r
      obtain ⟨pre, post, hchain, hrest, -⟩ := unlink_eq_some key _ _ _ hunlink
      refine entryCount_update rfl ?_
      rw [hchain, hrest]
      simp only [List.length_append, List.length_cons]
      omega

theorem exportEntry_length {env : Env} {d : DataPoint} {e : Bytes} (h : exportEntry env d = .ok e) :
    e.length ≤ 1200 := by
  unfold exportEntry rawString at h
  by_cases hnul : (0 : UInt8) ∈ d.rawData.toList
  · rw [if_pos hnul] at h
    cases h
    have hkey := decimal_toNat_length d.key
    have hlen := decimal_toNat_length d.dataLen
    have hstatus := (plainWord_decimalInt (z := (env.statusWord d.taskStatus).toInt) ⟨by
      have hlow := BitVec.le_toInt (env.statusWord d.taskStatus)
      omega, by
      have hhigh := BitVec.toInt_lt (x := env.statusWord d.taskStatus)
      omega⟩).len
    have hraw : (cString d.rawData.toList).length ≤ 1024 := by
      have hsub := (List.takeWhile_sublist (fun b : UInt8 => b ≠ 0) (l := d.rawData.toList)).length_le
      rw [List.Vector.toList_length] at hsub
      exact hsub
    have htexts : (ascii "Key: ").length = 5 ∧ (ascii "\r\n").length = 2 ∧ (ascii "Data: ").length = 6 ∧
        (ascii "data_len: ").length = 10 ∧ (ascii "Status: ").length = 8 ∧ (ascii "DATA_END\r\n").length = 10 := by
      decide +kernel
    obtain ⟨h₁, h₂, h₃, h₄, h₅, h₆⟩ := htexts
    simp only [List.length_append, h₁, h₂, h₃, h₄, h₅, h₆]
    omega
  · rw [if_neg hnul] at h
    cases h

theorem exportDbInternal_length {env : Env} {t : HTable} {file : Bytes}
    (h : exportDbInternal env t = .ok file) : file.length ≤ 1200 * entryCount t + 9 := by
  have hentries (ds : List DataPoint) (f : Bytes) (hf : exportEntries env ds = .ok f) :
      f.length ≤ 1200 * ds.length + 9 := by
    induction ds generalizing f with
    | nil =>
      cases hf
      decide +kernel
    | cons d ds ih =>
      rw [exportEntries] at hf
      split at hf
      · cases hf
      · rename_i e he
        split at hf
        · cases hf
        · rename_i rest hrest
          cases hf
          have hfirst := exportEntry_length he
          have hmore := ih rest hrest
          rw [List.length_append, List.length_cons]
          omega
  exact hentries _ _ h

/-- A file that reaches the backups, and from which any table is rebuilt as `q`. -/
structure CheckpointOf (env : Env) (q : Cells) (size : ℕ) (file : Bytes) : Prop where
  ne : file ≠ []
  short : file.length < 2 ^ 31
  imports : ∀ t, ∃ u, importDbInternal env t (some file) = .ok u ∧ cells u = q ∧ entryCount u ≤ size

theorem checkpoint_fits (env : Env) {t : HTable} (ht : Sane t) (hclean : CleanCells (cells t)) {size : ℕ}
    (hcount : entryCount t ≤ size) (hsize : size ≤ 2 ^ 20) :
    ∃ file, exportDbInternal env t = .ok file ∧ CheckpointOf env (cells t) size file := by
  have hgood := checkpointable_of_cells hclean
  obtain ⟨file, -, hfile, -⟩ := import_export env t ht.inv ht.tail hgood t
  refine ⟨file, hfile, exportDbInternal_ne_nil hfile, ?_, fun t₀ => ?_⟩
  · have hlen := exportDbInternal_length hfile
    omega
  · obtain ⟨file', u, hfile', himport, hview, -⟩ := import_export env t ht.inv ht.tail hgood t₀
    rw [hfile] at hfile'
    cases hfile'
    refine ⟨u, himport, cells_of_view hview, ?_⟩
    rw [entryCount_of_view hview]
    exact hcount

/-! ### Events in a row -/

/-- What a server becomes, and all it does outside the process. -/
def serveEvents (env : Env) : Server → List ServerEvent → Option (Server × List Effect)
  | s, [] => some (s, [])
  | s, e :: es =>
    match serverStep env s e with
    | .error _ => none
    | .ok (t, effs) => (serveEvents env t es).map fun p => (p.1, effs ++ p.2)

theorem serveEvents_cons {env : Env} {s t u : Server} {e : ServerEvent} {es : List ServerEvent}
    {effs effs' : List Effect} (h : serverStep env s e = .ok (t, effs))
    (h' : serveEvents env t es = some (u, effs')) :
    serveEvents env s (e :: es) = some (u, effs ++ effs') := by
  rw [serveEvents, h]
  dsimp only
  rw [h']
  rfl

theorem serveEvents_two {env : Env} {s t u : Server} {e e' : ServerEvent} {effs effs' : List Effect}
    (h : serverStep env s e = .ok (t, effs)) (h' : serverStep env t e' = .ok (u, effs')) :
    serveEvents env s [e, e'] = some (u, effs ++ effs') := by
  have hlast : serveEvents env t [e'] = some (u, effs' ++ []) := serveEvents_cons h' rfl
  rw [List.append_nil] at hlast
  exact serveEvents_cons h hlast

theorem serveEvents_idle {env : Env} {s : Server} (h : serverStep env s .normal = .ok (s, [])) (turns : ℕ) :
    serveEvents env s (List.replicate turns .normal) = some (s, []) := by
  induction turns with
  | zero => rfl
  | succ turns ih => exact serveEvents_cons h ih

/-- How a message that is not a client's reaches a server. -/
structure Arrival where
  rand : ℕ
  fd : ℤ
  conn : ℕ

/-- The factory relays an order, and the CONTROL worker executes it. -/
def orderEvents (a : Arrival) (msg : FactoryMsg) : List ServerEvent :=
  [.connection a.rand { fd := a.fd, conn := a.conn, req := relay msg }, .control]

/-- A checkpoint arrives, and the NORMAL worker has a turn. -/
def fileEvents (a : Arrival) (fl : Flight) : List ServerEvent :=
  [.connection a.rand (flightCtx fl a.conn a.fd), .normal]

def filesTo (i : Replica) (effs : List Effect) : List Flight :=
  effs.filterMap fun
    | .checkpoint svr clientId reqNo file =>
      if svr.serverId = (i.val : ℤ) then some ⟨clientId, reqNo, file, 0⟩ else none
    | _ => none

theorem filesTo_append (i : Replica) (effs effs' : List Effect) :
    filesTo i (effs ++ effs') = filesTo i effs ++ filesTo i effs' := List.filterMap_append ..

theorem filesTo_reply (i : Replica) (s : Server) (ctx : ClientCtx) (status msg : String) :
    filesTo i (writeClientResponce s ctx status msg :: closeFd ctx) = [] := by
  unfold closeFd
  split
  · rfl
  · rfl

/-! ### Between two requests -/

/-- Nothing waits for the CONTROL worker or for a prune pass. -/
structure Resting (s : Server) : Prop where
  prune : s.isPrune = false
  limit : s.nrlQLimit = 50
  ctrl : s.ctrl = []
  ctrlLimit : s.ctrlQLimit = 50
  prev : s.prevState = .unknownState
  table : Sane s.store.htable

/-- The server has its role of passive mode, the checkpoint thread of a primary, and
in its log what it has logged as a backup. -/
structure InRole (role : ServerStates) (s : Server) : Prop extends Resting s where
  mode : s.repMode = .passiveRep
  state : s.state = role
  thread : s.isChkptThrdRunning = decide (role = .passivePrimary)
  backlog : ∀ c ∈ s.nrl, c.isBacklog = true ∧ CleanRequest c.req

/-- Table and log are worth the list `q`, of at most `size` entries. -/
structure Holds (env : Env) (q : Cells) (size : ℕ) (s : Server) : Prop where
  replays : exec (applyRequest env) (cells s.store.htable) (s.nrl.map fun c => c.req) = q
  size : entryCount s.store.htable + s.nrl.length ≤ size

theorem Holds.cells {env : Env} {q : Cells} {size : ℕ} {s : Server} (h : Holds env q size s)
    (hlog : s.nrl = []) : cells s.store.htable = q := by
  have hreplays := h.replays
  rw [hlog] at hreplays
  exact hreplays

theorem resting_fresh (serverId : ℤ) : Resting { serverId := serverId } :=
  ⟨rfl, rfl, rfl, rfl, rfl, sane_init⟩

theorem InRole.ordinary {state : ServerStates} {s : Server} (h : InRole state s) :
    ∀ c ∈ s.nrl, c.req.msgType ≠ .msgChkPt := by
  intro c hc htype
  have hup := (h.backlog c hc).2.update
  rw [htype] at hup
  cases hup

/-- The NORMAL worker has nothing to do: the log is kept, or empty. -/
theorem worker_idles (env : Env) {s : Server} (hprune : s.isPrune = false)
    (h : isPassiveBackup s = true ∨ (s.nrl = [] ∧ s.state ≠ .passivePreprimary)) :
    serverStep env s .normal = .ok (s, []) := by
  rw [serverStep, runNormal_of_no_prune hprune]
  unfold normalTurn
  rcases h with hbackup | ⟨hlog, hstate⟩
  · rw [if_pos ⟨hprune, hbackup⟩]
  · by_cases hbackup : isPassiveBackup s = true
    · rw [if_pos ⟨hprune, hbackup⟩]
    · rw [if_neg fun hboth => hbackup hboth.2]
      simp [hlog, hstate]

theorem InRole.backup {s : Server} (h : InRole .passiveBackup s) : isPassiveBackup s = true := by
  simp [isPassiveBackup, h.mode, h.state]

/-! ### Taking over -/

section
variable {env : Env} (hz : env.ZeroHeap) {q : Cells} {size : ℕ}

include hz in
/-- A server that takes over executes the oldest request of its backlog. -/
theorem preprimary_executes {s : Server} {c : ClientCtx} {rest : List ClientCtx}
    (h : InRole .passivePreprimary s) (hq : Holds env q size s) (hlog : s.nrl = c :: rest) :
    ∃ t effs, serverStep env s .normal = .ok (t, effs) ∧ InRole .passivePreprimary t ∧
      Holds env q size t ∧ t.nrl = rest ∧ t.bckupSvr = s.bckupSvr := by
  obtain ⟨hback, hclean⟩ := h.backlog c (by rw [hlog]; exact List.mem_cons_self ..)
  obtain ⟨ret, u, ctx', hu⟩ := handleStorage_returns env s.store hclean.update hclean.executable
  obtain ⟨call, -, hcall, -⟩ := handleStorage_update hclean.update hu
  have hexec : ∃ effs, runNormal env s = .ok ({ s with nrl := rest, store := u }, effs) := by
    have hawake : isPassiveBackup s = false := by simp [isPassiveBackup, h.state]
    rw [runNormal_of_no_prune h.prune]
    simp [normalTurn, hawake, hlog, h.state, executeMsg, hback, hu]
  obtain ⟨effs, hexec⟩ := hexec
  have hreplays := hq.replays
  have hsize := hq.size
  rw [hlog, List.map_cons] at hreplays
  rw [hlog, List.length_cons] at hsize
  refine ⟨{ s with nrl := rest, store := u }, effs, hexec,
    ⟨⟨h.prune, h.limit, h.ctrl, h.ctrlLimit, h.prev, ?_⟩, h.mode, h.state, h.thread,
      fun d hd => h.backlog d (by rw [hlog]; exact List.mem_cons_of_mem _ hd)⟩, ⟨?_, ?_⟩, rfl, rfl⟩
  · exact handleStorage_stable (sane_stable hz) _ _ _ _ _ hu h.table
  · rw [← hreplays, (handleStorage_cells hclean.update hu).1]
    rfl
  · have hcount := entryCount_call hcall
    dsimp only
    omega

/-- Without a backlog it is the primary. -/
theorem preprimary_promoted {s : Server} (h : InRole .passivePreprimary s) (hlog : s.nrl = []) :
    serverStep env s .normal = .ok (promoted s, []) := by
  have hawake : isPassiveBackup s = false := by simp [isPassiveBackup, h.state]
  rw [serverStep, runNormal_of_no_prune h.prune]
  simp [normalTurn, hawake, hlog, h.state, h.mode, setState, stateAllowed, startCkhptThread, promoted]

include hz in
/-- With one turn more than there are requests in the backlog it has taken over. -/
theorem preprimary_takes_over {s : Server} (h : InRole .passivePreprimary s) (hq : Holds env q size s)
    {turns : ℕ} (hturns : s.nrl.length < turns) :
    ∃ t effs, serveEvents env s (List.replicate turns .normal) = some (t, effs) ∧
      InRole .passivePrimary t ∧ Holds env q size t ∧ t.nrl = [] ∧ t.bckupSvr = s.bckupSvr := by
  induction turns generalizing s with
  | zero => omega
  | succ turns ih =>
    rw [List.replicate_succ]
    cases hlog : s.nrl with
    | cons c rest =>
      obtain ⟨t, effs, hstep, ht, hqt, hrest, hsvr⟩ := preprimary_executes hz h hq hlog
      rw [hlog, List.length_cons] at hturns
      obtain ⟨u, effs', hrun, hu, hqu, hempty, hsvr'⟩ := ih ht hqt (by rw [hrest]; omega)
      exact ⟨u, _, serveEvents_cons hstep hrun, hu, hqu, hempty, hsvr'.trans hsvr⟩
    | nil =>
      have hrole : InRole .passivePrimary (promoted s) :=
        ⟨⟨h.prune, h.limit, h.ctrl, h.ctrlLimit, h.prev, h.table⟩, h.mode, rfl, rfl, h.backlog⟩
      have hidle := worker_idles env hrole.prune (Or.inr ⟨hlog, by rw [hrole.state]; decide⟩)
      exact ⟨promoted s, _, serveEvents_cons (preprimary_promoted h hlog) (serveEvents_idle hidle turns),
        hrole, ⟨hq.replays, hq.size⟩, hlog, rfl⟩

end

/-! ### Orders -/

/-- An order is logged for the CONTROL worker. -/
theorem order_received {s : Server} {ctx : ClientCtx} (hctrl : s.ctrl = []) (hlimit : s.ctrlQLimit = 50)
    (hmode : s.repMode ≠ .activeRep) (htype : ctx.req.msgType = .msgRepMgr ∨ ctx.req.msgType = .msgSendChkpt)
    (hpay : ctx.req.payload.size = 0) (env : Env) (rand : ℕ) :
    serverStep env s (.connection rand ctx) =
      .ok ({ s with ctrl := [{ ctx with isBacklog := isPassiveBackup s }] }, []) := by
  have hpark : parkPayload s rand ctx = (s, ctx) := by rw [parkPayload, if_pos hpay]
  have hlog : enqueueClientReq s ctx = (0, { s with ctrl := [{ ctx with isBacklog := isPassiveBackup s }] }) := by
    rcases htype with htype | htype
    · simp [enqueueClientReq, isControl, enqueue, htype, hctrl, hlimit]
    · simp [enqueueClientReq, isControl, enqueue, htype, hctrl, hlimit]
  rw [serverStep]
  unfold handleConnection
  rw [hpark]
  dsimp only
  rw [hlog, if_neg (by rcases htype with htype | htype <;> rw [htype] <;> decide), if_neg (by simp),
    if_neg (by simp [earlyClose, hmode])]

/-- The role is taken; table and log stay. -/
theorem role_taken {s : Server} (h : Resting s) (hmode : s.repMode = .unknownRep ∨ s.repMode = .passiveRep)
    (hlog : ∀ c ∈ s.nrl, c.isBacklog = true ∧ CleanRequest c.req) {state : ServerStates}
    (hstate : state = .passiveBackup ∨ state = .passivePreprimary) (env : Env) (a : Arrival)
    (backups : Option Backups) :
    ∃ t effs, serveEvents env s (orderEvents a (.changeState .passiveRep state backups)) = some (t, effs) ∧
      InRole state t ∧ t.nrl = s.nrl ∧ t.store = s.store ∧
      t.bckupSvr = (relay (.changeState .passiveRep state backups)).repMgrMsg.bckupSvr ∧
      ∀ i, filesTo i effs = [] := by
  obtain ⟨hrepMode, hserverState⟩ := relay_changeState .passiveRep state backups
  obtain ⟨ctx, hctx⟩ : ∃ ctx : ClientCtx, ctx = { fd := a.fd, conn := a.conn, isBacklog := isPassiveBackup s
                                                  req := relay (.changeState .passiveRep state backups) } := ⟨_, rfl⟩
  have htype : ctx.req.msgType = .msgRepMgr := by rw [hctx]; rfl
  have hmsg : ctx.req.repMgrMsg = (relay (.changeState .passiveRep state backups)).repMgrMsg := by rw [hctx]
  have hactive : s.repMode ≠ .activeRep := by
    rcases hmode with hmode | hmode <;> rw [hmode] <;> decide
  have hreceived : serverStep env s (.connection a.rand
      { fd := a.fd, conn := a.conn, req := relay (.changeState .passiveRep state backups) }) =
      .ok ({ s with ctrl := [ctx] }, []) := by
    rw [order_received h.ctrl h.ctrlLimit hactive (Or.inl rfl) rfl, hctx]
  obtain ⟨t, ht⟩ : ∃ t : Server, t = { s with
    repMode := .passiveRep, state := state, isChkptThrdRunning := false, ctrl := []
    bckupSvr := ctx.req.repMgrMsg.bckupSvr, checkpointFreq := ctx.req.repMgrMsg.checkpointFreq } := ⟨_, rfl⟩
  have htaken : handleRepMsg { s with ctrl := [] } ctx = .ok t := by
    have hto : ctx.req.repMgrMsg.serverState = state := by rw [hmsg, hserverState]
    rw [@handleRepMsg_taken { s with ctrl := [] } ctx hmode (by rw [hmsg, hrepMode]) (by rw [hto]; exact hstate),
      hto, ht]
  have hcontrol : serverStep env { s with ctrl := [ctx] } .control =
      .ok (t, writeClientResponce t ctx "OK" "Success" :: closeFd ctx) := by
    rw [serverStep]
    unfold runControl executeMsgCtrl
    dsimp only
    rw [htype]
    dsimp only
    rw [htaken]
    rfl
  refine ⟨t, _, serveEvents_two hreceived hcontrol, ?_, by rw [ht], by rw [ht], by rw [ht, ← hmsg],
    fun i => filesTo_reply ..⟩
  rw [ht]
  refine ⟨⟨h.prune, h.limit, rfl, h.ctrlLimit, h.prev, h.table⟩, rfl, rfl, ?_, hlog⟩
  rcases hstate with rfl | rfl <;> rfl

/-! ### Checkpoints -/

/-- The two entries of `bckup_svr` are the other replicas. -/
def BackupsOf (p : Replica) (bckupSvr : BsvrCtx × BsvrCtx) : Prop :=
  bckupSvr.1.serverId = ((otherReplicas p).1.val : ℤ) ∧ bckupSvr.2.serverId = ((otherReplicas p).2.val : ℤ)

theorem preprimary_backups {p : Replica} {backs : Backups} (hfirst : backs.replica1.1 = (otherReplicas p).1)
    (hsecond : backs.replica2.1 = (otherReplicas p).2) :
    BackupsOf p (relay (.changeState .passiveRep .passivePreprimary (some backs))).repMgrMsg.bckupSvr := by
  unfold BackupsOf
  rw [← hfirst, ← hsecond]
  exact ⟨rfl, rfl⟩

theorem otherReplicas_iff (p i : Replica) :
    (otherReplicas p).1 ≠ (otherReplicas p).2 ∧ (i = (otherReplicas p).1 ∨ i = (otherReplicas p).2 ↔ i ≠ p) := by
  revert p i
  decide

theorem filesTo_export {p : Replica} {bckupSvr : BsvrCtx × BsvrCtx} (h : BackupsOf p bckupSvr) (clientId : ℤ)
    (reqNo : UInt64) (file : Bytes) (i : Replica) :
    filesTo i [.checkpoint bckupSvr.1 clientId reqNo file, .checkpoint bckupSvr.2 clientId reqNo file] =
      if i = p then [] else [⟨clientId, reqNo, file, 0⟩] := by
  obtain ⟨hdistinct, hothers⟩ := otherReplicas_iff p i
  have hid (j : Replica) : ((j.val : ℤ) = (i.val : ℤ)) ↔ i = j := by
    rw [Nat.cast_inj, eq_comm, Fin.ext_iff]
  unfold filesTo
  simp only [List.filterMap_cons, List.filterMap_nil, h.1, h.2, hid]
  by_cases hp : i = p
  · obtain ⟨hfirst, hsecond⟩ := not_or.mp fun hone => hothers.mp hone hp
    rw [if_neg hfirst, if_neg hsecond, if_pos hp]
  · rw [if_neg hp]
    rcases hothers.mpr hp with rfl | rfl
    · rw [if_pos rfl, if_neg hdistinct]
    · rw [if_neg hdistinct.symm, if_pos rfl]

section
variable {env : Env} {q : Cells} {size : ℕ}

/-- The table as a checkpoint, one copy for each of the others. -/
theorem checkpoint_sent (env : Env) {p : Replica} {s : Server} (h : Sane s.store.htable) (hq : cells s.store.htable = q)
    (hclean : CleanCells q) (hcount : entryCount s.store.htable ≤ size) (hsize : size ≤ 2 ^ 20)
    (hsvr : BackupsOf p s.bckupSvr) :
    ∃ fl effs, sendCheckpoint env s = .ok ({ s with chkPointNum := s.chkPointNum + 1 }, effs) ∧
      CheckpointOf env q size fl.file ∧ ∀ i, filesTo i effs = if i = p then [] else [fl] := by
  obtain ⟨file, hfile, hof⟩ := checkpoint_fits env h (by rw [hq]; exact hclean) hcount hsize
  rw [hq] at hof
  refine ⟨⟨s.serverId, s.chkPointNum, file, 0⟩, _, ?_, hof, fun i => filesTo_export hsvr ..⟩
  unfold sendCheckpoint
  rw [hfile]

theorem pruneLoop_onto {log : List ClientCtx} {c : ClientCtx} (hlog : ∀ d ∈ log, d.req.msgType ≠ .msgChkPt)
    (hc : c.req.msgType = .msgChkPt) {s t : Server} {effs : List Effect}
    (h : executeMsg env { s with nrl := [], isPrune := false } c = .ok (t, effs)) :
    ∃ effs', pruneLoop env (log ++ [c]) s = .ok (t, effs') := by
  induction log generalizing s with
  | nil =>
    rw [List.nil_append, pruneLoop, if_neg (not_not.mpr hc), h]
    exact ⟨_, rfl⟩
  | cons d log ih =>
    obtain ⟨effs', hrest⟩ := @ih (fun e he => hlog e (List.mem_cons_of_mem _ he))
      { s with nrl := log ++ [c] } h
    rw [List.cons_append, pruneLoop, if_pos (hlog d (List.mem_cons_self ..)), hrest]
    exact ⟨_, rfl⟩

/-- The checkpoint is logged behind the backlog, and its payload parked. -/
theorem checkpoint_received (env : Env) {s : Server} (h : InRole .passiveBackup s) (hroom : s.nrl.length < 50)
    {fl : Flight} (hne : fl.file ≠ []) (a : Arrival) :
    ∃ c, serverStep env s (.connection a.rand (flightCtx fl a.conn a.fd)) = .ok ({ s with
        isPrune := true, nrl := s.nrl ++ [c]
        store := ⟨s.store.htable, Function.update s.store.files c.req.filename (some fl.file)⟩ }, []) ∧
      c.req.msgType = .msgChkPt := by
  obtain ⟨name, hname⟩ : ∃ name, name = tmpName s a.rand := ⟨_, rfl⟩
  have hpark : parkPayload s a.rand (flightCtx fl a.conn a.fd) =
      ({ s with store := ⟨s.store.htable, Function.update s.store.files name (some fl.file)⟩ },
        { flightCtx fl a.conn a.fd with req := { checkpointRequest fl.reqNo fl.file with filename := name } }) := by
    have hsize : (flightCtx fl a.conn a.fd).req.payload.size ≠ 0 := fun h0 => hne (List.length_eq_zero_iff.mp h0)
    rw [parkPayload, if_neg hsize, hname]
    rfl
  obtain ⟨ctx, hctx⟩ : ∃ ctx : ClientCtx, ctx = { flightCtx fl a.conn a.fd with
      req := { checkpointRequest fl.reqNo fl.file with filename := name } } := ⟨_, rfl⟩
  have htype : ctx.req.msgType = .msgChkPt := by rw [hctx]; rfl
  have hfilename : ctx.req.filename = name := by rw [hctx]
  obtain ⟨u, hu⟩ : ∃ u : Server, u = { s with
    store := ⟨s.store.htable, Function.update s.store.files name (some fl.file)⟩ } := ⟨_, rfl⟩
  have hback : isPassiveBackup u = true := by
    rw [hu]
    exact h.backup
  have hfull : ¬u.nrlQLimit ≤ u.nrl.length := by
    rw [hu]
    dsimp only
    rw [h.limit]
    omega
  have hlog : enqueueClientReq u ctx =
      (0, { u with isPrune := true, nrl := u.nrl ++ [{ ctx with isBacklog := true }] }) := by
    simp [enqueueClientReq, enqueue, isControl, htype, hback, hfull]
  refine ⟨{ ctx with isBacklog := true }, ?_, htype⟩
  rw [serverStep]
  unfold handleConnection
  rw [hpark, ← hctx, ← hu]
  dsimp only
  rw [hlog, if_neg (by rw [htype]; decide), if_neg (by simp),
    if_neg (by simp [earlyClose, hu, h.mode]), hfilename, hu]

/-- A backup that takes a checkpoint drops its backlog for it. -/
theorem checkpoint_taken (hz : env.ZeroHeap) {s : Server} (h : InRole .passiveBackup s)
    (hroom : s.nrl.length < 50) {fl : Flight} (hfile : CheckpointOf env q size fl.file) (a : Arrival) :
    ∃ t effs, serveEvents env s (fileEvents a fl) = some (t, effs) ∧ InRole .passiveBackup t ∧
      Holds env q size t ∧ t.nrl = [] := by
  obtain ⟨c, hreceived, hc⟩ := checkpoint_received env h hroom hfile.ne a
  obtain ⟨u, himport, hcells, hcount⟩ := hfile.imports s.store.htable
  have hsane : Sane u := importDbInternal_stable (sane_stable hz) _ _ _ himport h.table
  obtain ⟨t, ht⟩ : ∃ t : Server, t = { s with
    isPrune := false, nrl := []
    store := ⟨u, Function.update (Function.update s.store.files c.req.filename (some fl.file)) c.req.filename none⟩ } :=
    ⟨_, rfl⟩
  have hstorage : handleStorage env ⟨s.store.htable, Function.update s.store.files c.req.filename (some fl.file)⟩ c =
      .ok (0, t.store, c) := by
    unfold handleStorage
    rw [ht]
    simp only [hc, Function.update_self, himport]
  have hexec : ∃ effs, executeMsg env { s with
      isPrune := false, nrl := []
      store := ⟨s.store.htable, Function.update s.store.files c.req.filename (some fl.file)⟩ } c = .ok (t, effs) := by
    unfold executeMsg
    dsimp only
    rw [if_neg fun hp => by rw [h.state] at hp; cases hp.2.1]
    dsimp only
    rw [hstorage, ht]
    exact ⟨_, rfl⟩
  obtain ⟨effs, hexec⟩ := hexec
  obtain ⟨effs', hloop⟩ := @pruneLoop_onto env s.nrl c h.ordinary hc { s with
    isPrune := true, nrl := s.nrl ++ [c]
    store := ⟨s.store.htable, Function.update s.store.files c.req.filename (some fl.file)⟩ } t effs hexec
  have hrole : InRole .passiveBackup t := by
    rw [ht]
    exact ⟨⟨rfl, h.limit, h.ctrl, h.ctrlLimit, h.prev, hsane⟩, h.mode, h.state, h.thread, by simp⟩
  have hturn : serverStep env { s with
      isPrune := true, nrl := s.nrl ++ [c]
      store := ⟨s.store.htable, Function.update s.store.files c.req.filename (some fl.file)⟩ } .normal =
      .ok (t, effs' ++ []) := by
    rw [serverStep]
    unfold runNormal
    rw [if_pos rfl, hloop]
    dsimp only
    rw [normalTurn, if_pos ⟨hrole.prune, hrole.backup⟩]
  refine ⟨t, _, serveEvents_two hreceived hturn, hrole, ⟨?_, ?_⟩, by rw [ht]⟩
  · rw [ht]
    exact hcells
  · rw [ht]
    exact hcount

/-- A primary is told to send its table. -/
theorem primary_told {p : Replica} {s : Server} (h : InRole .passivePrimary s)
    (hq : cells s.store.htable = q) (hclean : CleanCells q) (hcount : entryCount s.store.htable ≤ size)
    (hsize : size ≤ 2 ^ 20) (hsvr : BackupsOf p s.bckupSvr) (a : Arrival) :
    ∃ fl effs, serveEvents env s (orderEvents a .sendChkpt) =
        some ({ s with chkPointNum := s.chkPointNum + 1 }, effs) ∧
      CheckpointOf env q size fl.file ∧ ∀ i, filesTo i effs = if i = p then [] else [fl] := by
  obtain ⟨ctx, hctx⟩ : ∃ ctx : ClientCtx, ctx = { fd := a.fd, conn := a.conn, isBacklog := isPassiveBackup s
                                                  req := relay .sendChkpt } := ⟨_, rfl⟩
  have hreceived : serverStep env s (.connection a.rand { fd := a.fd, conn := a.conn, req := relay .sendChkpt }) =
      .ok ({ s with ctrl := [ctx] }, []) := by
    rw [order_received h.ctrl h.ctrlLimit (by rw [h.mode]; decide) (Or.inr rfl) rfl, hctx]
  have hpopped : { s with ctrl := [] } = s := by
    obtain ⟨_, _, _, _, _, _, _, _, _, _, _, _, _, _⟩ := s
    have hctrl := h.ctrl
    dsimp only at hctrl
    subst hctrl
    rfl
  obtain ⟨fl, effs, hsend, hof, hfiles⟩ := checkpoint_sent env h.table hq hclean hcount hsize hsvr
  have htype : ctx.req.msgType = .msgSendChkpt := by rw [hctx]; rfl
  have hcontrol : serverStep env { s with ctrl := [ctx] } .control =
      .ok ({ s with chkPointNum := s.chkPointNum + 1 },
        effs ++ (writeClientResponce { s with chkPointNum := s.chkPointNum + 1 } ctx "OK" "Success" :: closeFd ctx)) := by
    rw [serverStep]
    unfold runControl executeMsgCtrl
    dsimp only
    rw [htype]
    dsimp only
    rw [if_pos (by rw [h.prev]; decide), hpopped, hsend]
    simp
  refine ⟨fl, _, serveEvents_two hreceived hcontrol, hof, fun i => ?_⟩
  rw [List.nil_append, filesTo_append, filesTo_reply, List.append_nil, hfiles]

end

end ToDoList
