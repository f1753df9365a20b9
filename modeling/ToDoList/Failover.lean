import ToDoList.PairInv

/-!
# Passive failover and active state transfer

Both come down to one fact about a checkpointing pair: if every checkpoint
that `dst` executes fits its log, `dst` ends with the result of everything it
received. The code does not look whether a checkpoint fits: a prune pass throws
away requests that the primary had not executed when it exported, and a
recovering replica replays a checkpoint over requests that it does not cover.
-/

namespace ToDoList
open CLib

theorem pairRun_inv {env : Env} {start : Cells} (hz : env.ZeroHeap) {p₀ p : Pair}
    {es : List PairEvent} (h₀ : PairInv env start p₀)
    (hfit : StepRun.AllSteps (pairStep env) FitStep p₀ es)
    (hrun : StepRun.run (pairStep env) p₀ es = some p) : PairInv env start p :=
  StepRun.run_invariant (fun _ _ _ hi hf hs => pairStep_inv hz hi hf hs) h₀ hfit hrun

theorem entriesOf_eq {t u : HTable} (h : cells t = cells u) (key : UInt64) :
    entriesOf t key = entriesOf u key := congrFun h (hashFunc key, key)

/-! ### Passive mode -/

def passiveStart (srcId dstId : ℤ) (bckupSvr : BsvrCtx × BsvrCtx) : Pair where
  src :=
    { repMode := .passiveRep, state := .passivePrimary, isChkptThrdRunning := true,
      serverId := srcId, bckupSvr := bckupSvr }
  dst := { repMode := .passiveRep, state := .passiveBackup, serverId := dstId }
  restored := true

theorem pairInv_passiveStart (env : Env) (srcId dstId : ℤ) (bckupSvr : BsvrCtx × BsvrCtx) :
    PairInv env (cells (hashTableInit 0)) (passiveStart srcId dstId bckupSvr) where
  clean _ hr := absurd hr List.not_mem_nil
  src := ⟨rfl, rfl, Nat.le_refl _, Nat.le_refl _, rfl, goodTable_init 0⟩
  sent _ hfl := absurd hfl List.not_mem_nil
  dst := ⟨Nat.le_refl _, List.nil_suffix, fun _ => ⟨List.nil_suffix, rfl⟩,
    fun _ hc => absurd hc List.not_mem_nil, fun _ hc => absurd hc List.not_mem_nil, List.nodup_nil⟩

/-- Whenever the log of the backup is drained, its table holds what executing
once, in order, every request delivered to it gives. -/
theorem failover_keeps_updates (env : Env) (hz : env.ZeroHeap) (srcId dstId : ℤ)
    (bckupSvr : BsvrCtx × BsvrCtx) (es : List PairEvent) (p : Pair)
    (hrun : StepRun.run (pairStep env) (passiveStart srcId dstId bckupSvr) es = some p)
    (hfit : StepRun.AllSteps (pairStep env) FitStep (passiveStart srcId dstId bckupSvr) es)
    (hdrained : p.dst.nrl = []) :
    ∃ u, runRequests env storageInit (p.hist.take p.dstGot) = .ok u ∧
      ∀ key, entriesOf p.dst.store.htable key = entriesOf u.htable key := by
  have hinv := pairRun_inv hz (pairInv_passiveStart env srcId dstId bckupSvr) hfit hrun
  have hrestored : p.restored = true := by
    refine StepRun.run_invariant (C := fun _ _ => True) (I := fun q => q.restored = true) ?_ rfl
      (StepRun.allSteps_of_forall (fun _ _ => trivial) _ _) hrun
    intro q e q' hq _ hstep
    exact restored_step hq hstep
  have hclean : ∀ r ∈ p.hist.take p.dstGot, CleanRequest r := fun r hr =>
    hinv.clean r (List.mem_of_mem_take hr)
  obtain ⟨u, hu, hcells⟩ := runRequests_clean env storageInit _ hclean
  have hin := hinv.dst.inStep hrestored
  rw [hdrained] at hin
  exact ⟨u, hu, entriesOf_eq (hin.done.trans hcells.symm)⟩

def milkEnv : Env := zeroEnv fun _ => some milkKey

def roleCommand (repMode : RepMode) (serverState : ServerStates) : ClientRequest :=
  { msgType := .msgRepMgr, repMgrMsg := { repMode := repMode, serverState := serverState } }

/-- What moves the backup to PASSIVE_PREPRIMARY and lets its worker run. -/
def takeOver : List PairEvent :=
  [.dstCommand { fd := 6, req := roleCommand .passiveRep .passivePreprimary }, .dstControl,
   .dstNormal, .dstNormal]

/-- The checkpoint is exported behind the request, and a second request arrives
behind the prune pass. -/
def coveredRun : List PairEvent :=
  [.issue (addRequest (ascii "buy milk")), .srcRecv { fd := 4 }, .dstRecv { fd := 4 }, .srcNormal,
   .srcChkptThread, .arrive 0 1 5, .dstNormal, .issue (removeRequest 7), .dstRecv { fd := 4 }] ++ takeOver

theorem failover_keeps_updates_coveredRun :
    ∃ p, StepRun.run (pairStep milkEnv) (passiveStart 0 1 ({}, {})) coveredRun = some p ∧
      ∃ u, runRequests milkEnv storageInit (p.hist.take p.dstGot) = .ok u ∧
        ∀ key, entriesOf p.dst.store.htable key = entriesOf u.htable key := by
  have hend : (StepRun.run (pairStep milkEnv) (passiveStart 0 1 ({}, {})) coveredRun).any
      (fun p => p.dst.nrl = []) = true := by decide +kernel
  have hfit : StepRun.AllSteps (pairStep milkEnv) FitStep (passiveStart 0 1 ({}, {})) coveredRun := by
    decide +kernel
  obtain ⟨p, hrun, hdrained⟩ := (Option.any_eq_true _ _).mp hend
  exact ⟨p, hrun, failover_keeps_updates milkEnv (fun _ => rfl) 0 1 ({}, {}) coveredRun p hrun hfit
    (of_decide_eq_true hdrained)⟩

/-- The request is in both logs when the primary exports its empty table; the
prune pass of the backup drops it. -/
def lostUpdate : List PairEvent :=
  [.issue (addRequest (ascii "buy milk")), .srcRecv { fd := 4 }, .dstRecv { fd := 4 },
   .srcChkptThread, .arrive 0 1 5, .dstNormal] ++ takeOver

theorem failover_loses_update :
    ∃ p u, StepRun.run (pairStep milkEnv) (passiveStart 0 1 ({}, {})) lostUpdate = some p ∧
      p.dst.state = .passivePrimary ∧ p.dst.nrl = [] ∧ p.srcGot = p.hist.length ∧
      p.dstGot = p.hist.length ∧ runRequests milkEnv storageInit p.hist = .ok u ∧
      entriesOf p.dst.store.htable milkKey = [] ∧
      entriesOf u.htable milkKey = [(ascii "buy milk", 8)] := by
  have hend : (StepRun.run (pairStep milkEnv) (passiveStart 0 1 ({}, {})) lostUpdate).any
      (fun p => p.dst.state = .passivePrimary ∧ p.dst.nrl = [] ∧ p.srcGot = p.hist.length ∧
        p.dstGot = p.hist.length ∧ p.hist = [addRequest (ascii "buy milk")] ∧
        entriesOf p.dst.store.htable milkKey = []) = true := by decide +kernel
  have hkept : (runRequests milkEnv storageInit [addRequest (ascii "buy milk")]).toOption.any
      (fun u => entriesOf u.htable milkKey = [(ascii "buy milk", 8)]) = true := by decide +kernel
  obtain ⟨p, hrun, hp⟩ := (Option.any_eq_true _ _).mp hend
  obtain ⟨hstate, hnil, hsrc, hdst, hhist, hlost⟩ := of_decide_eq_true hp
  obtain ⟨u, hu, hentry⟩ := (Option.any_eq_true _ _).mp hkept
  refine ⟨p, u, hrun, hstate, hnil, hsrc, hdst, ?_, hlost, of_decide_eq_true hentry⟩
  rw [hhist]
  exact StepRun.mem_toOption.mp hu

/-! ### Active mode -/

/-- A running replica with any table a checkpoint can carry and any updates in
its log, and a replica that has just come up. The requests in the log of `src`
reached it before; everything from now on goes to both. -/
structure TransferStart (env : Env) (p : Pair) : Prop where
  table : ReachableTable env p.src.store.htable
  texts : Checkpointable p.src.store.htable
  updates : ∀ c ∈ p.src.nrl, CleanRequest c.req
  prune : p.src.isPrune = false
  hist : p.hist = p.src.nrl.map fun c => c.req
  srcGot : p.srcGot = p.hist.length
  srcDone : p.srcDone = 0
  dstGot : p.dstGot = p.hist.length
  sent : p.sent = []
  restored : p.restored = false
  log : p.dst.nrl = []

theorem pairInv_transferStart {env : Env} (hz : env.ZeroHeap) {p : Pair} (h : TransferStart env p) :
    PairInv env (cells p.src.store.htable) p where
  clean r hr := by
    rw [h.hist] at hr
    obtain ⟨c, hc, rfl⟩ := List.mem_map.mp hr
    exact h.updates c hc
  src := by
    refine ⟨h.prune, ?_, ?_, h.srcGot.le, ?_, ?_⟩
    · rw [h.srcGot, h.srcDone, List.take_length, List.drop_zero, h.hist]
    · rw [h.srcDone]
      exact Nat.zero_le _
    · rw [h.srcDone]
      rfl
    · exact ⟨tableInv_of_reachable env _ h.table, zeroTail_of_reachable env hz _ h.table, h.texts⟩
  sent fl hfl := by
    rw [h.sent] at hfl
    exact absurd hfl List.not_mem_nil
  dst := by
    refine ⟨h.dstGot.le, ?_, ?_, ?_, ?_, ?_⟩
    · rw [h.log]
      exact List.nil_suffix
    · intro hr
      rw [h.restored] at hr
      cases hr
    · rw [h.log]
      exact fun _ hc => absurd hc List.not_mem_nil
    · rw [h.log]
      exact fun _ hc => absurd hc List.not_mem_nil
    · rw [h.log]
      exact List.nodup_nil

/-- Once the recovering replica has executed a checkpoint, both have received
the same requests and both logs are empty, the tables agree. -/
theorem state_transfer_agrees (env : Env) (hz : env.ZeroHeap) (p₀ : Pair) (h₀ : TransferStart env p₀)
    (es : List PairEvent) (p : Pair) (hrun : StepRun.run (pairStep env) p₀ es = some p)
    (hfit : StepRun.AllSteps (pairStep env) FitStep p₀ es) (hrestored : p.restored = true)
    (hgot : p.srcGot = p.dstGot) (hsrc : p.src.nrl = []) (hdst : p.dst.nrl = []) :
    ∀ key, entriesOf p.dst.store.htable key = entriesOf p.src.store.htable key := by
  have hinv := pairRun_inv hz (pairInv_transferStart hz h₀) hfit hrun
  have hs := hinv.src
  have hall : p.srcDone = p.srcGot := by
    have hlog := hs.log
    rw [hsrc] at hlog
    have hlen := congrArg List.length hlog
    rw [List.length_drop, List.length_take, min_eq_left hs.got_le] at hlen
    have hzero : (0 : ℕ) = p.srcGot - p.srcDone := hlen
    have hle := hs.done_le
    omega
  have hin := hinv.dst.inStep hrestored
  rw [hdst] at hin
  have hcells : cells p.dst.store.htable = cells p.src.store.htable := by
    rw [hs.state, hall, hgot]
    exact hin.done
  exact entriesOf_eq hcells

def activeStart (srcId dstId : ℤ) : Pair where
  src := { repMode := .activeRep, state := .activeRunning, serverId := srcId }
  dst := { serverId := dstId }

theorem transferStart_activeStart (env : Env) (srcId dstId : ℤ) :
    TransferStart env (activeStart srcId dstId) where
  table := ⟨[], storageInit, rfl, rfl⟩
  texts _ _ hd := absurd hd List.not_mem_nil
  updates _ hc := absurd hc List.not_mem_nil
  prune := rfl
  hist := rfl
  srcGot := rfl
  srcDone := rfl
  dstGot := rfl
  sent := rfl
  restored := rfl
  log := rfl

def quiesceBoth (type : MsgType) : List PairEvent :=
  [.srcCommand { fd := 6, req := { msgType := type } }, .dstCommand { fd := 6, req := { msgType := type } }]

/-- The recovery sequence of `handle_state`, around what happens in it. -/
def recovery (between : List PairEvent) : List PairEvent :=
  [.dstCommand { fd := 6, req := roleCommand .activeRep .activeRecover }, .dstControl] ++ between ++
    quiesceBoth .msgQuiesceStart ++
    [.srcCommand { fd := 6, req := { msgType := .msgSendChkpt } }, .srcControl, .arrive 0 1 5] ++
    quiesceBoth .msgQuiesceStop ++
    [.dstCommand { fd := 6, req := roleCommand .activeRep .activeRunning }, .dstControl,
      .srcNormal, .dstNormal, .dstNormal]

def milkToBoth : List PairEvent :=
  [.issue (addRequest (ascii "buy milk")), .srcRecv { fd := 4 }, .dstRecv { fd := 4 }]

/-- The request is executed by both before they are quiesced. -/
def quietRecovery : List PairEvent := recovery (milkToBoth ++ [.srcNormal, .dstNormal])

theorem state_transfer_agrees_quietRecovery :
    ∃ p, StepRun.run (pairStep milkEnv) (activeStart 0 1) quietRecovery = some p ∧
      ∀ key, entriesOf p.dst.store.htable key = entriesOf p.src.store.htable key := by
  have hend : (StepRun.run (pairStep milkEnv) (activeStart 0 1) quietRecovery).any
      (fun p => p.restored = true ∧ p.srcGot = p.dstGot ∧ p.src.nrl = [] ∧ p.dst.nrl = []) = true := by
    decide +kernel
  have hfit : StepRun.AllSteps (pairStep milkEnv) FitStep (activeStart 0 1) quietRecovery := by
    decide +kernel
  obtain ⟨p, hrun, hp⟩ := (Option.any_eq_true _ _).mp hend
  obtain ⟨hrestored, hgot, hsrc, hdst⟩ := of_decide_eq_true hp
  exact ⟨p, hrun, state_transfer_agrees milkEnv (fun _ => rfl) _ (transferStart_activeStart _ 0 1)
    quietRecovery p hrun hfit hrestored hgot hsrc hdst⟩

/-- The request waits in both logs while the servers are quiesced: the exported
table is without it, and the checkpoint lands behind it. -/
def busyRecovery : List PairEvent := recovery milkToBoth

theorem state_transfer_loses_update :
    ∃ p, StepRun.run (pairStep milkEnv) (activeStart 0 1) busyRecovery = some p ∧
      p.src.state = .activeRunning ∧ p.dst.state = .activeRunning ∧ p.restored = true ∧
      p.srcGot = p.hist.length ∧ p.dstGot = p.hist.length ∧ p.src.nrl = [] ∧ p.dst.nrl = [] ∧
      entriesOf p.src.store.htable milkKey = [(ascii "buy milk", 8)] ∧
      entriesOf p.dst.store.htable milkKey = [] := by
  have hend : (StepRun.run (pairStep milkEnv) (activeStart 0 1) busyRecovery).any
      (fun p => p.src.state = .activeRunning ∧ p.dst.state = .activeRunning ∧ p.restored = true ∧
        p.srcGot = p.hist.length ∧ p.dstGot = p.hist.length ∧ p.src.nrl = [] ∧ p.dst.nrl = [] ∧
        entriesOf p.src.store.htable milkKey = [(ascii "buy milk", 8)] ∧
        entriesOf p.dst.store.htable milkKey = []) = true := by decide +kernel
  obtain ⟨p, hrun, hp⟩ := (Option.any_eq_true _ _).mp hend
  exact ⟨p, hrun, of_decide_eq_true hp⟩

end ToDoList
