import ToDoList.ServerSpec
import ToDoList.CLib.Descriptors

/-!
# Descriptors of a server

A descriptor belongs to its connection thread, then to the log entry of its
request, then to the worker that executes or drops the entry and closes it.
The branch of `handle_connection` that closes the descriptor of a request it
has just logged breaks this chain; without it every reply and every close hits
the connection the request was read from.
-/

namespace ToDoList
open CLib Descriptors

def handle (c : ClientCtx) : Handle := (c.fd, c.conn)

def fdActs (effs : List Effect) : List Act :=
  effs.filterMap fun
    | .write fd conn _ => some (.write (fd, conn))
    | .close fd conn => some (.close (fd, conn))
    | _ => none

theorem fdActs_append (a b : List Effect) : fdActs (a ++ b) = fdActs a ++ fdActs b :=
  List.filterMap_append

theorem serves_closeFd (c : ClientCtx) (h : 0 ≤ c.fd) : Serves [handle c] (fdActs (closeFd c)) := by
  rw [closeFd, if_pos h]
  exact .close .nil

theorem serves_reply (s : Server) (c : ClientCtx) (status msg : String) (h : 0 ≤ c.fd) :
    Serves [handle c] (fdActs ([writeClientResponce s c status msg] ++ closeFd c)) := by
  rw [fdActs_append]
  exact .write (serves_closeFd c h)

/-! ### One step of the server -/

theorem executeMsg_serves {env : Env} {s t : Server} {ctx : ClientCtx} {effs : List Effect}
    (h : executeMsg env s ctx = .ok (t, effs)) (hfd : 0 ≤ ctx.fd) :
    Serves [handle ctx] (fdActs effs) := by
  obtain ⟨ret, store, ctx', fail, hh, -, hfail, rfl⟩ := executeMsg_cases h
  obtain ⟨h1, h2⟩ := handleStorage_ctx hh
  have hhandle : handle ctx' = handle ctx := by rw [handle, handle, h1, h2]
  have hlast := serves_reply t ctx' "OK" "Success" (by rw [h1]; exact hfd)
  rw [← hhandle]
  rcases hfail with rfl | rfl
  · exact hlast
  · exact .write hlast

theorem executeMsgCtrl_serves {env : Env} {s t : Server} {ctx : ClientCtx} {effs : List Effect}
    (h : executeMsgCtrl env s ctx = .ok (t, effs)) (hfd : 0 ≤ ctx.fd) :
    Serves [handle ctx] (fdActs effs) := by
  obtain ⟨body, rfl, hbody⟩ := executeMsgCtrl_cases h
  have hnone : fdActs body = [] := by
    rcases hbody with ⟨-, -, rfl⟩ | ⟨-, -, hsend⟩ | ⟨-, rfl⟩
    · rfl
    · obtain ⟨file, -, -, rfl⟩ := sendCheckpoint_cases hsend
      rfl
    · rfl
  rw [List.append_assoc, fdActs_append, hnone]
  exact serves_reply t ctx "OK" "Success" hfd

theorem pruneLoop_serves {env : Env} {log : List ClientCtx} {s t : Server} {effs : List Effect}
    (h : pruneLoop env log s = .ok (t, effs)) (hfd : ∀ c ∈ log, 0 ≤ c.fd) :
    Serves (log.map handle) (fdActs effs) := by
  induction log generalizing s effs with
  | nil =>
    cases h
    exact .nil
  | cons c rest ih =>
    have hc := hfd c (List.mem_cons_self ..)
    have hrest : ∀ d ∈ rest, 0 ≤ d.fd := fun d hd => hfd d (List.mem_cons_of_mem _ hd)
    rw [pruneLoop] at h
    split at h
    · split at h
      · cases h
      · rename_i hloop
        cases h
        rw [fdActs_append]
        exact (serves_closeFd c hc).append (ih hloop hrest)
    · split at h
      · cases h
      · rename_i hexec
        split at h
        · cases h
        · rename_i hloop
          cases h
          rw [fdActs_append]
          exact (executeMsg_serves hexec hc).append (ih hloop hrest)

def logged (s : Server) : List Handle := (s.nrl ++ s.ctrl).map handle

def incoming : ServerEvent → List Handle
  | .connection _ ctx => [handle ctx]
  | .reject ctx _ => [handle ctx]
  | _ => []

/-- The request is logged and its descriptor closed at once: an active server
that recovers, and a request of neither kind that the test names. -/
def closesEarly (s : Server) : ServerEvent → Bool
  | .connection _ ctx => !isQuiesceCommand ctx.req.msgType && hasRoom s ctx.req.msgType &&
      earlyClose s ctx.req.msgType
  | _ => false

/-- `enqueue_client_req` takes over the descriptor exactly when there is room. -/
theorem enqueueClientReq_logged (s : Server) (ctx : ClientCtx) :
    (hasRoom s ctx.req.msgType = true ∧ (enqueueClientReq s ctx).1 = 0 ∧
        (handle ctx :: logged s).Perm (logged (enqueueClientReq s ctx).2)) ∨
      (hasRoom s ctx.req.msgType = false ∧ (enqueueClientReq s ctx).1 ≠ 0 ∧
        logged (enqueueClientReq s ctx).2 = logged s) := by
  rcases enqueueClientReq_cases s ctx with ⟨hr, he⟩ | ⟨hr, -, he⟩ | ⟨hr, -, he⟩
  · rw [he]
    exact Or.inr ⟨hr, by simp, rfl⟩
  · rw [he]
    refine Or.inl ⟨hr, rfl, ?_⟩
    simp only [logged, List.map_append, ← List.append_assoc]
    exact (List.perm_append_singleton ..).symm
  · rw [he]
    refine Or.inl ⟨hr, rfl, ?_⟩
    simp only [logged, List.map_append, List.append_assoc]
    exact List.perm_middle.symm

/-- A connection thread hands its descriptor to a log or closes it. -/
theorem handleConnection_serves {s t : Server} {rand : ℕ} {ctx : ClientCtx} {effs : List Effect}
    (h : handleConnection s rand ctx = .ok (t, effs)) (hfd : 0 ≤ ctx.fd)
    (hearly : closesEarly s (.connection rand ctx) = false) :
    ∃ closed, Serves closed (fdActs effs) ∧ (handle ctx :: logged s).Perm (closed ++ logged t) := by
  obtain ⟨u, ctx', hpark⟩ : ∃ u ctx', parkPayload s rand ctx = (u, ctx') := ⟨_, _, rfl⟩
  obtain ⟨⟨name, hname⟩, hu⟩ := parkPayload_frame hpark
  have htype : ctx'.req.msgType = ctx.req.msgType := by rw [hname]
  have hf : ctx'.fd = ctx.fd := by rw [hname]
  have hhandle : handle ctx' = handle ctx := by rw [hname]; rfl
  have hclose : Serves [handle ctx] (fdActs (closeFd ctx')) := by
    rw [← hhandle]
    exact serves_closeFd ctx' (by rw [hf]; exact hfd)
  have hlogged : logged u = logged s := by rw [hu]; rfl
  rcases handleConnection_cases hpark h with ⟨-, ⟨ret, hq⟩, rfl⟩ | ⟨hq, rfl, hout⟩
  · obtain ⟨_, _, _, rfl⟩ := handleQuiesceCommand_cases hq
    exact ⟨_, hclose, by rw [← hlogged]; exact List.Perm.refl _⟩
  · rcases enqueueClientReq_logged u ctx' with ⟨hroom, h0, hperm⟩ | ⟨-, h0, hsame⟩
    · have hnot : earlyClose (enqueueClientReq u ctx').2 ctx'.req.msgType = false := by
        obtain ⟨hmode, hstate⟩ := enqueueClientReq_role u ctx'
        have hroom' : hasRoom s ctx.req.msgType = true := by rw [← hroom, hu, htype]; rfl
        rw [htype] at hq
        rw [closesEarly, hq, hroom'] at hearly
        rw [earlyClose, hmode, hstate, htype, hu]
        simpa [earlyClose] using hearly
      rcases hout with ⟨hne, -⟩ | ⟨-, hyes, -⟩ | ⟨-, -, rfl⟩
      · exact absurd h0 hne
      · rw [hnot] at hyes
        cases hyes
      · refine ⟨[], .nil, ?_⟩
        rw [← hhandle, ← hlogged]
        exact hperm
    · rcases hout with ⟨-, rfl⟩ | ⟨hzero, -, -⟩ | ⟨hzero, -, -⟩
      · exact ⟨_, hclose, by rw [hsame, hlogged]; exact List.Perm.refl _⟩
      · exact absurd hzero h0
      · exact absurd hzero h0

theorem mem_logged {s : Server} {c : ClientCtx} (h : c ∈ s.nrl ∨ c ∈ s.ctrl) :
    handle c ∈ logged s :=
  List.mem_map_of_mem (List.mem_append.mpr h)

theorem normalTurn_serves {env : Env} {s t : Server} {effs : List Effect}
    (h : normalTurn env s = .ok (t, effs)) (hfd : ∀ p ∈ logged s, 0 ≤ p.1) :
    ∃ closed, Serves closed (fdActs effs) ∧ (logged s).Perm (closed ++ logged t) := by
  rcases normalTurn_cases h with ⟨rfl, rfl | ⟨-, rfl⟩⟩ | ⟨c, rest, hlog, -, hexec⟩
  · exact ⟨[], .nil, List.Perm.refl _⟩
  · exact ⟨[], .nil, List.Perm.refl _⟩
  · have hc : 0 ≤ c.fd := hfd _ (mem_logged (Or.inl (by rw [hlog]; exact List.mem_cons_self ..)))
    refine ⟨_, executeMsg_serves hexec hc, ?_⟩
    obtain ⟨hn, hctrl, -, -⟩ := executeMsg_frame hexec
    rw [logged, logged, hlog, hn, hctrl]
    exact List.Perm.refl _

theorem runNormal_serves {env : Env} {s t : Server} {effs : List Effect}
    (h : runNormal env s = .ok (t, effs)) (hfd : ∀ p ∈ logged s, 0 ≤ p.1) :
    ∃ closed, Serves closed (fdActs effs) ∧ (logged s).Perm (closed ++ logged t) := by
  rcases runNormal_cases h with ⟨-, hturn⟩ | ⟨-, u, hloop, ht⟩
  · exact normalTurn_serves hturn hfd
  · have hnrl : ∀ c ∈ s.nrl, 0 ≤ c.fd := fun c hc => hfd _ (mem_logged (Or.inl hc))
    obtain ⟨hn, hctrl⟩ := pruneLoop_frame hloop rfl
    have hlogged : logged t = s.ctrl.map handle := by
      rcases ht with rfl | ⟨-, rfl⟩
      · rw [logged, hn, hctrl]
        rfl
      · show ((u.nrl ++ u.ctrl).map handle) = _
        rw [hn, hctrl]
        rfl
    refine ⟨_, pruneLoop_serves hloop hnrl, ?_⟩
    rw [hlogged, logged, List.map_append]

theorem runControl_serves {env : Env} {s t : Server} {effs : List Effect}
    (h : runControl env s = .ok (t, effs)) (hfd : ∀ p ∈ logged s, 0 ≤ p.1) :
    ∃ closed, Serves closed (fdActs effs) ∧ (logged s).Perm (closed ++ logged t) := by
  rcases runControl_cases h with ⟨-, rfl, rfl⟩ | ⟨c, rest, hlog, hexec⟩
  · exact ⟨[], .nil, List.Perm.refl _⟩
  · have hc : 0 ≤ c.fd := hfd _ (mem_logged (Or.inr (by rw [hlog]; exact List.mem_cons_self ..)))
    refine ⟨_, executeMsgCtrl_serves hexec hc, ?_⟩
    obtain ⟨hn, hctrl, -, -⟩ := executeMsgCtrl_frame hexec
    rw [logged, logged, hlog, hn, hctrl]
    simp only [List.map_append, List.map_cons]
    exact List.perm_middle

theorem serverStep_serves {env : Env} {s t : Server} {e : ServerEvent} {effs : List Effect}
    (h : serverStep env s e = .ok (t, effs)) (hfd : ∀ p ∈ incoming e ++ logged s, 0 ≤ p.1)
    (hearly : closesEarly s e = false) :
    ∃ closed, Serves closed (fdActs effs) ∧ (incoming e ++ logged s).Perm (closed ++ logged t) := by
  cases e with
  | connection rand ctx =>
    exact handleConnection_serves h (hfd _ (List.mem_cons_self ..)) hearly
  | reject ctx msg =>
    cases h
    have hc : 0 ≤ ctx.fd := hfd _ (List.mem_cons_self ..)
    refine ⟨_, ?_, List.Perm.refl _⟩
    cases msg with
    | none => exact serves_closeFd ctx hc
    | some m => exact serves_reply s ctx "FAIL" m hc
  | normal => exact runNormal_serves h hfd
  | control => exact runControl_serves h hfd
  | chkptThread =>
    rw [serverStep] at h
    split at h
    · obtain ⟨file, -, rfl, rfl⟩ := sendCheckpoint_cases h
      exact ⟨[], .nil, List.Perm.refl _⟩
    · cases h
      exact ⟨[], .nil, List.Perm.refl _⟩

/-! ### The server and its descriptor table -/

/-- A server process: `reading` are the connection threads that have not read
their request yet, in the order they were accepted. -/
structure Process where
  server : Server
  ledger : Ledger
  reading : List ClientCtx

def boot (serverId : ℤ) : Process := ⟨{ serverId := serverId }, Ledger.empty, []⟩

/-- `accept` may return any descriptor that is closed. `complete` and `abort`
are the ends of the `i`-th connection thread, with what it has read. -/
inductive ProcessEvent where
  | accept (fd : ℤ)
  | complete (i rand : ℕ) (clientId : ℤ) (req : ClientRequest)
  | abort (i : ℕ) (clientId : ℤ) (req : ClientRequest) (msg : Option String)
  | normal
  | control
  | chkptThread

def serverEvent (k : Process) : ProcessEvent → Option ServerEvent
  | .accept _ => none
  | .complete i rand clientId req =>
    k.reading[i]?.map fun ctx => .connection rand { ctx with clientId := clientId, req := req }
  | .abort i clientId req msg =>
    k.reading[i]?.map fun ctx => .reject { ctx with clientId := clientId, req := req } msg
  | .normal => some .normal
  | .control => some .control
  | .chkptThread => some .chkptThread

def readingAfter (k : Process) : ProcessEvent → List ClientCtx
  | .complete i _ _ _ => k.reading.eraseIdx i
  | .abort i _ _ _ => k.reading.eraseIdx i
  | _ => k.reading

def processStep (env : Env) (k : Process) (e : ProcessEvent) : Option Process :=
  match e with
  | .accept fd =>
    if 0 ≤ fd ∧ k.ledger.fds fd = none then
      some ⟨k.server, k.ledger.accept fd, k.reading ++ [{ fd := fd, conn := k.ledger.next }]⟩
    else none
  | e =>
    match serverEvent k e with
    | none => none
    | some se =>
      match serverStep env k.server se with
      | .error _ => none
      | .ok (t, effs) => some ⟨t, k.ledger.acts (fdActs effs), readingAfter k e⟩

/-- Every `write` and `close` of the step finds its descriptor denoting the
connection the request was read from. -/
def HitsOwn (env : Env) (k : Process) (e : ProcessEvent) : Prop :=
  ∀ se t effs, serverEvent k e = some se → serverStep env k.server se = .ok (t, effs) →
    Owned k.ledger (fdActs effs)

/-- The step does not close the descriptor of a request it logs. -/
def NoEarlyClose (k : Process) (e : ProcessEvent) : Prop :=
  ∀ se, serverEvent k e = some se → closesEarly k.server se = false

instance (k : Process) (e : ProcessEvent) : Decidable (NoEarlyClose k e) :=
  match h : serverEvent k e with
  | none => isTrue fun se hse => by simp [h] at hse
  | some se => decidable_of_iff (closesEarly k.server se = false) (by simp [NoEarlyClose, h])

def pending (k : Process) : List Handle := k.reading.map handle ++ logged k.server

structure ProcessInv (k : Process) : Prop where
  holds : k.ledger.Holds (pending k)
  nonneg : ∀ p ∈ pending k, 0 ≤ p.1

theorem serverEvent_incoming {k : Process} {e : ProcessEvent} {se : ServerEvent}
    (h : serverEvent k e = some se) :
    (k.reading.map handle).Perm (incoming se ++ (readingAfter k e).map handle) := by
  have herase : ∀ i ctx, k.reading[i]? = some ctx →
      (k.reading.map handle).Perm (handle ctx :: (k.reading.eraseIdx i).map handle) := by
    intro i ctx hi
    obtain ⟨hlt, rfl⟩ := List.getElem?_eq_some_iff.mp hi
    exact (List.getElem_cons_eraseIdx_perm hlt).symm.map handle
  cases e with
  | accept fd => cases h
  | complete i rand clientId req =>
    obtain ⟨ctx, hi, rfl⟩ := Option.map_eq_some_iff.mp h
    exact herase i ctx hi
  | abort i clientId req msg =>
    obtain ⟨ctx, hi, rfl⟩ := Option.map_eq_some_iff.mp h
    exact herase i ctx hi
  | normal =>
    cases h
    exact List.Perm.refl _
  | control =>
    cases h
    exact List.Perm.refl _
  | chkptThread =>
    cases h
    exact List.Perm.refl _

theorem serverStep_owned {env : Env} {k : Process} {e : ProcessEvent} {se : ServerEvent} {t : Server}
    {effs : List Effect} (hinv : ProcessInv k) (hse : serverEvent k e = some se)
    (hearly : closesEarly k.server se = false) (h : serverStep env k.server se = .ok (t, effs)) :
    Owned k.ledger (fdActs effs) ∧
      ProcessInv ⟨t, k.ledger.acts (fdActs effs), readingAfter k e⟩ := by
  have hread := serverEvent_incoming hse
  -- the handles of the step in front, those of the other connection threads behind
  have hsplit : (pending k).Perm ((incoming se ++ logged k.server) ++ (readingAfter k e).map handle) := by
    refine (hread.append_right _).trans ?_
    rw [List.append_assoc, List.append_assoc]
    exact List.Perm.append_left _ List.perm_append_comm
  have hfd : ∀ p ∈ incoming se ++ logged k.server, 0 ≤ p.1 := fun p hp =>
    hinv.nonneg p (hsplit.mem_iff.mpr (List.mem_append_left _ hp))
  obtain ⟨closed, hserves, hperm⟩ := serverStep_serves h hfd hearly
  have hall : (pending k).Perm (closed ++ ((readingAfter k e).map handle ++ logged t)) := by
    refine (hsplit.trans (hperm.append_right _)).trans ?_
    rw [List.append_assoc]
    exact List.Perm.append_left _ List.perm_append_comm
  obtain ⟨hown, hholds⟩ := Ledger.Holds.serve hserves (hinv.holds.perm hall)
  exact ⟨hown, hholds, fun p hp => hinv.nonneg p (hall.mem_iff.mpr (List.mem_append_right _ hp))⟩

theorem processInv_boot (serverId : ℤ) : ProcessInv (boot serverId) :=
  ⟨Ledger.holds_empty, fun _ hp => absurd hp List.not_mem_nil⟩

theorem processStep_inv {env : Env} {k k' : Process} {e : ProcessEvent} (hinv : ProcessInv k)
    (hC : NoEarlyClose k e) (h : processStep env k e = some k') : ProcessInv k' := by
  by_cases hacc : ∃ fd, e = .accept fd
  · obtain ⟨fd, rfl⟩ := hacc
    rw [processStep] at h
    split at h
    · rename_i hfd
      cases h
      have hp : (pending ⟨k.server, k.ledger.accept fd,
          k.reading ++ [{ fd := fd, conn := k.ledger.next }]⟩).Perm ((fd, k.ledger.next) :: pending k) := by
        simp only [pending, List.map_append, List.append_assoc]
        exact List.perm_middle
      refine ⟨(hinv.holds.accept hfd.2).perm hp.symm, ?_⟩
      intro p hp'
      rcases List.mem_cons.mp (hp.mem_iff.mp hp') with rfl | hmem
      · exact hfd.1
      · exact hinv.nonneg p hmem
    · cases h
  · have hstep : ∃ se t effs, serverEvent k e = some se ∧ serverStep env k.server se = .ok (t, effs) ∧
        k' = ⟨t, k.ledger.acts (fdActs effs), readingAfter k e⟩ := by
      unfold processStep at h
      split at h
      · exact absurd ⟨_, rfl⟩ hacc
      · split at h
        · cases h
        · rename_i se hse
          split at h
          · cases h
          · rename_i t effs hst
            cases h
            exact ⟨se, t, effs, hse, hst, rfl⟩
    obtain ⟨se, t, effs, hse, hst, rfl⟩ := hstep
    exact (serverStep_owned hinv hse (hC se hse) hst).2

/-- As long as no request is logged with its descriptor closed, every reply and
close reaches the sender of its request, and every accepted connection has been
closed once if it is not pending any more, and never if it is. -/
theorem replies_reach_their_sender (env : Env) (serverId : ℤ) (es : List ProcessEvent)
    (hC : StepRun.AllSteps (processStep env) NoEarlyClose (boot serverId) es) :
    StepRun.AllSteps (processStep env) (HitsOwn env) (boot serverId) es ∧
      ∀ k, StepRun.run (processStep env) (boot serverId) es = some k →
        ∀ conn < k.ledger.next,
          k.ledger.closes conn = if conn ∈ (pending k).map Prod.snd then 0 else 1 := by
  constructor
  · refine StepRun.allSteps_of_invariant (I := ProcessInv) ?_ ?_ (processInv_boot serverId) hC
    · intro k e k' hinv hearly hstep
      exact processStep_inv hinv hearly hstep
    · intro k e hinv hearly se t effs hse hstep
      exact (serverStep_owned hinv hse (hearly se hse) hstep).1
  · intro k hrun conn hconn
    have hinv : ProcessInv k := StepRun.run_invariant
      (fun k e k' hi he hs => processStep_inv hi he hs) (processInv_boot serverId) hC hrun
    have hone := hinv.holds.once conn hconn
    split
    · rename_i hmem
      have hpos := List.count_pos_iff.mpr hmem
      omega
    · rename_i hmem
      rw [List.count_eq_zero.mpr hmem] at hone
      exact hone

def oneClient : List ProcessEvent :=
  [.accept 4, .complete 0 1 7 (removeRequest 5), .accept 5, .normal, .accept 4,
   .complete 1 1 8 { msgType := .msgHeartbeat }, .abort 0 8 {} none, .control]

theorem replies_reach_their_sender_oneClient :
    StepRun.AllSteps (processStep (zeroEnv fun _ => some 1)) NoEarlyClose (boot 1) oneClient ∧
      StepRun.AllSteps (processStep (zeroEnv fun _ => some 1)) (HitsOwn (zeroEnv fun _ => some 1))
        (boot 1) oneClient := by
  have hC : StepRun.AllSteps (processStep (zeroEnv fun _ => some 1)) NoEarlyClose (boot 1) oneClient := by
    decide +kernel
  exact ⟨hC, (replies_reach_their_sender _ 1 oneClient hC).1⟩

def recoverCommand : ClientRequest :=
  { msgType := .msgRepMgr, repMgrMsg := { repMode := .activeRep, serverState := .activeRecover } }

def reusedDescriptor : List ProcessEvent :=
  [.accept 4, .complete 0 1 0 recoverCommand, .control,
   .accept 5, .complete 0 1 7 (removeRequest 5), .accept 5]

theorem reply_reaches_other_client :
    ∃ k, StepRun.run (processStep (zeroEnv fun _ => some 1)) (boot 1) reusedDescriptor = some k ∧
      ¬HitsOwn (zeroEnv fun _ => some 1) k .normal := by
  refine ⟨_, rfl, ?_⟩
  intro h
  have hown := h .normal _ _ rfl rfl
  revert hown
  decide +kernel

end ToDoList
