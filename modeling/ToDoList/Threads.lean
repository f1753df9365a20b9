import ToDoList.Server

/-!
# The threads of a server, one access at a time

`handle_connection` runs once per connection, beside the two workers and the
checkpoint thread. A step is one access to what they share: the role, the prune
flag, a log (under its mutex), the table (under `storage_lock`) or a client
context. Contexts are allocated by `main` and freed by whoever is done with them.
-/

namespace ToDoList
open CLib

/-! ### Program counters -/

/-- Where a thread stands in `handle_connection`. -/
inductive ConnPc where
  | absent
  | reading
  | dispatch (ctx : ClientCtx)
  | quiesce (ctx : ClientCtx) (second : Bool)
  | backlog (ctx : ClientCtx)
  | prune (ctx : ClientCtx)
  | enter (ctx : ClientCtx)
  | entered (ctx : ClientCtx)
  | tail (ctx : ClientCtx)
  | exit
  | free
  | gone

/-- Where the NORMAL worker stands in `run`, and from `lock` on in `execute_msg`
or `free_msg`; `back` says that it goes on in the prune loop. -/
inductive NormalPc where
  | top
  | prune
  | pruned (ctx : ClientCtx)
  | sleepTest
  | sleepRole
  | count
  | promoteTest
  | promote
  | quiesceTest
  | take
  | lock (ctx : ClientCtx) (back : Bool)
  | exec (ctx : ClientCtx) (back : Bool)
  | promoteExec (ctx : ClientCtx) (back : Bool)
  | store (ctx : ClientCtx) (back : Bool)
  | reply (ctx : ClientCtx) (back : Bool)
  | close (ctx : ClientCtx) (back : Bool)
  | free (ctx : ClientCtx) (back : Bool)

inductive ControlPc where
  | top
  | take
  | exec (ctx : ClientCtx)
  | role (ctx : ClientCtx)
  | send (ctx : ClientCtx)
  | reply (ctx : ClientCtx)
  | close (ctx : ClientCtx)
  | free (ctx : ClientCtx)

/-- `stale i`: the client context of connection `i` is read, written or freed
after it has been freed. -/
inductive ThreadFault where
  | fault (f : Fault)
  | stale (i : ℕ)

/-- `heap i` is the field `fd` of the client context of connection `i` while
this is allocated. `entered` and `out` are ghosts: what the NORMAL log has taken
in, and what the threads have done. -/
structure Threads where
  server : Server
  heap : ℕ → Option ℤ := fun _ => none
  conn : ℕ → ConnPc := fun _ => .absent
  normal : NormalPc := .top
  control : ControlPc := .top
  entered : List ClientCtx := []
  out : List Effect := []

inductive ThreadEvent where
  | accept (i : ℕ) (fd : ℤ)
  | request (i rand : ℕ) (ctx : ClientCtx)
  | reject (i : ℕ) (ctx : ClientCtx) (msg : Option String)
  | conn (i : ℕ)
  | normal
  | control
  | chkptThread

def initThreads (serverId : ℤ) : Threads where
  server := { serverId := serverId }

/-! ### Steps -/

def lift (x : Except Fault Server) (k : Server → Threads) : Except ThreadFault Threads :=
  match x with
  | .error f => .error (.fault f)
  | .ok s => .ok (k s)

namespace Threads

variable (s : Threads)

def setConn (i : ℕ) (pc : ConnPc) : Threads := { s with conn := Function.update s.conn i pc }

/-- An access to the client context of connection `i`, whose `fd` is passed on. -/
def touch (i : ℕ) (k : ℤ → Except ThreadFault Threads) : Except ThreadFault Threads :=
  match s.heap i with
  | none => .error (.stale i)
  | some fd => k fd

/-- `if (client_ctx->fd >= 0) { close(client_ctx->fd); client_ctx->fd = -1; }` -/
def closeCtx (i : ℕ) (fd : ℤ) : Threads :=
  if 0 ≤ fd then { s with out := s.out ++ [.close fd i], heap := Function.update s.heap i (some (-1)) }
  else s

def freeCtx (i : ℕ) : Threads := { s with heap := Function.update s.heap i none }

def emit (effs : List Effect) : Threads := { s with out := s.out ++ effs }

end Threads

/-- The two accesses of each quiesce command, in their order. -/
def quiesceFirst (s : Server) (type : MsgType) : Except Fault Server :=
  if type = .msgQuiesceStart then .ok { s with prevState := s.state } else setState s s.prevState

def quiesceSecond (s : Server) (type : MsgType) : Except Fault Server :=
  if type = .msgQuiesceStart then setState s .quiesce else .ok { s with prevState := s.state }

def connStep (s : Threads) (i : ℕ) : Except ThreadFault Threads :=
  match s.conn i with
  | .absent | .reading | .gone => .ok s
  | .dispatch ctx => s.touch i fun _ => .ok
      (s.setConn i (if isQuiesceCommand ctx.req.msgType then .quiesce ctx false else .backlog ctx))
  | .quiesce ctx false => lift (quiesceFirst s.server ctx.req.msgType) fun t =>
      { s with server := t }.setConn i (.quiesce ctx true)
  | .quiesce ctx true => lift (quiesceSecond s.server ctx.req.msgType) fun t =>
      { s with server := t }.setConn i .exit
  | .backlog ctx => s.touch i fun _ => .ok
      (s.setConn i (.prune { ctx with isBacklog := isPassiveBackup s.server }))
  | .prune ctx => s.touch i fun _ =>
      let isPrune := s.server.isPrune || (ctx.req.msgType = MsgType.msgChkPt && ctx.isBacklog)
      .ok ({ s with server := { s.server with isPrune := isPrune } }.setConn i (.enter ctx))
  | .enter ctx =>
    if isControl ctx.req.msgType then
      let r := enqueue s.server.ctrlQLimit s.server.ctrl ctx
      .ok ({ s with server := { s.server with ctrl := r.2 } }.setConn i
        (if r.1 = 0 then .entered ctx else .exit))
    else
      let r := enqueue s.server.nrlQLimit s.server.nrl ctx
      .ok ({ s with server := { s.server with nrl := r.2 },
                    entered := if r.1 = 0 then s.entered ++ [ctx] else s.entered }.setConn i
        (if r.1 = 0 then .entered ctx else .exit))
  | .entered ctx => .ok (s.setConn i
      (if s.server.repMode = .activeRep ∧ s.server.state = .activeRecover then .tail ctx else .gone))
  -- the context is the workers' by now
  | .tail ctx => s.touch i fun fd =>
      if ctx.req.msgType ≠ .msgHeartbeat ∧ ctx.req.msgType ≠ .msgRepMgr then
        .ok ((s.emit [.close fd i]).setConn i .gone)
      else .ok (s.setConn i .gone)
  | .exit => s.touch i fun fd => .ok ((s.closeCtx i fd).setConn i .free)
  | .free => s.touch i fun _ => .ok ((s.freeCtx i).setConn i .gone)

/-- `execute_msg` holds `storage_lock`. -/
def NormalPc.locked : NormalPc → Bool
  | .exec .. | .promoteExec .. | .store .. => true
  | _ => false

def backTo (back : Bool) : NormalPc := if back then .prune else .top

def normalStep (env : Env) (s : Threads) : Except ThreadFault Threads :=
  match s.normal with
  | .top => .ok { s with normal := if s.server.isPrune then .prune else .sleepTest }
  | .prune =>
    match s.server.nrl with
    | [] => .ok { s with normal := .sleepTest }
    | ctx :: rest => .ok { s with server := { s.server with nrl := rest }, normal := .pruned ctx }
  | .pruned ctx => s.touch ctx.conn fun _ =>
      if ctx.req.msgType ≠ .msgChkPt then
        .ok { s.emit [.discard ctx] with normal := .close ctx true }
      else .ok { s with server := { s.server with isPrune := false }, normal := .lock ctx true }
  | .sleepTest => .ok { s with normal := if s.server.isPrune then .count else .sleepRole }
  | .sleepRole => .ok { s with normal := if isPassiveBackup s.server then .top else .count }
  | .count => .ok { s with normal := if s.server.nrl = [] then .promoteTest else .quiesceTest }
  | .promoteTest => .ok { s with normal :=
      if s.server.repMode = .passiveRep ∧ s.server.state = .passivePreprimary then .promote else .top }
  | .promote => lift (setState s.server .passivePrimary) fun t => { s with server := t, normal := .top }
  | .quiesceTest => .ok { s with normal := if s.server.state = .quiesce then .top else .take }
  | .take =>
    match s.server.nrl with
    | [] => .ok { s with normal := .top } -- "nrl dequeue error"
    | ctx :: rest => .ok { s with server := { s.server with nrl := rest }, normal := .lock ctx false }
  | .lock ctx back => .ok { s with normal := .exec ctx back }
  | .exec ctx back => s.touch ctx.conn fun _ =>
      if s.server.repMode = .passiveRep ∧ s.server.state = .passivePreprimary ∧ ctx.isBacklog = false
      then .ok { s with normal := .promoteExec ctx back }
      else .ok { s with normal := .store ctx back }
  | .promoteExec ctx back => lift (setState s.server .passivePrimary) fun t =>
      { s with server := t, normal := .store ctx back }
  | .store ctx back => s.touch ctx.conn fun fd =>
      match handleStorage env s.server.store { ctx with fd := fd } with
      | .error f => .error (.fault f)
      | .ok (ret, store, ctx') =>
        let t := { s.server with store := store }
        let fail := if ret ≠ 0 then [writeClientResponce t ctx' "FAIL" "Check inputs"] else []
        .ok { s.emit (.exec ctx :: fail) with server := t, normal := .reply ctx' back }
  | .reply ctx back => s.touch ctx.conn fun fd => .ok
      { s.emit [writeClientResponce s.server { ctx with fd := fd } "OK" "Success"] with
        normal := .close ctx back }
  | .close ctx back => s.touch ctx.conn fun fd => .ok
      { s.closeCtx ctx.conn fd with normal := .free ctx back }
  | .free ctx back => s.touch ctx.conn fun _ => .ok { s.freeCtx ctx.conn with normal := backTo back }

/-- `handle_rep_msg` behind `set_mode`. -/
def changeRole (s : Server) (msg : RepMgrMsg) : Except Fault Server :=
  setState { killChkptThrdIfRunning s with bckupSvr := msg.bckupSvr, checkpointFreq := msg.checkpointFreq }
    msg.serverState

def controlStep (env : Env) (s : Threads) : Except ThreadFault Threads :=
  match s.control with
  | .top => .ok { s with control := if s.server.ctrl = [] then .top else .take }
  | .take =>
    match s.server.ctrl with
    | [] => .ok { s with control := .top } -- "ctrl dequeue error"
    | ctx :: rest => .ok { s with server := { s.server with ctrl := rest }, control := .exec ctx }
  | .exec ctx => s.touch ctx.conn fun _ =>
      match ctx.req.msgType with
      | .msgRepMgr => lift
          (if s.server.repMode = .unknownRep then setMode s.server ctx.req.repMgrMsg.repMode
           else .ok s.server)
          fun t => { s with server := t, control := .role ctx }
      | .msgSendChkpt =>
        if s.server.prevState ≠ .activeRecover then .ok { s with control := .send ctx }
        else .ok { s with control := .reply ctx }
      | _ => .ok { s with control := .reply ctx }
  | .role ctx => s.touch ctx.conn fun _ => lift (changeRole s.server ctx.req.repMgrMsg) fun t =>
      { s with server := t, control := .reply ctx }
  | .send ctx =>
    if s.normal.locked then .ok s
    else
      match sendCheckpoint env s.server with
      | .error f => .error (.fault f)
      | .ok (t, effs) => .ok { s.emit effs with server := t, control := .reply ctx }
  | .reply ctx => s.touch ctx.conn fun fd => .ok
      { s.emit [writeClientResponce s.server { ctx with fd := fd } "OK" "Success"] with
        control := .close ctx }
  | .close ctx => s.touch ctx.conn fun fd => .ok { s.closeCtx ctx.conn fd with control := .free ctx }
  | .free ctx => s.touch ctx.conn fun _ => .ok { s.freeCtx ctx.conn with control := .top }

/-- A thread that cannot move stays where it is. -/
def threadsStep (env : Env) (s : Threads) : ThreadEvent → Except ThreadFault Threads
  | .accept i fd =>
    match s.conn i with
    | .absent => .ok ({ s with heap := Function.update s.heap i (some fd) }.setConn i .reading)
    | _ => .ok s
  | .request i rand ctx =>
    match s.conn i with
    | .reading => s.touch i fun fd =>
        let p := parkPayload s.server rand { ctx with fd := fd, conn := i }
        .ok ({ s with server := p.1 }.setConn i (.dispatch p.2))
    | _ => .ok s
  | .reject i ctx msg =>
    match s.conn i with
    | .reading => s.touch i fun fd => .ok ((s.emit (msg.toList.map fun m =>
        writeClientResponce s.server { ctx with fd := fd, conn := i } "FAIL" m)).setConn i .exit)
    | _ => .ok s
  | .conn i => connStep s i
  | .normal => normalStep env s
  | .control => controlStep env s
  | .chkptThread =>
    if s.normal.locked || !s.server.isChkptThrdRunning then .ok s
    else
      match sendCheckpoint env s.server with
      | .error f => .error (.fault f)
      | .ok (t, effs) => .ok { s.emit effs with server := t }

def threadsNext (env : Env) (s : Threads) (e : ThreadEvent) : Option Threads := (threadsStep env s e).toOption

end ToDoList
