import ToDoList.Storage
import Mathlib.Data.UInt

/-!
# A replica: roles, logs, connection threads and workers

The globals of state.c, log.c, worker.c, chkpt.c and server.c are one record.
A connection thread acts when its request is complete; the NORMAL and CONTROL
workers and the checkpoint thread act one iteration at a time. What an
iteration does outside the process is listed as effects. Stopping the
checkpoint thread, for which the source waits, is one step here.
-/

namespace ToDoList
open CLib

structure Server where
  repMode : RepMode := .unknownRep
  state : ServerStates := .unknownState
  prevState : ServerStates := .unknownState
  isPrune : Bool := false
  nrl : List ClientCtx := []
  ctrl : List ClientCtx := []
  nrlQLimit : ℕ := 50
  ctrlQLimit : ℕ := 50
  store : Store := storageInit
  serverId : ℤ
  chkPointNum : UInt64 := 0
  isChkptThrdRunning : Bool := false
  checkpointFreq : ℤ := 10
  bckupSvr : BsvrCtx × BsvrCtx := ({ fd := 0, serverId := 0 }, { fd := 0, serverId := 0 })

/-- `write` and `close` name the descriptor the code uses and, as a ghost, the
connection the request came from; `exec` and `discard` are the two ways a
request leaves the NORMAL log, `checkpoint` one attempt of `write_check_point`. -/
inductive Effect where
  | write (fd : ℤ) (conn : ℕ) (bytes : Bytes)
  | close (fd : ℤ) (conn : ℕ)
  | exec (ctx : ClientCtx)
  | discard (ctx : ClientCtx)
  | checkpoint (svr : BsvrCtx) (clientId : ℤ) (reqNo : UInt64) (file : Bytes)

/-! ### state.c -/

def startCkhptThread (s : Server) : Server := { s with isChkptThrdRunning := true }

def killChkptThrdIfRunning (s : Server) : Server := { s with isChkptThrdRunning := false }

def setMode (s : Server) (repMode : RepMode) : Except Fault Server :=
  if s.repMode = .unknownRep ∧ (repMode = .activeRep ∨ repMode = .passiveRep) then
    .ok { s with repMode := repMode }
  else .error .assertFailed

/-- The two tests of `set_state` against the mode. -/
def stateAllowed (repMode : RepMode) (sState : ServerStates) : Bool :=
  match repMode with
  | .unknownRep => false
  | .activeRep => sState = .activeRunning || sState = .activeRecover || sState = .quiesce
  | .passiveRep => sState = .passivePrimary || sState = .passiveBackup || sState = .passivePreprimary
  | .other _ => true

def setState (s : Server) (sState : ServerStates) : Except Fault Server :=
  if stateAllowed s.repMode sState then
    let s :=
      if s.repMode = .passiveRep then
        if sState = .passivePrimary then startCkhptThread s
        else if sState = .passiveBackup then killChkptThrdIfRunning s
        else s
      else s
    .ok { s with state := sState }
  else .error .assertFailed

def putInQuiesence (s : Server) : Except Fault Server :=
  setState { s with prevState := s.state } .quiesce

def removeFromQuiesence (s : Server) : Except Fault Server :=
  match setState s s.prevState with
  | .error f => .error f
  | .ok s => .ok { s with prevState := s.state }

def handleQuiesceCommand (s : Server) (type : MsgType) : Except Fault (ℤ × Server) :=
  if type = .msgQuiesceStart then (putInQuiesence s).map fun s => (0, s)
  else if type = .msgQuiesceStop then (removeFromQuiesence s).map fun s => (0, s)
  else .ok (-1, s)

/-! ### Replies -/

def ServerStates.toInt : ServerStates → ℤ
  | .unknownState => 0
  | .quiesce => 1
  | .activeRunning => 2
  | .activeRecover => 3
  | .passivePrimary => 4
  | .passiveBackup => 5
  | .passivePreprimary => 6
  | .other n => n

def respHead (ctx : ClientCtx) (status msg : String) : Bytes :=
  ascii "Status: " ++ ascii status ++ ascii "\r\n" ++
  ascii "Client ID: " ++ decimalInt ctx.clientId ++ ascii "\r\n" ++
  ascii "Request No: " ++ decimal ctx.req.reqNo.toNat ++ ascii "\r\n" ++
  ascii "Msg: " ++ ascii msg ++ ascii "\r\n"

def respBytes (s : Server) (ctx : ClientCtx) (status msg : String) : Bytes :=
  match ctx.req.msgType with
  | .msgAdd => respHead ctx status msg ++ ascii "Key: " ++ decimal ctx.req.hashKey.toNat ++
      ascii "\r\n\r\n"
  | .msgHeartbeat => respHead ctx status msg ++ ascii "State: " ++ decimalInt s.state.toInt ++
      ascii "\r\n"
  | _ => respHead ctx status msg ++ ascii "\r\n"

def writeClientResponce (s : Server) (ctx : ClientCtx) (status msg : String) : Effect :=
  .write ctx.fd ctx.conn (respBytes s ctx status msg)

/-- `if (client_ctx->fd >= 0) close(client_ctx->fd)` -/
def closeFd (ctx : ClientCtx) : List Effect :=
  if 0 ≤ ctx.fd then [.close ctx.fd ctx.conn] else []

/-! ### Connection threads -/

def isControl (type : MsgType) : Bool :=
  type = .msgHeartbeat || type = .msgRepMgr || type = .msgSendChkpt

def isPassiveBackup (s : Server) : Bool := s.repMode = .passiveRep && s.state = .passiveBackup

def enqueue (limit : ℕ) (log : List ClientCtx) (node : ClientCtx) : ℤ × List ClientCtx :=
  if limit ≤ log.length then (-1, log) else (0, log ++ [node])

/-- The flag is raised before `enqueue` has said whether there is room. -/
def enqueueClientReq (s : Server) (ctx : ClientCtx) : ℤ × Server :=
  let ctx := { ctx with isBacklog := isPassiveBackup s }
  let s := { s with isPrune := s.isPrune || (ctx.req.msgType = MsgType.msgChkPt && ctx.isBacklog) }
  if isControl ctx.req.msgType then
    let r := enqueue s.ctrlQLimit s.ctrl ctx
    (r.1, { s with ctrl := r.2 })
  else
    let r := enqueue s.nrlQLimit s.nrl ctx
    (r.1, { s with nrl := r.2 })

/-- `snprintf(filename, .., "tmp-%u", rand() * server_id)` -/
def tmpName (s : Server) (rand : ℕ) : Bytes :=
  ascii "tmp-" ++ decimal ((rand * s.serverId) % 2 ^ 32).toNat

def parkPayload (s : Server) (rand : ℕ) (ctx : ClientCtx) : Server × ClientCtx :=
  if ctx.req.payload.size = 0 then (s, ctx)
  else
    let name := tmpName s rand
    let files := Function.update s.store.files name (some ctx.req.payload.data)
    ({ s with store := { s.store with files := files } },
      { ctx with req := { ctx.req with filename := name } })

/-- The branch behind the TODO about the UNKNOWN state. -/
def earlyClose (s : Server) (type : MsgType) : Bool :=
  s.repMode = .activeRep && s.state = .activeRecover && type ≠ .msgHeartbeat && type ≠ .msgRepMgr

def isQuiesceCommand (type : MsgType) : Bool :=
  type = .msgQuiesceStop || type = .msgQuiesceStart

/-- `handle_connection` once header and payload have been read. The last
`close` leaves `client_ctx->fd` as it is. -/
def handleConnection (s : Server) (rand : ℕ) (ctx : ClientCtx) : Except Fault (Server × List Effect) :=
  let p := parkPayload s rand ctx
  let s := p.1
  let ctx := p.2
  if isQuiesceCommand ctx.req.msgType then
    match handleQuiesceCommand s ctx.req.msgType with
    | .error f => .error f
    | .ok (_, s) => .ok (s, closeFd ctx) -- as the label _EXIT does
  else
    let r := enqueueClientReq s ctx
    if r.1 ≠ 0 then .ok (r.2, closeFd ctx)
    else if earlyClose r.2 ctx.req.msgType then .ok (r.2, [.close ctx.fd ctx.conn])
    else .ok (r.2, [])

/-- The label _EXIT, with the reply written on the way there if there is one. -/
def rejectConnection (s : Server) (ctx : ClientCtx) (msg : Option String) : List Effect :=
  (msg.toList.map fun m => writeClientResponce s ctx "FAIL" m) ++ closeFd ctx

/-! ### Executing requests -/

def executeMsg (env : Env) (s : Server) (ctx : ClientCtx) : Except Fault (Server × List Effect) :=
  let promote := s.repMode = .passiveRep ∧ s.state = .passivePreprimary ∧ ctx.isBacklog = false
  match if promote then setState s .passivePrimary else .ok s with
  | .error f => .error f
  | .ok s =>
    match handleStorage env s.store ctx with
    | .error f => .error f
    | .ok (ret, store, ctx') =>
      let s := { s with store := store }
      let fail := if ret ≠ 0 then [writeClientResponce s ctx' "FAIL" "Check inputs"] else []
      .ok (s, .exec ctx :: fail ++ [writeClientResponce s ctx' "OK" "Success"] ++ closeFd ctx')

def handleRepMsg (s : Server) (ctx : ClientCtx) : Except Fault Server :=
  let msg := ctx.req.repMgrMsg
  match if s.repMode = .unknownRep then setMode s msg.repMode else .ok s with
  | .error f => .error f
  | .ok s =>
    let s := killChkptThrdIfRunning s
    setState { s with bckupSvr := msg.bckupSvr, checkpointFreq := msg.checkpointFreq } msg.serverState

/-- The body of the loop of `send_checkpoint`, and `send_checkpoint_ondemand`:
the file goes to both entries of `bckup_svr`, where these can be reached. -/
def sendCheckpoint (env : Env) (s : Server) : Except Fault (Server × List Effect) :=
  match exportDbInternal env s.store.htable with
  | .error f => .error f
  | .ok file => .ok ({ s with chkPointNum := s.chkPointNum + 1 },
      [.checkpoint s.bckupSvr.1 s.serverId s.chkPointNum file,
       .checkpoint s.bckupSvr.2 s.serverId s.chkPointNum file])

/-- What `handle_connection` reads back from the message of `write_check_point`
for a file of less than 2^31 bytes. -/
def checkpointRequest (reqNo : UInt64) (file : Bytes) : ClientRequest :=
  { msgType := .msgChkPt, reqNo := reqNo % 2 ^ 32, payload := ⟨file, file.length⟩ }

def executeMsgCtrl (env : Env) (s : Server) (ctx : ClientCtx) : Except Fault (Server × List Effect) :=
  let body : Except Fault (Server × List Effect) :=
    match ctx.req.msgType with
    | .msgRepMgr =>
      match handleRepMsg s ctx with
      | .error f => .error f
      | .ok s => .ok (s, [])
    | .msgSendChkpt => if s.prevState ≠ .activeRecover then sendCheckpoint env s else .ok (s, [])
    | _ => .ok (s, [])
  match body with
  | .error f => .error f
  | .ok (s, effs) => .ok (s, effs ++ [writeClientResponce s ctx "OK" "Success"] ++ closeFd ctx)

/-! ### worker.c -/

/-- The inner loop of `run`. The `continue` behind an executed checkpoint
continues this loop, so it ends only when the log is empty. -/
def pruneLoop (env : Env) : List ClientCtx → Server → Except Fault (Server × List Effect)
  | [], s => .ok (s, [])
  | ctx :: rest, s =>
    if ctx.req.msgType ≠ .msgChkPt then
      match pruneLoop env rest { s with nrl := rest } with
      | .error f => .error f
      | .ok (s, effs) => .ok (s, .discard ctx :: closeFd ctx ++ effs)
    else
      match executeMsg env { s with nrl := rest, isPrune := false } ctx with
      | .error f => .error f
      | .ok (s, effs) =>
        match pruneLoop env rest s with
        | .error f => .error f
        | .ok (s, effs') => .ok (s, effs ++ effs')

def normalTurn (env : Env) (s : Server) : Except Fault (Server × List Effect) :=
  if s.isPrune = false ∧ isPassiveBackup s then .ok (s, [])
  else
    let promote := s.repMode = .passiveRep ∧ s.state = .passivePreprimary ∧ s.nrl = []
    match if promote then setState s .passivePrimary else .ok s with
    | .error f => .error f
    | .ok s =>
      match s.nrl with
      | [] => .ok (s, [])
      | ctx :: rest => if s.state = .quiesce then .ok (s, []) else executeMsg env { s with nrl := rest } ctx

def runNormal (env : Env) (s : Server) : Except Fault (Server × List Effect) :=
  match if s.isPrune then pruneLoop env s.nrl s else .ok (s, []) with
  | .error f => .error f
  | .ok (s, effs) =>
    match normalTurn env s with
    | .error f => .error f
    | .ok (s, effs') => .ok (s, effs ++ effs')

def runControl (env : Env) (s : Server) : Except Fault (Server × List Effect) :=
  match s.ctrl with
  | [] => .ok (s, [])
  | ctx :: rest => executeMsgCtrl env { s with ctrl := rest } ctx

/-! ### Runs of a server -/

inductive ServerEvent where
  | connection (rand : ℕ) (ctx : ClientCtx)
  | reject (ctx : ClientCtx) (msg : Option String)
  | normal
  | control
  | chkptThread

def serverStep (env : Env) (s : Server) : ServerEvent → Except Fault (Server × List Effect)
  | .connection rand ctx => handleConnection s rand ctx
  | .reject ctx msg => .ok (s, rejectConnection s ctx msg)
  | .normal => runNormal env s
  | .control => runControl env s
  | .chkptThread => if s.isChkptThrdRunning then sendCheckpoint env s else .ok (s, [])

def serverNext (env : Env) (s : Server) (e : ServerEvent) : Option Server :=
  match serverStep env s e with
  | .error _ => none
  | .ok (t, _) => some t

end ToDoList
