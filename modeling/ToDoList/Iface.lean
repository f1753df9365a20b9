import ToDoList.CLib.Buffer

/-!
# Interface types (c_s_iface.h, state.h, server.h)

The enumerations keep the members of the source; a value that `str_to_int`
reads from the wire and that no member names is `other`. `Fault` lists the ways
a function of the server ends without returning.
-/

namespace ToDoList
open CLib

def taskLength : ℕ := 1024
def dateLength : ℕ := 32
def maxLength : ℕ := 8192

inductive TStatus where
  | taskNotDone
  | taskDone
  | other (n : ℕ)
deriving Repr, DecidableEq

inductive MsgType where
  | invalid
  | msgAdd
  | msgModify
  | msgGetAll
  | msgRemove
  | msgHeartbeat
  | msgChkPt
  | msgRepMgr
  | msgSendChkpt
  | msgQuiesceStart
  | msgQuiesceStop
  | other (n : ℤ)
deriving Repr, DecidableEq

inductive RepMode where
  | unknownRep
  | activeRep
  | passiveRep
  | other (n : ℤ)
deriving Repr, DecidableEq

inductive ServerStates where
  | unknownState
  | quiesce
  | activeRunning
  | activeRecover
  | passivePrimary
  | passiveBackup
  | passivePreprimary
  | other (n : ℤ)
deriving Repr, DecidableEq

/-- A failed `assert`, an access outside an object, a null pointer, a loop that
was not left within the steps granted to it. -/
inductive Fault where
  | assertFailed
  | outOfBounds
  | nullDeref
  | noReturn
deriving Repr, DecidableEq

structure ServerInfo where
  serverIp : Bytes
  port : ℤ
deriving Repr, DecidableEq

structure BsvrCtx where
  fd : ℤ := -1
  info : ServerInfo := ⟨[], 0⟩
  serverId : ℤ := -1
deriving Repr, DecidableEq

/-- `rep_mgr_msg_t`. The initialiser names only the first of the two entries
of `bckup_svr`; the second is zeroed. -/
structure RepMgrMsg where
  repMode : RepMode := .unknownRep
  serverState : ServerStates := .unknownState
  checkpointFreq : ℤ := 10
  bckupSvr : BsvrCtx × BsvrCtx := ({}, { fd := 0, serverId := 0 })
deriving Repr, DecidableEq

structure Payload where
  data : Bytes := []
  size : ℕ := 0
deriving Repr, DecidableEq

/-- `client_request_t` with `CLIENT_REQUEST_INITIALISER` as defaults. -/
structure ClientRequest where
  msgType : MsgType := .invalid
  task : CArray taskLength := zeros taskLength
  date : CArray dateLength := zeros dateLength
  taskStatus : TStatus := .taskNotDone
  modFlags : ℤ := 0
  taskLen : UInt64 := 0
  hashKey : UInt64 := 0
  reqNo : UInt64 := 0
  payload : Payload := {}
  filename : Bytes := []
  repMgrMsg : RepMgrMsg := {}
deriving DecidableEq

/-- `client_ctx_t`. `conn` is not in the source: it names the accepted
connection the request was read from, which no code looks at. -/
structure ClientCtx where
  fd : ℤ := -1
  clientId : ℤ := 0
  req : ClientRequest := {}
  isBacklog : Bool := false
  conn : ℕ := 0
deriving DecidableEq

/-- `struct message_response`. -/
structure MessageResponse where
  hashKey : UInt64 := 0
  clientId : ℤ := 0
  status : Bytes := []
  reqNo : ℤ := 0
  state : ServerStates := .unknownState
deriving DecidableEq

end ToDoList
