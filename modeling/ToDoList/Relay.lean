import ToDoList.Cluster
import ToDoList.Header
import ToDoList.ManagerSpec

/-!
# From the manager through a factory to a server

The manager prints an order, the factory reads it into a `factory_message`, and
prints a command of its own for the server, which reads it as a request. Both
readers run the loop over header lines, and both senders write all of a cleared
buffer of MAX_LENGTH bytes. `relay` states the outcome.
-/

namespace ToDoList
open CLib

/-! ### replication_manager.c -/

inductive FactoryReq where
  | startup
  | changeState
  | sendChkpt
  | quiesceBegin
  | quiesceStop
  | noAction
  | other (n : ℤ)
deriving Repr, DecidableEq

def FactoryReq.toInt : FactoryReq → ℤ
  | .startup => 0
  | .changeState => 1
  | .sendChkpt => 2
  | .quiesceBegin => 3
  | .quiesceStop => 4
  | .noAction => 5
  | .other n => n

def FactoryReq.ofInt : ℤ → FactoryReq
  | 0 => .startup
  | 1 => .changeState
  | 2 => .sendChkpt
  | 3 => .quiesceBegin
  | 4 => .quiesceStop
  | 5 => .noAction
  | n => .other n

def orderFields (r : Replica) : FactoryMsg → List (String × Bytes)
  | .startup server =>
    [("Replica ID", decimalInt r.val), ("Factory Req", decimalInt FactoryReq.startup.toInt),
      ("Server IP", server.serverIp), ("Server Port", decimalInt server.port)]
  | .changeState modeRep state (some b) =>
    [("Replica ID", decimalInt r.val), ("Factory Req", decimalInt FactoryReq.changeState.toInt),
      ("REP MODE", decimalInt modeRep.toInt), ("Server State", decimalInt state.toInt),
      ("Checkpoint freq", decimalInt b.checkpointFreq),
      ("Replica 1 ID", decimalInt b.replica1.1.val), ("Replica 1 IP", b.replica1.2.serverIp),
      ("Replica 1 Port", decimalInt b.replica1.2.port),
      ("Replica 2 ID", decimalInt b.replica2.1.val), ("Replica 2 IP", b.replica2.2.serverIp),
      ("Replica 2 Port", decimalInt b.replica2.2.port)]
  | .changeState modeRep state none =>
    [("Replica ID", decimalInt r.val), ("Factory Req", decimalInt FactoryReq.changeState.toInt),
      ("REP MODE", decimalInt modeRep.toInt), ("Server State", decimalInt state.toInt)]
  | .sendChkpt =>
    [("Replica ID", decimalInt r.val), ("Factory Req", decimalInt FactoryReq.sendChkpt.toInt)]
  | .quiesceBegin =>
    [("Replica ID", decimalInt r.val), ("Factory Req", decimalInt FactoryReq.quiesceBegin.toInt)]
  | .quiesceStop =>
    [("Replica ID", decimalInt r.val), ("Factory Req", decimalInt FactoryReq.quiesceStop.toInt)]

def orderBuf (r : Replica) (msg : FactoryMsg) : Except Fault Bytes :=
  printBuf (headerText (orderFields r msg))

/-! ### factory.c -/

/-- `factory_message`, whose third entry of `server_arr` nothing uses. -/
structure FactoryMessage where
  replicaId : ℤ
  bkpReplicaId1 : ℤ
  bkpReplicaId2 : ℤ
  req : FactoryReq
  modeRep : RepMode
  checkpointFreq : ℤ
  serverState : ServerStates
  serverArr : ServerInfo × ServerInfo

inductive OrderKey where
  | replicaId
  | factoryReq
  | repMode
  | serverState
  | replica1Id
  | replica1Ip
  | replica1Port
  | replica2Id
  | replica2Ip
  | replica2Port
  | checkpointFreq
deriving Repr, DecidableEq

def OrderKey.text : OrderKey → String
  | .replicaId => "Replica ID"
  | .factoryReq => "Factory Req"
  | .repMode => "REP MODE"
  | .serverState => "Server State"
  | .replica1Id => "Replica 1 ID"
  | .replica1Ip => "Replica 1 IP"
  | .replica1Port => "Replica 1 Port"
  | .replica2Id => "Replica 2 ID"
  | .replica2Ip => "Replica 2 IP"
  | .replica2Port => "Replica 2 Port"
  | .checkpointFreq => "Checkpoint freq"

def orderKeys : List OrderKey :=
  [.replicaId, .factoryReq, .repMode, .serverState, .replica1Id, .replica1Ip, .replica1Port,
    .replica2Id, .replica2Ip, .replica2Port, .checkpointFreq]

def orderKey (key : Bytes) : Option OrderKey := orderKeys.find? fun k => ascii k.text = key

/-- The branches of `parse_rep_manager_kv` with what they print when they fail.
The `memcpy` of an address copies the string that `strncpy` would. -/
def setOrderField (msg : FactoryMessage) (value : Bytes) : OrderKey → Except String FactoryMessage
  | .replicaId => intField value "replica_id conversion failed; Malformed req!!!" fun v =>
      { msg with replicaId := v }
  | .factoryReq => intField value "Msg type Conversion failed!!!" fun v =>
      { msg with req := .ofInt v }
  | .repMode => intField value "Mode Conversion failed!!!" fun v => { msg with modeRep := .ofInt v }
  | .serverState => intField value "State Conversion failed!!!" fun v =>
      { msg with serverState := .ofInt v }
  | .replica1Id => intField value "Mode Conversion failed!!!" fun v =>
      { msg with bkpReplicaId1 := v }
  | .replica1Ip => .ok { msg with serverArr := (copyIp msg.serverArr.1 value, msg.serverArr.2) }
  | .replica1Port => intField value "Port 1 failed!!!" fun v =>
      { msg with serverArr := ({ msg.serverArr.1 with port := v }, msg.serverArr.2) }
  | .replica2Id => intField value "Mode Conversion failed!!!" fun v =>
      { msg with bkpReplicaId2 := v }
  | .replica2Ip => .ok { msg with serverArr := (msg.serverArr.1, copyIp msg.serverArr.2 value) }
  | .replica2Port => intField value "Port 2 failed!!!" fun v =>
      { msg with serverArr := (msg.serverArr.1, { msg.serverArr.2 with port := v }) }
  | .checkpointFreq => intField value "Checkpoint read failed!!!" fun v =>
      { msg with checkpointFreq := v }

def parseRepManagerKv (msg : FactoryMessage) (key value : Bytes) : Except String FactoryMessage :=
  match orderKey key with
  | none => .ok msg
  | some k => setOrderField msg value k

def namesBackups (state : ServerStates) : Bool :=
  state = .passivePreprimary || state = .activeRunning

def commandFields (type : MsgType) : List (String × Bytes) :=
  [("Client ID", decimalInt 0), ("Request No", decimalInt 0), ("Message Type", decimalInt type.toInt)]

def roleFields (msg : FactoryMessage) : List (String × Bytes) :=
  [("Client ID", decimalInt 0), ("Request No", decimalInt 0),
    ("Message Type", decimalInt MsgType.msgRepMgr.toInt), ("REP MODE", decimalInt msg.modeRep.toInt),
    ("Server State", decimalInt msg.serverState.toInt)]

def backupFields (msg : FactoryMessage) : List (String × Bytes) :=
  [("Checkpoint freq", decimalInt msg.checkpointFreq),
    ("Replica 1 ID", decimalInt msg.bkpReplicaId1), ("Replica 1 IP", msg.serverArr.1.serverIp),
    ("Replica 1 Port", decimalInt msg.serverArr.1.port),
    ("Replica 2 ID", decimalInt msg.bkpReplicaId2), ("Replica 2 IP", msg.serverArr.2.serverIp),
    ("Replica 2 Port", decimalInt msg.serverArr.2.port)]

/-- An address that fills its array has no terminator for `%s`. -/
def fillChangeStateBuf (msg : FactoryMessage) : Except Fault Bytes :=
  if namesBackups msg.serverState then
    if msg.serverArr.1.serverIp.length < ipLength ∧ msg.serverArr.2.serverIp.length < ipLength then
      printBuf (headerText (roleFields msg ++ backupFields msg))
    else .error .outOfBounds
  else printBuf (headerText (roleFields msg))

/-- What `handle_rep_man_command` writes to the server, if anything. -/
def commandBuf (replicaId : ℤ) (msg : FactoryMessage) : Except Fault (Option Bytes) :=
  if msg.replicaId = replicaId then
    match msg.req with
    | .changeState => (fillChangeStateBuf msg).map some
    | .sendChkpt => (printBuf (headerText (commandFields .msgSendChkpt))).map some
    | .quiesceBegin => (printBuf (headerText (commandFields .msgQuiesceStart))).map some
    | .quiesceStop => (printBuf (headerText (commandFields .msgQuiesceStop))).map some
    | _ => .ok none
  else .ok none

/-- `message` is what the uninitialised local holds. -/
def handleReplicationManagerMessage (replicaId : ℤ) (message : FactoryMessage)
    (reads : List ReadResult) : Except Fault (Option Bytes) :=
  match headerLoop parseRepManagerKv maxReqFields (initBufFd reads) message with
  | .error f => .error f
  | .ok (.accepted msg _) => commandBuf replicaId msg
  | .ok _ => .ok none

/-! ### The whole way -/

def readHeader (ctx : ClientCtx) (reads : List ReadResult) : Except Fault (Option ClientCtx) :=
  match headerLoop parseKv maxReqFields (initBufFd reads) ctx with
  | .error f => .error f
  | .ok (.accepted ctx _) => .ok (some ctx)
  | .ok _ => .ok none

/-- The request a server makes of an order, when `cut` and `cut'` say how the
network delivers what is written on the two connections. -/
def relayOrder (cut cut' : Bytes → List ReadResult) (r : Replica) (message : FactoryMessage)
    (ctx : ClientCtx) (msg : FactoryMsg) : Except Fault (Option ClientCtx) :=
  match orderBuf r msg with
  | .error f => .error f
  | .ok order =>
    match handleReplicationManagerMessage r.val message (cut order) with
    | .error f => .error f
    | .ok none => .ok none
    | .ok (some command) => readHeader ctx (cut' command)

/-! ### Agreement of the formats -/

theorem mem_orderKeys (k : OrderKey) : k ∈ orderKeys := by
  cases k <;> decide

theorem orderKey_text (k : OrderKey) : orderKey (ascii k.text) = some k := by
  have hall : ∀ k ∈ orderKeys, orderKey (ascii k.text) = some k := by decide +kernel
  exact hall k (mem_orderKeys k)

theorem plainKey_order (k : OrderKey) : PlainKey k.text := by
  have hall : ∀ k ∈ orderKeys, PlainKey k.text := by decide +kernel
  exact hall k (mem_orderKeys k)

theorem parseRepManagerKv_text (msg : FactoryMessage) (k : OrderKey) (value : Bytes) :
    parseRepManagerKv msg (ascii k.text) value = setOrderField msg value k := by
  rw [parseRepManagerKv, orderKey_text]

def OrderKey.pair (f : OrderKey × Bytes) : String × Bytes := (f.1.text, f.2)
def RequestKey.pair (f : RequestKey × Bytes) : String × Bytes := (f.1.text, f.2)

def orderHead (r : Replica) (req : FactoryReq) : List (OrderKey × Bytes) :=
  [(.replicaId, decimalInt r.val), (.factoryReq, decimalInt req.toInt)]

def orderRole (modeRep : RepMode) (state : ServerStates) : List (OrderKey × Bytes) :=
  [(.repMode, decimalInt modeRep.toInt), (.serverState, decimalInt state.toInt)]

def orderBackups (b : Backups) : List (OrderKey × Bytes) :=
  [(.checkpointFreq, decimalInt b.checkpointFreq),
    (.replica1Id, decimalInt b.replica1.1.val), (.replica1Ip, b.replica1.2.serverIp),
    (.replica1Port, decimalInt b.replica1.2.port),
    (.replica2Id, decimalInt b.replica2.1.val), (.replica2Ip, b.replica2.2.serverIp),
    (.replica2Port, decimalInt b.replica2.2.port)]

def commandHead (type : MsgType) : List (RequestKey × Bytes) :=
  [(.clientId, decimalInt 0), (.requestNo, decimalInt 0), (.messageType, decimalInt type.toInt)]

def commandRole (modeRep : RepMode) (state : ServerStates) : List (RequestKey × Bytes) :=
  [(.repMode, decimalInt modeRep.toInt), (.serverState, decimalInt state.toInt)]

def commandBackups (b : Backups) : List (RequestKey × Bytes) :=
  [(.checkpointFreq, decimalInt b.checkpointFreq),
    (.replica1Id, decimalInt b.replica1.1.val), (.replica1Ip, b.replica1.2.serverIp),
    (.replica1Port, decimalInt b.replica1.2.port),
    (.replica2Id, decimalInt b.replica2.1.val), (.replica2Ip, b.replica2.2.serverIp),
    (.replica2Port, decimalInt b.replica2.2.port)]

/-- An order and the command made of it, each given by its keyed fields. -/
theorem relayOrder_keyed {cut cut' : Bytes → List ReadResult} (hcut : IsCut cut)
    (hcut' : IsCut cut') {r : Replica} {message : FactoryMessage} {ctx ctx' : ClientCtx}
    {msg : FactoryMsg} (got : FactoryMessage) (order : List (OrderKey × Bytes))
    (command : List (RequestKey × Bytes))
    (horder : orderFields r msg = order.map OrderKey.pair)
    (hcommand : commandBuf r.val got = (printBuf (headerText (command.map RequestKey.pair))).map some)
    (hgot : setFields setOrderField message order = .ok got)
    (hctx : setFields setRequestField ctx command = .ok ctx')
    (hplain : ∀ f ∈ order, PlainWord f.2) (hplain' : ∀ f ∈ command, PlainWord f.2)
    (hcount : order.length ≤ maxReqFields) (hcount' : command.length ≤ maxReqFields) :
    relayOrder cut cut' r message ctx msg = .ok (some ctx') := by
  obtain ⟨buf, rest, hbuf, hread⟩ := headerLoop_keyed parseRepManagerKv_text plainKey_order hcut
    hplain hcount hgot
  obtain ⟨buf', rest', hbuf', hread'⟩ := headerLoop_keyed parseKv_text plainKey_request hcut'
    hplain' hcount' hctx
  have hprint : orderBuf r msg = .ok buf := by
    rw [orderBuf, horder]
    exact hbuf
  have hwritten : commandBuf r.val got = .ok (some buf') := by
    rw [hcommand]
    exact congrArg (Except.map some) hbuf'
  unfold relayOrder
  rw [hprint]
  dsimp only
  rw [handleReplicationManagerMessage, hread]
  dsimp only
  rw [hwritten]
  dsimp only
  rw [readHeader, hread']

theorem isInt32_replica (r : Replica) : IsInt32 r.val := by
  fin_cases r <;> decide

def RepMode.named : RepMode → Bool
  | .other _ => false
  | _ => true

def ServerStates.named : ServerStates → Bool
  | .other _ => false
  | _ => true

theorem RepMode.named_wire {x : RepMode} (h : x.named = true) :
    IsInt32 x.toInt ∧ RepMode.ofInt x.toInt = x := by
  cases x with
  | other n => cases h
  | _ => exact ⟨by decide, rfl⟩

theorem ServerStates.named_wire {x : ServerStates} (h : x.named = true) :
    IsInt32 x.toInt ∧ ServerStates.ofInt x.toInt = x := by
  cases x with
  | other n => cases h
  | _ => exact ⟨by decide, rfl⟩

structure ServerInfo.Plain (info : ServerInfo) : Prop where
  ip : PlainWord info.serverIp
  port : IsInt32 info.port

theorem copyIp_plain {value : Bytes} (h : PlainWord value) (info : ServerInfo) :
    copyIp info value = { info with serverIp := value } := by
  have hlen : value.length < ipLength := by
    have h19 := h.len
    unfold ipLength
    omega
  have hpos : ipLength - value.length = ipLength - value.length - 1 + 1 := by omega
  have hstr : cString (strncpy ipLength value).toList = value := by
    rw [toList_strncpy _ _ (Nat.le_of_lt hlen), hpos, List.replicate_succ]
    exact cString_append_nul _ _ fun b hb => (h.line b hb).2.2
  rw [copyIp, hstr]

/-- What a `factory_message` holds of the backups. -/
def withBackups (msg : FactoryMessage) (b : Backups) : FactoryMessage :=
  { msg with
    checkpointFreq := b.checkpointFreq
    bkpReplicaId1 := b.replica1.1.val
    bkpReplicaId2 := b.replica2.1.val
    serverArr := (b.replica1.2, b.replica2.2) }

structure Backups.Plain (b : Backups) : Prop where
  freq : IsInt32 b.checkpointFreq
  replica1 : b.replica1.2.Plain
  replica2 : b.replica2.2.Plain

theorem setFields_orderHead (message : FactoryMessage) (r : Replica) {req : FactoryReq}
    (hreq : IsInt32 req.toInt) : setFields setOrderField message (orderHead r req) =
      .ok { message with replicaId := r.val, req := .ofInt req.toInt } := by
  simp only [orderHead, setFields, setOrderField, intField, strToInt_decimalInt (isInt32_replica r),
    strToInt_decimalInt hreq]

theorem setFields_orderRole (message : FactoryMessage) {modeRep : RepMode} {state : ServerStates}
    (hmode : modeRep.named = true) (hstate : state.named = true) :
    setFields setOrderField message (orderRole modeRep state) =
      .ok { message with modeRep := modeRep, serverState := state } := by
  obtain ⟨hm, hm'⟩ := RepMode.named_wire hmode
  obtain ⟨hs, hs'⟩ := ServerStates.named_wire hstate
  simp only [orderRole, setFields, setOrderField, intField, strToInt_decimalInt hm,
    strToInt_decimalInt hs, hm', hs']

theorem setFields_orderBackups (message : FactoryMessage) {b : Backups} (h : b.Plain) :
    setFields setOrderField message (orderBackups b) = .ok (withBackups message b) := by
  simp only [orderBackups, setFields, setOrderField, intField, strToInt_decimalInt h.freq,
    strToInt_decimalInt (isInt32_replica _), strToInt_decimalInt h.replica1.port,
    strToInt_decimalInt h.replica2.port, copyIp_plain h.replica1.ip, copyIp_plain h.replica2.ip]
  rfl

theorem setFields_commandHead (ctx : ClientCtx) (hreq : ctx.req.reqNo = 0) {type : MsgType}
    (htype : IsInt32 type.toInt) : setFields setRequestField ctx (commandHead type) =
      .ok { ctx with clientId := 0, req := { ctx.req with msgType := .ofInt type.toInt } } := by
  have hzero : IsInt32 0 := by decide
  have hlow : UInt64.ofNat (setLow32 ctx.req.reqNo.toNat 0) = ctx.req.reqNo := by
    rw [hreq]
    rfl
  simp only [commandHead, setFields, setRequestField, intField, strToInt_decimalInt hzero,
    strToInt_decimalInt htype, hlow]

theorem setFields_commandRole (ctx : ClientCtx) {modeRep : RepMode} {state : ServerStates}
    (hmode : modeRep.named = true) (hstate : state.named = true) :
    setFields setRequestField ctx (commandRole modeRep state) =
      .ok (setRepMgrMsg ctx { ctx.req.repMgrMsg with repMode := modeRep, serverState := state }) := by
  obtain ⟨hm, hm'⟩ := RepMode.named_wire hmode
  obtain ⟨hs, hs'⟩ := ServerStates.named_wire hstate
  simp only [commandRole, setFields, setRequestField, intField, strToInt_decimalInt hm,
    strToInt_decimalInt hs, hm', hs', setRepMgrMsg]

theorem setFields_commandBackups (ctx : ClientCtx) {b : Backups} (h : b.Plain) :
    setFields setRequestField ctx (commandBackups b) =
      .ok (setRepMgrMsg ctx { ctx.req.repMgrMsg with
        checkpointFreq := b.checkpointFreq
        bckupSvr := ({ ctx.req.repMgrMsg.bckupSvr.1 with
            info := b.replica1.2, serverId := b.replica1.1.val },
          { ctx.req.repMgrMsg.bckupSvr.2 with
            info := b.replica2.2, serverId := b.replica2.1.val }) }) := by
  simp only [commandBackups, setFields, setRequestField, intField, strToInt_decimalInt h.freq,
    strToInt_decimalInt (isInt32_replica _), strToInt_decimalInt h.replica1.port,
    strToInt_decimalInt h.replica2.port, copyIp_plain h.replica1.ip, copyIp_plain h.replica2.ip,
    setRepMgrMsg, setBckup1, setBckup2]

/-- The `factory_message` behind the head and the role of an order. -/
def receivedRole (message : FactoryMessage) (r : Replica) (modeRep : RepMode) (state : ServerStates) :
    FactoryMessage :=
  { message with replicaId := r.val, req := .changeState, modeRep := modeRep, serverState := state }

theorem commandBuf_short {replicaId : ℤ} {got : FactoryMessage} (hid : got.replicaId = replicaId)
    (hreq : got.req = .changeState) (hstate : namesBackups got.serverState = false) :
    commandBuf replicaId got = (printBuf (headerText (roleFields got))).map some := by
  have hshort : ¬namesBackups got.serverState = true := by simp [hstate]
  rw [commandBuf, if_pos hid, hreq]
  dsimp only
  rw [fillChangeStateBuf, if_neg hshort]

theorem commandBuf_long {replicaId : ℤ} {got : FactoryMessage} (hid : got.replicaId = replicaId)
    (hreq : got.req = .changeState) (hstate : namesBackups got.serverState = true)
    (hip1 : PlainWord got.serverArr.1.serverIp) (hip2 : PlainWord got.serverArr.2.serverIp) :
    commandBuf replicaId got =
      (printBuf (headerText (roleFields got ++ backupFields got))).map some := by
  have hroom : got.serverArr.1.serverIp.length < ipLength ∧
      got.serverArr.2.serverIp.length < ipLength := by
    have hlen1 := hip1.len
    have hlen2 := hip2.len
    unfold ipLength
    omega
  rw [commandBuf, if_pos hid, hreq]
  dsimp only
  rw [fillChangeStateBuf, if_pos hstate, if_pos hroom]

theorem plainWords_head (r : Replica) {req : FactoryReq} (hreq : IsInt32 req.toInt) :
    ∀ f ∈ orderHead r req, PlainWord f.2 := by
  simp [orderHead, plainWord_decimalInt, isInt32_replica, hreq]

theorem plainWords_role {modeRep : RepMode} {state : ServerStates} (hmode : modeRep.named = true)
    (hstate : state.named = true) : (∀ f ∈ orderRole modeRep state, PlainWord f.2) ∧
      ∀ f ∈ commandRole modeRep state, PlainWord f.2 := by
  have hm := plainWord_decimalInt (RepMode.named_wire hmode).1
  have hs := plainWord_decimalInt (ServerStates.named_wire hstate).1
  simp [orderRole, commandRole, hm, hs]

theorem plainWords_backups {b : Backups} (h : b.Plain) :
    (∀ f ∈ orderBackups b, PlainWord f.2) ∧ ∀ f ∈ commandBackups b, PlainWord f.2 := by
  have hid : ∀ i : Replica, PlainWord (decimalInt i.val) := fun i =>
    plainWord_decimalInt (isInt32_replica i)
  simp [orderBackups, commandBackups, hid, plainWord_decimalInt h.freq, h.replica1.ip,
    h.replica2.ip, plainWord_decimalInt h.replica1.port, plainWord_decimalInt h.replica2.port]

theorem plainWords_command {type : MsgType} (htype : IsInt32 type.toInt) :
    ∀ f ∈ commandHead type, PlainWord f.2 := by
  have hzero := plainWord_decimalInt (by decide : IsInt32 0)
  simp [commandHead, hzero, plainWord_decimalInt htype]

/-! ### Every order comes through -/

/-- The orders a server hears of, as the manager can fill them: a role that
names backups comes with them. -/
def Relayable : FactoryMsg → Prop
  | .startup _ => False
  | .changeState modeRep state backups => modeRep.named = true ∧ state.named = true ∧
      namesBackups state = backups.isSome ∧ ∀ b ∈ backups, b.Plain
  | _ => True

section
variable {cut cut' : Bytes → List ReadResult} (hcut : IsCut cut) (hcut' : IsCut cut')
  (r : Replica) (message : FactoryMessage) (fd : ℤ) (conn : ℕ)

include hcut hcut'

theorem relayOrder_command {msg : FactoryMsg} (req : FactoryReq) (type : MsgType)
    (horder : orderFields r msg = (orderHead r req).map OrderKey.pair)
    (hreq : IsInt32 req.toInt) (htype : IsInt32 type.toInt)
    (hcommand : ∀ got : FactoryMessage, got.replicaId = r.val → got.req = .ofInt req.toInt →
      commandBuf r.val got = (printBuf (headerText (commandFields type))).map some) :
    relayOrder cut cut' r message { fd := fd, conn := conn } msg =
      .ok (some { fd := fd, conn := conn, req := { msgType := .ofInt type.toInt } }) :=
  relayOrder_keyed hcut hcut' _ (orderHead r req) (commandHead type) horder (hcommand _ rfl rfl)
    (setFields_orderHead message r hreq) (setFields_commandHead _ rfl htype)
    (plainWords_head r hreq) (plainWords_command htype) (show 2 ≤ 20 by decide)
    (show 3 ≤ 20 by decide)

theorem relayOrder_short {modeRep : RepMode} {state : ServerStates} (hmode : modeRep.named = true)
    (hstate : state.named = true) (hnone : namesBackups state = false) :
    relayOrder cut cut' r message { fd := fd, conn := conn } (.changeState modeRep state none) =
      .ok (some { fd := fd, conn := conn, req :=
        { msgType := .msgRepMgr, repMgrMsg := { repMode := modeRep, serverState := state } } }) := by
  have hreq : IsInt32 FactoryReq.changeState.toInt := by decide
  have htype : IsInt32 MsgType.msgRepMgr.toInt := by decide
  refine relayOrder_keyed hcut hcut' (receivedRole message r modeRep state)
    (orderHead r .changeState ++ orderRole modeRep state)
    (commandHead .msgRepMgr ++ commandRole modeRep state) rfl ?_ ?_ ?_ ?_ ?_
    (show 4 ≤ 20 by decide) (show 5 ≤ 20 by decide)
  · exact commandBuf_short rfl rfl hnone
  · rw [setFields_append _ (setFields_orderHead message r hreq), setFields_orderRole _ hmode hstate]
    rfl
  · rw [setFields_append _ (setFields_commandHead _ rfl htype), setFields_commandRole _ hmode hstate]
    rfl
  · intro f hf
    rcases List.mem_append.mp hf with hf | hf
    · exact plainWords_head r hreq f hf
    · exact (plainWords_role hmode hstate).1 f hf
  · intro f hf
    rcases List.mem_append.mp hf with hf | hf
    · exact plainWords_command htype f hf
    · exact (plainWords_role hmode hstate).2 f hf

theorem relayOrder_long {modeRep : RepMode} {state : ServerStates} {b : Backups}
    (hmode : modeRep.named = true) (hstate : state.named = true)
    (hsome : namesBackups state = true) (hb : b.Plain) :
    relayOrder cut cut' r message { fd := fd, conn := conn } (.changeState modeRep state (some b)) =
      .ok (some { fd := fd, conn := conn, req :=
        { msgType := .msgRepMgr
          repMgrMsg :=
            { repMode := modeRep
              serverState := state
              checkpointFreq := b.checkpointFreq
              bckupSvr := ({ info := b.replica1.2, serverId := b.replica1.1.val },
                { fd := 0, info := b.replica2.2, serverId := b.replica2.1.val }) } } }) := by
  have hreq : IsInt32 FactoryReq.changeState.toInt := by decide
  have htype : IsInt32 MsgType.msgRepMgr.toInt := by decide
  refine relayOrder_keyed hcut hcut' (withBackups (receivedRole message r modeRep state) b)
    (orderHead r .changeState ++ orderRole modeRep state ++ orderBackups b)
    (commandHead .msgRepMgr ++ commandRole modeRep state ++ commandBackups b) rfl ?_ ?_ ?_ ?_ ?_
    (show 11 ≤ 20 by decide) (show 12 ≤ 20 by decide)
  · exact commandBuf_long rfl rfl hsome hb.replica1.ip hb.replica2.ip
  · rw [List.append_assoc, setFields_append _ (setFields_orderHead message r hreq),
      setFields_append _ (setFields_orderRole _ hmode hstate), setFields_orderBackups _ hb]
    rfl
  · rw [List.append_assoc, setFields_append _ (setFields_commandHead _ rfl htype),
      setFields_append _ (setFields_commandRole _ hmode hstate), setFields_commandBackups _ hb]
    rfl
  · intro f hf
    rcases List.mem_append.mp hf with hf | hf
    · rcases List.mem_append.mp hf with hf | hf
      · exact plainWords_head r hreq f hf
      · exact (plainWords_role hmode hstate).1 f hf
    · exact (plainWords_backups hb).1 f hf
  · intro f hf
    rcases List.mem_append.mp hf with hf | hf
    · rcases List.mem_append.mp hf with hf | hf
      · exact plainWords_command htype f hf
      · exact (plainWords_role hmode hstate).2 f hf
    · exact (plainWords_backups hb).2 f hf

/-- The bytes on the two connections refine `relay`: the request is the one that
`clusterStep` hands to the server. -/
theorem relayOrder_refines_relay {msg : FactoryMsg} (h : Relayable msg) :
    relayOrder cut cut' r message { fd := fd, conn := conn } msg =
      .ok (some { fd := fd, conn := conn, req := relay msg }) := by
  cases msg with
  | startup server => exact h.elim
  | changeState modeRep state backups =>
    obtain ⟨hmode, hstate, hnames, hplain⟩ := h
    cases backups with
    | none =>
      rw [relayOrder_short hcut hcut' r message fd conn hmode hstate hnames]
      simp [relay]
    | some b =>
      rw [relayOrder_long hcut hcut' r message fd conn hmode hstate hnames (hplain b rfl)]
      simp only [namesBackups, Option.isSome_some, Bool.or_eq_true, decide_eq_true_eq] at hnames
      simp only [relay, if_pos hnames]
  | sendChkpt =>
    exact relayOrder_command hcut hcut' r message fd conn .sendChkpt .msgSendChkpt rfl (by decide)
      (by decide) fun got hid hreq => by rw [commandBuf, if_pos hid, hreq]; rfl
  | quiesceBegin =>
    exact relayOrder_command hcut hcut' r message fd conn .quiesceBegin .msgQuiesceStart rfl
      (by decide) (by decide) fun got hid hreq => by rw [commandBuf, if_pos hid, hreq]; rfl
  | quiesceStop =>
    exact relayOrder_command hcut hcut' r message fd conn .quiesceStop .msgQuiesceStop rfl
      (by decide) (by decide) fun got hid hreq => by rw [commandBuf, if_pos hid, hreq]; rfl

end

/-! ### The role commands of the manager -/

/-- A role command to `r`: the message of an election, or the short form for a
role without backups. -/
inductive RoleOrder (m : Manager) (r : Replica) : FactoryMsg → Prop
  | election : RoleOrder m r (fillMessageForPrimaryElection m r)
  | short {modeRep : RepMode} {state : ServerStates} (hmode : modeRep.named = true)
      (hstate : state.named = true) (hnone : namesBackups state = false) :
      RoleOrder m r (.changeState modeRep state none)

/-- What an election message is filled from. -/
structure SameTable (m m' : Manager) : Prop where
  mode : m'.mode = m.mode
  freq : m'.checkpointFreq = m.checkpointFreq
  server : ∀ i, (m'.node i).server = (m.node i).server

theorem SameTable.fill {m m' : Manager} (h : SameTable m m') (r : Replica) :
    fillMessageForPrimaryElection m' r = fillMessageForPrimaryElection m r := by
  unfold fillMessageForPrimaryElection
  dsimp only
  rw [h.mode, h.freq, h.server, h.server]

theorem SameTable.setNodeState {m m' : Manager} (h : SameTable m m') (r : Replica)
    (state : ReplicaState) : SameTable m (setNodeState m' r state) := by
  refine ⟨h.mode, h.freq, fun i => ?_⟩
  rw [← h.server i]
  unfold ToDoList.setNodeState
  dsimp only
  by_cases hi : i = r
  · subst hi
    rw [Function.update_self]
  · rw [Function.update_of_ne hi]

def RoleSent (m : Manager) (s : Sent) : Prop :=
  ∀ modeRep state backups, s.msg = .changeState modeRep state backups → RoleOrder m s.replica s.msg

/-- A call in progress that has kept the table and sent role commands only as
they are filled from it. -/
structure FromTable (m : Manager) (t : Turn) : Prop where
  table : SameTable m t.mgr
  sent : Sends (RoleSent m) t

section
variable {net : ℕ → Bool} {m : Manager} {t : Turn} {r : Replica}

theorem FromTable.noted {p : Turn × Bool} (h : FromTable m p.1) : FromTable m (noted p) := by
  refine ⟨?_, sends_noted h.sent⟩
  rw [noted_mgr]
  exact h.table

theorem FromTable.setTurnState (h : FromTable m t) (r : Replica) (state : ReplicaState) :
    FromTable m (setTurnState t r state) := ⟨h.table.setNodeState r state, h.sent⟩

theorem FromTable.send {msg : FactoryMsg} (h : FromTable m t) (hmsg : ∀ ok, RoleSent m ⟨r, msg, ok⟩) :
    FromTable m (send net t r msg).1 := ⟨h.table, sends_send h.sent hmsg⟩

theorem roleSent_fill (h : SameTable m t.mgr) (r : Replica) (ok : Bool) :
    RoleSent m ⟨r, fillMessageForPrimaryElection t.mgr r, ok⟩ := by
  intro modeRep state backups _
  rw [h.fill]
  exact .election

theorem FromTable.electNewPrimary (h : FromTable m t) (r : Replica) :
    FromTable m (electNewPrimary net t r).1 := by
  refine ⟨?_, sends_electNewPrimary h.sent (roleSent_fill h.table r)⟩
  unfold ToDoList.electNewPrimary
  dsimp only
  split
  · exact ⟨h.table.mode, h.table.freq, h.table.server⟩
  · exact h.table

theorem FromTable.changeStatus {modeRep : RepMode} {state : ServerStates} (h : FromTable m t)
    (hmode : modeRep.named = true) (hstate : state.named = true)
    (hshort : namesBackups state = true → modeRep = .activeRep ∧ state = .activeRunning) :
    FromTable m (sendChangeStatusToServer net t r modeRep state).1 := by
  unfold sendChangeStatusToServer
  split
  · exact h.send (roleSent_fill h.table r)
  · rename_i hother
    refine h.send fun ok _ _ _ _ => .short hmode hstate ?_
    cases hnames : namesBackups state with
    | false => rfl
    | true => exact absurd (hshort hnames) hother

theorem FromTable.restartServer (h : FromTable m t) (r : Replica) :
    FromTable m (restartServer net t r) := by
  have hsend : FromTable m (ToDoList.send net t r (.startup (t.mgr.node r).server)).1 :=
    h.send fun _ _ _ _ hmsg => by cases hmsg
  unfold ToDoList.restartServer
  dsimp only
  split
  · exact hsend.setTurnState r .sentStartupReq
  · exact hsend

theorem FromTable.toRunning {msg : FactoryMsg} (h : FromTable m t)
    (hmsg : ∀ i ok, RoleSent m ⟨i, msg, ok⟩) : FromTable m (toRunning net msg t) := by
  refine ⟨?_, sends_toRunning h.sent hmsg⟩
  rw [toRunning_mgr]
  exact h.table

theorem FromTable.moveOn (h : FromTable m t) (r : Replica) : FromTable m (moveOn net t r) := by
  unfold ToDoList.moveOn
  refine (FromTable.electNewPrimary ?_ _).noted
  exact ⟨⟨h.table.mode, h.table.freq, h.table.server⟩, h.sent⟩

theorem FromTable.markNeedsCheckpoint (h : FromTable m t) (r : Replica) :
    FromTable m (markNeedsCheckpoint t r) :=
  ⟨⟨h.table.mode, h.table.freq, h.table.server⟩, h.sent⟩

theorem FromTable.assignRole (h : FromTable m t) (r : Replica) : FromTable m (assignRole net t r) := by
  unfold ToDoList.assignRole
  split
  · exact (h.changeStatus rfl rfl (by decide)).noted
  · exact (h.electNewPrimary r).noted

theorem FromTable.activeUp (h : FromTable m t) (r : Replica) (state : ReplicaState) :
    FromTable m (activeUp net t r state) := by
  have hquiesce : ∀ i ok, RoleSent m ⟨i, .quiesceBegin, ok⟩ := fun _ _ _ _ _ hmsg => by cases hmsg
  have hstop : ∀ i ok, RoleSent m ⟨i, .quiesceStop, ok⟩ := fun _ _ _ _ _ hmsg => by cases hmsg
  have hchkpt : ∀ i ok, RoleSent m ⟨i, .sendChkpt, ok⟩ := fun _ _ _ _ _ hmsg => by cases hmsg
  have hrunning : namesBackups .activeRunning = true →
      RepMode.activeRep = .activeRep ∧ ServerStates.activeRunning = .activeRunning :=
    fun _ => ⟨rfl, rfl⟩
  unfold ToDoList.activeUp
  cases t.mgr.primaryReplicaId with
  | none =>
    refine (FromTable.changeStatus ?_ rfl rfl hrunning).noted
    exact ⟨⟨h.table.mode, h.table.freq, h.table.server⟩, h.sent⟩
  | some p =>
    have hrecover : FromTable m (ToDoList.noted (sendChangeStatusToServer net
        (ToDoList.setTurnState t r state) r .activeRep .activeRecover)) :=
      ((h.setTurnState r state).changeStatus rfl rfl (by decide)).noted
    refine (FromTable.changeStatus ?_ rfl rfl hrunning).noted
    exact ((((hrecover.toRunning hquiesce).send (hchkpt p)).noted).toRunning hstop)

theorem FromTable.passiveDown (h : FromTable m t) (r : Replica) : FromTable m (passiveDown net t r) := by
  have hrestart : FromTable m (ToDoList.restartServer net t r) := h.restartServer r
  unfold ToDoList.passiveDown
  dsimp only
  split
  · exact ⟨⟨hrestart.table.mode, hrestart.table.freq, hrestart.table.server⟩, hrestart.sent⟩
  · split
    · exact (hrestart.moveOn r).markNeedsCheckpoint r
    · exact hrestart.markNeedsCheckpoint r

theorem FromTable.activeDown (h : FromTable m t) (r : Replica) : FromTable m (activeDown net t r) := by
  have hrestart : FromTable m (ToDoList.restartServer net t r) := h.restartServer r
  unfold ToDoList.activeDown
  dsimp only
  split
  · exact hrestart.moveOn r
  · exact hrestart

theorem FromTable.passiveUp {u : Turn} {b : Bool} (h : FromTable m t)
    (hup : passiveUp net t r = .ok (u, b)) : FromTable m u := by
  rcases passiveUp_cases hup with ⟨-, rfl, -⟩ | ⟨-, p, -, hsend⟩
  · exact h.assignRole r
  · have hu : u = (ToDoList.send net (ToDoList.assignRole net t r) p .sendChkpt).1 :=
      congrArg Prod.fst hsend.symm
    rw [hu]
    exact (h.assignRole r).send fun _ _ _ _ hmsg => by cases hmsg

theorem FromTable.handleReport {u : Turn} {report : Report} {b : Bool} (h : FromTable m t)
    (hreport : handleReport net t report = .ok (u, b)) : FromTable m u := by
  unfold ToDoList.handleReport at hreport
  dsimp only at hreport
  split at hreport
  · split at hreport
    · split at hreport
      · split at hreport
        · cases hreport
        · rename_i v hv
          cases hreport
          exact (h.passiveUp hv).setTurnState _ _
        · rename_i v hv
          cases hreport
          exact h.passiveUp hv
      · cases hreport
        exact (h.activeUp _ _).setTurnState _ _
    · cases hreport
      exact h.setTurnState _ _
  · split at hreport
    · split at hreport
      · cases hreport
        exact (h.passiveDown _).setTurnState _ _
      · cases hreport
        exact (h.activeDown _).setTurnState _ _
    · cases hreport
      exact h
  · cases hreport
    exact h

theorem sameTable_entered (m : Manager) (report : Report) : SameTable m (entered m report) :=
  ⟨rfl, rfl, fun i => (entered_node m report i).2⟩

/-- The short form is never used for a role with backups: whatever a call of
`handle_state` sends is filled from the table or needs nothing of it. -/
theorem handleState_roleOrder {m' : Manager} {report : Report} {ret : ℤ} {sent : List Sent}
    (h : handleState net m report = .ok (ret, m', sent)) : ∀ s ∈ sent, RoleSent m s := by
  rw [handleState_entered net m report (handleState_free h)] at h
  have hentered : FromTable m { mgr := entered m report } :=
    ⟨sameTable_entered m report, sends_nil rfl⟩
  split at h
  · cases h
  · rename_i u hreport
    cases h
    exact (hentered.handleReport hreport).sent
  · rename_i u hreport
    cases h
    exact (hentered.handleReport hreport).sent

end

theorem RoleOrder.relayable {m : Manager} {r : Replica} {msg : FactoryMsg}
    (hserver : ∀ i, (m.node i).server.Plain) (hfreq : IsInt32 m.checkpointFreq)
    (h : RoleOrder m r msg) : Relayable msg := by
  cases h with
  | election =>
    unfold fillMessageForPrimaryElection
    cases m.mode with
    | passive =>
      refine ⟨rfl, rfl, rfl, ?_⟩
      rintro b ⟨⟩
      exact ⟨hfreq, hserver _, hserver _⟩
    | active =>
      refine ⟨rfl, rfl, rfl, ?_⟩
      rintro b ⟨⟩
      exact ⟨hfreq, hserver _, hserver _⟩
  | short hmode hstate hnone =>
    refine ⟨hmode, hstate, hnone, ?_⟩
    rintro b ⟨⟩

theorem RoleOrder.backups_eq {m : Manager} {r : Replica} {modeRep : RepMode} {state : ServerStates}
    {backups : Option Backups} (h : RoleOrder m r (.changeState modeRep state backups))
    (hnames : namesBackups state = true) :
    backups = some ⟨m.checkpointFreq,
      ((otherReplicas r).1, (m.node (otherReplicas r).1).server),
      ((otherReplicas r).2, (m.node (otherReplicas r).2).server)⟩ := by
  generalize hmsg : FactoryMsg.changeState modeRep state backups = msg at h
  cases h with
  | election =>
    unfold fillMessageForPrimaryElection at hmsg
    cases hm : m.mode with
    | passive =>
      rw [hm] at hmsg
      cases hmsg
      rfl
    | active =>
      rw [hm] at hmsg
      cases hmsg
      rfl
  | short hmode hstate hnone =>
    cases hmsg
    rw [hnone] at hnames
    cases hnames

theorem relay_backups (modeRep : RepMode) {state : ServerStates} {b : Backups}
    (h : state = .passivePreprimary ∨ state = .activeRunning) :
    (relay (.changeState modeRep state (some b))).repMgrMsg =
      { repMode := modeRep
        serverState := state
        checkpointFreq := b.checkpointFreq
        bckupSvr := ({ info := b.replica1.2, serverId := b.replica1.1.val },
          { fd := 0, info := b.replica2.2, serverId := b.replica2.1.val }) } := by
  unfold relay
  dsimp only
  rw [if_pos h]

theorem otherReplicas_spec (r : Replica) : (otherReplicas r).1 ≠ r ∧ (otherReplicas r).2 ≠ r ∧
    (otherReplicas r).1 ≠ (otherReplicas r).2 := by
  fin_cases r <;> decide

/-- A backup entry names replica `i` as the manager's table has it. -/
def Names (m : Manager) (svr : BsvrCtx) (i : Replica) : Prop :=
  svr.serverId = i.val ∧ svr.info = (m.node i).server

/-- Whatever the network does to the streams and whatever the factory's local
held before, a role command arrives as the manager sent it; a role with backups
arrives with the frequency and the two replicas other than the target. -/
theorem role_command_survives_relay {cut cut' : Bytes → List ReadResult} (hcut : IsCut cut)
    (hcut' : IsCut cut') (m : Manager) (hserver : ∀ i, (m.node i).server.Plain)
    (hfreq : IsInt32 m.checkpointFreq) (r : Replica) (message : FactoryMessage) (fd : ℤ) (conn : ℕ)
    {modeRep : RepMode} {state : ServerStates} {backups : Option Backups}
    (h : RoleOrder m r (.changeState modeRep state backups)) :
    ∃ ctx, relayOrder cut cut' r message { fd := fd, conn := conn }
        (.changeState modeRep state backups) = .ok (some ctx) ∧
      ctx.req.msgType = .msgRepMgr ∧ ctx.req.repMgrMsg.repMode = modeRep ∧
      ctx.req.repMgrMsg.serverState = state ∧
      (state = .passivePreprimary ∨ state = .activeRunning →
        ctx.req.repMgrMsg.checkpointFreq = m.checkpointFreq ∧
        ∃ i j, i ≠ r ∧ j ≠ r ∧ i ≠ j ∧ Names m ctx.req.repMgrMsg.bckupSvr.1 i ∧
          Names m ctx.req.repMgrMsg.bckupSvr.2 j) := by
  have hrelay := relayOrder_refines_relay hcut hcut' r message fd conn (h.relayable hserver hfreq)
  obtain ⟨hmode, hstate⟩ := relay_changeState modeRep state backups
  refine ⟨_, hrelay, rfl, hmode, hstate, ?_⟩
  intro hbackups
  obtain ⟨h1, h2, hne⟩ := otherReplicas_spec r
  have hnames : namesBackups state = true := by
    simp only [namesBackups, Bool.or_eq_true, decide_eq_true_eq]
    exact hbackups
  rw [h.backups_eq hnames, relay_backups modeRep hbackups]
  exact ⟨rfl, _, _, h1, h2, hne, ⟨rfl, rfl⟩, ⟨rfl, rfl⟩⟩

/-- A manager of `active` mode whose three servers have addresses and ports. -/
def addressed : Manager :=
  initManager .active (-1) fun i => ⟨ascii "10.0.0.1", 8080 + i.val⟩

def byByte (bytes : Bytes) : List ReadResult := .eintr :: bytes.map fun b => .data [b]

theorem isCut_byByte : IsCut byByte := by
  intro bytes
  constructor
  · intro x hx
    rcases List.mem_cons.mp hx with rfl | hx
    · decide
    · obtain ⟨b, -, rfl⟩ := List.mem_map.mp hx
      simp
  · unfold byByte content
    rw [List.flatMap_cons, List.nil_append, List.flatMap_map]
    exact List.flatMap_singleton' bytes

theorem addressed_plain (i : Replica) : (addressed.node i).server.Plain := by
  have hip : PlainWord (ascii "10.0.0.1") :=
    ⟨by decide +kernel, by decide +kernel, by decide +kernel, by decide +kernel⟩
  refine ⟨hip, ?_⟩
  fin_cases i <;> decide

theorem role_command_survives_relay_bytewise :
    ∃ ctx, relayOrder byByte byByte 1 ⟨7, 7, 7, .noAction, .unknownRep, 7, .quiesce, ⟨[], 7⟩, ⟨[], 7⟩⟩
        { fd := 5, conn := 0 } (fillMessageForPrimaryElection addressed 1) = .ok (some ctx) ∧
      ctx.req.msgType = .msgRepMgr ∧ ctx.req.repMgrMsg.repMode = .activeRep ∧
      ctx.req.repMgrMsg.serverState = .activeRunning ∧
      ((.activeRunning : ServerStates) = .passivePreprimary ∨
          (.activeRunning : ServerStates) = .activeRunning →
        ctx.req.repMgrMsg.checkpointFreq = addressed.checkpointFreq ∧
        ∃ i j, i ≠ 1 ∧ j ≠ 1 ∧ i ≠ j ∧ Names addressed ctx.req.repMgrMsg.bckupSvr.1 i ∧
          Names addressed ctx.req.repMgrMsg.bckupSvr.2 j) :=
  role_command_survives_relay isCut_byByte isCut_byByte addressed addressed_plain (by decide) 1 _ 5 0
    RoleOrder.election

end ToDoList
