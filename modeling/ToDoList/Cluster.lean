import ToDoList.Manager
import ToDoList.Server

/-!
# The manager, the factories, the fault detectors and the servers

Three replicas, each with a factory and a fault detector, under one manager.
Reports, orders to the factories and relayed commands wait in queues, one for
each sender, and are taken in order at any later time. A server may crash at
any time; what waits on its connections is lost with it.
-/

namespace ToDoList
open CLib

/-- The locals of `heartbeat_signal` and the number of its heartbeats; `probing`
stands between the connection and the answer. -/
structure Detector where
  firstTime : Bool := true
  connection : Bool := false
  serverState : ServerStates := .unknownState
  response : MessageResponse := {}
  heartbeatCount : ℕ := 0
  probing : Bool := false

structure Cluster where
  mgr : Manager
  detector : Replica → Detector := fun _ => {}
  toMgr : Replica → List Report := fun _ => []
  toFactory : Replica → List FactoryMsg := fun _ => []
  toServer : Replica → List ClientRequest := fun _ => []
  server : Replica → Option Server := fun _ => none

/-- Connections to a server other than those of its factory carry any type but
MSG_REP_MGR and the quiesce commands. -/
inductive ClusterEvent where
  | connect (i : Replica)
  | heartbeat (i : Replica)
  | report (i : Replica) (net : ℕ → Bool)
  | factory (i : Replica)
  | relayed (i : Replica) (rand : ℕ) (fd : ℤ) (conn : ℕ)
  | client (i : Replica) (rand : ℕ) (ctx : ClientCtx)
  | worker (i : Replica) (e : ServerEvent)
  | crash (i : Replica)

/-! ### local_f_detector.c -/

/-- `connect_to_server` and the tests behind it: the detector and its reports. -/
def detectorConnect (d : Detector) (i : Replica) (up : Bool) : Detector × List Report :=
  let d := { d with heartbeatCount := d.heartbeatCount + 1 }
  if up then
    ({ d with firstTime := false, connection := false, probing := true },
      (if d.firstTime then [⟨i, .running, d.serverState⟩] else []) ++
        (if d.connection then [⟨i, .running, d.serverState⟩] else []))
  else
    ({ d with connection := true, serverState := .unknownState },
      [⟨i, .faulted, .unknownState⟩])

def parseResponseFromServer (response : MessageResponse) (clientId : ℤ) : ℤ :=
  if response.clientId ≠ clientId then -2
  else if startsWith response.status "OK" then 0
  else if startsWith response.status "FAIL" then -1
  else 0

/-- What follows `get_response_from_server`, whose result nothing looks at;
`client_id` is 0. -/
def detectorVerdict (d : Detector) (i : Replica) (response : MessageResponse) :
    Detector × List Report :=
  if parseResponseFromServer response 0 < 0 then
    ({ d with
        response := response, connection := true, serverState := .unknownState, probing := false },
      [⟨i, .faulted, .unknownState⟩])
  else
    ({ d with response := response, serverState := response.state, probing := false },
      [⟨i, .running, response.state⟩])

/-- The answer to the heartbeat, or none; then the response is that of the last
answer. -/
def detectorAnswer (d : Detector) (i : Replica) : Option Server → Detector × List Report
  | some s => detectorVerdict d i { d.response with
      status := ascii "OK", clientId := 0, reqNo := d.heartbeatCount, state := s.state }
  | none => detectorVerdict d i d.response

/-! ### factory.c -/

/-- `fill_change_state_buf` and the other senders, as `parse_kv` reads them. -/
def relay : FactoryMsg → ClientRequest
  | .startup _ => {}
  | .changeState repMode serverState backups =>
    let msg : RepMgrMsg := { repMode := repMode, serverState := serverState }
    let msg : RepMgrMsg :=
      if serverState = .passivePreprimary ∨ serverState = .activeRunning then
        match backups with
        | none => msg
        | some b => { msg with
            checkpointFreq := b.checkpointFreq
            bckupSvr := ({ info := b.replica1.2, serverId := b.replica1.1.val },
              { fd := 0, info := b.replica2.2, serverId := b.replica2.1.val }) }
      else msg
    { msgType := .msgRepMgr, repMgrMsg := msg }
  | .sendChkpt => { msgType := .msgSendChkpt }
  | .quiesceBegin => { msgType := .msgQuiesceStart }
  | .quiesceStop => { msgType := .msgQuiesceStop }

theorem relay_changeState (repMode : RepMode) (serverState : ServerStates) (backups : Option Backups) :
    (relay (.changeState repMode serverState backups)).repMgrMsg.repMode = repMode ∧
      (relay (.changeState repMode serverState backups)).repMgrMsg.serverState = serverState := by
  unfold relay
  dsimp only
  split
  · cases backups with
    | none => exact ⟨rfl, rfl⟩
    | some b => exact ⟨rfl, rfl⟩
  · exact ⟨rfl, rfl⟩

/-- `handle_rep_man_command`. A second server process on the same port fails to
bind and exits; a command for a server that is down is dropped. -/
def handleRepManCommand (c : Cluster) (i : Replica) (msg : FactoryMsg) : Cluster :=
  match c.server i, msg with
  | none, .startup _ => { c with server := Function.update c.server i (some { serverId := i.val }) }
  | none, _ => c
  | some _, .startup _ => c
  | some _, msg => { c with toServer := Function.update c.toServer i (c.toServer i ++ [relay msg]) }

/-! ### Steps -/

def crashServer (c : Cluster) (i : Replica) : Cluster :=
  { c with
    server := Function.update c.server i none
    toServer := Function.update c.toServer i [] }

/-- A failed assertion or access ends the process. -/
def settle (c : Cluster) (i : Replica) : Except Fault (Server × List Effect) → Option Cluster
  | .ok (s, _) => some { c with server := Function.update c.server i (some s) }
  | .error .noReturn => none
  | .error _ => some (crashServer c i)

def fromClient (type : MsgType) : Bool := type ≠ .msgRepMgr && !isQuiesceCommand type

def isWorker : ServerEvent → Bool
  | .normal | .control | .chkptThread => true
  | _ => false

def delivered (sent : List Sent) (i : Replica) : List FactoryMsg :=
  (sent.filter fun s => s.ok && s.replica = i).map Sent.msg

def clusterStep (env : Env) (c : Cluster) : ClusterEvent → Option Cluster
  | .connect i =>
    if (c.detector i).probing then none
    else
      let d := detectorConnect (c.detector i) i (c.server i).isSome
      some { c with
        detector := Function.update c.detector i d.1
        toMgr := Function.update c.toMgr i (c.toMgr i ++ d.2) }
  | .heartbeat i =>
    if (c.detector i).probing then
      let d := detectorAnswer (c.detector i) i (c.server i)
      some { c with
        detector := Function.update c.detector i d.1
        toMgr := Function.update c.toMgr i (c.toMgr i ++ d.2) }
    else none
  | .report i net =>
    match c.toMgr i with
    | [] => none
    | report :: rest =>
      match handleState net c.mgr report with
      | .error _ => none
      | .ok (_, mgr, sent) => some { c with
          mgr := mgr
          toMgr := Function.update c.toMgr i rest
          toFactory := fun j => c.toFactory j ++ delivered sent j }
  | .factory i =>
    match c.toFactory i with
    | [] => none
    | msg :: rest =>
      some (handleRepManCommand { c with toFactory := Function.update c.toFactory i rest } i msg)
  | .relayed i rand fd conn =>
    match c.toServer i, c.server i with
    | req :: rest, some s =>
      settle { c with toServer := Function.update c.toServer i rest } i
        (handleConnection s rand { fd := fd, conn := conn, req := req })
    | _, _ => none
  | .client i rand ctx =>
    match c.server i with
    | none => none
    | some s => if fromClient ctx.req.msgType then settle c i (handleConnection s rand ctx) else none
  | .worker i e =>
    match c.server i with
    | none => none
    | some s => if isWorker e then settle c i (serverStep env s e) else none
  | .crash i =>
    match c.server i with
    | none => none
    | some _ => some (crashServer c i)

/-- What a step needs and what it does, event by event. -/
inductive ClusterMove (env : Env) (c : Cluster) : ClusterEvent → Cluster → Prop where
  | connect (i : Replica) (hidle : (c.detector i).probing = false) :
    ClusterMove env c (.connect i) { c with
      detector := Function.update c.detector i
        (detectorConnect (c.detector i) i (c.server i).isSome).1
      toMgr := Function.update c.toMgr i
        (c.toMgr i ++ (detectorConnect (c.detector i) i (c.server i).isSome).2) }
  | heartbeat (i : Replica) (hprobing : (c.detector i).probing = true) :
    ClusterMove env c (.heartbeat i) { c with
      detector := Function.update c.detector i (detectorAnswer (c.detector i) i (c.server i)).1
      toMgr := Function.update c.toMgr i
        (c.toMgr i ++ (detectorAnswer (c.detector i) i (c.server i)).2) }
  | report {i : Replica} {net : ℕ → Bool} {report : Report} {rest : List Report} {ret : ℤ}
    {mgr : Manager} {sent : List Sent} (hq : c.toMgr i = report :: rest)
    (hcall : handleState net c.mgr report = .ok (ret, mgr, sent)) :
    ClusterMove env c (.report i net) { c with
      mgr := mgr
      toMgr := Function.update c.toMgr i rest
      toFactory := fun j => c.toFactory j ++ delivered sent j }
  | factory {i : Replica} {msg : FactoryMsg} {rest : List FactoryMsg}
    (hq : c.toFactory i = msg :: rest) :
    ClusterMove env c (.factory i)
      (handleRepManCommand { c with toFactory := Function.update c.toFactory i rest } i msg)
  | relayed {i : Replica} {rand : ℕ} {fd : ℤ} {conn : ℕ} {req : ClientRequest}
    {rest : List ClientRequest} {s : Server} {c' : Cluster} (hq : c.toServer i = req :: rest)
    (hs : c.server i = some s)
    (hsettle : settle { c with toServer := Function.update c.toServer i rest } i
      (handleConnection s rand { fd := fd, conn := conn, req := req }) = some c') :
    ClusterMove env c (.relayed i rand fd conn) c'
  | client {i : Replica} {rand : ℕ} {ctx : ClientCtx} {s : Server} {c' : Cluster}
    (hs : c.server i = some s) (htype : fromClient ctx.req.msgType = true)
    (hsettle : settle c i (handleConnection s rand ctx) = some c') :
    ClusterMove env c (.client i rand ctx) c'
  | worker {i : Replica} {e : ServerEvent} {s : Server} {c' : Cluster} (hs : c.server i = some s)
    (hw : isWorker e = true) (hsettle : settle c i (serverStep env s e) = some c') :
    ClusterMove env c (.worker i e) c'
  | crash {i : Replica} {s : Server} (hs : c.server i = some s) :
    ClusterMove env c (.crash i) (crashServer c i)

theorem clusterStep_move {env : Env} {c c' : Cluster} {e : ClusterEvent}
    (h : clusterStep env c e = some c') : ClusterMove env c e c' := by
  cases e with
  | connect i =>
    rw [clusterStep] at h
    split at h
    · cases h
    · rename_i hidle
      cases h
      exact .connect i (Bool.eq_false_iff.mpr hidle)
  | heartbeat i =>
    rw [clusterStep] at h
    split at h
    · rename_i hprobing
      cases h
      exact .heartbeat i hprobing
    · cases h
  | report i net =>
    rw [clusterStep] at h
    split at h
    · cases h
    · rename_i report rest hq
      split at h
      · cases h
      · rename_i ret mgr sent hcall
        cases h
        exact .report hq hcall
  | factory i =>
    rw [clusterStep] at h
    split at h
    · cases h
    · rename_i msg rest hq
      cases h
      exact .factory hq
  | relayed i rand fd conn =>
    rw [clusterStep] at h
    split at h
    · rename_i req rest s hq hs
      exact .relayed hq hs h
    · cases h
  | client i rand ctx =>
    rw [clusterStep] at h
    split at h
    · cases h
    · rename_i s hs
      split at h
      · rename_i htype
        exact .client hs htype h
      · cases h
  | worker i e =>
    rw [clusterStep] at h
    split at h
    · cases h
    · rename_i s hs
      split at h
      · rename_i hw
        exact .worker hs hw h
      · cases h
  | crash i =>
    rw [clusterStep] at h
    split at h
    · cases h
    · rename_i s hs
      cases h
      exact .crash hs

def initCluster (freq : ℤ) (server : Replica → ServerInfo) : Cluster :=
  { mgr := initManager .passive freq server }

end ToDoList
