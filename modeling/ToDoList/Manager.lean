import ToDoList.Iface
import ToDoList.CLib.StepRun
import Mathlib.Data.Fintype.Basic

/-!
# The replication manager (replication_manager.c)

`handle_state` takes one report of a fault detector under the lock. Every
message to a factory is one attempt to connect and write, which the network
lets through or not; `net n` is the outcome of the `n`-th attempt of a call. A
call that finds the lock taken does not return.
-/

namespace ToDoList

inductive ReplicaState where
  | running
  | faulted
  | sentStartupReq
  | other (n : ℤ)
deriving Repr, DecidableEq

abbrev Replica := Fin 3

instance neZeroReplica : NeZero 3 := ⟨by decide⟩

/-- `(id + 1) % MAX_REPLICAS` -/
def nextReplica (r : Replica) : Replica := r + 1

structure ReplicaNode where
  state : ReplicaState := .faulted
  serverState : ServerStates := .unknownState
  lastHeartbeat : ℕ := 0
  server : ServerInfo := ⟨[], 0⟩

structure Backups where
  checkpointFreq : ℤ
  replica1 : Replica × ServerInfo
  replica2 : Replica × ServerInfo
deriving Repr, DecidableEq

inductive FactoryMsg where
  | startup (server : ServerInfo)
  | changeState (repMode : RepMode) (serverState : ServerStates) (backups : Option Backups)
  | sendChkpt
  | quiesceBegin
  | quiesceStop
deriving Repr, DecidableEq

inductive ManagerMode where
  | passive
  | active
deriving Repr, DecidableEq

/-- The globals of the manager; `primary_replica_id == -1` is `none`. -/
structure Manager where
  mode : ManagerMode
  primaryReplicaId : Option Replica := none
  node : Replica → ReplicaNode := fun _ => {}
  serverStatus : Replica → Bool := fun _ => false
  numServers : ℤ := 0
  needsCheckpoint : Replica → Bool := fun _ => false
  checkpointFreq : ℤ := 0
  locked : Bool := false

structure Sent where
  replica : Replica
  msg : FactoryMsg
  ok : Bool

/-- A call in progress: the manager, the attempts so far and `ret`. -/
structure Turn where
  mgr : Manager
  sent : List Sent := []
  ret : ℤ := 0

variable (net : ℕ → Bool)

def send (t : Turn) (replicaId : Replica) (msg : FactoryMsg) : Turn × Bool :=
  let ok := net t.sent.length
  ({ t with sent := t.sent ++ [⟨replicaId, msg, ok⟩] }, ok)

/-- `ret = -1` behind a failed attempt. -/
def noted (r : Turn × Bool) : Turn := if r.2 then r.1 else { r.1 with ret := -1 }

def setNodeState (m : Manager) (r : Replica) (state : ReplicaState) : Manager :=
  { m with node := Function.update m.node r { m.node r with state := state } }

def setTurnState (t : Turn) (r : Replica) (state : ReplicaState) : Turn :=
  { t with mgr := setNodeState t.mgr r state }

/-- The loop over the replicas other than `replica_id`. -/
def otherReplicas (r : Replica) : Replica × Replica :=
  if r = 0 then (1, 2) else if r = 1 then (0, 2) else (0, 1)

def fillMessageForPrimaryElection (m : Manager) (r : Replica) : FactoryMsg :=
  let others := otherReplicas r
  let backups : Backups := ⟨m.checkpointFreq, (others.1, (m.node others.1).server),
    (others.2, (m.node others.2).server)⟩
  match m.mode with
  | .passive => .changeState .passiveRep .passivePreprimary (some backups)
  | .active => .changeState .activeRep .activeRunning (some backups)

def electNewPrimary (t : Turn) (r : Replica) : Turn × Bool :=
  let s := send net t r (fillMessageForPrimaryElection t.mgr r)
  if s.2 then ({ s.1 with mgr := { s.1.mgr with primaryReplicaId := some r } }, true) else s

def sendChangeStatusToServer (t : Turn) (r : Replica) (modeRep : RepMode)
    (serverState : ServerStates) : Turn × Bool :=
  if modeRep = .activeRep ∧ serverState = .activeRunning then
    send net t r (fillMessageForPrimaryElection t.mgr r)
  else send net t r (.changeState modeRep serverState none)

def instructPrimaryToSendChkpt (t : Turn) (r : Replica) : Turn × Bool := send net t r .sendChkpt

def restartServer (t : Turn) (r : Replica) : Turn :=
  let s := send net t r (.startup (t.mgr.node r).server)
  if s.2 then setTurnState s.1 r .sentStartupReq else s.1

/-- `quiesce_all` and `stop_quiesce_all`: the running replicas in order. -/
def toRunning (msg : FactoryMsg) (t : Turn) : Turn :=
  (List.finRange 3).foldl
    (fun t i => if (t.mgr.node i).state = .running then (send net t i msg).1 else t) t

def quiesceAll (t : Turn) : Turn := toRunning net .quiesceBegin t
def stopQuiesceAll (t : Turn) : Turn := toRunning net .quiesceStop t

structure Report where
  replicaId : Replica
  state : ReplicaState
  serverState : ServerStates

/-- The first message of passive mode to a replica that is up again. -/
def assignRole (t : Turn) (r : Replica) : Turn :=
  if t.mgr.primaryReplicaId ≠ some r then
    noted (sendChangeStatusToServer net t r .passiveRep .passiveBackup)
  else noted (electNewPrimary net t r)

/-- What a RUNNING report of a replica that was FAULTED does in passive mode.
`false` in the second place is the `return -1` that keeps the lock. -/
def passiveUp (t : Turn) (r : Replica) : Except Fault (Turn × Bool) :=
  let t := assignRole net t r
  if t.mgr.needsCheckpoint r then
    match t.mgr.primaryReplicaId with
    | none => .error .outOfBounds
    | some p => .ok (instructPrimaryToSendChkpt net t p)
  else .ok (t, true)

def activeUp (t : Turn) (r : Replica) (state : ReplicaState) : Turn :=
  match t.mgr.primaryReplicaId with
  | none =>
    let t := { t with mgr := { t.mgr with primaryReplicaId := some r } }
    noted (sendChangeStatusToServer net t r .activeRep .activeRunning)
  | some p =>
    let t := setTurnState t r state
    let t := noted (sendChangeStatusToServer net t r .activeRep .activeRecover)
    let t := quiesceAll net t
    let t := noted (instructPrimaryToSendChkpt net t p)
    let t := stopQuiesceAll net t
    noted (sendChangeStatusToServer net t r .activeRep .activeRunning)

def markNeedsCheckpoint (t : Turn) (r : Replica) : Turn :=
  { t with mgr := { t.mgr with needsCheckpoint := Function.update t.mgr.needsCheckpoint r true } }

/-- The primary moves on before the election is tried. -/
def moveOn (t : Turn) (r : Replica) : Turn :=
  noted (electNewPrimary net
    { t with mgr := { t.mgr with primaryReplicaId := some (nextReplica r) } } (nextReplica r))

def passiveDown (t : Turn) (r : Replica) : Turn :=
  let t' := restartServer net t r
  match t.mgr.primaryReplicaId with
  | none => { t' with mgr := { t'.mgr with primaryReplicaId := some r } }
  | some p => if r = p then markNeedsCheckpoint (moveOn net t' r) r else markNeedsCheckpoint t' r

def activeDown (t : Turn) (r : Replica) : Turn :=
  let t' := restartServer net t r
  if t.mgr.primaryReplicaId = some r then moveOn net t' r else t'

def printCurrentStateInfo (m : Manager) (report : Report) : Manager :=
  let id := report.replicaId
  if m.serverStatus id = false ∧ report.state = .running then
    let n := m.numServers + 1
    { m with serverStatus := Function.update m.serverStatus id true, numServers := if n > 3 then 3 else n }
  else if m.serverStatus id = true ∧ report.state = .faulted then
    { m with serverStatus := Function.update m.serverStatus id false, numServers := m.numServers - 1 }
  else m

/-- The branches of `handle_state`; `false` in the second place is the early
`return -1`. A FAULTED report ends by overwriting the SENT_STARTUP_REQ that
`restart_server` has just set. -/
def handleReport (t : Turn) (report : Report) : Except Fault (Turn × Bool) :=
  let r := report.replicaId
  match report.state with
  | .running =>
    if (t.mgr.node r).state = .faulted then
      match t.mgr.mode with
      | .passive =>
        match passiveUp net t r with
        | .error f => .error f
        | .ok (t, true) => .ok (setTurnState t r .running, true)
        | .ok (t, false) => .ok (t, false)
      | .active => .ok (setTurnState (activeUp net t r .running) r .running, true)
    else .ok (setTurnState t r .running, true)
  | .faulted =>
    if (t.mgr.node r).state ≠ .sentStartupReq then
      match t.mgr.mode with
      | .passive => .ok (setTurnState (passiveDown net t r) r .faulted, true)
      | .active => .ok (setTurnState (activeDown net t r) r .faulted, true)
    else .ok (t, true)
  | _ => .ok (t, true)

/-- The lock is taken and the heartbeat noted before the branches. -/
def handleState (m : Manager) (report : Report) : Except Fault (ℤ × Manager × List Sent) :=
  if m.locked then .error .noReturn
  else
    let r := report.replicaId
    let node := { m.node r with lastHeartbeat := 1, serverState := report.serverState }
    let m := { m with locked := true, node := Function.update m.node r node }
    match handleReport net { mgr := m } report with
    | .error f => .error f
    | .ok (t, false) => .ok (-1, t.mgr, t.sent)
    | .ok (t, true) => .ok (t.ret, { printCurrentStateInfo t.mgr report with locked := false }, t.sent)

/-! ### Runs -/

/-- The globals behind `read_config_file` and `init_server_state`. -/
def initManager (mode : ManagerMode) (checkpointFreq : ℤ) (server : Replica → ServerInfo) : Manager :=
  { mode := mode, checkpointFreq := checkpointFreq, node := fun i => { server := server i } }

structure ManagerEvent where
  report : Report
  net : ℕ → Bool

def managerStep (m : Manager) (e : ManagerEvent) : Option Manager :=
  match handleState e.net m e.report with
  | .error _ => none
  | .ok (_, m, _) => some m

end ToDoList
