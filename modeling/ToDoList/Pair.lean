import ToDoList.Prune
import ToDoList.Requests

/-!
# A server that sends checkpoints and one that receives them

Clients issue add and remove requests; both servers receive the same sequence,
each at its own pace. `src` executes its log and exports its table, on its own
or on demand; the messages travel in any order to `dst`, which logs them among
its requests. Role commands and quiesce commands may reach either server at
any time. Passive failover and active state transfer are runs of this system.
-/

namespace ToDoList
open CLib

/-- A checkpoint message to `dst`, with the number of requests `src` had
executed when it exported its table. -/
structure Flight where
  clientId : ℤ
  reqNo : UInt64
  file : Bytes
  covers : ℕ

structure Pair where
  src : Server
  dst : Server
  hist : List ClientRequest := []
  srcGot : ℕ := 0
  srcDone : ℕ := 0
  dstGot : ℕ := 0
  sent : List Flight := []
  arrived : List ℕ := []
  restored : Bool := false

inductive PairEvent where
  | issue (req : ClientRequest)
  | srcRecv (ctx : ClientCtx)
  | dstRecv (ctx : ClientCtx)
  | srcCommand (ctx : ClientCtx)
  | dstCommand (ctx : ClientCtx)
  | srcNormal
  | dstNormal
  | srcControl
  | dstControl
  | srcChkptThread
  | arrive (i rand : ℕ) (fd : ℤ)

/-- One export is written to both entries of `bckup_svr`; `dst` is one of them
and gets one copy. -/
def flightOf (covers : ℕ) (effs : List Effect) : List Flight :=
  (effs.filterMap fun
    | .checkpoint _ clientId reqNo file => some ⟨clientId, reqNo, file, covers⟩
    | _ => none).take 1

/-- Messages that carry no payload and are not for the NORMAL log. -/
def isCommand (req : ClientRequest) : Bool :=
  (isControl req.msgType || isQuiesceCommand req.msgType) && req.payload.size = 0

def executesCheckpoint (effs : List Effect) : Bool :=
  (taken effs).any fun c => c.1.req.msgType = .msgChkPt

def flightCtx (fl : Flight) (i : ℕ) (fd : ℤ) : ClientCtx :=
  { fd := fd, clientId := fl.clientId, req := checkpointRequest fl.reqNo fl.file, conn := i }

/-- `issue` appends to the shared sequence; `srcRecv` and `dstRecv` deliver its
next request, which finds room in the log; `arrive` delivers the `i`-th
checkpoint message, at most once. -/
def pairStep (env : Env) (p : Pair) : PairEvent → Option Pair
  | .issue req =>
    if isUpdate req.msgType = true ∧ req.payload.size = 0 then some { p with hist := p.hist ++ [req] }
    else none
  | .srcRecv ctx =>
    match p.hist[p.srcGot]? with
    | none => none
    | some req =>
      if hasRoom p.src req.msgType then
        (handleConnection p.src 0 { ctx with req := req }).toOption.map fun r =>
          { p with src := r.1, srcGot := p.srcGot + 1 }
      else none
  | .dstRecv ctx =>
    match p.hist[p.dstGot]? with
    | none => none
    | some req =>
      if hasRoom p.dst req.msgType then
        (handleConnection p.dst 0 { ctx with req := req }).toOption.map fun r =>
          { p with dst := r.1, dstGot := p.dstGot + 1 }
      else none
  | .srcCommand ctx =>
    if isCommand ctx.req then
      (handleConnection p.src 0 ctx).toOption.map fun r => { p with src := r.1 }
    else none
  | .dstCommand ctx =>
    if isCommand ctx.req then
      (handleConnection p.dst 0 ctx).toOption.map fun r => { p with dst := r.1 }
    else none
  | .srcNormal => (runNormal env p.src).toOption.map fun r =>
      { p with src := r.1, srcDone := p.srcDone + (taken r.2).length }
  | .dstNormal => (runNormal env p.dst).toOption.map fun r =>
      { p with dst := r.1, restored := p.restored || executesCheckpoint r.2 }
  | .srcControl => (runControl env p.src).toOption.map fun r =>
      { p with src := r.1, sent := p.sent ++ flightOf p.srcDone r.2 }
  | .dstControl => (runControl env p.dst).toOption.map fun r => { p with dst := r.1 }
  | .srcChkptThread => (serverStep env p.src .chkptThread).toOption.map fun r =>
      { p with src := r.1, sent := p.sent ++ flightOf p.srcDone r.2 }
  | .arrive i rand fd =>
    if i ∈ p.arrived then none
    else
      match p.sent[i]? with
      | none => none
      | some fl => (handleConnection p.dst rand (flightCtx fl i fd)).toOption.map fun r =>
          { p with dst := r.1, arrived := i :: p.arrived }

/-! ### When a checkpoint fits the log it lands in -/

def isChkPt (c : ClientCtx) : Bool := c.req.msgType = .msgChkPt

def ordinary (log : List ClientCtx) : List ClientRequest :=
  (log.filter fun c => !isChkPt c).map fun c => c.req

def checkpoints (log : List ClientCtx) : List ClientCtx := log.filter isChkPt

def covers (p : Pair) (c : ClientCtx) : ℕ := (p.sent[c.conn]?.map Flight.covers).getD 0

/-- The next iteration of the NORMAL worker of `dst` executes no checkpoint
that leaves out or repeats a request: a prune pass ends on a checkpoint of
everything `dst` has received, or finds an empty log; outside a pass a
checkpoint covers what was received before the requests still behind it. -/
def Aligned (p : Pair) : Prop :=
  if p.dst.isPrune then
    match (checkpoints p.dst.nrl).getLast? with
    | none => p.dst.nrl = []
    | some c => covers p c = p.dstGot
  else
    match p.dst.nrl with
    | [] => True
    | c :: rest => isChkPt c = true → isPassiveBackup p.dst = false → p.dst.state ≠ .quiesce →
        covers p c + (ordinary rest).length = p.dstGot

instance decidableAligned (p : Pair) : Decidable (Aligned p) :=
  if h : p.dst.isPrune = true then
    match hc : (checkpoints p.dst.nrl).getLast? with
    | none => decidable_of_iff (p.dst.nrl = []) (by simp [Aligned, h, hc])
    | some c => decidable_of_iff (covers p c = p.dstGot) (by simp [Aligned, h, hc])
  else
    match hn : p.dst.nrl with
    | [] => isTrue (by simp [Aligned, h, hn])
    | c :: rest => decidable_of_iff (isChkPt c = true → isPassiveBackup p.dst = false →
        p.dst.state ≠ .quiesce → covers p c + (ordinary rest).length = p.dstGot) (by simp [Aligned, h, hn])

/-- The condition on a step: texts that fit the format, files below 2^31 bytes
and under a name no waiting checkpoint uses, and aligned checkpoints. -/
def FitStep (p : Pair) : PairEvent → Prop
  | .issue req => CleanRequest req
  | .arrive i rand _ =>
    (∀ fl ∈ p.sent[i]?, fl.file.length < 2 ^ 31) ∧
      tmpName p.dst rand ∉ (checkpoints p.dst.nrl).map fun c => c.req.filename
  | .dstNormal => Aligned p
  | _ => True

instance decidableFitStep (p : Pair) : ∀ e, Decidable (FitStep p e)
  | .issue req => inferInstanceAs (Decidable (CleanRequest req))
  | .arrive i rand _ => inferInstanceAs (Decidable
      ((∀ fl ∈ p.sent[i]?, fl.file.length < 2 ^ 31) ∧
        tmpName p.dst rand ∉ (checkpoints p.dst.nrl).map fun c => c.req.filename))
  | .dstNormal => decidableAligned p
  | .srcRecv _ => isTrue trivial
  | .dstRecv _ => isTrue trivial
  | .srcCommand _ => isTrue trivial
  | .dstCommand _ => isTrue trivial
  | .srcNormal => isTrue trivial
  | .srcControl => isTrue trivial
  | .dstControl => isTrue trivial
  | .srcChkptThread => isTrue trivial

end ToDoList
