import ToDoList.Iface
import ToDoList.CLib.Fifo
import ToDoList.CLib.StepRun

/-!
# The linked log (log.c)

The nodes lie in a memory that the log shares with the rest of the program. An
address without a node is not allocated; reading or writing through it, or
through a null pointer, is a fault. `enqueue` and `dequeue` treat the NORMAL
and the CONTROL ring alike, each with the fields of its own.
-/

namespace ToDoList

inductive LogMsgType where
  | invalidLog
  | normal
  | control
deriving Repr, DecidableEq

abbrev Addr := ℕ

structure LogNode (α : Type) where
  val : α
  next : Option Addr
  prev : Option Addr
deriving DecidableEq

/-- The four fields of `server_log_t` that one ring has. -/
structure LogQueue where
  head : Option Addr := none
  tail : Option Addr := none
  count : ℕ := 0
  limit : ℕ
deriving Repr, DecidableEq

structure ServerLog where
  nrl : LogQueue
  ctrl : LogQueue
deriving Repr, DecidableEq

def initLogQueue (nrlLimit ctrlLimit : ℕ) : ServerLog :=
  ⟨{ limit := nrlLimit }, { limit := ctrlLimit }⟩

/-- `followed` notes the nodes whose `next` has been read, the latest first. -/
structure Memory (α : Type) where
  node : Addr → Option (LogNode α)
  followed : List Addr := []

variable {α : Type}

/-! ### Access through a pointer -/

def deref (m : Memory α) : Option Addr → Except Fault (Addr × LogNode α)
  | none => .error .nullDeref
  | some a =>
    match m.node a with
    | none => .error .outOfBounds
    | some n => .ok (a, n)

/-- `p->next` -/
def readNext (p : Option Addr) (m : Memory α) : Except Fault (Option Addr × Memory α) :=
  match deref m p with
  | .error f => .error f
  | .ok (a, n) => .ok (n.next, { m with followed := a :: m.followed })

/-- `p->next = v` -/
def setNext (p v : Option Addr) (m : Memory α) : Except Fault (Memory α) :=
  match deref m p with
  | .error f => .error f
  | .ok (a, n) => .ok { m with node := Function.update m.node a (some { n with next := v }) }

/-- `p->prev = v` -/
def setPrev (p v : Option Addr) (m : Memory α) : Except Fault (Memory α) :=
  match deref m p with
  | .error f => .error f
  | .ok (a, n) => .ok { m with node := Function.update m.node a (some { n with prev := v }) }

/-! ### One ring -/

/-- The branch of `dequeue` for one ring. -/
def LogQueue.dequeue (q : LogQueue) (m : Memory α) :
    Except Fault (Option Addr × LogQueue × Memory α) :=
  if 0 < q.count then
    if q.count = 1 then
      .ok (q.head, { q with head := none, tail := none, count := q.count - 1 }, m)
    else do
      -- head->next->prev = tail; the next of the tail stays as it is
      let (next, m) ← readNext q.head m
      let m ← setPrev next q.tail m
      let (next, m) ← readNext q.head m
      .ok (q.head, { q with head := next, count := q.count - 1 }, m)
  else .ok (none, q, m)

/-- The branch of `enqueue` for one ring. -/
def LogQueue.enqueue (q : LogQueue) (node : Addr) (m : Memory α) :
    Except Fault (ℤ × LogQueue × Memory α) :=
  if q.limit ≤ q.count then .ok (-1, q, m)
  else
    let q := if q.count = 0 then { q with head := some node, tail := some node } else q
    do
      let m ← setNext (some node) q.head m
      let m ← setPrev (some node) q.tail m
      let m ← setNext q.tail (some node) m
      let m ← setPrev q.head (some node) m
      .ok (0, { q with tail := some node, count := q.count + 1 }, m)

/-! ### The two functions -/

def ServerLog.dequeue (svr : ServerLog) (mType : LogMsgType) (m : Memory α) :
    Except Fault (Option Addr × ServerLog × Memory α) :=
  match mType with
  | .invalidLog => .ok (none, svr, m)
  | .normal => do
    let (ret, q, m) ← svr.nrl.dequeue m
    .ok (ret, { svr with nrl := q }, m)
  | .control => do
    let (ret, q, m) ← svr.ctrl.dequeue m
    .ok (ret, { svr with ctrl := q }, m)

def ServerLog.enqueue (svr : ServerLog) (node : Addr) (mType : LogMsgType) (m : Memory α) :
    Except Fault (ℤ × ServerLog × Memory α) :=
  match mType with
  | .invalidLog => .ok (-1, svr, m)
  | .normal => do
    let (ret, q, m) ← svr.nrl.enqueue node m
    .ok (ret, { svr with nrl := q }, m)
  | .control => do
    let (ret, q, m) ← svr.ctrl.enqueue node m
    .ok (ret, { svr with ctrl := q }, m)

/-- `get_count`; it ends the program for INVALID_LOG. -/
def ServerLog.getCount (svr : ServerLog) : LogMsgType → Option ℕ
  | .invalidLog => none
  | .normal => some svr.nrl.count
  | .control => some svr.ctrl.count

end ToDoList
