import ToDoList.Iface
import ToDoList.CLib.Stdio
import Mathlib.Data.List.FinRange

/-!
# The chained hash table (db.c)

A bucket is its chain, head first. `malloc` is taken to succeed; the block it
returns has arbitrary contents, which `Env.fresh` gives for the `n`-th block.
`hash_table_insert` overwrites the key, the length and the first `len` bytes of
`raw_data` only, so the other bytes and `task_status` stay as they were found.
-/

namespace ToDoList
open CLib

def hashTableLen : ℕ := 13
def maxDataLen : ℕ := 1024

/-- Contents of a freshly allocated `data_point` that inserting does not set. -/
structure Fresh where
  rawData : CArray maxDataLen
  taskStatus : TStatus

/-- What the server takes from outside: the first eight bytes of SHA-1 as a
number (`none` when an OpenSSL call reports an error), the heap, the `int` that
`get_task_status_str`, undeclared in db.c, is read as, and the number of steps
granted to the loop of `search_list`. -/
structure Env where
  sha1 : Bytes → Option UInt64
  fresh : ℕ → Fresh
  statusWord : TStatus → BitVec 32
  fuel : ℕ

def Env.ZeroHeap (env : Env) : Prop := ∀ n, (env.fresh n).rawData = zeros maxDataLen

def zeroEnv (sha1 : Bytes → Option UInt64) : Env :=
  ⟨sha1, fun _ => ⟨zeros maxDataLen, .taskNotDone⟩, fun _ => 0, 0⟩

structure DataPoint where
  key : UInt64
  rawData : CArray maxDataLen
  dataLen : UInt64
  taskStatus : TStatus
deriving DecidableEq

/-- `hash_table`, with the number of `data_point` blocks allocated so far. -/
structure HTable where
  data : Fin hashTableLen → List DataPoint
  dataSize : UInt64
  allocs : ℕ

def hashFunc (val : UInt64) : Fin hashTableLen :=
  ⟨val.toNat % hashTableLen, Nat.mod_lt _ (by decide)⟩

/-- `hash_table_init`; the allocator keeps its position. -/
def hashTableInit (allocs : ℕ) : HTable := ⟨fun _ => [], 0, allocs⟩

/-- `insert_data_point`: the walk to the last node of the chain. -/
def insertDataPoint (t : HTable) (hash : Fin hashTableLen) (new : DataPoint) : HTable :=
  { t with data := Function.update t.data hash (t.data hash ++ [new]) }

def hashTableInsert (env : Env) (t : HTable) (key : UInt64) (data : Bytes) (len : UInt64) :
    Except Fault (ℤ × HTable) :=
  if key = 0 then .ok (-1, t)
  else
    let fresh := env.fresh t.allocs
    match memcpy fresh.rawData data len.toNat with
    | none => .error .outOfBounds
    | some raw =>
      let new : DataPoint := ⟨key, raw, len, fresh.taskStatus⟩
      .ok (0, insertDataPoint { t with dataSize := t.dataSize + len, allocs := t.allocs + 1 }
        (hashFunc key) new)

/-- The loop of `hash_table_delete`: the first node with the key, and the chain
without it (`prev` is the part of the chain already passed). -/
def unlink (key : UInt64) : List DataPoint → Option (DataPoint × List DataPoint)
  | [] => none
  | temp :: next =>
    if key = temp.key then some (temp, next)
    else (unlink key next).map fun r => (r.1, temp :: r.2)

def hashTableDelete (t : HTable) (key : UInt64) : ℤ × HTable :=
  match unlink key (t.data (hashFunc key)) with
  | none => (-1, t)
  | some (temp, chain) =>
    (0, { t with data := Function.update t.data (hashFunc key) chain,
                 dataSize := t.dataSize - temp.dataLen })

/-- The loop of `search_list`, which never moves `temp` from the head. The
answer is the position of the node in its chain. -/
def searchList : ℕ → List DataPoint → UInt64 → Except Fault (Option ℕ)
  | 0, _, _ => .error .noReturn
  | _ + 1, [], _ => .ok none
  | fuel + 1, temp :: next, key =>
    if key = temp.key then .ok (some 0) else searchList fuel (temp :: next) key

def withStatus (taskStatus : TStatus) (task : DataPoint) : DataPoint :=
  { task with taskStatus := taskStatus }

def hashTableModify (env : Env) (t : HTable) (key : UInt64) (taskStatus : TStatus) :
    Except Fault (ℤ × HTable) :=
  let hash := hashFunc key
  match searchList env.fuel (t.data hash) key with
  | .error f => .error f
  | .ok none => .ok (-1, t)
  | .ok (some i) =>
    let chain := (t.data hash).modify i (withStatus taskStatus)
    .ok (0, { t with data := Function.update t.data hash chain })

def allEntries (t : HTable) : List DataPoint := (List.finRange hashTableLen).flatMap t.data

/-- `raw_data` read as `%s`; without a NUL the read leaves the field. -/
def rawString (d : DataPoint) : Except Fault Bytes :=
  if (0 : UInt8) ∈ d.rawData.toList then .ok (cString d.rawData.toList) else .error .outOfBounds

/-! ### hash_table_get_all -/

/-- The record of one node; the key is printed by `%ld`. -/
def getAllRecord (d : DataPoint) : Except Fault Bytes :=
  match rawString d with
  | .error f => .error f
  | .ok s => .ok (ascii "hash_key: " ++ decimalInt d.key.toBitVec.toInt ++ ascii " task: " ++ s ++
      ascii " \r\n")

/-- `hash_table_get_all` writing at `pos` into a buffer of `size` bytes:
`snprintf` stores at most `MAX_DATA_LEN` bytes with the NUL, and the pointer
advances by the length of the whole record. -/
def getAllLoop (size : ℕ) : ℕ → List DataPoint → Except Fault ℤ
  | _, [] => .ok 0
  | pos, d :: ds =>
    match getAllRecord d with
    | .error f => .error f
    | .ok r =>
      if pos + min (r.length + 1) maxDataLen ≤ size then getAllLoop size (pos + r.length) ds
      else .error .outOfBounds

/-- The size passed to `calloc`: `hash_table_get_dat_size` returns an `int`,
and a negative one asks for more memory than there is. -/
def hashTableGetDatSize (t : HTable) : ℤ := (t.dataSize.toBitVec.setWidth 32).toInt

def hashTableGetAll (t : HTable) : Except Fault ℤ :=
  let size := hashTableGetDatSize t
  if size < 0 ∧ allEntries t ≠ [] then .error .nullDeref
  else getAllLoop size.toNat 0 (allEntries t)

/-! ### export_db_internal -/

def exportEntry (env : Env) (temp : DataPoint) : Except Fault Bytes :=
  match rawString temp with
  | .error f => .error f
  | .ok s => .ok (
      ascii "Key: " ++ decimal temp.key.toNat ++ ascii "\r\n" ++
      ascii "Data: " ++ s ++ ascii "\r\n" ++
      ascii "data_len: " ++ decimal temp.dataLen.toNat ++ ascii "\r\n" ++
      ascii "Status: " ++ decimalInt (env.statusWord temp.taskStatus).toInt ++ ascii "\r\n" ++
      ascii "DATA_END\r\n")

def exportEntries (env : Env) : List DataPoint → Except Fault Bytes
  | [] => .ok (ascii "FILE_END\n")
  | d :: ds =>
    match exportEntry env d with
    | .error f => .error f
    | .ok e =>
      match exportEntries env ds with
      | .error f => .error f
      | .ok rest => .ok (e ++ rest)

def exportDbInternal (env : Env) (t : HTable) : Except Fault Bytes :=
  exportEntries env (allEntries t)

/-! ### import_db_internal -/

/-- Locals of `import_db_internal` that live across lines. `temp` and `line`
are cleared or overwritten before each use; `key` is set only to be inserted. -/
structure ImportState where
  table : HTable
  temp1 : Bytes := []
  data : CArray 1024 := zeros 1024
  len : UInt64 := 0

def storedText : List Value → Option Bytes
  | .text w :: _ => some w
  | _ => none

def storedNum : List Value → Option UInt64
  | .num v :: _ => some v
  | _ => none

def startsWith (line : Bytes) (p : String) : Bool := (ascii p).isPrefixOf line

/-- The loop body after the `DATA_END` and `FILE_END` tests. A `Status` line is
scanned into `temp` and dropped. -/
def importField (line : Bytes) (st : ImportState) : ImportState :=
  let st := if startsWith line "Key" then
      { st with temp1 := (storedText (sscanf (lits "Key:" ++ [.white, .str]) line)).getD st.temp1 }
    else st
  let st := if startsWith line "Data" then
      let temp := storedText (sscanf (lits "Data:" ++ [.white, .set [byte '\n'] 8191, .skipChar]) line)
      { st with data := strncpy 1024 (temp.getD []) }
    else st
  if startsWith line "data_len" then
    { st with len := (storedNum (sscanf (lits "data_len:" ++ [.white, .ulong]) line)).getD st.len }
  else st

def importLoop (env : Env) : List Bytes → ImportState → Except Fault ImportState
  | [], st => .ok st
  | buf :: lines, st =>
    let line := cString buf
    if startsWith line "DATA_END" then
      match hashTableInsert env st.table (strtoull st.temp1) st.data.toList st.len with
      | .error f => .error f
      | .ok (_, table) => importLoop env lines { st with table := table, data := zeros 1024, len := 0 }
    else if startsWith line "FILE_END" then .ok st
    else importLoop env lines (importField line st)

/-- `import_db_internal`: the table is emptied first; `fopen` returns a null
pointer for a missing file, which the test `file_ptr < 0` lets through to
`fgets`. -/
def importDbInternal (env : Env) (t : HTable) (file : Option Bytes) : Except Fault HTable :=
  match file with
  | none => .error .nullDeref
  | some bytes =>
    match importLoop env (fgetsLines 1024 [] bytes) { table := hashTableInit t.allocs } with
    | .error f => .error f
    | .ok st => .ok st.table

end ToDoList
