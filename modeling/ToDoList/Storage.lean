import ToDoList.Queues
import ToDoList.CLib.StepRun

/-!
# Key generation and request execution (storage.c)

`handle_storage` runs one request on the table. A `MSG_CHK_PT` names the
temporary file its payload was parked in; the file is imported and removed.
-/

namespace ToDoList
open CLib

structure Store where
  htable : HTable
  files : Bytes → Option Bytes

def storageInit : Store := ⟨hashTableInit 0, fun _ => none⟩

/-- `generate_key`. The copy into `raw_buffer` at offset 5 needs
`5 + data_len` bytes there; the buffer, which holds the client id, is then not
hashed: SHA-1 runs over the task and the five bytes behind it. A failed OpenSSL
call returns `-1` as an unsigned number. -/
def generateKey (env : Env) (rawData : CArray taskLength) (_clientId : ℤ) (dataLen : UInt64) :
    Except Fault UInt64 :=
  if 5 + dataLen.toNat ≤ taskLength then
    .ok ((env.sha1 (rawData.toList.take (dataLen.toNat + 5))).getD (0 - 1))
  else .error .outOfBounds

/-- `handle_storage`: the return value, the store, and the request, whose
`hash_key` a `MSG_ADD` sets. -/
def handleStorage (env : Env) (s : Store) (ctx : ClientCtx) :
    Except Fault (ℤ × Store × ClientCtx) :=
  let req := ctx.req
  match req.msgType with
  | .msgAdd =>
    match generateKey env req.task ctx.clientId req.taskLen with
    | .error f => .error f
    | .ok key =>
      match hashTableInsert env s.htable key req.task.toList req.taskLen with
      | .error f => .error f
      | .ok (ret, t) => .ok (ret, { s with htable := t }, { ctx with req := { req with hashKey := key } })
  | .msgModify =>
    -- the result of hash_table_modify is not looked at
    match hashTableModify env s.htable req.hashKey req.taskStatus with
    | .error f => .error f
    | .ok (_, t) => .ok (0, { s with htable := t }, ctx)
  | .msgRemove =>
    let r := hashTableDelete s.htable req.hashKey
    .ok (r.1, { s with htable := r.2 }, ctx)
  | .msgGetAll =>
    match hashTableGetAll s.htable with
    | .error f => .error f
    | .ok ret => .ok (ret, s, ctx)
  | .invalid => .ok (0, s, ctx)
  | .msgHeartbeat => .ok (0, s, ctx)
  | .msgChkPt =>
    match importDbInternal env s.htable (s.files req.filename) with
    | .error f => .error f
    | .ok t => .ok (0, ⟨t, Function.update s.files req.filename none⟩, ctx)
  | _ => .ok (-1, s, ctx)

theorem handleStorage_add (env : Env) (s : Store) (ctx : ClientCtx) {key : UInt64} {ret : ℤ}
    {t : HTable} (htype : ctx.req.msgType = .msgAdd)
    (hkey : generateKey env ctx.req.task ctx.clientId ctx.req.taskLen = .ok key)
    (hins : hashTableInsert env s.htable key ctx.req.task.toList ctx.req.taskLen = .ok (ret, t)) :
    handleStorage env s ctx =
      .ok (ret, { s with htable := t }, { ctx with req := { ctx.req with hashKey := key } }) := by
  unfold handleStorage
  simp only [htype, hkey, hins]

def addRequest (text : Bytes) : ClientRequest :=
  { msgType := .msgAdd, task := strncpy taskLength text, taskLen := .ofNat text.length }

def removeRequest (key : UInt64) : ClientRequest := { msgType := .msgRemove, hashKey := key }

/-! ### Runs of the storage layer -/

inductive StorageEvent where
  | request (ctx : ClientCtx)
  | file (name content : Bytes)

def storageStep (env : Env) (s : Store) : StorageEvent → Option Store
  | .request ctx =>
    match handleStorage env s ctx with
    | .error _ => none
    | .ok (_, u, _) => some u
  | .file name content => some { s with files := Function.update s.files name (some content) }

/-- The tables `handle_storage` can build. -/
def ReachableTable (env : Env) (t : HTable) : Prop :=
  ∃ es s, StepRun.run (storageStep env) storageInit es = some s ∧ s.htable = t

/-! ### What every step of the storage layer does to the table -/

inductive TableStep (env : Env) : HTable → HTable → Prop where
  | init (t) : TableStep env t (hashTableInit t.allocs)
  | insert (t u key data len ret) (h : hashTableInsert env t key data len = .ok (ret, u)) :
      TableStep env t u
  | delete (t key) : TableStep env t (hashTableDelete t key).2
  | modify (t u key status ret) (h : hashTableModify env t key status = .ok (ret, u)) :
      TableStep env t u

def Stable (env : Env) (P : HTable → Prop) : Prop := ∀ t u, TableStep env t u → P t → P u

theorem startsWith_append {p rest : Bytes} {q : String} (h : (ascii q).length ≤ p.length) :
    startsWith (p ++ rest) q = startsWith p q := by
  have hiff : ascii q <+: p ++ rest ↔ ascii q <+: p :=
    ⟨fun hq => List.prefix_of_prefix_length_le hq (List.prefix_append p rest) h,
      fun hq => hq.trans (List.prefix_append p rest)⟩
  unfold startsWith
  rw [Bool.eq_iff_iff, List.isPrefixOf_iff_prefix, List.isPrefixOf_iff_prefix, hiff]

theorem mark_lines : startsWith (cString (ascii "DATA_END\r\n")) "DATA_END" = true ∧
    startsWith (cString (ascii "FILE_END\n")) "DATA_END" = false ∧
    startsWith (cString (ascii "FILE_END\n")) "FILE_END" = true := by decide +kernel

theorem importField_table (line : Bytes) (st : ImportState) :
    (importField line st).table = st.table := by
  unfold importField
  dsimp only
  split <;> split <;> split <;> rfl

theorem importLoop_stable {env : Env} {P : HTable → Prop} (hP : Stable env P) (lines : List Bytes)
    (st st' : ImportState) (h : importLoop env lines st = .ok st') (hst : P st.table) :
    P st'.table := by
  induction lines generalizing st with
  | nil =>
    cases h
    exact hst
  | cons buf lines ih =>
    rw [importLoop] at h
    split at h
    · cases hins : hashTableInsert env st.table (strtoull st.temp1) st.data.toList st.len with
      | error f =>
        rw [hins] at h
        cases h
      | ok r =>
        obtain ⟨ret, u⟩ := r
        rw [hins] at h
        exact ih _ h (hP _ _ (.insert _ _ _ _ _ _ hins) hst)
    · split at h
      · cases h
        exact hst
      · refine ih _ h ?_
        rw [importField_table]
        exact hst

theorem importDbInternal_stable {env : Env} {P : HTable → Prop} (hP : Stable env P) (t u : HTable)
    (file : Option Bytes) (h : importDbInternal env t file = .ok u) (ht : P t) : P u := by
  cases file with
  | none => cases h
  | some bytes =>
    rw [importDbInternal] at h
    cases hl : importLoop env (fgetsLines 1024 [] bytes) { table := hashTableInit t.allocs } with
    | error f =>
      rw [hl] at h
      cases h
    | ok st =>
      rw [hl] at h
      cases h
      exact importLoop_stable hP _ _ _ hl (hP _ _ (.init t) ht)

theorem handleStorage_stable {env : Env} {P : HTable → Prop} (hP : Stable env P) (s u : Store)
    (ctx ctx' : ClientCtx) (ret : ℤ) (h : handleStorage env s ctx = .ok (ret, u, ctx'))
    (hs : P s.htable) : P u.htable := by
  unfold handleStorage at h
  dsimp only at h
  split at h
  · split at h
    · cases h
    · split at h
      · cases h
      · rename_i hins
        cases h
        exact hP _ _ (.insert _ _ _ _ _ _ hins) hs
  · split at h
    · cases h
    · rename_i hmod
      cases h
      exact hP _ _ (.modify _ _ _ _ _ hmod) hs
  · cases h
    exact hP _ _ (.delete _ _) hs
  · split at h
    · cases h
    · cases h
      exact hs
  · cases h
    exact hs
  · cases h
    exact hs
  · split at h
    · cases h
    · rename_i himp
      cases h
      exact importDbInternal_stable hP _ _ _ himp hs
  · cases h
    exact hs

theorem reachableTable_induction {env : Env} {P : HTable → Prop} (hP : Stable env P)
    (h0 : P (hashTableInit 0)) (t : HTable) (h : ReachableTable env t) : P t := by
  obtain ⟨es, s, hrun, rfl⟩ := h
  refine StepRun.run_invariant (C := fun _ _ => True) (I := fun s => P s.htable) ?_ h0
    (StepRun.allSteps_of_forall (fun _ _ => trivial) _ _) hrun
  intro s e u hs _ hstep
  cases e with
  | file name content =>
    cases hstep
    exact hs
  | request ctx =>
    rw [storageStep] at hstep
    cases hh : handleStorage env s ctx with
    | error f =>
      rw [hh] at hstep
      cases hstep
    | ok r =>
      obtain ⟨ret, v, ctx'⟩ := r
      rw [hh] at hstep
      cases hstep
      exact handleStorage_stable hP _ _ _ _ _ hh hs

end ToDoList
