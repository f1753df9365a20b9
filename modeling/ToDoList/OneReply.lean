import ToDoList.Requests
import ToDoList.ServerSpec
import ToDoList.Chains
import ToDoList.FailedImport
import ToDoList.GetAll

/-!
# The reply to a request

`execute_msg` answers `FAIL` when `handle_storage` does not return 0, and then
`OK` in any case. `handle_storage` returns 0 for every MSG_MODIFY, whether or
not the key was there.
-/

namespace ToDoList
open CLib

/-! ### What a request was to do -/

/-- Only the bucket of the key is searched. -/
def Present (t : HTable) (key : UInt64) : Prop := ∃ d ∈ t.data (hashFunc key), d.key = key

instance (t : HTable) (key : UInt64) : Decidable (Present t key) :=
  inferInstanceAs (Decidable (∃ d ∈ t.data (hashFunc key), d.key = key))

def Inserted (t u : HTable) (key : UInt64) : Prop :=
  ∃ d, d.key = key ∧ u.data (hashFunc key) = t.data (hashFunc key) ++ [d]

/-- A record of a checkpoint file: key, text and announced length. -/
structure FileRecord where
  key : UInt64
  text : Bytes
  len : UInt64

/-- No line of the record has been read. -/
def noFields : ImportState := { table := hashTableInit 0 }

/-- The records up to FILE_END, each with what the lines between it and the record in
front of it say. -/
def recordsOf : ImportState → List Bytes → List FileRecord
  | _, [] => []
  | r, buf :: lines =>
    if startsWith (cString buf) "DATA_END" then
      ⟨strtoull r.temp1, cString r.data.toList, r.len⟩ :: recordsOf noFields lines
    else if startsWith (cString buf) "FILE_END" then []
    else recordsOf (importField (cString buf) r) lines

/-- The entry has the key of the record and all of the text that this announces. -/
structure EntryOf (r : FileRecord) (d : DataPoint) : Prop where
  key : d.key = r.key
  len : d.dataLen = r.len
  whole : r.len.toNat ≤ r.text.length
  text : d.rawData.toList.take r.len.toNat = r.text.take r.len.toNat

/-- The file is a complete export, and the table has an entry for each of its records
and no other, every bucket in the order of the file. -/
def Imported (file : Option Bytes) (u : HTable) : Prop :=
  ∃ bytes, file = some bytes ∧ cutOff false (fgetsLines 1024 [] bytes) = false ∧
    ∀ b, List.Forall₂ EntryOf
      ((recordsOf noFields (fgetsLines 1024 [] bytes)).filter fun r => hashFunc r.key = b) (u.data b)

/-- The operation of a request on the table before and after it. MSG_GET_ALL,
INVALID and a heartbeat leave nothing to be done; other types have no operation. -/
def TookEffect (env : Env) (s u : Store) (ctx : ClientCtx) : Prop :=
  match ctx.req.msgType with
  | .msgAdd => Inserted s.htable u.htable (requestKey env ctx.req)
  | .msgModify | .msgRemove => Present s.htable ctx.req.hashKey
  | .msgChkPt => Imported (s.files ctx.req.filename) u.htable
  | .msgGetAll | .invalid | .msgHeartbeat => True
  | _ => False

def repliesTo (ctx : ClientCtx) (effs : List Effect) : List Bytes :=
  effs.filterMap fun
    | .write fd conn bytes => if fd = ctx.fd ∧ conn = ctx.conn then some bytes else none
    | _ => none

/-- One reply goes to the connection, and its status tells whether the operation
took effect. -/
def OneTrueReply (env : Env) (s : Server) (ctx : ClientCtx) : Prop :=
  ∃ t effs reply, executeMsg env s ctx = .ok (t, effs) ∧ repliesTo ctx effs = [reply] ∧
    (startsWith reply "Status: OK\r\n" = true ↔ TookEffect env s.store t.store ctx) ∧
    (startsWith reply "Status: FAIL\r\n" = true ↔ ¬TookEffect env s.store t.store ctx)

/-! ### Checkpoints that can be read -/

/-- The file is a complete export; every record names a key other than 0 in its own
lines, and its text is as long as it announces. -/
def Importable (file : Option Bytes) : Prop :=
  ∃ bytes, file = some bytes ∧ cutOff false (fgetsLines 1024 [] bytes) = false ∧
    ∀ r ∈ recordsOf noFields (fgetsLines 1024 [] bytes), r.key ≠ 0 ∧ r.len.toNat ≤ r.text.length

instance (bytes : Bytes) : Decidable (Importable (some bytes)) :=
  decidable_of_iff (cutOff false (fgetsLines 1024 [] bytes) = false ∧
      ∀ r ∈ recordsOf noFields (fgetsLines 1024 [] bytes), r.key ≠ 0 ∧ r.len.toNat ≤ r.text.length)
    ⟨fun h => ⟨bytes, rfl, h⟩, fun h => by
      obtain ⟨_, hfile, hrest⟩ := h
      cases hfile
      exact hrest⟩

theorem hashTableInsert_returns_iff (env : Env) (t : HTable) (key len : UInt64) (data : CArray 1024) :
    (∃ ret u, hashTableInsert env t key data.toList len = .ok (ret, u)) ↔
      key = 0 ∨ len.toNat ≤ maxDataLen := by
  unfold hashTableInsert
  by_cases hk : key = 0
  · rw [if_pos hk]
    exact ⟨fun _ => Or.inl hk, fun _ => ⟨_, _, rfl⟩⟩
  · rw [if_neg hk]
    dsimp only
    constructor
    · rintro ⟨ret, u, h⟩
      split at h
      · cases h
      · rename_i raw hraw
        exact Or.inr (memcpy_eq_some hraw).1
    · rintro (h | h)
      · exact absurd h hk
      · obtain ⟨raw, hraw⟩ := memcpy_of_le (env.fresh t.allocs).rawData data.toList len.toNat h
          (by rw [List.Vector.toList_length]; exact h)
        rw [hraw]
        exact ⟨_, _, rfl⟩

/-- What the code has read of a record, beside what its own lines say: the key of an
earlier record may still be there. -/
structure ReadBeside (r st : ImportState) : Prop where
  key : r.temp1 = st.temp1 ∨ r.temp1 = []
  data : r.data = st.data
  len : r.len = st.len

theorem ReadBeside.field {r st : ImportState} (h : ReadBeside r st) (line : Bytes) :
    ReadBeside (importField line r) (importField line st) := by
  unfold importField
  dsimp only
  refine ⟨?_, ?_, ?_⟩
  · by_cases hkey : startsWith line "Key" = true
    · cases hread : storedText (sscanf (lits "Key:" ++ [.white, .str]) line) with
      | none => simpa [hkey, hread, apply_ite ImportState.temp1] using h.key
      | some w => simp [hkey, apply_ite ImportState.temp1]
    · simpa [hkey, apply_ite ImportState.temp1] using h.key
  · simp [apply_ite ImportState.data, h.data]
  · simp [apply_ite ImportState.len, h.len]

/-- A record with a key, and with all the text that it announces, becomes an entry at
the end of its bucket. -/
theorem record_inserted (env : Env) (t : HTable) {r st : ImportState} (h : ReadBeside r st)
    (hkey : strtoull r.temp1 ≠ 0) (hlen : r.len.toNat ≤ (cString r.data.toList).length) :
    ∃ u d, hashTableInsert env t (strtoull st.temp1) st.data.toList st.len = .ok (0, u) ∧
      u.data = Function.update t.data (hashFunc (strtoull r.temp1))
        (t.data (hashFunc (strtoull r.temp1)) ++ [d]) ∧
      EntryOf ⟨strtoull r.temp1, cString r.data.toList, r.len⟩ d := by
  have hsame : strtoull st.temp1 = strtoull r.temp1 := by
    rcases h.key with hsame | hempty
    · rw [hsame]
    · rw [hempty] at hkey
      exact absurd rfl hkey
  have hpre : cString r.data.toList <+: r.data.toList := List.takeWhile_prefix _
  have hfield : r.len.toNat ≤ 1024 := by
    have hall := hpre.length_le
    rw [List.Vector.toList_length] at hall
    omega
  rw [hsame, ← h.data, ← h.len]
  obtain ⟨ret, u, hins⟩ :=
    (hashTableInsert_returns_iff env t (strtoull r.temp1) r.len r.data).mpr (Or.inr hfield)
  rcases hashTableInsert_cases hins with ⟨hzero, -, -⟩ | ⟨-, rfl, raw, hraw, rfl⟩
  · exact absurd hzero hkey
  · obtain ⟨-, hsrc, hlist⟩ := memcpy_eq_some hraw
    refine ⟨_, _, hins, rfl, rfl, rfl, hlen, ?_⟩
    dsimp only
    have htext : cString r.data.toList = r.data.toList.take (cString r.data.toList).length :=
      List.prefix_iff_eq_take.mp hpre
    rw [hlist, List.take_left' (by rw [List.length_take, Nat.min_eq_left hsrc]), htext, List.take_take,
      Nat.min_eq_left hlen]

/-- The loop makes an entry of each record. -/
theorem importLoop_imports (env : Env) {lines : List Bytes} {r st : ImportState} (h : ReadBeside r st)
    (hrecords : ∀ c ∈ recordsOf r lines, c.key ≠ 0 ∧ c.len.toNat ≤ c.text.length) :
    ∃ st', importLoop env lines st = .ok st' ∧ ∀ b, ∃ ds, st'.table.data b = st.table.data b ++ ds ∧
      List.Forall₂ EntryOf ((recordsOf r lines).filter fun c => hashFunc c.key = b) ds := by
  induction lines generalizing r st with
  | nil => exact ⟨st, rfl, fun b => ⟨[], (List.append_nil _).symm, .nil⟩⟩
  | cons buf lines ih =>
    rw [recordsOf] at hrecords ⊢
    rw [importLoop]
    by_cases hdata : startsWith (cString buf) "DATA_END" = true
    · rw [if_pos hdata] at hrecords ⊢
      rw [if_pos hdata]
      obtain ⟨hkey, hlen⟩ := hrecords _ (List.mem_cons_self ..)
      obtain ⟨u, d, hins, hu, hentry⟩ := record_inserted env st.table h hkey hlen
      obtain ⟨st', hloop, hbuckets⟩ := @ih noFields
        { st with table := u, data := zeros 1024, len := 0 } ⟨Or.inr rfl, rfl, rfl⟩
        fun c hc => hrecords c (List.mem_cons_of_mem _ hc)
      rw [hins]
      refine ⟨st', hloop, fun b => ?_⟩
      obtain ⟨ds, hds, hall⟩ := hbuckets b
      dsimp only at hds
      rw [hds, hu, List.filter_cons]
      by_cases hb : hashFunc (strtoull r.temp1) = b
      · subst hb
        refine ⟨d :: ds, ?_, ?_⟩
        · rw [Function.update_self, List.append_assoc, List.singleton_append]
        · rw [if_pos (by simp)]
          exact .cons hentry hall
      · refine ⟨ds, ?_, ?_⟩
        · rw [Function.update_of_ne (Ne.symm hb)]
        · rw [if_neg (by simpa using hb)]
          exact hall
    · rw [if_neg hdata] at hrecords ⊢
      rw [if_neg hdata]
      by_cases hend : startsWith (cString buf) "FILE_END" = true
      · rw [if_pos hend, if_pos hend]
        exact ⟨st, rfl, fun b => ⟨[], (List.append_nil _).symm, .nil⟩⟩
      · rw [if_neg hend] at hrecords ⊢
        rw [if_neg hend]
        have hrest := ih (h.field (cString buf)) hrecords
        rw [importField_table] at hrest
        exact hrest

theorem imported_keys {env : Env} {t u : HTable} {bytes : Bytes}
    (h : importDbInternal env t (some bytes) = .ok u) : AllNodes (fun _ d => d.key ≠ 0) u := by
  rw [importDbInternal_some] at h
  cases hloop : importLoop env (fgetsLines 1024 [] bytes) { table := hashTableInit t.allocs } with
  | error f =>
    rw [hloop] at h
    cases h
  | ok st =>
    rw [hloop] at h
    cases h
    exact importLoop_stable (key_ne_stable env) _ _ _ hloop fun _ _ hd => absurd hd List.not_mem_nil

theorem exists_related {α β : Type*} {R : α → β → Prop} {xs : List α} {ys : List β}
    (h : List.Forall₂ R xs ys) {x : α} (hx : x ∈ xs) : ∃ y ∈ ys, R x y := by
  induction h with
  | nil => cases hx
  | cons hfirst _ ih =>
    rcases List.mem_cons.mp hx with rfl | hx
    · exact ⟨_, List.mem_cons_self .., hfirst⟩
    · obtain ⟨y, hy, hrest⟩ := ih hx
      exact ⟨y, List.mem_cons_of_mem _ hy, hrest⟩

/-- `import_db_internal` imports just the files that can be imported. -/
theorem imported_iff (env : Env) (t : HTable) (file : Option Bytes) :
    (∃ u, importDbInternal env t file = .ok u ∧ Imported file u) ↔ Importable file := by
  constructor
  · rintro ⟨u, himport, bytes, hfile, hwhole, hbuckets⟩
    refine ⟨bytes, hfile, hwhole, fun r hr => ?_⟩
    have hmem : r ∈ (recordsOf noFields (fgetsLines 1024 [] bytes)).filter
        fun c => hashFunc c.key = hashFunc r.key := List.mem_filter.mpr ⟨hr, by simp⟩
    obtain ⟨d, hd, hentry⟩ := exists_related (hbuckets (hashFunc r.key)) hmem
    refine ⟨?_, hentry.whole⟩
    rw [← hentry.key]
    rw [hfile] at himport
    exact imported_keys himport _ d hd
  · rintro ⟨bytes, rfl, hwhole, hrecords⟩
    obtain ⟨st, hloop, hbuckets⟩ := @importLoop_imports env _ noFields
      { table := hashTableInit t.allocs } ⟨Or.inl rfl, rfl, rfl⟩ hrecords
    refine ⟨st.table, ?_, bytes, rfl, hwhole, fun b => ?_⟩
    · rw [importDbInternal_some, hloop]
      rfl
    · obtain ⟨ds, hds, hall⟩ := hbuckets b
      rw [hds]
      exact hall

example : ∃ bytes, exportDbInternal (zeroEnv fun _ => none) milkTable = .ok bytes ∧
    Importable (some bytes) := by
  refine ⟨ascii "Key: 5676246244586500998\r\nData: buy milk\r\ndata_len: 8\r\nStatus: 0\r\nDATA_END\r\nFILE_END\n",
    ?_, ?_⟩
  · decide +kernel
  · decide +kernel

/-- The entry is begun and not ended. -/
example : ¬Importable (some (ascii "Key: 7\r\nData: milk\r\ndata_len: 4\r\nFILE_END\n")) := by
  decide +kernel

/-! ### The replies of execute_msg -/

theorem handleStorage_conn {env : Env} {s u : Store} {ctx ctx' : ClientCtx} {ret : ℤ}
    (h : handleStorage env s ctx = .ok (ret, u, ctx')) : ctx'.fd = ctx.fd ∧ ctx'.conn = ctx.conn := by
  unfold handleStorage at h
  dsimp only at h
  cases htype : ctx.req.msgType with
  | msgAdd =>
    rw [htype] at h
    dsimp only at h
    split at h
    · cases h
    · split at h
      · cases h
      · cases h
        exact ⟨rfl, rfl⟩
  | msgModify | msgGetAll | msgChkPt =>
    rw [htype] at h
    dsimp only at h
    split at h
    · cases h
    · cases h
      exact ⟨rfl, rfl⟩
  | _ =>
    rw [htype] at h
    cases h
    exact ⟨rfl, rfl⟩

theorem executeMsg_of_storage {env : Env} {s : Server} {ctx ctx' : ClientCtx} {ret : ℤ} {u : Store}
    (h : handleStorage env s.store ctx = .ok (ret, u, ctx')) :
    ∃ t, t.store = u ∧ executeMsg env s ctx = .ok (t, .exec ctx ::
      (if ret ≠ 0 then [writeClientResponce t ctx' "FAIL" "Check inputs"] else []) ++
        [writeClientResponce t ctx' "OK" "Success"] ++ closeFd ctx') := by
  unfold executeMsg
  dsimp only
  by_cases hp : s.repMode = .passiveRep ∧ s.state = .passivePreprimary ∧ ctx.isBacklog = false
  · have hstore : handleStorage env (promoted s).store ctx = .ok (ret, u, ctx') := h
    rw [if_pos hp, setState_primary s hp.1]
    dsimp only
    rw [hstore]
    exact ⟨_, rfl, rfl⟩
  · rw [if_neg hp]
    dsimp only
    rw [h]
    exact ⟨_, rfl, rfl⟩

theorem repliesTo_closeFd (ctx ctx' : ClientCtx) : repliesTo ctx (closeFd ctx') = [] := by
  unfold closeFd
  split
  · rfl
  · rfl

theorem repliesTo_executed {s : Server} {ctx ctx' : ClientCtx} (hfd : ctx'.fd = ctx.fd)
    (hconn : ctx'.conn = ctx.conn) (ret : ℤ) :
    repliesTo ctx (.exec ctx ::
      (if ret ≠ 0 then [writeClientResponce s ctx' "FAIL" "Check inputs"] else []) ++
        [writeClientResponce s ctx' "OK" "Success"] ++ closeFd ctx') =
      (if ret ≠ 0 then [respBytes s ctx' "FAIL" "Check inputs"] else []) ++
        [respBytes s ctx' "OK" "Success"] := by
  have hclose := repliesTo_closeFd ctx ctx'
  unfold repliesTo writeClientResponce at *
  by_cases hret : ret = 0
  · simp [hret, hfd, hconn, hclose]
  · simp [hret, hfd, hconn, hclose]

theorem respBytes_head (s : Server) (ctx : ClientCtx) (status msg : String) :
    ∃ rest, respBytes s ctx status msg =
      ascii "Status: " ++ ascii status ++ ascii "\r\n" ++ ascii "Client ID: " ++ rest := by
  unfold respBytes respHead
  split
  · simp only [List.append_assoc]
    exact ⟨_, rfl⟩
  · simp only [List.append_assoc]
    exact ⟨_, rfl⟩
  · simp only [List.append_assoc]
    exact ⟨_, rfl⟩

theorem respBytes_ok (s : Server) (ctx : ClientCtx) (msg : String) :
    startsWith (respBytes s ctx "OK" msg) "Status: OK\r\n" = true ∧
      startsWith (respBytes s ctx "OK" msg) "Status: FAIL\r\n" = false := by
  obtain ⟨rest, hrest⟩ := respBytes_head s ctx "OK" msg
  obtain ⟨hok, hfail, hlen, hlen'⟩ :
      startsWith (ascii "Status: " ++ ascii "OK" ++ ascii "\r\n" ++ ascii "Client ID: ")
        "Status: OK\r\n" = true ∧
      startsWith (ascii "Status: " ++ ascii "OK" ++ ascii "\r\n" ++ ascii "Client ID: ")
        "Status: FAIL\r\n" = false ∧
      (ascii "Status: OK\r\n").length ≤
        (ascii "Status: " ++ ascii "OK" ++ ascii "\r\n" ++ ascii "Client ID: ").length ∧
      (ascii "Status: FAIL\r\n").length ≤
        (ascii "Status: " ++ ascii "OK" ++ ascii "\r\n" ++ ascii "Client ID: ").length := by
    decide +kernel
  rw [hrest, startsWith_append hlen, startsWith_append hlen']
  exact ⟨hok, hfail⟩

theorem oneTrueReply_storage (env : Env) (s : Server) (ctx : ClientCtx) :
    OneTrueReply env s ctx ↔ ∃ u ctx', handleStorage env s.store ctx = .ok (0, u, ctx') ∧
      TookEffect env s.store u ctx := by
  constructor
  · rintro ⟨t, effs, reply, hexec, hone, hok, -⟩
    obtain ⟨ret, u, ctx', -, hstorage, -, -, -⟩ := executeMsg_cases hexec
    obtain ⟨t', rfl, hexec'⟩ := executeMsg_of_storage hstorage
    rw [hexec] at hexec'
    cases hexec'
    obtain ⟨hfd, hconn⟩ := handleStorage_conn hstorage
    rw [repliesTo_executed hfd hconn] at hone
    by_cases hret : ret = 0
    · subst hret
      cases hone
      exact ⟨_, ctx', hstorage, hok.mp (respBytes_ok t ctx' "Success").1⟩
    · rw [if_pos hret] at hone
      cases hone
  · rintro ⟨u, ctx', hstorage, heffect⟩
    obtain ⟨t, rfl, hexec⟩ := executeMsg_of_storage hstorage
    obtain ⟨hfd, hconn⟩ := handleStorage_conn hstorage
    obtain ⟨hok, hfail⟩ := respBytes_ok t ctx' "Success"
    refine ⟨t, _, respBytes t ctx' "OK" "Success", hexec, repliesTo_executed hfd hconn 0, ?_, ?_⟩
    · simp [hok, heffect]
    · simp [hfail, heffect]

/-! ### When the reply is true -/

/-- The records of all entries have room in as many bytes as `data_size` tells. -/
def RecordsRoom (t : HTable) : Prop :=
  allEntries t = [] ∨ (∀ d ∈ allEntries t, (0 : UInt8) ∈ d.rawData.toList) ∧
    (recordsLen (allEntries t) : ℤ) ≤ hashTableGetDatSize t

/-- The copy of an ADD stays inside the buffer of the key and the key is not 0;
the key of a MODIFY or REMOVE is present; a checkpoint file can be imported; the
records of a GET_ALL have room in their buffer; the type has an operation. -/
def ReplyTrue (env : Env) (s : Store) (ctx : ClientCtx) : Prop :=
  match ctx.req.msgType with
  | .msgAdd => 5 + ctx.req.taskLen.toNat ≤ taskLength ∧ requestKey env ctx.req ≠ 0
  | .msgModify | .msgRemove => Present s.htable ctx.req.hashKey
  | .msgChkPt => Importable (s.files ctx.req.filename)
  | .msgGetAll => RecordsRoom s.htable
  | .invalid | .msgHeartbeat => True
  | _ => False

theorem add_effect_iff {env : Env} {s : Store} {ctx : ClientCtx} (htype : ctx.req.msgType = .msgAdd) :
    (∃ u ctx', handleStorage env s ctx = .ok (0, u, ctx') ∧ TookEffect env s u ctx) ↔
      5 + ctx.req.taskLen.toNat ≤ taskLength ∧ requestKey env ctx.req ≠ 0 := by
  constructor
  · rintro ⟨u, ctx', h, -⟩
    have hlen := executable_of_returns h htype
    refine ⟨hlen, fun hzero => ?_⟩
    have hkey : generateKey env ctx.req.task ctx.clientId ctx.req.taskLen =
        .ok (requestKey env ctx.req) := generateKey_eq_ok.mpr ⟨hlen, rfl⟩
    unfold handleStorage hashTableInsert at h
    dsimp only at h
    rw [htype] at h
    dsimp only at h
    rw [hkey] at h
    dsimp only at h
    rw [if_pos hzero] at h
    cases h
  · rintro ⟨hlen, hkey⟩
    have hgen : generateKey env ctx.req.task ctx.clientId ctx.req.taskLen =
        .ok (requestKey env ctx.req) := generateKey_eq_ok.mpr ⟨hlen, rfl⟩
    have hroom : ctx.req.taskLen.toNat ≤ 1024 := by
      simp only [taskLength] at hlen
      omega
    obtain ⟨ret, u, hins⟩ := (hashTableInsert_returns_iff env s.htable (requestKey env ctx.req)
      ctx.req.taskLen ctx.req.task).mpr (Or.inr hroom)
    have hret : ret = 0 ∧ Inserted s.htable u (requestKey env ctx.req) := by
      rcases hashTableInsert_cases hins with ⟨hzero, -, -⟩ | ⟨-, hret, raw, -, rfl⟩
      · exact absurd hzero hkey
      · exact ⟨hret, _, rfl, Function.update_self ..⟩
    obtain ⟨rfl, hinserted⟩ := hret
    refine ⟨_, _, handleStorage_add env s ctx htype hgen hins, ?_⟩
    unfold TookEffect
    rw [htype]
    exact hinserted

theorem tookEffect_present {env : Env} {s u : Store} {ctx : ClientCtx}
    (htype : ctx.req.msgType = .msgModify ∨ ctx.req.msgType = .msgRemove) :
    TookEffect env s u ctx ↔ Present s.htable ctx.req.hashKey := by
  unfold TookEffect
  rcases htype with htype | htype
  · rw [htype]
  · rw [htype]

theorem modify_effect_iff {env : Env} {s : Store} {ctx : ClientCtx} (htype : ctx.req.msgType = .msgModify)
    (hends : ∀ f, hashTableModify env s.htable ctx.req.hashKey ctx.req.taskStatus ≠ .error f) :
    (∃ u ctx', handleStorage env s ctx = .ok (0, u, ctx') ∧ TookEffect env s u ctx) ↔
      Present s.htable ctx.req.hashKey := by
  simp only [tookEffect_present (Or.inl htype)]
  refine ⟨fun ⟨_, _, _, h⟩ => h, fun h => ?_⟩
  unfold handleStorage
  dsimp only
  rw [htype]
  dsimp only
  cases hmod : hashTableModify env s.htable ctx.req.hashKey ctx.req.taskStatus with
  | error f => exact absurd hmod (hends f)
  | ok r => exact ⟨_, _, rfl, h⟩

theorem unlink_isSome (key : UInt64) (chain : List DataPoint) :
    (unlink key chain).isSome = true ↔ ∃ d ∈ chain, d.key = key := by
  induction chain with
  | nil => simp [unlink]
  | cons d ds ih =>
    rw [unlink]
    by_cases hk : key = d.key
    · simp [hk]
    · rw [if_neg hk, Option.isSome_map, ih]
      simp [Ne.symm hk]

theorem remove_effect_iff {env : Env} {s : Store} {ctx : ClientCtx} (htype : ctx.req.msgType = .msgRemove) :
    (∃ u ctx', handleStorage env s ctx = .ok (0, u, ctx') ∧ TookEffect env s u ctx) ↔
      Present s.htable ctx.req.hashKey := by
  simp only [tookEffect_present (Or.inr htype)]
  refine ⟨fun ⟨_, _, _, h⟩ => h, fun h => ?_⟩
  obtain ⟨r, hr⟩ := Option.isSome_iff_exists.mp ((unlink_isSome _ _).mpr h)
  unfold handleStorage hashTableDelete
  dsimp only
  rw [htype]
  dsimp only
  rw [hr]
  exact ⟨_, _, rfl, h⟩

theorem chkPt_effect_iff {env : Env} {s : Store} {ctx : ClientCtx} (htype : ctx.req.msgType = .msgChkPt) :
    (∃ u ctx', handleStorage env s ctx = .ok (0, u, ctx') ∧ TookEffect env s u ctx) ↔
      Importable (s.files ctx.req.filename) := by
  rw [← imported_iff env s.htable, handleStorage_chkPt env s ctx htype]
  unfold TookEffect
  rw [htype]
  dsimp only
  cases himp : importDbInternal env s.htable (s.files ctx.req.filename) with
  | error f => simp [Except.map]
  | ok t => simp [Except.map]

theorem getAll_returns_iff (t : HTable) : hashTableGetAll t = .ok 0 ↔ RecordsRoom t := by
  unfold RecordsRoom
  by_cases hnil : allEntries t = []
  · unfold hashTableGetAll
    simp [hnil, getAllLoop]
  · rw [← getAllFits_iff_returns t fun h => absurd h hnil]
    unfold GetAllFits
    simp only [getAllExtent_eq_ok, hnil, false_or]
    constructor
    · rintro ⟨n, ⟨hnul, rfl⟩, hle⟩
      exact ⟨hnul, hle⟩
    · rintro ⟨hnul, hle⟩
      exact ⟨_, ⟨hnul, rfl⟩, hle⟩

theorem getAll_effect_iff {env : Env} {s : Store} {ctx : ClientCtx} (htype : ctx.req.msgType = .msgGetAll) :
    (∃ u ctx', handleStorage env s ctx = .ok (0, u, ctx') ∧ TookEffect env s u ctx) ↔
      RecordsRoom s.htable := by
  rw [← getAll_returns_iff]
  unfold handleStorage TookEffect
  dsimp only
  rw [htype]
  dsimp only
  cases hall : hashTableGetAll s.htable with
  | error f => simp
  | ok ret => simp

/-- `execute_msg` writes one reply that is true exactly when the operation of the
request can take effect; to any other request it writes a false one, two, or none. -/
theorem one_true_reply_iff (env : Env) (s : Server) (ctx : ClientCtx)
    (hends : ctx.req.msgType = .msgModify →
      ∀ f, hashTableModify env s.store.htable ctx.req.hashKey ctx.req.taskStatus ≠ .error f) :
    OneTrueReply env s ctx ↔ ReplyTrue env s.store ctx := by
  rw [oneTrueReply_storage]
  unfold ReplyTrue
  cases htype : ctx.req.msgType with
  | msgAdd => exact add_effect_iff htype
  | msgModify => exact modify_effect_iff htype (hends htype)
  | msgRemove => exact remove_effect_iff htype
  | msgChkPt => exact chkPt_effect_iff htype
  | msgGetAll => exact getAll_effect_iff htype
  | invalid | msgHeartbeat =>
    refine ⟨fun _ => trivial, fun _ => ?_⟩
    unfold handleStorage TookEffect
    dsimp only
    rw [htype]
    exact ⟨s.store, ctx, rfl, trivial⟩
  | _ =>
    refine ⟨?_, False.elim⟩
    rintro ⟨u, ctx', -, heffect⟩
    unfold TookEffect at heffect
    rw [htype] at heffect
    exact heffect

def modifyRequest (key : UInt64) : ClientRequest := { msgType := .msgModify, hashKey := key }

theorem one_true_reply_iff_milk :
    OneTrueReply (granted (zeroEnv fun _ => none) 1)
        { serverId := 1, store := ⟨milkTable, fun _ => none⟩ }
        { req := modifyRequest milkKey } ↔
      ReplyTrue (granted (zeroEnv fun _ => none) 1) ⟨milkTable, fun _ => none⟩
        { req := modifyRequest milkKey } := by
  refine one_true_reply_iff _ _ _ fun _ f hf => ?_
  have hreturns : (hashTableModify (granted (zeroEnv fun _ => none) 1) milkTable milkKey
      .taskNotDone).toOption.isSome = true := by decide +kernel
  rw [show hashTableModify (granted (zeroEnv fun _ => none) 1) milkTable milkKey .taskNotDone =
    .error f from hf] at hreturns
  cases hreturns

/-- The key of the MODIFY is not in the empty table, and the reply is OK. -/
theorem modify_of_absent_key_answers_ok :
    (∀ f, hashTableModify (granted (zeroEnv fun _ => none) 1) (hashTableInit 0) 7 .taskNotDone ≠
        .error f) ∧
      ¬OneTrueReply (granted (zeroEnv fun _ => none) 1) { serverId := 1 }
        { req := modifyRequest 7 } := by
  have hends : ∀ f, hashTableModify (granted (zeroEnv fun _ => none) 1) (hashTableInit 0) 7
      .taskNotDone ≠ .error f := by
    intro f hf
    cases hf
  refine ⟨hends, fun h => ?_⟩
  obtain ⟨d, hd, -⟩ := (modify_effect_iff rfl hends).mp
    ((oneTrueReply_storage _ _ _).mp h)
  cases hd

end ToDoList
