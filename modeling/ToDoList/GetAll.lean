import ToDoList.TaskText

/-!
# The buffer of MSG_GET_ALL (db.c, storage.c)

`handle_storage` allocates the sum of the recorded lengths of the texts, and
`hash_table_get_all` prints the key and three pieces of fixed text with each of
them.
-/

namespace ToDoList
open CLib

/-- How far `hash_table_get_all` writes into its buffer, from `pos` on. -/
def getAllExtent : ℕ → List DataPoint → Except Fault ℕ
  | _, [] => .ok 0
  | pos, d :: ds =>
    match getAllRecord d with
    | .error f => .error f
    | .ok r => (getAllExtent (pos + r.length) ds).map (max (pos + min (r.length + 1) maxDataLen))

/-- The bytes that are written, the last NUL included, are within the size of the
buffer. -/
def GetAllFits (t : HTable) : Prop :=
  ∃ n : ℕ, getAllExtent 0 (allEntries t) = .ok n ∧ n ≤ hashTableGetDatSize t

/-! ### The length of a record -/

def textLen (d : DataPoint) : ℕ := (cString d.rawData.toList).length

def keyLen (d : DataPoint) : ℕ := (decimalInt d.key.toBitVec.toInt).length

theorem getAllRecord_length {d : DataPoint} {r : Bytes} (h : getAllRecord d = .ok r) :
    r.length = keyLen d + textLen d + 20 := by
  have hkey : (ascii "hash_key: ").length = 10 := rfl
  have htask : (ascii " task: ").length = 7 := rfl
  have hend : (ascii " \r\n").length = 3 := rfl
  unfold getAllRecord rawString at h
  by_cases hnul : (0 : UInt8) ∈ d.rawData.toList
  · rw [if_pos hnul] at h
    cases h
    simp only [List.length_append, hkey, htask, hend, keyLen, textLen]
    omega
  · rw [if_neg hnul] at h
    cases h

theorem getAllRecord_returns (d : DataPoint) :
    (∃ r, getAllRecord d = .ok r) ↔ (0 : UInt8) ∈ d.rawData.toList := by
  unfold getAllRecord rawString
  by_cases hnul : (0 : UInt8) ∈ d.rawData.toList
  · simp [hnul]
  · simp [hnul]

/-- The records one behind the other; of the last one `snprintf` writes at most
MAX_DATA_LEN bytes. -/
def recordsLen : List DataPoint → ℕ
  | [] => 0
  | [d] => min (keyLen d + textLen d + 21) maxDataLen
  | d :: ds => keyLen d + textLen d + 20 + recordsLen ds

theorem recordsLen_cons (d e : DataPoint) (es : List DataPoint) :
    recordsLen (d :: e :: es) = keyLen d + textLen d + 20 + recordsLen (e :: es) := by
  rw [recordsLen]
  simp

theorem recordsLen_pos (d : DataPoint) (ds : List DataPoint) : 0 < recordsLen (d :: ds) := by
  cases ds with
  | nil =>
    rw [recordsLen]
    unfold maxDataLen
    omega
  | cons e es =>
    rw [recordsLen_cons]
    omega

theorem getAllExtent_cons (pos : ℕ) (d : DataPoint) (ds : List DataPoint)
    (h : ∀ e ∈ d :: ds, (0 : UInt8) ∈ e.rawData.toList) :
    getAllExtent pos (d :: ds) = .ok (pos + recordsLen (d :: ds)) := by
  induction ds generalizing pos d with
  | nil =>
    obtain ⟨r, hr⟩ := (getAllRecord_returns d).mpr (h d (List.mem_cons_self ..))
    rw [getAllExtent, hr]
    dsimp only
    rw [getAllExtent, getAllRecord_length hr, recordsLen]
    show Except.ok (max _ 0) = _
    rw [Nat.max_zero]
  | cons e es ih =>
    obtain ⟨r, hr⟩ := (getAllRecord_returns d).mpr (h d (List.mem_cons_self ..))
    have hpos := recordsLen_pos e es
    rw [getAllExtent, hr]
    dsimp only
    rw [ih _ e fun c hc => h c (List.mem_cons_of_mem _ hc)]
    rw [getAllRecord_length hr, recordsLen_cons]
    show Except.ok (max _ _) = _
    congr 1
    omega

theorem getAllExtent_returns {pos n : ℕ} {ds : List DataPoint} (h : getAllExtent pos ds = .ok n) :
    ∀ d ∈ ds, (0 : UInt8) ∈ d.rawData.toList := by
  induction ds generalizing pos n with
  | nil => simp
  | cons d ds ih =>
    rw [getAllExtent] at h
    cases hr : getAllRecord d with
    | error f =>
      rw [hr] at h
      cases h
    | ok r =>
      rw [hr] at h
      dsimp only at h
      cases hrest : getAllExtent (pos + r.length) ds with
      | error f =>
        rw [hrest] at h
        cases h
      | ok m =>
        intro e he
        rcases List.mem_cons.mp he with rfl | he
        · exact (getAllRecord_returns e).mp ⟨r, hr⟩
        · exact ih hrest e he

theorem getAllExtent_eq_ok (ds : List DataPoint) (n : ℕ) :
    getAllExtent 0 ds = .ok n ↔
      (∀ d ∈ ds, (0 : UInt8) ∈ d.rawData.toList) ∧ n = recordsLen ds := by
  constructor
  · intro h
    have hnul := getAllExtent_returns h
    cases ds with
    | nil =>
      cases h
      exact ⟨hnul, rfl⟩
    | cons d ds =>
      rw [getAllExtent_cons 0 d ds hnul, Nat.zero_add] at h
      cases h
      exact ⟨hnul, rfl⟩
  · rintro ⟨hnul, rfl⟩
    cases ds with
    | nil => rfl
    | cons d ds => rw [getAllExtent_cons 0 d ds hnul, Nat.zero_add]

theorem getAllLoop_eq_ok (size pos : ℕ) (ds : List DataPoint) :
    getAllLoop size pos ds = .ok 0 ↔ ∃ n, getAllExtent pos ds = .ok n ∧ n ≤ size := by
  induction ds generalizing pos with
  | nil => simp [getAllLoop, getAllExtent]
  | cons d ds ih =>
    rw [getAllLoop, getAllExtent]
    cases hr : getAllRecord d with
    | error f => simp
    | ok r =>
      dsimp only
      by_cases hroom : pos + min (r.length + 1) maxDataLen ≤ size
      · rw [if_pos hroom, ih]
        cases hrest : getAllExtent (pos + r.length) ds with
        | error f => simp [Except.map]
        | ok m => simp [Except.map, hroom]
      · rw [if_neg hroom]
        cases hrest : getAllExtent (pos + r.length) ds with
        | error f => simp [Except.map]
        | ok m => simp [Except.map, hroom]

theorem getAllFits_iff_returns (t : HTable) (h : allEntries t = [] → 0 ≤ hashTableGetDatSize t) :
    GetAllFits t ↔ hashTableGetAll t = .ok 0 := by
  unfold GetAllFits hashTableGetAll
  dsimp only
  by_cases hneg : hashTableGetDatSize t < 0
  · have hne : allEntries t ≠ [] := fun hnil => absurd (h hnil) (not_le.mpr hneg)
    rw [if_pos ⟨hneg, hne⟩]
    constructor
    · rintro ⟨n, -, hn⟩
      omega
    · intro hfault
      cases hfault
  · rw [if_neg fun hboth => hneg hboth.1, getAllLoop_eq_ok]
    constructor
    · rintro ⟨n, hn, hle⟩
      exact ⟨n, hn, by omega⟩
    · rintro ⟨n, hn, hle⟩
      exact ⟨n, hn, by omega⟩

/-! ### Recorded lengths -/

def FullText (d : DataPoint) : Prop := d.dataLen.toNat ≤ textLen d

theorem lenSum_le (ds : List DataPoint) (h : ∀ d ∈ ds, FullText d) :
    (lenSum ds).toNat ≤ (ds.map textLen).sum := by
  induction ds with
  | nil => simp [lenSum]
  | cons d ds ih =>
    have hd : d.dataLen.toNat ≤ textLen d := h d (List.mem_cons_self ..)
    have hds := ih fun e he => h e (List.mem_cons_of_mem _ he)
    have hsum : lenSum (d :: ds) = d.dataLen + lenSum ds := rfl
    have hle : (d.dataLen + lenSum ds).toNat ≤ d.dataLen.toNat + (lenSum ds).toNat := by
      rw [UInt64.toNat_add]
      exact Nat.mod_le _ _
    rw [hsum, List.map_cons, List.sum_cons]
    omega

theorem hashTableGetDatSize_le (t : HTable) : hashTableGetDatSize t ≤ t.dataSize.toNat := by
  have hcut : (t.dataSize.toBitVec.setWidth 32).toNat ≤ t.dataSize.toNat := by
    rw [BitVec.toNat_setWidth]
    exact Nat.mod_le _ _
  unfold hashTableGetDatSize
  rw [BitVec.toInt_eq_toNat_cond]
  split
  · omega
  · omega

theorem recordsLen_gt (ds : List DataPoint) (hne : ds ≠ []) (h : ∀ d ∈ ds, textLen d < maxDataLen) :
    (ds.map textLen).sum < recordsLen ds := by
  induction ds with
  | nil => exact absurd rfl hne
  | cons d ds ih =>
    have hd := h d (List.mem_cons_self ..)
    rw [List.map_cons, List.sum_cons]
    cases ds with
    | nil =>
      rw [recordsLen, List.map_nil, List.sum_nil]
      omega
    | cons e es =>
      have hes := ih (List.cons_ne_nil _ _) fun c hc => h c (List.mem_cons_of_mem _ hc)
      rw [recordsLen_cons]
      omega

theorem textLen_lt {d : DataPoint} (h : (0 : UInt8) ∈ d.rawData.toList) : textLen d < maxDataLen := by
  have hpre : cString d.rawData.toList <+: d.rawData.toList := List.takeWhile_prefix _
  have hlen : d.rawData.toList.length = maxDataLen := d.rawData.toList_length
  have hle := hpre.length_le
  have hne : (cString d.rawData.toList).length ≠ d.rawData.toList.length := by
    intro heq
    rw [← hpre.eq_of_length heq] at h
    have hnul := List.mem_takeWhile_imp h
    simp at hnul
  unfold textLen
  omega

/-- The lengths that are recorded exceed the texts so far that the keys and the
fixed parts of the records, all texts ended in their fields, have room. -/
structure Padded (t : HTable) : Prop where
  padded : ∃ d ∈ allEntries t, ¬FullText d
  terminated : ∀ d ∈ allEntries t, (0 : UInt8) ∈ d.rawData.toList
  room : (recordsLen (allEntries t) : ℤ) ≤ ((lenSum (allEntries t)).toBitVec.setWidth 32).toInt

theorem getAllFits_fullText {t : HTable} (hsize : t.dataSize = lenSum (allEntries t))
    (hfull : ∀ d ∈ allEntries t, FullText d) : GetAllFits t ↔ allEntries t = [] := by
  constructor
  · rintro ⟨n, hn, hle⟩
    by_contra hne
    obtain ⟨hnul, rfl⟩ := (getAllExtent_eq_ok _ _).mp hn
    have hgt := recordsLen_gt (allEntries t) hne fun d hd => textLen_lt (hnul d hd)
    have hsum := lenSum_le (allEntries t) hfull
    have hint := hashTableGetDatSize_le t
    rw [hsize] at hint
    omega
  · intro hnil
    refine ⟨0, by rw [hnil]; rfl, ?_⟩
    unfold hashTableGetDatSize
    rw [hsize, hnil]
    decide

/-- The records fit the buffer only of an empty table, or of one with lengths
recorded that are greater than its texts. -/
theorem getAll_fits_iff (env : Env) (t : HTable) (h : ReachableTable env t) :
    GetAllFits t ↔ allEntries t = [] ∨ Padded t := by
  have hsize := (tableInv_of_reachable env t h).size
  by_cases hfull : ∀ d ∈ allEntries t, FullText d
  · rw [getAllFits_fullText hsize hfull]
    constructor
    · intro hnil
      exact Or.inl hnil
    · rintro (hnil | hpadded)
      · exact hnil
      · obtain ⟨d, hd, hlong⟩ := hpadded.padded
        exact absurd (hfull d hd) hlong
  · have hlong : ∃ d ∈ allEntries t, ¬FullText d := by simpa using hfull
    constructor
    · rintro ⟨n, hn, hle⟩
      obtain ⟨hnul, rfl⟩ := (getAllExtent_eq_ok _ _).mp hn
      unfold hashTableGetDatSize at hle
      rw [hsize] at hle
      exact Or.inr ⟨hlong, hnul, hle⟩
    · rintro (hnil | hpadded)
      · obtain ⟨d, hd, -⟩ := hlong
        rw [hnil] at hd
        exact absurd hd List.not_mem_nil
      · refine ⟨_, (getAllExtent_eq_ok _ _).mpr ⟨hpadded.terminated, rfl⟩, ?_⟩
        unfold hashTableGetDatSize
        rw [hsize]
        exact hpadded.room

theorem milkTable_reachable : ReachableTable (zeroEnv fun _ => some milkKey) milkTable :=
  textTable_reachable milkKey (ascii "buy milk") (by decide) (by decide +kernel)

theorem getAll_fits_iff_milk : GetAllFits milkTable ↔ allEntries milkTable = [] ∨ Padded milkTable :=
  getAll_fits_iff _ milkTable milkTable_reachable

/-- The record of one task of eight bytes in a buffer of eight. -/
theorem milk_overruns_getAll :
    ¬∀ (env : Env) (t : HTable), ReachableTable env t → GetAllFits t := by
  intro h
  have hfits := h _ milkTable milkTable_reachable
  have hone : allEntries milkTable ≠ [] := by decide +kernel
  have hfull : ∀ d ∈ allEntries milkTable, d.dataLen.toNat ≤ textLen d := by decide +kernel
  exact hone ((getAllFits_fullText rfl hfull).mp hfits)

/-! ### Tables filled by clients -/

def ClientEvent : StorageEvent → Prop
  | .request ctx => FromWire ctx ∧ ctx.req.msgType ≠ .msgChkPt
  | .file _ _ => True

theorem fullText_stored {d : DataPoint} {text rest : Bytes} (hraw : d.rawData.toList = text ++ rest)
    (htext : ∀ b ∈ text, b ≠ 0) (hlen : d.dataLen.toNat ≤ text.length) : FullText d := by
  have hpre : text <+: cString d.rawData.toList := by
    rw [hraw]
    unfold cString
    rw [List.takeWhile_append_of_pos fun b hb => by simpa using htext b hb]
    exact List.prefix_append _ _
  exact le_trans hlen hpre.length_le

/-- A task that is inserted as the parser has left it is recorded with its length. -/
theorem fromWire_insert {env : Env} {t u : HTable} {ctx : ClientCtx} {key : UInt64} {ret : ℤ}
    (hwire : FromWire ctx) (hkey : generateKey env ctx.req.task ctx.clientId ctx.req.taskLen = .ok key)
    (hins : hashTableInsert env t key ctx.req.task.toList ctx.req.taskLen = .ok (ret, u))
    (ht : AllNodes (fun _ d => FullText d) t) : AllNodes (fun _ d => FullText d) u := by
  obtain ⟨start, reads, hreq, hread⟩ := hwire
  have hheld := readHeader_taskHeld hreq hread
  have hroom : 5 + ctx.req.taskLen.toNat ≤ taskLength := by
    unfold generateKey at hkey
    split at hkey
    · assumption
    · cases hkey
  have hshort : (sentTask reads).length < taskLength := by
    by_contra hlong
    have hfull := hheld.long (not_lt.mp hlong)
    omega
  rcases hashTableInsert_cases hins with ⟨-, -, rfl⟩ | ⟨-, -, raw, hraw, rfl⟩
  · exact ht
  · refine allNodes_update rfl ht fun d hd => ?_
    rcases List.mem_append.mp hd with hd | hd
    · exact ht _ d hd
    · rw [List.mem_singleton.mp hd]
      obtain ⟨-, -, hlist⟩ := memcpy_eq_some hraw
      have hval := hheld.short hshort
      rw [hheld.task, toList_strncpy _ _ hshort.le, hval, List.take_left] at hlist
      exact fullText_stored hlist hheld.text hval.le

theorem clientEvent_fullText {env : Env} {s u : Store} {e : StorageEvent}
    (hs : AllNodes (fun _ d => FullText d) s.htable) (he : ClientEvent e)
    (h : storageStep env s e = some u) : AllNodes (fun _ d => FullText d) u.htable := by
  cases e with
  | file name content =>
    cases h
    exact hs
  | request ctx =>
    obtain ⟨hwire, htype⟩ := he
    rw [storageStep] at h
    cases hh : handleStorage env s ctx with
    | error f =>
      rw [hh] at h
      cases h
    | ok r =>
      obtain ⟨ret, v, ctx'⟩ := r
      rw [hh] at h
      cases h
      unfold handleStorage at hh
      dsimp only at hh
      split at hh
      · split at hh
        · cases hh
        · rename_i hkey
          split at hh
          · cases hh
          · rename_i hins
            cases hh
            exact fromWire_insert hwire hkey hins hs
      · split at hh
        · cases hh
        · rename_i hmod
          cases hh
          rcases hashTableModify_cases hmod with rfl | ⟨i, rfl⟩
          · exact hs
          · refine allNodes_update rfl hs fun d hd => ?_
            obtain ⟨c, hc, -, hraw, hlen⟩ := mem_modify_status hd
            unfold FullText textLen
            rw [hraw, hlen]
            exact hs _ c hc
      · cases hh
        exact allNodes_delete hs _
      · split at hh
        · cases hh
        · cases hh
          exact hs
      · cases hh
        exact hs
      · cases hh
        exact hs
      · exact absurd (by assumption) htype
      · cases hh
        exact hs

/-- Where clients alone have filled the table, MSG_GET_ALL fits its buffer when there
is nothing to print. -/
theorem clientTable_fits_iff_empty {env : Env} {es : List StorageEvent} {s : Store}
    (hes : StepRun.AllSteps (storageStep env) (fun _ e => ClientEvent e) storageInit es)
    (hrun : StepRun.run (storageStep env) storageInit es = some s) :
    GetAllFits s.htable ↔ allEntries s.htable = [] := by
  have hfull : AllNodes (fun _ d => FullText d) s.htable :=
    StepRun.run_invariant (I := fun s => AllNodes (fun _ d => FullText d) s.htable)
      (fun _ _ _ => clientEvent_fullText) (fun _ _ hd => absurd hd List.not_mem_nil) hes hrun
  exact getAllFits_fullText (tableInv_of_reachable env _ ⟨es, s, hrun, rfl⟩).size hfull.mem

end ToDoList
