import ToDoList.RoundTrip

/-!
# Texts near the size of the field

The wire parser stores up to 1023 bytes of text, `import_db_internal` reads at
most 1023 bytes of the line `Data: <text>`. Behind 1017 bytes of text the rest
is read as a line of its own, which may be taken for a `Key` or a `Data` line
and is dropped otherwise: the byte at position 1017 is lost in every case.
-/

namespace ToDoList
open CLib

/-- A table of texts as the wire parser stores them. -/
structure WireTable (t : HTable) : Prop where
  inv : TableInv t
  stored : AllNodes (fun _ d => Stored d) t

/-! ### The rest of a long line -/

theorem sscanf_lits_cases (p : Bytes) (ds : List Directive) (s : Bytes) :
    sscanf (p.map Directive.lit ++ ds) s = [] ∨
      sscanf (p.map Directive.lit ++ ds) s = sscanf ds (s.drop p.length) := by
  induction p generalizing s with
  | nil => exact Or.inr rfl
  | cons b p ih =>
    cases s with
    | nil => exact Or.inl rfl
    | cons c s =>
      rw [List.map_cons, List.cons_append, sscanf]
      split
      · exact ih s
      · exact Or.inl rfl

/-- A line puts no more bytes into `data` than it has. -/
theorem importField_data_short (line : Bytes) (st : ImportState) :
    (importField line st).data = st.data ∨
      ∃ w : Bytes, w.length ≤ line.length ∧ (importField line st).data = strncpy 1024 w := by
  have hdata : (importField line st).data = if startsWith line "Data" then
      strncpy 1024 ((storedText (sscanf (lits "Data:" ++ [.white, .set [byte '\n'] 8191, .skipChar])
        line)).getD []) else st.data := by
    unfold importField
    dsimp only
    split <;> split <;> split <;> rfl
  rw [hdata]
  split
  · refine Or.inr ⟨_, ?_, rfl⟩
    unfold lits
    rcases sscanf_lits_cases (ascii "Data:") [.white, .set [byte '\n'] 8191, .skipChar] line with h | h
    · rw [h]
      exact Nat.zero_le _
    · rw [h, sscanf, sscanf]
      split
      · exact Nat.zero_le _
      · have h1 : ((line.drop (ascii "Data:").length).dropWhile isSpace).length ≤ line.length :=
          (List.length_dropWhile_le ..).trans (by rw [List.length_drop]; omega)
        exact (List.length_take_le' ..).trans ((List.takeWhile_prefix _).length_le.trans h1)
  · exact Or.inl rfl

/-- A text shorter than the keyword and ended by a CR is not the keyword. -/
theorem not_startsWith {p : String} (t rest : Bytes) (hlen : t.length < (ascii p).length)
    (hp : ∀ b ∈ ascii p, b ≠ byte '\r') : startsWith (t ++ byte '\r' :: rest) p = false := by
  rw [startsWith, ← Bool.not_eq_true, List.isPrefixOf_iff_prefix]
  rintro ⟨u, hu⟩
  have hcr : (ascii p)[t.length]? = some (byte '\r') := by
    rw [← List.getElem?_append_left hlen, hu]
    simp
  exact hp _ (List.mem_of_getElem? hcr) rfl

theorem importLoop_tailChunk (env : Env) (s : Bytes) (hs : CleanText s) (hlong : 1017 < s.length)
    (hlen : s.length ≤ 1023) (lines : List Bytes) (st : ImportState) :
    importLoop env (((s ++ [byte '\r']).drop 1017 ++ [byte '\n']) :: lines) st =
      importLoop env lines (importField ((s ++ [byte '\r']).drop 1017 ++ [byte '\n']) st) := by
  have htail : (s ++ [byte '\r']).drop 1017 ++ [byte '\n'] =
      s.drop 1017 ++ byte '\r' :: [byte '\n'] := by
    rw [List.drop_append_of_le_length hlong.le, List.append_assoc]
    rfl
  have hshort : (s.drop 1017).length < 8 := by
    rw [List.length_drop]
    omega
  have hc : cString (s.drop 1017 ++ byte '\r' :: [byte '\n']) =
      s.drop 1017 ++ byte '\r' :: [byte '\n'] := by
    apply cString_of_no_nul
    intro b hb
    rcases List.mem_append.mp hb with hb | hb
    · exact (hs.1 b (List.mem_of_mem_drop hb)).2.2
    · exact crlf_no_nul b (by rw [crlf_eq]; exact hb)
  have hmarks : (∀ b ∈ ascii "DATA_END", b ≠ byte '\r') ∧ ∀ b ∈ ascii "FILE_END", b ≠ byte '\r' := by
    decide +kernel
  rw [htail]
  exact importLoop_field env _ _ _ hc (not_startsWith _ _ hshort hmarks.1)
    (not_startsWith _ _ hshort hmarks.2)

/-! ### A long text through the import loop -/

def isText (d : DataPoint) : Bool := !(entry d).1.contains 0

theorem isText_of_stored {d : DataPoint} (h : Stored d) : isText d = true := by
  have hno : (0 : UInt8) ∉ (entry d).1 := fun hm => (h.text.1 0 hm).2.2 rfl
  simpa [isText] using hno

/-- Behind a long data line `data` ends before the text does. -/
theorem importLoop_longData (env : Env) (s : Bytes) (hs : CleanText s) (hlong : 1017 < s.length)
    (hlen : s.length ≤ 1023) (st : ImportState) :
    ∃ st₁ : ImportState, st₁.table = st.table ∧ st₁.data.toList[1017]? = some 0 ∧
      ∀ lines, importLoop env (dataChunks s ++ lines) st = importLoop env lines st₁ := by
  have hchunks : dataChunks s = [ascii "Data: " ++ (s ++ [byte '\r']).take 1017,
      (s ++ [byte '\r']).drop 1017 ++ [byte '\n']] := by
    rw [dataChunks, if_neg (by omega)]
  have hzero : ∀ w : Bytes, w.length ≤ 1017 → (strncpy 1024 w).toList[1017]? = some 0 := by
    intro w hw
    rw [toList_strncpy _ _ (by omega), List.getElem?_append_right hw, List.getElem?_replicate,
      if_pos (by omega)]
  let st₁ := { st with data := strncpy 1024 ((s ++ [byte '\r']).take 1017) }
  refine ⟨importField ((s ++ [byte '\r']).drop 1017 ++ [byte '\n']) st₁, importField_table _ _, ?_, ?_⟩
  · rcases importField_data_short ((s ++ [byte '\r']).drop 1017 ++ [byte '\n']) st₁ with h | ⟨w, hw, h⟩
    · rw [h]
      exact hzero _ (by simp)
    · rw [h]
      apply hzero
      simp only [List.length_append, List.length_drop, List.length_singleton] at hw
      omega
  · intro lines
    rw [hchunks, List.cons_append, importLoop_firstChunk env s hs (by omega), List.cons_append,
      List.nil_append, importLoop_tailChunk env s hs hlong hlen]

/-- A node of more than 1017 bytes is dropped or comes back with a NUL in it. -/
theorem importLoop_longEntry (env : Env) (d : DataPoint) (h : Stored d) (hlen : 1017 < d.dataLen.toNat)
    (lines : List Bytes) (st : ImportState) :
    ∃ st', importLoop env (entryChunks env d ++ lines) st = importLoop env lines st' ∧
      (st'.table.data = st.table.data ∨ ∃ b d', isText d' = false ∧
        st'.table.data = Function.update st.table.data b (st.table.data b ++ [d'])) := by
  have htext := h.length
  have hlt := h.len_lt
  unfold maxDataLen at hlt
  obtain ⟨st₁, htable, hnul, hmid⟩ := importLoop_longData env (entry d).1 h.text (by omega) (by omega)
    { st with temp1 := decimal d.key.toNat }
  have hloop := importLoop_node env d _ lines st st₁ hmid
  by_cases hkey : strtoull st₁.temp1 = 0
  · rw [hkey, hashTableInsert_zero] at hloop
    refine ⟨_, hloop, Or.inl ?_⟩
    show st₁.table.data = st.table.data
    rw [htable]
  · have hsize : d.dataLen.toNat ≤ st₁.data.toList.length := by
      rw [List.Vector.toList_length]
      omega
    obtain ⟨raw, hraw, hins⟩ := hashTableInsert_ok env st₁.table (strtoull st₁.temp1) st₁.data.toList
      d.dataLen hkey (by unfold maxDataLen; omega) hsize
    rw [hins] at hloop
    refine ⟨_, hloop, Or.inr ⟨hashFunc (strtoull st₁.temp1),
      ⟨strtoull st₁.temp1, raw, d.dataLen, (env.fresh st₁.table.allocs).taskStatus⟩, ?_, ?_⟩⟩
    · have hmem : (0 : UInt8) ∈ raw.toList.take d.dataLen.toNat := by
        rw [take_memcpy hraw]
        apply List.mem_of_getElem?
        rw [List.getElem?_take_of_lt hlen]
        exact hnul
      simpa [isText, entry] using hmem
    · show Function.update st₁.table.data _ _ = _
      rw [htable]

/-! ### Counting the texts -/

def textCount (t : HTable) : ℕ := (allEntries t).countP isText

theorem textCount_update {t u : HTable} {b : Fin hashTableLen} {d : DataPoint}
    (h : u.data = Function.update t.data b (t.data b ++ [d])) :
    textCount u = textCount t + if isText d then 1 else 0 := by
  have ht := (allEntries_perm t b).countP_eq isText
  have hu := (allEntries_perm u b).countP_eq isText
  rw [h, otherEntries_update, Function.update_self, List.countP_append, List.countP_append,
    List.countP_singleton] at hu
  rw [List.countP_append] at ht
  unfold textCount
  omega

theorem textCount_of_data {t u : HTable} (h : u.data = t.data) : textCount u = textCount t := by
  unfold textCount allEntries
  rw [h]

theorem isText_of_view {d d' : DataPoint} (h : view d' = view d) : isText d' = isText d := by
  have he : entry d' = entry d := congrArg Prod.snd h
  rw [isText, isText, he]

def shortText (d : DataPoint) : Bool := d.dataLen.toNat ≤ 1017

/-- An import brings back as many texts as the file has entries of at most 1017
bytes. -/
theorem importLoop_count (env : Env) (ds : List DataPoint) (hs : ∀ d ∈ ds, Stored d)
    (hkey : ∀ d ∈ ds, d.key ≠ 0) (st : ImportState) :
    ∃ st', importLoop env (ds.flatMap (entryChunks env) ++ [ascii "FILE_END\n"]) st = .ok st' ∧
      textCount st'.table = textCount st.table + ds.countP shortText := by
  induction ds generalizing st with
  | nil => exact ⟨st, rfl, rfl⟩
  | cons d ds ih =>
    have hd := hs d (List.mem_cons_self ..)
    have hone : ∀ lines, ∃ st₁, importLoop env (entryChunks env d ++ lines) st =
        importLoop env lines st₁ ∧
        textCount st₁.table = textCount st.table + if shortText d then 1 else 0 := by
      intro lines
      by_cases hlen : d.dataLen.toNat ≤ 1017
      · obtain ⟨d', st₁, hloop, hview, -, htable⟩ := importLoop_entry env d hd
          (hkey d (List.mem_cons_self ..)) hlen lines st
        refine ⟨st₁, hloop, ?_⟩
        have hdata := congrArg HTable.data htable
        rw [textCount_update hdata, isText_of_view hview, isText_of_stored hd]
        simp [shortText, hlen]
      · obtain ⟨st₁, hloop, hdata | ⟨b, d', hno, hdata⟩⟩ :=
          importLoop_longEntry env d hd (by omega) lines st
        · refine ⟨st₁, hloop, ?_⟩
          rw [textCount_of_data hdata]
          simp [shortText, hlen]
        · refine ⟨st₁, hloop, ?_⟩
          rw [textCount_update hdata, hno]
          simp [shortText, hlen]
    obtain ⟨st₁, hloop, hcount⟩ := hone (ds.flatMap (entryChunks env) ++ [ascii "FILE_END\n"])
    obtain ⟨st', hrest, hsum⟩ := ih (fun c hc => hs c (List.mem_cons_of_mem _ hc))
      (fun c hc => hkey c (List.mem_cons_of_mem _ hc)) st₁
    refine ⟨st', ?_, ?_⟩
    · rw [List.flatMap_cons, List.append_assoc, hloop, hrest]
    · rw [hsum, hcount, List.countP_cons]
      omega

/-- Export and import give back every key and text of the table, bucket by
bucket and in order. -/
def EntriesSurvive (env : Env) (t t₀ : HTable) : Prop :=
  ∃ file t', exportDbInternal env t = .ok file ∧ importDbInternal env t₀ (some file) = .ok t' ∧
    ∀ b, (t'.data b).map view = (t.data b).map view

theorem short_of_survive (env : Env) (t : HTable) (ht : WireTable t) (t₀ : HTable)
    (h : EntriesSurvive env t t₀) : AllNodes (fun _ d => d.dataLen.toNat ≤ 1017) t := by
  obtain ⟨file, t', hfile, himp, hview⟩ := h
  obtain ⟨file', hfile', hlines⟩ := exportEntries_lines env (allEntries t) ht.stored.mem
  have hsame : file' = file := by
    have h2 : Except.ok file' = Except.ok file := hfile'.symm.trans hfile
    injection h2
  obtain ⟨st, hst, hcount⟩ := importLoop_count env (allEntries t) ht.stored.mem
    ht.inv.key_ne.mem { table := hashTableInit t₀.allocs }
  have hst' : st.table = t' := by
    rw [importDbInternal, ← hsame, hlines, hst] at himp
    injection himp
  -- the tables have the same views, so they hold equally many texts
  have hlist : (allEntries t').map view = (allEntries t).map view := by
    unfold allEntries
    rw [List.map_flatMap, List.map_flatMap]
    exact List.flatMap_congr fun b _ => hview b
  have htext : ∀ u : HTable, textCount u =
      ((allEntries u).map view).countP fun v => !v.2.1.contains 0 := by
    intro u
    rw [List.countP_map]
    rfl
  have hall : textCount t = (allEntries t).length :=
    List.countP_eq_length.mpr fun d hd => isText_of_stored (ht.stored.mem d hd)
  have hzero : textCount (hashTableInit t₀.allocs) = 0 := rfl
  have hfull : (allEntries t).countP shortText = (allEntries t).length := by
    rw [← hall, htext t, ← hlist, ← htext t', ← hst', hcount, hzero, Nat.zero_add]
  intro b d hd
  exact of_decide_eq_true (List.countP_eq_length.mp hfull d (mem_allEntries hd))

theorem survive_of_short (env : Env) (t : HTable) (ht : WireTable t)
    (hlen : AllNodes (fun _ d => d.dataLen.toNat ≤ 1017) t) (t₀ : HTable) :
    EntriesSurvive env t t₀ := by
  obtain ⟨file, t', hfile, himp, hbuckets, -⟩ := import_export_short env t ht.inv ht.stored hlen t₀
  refine ⟨file, t', hfile, himp, fun b => ?_⟩
  rw [view_of_fullView (hbuckets b), restamp_view, inBucket_allEntries t ht.inv.bucket b]

/-- Export and import rebuild a table of wire texts exactly when no text has
more than 1017 bytes. -/
theorem checkpoint_keeps_entries_iff (env : Env) (t : HTable) (ht : WireTable t) (t₀ : HTable) :
    EntriesSurvive env t t₀ ↔ AllNodes (fun _ d => d.dataLen.toNat ≤ 1017) t :=
  ⟨short_of_survive env t ht t₀, fun hlen => survive_of_short env t ht hlen t₀⟩

/-! ### Tables with one text -/

theorem textTable_stored {key : UInt64} {text : Bytes} {status : TStatus} (hclean : CleanText text)
    (hlen : text.length ≤ 1023) :
    Stored ⟨key, strncpy maxDataLen text, .ofNat text.length, status⟩ := by
  have hn := toNat_ofNat_length hlen (by decide)
  have hraw := toList_strncpy 1024 text (by omega)
  constructor
  · show (strncpy 1024 text).toList[(UInt64.ofNat text.length).toNat]? = some 0
    rw [hn, hraw, List.getElem?_append_right (le_refl _), List.getElem?_replicate,
      if_pos (by omega)]
  · show CleanText ((strncpy 1024 text).toList.take (UInt64.ofNat text.length).toNat)
    rw [hn, hraw, List.take_left' rfl]
    exact hclean

theorem textTable_wire {key : UInt64} {text : Bytes} {status : TStatus} (hkey : key ≠ 0)
    (hclean : CleanText text) (hlen : text.length ≤ 1023) : WireTable (textTable key text status) where
  inv := {
    bucket := by
      intro b d hd
      obtain ⟨rfl, rfl⟩ := textTable_mem hd
      rfl
    key_ne := by
      intro b d hd
      obtain ⟨rfl, rfl⟩ := textTable_mem hd
      exact hkey
    size := by
      have h := lenSum_update ⟨fun _ => [], 0, 0⟩ (textTable key text status) (hashFunc key) _ rfl
      have hnil : lenSum (allEntries ⟨fun _ => [], 0, 0⟩) = 0 := rfl
      have hlen : ∀ d : DataPoint, lenSum [d] = d.dataLen := fun d => UInt64.add_zero _
      rw [hnil, List.nil_append, hlen, UInt64.zero_add] at h
      rw [← UInt64.add_zero (lenSum _)]
      exact h.symm }
  stored := by
    intro b d hd
    obtain ⟨rfl, rfl⟩ := textTable_mem hd
    exact textTable_stored hclean hlen

theorem cleanText_replicate (n : ℕ) : CleanText (List.replicate n (byte 'a')) := by
  constructor
  · intro b hb
    rw [List.eq_of_mem_replicate hb]
    decide
  · intro b hb
    rw [List.eq_of_mem_replicate (List.mem_of_mem_head? hb)]
    decide

theorem checkpoint_keeps_entries_iff_milk :
    EntriesSurvive (zeroEnv fun _ => some milkKey) milkTable (hashTableInit 0) ↔
      AllNodes (fun _ d => d.dataLen.toNat ≤ 1017) milkTable :=
  checkpoint_keeps_entries_iff _ milkTable
    (textTable_wire (by decide) (by decide +kernel) (by decide +kernel)) _

theorem textTable_lost {key : UInt64} {text : Bytes} {status : TStatus} (env : Env) (t₀ : HTable)
    (hwire : WireTable (textTable key text status)) (hlong : 1017 < text.length)
    (hlen : text.length ≤ 1023) : ¬EntriesSurvive env (textTable key text status) t₀ := by
  intro h
  have hmem : ⟨key, strncpy maxDataLen text, .ofNat text.length, status⟩ ∈
      (textTable key text status).data (hashFunc key) := by
    simp [textTable, insertDataPoint]
  have hshort : (UInt64.ofNat text.length).toNat ≤ 1017 := short_of_survive env _ hwire t₀ h _ _ hmem
  rw [toNat_ofNat_length hlen (by decide)] at hshort
  omega

def longTextTable : HTable := textTable milkKey (List.replicate 1018 (byte 'a')) .taskNotDone

/-- A text of 1018 bytes, which a client can add, does not come back. -/
theorem checkpoint_loses_long_text :
    ReachableTable (zeroEnv fun _ => some milkKey) longTextTable ∧ WireTable longTextTable ∧
      ¬EntriesSurvive (zeroEnv fun _ => some milkKey) longTextTable (hashTableInit 0) := by
  have hlen : (List.replicate 1018 (byte 'a')).length = 1018 := List.length_replicate ..
  have hwire : WireTable longTextTable :=
    textTable_wire (by decide) (cleanText_replicate 1018) (by omega)
  exact ⟨textTable_reachable milkKey _ (by decide) (by omega), hwire,
    textTable_lost _ _ hwire (by omega) (by omega)⟩

/-! ### The status -/

/-- Export and import give back every entry with its `task_status`. -/
def StatusSurvives (env : Env) (t t₀ : HTable) : Prop :=
  ∃ file t', exportDbInternal env t = .ok file ∧ importDbInternal env t₀ (some file) = .ok t' ∧
    ∀ b, (t'.data b).map fullView = (t.data b).map fullView

/-- The `n`-th and following blocks hold the statuses of `ds`. -/
def HeapHolds (env : Env) (n : ℕ) (ds : List DataPoint) : Prop :=
  ∀ i d, ds[i]? = some d → (env.fresh (n + i)).taskStatus = d.taskStatus

theorem heapHolds_cons (env : Env) (n : ℕ) (d : DataPoint) (ds : List DataPoint) :
    HeapHolds env n (d :: ds) ↔ (env.fresh n).taskStatus = d.taskStatus ∧ HeapHolds env (n + 1) ds := by
  constructor
  · intro h
    refine ⟨h 0 d rfl, fun i c hc => ?_⟩
    rw [Nat.add_right_comm]
    exact h (i + 1) c hc
  · rintro ⟨h0, hs⟩ i c hc
    cases i with
    | zero =>
      cases hc
      exact h0
    | succ i =>
      have hi := hs i c hc
      rwa [Nat.add_right_comm] at hi

/-- Restamped nodes agree with the old ones in every bucket exactly when the
heap holds the old statuses. -/
theorem restamp_fullView_iff (env : Env) (n : ℕ) (ds : List DataPoint) :
    (∀ b, (inBucket b (restamp env n ds)).map fullView = (inBucket b ds).map fullView) ↔
      HeapHolds env n ds := by
  induction ds generalizing n with
  | nil => exact ⟨fun _ i d hd => by simp at hd, fun _ b => rfl⟩
  | cons d ds ih =>
    have hcons : ∀ b (c : DataPoint) cs, inBucket b (c :: cs) =
        if hashFunc c.key = b then c :: inBucket b cs else inBucket b cs := by
      intro b c cs
      simp [inBucket, List.filter_cons]
    have hstep : ∀ b, (inBucket b (restamp env n (d :: ds))).map fullView =
          (inBucket b (d :: ds)).map fullView ↔
        (hashFunc d.key = b → (env.fresh n).taskStatus = d.taskStatus) ∧
          (inBucket b (restamp env (n + 1) ds)).map fullView = (inBucket b ds).map fullView := by
      intro b
      have hkey : (withStatus (env.fresh n).taskStatus d).key = d.key := rfl
      rw [restamp, hcons, hcons, hkey]
      by_cases hb : hashFunc d.key = b
      · rw [if_pos hb, if_pos hb, List.map_cons, List.map_cons, List.cons.injEq]
        have hfull : fullView (withStatus (env.fresh n).taskStatus d) = fullView d ↔
            (env.fresh n).taskStatus = d.taskStatus := by
          show (view d, (env.fresh n).taskStatus) = (view d, d.taskStatus) ↔ _
          rw [Prod.mk.injEq]
          simp
        rw [hfull]
        simp [hb]
      · rw [if_neg hb, if_neg hb]
        simp [hb]
    rw [heapHolds_cons, ← ih (n + 1)]
    constructor
    · intro h
      exact ⟨((hstep (hashFunc d.key)).mp (h _)).1 rfl, fun b => ((hstep b).mp (h b)).2⟩
    · rintro ⟨h0, hs⟩ b
      exact (hstep b).mpr ⟨fun _ => h0, hs b⟩

theorem heapHolds_of_statusSurvives (env : Env) (t : HTable) (ht : WireTable t) (t₀ : HTable)
    (h : StatusSurvives env t t₀) :
    AllNodes (fun _ d => d.dataLen.toNat ≤ 1017) t ∧ HeapHolds env t₀.allocs (allEntries t) := by
  obtain ⟨file, t', hfile, himp, hfull⟩ := h
  have hlen := short_of_survive env t ht t₀ ⟨file, t', hfile, himp, fun b => view_of_fullView (hfull b)⟩
  refine ⟨hlen, (restamp_fullView_iff env t₀.allocs _).mp fun b => ?_⟩
  obtain ⟨file', u, hfile', himp', hbuckets, -⟩ :=
    import_export_short env t ht.inv ht.stored hlen t₀
  rw [hfile] at hfile'
  cases hfile'
  rw [himp] at himp'
  cases himp'
  rw [← hbuckets b, hfull b, inBucket_allEntries t ht.inv.bucket b]

/-- The statuses come back exactly when the texts do and the blocks `malloc`
returns to the import already hold them. -/
theorem checkpoint_keeps_status_iff (env : Env) (t : HTable) (ht : WireTable t) (t₀ : HTable) :
    StatusSurvives env t t₀ ↔
      AllNodes (fun _ d => d.dataLen.toNat ≤ 1017) t ∧ HeapHolds env t₀.allocs (allEntries t) := by
  constructor
  · exact heapHolds_of_statusSurvives env t ht t₀
  · rintro ⟨hlen, hheap⟩
    obtain ⟨file, t', hfile, himp, hbuckets, -⟩ :=
      import_export_short env t ht.inv ht.stored hlen t₀
    refine ⟨file, t', hfile, himp, fun b => ?_⟩
    rw [hbuckets b, (restamp_fullView_iff env t₀.allocs _).mpr hheap b,
      inBucket_allEntries t ht.inv.bucket b]

theorem checkpoint_keeps_status_iff_milk :
    StatusSurvives (zeroEnv fun _ => some milkKey) milkTable (hashTableInit 0) ↔
      AllNodes (fun _ d => d.dataLen.toNat ≤ 1017) milkTable ∧
        HeapHolds (zeroEnv fun _ => some milkKey) 0 (allEntries milkTable) :=
  checkpoint_keeps_status_iff _ milkTable
    (textTable_wire (by decide) (by decide +kernel) (by decide +kernel)) (hashTableInit 0)

/-- On a heap that reads as zero a finished task is open again. -/
theorem checkpoint_loses_status :
    WireTable (textTable milkKey (ascii "buy milk") .taskDone) ∧
      ¬StatusSurvives (zeroEnv fun _ => some milkKey) (textTable milkKey (ascii "buy milk") .taskDone)
        (hashTableInit 0) := by
  have hwire := @textTable_wire milkKey (ascii "buy milk") .taskDone (by decide) (by decide +kernel)
    (by decide +kernel)
  refine ⟨hwire, fun h => ?_⟩
  have hheap := (heapHolds_of_statusSurvives _ _ hwire _ h).2
  have hfirst : (allEntries (textTable milkKey (ascii "buy milk") .taskDone))[0]? =
      some ⟨milkKey, strncpy maxDataLen (ascii "buy milk"), .ofNat (ascii "buy milk").length,
        .taskDone⟩ := by decide +kernel
  have hstatus := hheap 0 _ hfirst
  cases hstatus

end ToDoList
