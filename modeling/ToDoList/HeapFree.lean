import ToDoList.TableInv

/-!
# The table and the contents of fresh memory

Two runs of the same requests whose heaps hold different garbage build the same
chains as far as keys, bytes and lengths go. The `task_status` of a new node is
whatever its block held: neither a MSG_ADD nor a MSG_CHK_PT writes it.
-/

namespace ToDoList
open CLib StepRun

variable {τ : Type}

/-- What is seen of a node, its status through `look`. -/
def seenNode (look : TStatus → τ) (d : DataPoint) : UInt64 × Bytes × UInt64 × τ :=
  (d.key, d.rawData.toList.take d.dataLen.toNat, d.dataLen, look d.taskStatus)

def seenChain (look : TStatus → τ) (chain : List DataPoint) : List (UInt64 × Bytes × UInt64 × τ) :=
  chain.map (seenNode look)

structure Alike (look : TStatus → τ) (t u : HTable) : Prop where
  chain : ∀ b, seenChain look (t.data b) = seenChain look (u.data b)
  size : t.dataSize = u.dataSize
  allocs : t.allocs = u.allocs

def onHeap (env : Env) (fresh : ℕ → Fresh) : Env := { env with fresh := fresh }

section
variable {look : TStatus → τ} {t u : HTable}

theorem alike_update {t' u' : HTable} {b : Fin hashTableLen} {c c' : List DataPoint}
    (h : Alike look t u) (ht : t'.data = Function.update t.data b c)
    (hu : u'.data = Function.update u.data b c') (hc : seenChain look c = seenChain look c')
    (hsize : t'.dataSize = u'.dataSize) (hallocs : t'.allocs = u'.allocs) : Alike look t' u' := by
  refine ⟨fun a => ?_, hsize, hallocs⟩
  rw [ht, hu]
  by_cases ha : a = b
  · subst ha
    rw [Function.update_self, Function.update_self]
    exact hc
  · rw [Function.update_of_ne ha, Function.update_of_ne ha]
    exact h.chain a

theorem seenChain_append (c c' : List DataPoint) :
    seenChain look (c ++ c') = seenChain look c ++ seenChain look c' := List.map_append ..

/-- The copy sets the first `len` bytes, whatever the block held. -/
theorem insert_together (env : Env) {f g : ℕ → Fresh}
    (hlook : ∀ n, look (f n).taskStatus = look (g n).taskStatus) (h : Alike look t u)
    (key : UInt64) (data : Bytes) (len : UInt64) :
    Together (fun r r' => r.1 = r'.1 ∧ Alike look r.2 r'.2)
      (hashTableInsert (onHeap env f) t key data len)
      (hashTableInsert (onHeap env g) u key data len) := by
  by_cases hk : key = 0
  · subst hk
    rw [hashTableInsert_zero, hashTableInsert_zero]
    exact .ok ⟨rfl, h⟩
  · by_cases hb : len.toNat ≤ maxDataLen ∧ len.toNat ≤ data.length
    · obtain ⟨raw, hraw, hins⟩ := hashTableInsert_ok (onHeap env f) t key data len hk hb.1 hb.2
      obtain ⟨raw', hraw', hins'⟩ := hashTableInsert_ok (onHeap env g) u key data len hk hb.1 hb.2
      rw [hins, hins']
      refine .ok ⟨rfl, alike_update h rfl rfl ?_ ?_ ?_⟩
      · rw [seenChain_append, seenChain_append, h.chain]
        have hstatus : look (f t.allocs).taskStatus = look (g u.allocs).taskStatus := by
          rw [h.allocs]
          exact hlook _
        simp [seenChain, seenNode, take_memcpy hraw, take_memcpy hraw', onHeap, hstatus]
      · simp [h.size]
      · simp [h.allocs]
    · have hf := run_call_fault (onHeap env f) t (.insert key data len) fun hin => hb (hin.resolve_left hk)
      have hg := run_call_fault (onHeap env g) u (.insert key data len) fun hin => hb (hin.resolve_left hk)
      rw [Call.run] at hf hg
      rw [hf, hg]
      exact .fault _

theorem unlink_alike (key : UInt64) {c c' : List DataPoint} (h : seenChain look c = seenChain look c') :
    (unlink key c).map (fun r => (seenNode look r.1, seenChain look r.2)) =
      (unlink key c').map (fun r => (seenNode look r.1, seenChain look r.2)) := by
  induction c generalizing c' with
  | nil =>
    cases c' with
    | nil => rfl
    | cons d' c' => cases h
  | cons d c ih =>
    cases c' with
    | nil => cases h
    | cons d' c' =>
      obtain ⟨hd, hc⟩ := List.cons.inj h
      have hkey : d.key = d'.key := congrArg Prod.fst hd
      have htail : seenChain look c = seenChain look c' := hc
      unfold unlink
      rw [← hkey]
      split
      · simp [hd, htail]
      · have hrest := ih htail
        cases hu : unlink key c with
        | none =>
          cases hu' : unlink key c' with
          | none => rfl
          | some r' =>
            rw [hu, hu'] at hrest
            cases hrest
        | some r =>
          cases hu' : unlink key c' with
          | none =>
            rw [hu, hu'] at hrest
            cases hrest
          | some r' =>
            rw [hu, hu'] at hrest
            obtain ⟨h1, h2⟩ := Prod.mk.inj (Option.some.inj hrest)
            have h3 : List.map (seenNode look) r.2 = List.map (seenNode look) r'.2 := h2
            simp [seenChain, h1, h3, hd]

theorem delete_alike (h : Alike look t u) (key : UInt64) :
    (hashTableDelete t key).1 = (hashTableDelete u key).1 ∧
      Alike look (hashTableDelete t key).2 (hashTableDelete u key).2 := by
  have hunlink := unlink_alike key (h.chain (hashFunc key))
  unfold hashTableDelete
  cases hu : unlink key (t.data (hashFunc key)) with
  | none =>
    cases hu' : unlink key (u.data (hashFunc key)) with
    | none => exact ⟨rfl, h⟩
    | some r' =>
      rw [hu, hu'] at hunlink
      cases hunlink
  | some r =>
    cases hu' : unlink key (u.data (hashFunc key)) with
    | none =>
      rw [hu, hu'] at hunlink
      cases hunlink
    | some r' =>
      rw [hu, hu'] at hunlink
      obtain ⟨hnode, hrest⟩ := Prod.mk.inj (Option.some.inj hunlink)
      have hlen : r.1.dataLen = r'.1.dataLen := congrArg (fun p => p.2.2.1) hnode
      refine ⟨rfl, alike_update h rfl rfl hrest ?_ h.allocs⟩
      simp [h.size, hlen]

end

/-! ### An import -/

section
variable {look : TStatus → τ}

theorem importLoop_together (env : Env) {f g : ℕ → Fresh}
    (hlook : ∀ n, look (f n).taskStatus = look (g n).taskStatus) (lines : List Bytes)
    (st : ImportState) (u : HTable) (h : Alike look st.table u) :
    Together (fun r r' => Alike look r.table r'.table) (importLoop (onHeap env f) lines st)
      (importLoop (onHeap env g) lines { st with table := u }) := by
  induction lines generalizing st u with
  | nil => exact .ok h
  | cons buf lines ih =>
    unfold importLoop
    dsimp only
    split
    · rcases (insert_together env hlook h (strtoull st.temp1) st.data.toList st.len).cases with
        ⟨fault, hf, hg⟩ | ⟨r, r', hf, hg, hr⟩
      · rw [hf, hg]
        exact .fault fault
      · rw [hf, hg]
        exact ih { st with table := r.2, data := zeros 1024, len := 0 } r'.2 hr.2
    · split
      · exact .ok h
      · rw [importField_setTable (cString buf) st u]
        refine ih (importField (cString buf) st) u ?_
        rw [importField_table]
        exact h

theorem importDbInternal_together (env : Env) {f g : ℕ → Fresh}
    (hlook : ∀ n, look (f n).taskStatus = look (g n).taskStatus) {t u : HTable}
    (h : Alike look t u) (file : Option Bytes) :
    Together (Alike look) (importDbInternal (onHeap env f) t file)
      (importDbInternal (onHeap env g) u file) := by
  cases file with
  | none => exact .fault _
  | some bytes =>
    have hempty : Alike look (hashTableInit t.allocs) (hashTableInit u.allocs) :=
      ⟨fun _ => rfl, rfl, h.allocs⟩
    unfold importDbInternal
    dsimp only
    rcases (importLoop_together env hlook (fgetsLines 1024 [] bytes)
      { table := hashTableInit t.allocs } _ hempty).cases with ⟨fault, hf, hg⟩ | ⟨r, r', hf, hg, hr⟩
    · rw [hf, hg]
      exact .fault fault
    · rw [hf, hg]
      exact .ok hr

end

/-! ### Requests -/

/-- The requests that change the table without a lookup. -/
def Edits : StorageEvent → Prop
  | .request ctx => ctx.req.msgType = .msgAdd ∨ ctx.req.msgType = .msgRemove ∨
      ctx.req.msgType = .msgChkPt
  | .file _ _ => True

instance decidableEdits : DecidablePred Edits
  | .request ctx => inferInstanceAs (Decidable (ctx.req.msgType = .msgAdd ∨
      ctx.req.msgType = .msgRemove ∨ ctx.req.msgType = .msgChkPt))
  | .file _ _ => isTrue trivial

structure AlikeStore (look : TStatus → τ) (s v : Store) : Prop where
  table : Alike look s.htable v.htable
  files : s.files = v.files

theorem handleStorage_together {look : TStatus → τ} (env : Env) {f g : ℕ → Fresh}
    (hlook : ∀ n, look (f n).taskStatus = look (g n).taskStatus) {s v : Store}
    (h : AlikeStore look s v) {ctx : ClientCtx} (hctx : Edits (.request ctx)) :
    Together (fun r r' => AlikeStore look r.2.1 r'.2.1) (handleStorage (onHeap env f) s ctx)
      (handleStorage (onHeap env g) v ctx) := by
  unfold handleStorage
  dsimp only
  rcases hctx with htype | htype | htype
  · rw [htype]
    dsimp only
    have hgen : generateKey (onHeap env f) ctx.req.task ctx.clientId ctx.req.taskLen =
        generateKey (onHeap env g) ctx.req.task ctx.clientId ctx.req.taskLen := rfl
    rw [hgen]
    split
    · exact .fault _
    · rename_i key _
      rcases (insert_together env hlook h.table key ctx.req.task.toList ctx.req.taskLen).cases with
        ⟨fault, hf, hg⟩ | ⟨r, r', hf, hg, hr⟩
      · rw [hf, hg]
        exact .fault fault
      · rw [hf, hg]
        exact .ok ⟨hr.2, h.files⟩
  · rw [htype]
    exact .ok ⟨(delete_alike h.table ctx.req.hashKey).2, h.files⟩
  · rw [htype]
    dsimp only
    rw [← h.files]
    rcases (importDbInternal_together env hlook h.table (s.files ctx.req.filename)).cases with
      ⟨fault, hf, hg⟩ | ⟨r, r', hf, hg, hr⟩
    · rw [hf, hg]
      exact .fault fault
    · rw [hf, hg]
      exact .ok ⟨hr, rfl⟩

theorem storageStep_together {look : TStatus → τ} (env : Env) {f g : ℕ → Fresh}
    (hlook : ∀ n, look (f n).taskStatus = look (g n).taskStatus) (s v : Store) (e : StorageEvent)
    (he : Edits e) (h : AlikeStore look s v) :
    Option.Rel (AlikeStore look) (storageStep (onHeap env f) s e) (storageStep (onHeap env g) v e) := by
  cases e with
  | file name content => exact .some ⟨h.table, by rw [h.files]⟩
  | request ctx =>
    unfold storageStep
    dsimp only
    rcases (handleStorage_together env hlook h he).cases with ⟨fault, hf, hg⟩ | ⟨r, r', hf, hg, hr⟩
    · rw [hf, hg]
      exact .none
    · rw [hf, hg]
      exact .some hr

/-- Whatever two heaps hold, the same requests succeed on both, and the chains
agree in all that is seen of the nodes, the status as far as the blocks do. -/
theorem runs_alike {look : TStatus → τ} (env : Env) {f g : ℕ → Fresh}
    (hlook : ∀ n, look (f n).taskStatus = look (g n).taskStatus) (es : List StorageEvent)
    (hes : ∀ e ∈ es, Edits e) :
    Option.Rel (AlikeStore look) (run (storageStep (onHeap env f)) storageInit es)
      (run (storageStep (onHeap env g)) storageInit es) :=
  run_together (fun s v e he h => storageStep_together env hlook s v e he h) hes
    ⟨⟨fun _ => rfl, rfl, rfl⟩, rfl⟩

/-- Both runs fail, or their tables agree on the key, the first `data_len`
bytes, `data_len` and `task_status` of every node of every chain. -/
def SameTables (env : Env) (f g : ℕ → Fresh) (es : List StorageEvent) : Prop :=
  Option.Rel (fun s v => ∀ b, seenChain id (s.htable.data b) = seenChain id (v.htable.data b))
    (run (storageStep (onHeap env f)) storageInit es) (run (storageStep (onHeap env g)) storageInit es)

theorem sameTables_of_status (env : Env) {f g : ℕ → Fresh}
    (h : ∀ n, (f n).taskStatus = (g n).taskStatus) (es : List StorageEvent)
    (hes : ∀ e ∈ es, Edits e) : SameTables env f g es := by
  unfold SameTables
  rcases rel_cases (runs_alike env (fun n => congrArg id (h n)) es hes) with ⟨hf, hg⟩ | ⟨s, v, hf, hg, hsv⟩
  · rw [hf, hg]
    exact .none
  · rw [hf, hg]
    exact .some hsv.table.chain

/-! ### A checkpoint shows every block -/

/-- A checkpoint with one entry of no bytes, under key 1. -/
def oneEntryFile : Bytes := ascii "Key: 1\r\nDATA_END\r\nFILE_END\n"

def oneEntry : List StorageEvent :=
  [.file [] oneEntryFile, .request { req := { msgType := .msgChkPt } }]

def oneEntryTable (env : Env) (allocs : ℕ) : HTable :=
  { data := Function.update (fun _ => []) (hashFunc 1)
      [⟨1, (env.fresh allocs).rawData, 0, (env.fresh allocs).taskStatus⟩]
    dataSize := 0
    allocs := allocs + 1 }

theorem oneEntryFile_lines : fgetsLines 1024 [] oneEntryFile =
    [ascii "Key: 1\r\n", ascii "DATA_END\r\n", ascii "FILE_END\n"] := by decide +kernel

theorem importField_key (st : ImportState) :
    importField (cString (ascii "Key: 1\r\n")) st = { st with temp1 := ascii "1" } := by
  obtain ⟨hkey, hdata, hlen, htext⟩ : startsWith (cString (ascii "Key: 1\r\n")) "Key" = true ∧
      startsWith (cString (ascii "Key: 1\r\n")) "Data" = false ∧
      startsWith (cString (ascii "Key: 1\r\n")) "data_len" = false ∧
      storedText (sscanf (lits "Key:" ++ [.white, .str]) (cString (ascii "Key: 1\r\n"))) =
        some (ascii "1") := by decide +kernel
  unfold importField
  dsimp only
  rw [hkey, hdata, hlen, htext]
  rfl

theorem insert_oneEntry (env : Env) (n : ℕ) :
    hashTableInsert env (hashTableInit n) 1 (zeros 1024).toList 0 = .ok (0, oneEntryTable env n) := by
  obtain ⟨raw, hraw, hins⟩ := hashTableInsert_ok env (hashTableInit n) 1 (zeros 1024).toList 0
    (by decide) (by decide) (Nat.zero_le _)
  obtain ⟨-, -, hlist⟩ := memcpy_eq_some hraw
  have hsame : raw = (env.fresh n).rawData := by
    apply List.Vector.toList_injective
    rw [hlist]
    rfl
  rw [hins, hsame]
  rfl

theorem import_oneEntry (env : Env) (t : HTable) :
    importDbInternal env t (some oneEntryFile) = .ok (oneEntryTable env t.allocs) := by
  obtain ⟨hentry, hlast, hend⟩ := mark_lines
  obtain ⟨hkey, hfile, hnum⟩ : startsWith (cString (ascii "Key: 1\r\n")) "DATA_END" = false ∧
      startsWith (cString (ascii "Key: 1\r\n")) "FILE_END" = false ∧
      strtoull (ascii "1") = 1 := by decide +kernel
  unfold importDbInternal
  dsimp only
  rw [oneEntryFile_lines]
  simp only [importLoop, hkey, hfile, hentry, hlast, hend, importField_key, hnum, insert_oneEntry]
  rfl

theorem run_oneEntry_once (env : Env) (s : Store) :
    ∃ v, run (storageStep env) s oneEntry = some v ∧ v.htable = oneEntryTable env s.htable.allocs := by
  have hfile : Function.update s.files [] (some oneEntryFile) [] = some oneEntryFile :=
    Function.update_self ..
  refine ⟨⟨oneEntryTable env s.htable.allocs,
    Function.update (Function.update s.files [] (some oneEntryFile)) [] none⟩, ?_, rfl⟩
  simp only [oneEntry, run, storageStep, handleStorage, Option.bind_some, hfile, import_oneEntry]

theorem run_oneEntry (env : Env) (n : ℕ) (s : Store) :
    ∃ v, run (storageStep env) s (List.replicate (n + 1) oneEntry).flatten = some v ∧
      v.htable = oneEntryTable env (s.htable.allocs + n) := by
  induction n generalizing s with
  | zero =>
    obtain ⟨v, hv, ht⟩ := run_oneEntry_once env s
    refine ⟨v, ?_, ht⟩
    simpa using hv
  | succ n ih =>
    obtain ⟨v, hv, ht⟩ := run_oneEntry_once env s
    obtain ⟨w, hw, hwt⟩ := ih v
    refine ⟨w, ?_, ?_⟩
    · rw [List.replicate_succ, List.flatten_cons]
      exact run_append_eq_some hv hw
    · rw [hwt, ht]
      show oneEntryTable env (s.htable.allocs + 1 + n) = _
      rw [Nat.add_right_comm, Nat.add_assoc]

theorem edits_oneEntry (n : ℕ) : ∀ e ∈ (List.replicate n oneEntry).flatten, Edits e := by
  intro e he
  obtain ⟨l, hl, hel⟩ := List.mem_flatten.mp he
  rw [List.eq_of_mem_replicate hl] at hel
  have hall : ∀ d ∈ oneEntry, Edits d := by
    intro d hd
    rcases List.mem_cons.mp hd with rfl | hd
    · trivial
    · rw [List.mem_singleton.mp hd]
      exact Or.inr (Or.inr rfl)
  exact hall e hel

/-- The tables are a function of the requests exactly on those pairs of heaps
whose blocks hold the same status. -/
theorem tables_agree_iff (env : Env) (f g : ℕ → Fresh) :
    (∀ es : List StorageEvent, (∀ e ∈ es, Edits e) → SameTables env f g es) ↔
      ∀ n, (f n).taskStatus = (g n).taskStatus := by
  constructor
  · intro h n
    have hrel := h _ (edits_oneEntry (n + 1))
    obtain ⟨v, hv, hvt⟩ := run_oneEntry (onHeap env f) n storageInit
    obtain ⟨w, hw, hwt⟩ := run_oneEntry (onHeap env g) n storageInit
    unfold SameTables at hrel
    rw [hv, hw] at hrel
    rcases rel_cases hrel with ⟨hnone, -⟩ | ⟨a, b, ha, hb, hchain⟩
    · cases hnone
    · cases ha
      cases hb
      have hone := hchain (hashFunc 1)
      rw [hvt, hwt] at hone
      simpa [oneEntryTable, seenChain, seenNode, storageInit, hashTableInit, onHeap] using hone
  · intro h es hes
    exact sameTables_of_status env h es hes

/-- One MSG_ADD on two heaps whose first block differs in the status word. -/
theorem status_from_garbage :
    ¬∀ (env : Env) (f g : ℕ → Fresh) (es : List StorageEvent), (∀ e ∈ es, Edits e) →
      SameTables env f g es := by
  intro h
  have hrel := h (zeroEnv fun _ => some 1) (fun _ => ⟨zeros maxDataLen, .taskNotDone⟩)
    (fun _ => ⟨zeros maxDataLen, .taskDone⟩) [.request { req := addRequest (ascii "milk") }]
    (fun e he => by rw [List.mem_singleton.mp he]; exact Or.inl rfl)
  have hdone : (run (storageStep (onHeap (zeroEnv fun _ => some 1)
      fun _ => ⟨zeros maxDataLen, .taskDone⟩)) storageInit
        [.request { req := addRequest (ascii "milk") }]).any (fun s => decide
          (seenChain id (s.htable.data (hashFunc 1)) = [(1, ascii "milk", 4, .taskDone)])) = true := by
    decide +kernel
  have hnotDone : (run (storageStep (onHeap (zeroEnv fun _ => some 1)
      fun _ => ⟨zeros maxDataLen, .taskNotDone⟩)) storageInit
        [.request { req := addRequest (ascii "milk") }]).any (fun s => decide
          (seenChain id (s.htable.data (hashFunc 1)) = [(1, ascii "milk", 4, .taskNotDone)])) = true := by
    decide +kernel
  obtain ⟨s, hs, hone⟩ := (Option.any_eq_true _ _).mp hnotDone
  obtain ⟨v, hv, htwo⟩ := (Option.any_eq_true _ _).mp hdone
  rcases rel_cases hrel with ⟨hnone, -⟩ | ⟨a, b, ha, hb, hchain⟩
  · cases hs.symm.trans hnone
  · cases hs.symm.trans ha
    cases hv.symm.trans hb
    have hsame := (of_decide_eq_true hone).symm.trans ((hchain (hashFunc 1)).trans (of_decide_eq_true htwo))
    simp at hsame

end ToDoList
