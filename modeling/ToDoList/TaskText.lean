import ToDoList.Keys
import ToDoList.Relay

/-!
# The text of a task, from the header to the buffers

`parse_kv` copies the value of Task or New Task with `strncpy` and measures it
with `strlen`; `generate_key` and `hash_table_insert` copy and hash by that
length. A value that fills the array leaves no terminator in it, and the offset
5 of the key's buffer does not leave room for the longest of the others.
-/

namespace ToDoList
open CLib

/-! ### What the parser makes of the value -/

def isTaskKey (key : Bytes) : Bool := headerKey key = some .task || headerKey key = some .newTask

/-- The value that `task` was last set to. -/
def lastTask (pairs : List (Bytes × Bytes)) : Bytes :=
  pairs.foldl (fun last p => if isTaskKey p.1 then p.2 else last) []

/-- The text a message carries for `task`; empty when it names none. -/
def sentTask (reads : List ReadResult) : Bytes := lastTask (headerPairs reads)

theorem lastTask_append (pairs : List (Bytes × Bytes)) (key value : Bytes) :
    lastTask (pairs ++ [(key, value)]) = if isTaskKey key then value else lastTask pairs := by
  unfold lastTask
  rw [List.foldl_append]
  rfl

/-- The field and its length hold a value; the length is that of the value when
it leaves room for the terminator. -/
structure TaskHeld (req : ClientRequest) (value : Bytes) : Prop where
  text : ∀ b ∈ value, b ≠ 0
  task : req.task = strncpy taskLength value
  short : value.length < taskLength → req.taskLen.toNat = value.length
  long : taskLength ≤ value.length → taskLength ≤ req.taskLen.toNat

theorem taskHeld_init : TaskHeld {} [] where
  text b hb := absurd hb List.not_mem_nil
  task := zeros_eq_strncpy taskLength
  short _ := rfl
  long h := absurd h (by decide)

theorem taskStrlen_le (req : ClientRequest) : taskStrlen req ≤ taskLength + dateLength + 4 := by
  have hlen : (req.task.toList ++ req.date.toList ++ intBytes req.taskStatus.toInt).length =
      taskLength + dateLength + 4 := by
    rw [List.length_append, List.length_append, List.Vector.toList_length, List.Vector.toList_length]
    rfl
  rw [← hlen]
  exact (List.takeWhile_prefix _).length_le

theorem setTask_taskLen (req : ClientRequest) (value : Bytes) :
    (setTask req value).taskLen.toNat = taskStrlen { req with task := strncpy taskLength value } := by
  have hle := taskStrlen_le { req with task := strncpy taskLength value }
  have hsize : taskLength + dateLength + 4 < 2 ^ 64 := by decide
  exact UInt64.toNat_ofNat_of_lt' (lt_of_le_of_lt hle hsize)

theorem taskHeld_set (req : ClientRequest) {value : Bytes} (h : ∀ b ∈ value, b ≠ 0) :
    TaskHeld (setTask req value) value where
  text := h
  task := rfl
  short hlen := by
    rw [setTask_taskLen, taskStrlen]
    dsimp only
    obtain ⟨n, hn⟩ : ∃ n, taskLength - value.length = n + 1 := ⟨taskLength - value.length - 1, by omega⟩
    rw [toList_strncpy _ _ hlen.le, hn, List.replicate_succ, List.append_assoc, List.append_assoc,
      List.cons_append, cString_append_nul _ _ h]
  long hlen := by
    rw [setTask_taskLen, taskStrlen]
    dsimp only
    have hfull : (strncpy taskLength value).toList = value.take taskLength := by
      show (value ++ List.replicate taskLength 0).take taskLength = _
      rw [List.take_append_of_le_length hlen]
    have hprefix : value.take taskLength <+: cString
        ((strncpy taskLength value).toList ++ req.date.toList ++ intBytes req.taskStatus.toInt) := by
      unfold cString
      rw [hfull, List.append_assoc,
        List.takeWhile_append_of_pos fun b hb => by simpa using h b (List.mem_of_mem_take hb)]
      exact List.prefix_append _ _
    calc taskLength
      _ = (value.take taskLength).length := by rw [List.length_take, Nat.min_eq_left hlen]
      _ ≤ _ := hprefix.length_le

theorem reqNo_task (ctx : ClientCtx) (n : UInt64) :
    ({ ctx with req := { ctx.req with reqNo := n } } : ClientCtx).req.task = ctx.req.task ∧
      ({ ctx with req := { ctx.req with reqNo := n } } : ClientCtx).req.taskLen = ctx.req.taskLen :=
  ⟨rfl, rfl⟩

theorem setRequestField_task {ctx ctx' : ClientCtx} {value : Bytes} {k : RequestKey}
    (hk : k ≠ .task) (hk' : k ≠ .newTask) (h : setRequestField ctx value k = .ok ctx') :
    ctx'.req.task = ctx.req.task ∧ ctx'.req.taskLen = ctx.req.taskLen := by
  cases k with
  | task => exact absurd rfl hk
  | newTask => exact absurd rfl hk'
  | dueDate | newDate | key | replica1Ip | replica2Ip =>
    cases h
    exact ⟨rfl, rfl⟩
  | requestNo =>
    obtain ⟨v, rfl⟩ := intField_eq_ok h
    exact reqNo_task ctx _
  | _ =>
    obtain ⟨v, rfl⟩ := intField_eq_ok h
    exact ⟨rfl, rfl⟩

theorem TaskHeld.frame {req req' : ClientRequest} {value : Bytes} (h : TaskHeld req value)
    (htask : req'.task = req.task) (hlen : req'.taskLen = req.taskLen) : TaskHeld req' value where
  text := h.text
  task := by rw [htask, h.task]
  short hv := by rw [hlen, h.short hv]
  long hv := by
    rw [hlen]
    exact h.long hv

theorem parseKv_taskHeld {ctx ctx' : ClientCtx} {pairs : List (Bytes × Bytes)} {key value : Bytes}
    (hvalue : ∀ b ∈ value, b ≠ 0) (hI : TaskHeld ctx.req (lastTask pairs))
    (h : parseKv ctx key value = .ok ctx') :
    TaskHeld ctx'.req (lastTask (pairs ++ [(key, value)])) := by
  rw [lastTask_append]
  unfold parseKv at h
  split at h
  · rename_i hkey
    cases h
    rw [if_neg (by simp [isTaskKey, hkey])]
    exact hI
  · rename_i k hkey
    by_cases hk : k = .task ∨ k = .newTask
    · rw [if_pos (by simpa [isTaskKey, hkey] using hk)]
      rcases hk with rfl | rfl <;>
      · cases h
        exact taskHeld_set ctx.req hvalue
    · rw [if_neg (by simpa [isTaskKey, hkey] using hk)]
      rw [not_or] at hk
      obtain ⟨htask, hlen⟩ := setRequestField_task hk.1 hk.2 h
      exact hI.frame htask hlen

theorem readHeader_taskHeld {start ctx : ClientCtx} {reads : List ReadResult}
    (hreq : start.req = {}) (h : readHeader start reads = .ok (some ctx)) :
    TaskHeld ctx.req (sentTask reads) := by
  have hstart : TaskHeld start.req (lastTask []) := by
    rw [hreq]
    exact taskHeld_init
  unfold readHeader at h
  split at h
  · cases h
  · rename_i c rest hloop
    cases h
    obtain ⟨pairs, hnoted, hheld⟩ := headerLoop_noted parseKv
      (fun ctx pairs => TaskHeld ctx.req (lastTask pairs))
      (fun _ _ _ _ _ hvalue hI hparse => parseKv_taskHeld hvalue hI hparse) hstart hloop
    unfold sentTask headerPairs
    rw [hnoted]
    exact hheld
  · cases h

/-! ### Requests on the wire -/

def addFields (client : ℤ) (text : Bytes) : List (RequestKey × Bytes) :=
  [(.clientId, decimalInt client), (.messageType, ascii "1"), (.task, text)]

def addReads (client : ℤ) (text : Bytes) : List ReadResult :=
  [.data (headerText ((addFields client text).map fun f => (f.1.text, f.2)))]

/-- A text of one line that `%[^\r\n]` gives back and that leaves room for the
terminator. -/
structure LineText (text : Bytes) : Prop where
  ne : text ≠ []
  line : ∀ b ∈ text, b ≠ byte '\r' ∧ b ≠ byte '\n' ∧ b ≠ 0
  start : ∀ b ∈ text.head?, isSpace b = false
  len : text.length < taskLength

def addCtx (client : ℤ) (text : Bytes) : ClientCtx :=
  { clientId := client, req := setTask { msgType := .msgAdd } text }

theorem LineText.good {text : Bytes} (h : LineText text) : GoodField ("Task", text) := by
  have hkey : PlainKey "Task" := plainKey_request .task
  obtain ⟨hne, hshort, hbytes⟩ := hkey
  have hlen := h.len
  refine ⟨hne, hbytes, h.ne, h.line, h.start, ?_⟩
  simp only [taskLength] at hlen
  simp only [maxMsgSize]
  omega

theorem plainWord_one : PlainWord (ascii "1") := by
  refine ⟨?_, ?_, ?_, ?_⟩ <;> decide +kernel

theorem readHeader_add {client : ℤ} (hclient : IsInt32 client) {text : Bytes} (htext : LineText text) :
    readHeader {} (addReads client text) = .ok (some (addCtx client text)) := by
  have hgood : ∀ f ∈ (addFields client text).map fun f => (f.1.text, f.2), GoodField f := by
    intro f hf
    simp only [addFields, List.map_cons, List.map_nil, List.mem_cons, List.not_mem_nil, or_false] at hf
    rcases hf with rfl | rfl | rfl
    · exact PlainField.good ⟨plainKey_request .clientId, plainWord_decimalInt hclient⟩
    · exact PlainField.good ⟨plainKey_request .messageType, plainWord_one⟩
    · exact htext.good
  have hone : strToInt (ascii "1") = some 1 := by decide +kernel
  have hparse : parseFields parseKv {} ((addFields client text).map fun f => (f.1.text, f.2)) =
      .ok (addCtx client text) := by
    rw [parseFields_keyed parseKv RequestKey.text setRequestField parseKv_text]
    simp only [addFields, setFields, setRequestField, intField, strToInt_decimalInt hclient, hone]
    rfl
  have hclean : Clean (addReads client text) := by
    intro r hr
    rw [List.mem_singleton.mp hr]
    refine ⟨ReadResult.noConfusion, ?_⟩
    intro hdata
    have hnil := ReadResult.data.inj hdata
    unfold headerText at hnil
    exact absurd (List.append_eq_nil_iff.mp hnil).2 (by decide +kernel)
  have hdel := delivers_init hclean
  have hcontent : content (addReads client text) =
      headerText ((addFields client text).map fun f => (f.1.text, f.2)) ++ [] := by
    unfold content addReads
    rw [List.flatMap_cons]
    rfl
  rw [hcontent] at hdel
  obtain ⟨rest, -, hloop⟩ := headerLoop_fields parseKv hgood hdel (by decide : 3 ≤ maxReqFields) hparse
  unfold readHeader
  rw [hloop]

/-! ### The limits of the buffers -/

/-- The limits that later code takes for granted: the task field with its
terminator, the buffer of the key behind its offset, the bytes that are hashed,
and the entry of the table. -/
structure TaskFits (req : ClientRequest) : Prop where
  field : req.taskLen.toNat ≤ taskLength - 1
  keyBuffer : 5 + req.taskLen.toNat ≤ taskLength
  hashed : req.taskLen.toNat + 5 ≤ taskLength
  entry : req.taskLen.toNat ≤ maxDataLen

/-- A task that the parser has taken fits everywhere exactly when the value sent
for it has at most 1019 bytes. -/
theorem task_fits_iff (start ctx : ClientCtx) (reads : List ReadResult) (hreq : start.req = {})
    (h : readHeader start reads = .ok (some ctx)) :
    TaskFits ctx.req ↔ (sentTask reads).length ≤ 1019 := by
  have hheld := readHeader_taskHeld hreq h
  by_cases hlen : (sentTask reads).length < taskLength
  · have hval := hheld.short hlen
    constructor
    · intro hfits
      have hbuf := hfits.keyBuffer
      rw [hval] at hbuf
      simp only [taskLength] at hbuf
      omega
    · intro hle
      refine ⟨?_, ?_, ?_, ?_⟩ <;>
      · rw [hval]
        simp only [taskLength, maxDataLen]
        omega
  · have hval := hheld.long (not_lt.mp hlen)
    constructor
    · intro hfits
      have hbuf := hfits.keyBuffer
      omega
    · intro hle
      simp only [taskLength] at hlen
      omega

def longTask (n : ℕ) : Bytes := List.replicate n (byte 'a')

theorem lineText_long {n : ℕ} (hpos : 0 < n) (hlen : n < taskLength) : LineText (longTask n) where
  ne h := by
    have hzero : n = 0 := by simpa [longTask] using h
    omega
  line b hb := by
    rw [List.eq_of_mem_replicate hb]
    decide
  start b hb := by
    rw [List.eq_of_mem_replicate (List.mem_of_mem_head? hb)]
    decide
  len := by rwa [longTask, List.length_replicate]

theorem lineText_milk : LineText (ascii "milk") := by
  refine ⟨?_, ?_, ?_, ?_⟩ <;> decide +kernel

theorem task_fits_iff_milk :
    TaskFits (addCtx 1 (ascii "milk")).req ↔ (sentTask (addReads 1 (ascii "milk"))).length ≤ 1019 :=
  task_fits_iff {} (addCtx 1 (ascii "milk")) (addReads 1 (ascii "milk")) rfl
    (readHeader_add (by decide) lineText_milk)

/-- A text of 1020 bytes passes the end of the key's buffer by one. -/
theorem long_task_overruns :
    ¬∀ (start ctx : ClientCtx) (reads : List ReadResult), start.req = {} →
      readHeader start reads = .ok (some ctx) → ctx.req.msgType = .msgAdd → TaskFits ctx.req := by
  intro h
  have htext : LineText (longTask 1020) := lineText_long (by decide) (by decide)
  have hfits := h {} (addCtx 1 (longTask 1020)) (addReads 1 (longTask 1020)) rfl
    (readHeader_add (by decide) htext) rfl
  have hheld : TaskHeld (addCtx 1 (longTask 1020)).req (longTask 1020) :=
    taskHeld_set _ fun b hb => (htext.line b hb).2.2
  have hval := hheld.short htext.len
  have hbuf := hfits.keyBuffer
  rw [hval, longTask, List.length_replicate] at hbuf
  exact absurd hbuf (by decide)

/-! ### What the key tells -/

/-- A request as `handle_connection` has read it. -/
def FromWire (ctx : ClientCtx) : Prop :=
  ∃ (start : ClientCtx) (reads : List ReadResult), start.req = {} ∧
    readHeader start reads = .ok (some ctx)

def taskText (req : ClientRequest) : Bytes := req.task.toList.take req.taskLen.toNat

/-- `generate_key` returns for both requests, and its keys are equal exactly when
client and text are. -/
def KeyTells (env : Env) (ctx ctx' : ClientCtx) : Prop :=
  ∃ k k', generateKey env ctx.req.task ctx.clientId ctx.req.taskLen = .ok k ∧
    generateKey env ctx'.req.task ctx'.clientId ctx'.req.taskLen = .ok k' ∧
    (k = k' ↔ ctx.clientId = ctx'.clientId ∧ taskText ctx.req = taskText ctx'.req)

theorem fromWire_task {ctx : ClientCtx} (h : FromWire ctx) (hlen : ctx.req.taskLen.toNat < taskLength) :
    ctx.req.task = strncpy taskLength (taskText ctx.req) ∧
      (taskText ctx.req).length = ctx.req.taskLen.toNat := by
  obtain ⟨start, reads, hreq, hread⟩ := h
  have hheld := readHeader_taskHeld hreq hread
  have hshort : (sentTask reads).length < taskLength := by
    by_contra hlong
    have hfull := hheld.long (not_lt.mp hlong)
    omega
  have hval := hheld.short hshort
  have htext : taskText ctx.req = sentTask reads := by
    unfold taskText
    rw [hheld.task, hval, toList_strncpy _ _ hshort.le, List.take_left]
  rw [htext]
  exact ⟨hheld.task, hval.symm⟩

/-- The client never enters the key: the keys of two requests to add a task tell
client and text exactly when both texts leave the five bytes free and no text
comes from two clients. -/
theorem key_tells_iff (env : Env) (ctx ctx' : ClientCtx) (hwire : FromWire ctx)
    (hwire' : FromWire ctx') (hlen : ctx.req.taskLen.toNat ≤ 1023)
    (hlen' : ctx'.req.taskLen.toNat ≤ 1023)
    (hsha : requestKey env ctx.req = requestKey env ctx'.req →
      hashedInput ctx.req = hashedInput ctx'.req) :
    KeyTells env ctx ctx' ↔
      ctx.req.taskLen.toNat ≤ 1019 ∧ ctx'.req.taskLen.toNat ≤ 1019 ∧
        (taskText ctx.req = taskText ctx'.req → ctx.clientId = ctx'.clientId) := by
  have hroom : ∀ n, 5 + n ≤ taskLength ↔ n ≤ 1019 := by
    intro n
    simp only [taskLength]
    omega
  obtain ⟨htask, hval⟩ := fromWire_task hwire (Nat.lt_succ_of_le hlen)
  obtain ⟨htask', hval'⟩ := fromWire_task hwire' (Nat.lt_succ_of_le hlen')
  have hsame : taskText ctx.req = taskText ctx'.req → requestKey env ctx.req = requestKey env ctx'.req := by
    intro h
    unfold requestKey
    rw [htask, htask', ← hval, ← hval', h]
  constructor
  · rintro ⟨k, k', hk, hk', hiff⟩
    obtain ⟨hfit, rfl⟩ := generateKey_eq_ok.mp hk
    obtain ⟨hfit', rfl⟩ := generateKey_eq_ok.mp hk'
    exact ⟨(hroom _).mp hfit, (hroom _).mp hfit', fun h => (hiff.mp (hsame h)).1⟩
  · rintro ⟨hfit, hfit', hclient⟩
    refine ⟨_, _, generateKey_eq_ok.mpr ⟨(hroom _).mpr hfit, rfl⟩,
      generateKey_eq_ok.mpr ⟨(hroom _).mpr hfit', rfl⟩, ?_, fun h => hsame h.2⟩
    intro hkey
    have htext := (entry_of_input (hsha hkey) ((hroom _).mpr hfit) ((hroom _).mpr hfit')).2
    exact ⟨hclient htext, htext⟩

theorem fromWire_add {client : ℤ} (hclient : IsInt32 client) {text : Bytes} (htext : LineText text) :
    FromWire (addCtx client text) :=
  ⟨{}, addReads client text, rfl, readHeader_add hclient htext⟩

theorem lineText_bread : LineText (ascii "bread") := by
  refine ⟨?_, ?_, ?_, ?_⟩ <;> decide +kernel

theorem key_tells_iff_shopping :
    KeyTells lengthEnv (addCtx 1 (ascii "milk")) (addCtx 2 (ascii "bread")) ↔
      (addCtx 1 (ascii "milk")).req.taskLen.toNat ≤ 1019 ∧
        (addCtx 2 (ascii "bread")).req.taskLen.toNat ≤ 1019 ∧
        (taskText (addCtx 1 (ascii "milk")).req = taskText (addCtx 2 (ascii "bread")).req →
          (addCtx 1 (ascii "milk")).clientId = (addCtx 2 (ascii "bread")).clientId) := by
  have hdistinct : requestKey lengthEnv (addCtx 1 (ascii "milk")).req ≠
      requestKey lengthEnv (addCtx 2 (ascii "bread")).req := by decide +kernel
  exact key_tells_iff lengthEnv (addCtx 1 (ascii "milk")) (addCtx 2 (ascii "bread"))
    (fromWire_add (by decide) lineText_milk) (fromWire_add (by decide) lineText_bread)
    (by decide +kernel) (by decide +kernel) fun h => absurd h hdistinct

/-- Two clients that add the same task get one key. -/
theorem clients_share_key :
    ¬∀ (env : Env) (ctx ctx' : ClientCtx), FromWire ctx → FromWire ctx' →
      ctx.req.msgType = .msgAdd → ctx'.req.msgType = .msgAdd → ctx.req.taskLen.toNat ≤ 1023 →
      ctx'.req.taskLen.toNat ≤ 1023 →
      (requestKey env ctx.req = requestKey env ctx'.req →
        hashedInput ctx.req = hashedInput ctx'.req) → KeyTells env ctx ctx' := by
  intro h
  obtain ⟨k, k', hk, hk', hiff⟩ := h lengthEnv (addCtx 1 (ascii "milk")) (addCtx 2 (ascii "milk"))
    (fromWire_add (by decide) lineText_milk) (fromWire_add (by decide) lineText_milk) rfl rfl
    (by decide +kernel) (by decide +kernel) fun _ => rfl
  have hsame : k = k' := by
    rw [← (generateKey_eq_ok.mp hk).2, ← (generateKey_eq_ok.mp hk').2]
    rfl
  exact absurd (hiff.mp hsame).1 (by decide)

end ToDoList
