import ToDoList.Typed

/-!
# Modify requests from the prompt to the table

`parse_kv` has no branch for `Flags`, `handle_storage` passes the key and the
status on and nothing else, and `search_list` never goes beyond the head of a
chain.
-/

namespace ToDoList
open CLib

/-- `struct message_modify`, the strings of its arrays; `task` holds the key. -/
structure MessageModify where
  task : Bytes
  newTask : Bytes
  newDate : Bytes
  newTaskStatus : TStatus
  modFlags : ℕ

def modFlagsTaskStringModified : ℕ := 0x1
def modFlagsDateModified : ℕ := 0x2
def modFlagsStatusModified : ℕ := 0x4

def modifyMessageFields (requestNo clientId : ℤ) (message : MessageModify) : List (String × Bytes) :=
  [("Request No", decimalInt requestNo), ("Client ID", decimalInt clientId),
    ("Message Type", decimalInt MsgType.msgModify.toInt), ("Flags", decimalInt message.modFlags),
    ("Key", message.task), ("New Task", message.newTask), ("New Date", message.newDate),
    ("New status", decimalInt message.newTaskStatus.toInt)]

def createModifyMessageToServer (requestNo clientId : ℤ) (message : MessageModify) :
    Except Fault Bytes :=
  printBuf (headerText (modifyMessageFields requestNo clientId message))

/-- The message names `key` and has any combination of flags; texts and status
are what the prompts can read. -/
structure MessageModify.Entered (message : MessageModify) (key : UInt64) : Prop where
  task : message.task = decimal key.toNat
  newTask : Typeable message.newTask
  newTaskLen : message.newTask.length < taskLength
  newDate : Typeable message.newDate
  newDateLen : message.newDate.length < dateLength
  status : message.newTaskStatus = .taskNotDone ∨ message.newTaskStatus = .taskDone
  flags : message.modFlags ≤ modFlagsTaskStringModified + modFlagsDateModified + modFlagsStatusModified

/-- The table behind the request, if the server has executed it. -/
def modifyRun (env : Env) (cut : Bytes → List ReadResult) (requestNo clientId : ℤ)
    (message : MessageModify) (ctx : ClientCtx) (s : Store) : Except Fault (Option Store) :=
  match receiveTyped cut ctx (createModifyMessageToServer requestNo clientId message) with
  | .error f => .error f
  | .ok none => .ok none
  | .ok (some got) =>
    match handleStorage env s got with
    | .error f => .error f
    | .ok (_, u, _) => .ok (some u)

/-- The entry as the flags of the message ask for it. -/
structure Remade (message : MessageModify) (d d' : DataPoint) : Prop where
  key : d'.key = d.key
  text : (entry d').1 =
    if message.modFlags &&& modFlagsTaskStringModified ≠ 0 then message.newTask else (entry d).1
  status : d'.taskStatus =
    if message.modFlags &&& modFlagsStatusModified ≠ 0 then message.newTaskStatus else d.taskStatus

/-- The request is executed, changes the entry `d` behind `pre` as the flags ask
for it, and no other entry. -/
def ModifiesFlagged (env : Env) (cut : Bytes → List ReadResult) (requestNo clientId : ℤ)
    (message : MessageModify) (ctx : ClientCtx) (s : Store) (pre post : List DataPoint)
    (d : DataPoint) : Prop :=
  ∃ fuel u d', modifyRun (granted env fuel) cut requestNo clientId message ctx s = .ok (some u) ∧
    Remade message d d' ∧
    u.htable.data = Function.update s.htable.data (hashFunc d.key) (pre ++ d' :: post)

/-! ### What the server makes of the message -/

theorem plainKey_flags : PlainKey "Flags" := by decide +kernel

theorem parseKv_flags (ctx : ClientCtx) (v : Bytes) : parseKv ctx (ascii "Flags") v = .ok ctx := by
  have hkey : headerKey (ascii "Flags") = none := by decide +kernel
  rw [parseKv, hkey]

theorem decimal_typeable (n : ℕ) : Typeable (decimal n) := by
  intro b hb
  have hdigit := decimal_isDigit n b hb
  exact ⟨isDigit_ne b _ hdigit (by decide), isDigit_ne b _ hdigit (by decide),
    isDigit_ne b _ hdigit (by decide)⟩

theorem trimmed_decimal (n : ℕ) : trimmed (decimal n) = decimal n :=
  trimmed_of_word fun b hb => isDigit_not_isSpace b (decimal_isDigit n b (List.mem_of_mem_head? hb))

theorem MessageModify.Entered.flagsInt32 {message : MessageModify} {key : UInt64}
    (h : message.Entered key) : IsInt32 message.modFlags := by
  have hflags := h.flags
  simp only [modFlagsTaskStringModified, modFlagsDateModified, modFlagsStatusModified] at hflags
  exact ⟨by omega, by omega⟩

theorem modifyMessageFields_line {requestNo clientId : ℤ} {message : MessageModify} {key : UInt64}
    (hno : Counted requestNo) (hid : Counted clientId) (h : message.Entered key) :
    ∀ f ∈ modifyMessageFields requestNo clientId message, LineField f := by
  have htype : IsInt32 MsgType.msgModify.toInt := by decide
  have hkey : message.task.length < taskLength := by
    rw [h.task]
    exact lt_of_le_of_lt (decimal_toNat_length key) (by decide)
  have hkeyText : Typeable message.task := by
    rw [h.task]
    exact decimal_typeable _
  have hdate : message.newDate.length < taskLength := h.newDateLen.trans (by decide)
  simp only [modifyMessageFields, List.forall_mem_cons]
  exact ⟨lineField_number (plainKey_request .requestNo) hno.int32,
    lineField_number (plainKey_request .clientId) hid.int32,
    lineField_number (plainKey_request .messageType) htype,
    lineField_number plainKey_flags h.flagsInt32,
    lineField_typed (plainKey_request .key) hkeyText hkey,
    lineField_typed (plainKey_request .newTask) h.newTask h.newTaskLen,
    lineField_typed (plainKey_request .newDate) h.newDate hdate,
    lineField_number (plainKey_request .newStatus) (statusWire h.status).1, by simp⟩

theorem modifyMessageFields_room {requestNo clientId : ℤ} {message : MessageModify} {key : UInt64}
    (hno : Counted requestNo) (hid : Counted clientId) (h : message.Entered key) :
    (headerText (modifyMessageFields requestNo clientId message)).length < maxLength := by
  have hkeys : ∀ f ∈ modifyMessageFields requestNo clientId message, (ascii f.1).length ≤ 15 := by
    simp only [modifyMessageFields, List.forall_mem_cons]
    exact ⟨(plainKey_request .requestNo).2.1, (plainKey_request .clientId).2.1,
      (plainKey_request .messageType).2.1, plainKey_flags.2.1, (plainKey_request .key).2.1,
      (plainKey_request .newTask).2.1, (plainKey_request .newDate).2.1,
      (plainKey_request .newStatus).2.1, by simp⟩
  have hroom := headerText_room hkeys
  have hlen := (plainWord_decimalInt hno.int32).len
  have hlen' := (plainWord_decimalInt hid.int32).len
  have htype := (plainWord_decimalInt (by decide : IsInt32 MsgType.msgModify.toInt)).len
  have hflags := (plainWord_decimalInt h.flagsInt32).len
  have hstatus := (plainWord_decimalInt (statusWire h.status).1).len
  have hkey := decimal_toNat_length key
  have htask := h.newTaskLen
  have hdate := h.newDateLen
  simp only [modifyMessageFields, h.task, List.map_cons, List.map_nil, List.sum_cons, List.sum_nil,
    List.length_cons, List.length_nil] at hroom
  simp only [taskLength, dateLength, maxLength, modifyMessageFields, h.task] at *
  omega

def modifyCtx (requestNo clientId : ℤ) (message : MessageModify) (key : UInt64) (ctx : ClientCtx) :
    ClientCtx :=
  { ctx with
    clientId := clientId
    req := {
      msgType := .msgModify
      task := strncpy taskLength (trimmed message.newTask)
      taskLen := UInt64.ofNat (trimmed message.newTask).length
      taskStatus := message.newTaskStatus
      date := strncpy dateLength (trimmed message.newDate)
      hashKey := key
      reqNo := UInt64.ofNat requestNo.toNat } }

theorem parse_modifyMessage {requestNo clientId : ℤ} {message : MessageModify} {key : UInt64}
    (hno : Counted requestNo) (hid : Counted clientId) (h : message.Entered key) (ctx : ClientCtx)
    (hctx : ctx.req = {}) :
    parseFields parseKv ctx ((modifyMessageFields requestNo clientId message).map trimField) =
      .ok (modifyCtx requestNo clientId message key ctx) := by
  have hword (z : ℤ) (hz : IsInt32 z) : trimmed (decimalInt z) = decimalInt z :=
    (plainWord_decimalInt hz).trimmed_eq
  obtain ⟨hstatus, hstatus'⟩ := statusWire h.status
  have htype : IsInt32 MsgType.msgModify.toInt := by decide
  have htype' : MsgType.ofInt MsgType.msgModify.toInt = .msgModify := rfl
  have hlow := setLow32_counted hno
  have hnum : strtoull (decimal key.toNat) = key := by
    rw [strtoull_decimal _ key.toNat_lt, UInt64.ofNat_toNat]
  have htask (req : ClientRequest) := setTask_short req (fun b hb => (h.newTask.trimmed b hb).2.2)
    (lt_of_le_of_lt (trimmed_length _) h.newTaskLen)
  have hkey (ctx : ClientCtx) (v : Bytes) :
      parseKv ctx (ascii "Request No") v = setRequestField ctx v .requestNo ∧
      parseKv ctx (ascii "Client ID") v = setRequestField ctx v .clientId ∧
      parseKv ctx (ascii "Message Type") v = setRequestField ctx v .messageType ∧
      parseKv ctx (ascii "Key") v = setRequestField ctx v .key ∧
      parseKv ctx (ascii "New Task") v = setRequestField ctx v .newTask ∧
      parseKv ctx (ascii "New Date") v = setRequestField ctx v .newDate ∧
      parseKv ctx (ascii "New status") v = setRequestField ctx v .newStatus :=
    ⟨parseKv_text ctx .requestNo v, parseKv_text ctx .clientId v, parseKv_text ctx .messageType v,
      parseKv_text ctx .key v, parseKv_text ctx .newTask v, parseKv_text ctx .newDate v,
      parseKv_text ctx .newStatus v⟩
  obtain ⟨fd, client, req, isBacklog, conn⟩ := ctx
  subst hctx
  simp only [modifyMessageFields, h.task, List.map_cons, List.map_nil, trimField, parseFields,
    hword _ hno.int32, hword _ hid.int32, hword _ hstatus, hword _ htype, hword _ h.flagsInt32,
    trimmed_decimal, hkey, parseKv_flags, setRequestField, intField, strToInt_decimalInt hno.int32,
    strToInt_decimalInt hid.int32, strToInt_decimalInt htype, strToInt_decimalInt hstatus, hnum,
    htype', hstatus', UInt64.toNat_zero, hlow, htask, modifyCtx]

/-! ### What the request does to the table -/

theorem handleStorage_modify (env : Env) (s : Store) (ctx : ClientCtx)
    (htype : ctx.req.msgType = .msgModify) :
    handleStorage env s ctx =
      match hashTableModify env s.htable ctx.req.hashKey ctx.req.taskStatus with
      | .error f => .error f
      | .ok (_, t) => .ok (0, { s with htable := t }, ctx) := by
  cases hmodify : hashTableModify env s.htable ctx.req.hashKey ctx.req.taskStatus with
  | error f =>
    unfold handleStorage
    dsimp only
    rw [htype]
    dsimp only
    rw [hmodify]
  | ok r =>
    unfold handleStorage
    dsimp only
    rw [htype]
    dsimp only
    rw [hmodify]

theorem hashTableModify_chain (env : Env) (t : HTable) (key : UInt64) (status : TStatus)
    {d : DataPoint} {ds : List DataPoint} (hchain : t.data (hashFunc key) = d :: ds) (fuel : ℕ) :
    hashTableModify (granted env fuel) t key status =
      if d.key = key ∧ fuel ≠ 0 then
        .ok (0, { t with data := Function.update t.data (hashFunc key) (withStatus status d :: ds) })
      else .error .noReturn := by
  unfold hashTableModify granted
  dsimp only
  rw [hchain]
  by_cases hkey : d.key = key
  · cases fuel with
    | zero => simp [searchList]
    | succ fuel => simp [searchList, hkey]
  · rw [searchList_stuck hkey]
    simp [hkey]

section
variable {env : Env} {cut : Bytes → List ReadResult} (hcut : IsCut cut) {requestNo clientId : ℤ}
  (hno : Counted requestNo) (hid : Counted clientId) {message : MessageModify} {key : UInt64}
  (h : message.Entered key) {ctx : ClientCtx} (hctx : ctx.req = {})

include hcut hno hid h hctx

theorem receiveModify_iff (got : ClientCtx) :
    receiveTyped cut ctx (createModifyMessageToServer requestNo clientId message) = .ok (some got) ↔
      (trimmed message.newTask ≠ [] ∧ trimmed message.newDate ≠ []) ∧
        got = modifyCtx requestNo clientId message key ctx := by
  have hword (z : ℤ) (hz : IsInt32 z) : trimmed (decimalInt z) ≠ [] := by
    rw [(plainWord_decimalInt hz).trimmed_eq]
    exact (plainWord_decimalInt hz).ne
  have hkey : trimmed message.task ≠ [] := by
    rw [h.task, trimmed_decimal]
    exact decimal_ne_nil _
  have hblank : (∀ f ∈ modifyMessageFields requestNo clientId message, trimmed f.2 ≠ []) ↔
      trimmed message.newTask ≠ [] ∧ trimmed message.newDate ≠ [] := by
    simp only [modifyMessageFields, List.forall_mem_cons]
    constructor
    · rintro ⟨-, -, -, -, -, htask, hdate, -⟩
      exact ⟨htask, hdate⟩
    · rintro ⟨htask, hdate⟩
      exact ⟨hword _ hno.int32, hword _ hid.int32, hword _ (by decide), hword _ h.flagsInt32, hkey,
        htask, hdate, hword _ (statusWire h.status).1, by simp⟩
  unfold createModifyMessageToServer
  rw [receiveTyped_iff hcut (modifyMessageFields_line hno hid h) (by decide : 8 ≤ maxReqFields)
    (modifyMessageFields_room hno hid h), hblank, parse_modifyMessage hno hid h ctx hctx]
  simp only [Except.ok.injEq, eq_comm]

/-- A run that comes to the table has found `d` at the head of its chain, and has
given it the new status. -/
theorem modifyRun_eq_some {s : Store} {d : DataPoint} {ds : List DataPoint}
    (hchain : s.htable.data (hashFunc key) = d :: ds) (fuel : ℕ) (u : Store) :
    modifyRun (granted env fuel) cut requestNo clientId message ctx s = .ok (some u) ↔
      (trimmed message.newTask ≠ [] ∧ trimmed message.newDate ≠ []) ∧ (d.key = key ∧ fuel ≠ 0) ∧
        u = { s with htable := { s.htable with
          data := Function.update s.htable.data (hashFunc key)
            (withStatus message.newTaskStatus d :: ds) } } := by
  have hreceive := receiveModify_iff hcut hno hid h hctx
  have hstorage := handleStorage_modify (granted env fuel) s
    (modifyCtx requestNo clientId message key ctx) rfl
  have hmodify := hashTableModify_chain env s.htable key message.newTaskStatus hchain fuel
  dsimp only [modifyCtx] at hstorage
  rw [hmodify] at hstorage
  constructor
  · intro hrun
    unfold modifyRun at hrun
    cases hgot : receiveTyped cut ctx (createModifyMessageToServer requestNo clientId message) with
    | error f =>
      rw [hgot] at hrun
      cases hrun
    | ok o =>
      rw [hgot] at hrun
      cases o with
      | none => cases hrun
      | some got =>
        obtain ⟨hblank, rfl⟩ := (hreceive got).mp hgot
        dsimp only [modifyCtx] at hrun
        rw [hstorage] at hrun
        by_cases hfound : d.key = key ∧ fuel ≠ 0
        · rw [if_pos hfound] at hrun
          cases hrun
          exact ⟨hblank, hfound, rfl⟩
        · rw [if_neg hfound] at hrun
          cases hrun
  · rintro ⟨hblank, hfound, rfl⟩
    have hgot := (hreceive _).mpr ⟨hblank, rfl⟩
    unfold modifyRun
    rw [hgot]
    dsimp only [modifyCtx]
    rw [hstorage, if_pos hfound]

theorem ModifiesFlagged.remade {s : Store} {post : List DataPoint} {d : DataPoint}
    (hchain : s.htable.data (hashFunc key) = d :: post) (hd : d.key = key)
    (hmod : ModifiesFlagged env cut requestNo clientId message ctx s [] post d) :
    (trimmed message.newTask ≠ [] ∧ trimmed message.newDate ≠ []) ∧
      Remade message d (withStatus message.newTaskStatus d) := by
  obtain ⟨fuel, u, d', hrun, hremade, htable⟩ := hmod
  obtain ⟨hblank, -, rfl⟩ := (modifyRun_eq_some hcut hno hid h hctx hchain fuel u).mp hrun
  have hcell := congrFun htable (hashFunc key)
  dsimp only at hcell
  rw [hd, Function.update_self, Function.update_self] at hcell
  obtain ⟨rfl, -⟩ := List.cons.inj hcell
  exact ⟨hblank, hremade⟩

/-- A modify request does what its flags ask for exactly when the new task and
the new date are not blank, no other key lies before the entry in its chain, a
flagged task is the one that is stored, and an unflagged status too. -/
theorem modifies_flagged_iff {s : Store} {pre post : List DataPoint} {d : DataPoint}
    (hchain : s.htable.data (hashFunc key) = pre ++ d :: post) (hd : d.key = key)
    (hfirst : ∀ x ∈ pre, x.key ≠ key) :
    ModifiesFlagged env cut requestNo clientId message ctx s pre post d ↔
      (trimmed message.newTask ≠ [] ∧ trimmed message.newDate ≠ []) ∧ pre = [] ∧
        (message.modFlags &&& modFlagsTaskStringModified ≠ 0 → message.newTask = (entry d).1) ∧
        (message.modFlags &&& modFlagsStatusModified = 0 → message.newTaskStatus = d.taskStatus) := by
  constructor
  · intro hmod
    cases pre with
    | nil =>
      obtain ⟨hblank, hremade⟩ := hmod.remade hcut hno hid h hctx hchain hd
      refine ⟨hblank, rfl, fun hflag => ?_, fun hflag => ?_⟩
      · have htext := hremade.text
        rw [if_pos hflag] at htext
        exact htext.symm
      · have hstatus := hremade.status
        rw [if_neg (by simpa using hflag)] at hstatus
        exact hstatus
    | cons x pre =>
      obtain ⟨fuel, u, d', hrun, -, -⟩ := hmod
      obtain ⟨-, ⟨hx, -⟩, -⟩ := (modifyRun_eq_some hcut hno hid h hctx hchain fuel u).mp hrun
      exact absurd hx (hfirst x (List.mem_cons_self ..))
  · rintro ⟨hblank, rfl, htext, hstatus⟩
    rw [List.nil_append] at hchain
    refine ⟨1, _, withStatus message.newTaskStatus d,
      (modifyRun_eq_some hcut hno hid h hctx hchain 1 _).mpr ⟨hblank, ⟨hd, by decide⟩, rfl⟩, ?_, ?_⟩
    · refine ⟨rfl, ?_, ?_⟩
      · by_cases hflag : message.modFlags &&& modFlagsTaskStringModified ≠ 0
        · rw [if_pos hflag]
          exact (htext hflag).symm
        · rw [if_neg hflag]
          rfl
      · by_cases hflag : message.modFlags &&& modFlagsStatusModified ≠ 0
        · rw [if_pos hflag]
          rfl
        · rw [if_neg hflag]
          exact hstatus (by simpa using hflag)
    · rw [hd]
      rfl

end

def milkPoint : DataPoint := ⟨milkKey, strncpy maxDataLen (ascii "buy milk"), 8, .taskNotDone⟩

theorem milkTable_chain : milkTable.data (hashFunc milkKey) = [milkPoint] := by
  simp [milkTable, insertDataPoint, milkPoint]

/-- Each has the flag of one field; "NA" stands for the others. -/
def doneMessage : MessageModify :=
  ⟨decimal milkKey.toNat, ascii "NA", ascii "NA", .taskDone, modFlagsStatusModified⟩

def renameMessage : MessageModify :=
  ⟨decimal milkKey.toNat, ascii "buy bread", ascii "NA", .taskNotDone, modFlagsTaskStringModified⟩

theorem doneMessage_entered : doneMessage.Entered milkKey := by
  refine ⟨rfl, ?_, ?_, ?_, ?_, Or.inr rfl, ?_⟩ <;> decide +kernel

theorem renameMessage_entered : renameMessage.Entered milkKey := by
  refine ⟨rfl, ?_, ?_, ?_, ?_, Or.inl rfl, ?_⟩ <;> decide +kernel

theorem modifies_flagged_iff_done :
    ModifiesFlagged (zeroEnv fun _ => none) byByte 2 9 doneMessage {} ⟨milkTable, fun _ => none⟩ [] []
        milkPoint ↔
      (trimmed doneMessage.newTask ≠ [] ∧ trimmed doneMessage.newDate ≠ []) ∧ [] = ([] : List DataPoint) ∧
        (doneMessage.modFlags &&& modFlagsTaskStringModified ≠ 0 →
          doneMessage.newTask = (entry milkPoint).1) ∧
        (doneMessage.modFlags &&& modFlagsStatusModified = 0 →
          doneMessage.newTaskStatus = milkPoint.taskStatus) :=
  modifies_flagged_iff isCut_byByte (by decide) (by decide) doneMessage_entered rfl milkTable_chain rfl
    nofun

/-- The flag for the task is set, and the text in the table stays. -/
theorem rename_leaves_text :
    ¬ModifiesFlagged (zeroEnv fun _ => none) byByte 2 9 renameMessage {} ⟨milkTable, fun _ => none⟩
      [] [] milkPoint := by
  intro hmod
  obtain ⟨-, hremade⟩ := hmod.remade isCut_byByte (by decide) (by decide) renameMessage_entered rfl
    milkTable_chain rfl
  have htext := hremade.text
  rw [if_pos (by decide)] at htext
  exact absurd htext (by decide +kernel)

end ToDoList
