import ToDoList.Payload
import ToDoList.TaskText
import ToDoList.Chains

/-!
# Requests as the user types them (client.c)

The client prints what was typed into the lines of a request. The server skips
blanks behind the colon, so that a value with leading blanks loses them and a
blank value makes the request malformed; and it has no branch for `Flags`.
-/

namespace ToDoList
open CLib

/-! ### Messages with values of any form -/

def trimField (f : String × Bytes) : String × Bytes := (f.1, trimmed f.2)

section
variable {σ ρ : Type} (parse : σ → Bytes → Bytes → Except ρ σ)

/-- A message, at most as many lines as are left, is accepted when no value is
blank and the parser takes the values without their leading blanks. -/
theorem headerLoop_typed {fields : List (String × Bytes)} (hf : ∀ f ∈ fields, LineField f)
    {r : SockBufRead} {rest : Bytes} (hr : Delivers r (headerText fields ++ rest)) {left : ℕ}
    (hleft : fields.length ≤ left) (ctx got : σ) :
    (∃ r', headerLoop parse left r ctx = .ok (.accepted got r')) ↔
      (∀ f ∈ fields, trimmed f.2 ≠ []) ∧ parseFields parse ctx (fields.map trimField) = .ok got := by
  induction fields generalizing r left ctx with
  | nil =>
    obtain ⟨r', -, hend⟩ := headerLoop_end parse hr left ctx
    rw [hend]
    simp [parseFields]
  | cons f fields ih =>
    obtain ⟨left, rfl⟩ : ∃ n, left = n + 1 :=
      Nat.exists_eq_succ_of_ne_zero (by rw [List.length_cons] at hleft; omega)
    rw [headerText_cons] at hr
    obtain ⟨q, hq, hturn⟩ := headerLoop_turn parse (hf f (List.mem_cons_self ..)) hr left ctx
    rw [hturn, List.map_cons, trimField, parseFields]
    by_cases hempty : trimmed f.2 = []
    · simp [hempty]
    · rw [if_neg hempty]
      cases parse ctx (ascii f.1) (trimmed f.2) with
      | error why => simp
      | ok c =>
        dsimp only
        rw [ih (fun g hg => hf g (List.mem_cons_of_mem _ hg)) hq
          (by rw [List.length_cons] at hleft; omega) c]
        simp [hempty]

end

/-- What can stand in a line behind its key. -/
def Typeable (v : Bytes) : Prop := ∀ b ∈ v, b ≠ byte '\r' ∧ b ≠ byte '\n' ∧ b ≠ 0

instance (v : Bytes) : Decidable (Typeable v) := inferInstanceAs (Decidable (∀ b ∈ v, _))

theorem PlainWord.trimmed_eq {v : Bytes} (h : PlainWord v) : trimmed v = v := trimmed_of_word h.start

theorem lineField_typed {key : String} (hkey : PlainKey key) {v : Bytes} (hv : Typeable v)
    (hlen : v.length < taskLength) : LineField (key, v) := by
  refine ⟨hkey.1, hkey.2.2, hv, ?_⟩
  have hshort := hkey.2.1
  dsimp only
  unfold taskLength at hlen
  unfold maxMsgSize
  omega

/-- What the header loop makes of a printed buffer. -/
def receiveTyped (cut : Bytes → List ReadResult) (ctx : ClientCtx) (buf : Except Fault Bytes) :
    Except Fault (Option ClientCtx) :=
  match buf with
  | .error f => .error f
  | .ok buf => readHeader ctx (cut buf)

theorem readHeader_eq_some {ctx got : ClientCtx} {reads : List ReadResult} :
    readHeader ctx reads = .ok (some got) ↔
      ∃ rest, headerLoop parseKv maxReqFields (initBufFd reads) ctx = .ok (.accepted got rest) := by
  unfold readHeader
  constructor
  · intro h
    split at h
    · cases h
    · rename_i got' rest hloop
      cases h
      exact ⟨rest, hloop⟩
    · cases h
  · rintro ⟨rest, hloop⟩
    rw [hloop]

theorem receiveTyped_iff {cut : Bytes → List ReadResult} (hcut : IsCut cut)
    {fields : List (String × Bytes)} (hf : ∀ f ∈ fields, LineField f)
    (hcount : fields.length ≤ maxReqFields) (hlen : (headerText fields).length < maxLength)
    (ctx got : ClientCtx) :
    receiveTyped cut ctx (printBuf (headerText fields)) = .ok (some got) ↔
      (∀ f ∈ fields, trimmed f.2 ≠ []) ∧
        parseFields parseKv ctx (fields.map trimField) = .ok got := by
  obtain ⟨hclean, hcontent⟩ :=
    hcut (headerText fields ++ List.replicate (maxLength - (headerText fields).length) 0)
  have hdel := delivers_init hclean
  rw [hcontent] at hdel
  have hprint : printBuf (headerText fields) =
      .ok (headerText fields ++ List.replicate (maxLength - (headerText fields).length) 0) := if_pos hlen
  rw [hprint]
  show readHeader ctx _ = _ ↔ _
  rw [readHeader_eq_some, headerLoop_typed parseKv hf hdel hcount]

/-! ### Add requests -/

/-- `struct message_add`, the strings of its arrays. -/
structure MessageAdd where
  task : Bytes
  taskDate : Bytes
  taskStatus : TStatus

def addMessageFields (requestNo clientId : ℤ) (message : MessageAdd) : List (String × Bytes) :=
  [("Request No", decimalInt requestNo), ("Client ID", decimalInt clientId),
    ("Message Type", decimalInt MsgType.msgAdd.toInt), ("Task", message.task),
    ("Task status", decimalInt message.taskStatus.toInt), ("Due date", message.taskDate)]

def createAddMessageToServer (requestNo clientId : ℤ) (message : MessageAdd) : Except Fault Bytes :=
  printBuf (headerText (addMessageFields requestNo clientId message))

/-- What the prompts can leave in the message. -/
structure MessageAdd.Entered (message : MessageAdd) : Prop where
  task : Typeable message.task
  taskLen : message.task.length < taskLength
  date : Typeable message.taskDate
  dateLen : message.taskDate.length < dateLength
  status : message.taskStatus = .taskNotDone ∨ message.taskStatus = .taskDone

/-- A number that is printed with "%d" and read back. -/
def Counted (z : ℤ) : Prop := 0 ≤ z ∧ z < 2 ^ 31

instance (z : ℤ) : Decidable (Counted z) := inferInstanceAs (Decidable (_ ∧ _))

theorem Counted.int32 {z : ℤ} (h : Counted z) : IsInt32 z := ⟨by have := h.1; omega, h.2⟩

/-- The server takes the request and has what was typed. -/
def AddDecodes (cut : Bytes → List ReadResult) (requestNo clientId : ℤ) (message : MessageAdd)
    (ctx : ClientCtx) : Prop :=
  ∃ got, receiveTyped cut ctx (createAddMessageToServer requestNo clientId message) = .ok (some got) ∧
    got.req.msgType = .msgAdd ∧ got.clientId = clientId ∧ (got.req.reqNo.toNat : ℤ) = requestNo ∧
    got.req.task = strncpy taskLength message.task ∧ got.req.taskLen.toNat = message.task.length ∧
    got.req.taskStatus = message.taskStatus ∧ got.req.date = strncpy dateLength message.taskDate

theorem statusWire {status : TStatus} (h : status = .taskNotDone ∨ status = .taskDone) :
    IsInt32 status.toInt ∧ TStatus.ofInt status.toInt = status := by
  rcases h with rfl | rfl
  · exact ⟨by decide, rfl⟩
  · exact ⟨by decide, rfl⟩

theorem lineField_number {key : String} (hkey : PlainKey key) {z : ℤ} (hz : IsInt32 z) :
    LineField (key, decimalInt z) :=
  (PlainField.good ⟨hkey, plainWord_decimalInt hz⟩).line

theorem addMessageFields_line {requestNo clientId : ℤ} {message : MessageAdd}
    (hno : Counted requestNo) (hid : Counted clientId) (h : message.Entered) :
    ∀ f ∈ addMessageFields requestNo clientId message, LineField f := by
  have htype : IsInt32 MsgType.msgAdd.toInt := by decide
  have hdate : message.taskDate.length < taskLength := h.dateLen.trans (by decide)
  simp only [addMessageFields, List.forall_mem_cons]
  exact ⟨lineField_number (plainKey_request .requestNo) hno.int32,
    lineField_number (plainKey_request .clientId) hid.int32,
    lineField_number (plainKey_request .messageType) htype,
    lineField_typed (plainKey_request .task) h.task h.taskLen,
    lineField_number (plainKey_request .taskStatus) (statusWire h.status).1,
    lineField_typed (plainKey_request .dueDate) h.date hdate, by simp⟩

theorem headerText_room {fields : List (String × Bytes)} (h : ∀ f ∈ fields, (ascii f.1).length ≤ 15) :
    (headerText fields).length ≤ 19 * fields.length + (fields.map fun f => f.2.length).sum + 2 := by
  induction fields with
  | nil => decide +kernel
  | cons f fields ih =>
    have hkey := h f (List.mem_cons_self ..)
    have hrest := ih fun g hg => h g (List.mem_cons_of_mem _ hg)
    rw [headerText, List.length_append] at hrest ⊢
    rw [List.flatMap_cons, List.length_append, fieldLine_length, List.length_cons, List.map_cons,
      List.sum_cons]
    omega

theorem addMessageFields_room {requestNo clientId : ℤ} {message : MessageAdd}
    (hno : Counted requestNo) (hid : Counted clientId) (h : message.Entered) :
    (headerText (addMessageFields requestNo clientId message)).length < maxLength := by
  have hkeys : ∀ f ∈ addMessageFields requestNo clientId message, (ascii f.1).length ≤ 15 := by
    simp only [addMessageFields, List.forall_mem_cons]
    exact ⟨(plainKey_request .requestNo).2.1, (plainKey_request .clientId).2.1,
      (plainKey_request .messageType).2.1, (plainKey_request .task).2.1,
      (plainKey_request .taskStatus).2.1, (plainKey_request .dueDate).2.1, by simp⟩
  have hroom := headerText_room hkeys
  have hlen := (plainWord_decimalInt hno.int32).len
  have hlen' := (plainWord_decimalInt hid.int32).len
  have htype := (plainWord_decimalInt (by decide : IsInt32 MsgType.msgAdd.toInt)).len
  have hstatus := (plainWord_decimalInt (statusWire h.status).1).len
  have htask := h.taskLen
  have hdate := h.dateLen
  simp only [addMessageFields, List.map_cons, List.map_nil, List.sum_cons, List.sum_nil,
    List.length_cons, List.length_nil] at hroom
  simp only [taskLength, dateLength, maxLength, addMessageFields] at *
  omega

theorem setTask_short (req : ClientRequest) {value : Bytes} (h : ∀ b ∈ value, b ≠ 0)
    (hlen : value.length < taskLength) : setTask req value =
      { req with task := strncpy taskLength value, taskLen := UInt64.ofNat value.length } := by
  have hval := (taskHeld_set req h).short hlen
  have hofNat : (setTask req value).taskLen = UInt64.ofNat value.length := by
    rw [← hval, UInt64.ofNat_toNat]
  unfold setTask at hofNat ⊢
  dsimp only at hofNat ⊢
  rw [hofNat]

theorem Typeable.trimmed {v : Bytes} (h : Typeable v) : Typeable (trimmed v) :=
  fun b hb => h b ((List.dropWhile_suffix isSpace).subset hb)

theorem trimmed_length (v : Bytes) : (trimmed v).length ≤ v.length :=
  (List.dropWhile_suffix isSpace).length_le

theorem setLow32_counted {z : ℤ} (h : Counted z) : setLow32 0 z = z.toNat := by
  obtain ⟨hlo, hhi⟩ := h
  unfold setLow32
  omega

theorem parse_addMessage {requestNo clientId : ℤ} {message : MessageAdd} (hno : Counted requestNo)
    (hid : Counted clientId) (h : message.Entered) (ctx : ClientCtx) (hctx : ctx.req = {}) :
    parseFields parseKv ctx ((addMessageFields requestNo clientId message).map trimField) =
      .ok { ctx with
        clientId := clientId
        req := {
          msgType := .msgAdd
          task := strncpy taskLength (trimmed message.task)
          taskLen := UInt64.ofNat (trimmed message.task).length
          taskStatus := message.taskStatus
          date := strncpy dateLength (trimmed message.taskDate)
          reqNo := UInt64.ofNat requestNo.toNat } } := by
  have hword (z : ℤ) (hz : IsInt32 z) : trimmed (decimalInt z) = decimalInt z :=
    (plainWord_decimalInt hz).trimmed_eq
  obtain ⟨hstatus, hstatus'⟩ := statusWire h.status
  have htype : IsInt32 MsgType.msgAdd.toInt := by decide
  have htype' : MsgType.ofInt MsgType.msgAdd.toInt = .msgAdd := rfl
  have hlow := setLow32_counted hno
  have htask (req : ClientRequest) := setTask_short req (fun b hb => (h.task.trimmed b hb).2.2)
    (lt_of_le_of_lt (trimmed_length _) h.taskLen)
  have hkey (ctx : ClientCtx) (v : Bytes) :
      parseKv ctx (ascii "Request No") v = setRequestField ctx v .requestNo ∧
      parseKv ctx (ascii "Client ID") v = setRequestField ctx v .clientId ∧
      parseKv ctx (ascii "Message Type") v = setRequestField ctx v .messageType ∧
      parseKv ctx (ascii "Task") v = setRequestField ctx v .task ∧
      parseKv ctx (ascii "Task status") v = setRequestField ctx v .taskStatus ∧
      parseKv ctx (ascii "Due date") v = setRequestField ctx v .dueDate :=
    ⟨parseKv_text ctx .requestNo v, parseKv_text ctx .clientId v, parseKv_text ctx .messageType v,
      parseKv_text ctx .task v, parseKv_text ctx .taskStatus v, parseKv_text ctx .dueDate v⟩
  obtain ⟨fd, client, req, isBacklog, conn⟩ := ctx
  subst hctx
  simp only [addMessageFields, List.map_cons, List.map_nil, trimField, parseFields,
    hword _ hno.int32, hword _ hid.int32, hword _ hstatus, hword _ htype, hkey, setRequestField,
    intField, strToInt_decimalInt hno.int32, strToInt_decimalInt hid.int32,
    strToInt_decimalInt htype, strToInt_decimalInt hstatus, htype', hstatus', UInt64.toNat_zero,
    hlow, htask]

theorem trimmed_eq_self_iff (v : Bytes) : trimmed v = v ↔ ∀ b ∈ v.head?, isSpace b = false := by
  refine ⟨fun h b hb => ?_, trimmed_of_word⟩
  cases v with
  | nil => cases hb
  | cons c v =>
    cases hb
    by_contra hspace
    have hle : (v.dropWhile isSpace).length ≤ v.length := (List.dropWhile_suffix isSpace).length_le
    rw [trimmed, List.dropWhile_cons_of_pos (by simpa using hspace)] at h
    rw [h, List.length_cons] at hle
    omega

theorem strncpy_inj {n : ℕ} {v w : Bytes} (hv : ∀ b ∈ v, b ≠ 0) (hw : ∀ b ∈ w, b ≠ 0)
    (hlen : v.length < n) (hlen' : w.length < n) (h : strncpy n v = strncpy n w) : v = w := by
  have hread (u : Bytes) (hu : ∀ b ∈ u, b ≠ 0) (hn : u.length < n) :
      cString (strncpy n u).toList = u := by
    obtain ⟨k, hk⟩ : ∃ k, n - u.length = k + 1 := ⟨n - u.length - 1, by omega⟩
    rw [toList_strncpy _ _ hn.le, hk, List.replicate_succ, cString_append_nul _ _ hu]
  rw [← hread v hv hlen, h, hread w hw hlen']

theorem trimmed_eq_of_strncpy {n : ℕ} {v : Bytes} (hv : Typeable v) (hlen : v.length < n)
    (h : strncpy n (trimmed v) = strncpy n v) : trimmed v = v :=
  strncpy_inj (fun b hb => (hv.trimmed b hb).2.2) (fun b hb => (hv b hb).2.2)
    (lt_of_le_of_lt (trimmed_length v) hlen) hlen h

theorem AddDecodes.not_blank {cut : Bytes → List ReadResult} (hcut : IsCut cut)
    {requestNo clientId : ℤ} (hno : Counted requestNo) (hid : Counted clientId)
    {message : MessageAdd} (h : message.Entered) {ctx : ClientCtx}
    (hdecodes : AddDecodes cut requestNo clientId message ctx) :
    trimmed message.task ≠ [] ∧ trimmed message.taskDate ≠ [] := by
  obtain ⟨got, hgot, -⟩ := hdecodes
  obtain ⟨hblank, -⟩ := (receiveTyped_iff hcut (addMessageFields_line hno hid h)
    (by decide : 6 ≤ maxReqFields) (addMessageFields_room hno hid h) ctx got).mp hgot
  exact ⟨hblank ("Task", message.task) (by simp [addMessageFields]),
    hblank ("Due date", message.taskDate) (by simp [addMessageFields])⟩

/-- An add request decodes to what was typed exactly when neither the task nor
the date is empty or begins with white space. -/
theorem add_decodes_iff {cut : Bytes → List ReadResult} (hcut : IsCut cut) {requestNo clientId : ℤ}
    (hno : Counted requestNo) (hid : Counted clientId) {message : MessageAdd} (h : message.Entered)
    (ctx : ClientCtx) (hctx : ctx.req = {}) :
    AddDecodes cut requestNo clientId message ctx ↔
      (message.task ≠ [] ∧ ∀ b ∈ message.task.head?, isSpace b = false) ∧
        message.taskDate ≠ [] ∧ ∀ b ∈ message.taskDate.head?, isSpace b = false := by
  have hiff := receiveTyped_iff hcut (addMessageFields_line hno hid h) (by decide : 6 ≤ maxReqFields)
    (addMessageFields_room hno hid h) ctx
  have hparse := parse_addMessage hno hid h ctx hctx
  rw [← trimmed_eq_self_iff, ← trimmed_eq_self_iff]
  constructor
  · intro hdecodes
    obtain ⟨hne, hne'⟩ := hdecodes.not_blank hcut hno hid h
    obtain ⟨got, hgot, -, -, -, htask, -, -, hdate⟩ := hdecodes
    obtain ⟨-, hfields⟩ := (hiff got).mp hgot
    rw [hparse] at hfields
    cases hfields
    have htask' := trimmed_eq_of_strncpy h.task h.taskLen htask
    have hdate' := trimmed_eq_of_strncpy h.date h.dateLen hdate
    rw [htask'] at hne
    rw [hdate'] at hne'
    exact ⟨⟨hne, htask'⟩, hne', hdate'⟩
  · rintro ⟨⟨hne, htask⟩, hne', hdate⟩
    have hword (z : ℤ) (hz : IsInt32 z) : trimmed (decimalInt z) ≠ [] := by
      rw [(plainWord_decimalInt hz).trimmed_eq]
      exact (plainWord_decimalInt hz).ne
    have hblank : ∀ f ∈ addMessageFields requestNo clientId message, trimmed f.2 ≠ [] := by
      simp only [addMessageFields, List.forall_mem_cons]
      refine ⟨hword _ hno.int32, hword _ hid.int32, hword _ (by decide), ?_,
        hword _ (statusWire h.status).1, ?_, by simp⟩
      · rw [htask]
        exact hne
      · rw [hdate]
        exact hne'
    refine ⟨_, (hiff _).mpr ⟨hblank, hparse⟩, rfl, rfl, ?_, ?_, ?_, rfl, ?_⟩
    · dsimp only
      obtain ⟨hlo, hhi⟩ := hno
      rw [UInt64.toNat_ofNat_of_lt' (by simp only [UInt64.size]; omega)]
      omega
    · dsimp only
      rw [htask]
    · have hlen := h.taskLen
      dsimp only
      rw [htask, UInt64.toNat_ofNat_of_lt' (by simp only [UInt64.size, taskLength] at *; omega)]
    · dsimp only
      rw [hdate]

def milkMessage : MessageAdd := ⟨ascii "buy milk", ascii "today", .taskNotDone⟩

theorem milkMessage_entered : milkMessage.Entered := by
  refine ⟨?_, ?_, ?_, ?_, Or.inl rfl⟩ <;> decide +kernel

theorem add_decodes_iff_milk :
    AddDecodes byByte 4 9 milkMessage {} ↔
      (milkMessage.task ≠ [] ∧ ∀ b ∈ milkMessage.task.head?, isSpace b = false) ∧
        milkMessage.taskDate ≠ [] ∧ ∀ b ∈ milkMessage.taskDate.head?, isSpace b = false :=
  add_decodes_iff isCut_byByte (by decide) (by decide) milkMessage_entered {} rfl

/-- The date prompt was left empty: the line has no value for the parser. -/
theorem empty_date_is_malformed :
    (⟨ascii "buy milk", [], .taskNotDone⟩ : MessageAdd).Entered ∧
      ¬AddDecodes byByte 4 9 ⟨ascii "buy milk", [], .taskNotDone⟩ {} := by
  have hentered : (⟨ascii "buy milk", [], .taskNotDone⟩ : MessageAdd).Entered := by
    refine ⟨?_, ?_, ?_, ?_, Or.inl rfl⟩ <;> decide +kernel
  refine ⟨hentered, fun hdecodes => ?_⟩
  exact (hdecodes.not_blank isCut_byByte (by decide) (by decide) hentered).2 rfl

end ToDoList
