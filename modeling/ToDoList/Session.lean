import ToDoList.Console
import ToDoList.AlikeReplies
import ToDoList.Active
import ToDoList.Payload
import ToDoList.OneReply
import ToDoList.MsgBuf

/-!
# A user at the menu, and the list of tasks

From the lines that are typed to the tables of all replicas, and back to what is
shown: one client in active mode, whose requests every replica has executed
before the next is typed. The list is the per-key queues of `tableMachine`.
-/

namespace ToDoList
open CLib KeyedMachine

/-! ### The list -/

def taskKey (sha1 : Bytes → Option UInt64) (task : Bytes) : UInt64 :=
  (sha1 (task ++ List.replicate 5 0)).getD (0 - 1)

/-- A command as an operation on the list. -/
def Command.call (sha1 : Bytes → Option UInt64) : Command → Call
  | .add task _ => .insert (taskKey sha1 (trimmed task)) (trimmed task) (.ofNat (trimmed task).length)
  | .remove key => .delete key

/-- A reply to a remove request names no key. -/
def replyKeyOf : Call → UInt64
  | .insert key _ _ => key
  | .delete _ => 0

/-- What is shown for the request with number `requestNo`. -/
def shownFor (clientId requestNo : ℤ) (answer : Call × ℤ) : Shown where
  status := if answer.2 = 0 then 0 else -1
  response := {
    hashKey := replyKeyOf answer.1
    clientId := clientId
    status := ascii (if answer.2 = 0 then "OK" else "FAIL")
    reqNo := requestNo }

/-- The answers to requests in a row; `requestNo` is the number before the first. -/
def shownFrom (clientId : ℤ) : ℤ → List (Call × ℤ) → List Shown
  | _, [] => []
  | requestNo, a :: as =>
    shownFor clientId (requestNo + 1) a :: shownFrom clientId (requestNo + 1) as

/-! ### The replicas as the client reaches them -/

structure Site where
  env : Env
  server : Server

/-- A connection of the client to a replica: the sockets at both ends, what
`rand` returns for it, and how the network cuts what is written at either end. -/
structure Contact where
  clientFd : ℤ
  fd : ℤ
  conn : ℕ
  rand : ℕ
  toServer : Bytes → List ReadResult
  toClient : Bytes → List ReadResult

def Contact.ctx (k : Contact) : ClientCtx := { fd := k.fd, conn := k.conn }

/-- A connection thread takes what has arrived, and the NORMAL worker has its
turn. -/
def serveRequest (k : Contact) (site : Site) (buf : Bytes) : Except Fault (Server × List Effect) :=
  match headerLoop parseKv maxReqFields (initBufFd (k.toServer buf)) k.ctx with
  | .error f => .error f
  | .ok (.accepted ctx rest) =>
    match readPayload site.env.fuel rest ctx.req.payload.size with
    | .error f => .error f
    | .ok data =>
      match handleConnection site.server k.rand
          { ctx with req := { ctx.req with payload := ⟨data, ctx.req.payload.size⟩ } } with
      | .error f => .error f
      | .ok (s, effs) =>
        match runNormal site.env s with
        | .error f => .error f
        | .ok (s, effs') => .ok (s, effs ++ effs')
  | .ok rejected => .ok (site.server, rejectConnection site.server rejected.ctx (headerReply rejected))

def isClose (k : Contact) : Effect → Bool
  | .close fd conn => fd = k.fd && conn = k.conn
  | _ => false

/-- What the client can read: nothing ends a connection that the server keeps. -/
def replyOn (k : Contact) (effs : List Effect) : Option (List ReadResult) :=
  if effs.any (isClose k) then some (k.toClient ((repliesTo k.ctx effs).flatMap sentReply)) else none

def serveSite (k : Contact) (site : Site) (buf : Bytes) : Except Fault (Site × Conn) :=
  match serveRequest k site buf with
  | .error f => .error f
  | .ok (s, effs) => .ok ({ site with server := s }, .connected k.clientFd (replyOn k effs))

def serveEach (contact : ℕ → Contact) : ℕ → List Site → Bytes → Except Fault (List Site × List Conn)
  | _, [], _ => .ok ([], [])
  | i, site :: sites, buf =>
    match serveSite (contact i) site buf with
    | .error f => .error f
    | .ok (site, conn) =>
      match serveEach contact (i + 1) sites buf with
      | .error f => .error f
      | .ok (sites, conns) => .ok (site :: sites, conn :: conns)

/-- One request: the connections it is sent on, and what `poll` reports of them. -/
structure Round where
  contact : ℕ → Contact
  reports : List (ℕ → Bool)

structure Sites where
  sites : List Site
  round : ℕ := 0

def askSites (net : ℕ → Round) (w : Sites) (buf : Bytes) : Except Fault (Sites × Exchange) :=
  match serveEach (net w.round).contact 0 w.sites buf with
  | .error f => .error f
  | .ok (sites, conns) => .ok (⟨sites, w.round + 1⟩, ⟨conns, (net w.round).reports⟩)

/-- The network delivers, descriptors are not in use, and `poll` comes to each of
the `count` sockets. -/
structure Round.Fair (count : ℕ) (r : Round) : Prop where
  cut : ∀ i, IsCut (r.contact i).toServer ∧ IsCut (r.contact i).toClient
  fresh : Function.Injective fun i => (r.contact i).clientFd
  pos : ∀ i, 0 < (r.contact i).clientFd
  accepted : ∀ i, 0 ≤ (r.contact i).fd
  reported : ∀ i < count, ∃ report ∈ r.reports, report i = true

/-! ### The request a server makes of a command -/

theorem removeMessageFields_line {requestNo clientId : ℤ} (hno : Counted requestNo)
    (hid : Counted clientId) (key : UInt64) :
    ∀ f ∈ removeMessageFields requestNo clientId ⟨decimal key.toNat⟩, LineField f := by
  have htype : IsInt32 MsgType.msgRemove.toInt := by decide
  have hkey : (decimal key.toNat).length < taskLength :=
    lt_of_le_of_lt (decimal_toNat_length key) (by decide)
  simp only [removeMessageFields, List.forall_mem_cons]
  exact ⟨lineField_number (plainKey_request .requestNo) hno.int32,
    lineField_number (plainKey_request .clientId) hid.int32,
    lineField_number (plainKey_request .messageType) htype,
    lineField_typed (plainKey_request .key) (decimal_typeable _) hkey, by simp⟩

theorem removeMessageFields_room {requestNo clientId : ℤ} (hno : Counted requestNo)
    (hid : Counted clientId) (key : UInt64) :
    (headerText (removeMessageFields requestNo clientId ⟨decimal key.toNat⟩)).length < maxLength := by
  have hkeys : ∀ f ∈ removeMessageFields requestNo clientId ⟨decimal key.toNat⟩,
      (ascii f.1).length ≤ 15 := by
    simp only [removeMessageFields, List.forall_mem_cons]
    exact ⟨(plainKey_request .requestNo).2.1, (plainKey_request .clientId).2.1,
      (plainKey_request .messageType).2.1, (plainKey_request .key).2.1, by simp⟩
  have hroom := headerText_room hkeys
  have hlen := (plainWord_decimalInt hno.int32).len
  have hlen' := (plainWord_decimalInt hid.int32).len
  have htype := (plainWord_decimalInt (by decide : IsInt32 MsgType.msgRemove.toInt)).len
  have hkey := decimal_toNat_length key
  simp only [removeMessageFields, List.map_cons, List.map_nil, List.sum_cons, List.sum_nil,
    List.length_cons, List.length_nil] at hroom
  simp only [maxLength, removeMessageFields]
  omega

theorem parse_removeMessage {requestNo clientId : ℤ} (hno : Counted requestNo) (hid : Counted clientId)
    (key : UInt64) (ctx : ClientCtx) (hctx : ctx.req = {}) :
    parseFields parseKv ctx ((removeMessageFields requestNo clientId ⟨decimal key.toNat⟩).map trimField) =
      .ok { ctx with
        clientId := clientId
        req := { msgType := .msgRemove, hashKey := key, reqNo := .ofNat requestNo.toNat } } := by
  have hword (z : ℤ) (hz : IsInt32 z) : trimmed (decimalInt z) = decimalInt z :=
    (plainWord_decimalInt hz).trimmed_eq
  have htype : IsInt32 MsgType.msgRemove.toInt := by decide
  have htype' : MsgType.ofInt MsgType.msgRemove.toInt = .msgRemove := rfl
  have hlow := setLow32_counted hno
  have hnum : strtoull (decimal key.toNat) = key := by
    rw [strtoull_decimal _ key.toNat_lt, UInt64.ofNat_toNat]
  have hkey (ctx : ClientCtx) (v : Bytes) :
      parseKv ctx (ascii "Request No") v = setRequestField ctx v .requestNo ∧
      parseKv ctx (ascii "Client ID") v = setRequestField ctx v .clientId ∧
      parseKv ctx (ascii "Message Type") v = setRequestField ctx v .messageType ∧
      parseKv ctx (ascii "Key") v = setRequestField ctx v .key :=
    ⟨parseKv_text ctx .requestNo v, parseKv_text ctx .clientId v, parseKv_text ctx .messageType v,
      parseKv_text ctx .key v⟩
  obtain ⟨fd, client, req, isBacklog, conn⟩ := ctx
  subst hctx
  simp only [removeMessageFields, List.map_cons, List.map_nil, trimField, parseFields,
    hword _ hno.int32, hword _ hid.int32, hword _ htype, trimmed_decimal, hkey, setRequestField, intField,
    strToInt_decimalInt hno.int32, strToInt_decimalInt hid.int32, strToInt_decimalInt htype, hnum,
    htype', UInt64.toNat_zero, hlow]

def Command.text : Command → Bytes
  | .add task _ => trimmed task
  | .remove _ => []

/-- What the server has read when it has read the request of a command. -/
structure ReadAs (sha1 : Bytes → Option UInt64) (requestNo clientId : ℤ) (cmd : Command) (k : Contact)
    (ctx : ClientCtx) : Prop where
  fd : ctx.fd = k.fd
  conn : ctx.conn = k.conn
  clientId : ctx.clientId = clientId
  reqNo : (ctx.req.reqNo.toNat : ℤ) = requestNo
  update : ClientUpdate ctx.req
  executable : Executable ctx.req
  payload : ctx.req.payload = {}
  text : ctx.req.msgType = .msgAdd → ctx.req.taskLen.toNat = cmd.text.length ∧
    ctx.req.task.toList.take ctx.req.taskLen.toNat = cmd.text
  call : ∀ env : Env, env.sha1 = sha1 → ∃ c, requestCall env ctx.req = some c ∧
    c.key = (cmd.call sha1).key ∧ queueAct c = queueAct (cmd.call sha1)
  key : ∀ env : Env, env.sha1 = sha1 → ctx.req.msgType = .msgAdd →
    requestKey env ctx.req = replyKeyOf (cmd.call sha1)
  noKey : ctx.req.msgType = .msgRemove → replyKeyOf (cmd.call sha1) = 0

theorem typed_accepted {cut : Bytes → List ReadResult} (hcut : IsCut cut)
    {fields : List (String × Bytes)} (hf : ∀ f ∈ fields, LineField f)
    (hcount : fields.length ≤ maxReqFields) (hroom : (headerText fields).length < maxLength)
    (hblank : ∀ f ∈ fields, trimmed f.2 ≠ []) {ctx got : ClientCtx}
    (hparse : parseFields parseKv ctx (fields.map trimField) = .ok got) :
    ∃ buf, printBuf (headerText fields) = .ok buf ∧
      ∃ rest, headerLoop parseKv maxReqFields (initBufFd (cut buf)) ctx = .ok (.accepted got rest) := by
  have hreceive := (receiveTyped_iff hcut hf hcount hroom ctx got).mpr ⟨hblank, hparse⟩
  have hprint : printBuf (headerText fields) =
      .ok (headerText fields ++ List.replicate (maxLength - (headerText fields).length) 0) := if_pos hroom
  rw [hprint] at hreceive
  exact ⟨_, hprint, readHeader_eq_some.mp hreceive⟩

theorem task_hashed {v : Bytes} (hlen : 5 + v.length ≤ taskLength) :
    (strncpy taskLength v).toList.take (v.length + 5) = v ++ List.replicate 5 0 := by
  have hroom : v.length ≤ taskLength := by omega
  rw [toList_strncpy _ _ hroom, List.take_append, List.take_of_length_le (by omega), List.take_replicate]
  congr 2
  omega

theorem task_stored {v : Bytes} (hlen : v.length ≤ taskLength) :
    (strncpy taskLength v).toList.take v.length = v := by
  rw [toList_strncpy _ _ hlen, List.take_left]

section
variable {sha1 : Bytes → Option UInt64} {requestNo clientId : ℤ} (hno : Counted requestNo)
  (hid : Counted clientId)
include hno hid

theorem add_read {task date : Bytes} (h : (Command.add task date).Enterable) {k : Contact}
    (hcut : IsCut k.toServer) :
    ∃ buf, (Command.add task date).request requestNo clientId = .ok buf ∧ ∃ ctx rest,
      headerLoop parseKv maxReqFields (initBufFd (k.toServer buf)) k.ctx = .ok (.accepted ctx rest) ∧
      ReadAs sha1 requestNo clientId (.add task date) k ctx := by
  obtain ⟨hentered, htask, hdate, hlen⟩ := h
  have hword (z : ℤ) (hz : IsInt32 z) : trimmed (decimalInt z) ≠ [] := by
    rw [(plainWord_decimalInt hz).trimmed_eq]
    exact (plainWord_decimalInt hz).ne
  have hblank : ∀ f ∈ addMessageFields requestNo clientId ⟨task, date, .taskNotDone⟩, trimmed f.2 ≠ [] := by
    simp only [addMessageFields, List.forall_mem_cons]
    exact ⟨hword _ hno.int32, hword _ hid.int32, hword _ (by decide), htask,
      hword _ (statusWire hentered.status).1, hdate, by simp⟩
  obtain ⟨buf, hbuf, rest, hloop⟩ := typed_accepted hcut (addMessageFields_line hno hid hentered)
    (by decide : 6 ≤ maxReqFields) (addMessageFields_room hno hid hentered) hblank
    (parse_addMessage hno hid hentered k.ctx rfl)
  have hlen' : (trimmed task).length < 2 ^ 64 := by
    simp only [taskLength] at hlen
    omega
  have hnat : (UInt64.ofNat (trimmed task).length).toNat = (trimmed task).length :=
    UInt64.toNat_ofNat_of_lt' hlen'
  have hreq : (UInt64.ofNat requestNo.toNat).toNat = requestNo.toNat := by
    have hlt := hno.2
    exact UInt64.toNat_ofNat_of_lt' (by simp only [UInt64.size]; omega)
  have hkey (env : Env) (henv : env.sha1 = sha1) : (env.sha1 ((strncpy taskLength (trimmed task)).toList.take
      ((UInt64.ofNat (trimmed task).length).toNat + 5))).getD (0 - 1) = taskKey sha1 (trimmed task) := by
    rw [hnat, task_hashed hlen, henv]
    rfl
  have hroom : (trimmed task).length ≤ taskLength := by omega
  refine ⟨buf, hbuf, _, rest, hloop, rfl, rfl, rfl, ?_, ⟨rfl, rfl⟩, fun _ => ?_, rfl, fun _ => ⟨hnat, ?_⟩,
    fun env henv => ?_, fun env henv _ => hkey env henv, fun htype => by cases htype⟩
  · have hpos := hno.1
    dsimp only
    rw [hreq]
    omega
  · dsimp only
    rw [hnat]
    exact hlen
  · dsimp only
    rw [hnat]
    exact task_stored hroom
  · refine ⟨_, congrArg (fun key => some (Call.insert key _ _)) (hkey env henv), rfl, ?_⟩
    funext q
    simp only [queueAct, Command.call, hnat, task_stored hroom, List.take_length]

theorem remove_read (key : UInt64) {k : Contact} (hcut : IsCut k.toServer) :
    ∃ buf, (Command.remove key).request requestNo clientId = .ok buf ∧ ∃ ctx rest,
      headerLoop parseKv maxReqFields (initBufFd (k.toServer buf)) k.ctx = .ok (.accepted ctx rest) ∧
      ReadAs sha1 requestNo clientId (.remove key) k ctx := by
  have hword (z : ℤ) (hz : IsInt32 z) : trimmed (decimalInt z) ≠ [] := by
    rw [(plainWord_decimalInt hz).trimmed_eq]
    exact (plainWord_decimalInt hz).ne
  have hblank : ∀ f ∈ removeMessageFields requestNo clientId ⟨decimal key.toNat⟩, trimmed f.2 ≠ [] := by
    simp only [removeMessageFields, List.forall_mem_cons, trimmed_decimal]
    exact ⟨hword _ hno.int32, hword _ hid.int32, hword _ (by decide), decimal_ne_nil _, by simp⟩
  obtain ⟨buf, hbuf, rest, hloop⟩ := typed_accepted hcut (removeMessageFields_line hno hid key)
    (by decide : 4 ≤ maxReqFields) (removeMessageFields_room hno hid key) hblank
    (parse_removeMessage hno hid key k.ctx rfl)
  have hreq : (UInt64.ofNat requestNo.toNat).toNat = requestNo.toNat := by
    have hlt := hno.2
    exact UInt64.toNat_ofNat_of_lt' (by simp only [UInt64.size]; omega)
  refine ⟨buf, hbuf, _, rest, hloop, rfl, rfl, rfl, ?_, ⟨rfl, rfl⟩, fun htype => (by cases htype), rfl,
    fun htype => (by cases htype), fun env _ => ⟨_, rfl, rfl, rfl⟩, fun _ _ htype => (by cases htype), fun _ => rfl⟩
  have hpos := hno.1
  dsimp only
  rw [hreq]
  omega

theorem command_read {cmd : Command} (h : cmd.Enterable) {k : Contact} (hcut : IsCut k.toServer) :
    ∃ buf, cmd.request requestNo clientId = .ok buf ∧ ∃ ctx rest,
      headerLoop parseKv maxReqFields (initBufFd (k.toServer buf)) k.ctx = .ok (.accepted ctx rest) ∧
      ReadAs sha1 requestNo clientId cmd k ctx := by
  cases cmd with
  | add task date => exact add_read hno hid h hcut
  | remove key => exact remove_read hno hid key hcut

end

/-! ### The reply that is read -/

def repliedWith (ctx : ClientCtx) (status : String) : MessageResponse where
  hashKey := if ctx.req.msgType = .msgAdd then ctx.req.hashKey else 0
  clientId := ctx.clientId
  status := ascii status
  reqNo := ctx.req.reqNo.toNat

theorem status_stated {status : String} (hone : status = "OK" ∨ status = "FAIL") :
    ReplyWord (ascii status) ∧ (ascii status).length < taskLength ∧ ascii status ≠ [] := by
  rcases hone with rfl | rfl
  · exact ⟨replyWord_short (by decide +kernel) (by decide +kernel), by decide +kernel, by decide +kernel⟩
  · exact ⟨replyWord_short (by decide +kernel) (by decide +kernel), by decide +kernel, by decide +kernel⟩

/-- The first reply on a connection is read, whatever follows it. -/
theorem decodeReply_update {s : Server} {ctx : ClientCtx} (hid : Counted ctx.clientId)
    (hno : ctx.req.reqNo.toNat < 2 ^ 31) (hup : isUpdate ctx.req.msgType = true) {msg : String}
    (hmsg : msg ∈ replyMsgs) {status : String} (hone : status = "OK" ∨ status = "FAIL") (rest : Bytes)
    {response : MessageResponse} (hstate : response.state = .unknownState)
    (hkey : ctx.req.msgType = .msgRemove → response.hashKey = 0) :
    decodeReply (replyText s ctx (ascii status) (ascii msg) ++ rest) response =
      .ok (0, repliedWith ctx status) := by
  obtain ⟨hword, hlen, hne⟩ := status_stated hone
  have hhead (more : Bytes) := decodeReply_head hid hno hmsg hword more response
  simp only [if_pos hlen, if_neg hne] at hhead
  obtain ⟨oldKey, oldId, oldStatus, oldNo, oldState⟩ := response
  dsimp only at hstate hkey
  subst hstate
  rcases isUpdate_cases hup with htype | htype
  · obtain ⟨hdigits, hshort⟩ := replyWord_decimal (n := ctx.req.hashKey.toNat) (k := 20) (by decide)
      (by decide) (ctx.req.hashKey.toNat_lt.trans (by decide))
    have htext : replyText s ctx (ascii status) (ascii msg) ++ rest =
        (replyHead ctx (ascii status) (ascii msg)).flatMap fieldLine ++
          (fieldLine (ReplyKey.key.text, decimal ctx.req.hashKey.toNat) ++ (ascii "\r\n" ++ rest)) := by
      unfold replyText
      rw [htype]
      simp [headerText, ReplyKey.text]
    rw [htext, hhead, decodeReply_word .key hdigits, if_pos hshort]
    simp only [setReplyField, fieldWord_getD, decimal_ne_nil, if_false,
      strtoull_decimal _ ctx.req.hashKey.toNat_lt, UInt64.ofNat_toNat]
    rw [decodeReply_end, repliedWith, if_pos htype]
  · have htext : replyText s ctx (ascii status) (ascii msg) ++ rest =
        (replyHead ctx (ascii status) (ascii msg)).flatMap fieldLine ++ (ascii "\r\n" ++ rest) := by
      unfold replyText
      rw [htype]
      simp [headerText]
    have hadd : ctx.req.msgType ≠ .msgAdd := by
      rw [htype]
      decide
    rw [htext, hhead, decodeReply_end, repliedWith, if_neg hadd, ← hkey htype]

/-! ### A request on one replica -/

def keyed (env : Env) (ctx : ClientCtx) : ClientCtx :=
  if ctx.req.msgType = .msgAdd then { ctx with req := { ctx.req with hashKey := requestKey env ctx.req } }
  else ctx

theorem handleStorage_keyed (env : Env) (s : Store) (ctx : ClientCtx)
    (hup : isUpdate ctx.req.msgType = true) (hex : Executable ctx.req) :
    ∃ c ret u, requestCall env ctx.req = some c ∧ handleStorage env s ctx = .ok (ret, u, keyed env ctx) ∧
      Refines s.htable c ret u.htable := by
  rcases isUpdate_cases hup with hadd | hrem
  · have hlen := hex hadd
    have hkey : generateKey env ctx.req.task ctx.clientId ctx.req.taskLen =
        .ok (requestKey env ctx.req) := generateKey_eq_ok.mpr ⟨hlen, rfl⟩
    have hb : (Call.insert (requestKey env ctx.req) ctx.req.task.toList ctx.req.taskLen).InBounds := by
      simp only [taskLength] at hlen
      refine Or.inr ⟨by simp only [maxDataLen]; omega, ?_⟩
      rw [List.Vector.toList_length]
      simp only [taskLength]
      omega
    obtain ⟨ret, t, hrun, hrefines⟩ := run_call_refines env s.htable _ hb
    refine ⟨_, ret, { s with htable := t }, by rw [requestCall, hadd], ?_, hrefines⟩
    rw [handleStorage_add env s ctx hadd hkey hrun, keyed, if_pos hadd]
  · refine ⟨.delete ctx.req.hashKey, _, { s with htable := (hashTableDelete s.htable ctx.req.hashKey).2 },
      by rw [requestCall, hrem], ?_, delete_refines s.htable ctx.req.hashKey⟩
    have hadd : ctx.req.msgType ≠ .msgAdd := by
      rw [hrem]
      decide
    unfold handleStorage
    rw [keyed, if_neg hadd]
    simp only [hrem]

/-- What `execute_msg` does outside the process when `handle_storage` has
returned `ret`. -/
def answerEffects (s : Server) (ctx ctx' : ClientCtx) (ret : ℤ) : List Effect :=
  .exec ctx :: (if ret ≠ 0 then [writeClientResponce s ctx' "FAIL" "Check inputs"] else []) ++
    [writeClientResponce s ctx' "OK" "Success"] ++ closeFd ctx'

/-- A server that executes a request as soon as it has it. -/
structure Ready (s : Server) : Prop where
  prune : s.isPrune = false
  log : s.nrl = []
  limit : 0 < s.nrlQLimit
  awake : isPassiveBackup s = false
  settled : s.state ≠ .activeRecover ∧ s.state ≠ .quiesce ∧ s.state ≠ .passivePreprimary
  named : s.state.named = true

theorem Idle.ready {s : Server} (h : Idle s) : Ready s :=
  ⟨h.prune, h.log, by rw [h.limit]; decide, by simp [isPassiveBackup, h.mode], by simp [h.state],
    by rw [h.state]; rfl⟩

/-- An update that finds room is logged and its connection kept open. -/
theorem update_received {s : Server} {ctx : ClientCtx} (hup : ClientUpdate ctx.req)
    (hroom : s.nrl.length < s.nrlQLimit) (hopen : s.state ≠ .activeRecover) (rand : ℕ) :
    handleConnection s rand ctx =
      .ok ({ s with nrl := s.nrl ++ [{ ctx with isBacklog := isPassiveBackup s }] }, []) := by
  have hpark : parkPayload s rand ctx = (s, ctx) := by rw [parkPayload, if_pos hup.2]
  have hlog : enqueueClientReq s ctx =
      (0, { s with nrl := s.nrl ++ [{ ctx with isBacklog := isPassiveBackup s }] }) := by
    have hfull : ¬s.nrlQLimit ≤ s.nrl.length := not_le.mpr hroom
    rcases isUpdate_cases hup.1 with htype | htype
    · simp [enqueueClientReq, isControl, enqueue, htype, hfull]
    · simp [enqueueClientReq, isControl, enqueue, htype, hfull]
  unfold handleConnection
  rw [hpark]
  dsimp only
  rw [hlog]
  rcases isUpdate_cases hup.1 with htype | htype
  · simp [htype, isQuiesceCommand, earlyClose, hopen]
  · simp [htype, isQuiesceCommand, earlyClose, hopen]

/-- A server that is ready receives the request and executes it; what it writes
is the reply to the request. -/
theorem ready_answers {env : Env} {s : Server} {ctx : ClientCtx} (h : Ready s) (hup : ClientUpdate ctx.req)
    (hex : Executable ctx.req) (rand : ℕ) :
    ∃ c ret u store, requestCall env ctx.req = some c ∧ handleConnection s rand ctx = .ok (u, []) ∧
      runNormal env u = .ok ({ s with store := store }, answerEffects { s with store := store }
        { ctx with isBacklog := false } (keyed env { ctx with isBacklog := false }) ret) ∧
      cells store.htable = step tableMachine (cells s.store.htable) c ∧
      ret = (tableMachine.act c (cells s.store.htable (tableMachine.key c))).2 ∧
      handleStorage env s.store { ctx with isBacklog := false } =
        .ok (ret, store, keyed env { ctx with isBacklog := false }) := by
  have hconn := update_received hup (by rw [h.log]; exact h.limit) h.settled.1 rand
  rw [h.log, h.awake, List.nil_append] at hconn
  obtain ⟨c, ret, u, hcall, hstorage, hrefines⟩ :=
    handleStorage_keyed env s.store { ctx with isBacklog := false } hup.1 hex
  have hempty : ({ s with nrl := [] } : Server) = s := by
    obtain ⟨_, _, _, _, _, _, _, _, _, _, _, _, _, _⟩ := s
    have hlog := h.log
    dsimp only at hlog
    subst hlog
    rfl
  have hexec : executeMsg env s { ctx with isBacklog := false } = .ok ({ s with store := u },
      answerEffects { s with store := u } { ctx with isBacklog := false }
        (keyed env { ctx with isBacklog := false }) ret) := by
    unfold executeMsg
    dsimp only
    rw [if_neg fun hp => h.settled.2.2 hp.2.1]
    dsimp only
    rw [hstorage]
    rfl
  have hturn : runNormal env { s with nrl := [{ ctx with isBacklog := false }] } =
      executeMsg env { s with nrl := [] } { ctx with isBacklog := false } := by
    have hawake : isPassiveBackup { s with nrl := [{ ctx with isBacklog := false }] } = false := h.awake
    rw [runNormal_of_no_prune (s := { s with nrl := [{ ctx with isBacklog := false }] }) h.prune]
    simp [normalTurn, hawake, h.settled.2.1]
  rw [hempty, hexec] at hturn
  exact ⟨c, ret, _, u, hcall, hconn, hturn, hrefines.cells, hrefines.result, hstorage⟩

/-! ### A command on every replica -/

/-- What a session keeps of a replica: it is idle and its table is the list. -/
structure Site.Keeps (sha1 : Bytes → Option UInt64) (q : Cells) (site : Site) : Prop where
  env : site.env.sha1 = sha1
  idle : Idle site.server
  cells : cells site.server.store.htable = q

def answerTo (q : Cells) (c : Call) : ℤ := (tableMachine.act c (q (tableMachine.key c))).2

theorem machine_congr {c d : Call} (hkey : c.key = d.key) (hact : queueAct c = queueAct d) (q : Cells) :
    step tableMachine q c = step tableMachine q d ∧ answerTo q c = answerTo q d := by
  unfold step answerTo
  simp only [tableMachine, hkey, hact, and_self]

theorem keyed_frame (env : Env) (ctx : ClientCtx) : (keyed env ctx).fd = ctx.fd ∧
    (keyed env ctx).conn = ctx.conn ∧ (keyed env ctx).clientId = ctx.clientId ∧
    (keyed env ctx).req.reqNo = ctx.req.reqNo ∧ (keyed env ctx).req.msgType = ctx.req.msgType := by
  unfold keyed
  split
  · exact ⟨rfl, rfl, rfl, rfl, rfl⟩
  · exact ⟨rfl, rfl, rfl, rfl, rfl⟩

theorem repliesTo_conn {ctx ctx' : ClientCtx} (hfd : ctx'.fd = ctx.fd) (hconn : ctx'.conn = ctx.conn)
    (effs : List Effect) : repliesTo ctx' effs = repliesTo ctx effs := by
  unfold repliesTo
  rw [hfd, hconn]

theorem answered_bytes {s : Server} (hstate : s.state.named = true) {ctx : ClientCtx}
    (hid : Counted ctx.clientId) (ret : ℤ) :
    ∃ msg ∈ replyMsgs, ∃ rest, ((if ret ≠ 0 then [respBytes s ctx "FAIL" "Check inputs"] else []) ++
        [respBytes s ctx "OK" "Success"]).flatMap sentReply =
      replyText s ctx (ascii (if ret = 0 then "OK" else "FAIL")) (ascii msg) ++ rest := by
  have hsent {status msg : String} (hone : status = "OK" ∨ status = "FAIL") (hmsg : msg ∈ replyMsgs) :
      sentReply (respBytes s ctx status msg) = replyText s ctx (ascii status) (ascii msg) := by
    rw [respBytes_eq]
    exact sentReply_room (replyText_room hstate hid hmsg (status_stated hone).2.1)
  have hok := hsent (Or.inl rfl) (by decide : "Success" ∈ replyMsgs)
  by_cases hret : ret = 0
  · refine ⟨"Success", by decide, [], ?_⟩
    rw [if_neg (not_not.mpr hret), if_pos hret, List.nil_append, List.flatMap_singleton, hok, List.append_nil]
  · refine ⟨"Check inputs", by decide, replyText s ctx (ascii "OK") (ascii "Success"), ?_⟩
    rw [if_pos hret, if_neg hret, List.singleton_append, List.flatMap_cons, List.flatMap_singleton, hok,
      hsent (Or.inr rfl) (by decide)]

/-- The client has the first reply from a connection that has been answered. -/
theorem answered_gives {k : Contact} (hout : IsCut k.toClient) (hfd : 0 ≤ k.fd) {t : Server}
    (hstate : t.state.named = true) (ctx : ClientCtx) {ctx' : ClientCtx} (hctx : ctx.fd = k.fd ∧ ctx.conn = k.conn)
    (hctx' : ctx'.fd = ctx.fd ∧ ctx'.conn = ctx.conn) (hid : Counted ctx'.clientId)
    (hno : ctx'.req.reqNo.toNat < 2 ^ 31) (hup : isUpdate ctx'.req.msgType = true) (ret : ℤ) :
    (Conn.connected k.clientFd (replyOn k (answerEffects t ctx ctx' ret))).Gives
      (repliedWith ctx' (if ret = 0 then "OK" else "FAIL")) := by
  have hclose : closeFd ctx' = [.close k.fd k.conn] := by
    unfold closeFd
    rw [hctx'.1, hctx'.2, hctx.1, hctx.2, if_pos hfd]
  have hany : (answerEffects t ctx ctx' ret).any (isClose k) = true := by
    unfold answerEffects
    rw [hclose, List.any_append, List.any_cons]
    simp [isClose]
  have hreplies : repliesTo k.ctx (answerEffects t ctx ctx' ret) =
      (if ret ≠ 0 then [respBytes t ctx' "FAIL" "Check inputs"] else []) ++
        [respBytes t ctx' "OK" "Success"] :=
    (repliesTo_conn hctx.1.symm hctx.2.symm _).trans (repliesTo_executed hctx'.1 hctx'.2 ret)
  obtain ⟨msg, hmsg, more, hbytes⟩ := answered_bytes hstate hid ret
  have hone : (if ret = 0 then "OK" else "FAIL") = "OK" ∨ (if ret = 0 then "OK" else "FAIL") = "FAIL" := by
    by_cases hzero : ret = 0
    · exact Or.inl (if_pos hzero)
    · exact Or.inr (if_neg hzero)
  obtain ⟨hclean, hcontent⟩ :=
    hout (replyText t ctx' (ascii (if ret = 0 then "OK" else "FAIL")) (ascii msg) ++ more)
  have hread (response : MessageResponse) := getResponse_eq hclean response
  rw [hcontent] at hread
  rw [replyOn, if_pos hany, hreplies, hbytes]
  refine ⟨(hread _).trans (decodeReply_update hid hno hup hmsg hone more rfl fun _ => rfl),
    (hread _).trans (decodeReply_update hid hno hup hmsg hone more rfl fun htype => ?_)⟩
  have hadd : ctx'.req.msgType ≠ .msgAdd := by
    rw [htype]
    decide
  unfold repliedWith
  dsimp only
  rw [if_neg hadd]

section
variable {sha1 : Bytes → Option UInt64} {requestNo clientId : ℤ} {cmd : Command}

theorem ReadAs.repliedWith_keyed {k : Contact} {ctx : ClientCtx}
    (h : ReadAs sha1 requestNo clientId cmd k ctx) {env : Env} (henv : env.sha1 = sha1) (ret : ℤ) :
    repliedWith (keyed env { ctx with isBacklog := false }) (if ret = 0 then "OK" else "FAIL") =
      (shownFor clientId requestNo (cmd.call sha1, ret)).response := by
  have hkeyOf : (if (keyed env { ctx with isBacklog := false }).req.msgType = .msgAdd then
      (keyed env { ctx with isBacklog := false }).req.hashKey else 0) = replyKeyOf (cmd.call sha1) := by
    rcases isUpdate_cases h.update.1 with htype | htype
    · rw [keyed, if_pos htype, if_pos htype]
      exact h.key env henv htype
    · have hadd : ctx.req.msgType ≠ .msgAdd := by
        rw [htype]
        decide
      rw [keyed, if_neg hadd, if_neg hadd]
      exact (h.noKey htype).symm
  obtain ⟨-, -, hid, hno, -⟩ := keyed_frame env { ctx with isBacklog := false }
  unfold repliedWith shownFor
  dsimp only
  rw [hkeyOf, hno, hid]
  dsimp only
  rw [h.clientId, h.reqNo]

variable (hno : Counted requestNo) (hid : Counted clientId) (h : cmd.Enterable) {buf : Bytes}
  (hbuf : cmd.request requestNo clientId = .ok buf) {q : Cells}
include hno hid h hbuf

/-- A replica that is ready executes the command on its table, and the client has
from it what the list answers. -/
theorem serveSite_ready {k : Contact} (hin : IsCut k.toServer) (hout : IsCut k.toClient) (hfd : 0 ≤ k.fd)
    {site : Site} (henv : site.env.sha1 = sha1) (hready : Ready site.server)
    (hcells : cells site.server.store.htable = q) :
    ∃ ctx ret ctx' store reply, ReadAs sha1 requestNo clientId cmd k ctx ∧
      serveSite k site buf = .ok (⟨site.env, { site.server with store := store }⟩, .connected k.clientFd reply) ∧
      cells store.htable = step tableMachine q (cmd.call sha1) ∧
      handleStorage site.env site.server.store { ctx with isBacklog := false } = .ok (ret, store, ctx') ∧
      (Conn.connected k.clientFd reply).Gives
        (shownFor clientId requestNo (cmd.call sha1, answerTo q (cmd.call sha1))).response := by
  obtain ⟨buf', hbuf', ctx, rest, hloop, hread⟩ := @command_read sha1 requestNo clientId hno hid cmd h k hin
  rw [hbuf] at hbuf'
  cases hbuf'
  obtain ⟨c, ret, u, store, hcall, hconn, hrun, hstep, hret, hstorage⟩ :=
    @ready_answers site.env site.server ctx hready hread.update hread.executable k.rand
  obtain ⟨c', hcall', hkey, hact⟩ := hread.call site.env henv
  rw [hcall] at hcall'
  cases hcall'
  obtain ⟨hsame, hanswer⟩ := machine_congr hkey hact q
  rw [hcells] at hstep hret
  rw [hsame] at hstep
  have hret' : ret = answerTo q (cmd.call sha1) := by
    rw [← hanswer]
    exact hret
  have hempty : (⟨[], ctx.req.payload.size⟩ : Payload) = ctx.req.payload := by rw [hread.payload]
  have hserve : serveRequest k site buf = .ok ({ site.server with store := store },
      answerEffects { site.server with store := store } { ctx with isBacklog := false }
        (keyed site.env { ctx with isBacklog := false }) ret) := by
    unfold serveRequest
    rw [hloop]
    dsimp only
    rw [readPayload, if_neg (not_not.mpr hread.update.2)]
    dsimp only
    rw [hempty, hconn]
    dsimp only
    rw [hrun]
    rfl
  obtain ⟨hkfd, hkconn, hkid, hkno, hktype⟩ := keyed_frame site.env { ctx with isBacklog := false }
  have hgives := answered_gives hout hfd (t := { site.server with store := store }) hready.named
    { ctx with isBacklog := false }
    ⟨hread.fd, hread.conn⟩ ⟨hkfd, hkconn⟩ (by rw [hkid, hread.clientId]; exact hid) (by
      have hlt := hno.2
      have hreq := hread.reqNo
      rw [hkno]
      dsimp only
      omega) (by rw [hktype]; exact hread.update.1) ret
  rw [hread.repliedWith_keyed henv, hret'] at hgives
  refine ⟨ctx, ret, _, store, _, hread, ?_, hstep, hstorage, hgives⟩
  unfold serveSite
  rw [hserve, hret']

theorem serveSite_answers {k : Contact} (hin : IsCut k.toServer) (hout : IsCut k.toClient)
    (hfd : 0 ≤ k.fd) {site : Site} (hsite : site.Keeps sha1 q) :
    ∃ site' reply, serveSite k site buf = .ok (site', .connected k.clientFd reply) ∧
      site'.Keeps sha1 (step tableMachine q (cmd.call sha1)) ∧
      (Conn.connected k.clientFd reply).Gives
        (shownFor clientId requestNo (cmd.call sha1, answerTo q (cmd.call sha1))).response := by
  obtain ⟨-, -, -, store, reply, -, hserve, hcells, -, hgives⟩ :=
    serveSite_ready hno hid h hbuf hin hout hfd hsite.env hsite.idle.ready hsite.cells
  have hidle := hsite.idle
  exact ⟨_, reply, hserve, ⟨hsite.env, ⟨hidle.mode, hidle.state, hidle.prune, hidle.log, hidle.limit⟩, hcells⟩,
    hgives⟩

theorem serveEach_answers {contact : ℕ → Contact}
    (hcut : ∀ i, IsCut (contact i).toServer ∧ IsCut (contact i).toClient) (hfd : ∀ i, 0 ≤ (contact i).fd)
    (sites : List Site) (hsites : ∀ site ∈ sites, site.Keeps sha1 q) (i : ℕ) :
    ∃ sites' conns, serveEach contact i sites buf = .ok (sites', conns) ∧
      (∀ site ∈ sites', site.Keeps sha1 (step tableMachine q (cmd.call sha1))) ∧
      (∀ conn ∈ conns, conn.Gives
        (shownFor clientId requestNo (cmd.call sha1, answerTo q (cmd.call sha1))).response) ∧
      sites'.length = sites.length ∧ conns.length = sites.length ∧ refusedFds conns = [] ∧
      connectedFds conns = (List.range' i sites.length).map fun j => (contact j).clientFd := by
  induction sites generalizing i with
  | nil => exact ⟨[], [], rfl, by simp, by simp, rfl, rfl, rfl, rfl⟩
  | cons site sites ih =>
    obtain ⟨site', reply, hserve, hkeeps, hgives⟩ := serveSite_answers hno hid h hbuf (hcut i).1 (hcut i).2
      (hfd i) (hsites site (List.mem_cons_self ..))
    obtain ⟨sites', conns, hrest, hkeep, hgive, hlen, hlen', hrefused, hconnected⟩ :=
      ih (fun s hs => hsites s (List.mem_cons_of_mem _ hs)) (i + 1)
    refine ⟨site' :: sites', _ :: conns, ?_, List.forall_mem_cons.mpr ⟨hkeeps, hkeep⟩,
      List.forall_mem_cons.mpr ⟨hgives, hgive⟩, by rw [List.length_cons, hlen, List.length_cons],
      by rw [List.length_cons, hlen', List.length_cons], hrefused, ?_⟩
    · rw [serveEach, hserve]
      dsimp only
      rw [hrest]
    · rw [List.length_cons, List.range'_succ, List.map_cons, ← hconnected]
      rfl

omit hno hid h hbuf in
theorem freshFds_of_contacts {contact : ℕ → Contact} (hfresh : Function.Injective fun i => (contact i).clientFd)
    (hpos : ∀ i, 0 < (contact i).clientFd) {conns : List Conn} (hrefused : refusedFds conns = []) {i n : ℕ}
    (hconnected : connectedFds conns = (List.range' i n).map fun j => (contact j).clientFd) :
    FreshFds conns := by
  refine ⟨?_, fun fd hfd => ?_⟩
  · rw [hrefused, List.append_nil, hconnected]
    exact (List.nodup_range' ..).map hfresh
  · rw [hrefused, List.append_nil, hconnected] at hfd
    obtain ⟨j, -, rfl⟩ := List.mem_map.mp hfd
    exact hpos j

end

/-! ### The session -/

/-- The client has counted every reply, and all replicas have the list `q`. -/
structure InSession (sha1 : Bytes → Option UInt64) (count : ℕ) (q : Cells) (c : Client Sites) : Prop where
  responseNo : c.responseNo = c.requestNo
  clientId : Counted c.clientId
  sites : ∀ site ∈ c.world.sites, site.Keeps sha1 q
  count : c.world.sites.length = count

theorem shownFor_status (clientId requestNo : ℤ) (answer : Call × ℤ) :
    (if 0 ≤ parseResponseFromServer (shownFor clientId requestNo answer).response clientId then (0 : ℤ) else -1) =
      (shownFor clientId requestNo answer).status := by
  unfold shownFor
  by_cases hret : answer.2 = 0
  · rw [if_pos hret, if_pos hret, parse_ok rfl rfl]
    rfl
  · rw [if_neg hret, if_neg hret, parse_fail rfl rfl]
    rfl

section
variable {sha1 : Bytes → Option UInt64} {count : ℕ} (hcount : 0 < count) {net : ℕ → Round}
  (hnet : ∀ n, (net n).Fair count)
include hcount hnet

/-- One command: every replica executes it, the client is shown the answer of the
list, and the session goes on. -/
theorem InSession.command {q : Cells} {c : Client Sites} (hc : InSession sha1 count q c) {cmd : Command}
    (h : cmd.Enterable) (hno : Counted (c.requestNo + 1)) (stdin : Bytes) :
    ∃ c', sendRequest (askSites net) { c with stdin := stdin, requestNo := c.requestNo + 1 }
        (cmd.request (c.requestNo + 1) c.clientId) = .ok c' ∧
      InSession sha1 count (step tableMachine q (cmd.call sha1)) c' ∧ c'.stdin = stdin ∧
      c'.clientId = c.clientId ∧ c'.requestNo = c.requestNo + 1 ∧
      c'.shown = c.shown ++
        [shownFor c.clientId (c.requestNo + 1) (cmd.call sha1, answerTo q (cmd.call sha1))] := by
  have hfair := hnet c.world.round
  have hbuf : ∃ buf, cmd.request (c.requestNo + 1) c.clientId = .ok buf := by
    obtain ⟨buf, hbuf, -⟩ := @command_read sha1 _ _ hno hc.clientId cmd h _ (hfair.cut 0).1
    exact ⟨buf, hbuf⟩
  obtain ⟨buf, hbuf⟩ := hbuf
  obtain ⟨sites', conns, hserve, hkeep, hgive, hlen, hlen', hrefused, hconnected⟩ :=
    serveEach_answers hno hc.clientId h hbuf hfair.cut hfair.accepted c.world.sites hc.sites 0
  have hne : conns ≠ [] := by
    intro hnil
    rw [hnil, List.length_nil, hc.count] at hlen'
    omega
  have hreports : ∀ j < conns.length, ∃ report ∈ (net c.world.round).reports, report j = true := by
    intro j hj
    exact hfair.reported j (by rw [hlen', hc.count] at hj; exact hj)
  obtain ⟨p, hsend, hresponse, hresponseNo⟩ := sendAndGetResponse_alike
    (freshFds_of_contacts hfair.fresh hfair.pos hrefused hconnected) (fun c hc => Or.inl (hgive c hc)) rfl
    hgive hne hreports (congrArg (· + 1) hc.responseNo)
  refine ⟨{ c with
    stdin := stdin
    requestNo := c.requestNo + 1
    responseNo := p.responseNo
    world := ⟨sites', c.world.round + 1⟩
    shown := c.shown ++
      [shownFor c.clientId (c.requestNo + 1) (cmd.call sha1, answerTo q (cmd.call sha1))] }, ?_,
    ⟨hresponseNo, hc.clientId, hkeep, hlen.trans hc.count⟩, rfl, rfl, rfl, rfl⟩
  have hask : askSites net c.world buf =
      .ok (⟨sites', c.world.round + 1⟩, ⟨conns, (net c.world.round).reports⟩) := by
    unfold askSites
    rw [hserve]
  unfold sendRequest
  rw [hbuf]
  dsimp only
  rw [hask]
  dsimp only
  rw [hsend, shownFor_status]
  dsimp only
  rw [hresponse]

/-- A whole session at the menu, in active mode: the requests number themselves,
all replicas hold what the commands make of the list, and the user is shown the
answers of the list in order, also when a replica fails to have a key. -/
theorem session_keeps_list (stack : MessageModify) {q : Cells} {c : Client Sites}
    (hc : InSession sha1 count q c) (cmds : List Command) (hcmds : ∀ cmd ∈ cmds, cmd.Enterable)
    (hlow : 0 ≤ c.requestNo) (hhigh : c.requestNo + cmds.length < 2 ^ 31) (rest : Bytes)
    (hstdin : c.stdin = cmds.flatMap Command.typed ++ (typedQuit ++ rest)) :
    ∃ c', clientMain (askSites net) stack (cmds.length + 1) c = .ok c' ∧ c'.stdin = rest ∧
      InSession sha1 count (run tableMachine q (cmds.map (Command.call sha1))) c' ∧
      c'.requestNo = c.requestNo + cmds.length ∧
      c'.shown = c.shown ++
        shownFrom c.clientId c.requestNo (log tableMachine q (cmds.map (Command.call sha1))) := by
  induction cmds generalizing q c with
  | nil =>
    rw [clientMain, menuTurn_quit (askSites net) stack c rest hstdin]
    exact ⟨_, rfl, rfl, ⟨hc.responseNo, hc.clientId, hc.sites, hc.count⟩, (add_zero _).symm,
      (List.append_nil _).symm⟩
  | cons cmd cmds ih =>
    rw [List.length_cons, Nat.cast_add, Nat.cast_one] at hhigh
    have henter := hcmds cmd (List.mem_cons_self ..)
    rw [List.flatMap_cons, List.append_assoc] at hstdin
    have hno : Counted (c.requestNo + 1) := ⟨by omega, by omega⟩
    obtain ⟨d, hsend, hd, hdin, hdid, hdno, hdshown⟩ := hc.command hcount hnet henter hno
      (cmds.flatMap Command.typed ++ (typedQuit ++ rest))
    obtain ⟨c', hmain, hrest, hc', hno', hshown⟩ := ih hd (fun x hx => hcmds x (List.mem_cons_of_mem _ hx))
      (by omega) (by omega) hdin
    refine ⟨c', ?_, hrest, hc', ?_, ?_⟩
    · exact (clientMain_typed (askSites net) stack henter _ c hstdin hsend (cmds.length + 1)).trans hmain
    · rw [hno', hdno, List.length_cons, Nat.cast_add, Nat.cast_one]
      omega
    · rw [hshown, hdshown, hdid, hdno, List.append_assoc]
      rfl

end

def twoSites : List Site :=
  [⟨lengthEnv, { serverId := 1, repMode := .activeRep, state := .activeRunning }⟩,
    ⟨{ lengthEnv with fresh := fun n => ⟨strncpy maxDataLen (decimal n), .taskDone⟩ },
      { serverId := 2, repMode := .activeRep, state := .activeRunning }⟩]

def secondFirst (_ : ℕ) : Round where
  contact i := ⟨i + 4, 7, i, 0, byByte, byByte⟩
  reports := [fun i => i = 1, fun _ => true]

theorem secondFirst_fair (n count : ℕ) : (secondFirst n).Fair count :=
  ⟨fun _ => ⟨isCut_byByte, isCut_byByte⟩, fun i j hij => by simpa [secondFirst] using hij,
    fun i => by simp only [secondFirst]; omega, fun _ => by simp only [secondFirst]; omega,
    fun _ _ => ⟨fun _ => true, by simp [secondFirst], rfl⟩⟩

/-- The key of a text is its length and the five bytes behind it. -/
def milkCommands : List Command := [.add (ascii "milk") (ascii "today"), .remove 9, .remove 9]

theorem milkCommands_enterable : ∀ cmd ∈ milkCommands, cmd.Enterable := by
  simp only [milkCommands, List.forall_mem_cons, List.not_mem_nil, false_imp_iff, implies_true, and_true]
  exact ⟨⟨⟨by unfold Typeable; decide +kernel, by decide +kernel, by unfold Typeable; decide +kernel,
    by decide +kernel, Or.inl rfl⟩, by decide +kernel, by decide +kernel, by decide +kernel⟩, trivial, trivial⟩

def milkClient : Client Sites where
  stdin := milkCommands.flatMap Command.typed ++ typedQuit
  clientId := 3
  world := ⟨twoSites, 0⟩

theorem session_keeps_list_milk :
    ∃ c', clientMain (askSites secondFirst) ⟨[], [], [], .taskDone, 5⟩ 4 milkClient = .ok c' ∧
      c'.shown.map (fun s => (s.status, s.response.hashKey)) = [(0, 9), (0, 0), (-1, 0)] ∧
      ∀ site ∈ c'.world.sites, entriesOf site.server.store.htable 9 = [] := by
  have hidle (id : ℤ) : Idle { serverId := id, repMode := .activeRep, state := .activeRunning } :=
    ⟨rfl, rfl, rfl, rfl, rfl⟩
  have hsession : InSession lengthEnv.sha1 2 (cells (hashTableInit 0)) milkClient := by
    refine ⟨rfl, by decide, ?_, rfl⟩
    simp only [milkClient, twoSites, List.forall_mem_cons, List.not_mem_nil, false_imp_iff, implies_true,
      and_true]
    exact ⟨⟨rfl, hidle 1, rfl⟩, rfl, hidle 2, rfl⟩
  obtain ⟨c', hmain, -, hc', -, hshown⟩ := session_keeps_list (by decide)
    (fun n => secondFirst_fair n 2) ⟨[], [], [], .taskDone, 5⟩ hsession milkCommands milkCommands_enterable
    (by decide) (by decide) [] rfl
  refine ⟨c', hmain, ?_, fun site hsite => ?_⟩
  · rw [hshown]
    decide +kernel
  · have hcells := (hc'.sites site hsite).cells
    have hlast : run tableMachine (cells (hashTableInit 0)) (milkCommands.map (Command.call lengthEnv.sha1))
        (hashFunc 9, 9) = [] := by decide +kernel
    rw [← hcells] at hlast
    exact hlast

end ToDoList
