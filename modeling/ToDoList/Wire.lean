import ToDoList.Heartbeat
import ToDoList.Informing
import ToDoList.Payload
import ToDoList.Startups

/-!
# The cluster on the wire

Reports, orders and commands wait as the bytes their senders have written, and
each receiver parses what the network delivers of them: in any pieces, over any
contents of the buffers and locals that nothing clears. `Cluster` keeps the
messages themselves. The two run alike.
-/

namespace ToDoList
open CLib StepRun

/-- How the network delivers what is written on a connection. -/
structure Link where
  cut : Bytes → List ReadResult
  isCut : IsCut cut

/-! ### What is written -/

/-- `restart_server` does not clear its buffer; the other senders of
replication_manager.c do. -/
def sendOrder (stack : CArray maxLength) (r : Replica) : FactoryMsg → Except Fault Bytes
  | .startup server => printOver stack (headerText (orderFields r (.startup server)))
  | msg => orderBuf r msg

/-- The orders of one call, printed whether or not the connection is there. -/
def postAll (stack : ℕ → CArray maxLength) :
    List Sent → (Replica → List Bytes) → Except Fault (Replica → List Bytes)
  | [], queues => .ok queues
  | s :: sent, queues =>
    match sendOrder (stack sent.length) s.replica s.msg with
    | .error f => .error f
    | .ok order => postAll stack sent
        (if s.ok then Function.update queues s.replica (queues s.replica ++ [order]) else queues)

/-- The calls of `inform_rep_manager` in one turn of `heartbeat_signal`. -/
def informAll (stack : ℕ → CArray maxLength) : List Report → Except Fault (List Bytes)
  | [] => .ok []
  | report :: reports =>
    match informRepManager (stack reports.length) report with
    | .error f => .error f
    | .ok buf => (informAll stack reports).map (buf :: ·)

def heartbeatFields (count : ℕ) : List (RequestKey × Bytes) :=
  [(.clientId, decimalInt 0), (.requestNo, decimalInt count),
    (.messageType, decimalInt MsgType.msgHeartbeat.toInt)]

/-- The buffer is cleared once, and then holds the last heartbeat. -/
def createHeartbeatMessageToServer (stack : CArray maxLength) (count : ℕ) : Except Fault Bytes :=
  printOver stack (headerText ((heartbeatFields count).map RequestKey.pair))

/-! ### Steps -/

structure WireCluster where
  mgr : Manager
  detector : Replica → Detector := fun _ => {}
  toMgr : Replica → List Bytes := fun _ => []
  toFactory : Replica → List Bytes := fun _ => []
  toServer : Replica → List Bytes := fun _ => []
  server : Replica → Option Server := fun _ => none

/-- The events of `Cluster`, with what the buffers and locals hold and what the
network does; `there` and `back` are the two ways of a heartbeat's connection. -/
inductive WireEvent where
  | connect (i : Replica) (stack : ℕ → CArray maxLength)
  | heartbeat (i : Replica) (stack : ℕ → CArray maxLength) (buf : CArray maxLength) (there back : Link)
  | report (i : Replica) (net : ℕ → Bool) (ctx : ReplicationManagerMessage) (link : Link)
      (stack : ℕ → CArray maxLength)
  | factory (i : Replica) (message : FactoryMessage) (link : Link)
  | relayed (i : Replica) (rand : ℕ) (fd : ℤ) (conn : ℕ) (link : Link) (fuel : ℕ)
  | client (i : Replica) (rand : ℕ) (ctx : ClientCtx)
  | worker (i : Replica) (e : ServerEvent)
  | crash (i : Replica)

def WireEvent.plain : WireEvent → ClusterEvent
  | connect i _ => .connect i
  | heartbeat i .. => .heartbeat i
  | report i net .. => .report i net
  | factory i .. => .factory i
  | relayed i rand fd conn .. => .relayed i rand fd conn
  | client i rand ctx => .client i rand ctx
  | worker i e => .worker i e
  | crash i => .crash i

/-- What the server writes back on the connection of a heartbeat: the answer of
the CONTROL worker, or that of `handle_connection` when it rejects the header. -/
def heartbeatReply (s : Server) (e : HeaderEnd ClientCtx String) : Bytes :=
  match e with
  | .accepted ctx _ => sentReply (respBytes s ctx "OK" "Success")
  | e =>
    match headerReply e with
    | none => []
    | some msg => sentReply (respBytes s e.ctx "FAIL" msg)

/-- Without a server the connection breaks and nothing comes back. -/
def wireAnswer (d : Detector) (i : Replica) (buf : CArray maxLength) (there back : Link) :
    Option Server → Except Fault (Detector × List Report)
  | none => detectorReply d i []
  | some s =>
    match createHeartbeatMessageToServer buf d.heartbeatCount with
    | .error f => .error f
    | .ok text =>
      match headerLoop parseKv maxReqFields (initBufFd (there.cut text)) {} with
      | .error f => .error f
      | .ok e => detectorReply d i (back.cut (heartbeatReply s e))

/-- `handle_replication_manager_message` with its effect: a server process, or a
command for the one there is. -/
def wireCommand (w : WireCluster) (i : Replica) (message : FactoryMessage)
    (reads : List ReadResult) : Option WireCluster :=
  match headerLoop parseRepManagerKv maxReqFields (initBufFd reads) message with
  | .error _ => none
  | .ok (.accepted msg _) =>
    if msg.replicaId = i.val ∧ msg.req = .startup then
      match w.server i with
      | none => some { w with server := Function.update w.server i (some { serverId := i.val }) }
      | some _ => some w
    else
      match commandBuf i.val msg with
      | .error _ => none
      | .ok none => some w
      | .ok (some command) =>
        match w.server i with
        | none => some w
        | some _ => some { w with
            toServer := Function.update w.toServer i (w.toServer i ++ [command]) }
  | .ok _ => some w

def crashWire (w : WireCluster) (i : Replica) : WireCluster :=
  { w with
    server := Function.update w.server i none
    toServer := Function.update w.toServer i [] }

def settleWire (w : WireCluster) (i : Replica) : Except Fault (Server × List Effect) → Option WireCluster
  | .ok (s, _) => some { w with server := Function.update w.server i (some s) }
  | .error .noReturn => none
  | .error _ => some (crashWire w i)

def wireStep (env : Env) (w : WireCluster) : WireEvent → Option WireCluster
  | .connect i stack =>
    if (w.detector i).probing then none
    else
      let d := detectorConnect (w.detector i) i (w.server i).isSome
      match informAll stack d.2 with
      | .error _ => none
      | .ok bufs => some { w with
          detector := Function.update w.detector i d.1
          toMgr := Function.update w.toMgr i (w.toMgr i ++ bufs) }
  | .heartbeat i stack buf there back =>
    if (w.detector i).probing then
      match wireAnswer (w.detector i) i buf there back (w.server i) with
      | .error _ => none
      | .ok d =>
        match informAll stack d.2 with
        | .error _ => none
        | .ok bufs => some { w with
            detector := Function.update w.detector i d.1
            toMgr := Function.update w.toMgr i (w.toMgr i ++ bufs) }
    else none
  | .report i net ctx link stack =>
    match w.toMgr i with
    | [] => none
    | buf :: rest =>
      match handleFaultDetectorMessage net w.mgr ctx (link.cut buf) with
      | .error _ => none
      | .ok (_, mgr, sent) =>
        match postAll stack sent w.toFactory with
        | .error _ => none
        | .ok toFactory => some { w with
            mgr := mgr
            toMgr := Function.update w.toMgr i rest
            toFactory := toFactory }
  | .factory i message link =>
    match w.toFactory i with
    | [] => none
    | order :: rest =>
      wireCommand { w with toFactory := Function.update w.toFactory i rest } i message (link.cut order)
  | .relayed i rand fd conn link fuel =>
    match w.toServer i, w.server i with
    | command :: rest, some s =>
      let w := { w with toServer := Function.update w.toServer i rest }
      match receiveRequest fuel { fd := fd, conn := conn } (link.cut command) with
      | .error f => settleWire w i (.error f)
      | .ok none => some w
      | .ok (some ctx) => settleWire w i (handleConnection s rand ctx)
    | _, _ => none
  | .client i rand ctx =>
    match w.server i with
    | none => none
    | some s =>
      if fromClient ctx.req.msgType then settleWire w i (handleConnection s rand ctx) else none
  | .worker i e =>
    match w.server i with
    | none => none
    | some s => if isWorker e then settleWire w i (serverStep env s e) else none
  | .crash i =>
    match w.server i with
    | none => none
    | some _ => some (crashWire w i)

def initWire (mode : ManagerMode) (freq : ℤ) (server : Replica → ServerInfo) : WireCluster :=
  { mgr := initManager mode freq server }

/-! ### What the receivers make of it -/

def ReportBytes (buf : Bytes) (report : Report) : Prop :=
  ∀ (link : Link) (ctx : ReplicationManagerMessage) (net : ℕ → Bool) (m : Manager),
    handleFaultDetectorMessage net m ctx (link.cut buf) = handleState net m report

def CommandBytes (command : Bytes) (req : ClientRequest) : Prop :=
  ∀ (link : Link) (fd : ℤ) (conn fuel : ℕ),
    receiveRequest fuel { fd := fd, conn := conn } (link.cut command) =
      .ok (some { fd := fd, conn := conn, req := req })

def OrderBytes (i : Replica) (order : Bytes) (msg : FactoryMsg) : Prop :=
  ∀ (link : Link) (message : FactoryMessage), ∃ got rest,
    headerLoop parseRepManagerKv maxReqFields (initBufFd (link.cut order)) message =
        .ok (.accepted got rest) ∧
      got.replicaId = i.val ∧
      (isStartup msg = true ∧ got.req = .startup ∨
        isStartup msg = false ∧ got.req ≠ .startup ∧
          ∃ command, commandBuf i.val got = .ok (some command) ∧ CommandBytes command (relay msg))

theorem relayOrder_cases {cut cut' : Bytes → List ReadResult} {r : Replica}
    {message : FactoryMessage} {ctx ctx' : ClientCtx} {msg : FactoryMsg}
    (h : relayOrder cut cut' r message ctx msg = .ok (some ctx')) :
    ∃ order got rest command, orderBuf r msg = .ok order ∧
      headerLoop parseRepManagerKv maxReqFields (initBufFd (cut order)) message =
        .ok (.accepted got rest) ∧
      commandBuf r.val got = .ok (some command) ∧ readHeader ctx (cut' command) = .ok (some ctx') := by
  unfold relayOrder at h
  split at h
  · cases h
  · rename_i order horder
    split at h
    · cases h
    · cases h
    · rename_i command hcommand
      unfold handleReplicationManagerMessage at hcommand
      split at hcommand
      · cases hcommand
      · rename_i got rest hloop
        exact ⟨order, got, rest, command, horder, hloop, hcommand, h⟩
      · cases hcommand

theorem commandBuf_eq_some {replicaId : ℤ} {got : FactoryMessage} {command : Bytes}
    (h : commandBuf replicaId got = .ok (some command)) :
    got.replicaId = replicaId ∧ got.req ≠ .startup := by
  unfold commandBuf at h
  split at h
  · rename_i hid
    refine ⟨hid, fun hreq => ?_⟩
    simp [hreq] at h
  · cases h

theorem relay_payload (msg : FactoryMsg) : (relay msg).payload = {} := by
  cases msg <;> rfl

theorem readHeader_receive {ctx got : ClientCtx} {reads : List ReadResult}
    (h : readHeader ctx reads = .ok (some got)) (hpayload : got.req.payload = {}) (fuel : ℕ) :
    receiveRequest fuel ctx reads = .ok (some got) := by
  unfold readHeader at h
  split at h
  · cases h
  · rename_i got' rest hloop
    cases h
    have hsize : got.req.payload.size = 0 := by rw [hpayload]
    rw [receiveRequest_accepted hloop, hsize, readPayload, if_neg (by decide)]
    dsimp only
    rw [← hsize]
    have hsame : (⟨[], got.req.payload.size⟩ : Payload) = got.req.payload := by rw [hpayload]
    rw [hsame]
  · cases h

theorem isStartup_relayable {msg : FactoryMsg} (h : Relayable msg) : isStartup msg = false := by
  cases msg with
  | startup server => exact h.elim
  | _ => rfl

theorem sendOrder_relayable (stack : CArray maxLength) (r : Replica) {msg : FactoryMsg}
    (h : Relayable msg) : ∃ order, sendOrder stack r msg = .ok order ∧ OrderBytes r order msg := by
  have hway (cut cut' : Link) (message : FactoryMessage) (fd : ℤ) (conn : ℕ) :=
    relayOrder_cases (relayOrder_refines_relay cut.isCut cut'.isCut r message fd conn h)
  obtain ⟨order, -, -, -, horder, -⟩ := hway ⟨byByte, isCut_byByte⟩ ⟨byByte, isCut_byByte⟩
    ⟨0, 0, 0, .noAction, .unknownRep, 0, .unknownState, ⟨[], 0⟩, ⟨[], 0⟩⟩ 0 0
  refine ⟨order, ?_, ?_⟩
  · cases msg with
    | startup server => exact h.elim
    | _ => exact horder
  · intro link message
    obtain ⟨order', got, rest, command, horder', hloop, hcommand, -⟩ :=
      hway link ⟨byByte, isCut_byByte⟩ message 0 0
    cases horder.symm.trans horder'
    obtain ⟨hid, hreq⟩ := commandBuf_eq_some hcommand
    refine ⟨got, rest, hloop, hid, Or.inr ⟨isStartup_relayable h, hreq, command, hcommand, ?_⟩⟩
    intro link' fd conn fuel
    obtain ⟨order'', got', rest', command', horder'', hloop', hcommand', hread⟩ :=
      hway link link' message fd conn
    cases horder.symm.trans horder''
    cases hloop.symm.trans hloop'
    cases hcommand.symm.trans hcommand'
    exact readHeader_receive hread (relay_payload msg) fuel

theorem sendOrder_startup (stack : CArray maxLength) (r : Replica) {server : ServerInfo}
    (h : server.Plain) : ∃ order, sendOrder stack r (.startup server) = .ok order ∧
      OrderBytes r order (.startup server) := by
  have hreq : IsInt32 FactoryReq.startup.toInt := by decide
  have hkeys : PlainKey "Replica ID" ∧ PlainKey "Factory Req" ∧ PlainKey "Server IP" ∧
      PlainKey "Server Port" := by decide +kernel
  have hplain : ∀ f ∈ orderFields r (.startup server), PlainField f := by
    simp [orderFields, PlainField, hkeys, plainWord_decimalInt (isInt32_replica r),
      plainWord_decimalInt hreq, h.ip, plainWord_decimalInt h.port]
  have hcount : (orderFields r (.startup server)).length ≤ maxReqFields := by
    show 4 ≤ 20
    decide
  obtain ⟨rest, hprint⟩ := printOver_fields stack hplain hcount
  refine ⟨_, hprint, ?_⟩
  intro link message
  have hother (msg : FactoryMessage) (value : Bytes) :
      parseRepManagerKv msg (ascii "Server IP") value = .ok msg ∧
        parseRepManagerKv msg (ascii "Server Port") value = .ok msg := by
    have hnone : orderKey (ascii "Server IP") = none ∧ orderKey (ascii "Server Port") = none := by
      decide +kernel
    simp only [parseRepManagerKv, hnone, and_self]
  have hid (msg : FactoryMessage) (value : Bytes) :
      parseRepManagerKv msg (ascii "Replica ID") value = setOrderField msg value .replicaId :=
    parseRepManagerKv_text msg .replicaId value
  have hkind (msg : FactoryMessage) (value : Bytes) :
      parseRepManagerKv msg (ascii "Factory Req") value = setOrderField msg value .factoryReq :=
    parseRepManagerKv_text msg .factoryReq value
  have hparse : parseFields parseRepManagerKv message (orderFields r (.startup server)) =
      .ok { message with replicaId := r.val, req := .startup } := by
    simp only [orderFields, parseFields, hid, hkind, hother, setOrderField, intField,
      strToInt_decimalInt (isInt32_replica r), strToInt_decimalInt hreq]
    rfl
  obtain ⟨q, -, hloop⟩ := headerLoop_fields parseRepManagerKv (fun f hf => (hplain f hf).good)
    (delivers_cut link.isCut _) hcount hparse
  exact ⟨_, q, hloop, rfl, Or.inl ⟨rfl, rfl⟩⟩

/-! ### The orders of a call -/

/-- What the orders are filled from. -/
structure Addressed (m : Manager) : Prop where
  server : ∀ i, (m.node i).server.Plain
  freq : IsInt32 m.checkpointFreq

theorem Addressed.same {m m' : Manager} (h : Addressed m) (htable : SameTable m m') : Addressed m' := by
  refine ⟨fun i => ?_, ?_⟩
  · rw [htable.server]
    exact h.server i
  · rw [htable.freq]
    exact h.freq

section
variable {net : ℕ → Bool} {m m' : Manager} {report : Report} {ret : ℤ} {sent : List Sent}

theorem sameTable_printed (m : Manager) (report : Report) :
    SameTable m { printCurrentStateInfo m report with locked := false } := by
  unfold printCurrentStateInfo
  dsimp only
  split
  · exact ⟨rfl, rfl, fun _ => rfl⟩
  · split
    · exact ⟨rfl, rfl, fun _ => rfl⟩
    · exact ⟨rfl, rfl, fun _ => rfl⟩

theorem SameTable.trans {m m' m'' : Manager} (h : SameTable m m') (h' : SameTable m' m'') :
    SameTable m m'' :=
  ⟨h'.mode.trans h.mode, h'.freq.trans h.freq, fun i => (h'.server i).trans (h.server i)⟩

theorem handleState_sameTable (h : handleState net m report = .ok (ret, m', sent)) : SameTable m m' := by
  rw [handleState_entered net m report (handleState_free h)] at h
  have hentered : FromTable m { mgr := entered m report } :=
    ⟨sameTable_entered m report, sends_nil rfl⟩
  split at h
  · cases h
  · rename_i u hreport
    cases h
    exact (hentered.handleReport hreport).table
  · rename_i u hreport
    cases h
    exact (hentered.handleReport hreport).table.trans (sameTable_printed u.mgr report)

theorem startup_server {s : Sent} {server : ServerInfo} (h : s ∈ callAttempts net m report)
    (hmsg : s.msg = .startup server) : ∃ i, server = (m.node i).server := by
  have hstartup : isStartup s.msg = true := by rw [hmsg]; rfl
  unfold callAttempts at h
  cases hstate : report.state with
  | running =>
    rw [hstate] at h
    dsimp only at h
    split at h
    · rw [isStartup_upAttempts h] at hstartup
      cases hstartup
    · cases h
  | faulted =>
    rw [hstate] at h
    rcases List.mem_cons.mp h with rfl | hmore
    · cases hmsg
      exact ⟨_, rfl⟩
    · split at hmore
      · rw [List.mem_singleton] at hmore
        rw [hmore, isStartup_fill] at hstartup
        cases hstartup
      · cases hmore
  | sentStartupReq =>
    rw [hstate] at h
    cases h
  | other n =>
    rw [hstate] at h
    cases h

/-- Every order of a call is printed, and read by the factory as it was sent. -/
theorem sent_order (hm : m.roles.Plain) (ht : Addressed m)
    (h : handleState net m report = .ok (ret, m', sent)) {s : Sent} (hs : s ∈ sent)
    (stack : CArray maxLength) :
    ∃ order, sendOrder stack s.replica s.msg = .ok order ∧ OrderBytes s.replica order s.msg := by
  have hrole := handleState_roleOrder h s hs
  rw [handleState_sent hm h] at hs
  cases hmsg : s.msg with
  | startup server =>
    obtain ⟨i, rfl⟩ := startup_server hs hmsg
    exact sendOrder_startup stack s.replica (ht.server i)
  | changeState modeRep state backups =>
    have horder := hrole modeRep state backups hmsg
    rw [hmsg] at horder
    exact sendOrder_relayable stack s.replica (horder.relayable ht.server ht.freq)
  | sendChkpt | quiesceBegin | quiesceStop => exact sendOrder_relayable stack s.replica trivial

end

/-- The queues of a wire: what waits in each is the bytes of what waits in the
other's. -/
def QueuesOf {α : Type} (R : Replica → Bytes → α → Prop) (bytes : Replica → List Bytes)
    (queue : Replica → List α) : Prop :=
  ∀ i, List.Forall₂ (R i) (bytes i) (queue i)

theorem postAll_orders (stack : ℕ → CArray maxLength) {sent : List Sent}
    (hsent : ∀ s ∈ sent, ∀ stack, ∃ order, sendOrder stack s.replica s.msg = .ok order ∧
      OrderBytes s.replica order s.msg)
    {bytes : Replica → List Bytes} {queue : Replica → List FactoryMsg}
    (h : QueuesOf OrderBytes bytes queue) :
    ∃ bytes', postAll stack sent bytes = .ok bytes' ∧
      QueuesOf OrderBytes bytes' fun j => queue j ++ delivered sent j := by
  induction sent generalizing bytes queue with
  | nil =>
    refine ⟨bytes, rfl, ?_⟩
    simpa only [delivered, List.filter_nil, List.map_nil, List.append_nil] using h
  | cons s sent ih =>
    obtain ⟨order, hprint, horder⟩ := hsent s (List.mem_cons_self ..) (stack sent.length)
    have hrest := fun t ht => hsent t (List.mem_cons_of_mem _ ht)
    have hfirst : QueuesOf OrderBytes
        (if s.ok then Function.update bytes s.replica (bytes s.replica ++ [order]) else bytes)
        fun j => queue j ++ delivered [s] j := by
      intro j
      cases hok : s.ok with
      | false => simpa [delivered, hok] using h j
      | true =>
        by_cases hj : s.replica = j
        · subst hj
          simpa [delivered, hok] using List.rel_append (h s.replica) (.cons horder .nil)
        · simpa [delivered, hok, hj, Function.update_of_ne (Ne.symm hj)] using h j
    obtain ⟨bytes', hpost, hqueues⟩ := ih hrest hfirst
    refine ⟨bytes', ?_, ?_⟩
    · unfold postAll
      rw [hprint]
      exact hpost
    · have happend (j : Replica) : queue j ++ delivered (s :: sent) j =
          queue j ++ delivered [s] j ++ delivered sent j := by
        rw [List.append_assoc, ← delivered_append]
        rfl
      simpa only [happend] using hqueues

/-! ### Reports and heartbeats -/

theorem informAll_reports (stack : ℕ → CArray maxLength) {reports : List Report}
    (h : ∀ report ∈ reports, report.Verdict) :
    ∃ bufs, informAll stack reports = .ok bufs ∧ List.Forall₂ ReportBytes bufs reports := by
  induction reports with
  | nil => exact ⟨[], rfl, .nil⟩
  | cons report reports ih =>
    obtain ⟨buf, hprint, hbuf⟩ :=
      report_decodes (stack reports.length) report (h report (List.mem_cons_self ..))
    obtain ⟨bufs, hall, hbufs⟩ := ih fun r hr => h r (List.mem_cons_of_mem _ hr)
    refine ⟨buf :: bufs, ?_, .cons (fun link ctx net m => hbuf link.cut ctx net m link.isCut) hbufs⟩
    unfold informAll
    rw [hprint, hall]
    rfl

/-- What a detector knows of its server is one of the states of state.h, and it
has counted at most `n` heartbeats. -/
structure Detector.Fit (d : Detector) (n : ℕ) : Prop where
  serverState : d.serverState.named = true
  response : d.response.state.named = true
  count : d.heartbeatCount ≤ n

theorem detectorConnect_fit {d : Detector} {n : ℕ} (h : d.Fit n) (i : Replica) (up : Bool) :
    (detectorConnect d i up).1.Fit (n + 1) ∧ ∀ report ∈ (detectorConnect d i up).2, report.Verdict := by
  have hcount : d.heartbeatCount + 1 ≤ n + 1 := Nat.succ_le_succ h.count
  have hrunning : Report.Verdict ⟨i, .running, d.serverState⟩ := ⟨Or.inl rfl, h.serverState⟩
  have hfaulted : Report.Verdict ⟨i, .faulted, .unknownState⟩ := ⟨Or.inr rfl, rfl⟩
  cases up with
  | false =>
    refine ⟨⟨rfl, h.response, hcount⟩, fun report hreport => ?_⟩
    rw [List.mem_singleton.mp hreport]
    exact hfaulted
  | true =>
    refine ⟨⟨h.serverState, h.response, hcount⟩, fun report hreport => ?_⟩
    have hsame : report = ⟨i, .running, d.serverState⟩ := by
      simp only [detectorConnect, if_true, List.mem_append] at hreport
      rcases hreport with hreport | hreport
      · split at hreport
        · exact List.mem_singleton.mp hreport
        · cases hreport
      · split at hreport
        · exact List.mem_singleton.mp hreport
        · cases hreport
    rw [hsame]
    exact hrunning

theorem detectorVerdict_fit {d : Detector} {n : ℕ} (h : d.Fit n) (i : Replica)
    {response : MessageResponse} (hresponse : response.state.named = true) :
    (detectorVerdict d i response).1.Fit n ∧
      ∀ report ∈ (detectorVerdict d i response).2, report.Verdict := by
  unfold detectorVerdict
  split
  · refine ⟨⟨rfl, hresponse, h.count⟩, fun report hreport => ?_⟩
    rw [List.mem_singleton.mp hreport]
    exact ⟨Or.inr rfl, rfl⟩
  · refine ⟨⟨hresponse, hresponse, h.count⟩, fun report hreport => ?_⟩
    rw [List.mem_singleton.mp hreport]
    exact ⟨Or.inl rfl, hresponse⟩

theorem detectorAnswer_fit {d : Detector} {n : ℕ} (h : d.Fit n) (i : Replica) {server : Option Server}
    (hserver : ∀ s ∈ server, s.state.named = true) :
    (detectorAnswer d i server).1.Fit n ∧ ∀ report ∈ (detectorAnswer d i server).2, report.Verdict := by
  cases server with
  | none => exact detectorVerdict_fit h i h.response
  | some s => exact detectorVerdict_fit h i (hserver s rfl)

theorem setFields_heartbeat (ctx : ClientCtx) (hctx : ctx.req = {}) {count : ℕ} (h : count < 2 ^ 31) :
    setFields setRequestField ctx (heartbeatFields count) =
      .ok { ctx with clientId := 0, req := (heartbeatCtx count).req } := by
  have hzero : IsInt32 0 := by decide
  have hcount : IsInt32 (count : ℤ) := ⟨by omega, by omega⟩
  have htype : IsInt32 MsgType.msgHeartbeat.toInt := by decide
  obtain ⟨fd, clientId, req, isBacklog, conn⟩ := ctx
  subst hctx
  simp only [heartbeatFields, setFields, setRequestField, intField, strToInt_decimalInt hzero,
    strToInt_decimalInt hcount, strToInt_decimalInt htype, UInt64.toNat_zero, setLow32_zero h]
  rfl

/-- The heartbeat reaches the server, and what comes back gives the detector the
state the server was in. -/
theorem wireAnswer_eq {d : Detector} {n : ℕ} (h : d.Fit n) (hn : n < 2 ^ 31) (i : Replica)
    (buf : CArray maxLength) (there back : Link) {server : Option Server}
    (hserver : ∀ s ∈ server, s.state.named = true) :
    wireAnswer d i buf there back server = .ok (detectorAnswer d i server) := by
  have hcount : d.heartbeatCount < 2 ^ 31 := Nat.lt_of_le_of_lt h.count hn
  have hint : IsInt32 (d.heartbeatCount : ℤ) := ⟨by omega, by omega⟩
  cases server with
  | none =>
    unfold wireAnswer detectorReply
    rw [getResponse_eq fun r hr => absurd hr List.not_mem_nil]
    rfl
  | some s =>
    have hplain : ∀ f ∈ (heartbeatFields d.heartbeatCount).map RequestKey.pair, PlainField f := by
      have hzero := plainWord_decimalInt (by decide : IsInt32 0)
      have htype := plainWord_decimalInt (by decide : IsInt32 MsgType.msgHeartbeat.toInt)
      simp [heartbeatFields, RequestKey.pair, PlainField, plainKey_request, hzero, htype,
        plainWord_decimalInt hint]
    have hfields : ((heartbeatFields d.heartbeatCount).map RequestKey.pair).length ≤ maxReqFields := by
      show 3 ≤ 20
      decide
    obtain ⟨rest, hprint⟩ := printOver_fields buf hplain hfields
    have hparse : parseFields parseKv {} ((heartbeatFields d.heartbeatCount).map RequestKey.pair) =
        .ok (heartbeatCtx d.heartbeatCount) :=
      (parseFields_keyed parseKv RequestKey.text setRequestField parseKv_text {} _).trans
        (setFields_heartbeat {} rfl hcount)
    obtain ⟨q, -, hloop⟩ := headerLoop_fields parseKv (fun f hf => (hplain f hf).good)
      (delivers_cut there.isCut _) hfields hparse
    have hnamed := hserver s rfl
    have hreply : heartbeatReply s (.accepted (heartbeatCtx d.heartbeatCount) q) =
        replyText s (heartbeatCtx d.heartbeatCount) (ascii "OK") (ascii "Success") := by
      have hid : Counted (heartbeatCtx d.heartbeatCount).clientId := by
        show Counted 0
        decide
      have hroom := replyText_room hnamed hid
        (by decide : "Success" ∈ replyMsgs) (by decide +kernel : (ascii "OK").length < taskLength)
      unfold heartbeatReply
      dsimp only
      rw [respBytes_eq]
      exact sentReply_room hroom
    obtain ⟨hclean, hcontent⟩ := back.isCut
      (heartbeatReply s (.accepted (heartbeatCtx d.heartbeatCount) q))
    unfold wireAnswer createHeartbeatMessageToServer
    rw [hprint]
    dsimp only
    rw [hloop]
    exact (detectorReply_answer hnamed hcount hclean (hcontent.trans hreply)).1

/-! ### Servers -/

/-- The mode and the state of a server are among those of state.h. -/
structure Server.Titled (s : Server) : Prop where
  mode : s.repMode.named = true
  state : s.state.named = true

theorem Server.Titled.frame {s t : Server} (h : s.Titled) (hmode : t.repMode = s.repMode)
    (hstate : t.state = s.state) : t.Titled := by
  refine ⟨?_, ?_⟩
  · rw [hmode]
    exact h.mode
  · rw [hstate]
    exact h.state

theorem stateAllowed_named {repMode : RepMode} {sState : ServerStates} (hmode : repMode.named = true)
    (h : stateAllowed repMode sState = true) : sState.named = true := by
  cases sState with
  | other n => cases repMode <;> simp_all [stateAllowed, RepMode.named]
  | _ => rfl

theorem setState_titled {s t : Server} {sState : ServerStates} (hmode : s.repMode.named = true)
    (h : setState s sState = .ok t) : t.Titled := by
  obtain ⟨hallow, running, rfl⟩ := setState_cases h
  exact ⟨hmode, stateAllowed_named hmode hallow⟩

theorem handleQuiesceCommand_titled {s t : Server} {type : MsgType} {ret : ℤ}
    (h : handleQuiesceCommand s type = .ok (ret, t)) (hs : s.Titled) : t.Titled := by
  unfold handleQuiesceCommand at h
  split at h
  · cases hput : putInQuiesence s with
    | error f =>
      rw [hput] at h
      cases h
    | ok u =>
      rw [hput] at h
      cases h
      unfold putInQuiesence at hput
      exact setState_titled (s := { s with prevState := s.state }) hs.mode hput
  · split at h
    · unfold removeFromQuiesence at h
      cases hset : setState s s.prevState with
      | error f =>
        rw [hset] at h
        cases h
      | ok u =>
        rw [hset] at h
        cases h
        exact (setState_titled hs.mode hset).frame rfl rfl
    · cases h
      exact hs

theorem handleConnection_titled {s t : Server} {rand : ℕ} {ctx : ClientCtx} {effs : List Effect}
    (h : handleConnection s rand ctx = .ok (t, effs)) (hs : s.Titled) : t.Titled := by
  obtain ⟨u, ctx', hpark⟩ : ∃ u ctx', parkPayload s rand ctx = (u, ctx') := ⟨_, _, rfl⟩
  have hu : u.Titled := by
    rw [(parkPayload_frame hpark).2]
    exact hs.frame rfl rfl
  rcases handleConnection_cases hpark h with ⟨-, ⟨ret, hquiesce⟩, -⟩ | ⟨-, rfl, -⟩
  · exact handleQuiesceCommand_titled hquiesce hu
  · obtain ⟨hmode, hstate⟩ := enqueueClientReq_role u ctx'
    exact hu.frame hmode hstate

theorem promoted_titled {s : Server} (h : s.Titled) : (promoted s).Titled := ⟨h.mode, rfl⟩

theorem executeMsg_titled {env : Env} {s t : Server} {ctx : ClientCtx} {effs : List Effect}
    (h : executeMsg env s ctx = .ok (t, effs)) (hs : s.Titled) : t.Titled := by
  obtain ⟨ret, store, ctx', fail, -, rfl | ⟨-, -, rfl⟩, -, -⟩ := executeMsg_cases h
  · exact hs.frame rfl rfl
  · exact (promoted_titled hs).frame rfl rfl

theorem pruneLoop_titled {env : Env} {log : List ClientCtx} {s t : Server} {effs : List Effect}
    (h : pruneLoop env log s = .ok (t, effs)) (hs : s.Titled) : t.Titled := by
  induction log generalizing s effs with
  | nil =>
    cases h
    exact hs
  | cons ctx rest ih =>
    rw [pruneLoop] at h
    split at h
    · split at h
      · cases h
      · rename_i hloop
        cases h
        exact ih hloop (hs.frame rfl rfl)
    · split at h
      · cases h
      · rename_i u effs₁ hexec
        split at h
        · cases h
        · rename_i hloop
          cases h
          exact ih hloop (executeMsg_titled hexec (hs.frame rfl rfl))

theorem runNormal_titled {env : Env} {s t : Server} {effs : List Effect}
    (h : runNormal env s = .ok (t, effs)) (hs : s.Titled) : t.Titled := by
  rcases runNormal_cases h with ⟨-, hturn⟩ | ⟨-, u, hloop, ht⟩
  · rcases normalTurn_cases hturn with ⟨-, rfl | ⟨-, rfl⟩⟩ | ⟨ctx, rest, -, -, hexec⟩
    · exact hs
    · exact promoted_titled hs
    · exact executeMsg_titled hexec (hs.frame rfl rfl)
  · have hu := pruneLoop_titled hloop hs
    rcases ht with rfl | ⟨-, rfl⟩
    · exact hu
    · exact promoted_titled hu

theorem handleRepMsg_titled {s t : Server} {ctx : ClientCtx}
    (h : handleRepMsg s ctx = .ok t) (hs : s.Titled) : t.Titled := by
  unfold handleRepMsg at h
  dsimp only at h
  split at h
  · cases h
  · rename_i u hu
    refine setState_titled ?_ h
    split at hu
    · unfold setMode at hu
      split at hu
      · rename_i hmode
        cases hu
        rcases hmode.2 with hmode | hmode <;> exact congrArg RepMode.named hmode
      · cases hu
    · cases hu
      exact hs.mode

theorem runControl_titled {env : Env} {s t : Server} {effs : List Effect}
    (h : runControl env s = .ok (t, effs)) (hs : s.Titled) : t.Titled := by
  unfold runControl at h
  split at h
  · cases h
    exact hs
  · obtain ⟨body, -, ⟨-, hrep, -⟩ | ⟨-, -, hsend⟩ | ⟨rfl, -⟩⟩ := executeMsgCtrl_cases h
    · exact handleRepMsg_titled hrep (hs.frame rfl rfl)
    · obtain ⟨file, -, rfl, -⟩ := sendCheckpoint_cases hsend
      exact hs.frame rfl rfl
    · exact hs.frame rfl rfl

theorem worker_titled {env : Env} {s t : Server} {e : ServerEvent} {effs : List Effect}
    (he : isWorker e = true) (h : serverStep env s e = .ok (t, effs)) (hs : s.Titled) : t.Titled := by
  cases e with
  | connection rand ctx => cases he
  | reject ctx msg => cases he
  | normal => exact runNormal_titled h hs
  | control => exact runControl_titled h hs
  | chkptThread =>
    unfold serverStep at h
    dsimp only at h
    split at h
    · obtain ⟨file, -, rfl, -⟩ := sendCheckpoint_cases h
      exact hs.frame rfl rfl
    · cases h
      exact hs

/-! ### The two systems side by side -/

/-- The parties are the same, and each queue holds the bytes of the messages that
wait in the other's. -/
structure Abstracts (w : WireCluster) (c : Cluster) : Prop where
  mgr : w.mgr = c.mgr
  detector : w.detector = c.detector
  server : w.server = c.server
  toMgr : QueuesOf (fun _ => ReportBytes) w.toMgr c.toMgr
  toFactory : QueuesOf OrderBytes w.toFactory c.toFactory
  toServer : QueuesOf (fun _ => CommandBytes) w.toServer c.toServer

/-- What is printed is in range, after `n` steps. -/
structure InRange (n : ℕ) (c : Cluster) : Prop where
  plain : c.mgr.roles.Plain
  addressed : Addressed c.mgr
  fit : ∀ i, (c.detector i).Fit n
  titled : ∀ i, ∀ s ∈ c.server i, s.Titled

def Wired (n : ℕ) (w : WireCluster) (c : Cluster) : Prop := Abstracts w c ∧ InRange n c

theorem QueuesOf.update {α : Type} {R : Replica → Bytes → α → Prop} {bytes : Replica → List Bytes}
    {queue : Replica → List α} (h : QueuesOf R bytes queue) {i : Replica} {bs : List Bytes} {as : List α}
    (hi : List.Forall₂ (R i) bs as) :
    QueuesOf R (Function.update bytes i bs) (Function.update queue i as) := by
  intro j
  by_cases hj : j = i
  · subst hj
    simpa only [Function.update_self] using hi
  · simpa only [Function.update_of_ne hj] using h j

theorem Detector.Fit.later {d : Detector} {n : ℕ} (h : d.Fit n) : d.Fit (n + 1) :=
  ⟨h.serverState, h.response, Nat.le_succ_of_le h.count⟩

theorem InRange.later {c : Cluster} {n : ℕ} (h : InRange n c) : InRange (n + 1) c :=
  ⟨h.plain, h.addressed, fun i => (h.fit i).later, h.titled⟩

/-- A server process starts, goes on or ends. -/
theorem InRange.serve {c : Cluster} {n : ℕ} (h : InRange n c) (i : Replica) {server : Option Server}
    (hserver : ∀ s ∈ server, s.Titled) (queue : Replica → List ClientRequest) :
    InRange n { c with server := Function.update c.server i server, toServer := queue } := by
  refine ⟨h.plain, h.addressed, h.fit, fun j s hs => ?_⟩
  by_cases hj : j = i
  · subst hj
    dsimp only at hs
    rw [Function.update_self] at hs
    exact hserver s hs
  · dsimp only at hs
    rw [Function.update_of_ne hj] at hs
    exact h.titled j s hs

/-- The turn of a detector, with its reports behind those that wait. -/
theorem InRange.detect {c : Cluster} {n m : ℕ} (h : InRange n c) (hm : n ≤ m) (i : Replica)
    {d : Detector} (hd : d.Fit m) (queue : Replica → List Report) :
    InRange m { c with detector := Function.update c.detector i d, toMgr := queue } := by
  refine ⟨h.plain, h.addressed, fun j => ?_, h.titled⟩
  by_cases hj : j = i
  · subst hj
    simpa only [Function.update_self] using hd
  · have hfit := h.fit j
    simpa only [Function.update_of_ne hj] using
      (⟨hfit.serverState, hfit.response, hfit.count.trans hm⟩ : Detector.Fit _ m)

theorem wired_settle {w : WireCluster} {c : Cluster} {n : ℕ} (h : Wired n w c) (i : Replica)
    {r : Except Fault (Server × List Effect)} (hr : ∀ s effs, r = .ok (s, effs) → s.Titled) :
    Option.Rel (Wired n) (settleWire w i r) (settle c i r) := by
  obtain ⟨habs, hin⟩ := h
  cases r with
  | ok out =>
    obtain ⟨s, effs⟩ := out
    refine .some ⟨⟨habs.mgr, habs.detector, ?_, habs.toMgr, habs.toFactory, habs.toServer⟩, ?_⟩
    · exact congrArg (Function.update · i (some s)) habs.server
    · refine hin.serve i (fun t ht => ?_) c.toServer
      cases ht
      exact hr s effs rfl
  | error f =>
    have hcrash : Wired n (crashWire w i) (crashServer c i) := by
      refine ⟨⟨habs.mgr, habs.detector, ?_, habs.toMgr, habs.toFactory, habs.toServer.update .nil⟩, ?_⟩
      · exact congrArg (Function.update · i none) habs.server
      · exact hin.serve i (fun s hs => absurd hs (Option.not_mem_none s)) _
    cases f with
    | noReturn => exact .none
    | _ => exact .some hcrash

theorem wired_connect {env : Env} {w : WireCluster} {c : Cluster} {n : ℕ} (h : Wired n w c)
    (i : Replica) (stack : ℕ → CArray maxLength) :
    Option.Rel (Wired (n + 1)) (wireStep env w (.connect i stack)) (clusterStep env c (.connect i)) := by
  obtain ⟨habs, hin⟩ := h
  obtain ⟨hfit, hverdict⟩ := detectorConnect_fit (hin.fit i) i (c.server i).isSome
  obtain ⟨bufs, hall, hbufs⟩ := informAll_reports stack hverdict
  unfold wireStep clusterStep
  dsimp only
  rw [habs.detector, habs.server]
  split
  · exact .none
  · rw [hall]
    refine .some ⟨⟨habs.mgr, rfl, rfl, ?_, habs.toFactory, habs.toServer⟩, ?_⟩
    · exact habs.toMgr.update (List.rel_append (habs.toMgr i) hbufs)
    · exact hin.detect (Nat.le_succ n) i hfit _

theorem wired_heartbeat {env : Env} {w : WireCluster} {c : Cluster} {n : ℕ} (h : Wired n w c)
    (hn : n < 2 ^ 31) (i : Replica) (stack : ℕ → CArray maxLength) (buf : CArray maxLength)
    (there back : Link) :
    Option.Rel (Wired (n + 1)) (wireStep env w (.heartbeat i stack buf there back))
      (clusterStep env c (.heartbeat i)) := by
  obtain ⟨habs, hin⟩ := h
  have hserver : ∀ s ∈ c.server i, s.state.named = true := fun s hs => (hin.titled i s hs).state
  obtain ⟨hfit, hverdict⟩ := detectorAnswer_fit (hin.fit i) i hserver
  obtain ⟨bufs, hall, hbufs⟩ := informAll_reports stack hverdict
  unfold wireStep clusterStep
  dsimp only
  rw [habs.detector, habs.server]
  split
  · rw [wireAnswer_eq (hin.fit i) hn i buf there back hserver]
    dsimp only
    rw [hall]
    refine .some ⟨⟨habs.mgr, rfl, rfl, ?_, habs.toFactory, habs.toServer⟩, ?_⟩
    · exact habs.toMgr.update (List.rel_append (habs.toMgr i) hbufs)
    · exact hin.detect (Nat.le_succ n) i hfit.later _
  · exact .none

theorem wired_report {env : Env} {w : WireCluster} {c : Cluster} {n : ℕ} (h : Wired n w c)
    (i : Replica) (net : ℕ → Bool) (ctx : ReplicationManagerMessage) (link : Link)
    (stack : ℕ → CArray maxLength) :
    Option.Rel (Wired n) (wireStep env w (.report i net ctx link stack))
      (clusterStep env c (.report i net)) := by
  obtain ⟨habs, hin⟩ := h
  have hqueue := habs.toMgr i
  unfold wireStep clusterStep
  dsimp only
  cases hw : w.toMgr i with
  | nil =>
    rw [hw, List.forall₂_nil_left_iff] at hqueue
    rw [hqueue]
    exact .none
  | cons buf rest =>
    rw [hw, List.forall₂_cons_left_iff] at hqueue
    obtain ⟨report, rest', hbuf, hrest, hc⟩ := hqueue
    rw [hc]
    dsimp only
    rw [habs.mgr, hbuf link ctx net c.mgr]
    cases hcall : handleState net c.mgr report with
    | error f => exact .none
    | ok out =>
      obtain ⟨ret, mgr, sent⟩ := out
      obtain ⟨orders, hpost, horders⟩ := postAll_orders stack
        (fun s hs => sent_order hin.plain hin.addressed hcall hs) habs.toFactory
      dsimp only
      rw [hpost]
      refine .some ⟨⟨rfl, habs.detector, habs.server, habs.toMgr.update hrest, horders, habs.toServer⟩, ?_⟩
      have hstep : managerStep c.mgr ⟨report, net⟩ = some mgr := by
        unfold managerStep
        rw [hcall]
      exact ⟨managerStep_plain hin.plain hstep, hin.addressed.same (handleState_sameTable hcall), hin.fit,
        hin.titled⟩

theorem wired_factory {env : Env} {w : WireCluster} {c : Cluster} {n : ℕ} (h : Wired n w c)
    (i : Replica) (message : FactoryMessage) (link : Link) :
    Option.Rel (Wired n) (wireStep env w (.factory i message link)) (clusterStep env c (.factory i)) := by
  obtain ⟨habs, hin⟩ := h
  have hqueue := habs.toFactory i
  unfold wireStep clusterStep
  dsimp only
  cases hw : w.toFactory i with
  | nil =>
    rw [hw, List.forall₂_nil_left_iff] at hqueue
    rw [hqueue]
    exact .none
  | cons order rest =>
    rw [hw, List.forall₂_cons_left_iff] at hqueue
    obtain ⟨msg, rest', horder, hrest, hc⟩ := hqueue
    rw [hc]
    dsimp only
    have htaken : Wired n
        { w with toFactory := Function.update w.toFactory i rest, server := c.server }
        { c with toFactory := Function.update c.toFactory i rest' } :=
      ⟨⟨habs.mgr, habs.detector, rfl, habs.toMgr, habs.toFactory.update hrest, habs.toServer⟩,
        ⟨hin.plain, hin.addressed, hin.fit, hin.titled⟩⟩
    obtain ⟨got, q, hloop, hid, hkind⟩ := horder link message
    unfold wireCommand handleRepManCommand
    rw [hloop]
    dsimp only
    rw [habs.server]
    rcases hkind with ⟨hstartup, hreq⟩ | ⟨hother, hreq, command, hcommand, hbytes⟩
    · cases msg with
      | startup server =>
        rw [if_pos ⟨hid, hreq⟩]
        cases hs : c.server i with
        | none =>
          refine .some ⟨⟨habs.mgr, habs.detector, rfl, habs.toMgr, htaken.1.toFactory, habs.toServer⟩, ?_⟩
          refine htaken.2.serve i (fun s hs => ?_) c.toServer
          cases hs
          exact ⟨rfl, rfl⟩
        | some s => exact .some htaken
      | _ => cases hstartup
    · rw [if_neg fun hboth => hreq hboth.2, hcommand]
      cases hs : c.server i with
      | none =>
        cases msg with
        | startup server => cases hother
        | _ => exact .some htaken
      | some s =>
        have hsent : Wired n
            { w with
              toFactory := Function.update w.toFactory i rest
              toServer := Function.update w.toServer i (w.toServer i ++ [command])
              server := c.server }
            { c with
              toFactory := Function.update c.toFactory i rest'
              toServer := Function.update c.toServer i (c.toServer i ++ [relay msg]) } := by
          refine ⟨⟨habs.mgr, habs.detector, rfl, habs.toMgr, htaken.1.toFactory, ?_⟩, ?_⟩
          · exact habs.toServer.update (List.rel_append (habs.toServer i) (.cons hbytes .nil))
          · exact ⟨hin.plain, hin.addressed, hin.fit, hin.titled⟩
        cases msg with
        | startup server => cases hother
        | _ => exact .some hsent

theorem wired_relayed {env : Env} {w : WireCluster} {c : Cluster} {n : ℕ} (h : Wired n w c)
    (i : Replica) (rand : ℕ) (fd : ℤ) (conn : ℕ) (link : Link) (fuel : ℕ) :
    Option.Rel (Wired n) (wireStep env w (.relayed i rand fd conn link fuel))
      (clusterStep env c (.relayed i rand fd conn)) := by
  obtain ⟨habs, hin⟩ := h
  have hqueue := habs.toServer i
  unfold wireStep clusterStep
  dsimp only
  rw [habs.server]
  cases hw : w.toServer i with
  | nil =>
    rw [hw, List.forall₂_nil_left_iff] at hqueue
    rw [hqueue]
    exact .none
  | cons command rest =>
    rw [hw, List.forall₂_cons_left_iff] at hqueue
    obtain ⟨req, rest', hcommand, hrest, hc⟩ := hqueue
    rw [hc]
    cases hs : c.server i with
    | none => exact .none
    | some s =>
      dsimp only
      rw [hcommand link fd conn fuel]
      refine wired_settle ⟨?_, ?_⟩ i fun t effs ht => handleConnection_titled ht (hin.titled i s hs)
      · exact ⟨habs.mgr, habs.detector, rfl, habs.toMgr, habs.toFactory, habs.toServer.update hrest⟩
      · exact ⟨hin.plain, hin.addressed, hin.fit, hin.titled⟩

theorem wireStep_wired (env : Env) {w : WireCluster} {c : Cluster} {n : ℕ} (hn : n < 2 ^ 31)
    (h : Wired n w c) (e : WireEvent) :
    Option.Rel (Wired (n + 1)) (wireStep env w e) (clusterStep env c e.plain) := by
  have hlater {x : Option WireCluster} {y : Option Cluster} (hxy : Option.Rel (Wired n) x y) :
      Option.Rel (Wired (n + 1)) x y := by
    cases hxy with
    | none => exact .none
    | some hab => exact .some ⟨hab.1, hab.2.later⟩
  cases e with
  | connect i stack => exact wired_connect h i stack
  | heartbeat i stack buf there back => exact wired_heartbeat h hn i stack buf there back
  | report i net ctx link stack => exact hlater (wired_report h i net ctx link stack)
  | factory i message link => exact hlater (wired_factory h i message link)
  | relayed i rand fd conn link fuel => exact hlater (wired_relayed h i rand fd conn link fuel)
  | client i rand ctx =>
    unfold wireStep clusterStep WireEvent.plain
    dsimp only
    rw [h.1.server]
    cases hs : c.server i with
    | none => exact .none
    | some s =>
      dsimp only
      split
      · exact hlater (wired_settle h i fun t effs ht =>
          handleConnection_titled ht (h.2.titled i s hs))
      · exact .none
  | worker i e =>
    unfold wireStep clusterStep WireEvent.plain
    dsimp only
    rw [h.1.server]
    cases hs : c.server i with
    | none => exact .none
    | some s =>
      dsimp only
      split
      · rename_i he
        exact hlater (wired_settle h i fun t effs ht => worker_titled he ht (h.2.titled i s hs))
      · exact .none
  | crash i =>
    unfold wireStep clusterStep WireEvent.plain
    dsimp only
    rw [h.1.server]
    cases hs : c.server i with
    | none => exact .none
    | some s =>
      have hcrash := wired_settle h i (r := .error .assertFailed) fun t effs ht => by cases ht
      exact hlater hcrash

theorem wired_init (mode : ManagerMode) {freq : ℤ} (hfreq : IsInt32 freq)
    {server : Replica → ServerInfo} (hserver : ∀ i, (server i).Plain) :
    Wired 0 (initWire mode freq server) { mgr := initManager mode freq server } := by
  refine ⟨⟨rfl, rfl, rfl, fun _ => .nil, fun _ => .nil, fun _ => .nil⟩, ?_⟩
  refine ⟨initManager_plain mode freq server, ⟨hserver, hfreq⟩, fun _ => ⟨rfl, rfl, le_rfl⟩, ?_⟩
  intro i s hs
  cases hs

/-- Whatever the buffers and locals hold and however the network cuts the
streams, a run on the wire is the run on the messages: the same events are
possible, and the manager, the detectors and the servers end in the same state. -/
theorem wire_refines_cluster (env : Env) (mode : ManagerMode) {freq : ℤ} (hfreq : IsInt32 freq)
    {server : Replica → ServerInfo} (hserver : ∀ i, (server i).Plain) {es : List WireEvent}
    (hes : es.length < 2 ^ 31) :
    Option.Rel Abstracts (run (wireStep env) (initWire mode freq server) es)
      (run (clusterStep env) { mgr := initManager mode freq server } (es.map WireEvent.plain)) := by
  have hrun := run_simulates (R := Wired) WireEvent.plain (fun n w c e hn h => wireStep_wired env hn h e)
    (by omega : 0 + es.length ≤ 2 ^ 31) (wired_init mode hfreq hserver)
  rcases rel_cases hrun with ⟨hw, hc⟩ | ⟨w, c, hw, hc, hwired⟩
  · rw [hw, hc]
    exact .none
  · rw [hw, hc]
    exact .some hwired.1

/-- A server is found missing, is started, comes up and is given its role; the
stack holds what it likes. -/
def wireStart (stack : CArray maxLength) : List WireEvent :=
  let link : Link := ⟨byByte, isCut_byByte⟩
  [.connect 0 fun _ => stack, .report 0 (fun _ => true) ⟨7, .faulted, .quiesce⟩ link fun _ => stack,
    .factory 0 ⟨7, 7, 7, .noAction, .unknownRep, 7, .quiesce, ⟨[], 7⟩, ⟨[], 7⟩⟩ link,
    .connect 0 fun _ => stack, .heartbeat 0 (fun _ => stack) stack link link,
    .report 0 (fun _ => true) ⟨7, .faulted, .quiesce⟩ link fun _ => stack]

theorem wire_refines_cluster_start :
    Option.Rel Abstracts
      (run (wireStep quietEnv) (initWire .active (-1) fun i => ⟨ascii "10.0.0.1", 8080 + i.val⟩)
        (wireStart (zeros maxLength)))
      (run (clusterStep quietEnv)
        { mgr := initManager .active (-1) fun i => ⟨ascii "10.0.0.1", 8080 + i.val⟩ }
        ((wireStart (zeros maxLength)).map WireEvent.plain)) :=
  wire_refines_cluster quietEnv .active (by decide) addressed_plain (by decide)

end ToDoList
