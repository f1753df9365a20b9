import ToDoList.Manager
import ToDoList.MsgBuf

/-!
# Reports of the fault detectors (replication_manager.c)

The record that `handle_fault_detector_message` fills is not initialised, and
nothing asks whether a message has named all three fields, or a replica that
there is, before it goes to `handle_state`.
-/

namespace ToDoList
open CLib

/-! ### Fields that a loop has read -/

/-- The parser on the fields of a message, one after the other. -/
def takeFields {σ ρ : Type} (parse : σ → Bytes → Bytes → Except ρ σ) :
    σ → List (Bytes × Bytes) → Except ρ σ := setFields fun ctx value key => parse ctx key value

section
variable {σ ρ : Type} (parse : σ → Bytes → Bytes → Except ρ σ)

theorem takeFields_cons {ctx ctx' : σ} {key value : Bytes} (h : parse ctx key value = .ok ctx')
    (fields : List (Bytes × Bytes)) :
    takeFields parse ctx ((key, value) :: fields) = takeFields parse ctx' fields := by
  rw [takeFields, setFields, h]

theorem bufferLoop_accepted {clears : Bool} {left : ℕ} {r rest : SockBufRead} {msgBuf : Bytes}
    {ctx got : σ} (h : bufferLoop parse clears left r msgBuf ctx = .ok (.accepted got rest)) :
    ∃ line q, sockReadline maxMsgSize r = .ok (line, q) ∧ line ≠ [] ∧
      ((line = [byte '\r', byte '\n'] ∧ got = ctx ∧ rest = q) ∨
        (line ≠ [byte '\r', byte '\n'] ∧ ∃ n msg key value ctx', left = n + 1 ∧
          bufString (storeLine msgBuf line) = .ok msg ∧ keyValue msg = some (key, value) ∧
          parse ctx key value = .ok ctx' ∧
          bufferLoop parse clears n q (if clears then clearedBuf else storeLine msgBuf line) ctx' =
            .ok (.accepted got rest))) := by
  cases hread : sockReadline maxMsgSize r with
  | error f =>
    rw [bufferLoop.eq_def, hread] at h
    cases h
  | ok p =>
    obtain ⟨line, q⟩ := p
    by_cases hlast : line = [] ∨ line = [byte '\r', byte '\n']
    · rw [bufferLoop_last parse hread hlast] at h
      split at h
      · cases h
      · rename_i hne
        cases h
        exact ⟨line, rest, rfl, hne, Or.inl ⟨hlast.resolve_left hne, rfl, rfl⟩⟩
    · obtain ⟨hne, hend⟩ := not_or.mp hlast
      refine ⟨line, q, rfl, hne, Or.inr ⟨hend, ?_⟩⟩
      cases left with
      | zero =>
        rw [bufferLoop_full parse hread hne hend] at h
        cases h
      | succ n =>
        cases hmsg : bufString (storeLine msgBuf line) with
        | error f =>
          rw [bufferLoop.eq_def, hread] at h
          dsimp only at h
          rw [if_neg hne, if_neg hend, hmsg] at h
          cases h
        | ok msg =>
          rw [bufferLoop_turn parse hread hne hend hmsg] at h
          cases hpair : keyValue msg with
          | none =>
            rw [hpair] at h
            cases h
          | some pair =>
            rw [hpair] at h
            dsimp only at h
            cases hparse : parse ctx pair.1 pair.2 with
            | error why =>
              rw [hparse] at h
              cases h
            | ok ctx' =>
              rw [hparse] at h
              exact ⟨n, msg, pair.1, pair.2, ctx', rfl, rfl, hpair, hparse, h⟩

theorem bufferLoop_fields {clears : Bool} {left : ℕ} {r rest : SockBufRead} {msgBuf : Bytes}
    {ctx got : σ} (pairs : List (Bytes × Bytes))
    (h : bufferLoop parse clears left r msgBuf ctx = .ok (.accepted got rest)) :
    ∃ fields, bufferLoop notePair clears left r msgBuf pairs = .ok (.accepted (pairs ++ fields) rest) ∧
      takeFields parse ctx fields = .ok got := by
  induction left generalizing r msgBuf ctx pairs with
  | zero =>
    obtain ⟨line, q, hread, hne, hturn⟩ := bufferLoop_accepted parse h
    rcases hturn with ⟨hend, rfl, rfl⟩ | ⟨-, n, -, -, -, -, hn, -⟩
    · refine ⟨[], ?_, rfl⟩
      rw [bufferLoop_last notePair hread (Or.inr hend), if_neg hne, List.append_nil]
    · exact absurd hn.symm (Nat.succ_ne_zero n)
  | succ left ih =>
    obtain ⟨line, q, hread, hne, hturn⟩ := bufferLoop_accepted parse h
    rcases hturn with ⟨hend, rfl, rfl⟩ | ⟨hend, n, msg, key, value, ctx', hn, hmsg, hpair, hparse, hrest⟩
    · refine ⟨[], ?_, rfl⟩
      rw [bufferLoop_last notePair hread (Or.inr hend), if_neg hne, List.append_nil]
    · cases hn
      obtain ⟨fields, hnoted, htaken⟩ := ih (pairs ++ [(key, value)]) hrest
      refine ⟨(key, value) :: fields, ?_, ?_⟩
      · rw [bufferLoop_turn notePair hread hne hend hmsg, hpair, List.append_cons]
        exact hnoted
      · rw [takeFields_cons parse hparse]
        exact htaken

theorem bufferLoop_of_fields {clears : Bool} {left : ℕ} {r rest : SockBufRead} {msgBuf : Bytes}
    {pairs all : List (Bytes × Bytes)}
    (h : bufferLoop notePair clears left r msgBuf pairs = .ok (.accepted all rest)) :
    ∃ fields, all = pairs ++ fields ∧ ∀ ctx got, takeFields parse ctx fields = .ok got →
      bufferLoop parse clears left r msgBuf ctx = .ok (.accepted got rest) := by
  induction left generalizing r msgBuf pairs with
  | zero =>
    obtain ⟨line, q, hread, hne, hturn⟩ := bufferLoop_accepted notePair h
    rcases hturn with ⟨hend, rfl, rfl⟩ | ⟨-, n, -, -, -, -, hn, -⟩
    · refine ⟨[], (List.append_nil _).symm, fun ctx got htaken => ?_⟩
      cases htaken
      rw [bufferLoop_last parse hread (Or.inr hend), if_neg hne]
    · exact absurd hn.symm (Nat.succ_ne_zero n)
  | succ left ih =>
    obtain ⟨line, q, hread, hne, hturn⟩ := bufferLoop_accepted notePair h
    rcases hturn with ⟨hend, rfl, rfl⟩ | ⟨hend, n, msg, key, value, noted, hn, hmsg, hpair, hparse, hrest⟩
    · refine ⟨[], (List.append_nil _).symm, fun ctx got htaken => ?_⟩
      cases htaken
      rw [bufferLoop_last parse hread (Or.inr hend), if_neg hne]
    · cases hn
      cases hparse
      obtain ⟨fields, rfl, hall⟩ := ih hrest
      refine ⟨(key, value) :: fields, (List.append_cons _ _ _).symm, fun ctx got htaken => ?_⟩
      rw [bufferLoop_turn parse hread hne hend hmsg, hpair]
      dsimp only
      cases hgot : parse ctx key value with
      | error why =>
        rw [takeFields, setFields, hgot] at htaken
        cases htaken
      | ok ctx' =>
        rw [takeFields_cons parse hgot] at htaken
        exact hall ctx' got htaken

end

/-! ### parse_fault_detector_kv -/

def ReplicaState.ofInt : ℤ → ReplicaState
  | 0 => .running
  | 1 => .faulted
  | 2 => .sentStartupReq
  | n => .other n

structure ReplicationManagerMessage where
  replicaId : ℤ
  state : ReplicaState
  serverState : ServerStates
deriving Repr, DecidableEq

inductive ReportKey where
  | replicaId
  | messageType
  | serverState
deriving Repr, DecidableEq

def ReportKey.text : ReportKey → String
  | .replicaId => "Replica ID"
  | .messageType => "Message Type"
  | .serverState => "Server state"

def reportKeys : List ReportKey := [.replicaId, .messageType, .serverState]

def reportKey (key : Bytes) : Option ReportKey := reportKeys.find? fun k => ascii k.text = key

/-- The branches of `parse_fault_detector_kv` with what they print when they fail. -/
def setReportField (msg : ReplicationManagerMessage) (value : Bytes) :
    ReportKey → Except String ReplicationManagerMessage
  | .replicaId => intField value "replica_id conversion failed; Malformed req!!!" fun v =>
      { msg with replicaId := v }
  | .messageType => intField value "Msg type Conversion failed!!!" fun v =>
      { msg with state := .ofInt v }
  | .serverState => intField value "Server state Conversion failed!!!" fun v =>
      { msg with serverState := .ofInt v }

def parseFaultDetectorKv (msg : ReplicationManagerMessage) (key value : Bytes) :
    Except String ReplicationManagerMessage :=
  match reportKey key with
  | none => .ok msg
  | some k => setReportField msg value k

/-! ### handle_fault_detector_message -/

/-- `handle_state` on the record as it is; `data.node` and the arrays of
`membership` have MAX_REPLICAS entries. -/
def handleMessage (net : ℕ → Bool) (m : Manager) (msg : ReplicationManagerMessage) :
    Except Fault (ℤ × Manager × List Sent) :=
  if h : 0 ≤ msg.replicaId ∧ msg.replicaId < 3 then
    handleState net m ⟨⟨msg.replicaId.toNat, by omega⟩, msg.state, msg.serverState⟩
  else if m.locked then .error .noReturn
  else .error .outOfBounds

/-- `faultDetectorCtx` is what the uninitialised local holds. -/
def handleFaultDetectorMessage (net : ℕ → Bool) (m : Manager)
    (faultDetectorCtx : ReplicationManagerMessage) (reads : List ReadResult) :
    Except Fault (ℤ × Manager × List Sent) :=
  match managerLoop parseFaultDetectorKv maxReqFields (initBufFd reads) clearedBuf faultDetectorCtx with
  | .error f => .error f
  | .ok (.accepted msg _) => handleMessage net m msg
  | .ok _ => .ok (-1, m, [])

/-- The fields of the message on a connection, if the loop reads it to its end. -/
def reportFields (reads : List ReadResult) : Option (List (Bytes × Bytes)) :=
  match managerLoop notePair maxReqFields (initBufFd reads) clearedBuf [] with
  | .ok (.accepted fields _) => some fields
  | _ => none

/-- `handle_state` is called with `msg`, when the record has held `start`. -/
def CallsHandleState (reads : List ReadResult) (start msg : ReplicationManagerMessage) : Prop :=
  ∃ rest, managerLoop parseFaultDetectorKv maxReqFields (initBufFd reads) clearedBuf start =
    .ok (.accepted msg rest)

theorem callsHandleState_iff {reads : List ReadResult} {start msg : ReplicationManagerMessage} :
    CallsHandleState reads start msg ↔
      ∃ fields, reportFields reads = some fields ∧
        takeFields parseFaultDetectorKv start fields = .ok msg := by
  unfold CallsHandleState reportFields managerLoop
  constructor
  · rintro ⟨rest, h⟩
    obtain ⟨fields, hnoted, htaken⟩ := bufferLoop_fields parseFaultDetectorKv [] h
    rw [hnoted]
    exact ⟨fields, rfl, htaken⟩
  · rintro ⟨fields, hfields, htaken⟩
    split at hfields
    · rename_i noted rest hnoted
      cases hfields
      obtain ⟨more, rfl, hall⟩ := bufferLoop_of_fields parseFaultDetectorKv hnoted
      exact ⟨rest, hall start msg htaken⟩
    · cases hfields

/-! ### What the record holds -/

/-- The number that the last field with this key gives. -/
def lastNumber (k : ReportKey) : List (Bytes × Bytes) → Option ℤ
  | [] => none
  | (key, value) :: fields =>
    (lastNumber k fields).or (if reportKey key = some k then strToInt value else none)

def GoodNumbers (fields : List (Bytes × Bytes)) : Prop :=
  ∀ key value, (key, value) ∈ fields → reportKey key ≠ none → strToInt value ≠ none

/-- What the fields make of a record. -/
def reported (start : ReplicationManagerMessage) (fields : List (Bytes × Bytes)) :
    ReplicationManagerMessage where
  replicaId := (lastNumber .replicaId fields).getD start.replicaId
  state := ((lastNumber .messageType fields).map ReplicaState.ofInt).getD start.state
  serverState := ((lastNumber .serverState fields).map ServerStates.ofInt).getD start.serverState

theorem parseFaultDetectorKv_iff {start msg : ReplicationManagerMessage} {key value : Bytes} :
    parseFaultDetectorKv start key value = .ok msg ↔
      (reportKey key ≠ none → strToInt value ≠ none) ∧ msg = reported start [(key, value)] := by
  unfold parseFaultDetectorKv reported
  simp only [lastNumber, Option.none_or]
  cases hkey : reportKey key with
  | none =>
    simp only [ne_eq, not_true_eq_false, false_implies, true_and, Except.ok.injEq]
    exact eq_comm
  | some k =>
    cases hnum : strToInt value with
    | none => cases k <;> simp [setReportField, intField, hnum]
    | some v => cases k <;> simp [setReportField, intField, hnum, eq_comm]

theorem reported_cons (start : ReplicationManagerMessage) (f : Bytes × Bytes)
    (fields : List (Bytes × Bytes)) :
    reported (reported start [f]) fields = reported start (f :: fields) := by
  have hlast : ∀ k, lastNumber k (f :: fields) = (lastNumber k fields).or (lastNumber k [f]) := by
    intro k
    simp [lastNumber]
  unfold reported
  rw [hlast, hlast, hlast]
  cases lastNumber .replicaId fields <;> cases lastNumber .messageType fields <;>
    cases lastNumber .serverState fields <;> simp

theorem takeFields_reported {start msg : ReplicationManagerMessage} {fields : List (Bytes × Bytes)} :
    takeFields parseFaultDetectorKv start fields = .ok msg ↔
      GoodNumbers fields ∧ msg = reported start fields := by
  induction fields generalizing start with
  | nil =>
    have hnone : GoodNumbers [] := fun _ _ h => absurd h List.not_mem_nil
    simp only [hnone, true_and]
    exact ⟨fun h => by cases h; rfl, fun h => by rw [h]; rfl⟩
  | cons f fields ih =>
    obtain ⟨key, value⟩ := f
    have hgood : GoodNumbers ((key, value) :: fields) ↔
        (reportKey key ≠ none → strToInt value ≠ none) ∧ GoodNumbers fields := by
      unfold GoodNumbers
      simp only [List.mem_cons, Prod.mk.injEq]
      constructor
      · intro h
        exact ⟨h key value (Or.inl ⟨rfl, rfl⟩), fun k v hmem => h k v (Or.inr hmem)⟩
      · rintro ⟨hhead, htail⟩ k v (⟨rfl, rfl⟩ | hmem)
        · exact hhead
        · exact htail k v hmem
    rw [hgood, and_assoc]
    cases hparse : parseFaultDetectorKv start key value with
    | error why =>
      have hfail : ¬(reportKey key ≠ none → strToInt value ≠ none) := by
        intro hnum
        have hok : parseFaultDetectorKv start key value = .ok _ :=
          parseFaultDetectorKv_iff.mpr ⟨hnum, rfl⟩
        rw [hparse] at hok
        cases hok
      constructor
      · intro h
        rw [takeFields, setFields, hparse] at h
        cases h
      · rintro ⟨hnum, -⟩
        exact absurd hnum hfail
    | ok next =>
      obtain ⟨hnum, rfl⟩ := parseFaultDetectorKv_iff.mp hparse
      rw [takeFields_cons parseFaultDetectorKv hparse, ih, reported_cons]
      exact ⟨fun h => ⟨hnum, h⟩, And.right⟩

theorem reportKey_text (k : ReportKey) : reportKey (ascii k.text) = some k := by
  cases k <;> decide +kernel

theorem reportKey_eq_some {key : Bytes} {k : ReportKey} (h : reportKey key = some k) :
    key = ascii k.text := by
  have hfind := List.find?_some h
  exact (of_decide_eq_true hfind).symm

theorem lastNumber_mem {k : ReportKey} {fields : List (Bytes × Bytes)} {v : ℤ}
    (h : lastNumber k fields = some v) :
    ∃ value, (ascii k.text, value) ∈ fields ∧ strToInt value = some v := by
  induction fields with
  | nil => cases h
  | cons f fields ih =>
    obtain ⟨key, value⟩ := f
    rw [lastNumber, Option.or_eq_some_iff] at h
    rcases h with hrest | ⟨-, hhead⟩
    · obtain ⟨value', hmem, hnum⟩ := ih hrest
      exact ⟨value', List.mem_cons_of_mem _ hmem, hnum⟩
    · split at hhead
      · rename_i hkey
        rw [reportKey_eq_some hkey]
        exact ⟨value, List.mem_cons_self .., hhead⟩
      · cases hhead

theorem lastNumber_of_mem {k : ReportKey} {fields : List (Bytes × Bytes)} {value : Bytes}
    (hgood : GoodNumbers fields) (h : (ascii k.text, value) ∈ fields) :
    ∃ v, lastNumber k fields = some v := by
  induction fields with
  | nil => cases h
  | cons f fields ih =>
    have hrest : GoodNumbers fields := fun key value hmem => hgood key value (List.mem_cons_of_mem _ hmem)
    rw [lastNumber]
    rcases List.mem_cons.mp h with rfl | hmem
    · obtain ⟨v, hv⟩ := Option.ne_none_iff_exists'.mp
        (hgood _ _ (List.mem_cons_self ..) (by rw [reportKey_text]; exact Option.some_ne_none _))
      rw [if_pos (reportKey_text k), hv]
      cases lastNumber k fields with
      | none => exact ⟨v, rfl⟩
      | some w => exact ⟨w, rfl⟩
    · obtain ⟨v, hv⟩ := ih hrest hmem
      rw [hv]
      exact ⟨v, rfl⟩

/-! ### Complete reports -/

/-- A field of the stream gives this number. -/
def SentNumber (reads : List ReadResult) (k : ReportKey) (v : ℤ) : Prop :=
  ∃ fields value, reportFields reads = some fields ∧ (ascii k.text, value) ∈ fields ∧
    strToInt value = some v

/-- The record comes from the stream, and the replica is one of the MAX_REPLICAS. -/
structure CompleteReport (reads : List ReadResult) (msg : ReplicationManagerMessage) : Prop where
  replicaId : SentNumber reads .replicaId msg.replicaId
  state : ∃ v, SentNumber reads .messageType v ∧ msg.state = .ofInt v
  serverState : ∃ v, SentNumber reads .serverState v ∧ msg.serverState = .ofInt v
  range : 0 ≤ msg.replicaId ∧ msg.replicaId < 3

def OnlyComplete (reads : List ReadResult) : Prop :=
  ∀ start msg, CallsHandleState reads start msg → CompleteReport reads msg

/-- A message that is read to its end and has good numbers names all three fields,
and its last replica is in range. -/
def NamesAll (reads : List ReadResult) : Prop :=
  ∀ fields, reportFields reads = some fields → GoodNumbers fields →
    (∀ k : ReportKey, ∃ value, (ascii k.text, value) ∈ fields) ∧
      ∃ id, lastNumber .replicaId fields = some id ∧ 0 ≤ id ∧ id < 3

/-- Only complete reports reach `handle_state` exactly when the sender completes them. -/
theorem only_complete_iff (reads : List ReadResult) : OnlyComplete reads ↔ NamesAll reads := by
  constructor
  · intro h fields hfields hgood
    have hcall : CallsHandleState reads ⟨0, .running, .unknownState⟩
        (reported ⟨0, .running, .unknownState⟩ fields) :=
      callsHandleState_iff.mpr ⟨fields, hfields, takeFields_reported.mpr ⟨hgood, rfl⟩⟩
    have hcomplete := h _ _ hcall
    have hsent : ∀ k v, SentNumber reads k v → ∃ value, (ascii k.text, value) ∈ fields := by
      rintro k v ⟨fields', value, hfields', hmem, -⟩
      rw [hfields] at hfields'
      cases hfields'
      exact ⟨value, hmem⟩
    obtain ⟨state, hstate, -⟩ := hcomplete.state
    obtain ⟨serverState, hserverState, -⟩ := hcomplete.serverState
    obtain ⟨value, hmem⟩ := hsent _ _ hcomplete.replicaId
    obtain ⟨id, hid⟩ := lastNumber_of_mem hgood hmem
    refine ⟨?_, id, hid, ?_⟩
    · intro k
      cases k with
      | replicaId => exact ⟨value, hmem⟩
      | messageType => exact hsent _ _ hstate
      | serverState => exact hsent _ _ hserverState
    · have hrange := hcomplete.range
      unfold reported at hrange
      rw [hid] at hrange
      exact hrange
  · intro h start msg hcall
    obtain ⟨fields, hfields, htaken⟩ := callsHandleState_iff.mp hcall
    obtain ⟨hgood, rfl⟩ := takeFields_reported.mp htaken
    obtain ⟨hall, id, hid, hrange⟩ := h fields hfields hgood
    have hsent : ∀ k, ∃ v, lastNumber k fields = some v ∧ SentNumber reads k v := by
      intro k
      obtain ⟨value, hmem⟩ := hall k
      obtain ⟨v, hv⟩ := lastNumber_of_mem hgood hmem
      obtain ⟨value', hmem', hnum⟩ := lastNumber_mem hv
      exact ⟨v, hv, fields, value', hfields, hmem', hnum⟩
    obtain ⟨id', hid', hsentId⟩ := hsent .replicaId
    obtain ⟨state, hstate, hsentState⟩ := hsent .messageType
    obtain ⟨serverState, hserverState, hsentServer⟩ := hsent .serverState
    rw [hid] at hid'
    cases hid'
    unfold reported
    rw [hid, hstate, hserverState]
    exact ⟨hsentId, ⟨state, hsentState, rfl⟩, ⟨serverState, hsentServer, rfl⟩, hrange⟩

/-- A complete report keeps every access of `handle_state` in range. -/
theorem complete_in_range {reads : List ReadResult} {start msg : ReplicationManagerMessage}
    (h : OnlyComplete reads) (hcall : CallsHandleState reads start msg) (net : ℕ → Bool) (m : Manager) :
    ∃ report : Report, (report.replicaId.val : ℤ) = msg.replicaId ∧
      handleFaultDetectorMessage net m start reads = handleState net m report := by
  have hrange := (h start msg hcall).range
  obtain ⟨rest, hloop⟩ := hcall
  refine ⟨⟨⟨msg.replicaId.toNat, by omega⟩, msg.state, msg.serverState⟩,
    Int.toNat_of_nonneg hrange.1, ?_⟩
  unfold handleFaultDetectorMessage handleMessage
  rw [hloop]
  dsimp only
  rw [dif_pos hrange]

theorem empty_message_called (start : ReplicationManagerMessage) :
    CallsHandleState (oneRead (ascii "\r\n")) start start := by
  have hclean : Clean (oneRead (ascii "\r\n")) := by unfold Clean oneRead; decide +kernel
  have hline : lineOf maxMsgSize (content (oneRead (ascii "\r\n"))) = [byte '\r', byte '\n'] := by
    decide +kernel
  obtain ⟨rest, hread, -⟩ := sockReadline_delivers (delivers_init hclean) maxMsgSize
  rw [hline] at hread
  refine ⟨rest, ?_⟩
  unfold managerLoop
  rw [bufferLoop_last parseFaultDetectorKv hread (Or.inr rfl), if_neg (List.cons_ne_nil _ _)]

/-- The replica is the one that the stack names. -/
theorem empty_message_handled : ¬∀ reads, OnlyComplete reads := by
  intro h
  have hcomplete := h _ _ _ (empty_message_called ⟨3, .running, .unknownState⟩)
  exact absurd hcomplete.range.2 (lt_irrefl 3)

end ToDoList
