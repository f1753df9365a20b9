import ToDoList.FaultReports
import ToDoList.Relay

/-!
# What a fault detector writes to the manager (local_f_detector.c)

`inform_rep_manager` prints a report into a buffer that holds whatever the stack
has left there, and `send_rep_manager` writes all of the buffer. The manager
reads up to the empty line and does not see what stands behind it.
-/

namespace ToDoList
open CLib

/-! ### Printing over the stack -/

/-- `sprintf` into `char buf[MAX_LENGTH]` without a `memset` before it. -/
def printOver (stack : CArray maxLength) (text : Bytes) : Except Fault Bytes :=
  if text.length < maxLength then .ok (text ++ 0 :: stack.toList.drop (text.length + 1))
  else .error .outOfBounds

theorem printOver_fields (stack : CArray maxLength) {fields : List (String × Bytes)}
    (h : ∀ f ∈ fields, PlainField f) (hcount : fields.length ≤ maxReqFields) :
    ∃ rest, printOver stack (headerText fields) = .ok (headerText fields ++ rest) := by
  have hroom : (headerText fields).length < maxLength := by
    have hlen := headerText_length h
    simp only [maxReqFields, maxLength] at hcount ⊢
    omega
  exact ⟨_, if_pos hroom⟩

theorem delivers_cut {cut : Bytes → List ReadResult} (hcut : IsCut cut) (bytes : Bytes) :
    Delivers (initBufFd (cut bytes)) bytes := by
  have hdel := delivers_init (hcut bytes).1
  rw [(hcut bytes).2] at hdel
  exact hdel

/-! ### The manager's loop over good fields -/

section
variable {σ ρ : Type} (parse : σ → Bytes → Bytes → Except ρ σ)

theorem managerLoop_line {f : String × Bytes} (hf : GoodField f) {r : SockBufRead} {rest msgBuf : Bytes}
    (hr : Delivers r (fieldLine f ++ rest)) (hbuf : Ended msgBuf) (left : ℕ) (ctx : σ) :
    ∃ r', Delivers r' rest ∧ Ended (storeLine msgBuf (fieldLine f)) ∧
      managerLoop parse (left + 1) r msgBuf ctx =
        match parse ctx (ascii f.1) f.2 with
        | .error why => .ok (.refused ctx why)
        | .ok ctx => managerLoop parse left r' (storeLine msgBuf (fieldLine f)) ctx := by
  obtain ⟨r', hread, hrest⟩ := hf.line.readline hr
  have hlen : (fieldLine f).length < maxMsgSize := by
    rw [fieldLine_length]
    exact hf.len
  have hne : fieldLine f ≠ [] := by
    intro hnil
    have hzero := congrArg List.length hnil
    rw [fieldLine_length] at hzero
    simp at hzero
  have hend : fieldLine f ≠ [byte '\r', byte '\n'] := by
    intro hcr
    have htwo := congrArg List.length hcr
    rw [fieldLine_length] at htwo
    simp at htwo
  have hpair : keyValue (fieldLine f) = some (ascii f.1, f.2) := by
    have htyped := keyValue_typed hf.key_ne (fun b hb => (hf.key b hb).1)
      (fun b hb => ⟨(hf.value b hb).1, (hf.value b hb).2.1⟩) (by have := hf.len; omega)
    rw [trimmed_of_word hf.word, if_neg hf.value_ne] at htyped
    exact htyped
  have hstr : cString (fieldLine f) = fieldLine f := cString_of_no_nul _ hf.line.no_nul
  have hlast : (fieldLine f).getLast? = some (byte '\n') := by
    rw [fieldLine_split, List.getLast?_append]
    simp
  have halone : StandsAlone msgBuf (fieldLine f) :=
    standsAlone_of_pair (Nat.le_of_lt hlen) (by rw [hstr, hpair]; exact Option.some_ne_none _) hlast
  have hsame := (standsAlone_iff hbuf hne hlen).mpr halone
  rw [hstr, hpair] at hsame
  refine ⟨r', hrest, hbuf.store hlen, ?_⟩
  unfold managerLoop
  rw [bufferLoop_turn parse hread hne hend (hbuf.store hlen).string, hsame]
  rfl

/-- The manager takes a message of good fields as the servers do, whatever longer
lines before them have left in `msg_buf`. -/
theorem managerLoop_fields {fields : List (String × Bytes)} (hf : ∀ f ∈ fields, GoodField f)
    {r : SockBufRead} {rest msgBuf : Bytes} (hr : Delivers r (headerText fields ++ rest))
    (hbuf : Ended msgBuf) {left : ℕ} (hleft : fields.length ≤ left) {ctx ctx' : σ}
    (hparse : parseFields parse ctx fields = .ok ctx') :
    ∃ r', managerLoop parse left r msgBuf ctx = .ok (.accepted ctx' r') := by
  induction fields generalizing r msgBuf left ctx with
  | nil =>
    cases hparse
    obtain ⟨r', hread, -⟩ := sockReadline_delivers hr maxMsgSize
    have hline : lineOf maxMsgSize (headerText [] ++ rest) = [byte '\r', byte '\n'] := by
      have hcr : lineOf maxMsgSize ([byte '\r'] ++ byte '\n' :: rest) = [byte '\r'] ++ [byte '\n'] :=
        lineOf_line (fun b hb => by rw [List.mem_singleton.mp hb]; decide) (by decide)
      have hend : headerText [] = [byte '\r', byte '\n'] := crlf_eq
      rw [hend]
      exact hcr
    rw [hline] at hread
    refine ⟨r', ?_⟩
    unfold managerLoop
    rw [bufferLoop_last parse hread (Or.inr rfl)]
    rfl
  | cons f fields ih =>
    cases left with
    | zero => simp at hleft
    | succ left =>
      rw [headerText_cons] at hr
      obtain ⟨r', hrest, hbuf', hturn⟩ :=
        managerLoop_line parse (hf f (List.mem_cons_self ..)) hr hbuf left ctx
      have hmore : ∀ g ∈ fields, GoodField g := fun g hg => hf g (List.mem_cons_of_mem _ hg)
      simp only [parseFields] at hparse
      cases hp : parse ctx (ascii f.1) f.2 with
      | error why =>
        rw [hp] at hparse
        cases hparse
      | ok ctx₁ =>
        rw [hp] at hparse hturn
        obtain ⟨q, hloop⟩ := ih hmore hrest hbuf' (by simpa using hleft) hparse
        exact ⟨q, hturn.trans hloop⟩

end

/-! ### Reports -/

def ReplicaState.toInt : ReplicaState → ℤ
  | .running => 0
  | .faulted => 1
  | .sentStartupReq => 2
  | .other n => n

def informFields (report : Report) : List (ReportKey × Bytes) :=
  [(.replicaId, decimalInt report.replicaId.val), (.messageType, decimalInt report.state.toInt),
    (.serverState, decimalInt report.serverState.toInt)]

def ReportKey.pair (f : ReportKey × Bytes) : String × Bytes := (f.1.text, f.2)

/-- `inform_rep_manager`, up to what `send_rep_manager` writes. -/
def informRepManager (stack : CArray maxLength) (report : Report) : Except Fault Bytes :=
  printOver stack (headerText ((informFields report).map ReportKey.pair))

/-- The reports of `heartbeat_signal`: its two verdicts, with a state the server can be in. -/
structure Report.Verdict (report : Report) : Prop where
  state : report.state = .running ∨ report.state = .faulted
  server : report.serverState.named = true

theorem ReplicaState.verdict_wire {x : ReplicaState} (h : x = .running ∨ x = .faulted) :
    IsInt32 x.toInt ∧ ReplicaState.ofInt x.toInt = x := by
  cases h with
  | inl h =>
    subst h
    decide
  | inr h =>
    subst h
    decide

theorem plainKey_report (k : ReportKey) : PlainKey k.text := by
  cases k <;> decide +kernel

theorem parseFaultDetectorKv_text (msg : ReplicationManagerMessage) (k : ReportKey) (value : Bytes) :
    parseFaultDetectorKv msg (ascii k.text) value = setReportField msg value k := by
  rw [parseFaultDetectorKv, reportKey_text]

theorem setFields_inform (start : ReplicationManagerMessage) {report : Report} (h : report.Verdict) :
    setFields setReportField start (informFields report) =
      .ok ⟨report.replicaId.val, report.state, report.serverState⟩ := by
  obtain ⟨hstate, hstate'⟩ := ReplicaState.verdict_wire h.state
  obtain ⟨hserver, hserver'⟩ := ServerStates.named_wire h.server
  simp only [informFields, setFields, setReportField, intField,
    strToInt_decimalInt (isInt32_replica report.replicaId), strToInt_decimalInt hstate,
    strToInt_decimalInt hserver, hstate', hserver']

theorem plainFields_inform {report : Report} (h : report.Verdict) :
    ∀ f ∈ (informFields report).map ReportKey.pair, PlainField f := by
  have hid := plainWord_decimalInt (isInt32_replica report.replicaId)
  have hstate := plainWord_decimalInt (ReplicaState.verdict_wire h.state).1
  have hserver := plainWord_decimalInt (ServerStates.named_wire h.server).1
  simp [informFields, ReportKey.pair, PlainField, plainKey_report, hid, hstate, hserver]

theorem handleMessage_report (net : ℕ → Bool) (m : Manager) (report : Report) :
    handleMessage net m ⟨report.replicaId.val, report.state, report.serverState⟩ =
      handleState net m report := by
  have hrange : (0 : ℤ) ≤ report.replicaId.val ∧ (report.replicaId.val : ℤ) < 3 := by omega
  rw [handleMessage, dif_pos hrange]
  rfl

/-- A report comes to the manager as the detector made it: whatever the stack has
left in the detector's buffer and in the manager's locals, and however the
network cuts the bytes. -/
theorem report_decodes (stack : CArray maxLength) (report : Report) (h : report.Verdict) :
    ∃ buf, informRepManager stack report = .ok buf ∧
      ∀ (cut : Bytes → List ReadResult) (start : ReplicationManagerMessage) (net : ℕ → Bool)
        (m : Manager), IsCut cut →
          handleFaultDetectorMessage net m start (cut buf) = handleState net m report := by
  have hplain := plainFields_inform h
  have hcount : ((informFields report).map ReportKey.pair).length ≤ maxReqFields := by
    show 3 ≤ 20
    decide
  obtain ⟨rest, hprint⟩ := printOver_fields stack hplain hcount
  refine ⟨_, hprint, ?_⟩
  intro cut start net m hcut
  have hparse : parseFields parseFaultDetectorKv start ((informFields report).map ReportKey.pair) =
      .ok ⟨report.replicaId.val, report.state, report.serverState⟩ := by
    have hkeyed := parseFields_keyed parseFaultDetectorKv ReportKey.text setReportField
      parseFaultDetectorKv_text start (informFields report)
    exact hkeyed.trans (setFields_inform start h)
  obtain ⟨r', hloop⟩ := managerLoop_fields parseFaultDetectorKv (fun f hf => (hplain f hf).good)
    (delivers_cut hcut _) ended_cleared hcount hparse
  rw [handleFaultDetectorMessage, hloop]
  exact handleMessage_report net m report

end ToDoList
