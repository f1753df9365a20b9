import ToDoList.Response

/-!
# What the fault detector reports (local_f_detector.c)

The server closes the connection with the reply or in the middle of it; what has
arrived is taken for the end of the reply, and what has not leaves the response
as earlier heartbeats left it.
-/

namespace ToDoList
open CLib

/-! ### Replies that are cut -/

theorem startsWith_take {line : Bytes} {p : String} {n : ℕ} (h : startsWith (line.take n) p = true) :
    startsWith line p = true := by
  unfold startsWith at h ⊢
  rw [List.isPrefixOf_iff_prefix] at h ⊢
  exact h.trans (List.take_prefix n line)

theorem replyKey_take {line : Bytes} (h : replyKey line = none) (n : ℕ) : replyKey (line.take n) = none := by
  unfold replyKey at h ⊢
  rw [List.find?_eq_none] at h ⊢
  exact fun k hk hstart => h k hk (startsWith_take hstart)

theorem responseLine_msg_take (msg : Bytes) (n : ℕ) (response : MessageResponse) :
    responseLine ((fieldLine ("Msg", msg)).take n) response = .ok response := by
  have hkey : replyKey (fieldLine ("Msg", msg)) = none := by
    rw [fieldLine, List.append_assoc, List.append_assoc]
    exact replyKey_msg _
  unfold responseLine
  rw [replyKey_take hkey n]

theorem scanWord_name (name : ReplyKey) {n : ℕ} (hn : n ≤ (ascii name.text).length + 2) :
    replyKey ((ascii name.text ++ ascii ": ").take n) =
        (if (ascii name.text).length ≤ n then some name else none) ∧
      scanWord name ((ascii name.text ++ ascii ": ").take n) = .ok none := by
  have hall : ∀ name ∈ replyKeys, ∀ n < (ascii name.text).length + 3,
      replyKey ((ascii name.text ++ ascii ": ").take n) =
          (if (ascii name.text).length ≤ n then some name else none) ∧
        (scanWord name ((ascii name.text ++ ascii ": ").take n)).toOption = some none := by
    decide +kernel
  obtain ⟨hkey, hscan⟩ := hall name (by cases name <;> decide) n (by omega)
  exact ⟨hkey, StepRun.mem_toOption.mp hscan⟩

theorem nameColon_length (name : String) :
    (ascii name ++ ascii ": ").length = (ascii name).length + 2 := by
  rw [List.length_append, show (ascii ": ").length = 2 by decide +kernel]

theorem fieldLine_take_name {name : String} {n : ℕ} (hn : n ≤ (ascii name).length + 2) (value : Bytes) :
    (fieldLine (name, value)).take n = (ascii name ++ ascii ": ").take n := by
  have hhead := nameColon_length name
  unfold fieldLine
  dsimp only
  rw [List.append_assoc _ value, List.take_append_of_le_length (by omega)]

theorem fieldLine_take_word {name : String} {n : ℕ} (hn : (ascii name).length + 2 ≤ n) (value : Bytes) :
    (fieldLine (name, value)).take n = ascii name ++ (ascii ": " ++
      (value.take (n - ((ascii name).length + 2)) ++
        (ascii "\r\n").take (n - ((ascii name).length + 2) - value.length))) := by
  have hhead := nameColon_length name
  unfold fieldLine
  dsimp only
  rw [List.append_assoc _ value, List.take_append, List.take_of_length_le (by omega), hhead,
    List.take_append, List.append_assoc]

theorem scanWord_part (name : ReplyKey) {value : Bytes} (hword : ∀ b ∈ value, isSpace b = false)
    (hne : value ≠ []) (hlen : value.length < taskLength) {m : ℕ} (hm : 0 < m) (k : ℕ) :
    scanWord name (ascii name.text ++ (ascii ": " ++ (value.take m ++ (ascii "\r\n").take k))) =
      .ok (fieldWord (value.take m)) := by
  have hpart : ∀ b ∈ value.take m, isSpace b = false := fun b hb => hword b (List.mem_of_mem_take hb)
  have hpartNe : value.take m ≠ [] := by
    intro hnil
    rcases List.take_eq_nil_iff.mp hnil with hzero | hnil
    · omega
    · exact hne hnil
  have hrest : ∀ b ∈ ((ascii "\r\n").take k).head?, isSpace b = true := by
    intro b hb
    exact (by decide +kernel : ∀ b ∈ ascii "\r\n", isSpace b = true) b
      (List.mem_of_mem_take (List.mem_of_mem_head? hb))
  have hshort : (value.take m).length < taskLength := (List.length_take_le' m value).trans_lt hlen
  rw [← List.append_assoc, scanWord, sscanf_text name hpart hpartNe hrest]
  dsimp only
  rw [if_pos hshort, fieldWord, if_neg hpartNe]

/-- The first bytes of a line: what has arrived of its word. -/
theorem responseLine_take (name : ReplyKey) {value : Bytes} (hvalue : ReplyWord value)
    (hne : value ≠ []) (hlen : value.length < taskLength) (n : ℕ) (response : MessageResponse) :
    responseLine ((fieldLine (name.text, value)).take n) response =
      .ok (if (ascii name.text).length ≤ n then
          setReplyField response (fieldWord (value.take (n - ((ascii name.text).length + 2)))) name
        else response) := by
  have hname : name.text ∈ replyNames := by cases name <;> decide
  have hfield := hvalue.field hname
  have hroom : ((fieldLine (name.text, value)).take n).length < maxLength := by
    have hshort := (replyNames_plain hname).1.2.1
    have htotal := fieldLine_length (name.text, value)
    have htake := List.length_take_le' n (fieldLine (name.text, value))
    dsimp only at htotal
    unfold taskLength at hlen
    unfold maxLength
    omega
  have hcstring : cString ((fieldLine (name.text, value)).take n) = (fieldLine (name.text, value)).take n :=
    cString_of_no_nul _ fun b hb => hfield.no_nul b (List.mem_of_mem_take hb)
  unfold responseLine
  by_cases hn : n ≤ (ascii name.text).length + 2
  · obtain ⟨hkey, hscan⟩ := scanWord_name name hn
    rw [hcstring]
    rw [fieldLine_take_name hn] at hroom ⊢
    rw [hkey]
    by_cases hreached : (ascii name.text).length ≤ n
    · rw [if_pos hreached, if_pos hreached]
      dsimp only
      rw [if_pos (Or.inl hroom), hscan, Nat.sub_eq_zero_of_le hn, List.take_zero]
      rfl
    · rw [if_neg hreached, if_neg hreached]
  · have hscan := scanWord_part name (fun b hb => (hvalue.word b hb).1) hne hlen
      (m := n - ((ascii name.text).length + 2)) (by omega)
      (n - ((ascii name.text).length + 2) - value.length)
    rw [hcstring, if_pos (by omega)]
    rw [fieldLine_take_word (by omega)] at hroom ⊢
    rw [replyKey_name]
    dsimp only
    rw [if_pos (Or.inl hroom), hscan]

/-- A stream that ends within a line, or behind it. -/
theorem decodeReply_take {f : String × Bytes} (hf : ReplyField f) (rest : Bytes) (n : ℕ)
    (response : MessageResponse) :
    decodeReply ((fieldLine f ++ rest).take n) response =
      match responseLine ((fieldLine f).take n) response with
      | .error e => .error e
      | .ok response' => decodeReply (rest.take (n - (fieldLine f).length)) response' := by
  by_cases hn : (fieldLine f).length ≤ n
  · rw [List.take_append, List.take_of_length_le hn]
    exact decodeReply_line hf _ response
  have hshort : n - (fieldLine f).length = 0 := by omega
  rw [List.take_append_of_le_length (by omega), hshort, List.take_zero]
  by_cases hzero : n = 0
  · rw [hzero, List.take_zero]
    rfl
  have hlen := hf.len
  have htotal := fieldLine_length f
  have hname := (replyNames_plain hf.name).1.2.1
  have hline : ((fieldLine f).take n).length = n := by
    rw [List.length_take]
    omega
  have hnl : ∀ b ∈ (fieldLine f).take n, b ≠ byte '\n' := by
    intro b hb
    have hsplit := fieldLine_split f
    rw [hsplit, List.length_append, List.length_singleton] at hn
    rw [hsplit, List.take_append_of_le_length (by omega)] at hb
    exact hf.no_newline b (List.mem_of_mem_take hb)
  have hof : lineOf maxLength ((fieldLine f).take n) = (fieldLine f).take n :=
    lineOf_unended hnl (by omega)
  have hend : startsWith ((fieldLine f).take n) "\r\n" = false := by
    by_contra hstart
    rw [Bool.not_eq_false] at hstart
    exact absurd (startsWith_take hstart) (by simp [hf.not_end])
  have hne : (fieldLine f).take n ≠ [] := by
    intro hnil
    rw [hnil, List.length_nil] at hline
    omega
  have hstep := decodeReply_step hne response
  rw [hof, hend, if_neg (by decide), List.drop_length] at hstep
  exact hstep

theorem fieldWord_getD_nil (v : Bytes) : (fieldWord v).getD [] = v := by
  rw [fieldWord_getD]
  by_cases hv : v = []
  · rw [if_pos hv, hv]
  · rw [if_neg hv]

theorem status_kept {k : ReplyKey} (hk : k ≠ .status) (c : Prop) [Decidable c]
    (response : MessageResponse) (word : Option Bytes) :
    (if c then setReplyField response word k else response).status = response.status := by
  cases k with
  | status => exact absurd rfl hk
  | _ => split <;> rfl

theorem clientId_kept {k : ReplyKey} (hk : k ≠ .clientId) (c : Prop) [Decidable c]
    (response : MessageResponse) (word : Option Bytes) :
    (if c then setReplyField response word k else response).clientId = response.clientId := by
  cases k with
  | clientId => exact absurd rfl hk
  | _ => split <;> rfl

/-! ### Replies to a heartbeat -/

theorem decimal_word {n : ℕ} (h : n < 2 ^ 31) :
    ReplyWord (decimal n) ∧ decimal n ≠ [] ∧ (decimal n).length < taskLength := by
  obtain ⟨hword, hlen⟩ := replyWord_decimal (n := n) (k := 10) (by decide) (by decide) (by omega)
  exact ⟨hword, decimal_ne_nil n, hlen⟩

structure BeatReply where
  server : Server
  ctx : ClientCtx
  status : String
  msg : String
  named : server.state.named = true
  counted : Counted ctx.clientId
  small : ctx.req.reqNo.toNat < 2 ^ 31
  heartbeat : ctx.req.msgType = .msgHeartbeat
  known : status = "OK" ∨ status = "FAIL"
  sent : msg ∈ replyMsgs

namespace BeatReply

def text (r : BeatReply) : Bytes :=
  sentReply (replyText r.server r.ctx (ascii r.status) (ascii r.msg))

/-- What the first `n` bytes tell of the status, behind "Status: ". -/
def statusHeard (r : BeatReply) (n : ℕ) : Option Bytes :=
  if 8 < n then some ((ascii r.status).take (n - 8)) else none

/-- What they tell of the client id; the name alone makes it 0. -/
def clientHeard (r : BeatReply) (n : ℕ) : Option ℤ :=
  let n := n - (fieldLine ("Status", ascii r.status)).length
  if 9 ≤ n then some (atoi ((decimalInt r.ctx.clientId).take (n - 11))) else none

theorem status_word (r : BeatReply) :
    ReplyWord (ascii r.status) ∧ ascii r.status ≠ [] ∧ (ascii r.status).length < taskLength := by
  rcases r.known with h | h
  · rw [h]
    exact ⟨replyWord_short (by decide +kernel) (by decide +kernel), by decide +kernel, by decide +kernel⟩
  · rw [h]
    exact ⟨replyWord_short (by decide +kernel) (by decide +kernel), by decide +kernel, by decide +kernel⟩

theorem text_eq (r : BeatReply) : r.text = replyText r.server r.ctx (ascii r.status) (ascii r.msg) :=
  sentReply_room (replyText_room r.named r.counted r.sent r.status_word.2.2)

theorem statusHeard_eq (r : BeatReply) (n : ℕ) (response : MessageResponse) :
    (if (ascii ReplyKey.status.text).length ≤ n then
        setReplyField response (fieldWord ((ascii r.status).take
          (n - ((ascii ReplyKey.status.text).length + 2)))) .status
      else response).status = (r.statusHeard n).getD response.status := by
  have hname : (ascii ReplyKey.status.text).length = 6 := by decide +kernel
  rw [hname]
  unfold statusHeard
  by_cases hn : 8 < n
  · have htake : (ascii r.status).take (n - 8) ≠ [] := by
      intro hnil
      rcases List.take_eq_nil_iff.mp hnil with hzero | hnil
      · omega
      · exact r.status_word.2.1 hnil
    rw [if_pos (by omega), if_pos hn, setReplyField, fieldWord_getD, if_neg htake]
    rfl
  · rw [if_neg hn, Nat.sub_eq_zero_of_le (by omega), List.take_zero]
    split <;> rfl

theorem clientHeard_eq (r : BeatReply) {id : ℕ} (hid : r.ctx.clientId = id) (n : ℕ)
    (response : MessageResponse) :
    (if (ascii ReplyKey.clientId.text).length ≤
        n - (fieldLine (ReplyKey.status.text, ascii r.status)).length then
        setReplyField response (fieldWord ((decimal id).take
          (n - (fieldLine (ReplyKey.status.text, ascii r.status)).length -
            ((ascii ReplyKey.clientId.text).length + 2)))) .clientId
      else response).clientId = (r.clientHeard n).getD response.clientId := by
  have hname : (ascii ReplyKey.clientId.text).length = 9 := by decide +kernel
  have hfirst : fieldLine (ReplyKey.status.text, ascii r.status) = fieldLine ("Status", ascii r.status) :=
    rfl
  have hset (response' : MessageResponse) (word : Option Bytes) :
      (setReplyField response' word .clientId).clientId = atoi (word.getD []) := rfl
  rw [hname, hfirst]
  unfold clientHeard
  dsimp only
  by_cases hn : 9 ≤ n - (fieldLine ("Status", ascii r.status)).length
  · rw [if_pos hn, if_pos hn, hid, decimalInt_natCast, hset, fieldWord_getD_nil, Option.getD_some]
  · rw [if_neg hn, if_neg hn]
    rfl

/-- The reader on the first bytes of a reply. -/
theorem decode_take (r : BeatReply) (n : ℕ) (response : MessageResponse) :
    ∃ got, decodeReply (r.text.take n) response = .ok (-1, got) ∧
      got.status = (r.statusHeard n).getD response.status ∧
      got.clientId = (r.clientHeard n).getD response.clientId := by
  obtain ⟨id, hid, hidLt⟩ : ∃ id : ℕ, r.ctx.clientId = id ∧ id < 2 ^ 31 := by
    obtain ⟨hlo, hhi⟩ := r.counted
    exact ⟨r.ctx.clientId.toNat, by omega, by omega⟩
  obtain ⟨state, hstate, hstateLt⟩ : ∃ state : ℕ, r.server.state.toInt = state ∧ state < 2 ^ 31 := by
    have hnamed := r.named
    cases hs : r.server.state with
    | other n => rw [hs] at hnamed; cases hnamed
    | _ => exact ⟨_, rfl, by decide⟩
  obtain ⟨hstatusWord, hstatusNe, hstatusLen⟩ := r.status_word
  obtain ⟨hidWord, hidNe, hidLen⟩ := decimal_word hidLt
  obtain ⟨hnoWord, hnoNe, hnoLen⟩ := decimal_word r.small
  obtain ⟨hstateWord, hstateNe, hstateLen⟩ := decimal_word hstateLt
  have htext : r.text = fieldLine (ReplyKey.status.text, ascii r.status) ++
      (fieldLine (ReplyKey.clientId.text, decimal id) ++
        (fieldLine (ReplyKey.requestNo.text, decimal r.ctx.req.reqNo.toNat) ++
          (fieldLine ("Msg", ascii r.msg) ++ (fieldLine (ReplyKey.state.text, decimal state) ++ [])))) := by
    rw [r.text_eq]
    unfold replyText
    rw [r.heartbeat]
    simp [replyHead, ReplyKey.text, hid, hstate, decimalInt_natCast]
  rw [htext, decodeReply_take (hstatusWord.field (by decide)),
    responseLine_take .status hstatusWord hstatusNe hstatusLen]
  dsimp only
  rw [decodeReply_take (hidWord.field (by decide)), responseLine_take .clientId hidWord hidNe hidLen]
  dsimp only
  rw [decodeReply_take (hnoWord.field (by decide)), responseLine_take .requestNo hnoWord hnoNe hnoLen]
  dsimp only
  rw [decodeReply_take (replyMsgs_field r.sent).1, responseLine_msg_take]
  dsimp only
  rw [decodeReply_take (hstateWord.field (by decide)), responseLine_take .state hstateWord hstateNe hstateLen]
  dsimp only
  rw [List.take_nil, decodeReply_nil]
  refine ⟨_, rfl, ?_, ?_⟩
  · rw [status_kept (by decide), status_kept (by decide), status_kept (by decide)]
    exact r.statusHeard_eq n response
  · rw [clientId_kept (by decide), clientId_kept (by decide)]
    refine (r.clientHeard_eq hid n _).trans ?_
    rw [clientId_kept (by decide)]

/-- The whole reply. -/
theorem decode_whole (r : BeatReply) (response : MessageResponse) :
    ∃ got, decodeReply r.text response = .ok (-1, got) ∧ got.status = ascii r.status ∧
      got.clientId = r.ctx.clientId ∧ got.state = r.server.state := by
  obtain ⟨hword, hne, hlen⟩ := r.status_word
  obtain ⟨got, hgot, hstatus, hid, -, -, hstate⟩ :=
    decodeReply_text r.counted r.small r.sent r.named hword hlen response
  rw [if_pos r.heartbeat] at hgot
  rw [if_neg hne] at hstatus
  rw [r.text_eq]
  exact ⟨got, hgot, hstatus, hid, hstate r.heartbeat⟩

theorem got_whole (r : BeatReply) {response got : MessageResponse} {ret : ℤ}
    (h : decodeReply r.text response = .ok (ret, got)) :
    got.status = ascii r.status ∧ got.clientId = r.ctx.clientId ∧ got.state = r.server.state := by
  obtain ⟨got', hgot', hwhole⟩ := r.decode_whole response
  rw [hgot'] at h
  cases h
  exact hwhole

end BeatReply

/-- What comes of a heartbeat: the connection is refused, or the first `arrived`
bytes of a reply are read before it is closed. -/
inductive Beat where
  | refused
  | accepted (reply : BeatReply) (arrived : ℕ) (reads : List ReadResult) (clean : Clean reads)
      (arrives : content reads = reply.text.take arrived)

namespace Beat

def reads : Beat → Option (List ReadResult)
  | refused => none
  | accepted _ _ reads _ _ => some reads

/-- Closed without a reply, or in the middle of it. -/
def CutShort : Beat → Prop
  | refused => False
  | accepted reply arrived _ _ _ => arrived < reply.text.length

def okAnswer : Beat → Option BeatReply
  | refused => none
  | accepted reply arrived _ _ _ =>
    if reply.text.length ≤ arrived ∧ reply.status = "OK" ∧ reply.ctx.clientId = 0 then some reply
    else none

end Beat

/-! ### heartbeat_signal -/

def detectorReply (d : Detector) (i : Replica) (reads : List ReadResult) :
    Except Fault (Detector × List Report) :=
  match getResponseFromServer reads d.response with
  | .error f => .error f
  | .ok (_, response) => .ok (detectorVerdict d i response)

/-- One turn of the loop; without reads the connection is refused. -/
def heartbeatTurn (d : Detector) (i : Replica) :
    Option (List ReadResult) → Except Fault (Detector × List Report)
  | none => .ok (detectorConnect d i false)
  | some reads =>
    match detectorReply (detectorConnect d i true).1 i reads with
    | .error f => .error f
    | .ok (d', reports) => .ok (d', (detectorConnect d i true).2 ++ reports)

def heartbeatSignal (d : Detector) (i : Replica) :
    List (Option (List ReadResult)) → Except Fault (List (List Report))
  | [] => .ok []
  | beat :: beats =>
    match heartbeatTurn d i beat with
    | .error f => .error f
    | .ok (d, reports) => (heartbeatSignal d i beats).map fun rest => reports :: rest

/-- `create_heartbeat_message_to_server` as the server reads it. -/
def heartbeatCtx (count : ℕ) : ClientCtx :=
  { clientId := 0, req := { msgType := .msgHeartbeat, reqNo := UInt64.ofNat count } }

/-- A server that is up sends the whole reply; one that has gone sends nothing. -/
theorem detectorReply_answer {d : Detector} {i : Replica} {s : Server} (hstate : s.state.named = true)
    (hcount : d.heartbeatCount < 2 ^ 31) {reads : List ReadResult} (hclean : Clean reads)
    (hreads : content reads = replyText s (heartbeatCtx d.heartbeatCount) (ascii "OK") (ascii "Success")) :
    detectorReply d i reads = .ok (detectorAnswer d i (some s)) ∧
      detectorReply d i [] = .ok (detectorAnswer d i none) := by
  have hno : (heartbeatCtx d.heartbeatCount).req.reqNo.toNat = d.heartbeatCount :=
    UInt64.toNat_ofNat_of_lt' (hcount.trans (by decide))
  have hword : ReplyWord (ascii "OK") := replyWord_short (by decide +kernel) (by decide +kernel)
  have hok : (ascii "OK").length < taskLength ∧ ascii "OK" ≠ [] := by decide +kernel
  have htext : replyText s (heartbeatCtx d.heartbeatCount) (ascii "OK") (ascii "Success") =
      (replyHead (heartbeatCtx d.heartbeatCount) (ascii "OK") (ascii "Success")).flatMap fieldLine ++
        fieldLine ("State", decimalInt s.state.toInt) := by
    show (replyHead _ _ _ ++ [_]).flatMap fieldLine = _
    rw [List.flatMap_append, List.flatMap_singleton]
  constructor
  · unfold detectorReply
    rw [getResponse_eq hclean, hreads, htext,
      decodeReply_head (show Counted 0 by decide) (by rw [hno]; exact hcount) (by decide) hword,
      if_pos hok.1, if_neg hok.2, decodeReply_state hstate, hno]
    rfl
  · unfold detectorReply
    rw [getResponse_eq fun r hr => absurd hr List.not_mem_nil]
    rfl

/-! ### Which verdicts are right -/

/-- The last report of a turn, which follows the reply, says RUNNING exactly
when the whole reply came and says OK to the detector, and then has its state. -/
def RightVerdict (beat : Beat) (reports : List Report) : Prop :=
  ∃ report, reports.getLast? = some report ∧
    (report.state = .running ↔ beat.okAnswer.isSome = true) ∧
    ∀ reply ∈ beat.okAnswer, report.serverState = reply.server.state

/-- The last status and client id of which something has arrived. -/
structure Heard where
  status : Bytes := []
  clientId : ℤ := 0

def Heard.after (h : Heard) : Beat → Heard
  | .refused => h
  | .accepted reply arrived _ _ _ =>
    ⟨(reply.statusHeard arrived).getD h.status, (reply.clientHeard arrived).getD h.clientId⟩

def Heard.rejects (h : Heard) : Prop := h.clientId ≠ 0 ∨ startsWith h.status "FAIL" = true

/-- Whenever a connection is closed before the whole reply has come, what was
heard last makes the detector report FAULTED. -/
def CutsRejected : Heard → List Beat → Prop
  | _, [] => True
  | h, beat :: beats => (beat.CutShort → (h.after beat).rejects) ∧ CutsRejected (h.after beat) beats

theorem parse_rejects (response : MessageResponse) : parseResponseFromServer response 0 < 0 ↔
    Heard.rejects ⟨response.status, response.clientId⟩ := by
  unfold parseResponseFromServer Heard.rejects
  dsimp only
  by_cases hid : response.clientId = 0
  · rw [if_neg (not_not.mpr hid)]
    by_cases hok : startsWith response.status "OK" = true
    · have hfail : ¬startsWith response.status "FAIL" = true := by
        intro hfail
        unfold startsWith at hfail
        rw [List.isPrefixOf_iff_prefix] at hfail
        obtain ⟨rest, hrest⟩ := hfail
        rw [← hrest, startsWith_apart (by decide +kernel : Apart "OK" "FAIL")] at hok
        cases hok
      rw [if_pos hok]
      simp [hid, hfail]
    · rw [if_neg hok]
      by_cases hfail : startsWith response.status "FAIL" = true
      · rw [if_pos hfail]
        simp [hfail]
      · rw [if_neg hfail]
        simp [hid, hfail]
  · rw [if_pos hid]
    simp [hid]

theorem BeatReply.accepts_iff (r : BeatReply) : ¬Heard.rejects ⟨ascii r.status, r.ctx.clientId⟩ ↔
    r.status = "OK" ∧ r.ctx.clientId = 0 := by
  have hok : startsWith (ascii "OK") "FAIL" = false := by decide +kernel
  have hfail : startsWith (ascii "FAIL") "FAIL" = true := by decide +kernel
  unfold Heard.rejects
  rcases r.known with h | h
  · simp [h, hok]
  · simp [h, hfail]

theorem rightVerdict_last (beat : Beat) (reports : List Report) (report : Report) :
    RightVerdict beat (reports ++ [report]) ↔
      (report.state = .running ↔ beat.okAnswer.isSome = true) ∧
        ∀ reply ∈ beat.okAnswer, report.serverState = reply.server.state := by
  unfold RightVerdict
  simp

/-- What the detector holds of the replies so far. -/
def Recalls (d : Detector) (h : Heard) : Prop :=
  d.response.status = h.status ∧ d.response.clientId = h.clientId

theorem verdict_report (d : Detector) (i : Replica) (response : MessageResponse) :
    ∃ report, (detectorVerdict d i response).2 = [report] ∧
      (detectorVerdict d i response).1.response = response ∧
      (report.state = .running ↔ ¬parseResponseFromServer response 0 < 0) ∧
      (report.state = .running → report.serverState = response.state) := by
  unfold detectorVerdict
  by_cases hparse : parseResponseFromServer response 0 < 0
  · rw [if_pos hparse]
    exact ⟨_, rfl, rfl, by simp [hparse], nofun⟩
  · rw [if_neg hparse]
    exact ⟨_, rfl, rfl, by simp [hparse], fun _ => rfl⟩

/-- One turn, and what was heard in it. -/
theorem heartbeatTurn_right {d : Detector} {h : Heard} (hd : Recalls d h) (i : Replica) (beat : Beat) :
    ∃ d' reports, heartbeatTurn d i beat.reads = .ok (d', reports) ∧ Recalls d' (h.after beat) ∧
      (RightVerdict beat reports ↔ (beat.CutShort → (h.after beat).rejects)) := by
  cases beat with
  | refused =>
    exact ⟨_, _, rfl, hd, iff_of_true ⟨_, rfl, by simp [Beat.okAnswer], by simp [Beat.okAnswer]⟩ nofun⟩
  | accepted reply arrived reads clean arrives =>
    obtain ⟨got, hgot, hstatus, hid⟩ := reply.decode_take arrived d.response
    have hturn : detectorReply (detectorConnect d i true).1 i reads =
        .ok (detectorVerdict (detectorConnect d i true).1 i got) := by
      have hread : getResponseFromServer reads (detectorConnect d i true).1.response = .ok (-1, got) := by
        rw [getResponse_eq clean, arrives]
        exact hgot
      unfold detectorReply
      rw [hread]
    obtain ⟨report, hreport, hkept, hrunning, hstate⟩ :=
      verdict_report (detectorConnect d i true).1 i got
    have hheard : h.after (.accepted reply arrived reads clean arrives) = ⟨got.status, got.clientId⟩ := by
      rw [hstatus, hid, hd.1, hd.2]
      rfl
    have hrejects := parse_rejects got
    rw [← hheard] at hrejects
    refine ⟨(detectorVerdict (detectorConnect d i true).1 i got).1,
      (detectorConnect d i true).2 ++ [report], ?_, ?_, ?_⟩
    · unfold heartbeatTurn Beat.reads
      dsimp only
      rw [hturn]
      dsimp only
      rw [hreport]
    · rw [hheard]
      exact ⟨congrArg MessageResponse.status hkept, congrArg MessageResponse.clientId hkept⟩
    · rw [rightVerdict_last]
      unfold Beat.CutShort
      dsimp only
      by_cases hcut : arrived < reply.text.length
      · have hnone : Beat.okAnswer (.accepted reply arrived reads clean arrives) = none :=
          if_neg fun hwhole => absurd hcut (not_lt.mpr hwhole.1)
        simp [hnone, hcut, hrunning, hrejects]
      · refine iff_of_true ?_ fun hshort => absurd hshort hcut
        rw [List.take_of_length_le (not_lt.mp hcut)] at hgot
        have hwhole := reply.got_whole hgot
        have hok : report.state = .running ↔ reply.status = "OK" ∧ reply.ctx.clientId = 0 := by
          rw [hrunning, parse_rejects, hwhole.1, hwhole.2.1]
          exact reply.accepts_iff
        unfold Beat.okAnswer
        dsimp only
        by_cases hgood : reply.status = "OK" ∧ reply.ctx.clientId = 0
        · rw [if_pos ⟨not_lt.mp hcut, hgood⟩]
          refine ⟨iff_of_true (hok.mpr hgood) rfl, fun reply' hreply => ?_⟩
          obtain rfl : reply = reply' := Option.some.inj hreply
          rw [hstate (hok.mpr hgood), hwhole.2.2]
        · rw [if_neg fun hwhole => hgood hwhole.2]
          exact ⟨iff_of_false (fun hrun => hgood (hok.mp hrun)) Bool.false_ne_true,
            fun reply' hreply => absurd hreply (Option.not_mem_none reply')⟩

/-- All turns: the verdicts are right exactly when every cut is rejected. -/
theorem heartbeatSignal_right {d : Detector} {h : Heard} (hd : Recalls d h) (i : Replica)
    (beats : List Beat) :
    ∃ reports, heartbeatSignal d i (beats.map Beat.reads) = .ok reports ∧
      (List.Forall₂ RightVerdict beats reports ↔ CutsRejected h beats) := by
  induction beats generalizing d h with
  | nil => exact ⟨[], rfl, by simp [CutsRejected]⟩
  | cons beat beats ih =>
    obtain ⟨d', first, hturn, hrecalls, hfirst⟩ := heartbeatTurn_right hd i beat
    obtain ⟨rest, hrest, hright⟩ := ih hrecalls
    refine ⟨first :: rest, ?_, ?_⟩
    · rw [List.map_cons, heartbeatSignal, hturn]
      dsimp only
      rw [hrest]
      rfl
    · rw [List.forall₂_cons, hfirst, hright]
      rfl

/-- In every run the report behind a heartbeat is RUNNING exactly for a whole OK
reply to the detector, with the state of that reply, if and only if nothing that
is cut short comes while the last status and client id heard would be accepted. -/
theorem verdicts_right_iff (i : Replica) (beats : List Beat) :
    ∃ reports, heartbeatSignal {} i (beats.map Beat.reads) = .ok reports ∧
      (List.Forall₂ RightVerdict beats reports ↔ CutsRejected {} beats) :=
  heartbeatSignal_right ⟨rfl, rfl⟩ i beats

def goneBeat : Beat :=
  .accepted
    { server := { serverId := 1, state := .activeRunning }, ctx := heartbeatCtx 1, status := "OK"
      msg := "Success", named := rfl, counted := by decide, small := by decide, heartbeat := rfl
      known := Or.inl rfl, sent := by decide }
    0 [] (fun _ hr => absurd hr List.not_mem_nil) rfl

/-- Nothing was ever received, and the report is RUNNING. -/
theorem closed_connection_runs :
    heartbeatSignal {} 0 [goneBeat.reads] =
        .ok [[⟨0, .running, .unknownState⟩, ⟨0, .running, .unknownState⟩]] ∧
      ¬RightVerdict goneBeat [⟨0, .running, .unknownState⟩, ⟨0, .running, .unknownState⟩] := by
  constructor
  · rfl
  · rintro ⟨report, hlast, hrunning, -⟩
    cases hlast
    exact absurd (hrunning.mp rfl) (by decide +kernel)

end ToDoList
