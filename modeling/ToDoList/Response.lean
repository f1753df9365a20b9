import ToDoList.Typed

/-!
# Replies as they are read (util.c)

`get_response_from_server` looks at the beginning of each line, scans the word
behind the name into its field and stops at an empty line. A line without a
word leaves the status as it was and sets a number to 0.
-/

namespace ToDoList
open CLib

/-! ### The lines of a reply -/

/-- `(int)strtol(s, NULL, 10)`; 0 when there is no digit. -/
def atoi (s : Bytes) : ℤ :=
  let t := splitSign (s.dropWhile isSpace)
  let v : ℤ := digitsVal (t.2.takeWhile isDigit)
  toInt32 (max longMin (min longMax (if t.1 then -v else v)))

inductive ReplyKey where
  | status
  | requestNo
  | clientId
  | key
  | state
deriving Repr, DecidableEq

def ReplyKey.text : ReplyKey → String
  | .status => "Status"
  | .requestNo => "Request No"
  | .clientId => "Client ID"
  | .key => "Key"
  | .state => "State"

/-- In the order of the tests; no line begins with two of the names. -/
def replyKeys : List ReplyKey := [.status, .requestNo, .clientId, .key, .state]

def replyKey (line : Bytes) : Option ReplyKey := replyKeys.find? fun k => startsWith line k.text

/-- The formats "..: %s"; their blanks are white-space directives. -/
def ReplyKey.format : ReplyKey → List Directive
  | .status => lits "Status:" ++ [.white, .str]
  | .requestNo => lits "Request" ++ .white :: (lits "No:" ++ [.white, .str])
  | .clientId => lits "Client" ++ .white :: (lits "ID:" ++ [.white, .str])
  | .key => lits "Key:" ++ [.white, .str]
  | .state => lits "State:" ++ [.white, .str]

/-- `sscanf(resp_buf, "..: %s", ..)` into an array of TASK_LENGTH bytes. -/
def scanWord (k : ReplyKey) (line : Bytes) : Except Fault (Option Bytes) :=
  match sscanf k.format line with
  | [.text w] => if w.length < taskLength then .ok (some w) else .error .outOfBounds
  | _ => .ok none

/-- `temp` was cleared before the line. -/
def setReplyField (response : MessageResponse) (word : Option Bytes) : ReplyKey → MessageResponse
  | .status => { response with status := word.getD response.status }
  | .requestNo => { response with reqNo := atoi (word.getD []) }
  | .clientId => { response with clientId := atoi (word.getD []) }
  | .key => { response with hashKey := strtoull (word.getD []) }
  | .state => { response with state := .ofInt (atoi (word.getD [])) }

/-- One turn of the loop. The buffer was cleared before the line was read, so
only a line that fills it has no NUL for `sscanf`. -/
def responseLine (line : Bytes) (response : MessageResponse) : Except Fault MessageResponse :=
  match replyKey line with
  | none => .ok response
  | some k =>
    if line.length < maxLength ∨ (0 : UInt8) ∈ line then
      match scanWord k (cString line) with
      | .error f => .error f
      | .ok word => .ok (setReplyField response word k)
    else .error .outOfBounds

def getResponseLoop : ℕ → SockBufRead → MessageResponse → Except Fault (ℤ × MessageResponse)
  | 0, _, _ => .error .noReturn
  | fuel + 1, r, response =>
    match sockReadline maxLength r with
    | .error f => .error f
    | .ok (line, r) =>
      if line = [] then .ok (-1, response)
      else if startsWith line "\r\n" then .ok (0, response)
      else
        match responseLine line response with
        | .error f => .error f
        | .ok response => getResponseLoop fuel r response

/-- Every turn but the last takes a byte of the stream or of the buffer. -/
def getResponseFromServer (reads : List ReadResult) (response : MessageResponse) :
    Except Fault (ℤ × MessageResponse) :=
  getResponseLoop ((content reads).length + sockBufLen + 1) (initBufFd reads) response

/-! ### Replies on a stream -/

/-- The loop on the bytes themselves. -/
def replyTurns : ℕ → Bytes → MessageResponse → Except Fault (ℤ × MessageResponse)
  | 0, _, _ => .error .noReturn
  | fuel + 1, stream, response =>
    let line := lineOf maxLength stream
    if line = [] then .ok (-1, response)
    else if startsWith line "\r\n" then .ok (0, response)
    else
      match responseLine line response with
      | .error f => .error f
      | .ok response => replyTurns fuel (stream.drop line.length) response

theorem getResponseLoop_delivers {r : SockBufRead} {stream : Bytes} (h : Delivers r stream) (fuel : ℕ)
    (response : MessageResponse) :
    getResponseLoop fuel r response = replyTurns fuel stream response := by
  induction fuel generalizing r stream response with
  | zero => rfl
  | succ fuel ih =>
    obtain ⟨q, hread, hrest⟩ := sockReadline_delivers h maxLength
    rw [getResponseLoop, replyTurns, hread]
    dsimp only
    split
    · rfl
    · split
      · rfl
      · cases responseLine (lineOf maxLength stream) response with
        | error f => rfl
        | ok response' => exact ih hrest response'

def decodeReply (stream : Bytes) (response : MessageResponse) : Except Fault (ℤ × MessageResponse) :=
  replyTurns (stream.length + 1) stream response

theorem replyTurns_fuel {fuel fuel' : ℕ} {stream : Bytes} (hfuel : stream.length < fuel)
    (hfuel' : stream.length < fuel') (response : MessageResponse) :
    replyTurns fuel stream response = replyTurns fuel' stream response := by
  induction fuel generalizing fuel' stream response with
  | zero => omega
  | succ fuel ih =>
    obtain ⟨n, rfl⟩ := Nat.exists_eq_succ_of_ne_zero (by omega : fuel' ≠ 0)
    rw [replyTurns, replyTurns]
    by_cases hline : lineOf maxLength stream = []
    · rw [if_pos hline, if_pos hline]
    · rw [if_neg hline, if_neg hline]
      split
      · rfl
      · cases responseLine (lineOf maxLength stream) response with
        | error f => rfl
        | ok response' =>
          have hpos := List.length_pos_iff.mpr hline
          have hne : stream ≠ [] := by
            intro hnil
            rw [hnil] at hline
            exact hline rfl
          have hlen := List.length_pos_iff.mpr hne
          exact ih (by rw [List.length_drop]; omega) (by rw [List.length_drop]; omega) response'

theorem getResponse_eq {reads : List ReadResult} (h : Clean reads) (response : MessageResponse) :
    getResponseFromServer reads response = decodeReply (content reads) response := by
  unfold getResponseFromServer decodeReply
  rw [getResponseLoop_delivers (delivers_init h)]
  exact replyTurns_fuel (by omega) (by omega) response

theorem decodeReply_nil (response : MessageResponse) : decodeReply [] response = .ok (-1, response) := rfl

/-- A line that is complete or fills the buffer. -/
theorem decodeReply_step {stream : Bytes} (hne : stream ≠ []) (response : MessageResponse) :
    decodeReply stream response =
      if startsWith (lineOf maxLength stream) "\r\n" then .ok (0, response)
      else
        match responseLine (lineOf maxLength stream) response with
        | .error f => .error f
        | .ok response' =>
          decodeReply (stream.drop (lineOf maxLength stream).length) response' := by
  have hpos := lineOf_pos (by decide : 0 < maxLength) hne
  have hlen := List.length_pos_iff.mpr hne
  unfold decodeReply
  rw [replyTurns, if_neg (List.length_pos_iff.mp hpos)]
  split
  · rfl
  · cases responseLine (lineOf maxLength stream) response with
    | error f => rfl
    | ok response' => exact replyTurns_fuel (by rw [List.length_drop]; omega) (by omega) response'

/-! ### The lines the server writes -/

def replyNames : List String := ["Status", "Client ID", "Request No", "Msg", "Key", "State"]

theorem replyNames_plain {name : String} (h : name ∈ replyNames) :
    PlainKey name ∧ byte '\r' ∉ ascii name := by
  have hall : ∀ name ∈ replyNames, PlainKey name ∧ byte '\r' ∉ ascii name := by decide +kernel
  exact hall name h

/-- A line of a reply that fits the buffer of the reader. -/
structure ReplyField (f : String × Bytes) : Prop where
  name : f.1 ∈ replyNames
  line : ∀ b ∈ f.2, b ≠ byte '\n' ∧ b ≠ 0
  len : f.2.length + 20 ≤ maxLength

theorem ReplyField.no_newline {f : String × Bytes} (hf : ReplyField f) :
    ∀ b ∈ ascii f.1 ++ ascii ": " ++ f.2 ++ [byte '\r'], b ≠ byte '\n' :=
  fieldLine_no_newline (fun b hb => ((replyNames_plain hf.name).1.2.2 b hb).2.1)
    fun b hb => (hf.line b hb).1

theorem ReplyField.lineOf {f : String × Bytes} (hf : ReplyField f) (rest : Bytes) :
    lineOf maxLength (fieldLine f ++ rest) = fieldLine f := by
  obtain ⟨⟨-, hkey, -⟩, -⟩ := replyNames_plain hf.name
  have hlen := hf.len
  have htotal := fieldLine_length f
  rw [fieldLine_split, List.append_assoc _ [byte '\n']]
  refine lineOf_line hf.no_newline ?_
  rw [fieldLine_split, List.length_append, List.length_singleton] at htotal
  omega

theorem ReplyField.no_nul {f : String × Bytes} (hf : ReplyField f) : ∀ b ∈ fieldLine f, b ≠ 0 :=
  fieldLine_no_nul (fun b hb => ((replyNames_plain hf.name).1.2.2 b hb).2.2)
    fun b hb => (hf.line b hb).2

theorem ReplyField.not_end {f : String × Bytes} (hf : ReplyField f) :
    startsWith (fieldLine f) "\r\n" = false := by
  obtain ⟨⟨hne, -, -⟩, hcr⟩ := replyNames_plain hf.name
  obtain ⟨b, bs, hkey⟩ := List.exists_cons_of_ne_nil hne
  have hb : byte '\r' ≠ b := by
    intro h
    rw [hkey, h] at hcr
    exact hcr (List.mem_cons_self ..)
  unfold startsWith fieldLine
  rw [hkey, crlf_eq]
  simp [List.isPrefixOf, hb]

theorem fieldLine_ne_nil (f : String × Bytes) : fieldLine f ≠ [] := by
  intro h
  have hlen := fieldLine_length f
  rw [h, List.length_nil] at hlen
  omega

theorem decodeReply_line {f : String × Bytes} (hf : ReplyField f) (rest : Bytes)
    (response : MessageResponse) :
    decodeReply (fieldLine f ++ rest) response =
      match responseLine (fieldLine f) response with
      | .error e => .error e
      | .ok response' => decodeReply rest response' := by
  have hne : fieldLine f ++ rest ≠ [] := List.append_ne_nil_of_left_ne_nil (fieldLine_ne_nil f) rest
  rw [decodeReply_step hne, hf.lineOf, hf.not_end, if_neg (by decide), List.drop_left]

theorem decodeReply_end (rest : Bytes) (response : MessageResponse) :
    decodeReply (ascii "\r\n" ++ rest) response = .ok (0, response) := by
  have hline : lineOf maxLength (ascii "\r\n" ++ rest) = ascii "\r\n" := rfl
  have hstart : startsWith (ascii "\r\n") "\r\n" = true := rfl
  have hne : ascii "\r\n" ++ rest ≠ [] := List.cons_ne_nil _ _
  rw [decodeReply_step hne, hline, hstart, if_pos rfl]

def fieldWord (value : Bytes) : Option Bytes := if value = [] then none else some value

theorem sscanf_two_words (v w : String) (hw : ascii w ≠ []) (hhead : ∀ b ∈ (ascii w).head?, isSpace b = false)
    (ds : List Directive) (rest : Bytes) :
    sscanf (lits v ++ .white :: (lits w ++ ds)) ((ascii v ++ byte ' ' :: ascii w) ++ rest) =
      sscanf ds rest := by
  have hhead' : ∀ b ∈ (ascii w ++ rest).head?, isSpace b = false := by
    intro b hb
    rw [List.head?_append_of_ne_nil _ hw] at hb
    exact hhead b hb
  rw [List.append_assoc, List.cons_append, lits, sscanf_lits, sscanf_white_blank _ _ hhead']
  exact sscanf_lits _ _ _

theorem sscanf_format (name : ReplyKey) (rest : Bytes) :
    sscanf name.format (ascii name.text ++ ascii ": " ++ rest) =
      sscanf [.white, .str] (byte ' ' :: rest) := by
  have hline : ascii name.text ++ ascii ": " ++ rest = ascii (name.text ++ ":") ++ byte ' ' :: rest := by
    simp [ascii]
  rw [hline]
  cases name with
  | status | key | state => exact sscanf_lits _ _ _
  | requestNo =>
    have hsplit : ascii (ReplyKey.requestNo.text ++ ":") = ascii "Request" ++ byte ' ' :: ascii "No:" := by
      decide +kernel
    rw [hsplit]
    exact sscanf_two_words "Request" "No:" (by decide +kernel) (by decide +kernel) _ _
  | clientId =>
    have hsplit : ascii (ReplyKey.clientId.text ++ ":") = ascii "Client" ++ byte ' ' :: ascii "ID:" := by
      decide +kernel
    rw [hsplit]
    exact sscanf_two_words "Client" "ID:" (by decide +kernel) (by decide +kernel) _ _

theorem sscanf_text (name : ReplyKey) {word rest : Bytes} (hword : ∀ b ∈ word, isSpace b = false)
    (hne : word ≠ []) (hrest : ∀ b ∈ rest.head?, isSpace b = true) :
    sscanf name.format (ascii name.text ++ ascii ": " ++ (word ++ rest)) = [.text word] := by
  obtain ⟨b, bs, rfl⟩ := List.exists_cons_of_ne_nil hne
  have hb := hword b (List.mem_cons_self ..)
  have hdrop : (byte ' ' :: (b :: bs ++ rest)).dropWhile isSpace = b :: bs ++ rest := by
    rw [List.dropWhile_cons_of_pos (by decide), List.cons_append,
      List.dropWhile_cons_of_neg (by simp [hb])]
  rw [sscanf_format, sscanf, hdrop, sscanf_str_word [] (b :: bs) _ hword (List.cons_ne_nil _ _) hrest]
  rfl

theorem sscanf_word (name : ReplyKey) {value : Bytes} (hword : ∀ b ∈ value, isSpace b = false) :
    sscanf name.format (fieldLine (name.text, value)) =
      ((fieldWord value).map Value.text).toList := by
  have hline : fieldLine (name.text, value) =
      ascii name.text ++ ascii ": " ++ (value ++ ascii "\r\n") := List.append_assoc ..
  rw [hline]
  unfold fieldWord
  by_cases hne : value = []
  · rw [hne, sscanf_format]
    rfl
  · rw [sscanf_text name hword hne (by decide +kernel), if_neg hne]
    rfl

/-- Two texts that differ before the shorter one ends. -/
def Apart (p q : String) : Prop :=
  (ascii p).take (ascii q).length ≠ (ascii q).take (ascii p).length

instance (p q : String) : Decidable (Apart p q) := inferInstanceAs (Decidable (_ ≠ _))

theorem startsWith_self (q : String) (rest : Bytes) : startsWith (ascii q ++ rest) q = true := by
  unfold startsWith
  rw [List.isPrefixOf_iff_prefix]
  exact List.prefix_append _ _

theorem startsWith_apart {p q : String} (h : Apart p q) (rest : Bytes) :
    startsWith (ascii q ++ rest) p = false := by
  by_contra hstart
  unfold startsWith at hstart
  rw [Bool.not_eq_false, List.isPrefixOf_iff_prefix] at hstart
  have hshort {l m : Bytes} (hlm : l <+: m) : l.take m.length = m.take l.length := by
    rw [List.take_of_length_le hlm.length_le, ← List.prefix_iff_eq_take]
    exact hlm
  rcases List.prefix_or_prefix_of_prefix hstart (List.prefix_append (ascii q) rest) with hpq | hqp
  · exact h (hshort hpq)
  · exact h (hshort hqp).symm

theorem replyKeys_apart (k : ReplyKey) {name : String} (hname : name ∈ replyNames)
    (hne : k.text ≠ name) : Apart k.text name := by
  have hall : ∀ name ∈ replyNames, ∀ k ∈ replyKeys, k.text ≠ name → Apart k.text name := by
    decide +kernel
  refine hall name hname k ?_ hne
  cases k <;> decide

theorem replyKey_name (name : ReplyKey) (rest : Bytes) :
    replyKey (ascii name.text ++ rest) = some name := by
  have htest (k : ReplyKey) : startsWith (ascii name.text ++ rest) k.text = decide (k = name) := by
    by_cases hk : k = name
    · rw [hk, startsWith_self, decide_eq_true rfl]
    · have hname : name.text ∈ replyNames := by cases name <;> decide
      have hne : k.text ≠ name.text := by
        revert hk
        cases k <;> cases name <;> decide
      rw [startsWith_apart (replyKeys_apart k hname hne), decide_eq_false hk]
  unfold replyKey
  simp only [htest]
  cases name <;> rfl

theorem replyKey_msg (rest : Bytes) : replyKey (ascii "Msg" ++ rest) = none := by
  unfold replyKey
  rw [List.find?_eq_none]
  intro k _
  have hne : k.text ≠ "Msg" := by cases k <;> decide
  rw [startsWith_apart (replyKeys_apart k (by decide) hne)]
  decide

/-- The line of a field that the reader knows. -/
theorem responseLine_word {name : ReplyKey} {value : Bytes} (hf : ReplyField (name.text, value))
    (hword : ∀ b ∈ value, isSpace b = false) (response : MessageResponse) :
    responseLine (fieldLine (name.text, value)) response =
      if value.length < taskLength then .ok (setReplyField response (fieldWord value) name)
      else .error .outOfBounds := by
  have hkey : replyKey (fieldLine (name.text, value)) = some name := by
    rw [fieldLine, List.append_assoc, List.append_assoc]
    exact replyKey_name name _
  have hroom : (fieldLine (name.text, value)).length < maxLength := by
    have hlen := hf.len
    have hshort := (replyNames_plain hf.name).1.2.1
    rw [fieldLine_length]
    dsimp only at hlen hshort ⊢
    omega
  have hscan : scanWord name (fieldLine (name.text, value)) =
      if value.length < taskLength then .ok (fieldWord value) else .error .outOfBounds := by
    unfold scanWord
    rw [sscanf_word name hword]
    unfold fieldWord
    cases value with
    | nil => rfl
    | cons b value => simp
  unfold responseLine
  rw [hkey]
  dsimp only
  rw [if_pos (Or.inl hroom), cString_of_no_nul _ hf.no_nul, hscan]
  by_cases hlen : value.length < taskLength
  · rw [if_pos hlen, if_pos hlen]
  · rw [if_neg hlen, if_neg hlen]

theorem responseLine_msg (msg : Bytes) (response : MessageResponse) :
    responseLine (fieldLine ("Msg", msg)) response = .ok response := by
  have hkey : replyKey (fieldLine ("Msg", msg)) = none := by
    rw [fieldLine, List.append_assoc, List.append_assoc]
    exact replyKey_msg _
  unfold responseLine
  rw [hkey]

/-! ### What write_client_responce sends -/

def replyHead (ctx : ClientCtx) (status msg : Bytes) : List (String × Bytes) :=
  [("Status", status), ("Client ID", decimalInt ctx.clientId),
    ("Request No", decimal ctx.req.reqNo.toNat), ("Msg", msg)]

/-- The layout for a heartbeat has no empty line. -/
def replyText (s : Server) (ctx : ClientCtx) (status msg : Bytes) : Bytes :=
  match ctx.req.msgType with
  | .msgAdd => headerText (replyHead ctx status msg ++ [("Key", decimal ctx.req.hashKey.toNat)])
  | .msgHeartbeat =>
      (replyHead ctx status msg ++ [("State", decimalInt s.state.toInt)]).flatMap fieldLine
  | _ => headerText (replyHead ctx status msg)

theorem respBytes_eq (s : Server) (ctx : ClientCtx) (status msg : String) :
    respBytes s ctx status msg = replyText s ctx (ascii status) (ascii msg) := by
  have hstatus : ascii "Status: " = ascii "Status" ++ ascii ": " := by decide +kernel
  have hid : ascii "Client ID: " = ascii "Client ID" ++ ascii ": " := by decide +kernel
  have hno : ascii "Request No: " = ascii "Request No" ++ ascii ": " := by decide +kernel
  have hmsg : ascii "Msg: " = ascii "Msg" ++ ascii ": " := by decide +kernel
  have hkey : ascii "Key: " = ascii "Key" ++ ascii ": " := by decide +kernel
  have hstate : ascii "State: " = ascii "State" ++ ascii ": " := by decide +kernel
  have hend : ascii "\r\n\r\n" = ascii "\r\n" ++ ascii "\r\n" := by decide +kernel
  unfold respBytes replyText respHead
  rw [hstatus, hid, hno, hmsg, hkey, hstate, hend]
  cases ctx.req.msgType <;> simp [headerText, replyHead, fieldLine]

/-- `snprintf` cuts a text of MAX_LENGTH bytes, and all of the buffer is written;
a longer one is not sent. -/
def sentReply (text : Bytes) : Bytes :=
  if maxLength < text.length then []
  else if text.length = maxLength then text.take (maxLength - 1) ++ [0]
  else text

def replyMsgs : List String :=
  ["Success", "Check inputs", "req had more than req num of fields",
    "Malformed Key-Value received in input", "Malformed Client ID received",
    "Malformed Msg Type received", "Malformed Task Status", "Malformed Req No.",
    "Malformed Data Length."]

/-- The reader returns 0 and has the values that were sent. -/
def ReplyDecodes (cut : Bytes → List ReadResult) (s : Server) (ctx : ClientCtx) (status : Bytes)
    (msg : String) (response : MessageResponse) : Prop :=
  ∃ got, getResponseFromServer (cut (sentReply (replyText s ctx status (ascii msg)))) response =
      .ok (0, got) ∧
    got.status = status ∧ got.clientId = ctx.clientId ∧ got.reqNo = ctx.req.reqNo.toNat ∧
    (ctx.req.msgType = .msgAdd → got.hashKey = ctx.req.hashKey) ∧
    (ctx.req.msgType = .msgHeartbeat → got.state = s.state)

theorem atoi_decimalInt {z : ℤ} (h : IsInt32 z) : atoi (decimalInt z) = z := by
  have hclamp : max longMin (min longMax z) = z := by
    obtain ⟨hlo, hhi⟩ := h
    unfold longMin longMax
    omega
  have htake : (decimal z.natAbs).takeWhile isDigit = decimal z.natAbs :=
    List.takeWhile_eq_self_iff.mpr (decimal_isDigit _)
  unfold atoi
  rw [splitSign_decimalInt]
  dsimp only
  rw [htake, digitsVal_decimal, natAbs_signed, hclamp, toInt32_of_isInt32 h]

theorem atoi_decimal {n : ℕ} (h : n < 2 ^ 31) : atoi (decimal n) = n := by
  rw [← decimalInt_natCast]
  exact atoi_decimalInt ⟨by omega, by omega⟩

/-- A text of digits, a sign or letters that the reader takes as one word. -/
structure ReplyWord (v : Bytes) : Prop where
  word : ∀ b ∈ v, isSpace b = false ∧ b ≠ 0
  len : v.length + 20 ≤ maxLength

theorem not_newline {b : UInt8} (h : isSpace b = false) : b ≠ byte '\n' := by
  rintro rfl
  exact absurd h (by decide)

theorem ReplyWord.field {v : Bytes} (h : ReplyWord v) {name : String} (hname : name ∈ replyNames) :
    ReplyField (name, v) :=
  ⟨hname, fun b hb => ⟨not_newline (h.word b hb).1, (h.word b hb).2⟩, h.len⟩

theorem replyWord_decimal {n k : ℕ} (hk : 0 < k) (hsmall : k ≤ 1000) (h : n < 10 ^ k) :
    ReplyWord (decimal n) ∧ (decimal n).length < taskLength := by
  have hlen := decimal_length_le n k hk h
  refine ⟨⟨fun b hb => ?_, ?_⟩, ?_⟩
  · have hdigit := decimal_isDigit n b hb
    exact ⟨isDigit_not_isSpace b hdigit, isDigit_ne b 0 hdigit (by decide)⟩
  · unfold maxLength
    omega
  · unfold taskLength
    omega

theorem fieldWord_getD {v w : Bytes} : (fieldWord v).getD w = if v = [] then w else v := by
  unfold fieldWord
  split <;> rfl

theorem replyMsgs_field {msg : String} (h : msg ∈ replyMsgs) :
    ReplyField ("Msg", ascii msg) ∧ (ascii msg).length ≤ 40 := by
  have hall : ∀ msg ∈ replyMsgs, (∀ b ∈ ascii msg, b ≠ byte '\n' ∧ b ≠ 0) ∧ (ascii msg).length ≤ 40 := by
    decide +kernel
  obtain ⟨hline, hlen⟩ := hall msg h
  refine ⟨⟨(by decide : "Msg" ∈ replyNames), hline, ?_⟩, hlen⟩
  dsimp only
  unfold maxLength
  omega

/-- One line with a word. -/
theorem decodeReply_word (name : ReplyKey) {v : Bytes} (h : ReplyWord v) (rest : Bytes)
    (response : MessageResponse) :
    decodeReply (fieldLine (name.text, v) ++ rest) response =
      if v.length < taskLength then decodeReply rest (setReplyField response (fieldWord v) name)
      else .error .outOfBounds := by
  have hname : name.text ∈ replyNames := by cases name <;> decide
  rw [decodeReply_line (h.field hname),
    responseLine_word (h.field hname) fun b hb => (h.word b hb).1]
  by_cases hlen : v.length < taskLength
  · rw [if_pos hlen, if_pos hlen]
  · rw [if_neg hlen, if_neg hlen]

theorem decodeReply_key (key : UInt64) (response : MessageResponse) :
    decodeReply (fieldLine ("Key", decimal key.toNat) ++ ascii "\r\n") response =
      .ok (0, { response with hashKey := key }) := by
  obtain ⟨hword, hlen⟩ := replyWord_decimal (n := key.toNat) (k := 20) (by decide) (by decide)
    (key.toNat_lt.trans (by decide))
  have hend := decodeReply_end [] { response with hashKey := key }
  have hline := decodeReply_word .key hword (ascii "\r\n") response
  rw [if_pos hlen] at hline
  simp only [setReplyField, fieldWord_getD, decimal_ne_nil, if_false,
    strtoull_decimal _ key.toNat_lt, UInt64.ofNat_toNat] at hline
  rw [List.append_nil] at hend
  exact hline.trans hend

theorem decodeReply_state {state : ServerStates} (hstate : state.named = true)
    (response : MessageResponse) :
    decodeReply (fieldLine ("State", decimalInt state.toInt)) response =
      .ok (-1, { response with state := state }) := by
  obtain ⟨n, hn, hsmall⟩ : ∃ n : ℕ, state.toInt = n ∧ n < 10 := by
    cases state with
    | other n => cases hstate
    | _ => exact ⟨_, rfl, by decide⟩
  obtain ⟨hword, hlen⟩ := replyWord_decimal (n := n) (k := 1) (by decide) (by decide) hsmall
  have hline := decodeReply_word .state hword [] response
  have hwire := (ServerStates.named_wire hstate).2
  rw [hn] at hwire
  rw [if_pos hlen] at hline
  simp only [setReplyField, fieldWord_getD, decimal_ne_nil, if_false,
    atoi_decimal (hsmall.trans (by decide)), hwire] at hline
  rw [hn, decimalInt_natCast]
  rw [List.append_nil] at hline
  exact hline.trans (decodeReply_nil _)

section
variable {ctx : ClientCtx} (hid : Counted ctx.clientId) (hno : ctx.req.reqNo.toNat < 2 ^ 31)
  {msg : String} (hmsg : msg ∈ replyMsgs)

include hid hno hmsg

/-- The four lines of every layout. -/
theorem decodeReply_head {status : Bytes} (hstatus : ReplyWord status) (rest : Bytes)
    (response : MessageResponse) :
    decodeReply ((replyHead ctx status (ascii msg)).flatMap fieldLine ++ rest) response =
      if status.length < taskLength then
        decodeReply rest { response with
          status := if status = [] then response.status else status
          clientId := ctx.clientId
          reqNo := ctx.req.reqNo.toNat }
      else .error .outOfBounds := by
  obtain ⟨id, hidEq⟩ : ∃ id : ℕ, ctx.clientId = id := ⟨_, (Int.toNat_of_nonneg hid.1).symm⟩
  have hidLt : id < 2 ^ 31 := by
    have hlt := hid.2
    omega
  obtain ⟨hidWord, hidLen⟩ := replyWord_decimal (n := id) (k := 10) (by decide) (by decide) (by omega)
  obtain ⟨hnoWord, hnoLen⟩ := replyWord_decimal (n := ctx.req.reqNo.toNat) (k := 10) (by decide)
    (by decide) (by omega)
  have hlines : (replyHead ctx status (ascii msg)).flatMap fieldLine ++ rest =
      fieldLine (ReplyKey.status.text, status) ++ (fieldLine (ReplyKey.clientId.text, decimal id) ++
        (fieldLine (ReplyKey.requestNo.text, decimal ctx.req.reqNo.toNat) ++
          (fieldLine ("Msg", ascii msg) ++ rest))) := by
    simp [replyHead, ReplyKey.text, hidEq, decimalInt_natCast]
  rw [hlines, decodeReply_word .status hstatus]
  by_cases hlen : status.length < taskLength
  · rw [if_pos hlen, if_pos hlen, decodeReply_word .clientId hidWord, if_pos hidLen, decodeReply_word .requestNo hnoWord,
      if_pos hnoLen, decodeReply_line (replyMsgs_field hmsg).1, responseLine_msg]
    simp only [setReplyField, fieldWord_getD, decimal_ne_nil, if_false, atoi_decimal hidLt,
      atoi_decimal hno, hidEq]
  · rw [if_neg hlen, if_neg hlen]

/-- The reader takes a reply with a short status for what it says; a heartbeat
reply ends before the reader has seen an empty line. -/
theorem decodeReply_text {s : Server} (hstate : s.state.named = true) {status : Bytes}
    (hstatus : ReplyWord status) (hlen : status.length < taskLength) (response : MessageResponse) :
    ∃ got, decodeReply (replyText s ctx status (ascii msg)) response =
        .ok (if ctx.req.msgType = .msgHeartbeat then -1 else 0, got) ∧
      got.status = (if status = [] then response.status else status) ∧
      got.clientId = ctx.clientId ∧ got.reqNo = ctx.req.reqNo.toNat ∧
      (ctx.req.msgType = .msgAdd → got.hashKey = ctx.req.hashKey) ∧
      (ctx.req.msgType = .msgHeartbeat → got.state = s.state) := by
  have hhead (rest : Bytes) := decodeReply_head hid hno hmsg hstatus rest response
  simp only [if_pos hlen] at hhead
  unfold replyText
  cases htype : ctx.req.msgType with
  | msgAdd =>
    refine ⟨{ response with
      status := if status = [] then response.status else status
      clientId := ctx.clientId
      reqNo := ctx.req.reqNo.toNat
      hashKey := ctx.req.hashKey }, ?_, rfl, rfl, rfl, fun _ => rfl, by simp⟩
    have htext : headerText (replyHead ctx status (ascii msg) ++ [("Key", decimal ctx.req.hashKey.toNat)]) =
        (replyHead ctx status (ascii msg)).flatMap fieldLine ++
          (fieldLine ("Key", decimal ctx.req.hashKey.toNat) ++ ascii "\r\n") := by
      simp [headerText]
    dsimp only
    rw [htext, hhead, decodeReply_key]
    rfl
  | msgHeartbeat =>
    refine ⟨{ response with
      status := if status = [] then response.status else status
      clientId := ctx.clientId
      reqNo := ctx.req.reqNo.toNat
      state := s.state }, ?_, rfl, rfl, rfl, by simp, fun _ => rfl⟩
    dsimp only
    rw [List.flatMap_append, hhead, List.flatMap_singleton, decodeReply_state hstate]
    rfl
  | _ =>
    refine ⟨{ response with
      status := if status = [] then response.status else status
      clientId := ctx.clientId
      reqNo := ctx.req.reqNo.toNat }, ?_, rfl, rfl, rfl, by simp, by simp⟩
    have hend := decodeReply_end [] { response with
      status := if status = [] then response.status else status
      clientId := ctx.clientId
      reqNo := ctx.req.reqNo.toNat }
    rw [List.append_nil] at hend
    dsimp only
    rw [headerText, hhead, hend]
    rfl

end

theorem replyText_split (s : Server) (ctx : ClientCtx) (status msg : Bytes) :
    ∃ rest, replyText s ctx status msg = fieldLine ("Status", status) ++ rest ∧ 10 ≤ rest.length := by
  have hclient : 10 ≤ (fieldLine ("Client ID", decimalInt ctx.clientId)).length := by
    have hkey : (ascii "Client ID").length = 9 := by decide +kernel
    rw [fieldLine_length, hkey]
    omega
  have hhead (more : List (String × Bytes)) (last : Bytes) :
      ∃ rest, (replyHead ctx status msg ++ more).flatMap fieldLine ++ last =
        fieldLine ("Status", status) ++ rest ∧ 10 ≤ rest.length := by
    refine ⟨fieldLine ("Client ID", decimalInt ctx.clientId) ++
      (([("Request No", decimal ctx.req.reqNo.toNat), ("Msg", msg)] ++ more).flatMap fieldLine ++ last),
      by simp [replyHead], ?_⟩
    rw [List.length_append]
    omega
  unfold replyText
  cases ctx.req.msgType with
  | msgAdd => exact hhead _ _
  | msgHeartbeat =>
    have hstate := hhead [("State", decimalInt s.state.toInt)] []
    rw [List.append_nil] at hstate
    exact hstate
  | _ =>
    have hplain := hhead [] (ascii "\r\n")
    rw [List.append_nil] at hplain
    exact hplain

theorem sentReply_room {text : Bytes} (h : text.length < maxLength) : sentReply text = text := by
  unfold sentReply
  rw [if_neg (by omega), if_neg (by omega)]

theorem sentReply_split (first rest : Bytes) (hrest : 0 < rest.length) :
    sentReply (first ++ rest) = [] ∨
      (first.length + rest.length ≤ maxLength ∧ ∃ rest', sentReply (first ++ rest) = first ++ rest') := by
  unfold sentReply
  rw [List.length_append]
  split
  · exact Or.inl rfl
  · split
    · refine Or.inr ⟨by omega, rest.take (maxLength - 1 - first.length) ++ [0], ?_⟩
      rw [List.take_append, List.take_of_length_le (by omega), List.append_assoc]
    · exact Or.inr ⟨by omega, rest, rfl⟩

theorem replyText_room {s : Server} (hstate : s.state.named = true) {ctx : ClientCtx}
    (hid : Counted ctx.clientId) {msg : String} (hmsg : msg ∈ replyMsgs) {status : Bytes}
    (hlen : status.length < taskLength) :
    (replyText s ctx status (ascii msg)).length < maxLength := by
  have hmsgLen := (replyMsgs_field hmsg).2
  have hidLen := (plainWord_decimalInt hid.int32).len
  have hstateLen := (plainWord_decimalInt (ServerStates.named_wire hstate).1).len
  have hnoLen := decimal_toNat_length ctx.req.reqNo
  have hkeyLen := decimal_toNat_length ctx.req.hashKey
  have hroom (more : List (String × Bytes)) (hmore : ∀ f ∈ more, f.1 ∈ replyNames) :
      (headerText (replyHead ctx status (ascii msg) ++ more)).length ≤
        status.length + 19 * more.length + (more.map fun f => f.2.length).sum + 200 := by
    have hkeys : ∀ f ∈ replyHead ctx status (ascii msg) ++ more, (ascii f.1).length ≤ 15 := by
      intro f hf
      refine (replyNames_plain (?_ : f.1 ∈ replyNames)).1.2.1
      rcases List.mem_append.mp hf with hf | hf
      · simp only [replyHead, List.mem_cons, List.not_mem_nil, or_false] at hf
        rcases hf with rfl | rfl | rfl | rfl <;> simp [replyNames]
      · exact hmore f hf
    have htotal := headerText_room hkeys
    simp only [replyHead, List.map_append, List.map_cons, List.map_nil, List.sum_append,
      List.sum_cons, List.sum_nil, List.length_append, List.length_cons, List.length_nil] at htotal
    simp only [replyHead]
    omega
  unfold taskLength at hlen
  unfold maxLength replyText
  cases ctx.req.msgType with
  | msgAdd =>
    have hadd := hroom [("Key", decimal ctx.req.hashKey.toNat)] (by simp [replyNames])
    simp only [List.map_cons, List.map_nil, List.sum_cons, List.sum_nil, List.length_cons,
      List.length_nil] at hadd
    dsimp only
    omega
  | msgHeartbeat =>
    have hbeat := hroom [("State", decimalInt s.state.toInt)] (by simp [replyNames])
    simp only [headerText, List.length_append, List.map_cons, List.map_nil, List.sum_cons,
      List.sum_nil, List.length_cons, List.length_nil] at hbeat
    dsimp only
    omega
  | _ =>
    have hplain := hroom [] (by simp)
    rw [List.append_nil] at hplain
    simp only [List.map_nil, List.sum_nil, List.length_nil] at hplain
    dsimp only
    omega

theorem replyWord_short {status : Bytes} (hword : ∀ b ∈ status, isSpace b = false ∧ b ≠ 0)
    (hlen : status.length < taskLength) : ReplyWord status := by
  refine ⟨hword, ?_⟩
  unfold taskLength at hlen
  unfold maxLength
  omega

/-- A status that does not fit the field is written past its end, or never sent. -/
theorem decodeReply_long {s : Server} {ctx : ClientCtx} {status msg : Bytes}
    (hword : ∀ b ∈ status, isSpace b = false ∧ b ≠ 0) (hlen : taskLength ≤ status.length)
    (response got : MessageResponse) :
    decodeReply (sentReply (replyText s ctx status msg)) response ≠ .ok (0, got) := by
  obtain ⟨rest, htext, hrest⟩ := replyText_split s ctx status msg
  rw [htext]
  rcases sentReply_split (fieldLine ("Status", status)) rest (by omega) with
    hsent | ⟨hfits, rest', hsent⟩
  · rw [hsent, decodeReply_nil]
    simp
  · have hstatus : ReplyWord status := by
      have htotal := fieldLine_length ("Status", status)
      have hkey : (ascii "Status").length = 6 := by decide +kernel
      refine ⟨hword, ?_⟩
      dsimp only at htotal
      omega
    have hline := decodeReply_word .status hstatus rest' response
    rw [if_neg (by omega)] at hline
    rw [hsent]
    exact fun h => by cases hline.symm.trans h

/-- A reply is decoded with all its values exactly when it does not answer a
heartbeat, its status fits the field, and a status that is empty was so before. -/
theorem reply_decodes_iff {cut : Bytes → List ReadResult} (hcut : IsCut cut) {s : Server}
    (hstate : s.state.named = true) {ctx : ClientCtx} (hid : Counted ctx.clientId)
    (hno : ctx.req.reqNo.toNat < 2 ^ 31) {status : Bytes}
    (hword : ∀ b ∈ status, isSpace b = false ∧ b ≠ 0) {msg : String} (hmsg : msg ∈ replyMsgs)
    (response : MessageResponse) :
    ReplyDecodes cut s ctx status msg response ↔
      ctx.req.msgType ≠ .msgHeartbeat ∧ status.length < taskLength ∧
        (status = [] → response.status = []) := by
  obtain ⟨hclean, hcontent⟩ := hcut (sentReply (replyText s ctx status (ascii msg)))
  unfold ReplyDecodes
  rw [getResponse_eq hclean, hcontent]
  by_cases hlen : status.length < taskLength
  · have hroom := replyText_room hstate hid hmsg hlen
    have hsent : sentReply (replyText s ctx status (ascii msg)) = replyText s ctx status (ascii msg) :=
      sentReply_room hroom
    obtain ⟨got, hgot, hstatus, hid', hno', hkey, hstate'⟩ :=
      decodeReply_text hid hno hmsg hstate (replyWord_short hword hlen) hlen response
    rw [hsent, hgot]
    constructor
    · rintro ⟨got', hgot', hstatus', -⟩
      simp only [Except.ok.injEq, Prod.mk.injEq] at hgot'
      obtain ⟨hret, rfl⟩ := hgot'
      refine ⟨fun htype => ?_, hlen, fun hempty => ?_⟩
      · rw [if_pos htype] at hret
        omega
      · rw [if_pos hempty] at hstatus
        rw [← hstatus, hstatus', hempty]
    · rintro ⟨htype, -, hempty⟩
      rw [if_neg htype]
      refine ⟨got, rfl, ?_, hid', hno', hkey, hstate'⟩
      rw [hstatus]
      by_cases hnil : status = []
      · rw [if_pos hnil, hnil, hempty hnil]
      · rw [if_neg hnil]
  · refine ⟨fun ⟨got, hgot, _⟩ => ?_, fun h => absurd h.2.1 hlen⟩
    exact absurd hgot (decodeReply_long hword (Nat.le_of_not_lt hlen) response got)

theorem reply_decodes_iff_add :
    ReplyDecodes byByte { serverId := 1, state := .activeRunning }
        { clientId := 9, req := { msgType := .msgAdd, reqNo := 4, hashKey := 77 } } (ascii "OK") "Success" {} ↔
      MsgType.msgAdd ≠ .msgHeartbeat ∧ (ascii "OK").length < taskLength ∧
        (ascii "OK" = [] → ({} : MessageResponse).status = []) :=
  reply_decodes_iff isCut_byByte rfl (by decide) (by decide) (by decide +kernel) (by decide) {}

/-- The reply to a heartbeat has no empty line: the reader returns -1. -/
theorem heartbeat_reply_fails :
    ¬ReplyDecodes byByte { serverId := 1, state := .activeRunning }
      { clientId := 9, req := { msgType := .msgHeartbeat, reqNo := 4 } } (ascii "OK") "Success" {} := by
  obtain ⟨hclean, hcontent⟩ := isCut_byByte (sentReply (replyText { serverId := 1, state := .activeRunning }
    { clientId := 9, req := { msgType := .msgHeartbeat, reqNo := 4 } } (ascii "OK") (ascii "Success")))
  rintro ⟨got, hgot, -⟩
  rw [getResponse_eq hclean, hcontent] at hgot
  have hret : (decodeReply (sentReply (replyText { serverId := 1, state := .activeRunning }
      { clientId := 9, req := { msgType := .msgHeartbeat, reqNo := 4 } } (ascii "OK") (ascii "Success")))
      {}).toOption.map Prod.fst = some (-1) := by decide +kernel
  rw [hgot] at hret
  cases hret

end ToDoList
