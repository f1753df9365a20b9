import ToDoList.Server
import ToDoList.Socket

/-!
# Header lines of a request (server.c)

A message is a list of lines `Key: value` and an empty line. The servers, the
factories and the manager read it with the same loop, one line into `msg_buf`
at a time, and hand every pair to a function of their own; `parse_kv` is the
one of the server. Numbers are read by `str_to_int`.
-/

namespace ToDoList
open CLib

/-! ### Numbers and enumerations -/

/-- `(int)v` -/
def toInt32 (v : ℤ) : ℤ := v.bmod (2 ^ 32)

def IsInt32 (z : ℤ) : Prop := -2 ^ 31 ≤ z ∧ z < 2 ^ 31

instance (z : ℤ) : Decidable (IsInt32 z) := inferInstanceAs (Decidable (_ ∧ _))

/-- `str_to_int`; `none` is the `-1`. The result of `strtol` is cut to an `int`
without a test. -/
def strToInt (str : Bytes) : Option ℤ :=
  let r := strtol str
  if r.1 = longMin ∨ r.2 ≠ [] then none else some (toInt32 r.1)

theorem toInt32_of_isInt32 {z : ℤ} (h : IsInt32 z) : toInt32 z = z := by
  obtain ⟨hlo, hhi⟩ := h
  unfold toInt32
  rw [Int.bmod_def]
  split <;> omega

theorem strToInt_decimalInt {z : ℤ} (h : IsInt32 z) : strToInt (decimalInt z) = some z := by
  obtain ⟨hlo, hhi⟩ := h
  have hmin : longMin < z := by
    unfold longMin
    omega
  have hmax : z ≤ longMax := by
    unfold longMax
    omega
  unfold strToInt
  rw [strtol_decimalInt z (le_of_lt hmin) hmax]
  dsimp only
  rw [if_neg, toInt32_of_isInt32 ⟨hlo, hhi⟩]
  rintro (h | h)
  · omega
  · exact h rfl

theorem decimalInt_natCast (n : ℕ) : decimalInt n = decimal n := by
  unfold decimalInt
  rw [if_neg (by omega), Int.natAbs_natCast]

def MsgType.toInt : MsgType → ℤ
  | .invalid => 0
  | .msgAdd => 1
  | .msgModify => 2
  | .msgGetAll => 3
  | .msgRemove => 4
  | .msgHeartbeat => 5
  | .msgChkPt => 6
  | .msgRepMgr => 7
  | .msgSendChkpt => 8
  | .msgQuiesceStart => 9
  | .msgQuiesceStop => 10
  | .other n => n

def MsgType.ofInt : ℤ → MsgType
  | 0 => .invalid
  | 1 => .msgAdd
  | 2 => .msgModify
  | 3 => .msgGetAll
  | 4 => .msgRemove
  | 5 => .msgHeartbeat
  | 6 => .msgChkPt
  | 7 => .msgRepMgr
  | 8 => .msgSendChkpt
  | 9 => .msgQuiesceStart
  | 10 => .msgQuiesceStop
  | n => .other n

def RepMode.toInt : RepMode → ℤ
  | .unknownRep => 0
  | .activeRep => 1
  | .passiveRep => 2
  | .other n => n

def RepMode.ofInt : ℤ → RepMode
  | 0 => .unknownRep
  | 1 => .activeRep
  | 2 => .passiveRep
  | n => .other n

def ServerStates.ofInt : ℤ → ServerStates
  | 0 => .unknownState
  | 1 => .quiesce
  | 2 => .activeRunning
  | 3 => .activeRecover
  | 4 => .passivePrimary
  | 5 => .passiveBackup
  | 6 => .passivePreprimary
  | n => .other n

def TStatus.ofInt : ℤ → TStatus
  | 0 => .taskNotDone
  | 1 => .taskDone
  | n => .other (n % 2 ^ 32).toNat

/-! ### The loop over the lines -/

/-- `sizeof(struct message_modify)` -/
def maxMsgSize : ℕ := 2088

def maxReqFields : ℕ := 20

/-- `msg_buf` as a string. It was cleared before the line was read, so a line
that does not fill it ends with a NUL. -/
def msgString (line : Bytes) : Except Fault Bytes :=
  if line.length < maxMsgSize ∨ (0 : UInt8) ∈ line then .ok (cString line) else .error .outOfBounds

/-- The values of `sscanf(msg_buf, "%[^:]: %[^\r\n]", key, value)`, if there are
two; no string in `msg_buf` is longer than the width given here. -/
def keyValue (msg : Bytes) : Option (Bytes × Bytes) :=
  match sscanf [.set [byte ':'] maxMsgSize, .lit (byte ':'), .white,
      .set [byte '\r', byte '\n'] maxMsgSize] msg with
  | [.text key, .text value] => some (key, value)
  | _ => none

/-- How the loop ends: with the empty line, at the end of the stream, with a
line too many, with a line that is no pair, or with a pair that the parser does
not take. -/
inductive HeaderEnd (σ ρ : Type) where
  | accepted (ctx : σ) (rest : SockBufRead)
  | closed (ctx : σ)
  | tooMany (ctx : σ)
  | malformed (ctx : σ)
  | refused (ctx : σ) (why : ρ)

section
variable {σ ρ : Type} (parse : σ → Bytes → Bytes → Except ρ σ)

/-- `left` is MAX_REQ_FIELDS - input_fields_counter. -/
def headerLoop (left : ℕ) (r : SockBufRead) (ctx : σ) : Except Fault (HeaderEnd σ ρ) :=
  match sockReadline maxMsgSize r with
  | .error f => .error f
  | .ok (line, r) =>
    if line = [] then .ok (.closed ctx)
    else if line = [byte '\r', byte '\n'] then .ok (.accepted ctx r)
    else
      match left with
      | 0 => .ok (.tooMany ctx)
      | left + 1 =>
        match msgString line with
        | .error f => .error f
        | .ok msg =>
          match keyValue msg with
          | none => .ok (.malformed ctx)
          | some (key, value) =>
            match parse ctx key value with
            | .error why => .ok (.refused ctx why)
            | .ok ctx => headerLoop left r ctx

/-- The parser on one pair after the other. -/
def parseFields : σ → List (String × Bytes) → Except ρ σ
  | ctx, [] => .ok ctx
  | ctx, (key, value) :: fields =>
    match parse ctx (ascii key) value with
    | .error why => .error why
    | .ok ctx => parseFields ctx fields

def setFields {κ : Type} (set : σ → Bytes → κ → Except ρ σ) : σ → List (κ × Bytes) → Except ρ σ
  | ctx, [] => .ok ctx
  | ctx, (key, value) :: fields =>
    match set ctx value key with
    | .error why => .error why
    | .ok ctx => setFields set ctx fields

theorem setFields_append {κ : Type} (set : σ → Bytes → κ → Except ρ σ) {ctx ctx' : σ}
    {fields : List (κ × Bytes)} (h : setFields set ctx fields = .ok ctx') (more : List (κ × Bytes)) :
    setFields set ctx (fields ++ more) = setFields set ctx' more := by
  induction fields generalizing ctx with
  | nil =>
    cases h
    rfl
  | cons f fields ih =>
    rw [List.cons_append, setFields]
    rw [setFields] at h
    split at h
    · cases h
    · exact ih h

theorem parseFields_keyed {κ : Type} (text : κ → String) (set : σ → Bytes → κ → Except ρ σ)
    (hset : ∀ ctx key value, parse ctx (ascii (text key)) value = set ctx value key) (ctx : σ)
    (fields : List (κ × Bytes)) :
    parseFields parse ctx (fields.map fun f => (text f.1, f.2)) = setFields set ctx fields := by
  induction fields generalizing ctx with
  | nil => rfl
  | cons f fields ih =>
    rw [List.map_cons, parseFields, setFields, hset]
    split
    · rfl
    · exact ih _

end

/-! ### Messages as they are printed -/

def fieldLine (f : String × Bytes) : Bytes := ascii f.1 ++ ascii ": " ++ f.2 ++ ascii "\r\n"

def headerText (fields : List (String × Bytes)) : Bytes := fields.flatMap fieldLine ++ ascii "\r\n"

theorem headerText_cons (f : String × Bytes) (fields : List (String × Bytes)) (rest : Bytes) :
    headerText (f :: fields) ++ rest = fieldLine f ++ (headerText fields ++ rest) := by
  rw [headerText, List.flatMap_cons, headerText, List.append_assoc, List.append_assoc, List.append_assoc]

/-- A pair on a line of its own. -/
structure LineField (f : String × Bytes) : Prop where
  key_ne : ascii f.1 ≠ []
  key : ∀ b ∈ ascii f.1, b ≠ byte ':' ∧ b ≠ byte '\n' ∧ b ≠ 0
  value : ∀ b ∈ f.2, b ≠ byte '\r' ∧ b ≠ byte '\n' ∧ b ≠ 0
  len : (ascii f.1).length + f.2.length + 4 < maxMsgSize

/-- A pair that comes back from its line. -/
structure GoodField (f : String × Bytes) : Prop where
  key_ne : ascii f.1 ≠ []
  key : ∀ b ∈ ascii f.1, b ≠ byte ':' ∧ b ≠ byte '\n' ∧ b ≠ 0
  value_ne : f.2 ≠ []
  value : ∀ b ∈ f.2, b ≠ byte '\r' ∧ b ≠ byte '\n' ∧ b ≠ 0
  word : ∀ b ∈ f.2.head?, isSpace b = false
  len : (ascii f.1).length + f.2.length + 4 < maxMsgSize

theorem GoodField.line {f : String × Bytes} (h : GoodField f) : LineField f :=
  ⟨h.key_ne, h.key, h.value, h.len⟩

theorem colon_eq : ascii ": " = [byte ':', byte ' '] := rfl

theorem colon_bytes : ∀ b ∈ ascii ": ", b ≠ byte '\n' ∧ b ≠ 0 := by
  intro b hb
  rw [colon_eq] at hb
  rcases List.mem_pair.mp hb with rfl | rfl
  · decide
  · decide

/-- What `%[^\r\n]` stores of a value, the blanks behind the colon taken off. -/
def trimmed (value : Bytes) : Bytes := value.dropWhile isSpace

theorem trimmed_of_word {value : Bytes} (h : ∀ b ∈ value.head?, isSpace b = false) :
    trimmed value = value := by
  cases value with
  | nil => rfl
  | cons b value => simp [trimmed, h b rfl]

/-- The white-space directive takes the line end too when the value is blank. -/
theorem dropWhile_value (value : Bytes) :
    (byte ' ' :: (value ++ [byte '\r', byte '\n'])).dropWhile isSpace =
      if trimmed value = [] then [] else trimmed value ++ [byte '\r', byte '\n'] := by
  have hblank : isSpace (byte ' ') = true := by decide
  have hend : [byte '\r', byte '\n'].dropWhile isSpace = [] := by decide
  rw [List.dropWhile_cons_of_pos hblank, List.dropWhile_append, hend]
  unfold trimmed
  by_cases hempty : value.dropWhile isSpace = []
  · simp [hempty]
  · simp [hempty]

theorem keyValue_typed {key value : Bytes} (hkey : key ≠ []) (hcolon : ∀ b ∈ key, b ≠ byte ':')
    (hline : ∀ b ∈ value, b ≠ byte '\r' ∧ b ≠ byte '\n')
    (hlen : key.length + value.length ≤ maxMsgSize) :
    keyValue (key ++ ascii ": " ++ value ++ ascii "\r\n") =
      if trimmed value = [] then none else some (key, trimmed value) := by
  have htrim : (trimmed value).length ≤ value.length := (List.dropWhile_suffix isSpace).length_le
  have hmem : ∀ b ∈ trimmed value, b ∈ value := fun b hb => (List.dropWhile_suffix isSpace).subset hb
  have hscan : sscanf [.set [byte ':'] maxMsgSize, .lit (byte ':'), .white,
      .set [byte '\r', byte '\n'] maxMsgSize] (key ++ ascii ": " ++ value ++ ascii "\r\n") =
        .text key :: sscanf [.set [byte '\r', byte '\n'] maxMsgSize]
          (if trimmed value = [] then [] else trimmed value ++ [byte '\r', byte '\n']) := by
    rw [crlf_eq, colon_eq, List.append_assoc, List.append_assoc,
      sscanf_set_run _ _ _ _ _ (fun b hb => by simpa using hcolon b hb) hkey (by omega) (by simp),
      List.cons_append, sscanf, if_pos rfl, List.cons_append, List.nil_append, sscanf,
      dropWhile_value]
  unfold keyValue
  rw [hscan]
  by_cases hempty : trimmed value = []
  · rw [if_pos hempty, if_pos hempty]
    rfl
  · rw [if_neg hempty, if_neg hempty, sscanf_set_run _ _ _ _ _
      (fun b hb => by simpa using hline b (hmem b hb)) hempty (by omega) (by simp)]
    rfl

theorem fieldLine_split (f : String × Bytes) :
    fieldLine f = (ascii f.1 ++ ascii ": " ++ f.2 ++ [byte '\r']) ++ [byte '\n'] := by
  rw [fieldLine, crlf_eq, List.append_assoc _ [byte '\r']]
  rfl

theorem fieldLine_no_newline {f : String × Bytes} (hkey : ∀ b ∈ ascii f.1, b ≠ byte '\n')
    (hvalue : ∀ b ∈ f.2, b ≠ byte '\n') :
    ∀ b ∈ ascii f.1 ++ ascii ": " ++ f.2 ++ [byte '\r'], b ≠ byte '\n' := by
  intro b hb
  rw [List.mem_append, List.mem_append, List.mem_append] at hb
  rcases hb with ((hb | hb) | hb) | hb
  · exact hkey b hb
  · exact (colon_bytes b hb).1
  · exact hvalue b hb
  · rw [List.mem_singleton.mp hb]
    decide

theorem fieldLine_no_nul {f : String × Bytes} (hkey : ∀ b ∈ ascii f.1, b ≠ 0)
    (hvalue : ∀ b ∈ f.2, b ≠ 0) : ∀ b ∈ fieldLine f, b ≠ 0 := by
  intro b hb
  rw [fieldLine, List.mem_append, List.mem_append, List.mem_append] at hb
  rcases hb with ((hb | hb) | hb) | hb
  · exact hkey b hb
  · exact (colon_bytes b hb).2
  · exact hvalue b hb
  · exact crlf_no_nul b hb

theorem LineField.no_newline {f : String × Bytes} (h : LineField f) :
    ∀ b ∈ ascii f.1 ++ ascii ": " ++ f.2 ++ [byte '\r'], b ≠ byte '\n' :=
  fieldLine_no_newline (fun b hb => (h.key b hb).2.1) fun b hb => (h.value b hb).2.1

theorem LineField.no_nul {f : String × Bytes} (h : LineField f) : ∀ b ∈ fieldLine f, b ≠ 0 :=
  fieldLine_no_nul (fun b hb => (h.key b hb).2.2) fun b hb => (h.value b hb).2.2

theorem fieldLine_length (f : String × Bytes) :
    (fieldLine f).length = (ascii f.1).length + f.2.length + 4 := by
  have hcolon : (ascii ": ").length = 2 := rfl
  have hcrlf : (ascii "\r\n").length = 2 := rfl
  rw [fieldLine, List.length_append, List.length_append, List.length_append, hcolon, hcrlf]
  omega

theorem LineField.readline {f : String × Bytes} (h : LineField f) {r : SockBufRead} {rest : Bytes}
    (hr : Delivers r (fieldLine f ++ rest)) :
    ∃ r', sockReadline maxMsgSize r = .ok (fieldLine f, r') ∧ Delivers r' rest := by
  obtain ⟨r', hread, hrest⟩ := sockReadline_delivers hr maxMsgSize
  have hshort : (ascii f.1 ++ ascii ": " ++ f.2 ++ [byte '\r']).length < maxMsgSize := by
    have hlen := fieldLine_length f
    have hmax := h.len
    rw [fieldLine_split, List.length_append, List.length_singleton] at hlen
    omega
  have hline : lineOf maxMsgSize (fieldLine f ++ rest) = fieldLine f := by
    rw [fieldLine_split, List.append_assoc _ [byte '\n']]
    exact lineOf_line h.no_newline hshort
  rw [hline] at hread hrest
  rw [List.drop_left] at hrest
  exact ⟨r', hread, hrest⟩

section
variable {σ ρ : Type} (parse : σ → Bytes → Bytes → Except ρ σ)

/-- One line takes one turn of the loop. -/
theorem headerLoop_turn {f : String × Bytes} (hf : LineField f) {r : SockBufRead} {rest : Bytes}
    (hr : Delivers r (fieldLine f ++ rest)) (left : ℕ) (ctx : σ) :
    ∃ r', Delivers r' rest ∧ headerLoop parse (left + 1) r ctx =
      if trimmed f.2 = [] then .ok (.malformed ctx)
      else
        match parse ctx (ascii f.1) (trimmed f.2) with
        | .error why => .ok (.refused ctx why)
        | .ok ctx => headerLoop parse left r' ctx := by
  obtain ⟨r', hread, hrest⟩ := hf.readline hr
  have hlen := fieldLine_length f
  have hkey : 0 < (ascii f.1).length := List.length_pos_iff.mpr hf.key_ne
  have hne : fieldLine f ≠ [] := by
    intro h
    rw [h, List.length_nil] at hlen
    omega
  have hend : fieldLine f ≠ [byte '\r', byte '\n'] := by
    intro h
    rw [h] at hlen
    simp only [List.length_cons, List.length_nil] at hlen
    omega
  have hmsg : msgString (fieldLine f) = .ok (fieldLine f) := by
    rw [msgString, if_pos (Or.inl (by rw [hlen]; exact hf.len)), cString_of_no_nul _ hf.no_nul]
  have hpair : keyValue (fieldLine f) =
      if trimmed f.2 = [] then none else some (ascii f.1, trimmed f.2) :=
    keyValue_typed hf.key_ne (fun b hb => (hf.key b hb).1)
      (fun b hb => ⟨(hf.value b hb).1, (hf.value b hb).2.1⟩) (by
        have hmax := hf.len
        omega)
  refine ⟨r', hrest, ?_⟩
  rw [headerLoop.eq_def, hread]
  dsimp only
  rw [if_neg hne, if_neg hend, hmsg]
  dsimp only
  rw [hpair]
  by_cases hempty : trimmed f.2 = []
  · rw [if_pos hempty, if_pos hempty]
  · rw [if_neg hempty, if_neg hempty]

theorem headerLoop_line {f : String × Bytes} (hf : GoodField f) {r : SockBufRead} {rest : Bytes}
    (hr : Delivers r (fieldLine f ++ rest)) (left : ℕ) (ctx : σ) :
    ∃ r', Delivers r' rest ∧ headerLoop parse (left + 1) r ctx =
      match parse ctx (ascii f.1) f.2 with
      | .error why => .ok (.refused ctx why)
      | .ok ctx => headerLoop parse left r' ctx := by
  obtain ⟨r', hrest, hturn⟩ := headerLoop_turn parse hf.line hr left ctx
  rw [trimmed_of_word hf.word, if_neg hf.value_ne] at hturn
  exact ⟨r', hrest, hturn⟩

theorem headerLoop_end {r : SockBufRead} {rest : Bytes} (hr : Delivers r (ascii "\r\n" ++ rest))
    (left : ℕ) (ctx : σ) :
    ∃ r', Delivers r' rest ∧ headerLoop parse left r ctx = .ok (.accepted ctx r') := by
  obtain ⟨r', hread, hrest⟩ := sockReadline_delivers hr maxMsgSize
  have hline : lineOf maxMsgSize (ascii "\r\n" ++ rest) = [byte '\r', byte '\n'] := by
    have hcr : lineOf maxMsgSize ([byte '\r'] ++ byte '\n' :: rest) = [byte '\r'] ++ [byte '\n'] :=
      lineOf_line (fun b hb => by rw [List.mem_singleton.mp hb]; decide) (by decide)
    rw [crlf_eq]
    exact hcr
  rw [hline] at hread hrest
  refine ⟨r', hrest, ?_⟩
  rw [headerLoop.eq_def, hread]
  dsimp only
  rw [if_neg (List.cons_ne_nil _ _), if_pos rfl]

/-- A message of good fields, at most as many as are left, hands them to the
parser in order; the reader stands behind the empty line. -/
theorem headerLoop_fields {fields : List (String × Bytes)} (hf : ∀ f ∈ fields, GoodField f)
    {r : SockBufRead} {rest : Bytes} (hr : Delivers r (headerText fields ++ rest)) {left : ℕ}
    (hleft : fields.length ≤ left) {ctx ctx' : σ}
    (hparse : parseFields parse ctx fields = .ok ctx') :
    ∃ r', Delivers r' rest ∧ headerLoop parse left r ctx = .ok (.accepted ctx' r') := by
  induction fields generalizing r left ctx with
  | nil =>
    simp only [parseFields, Except.ok.injEq] at hparse
    subst hparse
    exact headerLoop_end parse hr left ctx
  | cons f fields ih =>
    obtain ⟨left, rfl⟩ : ∃ n, left = n + 1 :=
      Nat.exists_eq_succ_of_ne_zero (by rw [List.length_cons] at hleft; omega)
    rw [headerText_cons] at hr
    obtain ⟨q, hq, hstep⟩ := headerLoop_line parse (hf f (List.mem_cons_self ..)) hr left ctx
    rw [parseFields] at hparse
    rw [hstep]
    cases hp : parse ctx (ascii f.1) f.2 with
    | error why =>
      rw [hp] at hparse
      cases hparse
    | ok c =>
      rw [hp] at hparse
      exact ih (fun g hg => hf g (List.mem_cons_of_mem _ hg)) hq
        (by rw [List.length_cons] at hleft; omega) hparse

end

/-! ### The pairs of a message -/

theorem keyValue_no_nul {line key value : Bytes} (h : keyValue (cString line) = some (key, value)) :
    ∀ b ∈ value, b ≠ 0 := by
  have hmem : .text value ∈ sscanf [.set [byte ':'] maxMsgSize, .lit (byte ':'), .white,
      .set [byte '\r', byte '\n'] maxMsgSize] (cString line) := by
    unfold keyValue at h
    split at h
    · rename_i hscan
      cases h
      rw [hscan]
      exact List.mem_cons_of_mem _ (List.mem_cons_self ..)
    · cases h
  intro b hb
  have hstr : b ∈ cString line := (sscanf_text_part hmem).subset hb
  unfold cString at hstr
  simpa using List.mem_takeWhile_imp hstr

def notePair (pairs : List (Bytes × Bytes)) (key value : Bytes) :
    Except Empty (List (Bytes × Bytes)) :=
  .ok (pairs ++ [(key, value)])

/-- The pairs of the message on a connection, if the loop reads it to its end. -/
def headerPairs (reads : List ReadResult) : List (Bytes × Bytes) :=
  match headerLoop notePair maxReqFields (initBufFd reads) [] with
  | .ok (.accepted pairs _) => pairs
  | _ => []

section
variable {σ ρ : Type} (parse : σ → Bytes → Bytes → Except ρ σ)

theorem headerLoop_accepted {left : ℕ} {r rest : SockBufRead} {ctx ctx' : σ}
    (h : headerLoop parse left r ctx = .ok (.accepted ctx' rest)) :
    ∃ line q, sockReadline maxMsgSize r = .ok (line, q) ∧ line ≠ [] ∧
      ((line = [byte '\r', byte '\n'] ∧ ctx' = ctx ∧ rest = q) ∨
        (line ≠ [byte '\r', byte '\n'] ∧ ∃ n key value ctx₁, left = n + 1 ∧
          msgString line = .ok (cString line) ∧ keyValue (cString line) = some (key, value) ∧
          parse ctx key value = .ok ctx₁ ∧
          headerLoop parse n q ctx₁ = .ok (.accepted ctx' rest))) := by
  rw [headerLoop.eq_def] at h
  cases hread : sockReadline maxMsgSize r with
  | error f =>
    rw [hread] at h
    cases h
  | ok p =>
    obtain ⟨line, q⟩ := p
    rw [hread] at h
    dsimp only at h
    by_cases hne : line = []
    · rw [if_pos hne] at h
      cases h
    rw [if_neg hne] at h
    refine ⟨line, q, rfl, hne, ?_⟩
    by_cases hend : line = [byte '\r', byte '\n']
    · rw [if_pos hend] at h
      cases h
      exact Or.inl ⟨hend, rfl, rfl⟩
    rw [if_neg hend] at h
    refine Or.inr ⟨hend, ?_⟩
    cases left with
    | zero => cases h
    | succ n =>
      dsimp only at h
      by_cases hroom : line.length < maxMsgSize ∨ (0 : UInt8) ∈ line
      · have hmsg : msgString line = .ok (cString line) := if_pos hroom
        rw [hmsg] at h
        dsimp only at h
        cases hpair : keyValue (cString line) with
        | none =>
          rw [hpair] at h
          cases h
        | some p =>
          rw [hpair] at h
          dsimp only at h
          cases hparse : parse ctx p.1 p.2 with
          | error why =>
            rw [hparse] at h
            cases h
          | ok ctx₁ =>
            rw [hparse] at h
            exact ⟨n, p.1, p.2, ctx₁, rfl, hmsg, rfl, hparse, h⟩
      · have hmsg : msgString line = .error .outOfBounds := if_neg hroom
        rw [hmsg] at h
        cases h

/-- What every pair keeps, between the context and the pairs so far, holds of
the accepted context and the pairs of the message. -/
theorem headerLoop_noted (I : σ → List (Bytes × Bytes) → Prop)
    (hstep : ∀ ctx pairs key value ctx', (∀ b ∈ value, b ≠ 0) → I ctx pairs →
      parse ctx key value = .ok ctx' → I ctx' (pairs ++ [(key, value)]))
    {left : ℕ} {r rest : SockBufRead} {ctx ctx' : σ} {pairs : List (Bytes × Bytes)}
    (hI : I ctx pairs) (h : headerLoop parse left r ctx = .ok (.accepted ctx' rest)) :
    ∃ pairs', headerLoop notePair left r pairs = .ok (.accepted pairs' rest) ∧ I ctx' pairs' := by
  induction left generalizing r ctx pairs with
  | zero =>
    obtain ⟨line, q, hread, hne, ⟨hend, rfl, rfl⟩ | ⟨-, n, -, -, -, hleft, -⟩⟩ :=
      headerLoop_accepted parse h
    · refine ⟨pairs, ?_, hI⟩
      rw [headerLoop.eq_def, hread]
      dsimp only
      rw [if_neg hne, if_pos hend]
    · omega
  | succ left ih =>
    obtain ⟨line, q, hread, hne, ⟨hend, rfl, rfl⟩ |
      ⟨hend, n, key, value, ctx₁, hleft, hmsg, hpair, hparse, hrest⟩⟩ := headerLoop_accepted parse h
    · refine ⟨pairs, ?_, hI⟩
      rw [headerLoop.eq_def, hread]
      dsimp only
      rw [if_neg hne, if_pos hend]
    · cases hleft
      obtain ⟨pairs', hloop, hI'⟩ :=
        ih (hstep ctx pairs key value ctx₁ (keyValue_no_nul hpair) hI hparse) hrest
      refine ⟨pairs', ?_, hI'⟩
      rw [headerLoop.eq_def, hread]
      dsimp only
      rw [if_neg hne, if_neg hend, hmsg]
      dsimp only
      rw [hpair]
      exact hloop

end

/-! ### Short fields in a buffer -/

/-- A value on one line, not empty, at most 19 bytes long, and not beginning
with white space. -/
structure PlainWord (v : Bytes) : Prop where
  ne : v ≠ []
  len : v.length ≤ 19
  line : ∀ b ∈ v, b ≠ byte '\r' ∧ b ≠ byte '\n' ∧ b ≠ 0
  start : ∀ b ∈ v.head?, isSpace b = false

def PlainKey (key : String) : Prop :=
  ascii key ≠ [] ∧ (ascii key).length ≤ 15 ∧ ∀ b ∈ ascii key, b ≠ byte ':' ∧ b ≠ byte '\n' ∧ b ≠ 0

instance (key : String) : Decidable (PlainKey key) := inferInstanceAs (Decidable (_ ∧ _ ∧ _))

def PlainField (f : String × Bytes) : Prop := PlainKey f.1 ∧ PlainWord f.2

theorem plainWord_decimal {n : ℕ} (h : n < 10 ^ 18) : PlainWord (decimal n) := by
  have hdigit := decimal_isDigit n
  refine ⟨decimal_ne_nil n, ?_, ?_, ?_⟩
  · exact (decimal_length_le n 18 (by decide) h).trans (by decide)
  · intro b hb
    have hb' := hdigit b hb
    exact ⟨isDigit_ne b _ hb' (by decide), isDigit_ne b _ hb' (by decide),
      isDigit_ne b _ hb' (by decide)⟩
  · intro b hb
    exact isDigit_not_isSpace b (hdigit b (List.mem_of_mem_head? hb))

theorem plainWord_decimalInt {z : ℤ} (h : IsInt32 z) : PlainWord (decimalInt z) := by
  obtain ⟨hlo, hhi⟩ := h
  have hsmall : z.natAbs < 10 ^ 10 := by omega
  have habs : PlainWord (decimal z.natAbs) := plainWord_decimal (by omega)
  unfold decimalInt
  split
  · refine ⟨List.cons_ne_nil _ _, ?_, ?_, ?_⟩
    · have hlen := decimal_length_le z.natAbs 10 (by decide) hsmall
      rw [List.length_cons]
      omega
    · intro b hb
      rcases List.mem_cons.mp hb with rfl | hb
      · decide
      · exact habs.line b hb
    · intro b hb
      cases hb
      decide
  · exact habs

theorem PlainField.good {f : String × Bytes} (h : PlainField f) : GoodField f := by
  obtain ⟨⟨hne, hlen, hkey⟩, hword⟩ := h
  refine ⟨hne, hkey, hword.ne, hword.line, hword.start, ?_⟩
  have hvalue := hword.len
  unfold maxMsgSize
  omega

theorem PlainField.length {f : String × Bytes} (h : PlainField f) : (fieldLine f).length ≤ 38 := by
  have hkey := h.1.2.1
  have hvalue := h.2.len
  rw [fieldLine_length]
  omega

theorem headerText_length {fields : List (String × Bytes)} (h : ∀ f ∈ fields, PlainField f) :
    (headerText fields).length ≤ 38 * fields.length + 2 := by
  induction fields with
  | nil => decide +kernel
  | cons f fields ih =>
    have hf := (h f (List.mem_cons_self ..)).length
    have hrest := ih fun g hg => h g (List.mem_cons_of_mem _ hg)
    rw [headerText, List.length_append] at hrest ⊢
    rw [List.flatMap_cons, List.length_append, List.length_cons]
    omega

/-- `sprintf` into a cleared buffer of MAX_LENGTH bytes. -/
def printBuf (text : Bytes) : Except Fault Bytes :=
  if text.length < maxLength then .ok (text ++ List.replicate (maxLength - text.length) 0)
  else .error .outOfBounds

/-- A way to deliver every stream, in pieces of any size and with interrupted
calls anywhere between them. -/
def IsCut (cut : Bytes → List ReadResult) : Prop :=
  ∀ bytes, Clean (cut bytes) ∧ content (cut bytes) = bytes

/-- A buffer of short fields, at most MAX_REQ_FIELDS, comes through the loop. -/
theorem headerLoop_printBuf {σ ρ : Type} (parse : σ → Bytes → Bytes → Except ρ σ)
    {cut : Bytes → List ReadResult} (hcut : IsCut cut) {fields : List (String × Bytes)}
    (h : ∀ f ∈ fields, PlainField f) (hcount : fields.length ≤ maxReqFields) {ctx ctx' : σ}
    (hparse : parseFields parse ctx fields = .ok ctx') :
    ∃ buf rest, printBuf (headerText fields) = .ok buf ∧
      headerLoop parse maxReqFields (initBufFd (cut buf)) ctx = .ok (.accepted ctx' rest) := by
  have hroom : (headerText fields).length < maxLength := by
    have hlen := headerText_length h
    unfold maxReqFields at hcount
    unfold maxLength
    omega
  refine ⟨headerText fields ++ List.replicate (maxLength - (headerText fields).length) 0, ?_⟩
  obtain ⟨hclean, hcontent⟩ :=
    hcut (headerText fields ++ List.replicate (maxLength - (headerText fields).length) 0)
  have hdel := delivers_init hclean
  rw [hcontent] at hdel
  obtain ⟨rest, -, hloop⟩ := headerLoop_fields parse (fun f hf => (h f hf).good) hdel hcount hparse
  exact ⟨rest, if_pos hroom, hloop⟩

section
variable {σ ρ κ : Type} {parse : σ → Bytes → Bytes → Except ρ σ} {text : κ → String}
  {set : σ → Bytes → κ → Except ρ σ}
  (hset : ∀ ctx key value, parse ctx (ascii (text key)) value = set ctx value key)
  (hkey : ∀ key, PlainKey (text key))

include hset hkey

theorem headerLoop_keyed {cut : Bytes → List ReadResult} (hcut : IsCut cut)
    {fields : List (κ × Bytes)} (h : ∀ f ∈ fields, PlainWord f.2)
    (hcount : fields.length ≤ maxReqFields) {ctx ctx' : σ}
    (hfields : setFields set ctx fields = .ok ctx') :
    ∃ buf rest, printBuf (headerText (fields.map fun f => (text f.1, f.2))) = .ok buf ∧
      headerLoop parse maxReqFields (initBufFd (cut buf)) ctx = .ok (.accepted ctx' rest) := by
  refine headerLoop_printBuf parse hcut ?_ ?_ ?_
  · intro f hf
    obtain ⟨g, hg, rfl⟩ := List.mem_map.mp hf
    exact ⟨hkey g.1, h g hg⟩
  · rw [List.length_map]
    exact hcount
  · rw [parseFields_keyed parse text set hset]
    exact hfields

end

/-! ### The fields of a request -/

inductive RequestKey where
  | clientId
  | messageType
  | task
  | taskStatus
  | dueDate
  | key
  | newTask
  | newDate
  | newStatus
  | requestNo
  | dataLength
  | repMode
  | serverState
  | replica1Id
  | replica1Ip
  | replica1Port
  | replica2Id
  | replica2Ip
  | replica2Port
  | checkpointFreq
deriving Repr, DecidableEq

def RequestKey.text : RequestKey → String
  | .clientId => "Client ID"
  | .messageType => "Message Type"
  | .task => "Task"
  | .taskStatus => "Task status"
  | .dueDate => "Due date"
  | .key => "Key"
  | .newTask => "New Task"
  | .newDate => "New Date"
  | .newStatus => "New status"
  | .requestNo => "Request No"
  | .dataLength => "Data Length"
  | .repMode => "REP MODE"
  | .serverState => "Server State"
  | .replica1Id => "Replica 1 ID"
  | .replica1Ip => "Replica 1 IP"
  | .replica1Port => "Replica 1 Port"
  | .replica2Id => "Replica 2 ID"
  | .replica2Ip => "Replica 2 IP"
  | .replica2Port => "Replica 2 Port"
  | .checkpointFreq => "Checkpoint freq"

def requestKeys : List RequestKey :=
  [.clientId, .messageType, .task, .taskStatus, .dueDate, .key, .newTask, .newDate, .newStatus,
    .requestNo, .dataLength, .repMode, .serverState, .replica1Id, .replica1Ip, .replica1Port,
    .replica2Id, .replica2Ip, .replica2Port, .checkpointFreq]

def headerKey (key : Bytes) : Option RequestKey := requestKeys.find? fun k => ascii k.text = key

theorem mem_requestKeys (k : RequestKey) : k ∈ requestKeys := by
  cases k <;> decide

theorem headerKey_text (k : RequestKey) : headerKey (ascii k.text) = some k := by
  have hall : ∀ k ∈ requestKeys, headerKey (ascii k.text) = some k := by decide +kernel
  exact hall k (mem_requestKeys k)

/-- `str_to_int` into a field, with the `Msg` of the reply when it fails. -/
def intField {σ ρ : Type} (value : Bytes) (why : ρ) (set : ℤ → σ) : Except ρ σ :=
  match strToInt value with
  | none => .error why
  | some v => .ok (set v)

theorem intField_eq_ok {σ ρ : Type} {value : Bytes} {why : ρ} {set : ℤ → σ} {c : σ}
    (h : intField value why set = .ok c) : ∃ v, c = set v := by
  unfold intField at h
  split at h
  · cases h
  · rename_i v hv
    cases h
    exact ⟨v, rfl⟩

/-- `*(int *)&x = v` for a field of 64 bits. -/
def setLow32 (x : ℕ) (v : ℤ) : ℕ := x / 2 ^ 32 * 2 ^ 32 + (v % 2 ^ 32).toNat

def intBytes (v : ℤ) : Bytes :=
  let n := (v % 2 ^ 32).toNat
  [UInt8.ofNat n, UInt8.ofNat (n / 2 ^ 8), UInt8.ofNat (n / 2 ^ 16), UInt8.ofNat (n / 2 ^ 24)]

def TStatus.toInt : TStatus → ℤ
  | .taskNotDone => 0
  | .taskDone => 1
  | .other n => n

/-- `strlen(client_ctx->req.task)`. A value that fills the array leaves no
terminator in it; `date` and `task_status` lie behind it, and then `mod_flags`,
which is 0. -/
def taskStrlen (req : ClientRequest) : ℕ :=
  (cString (req.task.toList ++ req.date.toList ++ intBytes req.taskStatus.toInt)).length

def setTask (req : ClientRequest) (value : Bytes) : ClientRequest :=
  let req := { req with task := strncpy taskLength value }
  { req with taskLen := UInt64.ofNat (taskStrlen req) }

def setRepMgrMsg (ctx : ClientCtx) (msg : RepMgrMsg) : ClientCtx :=
  { ctx with req := { ctx.req with repMgrMsg := msg } }

def setBckup1 (ctx : ClientCtx) (svr : BsvrCtx) : ClientCtx :=
  setRepMgrMsg ctx { ctx.req.repMgrMsg with bckupSvr := (svr, ctx.req.repMgrMsg.bckupSvr.2) }

def setBckup2 (ctx : ClientCtx) (svr : BsvrCtx) : ClientCtx :=
  setRepMgrMsg ctx { ctx.req.repMgrMsg with bckupSvr := (ctx.req.repMgrMsg.bckupSvr.1, svr) }

def ipLength : ℕ := 1024

/-- `strncpy(server_ip, value, sizeof(server_ip))` -/
def copyIp (info : ServerInfo) (value : Bytes) : ServerInfo :=
  { info with serverIp := cString (strncpy ipLength value).toList }

/-- The branches of `parse_kv`. The fields from REP MODE on report the text of
Data Length. -/
def setRequestField (ctx : ClientCtx) (value : Bytes) :
    RequestKey → Except String ClientCtx
  | .clientId => intField value "Malformed Client ID received" fun v => { ctx with clientId := v }
  | .messageType => intField value "Malformed Msg Type received" fun v =>
      { ctx with req := { ctx.req with msgType := .ofInt v } }
  | .task | .newTask => .ok { ctx with req := setTask ctx.req value }
  | .taskStatus | .newStatus => intField value "Malformed Task Status" fun v =>
      { ctx with req := { ctx.req with taskStatus := .ofInt v } }
  | .dueDate | .newDate =>
      .ok { ctx with req := { ctx.req with date := strncpy dateLength value } }
  | .key => .ok { ctx with req := { ctx.req with hashKey := strtoull value } }
  | .requestNo => intField value "Malformed Req No." fun v =>
      { ctx with req := { ctx.req with reqNo := UInt64.ofNat (setLow32 ctx.req.reqNo.toNat v) } }
  | .dataLength => intField value "Malformed Data Length." fun v =>
      { ctx with req := { ctx.req with
          payload := { ctx.req.payload with size := setLow32 ctx.req.payload.size v } } }
  | .repMode => intField value "Malformed Data Length." fun v =>
      setRepMgrMsg ctx { ctx.req.repMgrMsg with repMode := .ofInt v }
  | .serverState => intField value "Malformed Data Length." fun v =>
      setRepMgrMsg ctx { ctx.req.repMgrMsg with serverState := .ofInt v }
  | .replica1Id => intField value "Malformed Data Length." fun v =>
      setBckup1 ctx { ctx.req.repMgrMsg.bckupSvr.1 with serverId := v }
  | .replica1Ip => .ok (setBckup1 ctx { ctx.req.repMgrMsg.bckupSvr.1 with
      info := copyIp ctx.req.repMgrMsg.bckupSvr.1.info value })
  | .replica1Port => intField value "Malformed Data Length." fun v =>
      setBckup1 ctx { ctx.req.repMgrMsg.bckupSvr.1 with
        info := { ctx.req.repMgrMsg.bckupSvr.1.info with port := v } }
  | .replica2Id => intField value "Malformed Data Length." fun v =>
      setBckup2 ctx { ctx.req.repMgrMsg.bckupSvr.2 with serverId := v }
  | .replica2Ip => .ok (setBckup2 ctx { ctx.req.repMgrMsg.bckupSvr.2 with
      info := copyIp ctx.req.repMgrMsg.bckupSvr.2.info value })
  | .replica2Port => intField value "Malformed Data Length." fun v =>
      setBckup2 ctx { ctx.req.repMgrMsg.bckupSvr.2 with
        info := { ctx.req.repMgrMsg.bckupSvr.2.info with port := v } }
  | .checkpointFreq => intField value "Malformed Data Length." fun v =>
      setRepMgrMsg ctx { ctx.req.repMgrMsg with checkpointFreq := v }

def parseKv (ctx : ClientCtx) (key value : Bytes) : Except String ClientCtx :=
  match headerKey key with
  | none => .ok ctx
  | some k => setRequestField ctx value k

theorem parseKv_text (ctx : ClientCtx) (k : RequestKey) (value : Bytes) :
    parseKv ctx (ascii k.text) value = setRequestField ctx value k := by
  rw [parseKv, headerKey_text]

theorem plainKey_request (k : RequestKey) : PlainKey k.text := by
  have hall : ∀ k ∈ requestKeys, PlainKey k.text := by decide +kernel
  exact hall k (mem_requestKeys k)

/-- The `Msg` of the reply to a request whose header is not accepted; none when
the stream has ended. -/
def headerReply {σ : Type} : HeaderEnd σ String → Option String
  | .accepted .. | .closed _ => none
  | .tooMany _ => some "req had more than req num of fields"
  | .malformed _ => some "Malformed Key-Value received in input"
  | .refused _ why => some why

end ToDoList
