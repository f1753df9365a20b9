import ToDoList.Modify
import ToDoList.FirstReply

/-!
# The prompts and the menu (client.c)

`main` takes the first character of a line as the choice and drops the rest of
the line. A prompt reads a line with `scanf`, which takes nothing from an empty
one: it is still there for the next prompt, or for the menu.
-/

namespace ToDoList
open CLib

/-! ### Standard input -/

def eofChar : UInt8 := 255

/-- `getchar()` kept in a `char`. -/
def getChar : Bytes → UInt8 × Bytes
  | [] => (eofChar, [])
  | c :: stdin => (c, stdin)

/-- `while ((temp_choice = getchar()) != '\n' && temp_choice != EOF)` -/
def discardLine : Bytes → Bytes
  | [] => []
  | c :: stdin => if c = byte '\n' ∨ c = eofChar then stdin else discardLine stdin

/-- (int)(temp_choice - 48), where `char` has a sign. -/
def toChoice (tempChoice : UInt8) : ℤ := tempChoice.toInt8.toInt - 48

/-- `scanf("%8191[^\n]%*c", dst)` into an array of `size` bytes that holds the
string `old`. -/
def scanLine (size : ℕ) (old stdin : Bytes) : Except Fault (Bytes × Bytes) :=
  let text := (stdin.takeWhile fun b => b ≠ byte '\n').take (maxLength - 1)
  if text = [] then .ok (old, stdin)
  else if text.length < size then .ok (cString text, (stdin.drop text.length).drop 1)
  else .error .outOfBounds

/-! ### The prompts -/

/-- `struct message_remove`, the string of its array; nothing reads `req_no`. -/
structure MessageRemove where
  task : Bytes

def removeMessageFields (requestNo clientId : ℤ) (message : MessageRemove) : List (String × Bytes) :=
  [("Request No", decimalInt requestNo), ("Client ID", decimalInt clientId),
    ("Message Type", decimalInt MsgType.msgRemove.toInt), ("Key", message.task)]

def createRemoveMessageToServer (requestNo clientId : ℤ) (message : MessageRemove) :
    Except Fault Bytes :=
  printBuf (headerText (removeMessageFields requestNo clientId message))

def getInputsForMessageAdd (message : MessageAdd) (stdin : Bytes) : Except Fault (MessageAdd × Bytes) :=
  match scanLine taskLength message.task stdin with
  | .error f => .error f
  | .ok (task, stdin) =>
    match scanLine dateLength message.taskDate stdin with
    | .error f => .error f
    | .ok (taskDate, stdin) => .ok (⟨task, taskDate, .taskNotDone⟩, stdin)

def getInputsForMessageRemove (message : MessageRemove) (stdin : Bytes) :
    Except Fault (MessageRemove × Bytes) :=
  match scanLine taskLength message.task stdin with
  | .error f => .error f
  | .ok (task, stdin) => .ok ({ message with task := task }, stdin)

def flagUnlessNA (text : Bytes) (flag flags : ℕ) : ℕ := if startsWith text "NA" then flags else flags ||| flag

def enteredStatus (temp : Bytes) (status : TStatus) : TStatus :=
  if startsWith temp "NA" then status
  else if startsWith temp "DONE" then .taskDone
  else if startsWith temp "NOT_DONE" then .taskNotDone
  else status

def getInputsForMessageModify (message : MessageModify) (stdin : Bytes) :
    Except Fault (MessageModify × Bytes) :=
  match scanLine taskLength message.task stdin with
  | .error f => .error f
  | .ok (task, stdin) =>
    match scanLine taskLength message.newTask stdin with
    | .error f => .error f
    | .ok (newTask, stdin) =>
      match scanLine dateLength message.newDate stdin with
      | .error f => .error f
      | .ok (newDate, stdin) =>
        match scanLine maxLength [] stdin with
        | .error f => .error f
        | .ok (temp, stdin) => .ok ({
            task := task
            newTask := newTask
            newDate := newDate
            newTaskStatus := enteredStatus temp message.newTaskStatus
            modFlags := flagUnlessNA temp modFlagsStatusModified (flagUnlessNA newDate modFlagsDateModified
              (flagUnlessNA newTask modFlagsTaskStringModified message.modFlags)) }, stdin)

/-! ### The menu -/

/-- What is printed for a request: what came of it, and the reply. -/
structure Shown where
  status : ℤ
  response : MessageResponse
deriving DecidableEq

/-- The globals of the client with its standard input, the world it sends its
requests to, and what it has shown. -/
structure Client (W : Type) where
  stdin : Bytes
  clientId : ℤ
  requestNo : ℤ := 0
  responseNo : ℤ := 0
  world : W
  shown : List Shown := []

/-- exit(0), or the loop goes on. -/
inductive MenuTurn (W : Type) where
  | again (c : Client W)
  | goodbye (c : Client W)

section
variable {W : Type} (ask : W → Bytes → Except Fault (W × Exchange))

/-- The request in `buf` is sent with a cleared response; `ask` says what comes
of it outside the client. -/
def sendRequest (c : Client W) (buf : Except Fault Bytes) : Except Fault (Client W) :=
  match buf with
  | .error f => .error f
  | .ok buf =>
    match ask c.world buf with
    | .error f => .error f
    | .ok (world, e) =>
      match sendAndGetResponse e.conns c.clientId e.reports {} c.responseNo with
      | .error f => .error f
      | .ok (status, p) => .ok { c with
          world := world, responseNo := p.responseNo, shown := c.shown ++ [⟨status, p.response⟩] }

def handleNewTask (c : Client W) : Except Fault (Client W) :=
  match getInputsForMessageAdd ⟨[], [], .taskNotDone⟩ c.stdin with
  | .error f => .error f
  | .ok (message, stdin) =>
    let c := { c with stdin := stdin, requestNo := c.requestNo + 1 }
    sendRequest ask c (createAddMessageToServer c.requestNo c.clientId message)

def handleRemoveTask (c : Client W) : Except Fault (Client W) :=
  let c := { c with requestNo := c.requestNo + 1 }
  match getInputsForMessageRemove ⟨[]⟩ c.stdin with
  | .error f => .error f
  | .ok (message, stdin) =>
    sendRequest ask { c with stdin := stdin } (createRemoveMessageToServer c.requestNo c.clientId message)

/-- `stack` is what the local message holds. Cleared are as many bytes of it as a
`struct message_remove` has: the key, and the first four of the new text. -/
def handleModTask (stack : MessageModify) (c : Client W) : Except Fault (Client W) :=
  let c := { c with requestNo := c.requestNo + 1 }
  match getInputsForMessageModify { stack with task := [], newTask := [] } c.stdin with
  | .error f => .error f
  | .ok (message, stdin) =>
    sendRequest ask { c with stdin := stdin } (createModifyMessageToServer c.requestNo c.clientId message)

/-- One pass of the loop of `main`. -/
def menuTurn (stack : MessageModify) (c : Client W) : Except Fault (MenuTurn W) :=
  let (tempChoice, stdin) := getChar c.stdin
  let c := { c with stdin := discardLine stdin }
  match toChoice tempChoice with
  | 1 => (handleNewTask ask c).map .again
  | 2 => (handleRemoveTask ask c).map .again
  | 3 => (handleModTask ask stack c).map .again
  | 4 => .ok (.goodbye c)
  | _ => .ok (.again c)

/-- The client as it exits, if it does within the passes granted. -/
def clientMain (stack : MessageModify) : ℕ → Client W → Except Fault (Client W)
  | 0, _ => .error .noReturn
  | fuel + 1, c =>
    match menuTurn ask stack c with
    | .error f => .error f
    | .ok (.goodbye c) => .ok c
    | .ok (.again c) => clientMain stack fuel c

end

/-! ### What is typed for a command -/

theorem scanLine_line {size : ℕ} (hsize : size ≤ maxLength) (old : Bytes) {line : Bytes}
    (hline : Typeable line) (hne : line ≠ []) (hlen : line.length < size) (rest : Bytes) :
    scanLine size old (line ++ byte '\n' :: rest) = .ok (line, rest) := by
  have hrun : ((line ++ byte '\n' :: rest).takeWhile fun b => b ≠ byte '\n') = line := by
    rw [List.takeWhile_append_of_pos fun b hb => by simpa using (hline b hb).2.1]
    simp
  unfold scanLine
  dsimp only
  rw [hrun, List.take_of_length_le (by omega), if_neg hne, if_pos hlen, List.drop_left,
    cString_of_no_nul line fun b hb => (hline b hb).2.2]
  rfl

/-- What the user can ask for, with the key as it was shown. -/
inductive Command where
  | add (task date : Bytes)
  | remove (key : UInt64)

def Command.typed : Command → Bytes
  | .add task date => byte '1' :: byte '\n' :: (task ++ byte '\n' :: (date ++ [byte '\n']))
  | .remove key => byte '2' :: byte '\n' :: (decimal key.toNat ++ [byte '\n'])

def typedQuit : Bytes := [byte '4', byte '\n']

/-- The texts fit their arrays, are not blank, and the copies that the server makes
of the task stay inside their buffers. -/
def Command.Enterable : Command → Prop
  | .add task date => (MessageAdd.mk task date .taskNotDone).Entered ∧ trimmed task ≠ [] ∧
      trimmed date ≠ [] ∧ 5 + (trimmed task).length ≤ taskLength
  | .remove _ => True

def Command.request (requestNo clientId : ℤ) : Command → Except Fault Bytes
  | .add task date => createAddMessageToServer requestNo clientId ⟨task, date, .taskNotDone⟩
  | .remove key => createRemoveMessageToServer requestNo clientId ⟨decimal key.toNat⟩

theorem ne_nil_of_trimmed {v : Bytes} (h : trimmed v ≠ []) : v ≠ [] := by
  intro hv
  rw [hv] at h
  exact h rfl

section
variable {W : Type} (ask : W → Bytes → Except Fault (W × Exchange)) (stack : MessageModify)

/-- A command that is typed is one pass of the menu and one request. -/
theorem menuTurn_typed {cmd : Command} (h : cmd.Enterable) (rest : Bytes) (c : Client W)
    (hstdin : c.stdin = cmd.typed ++ rest) :
    menuTurn ask stack c = (sendRequest ask { c with stdin := rest, requestNo := c.requestNo + 1 }
      (cmd.request (c.requestNo + 1) c.clientId)).map .again := by
  cases cmd with
  | add task date =>
    obtain ⟨hentered, htask, hdate, -⟩ := h
    have hchoice : menuTurn ask stack c =
        (handleNewTask ask { c with stdin := task ++ byte '\n' :: (date ++ byte '\n' :: rest) }).map .again := by
      unfold menuTurn
      rw [hstdin]
      simp only [Command.typed, List.cons_append, List.append_assoc, List.nil_append]
      rfl
    have hinputs : getInputsForMessageAdd ⟨[], [], .taskNotDone⟩
        (task ++ byte '\n' :: (date ++ byte '\n' :: rest)) = .ok (⟨task, date, .taskNotDone⟩, rest) := by
      unfold getInputsForMessageAdd
      rw [scanLine_line (by decide) _ hentered.task (ne_nil_of_trimmed htask) hentered.taskLen]
      dsimp only
      rw [scanLine_line (by decide) _ hentered.date (ne_nil_of_trimmed hdate) hentered.dateLen]
    rw [hchoice]
    unfold handleNewTask
    dsimp only
    rw [hinputs]
    rfl
  | remove key =>
    have hchoice : menuTurn ask stack c =
        (handleRemoveTask ask { c with stdin := decimal key.toNat ++ byte '\n' :: rest }).map .again := by
      unfold menuTurn
      rw [hstdin]
      simp only [Command.typed, List.cons_append, List.append_assoc, List.nil_append]
      rfl
    have hlen : (decimal key.toNat).length < taskLength :=
      lt_of_le_of_lt (decimal_toNat_length key) (by decide)
    have hinputs : getInputsForMessageRemove ⟨[]⟩ (decimal key.toNat ++ byte '\n' :: rest) =
        .ok (⟨decimal key.toNat⟩, rest) := by
      unfold getInputsForMessageRemove
      rw [scanLine_line (by decide) _ (decimal_typeable _) (decimal_ne_nil _) hlen]
    rw [hchoice]
    unfold handleRemoveTask
    dsimp only
    rw [hinputs]
    rfl

theorem clientMain_typed {cmd : Command} (h : cmd.Enterable) (rest : Bytes) (c : Client W)
    (hstdin : c.stdin = cmd.typed ++ rest) {d : Client W}
    (hsend : sendRequest ask { c with stdin := rest, requestNo := c.requestNo + 1 }
      (cmd.request (c.requestNo + 1) c.clientId) = .ok d) (fuel : ℕ) :
    clientMain ask stack (fuel + 1) c = clientMain ask stack fuel d := by
  rw [clientMain, menuTurn_typed ask stack h rest c hstdin, hsend]
  rfl

theorem menuTurn_quit (c : Client W) (rest : Bytes) (hstdin : c.stdin = typedQuit ++ rest) :
    menuTurn ask stack c = .ok (.goodbye { c with stdin := rest }) := by
  unfold menuTurn
  rw [hstdin]
  rfl

end

end ToDoList
