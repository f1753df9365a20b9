import ToDoList.Response

/-!
# The client waiting for replies (client.c)

`send_and_get_response` stores the socket of server `i` in entry `i` of `pfds`,
and polls the first `nfds` entries, as many as there are connected servers.
-/

namespace ToDoList
open CLib

/-- What comes of the attempt to reach a server: `connect_to_server` fails and
leaves its socket open, the request cannot be written, or it is written. The
reads are those of the reply up to the end of the connection; a server without
any stays silent. -/
inductive Conn where
  | refused (fd : ℤ)
  | writeFailed (fd : ℤ)
  | connected (fd : ℤ) (reply : Option (List ReadResult))

/-- An entry of the cleared array; `events` is whether it asks for POLLIN. -/
structure PollFd where
  fd : ℤ := 0
  events : Bool := false

/-- The locals of `send_and_get_response` with `response_no_g`. The last four
fields are not in the source: the sockets this call has open, those that
`connect_to_server` has left open, the calls of `close` on anything else, and
for each complete reply whether it was accepted. -/
structure Polling where
  pfds : ℕ → PollFd := fun _ => {}
  nfds : ℕ := 0
  numOpenFds : ℤ := 0
  success : Bool := false
  response : MessageResponse
  responseNo : ℤ
  held : List ℤ := []
  leaked : List ℤ := []
  stray : List ℤ := []
  log : List Bool := []

/-! ### Connecting -/

def connectAt (p : Polling) (i : ℕ) : Conn → Polling
  | .refused fd => { p with leaked := p.leaked ++ [fd] }
  | .writeFailed _ => p
  | .connected fd _ => { p with
      pfds := Function.update p.pfds i ⟨fd, true⟩, nfds := p.nfds + 1, held := p.held ++ [fd] }

def connectLoop : ℕ → List Conn → Polling → Polling
  | _, [], p => { p with numOpenFds := p.nfds }
  | i, c :: cs, p => connectLoop (i + 1) cs (connectAt p i c)

def startPolling (conns : List Conn) (response : MessageResponse) (responseNo : ℤ) : Polling :=
  connectLoop 0 conns { response := response, responseNo := responseNo }

/-! ### Polling -/

/-- `close(fd)` -/
def closeHeld (p : Polling) (fd : ℤ) : Polling :=
  if fd ∈ p.held then { p with held := p.held.erase fd } else { p with stray := p.stray ++ [fd] }

/-- `close(pfds[j].fd); pfds[j].fd = -1; num_open_fds--;` -/
def releaseSlot (p : Polling) (j : ℕ) : Polling :=
  { closeHeld p (p.pfds j).fd with
    pfds := Function.update p.pfds j { p.pfds j with fd := -1 }
    numOpenFds := p.numOpenFds - 1 }

/-- What follows a complete reply. -/
def acceptReply (clientId : ℤ) (p : Polling) : Polling :=
  if p.response.reqNo = p.responseNo then { p with log := p.log ++ [false] }
  else
    let p := { p with responseNo := p.responseNo + 1, log := p.log ++ [true] }
    if parseResponseFromServer p.response clientId < 0 then p else { p with success := true }

/-- The branch for POLLIN; a reply that ends early leaves its socket in the entry. -/
def readSlot (clientId : ℤ) (reads : List ReadResult) (p : Polling) (j : ℕ) : Except Fault Polling :=
  match getResponseFromServer reads p.response with
  | .error f => .error f
  | .ok (status, response) =>
    let p := { p with response := response }
    if status < 0 then .ok (closeHeld p (p.pfds j).fd) else .ok (acceptReply clientId (releaseSlot p j))

def replyAt (conns : List Conn) (j : ℕ) : Option (List ReadResult) :=
  match conns[j]? with
  | some (.connected _ reply) => reply
  | _ => none

/-- POLLIN can be reported for an entry that asks for it and whose socket is open. -/
def Readable (conns : List Conn) (p : Polling) (j : ℕ) : Prop :=
  (replyAt conns j).isSome ∧ (p.pfds j).events = true ∧ (p.pfds j).fd ∈ p.held

instance (conns : List Conn) (p : Polling) (j : ℕ) : Decidable (Readable conns p j) :=
  inferInstanceAs (Decidable (_ ∧ _ ∧ _))

section
variable (conns : List Conn) (clientId : ℤ)

/-- `report` says what this round of `poll` tells of the readable sockets. -/
def pollSlot (report : ℕ → Bool) (p : Polling) (j : ℕ) : Except Fault Polling :=
  if Readable conns p j ∧ report j = true then readSlot clientId ((replyAt conns j).getD []) p j
  else .ok p

def pollSlots (report : ℕ → Bool) : List ℕ → Polling → Except Fault Polling
  | [], p => .ok p
  | j :: js, p =>
    match pollSlot conns clientId report p j with
    | .error f => .error f
    | .ok p => pollSlots report js p

def closeSlot (p : Polling) (j : ℕ) : Polling := if (p.pfds j).fd = -1 then p else releaseSlot p j

/-- Every entry that still has a descriptor is closed, whatever it is. -/
def cleanUp (p : Polling) : Polling :=
  if p.success then (List.range p.nfds).foldl closeSlot p else p

def pollRound (report : ℕ → Bool) (p : Polling) : Except Fault Polling :=
  (pollSlots conns clientId report (List.range p.nfds) p).map cleanUp

/-- The states at the head of the loop, after as many rounds as there are
reports or when the loop has ended. -/
def pollLoop : List (ℕ → Bool) → Polling → Except Fault Polling
  | [], p => .ok p
  | report :: reports, p =>
    if 0 < p.numOpenFds then
      match pollRound conns clientId report p with
      | .error f => .error f
      | .ok p => pollLoop reports p
    else .ok p

/-- The value returned with the last state, when the loop ends within the
rounds. -/
def sendAndGetResponse (reports : List (ℕ → Bool)) (response : MessageResponse) (responseNo : ℤ) :
    Except Fault (ℤ × Polling) :=
  match pollLoop conns clientId reports (startPolling conns response responseNo) with
  | .error f => .error f
  | .ok p =>
    if 0 < p.numOpenFds then .error .noReturn
    else .ok (if p.success then 0 else -1, p)

end

end ToDoList
