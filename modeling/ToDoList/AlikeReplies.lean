import ToDoList.ClientReplies

/-!
# Servers that give the same reply

However `poll` reports the sockets, a client whose servers give one and the same
reply, or none, has counted it once when the loop ends. The loop ends when all of
them are heard, or with a reply that says OK; with any other it waits for the
servers that stay silent.
-/

namespace ToDoList
open CLib

/-- The server is reached, and the client has `got` from its reply, also when
the reply of another server has been read before. -/
def Conn.Gives (got : MessageResponse) : Conn → Prop
  | .connected _ (some reads) =>
      getResponseFromServer reads {} = .ok (0, got) ∧ getResponseFromServer reads got = .ok (0, got)
  | _ => False

/-- The server is reached and does not answer. -/
def Conn.Quiet : Conn → Prop
  | .connected _ none => True
  | _ => False

theorem Conn.Gives.connected {got : MessageResponse} {c : Conn} (h : c.Gives got) :
    ∃ fd reads, c = .connected fd (some reads) ∧
      getResponseFromServer reads {} = .ok (0, got) ∧ getResponseFromServer reads got = .ok (0, got) := by
  cases c with
  | connected fd reply =>
    cases reply with
    | none => exact absurd h id
    | some reads => exact ⟨fd, reads, rfl, h⟩
  | _ => exact absurd h id

theorem Conn.Quiet.connected {c : Conn} (h : c.Quiet) : ∃ fd, c = .connected fd none := by
  cases c with
  | connected fd reply =>
    cases reply with
    | none => exact ⟨fd, rfl⟩
    | some reads => exact absurd h id
  | _ => exact absurd h id

section
variable {conns : List Conn} {got : MessageResponse}

theorem alike_connectedFds (h : ∀ c ∈ conns, c.Gives got ∨ c.Quiet) :
    (connectedFds conns).length = conns.length := by
  induction conns with
  | nil => rfl
  | cons c conns ih =>
    have hrest := ih fun d hd => h d (List.mem_cons_of_mem _ hd)
    have hcons : ∃ fd, connectedFds (c :: conns) = fd :: connectedFds conns := by
      rcases h c (List.mem_cons_self ..) with hgives | hquiet
      · obtain ⟨fd, reads, rfl, -⟩ := hgives.connected
        exact ⟨fd, rfl⟩
      · obtain ⟨fd, rfl⟩ := hquiet.connected
        exact ⟨fd, rfl⟩
    obtain ⟨fd, hcons⟩ := hcons
    rw [hcons, List.length_cons, List.length_cons, hrest]

theorem alike_replyAt (h : ∀ c ∈ conns, c.Gives got ∨ c.Quiet) {j : ℕ} {reads : List ReadResult}
    (hreply : replyAt conns j = some reads) :
    getResponseFromServer reads {} = .ok (0, got) ∧ getResponseFromServer reads got = .ok (0, got) := by
  obtain ⟨fd, hget⟩ := replyAt_connected hreply
  rcases h _ (List.mem_of_getElem? hget) with hgives | hquiet
  · exact hgives
  · exact absurd hquiet id

theorem gives_replyAt {j : ℕ} {c : Conn} (hget : conns[j]? = some c) (h : c.Gives got) :
    (replyAt conns j).isSome = true := by
  obtain ⟨fd, reads, rfl, -⟩ := h.connected
  unfold replyAt
  rw [hget]
  rfl

theorem quiet_replyAt {j : ℕ} {c : Conn} (hget : conns[j]? = some c) (h : c.Quiet) :
    replyAt conns j = none := by
  obtain ⟨fd, rfl⟩ := h.connected
  unfold replyAt
  rw [hget]

theorem connectLoop_response (cs : List Conn) (p : Polling) (i : ℕ) :
    (connectLoop i cs p).response = p.response := by
  induction cs generalizing p i with
  | nil => rfl
  | cons c cs ih =>
    rw [connectLoop, ih]
    cases c with
    | _ => rfl

/-! ### One round after the other -/

/-- Nothing has been read yet, or the reply is there and has been counted. -/
inductive Progress (got : MessageResponse) (clientId requestNo : ℤ) (p : Polling) : Prop where
  | silent (hresponse : p.response = {}) (hno : p.responseNo + 1 = requestNo)
      (hsuccess : p.success = false) (hall : openSlots p = Finset.range p.nfds)
  | counted (hresponse : p.response = got) (hno : p.responseNo = requestNo)
      (hsuccess : p.success = decide (0 ≤ parseResponseFromServer got clientId))

def heard (conns : List Conn) (report : ℕ → Bool) (j : ℕ) : Bool := report j && (replyAt conns j).isSome

/-- The replies of the entries that are not empty can all be read. -/
structure Listening (conns : List Conn) (got : MessageResponse) (clientId requestNo : ℤ)
    (p : Polling) : Prop where
  entries : Entries conns p
  readable : ∀ j ∈ openSlots p, (replyAt conns j).isSome = true → Readable conns p j
  progress : Progress got clientId requestNo p

variable {clientId requestNo : ℤ}

theorem Progress.accept {p q : Polling} (h : Progress got clientId requestNo p)
    (hgot : got.reqNo = requestNo) (hresponse : q.response = got) (hno : q.responseNo = p.responseNo)
    (hsuccess : q.success = p.success) : Progress got clientId requestNo (acceptReply clientId q) := by
  unfold acceptReply
  dsimp only
  rw [hresponse, hgot, hno]
  cases h with
  | silent _ hbehind hnone _ =>
    have hnew : requestNo ≠ p.responseNo := by omega
    rw [if_neg hnew]
    by_cases hparse : parseResponseFromServer got clientId < 0
    · have hfail : decide (0 ≤ parseResponseFromServer got clientId) = false := by
        rw [decide_eq_false_iff_not]
        omega
      rw [if_pos hparse]
      exact .counted rfl hbehind (by rw [hfail]; exact hsuccess.trans hnone)
    · have hok : decide (0 ≤ parseResponseFromServer got clientId) = true := by
        rw [decide_eq_true_iff]
        omega
      rw [if_neg hparse]
      exact .counted rfl hbehind hok.symm
  | counted _ hsame hdone =>
    rw [if_pos hsame.symm]
    exact .counted rfl hsame (hsuccess.trans hdone)

theorem openSlots_acceptReply (p : Polling) : openSlots (acceptReply clientId p) = openSlots p := by
  obtain ⟨success, responseNo, log, heq⟩ := acceptReply_frame clientId p
  rw [heq]
  rfl

section
variable (hfresh : FreshFds conns) (halike : ∀ c ∈ conns, c.Gives got ∨ c.Quiet)
  (hgot : got.reqNo = requestNo)
include hfresh halike hgot

/-- A slot whose reply is heard is emptied. -/
theorem Listening.pollSlot {p : Polling} (h : Listening conns got clientId requestNo p)
    (report : ℕ → Bool) {j : ℕ} (hj : j < p.nfds) :
    ∃ p', pollSlot conns clientId report p j = .ok p' ∧ Listening conns got clientId requestNo p' ∧
      openSlots p' = (openSlots p).filter fun i => ¬(i = j ∧ heard conns report j = true) := by
  by_cases hready : Readable conns p j ∧ report j = true
  · obtain ⟨reads, hreads⟩ := Option.isSome_iff_exists.mp hready.1.1
    obtain ⟨hfirst, hagain⟩ := alike_replyAt halike hreads
    have hread : getResponseFromServer reads p.response = .ok (0, got) := by
      cases h.progress with
      | silent hresponse _ _ _ =>
        rw [hresponse]
        exact hfirst
      | counted hresponse _ _ =>
        rw [hresponse]
        exact hagain
    have hrun : ToDoList.pollSlot conns clientId report p j =
        .ok (acceptReply clientId (releaseSlot { p with response := got } j)) := by
      unfold ToDoList.pollSlot
      rw [if_pos hready, hreads]
      unfold readSlot
      dsimp only [Option.getD_some]
      rw [hread]
      rfl
    obtain ⟨hturn, -⟩ := turn_release hfresh h.entries hj hready.1 got
    obtain ⟨hkept, hresponse, hno, -⟩ := releaseSlot_kept { p with response := got } j
    have hslots : openSlots (releaseSlot { p with response := got } j) = (openSlots p).erase j :=
      openSlots_release { p with response := got } j
    obtain ⟨success, responseNo, log, heq⟩ := acceptReply_frame clientId (releaseSlot { p with response := got } j)
    refine ⟨_, hrun, ⟨?_, ?_, h.progress.accept hgot hresponse hno hkept⟩, ?_⟩
    · rw [heq]
      exact hturn.entries.frame success _ responseNo log
    · intro i hi hreply
      rw [openSlots_acceptReply, hslots, Finset.mem_erase] at hi
      have hother := hturn.others i hi.1 (h.readable i hi.2 hreply)
      rw [heq]
      exact hother
    · have hheard : heard conns report j = true := by
        unfold heard
        rw [hready.2, hready.1.1]
        rfl
      rw [openSlots_acceptReply, hslots]
      ext i
      rw [Finset.mem_erase, Finset.mem_filter]
      constructor
      · intro hi
        exact ⟨hi.2, fun heq => hi.1 heq.1⟩
      · intro hi
        exact ⟨fun heq => hi.2 ⟨heq, hheard⟩, hi.1⟩
  · refine ⟨p, ?_, h, ?_⟩
    · unfold ToDoList.pollSlot
      rw [if_neg hready]
    · rw [Finset.filter_true_of_mem]
      intro i hi hij
      obtain ⟨hreport, hreply⟩ : report j = true ∧ (replyAt conns j).isSome = true := by
        simpa [heard] using hij.2
      rw [hij.1] at hi
      exact hready ⟨h.readable j hi hreply, hreport⟩

theorem Listening.pollSlots {p : Polling} (h : Listening conns got clientId requestNo p)
    (report : ℕ → Bool) {js : List ℕ} (hjs : ∀ j ∈ js, j < p.nfds) :
    ∃ p', pollSlots conns clientId report js p = .ok p' ∧ Listening conns got clientId requestNo p' ∧
      openSlots p' = (openSlots p).filter fun i => ¬(i ∈ js ∧ heard conns report i = true) := by
  induction js generalizing p with
  | nil =>
    refine ⟨p, rfl, h, ?_⟩
    rw [Finset.filter_true_of_mem]
    intro i _ hi
    exact absurd hi.1 List.not_mem_nil
  | cons j js ih =>
    obtain ⟨q, hq, hlisten, hslots⟩ :=
      h.pollSlot hfresh halike hgot report (hjs j (List.mem_cons_self ..))
    have hrest : ∀ i ∈ js, i < q.nfds := by
      intro i hi
      rw [hlisten.entries.nfds, ← h.entries.nfds]
      exact hjs i (List.mem_cons_of_mem _ hi)
    obtain ⟨p', hp', hlisten', hslots'⟩ := ih hlisten hrest
    refine ⟨p', ?_, hlisten', ?_⟩
    · rw [ToDoList.pollSlots, hq]
      exact hp'
    · rw [hslots', hslots, Finset.filter_filter]
      refine Finset.filter_congr fun i _ => ?_
      rw [List.mem_cons]
      constructor
      · intro hi hmem
        rcases hmem with ⟨rfl | hmem, hreport⟩
        · exact hi.1 ⟨rfl, hreport⟩
        · exact hi.2 ⟨hmem, hreport⟩
      · intro hi
        refine ⟨fun hij => hi ⟨Or.inl hij.1, ?_⟩, fun hmem => hi ⟨Or.inr hmem.1, hmem.2⟩⟩
        rw [hij.1]
        exact hij.2

/-- A round empties the entries it hears of. -/
theorem Listening.round {p : Polling} (h : Listening conns got clientId requestNo p)
    (report : ℕ → Bool) :
    ∃ q, pollRound conns clientId report p = .ok (cleanUp q) ∧ Listening conns got clientId requestNo q ∧
      q.nfds = p.nfds ∧ openSlots q = (openSlots p).filter fun i => ¬heard conns report i = true := by
  obtain ⟨q, hq, hlisten, hslots⟩ := h.pollSlots hfresh halike hgot report fun i hi => List.mem_range.mp hi
  refine ⟨q, ?_, hlisten, by rw [hlisten.entries.nfds, ← h.entries.nfds], ?_⟩
  · rw [pollRound, hq]
    rfl
  · rw [hslots]
    refine Finset.filter_congr fun i hi => ?_
    have hmem : i ∈ List.range p.nfds := List.mem_range.mpr (Finset.mem_range.mp (Finset.mem_filter.mp hi).1)
    exact not_congr ⟨fun hboth => hboth.2, fun hheard => ⟨hmem, hheard⟩⟩

end

/-- What the call leaves when the reply has been counted. -/
structure Answered (got : MessageResponse) (clientId requestNo : ℤ) (p : Polling) : Prop where
  response : p.response = got
  responseNo : p.responseNo = requestNo
  success : p.success = decide (0 ≤ parseResponseFromServer got clientId)

theorem cleanUp_kept (p : Polling) : (cleanUp p).success = p.success ∧
    (cleanUp p).response = p.response ∧ (cleanUp p).responseNo = p.responseNo := by
  refine cleanUp_invariant (I := fun q => q.success = p.success ∧ q.response = p.response ∧
    q.responseNo = p.responseNo) ?_ ⟨rfl, rfl, rfl⟩
  intro j _ q hq _
  obtain ⟨hsuccess, hresponse, hno, -⟩ := releaseSlot_kept q j
  exact ⟨hsuccess.trans hq.1, hresponse.trans hq.2.1, hno.trans hq.2.2⟩

/-- A success closes what is left, and the loop ends. -/
theorem Listening.success {p : Polling} (h : Listening conns got clientId requestNo p)
    (hsuccess : p.success = true) : (cleanUp p).numOpenFds = 0 ∧ Answered got clientId requestNo (cleanUp p) := by
  obtain ⟨-, hzero⟩ := h.entries.cleanUp hsuccess
  obtain ⟨hs, hresponse, hno⟩ := cleanUp_kept p
  refine ⟨hzero, ?_⟩
  cases h.progress with
  | silent _ _ hnone _ =>
    rw [hnone] at hsuccess
    cases hsuccess
  | counted hresponse' hno' hs' => exact ⟨hresponse.trans hresponse', hno.trans hno', hs.trans hs'⟩

theorem pollLoop_closed {p : Polling} (h : p.numOpenFds = 0) (reports : List (ℕ → Bool)) :
    pollLoop conns clientId reports p = .ok p := by
  cases reports with
  | nil => rfl
  | cons report reports => rw [ToDoList.pollLoop, if_neg (by omega)]

theorem cleanUp_of_none {p : Polling} (h : ¬p.success = true) : cleanUp p = p := by
  unfold cleanUp
  rw [if_neg h]

theorem Listening.pending {p : Polling} (h : Listening conns got clientId requestNo p) {j : ℕ}
    (hj : j ∈ openSlots p) : 0 < p.numOpenFds := by
  have hpos := Finset.card_pos.mpr ⟨j, hj⟩
  rw [h.entries.count]
  omega

section
variable (hfresh : FreshFds conns) (halike : ∀ c ∈ conns, c.Gives got ∨ c.Quiet)
  (hgot : got.reqNo = requestNo)
include hfresh halike hgot

/-- Every entry that is not empty is heard of in some round: the loop ends, and
what was read is kept. -/
theorem Listening.pollLoop {p : Polling} (h : Listening conns got clientId requestNo p)
    (hpos : 0 < p.nfds) {reports : List (ℕ → Bool)}
    (hreports : ∀ j ∈ openSlots p, ∃ report ∈ reports, heard conns report j = true) :
    ∃ p', pollLoop conns clientId reports p = .ok p' ∧ p'.numOpenFds = 0 ∧
      Answered got clientId requestNo p' := by
  have hclosed {q : Polling} (hq : Listening conns got clientId requestNo q) (hnfds : 0 < q.nfds)
      (hnone : openSlots q = ∅) : q.numOpenFds = 0 ∧ Answered got clientId requestNo q := by
    refine ⟨by rw [hq.entries.count, hnone]; rfl, ?_⟩
    cases hq.progress with
    | silent _ _ _ hall =>
      rw [hall, Finset.range_eq_empty_iff] at hnone
      omega
    | counted hresponse hno hsuccess => exact ⟨hresponse, hno, hsuccess⟩
  induction reports generalizing p with
  | nil =>
    have hnone : openSlots p = ∅ := by
      refine Finset.eq_empty_of_forall_notMem fun j hj => ?_
      obtain ⟨report, hmem, -⟩ := hreports j hj
      exact absurd hmem List.not_mem_nil
    exact ⟨p, rfl, hclosed h hpos hnone⟩
  | cons report reports ih =>
    by_cases hopen : 0 < p.numOpenFds
    · obtain ⟨q, hq, hlisten, hsame, hslots⟩ := h.round hfresh halike hgot report
      rw [ToDoList.pollLoop, if_pos hopen, hq]
      dsimp only
      by_cases hsuccess : q.success = true
      · obtain ⟨hzero, hdone⟩ := hlisten.success hsuccess
        exact ⟨cleanUp q, pollLoop_closed hzero reports, hzero, hdone⟩
      · rw [cleanUp_of_none hsuccess]
        refine ih hlisten (by omega) fun j hj => ?_
        rw [hslots, Finset.mem_filter] at hj
        obtain ⟨report', hmem, hheard⟩ := hreports j hj.1
        refine ⟨report', (List.mem_cons.mp hmem).resolve_left ?_, hheard⟩
        intro heq
        rw [heq] at hheard
        exact hj.2 hheard
    · have hnone : openSlots p = ∅ := by
        have hcount := h.entries.count
        rw [← Finset.card_eq_zero]
        omega
      have hzero : p.numOpenFds = 0 := by rw [h.entries.count, hnone]; rfl
      exact ⟨p, pollLoop_closed hzero (report :: reports), hclosed h hpos hnone⟩

/-- The first reply says OK and is heard of in some round: the loop ends with it,
also when other servers stay silent. -/
theorem Listening.pollLoop_ok {p : Polling} (h : Listening conns got clientId requestNo p)
    (hok : 0 ≤ parseResponseFromServer got clientId) (hnone : p.success = false)
    {reports : List (ℕ → Bool)} {j : ℕ} (hj : j < p.nfds)
    (hreport : ∃ report ∈ reports, heard conns report j = true) :
    ∃ p', ToDoList.pollLoop conns clientId reports p = .ok p' ∧ p'.numOpenFds = 0 ∧
      Answered got clientId requestNo p' := by
  have hall {q : Polling} (hq : Listening conns got clientId requestNo q) (hsuccess : ¬q.success = true) :
      openSlots q = Finset.range q.nfds := by
    cases hq.progress with
    | silent _ _ _ hall => exact hall
    | counted _ _ hdone => exact absurd (hdone.trans (decide_eq_true hok)) hsuccess
  induction reports generalizing p with
  | nil =>
    obtain ⟨report, hmem, -⟩ := hreport
    cases hmem
  | cons report reports ih =>
    have hmem : j ∈ openSlots p := by
      rw [hall h (by rw [hnone]; decide)]
      exact Finset.mem_range.mpr hj
    obtain ⟨q, hq, hlisten, hsame, hslots⟩ := h.round hfresh halike hgot report
    rw [ToDoList.pollLoop, if_pos (h.pending hmem), hq]
    dsimp only
    by_cases hsuccess : q.success = true
    · obtain ⟨hzero, hdone⟩ := hlisten.success hsuccess
      exact ⟨cleanUp q, pollLoop_closed hzero reports, hzero, hdone⟩
    · rw [cleanUp_of_none hsuccess]
      obtain ⟨report', hin, hheard⟩ := hreport
      refine ih hlisten (by simpa using hsuccess) (by omega)
        ⟨report', (List.mem_cons.mp hin).resolve_left ?_, hheard⟩
      -- all entries are still there, so this round has not heard of `j`
      intro heq
      rw [heq] at hheard
      have hkept : j ∈ openSlots q := by
        rw [hall hlisten hsuccess]
        exact Finset.mem_range.mpr (by omega)
      rw [hslots, Finset.mem_filter] at hkept
      exact hkept.2 hheard

/-- A reply that does not say OK leaves the loop waiting for a silent server. -/
theorem Listening.pollLoop_waits {p : Polling} (h : Listening conns got clientId requestNo p)
    (hfail : parseResponseFromServer got clientId < 0) {j : ℕ} (hj : j ∈ openSlots p)
    (hquiet : replyAt conns j = none) (reports : List (ℕ → Bool)) :
    ∃ p', ToDoList.pollLoop conns clientId reports p = .ok p' ∧ 0 < p'.numOpenFds := by
  induction reports generalizing p with
  | nil => exact ⟨p, rfl, h.pending hj⟩
  | cons report reports ih =>
    obtain ⟨q, hq, hlisten, -, hslots⟩ := h.round hfresh halike hgot report
    have hnone : ¬q.success = true := by
      cases hlisten.progress with
      | silent _ _ hnone _ =>
        rw [hnone]
        decide
      | counted _ _ hdone =>
        rw [hdone, decide_eq_true_eq]
        omega
    have hkept : j ∈ openSlots q := by
      rw [hslots, Finset.mem_filter]
      refine ⟨hj, fun hheard => ?_⟩
      unfold heard at hheard
      rw [hquiet] at hheard
      simp at hheard
    rw [ToDoList.pollLoop, if_pos (h.pending hj), hq]
    dsimp only
    rw [cleanUp_of_none hnone]
    exact ih hlisten hkept

/-! ### One call -/

omit hgot in
/-- All servers are connected and none has been heard. -/
theorem listening_start {responseNo : ℤ} (hno : responseNo + 1 = requestNo) :
    Listening conns got clientId requestNo (startPolling conns {} responseNo) ∧
      (startPolling conns {} responseNo).nfds = conns.length ∧
      (startPolling conns {} responseNo).success = false ∧
      openSlots (startPolling conns {} responseNo) = Finset.range conns.length := by
  have hstart := started_start conns {} responseNo
  have hentries : Entries conns (startPolling conns {} responseNo) := hstart.entries hfresh
  obtain ⟨hsuccess, hsame, -⟩ := connectLoop_frame conns { response := {}, responseNo := responseNo } 0
  have hnfds : (startPolling conns {} responseNo).nfds = conns.length := by
    rw [hentries.nfds, alike_connectedFds halike]
  have hresponse : (startPolling conns {} responseNo).response = {} := connectLoop_response ..
  have hall : openSlots (startPolling conns {} responseNo) =
      Finset.range (startPolling conns {} responseNo).nfds := by
    refine Finset.filter_true_of_mem fun j _ => ?_
    rw [hstart.pfds]
    exact slotOf_fd_ne hfresh j
  refine ⟨⟨hentries, fun j _ hreply => ?_, .silent hresponse ?_ hsuccess hall⟩, hnfds, hsuccess, ?_⟩
  · obtain ⟨reads, hreads⟩ := Option.isSome_iff_exists.mp hreply
    exact start_readable hreads
  · exact (congrArg (· + 1) hsame).trans hno
  · rw [hall, hnfds]

omit hfresh halike hgot in
theorem sendAndGetResponse_of_loop {reports : List (ℕ → Bool)} {responseNo : ℤ} {p : Polling}
    (hloop : pollLoop conns clientId reports (startPolling conns {} responseNo) = .ok p)
    (hzero : p.numOpenFds = 0) (hdone : Answered got clientId requestNo p) :
    ∃ p, sendAndGetResponse conns clientId reports {} responseNo =
        .ok (if 0 ≤ parseResponseFromServer got clientId then 0 else -1, p) ∧
      p.response = got ∧ p.responseNo = requestNo := by
  refine ⟨p, ?_, hdone.response, hdone.responseNo⟩
  unfold sendAndGetResponse
  rw [hloop]
  dsimp only
  rw [if_neg (by omega), hdone.success]
  simp only [decide_eq_true_eq]

/-- All servers are heard: the call returns as the reply says, with the reply. -/
theorem sendAndGetResponse_alike (hgives : ∀ c ∈ conns, c.Gives got) (hne : conns ≠ [])
    {reports : List (ℕ → Bool)} (hreports : ∀ j < conns.length, ∃ report ∈ reports, report j = true)
    {responseNo : ℤ} (hno : responseNo + 1 = requestNo) :
    ∃ p, sendAndGetResponse conns clientId reports {} responseNo =
        .ok (if 0 ≤ parseResponseFromServer got clientId then 0 else -1, p) ∧
      p.response = got ∧ p.responseNo = requestNo := by
  obtain ⟨hlisten, hnfds, -, hall⟩ := @listening_start _ got clientId _ hfresh halike _ hno
  have hpos : 0 < (startPolling conns {} responseNo).nfds := by
    rw [hnfds]
    exact List.length_pos_iff.mpr hne
  obtain ⟨p, hloop, hzero, hdone⟩ := hlisten.pollLoop hfresh halike hgot hpos fun j hj => by
    rw [hall, Finset.mem_range] at hj
    obtain ⟨report, hmem, hreport⟩ := hreports j hj
    refine ⟨report, hmem, ?_⟩
    unfold heard
    rw [hreport, gives_replyAt (List.getElem?_eq_getElem hj) (hgives _ (List.getElem_mem hj))]
    rfl
  exact sendAndGetResponse_of_loop hloop hzero hdone

/-- One server says OK and is heard of, others may stay silent. -/
theorem sendAndGetResponse_first (hok : 0 ≤ parseResponseFromServer got clientId) {j : ℕ} {c : Conn}
    (hget : conns[j]? = some c) (hgives : c.Gives got) {reports : List (ℕ → Bool)}
    (hreport : ∃ report ∈ reports, report j = true) {responseNo : ℤ} (hno : responseNo + 1 = requestNo) :
    ∃ p, sendAndGetResponse conns clientId reports {} responseNo =
        .ok (if 0 ≤ parseResponseFromServer got clientId then 0 else -1, p) ∧
      p.response = got ∧ p.responseNo = requestNo := by
  obtain ⟨hlisten, hnfds, hsuccess, -⟩ := @listening_start _ got clientId _ hfresh halike _ hno
  obtain ⟨report, hmem, hreport⟩ := hreport
  have hheard : heard conns report j = true := by
    unfold heard
    rw [hreport, gives_replyAt hget hgives]
    rfl
  have hj : j < (startPolling conns {} responseNo).nfds := by
    rw [hnfds]
    exact (List.getElem?_eq_some_iff.mp hget).1
  obtain ⟨p, hloop, hzero, hdone⟩ :=
    hlisten.pollLoop_ok hfresh halike hgot hok hsuccess hj ⟨report, hmem, hheard⟩
  exact sendAndGetResponse_of_loop hloop hzero hdone

/-- The reply does not say OK and some server is silent: the call never returns. -/
theorem sendAndGetResponse_waits (hfail : parseResponseFromServer got clientId < 0) {j : ℕ} {c : Conn}
    (hget : conns[j]? = some c) (hquiet : c.Quiet) (reports : List (ℕ → Bool)) {responseNo : ℤ}
    (hno : responseNo + 1 = requestNo) :
    sendAndGetResponse conns clientId reports {} responseNo = .error .noReturn := by
  obtain ⟨hlisten, -, -, hall⟩ := @listening_start _ got clientId _ hfresh halike _ hno
  have hj : j ∈ openSlots (startPolling conns {} responseNo) := by
    rw [hall]
    exact Finset.mem_range.mpr (List.getElem?_eq_some_iff.mp hget).1
  obtain ⟨p, hloop, hopen⟩ :=
    hlisten.pollLoop_waits hfresh halike hgot hfail hj (quiet_replyAt hget hquiet) reports
  unfold sendAndGetResponse
  rw [hloop]
  dsimp only
  rw [if_pos hopen]

end

end

end ToDoList
