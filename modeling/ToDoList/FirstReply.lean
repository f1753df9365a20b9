import ToDoList.ClientReplies

/-!
# One accepted reply for each request

`response_no_g` is compared with the number of the request, and both are raised
by one, in different places: the first with every reply that is accepted, the
second with every request.
-/

namespace ToDoList
open CLib

structure Exchange where
  conns : List Conn
  reports : List (ℕ → Bool)

/-- The tasks of the menu one after another, each with a cleared response. For
each request, its complete replies in order and whether each was accepted; a
call that still waits is the last one. -/
def clientRun (clientId : ℤ) : ℤ → List Exchange → Except Fault (List (List Bool))
  | _, [] => .ok []
  | responseNo, e :: es =>
    match pollLoop e.conns clientId e.reports (startPolling e.conns {} responseNo) with
    | .error f => .error f
    | .ok p =>
      if 0 < p.numOpenFds then .ok [p.log]
      else (clientRun clientId p.responseNo es).map fun logs => p.log :: logs

def AnswersRequest (requestNo : ℤ) (conns : List Conn) : Prop :=
  ∀ j reads response got, replyAt conns j = some reads →
    getResponseFromServer reads response = .ok (0, got) → got.reqNo = requestNo

/-- `request_no_g` is raised before each request. -/
def AnswersInTurn : ℤ → List Exchange → Prop
  | _, [] => True
  | requestNo, e :: es => AnswersRequest requestNo e.conns ∧ AnswersInTurn (requestNo + 1) es

/-- The call for one request, taken by itself: as if the reply to every request before it
had been accepted. -/
def callInStep (clientId requestNo : ℤ) (e : Exchange) : Except Fault Polling :=
  pollLoop e.conns clientId e.reports (startPolling e.conns {} (requestNo - 1))

def hasEnded : Except Fault Polling → Bool
  | .ok p => decide (p.numOpenFds ≤ 0)
  | .error _ => false

/-- The calls one by one, up to the first that does not return. -/
def callsInStep (clientId : ℤ) : ℤ → List Exchange → List (Except Fault Polling)
  | _, [] => []
  | requestNo, e :: es =>
    callInStep clientId requestNo e ::
      if hasEnded (callInStep clientId requestNo e) then callsInStep clientId (requestNo + 1) es else []

/-- At most `n` complete replies are read. -/
def ReadsAtMost (n : ℕ) (call : Except Fault Polling) : Prop := ∃ p, call = .ok p ∧ p.log.length ≤ n

/-- The first reply is accepted, every other one is recognised as already received. -/
def OnlyFirst : List Bool → Prop
  | [] => True
  | first :: others => first = true ∧ ∀ accepted ∈ others, accepted = false

/-! ### The replies of one call -/

theorem cleanUp_log (p : Polling) : (cleanUp p).log = p.log ∧ (cleanUp p).responseNo = p.responseNo :=
  cleanUp_invariant (I := fun q => q.log = p.log ∧ q.responseNo = p.responseNo)
    (fun j _ q hq _ => by
      obtain ⟨-, -, hno, hlog⟩ := releaseSlot_kept q j
      exact ⟨hlog.trans hq.1, hno.trans hq.2⟩) ⟨rfl, rfl⟩

/-- As many replies are accepted as the counter was behind, or all of them. -/
structure Tallied (requestNo responseNo : ℤ) (accepted known : ℕ) (p : Polling) : Prop where
  log : p.log = List.replicate accepted true ++ List.replicate known false
  no : p.responseNo = responseNo + accepted
  le : p.responseNo ≤ requestNo
  known : known = 0 ∨ p.responseNo = requestNo

section
variable {requestNo responseNo : ℤ} {conns : List Conn} {clientId : ℤ} {accepted known : ℕ}

theorem Tallied.same {p p' : Polling} (h : Tallied requestNo responseNo accepted known p)
    (hlog : p'.log = p.log) (hno : p'.responseNo = p.responseNo) :
    Tallied requestNo responseNo accepted known p' :=
  ⟨hlog.trans h.log, hno.trans h.no, hno.trans_le h.le, h.known.imp_right hno.trans⟩

/-- The step: the reply is accepted while the counter is behind. -/
theorem Tallied.accept {p : Polling} (h : Tallied requestNo responseNo accepted known p)
    (hreq : p.response.reqNo = requestNo) : ∃ accepted' known',
      Tallied requestNo responseNo accepted' known' (acceptReply clientId p) := by
  have hle := h.le
  unfold acceptReply
  dsimp only
  rw [hreq]
  by_cases hsame : requestNo = p.responseNo
  · rw [if_pos hsame]
    refine ⟨accepted, known + 1, ?_, h.no, h.le, Or.inr hsame.symm⟩
    simp [h.log, List.replicate_succ']
  · have hknown : known = 0 := h.known.resolve_right fun heq => hsame heq.symm
    have hone : p.log ++ [true] = List.replicate (accepted + 1) true ++ List.replicate known false := by
      simp [h.log, hknown, List.replicate_succ']
    have hno := h.no
    rw [if_neg hsame]
    split
    · refine ⟨accepted + 1, known, hone, ?_, ?_, Or.inl hknown⟩
      · dsimp only
        omega
      · dsimp only
        omega
    · refine ⟨accepted + 1, known, hone, ?_, ?_, Or.inl hknown⟩
      · dsimp only
        omega
      · dsimp only
        omega

theorem Tallied.pollSlot (hanswers : AnswersRequest requestNo conns) {report : ℕ → Bool} {j : ℕ}
    {p p' : Polling} (h : ∃ accepted known, Tallied requestNo responseNo accepted known p)
    (hslot : pollSlot conns clientId report p j = .ok p') :
    ∃ accepted known, Tallied requestNo responseNo accepted known p' := by
  obtain ⟨accepted, known, h⟩ := h
  rcases pollSlot_cases hslot with ⟨rfl, -⟩ | ⟨-, reads, response, hreply, ⟨-, rfl⟩ | ⟨hget, rfl⟩⟩
  · exact ⟨accepted, known, h⟩
  · obtain ⟨held, stray, heq, -⟩ := closeHeld_frame { p with response := response } (p.pfds j).fd
    rw [heq]
    exact ⟨accepted, known, h.same rfl rfl⟩
  · obtain ⟨-, hresponse, hno, hlog⟩ := releaseSlot_kept { p with response := response } j
    refine (h.same hlog hno).accept ?_
    rw [hresponse]
    exact hanswers j reads p.response response hreply hget

theorem Tallied.pollLoop (hanswers : AnswersRequest requestNo conns) {reports : List (ℕ → Bool)}
    {p p' : Polling} (h : ∃ accepted known, Tallied requestNo responseNo accepted known p)
    (hrun : pollLoop conns clientId reports p = .ok p') :
    ∃ accepted known, Tallied requestNo responseNo accepted known p' := by
  refine pollLoop_invariant (I := fun q => ∃ accepted known,
    Tallied requestNo responseNo accepted known q) (fun report q q' hq hround => ?_) h hrun
  obtain ⟨r, hslots, rfl⟩ := pollRound_slots hround
  obtain ⟨accepted, known, hr⟩ := pollSlots_invariant (I := fun q => ∃ accepted known,
    Tallied requestNo responseNo accepted known q)
    (fun _ _ _ _ hs hslot => Tallied.pollSlot hanswers hs hslot) hq hslots
  obtain ⟨hlog, hno⟩ := cleanUp_log r
  exact ⟨accepted, known, hr.same hlog hno⟩

theorem tallied_start (hle : responseNo ≤ requestNo) (response : MessageResponse) :
    Tallied requestNo responseNo 0 0 (startPolling conns response responseNo) := by
  obtain ⟨-, hno, hlog⟩ := connectLoop_frame conns { response := response, responseNo := responseNo } 0
  refine ⟨hlog, ?_, hno.trans_le hle, Or.inl rfl⟩
  rw [Int.natCast_zero, Int.add_zero]
  exact hno

theorem onlyFirst_replicate (accepted known : ℕ) :
    OnlyFirst (List.replicate accepted true ++ List.replicate known false) ↔
      accepted = 1 ∨ (accepted = 0 ∧ known = 0) := by
  cases accepted with
  | zero =>
    cases known with
    | zero => simp [OnlyFirst]
    | succ known => simp [OnlyFirst, List.replicate_succ]
  | succ accepted =>
    cases accepted with
    | zero => simp [OnlyFirst]
    | succ accepted => simp [OnlyFirst, List.replicate_succ]

theorem tallied_onlyFirst {p : Polling} (h : Tallied requestNo responseNo accepted known p)
    (hlt : responseNo < requestNo) :
    (OnlyFirst p.log ↔ accepted ≤ 1) ∧ p.log.length = accepted + known ∧
      (known = 0 ∨ responseNo + accepted = requestNo) := by
  have hno := h.no
  have hknown := h.known
  refine ⟨?_, by simp [h.log], by omega⟩
  rw [h.log, onlyFirst_replicate]
  omega

/-! ### Two counters -/

/-- Two states that differ in the counter, which is at the request in neither of them
before the first reply. -/
def Beside (requestNo : ℤ) (p q : Polling) : Prop :=
  ∃ c, q = { p with responseNo := c } ∧ (p.log = [] → p.responseNo ≠ requestNo ∧ c ≠ requestNo)

theorem closeHeld_counter (p : Polling) (fd c : ℤ) :
    closeHeld { p with responseNo := c } fd = { closeHeld p fd with responseNo := c } := by
  unfold closeHeld
  split
  · rfl
  · rfl

theorem releaseSlot_counter (p : Polling) (j : ℕ) (c : ℤ) :
    releaseSlot { p with responseNo := c } j = { releaseSlot p j with responseNo := c } := by
  unfold releaseSlot
  dsimp only
  rw [closeHeld_counter]

theorem cleanUp_counter (p : Polling) (c : ℤ) :
    cleanUp { p with responseNo := c } = { cleanUp p with responseNo := c } := by
  have hslot (q : Polling) (j : ℕ) :
      closeSlot { q with responseNo := c } j = { closeSlot q j with responseNo := c } := by
    unfold closeSlot
    dsimp only
    split
    · rfl
    · exact releaseSlot_counter q j c
  have hfold (js : List ℕ) (q : Polling) :
      js.foldl closeSlot { q with responseNo := c } = { js.foldl closeSlot q with responseNo := c } := by
    induction js generalizing q with
    | nil => rfl
    | cons j js ih =>
      rw [List.foldl_cons, List.foldl_cons, hslot]
      exact ih (closeSlot q j)
  unfold cleanUp
  dsimp only
  split
  · exact hfold (List.range p.nfds) p
  · rfl

theorem connectLoop_counter (cs : List Conn) (p : Polling) (i : ℕ) (c : ℤ) :
    connectLoop i cs { p with responseNo := c } = { connectLoop i cs p with responseNo := c } := by
  induction cs generalizing i p with
  | nil => rfl
  | cons d cs ih =>
    rw [connectLoop, connectLoop]
    cases d with
    | refused fd => exact ih (connectAt p i (.refused fd)) (i + 1)
    | writeFailed fd => exact ih p (i + 1)
    | connected fd reply => exact ih (connectAt p i (.connected fd reply)) (i + 1)

theorem acceptReply_log (clientId : ℤ) (p : Polling) :
    (acceptReply clientId p).log.length = p.log.length + 1 := by
  unfold acceptReply
  dsimp only
  split_ifs
  · exact List.length_append
  · exact List.length_append
  · exact List.length_append

theorem pollSlot_log {report : ℕ → Bool} {j : ℕ} {p p' : Polling}
    (h : pollSlot conns clientId report p j = .ok p') : p.log.length ≤ p'.log.length := by
  rcases pollSlot_cases h with ⟨rfl, -⟩ | ⟨-, reads, response, -, ⟨-, rfl⟩ | ⟨-, rfl⟩⟩
  · exact le_rfl
  · obtain ⟨held, stray, heq, -⟩ := closeHeld_frame { p with response := response } (p.pfds j).fd
    rw [heq]
  · obtain ⟨-, -, -, hlog⟩ := releaseSlot_kept { p with response := response } j
    rw [acceptReply_log, hlog]
    exact Nat.le_succ _

theorem pollSlots_log {report : ℕ → Bool} {js : List ℕ} {n : ℕ} {p p' : Polling}
    (hn : n ≤ p.log.length) (h : pollSlots conns clientId report js p = .ok p') : n ≤ p'.log.length :=
  pollSlots_invariant (I := fun q => n ≤ q.log.length)
    (fun _ _ _ _ hq hslot => hq.trans (pollSlot_log hslot)) hn h

theorem pollLoop_log {reports : List (ℕ → Bool)} {n : ℕ} {p p' : Polling} (hn : n ≤ p.log.length)
    (h : pollLoop conns clientId reports p = .ok p') : n ≤ p'.log.length := by
  refine pollLoop_invariant (I := fun q => n ≤ q.log.length) (fun report q q' hq hround => ?_) hn h
  obtain ⟨r, hslots, rfl⟩ := pollRound_slots hround
  rw [(cleanUp_log r).1]
  exact pollSlots_log hq hslots

/-- The first reply is accepted with either counter. -/
theorem acceptReply_beside {p q : Polling} (h : Beside requestNo p q) (hreq : p.response.reqNo = requestNo) :
    2 ≤ (acceptReply clientId p).log.length ∨
      Beside requestNo (acceptReply clientId p) (acceptReply clientId q) := by
  obtain ⟨c, rfl, hbehind⟩ := h
  by_cases hlog : p.log = []
  · obtain ⟨hp, hc⟩ := hbehind hlog
    refine Or.inr ⟨c + 1, ?_, fun hnil => ?_⟩
    · unfold acceptReply
      dsimp only
      rw [hreq, if_neg (Ne.symm hp), if_neg (Ne.symm hc)]
      split
      · rfl
      · rfl
    · have hlen := acceptReply_log clientId p
      rw [hnil] at hlen
      cases hlen
  · have hpos := List.length_pos_of_ne_nil hlog
    rw [acceptReply_log]
    exact Or.inl (by omega)

theorem pollSlot_beside (hanswers : AnswersRequest requestNo conns) {report : ℕ → Bool} {j : ℕ}
    {p p' q : Polling} (h : Beside requestNo p q) (hslot : pollSlot conns clientId report p j = .ok p') :
    2 ≤ p'.log.length ∨ ∃ q', pollSlot conns clientId report q j = .ok q' ∧ Beside requestNo p' q' := by
  obtain ⟨c, rfl, hbehind⟩ := h
  rcases pollSlot_cases hslot with ⟨rfl, hidle⟩ | ⟨hready, reads, response, hreply, hturn⟩
  · exact Or.inr ⟨_, if_neg hidle, c, rfl, hbehind⟩
  · have hsame : Readable conns { p with responseNo := c } j ∧ report j = true := hready
    have hread : pollSlot conns clientId report { p with responseNo := c } j =
        readSlot clientId reads { p with responseNo := c } j := by
      unfold pollSlot
      rw [if_pos hsame, hreply]
      rfl
    rw [hread]
    unfold readSlot
    rcases hturn with ⟨hget, rfl⟩ | ⟨hget, rfl⟩
    · rw [hget]
      obtain ⟨held, stray, heq, -⟩ := closeHeld_frame { p with response := response } (p.pfds j).fd
      refine Or.inr ⟨_, if_pos (by decide), c,
        closeHeld_counter { p with response := response } (p.pfds j).fd c, ?_⟩
      rw [heq]
      exact hbehind
    · rw [hget]
      dsimp only
      rw [if_neg (by decide)]
      obtain ⟨-, hresponse, hno, hlog⟩ := releaseSlot_kept { p with response := response } j
      have hreleased : Beside requestNo (releaseSlot { p with response := response } j)
          (releaseSlot { p with response := response, responseNo := c } j) := by
        refine ⟨c, releaseSlot_counter { p with response := response } j c, ?_⟩
        rw [hlog, hno]
        exact hbehind
      refine (acceptReply_beside hreleased ?_).imp_right fun hbeside => ⟨_, rfl, hbeside⟩
      rw [hresponse]
      exact hanswers j reads p.response response hreply hget

theorem pollSlots_beside (hanswers : AnswersRequest requestNo conns) {report : ℕ → Bool} {js : List ℕ}
    {p p' q : Polling} (h : Beside requestNo p q) (hslots : pollSlots conns clientId report js p = .ok p') :
    2 ≤ p'.log.length ∨ ∃ q', pollSlots conns clientId report js q = .ok q' ∧ Beside requestNo p' q' := by
  induction js generalizing p q with
  | nil =>
    cases hslots
    exact Or.inr ⟨q, rfl, h⟩
  | cons j js ih =>
    rw [pollSlots] at hslots ⊢
    cases hslot : pollSlot conns clientId report p j with
    | error f =>
      rw [hslot] at hslots
      cases hslots
    | ok r =>
      rw [hslot] at hslots
      rcases pollSlot_beside hanswers h hslot with htwo | ⟨r', hslot', hr⟩
      · exact Or.inl (pollSlots_log htwo hslots)
      · rw [hslot']
        exact ih hr hslots

theorem Beside.cleanUp {p q : Polling} (h : Beside requestNo p q) :
    Beside requestNo (cleanUp p) (cleanUp q) := by
  obtain ⟨c, rfl, hbehind⟩ := h
  obtain ⟨hlog, hno⟩ := cleanUp_log p
  refine ⟨c, cleanUp_counter p c, ?_⟩
  rw [hlog, hno]
  exact hbehind

/-- Two calls that differ in the counter do the same until a second reply is read. -/
theorem pollLoop_beside (hanswers : AnswersRequest requestNo conns) {reports : List (ℕ → Bool)}
    {p p' q : Polling} (h : Beside requestNo p q) (hrun : pollLoop conns clientId reports p = .ok p') :
    2 ≤ p'.log.length ∨ ∃ q', pollLoop conns clientId reports q = .ok q' ∧ Beside requestNo p' q' := by
  induction reports generalizing p q with
  | nil =>
    cases hrun
    exact Or.inr ⟨q, rfl, h⟩
  | cons report reports ih =>
    have hfds : q.numOpenFds = p.numOpenFds ∧ q.nfds = p.nfds := by
      obtain ⟨c, rfl, -⟩ := h
      exact ⟨rfl, rfl⟩
    rw [pollLoop] at hrun ⊢
    rw [hfds.1]
    by_cases hopen : 0 < p.numOpenFds
    · rw [if_pos hopen] at hrun ⊢
      cases hround : pollRound conns clientId report p with
      | error f =>
        rw [hround] at hrun
        cases hrun
      | ok r =>
        rw [hround] at hrun
        obtain ⟨s, hslots, rfl⟩ := pollRound_slots hround
        rcases pollSlots_beside hanswers h hslots with htwo | ⟨s', hslots', hs⟩
        · refine Or.inl (pollLoop_log ?_ hrun)
          rw [(cleanUp_log s).1]
          exact htwo
        · have hround' : pollRound conns clientId report q = .ok (cleanUp s') := by
            unfold pollRound
            rw [hfds.2, hslots']
            rfl
          rw [hround']
          exact ih hs.cleanUp hrun
    · rw [if_neg hopen] at hrun ⊢
      cases hrun
      exact Or.inr ⟨q, rfl, h⟩

theorem call_beside (hanswers : AnswersRequest requestNo conns) {reports : List (ℕ → Bool)} {a b : ℤ}
    (ha : a < requestNo) (hb : b < requestNo) {p : Polling}
    (hrun : pollLoop conns clientId reports (startPolling conns {} a) = .ok p) :
    2 ≤ p.log.length ∨
      ∃ c, pollLoop conns clientId reports (startPolling conns {} b) = .ok { p with responseNo := c } := by
  have hno : (startPolling conns {} a).responseNo = a :=
    (connectLoop_frame conns { response := {}, responseNo := a } 0).2.1
  have hstart : Beside requestNo (startPolling conns {} a) (startPolling conns {} b) :=
    ⟨b, connectLoop_counter conns { response := {}, responseNo := a } 0 b, fun _ => by
      rw [hno]
      exact ⟨ha.ne, hb.ne⟩⟩
  refine (pollLoop_beside hanswers hstart hrun).imp_right ?_
  rintro ⟨q, hq, c, rfl, -⟩
  exact ⟨c, hq⟩

section
variable {e : Exchange} {p : Polling}

theorem readsAtMost_iff (hanswers : AnswersRequest requestNo e.conns) (hlt : responseNo < requestNo)
    (hloop : pollLoop e.conns clientId e.reports (startPolling e.conns {} responseNo) = .ok p)
    {n : ℕ} (hn : n ≤ 1) :
    ReadsAtMost n (callInStep clientId requestNo e) ↔ p.log.length ≤ n := by
  constructor
  · rintro ⟨q, hq, hlen⟩
    rcases call_beside hanswers (sub_one_lt requestNo) hlt hq with htwo | ⟨c, hcall⟩
    · omega
    · rw [hloop] at hcall
      cases hcall
      exact hlen
  · intro hlen
    rcases call_beside hanswers hlt (sub_one_lt requestNo) hloop with htwo | ⟨c, hcall⟩
    · omega
    · exact ⟨_, hcall, hlen⟩

theorem callInStep_eq (hanswers : AnswersRequest requestNo e.conns) (hlt : responseNo < requestNo)
    (hloop : pollLoop e.conns clientId e.reports (startPolling e.conns {} responseNo) = .ok p)
    (hfew : responseNo + 1 < requestNo → p.log.length ≤ 1) :
    ∃ c, callInStep clientId requestNo e = .ok { p with responseNo := c } := by
  by_cases hgap : responseNo + 1 < requestNo
  · have hone := hfew hgap
    rcases call_beside hanswers hlt (sub_one_lt requestNo) hloop with htwo | hcall
    · omega
    · exact hcall
  · obtain rfl : responseNo = requestNo - 1 := by omega
    exact ⟨p.responseNo, hloop⟩

end

/-! ### All the calls -/

theorem clientRun_cons {e : Exchange} {es : List Exchange} {logs : List (List Bool)}
    (hrun : clientRun clientId responseNo (e :: es) = .ok logs) :
    ∃ p, pollLoop e.conns clientId e.reports (startPolling e.conns {} responseNo) = .ok p ∧
      ((0 < p.numOpenFds ∧ logs = [p.log]) ∨
        (¬0 < p.numOpenFds ∧ ∃ later, clientRun clientId p.responseNo es = .ok later ∧
          logs = p.log :: later)) := by
  rw [clientRun] at hrun
  cases hloop : pollLoop e.conns clientId e.reports (startPolling e.conns {} responseNo) with
  | error f =>
    rw [hloop] at hrun
    cases hrun
  | ok p =>
    rw [hloop] at hrun
    dsimp only at hrun
    refine ⟨p, rfl, ?_⟩
    by_cases hopen : 0 < p.numOpenFds
    · rw [if_pos hopen] at hrun
      cases hrun
      exact Or.inl ⟨hopen, rfl⟩
    · rw [if_neg hopen] at hrun
      cases hlater : clientRun clientId p.responseNo es with
      | error f =>
        rw [hlater] at hrun
        cases hrun
      | ok later =>
        rw [hlater] at hrun
        cases hrun
        exact Or.inr ⟨hopen, later, rfl, rfl⟩

/-- The counter stays behind the request by one and by the requests without a
reply, until the first request that gets two. -/
theorem clientRun_onlyFirst {es : List Exchange} {logs : List (List Bool)} (hlt : responseNo < requestNo)
    (hanswers : AnswersInTurn requestNo es) (hrun : clientRun clientId responseNo es = .ok logs) :
    (∀ log ∈ logs, OnlyFirst log) ↔
      (responseNo + 1 < requestNo → ∀ call ∈ callsInStep clientId requestNo es, ReadsAtMost 1 call) ∧
        (callsInStep clientId requestNo es).Pairwise
          fun earlier later => ReadsAtMost 0 earlier → ReadsAtMost 1 later := by
  induction es generalizing requestNo responseNo logs with
  | nil =>
    cases hrun
    simp [callsInStep]
  | cons e es ih =>
    obtain ⟨hanswer, hrest⟩ := hanswers
    obtain ⟨p, hloop, hlogs⟩ := clientRun_cons hrun
    obtain ⟨accepted, known, hp⟩ :=
      Tallied.pollLoop hanswer ⟨0, 0, tallied_start hlt.le {}⟩ hloop
    obtain ⟨hfirst, hlen, hknown⟩ := tallied_onlyFirst hp hlt
    have hle := hp.le
    have hno := hp.no
    have hnone := readsAtMost_iff hanswer hlt hloop (by decide : 0 ≤ 1)
    have hone := readsAtMost_iff hanswer hlt hloop (le_refl 1)
    rw [callsInStep]
    by_cases hfew : responseNo + 1 < requestNo → p.log.length ≤ 1
    · obtain ⟨c, hcall⟩ := callInStep_eq hanswer hlt hloop hfew
      have hended : hasEnded (callInStep clientId requestNo e) = decide (p.numOpenFds ≤ 0) := by
        rw [hcall]
        rfl
      rw [hended]
      rcases hlogs with ⟨hopen, rfl⟩ | ⟨hopen, later, hlater, rfl⟩
      · rw [if_neg (by simpa using hopen)]
        simp only [List.mem_singleton, forall_eq, List.pairwise_singleton, and_true, hfirst, hone]
        omega
      · rw [if_pos (by simpa using hopen)]
        have hcalls := ih (by omega) hrest hlater
        rw [List.forall_mem_cons, List.forall_mem_cons, List.pairwise_cons, hcalls, hfirst, hone, hnone]
        have hswap : (∀ call ∈ callsInStep clientId (requestNo + 1) es,
              p.log.length ≤ 0 → ReadsAtMost 1 call) ↔
            (p.log.length ≤ 0 → ∀ call ∈ callsInStep clientId (requestNo + 1) es,
              ReadsAtMost 1 call) :=
          ⟨fun h hzero call hmem => h call hmem hzero, fun h call hmem hzero => h hzero call hmem⟩
        rw [hswap]
        generalize (∀ call ∈ callsInStep clientId (requestNo + 1) es, ReadsAtMost 1 call) = few
        grind
    · -- The counter lags behind, and two of the replies are accepted.
      have hmem : p.log ∈ logs := by
        rcases hlogs with ⟨-, rfl⟩ | ⟨-, later, -, rfl⟩
        · exact List.mem_singleton_self _
        · exact List.mem_cons_self ..
      refine iff_of_false (fun hall => ?_) fun hcond => hfew fun hgap => ?_
      · have haccepted := hfirst.mp (hall _ hmem)
        omega
      · exact hone.mp (hcond.1 hgap _ (List.mem_cons_self ..))

/-- Every request has its first reply and no other accepted, exactly when no
request with two replies comes after a request without any. -/
theorem only_first_iff {es : List Exchange} {logs : List (List Bool)} (hanswers : AnswersInTurn 1 es)
    (hrun : clientRun clientId 0 es = .ok logs) :
    (∀ log ∈ logs, OnlyFirst log) ↔
      (callsInStep clientId 1 es).Pairwise fun earlier later => ReadsAtMost 0 earlier → ReadsAtMost 1 later := by
  have hall := clientRun_onlyFirst (by decide) hanswers hrun
  simpa using hall

end

theorem Says.answers {clientId requestNo : ℤ} {status : String} {reads : List ReadResult}
    (h : Says clientId requestNo status reads) {response got : MessageResponse}
    (hget : getResponseFromServer reads response = .ok (0, got)) : got.reqNo = requestNo := by
  obtain ⟨got', hget', -, -, hno⟩ := h response
  rw [hget'] at hget
  cases hget
  exact hno

theorem okReply_answers {reqNo : UInt64} (hsmall : reqNo.toNat < 2 ^ 31) {conns : List Conn}
    (h : ∀ fd reads, .connected fd (some reads) ∈ conns → reads = okReply reqNo) :
    AnswersRequest reqNo.toNat conns := by
  intro j reads response got hreply hget
  obtain ⟨fd, hc⟩ := replyAt_connected hreply
  rw [h fd reads (List.mem_of_getElem? hc)] at hget
  exact (okReply_stated hsmall).answers hget

def answeredTwice (reqNo : UInt64) : Exchange :=
  ⟨[.connected 4 (some (okReply reqNo)), .connected 5 (some (okReply reqNo))], [fun _ => true]⟩

theorem answeredTwice_answers {reqNo : UInt64} (hsmall : reqNo.toNat < 2 ^ 31) :
    AnswersRequest reqNo.toNat (answeredTwice reqNo).conns :=
  okReply_answers hsmall fun fd reads hmem => by
    simp only [answeredTwice, List.mem_cons, Conn.connected.injEq, Option.some.injEq,
      List.not_mem_nil, or_false] at hmem
    exact hmem.elim And.right And.right

theorem answeredTwice_run :
    clientRun 9 0 [answeredTwice 1, answeredTwice 2] = .ok [[true, false], [true, false]] :=
  StepRun.mem_toOption.mp (by decide +kernel)

theorem only_first_iff_twice :
    (∀ log ∈ [[true, false], [true, false]], OnlyFirst log) ↔
      (callsInStep 9 1 [answeredTwice 1, answeredTwice 2]).Pairwise
        fun earlier later => ReadsAtMost 0 earlier → ReadsAtMost 1 later :=
  have hanswers : AnswersInTurn 1 [answeredTwice 1, answeredTwice 2] :=
    ⟨answeredTwice_answers (by decide), answeredTwice_answers (by decide), trivial⟩
  only_first_iff hanswers answeredTwice_run

/-- The first request reaches no server; of the second both replies are accepted. -/
theorem unanswered_request_accepts_two :
    AnswersInTurn 1 [⟨[.refused 4], []⟩, answeredTwice 2] ∧
      clientRun 9 0 [⟨[.refused 4], []⟩, answeredTwice 2] = .ok [[], [true, true]] ∧
      ¬OnlyFirst [true, true] := by
  refine ⟨⟨?_, answeredTwice_answers (by decide), trivial⟩, StepRun.mem_toOption.mp (by decide +kernel),
    by simp [OnlyFirst]⟩
  intro j reads response got hreply
  obtain ⟨fd, hc⟩ := replyAt_connected hreply
  simpa using List.mem_of_getElem? hc

end ToDoList
