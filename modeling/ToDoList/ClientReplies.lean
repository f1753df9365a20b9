import ToDoList.PollFds
import Mathlib.Data.Finset.Card

/-!
# Which replies the client accepts

A reply is taken for one already received when its number is `response_no_g`,
and every other one raises `response_no_g` by one, whatever its status.
-/

namespace ToDoList
open CLib

/-! ### The entries in any run -/

def openSlots (p : Polling) : Finset ℕ := (Finset.range p.nfds).filter fun j => (p.pfds j).fd ≠ -1

/-- The entries as the connect loop has filled them, or emptied; the counter is
the number of those that are not empty, servers or not. -/
structure Entries (conns : List Conn) (p : Polling) : Prop where
  nfds : p.nfds = (connectedFds conns).length
  slot : ∀ j, (p.pfds j).fd = -1 ∨ p.pfds j = slotOf conns[j]?
  held : ∀ fd ∈ p.held, fd ∈ connectedFds conns
  count : p.numOpenFds = (openSlots p).card

section
variable {conns : List Conn}

theorem slotOf_fd_ne (hfresh : FreshFds conns) (j : ℕ) : (slotOf conns[j]?).fd ≠ -1 := by
  cases hc : conns[j]? with
  | none => decide
  | some c =>
    cases c with
    | connected fd reply =>
      have hpos := hfresh.pos fd (List.mem_append_left _ (mem_connectedFds.mpr ⟨j, reply, hc⟩))
      show fd ≠ -1
      omega
    | _ => show (0 : ℤ) ≠ -1; decide

theorem Started.entries {p : Polling} (hfresh : FreshFds conns) (h : Started conns p) :
    Entries conns p := by
  refine ⟨h.nfds, fun j => Or.inr (h.pfds j), fun fd hfd => by rwa [h.held] at hfd, ?_⟩
  have hall : openSlots p = Finset.range p.nfds := by
    refine Finset.filter_true_of_mem fun j _ => ?_
    rw [h.pfds]
    exact slotOf_fd_ne hfresh j
  rw [hall, Finset.card_range, h.count]

theorem Entries.frame {p : Polling} (h : Entries conns p) (success : Bool) (response : MessageResponse)
    (responseNo : ℤ) (log : List Bool) : Entries conns
      { p with success := success, response := response, responseNo := responseNo, log := log } :=
  ⟨h.nfds, h.slot, h.held, h.count⟩

theorem closeHeld_frame (p : Polling) (fd : ℤ) :
    ∃ held stray, closeHeld p fd = { p with held := held, stray := stray } ∧
      (∀ x ∈ held, x ∈ p.held) ∧ ∀ x ∈ p.held, x ≠ fd → x ∈ held := by
  unfold closeHeld
  split
  · exact ⟨p.held.erase fd, p.stray, rfl, fun x hx => List.mem_of_mem_erase hx,
      fun x hx hne => (List.mem_erase_of_ne hne).mpr hx⟩
  · exact ⟨p.held, _, rfl, fun x hx => hx, fun x hx _ => hx⟩

theorem releaseSlot_kept (p : Polling) (j : ℕ) :
    (releaseSlot p j).success = p.success ∧ (releaseSlot p j).response = p.response ∧
      (releaseSlot p j).responseNo = p.responseNo ∧ (releaseSlot p j).log = p.log := by
  obtain ⟨held, stray, heq, -⟩ := closeHeld_frame p (p.pfds j).fd
  unfold releaseSlot
  rw [heq]
  exact ⟨rfl, rfl, rfl, rfl⟩

theorem Entries.close {p : Polling} (h : Entries conns p) (fd : ℤ) : Entries conns (closeHeld p fd) := by
  obtain ⟨held, stray, heq, hsub, -⟩ := closeHeld_frame p fd
  rw [heq]
  exact ⟨h.nfds, h.slot, fun x hx => h.held x (hsub x hx), h.count⟩

theorem openSlots_release (p : Polling) (j : ℕ) :
    openSlots (releaseSlot p j) = (openSlots p).erase j := by
  obtain ⟨held, stray, heq, -⟩ := closeHeld_frame p (p.pfds j).fd
  unfold releaseSlot openSlots
  rw [heq]
  ext i
  simp only [Finset.mem_filter, Finset.mem_erase, Finset.mem_range]
  by_cases hij : i = j
  · subst hij
    simp
  · simp [hij]

/-- One entry is emptied, one is taken off the counter. -/
theorem Entries.release {p : Polling} (h : Entries conns p) {j : ℕ} (hj : j < p.nfds)
    (hfd : (p.pfds j).fd ≠ -1) : Entries conns (releaseSlot p j) := by
  have hslots := openSlots_release p j
  have hmem : j ∈ openSlots p := Finset.mem_filter.mpr ⟨Finset.mem_range.mpr hj, hfd⟩
  have hcard := Finset.card_erase_of_mem hmem
  have hpos := Finset.card_pos.mpr ⟨j, hmem⟩
  obtain ⟨held, stray, heq, hsub, -⟩ := closeHeld_frame p (p.pfds j).fd
  unfold releaseSlot at hslots ⊢
  rw [heq] at hslots ⊢
  refine ⟨h.nfds, fun i => ?_, fun x hx => h.held x (hsub x hx), ?_⟩
  · dsimp only
    by_cases hij : i = j
    · subst hij
      rw [Function.update_self]
      exact Or.inl rfl
    · rw [Function.update_of_ne hij]
      exact h.slot i
  · rw [hslots, hcard]
    dsimp only
    rw [h.count]
    omega

theorem Entries.readable_ne {p : Polling} (hfresh : FreshFds conns) (h : Entries conns p) {j : ℕ}
    (hread : Readable conns p j) : (p.pfds j).fd ≠ -1 := by
  have hpos := hfresh.pos _ (List.mem_append_left _ (h.held _ hread.2.2))
  omega

/-- Emptying one entry, or closing its socket, leaves the others readable. -/
theorem Entries.readable_other (hfresh : FreshFds conns) {p p' : Polling} (h : Entries conns p)
    {i j : ℕ} (hij : i ≠ j) (hj : Readable conns p j) (hi : Readable conns p i)
    (hpfds : p'.pfds i = p.pfds i) (hheld : ∀ x ∈ p.held, x ≠ (p.pfds j).fd → x ∈ p'.held) :
    Readable conns p' i := by
  obtain ⟨hreply, hevents, hmem⟩ := hi
  refine ⟨hreply, by rw [hpfds]; exact hevents, ?_⟩
  rw [hpfds]
  refine hheld _ hmem fun heq => hij ?_
  have hslot (k : ℕ) (hk : Readable conns p k) : p.pfds k = slotOf conns[k]? :=
    (h.slot k).resolve_left (h.readable_ne hfresh hk)
  have hpos (k : ℕ) (hk : Readable conns p k) : 0 < (p.pfds k).fd :=
    hfresh.pos _ (List.mem_append_left _ (h.held _ hk.2.2))
  have hi : Readable conns p i := ⟨hreply, hevents, hmem⟩
  obtain ⟨reply, hci⟩ := slotOf_connected (hpos i hi) (by rw [hslot i hi])
  obtain ⟨reply', hcj⟩ := slotOf_connected (hpos j hj) (by rw [hslot j hj])
  rw [← heq] at hcj
  exact connected_index_inj (List.nodup_append.mp hfresh.nodup).1 hci hcj

/-- What a turn of slot `j` does to the entries. -/
structure TurnOf (conns : List Conn) (j : ℕ) (p p' : Polling) : Prop where
  entries : Entries conns p'
  others : ∀ i, i ≠ j → Readable conns p i → Readable conns p' i
  fewer : ∀ i, Readable conns p' i → Readable conns p i

theorem turn_close (hfresh : FreshFds conns) {p : Polling} (h : Entries conns p) {j : ℕ}
    (hj : Readable conns p j) (response : MessageResponse) :
    TurnOf conns j p (closeHeld { p with response := response } (p.pfds j).fd) := by
  have hclosed := (h.frame p.success response p.responseNo p.log).close (p.pfds j).fd
  obtain ⟨held, stray, heq, hsub, hkept⟩ := closeHeld_frame { p with response := response } (p.pfds j).fd
  refine ⟨hclosed, fun i hij hi => h.readable_other hfresh hij hj hi ?_ ?_, fun i hi => ?_⟩
  · rw [heq]
  · rw [heq]
    exact hkept
  · rw [heq] at hi
    exact ⟨hi.1, hi.2.1, hsub _ hi.2.2⟩

theorem turn_release (hfresh : FreshFds conns) {p : Polling} (h : Entries conns p) {j : ℕ}
    (hlt : j < p.nfds) (hj : Readable conns p j) (response : MessageResponse) :
    TurnOf conns j p (releaseSlot { p with response := response } j) ∧
      ¬Readable conns (releaseSlot { p with response := response } j) j := by
  have hne := h.readable_ne hfresh hj
  have hreleased := (h.frame p.success response p.responseNo p.log).release hlt hne
  obtain ⟨held, stray, heq, hsub, hkept⟩ := closeHeld_frame { p with response := response } (p.pfds j).fd
  have hrelease : releaseSlot { p with response := response } j = { p with
      response := response, held := held, stray := stray
      pfds := Function.update p.pfds j { p.pfds j with fd := -1 }
      numOpenFds := p.numOpenFds - 1 } := by
    unfold releaseSlot
    dsimp only
    rw [heq]
  have hgone : ¬Readable conns (releaseSlot { p with response := response } j) j := by
    intro hread
    refine hreleased.readable_ne hfresh hread ?_
    rw [hrelease]
    dsimp only
    rw [Function.update_self]
  refine ⟨⟨hreleased, fun i hij hi => h.readable_other hfresh hij hj hi ?_ ?_, fun i hi => ?_⟩, hgone⟩
  · rw [hrelease]
    exact Function.update_of_ne hij ..
  · rw [hrelease]
    exact hkept
  · have hij : i ≠ j := by
      rintro rfl
      exact hgone hi
    rw [hrelease] at hi
    obtain ⟨hreply, hevents, hmem⟩ := hi
    dsimp only at hevents hmem
    rw [Function.update_of_ne hij] at hevents hmem
    exact ⟨hreply, hevents, hsub _ hmem⟩

theorem TurnOf.frame {p p' : Polling} {j : ℕ} (h : TurnOf conns j p p') (success : Bool)
    (response : MessageResponse) (responseNo : ℤ) (log : List Bool) : TurnOf conns j p
      { p' with success := success, response := response, responseNo := responseNo, log := log } :=
  ⟨h.entries.frame success response responseNo log, h.others, h.fewer⟩

/-- After the last loop over the entries none is left. -/
theorem Entries.cleanUp {p : Polling} (h : Entries conns p) (hsuccess : p.success = true) :
    (cleanUp p).success = true ∧ (cleanUp p).numOpenFds = 0 := by
  have hfold (js : List ℕ) (q : Polling) (hq : Entries conns q) (hjs : ∀ j ∈ js, j < q.nfds) :
      Entries conns (js.foldl closeSlot q) ∧ (js.foldl closeSlot q).success = q.success ∧
        ∀ i ∈ openSlots (js.foldl closeSlot q), i ∈ openSlots q ∧ i ∉ js := by
    induction js generalizing q with
    | nil => exact ⟨hq, rfl, fun i hi => ⟨hi, List.not_mem_nil⟩⟩
    | cons j js ih =>
      have hj := hjs j (List.mem_cons_self ..)
      have hclose : Entries conns (closeSlot q j) ∧ (closeSlot q j).success = q.success ∧
          openSlots (closeSlot q j) = (openSlots q).erase j := by
        unfold closeSlot
        by_cases hfd : (q.pfds j).fd = -1
        · have hnot : j ∉ openSlots q := fun hmem => (Finset.mem_filter.mp hmem).2 hfd
          rw [if_pos hfd, Finset.erase_eq_of_notMem hnot]
          exact ⟨hq, rfl, rfl⟩
        · rw [if_neg hfd]
          exact ⟨hq.release hj hfd, (releaseSlot_kept q j).1, openSlots_release q j⟩
      obtain ⟨hentries, hsame, hslots⟩ := hclose
      obtain ⟨hrest, hsame', hleft⟩ := ih (closeSlot q j) hentries fun i hi => by
        rw [hentries.nfds, ← hq.nfds]
        exact hjs i (List.mem_cons_of_mem _ hi)
      refine ⟨hrest, hsame'.trans hsame, fun i hi => ?_⟩
      obtain ⟨hmem, hnot⟩ := hleft i hi
      rw [hslots, Finset.mem_erase] at hmem
      exact ⟨hmem.2, fun hin => (List.mem_cons.mp hin).elim hmem.1 hnot⟩
  obtain ⟨hclean, hsame, hleft⟩ := hfold (List.range p.nfds) p h fun j hj => List.mem_range.mp hj
  unfold ToDoList.cleanUp
  rw [if_pos hsuccess]
  refine ⟨hsame.trans hsuccess, ?_⟩
  have hempty : openSlots ((List.range p.nfds).foldl closeSlot p) = ∅ := by
    refine Finset.eq_empty_of_forall_notMem fun i hi => ?_
    obtain ⟨hmem, hnot⟩ := hleft i hi
    exact hnot (List.mem_range.mpr (Finset.mem_range.mp (Finset.mem_filter.mp hmem).1))
  rw [hclean.count, hempty]
  rfl

end

/-! ### Replies to the request -/

/-- Complete, with these values, whatever the structure held. -/
def Says (clientId requestNo : ℤ) (status : String) (reads : List ReadResult) : Prop :=
  ∀ response, ∃ got, getResponseFromServer reads response = .ok (0, got) ∧
    got.status = ascii status ∧ got.clientId = clientId ∧ got.reqNo = requestNo

/-- A server that answers says OK or FAIL to this request, or its connection is
closed before. -/
def Behaves (conns : List Conn) (clientId requestNo : ℤ) : Prop :=
  ∀ j reads, replyAt conns j = some reads →
    EndsEarly reads ∨ Says clientId requestNo "OK" reads ∨ Says clientId requestNo "FAIL" reads

def statusAt (conns : List Conn) (j : ℕ) : Option Bytes :=
  match replyAt conns j with
  | none => none
  | some reads =>
    match getResponseFromServer reads {} with
    | .ok (ret, got) => if ret = 0 then some got.status else none
    | .error _ => none

def failures (conns : List Conn) : Finset ℕ :=
  (Finset.range (connectedFds conns).length).filter fun j => statusAt conns j = some (ascii "FAIL")

theorem Says.statusAt {conns : List Conn} {j : ℕ} {reads : List ReadResult} {clientId requestNo : ℤ}
    {status : String} (h : Says clientId requestNo status reads) (hreply : replyAt conns j = some reads) :
    statusAt conns j = some (ascii status) := by
  obtain ⟨got, hget, hstatus, -⟩ := h {}
  unfold ToDoList.statusAt
  rw [hreply]
  dsimp only
  rw [hget]
  simp [hstatus]

theorem EndsEarly.statusAt {conns : List Conn} {j : ℕ} {reads : List ReadResult} (h : EndsEarly reads)
    (hreply : replyAt conns j = some reads) : statusAt conns j = none := by
  obtain ⟨got, hget⟩ := h.ret {}
  unfold ToDoList.statusAt
  rw [hreply]
  dsimp only
  rw [hget]
  rfl

theorem ascii_ok_ne_fail : ascii "OK" ≠ ascii "FAIL" := by decide +kernel

theorem parse_ok {response : MessageResponse} {clientId : ℤ} (hstatus : response.status = ascii "OK")
    (hid : response.clientId = clientId) : parseResponseFromServer response clientId = 0 := by
  have hok : startsWith (ascii "OK") "OK" = true := by decide +kernel
  unfold parseResponseFromServer
  rw [if_neg (by simp [hid]), hstatus, if_pos hok]

theorem parse_fail {response : MessageResponse} {clientId : ℤ} (hstatus : response.status = ascii "FAIL")
    (hid : response.clientId = clientId) : parseResponseFromServer response clientId = -1 := by
  have hok : ¬startsWith (ascii "FAIL") "OK" = true := by decide +kernel
  have hfail : startsWith (ascii "FAIL") "FAIL" = true := by decide +kernel
  unfold parseResponseFromServer
  rw [if_neg (by simp [hid]), hstatus, if_neg hok, if_pos hfail]

section
variable {conns : List Conn} {clientId requestNo : ℤ}

/-- What comes of the turn of a slot. -/
inductive SlotOutcome (conns : List Conn) (requestNo : ℤ) (j : ℕ) (p p' : Polling) : Prop where
  | early (hstatus : statusAt conns j = none) (hsuccess : p'.success = p.success)
      (hno : p'.responseNo = p.responseNo)
  | duplicate (hgone : ¬Readable conns p' j) (hsame : p.responseNo = requestNo)
      (hsuccess : p'.success = p.success) (hno : p'.responseNo = p.responseNo)
  | failed (hgone : ¬Readable conns p' j) (hfail : statusAt conns j = some (ascii "FAIL"))
      (hnew : p.responseNo ≠ requestNo) (hsuccess : p'.success = p.success)
      (hno : p'.responseNo = p.responseNo + 1)
  | ok (hok : statusAt conns j = some (ascii "OK")) (hnew : p.responseNo ≠ requestNo)
      (hsuccess : p'.success = true)

theorem acceptReply_outcome {p : Polling} {j : ℕ} {status : String}
    (hstatus : statusAt conns j = some (ascii status)) (hone : status = "OK" ∨ status = "FAIL")
    (hgot : p.response.status = ascii status) (hid : p.response.clientId = clientId)
    (hno : p.response.reqNo = requestNo) (hgone : ¬Readable conns p j) :
    SlotOutcome conns requestNo j p (acceptReply clientId p) := by
  unfold acceptReply
  dsimp only
  rw [hno]
  by_cases hsame : requestNo = p.responseNo
  · rw [if_pos hsame]
    exact .duplicate hgone hsame.symm rfl rfl
  rw [if_neg hsame]
  rcases hone with rfl | rfl
  · rw [parse_ok hgot hid, if_neg (by decide)]
    exact .ok hstatus (Ne.symm hsame) rfl
  · rw [parse_fail hgot hid, if_pos (by decide)]
    exact .failed hgone hstatus (Ne.symm hsame) rfl rfl

/-- Every turn goes through, and a slot that is not ready keeps the state. -/
theorem pollSlot_outcome (hfresh : FreshFds conns) (hbehave : Behaves conns clientId requestNo)
    (report : ℕ → Bool) {p : Polling} (h : Entries conns p) {j : ℕ} (hlt : j < p.nfds) :
    ∃ p', pollSlot conns clientId report p j = .ok p' ∧ TurnOf conns j p p' ∧
      ((p' = p ∧ ¬(Readable conns p j ∧ report j = true)) ∨
        ((Readable conns p j ∧ report j = true) ∧ SlotOutcome conns requestNo j p p')) := by
  by_cases hready : Readable conns p j ∧ report j = true
  · obtain ⟨reads, hreply⟩ := Option.isSome_iff_exists.mp hready.1.1
    have hslot : pollSlot conns clientId report p j = readSlot clientId reads p j := by
      unfold pollSlot
      rw [if_pos hready, hreply, Option.getD_some]
    rcases hbehave j reads hreply with hearly | hstated
    · obtain ⟨got, hget⟩ := hearly.ret p.response
      refine ⟨closeHeld { p with response := got } (p.pfds j).fd, ?_,
        turn_close hfresh h hready.1 got, Or.inr ⟨hready, ?_⟩⟩
      · rw [hslot, readSlot, hget]
        rfl
      · obtain ⟨held, stray, heq, -⟩ := closeHeld_frame { p with response := got } (p.pfds j).fd
        rw [heq]
        exact .early (hearly.statusAt hreply) rfl rfl
    · obtain ⟨status, hone, hstated⟩ : ∃ status : String, (status = "OK" ∨ status = "FAIL") ∧
          Says clientId requestNo status reads := by
        rcases hstated with hok | hfail
        · exact ⟨"OK", Or.inl rfl, hok⟩
        · exact ⟨"FAIL", Or.inr rfl, hfail⟩
      obtain ⟨got, hget, hgot, hid, hno⟩ := hstated p.response
      obtain ⟨hturn, hgone⟩ := turn_release hfresh h hlt hready.1 got
      obtain ⟨hsuccess, hresponse, hresponseNo, -⟩ := releaseSlot_kept { p with response := got } j
      have hturn' : TurnOf conns j p (acceptReply clientId (releaseSlot { p with response := got } j)) := by
        obtain ⟨success, responseNo, log, haccept⟩ :=
          acceptReply_frame clientId (releaseSlot { p with response := got } j)
        rw [haccept]
        exact hturn.frame success _ responseNo log
      have houtcome : SlotOutcome conns requestNo j (releaseSlot { p with response := got } j)
          (acceptReply clientId (releaseSlot { p with response := got } j)) := by
        refine acceptReply_outcome (hstated.statusAt hreply) hone ?_ ?_ ?_ hgone
        · rw [hresponse, hgot]
        · rw [hresponse, hid]
        · rw [hresponse, hno]
      refine ⟨_, ?_, hturn', Or.inr ⟨hready, ?_⟩⟩
      · rw [hslot, readSlot, hget]
        rfl
      · cases houtcome with
        | early hstatus hs hn => exact .early hstatus (hs.trans hsuccess) (hn.trans hresponseNo)
        | duplicate hg hsame hs hn =>
          exact .duplicate hg (hresponseNo.symm.trans hsame) (hs.trans hsuccess) (hn.trans hresponseNo)
        | failed hg hfail hnew hs hn =>
          exact .failed hg hfail (by rwa [hresponseNo] at hnew) (hs.trans hsuccess)
            (by rw [hn, hresponseNo])
        | ok hok hnew hs => exact .ok hok (by rwa [hresponseNo] at hnew) hs
  · exact ⟨p, by unfold pollSlot; rw [if_neg hready],
      ⟨h, fun _ _ hi => hi, fun _ hi => hi⟩, Or.inl ⟨rfl, hready⟩⟩

/-! ### The run of one call -/

def waiting (conns : List Conn) (p : Polling) : Finset ℕ :=
  (failures conns).filter (Readable conns p)

theorem mem_waiting {p : Polling} {j : ℕ} : j ∈ waiting conns p ↔
    (j < (connectedFds conns).length ∧ statusAt conns j = some (ascii "FAIL")) ∧ Readable conns p j := by
  unfold waiting failures
  rw [Finset.mem_filter, Finset.mem_filter, Finset.mem_range]

theorem TurnOf.waiting {p p' : Polling} {j : ℕ} (h : TurnOf conns j p p') :
    waiting conns p' ⊆ waiting conns p := fun i hi =>
  mem_waiting.mpr ⟨(mem_waiting.mp hi).1, h.fewer i (mem_waiting.mp hi).2⟩

theorem TurnOf.waiting_erase {p p' : Polling} {j : ℕ} (h : TurnOf conns j p p')
    (hgone : ¬Readable conns p' j) : ToDoList.waiting conns p' = (ToDoList.waiting conns p).erase j := by
  ext i
  rw [Finset.mem_erase]
  constructor
  · intro hi
    refine ⟨?_, h.waiting hi⟩
    rintro rfl
    exact hgone (mem_waiting.mp hi).2
  · rintro ⟨hij, hi⟩
    exact mem_waiting.mpr ⟨(mem_waiting.mp hi).1, h.others i hij (mem_waiting.mp hi).2⟩

/-- The OK of entry `j` will be the one with which the call succeeds: the FAIL
replies cannot raise the counter as far as the request. -/
structure Awaits (conns : List Conn) (requestNo : ℤ) (j : ℕ) (p : Polling) : Prop where
  entries : Entries conns p
  readable : Readable conns p j
  status : statusAt conns j = some (ascii "OK")
  success : p.success = false
  room : p.responseNo + (waiting conns p).card < requestNo

structure Succeeded (conns : List Conn) (p : Polling) : Prop where
  entries : Entries conns p
  success : p.success = true

section
variable (hfresh : FreshFds conns) (hbehave : Behaves conns clientId requestNo)
  (report : ℕ → Bool) {p : Polling}

include hfresh hbehave

theorem Succeeded.pollSlots (h : Succeeded conns p) {js : List ℕ} (hjs : ∀ j ∈ js, j < p.nfds) :
    ∃ p', pollSlots conns clientId report js p = .ok p' ∧ Succeeded conns p' := by
  induction js generalizing p with
  | nil => exact ⟨p, rfl, h⟩
  | cons j js ih =>
    obtain ⟨q, hq, hturn, houtcome⟩ := pollSlot_outcome hfresh hbehave report h.entries
      (hjs j (List.mem_cons_self ..))
    have hsuccess : q.success = true := by
      rcases houtcome with ⟨rfl, -⟩ | ⟨-, houtcome⟩
      · exact h.success
      · cases houtcome with
        | ok _ _ hs => exact hs
        | early _ hs _ | duplicate _ _ hs _ | failed _ _ _ hs _ => exact hs.trans h.success
    obtain ⟨p', hp', hdone⟩ := ih ⟨hturn.entries, hsuccess⟩ fun i hi => by
      rw [hturn.entries.nfds, ← h.entries.nfds]
      exact hjs i (List.mem_cons_of_mem _ hi)
    refine ⟨p', ?_, hdone⟩
    rw [ToDoList.pollSlots, hq]
    exact hp'

/-- The awaited reply is left in place or accepted. -/
theorem Awaits.pollSlot {j : ℕ} (h : Awaits conns requestNo j p) {i : ℕ} (hlt : i < p.nfds) :
    ∃ p', pollSlot conns clientId report p i = .ok p' ∧
      ((Awaits conns requestNo j p' ∧ ¬(i = j ∧ report j = true)) ∨ Succeeded conns p') := by
  obtain ⟨p', hp', hturn, houtcome⟩ := pollSlot_outcome hfresh hbehave report h.entries hlt
  refine ⟨p', hp', ?_⟩
  have hroom := h.room
  rcases houtcome with ⟨rfl, hidle⟩ | ⟨hready, houtcome⟩
  · refine Or.inl ⟨h, ?_⟩
    rintro ⟨rfl, hreport⟩
    exact hidle ⟨h.readable, hreport⟩
  · have hother (hstatus : statusAt conns i ≠ some (ascii "OK")) : i ≠ j := by
      rintro rfl
      exact hstatus h.status
    cases houtcome with
    | early hstatus hsuccess hno =>
      have hij : i ≠ j := hother (by rw [hstatus]; exact Option.some_ne_none _ |>.symm)
      have hcard := Finset.card_le_card hturn.waiting
      refine Or.inl ⟨⟨hturn.entries, hturn.others j hij.symm h.readable, h.status,
        hsuccess.trans h.success, ?_⟩, fun heq => hij heq.1⟩
      rw [hno]
      omega
    | duplicate _ hsame _ _ => omega
    | failed hgone hfail hnew hsuccess hno =>
      have hij : i ≠ j := hother (by rw [hfail]; simp [ascii_ok_ne_fail.symm])
      have hmem : i ∈ waiting conns p := by
        rw [h.entries.nfds] at hlt
        exact mem_waiting.mpr ⟨⟨hlt, hfail⟩, hready.1⟩
      have hcard := Finset.card_erase_of_mem hmem
      have hpos := Finset.card_pos.mpr ⟨i, hmem⟩
      refine Or.inl ⟨⟨hturn.entries, hturn.others j hij.symm h.readable, h.status,
        hsuccess.trans h.success, ?_⟩, fun heq => hij heq.1⟩
      rw [hturn.waiting_erase hgone, hno]
      omega
    | ok _ _ hsuccess => exact Or.inr ⟨hturn.entries, hsuccess⟩

theorem Awaits.pollSlots {j : ℕ} (h : Awaits conns requestNo j p) {js : List ℕ}
    (hjs : ∀ i ∈ js, i < p.nfds) :
    ∃ p', pollSlots conns clientId report js p = .ok p' ∧
      ((Awaits conns requestNo j p' ∧ ¬(j ∈ js ∧ report j = true)) ∨ Succeeded conns p') := by
  induction js generalizing p with
  | nil => exact ⟨p, rfl, Or.inl ⟨h, fun hmem => absurd hmem.1 List.not_mem_nil⟩⟩
  | cons i js ih =>
    obtain ⟨q, hq, hcase⟩ := h.pollSlot hfresh hbehave report (hjs i (List.mem_cons_self ..))
    have hentries : Entries conns q := by
      rcases hcase with ⟨hawaits, -⟩ | hdone
      · exact hawaits.entries
      · exact hdone.entries
    have hjs' : ∀ k ∈ js, k < q.nfds := fun k hk => by
      rw [hentries.nfds, ← h.entries.nfds]
      exact hjs k (List.mem_cons_of_mem _ hk)
    rw [ToDoList.pollSlots, hq]
    dsimp only
    rcases hcase with ⟨hawaits, hnot⟩ | hdone
    · obtain ⟨p', hp', hcase'⟩ := ih hawaits hjs'
      refine ⟨p', hp', hcase'.imp_left fun hleft => ⟨hleft.1, ?_⟩⟩
      rintro ⟨hmem, hreport⟩
      rcases List.mem_cons.mp hmem with rfl | hmem
      · exact hnot ⟨rfl, hreport⟩
      · exact hleft.2 ⟨hmem, hreport⟩
    · obtain ⟨p', hp', hdone'⟩ := hdone.pollSlots hfresh hbehave report hjs'
      exact ⟨p', hp', Or.inr hdone'⟩

/-- The call succeeds with the first round that reports the awaited reply, or
before. -/
theorem Awaits.pollLoop {j : ℕ} (h : Awaits conns requestNo j p) (hj : j < (connectedFds conns).length)
    {reports : List (ℕ → Bool)} (hreports : ∃ report ∈ reports, report j = true) :
    ∃ p', pollLoop conns clientId reports p = .ok p' ∧ p'.success = true ∧ p'.numOpenFds = 0 := by
  induction reports generalizing p with
  | nil =>
    obtain ⟨report, hmem, -⟩ := hreports
    cases hmem
  | cons report reports ih =>
    have hopen : 0 < p.numOpenFds := by
      have hmem : j ∈ openSlots p := by
        rw [← h.entries.nfds] at hj
        exact Finset.mem_filter.mpr ⟨Finset.mem_range.mpr hj, h.entries.readable_ne hfresh h.readable⟩
      have hpos := Finset.card_pos.mpr ⟨j, hmem⟩
      rw [h.entries.count]
      omega
    have hrange : ∀ i ∈ List.range p.nfds, i < p.nfds := fun i hi => List.mem_range.mp hi
    obtain ⟨q, hq, hcase⟩ := h.pollSlots hfresh hbehave report hrange
    rw [ToDoList.pollLoop, if_pos hopen, pollRound, hq]
    show ∃ p', ToDoList.pollLoop conns clientId reports (cleanUp q) = .ok p' ∧ _
    rcases hcase with ⟨hawaits, hnot⟩ | hdone
    · have hclean : cleanUp q = q := by
        unfold cleanUp
        rw [if_neg (by simp [hawaits.success])]
      obtain ⟨report', hmem, hreport⟩ := hreports
      rw [hclean]
      refine ih hawaits ⟨report', (List.mem_cons.mp hmem).resolve_left ?_, hreport⟩
      rintro rfl
      rw [← h.entries.nfds] at hj
      exact hnot ⟨List.mem_range.mpr hj, hreport⟩
    · obtain ⟨hsuccess, hzero⟩ := hdone.entries.cleanUp hdone.success
      refine ⟨cleanUp q, ?_, hsuccess, hzero⟩
      cases reports with
      | nil => rfl
      | cons _ _ => rw [ToDoList.pollLoop, if_neg (by omega)]

end

/-- No reply can be accepted as a success any more. -/
structure Hopeless (conns : List Conn) (requestNo : ℤ) (p : Polling) : Prop where
  entries : Entries conns p
  success : p.success = false
  why : p.responseNo = requestNo ∨ ∀ j < (connectedFds conns).length, statusAt conns j ≠ some (ascii "OK")

theorem Hopeless.cleanUp {p : Polling} (h : Hopeless conns requestNo p) : cleanUp p = p := by
  unfold ToDoList.cleanUp
  rw [if_neg (by simp [h.success])]

section
variable (hfresh : FreshFds conns) (hbehave : Behaves conns clientId requestNo)
  {report : ℕ → Bool} {p p' : Polling}

include hfresh hbehave

theorem Hopeless.pollSlot (h : Hopeless conns requestNo p) {j : ℕ} (hlt : j < p.nfds)
    (hstep : pollSlot conns clientId report p j = .ok p') : Hopeless conns requestNo p' := by
  obtain ⟨q, hq, hturn, houtcome⟩ := pollSlot_outcome hfresh hbehave report h.entries hlt
  obtain rfl : q = p' := Except.ok.inj (hq.symm.trans hstep)
  rcases houtcome with ⟨rfl, -⟩ | ⟨-, houtcome⟩
  · exact h
  · cases houtcome with
    | early _ hsuccess hno | duplicate _ _ hsuccess hno =>
      exact ⟨hturn.entries, hsuccess.trans h.success, h.why.imp_left hno.trans⟩
    | failed _ _ hnew hsuccess _ =>
      exact ⟨hturn.entries, hsuccess.trans h.success, Or.inr (h.why.resolve_left hnew)⟩
    | ok hok hnew _ =>
      rw [h.entries.nfds] at hlt
      exact absurd hok (h.why.resolve_left hnew j hlt)

theorem Hopeless.pollRound (h : Hopeless conns requestNo p)
    (hround : pollRound conns clientId report p = .ok p') : Hopeless conns requestNo p' := by
  obtain ⟨q, hslots, rfl⟩ := pollRound_slots hround
  have hq : Hopeless conns requestNo q := by
    refine pollSlots_invariant (fun j hj r r' hr hslot => ?_) h hslots
    refine hr.pollSlot hfresh hbehave ?_ hslot
    rw [hr.entries.nfds, ← h.entries.nfds]
    exact List.mem_range.mp hj
  rw [hq.cleanUp]
  exact hq

theorem Hopeless.pollLoop (h : Hopeless conns requestNo p) {reports : List (ℕ → Bool)}
    (hrun : pollLoop conns clientId reports p = .ok p') : Hopeless conns requestNo p' :=
  pollLoop_invariant (fun _ _ _ hq hround => hq.pollRound hfresh hbehave hround) h hrun

/-- A round with nothing but the FAIL replies brings the counter to the request
when there are enough of them. -/
theorem pollSlots_failures {js : List ℕ} (h : Entries conns p) (hsuccess : p.success = false)
    (hjs : ∀ j ∈ js, j < p.nfds) (hwaiting : ∀ j ∈ waiting conns p, j ∈ js) (hle : p.responseNo ≤ requestNo)
    (henough : requestNo ≤ p.responseNo + (waiting conns p).card)
    (hrun : pollSlots conns clientId (fun j => j ∈ failures conns) js p = .ok p') :
    Hopeless conns requestNo p' := by
  induction js generalizing p with
  | nil =>
    have hempty : waiting conns p = ∅ := Finset.eq_empty_of_forall_notMem fun j hj =>
      List.not_mem_nil (hwaiting j hj)
    rw [hempty, Finset.card_empty] at henough
    cases hrun
    exact ⟨h, hsuccess, Or.inl (by omega)⟩
  | cons j js ih =>
    have hlt := hjs j (List.mem_cons_self ..)
    obtain ⟨q, hq, hturn, houtcome⟩ :=
      pollSlot_outcome hfresh hbehave (fun j => j ∈ failures conns) h hlt
    rw [ToDoList.pollSlots, hq] at hrun
    have hjs' : ∀ i ∈ js, i < q.nfds := fun i hi => by
      rw [hturn.entries.nfds, ← h.nfds]
      exact hjs i (List.mem_cons_of_mem _ hi)
    have hwaiting' (hgone : j ∉ waiting conns q) : ∀ i ∈ waiting conns q, i ∈ js := fun i hi => by
      refine (List.mem_cons.mp (hwaiting i (hturn.waiting hi))).resolve_left ?_
      rintro rfl
      exact hgone hi
    rcases houtcome with ⟨rfl, hidle⟩ | ⟨⟨hread, hreport⟩, houtcome⟩
    · refine ih h hsuccess hjs' (hwaiting' fun hmem => hidle ⟨(mem_waiting.mp hmem).2, ?_⟩) hle henough hrun
      exact decide_eq_true (Finset.mem_filter.mp hmem).1
    · have hfailed : j ∈ failures conns := of_decide_eq_true hreport
      have hfail : statusAt conns j = some (ascii "FAIL") := (Finset.mem_filter.mp hfailed).2
      have hmem : j ∈ waiting conns p := Finset.mem_filter.mpr ⟨hfailed, hread⟩
      have hcard := Finset.card_erase_of_mem hmem
      have hpos := Finset.card_pos.mpr ⟨j, hmem⟩
      cases houtcome with
      | early hstatus _ _ => rw [hfail] at hstatus; cases hstatus
      | duplicate hgone hsame hs hno =>
        refine ih hturn.entries (hs.trans hsuccess) hjs' (hwaiting' fun hin => hgone (mem_waiting.mp hin).2)
          ?_ ?_ hrun
        · omega
        · omega
      | failed hgone _ hnew hs hno =>
        refine ih hturn.entries (hs.trans hsuccess) hjs' (hwaiting' fun hin => hgone (mem_waiting.mp hin).2)
          ?_ ?_ hrun
        · omega
        · rw [hturn.waiting_erase hgone]
          omega
      | ok hok _ _ =>
        rw [hfail, Option.some.injEq] at hok
        exact absurd hok.symm ascii_ok_ne_fail

end

/-! ### When the call succeeds -/

/-- Whatever the order in which `poll` reports the sockets, as long as it comes
to each of them, the call returns 0. -/
def AlwaysSucceeds (conns : List Conn) (clientId : ℤ) (response : MessageResponse) (responseNo : ℤ) : Prop :=
  ∀ ready : ℕ → ℕ → Bool, (∀ j, ∃ n, ready n j = true) →
    ∃ n p, sendAndGetResponse conns clientId ((List.range n).map ready) response responseNo = .ok (0, p)

theorem sendAndGetResponse_loop {reports : List (ℕ → Bool)} {response : MessageResponse} {responseNo ret : ℤ}
    {p : Polling} (h : sendAndGetResponse conns clientId reports response responseNo = .ok (ret, p)) :
    pollLoop conns clientId reports (startPolling conns response responseNo) = .ok p ∧
      ret = if p.success then 0 else -1 := by
  unfold sendAndGetResponse at h
  cases hrun : pollLoop conns clientId reports (startPolling conns response responseNo) with
  | error f =>
    rw [hrun] at h
    cases h
  | ok q =>
    rw [hrun] at h
    dsimp only at h
    by_cases hopen : 0 < q.numOpenFds
    · rw [if_pos hopen] at h
      cases h
    · rw [if_neg hopen] at h
      cases h
      exact ⟨rfl, rfl⟩

theorem start_readable {j : ℕ} {reads : List ReadResult} {response : MessageResponse} {responseNo : ℤ}
    (hreply : replyAt conns j = some reads) :
    Readable conns (startPolling conns response responseNo) j := by
  have hstart := started_start conns response responseNo
  obtain ⟨fd, hc⟩ := replyAt_connected hreply
  have hslot : (startPolling conns response responseNo).pfds j = ⟨fd, true⟩ := by
    rw [hstart.pfds, hc]
    rfl
  refine ⟨by rw [hreply]; rfl, ?_, ?_⟩
  · rw [hslot]
  · rw [hslot, hstart.held]
    exact mem_connectedFds.mpr ⟨j, _, hc⟩

theorem statusAt_reply {j : ℕ} {status : Bytes} (h : statusAt conns j = some status) :
    ∃ reads, replyAt conns j = some reads := by
  unfold statusAt at h
  cases hreply : replyAt conns j with
  | none =>
    rw [hreply] at h
    cases h
  | some reads => exact ⟨reads, rfl⟩

/-- The FAIL replies of the polled entries are all still to come. -/
theorem start_waiting (response : MessageResponse) (responseNo : ℤ) :
    waiting conns (startPolling conns response responseNo) = failures conns := by
  refine Finset.filter_true_of_mem fun j hj => ?_
  obtain ⟨reads, hreply⟩ := statusAt_reply (Finset.mem_filter.mp hj).2
  exact start_readable hreply

section
variable (hfresh : FreshFds conns) (hbehave : Behaves conns clientId requestNo)
  {response : MessageResponse} {responseNo : ℤ}

include hfresh hbehave

theorem Hopeless.never (h : Hopeless conns requestNo (startPolling conns response responseNo))
    (reports : List (ℕ → Bool)) (p : Polling) :
    sendAndGetResponse conns clientId reports response responseNo ≠ .ok (0, p) := by
  intro hrun
  obtain ⟨hloop, hret⟩ := sendAndGetResponse_loop hrun
  rw [(h.pollLoop hfresh hbehave hloop).success] at hret
  exact absurd hret (by decide)

/-- With enough FAIL replies before it the OK is taken for one already received. -/
theorem failures_first (hbehind : responseNo < requestNo)
    (hmany : requestNo ≤ responseNo + (failures conns).card) {reports : List (ℕ → Bool)} {p : Polling}
    (hloop : pollLoop conns clientId ((fun j => j ∈ failures conns) :: reports)
      (startPolling conns response responseNo) = .ok p) : p.success = false := by
  have hentries : Entries conns (startPolling conns response responseNo) :=
    (started_start conns response responseNo).entries hfresh
  obtain ⟨hsuccess, hno, -⟩ := connectLoop_frame conns { response := response, responseNo := responseNo } 0
  rw [pollLoop] at hloop
  by_cases hopen : 0 < (startPolling conns response responseNo).numOpenFds
  · rw [if_pos hopen] at hloop
    cases hround : pollRound conns clientId (fun j => j ∈ failures conns)
        (startPolling conns response responseNo) with
    | error f =>
      rw [hround] at hloop
      cases hloop
    | ok r =>
      rw [hround] at hloop
      obtain ⟨q, hslots, rfl⟩ := pollRound_slots hround
      have hq : Hopeless conns requestNo q := by
        refine pollSlots_failures hfresh hbehave hentries hsuccess (fun j hj => List.mem_range.mp hj)
          (fun j hj => ?_) (hno.trans_le hbehind.le) ?_ hslots
        · rw [hentries.nfds]
          exact List.mem_range.mpr (mem_waiting.mp hj).1.1
        · rw [start_waiting]
          exact hmany.trans_eq (congrArg (· + _) hno.symm)
      rw [hq.cleanUp] at hloop
      exact (hq.pollLoop hfresh hbehave hloop).success
  · rw [if_neg hopen] at hloop
    cases hloop
    exact hsuccess

end

/-- The call succeeds under every order exactly when the socket of a server that
says OK is among the entries that are polled, and the polled FAIL replies are
too few to raise `response_no_g` to the number of the request. -/
theorem always_succeeds_iff (hfresh : FreshFds conns) (hbehave : Behaves conns clientId requestNo)
    {responseNo : ℤ} (hbehind : responseNo < requestNo) (response : MessageResponse) :
    AlwaysSucceeds conns clientId response responseNo ↔
      (∃ j < (connectedFds conns).length, statusAt conns j = some (ascii "OK")) ∧
        responseNo + (failures conns).card < requestNo := by
  have hentries : Entries conns (startPolling conns response responseNo) :=
    (started_start conns response responseNo).entries hfresh
  obtain ⟨hsuccess, hno, -⟩ := connectLoop_frame conns { response := response, responseNo := responseNo } 0
  constructor
  · intro hall
    constructor
    · by_contra hnone
      obtain ⟨n, p, hrun⟩ := hall (fun _ _ => true) fun _ => ⟨0, rfl⟩
      have hhopeless : Hopeless conns requestNo (startPolling conns response responseNo) :=
        ⟨hentries, hsuccess, Or.inr fun j hj hstatus => hnone ⟨j, hj, hstatus⟩⟩
      exact hhopeless.never hfresh hbehave _ p hrun
    · by_contra hmany
      -- the FAIL replies first, then everything
      obtain ⟨n, p, hrun⟩ := hall (fun n j => n ≠ 0 ∨ j ∈ failures conns) fun _ => ⟨1, by simp⟩
      obtain ⟨hloop, hret⟩ := sendAndGetResponse_loop hrun
      have hnot : p.success = false := by
        cases n with
        | zero =>
          cases hloop
          exact hsuccess
        | succ n =>
          rw [List.range_succ_eq_map, List.map_cons] at hloop
          simp only [ne_eq, not_true, false_or] at hloop
          exact failures_first hfresh hbehave hbehind (not_lt.mp hmany) hloop
      rw [hnot] at hret
      exact absurd hret (by decide)
  · rintro ⟨⟨j, hj, hstatus⟩, hroom⟩ ready hfair
    obtain ⟨reads, hreply⟩ := statusAt_reply hstatus
    obtain ⟨n, hn⟩ := hfair j
    have hawaits : Awaits conns requestNo j (startPolling conns response responseNo) := by
      refine ⟨hentries, start_readable hreply, hstatus, hsuccess, ?_⟩
      rw [start_waiting]
      exact (congrArg (· + _) hno).trans_lt hroom
    obtain ⟨p, hloop, hdone, hzero⟩ := hawaits.pollLoop hfresh hbehave hj
      ⟨ready n, List.mem_map_of_mem (List.mem_range.mpr (Nat.lt_succ_self n)), hn⟩
    refine ⟨n + 1, p, ?_⟩
    unfold sendAndGetResponse
    rw [hloop]
    dsimp only
    rw [if_neg (by omega), if_pos hdone]

end

/-! ### The replies that servers send -/

/-- The reply to a request other than a heartbeat, however it is cut. -/
theorem replyText_stated {cut : Bytes → List ReadResult} (hcut : IsCut cut) (s : Server)
    (hstate : s.state.named = true) (ctx : ClientCtx) (hid : Counted ctx.clientId)
    (hno : ctx.req.reqNo.toNat < 2 ^ 31) (htype : ctx.req.msgType ≠ .msgHeartbeat) {msg : String}
    (hmsg : msg ∈ replyMsgs) {status : String} (hone : status = "OK" ∨ status = "FAIL") :
    Says ctx.clientId ctx.req.reqNo.toNat status (cut (replyText s ctx (ascii status) (ascii msg))) := by
  obtain ⟨hclean, hcontent⟩ := hcut (replyText s ctx (ascii status) (ascii msg))
  have hword : ReplyWord (ascii status) ∧ (ascii status).length < taskLength ∧ ascii status ≠ [] := by
    rcases hone with rfl | rfl
    · exact ⟨replyWord_short (by decide +kernel) (by decide +kernel), by decide +kernel, by decide +kernel⟩
    · exact ⟨replyWord_short (by decide +kernel) (by decide +kernel), by decide +kernel, by decide +kernel⟩
  obtain ⟨hreply, hlen, hne⟩ := hword
  intro response
  obtain ⟨got, hgot, hstatus, hclient, hreq, -⟩ :=
    decodeReply_text hid hno hmsg hstate hreply hlen response
  refine ⟨got, ?_, ?_, hclient, hreq⟩
  · rw [getResponse_eq hclean, hcontent, hgot, if_neg htype]
  · rw [hstatus, if_neg hne]

def okReply (reqNo : UInt64) : List ReadResult :=
  byByte (replyText { serverId := 1, state := .activeRunning }
    { clientId := 9, req := { msgType := .msgAdd, reqNo := reqNo } } (ascii "OK") (ascii "Success"))

theorem okReply_stated {reqNo : UInt64} (hno : reqNo.toNat < 2 ^ 31) :
    Says 9 reqNo.toNat "OK" (okReply reqNo) :=
  replyText_stated isCut_byByte { serverId := 1, state := .activeRunning } rfl
    { clientId := 9, req := { msgType := .msgAdd, reqNo := reqNo } } (show Counted 9 by decide) hno
    (show MsgType.msgAdd ≠ .msgHeartbeat by decide) (by decide) (Or.inl rfl)

theorem behaves_okReply {conns : List Conn} (h : ∀ fd reads, .connected fd (some reads) ∈ conns →
    reads = okReply 1) : Behaves conns 9 1 := by
  intro j reads hreply
  obtain ⟨fd, hc⟩ := replyAt_connected hreply
  rw [h fd reads (List.mem_of_getElem? hc)]
  exact Or.inr (Or.inl (okReply_stated (by decide)))

theorem always_succeeds_iff_backup :
    AlwaysSucceeds [.connected 4 none, .connected 5 (some (okReply 1))] 9 {} 0 ↔
      (∃ j < 2, statusAt [.connected 4 none, .connected 5 (some (okReply 1))] j = some (ascii "OK")) ∧
        (0 : ℤ) + (failures [.connected 4 none, .connected 5 (some (okReply 1))]).card < 1 :=
  always_succeeds_iff ⟨by decide, by decide⟩ (behaves_okReply (by simp)) (by decide) {}

/-- The first of two servers refuses: the OK of the second is never read. -/
theorem refused_server_hides_ok :
    FreshFds [.refused 4, .connected 5 (some (okReply 1))] ∧ Says 9 1 "OK" (okReply 1) ∧
      ¬AlwaysSucceeds [.refused 4, .connected 5 (some (okReply 1))] 9 {} 0 := by
  have hfresh : FreshFds [.refused 4, .connected 5 (some (okReply 1))] := ⟨by decide, by decide⟩
  refine ⟨hfresh, okReply_stated (by decide), fun hall => ?_⟩
  obtain ⟨n, p, hrun⟩ := hall (fun _ _ => true) fun _ => ⟨0, rfl⟩
  have hhopeless : Hopeless [.refused 4, .connected 5 (some (okReply 1))] 1
      (startPolling [.refused 4, .connected 5 (some (okReply 1))] {} 0) := by
    refine ⟨(started_start _ {} 0).entries hfresh, rfl, Or.inr fun j hj => ?_⟩
    obtain rfl : j = 0 := Nat.lt_one_iff.mp hj
    simp [statusAt, replyAt]
  exact hhopeless.never hfresh (behaves_okReply (by simp)) _ p hrun

end ToDoList
