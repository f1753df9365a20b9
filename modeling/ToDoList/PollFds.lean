import ToDoList.Polling

/-!
# The descriptors of the poll loop

As long as the connected servers come first and every reply is complete, the
polled entries hold exactly the open sockets.
-/

namespace ToDoList
open CLib

/-! ### What a reply does to the descriptors -/

theorem getResponseLoop_ret {fuel : ℕ} {r : SockBufRead} {response got : MessageResponse} {ret : ℤ}
    (h : getResponseLoop fuel r response = .ok (ret, got)) : ret = 0 ∨ ret = -1 := by
  induction fuel generalizing r response with
  | zero => cases h
  | succ fuel ih =>
    rw [getResponseLoop] at h
    cases hread : sockReadline maxLength r with
    | error f =>
      rw [hread] at h
      cases h
    | ok p =>
      obtain ⟨line, q⟩ := p
      rw [hread] at h
      dsimp only at h
      by_cases hnil : line = []
      · rw [if_pos hnil] at h
        cases h
        exact Or.inr rfl
      rw [if_neg hnil] at h
      by_cases hend : startsWith line "\r\n" = true
      · rw [if_pos hend] at h
        cases h
        exact Or.inl rfl
      rw [if_neg hend] at h
      cases hline : responseLine line response with
      | error f =>
        rw [hline] at h
        cases h
      | ok response' =>
        rw [hline] at h
        exact ih h

theorem responseLine_any {line : Bytes} {response got : MessageResponse}
    (h : responseLine line response = .ok got) (response' : MessageResponse) :
    ∃ got', responseLine line response' = .ok got' := by
  unfold responseLine at h ⊢
  cases hkey : replyKey line with
  | none => exact ⟨_, rfl⟩
  | some k =>
    rw [hkey] at h
    dsimp only at h ⊢
    by_cases hroom : line.length < maxLength ∨ (0 : UInt8) ∈ line
    · rw [if_pos hroom] at h ⊢
      cases hscan : scanWord k (cString line) with
      | error f =>
        rw [hscan] at h
        cases h
      | ok word => exact ⟨_, rfl⟩
    · rw [if_neg hroom] at h
      cases h

/-- What the reader returns does not depend on what the structure held. -/
theorem getResponseLoop_any {fuel : ℕ} {r : SockBufRead} {response got : MessageResponse} {ret : ℤ}
    (h : getResponseLoop fuel r response = .ok (ret, got)) (response' : MessageResponse) :
    ∃ got', getResponseLoop fuel r response' = .ok (ret, got') := by
  induction fuel generalizing r response response' with
  | zero => cases h
  | succ fuel ih =>
    rw [getResponseLoop] at h ⊢
    cases hread : sockReadline maxLength r with
    | error f =>
      rw [hread] at h
      cases h
    | ok p =>
      obtain ⟨line, q⟩ := p
      rw [hread] at h
      dsimp only at h ⊢
      by_cases hnil : line = []
      · rw [if_pos hnil] at h ⊢
        cases h
        exact ⟨_, rfl⟩
      rw [if_neg hnil] at h ⊢
      by_cases hend : startsWith line "\r\n" = true
      · rw [if_pos hend] at h ⊢
        cases h
        exact ⟨_, rfl⟩
      rw [if_neg hend] at h ⊢
      cases hline : responseLine line response with
      | error f =>
        rw [hline] at h
        cases h
      | ok next =>
        obtain ⟨next', hline'⟩ := responseLine_any hline response'
        rw [hline] at h
        rw [hline']
        exact ih h next'

/-- The connection is closed before the reply is complete. -/
def EndsEarly (reads : List ReadResult) : Prop :=
  ∃ response got, getResponseFromServer reads response = .ok (-1, got)

/-- The reply is read to the empty line at its end: no word leaves its buffer, no read
fails, and the connection is not closed before. -/
def ReadToEnd (reads : List ReadResult) : Prop :=
  ∃ response got, getResponseFromServer reads response = .ok (0, got)

theorem ReadToEnd.ret {reads : List ReadResult} (h : ReadToEnd reads) (response : MessageResponse) :
    ∃ got, getResponseFromServer reads response = .ok (0, got) := by
  obtain ⟨response₀, got, hgot⟩ := h
  exact getResponseLoop_any hgot response

theorem ReadToEnd.not_early {reads : List ReadResult} (h : ReadToEnd reads) : ¬EndsEarly reads := by
  rintro ⟨response, got, hearly⟩
  obtain ⟨got', hend⟩ := h.ret response
  rw [hend] at hearly
  cases hearly

theorem EndsEarly.ret {reads : List ReadResult} (h : EndsEarly reads) (response : MessageResponse) :
    ∃ got, getResponseFromServer reads response = .ok (-1, got) := by
  obtain ⟨response₀, got, hgot⟩ := h
  exact getResponseLoop_any hgot response

theorem acceptReply_frame (clientId : ℤ) (p : Polling) : ∃ success responseNo log,
    acceptReply clientId p = { p with success := success, responseNo := responseNo, log := log } := by
  unfold acceptReply
  dsimp only
  split_ifs
  · exact ⟨_, _, _, rfl⟩
  · exact ⟨_, _, _, rfl⟩
  · exact ⟨_, _, _, rfl⟩

/-- All that a slot's turn can do. -/
theorem pollSlot_cases {conns : List Conn} {clientId : ℤ} {report : ℕ → Bool} {p p' : Polling} {j : ℕ}
    (h : pollSlot conns clientId report p j = .ok p') :
    (p' = p ∧ ¬(Readable conns p j ∧ report j = true)) ∨
      ((Readable conns p j ∧ report j = true) ∧ ∃ reads response, replyAt conns j = some reads ∧
        ((getResponseFromServer reads p.response = .ok (-1, response) ∧
            p' = closeHeld { p with response := response } (p.pfds j).fd) ∨
          (getResponseFromServer reads p.response = .ok (0, response) ∧
            p' = acceptReply clientId (releaseSlot { p with response := response } j)))) := by
  unfold pollSlot at h
  by_cases hready : Readable conns p j ∧ report j = true
  · rw [if_pos hready] at h
    obtain ⟨reads, hreads⟩ := Option.isSome_iff_exists.mp hready.1.1
    rw [hreads] at h
    refine Or.inr ⟨hready, ?_⟩
    unfold readSlot at h
    dsimp only [Option.getD_some] at h
    cases hget : getResponseFromServer reads p.response with
    | error f =>
      rw [hget] at h
      cases h
    | ok r =>
      obtain ⟨status, response⟩ := r
      rw [hget] at h
      dsimp only at h
      refine ⟨reads, response, hreads, ?_⟩
      rcases getResponseLoop_ret hget with rfl | rfl
      · rw [if_neg (by decide)] at h
        cases h
        exact Or.inr ⟨hget, rfl⟩
      · rw [if_pos (by decide)] at h
        cases h
        exact Or.inl ⟨hget, rfl⟩
  · rw [if_neg hready] at h
    cases h
    exact Or.inl ⟨rfl, hready⟩

/-! ### Invariants of the loop -/

section
variable {conns : List Conn} {clientId : ℤ} {p p' : Polling} {I : Polling → Prop}

theorem pollSlots_invariant {report : ℕ → Bool} {js : List ℕ}
    (hslot : ∀ j ∈ js, ∀ q q', I q → pollSlot conns clientId report q j = .ok q' → I q')
    (h : I p) (hrun : pollSlots conns clientId report js p = .ok p') : I p' := by
  induction js generalizing p with
  | nil =>
    cases hrun
    exact h
  | cons j js ih =>
    rw [pollSlots] at hrun
    cases hq : pollSlot conns clientId report p j with
    | error f =>
      rw [hq] at hrun
      cases hrun
    | ok q =>
      rw [hq] at hrun
      exact ih (fun i hi => hslot i (List.mem_cons_of_mem _ hi))
        (hslot j (List.mem_cons_self ..) p q h hq) hrun

theorem pollRound_slots {report : ℕ → Bool} (h : pollRound conns clientId report p = .ok p') :
    ∃ q, pollSlots conns clientId report (List.range p.nfds) p = .ok q ∧ p' = cleanUp q := by
  unfold pollRound at h
  cases hslots : pollSlots conns clientId report (List.range p.nfds) p with
  | error f =>
    rw [hslots] at h
    cases h
  | ok q =>
    rw [hslots] at h
    cases h
    exact ⟨q, rfl, rfl⟩

/-- The last loop over the entries. -/
theorem cleanUp_invariant
    (hrelease : ∀ j < p.nfds, ∀ q, I q → (q.pfds j).fd ≠ -1 → I (releaseSlot q j)) (h : I p) :
    I (cleanUp p) := by
  have hfold (js : List ℕ) (hjs : ∀ j ∈ js, j < p.nfds) (q : Polling) (hq : I q) :
      I (js.foldl closeSlot q) := by
    induction js generalizing q with
    | nil => exact hq
    | cons j js ih =>
      refine ih (fun i hi => hjs i (List.mem_cons_of_mem _ hi)) (closeSlot q j) ?_
      unfold closeSlot
      by_cases hfd : (q.pfds j).fd = -1
      · rw [if_pos hfd]
        exact hq
      · rw [if_neg hfd]
        exact hrelease j (hjs j (List.mem_cons_self ..)) q hq hfd
  unfold cleanUp
  split
  · exact hfold _ (fun j hj => List.mem_range.mp hj) p h
  · exact h

theorem pollLoop_invariant
    (hround : ∀ report q q', I q → pollRound conns clientId report q = .ok q' → I q')
    {reports : List (ℕ → Bool)} (h : I p) (hrun : pollLoop conns clientId reports p = .ok p') :
    I p' := by
  induction reports generalizing p with
  | nil =>
    cases hrun
    exact h
  | cons report reports ih =>
    rw [pollLoop] at hrun
    by_cases hopen : 0 < p.numOpenFds
    · rw [if_pos hopen] at hrun
      cases hq : pollRound conns clientId report p with
      | error f =>
        rw [hq] at hrun
        cases hrun
      | ok q =>
        rw [hq] at hrun
        exact ih (hround report p q h hq) hrun
    · rw [if_neg hopen] at hrun
      cases hrun
      exact h

end

/-- The number of polled entries, and the sockets nothing refers to, stay. -/
def SameEntries (p p' : Polling) : Prop := p'.nfds = p.nfds ∧ p'.leaked = p.leaked

theorem SameEntries.trans {p q r : Polling} (h : SameEntries p q) (h' : SameEntries q r) :
    SameEntries p r := ⟨h'.1.trans h.1, h'.2.trans h.2⟩

theorem sameEntries_close (p : Polling) (fd : ℤ) : SameEntries p (closeHeld p fd) := by
  unfold closeHeld
  split
  · exact ⟨rfl, rfl⟩
  · exact ⟨rfl, rfl⟩

theorem sameEntries_release (p : Polling) (j : ℕ) : SameEntries p (releaseSlot p j) :=
  sameEntries_close p (p.pfds j).fd

theorem sameEntries_cleanUp (p : Polling) : SameEntries p (cleanUp p) :=
  cleanUp_invariant (fun j _ q hq _ => hq.trans (sameEntries_release q j)) ⟨rfl, rfl⟩

section
variable {conns : List Conn} {clientId : ℤ} {p p' : Polling}

theorem sameEntries_slot {report : ℕ → Bool} {j : ℕ}
    (h : pollSlot conns clientId report p j = .ok p') : SameEntries p p' := by
  rcases pollSlot_cases h with ⟨rfl, -⟩ | ⟨-, reads, response, -, ⟨-, rfl⟩ | ⟨-, rfl⟩⟩
  · exact ⟨rfl, rfl⟩
  · exact sameEntries_close { p with response := response } _
  · obtain ⟨success, responseNo, log, haccept⟩ :=
      acceptReply_frame clientId (releaseSlot { p with response := response } j)
    rw [haccept]
    exact sameEntries_release { p with response := response } j

theorem sameEntries_slots {report : ℕ → Bool} {js : List ℕ}
    (h : pollSlots conns clientId report js p = .ok p') : SameEntries p p' :=
  pollSlots_invariant (fun _ _ _ _ hq hslot => hq.trans (sameEntries_slot hslot)) ⟨rfl, rfl⟩ h

theorem sameEntries_loop {reports : List (ℕ → Bool)}
    (h : pollLoop conns clientId reports p = .ok p') : SameEntries p p' := by
  refine pollLoop_invariant (fun report q q' hq hround => ?_) ⟨rfl, rfl⟩ h
  obtain ⟨r, hslots, rfl⟩ := pollRound_slots hround
  exact (hq.trans (sameEntries_slots hslots)).trans (sameEntries_cleanUp r)

end

/-! ### The sockets of the call -/

/-- The open sockets are those of the polled entries, each in one entry, and the
counter is their number. -/
structure SocketsOwned (p : Polling) : Prop where
  nodup : p.held.Nodup
  slot : ∀ fd, fd ∈ p.held ↔ ∃ j < p.nfds, (p.pfds j).fd = fd ∧ fd ≠ -1
  inj : ∀ i < p.nfds, ∀ j < p.nfds, (p.pfds i).fd = (p.pfds j).fd → (p.pfds i).fd = -1 ∨ i = j
  count : p.numOpenFds = p.held.length
  stray : p.stray = []

theorem SocketsOwned.frame {p : Polling} (h : SocketsOwned p) (success : Bool) (response : MessageResponse)
    (responseNo : ℤ) (log : List Bool) :
    SocketsOwned { p with success := success, response := response, responseNo := responseNo, log := log } :=
  ⟨h.nodup, h.slot, h.inj, h.count, h.stray⟩

theorem SocketsOwned.mem {p : Polling} (h : SocketsOwned p) {j : ℕ} (hj : j < p.nfds) (hfd : (p.pfds j).fd ≠ -1) :
    (p.pfds j).fd ∈ p.held := (h.slot _).mpr ⟨j, hj, rfl, hfd⟩

theorem releaseSlot_held {p : Polling} {j : ℕ} (hfd : (p.pfds j).fd ∈ p.held) :
    releaseSlot p j = { p with
      held := p.held.erase (p.pfds j).fd
      pfds := Function.update p.pfds j { p.pfds j with fd := -1 }
      numOpenFds := p.numOpenFds - 1 } := by
  unfold releaseSlot closeHeld
  rw [if_pos hfd]

/-- An open socket is closed and its entry is emptied. -/
theorem SocketsOwned.release {p : Polling} (h : SocketsOwned p) {j : ℕ} (hj : j < p.nfds)
    (hfd : (p.pfds j).fd ≠ -1) : SocketsOwned (releaseSlot p j) := by
  have hmem := h.mem hj hfd
  rw [releaseSlot_held hmem]
  refine ⟨h.nodup.erase _, fun fd => ?_, fun i hi k hk heq => ?_, ?_, h.stray⟩
  · dsimp only
    rw [h.nodup.mem_erase_iff, h.slot]
    constructor
    · rintro ⟨hne, i, hi, hfdi, hneg⟩
      refine ⟨i, hi, ?_, hneg⟩
      have hij : i ≠ j := by
        rintro rfl
        exact hne hfdi.symm
      rw [Function.update_of_ne hij]
      exact hfdi
    · rintro ⟨i, hi, hfdi, hneg⟩
      by_cases hij : i = j
      · subst hij
        rw [Function.update_self] at hfdi
        exact absurd hfdi.symm hneg
      · rw [Function.update_of_ne hij] at hfdi
        refine ⟨?_, i, hi, hfdi, hneg⟩
        rintro rfl
        rcases h.inj i hi j hj hfdi with hminus | hsame
        · exact hneg (hfdi ▸ hminus)
        · exact hij hsame
  · dsimp only at heq ⊢
    by_cases hij : i = j
    · subst hij
      rw [Function.update_self]
      exact Or.inl rfl
    · rw [Function.update_of_ne hij] at heq ⊢
      by_cases hkj : k = j
      · subst hkj
        rw [Function.update_self] at heq
        exact Or.inl heq
      · rw [Function.update_of_ne hkj] at heq
        exact h.inj i hi k hk heq
  · dsimp only
    have hlen := List.length_erase_of_mem hmem
    have hpos := List.length_pos_of_mem hmem
    rw [h.count, hlen]
    omega

theorem SocketsOwned.readable_ne {p : Polling} (h : SocketsOwned p) {conns : List Conn} {j : ℕ}
    (hread : Readable conns p j) : (p.pfds j).fd ≠ -1 := by
  obtain ⟨-, -, -, hne⟩ := (h.slot _).mp hread.2.2
  exact hne

/-- Emptying one entry leaves what the others can report. -/
theorem SocketsOwned.release_readable {p : Polling} (h : SocketsOwned p) {conns : List Conn} {i j : ℕ}
    (hi : i < p.nfds) (hj : j < p.nfds) (hij : i ≠ j) (hfd : (p.pfds j).fd ≠ -1)
    (hread : Readable conns p i) : Readable conns (releaseSlot p j) i := by
  obtain ⟨hreply, hevents, hheld⟩ := hread
  rw [releaseSlot_held (h.mem hj hfd)]
  refine ⟨hreply, ?_, ?_⟩
  · dsimp only
    rw [Function.update_of_ne hij]
    exact hevents
  · dsimp only
    rw [Function.update_of_ne hij, h.nodup.mem_erase_iff]
    refine ⟨fun heq => ?_, hheld⟩
    rcases h.inj i hi j hj heq with hminus | hsame
    · exact hfd (heq ▸ hminus)
    · exact hij hsame

section
variable {conns : List Conn} {clientId : ℤ} {report : ℕ → Bool}

/-- The turn of a slot with a complete reply. -/
theorem SocketsOwned.pollSlot {p p' : Polling} (h : SocketsOwned p) {j : ℕ} (hj : j < p.nfds)
    (hcomplete : ∀ reads, replyAt conns j = some reads → ¬EndsEarly reads)
    (hstep : pollSlot conns clientId report p j = .ok p') :
    SocketsOwned p' ∧ p'.numOpenFds ≤ p.numOpenFds ∧
      (Readable conns p j ∧ report j = true → p'.numOpenFds < p.numOpenFds) ∧
      ∀ i < p.nfds, i ≠ j → Readable conns p i → Readable conns p' i := by
  rcases pollSlot_cases hstep with ⟨rfl, hnot⟩ | ⟨⟨hread, -⟩, reads, response, hreads,
    ⟨hget, -⟩ | ⟨-, rfl⟩⟩
  · exact ⟨h, le_rfl, fun hready => absurd hready hnot, fun _ _ _ hread => hread⟩
  · exact absurd ⟨_, _, hget⟩ (hcomplete reads hreads)
  · have hfd := h.readable_ne hread
    have hp : SocketsOwned { p with response := response } := h.frame p.success response p.responseNo p.log
    have hreleased : SocketsOwned (releaseSlot { p with response := response } j) := hp.release hj hfd
    have heq := releaseSlot_held (p := { p with response := response }) (h.mem hj hfd)
    obtain ⟨success, responseNo, log, haccept⟩ :=
      acceptReply_frame clientId (releaseSlot { p with response := response } j)
    have hothers (i : ℕ) (hi : i < p.nfds) (hij : i ≠ j) (hother : Readable conns p i) :
        Readable conns (releaseSlot { p with response := response } j) i :=
      hp.release_readable hi hj hij hfd hother
    have hless : (releaseSlot { p with response := response } j).numOpenFds < p.numOpenFds := by
      rw [heq]
      dsimp only
      omega
    rw [haccept]
    exact ⟨hreleased.frame _ _ _ _, hless.le, fun _ => hless, hothers⟩

theorem SocketsOwned.pollSlots {p p' : Polling} (h : SocketsOwned p) {js : List ℕ} (hjs : ∀ j ∈ js, j < p.nfds)
    (hcomplete : ∀ j ∈ js, ∀ reads, replyAt conns j = some reads → ¬EndsEarly reads)
    (hstep : pollSlots conns clientId report js p = .ok p') :
    SocketsOwned p' ∧ p'.numOpenFds ≤ p.numOpenFds ∧
      ((∃ j ∈ js, Readable conns p j ∧ report j = true) → p'.numOpenFds < p.numOpenFds) := by
  induction js generalizing p with
  | nil =>
    cases hstep
    exact ⟨h, le_rfl, fun ⟨j, hj, _⟩ => absurd hj (List.not_mem_nil)⟩
  | cons j js ih =>
    have hj := hjs j (List.mem_cons_self ..)
    rw [ToDoList.pollSlots] at hstep
    cases hslot : ToDoList.pollSlot conns clientId report p j with
    | error f =>
      rw [hslot] at hstep
      cases hstep
    | ok q =>
      rw [hslot] at hstep
      obtain ⟨hq, hcount, hless, hothers⟩ :=
        h.pollSlot hj (hcomplete j (List.mem_cons_self ..)) hslot
      obtain ⟨hp', hcount', hless'⟩ := ih hq
        (fun i hi => by rw [(sameEntries_slot hslot).1]; exact hjs i (List.mem_cons_of_mem _ hi))
        (fun i hi => hcomplete i (List.mem_cons_of_mem _ hi)) hstep
      refine ⟨hp', hcount'.trans hcount, ?_⟩
      rintro ⟨i, hi, hread, hreport⟩
      by_cases hij : i = j
      · have := hless (hij ▸ ⟨hread, hreport⟩)
        omega
      · have hi' := (List.mem_cons.mp hi).resolve_left hij
        have := hless' ⟨i, hi', hothers i (hjs i hi) hij hread, hreport⟩
        omega

theorem SocketsOwned.cleanUp {p : Polling} (h : SocketsOwned p) :
    SocketsOwned (cleanUp p) ∧ (cleanUp p).numOpenFds ≤ p.numOpenFds := by
  have hkept : SocketsOwned (ToDoList.cleanUp p) ∧ (ToDoList.cleanUp p).nfds = p.nfds ∧
      (ToDoList.cleanUp p).numOpenFds ≤ p.numOpenFds := by
    refine cleanUp_invariant (I := fun q => SocketsOwned q ∧ q.nfds = p.nfds ∧
      q.numOpenFds ≤ p.numOpenFds) (fun j hj q hq hfd => ?_) ⟨h, rfl, le_rfl⟩
    obtain ⟨howned, hnfds, hcount⟩ := hq
    rw [← hnfds] at hj
    have hreleased := howned.release hj hfd
    rw [releaseSlot_held (howned.mem hj hfd)] at hreleased ⊢
    exact ⟨hreleased, hnfds, by dsimp only; omega⟩
  exact ⟨hkept.1, hkept.2.2⟩

end

/-! ### The state behind the connections -/

def Conn.connectedFd : Conn → Option ℤ
  | .connected fd _ => some fd
  | _ => none

def Conn.refusedFd : Conn → Option ℤ
  | .refused fd => some fd
  | _ => none

def connectedFds (conns : List Conn) : List ℤ := conns.filterMap Conn.connectedFd
def refusedFds (conns : List Conn) : List ℤ := conns.filterMap Conn.refusedFd

/-- `socket` returns numbers that are not in use, and 0 is in use. -/
structure FreshFds (conns : List Conn) : Prop where
  nodup : (connectedFds conns ++ refusedFds conns).Nodup
  pos : ∀ fd ∈ connectedFds conns ++ refusedFds conns, 0 < fd

/-- No server that was not reached comes before one that was. -/
def ConnectedFirst (conns : List Conn) : Prop :=
  conns.Pairwise fun a b => b.connectedFd.isSome → a.connectedFd.isSome

def slotOf : Option Conn → PollFd
  | some (.connected fd _) => ⟨fd, true⟩
  | _ => {}

structure Started (conns : List Conn) (p : Polling) : Prop where
  pfds : ∀ j, p.pfds j = slotOf conns[j]?
  nfds : p.nfds = (connectedFds conns).length
  count : p.numOpenFds = p.nfds
  held : p.held = connectedFds conns
  leaked : p.leaked = refusedFds conns
  stray : p.stray = []

theorem connectLoop_spec (conns cs : List Conn) {p : Polling} {i : ℕ} (hi : conns.length = i)
    (hpfds : ∀ j, p.pfds j = slotOf conns[j]?) (hnfds : p.nfds = (connectedFds conns).length)
    (hheld : p.held = connectedFds conns) (hleaked : p.leaked = refusedFds conns)
    (hstray : p.stray = []) : Started (conns ++ cs) (connectLoop i cs p) := by
  induction cs generalizing conns p i with
  | nil =>
    rw [List.append_nil]
    exact ⟨hpfds, hnfds, rfl, hheld, hleaked, hstray⟩
  | cons c cs ih =>
    have hsplit : conns ++ c :: cs = (conns ++ [c]) ++ cs := by simp
    rw [hsplit, connectLoop]
    have hslot (j : ℕ) : (conns ++ [c])[j]? = if j = i then some c else conns[j]? := by
      rw [List.getElem?_append]
      split_ifs with hlt heq heq
      · omega
      · rfl
      · rw [heq, hi, Nat.sub_self]
        rfl
      · rw [List.getElem?_eq_none (by rw [List.length_singleton]; omega),
          List.getElem?_eq_none (by omega)]
    have hempty : conns[i]? = none := List.getElem?_eq_none (by omega)
    refine ih (conns ++ [c]) (by rw [List.length_append, hi]; rfl) (fun j => ?_) ?_ ?_ ?_ ?_
    · rw [hslot]
      by_cases hj : j = i
      · subst hj
        rw [if_pos rfl]
        cases c with
        | connected fd reply => exact Function.update_self ..
        | _ => exact (hpfds j).trans (by rw [hempty]; rfl)
      · rw [if_neg hj, ← hpfds]
        cases c with
        | connected fd reply => exact Function.update_of_ne hj ..
        | _ => rfl
    · cases c <;> simp [connectAt, connectedFds, Conn.connectedFd, hnfds]
    · cases c <;> simp [connectAt, connectedFds, Conn.connectedFd, hheld]
    · cases c <;> simp [connectAt, refusedFds, Conn.refusedFd, hleaked]
    · cases c <;> exact hstray

theorem connectLoop_frame (cs : List Conn) (p : Polling) (i : ℕ) :
    (connectLoop i cs p).success = p.success ∧ (connectLoop i cs p).responseNo = p.responseNo ∧
      (connectLoop i cs p).log = p.log := by
  induction cs generalizing p i with
  | nil => exact ⟨rfl, rfl, rfl⟩
  | cons c cs ih =>
    obtain ⟨hsuccess, hno, hlog⟩ := ih (connectAt p i c) (i + 1)
    rw [connectLoop, hsuccess, hno, hlog]
    cases c <;> exact ⟨rfl, rfl, rfl⟩

theorem started_start (conns : List Conn) (response : MessageResponse) (responseNo : ℤ) :
    Started conns (startPolling conns response responseNo) :=
  connectLoop_spec [] conns rfl (fun _ => rfl) rfl rfl rfl rfl

theorem slotOf_connected {conns : List Conn} {j : ℕ} {fd : ℤ} (hfd : 0 < fd)
    (h : (slotOf conns[j]?).fd = fd) : ∃ reply, conns[j]? = some (.connected fd reply) := by
  cases hc : conns[j]? with
  | none =>
    rw [hc] at h
    exact absurd hfd (by rw [← h]; decide)
  | some c =>
    rw [hc] at h
    cases c with
    | connected fd' reply => exact ⟨reply, by rw [← h]; rfl⟩
    | _ => exact absurd hfd (by rw [← h]; exact lt_irrefl (0 : ℤ))

theorem mem_connectedFds {conns : List Conn} {fd : ℤ} :
    fd ∈ connectedFds conns ↔ ∃ (j : ℕ) (reply : _), conns[j]? = some (.connected fd reply) := by
  unfold connectedFds
  rw [List.mem_filterMap]
  constructor
  · rintro ⟨c, hc, hfd⟩
    obtain ⟨j, hj⟩ := List.mem_iff_getElem?.mp hc
    cases c with
    | connected fd' reply =>
      cases hfd
      exact ⟨j, reply, hj⟩
    | _ => cases hfd
  · rintro ⟨j, reply, hj⟩
    exact ⟨_, List.mem_of_getElem? hj, rfl⟩

theorem connected_index_inj {conns : List Conn} (h : (connectedFds conns).Nodup) {i j : ℕ} {fd : ℤ}
    {reply reply' : Option (List ReadResult)} (hi : conns[i]? = some (.connected fd reply))
    (hj : conns[j]? = some (.connected fd reply')) : i = j := by
  induction conns generalizing i j with
  | nil => cases hi
  | cons c cs ih =>
    have hcs : (connectedFds cs).Nodup := by
      unfold connectedFds at h ⊢
      exact h.sublist ((List.sublist_cons_self c cs).filterMap _)
    have hnot (k : ℕ) (r r' : Option (List ReadResult)) (hc : c = .connected fd r)
        (hk : cs[k]? = some (.connected fd r')) : False := by
      rw [hc, show connectedFds (.connected fd r :: cs) = fd :: connectedFds cs from rfl,
        List.nodup_cons] at h
      exact h.1 (mem_connectedFds.mpr ⟨k, r', hk⟩)
    cases i with
    | zero =>
      cases j with
      | zero => rfl
      | succ j => exact (hnot j reply reply' (Option.some.inj hi) hj).elim
    | succ i =>
      cases j with
      | zero => exact (hnot i reply' reply (Option.some.inj hj) hi).elim
      | succ j => rw [ih hcs hi hj]

/-- The connected servers are those of the first entries. -/
theorem connectedFirst_slots {conns : List Conn} (h : ConnectedFirst conns) (j : ℕ) :
    j < (connectedFds conns).length ↔ ∃ fd reply, conns[j]? = some (.connected fd reply) := by
  induction conns generalizing j with
  | nil => simp [connectedFds]
  | cons c cs ih =>
    obtain ⟨hc, hcs⟩ := List.pairwise_cons.mp h
    have hnone (hfd : c.connectedFd = none) : connectedFds cs = [] := by
      unfold connectedFds
      rw [List.filterMap_eq_nil_iff]
      intro b hb
      by_contra hne
      have := hc b hb (Option.isSome_iff_ne_none.mpr hne)
      rw [hfd] at this
      cases this
    cases c with
    | connected fd reply =>
      have hlen : (connectedFds (.connected fd reply :: cs)).length = (connectedFds cs).length + 1 := rfl
      rw [hlen]
      cases j with
      | zero => simp
      | succ j =>
        rw [List.getElem?_cons_succ, ← ih hcs j]
        omega
    | refused fd | writeFailed fd =>
      have hlen : (connectedFds cs).length = 0 := by rw [hnone rfl, List.length_nil]
      show j < (connectedFds cs).length ↔ _
      cases j with
      | zero => simp [hlen]
      | succ j =>
        rw [List.getElem?_cons_succ, ← ih hcs j, hlen]
        omega

theorem Started.owned {conns : List Conn} {p : Polling} (hp : Started conns p) (hfresh : FreshFds conns)
    (hfirst : ConnectedFirst conns) : SocketsOwned p := by
  have hnodup : (connectedFds conns).Nodup := (List.nodup_append.mp hfresh.nodup).1
  have hpos : ∀ fd ∈ connectedFds conns, 0 < fd := fun fd hfd =>
    hfresh.pos fd (List.mem_append_left _ hfd)
  refine ⟨?_, fun fd => ?_, fun i hi j hj heq => Or.inr ?_, ?_, hp.stray⟩
  · rw [hp.held]
    exact hnodup
  · rw [hp.held, hp.nfds]
    constructor
    · intro hfd
      have hgt := hpos fd hfd
      obtain ⟨j, reply, hj⟩ := mem_connectedFds.mp hfd
      refine ⟨j, (connectedFirst_slots hfirst j).mpr ⟨fd, reply, hj⟩, ?_, by omega⟩
      rw [hp.pfds, hj]
      rfl
    · rintro ⟨j, hj, hfd, -⟩
      obtain ⟨fd', reply, hc⟩ := (connectedFirst_slots hfirst j).mp hj
      rw [hp.pfds, hc] at hfd
      exact mem_connectedFds.mpr ⟨j, reply, by rw [hc, ← hfd]; rfl⟩
  · rw [hp.nfds] at hi hj
    obtain ⟨fd, reply, hci⟩ := (connectedFirst_slots hfirst i).mp hi
    obtain ⟨fd', reply', hcj⟩ := (connectedFirst_slots hfirst j).mp hj
    rw [hp.pfds, hp.pfds, hci, hcj] at heq
    have hsame : fd = fd' := heq
    exact connected_index_inj hnodup hci (hsame ▸ hcj)
  · rw [hp.count, hp.nfds, hp.held]

/-- When every socket has an entry that is polled, none comes behind a server
that was not reached. -/
theorem Started.connectedFirst {conns : List Conn} {p : Polling} (hp : Started conns p)
    (hfresh : FreshFds conns) (hpolled : ∀ fd ∈ p.held, ∃ j < p.nfds, (p.pfds j).fd = fd) :
    ConnectedFirst conns := by
  have hnodup : (connectedFds conns).Nodup := (List.nodup_append.mp hfresh.nodup).1
  have hsplit : connectedFds (conns.take p.nfds) ++ connectedFds (conns.drop p.nfds) =
      connectedFds conns := by
    unfold connectedFds
    rw [← List.filterMap_append, List.take_append_drop]
  have hnone : connectedFds (conns.drop p.nfds) = [] := by
    rw [List.eq_nil_iff_forall_not_mem]
    intro fd hfd
    have hmem : fd ∈ connectedFds conns := by
      rw [← hsplit]
      exact List.mem_append_right _ hfd
    obtain ⟨j, hj, hslot⟩ := hpolled fd (by rw [hp.held]; exact hmem)
    rw [hp.pfds] at hslot
    obtain ⟨reply, hc⟩ := slotOf_connected (hfresh.pos fd (List.mem_append_left _ hmem)) hslot
    have htake : fd ∈ connectedFds (conns.take p.nfds) :=
      mem_connectedFds.mpr ⟨j, reply, by rw [List.getElem?_take_of_lt hj, hc]⟩
    rw [← hsplit] at hnodup
    exact (List.nodup_append.mp hnodup).2.2 fd htake fd hfd rfl
  have hall : ∀ c ∈ conns.take p.nfds, c.connectedFd.isSome := by
    refine List.filterMap_length_eq_length.mp ?_
    have hlen := congrArg List.length hsplit
    rw [hnone, List.append_nil, ← hp.nfds] at hlen
    have htake := List.length_take_le p.nfds conns
    have hfilter := List.length_filterMap_le Conn.connectedFd (conns.take p.nfds)
    unfold connectedFds at hlen
    omega
  have hrest : ∀ c ∈ conns.drop p.nfds, c.connectedFd = none := List.filterMap_eq_nil_iff.mp hnone
  unfold ConnectedFirst
  rw [← List.take_append_drop p.nfds conns, List.pairwise_append]
  refine ⟨?_, ?_, ?_⟩
  · exact List.pairwise_of_forall_mem_list fun a ha _ _ _ => hall a ha
  · refine List.pairwise_of_forall_mem_list fun _ _ b hb hsome => ?_
    rw [hrest b hb] at hsome
    cases hsome
  · intro a ha _ _ _
    exact hall a ha

/-! ### Every round of the loop -/

/-- What a server that was reached sends is read to its end. -/
def RepliesComplete (conns : List Conn) : Prop :=
  ∀ j reads, replyAt conns j = some reads → ReadToEnd reads

/-- The sockets that are counted, each in a polled entry; nothing else closed. -/
structure SocketsBalanced (p : Polling) (sockets : List ℤ) : Prop where
  count : p.numOpenFds = sockets.length
  polled : ∀ fd ∈ sockets, ∃ j < p.nfds, (p.pfds j).fd = fd
  stray : p.stray = []

/-- Whatever is reported, the loop comes back to its head; there the counter and the
polled entries agree with the `sockets` that are open, every round that reports a
readable or closed socket ends and decreases the counter, and it is 0 when the last
connected server is done. -/
def DescriptorsAgree (conns : List Conn) (clientId : ℤ) (response : MessageResponse) (responseNo : ℤ)
    (sockets : Polling → List ℤ) : Prop :=
  ∀ reports, ∃ p, pollLoop conns clientId reports (startPolling conns response responseNo) = .ok p ∧
    SocketsBalanced p (sockets p) ∧
    (∀ report, (∃ j < p.nfds, Readable conns p j ∧ report j = true) →
      ∃ p', pollRound conns clientId report p = .ok p' ∧ p'.numOpenFds < p.numOpenFds) ∧
    (p.held = [] → p.numOpenFds ≤ 0)

section
variable {conns : List Conn} {clientId : ℤ}

theorem SocketsOwned.pollRound {report : ℕ → Bool} {p p' : Polling} (h : SocketsOwned p)
    (hcomplete : RepliesComplete conns) (hstep : pollRound conns clientId report p = .ok p') :
    SocketsOwned p' ∧
      ((∃ j < p.nfds, Readable conns p j ∧ report j = true) → p'.numOpenFds < p.numOpenFds) := by
  obtain ⟨q, hslots, rfl⟩ := pollRound_slots hstep
  obtain ⟨hq, -, hless⟩ := h.pollSlots (fun j hj => List.mem_range.mp hj)
    (fun j _ reads hreads => (hcomplete j reads hreads).not_early) hslots
  obtain ⟨hclean, hle⟩ := hq.cleanUp
  refine ⟨hclean, ?_⟩
  rintro ⟨j, hj, hready⟩
  exact hle.trans_lt (hless ⟨j, List.mem_range.mpr hj, hready⟩)

theorem SocketsOwned.pollLoop {reports : List (ℕ → Bool)} {p p' : Polling} (h : SocketsOwned p)
    (hcomplete : RepliesComplete conns) (hrun : pollLoop conns clientId reports p = .ok p') :
    SocketsOwned p' :=
  pollLoop_invariant (fun _ _ _ hq hround => (hq.pollRound hcomplete hround).1) h hrun

theorem pollSlot_returns (hcomplete : RepliesComplete conns) (report : ℕ → Bool) (p : Polling) (j : ℕ) :
    ∃ p', pollSlot conns clientId report p j = .ok p' := by
  unfold pollSlot
  by_cases hready : Readable conns p j ∧ report j = true
  · rw [if_pos hready]
    obtain ⟨reads, hreads⟩ := Option.isSome_iff_exists.mp hready.1.1
    obtain ⟨got, hgot⟩ := (hcomplete j reads hreads).ret p.response
    unfold readSlot
    rw [hreads, Option.getD_some, hgot]
    exact ⟨_, rfl⟩
  · rw [if_neg hready]
    exact ⟨p, rfl⟩

theorem pollRound_returns (hcomplete : RepliesComplete conns) (report : ℕ → Bool) (p : Polling) :
    ∃ p', pollRound conns clientId report p = .ok p' := by
  have hslots (js : List ℕ) (q : Polling) : ∃ q', pollSlots conns clientId report js q = .ok q' := by
    induction js generalizing q with
    | nil => exact ⟨q, rfl⟩
    | cons j js ih =>
      obtain ⟨r, hr⟩ := pollSlot_returns hcomplete report q j
      rw [pollSlots, hr]
      exact ih r
  obtain ⟨q, hq⟩ := hslots (List.range p.nfds) p
  unfold pollRound
  rw [hq]
  exact ⟨_, rfl⟩

theorem pollLoop_returns (hcomplete : RepliesComplete conns) (reports : List (ℕ → Bool)) (p : Polling) :
    ∃ p', pollLoop conns clientId reports p = .ok p' := by
  induction reports generalizing p with
  | nil => exact ⟨p, rfl⟩
  | cons report reports ih =>
    rw [pollLoop]
    by_cases hopen : 0 < p.numOpenFds
    · obtain ⟨q, hq⟩ := pollRound_returns hcomplete report p
      rw [if_pos hopen, hq]
      exact ih q
    · rw [if_neg hopen]
      exact ⟨p, rfl⟩

theorem descriptorsAgree_of_complete (hfresh : FreshFds conns) (hfirst : ConnectedFirst conns)
    (hcomplete : RepliesComplete conns) (response : MessageResponse) (responseNo : ℤ) :
    DescriptorsAgree conns clientId response responseNo Polling.held := by
  intro reports
  obtain ⟨p, hrun⟩ := @pollLoop_returns conns clientId hcomplete reports
    (startPolling conns response responseNo)
  have hp : SocketsOwned p := ((started_start conns response responseNo).owned hfresh hfirst).pollLoop
    hcomplete hrun
  refine ⟨p, hrun, ⟨hp.count, fun fd hfd => ?_, hp.stray⟩, fun report hready => ?_, fun hnil => ?_⟩
  · obtain ⟨j, hj, hslot, -⟩ := (hp.slot fd).mp hfd
    exact ⟨j, hj, hslot⟩
  · obtain ⟨p', hround⟩ := pollRound_returns hcomplete report p
    exact ⟨p', hround, (hp.pollRound hcomplete hround).2 hready⟩
  · rw [hp.count, hnil]
    exact le_rfl

theorem pollSlots_quiet {report : ℕ → Bool} {js : List ℕ} (h : ∀ i ∈ js, report i = false)
    (p : Polling) : pollSlots conns clientId report js p = .ok p := by
  induction js with
  | nil => rfl
  | cons i js ih =>
    have hi := h i (List.mem_cons_self ..)
    rw [pollSlots, pollSlot, if_neg (by simp [hi])]
    exact ih fun k hk => h k (List.mem_cons_of_mem _ hk)

/-- A round that reports one socket. -/
theorem pollSlots_only {js : List ℕ} (hnodup : js.Nodup) {j : ℕ} (hj : j ∈ js) (p : Polling) :
    pollSlots conns clientId (fun i => i = j) js p =
      pollSlot conns clientId (fun i => i = j) p j := by
  induction js with
  | nil => cases hj
  | cons i js ih =>
    obtain ⟨hi, hjs⟩ := List.nodup_cons.mp hnodup
    rw [pollSlots]
    by_cases hij : i = j
    · subst hij
      cases pollSlot conns clientId (fun k => decide (k = i)) p i with
      | error f => rfl
      | ok q =>
        refine pollSlots_quiet (fun k hk => decide_eq_false ?_) q
        rintro rfl
        exact hi hk
    · rw [pollSlot, if_neg (by simp [hij])]
      exact ih hjs ((List.mem_cons.mp hj).resolve_left (Ne.symm hij))

theorem replyAt_connected {j : ℕ} {reads : List ReadResult} (h : replyAt conns j = some reads) :
    ∃ fd, conns[j]? = some (.connected fd (some reads)) := by
  unfold replyAt at h
  split at h
  · rename_i fd reply hc
    exact ⟨fd, by rw [hc, h]⟩
  · cases h

/-- The first round, when it reports one server that was reached. -/
theorem first_round (clientId : ℤ) (hfirst : ConnectedFirst conns) {j : ℕ} {reads : List ReadResult}
    (hreads : replyAt conns j = some reads) (response : MessageResponse) (responseNo : ℤ) :
    ∃ (s : Polling) (fd : ℤ), startPolling conns response responseNo = s ∧ s.numOpenFds = s.held.length ∧
      fd ∈ s.held ∧ (s.pfds j).fd = fd ∧ s.success = false ∧
      pollLoop conns clientId [fun i => i = j] s = (readSlot clientId reads s j).map cleanUp := by
  have hp := started_start conns response responseNo
  obtain ⟨s, hs⟩ : ∃ s, startPolling conns response responseNo = s := ⟨_, rfl⟩
  rw [hs] at hp
  obtain ⟨fd, hc⟩ := replyAt_connected hreads
  have hj : j < s.nfds := by
    rw [hp.nfds]
    exact (connectedFirst_slots hfirst j).mpr ⟨fd, _, hc⟩
  have hslot : s.pfds j = ⟨fd, true⟩ := by
    rw [hp.pfds, hc]
    rfl
  have hheld : fd ∈ s.held := by
    rw [hp.held]
    exact mem_connectedFds.mpr ⟨j, _, hc⟩
  have hready : Readable conns s j ∧ decide (j = j) = true := by
    refine ⟨⟨by rw [hreads]; rfl, ?_, ?_⟩, by simp⟩
    · rw [hslot]
    · rw [hslot]
      exact hheld
  have hturn : pollSlot conns clientId (fun i => i = j) s j = readSlot clientId reads s j := by
    unfold pollSlot
    rw [if_pos hready, hreads, Option.getD_some]
  have hsuccess : s.success = false := by
    rw [← hs]
    exact (connectLoop_frame conns _ 0).1
  have hpos : 0 < s.numOpenFds := by
    rw [hp.count]
    omega
  refine ⟨s, fd, hs, ?_, hheld, by rw [hslot], hsuccess, ?_⟩
  · rw [hp.count, hp.nfds, hp.held]
  · rw [pollLoop, if_pos hpos, pollRound, pollSlots_only List.nodup_range (List.mem_range.mpr hj), hturn]
    cases readSlot clientId reads s j with
    | error f => rfl
    | ok q => rfl

/-- After one connection that closed early the counter is one too high. -/
theorem early_close_unbalances (clientId : ℤ) (hfirst : ConnectedFirst conns)
    {j : ℕ} {reads : List ReadResult} (hreads : replyAt conns j = some reads)
    (hearly : EndsEarly reads) (response : MessageResponse) (responseNo : ℤ) :
    ∃ p, pollLoop conns clientId [fun i => i = j] (startPolling conns response responseNo) = .ok p ∧
      p.numOpenFds = p.held.length + 1 := by
  obtain ⟨s, fd, hs, hcount, hheld, hslot, hsuccess, hround⟩ :=
    first_round clientId hfirst hreads response responseNo
  obtain ⟨got, hgot⟩ := hearly.ret s.response
  have hturn : readSlot clientId reads s j = .ok { s with response := got, held := s.held.erase fd } := by
    unfold readSlot
    rw [hgot]
    dsimp only
    rw [if_pos (by decide), closeHeld, hslot, if_pos hheld]
  refine ⟨{ s with response := got, held := s.held.erase fd }, ?_, ?_⟩
  · rw [hs, hround, hturn]
    show Except.ok (cleanUp _) = _
    unfold cleanUp
    rw [if_neg (by simp [hsuccess])]
  · have hlen := List.length_erase_of_mem hheld
    have hmem := List.length_pos_of_mem hheld
    dsimp only
    omega

/-- What the loop comes back from has been read to its end or was cut short. -/
theorem reply_read (clientId : ℤ) (hfirst : ConnectedFirst conns) {j : ℕ} {reads : List ReadResult}
    (hreads : replyAt conns j = some reads) {response : MessageResponse} {responseNo : ℤ} {p : Polling}
    (hrun : pollLoop conns clientId [fun i => i = j] (startPolling conns response responseNo) = .ok p) :
    ReadToEnd reads ∨ EndsEarly reads := by
  obtain ⟨s, fd, hs, -, -, -, -, hround⟩ := first_round clientId hfirst hreads response responseNo
  rw [hs, hround] at hrun
  cases hget : getResponseFromServer reads s.response with
  | error f =>
    unfold readSlot at hrun
    rw [hget] at hrun
    cases hrun
  | ok r =>
    obtain ⟨ret, got⟩ := r
    rcases getResponseLoop_ret hget with rfl | rfl
    · exact Or.inl ⟨_, _, hget⟩
    · exact Or.inr ⟨_, _, hget⟩

/-- Without the sockets that `connect_to_server` leaves open, the accounting
holds exactly when the connected servers come first and all they send is read to
its end; with them, no server may refuse the connection besides. -/
theorem descriptors_agree_iff (hfresh : FreshFds conns) (response : MessageResponse) (responseNo : ℤ) :
    (DescriptorsAgree conns clientId response responseNo Polling.held ↔
      ConnectedFirst conns ∧ RepliesComplete conns) ∧
    (DescriptorsAgree conns clientId response responseNo (fun p => p.held ++ p.leaked) ↔
      refusedFds conns = [] ∧ ConnectedFirst conns ∧ RepliesComplete conns) := by
  have hstart := started_start conns response responseNo
  have hneeded : DescriptorsAgree conns clientId response responseNo Polling.held →
      ConnectedFirst conns ∧ RepliesComplete conns := by
    intro hagree
    obtain ⟨s, hs, hbalanced, -⟩ := hagree []
    cases hs
    have hfirst : ConnectedFirst conns := hstart.connectedFirst hfresh hbalanced.polled
    refine ⟨hfirst, fun j reads hreads => ?_⟩
    obtain ⟨p, hrun, hp, -⟩ := hagree [fun i => i = j]
    refine (reply_read clientId hfirst hreads hrun).resolve_right fun hearly => ?_
    obtain ⟨p', hrun', hcount⟩ := early_close_unbalances clientId hfirst hreads hearly response responseNo
    rw [hrun] at hrun'
    cases hrun'
    have heq := hp.count
    omega
  refine ⟨⟨hneeded, fun h => descriptorsAgree_of_complete hfresh h.1 h.2 response responseNo⟩, ?_⟩
  constructor
  · intro hagree
    have hnone : refusedFds conns = [] := by
      obtain ⟨s, hs, hbalanced, -⟩ := hagree []
      cases hs
      have hcount := hbalanced.count
      dsimp only at hcount
      rw [hstart.count, hstart.nfds, hstart.held, hstart.leaked, List.length_append] at hcount
      exact List.length_eq_zero_iff.mp (by omega)
    refine ⟨hnone, hneeded fun reports => ?_⟩
    obtain ⟨p, hrun, hbalanced, hrest⟩ := hagree reports
    have hleaked : p.leaked = [] := by rw [(sameEntries_loop hrun).2, hstart.leaked, hnone]
    dsimp only at hbalanced
    rw [hleaked, List.append_nil] at hbalanced
    exact ⟨p, hrun, hbalanced, hrest⟩
  · rintro ⟨hnone, hfirst, hcomplete⟩ reports
    obtain ⟨p, hrun, hbalanced, hrest⟩ :=
      descriptorsAgree_of_complete hfresh hfirst hcomplete response responseNo reports
    have hleaked : p.leaked = [] := by rw [(sameEntries_loop hrun).2, hstart.leaked, hnone]
    refine ⟨p, hrun, ?_, hrest⟩
    dsimp only
    rw [hleaked, List.append_nil]
    exact hbalanced

end

theorem descriptors_agree_iff_silent :
    (DescriptorsAgree [.connected 4 none, .connected 5 none] 9 {} 0 Polling.held ↔
      ConnectedFirst [.connected 4 none, .connected 5 none] ∧
        RepliesComplete [.connected 4 none, .connected 5 none]) ∧
    (DescriptorsAgree [.connected 4 none, .connected 5 none] 9 {} 0 (fun p => p.held ++ p.leaked) ↔
      refusedFds [.connected 4 none, .connected 5 none] = [] ∧
        ConnectedFirst [.connected 4 none, .connected 5 none] ∧
        RepliesComplete [.connected 4 none, .connected 5 none]) :=
  descriptors_agree_iff ⟨by decide, by decide⟩ {} 0

/-- The first of two servers refuses: entry 0, which is polled, is empty, and
the socket of the second server is in entry 1, which is not. -/
theorem refused_server_unbalances :
    FreshFds [.refused 4, .connected 5 none] ∧
      ¬DescriptorsAgree [.refused 4, .connected 5 none] 9 {} 0 Polling.held ∧
      ¬DescriptorsAgree [.refused 4, .connected 5 none] 9 {} 0 (fun p => p.held ++ p.leaked) := by
  refine ⟨⟨by decide, by decide⟩, fun hagree => ?_, fun hagree => ?_⟩
  · obtain ⟨s, hs, hbalanced, -⟩ := hagree []
    cases hs
    obtain ⟨j, hj, hslot⟩ := hbalanced.polled 5 (by decide)
    obtain rfl : j = 0 := Nat.lt_one_iff.mp hj
    exact absurd hslot (by decide)
  · obtain ⟨s, hs, hbalanced, -⟩ := hagree []
    cases hs
    exact absurd hbalanced.count (by decide)

end ToDoList
