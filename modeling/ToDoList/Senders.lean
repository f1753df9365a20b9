import ToDoList.Server

/-!
# The two senders of checkpoints (chkpt.c)

The loop body of `send_checkpoint` and `send_checkpoint_ondemand` take the same
steps and keep their descriptors in the same two entries of `bckup_svr`. Every
write and every close looks the descriptor up again. Each sender has a file of
its own, which `export_db` names by a counter.
-/

namespace ToDoList
open CLib StepRun

inductive Sender where
  | periodic
  | ondemand
deriving Repr, DecidableEq

def Sender.other : Sender → Sender
  | .periodic => .ondemand
  | .ondemand => .periodic

/-- `sizeof(bckup_svr) / sizeof(bsvr_ctx)` -/
abbrev Slot := Fin 2

instance neZeroSlot : NeZero 2 := ⟨by decide⟩

/-- A connection to a backup: who opened it and for which entry, what was
written to it and who has closed it. -/
structure Channel where
  opener : Sender
  slot : Slot
  sent : Bytes := []
  closers : List Sender := []
deriving DecidableEq

/-- Where a sender stands; `rest` is what is still to be read of its file. -/
inductive SenderPc where
  | idle
  | connect (i : Slot)
  | exporting
  | test (i : Slot) (file : Bytes)
  | header (i : Slot) (file : Bytes)
  | body (i : Slot) (file rest : Bytes)
  | close (i : Slot) (file : Bytes)
  | count
deriving DecidableEq

/-- `fds` has the descriptors of the checkpoint connections only; a number that
it does not have is closed or used elsewhere in the process. -/
structure Senders where
  serverId : ℤ
  chkPointNum : UInt64 := 0
  bckupFd : Slot → ℤ
  fds : ℤ → Option ℕ := fun _ => none
  channels : List Channel := []
  pc : Sender → SenderPc := fun _ => .idle

/-- `connected` gives the result of `connect_to_server`, `exported` the file;
`reused` tells whether a number that denotes no checkpoint connection is in use
elsewhere, so that a write to it succeeds. -/
inductive SenderEvent where
  | start (w : Sender)
  | connected (w : Sender) (fd : ℤ)
  | exported (w : Sender) (file : Bytes)
  | next (w : Sender) (reused : Bool)

def chkptHeader (serverId : ℤ) (num : UInt64) (size : ℕ) : Bytes :=
  ascii "Client ID: " ++ decimalInt serverId ++ ascii "\r\n" ++
  ascii "Request No: " ++ decimal num.toNat ++ ascii "\r\n" ++
  ascii "Message Type: 6\r\n" ++
  ascii "Data Length: " ++ decimal size ++ ascii "\r\n\r\n"

def chkptMessage (serverId : ℤ) (num : UInt64) (file : Bytes) : Bytes :=
  chkptHeader serverId num file.length ++ file

def goTo (s : Senders) (w : Sender) (pc : SenderPc) : Senders :=
  { s with pc := Function.update s.pc w pc }

def openPort (s : Senders) (w : Sender) (i : Slot) (fd : ℤ) : Senders :=
  let s := { s with bckupFd := Function.update s.bckupFd i fd }
  if fd < 0 then s
  else { s with
    fds := Function.update s.fds fd (some s.channels.length)
    channels := s.channels ++ [⟨w, i, [], []⟩] }

/-- write(ctx->fd, ..): the state and whether the write succeeds -/
def writePort (s : Senders) (i : Slot) (bytes : Bytes) (reused : Bool) : Senders × Bool :=
  match s.fds (s.bckupFd i) with
  | none => (s, reused)
  | some c => ({ s with
      channels := s.channels.modify c fun k => { k with sent := k.sent ++ bytes } }, true)

def closePort (s : Senders) (w : Sender) (i : Slot) : Senders :=
  match s.fds (s.bckupFd i) with
  | none => s
  | some c => { s with
      fds := Function.update s.fds (s.bckupFd i) none
      channels := s.channels.modify c fun k => { k with closers := k.closers ++ [w] } }

def nextSlot (i : Slot) (file : Bytes) : SenderPc := if i = 0 then .test 1 file else .count

/-- One step of a sender between the connections and the end of the loop.
`write_check_point` stops at a write that fails and the entry is closed. -/
def advance (s : Senders) (w : Sender) (reused : Bool) : Option Senders :=
  match s.pc w with
  | .test i file => some (goTo s w (if 0 ≤ s.bckupFd i then .header i file else nextSlot i file))
  | .header i file =>
    let r := writePort s i (chkptHeader s.serverId s.chkPointNum file.length) reused
    some (goTo r.1 w (if r.2 then .body i file file else .close i file))
  | .body i file [] => some (goTo s w (.close i file))
  | .body i file (b :: rest) =>
    let r := writePort s i ((b :: rest).take maxLength) reused
    some (goTo r.1 w (if r.2 then .body i file ((b :: rest).drop maxLength) else .close i file))
  | .close i file => some (goTo (closePort s w i) w (nextSlot i file))
  | .count => some (goTo { s with chkPointNum := s.chkPointNum + 1 } w .idle)
  | _ => none

def senderStep (s : Senders) : SenderEvent → Option Senders
  | .start w => if s.pc w = .idle then some (goTo s w (.connect 0)) else none
  | .connected w fd =>
    match s.pc w with
    | .connect i =>
      if fd = -1 ∨ (0 ≤ fd ∧ s.fds fd = none) then
        some (goTo (openPort s w i fd) w (if i = 0 then .connect 1 else .exporting))
      else none
    | _ => none
  | .exported w file => if s.pc w = .exporting then some (goTo s w (.test 0 file)) else none
  | .next w reused => advance s w reused

/-! ### What a connection should look like -/

/-- One whole message, closed once by the sender that opened the connection. -/
def Complete (serverId : ℤ) (k : Channel) : Prop :=
  (∃ num file, k.sent = chkptMessage serverId num file) ∧ k.closers = [k.opener]

/-- Still being written by the sender that opened it. -/
def InProgress (s : Senders) (k : Channel) : Prop :=
  s.pc k.opener ≠ .idle ∧ k.closers = [] ∧ ∃ num file, k.sent <+: chkptMessage s.serverId num file

/-! ### The connections of one sender -/

/-- `pending i` is what has been written to the open connection of entry `i`. -/
structure Holding (s : Senders) (w : Sender) (pending : Slot → Option Bytes) : Prop where
  slot : ∀ i bytes, pending i = some bytes → 0 ≤ s.bckupFd i ∧
    ∃ c, s.fds (s.bckupFd i) = some c ∧ s.channels[c]? = some ⟨w, i, bytes, []⟩
  fds : ∀ fd c, s.fds fd = some c → ∃ i, pending i ≠ none ∧ fd = s.bckupFd i
  channels : ∀ c k, s.channels[c]? = some k → Complete s.serverId k ∨
    ∃ i, pending i ≠ none ∧ s.fds (s.bckupFd i) = some c

theorem Holding.goTo {s : Senders} {w v : Sender} {pending : Slot → Option Bytes} {pc : SenderPc}
    (h : Holding s w pending) : Holding (goTo s v pc) w pending := ⟨h.slot, h.fds, h.channels⟩

/-- Two entries never share a connection. -/
theorem Holding.distinct {s : Senders} {w : Sender} {pending : Slot → Option Bytes}
    (h : Holding s w pending) {i j : Slot} {c : ℕ} (hi : pending i ≠ none) (hj : pending j ≠ none)
    (hci : s.fds (s.bckupFd i) = some c) (hcj : s.fds (s.bckupFd j) = some c) : i = j := by
  obtain ⟨bi, hbi⟩ := Option.ne_none_iff_exists'.mp hi
  obtain ⟨bj, hbj⟩ := Option.ne_none_iff_exists'.mp hj
  obtain ⟨-, ci, hfi, hki⟩ := h.slot i bi hbi
  obtain ⟨-, cj, hfj, hkj⟩ := h.slot j bj hbj
  rw [hci] at hfi
  rw [hcj] at hfj
  cases hfi
  cases hfj
  rw [hki] at hkj
  exact congrArg Channel.slot (Option.some.inj hkj)

theorem Holding.fail {s : Senders} {w : Sender} {pending : Slot → Option Bytes}
    (h : Holding s w pending) {i : Slot} (hi : pending i = none) {fd : ℤ} (hfd : fd < 0) :
    Holding (openPort s w i fd) w pending := by
  have hother : ∀ j, pending j ≠ none → Function.update s.bckupFd i fd j = s.bckupFd j := by
    intro j hj
    refine Function.update_of_ne ?_ _ _
    rintro rfl
    exact hj hi
  unfold openPort
  rw [if_pos hfd]
  refine ⟨?_, ?_, ?_⟩
  · intro j bytes hj
    dsimp only
    rw [hother j (by simp [hj])]
    exact h.slot j bytes hj
  · intro fd' c hc
    obtain ⟨j, hj, rfl⟩ := h.fds fd' c hc
    exact ⟨j, hj, (hother j hj).symm⟩
  · intro c k hk
    rcases h.channels c k hk with hc | ⟨j, hj, hc⟩
    · exact .inl hc
    · refine .inr ⟨j, hj, ?_⟩
      dsimp only
      rw [hother j hj]
      exact hc

theorem Holding.accept {s : Senders} {w : Sender} {pending : Slot → Option Bytes}
    (h : Holding s w pending) {i : Slot} (hi : pending i = none) {fd : ℤ} (hfd : 0 ≤ fd)
    (hfree : s.fds fd = none) :
    Holding (openPort s w i fd) w (Function.update pending i (some [])) := by
  have hne : ∀ j, pending j ≠ none → j ≠ i := by
    rintro j hj rfl
    exact hj hi
  have hpend : ∀ j, pending j ≠ none → Function.update pending i (some []) j ≠ none := by
    intro j hj
    rw [Function.update_of_ne (hne j hj)]
    exact hj
  have hport : ∀ j, pending j ≠ none → Function.update s.bckupFd i fd j = s.bckupFd j :=
    fun j hj => Function.update_of_ne (hne j hj) _ _
  have hold : ∀ j c, pending j ≠ none → s.fds (s.bckupFd j) = some c →
      Function.update s.fds fd (some s.channels.length) (s.bckupFd j) = some c := by
    intro j c hj hc
    rw [Function.update_of_ne, hc]
    intro hsame
    rw [hsame, hfree] at hc
    cases hc
  unfold openPort
  rw [if_neg (by omega)]
  refine ⟨?_, ?_, ?_⟩
  · intro j bytes hj
    dsimp only
    by_cases hji : j = i
    · subst hji
      rw [Function.update_self] at hj
      cases hj
      rw [Function.update_self, Function.update_self]
      exact ⟨hfd, _, rfl, List.getElem?_concat_length⟩
    · rw [Function.update_of_ne hji] at hj
      have hjn : pending j ≠ none := by simp [hj]
      obtain ⟨hpos, c, hc, hk⟩ := h.slot j bytes hj
      rw [hport j hjn]
      refine ⟨hpos, c, hold j c hjn hc, ?_⟩
      rw [List.getElem?_append_left (List.getElem?_eq_some_iff.mp hk).1]
      exact hk
  · intro fd' c hc
    dsimp only at hc ⊢
    by_cases hsame : fd' = fd
    · refine ⟨i, by simp, ?_⟩
      rw [Function.update_self]
      exact hsame
    · rw [Function.update_of_ne hsame] at hc
      obtain ⟨j, hj, rfl⟩ := h.fds fd' c hc
      exact ⟨j, hpend j hj, (hport j hj).symm⟩
  · intro c k hk
    dsimp only at hk ⊢
    rcases Nat.lt_or_ge c s.channels.length with hlt | hge
    · rw [List.getElem?_append_left hlt] at hk
      rcases h.channels c k hk with hc | ⟨j, hj, hc⟩
      · exact .inl hc
      · refine .inr ⟨j, hpend j hj, ?_⟩
        rw [hport j hj]
        exact hold j c hj hc
    · have hlen := (List.getElem?_eq_some_iff.mp hk).1
      have hc : c = s.channels.length := by
        rw [List.length_append, List.length_singleton] at hlen
        omega
      refine .inr ⟨i, by simp, ?_⟩
      rw [Function.update_self, Function.update_self, hc]

theorem Holding.write {s : Senders} {w : Sender} {pending : Slot → Option Bytes}
    (h : Holding s w pending) {i : Slot} {bytes : Bytes} (hi : pending i = some bytes) (new : Bytes)
    (reused : Bool) :
    (writePort s i new reused).2 = true ∧
      Holding (writePort s i new reused).1 w (Function.update pending i (some (bytes ++ new))) := by
  obtain ⟨hpos, c, hc, hk⟩ := h.slot i bytes hi
  have hpend : ∀ j, Function.update pending i (some (bytes ++ new)) j ≠ none ↔ pending j ≠ none := by
    intro j
    by_cases hji : j = i
    · subst hji
      simp [hi]
    · rw [Function.update_of_ne hji]
  unfold writePort
  rw [hc]
  refine ⟨rfl, ?_, ?_, ?_⟩
  · intro j bytes' hj
    dsimp only
    by_cases hji : j = i
    · subst hji
      rw [Function.update_self] at hj
      cases hj
      refine ⟨hpos, c, hc, ?_⟩
      rw [List.getElem?_modify_eq, hk]
      rfl
    · rw [Function.update_of_ne hji] at hj
      obtain ⟨hpos', c', hc', hk'⟩ := h.slot j bytes' hj
      refine ⟨hpos', c', hc', ?_⟩
      rw [List.getElem?_modify_ne]
      · exact hk'
      · rintro rfl
        exact hji (h.distinct (by simp [hj]) (by simp [hi]) hc' hc)
  · intro fd c' hc'
    obtain ⟨j, hj, rfl⟩ := h.fds fd c' hc'
    exact ⟨j, (hpend j).mpr hj, rfl⟩
  · intro c' k hk'
    dsimp only at hk' ⊢
    by_cases hcc : c = c'
    · subst hcc
      exact .inr ⟨i, by simp, hc⟩
    · rw [List.getElem?_modify_ne _ _ hcc] at hk'
      rcases h.channels c' k hk' with hdone | ⟨j, hj, hfd⟩
      · exact .inl hdone
      · exact .inr ⟨j, (hpend j).mpr hj, hfd⟩

theorem Holding.close {s : Senders} {w : Sender} {pending : Slot → Option Bytes}
    (h : Holding s w pending) {i : Slot} {num : UInt64} {file : Bytes}
    (hi : pending i = some (chkptMessage s.serverId num file)) :
    Holding (closePort s w i) w (Function.update pending i none) := by
  obtain ⟨-, c, hc, hk⟩ := h.slot i _ hi
  have hpend : ∀ j, pending j ≠ none → j ≠ i → Function.update pending i none j ≠ none := by
    intro j hj hji
    rw [Function.update_of_ne hji]
    exact hj
  -- the descriptor of the other entry is another one
  have hkept : ∀ j c', pending j ≠ none → j ≠ i → s.fds (s.bckupFd j) = some c' →
      Function.update s.fds (s.bckupFd i) none (s.bckupFd j) = some c' := by
    intro j c' hj hji hc'
    rw [Function.update_of_ne, hc']
    intro hsame
    rw [hsame] at hc'
    rw [hc] at hc'
    cases hc'
    exact hji (h.distinct hj (by simp [hi]) (hsame ▸ hc) hc)
  unfold closePort
  rw [hc]
  refine ⟨?_, ?_, ?_⟩
  · intro j bytes' hj
    dsimp only
    by_cases hji : j = i
    · subst hji
      rw [Function.update_self] at hj
      cases hj
    · rw [Function.update_of_ne hji] at hj
      have hjn : pending j ≠ none := by simp [hj]
      obtain ⟨hpos', c', hc', hk'⟩ := h.slot j bytes' hj
      refine ⟨hpos', c', hkept j c' hjn hji hc', ?_⟩
      rw [List.getElem?_modify_ne]
      · exact hk'
      · rintro rfl
        exact hji (h.distinct hjn (by simp [hi]) hc' hc)
  · intro fd c' hc'
    dsimp only at hc' ⊢
    by_cases hfd : fd = s.bckupFd i
    · rw [hfd, Function.update_self] at hc'
      cases hc'
    · rw [Function.update_of_ne hfd] at hc'
      obtain ⟨j, hj, rfl⟩ := h.fds fd c' hc'
      exact ⟨j, hpend j hj (fun hji => hfd (hji ▸ rfl)), rfl⟩
  · intro c' k hk'
    dsimp only at hk' ⊢
    by_cases hcc : c = c'
    · subst hcc
      rw [List.getElem?_modify_eq, hk] at hk'
      cases hk'
      exact .inl ⟨⟨num, file, rfl⟩, rfl⟩
    · rw [List.getElem?_modify_ne _ _ hcc] at hk'
      rcases h.channels c' k hk' with hdone | ⟨j, hj, hfd⟩
      · exact .inl hdone
      · have hji : j ≠ i := by
          rintro rfl
          rw [hc] at hfd
          exact hcc (Option.some.inj hfd)
        exact .inr ⟨j, hpend j hj hji, hkept j c' hj hji hfd⟩

/-! ### What each step finds -/

/-- An entry whose turn has not come: connected, or without a connection. -/
def Untouched (s : Senders) (i : Slot) (p : Option Bytes) : Prop :=
  p = some [] ∨ (p = none ∧ s.bckupFd i < 0)

/-- Behind the entry in turn nothing is open, ahead of it nothing is written. -/
def Around (s : Senders) (i j : Slot) (p : Option Bytes) (now : Prop) : Prop :=
  (i < j → p = none) ∧ (i = j → now) ∧ (j < i → Untouched s i p)

def SlotAt (s : Senders) (i : Slot) (p : Option Bytes) : SenderPc → Prop
  | .idle | .count => p = none
  | .connect j => (i < j → Untouched s i p) ∧ (j ≤ i → p = none)
  | .exporting => Untouched s i p
  | .test j _ => Around s i j p (Untouched s i p)
  | .header j _ => Around s i j p (p = some [])
  | .body j file rest => Around s i j p (∃ num written, written ++ rest = file ∧
      p = some (chkptHeader s.serverId num file.length ++ written))
  | .close j file => Around s i j p (∃ num, p = some (chkptMessage s.serverId num file))

/-- At most one sender is at work, and its connections are where they should be. -/
def OneAtWork (s : Senders) : Prop :=
  ∃ w pending, s.pc w.other = .idle ∧ Holding s w pending ∧ ∀ i, SlotAt s i (pending i) (s.pc w)

theorem other_ne (w : Sender) : w.other ≠ w := by
  cases w <;> simp [Sender.other]

theorem oneAtWork_goTo {s : Senders} {w : Sender} {pending : Slot → Option Bytes} {pc : SenderPc}
    (hidle : s.pc w.other = .idle) (hhold : Holding s w pending)
    (hslot : ∀ i, SlotAt s i (pending i) pc) : OneAtWork (goTo s w pc) := by
  refine ⟨w, pending, ?_, hhold.goTo, ?_⟩
  · rw [← hidle]
    exact Function.update_of_ne (other_ne w) ..
  · intro i
    rw [show (goTo s w pc).pc w = pc from Function.update_self ..]
    exact hslot i

theorem slotAt_nextSlot {s : Senders} {pending : Slot → Option Bytes} {i : Slot} {file : Bytes}
    (hlt : ∀ j, j < i → pending j = none) (hi : pending i = none)
    (hgt : ∀ j, i < j → Untouched s j (pending j)) (j : Slot) :
    SlotAt s j (pending j) (nextSlot i file) := by
  fin_cases i
  · show SlotAt s j (pending j) (.test 1 file)
    fin_cases j
    · exact ⟨fun _ => hi, fun hj => absurd hj (by decide), fun hj => absurd hj (by decide)⟩
    · exact ⟨fun hj => absurd hj (by decide), fun _ => hgt 1 (by decide),
        fun hj => absurd hj (by decide)⟩
  · show pending j = none
    fin_cases j
    · exact hlt 0 (by decide)
    · exact hi

theorem writePort_frame (s : Senders) (i : Slot) (bytes : Bytes) (reused : Bool) :
    (writePort s i bytes reused).1.bckupFd = s.bckupFd ∧ (writePort s i bytes reused).1.pc = s.pc ∧
      (writePort s i bytes reused).1.serverId = s.serverId := by
  unfold writePort
  split <;> exact ⟨rfl, rfl, rfl⟩

theorem closePort_frame (s : Senders) (w : Sender) (i : Slot) :
    (closePort s w i).bckupFd = s.bckupFd ∧ (closePort s w i).pc = s.pc ∧
      (closePort s w i).serverId = s.serverId := by
  unfold closePort
  split <;> exact ⟨rfl, rfl, rfl⟩

theorem Untouched.frame {s t : Senders} {i : Slot} {p : Option Bytes} (h : Untouched s i p)
    (hfd : t.bckupFd = s.bckupFd) : Untouched t i p := by
  rw [Untouched, hfd]
  exact h

/-- A write to the entry in turn. -/
theorem oneAtWork_write {s : Senders} {w : Sender} {pending : Slot → Option Bytes} {i : Slot}
    {bytes : Bytes} (hidle : s.pc w.other = .idle) (hhold : Holding s w pending)
    (hi : pending i = some bytes) (hlt : ∀ j, j < i → pending j = none)
    (hgt : ∀ j, i < j → Untouched s j (pending j)) (new : Bytes) (reused : Bool)
    {file rest : Bytes} (num : UInt64) (written : Bytes) (hrest : written ++ rest = file)
    (hnew : bytes ++ new = chkptHeader s.serverId num file.length ++ written) (pc : SenderPc) :
    OneAtWork (goTo (writePort s i new reused).1 w
      (if (writePort s i new reused).2 then .body i file rest else pc)) := by
  obtain ⟨hok, hheld⟩ := hhold.write hi new reused
  obtain ⟨hfd, hpc, hid⟩ := writePort_frame s i new reused
  rw [if_pos hok]
  refine oneAtWork_goTo (by rw [hpc]; exact hidle) hheld ?_
  intro j
  by_cases hji : j = i
  · subst hji
    rw [Function.update_self]
    refine ⟨fun hj => absurd hj (lt_irrefl _), fun _ => ⟨num, written, hrest, ?_⟩,
      fun hj => absurd hj (lt_irrefl _)⟩
    rw [hid, hnew]
  · rw [Function.update_of_ne hji]
    exact ⟨hlt j, fun hj => absurd hj hji, fun hj => (hgt j hj).frame hfd⟩

theorem advance_oneAtWork {s s' : Senders} {w : Sender} {pending : Slot → Option Bytes} {reused : Bool}
    (hidle : s.pc w.other = .idle) (hhold : Holding s w pending)
    (hslot : ∀ i, SlotAt s i (pending i) (s.pc w)) (hstep : advance s w reused = some s') :
    OneAtWork s' := by
  unfold advance at hstep
  cases hpc : s.pc w with
  | idle | connect i | exporting =>
    rw [hpc] at hstep
    cases hstep
  | test i file =>
    rw [hpc] at hstep hslot
    cases hstep
    refine oneAtWork_goTo hidle hhold ?_
    by_cases hfd : 0 ≤ s.bckupFd i
    · rw [if_pos hfd]
      intro j
      refine ⟨(hslot j).1, fun hj => ?_, (hslot j).2.2⟩
      subst hj
      rcases (hslot j).2.1 rfl with hp | ⟨-, hneg⟩
      · exact hp
      · omega
    · rw [if_neg hfd]
      refine slotAt_nextSlot (fun j hj => (hslot j).1 hj) ?_ fun j hj => (hslot j).2.2 hj
      rcases (hslot i).2.1 rfl with hp | ⟨hp, -⟩
      · exact absurd (hhold.slot i [] hp).1 hfd
      · exact hp
  | header i file =>
    rw [hpc] at hstep hslot
    cases hstep
    have hi : pending i = some [] := (hslot i).2.1 rfl
    exact oneAtWork_write hidle hhold hi (fun j hj => (hslot j).1 hj) (fun j hj => (hslot j).2.2 hj) _ _ _ []
      (List.nil_append file) (by rw [List.append_nil]; rfl) _
  | body i file rest =>
    rw [hpc] at hstep hslot
    obtain ⟨num, written, hfile, hi⟩ := (hslot i).2.1 rfl
    cases rest with
    | nil =>
      cases hstep
      refine oneAtWork_goTo hidle hhold fun j => ⟨(hslot j).1, fun hj => ?_, (hslot j).2.2⟩
      subst hj
      rw [List.append_nil] at hfile
      rw [hi, hfile]
      exact ⟨num, rfl⟩
    | cons b rest =>
      cases hstep
      refine oneAtWork_write hidle hhold hi (fun j hj => (hslot j).1 hj) (fun j hj => (hslot j).2.2 hj) _ _
        num (written ++ (b :: rest).take maxLength) ?_ ?_ _
      · rw [List.append_assoc, List.take_append_drop]
        exact hfile
      · rw [List.append_assoc]
  | close i file =>
    rw [hpc] at hstep hslot
    cases hstep
    obtain ⟨num, hi⟩ := (hslot i).2.1 rfl
    obtain ⟨hfd, hpcs, hid⟩ := closePort_frame s w i
    refine oneAtWork_goTo (by rw [hpcs]; exact hidle) (hhold.close hi) ?_
    refine slotAt_nextSlot ?_ (Function.update_self ..) ?_
    · intro j hj
      rw [Function.update_of_ne (ne_of_lt hj)]
      exact (hslot j).1 hj
    · intro j hj
      rw [Function.update_of_ne (ne_of_gt hj)]
      exact ((hslot j).2.2 hj).frame hfd
  | count =>
    rw [hpc] at hstep hslot
    cases hstep
    have hheld : Holding { s with chkPointNum := s.chkPointNum + 1 } w pending :=
      ⟨hhold.slot, hhold.fds, hhold.channels⟩
    exact oneAtWork_goTo hidle hheld hslot

theorem slotAt_connected {s : Senders} {pending : Slot → Option Bytes} {i : Slot}
    (hle : ∀ j, j ≤ i → Untouched s j (pending j)) (hgt : ∀ j, i < j → pending j = none) (j : Slot) :
    SlotAt s j (pending j) (if i = 0 then .connect 1 else .exporting) := by
  fin_cases i
  · show SlotAt s j (pending j) (.connect 1)
    fin_cases j
    · exact ⟨fun _ => hle 0 (by decide), fun hj => absurd hj (by decide)⟩
    · exact ⟨fun hj => absurd hj (by decide), fun _ => hgt 1 (by decide)⟩
  · show Untouched s j (pending j)
    fin_cases j
    · exact hle 0 (by decide)
    · exact hle 1 (by decide)

theorem openPort_frame (s : Senders) (w : Sender) (i : Slot) (fd : ℤ) :
    (openPort s w i fd).bckupFd = Function.update s.bckupFd i fd ∧ (openPort s w i fd).pc = s.pc := by
  unfold openPort
  dsimp only
  split <;> exact ⟨rfl, rfl⟩

theorem connected_oneAtWork {s : Senders} {w : Sender} {pending : Slot → Option Bytes} {i : Slot} {fd : ℤ}
    (hidle : s.pc w.other = .idle) (hhold : Holding s w pending)
    (hslot : ∀ j, SlotAt s j (pending j) (.connect i)) (hfd : fd = -1 ∨ (0 ≤ fd ∧ s.fds fd = none)) :
    OneAtWork (goTo (openPort s w i fd) w (if i = 0 then .connect 1 else .exporting)) := by
  obtain ⟨hport, hpc⟩ := openPort_frame s w i fd
  have hidle' : (openPort s w i fd).pc w.other = .idle := by
    rw [hpc]
    exact hidle
  have hi : pending i = none := (hslot i).2 (le_refl i)
  have hbefore : ∀ j, j < i → Untouched (openPort s w i fd) j (pending j) := by
    intro j hj
    rw [Untouched, hport, Function.update_of_ne (ne_of_lt hj)]
    exact (hslot j).1 hj
  rcases hfd with rfl | ⟨hpos, hfree⟩
  · refine oneAtWork_goTo hidle' (hhold.fail hi (by decide)) (slotAt_connected ?_ ?_)
    · intro j hj
      rcases lt_or_eq_of_le hj with hlt | rfl
      · exact hbefore j hlt
      · refine .inr ⟨hi, ?_⟩
        rw [hport, Function.update_self]
        decide
    · exact fun j hj => (hslot j).2 (le_of_lt hj)
  · refine oneAtWork_goTo hidle' (hhold.accept hi hpos hfree) (slotAt_connected ?_ ?_)
    · intro j hj
      rcases lt_or_eq_of_le hj with hlt | rfl
      · rw [Function.update_of_ne (ne_of_lt hlt)]
        exact hbefore j hlt
      · rw [Function.update_self]
        exact .inl rfl
    · intro j hj
      rw [Function.update_of_ne (ne_of_gt hj)]
      exact (hslot j).2 (le_of_lt hj)

/-! ### Runs -/

/-- A sender begins only while the other one is not at work. -/
def Alone (s : Senders) : SenderEvent → Prop
  | .start w => s.pc w.other = .idle
  | _ => True

theorem sender_cases (v w : Sender) : v = w ∨ v = w.other := by
  cases v <;> cases w <;> simp [Sender.other]

theorem senderStep_oneAtWork {s s' : Senders} {e : SenderEvent} (h : OneAtWork s) (halone : Alone s e)
    (hstep : senderStep s e = some s') : OneAtWork s' := by
  obtain ⟨w, pending, hidle, hhold, hslot⟩ := h
  cases e with
  | start v =>
    rw [senderStep] at hstep
    split at hstep
    · rename_i hv
      cases hstep
      -- both senders rest, so nothing is open
      have hrest : s.pc w = .idle := by
        rcases sender_cases v w with rfl | rfl
        · exact hv
        · have hback : w.other.other = w := by cases w <;> rfl
          exact hback ▸ halone
      have hnone : ∀ i, pending i = none := by
        intro i
        have hi := hslot i
        rw [hrest] at hi
        exact hi
      have hheld : Holding s v pending := by
        refine ⟨fun i bytes hi => ?_, hhold.fds, hhold.channels⟩
        rw [hnone i] at hi
        cases hi
      refine oneAtWork_goTo halone hheld fun i => ⟨fun hi => ?_, fun _ => hnone i⟩
      exact absurd hi (Fin.not_lt_zero i)
    · cases hstep
  | connected v fd =>
    rw [senderStep] at hstep
    split at hstep
    · rename_i i hv
      split at hstep
      · rename_i hfd
        cases hstep
        rcases sender_cases v w with rfl | rfl
        · rw [hv] at hslot
          exact connected_oneAtWork hidle hhold hslot hfd
        · rw [hidle] at hv
          cases hv
      · cases hstep
    · cases hstep
  | exported v file =>
    rw [senderStep] at hstep
    split at hstep
    · rename_i hv
      cases hstep
      rcases sender_cases v w with rfl | rfl
      · rw [hv] at hslot
        refine oneAtWork_goTo hidle hhold fun i => ⟨fun hi => ?_, fun _ => hslot i, fun _ => hslot i⟩
        exact absurd hi (Fin.not_lt_zero i)
      · rw [hidle] at hv
        cases hv
    · cases hstep
  | next v reused =>
    rcases sender_cases v w with rfl | rfl
    · exact advance_oneAtWork hidle hhold hslot hstep
    · rw [senderStep, advance, hidle] at hstep
      cases hstep

theorem slotAt_inProgress {s : Senders} {i : Slot} {bytes : Bytes} {pc : SenderPc}
    (h : SlotAt s i (some bytes) pc) :
    pc ≠ .idle ∧ ∃ num file, bytes <+: chkptMessage s.serverId num file := by
  have hempty : Untouched s i (some bytes) → ∃ num file, bytes <+: chkptMessage s.serverId num file := by
    rintro (hb | ⟨hb, -⟩)
    · cases hb
      exact ⟨0, [], List.nil_prefix⟩
    · cases hb
  have haround : ∀ {j : Slot} {now : Prop}, Around s i j (some bytes) now →
      (now → ∃ num file, bytes <+: chkptMessage s.serverId num file) →
      ∃ num file, bytes <+: chkptMessage s.serverId num file := by
    intro j now ha hnow
    rcases lt_trichotomy i j with hij | hij | hij
    · cases ha.1 hij
    · exact hnow (ha.2.1 hij)
    · exact hempty (ha.2.2 hij)
  cases pc with
  | idle | count => cases h
  | connect j =>
    refine ⟨by simp, ?_⟩
    rcases lt_or_ge i j with hij | hij
    · exact hempty (h.1 hij)
    · cases h.2 hij
  | exporting => exact ⟨by simp, hempty h⟩
  | test j file => exact ⟨by simp, haround h hempty⟩
  | header j file =>
    refine ⟨by simp, haround h fun hb => ?_⟩
    cases hb
    exact ⟨0, [], List.nil_prefix⟩
  | body j file rest =>
    refine ⟨by simp, haround h ?_⟩
    rintro ⟨num, written, hfile, hb⟩
    refine ⟨num, file, ?_⟩
    rw [Option.some.inj hb, chkptMessage, ← hfile]
    exact List.prefix_append_right_inj _ |>.mpr (List.prefix_append ..)
  | close j file =>
    refine ⟨by simp, haround h ?_⟩
    rintro ⟨num, hb⟩
    refine ⟨num, file, ?_⟩
    rw [Option.some.inj hb]

def restingSenders (serverId : ℤ) (num : UInt64) (bckupFd : Slot → ℤ) : Senders :=
  { serverId := serverId, chkPointNum := num, bckupFd := bckupFd }

/-- Every connection carries one message and is closed once by its opener, if
no sender begins while the other is at work. -/
theorem senders_do_not_mix (serverId : ℤ) (num : UInt64) (bckupFd : Slot → ℤ) (es : List SenderEvent)
    (s : Senders) (halone : AllSteps senderStep Alone (restingSenders serverId num bckupFd) es)
    (hrun : run senderStep (restingSenders serverId num bckupFd) es = some s) :
    ∀ k ∈ s.channels, InProgress s k ∨ Complete s.serverId k := by
  have hstart : OneAtWork (restingSenders serverId num bckupFd) := by
    refine ⟨.periodic, fun _ => none, rfl, ⟨?_, ?_, ?_⟩, fun _ => rfl⟩
    · intro i bytes hi
      cases hi
    · intro fd c hc
      cases hc
    · intro c k hk
      cases hk
  obtain ⟨w, pending, -, hhold, hslot⟩ := run_invariant
    (fun _ _ _ h ha hs => senderStep_oneAtWork h ha hs) hstart halone hrun
  intro k hk
  obtain ⟨c, hc⟩ := List.mem_iff_getElem?.mp hk
  rcases hhold.channels c k hc with hdone | ⟨i, hi, hfd⟩
  · exact .inr hdone
  · obtain ⟨bytes, hb⟩ := Option.ne_none_iff_exists'.mp hi
    obtain ⟨-, c', hfd', hk'⟩ := hhold.slot i bytes hb
    rw [hfd] at hfd'
    cases hfd'
    rw [hc] at hk'
    cases hk'
    have hat := hslot i
    rw [hb] at hat
    obtain ⟨hwork, hprefix⟩ := slotAt_inProgress hat
    exact .inl ⟨hwork, rfl, hprefix⟩

instance decidableAlone (s : Senders) : ∀ e, Decidable (Alone s e)
  | .start w => inferInstanceAs (Decidable (s.pc w.other = .idle))
  | .connected .. => isTrue trivial
  | .exported .. => isTrue trivial
  | .next .. => isTrue trivial

def connects (w : Sender) (fd : ℤ) : List SenderEvent :=
  [.start w, .connected w fd, .connected w (fd + 1)]

def sends (w : Sender) (n : ℕ) : List SenderEvent :=
  .exported w (ascii "FILE_END\n") :: List.replicate n (.next w false)

theorem senders_do_not_mix_inTurn :
    ∃ s, run senderStep (restingSenders 1 0 fun _ => 0)
        (connects .periodic 4 ++ sends .periodic 11 ++ (connects .ondemand 4 ++ sends .ondemand 11)) = some s ∧
      s.channels.length = 4 ∧ ∀ k ∈ s.channels, Complete s.serverId k := by
  have hend : (run senderStep (restingSenders 1 0 fun _ => 0)
      (connects .periodic 4 ++ sends .periodic 11 ++ (connects .ondemand 4 ++ sends .ondemand 11))).any
        (fun s => s.channels.length = 4 ∧ s.pc .periodic = .idle ∧ s.pc .ondemand = .idle) = true := by
    decide +kernel
  obtain ⟨s, hrun, hs⟩ := (Option.any_eq_true _ _).mp hend
  obtain ⟨hlen, hperiodic, hondemand⟩ := of_decide_eq_true hs
  refine ⟨s, hrun, hlen, fun k hk => ?_⟩
  refine (senders_do_not_mix 1 0 _ _ s (by decide +kernel) hrun k hk).resolve_left ?_
  rintro ⟨hwork, -⟩
  cases hk' : k.opener with
  | periodic => exact hwork (hk' ▸ hperiodic)
  | ondemand => exact hwork (hk' ▸ hondemand)

/-- The second pair of connections takes the place of the first in `bckup_svr`:
the periodic sender writes to and closes those of the other. -/
theorem senders_mix :
    ∃ s, run senderStep (restingSenders 1 0 fun _ => 0)
        (connects .periodic 4 ++ connects .ondemand 6 ++ sends .periodic 11) = some s ∧
      ∃ k ∈ s.channels, k.opener = .ondemand ∧ k.closers = [.periodic] ∧
        ¬(InProgress s k ∨ Complete s.serverId k) := by
  have hend : (run senderStep (restingSenders 1 0 fun _ => 0)
      (connects .periodic 4 ++ connects .ondemand 6 ++ sends .periodic 11)).any
        (fun s => ∃ k ∈ s.channels, k.opener = .ondemand ∧ k.closers = [.periodic]) = true := by
    decide +kernel
  obtain ⟨s, hrun, hs⟩ := (Option.any_eq_true _ _).mp hend
  obtain ⟨k, hk, hopener, hclosers⟩ := of_decide_eq_true hs
  refine ⟨s, hrun, k, hk, hopener, hclosers, ?_⟩
  rintro (⟨-, hopen, -⟩ | ⟨-, hclosed⟩)
  · rw [hclosers] at hopen
    cases hopen
  · rw [hclosers, hopener] at hclosed
    cases hclosed

end ToDoList
