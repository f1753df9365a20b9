import ToDoList.Socket
import ToDoList.CLib.Reader

/-!
# A read that fails (util.c)

`sock_read` stores the `-1` of a failed refill in `bytes_pend`, which is
unsigned: the test `bytes_pend < 0` is never true, and the count of the bytes
that may be read is `2 ^ 64 - 1`.
-/

namespace ToDoList
open CLib

/-! ### Refills that fail -/

/-- An error comes before `n` bytes have come, and before an end of the stream. -/
def ErrorWithin (reads : List ReadResult) (n : ℕ) : Prop :=
  ∃ before after, reads = before ++ .error :: after ∧ Clean before ∧ (content before).length < n

theorem errorWithin_error (reads : List ReadResult) (n : ℕ) : ErrorWithin (.error :: reads) n ↔ 0 < n := by
  constructor
  · rintro ⟨before, after, -, -, hlen⟩
    exact Nat.zero_lt_of_lt hlen
  · intro hn
    exact ⟨[], reads, rfl, by simp [Clean], hn⟩

theorem not_errorWithin_end (reads : List ReadResult) (n : ℕ) : ¬ErrorWithin (.data [] :: reads) n := by
  rintro ⟨before, after, hsplit, hclean, -⟩
  cases before with
  | nil => cases hsplit
  | cons r before =>
    obtain ⟨rfl, -⟩ := List.cons_eq_cons.mp hsplit
    exact (hclean _ (List.mem_cons_self ..)).2 rfl

theorem errorWithin_cons {r : ReadResult} (hr : r ≠ .error ∧ r ≠ .data []) (reads : List ReadResult) (n : ℕ) :
    ErrorWithin (r :: reads) n ↔ ErrorWithin reads (n - (content [r]).length) := by
  have hcontent : ∀ before, content (r :: before) = content [r] ++ content before := fun before => by
    simp [content]
  constructor
  · rintro ⟨before, after, hsplit, hclean, hlen⟩
    cases before with
    | nil => exact absurd (List.cons_eq_cons.mp hsplit).1 hr.1
    | cons r' before =>
      obtain ⟨rfl, hrest⟩ := List.cons_eq_cons.mp hsplit
      rw [hcontent, List.length_append] at hlen
      exact ⟨before, after, hrest, fun x hx => hclean x (List.mem_cons_of_mem _ hx), by omega⟩
  · rintro ⟨before, after, rfl, hclean, hlen⟩
    refine ⟨r :: before, after, rfl, fun x hx => ?_, ?_⟩
    · rcases List.mem_cons.mp hx with rfl | hx
      · exact hr
      · exact hclean x hx
    · rw [hcontent, List.length_append]
      omega

theorem not_errorWithin_zero (reads : List ReadResult) : ¬ErrorWithin reads 0 := by
  rintro ⟨before, after, -, -, hlen⟩
  exact Nat.not_lt_zero _ hlen

theorem sockReadn_failed_iff (reads : List ReadResult) (n : ℕ) :
    (sockReadn reads n).ok = false ↔ ErrorWithin reads n := by
  induction reads generalizing n with
  | nil =>
    refine iff_of_false (by simp [sockReadn]) ?_
    rintro ⟨before, after, hsplit, -⟩
    cases before <;> cases hsplit
  | cons r reads ih =>
    rw [sockReadn.eq_def]
    dsimp only
    by_cases hn : n = 0
    · rw [if_pos hn, hn]
      exact iff_of_false (by simp) (not_errorWithin_zero _)
    · rw [if_neg hn]
      cases r with
      | eintr => rw [errorWithin_cons (by simp), ← ih]; rfl
      | error => exact iff_of_true rfl ((errorWithin_error reads n).mpr (Nat.pos_of_ne_zero hn))
      | data bytes =>
        dsimp only
        by_cases hnil : bytes = []
        · rw [if_pos hnil, hnil]
          exact iff_of_false (by simp) (not_errorWithin_end reads n)
        have hbytes : (content [.data bytes]).length = bytes.length := by simp [content]
        rw [if_neg hnil, errorWithin_cons ⟨by simp, by simpa using hnil⟩, hbytes]
        by_cases hlong : n < bytes.length
        · rw [if_pos hlong, Nat.sub_eq_zero_of_le (Nat.le_of_lt hlong)]
          exact iff_of_false (by simp) (not_errorWithin_zero reads)
        · rw [if_neg hlong]
          exact ih (n - bytes.length)

/-! ### Calls -/

inductive SockCall where
  | read (n : ℕ)
  | readline (n : ℕ)
deriving Repr, DecidableEq

def sockCall (r : SockBufRead) : SockCall → Except Fault (Bytes × SockBufRead)
  | .read n => sockRead r n
  | .readline n => sockReadline n r

/-- `got` is what `read` has delivered: each piece is made of bytes of it, and what
the reader counts as pending is no more than what has not been returned. Behind the
last result an empty reader stays at its end. -/
def OnlyDelivered (reads : List ReadResult) (pieces : List Bytes) (r : SockBufRead) : Prop :=
  (∃ got, content reads = got ++ content r.reads ∧ (∀ piece ∈ pieces, piece.Sublist got) ∧
    pieces.flatten.length + r.bytesPend ≤ got.length) ∧
  (r.reads = [] → r.bytesPend = 0 → ∀ call, ∃ r', sockCall r call = .ok ([], r'))

/-- No byte is invented: behind every call of the run. -/
def NeverInvents (reads : List ReadResult) (calls : List SockCall) : Prop :=
  Reader.Throughout sockCall (OnlyDelivered reads) (initBufFd reads) calls

/-- The next `sock_read` refills the buffer, and an error comes before it is full. -/
def RefillFails (r : SockBufRead) : Prop := r.bytesPend = 0 ∧ ErrorWithin r.reads sockBufLen

def LineClear : ℕ → SockBufRead → Prop
  | 0, _ => True
  | nleft + 1, r =>
    ¬RefillFails r ∧ ∀ c q, sockRead r 1 = .ok ([c], q) → c ≠ byte '\n' → LineClear nleft q

def CallClear (r : SockBufRead) : SockCall → Prop
  | .read _ => ¬RefillFails r
  | .readline n => LineClear n r

def nextReader (r : SockBufRead) (call : SockCall) : Option SockBufRead :=
  (sockCall r call).toOption.map Prod.snd

/-- No refill of the run fails. -/
def NoRefillFails (reads : List ReadResult) (calls : List SockCall) : Prop :=
  StepRun.AllSteps nextReader CallClear (initBufFd reads) calls

theorem sockCall_ended {r : SockBufRead} (hreads : r.reads = []) (hpend : r.bytesPend = 0) (call : SockCall) :
    ∃ r', sockCall r call = .ok ([], r') := by
  have hread : ∀ n, ∃ r', sockRead r n = .ok ([], r') := fun n => by
    unfold sockRead refill
    rw [if_pos hpend, hreads]
    exact ⟨_, rfl⟩
  cases call with
  | read n => exact hread n
  | readline n =>
    cases n with
    | zero => exact ⟨r, rfl⟩
    | succ n =>
      obtain ⟨r', hr'⟩ := hread 1
      exact ⟨r', by simp only [sockCall, sockReadline, hr']⟩

/-! ### What a failed refill does to the count -/

def owed (r : SockBufRead) : ℕ := r.bytesPend + (content r.reads).length

theorem owed_served (r : SockBufRead) :
    owed r ≤ owed (served r) ∧ (RefillFails r → owed r < owed (served r)) := by
  unfold served
  by_cases hp : r.bytesPend = 0
  · rw [if_pos hp]
    obtain ⟨hlen, hcontent⟩ := sockReadn_content r.reads sockBufLen
    have hsplit := congrArg List.length hcontent
    rw [List.length_append] at hsplit
    have hfailed := sockReadn_failed_iff r.reads sockBufLen
    have hbig : sockBufLen < 2 ^ 64 - 1 := by decide
    unfold owed refill RefillFails
    dsimp only
    rw [← hfailed]
    cases (sockReadn r.reads sockBufLen).ok with
    | true =>
      rw [if_pos rfl]
      exact ⟨by omega, fun hfails => absurd hfails.2 (by decide)⟩
    | false =>
      rw [if_neg Bool.false_ne_true]
      exact ⟨by omega, fun _ => by omega⟩
  · rw [if_neg hp]
    exact ⟨le_rfl, fun hfails => absurd hfails.1 hp⟩

theorem sockRead_owed {r q : SockBufRead} {n : ℕ} {piece : Bytes} (h : sockRead r n = .ok (piece, q)) :
    owed r ≤ piece.length + owed q ∧ (RefillFails r → owed r < piece.length + owed q) := by
  obtain ⟨rfl, hlen⟩ := sockRead_ok h
  have hserved := owed_served r
  have hafter : piece.length + owed (afterRead (served r) n) = owed (served r) := by
    rw [hlen]
    unfold owed afterRead
    dsimp only
    omega
  rw [hafter]
  exact hserved

theorem lineClear_last {r q : SockBufRead} {n : ℕ} {piece : Bytes} (hone : sockRead r 1 = .ok (piece, q))
    (hlast : piece = [] ∨ piece = [byte '\n']) : LineClear (n + 1) r ↔ ¬RefillFails r := by
  refine ⟨And.left, fun hclear => ⟨hclear, fun c t hread hc => ?_⟩⟩
  rw [hone] at hread
  cases hread
  rcases hlast with hnil | hnl
  · cases hnil
  · exact absurd (List.singleton_inj.mp hnl) hc

theorem lineClear_more {r q : SockBufRead} {n : ℕ} {c : UInt8} (hone : sockRead r 1 = .ok ([c], q))
    (hc : c ≠ byte '\n') : LineClear (n + 1) r ↔ ¬RefillFails r ∧ LineClear n q := by
  refine ⟨fun hclear => ⟨hclear.1, hclear.2 c q hone hc⟩, fun hclear => ⟨hclear.1, fun d t hread _ => ?_⟩⟩
  rw [hone] at hread
  cases hread
  exact hclear.2

theorem sockReadline_owed {r q : SockBufRead} {n : ℕ} {line : Bytes}
    (h : sockReadline n r = .ok (line, q)) :
    owed r ≤ line.length + owed q ∧ (¬LineClear n r → owed r < line.length + owed q) := by
  induction n generalizing r line with
  | zero =>
    cases h
    exact ⟨Nat.le_add_left .., fun hfails => absurd trivial hfails⟩
  | succ n ih =>
    rcases sockReadline_cases h with ⟨hlast, hone⟩ | ⟨c, t, rest, hc, hone, hmore, rfl⟩
    · rw [lineClear_last hone hlast, not_not]
      exact sockRead_owed hone
    · rw [lineClear_more hone hc]
      obtain ⟨hle, hlt⟩ := sockRead_owed hone
      obtain ⟨hrest, hstrict⟩ := ih hmore
      rw [List.length_singleton] at hle hlt
      rw [List.length_cons]
      refine ⟨by omega, fun hunclear => ?_⟩
      rcases not_and_or.mp hunclear with hfails | hlater
      · have hnow := hlt (not_not.mp hfails)
        omega
      · have hnext := hstrict hlater
        omega

/-! ### Calls whose refills do not fail -/

/-- A call that returns `piece` and leaves `q`: what comes of the network in it is
the rest of what it takes from. -/
structure Moves (r : SockBufRead) (piece : Bytes) (q : SockBufRead) : Prop where
  buffered : ∃ stream, Buffered q stream
  delivered : ∃ came, content r.reads = came ++ content q.reads ∧
    piece.Sublist (pendBytes r ++ came) ∧ (pendBytes q).Sublist (pendBytes r ++ came)
  count : piece.length + q.bytesPend + (content q.reads).length = r.bytesPend + (content r.reads).length

theorem served_came {r : SockBufRead} {stream : Bytes} (h : Buffered r stream) (hclear : ¬RefillFails r) :
    Buffered (served r) stream ∧ ∃ came, content r.reads = came ++ content (served r).reads ∧
      pendBytes (served r) = pendBytes r ++ came := by
  have hok : r.bytesPend = 0 → (sockReadn r.reads sockBufLen).ok = true := fun hp => by
    by_contra hfailed
    exact hclear ⟨hp, (sockReadn_failed_iff _ _).mp (Bool.not_eq_true _ ▸ hfailed)⟩
  have hserved := h.serve hok
  refine ⟨hserved, ?_⟩
  unfold served
  by_cases hp : r.bytesPend = 0
  · rw [if_pos hp, (h.filled hp (hok hp)).2]
    refine ⟨_, (sockReadn_content r.reads sockBufLen).2, ?_⟩
    unfold pendBytes
    rw [hp, List.take_zero, List.nil_append]
  · rw [if_neg hp]
    exact ⟨[], rfl, (List.append_nil _).symm⟩

theorem pendBytes_afterRead (q : SockBufRead) (n : ℕ) :
    (pendBytes (afterRead q n)).Sublist (pendBytes q) := by
  have hinside : pendBytes (afterRead q n) =
      ((pendBytes q).drop (min n (q.bytesPend - min n q.bytesPend))).take (q.bytesPend - min n q.bytesPend) := by
    unfold pendBytes
    rw [List.drop_take, List.take_take, List.drop_drop, Nat.min_eq_left (by omega)]
    rfl
  rw [hinside]
  exact (List.take_sublist ..).trans (List.drop_sublist ..)

theorem sockRead_moves {r : SockBufRead} {stream : Bytes} (h : Buffered r stream) (n : ℕ)
    (hclear : ¬RefillFails r) : ∃ piece q, sockRead r n = .ok (piece, q) ∧ Moves r piece q := by
  obtain ⟨hserved, came, hcame, hpend⟩ := served_came h hclear
  refine ⟨_, _, sockRead_served hserved n, ⟨_, hserved.len, ?_, rfl⟩, ⟨came, hcame, ?_, ?_⟩, ?_⟩
  · have hin := hserved.inside
    show (served r).bufPtr + min n ((served r).bytesPend - min n (served r).bytesPend) +
      ((served r).bytesPend - min n (served r).bytesPend) ≤ sockBufLen
    omega
  · rw [← hpend]
    exact List.take_sublist n _
  · rw [← hpend]
    exact pendBytes_afterRead (served r) n
  · have hlen := hserved.pendBytes_length
    have hcount := congrArg List.length hpend
    have hsplit := congrArg List.length hcame
    rw [List.length_append, h.pendBytes_length] at hcount
    rw [List.length_append] at hsplit
    rw [List.length_take]
    show _ + ((served r).bytesPend - min n (served r).bytesPend) + (content (served r).reads).length = _
    omega

/-- A call that gives out what it holds and what comes in their order. -/
structure GivesInOrder (r : SockBufRead) (piece : Bytes) (q : SockBufRead) : Prop where
  buffered : ∃ stream, Buffered q stream
  delivered : ∃ came, content r.reads = came ++ content q.reads ∧ pendBytes r ++ came = piece ++ pendBytes q

theorem GivesInOrder.trans {r q t : SockBufRead} {piece more : Bytes} (h : GivesInOrder r piece q)
    (h' : GivesInOrder q more t) : GivesInOrder r (piece ++ more) t := by
  obtain ⟨came, hcame, hpiece⟩ := h.delivered
  obtain ⟨came', hcame', hmore⟩ := h'.delivered
  refine ⟨h'.buffered, came ++ came', ?_, ?_⟩
  · rw [hcame, hcame', List.append_assoc]
  · rw [← List.append_assoc, hpiece, List.append_assoc, hmore, List.append_assoc]

theorem GivesInOrder.moves {r q : SockBufRead} {piece stream : Bytes} (hr : Buffered r stream)
    (h : GivesInOrder r piece q) : Moves r piece q := by
  obtain ⟨stream', hq⟩ := h.buffered
  obtain ⟨came, hcame, hpiece⟩ := h.delivered
  refine ⟨h.buffered, ⟨came, hcame, ?_, ?_⟩, ?_⟩
  · rw [hpiece]
    exact List.sublist_append_left ..
  · rw [hpiece]
    exact List.sublist_append_right ..
  · have hlen := congrArg List.length hpiece
    have hsplit := congrArg List.length hcame
    rw [List.length_append, List.length_append, hr.pendBytes_length, hq.pendBytes_length] at hlen
    rw [List.length_append] at hsplit
    omega

theorem sockRead_one_givesInOrder {r : SockBufRead} {stream : Bytes} (h : Buffered r stream)
    (hclear : ¬RefillFails r) : ∃ piece q, sockRead r 1 = .ok (piece, q) ∧ GivesInOrder r piece q := by
  obtain ⟨hserved, came, hcame, hpend⟩ := served_came h hclear
  obtain ⟨hbuf, hpiece⟩ := hserved.read (n := 1) (by omega)
  refine ⟨_, _, sockRead_served hserved 1, ⟨_, hbuf⟩, came, hcame, ?_⟩
  have hrest := hbuf.stream
  have hall := hserved.stream
  rw [← hpend]
  refine List.append_cancel_right (?_ : _ ++ content (served r).reads = _ ++ content (served r).reads)
  calc pendBytes (served r) ++ content (served r).reads
      = stream.take (min 1 (served r).bytesPend) ++ stream.drop (min 1 (served r).bytesPend) := by
        rw [hall, List.take_append_drop]
    _ = (pendBytes (served r)).take 1 ++
        (pendBytes (afterRead (served r) 1) ++ content (served r).reads) := by rw [hpiece, ← hrest]; rfl
    _ = _ := (List.append_assoc ..).symm

theorem sockReadline_givesInOrder {r : SockBufRead} {stream : Bytes} (h : Buffered r stream) {n : ℕ}
    (hclear : LineClear n r) : ∃ line q, sockReadline n r = .ok (line, q) ∧ GivesInOrder r line q := by
  induction n generalizing r stream with
  | zero => exact ⟨[], r, rfl, ⟨_, h⟩, [], rfl, List.append_nil _⟩
  | succ n ih =>
    obtain ⟨hfirst, hrest⟩ := hclear
    obtain ⟨piece, q, hone, hpiece⟩ := sockRead_one_givesInOrder h hfirst
    have hlen := (sockRead_ok hone).2
    cases piece with
    | nil => exact ⟨[], q, by simp only [sockReadline, hone], hpiece⟩
    | cons c piece =>
      have hnil : piece = [] := by
        rw [List.length_cons] at hlen
        exact List.length_eq_zero_iff.mp (by omega)
      subst hnil
      by_cases hc : c = byte '\n'
      · exact ⟨[c], q, by simp only [sockReadline, hone, hc, if_true], hpiece⟩
      · obtain ⟨stream', hq⟩ := hpiece.buffered
        obtain ⟨line, t, hmore, hline⟩ := ih hq (hrest c q hone hc)
        exact ⟨c :: line, t, by simp only [sockReadline, hone, hc, if_false, hmore], hpiece.trans hline⟩

theorem sockCall_moves {r : SockBufRead} {stream : Bytes} (h : Buffered r stream) {call : SockCall}
    (hclear : CallClear r call) : ∃ piece q, sockCall r call = .ok (piece, q) ∧ Moves r piece q := by
  cases call with
  | read n => exact sockRead_moves h n hclear
  | readline n =>
    obtain ⟨line, q, hread, hline⟩ := sockReadline_givesInOrder h hclear
    exact ⟨line, q, hread, hline.moves h⟩

/-! ### Runs -/

/-- Every byte that has come has been returned or is pending, and nothing else is. -/
structure Accounted (reads : List ReadResult) (pieces : List Bytes) (r : SockBufRead) : Prop where
  buffered : ∃ stream, Buffered r stream
  delivered : ∃ got, content reads = got ++ content r.reads ∧ (∀ piece ∈ pieces, piece.Sublist got) ∧
    (pendBytes r).Sublist got
  count : pieces.flatten.length + r.bytesPend + (content r.reads).length = (content reads).length

theorem Accounted.move {reads : List ReadResult} {pieces : List Bytes} {r q : SockBufRead} {piece : Bytes}
    (h : Accounted reads pieces r) (hmove : Moves r piece q) : Accounted reads (pieces ++ [piece]) q := by
  obtain ⟨got, hgot, hpieces, hpend⟩ := h.delivered
  obtain ⟨came, hcame, hpiece, hleft⟩ := hmove.delivered
  have hmore : (pendBytes r ++ came).Sublist (got ++ came) := hpend.append (List.Sublist.refl came)
  refine ⟨hmove.buffered, ⟨got ++ came, ?_, ?_, hleft.trans hmore⟩, ?_⟩
  · rw [hgot, hcame, List.append_assoc]
  · intro x hx
    rcases List.mem_append.mp hx with hx | hx
    · exact (hpieces x hx).trans (List.sublist_append_left ..)
    · rw [List.mem_singleton.mp hx]
      exact hpiece.trans hmore
  · have hcount := h.count
    have hnext := hmove.count
    rw [List.flatten_append, List.flatten_singleton, List.length_append]
    omega

theorem Accounted.onlyDelivered {reads : List ReadResult} {pieces : List Bytes} {r : SockBufRead}
    (h : Accounted reads pieces r) : OnlyDelivered reads pieces r := by
  obtain ⟨got, hgot, hpieces, -⟩ := h.delivered
  refine ⟨⟨got, hgot, hpieces, ?_⟩, fun hreads hpend => sockCall_ended hreads hpend⟩
  have hcount := h.count
  have hsplit := congrArg List.length hgot
  rw [List.length_append] at hsplit
  omega

theorem Accounted.overdrawn {reads : List ReadResult} {pieces : List Bytes} {r q : SockBufRead}
    {call : SockCall} {piece : Bytes} (h : Accounted reads pieces r) (hclear : ¬CallClear r call)
    (hcall : sockCall r call = .ok (piece, q)) : ¬OnlyDelivered reads (pieces ++ [piece]) q := by
  rintro ⟨⟨got, hgot, -, hle⟩, -⟩
  have howed : owed r < piece.length + owed q := by
    cases call with
    | read n => exact (sockRead_owed hcall).2 (not_not.mp hclear)
    | readline n => exact (sockReadline_owed hcall).2 hclear
  have hcount := h.count
  have hsplit := congrArg List.length hgot
  unfold owed at howed
  rw [List.length_append] at hsplit
  rw [List.flatten_append, List.flatten_singleton, List.length_append] at hle
  omega

/-- Reading invents no byte just when no refill of the run meets an error. -/
theorem never_invents_iff (reads : List ReadResult) (calls : List SockCall) :
    NeverInvents reads calls ↔ NoRefillFails reads calls := by
  have hstart : initBufFd reads = initBufFd reads ∧ Accounted reads [] (initBufFd reads) :=
    ⟨rfl, ⟨_, List.length_replicate, Nat.zero_le _, rfl⟩, ⟨[], rfl, by simp, List.Sublist.refl _⟩,
      Nat.zero_add _⟩
  refine Reader.throughout_iff (Q := OnlyDelivered reads) (C := CallClear)
    (I := fun k pieces r => k = r ∧ Accounted reads pieces r) ?_ ?_ ?_ hstart calls
  · rintro k pieces r ⟨-, hr⟩
    exact hr.onlyDelivered
  · rintro k pieces r call ⟨rfl, hr⟩ hclear
    obtain ⟨stream, hbuf⟩ := hr.buffered
    obtain ⟨piece, q, hcall, hmove⟩ := sockCall_moves hbuf hclear
    exact ⟨piece, q, q, hcall, by rw [nextReader, hcall]; rfl, rfl, hr.move hmove⟩
  · rintro k pieces r call ⟨rfl, hr⟩ hclear piece q hcall
    exact hr.overdrawn hclear hcall

/-- The peer resets the connection behind three bytes: the line is longer. -/
theorem reset_invents_byte : ¬∀ before calls, NeverInvents (before ++ [.error]) calls := by
  intro h
  obtain ⟨pieces, r, hrun, ⟨got, hgot, hpieces, -⟩, -⟩ :=
    h [.data (ascii "Req")] [.readline 4] [.readline 4] [] rfl
  have hline : (Reader.reads sockCall (initBufFd ([.data (ascii "Req")] ++ [.error])) [.readline 4]).toOption.map
      (fun p => p.1) = some [ascii "Req" ++ [0]] := by decide +kernel
  rw [hrun] at hline
  cases hline
  have hzero : (0 : UInt8) ∈ got := (hpieces _ (List.mem_singleton.mpr rfl)).subset (by simp)
  have hreq : (0 : UInt8) ∈ content ([.data (ascii "Req")] ++ [.error]) := by
    rw [hgot]
    exact List.mem_append_left _ hzero
  exact absurd hreq (by decide +kernel)

end ToDoList
