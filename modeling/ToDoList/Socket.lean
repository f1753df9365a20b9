import ToDoList.Iface

/-!
# Buffered reading from a socket (util.c)

`sock_readn` calls `read` until it has all it asked for or the stream ends,
`sock_read` serves from a buffer that it refills in this way, and
`sock_readline` takes one byte at a time up to a newline. The results of the
coming calls of `read` are a list; a result longer than the room that is left
is delivered in part.
-/

namespace ToDoList
open CLib

/-- `data []` is the end of the stream, which the end of the list is too. -/
inductive ReadResult where
  | data (bytes : Bytes)
  | eintr
  | error
deriving Repr, DecidableEq

structure Filled where
  bytes : Bytes
  ok : Bool
  reads : List ReadResult

def sockReadn : List ReadResult → ℕ → Filled
  | [], _ => ⟨[], true, []⟩
  | r :: reads, n =>
    if n = 0 then ⟨[], true, r :: reads⟩
    else
      match r with
      | .eintr => sockReadn reads n
      | .error => ⟨[], false, reads⟩
      | .data bytes =>
        if bytes = [] then ⟨[], true, reads⟩
        else if n < bytes.length then ⟨bytes.take n, true, .data (bytes.drop n) :: reads⟩
        else
          let f := sockReadn reads (n - bytes.length)
          { f with bytes := bytes ++ f.bytes }

def sockBufLen : ℕ := 8192

/-- `sock_buf_read`; `bufPtr` is `buf_ptr - buf`. -/
structure SockBufRead where
  reads : List ReadResult
  buf : Bytes := List.replicate sockBufLen 0
  bufPtr : ℕ := 0
  bytesPend : ℕ := 0

def initBufFd (reads : List ReadResult) : SockBufRead := { reads := reads }

/-- The `-1` of a failed read becomes the largest `size_t`, which the test
against 0 does not catch. -/
def refill (r : SockBufRead) : SockBufRead :=
  let f := sockReadn r.reads sockBufLen
  { reads := f.reads
    buf := f.bytes ++ r.buf.drop f.bytes.length
    bytesPend := if f.ok then f.bytes.length else 2 ^ 64 - 1 }

/-- The bytes stored in the caller's buffer. The pointer moves by what is left
to read after the count has been taken off, not by the count. -/
def sockRead (r : SockBufRead) (n : ℕ) : Except Fault (Bytes × SockBufRead) :=
  let r := if r.bytesPend = 0 then refill r else r
  if r.bytesPend = 0 then .ok ([], r)
  else
    let count := min n r.bytesPend
    if r.bufPtr + count ≤ r.buf.length then
      let pend := r.bytesPend - count
      .ok ((r.buf.drop r.bufPtr).take count,
        { r with bytesPend := pend, bufPtr := r.bufPtr + min n pend })
    else .error .outOfBounds

def sockReadline : ℕ → SockBufRead → Except Fault (Bytes × SockBufRead)
  | 0, r => .ok ([], r)
  | nleft + 1, r =>
    match sockRead r 1 with
    | .error f => .error f
    | .ok ([], r) => .ok ([], r)
    | .ok (c :: _, r) =>
      if c = byte '\n' then .ok ([c], r)
      else
        match sockReadline nleft r with
        | .error f => .error f
        | .ok (line, r) => .ok (c :: line, r)

/-! ### What `read` delivers -/

def content (reads : List ReadResult) : Bytes :=
  reads.flatMap fun
    | .data bytes => bytes
    | _ => []

/-- What has been stored is what has come of the stream. -/
theorem sockReadn_content (reads : List ReadResult) (n : ℕ) :
    (sockReadn reads n).bytes.length ≤ n ∧
      content reads = (sockReadn reads n).bytes ++ content (sockReadn reads n).reads := by
  induction reads generalizing n with
  | nil => simp [sockReadn, content]
  | cons r reads ih =>
    rw [sockReadn.eq_def]
    dsimp only
    by_cases hn : n = 0
    · rw [if_pos hn]
      exact ⟨Nat.zero_le _, rfl⟩
    · rw [if_neg hn]
      cases r with
      | eintr => exact ih n
      | error => exact ⟨Nat.zero_le _, rfl⟩
      | data bytes =>
        have hcontent : content (.data bytes :: reads) = bytes ++ content reads := rfl
        dsimp only
        rw [hcontent]
        by_cases hnil : bytes = []
        · rw [if_pos hnil, hnil]
          exact ⟨Nat.zero_le _, rfl⟩
        rw [if_neg hnil]
        by_cases hlong : n < bytes.length
        · rw [if_pos hlong]
          refine ⟨List.length_take_le .., ?_⟩
          show _ = bytes.take n ++ (bytes.drop n ++ content reads)
          rw [← List.append_assoc, List.take_append_drop]
        · rw [if_neg hlong]
          obtain ⟨hlen, hrest⟩ := ih (n - bytes.length)
          dsimp only
          refine ⟨?_, ?_⟩
          · rw [List.length_append]
            omega
          · rw [List.append_assoc, ← hrest]

/-- No error, and no end before the end of the list. -/
def Clean (reads : List ReadResult) : Prop := ∀ r ∈ reads, r ≠ .error ∧ r ≠ .data []

/-- No error, and behind an end nothing but the end. -/
def ErrorFree : List ReadResult → Prop
  | [] => True
  | .eintr :: reads => ErrorFree reads
  | .error :: _ => False
  | .data bytes :: reads => (bytes = [] → content reads = []) ∧ ErrorFree reads

theorem Clean.errorFree {reads : List ReadResult} (h : Clean reads) : ErrorFree reads := by
  induction reads with
  | nil => trivial
  | cons r reads ih =>
    have htail := ih fun x hx => h x (List.mem_cons_of_mem _ hx)
    have hhead := h r (List.mem_cons_self ..)
    cases r with
    | eintr => exact htail
    | error => exact absurd rfl hhead.1
    | data bytes => exact ⟨fun hnil => absurd (by rw [hnil]) hhead.2, htail⟩

/-- Without an error `sock_readn` fills its buffer, or the stream is at its end. -/
theorem sockReadn_errorFree {reads : List ReadResult} (h : ErrorFree reads) (n : ℕ) :
    (sockReadn reads n).ok = true ∧ ErrorFree (sockReadn reads n).reads ∧
      ((sockReadn reads n).bytes.length = n ∨ content (sockReadn reads n).reads = []) := by
  induction reads generalizing n with
  | nil => exact ⟨rfl, trivial, Or.inr rfl⟩
  | cons r reads ih =>
    rw [sockReadn.eq_def]
    dsimp only
    by_cases hn : n = 0
    · rw [if_pos hn]
      exact ⟨rfl, h, Or.inl hn.symm⟩
    · rw [if_neg hn]
      cases r with
      | eintr => exact ih h n
      | error => exact absurd h id
      | data bytes =>
        obtain ⟨hend, htail⟩ := h
        dsimp only
        by_cases hnil : bytes = []
        · rw [if_pos hnil]
          exact ⟨rfl, htail, Or.inr (hend hnil)⟩
        rw [if_neg hnil]
        by_cases hlong : n < bytes.length
        · rw [if_pos hlong]
          refine ⟨rfl, ⟨fun hdrop => ?_, htail⟩, Or.inl ?_⟩
          · rw [List.drop_eq_nil_iff] at hdrop
            omega
          · rw [List.length_take]
            omega
        · rw [if_neg hlong]
          obtain ⟨hok, hfree, hfull⟩ := ih htail (n - bytes.length)
          refine ⟨hok, hfree, hfull.imp_left fun hlen => ?_⟩
          dsimp only
          rw [List.length_append, hlen]
          omega

theorem sockReadn_take {reads : List ReadResult} (h : ErrorFree reads) (n : ℕ) :
    (sockReadn reads n).bytes = (content reads).take n ∧
      content (sockReadn reads n).reads = (content reads).drop n := by
  obtain ⟨hlen, hcontent⟩ := sockReadn_content reads n
  obtain ⟨-, -, hfull⟩ := sockReadn_errorFree h n
  rw [hcontent]
  rcases hfull with hfull | hend
  · exact ⟨(List.take_left' hfull).symm, (List.drop_left' hfull).symm⟩
  · rw [hend, List.append_nil]
    exact ⟨(List.take_of_length_le hlen).symm, (List.drop_of_length_le hlen).symm⟩

theorem sockReadn_left (reads : List ReadResult) (n : ℕ) :
    ∀ r ∈ (sockReadn reads n).reads, r ∈ reads ∨ ∃ b bytes, r = .data (b :: bytes) := by
  induction reads generalizing n with
  | nil => simp [sockReadn]
  | cons r reads ih =>
    rw [sockReadn.eq_def]
    dsimp only
    by_cases hn : n = 0
    · rw [if_pos hn]
      exact fun x hx => Or.inl hx
    · rw [if_neg hn]
      have htail : ∀ x ∈ reads, x ∈ r :: reads := fun x hx => List.mem_cons_of_mem _ hx
      cases r with
      | eintr => exact fun x hx => (ih n x hx).imp_left (htail x)
      | error => exact fun x hx => Or.inl (htail x hx)
      | data bytes =>
        dsimp only
        by_cases hnil : bytes = []
        · rw [if_pos hnil]
          exact fun x hx => Or.inl (htail x hx)
        rw [if_neg hnil]
        by_cases hlong : n < bytes.length
        · rw [if_pos hlong]
          intro x hx
          rcases List.mem_cons.mp hx with rfl | hx
          · have hdrop : bytes.drop n ≠ [] := by
              rw [ne_eq, List.drop_eq_nil_iff]
              omega
            obtain ⟨b, rest, hb⟩ := List.exists_cons_of_ne_nil hdrop
            exact Or.inr ⟨b, rest, by rw [hb]⟩
          · exact Or.inl (htail x hx)
        · rw [if_neg hlong]
          exact fun x hx => (ih (n - bytes.length) x hx).imp_left (htail x)

theorem Clean.left {reads : List ReadResult} (h : Clean reads) (n : ℕ) :
    Clean (sockReadn reads n).reads := by
  intro r hr
  rcases sockReadn_left reads n r hr with hmem | ⟨b, bytes, rfl⟩
  · exact h r hmem
  · exact ⟨by simp, by simp⟩

/-! ### The buffer -/

def pendBytes (r : SockBufRead) : Bytes := (r.buf.drop r.bufPtr).take r.bytesPend

/-- The bytes in the buffer and those that `read` is to deliver make the stream. -/
structure Buffered (r : SockBufRead) (stream : Bytes) : Prop where
  len : r.buf.length = sockBufLen
  inside : r.bufPtr + r.bytesPend ≤ sockBufLen
  stream : pendBytes r ++ content r.reads = stream

theorem Buffered.pendBytes_length {r : SockBufRead} {stream : Bytes} (h : Buffered r stream) :
    (pendBytes r).length = r.bytesPend := by
  have hin := h.inside
  unfold pendBytes
  rw [List.length_take, List.length_drop, h.len]
  omega

theorem Buffered.filled {r : SockBufRead} {stream : Bytes} (h : Buffered r stream)
    (hpend : r.bytesPend = 0) (hok : (sockReadn r.reads sockBufLen).ok = true) :
    Buffered (refill r) stream ∧ pendBytes (refill r) = (sockReadn r.reads sockBufLen).bytes := by
  obtain ⟨hlen, hcontent⟩ := sockReadn_content r.reads sockBufLen
  have hcount : (refill r).bytesPend = (sockReadn r.reads sockBufLen).bytes.length := by
    rw [refill, hok]
    rfl
  have hbytes : pendBytes (refill r) = (sockReadn r.reads sockBufLen).bytes := by
    unfold pendBytes
    rw [hcount]
    show (List.drop 0 (_ ++ _)).take _ = _
    rw [List.drop_zero, List.take_left]
  refine ⟨⟨?_, ?_, ?_⟩, hbytes⟩
  · show (_ ++ _ : Bytes).length = _
    rw [List.length_append, List.length_drop, h.len]
    omega
  · rw [hcount]
    show 0 + _ ≤ _
    omega
  · have hs := h.stream
    unfold pendBytes at hs
    rw [hpend, List.take_zero, List.nil_append, hcontent] at hs
    rw [hbytes]
    exact hs

def served (r : SockBufRead) : SockBufRead := if r.bytesPend = 0 then refill r else r

def afterRead (q : SockBufRead) (n : ℕ) : SockBufRead :=
  { q with
    bytesPend := q.bytesPend - min n q.bytesPend
    bufPtr := q.bufPtr + min n (q.bytesPend - min n q.bytesPend) }

theorem afterRead_empty {q : SockBufRead} (h : q.bytesPend = 0) (n : ℕ) : afterRead q n = q := by
  cases q with
  | mk reads buf bufPtr bytesPend =>
    subst h
    simp [afterRead]

theorem sockRead_eq (r : SockBufRead) (n : ℕ) : sockRead r n =
    if (served r).bytesPend = 0 then .ok ([], served r)
    else if (served r).bufPtr + min n (served r).bytesPend ≤ (served r).buf.length then
      .ok (((served r).buf.drop (served r).bufPtr).take (min n (served r).bytesPend), afterRead (served r) n)
    else .error .outOfBounds := rfl

theorem sockRead_served {r : SockBufRead} {stream : Bytes} (h : Buffered (served r) stream) (n : ℕ) :
    sockRead r n = .ok ((pendBytes (served r)).take n, afterRead (served r) n) := by
  rw [sockRead_eq]
  unfold pendBytes
  rw [List.take_take]
  by_cases hp : (served r).bytesPend = 0
  · rw [if_pos hp, hp]
    simp only [Nat.min_zero, List.take_zero]
    rw [afterRead_empty hp]
  · have hroom : (served r).bufPtr + min n (served r).bytesPend ≤ (served r).buf.length := by
      have hin := h.inside
      rw [h.len]
      omega
    rw [if_neg hp, if_pos hroom]

theorem sockRead_ok {r q : SockBufRead} {n : ℕ} {piece : Bytes} (h : sockRead r n = .ok (piece, q)) :
    q = afterRead (served r) n ∧ piece.length = min n (served r).bytesPend := by
  rw [sockRead_eq] at h
  by_cases hp : (served r).bytesPend = 0
  · rw [if_pos hp] at h
    cases h
    rw [afterRead_empty hp, hp]
    exact ⟨rfl, (Nat.min_zero n).symm⟩
  · rw [if_neg hp] at h
    by_cases hroom : (served r).bufPtr + min n (served r).bytesPend ≤ (served r).buf.length
    · rw [if_pos hroom] at h
      cases h
      refine ⟨rfl, ?_⟩
      rw [List.length_take, List.length_drop]
      omega
    · rw [if_neg hroom] at h
      cases h

/-- The pointer moves as far as the count, unless nothing is left behind it: the
read is all that is pending, or half of it at most. -/
theorem Buffered.read {q : SockBufRead} {stream : Bytes} {n : ℕ} (h : Buffered q stream)
    (hfit : q.bytesPend ≤ n ∨ 2 * n ≤ q.bytesPend) :
    Buffered (afterRead q n) (stream.drop (min n q.bytesPend)) ∧
      (pendBytes q).take n = stream.take (min n q.bytesPend) := by
  have hlen := h.pendBytes_length
  have hin := h.inside
  have hstream := h.stream
  refine ⟨⟨h.len, ?_, ?_⟩, ?_⟩
  · show q.bufPtr + min n (q.bytesPend - min n q.bytesPend) + (q.bytesPend - min n q.bytesPend) ≤ _
    omega
  · show (q.buf.drop (q.bufPtr + min n (q.bytesPend - min n q.bytesPend))).take
      (q.bytesPend - min n q.bytesPend) ++ content q.reads = _
    rw [← hstream, List.drop_append_of_le_length (by omega)]
    congr 1
    unfold pendBytes
    rcases hfit with hall | hhalf
    · -- with nothing left to read the pointer stays, and nothing is taken from it
      rw [Nat.min_eq_right hall, Nat.sub_self, List.take_zero, List.drop_take, Nat.sub_self, List.take_zero]
    · have hcount : min n q.bytesPend = n := by omega
      have hmove : min n (q.bytesPend - n) = n := by omega
      rw [hcount, hmove, List.drop_take, List.drop_drop]
  · rw [← hstream, List.take_append_of_le_length (by omega), ← hlen, ← List.take_eq_take_min]

theorem Buffered.serve {r : SockBufRead} {stream : Bytes} (h : Buffered r stream)
    (hok : r.bytesPend = 0 → (sockReadn r.reads sockBufLen).ok = true) : Buffered (served r) stream := by
  unfold served
  by_cases hp : r.bytesPend = 0
  · rw [if_pos hp]
    exact (h.filled hp (hok hp)).1
  · rw [if_neg hp]
    exact h

/-! ### Streams without errors -/

/-- The bytes that reading will still yield. -/
structure Delivers (r : SockBufRead) (stream : Bytes) : Prop where
  len : r.buf.length = sockBufLen
  inside : r.bufPtr + r.bytesPend ≤ sockBufLen
  clean : Clean r.reads
  stream : (r.buf.drop r.bufPtr).take r.bytesPend ++ content r.reads = stream

theorem delivers_init {reads : List ReadResult} (h : Clean reads) :
    Delivers (initBufFd reads) (content reads) :=
  ⟨List.length_replicate, Nat.zero_le _, h, rfl⟩

structure Feeds (r : SockBufRead) (stream : Bytes) : Prop extends Buffered r stream where
  errorFree : ErrorFree r.reads

theorem feeds_init {reads : List ReadResult} (h : ErrorFree reads) :
    Feeds (initBufFd reads) (content reads) :=
  ⟨⟨List.length_replicate, Nat.zero_le _, rfl⟩, h⟩

/-- A buffer that has run empty is filled, unless the stream ends. -/
theorem Feeds.serve {r : SockBufRead} {stream : Bytes} (h : Feeds r stream) :
    Feeds (served r) stream ∧
      (r.bytesPend = 0 → (served r).bytesPend = min sockBufLen stream.length) := by
  obtain ⟨hok, hfree, -⟩ := sockReadn_errorFree h.errorFree sockBufLen
  have hbuf := h.toBuffered.serve fun _ => hok
  unfold served at hbuf ⊢
  by_cases hp : r.bytesPend = 0
  · rw [if_pos hp] at hbuf ⊢
    refine ⟨⟨hbuf, hfree⟩, fun _ => ?_⟩
    have hstream := h.stream
    unfold pendBytes at hstream
    rw [hp, List.take_zero, List.nil_append] at hstream
    rw [← hbuf.pendBytes_length, (h.filled hp hok).2, (sockReadn_take h.errorFree _).1, hstream,
      List.length_take]
  · rw [if_neg hp] at hbuf ⊢
    exact ⟨h, fun h0 => absurd h0 hp⟩

theorem Clean.serve {r : SockBufRead} (h : Clean r.reads) : Clean (served r).reads := by
  unfold served
  split
  · exact h.left sockBufLen
  · exact h

theorem Feeds.read {r : SockBufRead} {stream : Bytes} {n : ℕ} (h : Feeds r stream)
    (hfit : (served r).bytesPend ≤ n ∨ 2 * n ≤ (served r).bytesPend) :
    sockRead r n = .ok (stream.take (min n (served r).bytesPend), afterRead (served r) n) ∧
      Feeds (afterRead (served r) n) (stream.drop (min n (served r).bytesPend)) := by
  have hserved := h.serve.1
  obtain ⟨hbuf, hpiece⟩ := hserved.toBuffered.read hfit
  exact ⟨by rw [sockRead_served hserved.toBuffered, hpiece], hbuf, hserved.errorFree⟩

theorem Feeds.ended {r : SockBufRead} {stream : Bytes} (h : Feeds r stream)
    (hp : (served r).bytesPend = 0) : stream = [] := by
  have hr : r.bytesPend = 0 := by
    by_contra hne
    unfold served at hp
    rw [if_neg hne] at hp
    exact hne hp
  have hcount := h.serve.2 hr
  have hpos : 0 < sockBufLen := by decide
  refine List.length_eq_zero_iff.mp ?_
  omega

theorem Feeds.read_one {r : SockBufRead} {stream : Bytes} (h : Feeds r stream) :
    sockRead r 1 = .ok (stream.take 1, afterRead (served r) 1) ∧
      Feeds (afterRead (served r) 1) (stream.drop 1) := by
  have hread := h.read (n := 1) (by omega)
  by_cases hp : (served r).bytesPend = 0
  · rw [h.ended hp] at hread ⊢
    simpa only [List.take_nil, List.drop_nil] using hread
  · rw [show min 1 (served r).bytesPend = 1 by omega] at hread
    exact hread

def lineOf : ℕ → Bytes → Bytes
  | 0, _ => []
  | _ + 1, [] => []
  | n + 1, c :: stream => if c = byte '\n' then [c] else c :: lineOf n stream

theorem Feeds.readline {r : SockBufRead} {stream : Bytes} (h : Feeds r stream) (n : ℕ) :
    ∃ r', sockReadline n r = .ok (lineOf n stream, r') ∧ Feeds r' (stream.drop (lineOf n stream).length) ∧
      (Clean r.reads → Clean r'.reads) := by
  induction n generalizing r stream with
  | zero => exact ⟨r, rfl, h, id⟩
  | succ n ih =>
    obtain ⟨hread, hfeeds⟩ := h.read_one
    have hclean : Clean r.reads → Clean (afterRead (served r) 1).reads := Clean.serve
    cases stream with
    | nil =>
      refine ⟨_, ?_, hfeeds, hclean⟩
      simp only [sockReadline, hread, List.take_nil, lineOf]
    | cons c stream =>
      by_cases hc : c = byte '\n'
      · refine ⟨_, ?_, ?_, hclean⟩
        · simp only [sockReadline, hread, List.take_succ_cons, lineOf, hc, if_true]
        · rw [lineOf, if_pos hc]
          exact hfeeds
      · obtain ⟨q, hline, hrest, hleft⟩ := ih hfeeds
        refine ⟨q, ?_, ?_, hleft ∘ hclean⟩
        · simp only [List.drop_succ_cons, List.drop_zero] at hline
          simp only [sockReadline, hread, List.take_succ_cons, lineOf, hc, if_false, hline]
        · rw [lineOf, if_neg hc]
          exact hrest

theorem sockReadline_delivers {r : SockBufRead} {stream : Bytes} (h : Delivers r stream) (n : ℕ) :
    ∃ r', sockReadline n r = .ok (lineOf n stream, r') ∧
      Delivers r' (stream.drop (lineOf n stream).length) := by
  have hfeeds : Feeds r stream := ⟨⟨h.len, h.inside, h.stream⟩, h.clean.errorFree⟩
  obtain ⟨r', hread, hrest, hclean⟩ := hfeeds.readline n
  exact ⟨r', hread, hrest.len, hrest.inside, hclean h.clean, hrest.stream⟩

/-- What a call that returns has done: its first byte is the last, or the loop goes
on behind it. -/
theorem sockReadline_cases {n : ℕ} {r q : SockBufRead} {line : Bytes}
    (h : sockReadline (n + 1) r = .ok (line, q)) :
    ((line = [] ∨ line = [byte '\n']) ∧ sockRead r 1 = .ok (line, q)) ∨
      ∃ c t rest, c ≠ byte '\n' ∧ sockRead r 1 = .ok ([c], t) ∧ sockReadline n t = .ok (rest, q) ∧
        line = c :: rest := by
  rw [sockReadline] at h
  cases hone : sockRead r 1 with
  | error f =>
    rw [hone] at h
    cases h
  | ok p =>
    obtain ⟨piece, t⟩ := p
    have hlen := (sockRead_ok hone).2
    rw [hone] at h
    cases piece with
    | nil =>
      cases h
      exact Or.inl ⟨Or.inl rfl, rfl⟩
    | cons c piece =>
      have hnil : piece = [] := by
        rw [List.length_cons] at hlen
        exact List.length_eq_zero_iff.mp (by omega)
      subst hnil
      dsimp only at h
      by_cases hc : c = byte '\n'
      · rw [if_pos hc] at h
        cases h
        exact Or.inl ⟨Or.inr (by rw [hc]), rfl⟩
      · rw [if_neg hc] at h
        cases hmore : sockReadline n t with
        | error f =>
          rw [hmore] at h
          cases h
        | ok p =>
          rw [hmore] at h
          cases h
          exact Or.inr ⟨c, t, p.1, hc, rfl, hmore, rfl⟩

theorem lineOf_eq_take (n : ℕ) (stream : Bytes) :
    lineOf n stream = stream.take (lineOf n stream).length := by
  induction n generalizing stream with
  | zero => simp [lineOf]
  | succ n ih =>
    cases stream with
    | nil => simp [lineOf]
    | cons c stream =>
      rw [lineOf]
      by_cases hc : c = byte '\n'
      · simp [hc]
      · rw [if_neg hc, List.length_cons, List.take_succ_cons, ← ih stream]

theorem lineOf_dropLast (n : ℕ) (stream : Bytes) :
    ∀ b ∈ (lineOf n stream).dropLast, b ≠ byte '\n' := by
  induction n generalizing stream with
  | zero => simp [lineOf]
  | succ n ih =>
    cases stream with
    | nil => simp [lineOf]
    | cons c stream =>
      rw [lineOf]
      by_cases hc : c = byte '\n'
      · simp [hc]
      · rw [if_neg hc]
        cases hline : lineOf n stream with
        | nil => simp
        | cons d line =>
          intro b hb
          rw [List.dropLast_cons_cons] at hb
          rcases List.mem_cons.mp hb with rfl | hb
          · exact hc
          · exact ih stream b (by rw [hline]; exact hb)

theorem lineOf_pos {n : ℕ} {stream : Bytes} (hn : 0 < n) (hs : stream ≠ []) :
    0 < (lineOf n stream).length := by
  obtain ⟨n, rfl⟩ := Nat.exists_eq_succ_of_ne_zero (Nat.ne_of_gt hn)
  obtain ⟨c, stream, rfl⟩ := List.exists_cons_of_ne_nil hs
  rw [lineOf]
  split <;> simp

theorem lineOf_unended {line : Bytes} {n : ℕ} (hnl : ∀ b ∈ line, b ≠ byte '\n')
    (hlen : line.length ≤ n) : lineOf n line = line := by
  induction line generalizing n with
  | nil => cases n <;> rfl
  | cons b line ih =>
    obtain ⟨n, rfl⟩ := Nat.exists_eq_succ_of_ne_zero (Nat.ne_of_gt (Nat.zero_lt_of_lt hlen))
    rw [List.length_cons] at hlen
    rw [lineOf, if_neg (hnl b (List.mem_cons_self ..)),
      ih (fun c hc => hnl c (List.mem_cons_of_mem _ hc)) (by omega)]

theorem lineOf_line {line rest : Bytes} {n : ℕ} (hnl : ∀ b ∈ line, b ≠ byte '\n')
    (hlen : line.length < n) : lineOf n (line ++ byte '\n' :: rest) = line ++ [byte '\n'] := by
  induction line generalizing n with
  | nil =>
    obtain ⟨n, rfl⟩ := Nat.exists_eq_succ_of_ne_zero (Nat.ne_of_gt hlen)
    simp [lineOf]
  | cons b line ih =>
    obtain ⟨n, rfl⟩ := Nat.exists_eq_succ_of_ne_zero (Nat.ne_of_gt (Nat.zero_lt_of_lt hlen))
    have hb : b ≠ byte '\n' := hnl b (List.mem_cons_self ..)
    rw [List.length_cons] at hlen
    rw [List.cons_append, lineOf, if_neg hb,
      ih (fun x hx => hnl x (List.mem_cons_of_mem _ hx)) (Nat.lt_of_succ_lt_succ hlen)]
    rfl

end ToDoList
