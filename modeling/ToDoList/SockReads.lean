import ToDoList.Socket
import ToDoList.CLib.Reader

/-!
# A stream in lines and in pieces (util.c)

What `sock_readline` and `sock_read` return over whole runs, on a stream without
errors that the network may cut as it likes.
-/

namespace ToDoList
open CLib

/-! ### Lines -/

/-- A line ends behind the first newline, after `n` bytes or with the stream. -/
structure LineCut (n : ℕ) (line rest : Bytes) : Prop where
  room : line.length ≤ n
  inner : ∀ b ∈ line.dropLast, b ≠ byte '\n'
  ends : line.getLast? = some (byte '\n') ∨ line.length = n ∨ rest = []

theorem lineOf_cut (n : ℕ) (stream : Bytes) :
    LineCut n (lineOf n stream) (stream.drop (lineOf n stream).length) := by
  induction n generalizing stream with
  | zero => exact ⟨le_rfl, by simp [lineOf], Or.inr (Or.inl rfl)⟩
  | succ n ih =>
    cases stream with
    | nil => exact ⟨Nat.zero_le _, by simp [lineOf], Or.inr (Or.inr rfl)⟩
    | cons c stream =>
      obtain ⟨hroom, -, hends⟩ := ih stream
      have hinner := lineOf_dropLast (n + 1) (c :: stream)
      refine ⟨?_, hinner, ?_⟩
      · rw [lineOf]
        split
        · exact Nat.succ_le_succ (Nat.zero_le n)
        · exact Nat.succ_le_succ hroom
      · rw [lineOf]
        by_cases hc : c = byte '\n'
        · rw [if_pos hc, hc]
          exact Or.inl rfl
        · rw [if_neg hc, List.length_cons, List.drop_succ_cons]
          rcases hends with hlast | hfull | hend
          · left
            rw [List.getLast?_cons, hlast]
            rfl
          · exact Or.inr (Or.inl (by rw [hfull]))
          · exact Or.inr (Or.inr hend)

theorem LineCut.eq_lineOf {n : ℕ} {line rest : Bytes} (h : LineCut n line rest) :
    line = lineOf n (line ++ rest) := by
  induction n generalizing line with
  | zero => exact List.length_eq_zero_iff.mp (Nat.le_zero.mp h.room)
  | succ n ih =>
    cases line with
    | nil =>
      have hend : rest = [] := by
        rcases h.ends with hlast | hfull | hend
        · cases hlast
        · cases hfull
        · exact hend
      rw [hend]
      rfl
    | cons c line =>
      rw [List.cons_append, lineOf]
      by_cases hc : c = byte '\n'
      · rw [if_pos hc]
        cases line with
        | nil => rfl
        | cons d line => exact absurd hc (h.inner c (by simp))
      · rw [if_neg hc]
        congr 1
        refine ih ⟨Nat.le_of_succ_le_succ h.room, ?_, ?_⟩
        · cases line with
          | nil => simp
          | cons d line =>
            intro b hb
            exact h.inner b (by rw [List.dropLast_cons_cons]; exact List.mem_cons_of_mem _ hb)
        · rcases h.ends with hlast | hfull | hend
          · left
            cases line with
            | nil => exact absurd (Option.some.inj hlast) hc
            | cons d line => rwa [List.getLast?_cons_cons] at hlast
          · exact Or.inr (Or.inl (Nat.succ.inj hfull))
          · exact Or.inr (Or.inr hend)

def sockLine (r : SockBufRead) (n : ℕ) : Except Fault (Bytes × SockBufRead) := sockReadline n r

theorem Feeds.line {r : SockBufRead} {stream : Bytes} (n : ℕ) (h : Feeds r stream) :
    ∃ line r' rest, sockLine r n = .ok (line, r') ∧ stream = line ++ rest ∧ LineCut n line rest ∧
      Feeds r' rest := by
  obtain ⟨r', hread, hrest, -⟩ := h.readline n
  have hsplit : stream = lineOf n stream ++ stream.drop (lineOf n stream).length := by
    calc stream = stream.take (lineOf n stream).length ++ stream.drop (lineOf n stream).length :=
          (List.take_append_drop ..).symm
      _ = lineOf n stream ++ stream.drop (lineOf n stream).length := by rw [← lineOf_eq_take]
  exact ⟨_, r', _, hread, hsplit, lineOf_cut n stream, hrest⟩

/-- Calls of `sock_readline` cut a stream into its lines, and any network that
delivers the same bytes gives the same lines. -/
theorem lines_of_any_network {reads : List ReadResult} (h : ErrorFree reads) (sizes : List ℕ) :
    ∃ lines r left, Reader.reads sockLine (initBufFd reads) sizes = .ok (lines, r) ∧
      Reader.Cut LineCut sizes lines (content reads) left ∧
      ∀ reads', ErrorFree reads' → content reads' = content reads →
        ∃ r', Reader.reads sockLine (initBufFd reads') sizes = .ok (lines, r') := by
  have hline : ∀ r stream n, Feeds r stream → ∃ line r' rest, sockLine r n = .ok (line, r') ∧
      stream = line ++ rest ∧ LineCut n line rest ∧ Feeds r' rest := fun _ _ n hr => hr.line n
  have hone : ∀ n line rest line' rest', LineCut n line rest → LineCut n line' rest' →
      line ++ rest = line' ++ rest' → line = line' := fun n line rest line' rest' hcut hcut' hsame => by
    rw [hcut.eq_lineOf, hcut'.eq_lineOf, hsame]
  obtain ⟨lines, r, left, hrun, hcut, -⟩ := Reader.reads_cut sockLine hline (feeds_init h) sizes
  refine ⟨lines, r, left, hrun, hcut, fun reads' h' hsame => ?_⟩
  obtain ⟨lines', r', left', hrun', hcut', -⟩ := Reader.reads_cut sockLine hline (feeds_init h') sizes
  rw [hsame] at hcut'
  rw [hcut.unique hone hcut']
  exact ⟨r', hrun'⟩

theorem lines_of_any_network_three : ∃ lines r r',
    Reader.reads sockLine (initBufFd [.data (ascii "ab\ncd")]) [4, 4] = .ok (lines, r) ∧
      Reader.reads sockLine (initBufFd [.data (ascii "a"), .eintr, .data (ascii "b\nc"), .data (ascii "d")])
        [4, 4] = .ok (lines, r') := by
  have hone : ErrorFree [.data (ascii "ab\ncd")] := ⟨by simp [ascii], trivial⟩
  have hthree : ErrorFree [.data (ascii "a"), .eintr, .data (ascii "b\nc"), .data (ascii "d")] :=
    ⟨by simp [ascii], by simp [ascii], by simp [ascii], trivial⟩
  obtain ⟨lines, r, left, hrun, -, hany⟩ := lines_of_any_network hone [4, 4]
  obtain ⟨r', hrun'⟩ := hany _ hthree rfl
  exact ⟨lines, r, r', hrun, hrun'⟩

/-! ### Pieces of any size -/

/-- The reader with the number of bytes that its last refill has stored. -/
structure Watched where
  r : SockBufRead
  last : ℕ

def Watched.stored (w : Watched) : ℕ :=
  if w.r.bytesPend = 0 then (sockReadn w.r.reads sockBufLen).bytes.length else w.last

def watchedRead (w : Watched) (n : ℕ) : Except Fault (Bytes × Watched) :=
  match sockRead w.r n with
  | .error f => .error f
  | .ok (piece, r) => .ok (piece, ⟨r, w.stored⟩)

def Watched.Aligned (w : Watched) : Prop := w.r.bytesPend ≠ 0 → w.r.bufPtr + w.r.bytesPend = w.last

/-- What has been returned is the beginning of the stream, and the pointer is in
step with the count. -/
def InStream (reads : List ReadResult) (pieces : List Bytes) (w : Watched) : Prop :=
  pieces.flatten <+: content reads ∧ w.Aligned

/-- Calls of `sock_read` return the stream: behind every call of the run. -/
def ReturnsStream (reads : List ReadResult) (sizes : List ℕ) : Prop :=
  Reader.Throughout watchedRead (InStream reads) ⟨initBufFd reads, 0⟩ sizes

/-- The bytes of a stream of `len` bytes that lie in the buffer of position `c`. -/
def blockLeft (len c : ℕ) : ℕ := min (sockBufLen * (c / sockBufLen + 1)) len - c

/-- A read takes all that the buffer still holds, or half of it at most. -/
def SizeFits (len c n : ℕ) : Prop := blockLeft len c ≤ n ∨ 2 * n ≤ blockLeft len c

instance (len c n : ℕ) : Decidable (SizeFits len c n) := inferInstanceAs (Decidable (_ ∨ _))

def nextPosition (len c n : ℕ) : Option ℕ := some (c + min n (blockLeft len c))

def SizesFit (len : ℕ) (sizes : List ℕ) : Prop := StepRun.AllSteps (nextPosition len) (SizeFits len) 0 sizes

instance (len : ℕ) (sizes : List ℕ) : Decidable (SizesFit len sizes) :=
  inferInstanceAs (Decidable (StepRun.AllSteps ..))

/-- The run at position `c` of the stream. -/
structure AtPosition (stream : Bytes) (c : ℕ) (pieces : List Bytes) (w : Watched) : Prop where
  feeds : Feeds w.r (stream.drop c)
  taken : pieces.flatten = stream.take c
  aligned : w.Aligned
  block : (w.r.bytesPend = 0 ∧ c % sockBufLen = 0) ∨ w.r.bytesPend = blockLeft stream.length c

theorem AtPosition.serve {stream : Bytes} {c : ℕ} {pieces : List Bytes} {w : Watched}
    (h : AtPosition stream c pieces w) : (served w.r).bytesPend = blockLeft stream.length c ∧
      ((served w.r).bytesPend ≠ 0 →
        (served w.r).bufPtr + (served w.r).bytesPend = w.stored) := by
  have hcount := h.feeds.serve.2
  rw [List.length_drop] at hcount
  have hblock := h.block
  have haligned := h.aligned
  have hok := (sockReadn_errorFree h.feeds.errorFree sockBufLen).1
  unfold Watched.Aligned at haligned
  unfold blockLeft sockBufLen at *
  unfold Watched.stored
  by_cases hp : w.r.bytesPend = 0
  · refine ⟨?_, fun _ => ?_⟩
    · have hc := hcount hp
      omega
    · obtain ⟨hbuf, hbytes⟩ := h.feeds.toBuffered.filled hp hok
      unfold served
      rw [if_pos hp, if_pos hp, ← hbytes, hbuf.pendBytes_length]
      exact Nat.zero_add _
  · have hsame : served w.r = w.r := by
      unfold served
      rw [if_neg hp]
    rw [hsame, if_neg hp]
    exact ⟨by omega, haligned⟩

theorem watchedRead_served {stream : Bytes} {w : Watched} (h : Feeds w.r stream) (n : ℕ) :
    watchedRead w n =
      .ok ((pendBytes (served w.r)).take n, ⟨afterRead (served w.r) n, w.stored⟩) := by
  rw [watchedRead, sockRead_served h.serve.1.toBuffered]

theorem AtPosition.read {stream : Bytes} {c n : ℕ} {pieces : List Bytes} {w : Watched}
    (h : AtPosition stream c pieces w) (hfit : SizeFits stream.length c n) :
    ∃ piece w', watchedRead w n = .ok (piece, w') ∧
      AtPosition stream (c + min n (blockLeft stream.length c)) (pieces ++ [piece]) w' := by
  obtain ⟨hpend, hstored⟩ := h.serve
  have hread := watchedRead_served h.feeds n
  have hfit' := hfit
  unfold SizeFits at hfit'
  rw [← hpend] at hfit'
  obtain ⟨hbuf, hpiece⟩ := h.feeds.serve.1.toBuffered.read hfit'
  rw [hpend] at hbuf hpiece
  refine ⟨_, _, hread, ⟨?_, ?_⟩, ?_, ?_, ?_⟩
  · rw [← List.drop_drop]
    exact hbuf
  · exact h.feeds.serve.1.errorFree
  · rw [List.flatten_append, h.taken, List.flatten_singleton, hpiece, List.take_add]
  · intro hleft
    show (served w.r).bufPtr + min n ((served w.r).bytesPend - min n (served w.r).bytesPend) +
      ((served w.r).bytesPend - min n (served w.r).bytesPend) = w.stored
    have hleft' : (served w.r).bytesPend - min n (served w.r).bytesPend ≠ 0 := hleft
    have hsum := hstored (by omega)
    omega
  · show ((served w.r).bytesPend - min n (served w.r).bytesPend = 0 ∧ _) ∨
      (served w.r).bytesPend - min n (served w.r).bytesPend = _
    rw [hpend]
    have hblock := h.block
    unfold blockLeft sockBufLen at *
    omega

theorem AtPosition.unfit {stream : Bytes} {c n : ℕ} {pieces : List Bytes} {w : Watched}
    (h : AtPosition stream c pieces w) (hfit : ¬SizeFits stream.length c n) (piece : Bytes) (w' : Watched)
    (hread : watchedRead w n = .ok (piece, w')) : ¬w'.Aligned := by
  obtain ⟨hpend, hstored⟩ := h.serve
  rw [watchedRead_served h.feeds n] at hread
  cases hread
  intro haligned
  have hsum : (served w.r).bytesPend - min n (served w.r).bytesPend ≠ 0 →
      (served w.r).bufPtr + min n ((served w.r).bytesPend - min n (served w.r).bytesPend) +
        ((served w.r).bytesPend - min n (served w.r).bytesPend) = w.stored := haligned
  unfold SizeFits at hfit
  rw [← hpend] at hfit
  have hleft := hstored (by omega)
  have hright := hsum (by omega)
  omega

/-- Reads of a stream return it in order, with their pointer in step, just when
each takes all that its buffer still holds or half of it at most. -/
theorem returns_stream_iff {reads : List ReadResult} (h : ErrorFree reads) (sizes : List ℕ) :
    ReturnsStream reads sizes ↔ SizesFit (content reads).length sizes := by
  have hstart : AtPosition (content reads) 0 [] ⟨initBufFd reads, 0⟩ :=
    ⟨feeds_init h, rfl, fun hne => absurd rfl hne, Or.inl ⟨rfl, rfl⟩⟩
  refine Reader.throughout_iff (Q := InStream reads) (C := SizeFits (content reads).length)
    (I := AtPosition (content reads)) ?_ ?_ ?_ hstart sizes
  · intro c pieces w hw
    exact ⟨hw.taken ▸ List.take_prefix c _, hw.aligned⟩
  · intro c pieces w n hw hfit
    obtain ⟨piece, w', hread, hnext⟩ := hw.read hfit
    exact ⟨piece, w', _, hread, rfl, hnext⟩
  · intro c pieces w n hw hfit piece w' hread hboth
    exact hw.unfit hfit piece w' hread hboth.2

theorem returns_stream_iff_ten :
    ReturnsStream [.data (ascii "buy "), .eintr, .data (ascii "milk\r\n")] [4, 6, 1] := by
  have hfree : ErrorFree [.data (ascii "buy "), .eintr, .data (ascii "milk\r\n")] :=
    ⟨by simp [ascii], by simp [ascii], trivial⟩
  exact (returns_stream_iff hfree [4, 6, 1]).mpr (by decide +kernel)

/-- The pointer moves by one, and the second read begins in the first. -/
theorem pair_read_overlaps : ¬∀ reads, ErrorFree reads → ∀ sizes, ReturnsStream reads sizes := by
  intro h
  have hfree : ErrorFree [.data (ascii "abc")] := ⟨by simp [ascii], trivial⟩
  obtain ⟨pieces, w, hrun, hpre, -⟩ := h _ hfree [2, 1] [2, 1] [] rfl
  have hpieces : (Reader.reads watchedRead ⟨initBufFd [.data (ascii "abc")], 0⟩ [2, 1]).toOption.map
      (fun p => p.1) = some [ascii "ab", ascii "b"] := by decide +kernel
  rw [hrun] at hpieces
  cases hpieces
  exact absurd hpre (by decide +kernel)

end ToDoList
