import ToDoList.Senders

/-!
# Writing a checkpoint (chkpt.c)

`write_check_point` writes the header and then the file in pieces. It looks at
the sign of what `write` returns only, so a short count goes unnoticed, and a
write that fails leads to the `return 0` at the end of the function.
-/

namespace ToDoList
open CLib

/-- What one call of `write` returns: the number of bytes taken, or `-1`. -/
inductive WriteResult where
  | wrote (count : ℕ)
  | failed
deriving Repr, DecidableEq

/-- The connection behind a write, and whether the result is `>= 0`. -/
def writeTo (sent bytes : Bytes) : WriteResult → Bytes × Bool
  | .wrote count => (sent ++ bytes.take count, true)
  | .failed => (sent, false)

/-- read(fd, buffer, MAX_LENGTH) until the file ends; `fuel` is its length. -/
def fileReads : ℕ → Bytes → List Bytes
  | _, [] => []
  | 0, _ => []
  | fuel + 1, b :: bytes => (b :: bytes).take maxLength :: fileReads fuel ((b :: bytes).drop maxLength)

def writeLoop (write : ℕ → WriteResult) : ℕ → Bytes → List Bytes → Bytes
  | _, sent, [] => sent
  | n, sent, buffer :: reads =>
    match writeTo sent buffer (write n) with
    | (sent, false) => sent
    | (sent, true) => writeLoop write (n + 1) sent reads

/-- `write_check_point`: the return value and what the connection has taken.
`file` is `none` when it cannot be opened, `write n` the result of the `n`-th
write on the connection. -/
def writeCheckPoint (serverId : ℤ) (chkPointNum : UInt64) (file : Option Bytes)
    (write : ℕ → WriteResult) : ℤ × Bytes :=
  match file with
  | none => (-1, [])
  | some bytes =>
    match writeTo [] (chkptHeader serverId chkPointNum bytes.length) (write 0) with
    | (sent, false) => (0, sent)
    | (sent, true) => (0, writeLoop write 1 sent (fileReads bytes.length bytes))

/-! ### The pieces of a message -/

theorem fileReads_flatten (fuel : ℕ) (bytes : Bytes) (h : bytes.length ≤ fuel) :
    (fileReads fuel bytes).flatten = bytes := by
  induction fuel generalizing bytes with
  | zero =>
    have hnil : bytes = [] := List.length_eq_zero_iff.mp (by omega)
    rw [hnil]
    rfl
  | succ fuel ih =>
    cases bytes with
    | nil => rfl
    | cons b bytes =>
      have hpos : 0 < maxLength := by decide
      have hrest : ((b :: bytes).drop maxLength).length ≤ fuel := by
        rw [List.length_drop]
        omega
      rw [fileReads, List.flatten_cons, ih _ hrest, List.take_append_drop]

theorem fileReads_ne_nil (fuel : ℕ) (bytes : Bytes) : ∀ buffer ∈ fileReads fuel bytes, buffer ≠ [] := by
  induction fuel generalizing bytes with
  | zero => cases bytes <;> simp [fileReads]
  | succ fuel ih =>
    cases bytes with
    | nil => simp [fileReads]
    | cons b bytes =>
      have hpos : maxLength ≠ 0 := by decide
      intro buffer hbuffer
      rw [fileReads] at hbuffer
      rcases List.mem_cons.mp hbuffer with rfl | hbuffer
      · simp [hpos]
      · exact ih _ buffer hbuffer

theorem writeLoop_length (write : ℕ → WriteResult) (n : ℕ) (sent : Bytes) (reads : List Bytes) :
    (writeLoop write n sent reads).length ≤ sent.length + reads.flatten.length := by
  induction reads generalizing n sent with
  | nil => simp [writeLoop]
  | cons buffer reads ih =>
    rw [writeLoop, List.flatten_cons, List.length_append]
    cases write n with
    | failed =>
      simp only [writeTo]
      omega
    | wrote count =>
      have hrest := ih (n + 1) (sent ++ buffer.take count)
      have htake := List.length_take_le' count buffer
      simp only [writeTo]
      rw [List.length_append] at hrest
      omega

/-- Every piece is taken whole by the write it is for. -/
def TakenWhole (write : ℕ → WriteResult) : ℕ → List Bytes → Prop
  | _, [] => True
  | n, buffer :: reads =>
    (∃ count, write n = .wrote count ∧ buffer.length ≤ count) ∧ TakenWhole write (n + 1) reads

/-- The connection has everything just when every write takes its piece whole: a
count that is short is never made up for. -/
theorem writeLoop_whole (write : ℕ → WriteResult) (n : ℕ) (sent : Bytes) {reads : List Bytes}
    (hne : ∀ buffer ∈ reads, buffer ≠ []) :
    writeLoop write n sent reads = sent ++ reads.flatten ↔ TakenWhole write n reads := by
  induction reads generalizing n sent with
  | nil => simp [writeLoop, TakenWhole]
  | cons buffer reads ih =>
    have hpos : 0 < buffer.length := List.length_pos_of_ne_nil (hne buffer (List.mem_cons_self ..))
    have hrest := ih (n + 1) (sent ++ buffer) fun b hb => hne b (List.mem_cons_of_mem _ hb)
    rw [writeLoop, TakenWhole, List.flatten_cons]
    cases hw : write n with
    | failed =>
      refine iff_of_false (fun heq => ?_) (by simp)
      have hlen := congrArg List.length heq
      simp only [writeTo, List.length_append] at hlen
      omega
    | wrote count =>
      by_cases hfull : buffer.length ≤ count
      · simp only [writeTo, List.take_of_length_le hfull]
        rw [← List.append_assoc, hrest]
        exact ⟨fun h => ⟨⟨count, rfl, hfull⟩, h⟩, And.right⟩
      · refine iff_of_false (fun heq => ?_) ?_
        · have hlen := congrArg List.length heq
          have hbound := writeLoop_length write (n + 1) (sent ++ buffer.take count) reads
          simp only [writeTo, List.length_append] at hlen
          rw [List.length_append, List.length_take] at hbound
          omega
        · rintro ⟨⟨c, hc, hle⟩, -⟩
          cases hc
          exact hfull hle

/-! ### Whole messages -/

/-- The return value 0 means that the connection has taken the header and the
whole file, and nothing else. -/
def ZeroMeansWhole (serverId : ℤ) (chkPointNum : UInt64) (file : Option Bytes)
    (write : ℕ → WriteResult) : Prop :=
  (writeCheckPoint serverId chkPointNum file write).1 = 0 → ∃ bytes, file = some bytes ∧
    (writeCheckPoint serverId chkPointNum file write).2 = chkptMessage serverId chkPointNum bytes

def chkptPieces (serverId : ℤ) (chkPointNum : UInt64) (bytes : Bytes) : List Bytes :=
  chkptHeader serverId chkPointNum bytes.length :: fileReads bytes.length bytes

theorem chkptPieces_flatten (serverId : ℤ) (chkPointNum : UInt64) (bytes : Bytes) :
    (chkptPieces serverId chkPointNum bytes).flatten = chkptMessage serverId chkPointNum bytes := by
  rw [chkptPieces, List.flatten_cons, fileReads_flatten _ _ le_rfl, chkptMessage]

theorem chkptHeader_ne_nil (serverId : ℤ) (chkPointNum : UInt64) (size : ℕ) :
    chkptHeader serverId chkPointNum size ≠ [] := by
  intro hnil
  have hlen := congrArg List.length hnil
  have hfirst : (ascii "Client ID: ").length = 11 := by decide +kernel
  simp only [chkptHeader, List.length_append, List.length_nil] at hlen
  omega

theorem chkptPieces_ne_nil (serverId : ℤ) (chkPointNum : UInt64) (bytes : Bytes) :
    ∀ piece ∈ chkptPieces serverId chkPointNum bytes, piece ≠ [] := by
  intro piece hpiece
  rcases List.mem_cons.mp hpiece with rfl | hpiece
  · exact chkptHeader_ne_nil _ _ _
  · exact fileReads_ne_nil _ _ piece hpiece

theorem writeCheckPoint_pieces (serverId : ℤ) (chkPointNum : UInt64) (bytes : Bytes)
    (write : ℕ → WriteResult) : writeCheckPoint serverId chkPointNum (some bytes) write =
      (0, writeLoop write 0 [] (chkptPieces serverId chkPointNum bytes)) := by
  rw [writeCheckPoint, chkptPieces, writeLoop]
  cases write 0 with
  | wrote count => simp only [writeTo]
  | failed => simp only [writeTo]

/-- A checkpoint that is reported as written is whole just when every write of it
took all it was given. -/
theorem zero_means_whole_iff (serverId : ℤ) (chkPointNum : UInt64) (file : Option Bytes)
    (write : ℕ → WriteResult) : ZeroMeansWhole serverId chkPointNum file write ↔
      ∀ bytes, file = some bytes → TakenWhole write 0 (chkptPieces serverId chkPointNum bytes) := by
  unfold ZeroMeansWhole
  cases file with
  | none => simp [writeCheckPoint]
  | some bytes =>
    have hwhole := writeLoop_whole write 0 [] (chkptPieces_ne_nil serverId chkPointNum bytes)
    rw [List.nil_append, chkptPieces_flatten] at hwhole
    rw [writeCheckPoint_pieces]
    simp only [forall_true_left, Option.some.injEq, exists_eq_left', forall_eq']
    exact hwhole

/-- The connection takes the header and then fails. -/
theorem failed_write_returns_zero :
    ¬ZeroMeansWhole 0 1 (some (ascii "FILE_END\n")) fun n => if n = 0 then .wrote 1000 else .failed := by
  intro h
  obtain ⟨bytes, hbytes, hsent⟩ := h (by decide +kernel)
  cases hbytes
  exact absurd hsent (by decide +kernel)

end ToDoList
