import ToDoList.Iface

/-!
# Writing all of a buffer (util.c)

`sock_writen` calls `write` until all bytes are taken: a short count moves the
pointer, an interrupted call is made again and any other error ends it. The
results of the coming calls of `write` are a list; a count larger than what is
offered takes all of it.
-/

namespace ToDoList
open CLib

inductive SendResult where
  | wrote (count : ℕ)
  | eintr
  | error
deriving Repr, DecidableEq

/-- `ret` is `none` as long as a write has not come back. -/
structure Sending where
  ret : Option ℤ
  accepted : Bytes
deriving Repr, DecidableEq

/-- The loop of `sock_writen`; `ptr` counts from the start of `buf`. -/
def writenLoop (buf : Bytes) (n nleft ptr : ℕ) (results : List SendResult) : Except Fault Sending :=
  if nleft = 0 then .ok ⟨some n, []⟩
  else if ptr + nleft ≤ buf.length then
    match results with
    | [] => .ok ⟨none, []⟩
    | .error :: _ => .ok ⟨some (-1), []⟩
    | .eintr :: results => writenLoop buf n nleft ptr results
    | .wrote count :: results =>
      let nwritten := min count nleft
      match writenLoop buf n (nleft - nwritten) (ptr + nwritten) results with
      | .error f => .error f
      | .ok s => .ok { s with accepted := (buf.drop ptr).take nwritten ++ s.accepted }
  else .error .outOfBounds

def sockWriten (results : List SendResult) (buf : Bytes) (n : ℕ) : Except Fault Sending :=
  writenLoop buf n n 0 results

/-! ### The result of the loop -/

/-- The bytes that the writes are ready to take, up to one that fails. -/
def takenBytes : List SendResult → ℕ
  | [] => 0
  | .error :: _ => 0
  | .eintr :: results => takenBytes results
  | .wrote count :: results => count + takenBytes results

theorem writenLoop_eq (buf : Bytes) (n : ℕ) {nleft ptr : ℕ} (h : ptr + nleft ≤ buf.length)
    (results : List SendResult) : writenLoop buf n nleft ptr results = .ok
      { ret := if nleft ≤ takenBytes results then some n
          else if .error ∈ results then some (-1) else none
        accepted := (buf.drop ptr).take (min nleft (takenBytes results)) } := by
  induction results generalizing nleft ptr with
  | nil =>
    rw [writenLoop, if_pos h, takenBytes, Nat.min_zero, List.take_zero]
    by_cases hn : nleft = 0
    · rw [if_pos hn, if_pos (Nat.le_zero.mpr hn)]
    · rw [if_neg hn, if_neg (by omega), if_neg List.not_mem_nil]
  | cons r results ih =>
    rw [writenLoop.eq_def, if_pos h]
    by_cases hn : nleft = 0
    · rw [if_pos hn, hn, if_pos (Nat.zero_le _), Nat.zero_min, List.take_zero]
    · rw [if_neg hn]
      cases r with
      | error =>
        dsimp only
        rw [takenBytes, if_neg (by omega), if_pos (List.mem_cons_self ..), Nat.min_zero, List.take_zero]
      | eintr =>
        dsimp only
        rw [ih h, takenBytes]
        simp
      | wrote count =>
        dsimp only
        rw [ih (by omega)]
        dsimp only
        have hsum : min count nleft + min (nleft - min count nleft) (takenBytes results) =
            min nleft (count + takenBytes results) := by omega
        have hdone : nleft - min count nleft ≤ takenBytes results ↔ nleft ≤ count + takenBytes results := by
          omega
        rw [takenBytes, ← hsum, List.take_add, List.drop_drop]
        simp [hdone]

/-- The writes that the call makes come to an error: it stands before `n` bytes
have been taken. -/
def WriteFails (n : ℕ) (results : List SendResult) : Prop :=
  ∃ before after, results = before ++ .error :: after ∧ .error ∉ before ∧ takenBytes before < n

theorem takenBytes_error {before : List SendResult} (h : .error ∉ before) (after : List SendResult) :
    takenBytes (before ++ .error :: after) = takenBytes before := by
  induction before with
  | nil => rfl
  | cons r before ih =>
    have hrest := ih fun hmem => h (List.mem_cons_of_mem _ hmem)
    cases r with
    | error => exact absurd (List.mem_cons_self ..) h
    | eintr => exact hrest
    | wrote count =>
      rw [List.cons_append, takenBytes, takenBytes, hrest]

theorem writeFails_iff (n : ℕ) (results : List SendResult) :
    WriteFails n results ↔ takenBytes results < n ∧ .error ∈ results := by
  constructor
  · rintro ⟨before, after, rfl, hfirst, hlt⟩
    rw [takenBytes_error hfirst]
    exact ⟨hlt, by simp⟩
  · rintro ⟨hlt, hmem⟩
    obtain ⟨before, after, rfl, hfirst⟩ := List.eq_append_cons_of_mem hmem
    rw [takenBytes_error hfirst] at hlt
    exact ⟨before, after, rfl, hfirst, hlt⟩

/-- `sock_writen` returns `n` just when everything has been taken, and `-1` just when
a write has failed; what has been taken is the beginning of the buffer, as much of
it as the writes have taken together. -/
theorem sockWriten_complete {buf : Bytes} {n : ℕ} (h : n ≤ buf.length) (results : List SendResult) :
    ∃ s, sockWriten results buf n = .ok s ∧ (s.ret = some (n : ℤ) ↔ s.accepted = buf.take n) ∧
      (s.ret = some (-1) ↔ WriteFails n results) ∧
      s.accepted <+: buf.take n ∧ s.accepted.length = min n (takenBytes results) := by
  have hroom : 0 + n ≤ buf.length := by omega
  have hloop := writenLoop_eq buf n hroom results
  have hlen : (buf.take (min n (takenBytes results))).length = min n (takenBytes results) := by
    rw [List.length_take]
    omega
  refine ⟨_, hloop, ?_, ?_, ?_, ?_⟩
  · dsimp only
    rw [List.drop_zero]
    by_cases hdone : n ≤ takenBytes results
    · rw [if_pos hdone, Nat.min_eq_left hdone]
      exact iff_of_true rfl rfl
    · refine iff_of_false (fun hret => ?_) fun hall => ?_
      · rw [if_neg hdone] at hret
        split at hret
        · have hneg := Option.some.inj hret
          omega
        · cases hret
      · have hwhole := congrArg List.length hall
        rw [hlen, List.length_take] at hwhole
        omega
  · dsimp only
    rw [writeFails_iff]
    by_cases hdone : n ≤ takenBytes results
    · rw [if_pos hdone]
      refine iff_of_false (fun hret => ?_) fun hfails => absurd hfails.1 (Nat.not_lt.mpr hdone)
      have hneg := Option.some.inj hret
      omega
    · rw [if_neg hdone]
      by_cases hmem : .error ∈ results
      · rw [if_pos hmem]
        exact iff_of_true rfl ⟨Nat.lt_of_not_le hdone, hmem⟩
      · rw [if_neg hmem]
        exact iff_of_false (fun hret => by cases hret) fun hfails => hmem hfails.2
  · dsimp only
    rw [List.drop_zero]
    exact List.take_prefix_take_left (Nat.min_le_left ..)
  · dsimp only
    rw [List.drop_zero, hlen]

theorem sockWriten_complete_three : ∃ s,
    sockWriten [.wrote 2, .eintr, .wrote 1, .error, .wrote 9] (ascii "Status") 6 = .ok s ∧
      s.ret = some (-1) ∧ s.accepted <+: ascii "Status" := by
  have hroom : 6 ≤ (ascii "Status").length := by simp [ascii]
  obtain ⟨s, hrun, -, hfailed, hpre, -⟩ :=
    sockWriten_complete hroom [.wrote 2, .eintr, .wrote 1, .error, .wrote 9]
  have hfails : WriteFails 6 [.wrote 2, .eintr, .wrote 1, .error, .wrote 9] :=
    (writeFails_iff 6 _).mpr (by decide)
  exact ⟨s, hrun, hfailed.mpr hfails, hpre⟩

end ToDoList
