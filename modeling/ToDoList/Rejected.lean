import ToDoList.Prune
import ToDoList.Backlog
import ToDoList.CLib.Fifo

/-!
# Requests that find the log full

`enqueue_client_req` raises the prune flag for a checkpoint before `enqueue` has
looked at the limit. When the log is full the flag stays up although there is no
checkpoint in the log, and the NORMAL worker throws away what is.
-/

namespace ToDoList
open CLib

/-- The logs of a server are bounded queues. -/
theorem enqueue_eq_act (limit : ℕ) (log : List ClientCtx) (node : ClientCtx) :
    enqueue limit log node = (if (Fifo.act limit (.push node) log).2 = .full then -1 else 0,
      (Fifo.act limit (.push node) log).1) := by
  unfold enqueue
  simp only [Fifo.act]
  by_cases hfull : limit ≤ log.length <;> simp [hfull]

/-- Logs, flag and role are the same in both states. -/
structure Undisturbed (s t : Server) : Prop where
  nrl : t.nrl = s.nrl
  ctrl : t.ctrl = s.ctrl
  isPrune : t.isPrune = s.isPrune
  repMode : t.repMode = s.repMode
  state : t.state = s.state

def RejectedUndisturbed (s : Server) (ctx : ClientCtx) : Prop :=
  (enqueueClientReq s ctx).1 ≠ 0 → Undisturbed s (enqueueClientReq s ctx).2

/-- A checkpoint for a passive backup whose NORMAL log is full and whose prune
flag is down. -/
def FlagsForNothing (s : Server) (ctx : ClientCtx) : Prop :=
  ctx.req.msgType = .msgChkPt ∧ isPassiveBackup s = true ∧ s.nrlQLimit ≤ s.nrl.length ∧ s.isPrune = false

theorem hasRoom_chkPt (s : Server) : hasRoom s .msgChkPt = decide (s.nrl.length < s.nrlQLimit) := rfl

theorem pruneAfter_eq_iff (s : Server) (type : MsgType) :
    pruneAfter s type = s.isPrune ↔ ¬(type = .msgChkPt ∧ isPassiveBackup s = true ∧ s.isPrune = false) := by
  unfold pruneAfter
  cases s.isPrune <;> cases isPassiveBackup s <;> simp

theorem enqueueClientReq_flags {s : Server} {ctx : ClientCtx} (h : FlagsForNothing s ctx) :
    enqueueClientReq s ctx = (-1, { s with isPrune := true }) := by
  obtain ⟨htype, hback, hfull, -⟩ := h
  have hroom : hasRoom s ctx.req.msgType = false := by
    rw [htype, hasRoom_chkPt, decide_eq_false_iff_not]
    omega
  have hflag : pruneAfter s ctx.req.msgType = true := by simp [pruneAfter, htype, hback]
  rcases enqueueClientReq_cases s ctx with ⟨-, he⟩ | ⟨hyes, -⟩ | ⟨hyes, -⟩
  · rw [he, hflag]
  · rw [hroom] at hyes
    cases hyes
  · rw [hroom] at hyes
    cases hyes

theorem disturbed_of_flags {s : Server} {ctx : ClientCtx} (h : FlagsForNothing s ctx) :
    ¬RejectedUndisturbed s ctx := by
  have he := enqueueClientReq_flags h
  intro hsame
  unfold RejectedUndisturbed at hsame
  rw [he] at hsame
  have hup : true = s.isPrune := (hsame (show (-1 : ℤ) ≠ 0 by decide)).isPrune
  rw [h.2.2.2] at hup
  cases hup

/-- A rejected request changes nothing, except for a checkpoint that raises the
flag for nothing. -/
theorem rejected_undisturbed_iff (s : Server) (ctx : ClientCtx) :
    RejectedUndisturbed s ctx ↔ ¬FlagsForNothing s ctx := by
  constructor
  · intro h hflags
    exact disturbed_of_flags hflags h
  · intro h
    unfold RejectedUndisturbed
    rcases enqueueClientReq_cases s ctx with ⟨hroom, he⟩ | ⟨-, -, he⟩ | ⟨-, -, he⟩
    · rw [he]
      intro _
      refine ⟨rfl, rfl, (pruneAfter_eq_iff s ctx.req.msgType).mpr ?_, rfl, rfl⟩
      rintro ⟨htype, hback, hdown⟩
      rw [htype, hasRoom_chkPt, decide_eq_false_iff_not] at hroom
      exact h ⟨htype, hback, Nat.le_of_not_lt hroom, hdown⟩
    · rw [he]
      exact fun hno => absurd rfl hno
    · rw [he]
      exact fun hno => absurd rfl hno

def fullBackup : List ServerEvent :=
  .connection 1 { fd := 4, req := backupCommand } :: .control ::
    List.replicate 50 (.connection 1 { fd := 5, req := removeRequest 7 })

theorem rejected_checkpoint_flags :
    ∃ s, StepRun.run (serverNext (zeroEnv fun _ => some 1)) (bootServer 1) fullBackup = some s ∧
      ¬RejectedUndisturbed s { fd := 6, req := checkpointRequest 0 (ascii "FILE_END\n") } := by
  have hend : (StepRun.run (serverNext (zeroEnv fun _ => some 1)) (bootServer 1) fullBackup).any
      (fun s => isPassiveBackup s = true ∧ s.nrlQLimit ≤ s.nrl.length ∧ s.isPrune = false) = true := by
    decide +kernel
  obtain ⟨s, hrun, hs⟩ := (Option.any_eq_true _ _).mp hend
  obtain ⟨hback, hfull, hdown⟩ := of_decide_eq_true hs
  exact ⟨s, hrun, disturbed_of_flags ⟨rfl, hback, hfull, hdown⟩⟩

/-! ### What the flag does to the log -/

/-- Before such a checkpoint the worker leaves the log alone; behind it the worker
takes the whole log and executes the checkpoints in it only. -/
theorem flagged_log_lost {env : Env} {s : Server} {ctx : ClientCtx} (h : FlagsForNothing s ctx) :
    runNormal env s = .ok (s, []) ∧ ∀ t effs, runNormal env (enqueueClientReq s ctx).2 = .ok (t, effs) →
      taken effs = s.nrl.map fun c => (c, decide (c.req.msgType = .msgChkPt)) := by
  have he := enqueueClientReq_flags h
  obtain ⟨-, hback, -, hdown⟩ := h
  constructor
  · have hturn : normalTurn env s = .ok (s, []) := by
      unfold normalTurn
      rw [if_pos ⟨hdown, hback⟩]
    unfold runNormal
    rw [hdown, if_neg (by decide)]
    dsimp only
    rw [hturn]
    rfl
  · intro t effs hrun
    rw [he] at hrun
    rcases runNormal_taken hrun with ⟨-, htaken⟩ | ⟨hno, -⟩
    · exact htaken
    · cases hno

end ToDoList
