import ToDoList.Handover

/-!
# What a quiesced server still executes

The NORMAL worker tests the role before it takes a request, so a server that has
just been quiesced may still have one to execute. In active mode there are no
prune passes, and no more than this one request is executed until the role
changes.
-/

namespace ToDoList
open CLib StepRun

section
variable {env : Env} {s t : Threads} {i : ℕ}

structure NoPrune (s : Threads) : Prop where
  flag : s.server.isPrune = false
  pass : s.normal.pruning = false
  backlog : ∀ i ctx, s.conn i = .prune ctx → ctx.isBacklog = false

theorem NoPrune.connMove (h : NoPrune s) (hmode : s.server.repMode ≠ .passiveRep)
    (hm : ConnMove s t i) : NoPrune t := by
  obtain ⟨pc, hconn, -, hpc⟩ := hm.conn
  refine ⟨?_, ?_, fun j ctx hj => ?_⟩
  · cases hflag : t.server.isPrune with
    | false => rfl
    | true =>
      rcases hm.flag hflag with hup | ⟨ctx, hprune, hup⟩
      · rw [h.flag] at hup
        cases hup
      · rw [h.backlog i ctx hprune] at hup
        cases hup
  · rw [hm.normal]
    exact h.pass
  · rw [hconn] at hj
    by_cases heq : j = i
    · subst heq
      rw [Function.update_self] at hj
      rw [hpc ctx hj]
      simp [isPassiveBackup, hmode]
    · rw [Function.update_of_ne heq] at hj
      exact h.backlog j ctx hj

theorem NoPrune.normalMove (h : NoPrune s) (hm : NormalMove s t) : NoPrune t := by
  obtain ⟨hflag, hpass⟩ := hm.unpruned h.flag h.pass
  refine ⟨hflag, hpass, ?_⟩
  rw [hm.conn]
  exact h.backlog

theorem NoPrune.controlMove (h : NoPrune s) (hm : ControlMove s t) : NoPrune t := by
  refine ⟨hm.flag.trans h.flag, ?_, ?_⟩
  · rw [hm.normal]
    exact h.pass
  · rw [hm.conn]
    exact h.backlog

/-- `is_prune` needs a backup, and so passive mode. -/
structure PruneInv (s : Threads) : Prop where
  threads : ThreadsInv s
  noPrune : s.server.repMode ≠ .passiveRep → NoPrune s

theorem threadsStep_pruneInv {e : ThreadEvent} (hinv : PruneInv s) (h : threadsStep env s e = .ok t) :
    PruneInv t := by
  refine ⟨threadsStep_inv hinv.threads h, fun hmode => ?_⟩
  rcases threadsStep_move hinv.threads.ids h with rfl | ⟨i, hm⟩ | hm | hm
  · exact hinv.noPrune hmode
  · rw [hm.mode] at hmode
    exact (hinv.noPrune hmode).connMove hmode hm
  · rw [hm.mode] at hmode
    exact (hinv.noPrune hmode).normalMove hm
  · refine (hinv.noPrune fun hpassive => hmode ?_).controlMove hm
    rw [hm.mode (by rw [hpassive]; simp), hpassive]

theorem pruneInv_init (serverId : ℤ) : PruneInv (initThreads serverId) := by
  refine ⟨threadsInv_init serverId, fun _ => ⟨rfl, rfl, fun i ctx hpc => ?_⟩⟩
  cases hpc

/-! ### Requests dealt with, and one more to come -/

def Threads.dealtWith (s : Threads) : ℕ := (taken s.out).length + s.normal.committed

theorem dealtWith_eq (hmoved : Moved s t) (hn : t.normal = s.normal) : t.dealtWith = s.dealtWith := by
  have hdone : taken t.out = taken s.out := by
    rcases hmoved with heq | hmove
    · exact congrArg Holders.done heq
    · exact hmove.done_eq (by simp only [Threads.holding, hn])
  unfold Threads.dealtWith
  rw [hdone, hn]

/-- A running replica that deals with no more than `n` requests. -/
structure Quieted (n : ℕ) (s : Threads) : Prop where
  inv : PruneInv s
  mode : s.server.repMode = .activeRep
  bound : s.dealtWith ≤ n

theorem threadsStep_quieted {e : ThreadEvent} {n : ℕ} (hq : Quieted n s)
    (hstate : s.server.state = .quiesce) (h : threadsStep env s e = .ok t) : Quieted n t := by
  have hinv := threadsStep_pruneInv hq.inv h
  have hactive := hq.mode
  rcases threadsStep_move hq.inv.threads.ids h with rfl | ⟨i, hm⟩ | hm | hm
  · exact hq
  · exact ⟨hinv, hm.mode.trans hactive, (dealtWith_eq hm.moved hm.normal).trans_le hq.bound⟩
  · have hpass := (hq.inv.noPrune (by rw [hactive]; simp)).pass
    exact ⟨hinv, hm.mode.trans hactive, (hm.quiet hstate hpass).trans hq.bound⟩
  · exact ⟨hinv, (hm.mode (by rw [hactive]; simp)).trans hactive,
      (dealtWith_eq hm.moved hm.normal).trans_le hq.bound⟩

theorem pruneRun_inv {serverId : ℤ} {es : List ThreadEvent}
    (hrun : run (threadsNext env) (initThreads serverId) es = some s) : PruneInv s :=
  run_invariant (C := fun _ _ => True)
    (fun _ _ _ hinv _ hstep => threadsStep_pruneInv hinv (mem_toOption.mp (Option.mem_def.mpr hstep)))
    (pruneInv_init serverId) (allSteps_of_forall (fun _ _ => trivial) _ es) hrun

end

/-- From a reachable state in active mode on, no request is executed while the
state is QUIESCE but the one that the worker was about to take or had taken. -/
theorem quiesced_executes_one (env : Env) (serverId : ℤ) (es es' : List ThreadEvent) (s t : Threads)
    (hrun : run (threadsNext env) (initThreads serverId) es = some s)
    (hmode : s.server.repMode = .activeRep) (hrun' : run (threadsNext env) s es' = some t)
    (hquiet : AllSteps (threadsNext env) (fun u _ => u.server.state = .quiesce) s es') :
    (taken t.out).length ≤ (taken s.out).length + s.normal.committed := by
  have hend : Quieted s.dealtWith t :=
    run_invariant (fun _ _ _ hq hstate hstep =>
        threadsStep_quieted hq hstate (mem_toOption.mp (Option.mem_def.mpr hstep)))
      ⟨pruneRun_inv hrun, hmode, le_rfl⟩ hquiet hrun'
  exact (Nat.le_add_right _ _).trans hend.bound

/-- Two requests are in the log of a running replica, and the worker has tested
its role, when MSG_QUIESCE_START comes. -/
def quiescedLate : List ThreadEvent :=
  deliver 0 4 { msgType := .msgRepMgr,
                repMgrMsg := { repMode := .activeRep, serverState := .activeRunning } } ++
    List.replicate 7 .control ++ deliver 1 5 (addRequest (ascii "buy milk")) ++
    deliver 2 6 (addRequest (ascii "buy tea")) ++ List.replicate 5 .normal ++
    deliver 3 7 { msgType := .msgQuiesceStart }

theorem quiesced_executes_one_quiescedLate :
    ∃ s t, run (threadsNext sevenEnv) (initThreads 0) quiescedLate = some s ∧
      run (threadsNext sevenEnv) s (List.replicate 30 .normal) = some t ∧ s.normal.committed = 1 ∧
      (taken t.out).length ≤ (taken s.out).length + s.normal.committed := by
  have hend : (run (threadsNext sevenEnv) (initThreads 0) quiescedLate).any (fun s =>
      s.server.repMode = .activeRep ∧ s.normal.committed = 1 ∧
        (run (threadsNext sevenEnv) s (List.replicate 30 .normal)).isSome ∧
        AllSteps (threadsNext sevenEnv) (fun u _ => u.server.state = .quiesce) s
          (List.replicate 30 .normal)) = true := by decide +kernel
  obtain ⟨s, hrun, hs⟩ := (Option.any_eq_true _ _).mp hend
  obtain ⟨hmode, hone, hsome, hquiet⟩ := of_decide_eq_true hs
  obtain ⟨t, hrun'⟩ := Option.isSome_iff_exists.mp hsome
  exact ⟨s, t, hrun, hrun', hone,
    quiesced_executes_one sevenEnv 0 quiescedLate _ s t hrun hmode hrun' hquiet⟩

end ToDoList
