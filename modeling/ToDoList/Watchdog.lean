import ToDoList.Startups
import Mathlib.Data.Fintype.Card

/-!
# The lock of the manager and the membership count

The calls of `handle_state` and the rounds of `gfd_hbt` share one lock. One
exit of `handle_state` keeps it, and then neither a call nor a round ever gets
it again. `num_servers` follows `server_status` in the calls, but a round that
misses a heartbeat changes the one without the other.
-/

namespace ToDoList
open StepRun

variable {net : ℕ → Bool}

/-! ### The rounds of gfd_hbt -/

def checkHeartbeat (m : Manager) (i : Replica) : Manager :=
  { m with
    serverStatus :=
      if (m.node i).lastHeartbeat = 0 then Function.update m.serverStatus i false else m.serverStatus
    node := Function.update m.node i { m.node i with lastHeartbeat := 0 } }

/-- A round from the lock to the unlock. More than MAX_REPLICAS configured
replicas lead behind the array of nodes. -/
def gfdHbt (numReplicas : ℤ) (m : Manager) : Except Fault Manager :=
  if m.locked then .error .noReturn
  else if 3 < numReplicas then .error .outOfBounds
  else .ok (((List.finRange 3).take numReplicas.toNat).foldl checkHeartbeat m)

def initGfdHbt (numReplicas : ℤ) (now : ℕ) (m : Manager) : Manager :=
  { m with node := fun i =>
      if (i : ℤ) < numReplicas then { m.node i with lastHeartbeat := now } else m.node i }

inductive WatchEvent where
  | call (e : ManagerEvent)
  | round

def watchStep (numReplicas : ℤ) (m : Manager) : WatchEvent → Option Manager
  | .call e => managerStep m e
  | .round => (gfdHbt numReplicas m).toOption

def startedManager (numReplicas : ℤ) (now : ℕ) (mode : ManagerMode) (freq : ℤ)
    (server : Replica → ServerInfo) : Manager :=
  initGfdHbt numReplicas now (initManager mode freq server)

/-! ### The exits of handle_state -/

/-- The call that does not come back with the lock free: a replica that needs a
checkpoint is up again in passive mode, and the order to send it one, the second
attempt of the call, does not get through; without a primary the order goes to
`node[-1]`. -/
def Stuck (net : ℕ → Bool) (m : Manager) (report : Report) : Prop :=
  m.mode = .passive ∧ report.state = .running ∧ (m.node report.replicaId).state = .faulted ∧
    m.needsCheckpoint report.replicaId = true ∧ (m.primaryReplicaId = none ∨ net 1 = false)

instance decidableStuck (net : ℕ → Bool) (m : Manager) (report : Report) :
    Decidable (Stuck net m report) :=
  inferInstanceAs (Decidable (_ ∧ _ ∧ _ ∧ _ ∧ (_ ∨ _)))

/-- RUNNING and FAULTED are stored; a FAULTED report of a replica that is being
started is ignored on purpose, and so is any other state. -/
def Updated (m m' : Manager) (report : Report) : Prop :=
  match report.state with
  | .running => (m'.node report.replicaId).state = .running
  | .faulted => (m.node report.replicaId).state = .sentStartupReq ∨
      (m'.node report.replicaId).state = .faulted
  | _ => True

/-- The call returns, with the lock free and the report stored. -/
def Answers (net : ℕ → Bool) (m : Manager) (report : Report) : Prop :=
  ∃ ret m' sent, handleState net m report = .ok (ret, m', sent) ∧ m'.locked = false ∧
    Updated m m' report

theorem passiveUp_returns (net : ℕ → Bool) {t : Turn} (r : Replica) (ht : t.sent = []) :
    (∃ u, passiveUp net t r = .ok (u, true)) ↔
      ¬(t.mgr.needsCheckpoint r = true ∧ (t.mgr.primaryReplicaId = none ∨ net 1 = false)) := by
  have hlen : (assignRole net t r).sent.length = 1 := by rw [assignRole_sent ht]; rfl
  unfold passiveUp
  dsimp only
  rw [assignRole_mgr]
  cases hneeds : t.mgr.needsCheckpoint r with
  | false => simp
  | true =>
    cases hp : t.mgr.primaryReplicaId with
    | none => simp
    | some p =>
      cases hnet : net 1 with
      | false => simp [instructPrimaryToSendChkpt, send, hlen, hnet]
      | true => simp [instructPrimaryToSendChkpt, send, hlen, hnet]

theorem handleReport_returns (net : ℕ → Bool) {t : Turn} (report : Report) (ht : t.sent = []) :
    (∃ u, handleReport net t report = .ok (u, true)) ↔ ¬Stuck net t.mgr report := by
  unfold handleReport Stuck
  dsimp only
  cases hrep : report.state with
  | running =>
    dsimp only
    by_cases hfaulted : (t.mgr.node report.replicaId).state = .faulted
    · rw [if_pos hfaulted]
      cases hm : t.mgr.mode with
      | passive =>
        dsimp only
        have hiff := passiveUp_returns net report.replicaId ht
        simp only [hfaulted, true_and]
        rw [← hiff]
        cases hup : passiveUp net t report.replicaId with
        | error f => simp
        | ok ub =>
          obtain ⟨u, b⟩ := ub
          cases b with
          | false => simp
          | true => simp
      | active => simp
    · rw [if_neg hfaulted]
      simp [hfaulted]
  | faulted =>
    obtain ⟨u, hu⟩ := handleReport_faulted net t hrep
    unfold handleReport at hu
    rw [hrep] at hu
    simp only [reduceCtorEq, false_and, and_false, not_false_iff, iff_true]
    exact ⟨u, hu⟩
  | sentStartupReq | other n => simp

theorem setTurnState_state (t : Turn) (r : Replica) (state : ReplicaState) :
    ((setTurnState t r state).mgr.node r).state = state := by
  unfold setTurnState setNodeState
  dsimp only
  rw [Function.update_self]

theorem handleReport_updated {t u : Turn} {report : Report}
    (h : handleReport net t report = .ok (u, true)) : Updated t.mgr u.mgr report := by
  unfold handleReport at h
  unfold Updated
  dsimp only at h
  cases hrep : report.state with
  | running =>
    rw [hrep] at h
    dsimp only at h ⊢
    split at h
    · split at h
      · split at h
        · cases h
        · cases h
          exact setTurnState_state ..
        · cases h
      · cases h
        exact setTurnState_state ..
    · cases h
      exact setTurnState_state ..
  | faulted =>
    rw [hrep] at h
    dsimp only at h ⊢
    split at h
    · split at h
      · cases h
        exact Or.inr (setTurnState_state ..)
      · cases h
        exact Or.inr (setTurnState_state ..)
    · rename_i hsent
      exact Or.inl (not_not.mp hsent)
  | sentStartupReq | other n => trivial

theorem printCurrentStateInfo_node (m : Manager) (report : Report) :
    (printCurrentStateInfo m report).node = m.node := by
  unfold printCurrentStateInfo
  dsimp only
  split
  · rfl
  · split
    · rfl
    · rfl

theorem printCurrentStateInfo_freq (m : Manager) (report : Report) :
    (printCurrentStateInfo m report).checkpointFreq = m.checkpointFreq := by
  unfold printCurrentStateInfo
  dsimp only
  split
  · rfl
  · split
    · rfl
    · rfl

theorem stuck_entered (m : Manager) (report : Report) :
    Stuck net (entered m report) report ↔ Stuck net m report := by
  unfold Stuck
  rw [entered_state]
  rfl

theorem updated_entered {m m' : Manager} {report : Report} (h : Updated (entered m report) m' report) :
    Updated m m' report := by
  unfold Updated at h ⊢
  rw [entered_state] at h
  exact h

theorem handleReport_locked {t u : Turn} {report : Report} {b : Bool}
    (h : handleReport net t report = .ok (u, b)) (ht : t.sent = []) :
    b = false ↔ Stuck net t.mgr report := by
  have hiff := handleReport_returns net report ht
  cases b with
  | false =>
    simp only [true_iff]
    by_contra hfree
    obtain ⟨v, hv⟩ := hiff.mpr hfree
    rw [h] at hv
    cases hv
  | true =>
    simp only [Bool.true_eq_false, false_iff]
    exact hiff.mp ⟨u, h⟩

theorem handleReport_early {t u : Turn} {report : Report} (ht : t.sent = [])
    (h : handleReport net t report = .ok (u, false)) : u.mgr = t.mgr := by
  have hstuck := (handleReport_locked h ht).mp rfl
  have hstate : (t.mgr.node report.replicaId).state ≠ .sentStartupReq := by
    rw [hstuck.2.2.1]
    simp
  rcases (handleReport_spec ht hstate h).2 with ⟨hb, -⟩ | ⟨-, hmgr, -⟩
  · cases hb
  · exact hmgr

theorem handleState_locked_iff {m m' : Manager} {report : Report} {ret : ℤ} {sent : List Sent}
    (h : handleState net m report = .ok (ret, m', sent)) :
    m'.locked = true ↔ Stuck net m report := by
  rw [handleState_entered net m report (handleState_free h)] at h
  rw [← stuck_entered]
  split at h
  · cases h
  · rename_i u hu
    cases h
    rw [handleReport_early rfl hu]
    exact ⟨fun _ => (handleReport_locked hu rfl).mp rfl, fun _ => rfl⟩
  · rename_i u hu
    cases h
    have hfree : ¬Stuck net (entered m report) report :=
      (handleReport_returns net report rfl).mp ⟨u, hu⟩
    exact ⟨fun hlocked => (by cases hlocked), fun hstuck => absurd hstuck hfree⟩

/-- Every call but the one that gives up on the checkpoint comes back. -/
theorem answers_iff {m : Manager} (hfree : m.locked = false) (report : Report) :
    Answers net m report ↔ ¬Stuck net m report := by
  constructor
  · rintro ⟨ret, m', sent, hcall, hlocked, -⟩ hstuck
    rw [(handleState_locked_iff hcall).mpr hstuck] at hlocked
    cases hlocked
  · intro hstuck
    rw [← stuck_entered] at hstuck
    obtain ⟨u, hu⟩ := (handleReport_returns net (t := { mgr := entered m report }) report rfl).mpr hstuck
    unfold Answers
    rw [handleState_entered net m report hfree, hu]
    refine ⟨_, _, _, rfl, rfl, updated_entered ?_⟩
    have hupdated := handleReport_updated hu
    unfold Updated at hupdated ⊢
    dsimp only
    rw [printCurrentStateInfo_node]
    exact hupdated

/-- The roles move with every call but the one that gives up. -/
theorem handleState_roles {m m' : Manager} {report : Report} {ret : ℤ} {sent : List Sent}
    (hm : m.roles.Plain) (h : handleState net m report = .ok (ret, m', sent)) :
    (¬Stuck net m report ∧ m'.roles = m.roles.next report.replicaId report.state) ∨
      (Stuck net m report ∧ m'.roles = m.roles) := by
  rw [← handleState_locked_iff h]
  rcases (handleState_spec h (hm.ne_sent _)).2 with ⟨hfree, hroles⟩ | ⟨hlocked, hroles, -⟩
  · exact Or.inl ⟨by simp [hfree], hroles⟩
  · exact Or.inr ⟨hlocked, hroles⟩

theorem foldl_checkHeartbeat_locked (l : List Replica) (m : Manager) :
    (l.foldl checkHeartbeat m).locked = m.locked := by
  induction l generalizing m with
  | nil => rfl
  | cons i l ih =>
    rw [List.foldl_cons, ih]
    rfl

theorem gfdHbt_eq {numReplicas : ℤ} {m m' : Manager} (h : gfdHbt numReplicas m = .ok m') :
    m.locked = false ∧ numReplicas ≤ 3 ∧
      m' = ((List.finRange 3).take numReplicas.toNat).foldl checkHeartbeat m := by
  unfold gfdHbt at h
  split at h
  · cases h
  · rename_i hfree
    split at h
    · cases h
    · rename_i hnum
      cases h
      exact ⟨by simpa using hfree, by omega, rfl⟩

/-- A call of the run does not give up on a checkpoint. -/
def Unstuck (m : Manager) : WatchEvent → Prop
  | .call e => ¬Stuck e.net m e.report
  | .round => True

instance decidableUnstuck (m : Manager) : ∀ e, Decidable (Unstuck m e)
  | .call e => inferInstanceAs (Decidable (¬Stuck e.net m e.report))
  | .round => isTrue trivial

theorem watchStep_locked {numReplicas : ℤ} {m m' : Manager} {e : WatchEvent} (he : Unstuck m e)
    (h : watchStep numReplicas m e = some m') : m'.locked = false := by
  cases e with
  | call e =>
    obtain ⟨ret, sent, hcall⟩ := managerStep_cases h
    have hlocked : ¬m'.locked = true := fun hyes => he ((handleState_locked_iff hcall).mp hyes)
    simpa using hlocked
  | round =>
    obtain ⟨hfree, -, rfl⟩ := gfdHbt_eq (mem_toOption.mp h)
    rw [foldl_checkHeartbeat_locked]
    exact hfree

/-- A call comes back with the lock free and the report stored exactly when it
does not give up on a checkpoint; and as long as no call does, every call and
every round of the run finds the lock free. -/
theorem lock_comes_back_iff (m : Manager) (hfree : m.locked = false) :
    (∀ net report, Answers net m report ↔ ¬Stuck net m report) ∧
      ∀ numReplicas es, AllSteps (watchStep numReplicas) Unstuck m es →
        Always (watchStep numReplicas) (fun m => m.locked = false) m es := by
  refine ⟨fun net report => answers_iff hfree report, fun numReplicas es h => ?_⟩
  induction es generalizing m with
  | nil => exact always_nil.mpr hfree
  | cons e es ih =>
    refine always_cons.mpr ⟨hfree, fun t ht => ?_⟩
    exact ih t (watchStep_locked h.1 ht) (h.2 t ht)

/-- The backup crashes and comes back while the factory of the primary is out of reach. -/
def backupDown : List WatchEvent :=
  [.call (downReport 0), .call (upReport 0), .call (downReport 1)]

def backupUp (reached : Bool) : ManagerEvent :=
  ⟨⟨1, .running, .unknownState⟩, fun n => n == 0 || reached⟩

theorem lock_comes_back_backup :
    (startedManager 3 1 .passive 10 plainServers).locked = false ∧
      AllSteps (watchStep 3) Unstuck (startedManager 3 1 .passive 10 plainServers)
        (backupDown ++ [.call (backupUp true), .round]) ∧
      Always (watchStep 3) (fun m => m.locked = false) (startedManager 3 1 .passive 10 plainServers)
        (backupDown ++ [.call (backupUp true), .round]) := by
  have hsteps : AllSteps (watchStep 3) Unstuck (startedManager 3 1 .passive 10 plainServers)
      (backupDown ++ [.call (backupUp true), .round]) := by decide +kernel
  exact ⟨rfl, hsteps, (lock_comes_back_iff _ rfl).2 3 _ hsteps⟩

/-- The call that fails keeps the lock, and the next round waits for good. -/
theorem checkpoint_failure_keeps_lock :
    (¬∀ (net : ℕ → Bool) (m : Manager) (report : Report), m.locked = false → Answers net m report) ∧
      ¬∀ (numReplicas : ℤ) (now : ℕ) (mode : ManagerMode) (freq : ℤ) (server : Replica → ServerInfo)
        (es : List WatchEvent), Always (watchStep numReplicas) (fun m => m.locked = false)
          (startedManager numReplicas now mode freq server) es := by
  constructor
  · intro h
    have hrun : (run (watchStep 3) (startedManager 3 1 .passive 10 plainServers) backupDown).any
        (fun m => decide (m.locked = false ∧ Stuck (backupUp false).net m (backupUp false).report)) =
          true := by decide +kernel
    obtain ⟨m, -, hm⟩ := (Option.any_eq_true _ _).mp hrun
    obtain ⟨hfree, hstuck⟩ := of_decide_eq_true hm
    exact (answers_iff hfree _).mp (h (backupUp false).net m _ hfree) hstuck
  · intro h
    have hrun := h 3 1 .passive 10 plainServers (backupDown ++ [.call (backupUp false), .round])
    revert hrun
    decide +kernel

/-! ### The membership count -/

def members (status : Replica → Bool) : Finset Replica := Finset.univ.filter fun i => status i = true

theorem mem_members {status : Replica → Bool} {i : Replica} : i ∈ members status ↔ status i = true := by
  simp [members]

theorem members_card_le (status : Replica → Bool) : (members status).card ≤ 3 :=
  Finset.card_le_univ (members status)

theorem members_join (status : Replica → Bool) (r : Replica) :
    members (Function.update status r true) = insert r (members status) := by
  ext i
  by_cases hi : i = r
  · subst hi
    simp [members]
  · simp [members, hi]

theorem members_leave (status : Replica → Bool) (r : Replica) :
    members (Function.update status r false) = (members status).erase r := by
  ext i
  by_cases hi : i = r
  · subst hi
    simp [members]
  · simp [members, hi]

/-- `num_servers` is the number of replicas whose status is 1, and so lies
between 0 and MAX_REPLICAS. -/
def CountExact (m : Manager) : Prop :=
  m.numServers = (members m.serverStatus).card ∧ 0 ≤ m.numServers ∧ m.numServers ≤ 3

instance decidableCountExact : DecidablePred CountExact :=
  fun _ => inferInstanceAs (Decidable (_ ∧ _ ∧ _))

theorem countExact_iff {m : Manager} :
    CountExact m ↔ m.numServers = (members m.serverStatus).card := by
  have hcard := members_card_le m.serverStatus
  unfold CountExact
  omega

structure SameMembers (m m' : Manager) : Prop where
  status : m'.serverStatus = m.serverStatus
  count : m'.numServers = m.numServers

theorem SameMembers.exact {m m' : Manager} (h : SameMembers m m') : CountExact m' ↔ CountExact m := by
  unfold CountExact
  rw [h.status, h.count]

theorem sameMembers_restart (net : ℕ → Bool) (t : Turn) (r : Replica) :
    SameMembers t.mgr (restartServer net t r).mgr := by
  unfold restartServer
  dsimp only
  split
  · exact ⟨rfl, rfl⟩
  · exact ⟨rfl, rfl⟩

theorem sameMembers_passiveDown (net : ℕ → Bool) (t : Turn) (r : Replica) :
    SameMembers t.mgr (passiveDown net t r).mgr := by
  have hrestart := sameMembers_restart net t r
  unfold passiveDown
  dsimp only
  split
  · exact ⟨hrestart.status, hrestart.count⟩
  · split
    · refine ⟨?_, ?_⟩
      · show (moveOn net (restartServer net t r) r).mgr.serverStatus = _
        rw [moveOn_mgr]
        exact hrestart.status
      · show (moveOn net (restartServer net t r) r).mgr.numServers = _
        rw [moveOn_mgr]
        exact hrestart.count
    · exact ⟨hrestart.status, hrestart.count⟩

theorem sameMembers_activeDown (net : ℕ → Bool) (t : Turn) (r : Replica) :
    SameMembers t.mgr (activeDown net t r).mgr := by
  have hrestart := sameMembers_restart net t r
  unfold activeDown
  dsimp only
  split
  · rw [moveOn_mgr]
    exact ⟨hrestart.status, hrestart.count⟩
  · exact hrestart

theorem sameMembers_activeUp (net : ℕ → Bool) (t : Turn) (r : Replica) (state : ReplicaState) :
    SameMembers t.mgr (activeUp net t r state).mgr := by
  unfold activeUp
  cases t.mgr.primaryReplicaId with
  | none =>
    dsimp only
    rw [noted_mgr, sendChangeStatusToServer_mgr]
    exact ⟨rfl, rfl⟩
  | some p =>
    simp only [noted_mgr, sendChangeStatusToServer_mgr, stopQuiesceAll, quiesceAll, toRunning_mgr,
      instructPrimaryToSendChkpt, send_mgr]
    exact ⟨rfl, rfl⟩

theorem sameMembers_handleReport {t u : Turn} {report : Report} {b : Bool}
    (h : handleReport net t report = .ok (u, b)) : SameMembers t.mgr u.mgr := by
  unfold handleReport at h
  dsimp only at h
  split at h
  · split at h
    · split at h
      · split at h
        · cases h
        · rename_i v hv
          cases h
          rw [← passiveUp_mgr hv]
          exact ⟨rfl, rfl⟩
        · rename_i v hv
          cases h
          rw [← passiveUp_mgr hv]
          exact ⟨rfl, rfl⟩
      · cases h
        have hup := sameMembers_activeUp net t report.replicaId .running
        exact ⟨hup.status, hup.count⟩
    · cases h
      exact ⟨rfl, rfl⟩
  · split at h
    · split at h
      · cases h
        have hdown := sameMembers_passiveDown net t report.replicaId
        exact ⟨hdown.status, hdown.count⟩
      · cases h
        have hdown := sameMembers_activeDown net t report.replicaId
        exact ⟨hdown.status, hdown.count⟩
    · cases h
      exact ⟨rfl, rfl⟩
  · cases h
    exact ⟨rfl, rfl⟩

theorem printCurrentStateInfo_exact {m : Manager} (report : Report) (h : CountExact m) :
    CountExact (printCurrentStateInfo m report) := by
  have hcount := countExact_iff.mp h
  rw [countExact_iff]
  unfold printCurrentStateInfo
  dsimp only
  split
  · rename_i hup
    have hnew : report.replicaId ∉ members m.serverStatus := by simp [mem_members, hup.1]
    -- one member more is still at most MAX_REPLICAS, so the cap has no effect
    have hcard := members_card_le (Function.update m.serverStatus report.replicaId true)
    dsimp only
    rw [members_join, Finset.card_insert_of_notMem hnew] at hcard ⊢
    rw [if_neg (by omega), hcount]
    rfl
  · split
    · rename_i hdown
      have hmem : report.replicaId ∈ members m.serverStatus := mem_members.mpr hdown.1
      have hpos := Finset.card_pos.mpr ⟨_, hmem⟩
      dsimp only
      rw [members_leave, Finset.card_erase_of_mem hmem, hcount]
      omega
    · exact hcount

theorem handleState_exact {m m' : Manager} {report : Report} {ret : ℤ} {sent : List Sent}
    (hm : CountExact m) (h : handleState net m report = .ok (ret, m', sent)) : CountExact m' := by
  have hentered : CountExact (entered m report) := hm
  rw [handleState_entered net m report (handleState_free h)] at h
  split at h
  · cases h
  · rename_i u hu
    cases h
    exact (sameMembers_handleReport hu).exact.mpr hentered
  · rename_i u hu
    cases h
    exact printCurrentStateInfo_exact report ((sameMembers_handleReport hu).exact.mpr hentered)

/-! ### A round and the count -/

theorem checkHeartbeat_status (m : Manager) (i j : Replica) :
    (checkHeartbeat m i).serverStatus j =
      if j = i ∧ (m.node i).lastHeartbeat = 0 then false else m.serverStatus j := by
  unfold checkHeartbeat
  dsimp only
  by_cases hj : j = i
  · subst hj
    split
    · simp [*]
    · simp [*]
  · split
    · simp [hj]
    · simp [hj]

theorem checkHeartbeat_other (m : Manager) {i j : Replica} (h : j ≠ i) :
    (checkHeartbeat m i).node j = m.node j := Function.update_of_ne h ..

theorem foldl_checkHeartbeat_status {l : List Replica} (hl : l.Nodup) (m : Manager) (j : Replica) :
    (l.foldl checkHeartbeat m).serverStatus j =
      if j ∈ l ∧ (m.node j).lastHeartbeat = 0 then false else m.serverStatus j := by
  induction l generalizing m with
  | nil => simp
  | cons i l ih =>
    obtain ⟨hi, hl⟩ := List.nodup_cons.mp hl
    rw [List.foldl_cons, ih hl, checkHeartbeat_status]
    by_cases hj : j = i
    · subst hj
      simp [hi]
    · rw [checkHeartbeat_other m hj]
      simp [hj]

theorem foldl_checkHeartbeat_count (l : List Replica) (m : Manager) :
    (l.foldl checkHeartbeat m).numServers = m.numServers := by
  induction l generalizing m with
  | nil => rfl
  | cons i l ih =>
    rw [List.foldl_cons, ih]
    rfl

theorem mem_watched {numReplicas : ℤ} {i : Replica} :
    i ∈ (List.finRange 3).take numReplicas.toNat ↔ (i : ℤ) < numReplicas := by
  rw [List.mem_take_iff_getElem]
  constructor
  · rintro ⟨k, hk, rfl⟩
    rw [List.getElem_finRange]
    simp only [List.length_finRange] at hk
    simp only [Fin.val_cast]
    omega
  · intro hi
    have hlt := i.isLt
    refine ⟨i, ?_, ?_⟩
    · simp only [List.length_finRange]
      omega
    · rw [List.getElem_finRange]
      rfl

/-- The round finds no member without a heartbeat since the round before. -/
def BeatsHeard (numReplicas : ℤ) (m : Manager) : WatchEvent → Prop
  | .call _ => True
  | .round => m.locked = false → numReplicas ≤ 3 → ∀ i : Replica, (i : ℤ) < numReplicas →
      (m.node i).lastHeartbeat = 0 → m.serverStatus i = false

theorem gfdHbt_exact_iff {numReplicas : ℤ} {m m' : Manager} (hm : CountExact m)
    (h : gfdHbt numReplicas m = .ok m') : CountExact m' ↔ BeatsHeard numReplicas m .round := by
  obtain ⟨hfree, hnum, rfl⟩ := gfdHbt_eq h
  have hstatus := foldl_checkHeartbeat_status
    ((List.nodup_finRange 3).sublist (List.take_sublist numReplicas.toNat _)) m
  simp only [mem_watched] at hstatus
  rw [countExact_iff] at hm ⊢
  rw [foldl_checkHeartbeat_count, hm]
  constructor
  · intro hcard _ _ i hi hbeat
    by_contra hmember
    have hlost : i ∈ members m.serverStatus := mem_members.mpr (by simpa using hmember)
    have hsub : members (((List.finRange 3).take numReplicas.toNat).foldl checkHeartbeat m).serverStatus ⊆
        members m.serverStatus := by
      intro j hj
      rw [mem_members, hstatus] at hj
      split at hj
      · cases hj
      · exact mem_members.mpr hj
    have heq := Finset.eq_of_subset_of_card_le hsub (by omega)
    rw [← heq, mem_members, hstatus, if_pos ⟨hi, hbeat⟩] at hlost
    cases hlost
  · intro hheard
    have hsame : (((List.finRange 3).take numReplicas.toNat).foldl checkHeartbeat m).serverStatus =
        m.serverStatus := by
      funext j
      rw [hstatus]
      split
      · rename_i hj
        exact (hheard hfree hnum j hj.1 hj.2).symm
      · rfl
    rw [hsame]

/-- In every run of calls and rounds the count is exact in every state reached
exactly when no round finds a member that has missed its heartbeat. -/
theorem membership_count_exact_iff (numReplicas : ℤ) (now : ℕ) (mode : ManagerMode) (freq : ℤ)
    (server : Replica → ServerInfo) (es : List WatchEvent) :
    Always (watchStep numReplicas) CountExact (startedManager numReplicas now mode freq server) es ↔
      AllSteps (watchStep numReplicas) (BeatsHeard numReplicas)
        (startedManager numReplicas now mode freq server) es := by
  refine always_iff_allSteps (I := fun _ => True) (fun _ _ _ _ _ => trivial) ?_ ?_ trivial ?_
  · intro m e m' _ hm h
    cases e with
    | call e =>
      obtain ⟨ret, sent, hcall⟩ := managerStep_cases h
      exact ⟨fun _ => trivial, fun _ => handleState_exact hm hcall⟩
    | round => exact gfdHbt_exact_iff hm (mem_toOption.mp h)
  · intro m e _ hm h
    cases e with
    | call e => trivial
    | round =>
      intro hfree hnum
      simp [watchStep, gfdHbt, hfree, not_lt.mpr hnum, Except.toOption] at h
  · exact countExact_iff.mpr rfl

theorem missed_heartbeat_leaves_count :
    ¬∀ (numReplicas : ℤ) (now : ℕ) (mode : ManagerMode) (freq : ℤ) (server : Replica → ServerInfo)
      (es : List WatchEvent), Always (watchStep numReplicas) CountExact
        (startedManager numReplicas now mode freq server) es := by
  intro h
  have hrun := h 3 1 .passive 10 plainServers [.call (upReport 0), .round, .round]
  revert hrun
  decide +kernel

end ToDoList
