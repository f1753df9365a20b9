import ToDoList.Recovery
import ToDoList.Relay
import ToDoList.CLib.Between

/-!
# The attempts of a call, and how often a replica is started

Whatever a call of `handle_state` writes, or tries to, is a matter of the
report, the roles and the table of servers: `callAttempts`. A report of FAULTED
sends a STARTUP in every call, since SENT_STARTUP_REQ does not outlive the call
that sets it.
-/

namespace ToDoList
open StepRun Between

variable {net : ℕ → Bool}

/-! ### The attempts of one call -/

def firstRole (m : Manager) (r : Replica) : FactoryMsg :=
  if m.primaryReplicaId = some r then fillMessageForPrimaryElection m r
  else .changeState .passiveRep .passiveBackup none

def upAttempts (net : ℕ → Bool) (m : Manager) (r : Replica) : List Sent :=
  match m.mode, m.primaryReplicaId with
  | .passive, none => [⟨r, firstRole m r, net 0⟩]
  | .passive, some p =>
    ⟨r, firstRole m r, net 0⟩ :: if m.needsCheckpoint r then [⟨p, .sendChkpt, net 1⟩] else []
  | .active, none => [⟨r, fillMessageForPrimaryElection m r, net 0⟩]
  | .active, some p => recoveryAttempts net m r p (runningReplicas (m.roles.up r))

def downAttempts (net : ℕ → Bool) (m : Manager) (r : Replica) : List Sent :=
  ⟨r, .startup (m.node r).server, net 0⟩ ::
    if m.primaryReplicaId = some r then
      [⟨nextReplica r, fillMessageForPrimaryElection m (nextReplica r), net 1⟩]
    else []

def callAttempts (net : ℕ → Bool) (m : Manager) (report : Report) : List Sent :=
  match report.state with
  | .running =>
    if (m.node report.replicaId).state = .faulted then upAttempts net m report.replicaId else []
  | .faulted => downAttempts net m report.replicaId
  | _ => []

theorem electNewPrimary_sent (t : Turn) (r : Replica) :
    (electNewPrimary net t r).1.sent =
      t.sent ++ [⟨r, fillMessageForPrimaryElection t.mgr r, net t.sent.length⟩] := by
  unfold electNewPrimary
  dsimp only
  split
  · rfl
  · rfl

theorem restartServer_sent (t : Turn) (r : Replica) :
    (restartServer net t r).sent =
      t.sent ++ [⟨r, .startup (t.mgr.node r).server, net t.sent.length⟩] := by
  unfold restartServer
  dsimp only
  split
  · rfl
  · rfl

theorem sameTable_refl (m : Manager) : SameTable m m := ⟨rfl, rfl, fun _ => rfl⟩

theorem moveOn_sent {t : Turn} {r : Replica} (ht : t.sent = []) :
    (moveOn net (restartServer net t r) r).sent =
      [⟨r, .startup (t.mgr.node r).server, net 0⟩,
        ⟨nextReplica r, fillMessageForPrimaryElection t.mgr (nextReplica r), net 1⟩] := by
  have htable : SameTable t.mgr (restartServer net t r).mgr :=
    (FromTable.restartServer ⟨sameTable_refl t.mgr, sends_nil ht⟩ r).table
  unfold moveOn
  rw [noted_sent, electNewPrimary_sent]
  dsimp only
  rw [restartServer_sent, ht, ← htable.fill]
  rfl

theorem passiveDown_sent {t : Turn} {r : Replica} (ht : t.sent = []) :
    (passiveDown net t r).sent = downAttempts net t.mgr r := by
  unfold passiveDown downAttempts
  dsimp only
  cases hp : t.mgr.primaryReplicaId with
  | none =>
    rw [if_neg (by simp)]
    dsimp only
    rw [restartServer_sent, ht]
    rfl
  | some p =>
    dsimp only
    by_cases hr : r = p
    · rw [if_pos hr, if_pos (by rw [hr])]
      exact moveOn_sent ht
    · rw [if_neg hr, if_neg fun heq => hr (Option.some.inj heq).symm]
      show (restartServer net t r).sent = _
      rw [restartServer_sent, ht]
      rfl

theorem activeDown_sent {t : Turn} {r : Replica} (ht : t.sent = []) :
    (activeDown net t r).sent = downAttempts net t.mgr r := by
  unfold activeDown downAttempts
  dsimp only
  by_cases hp : t.mgr.primaryReplicaId = some r
  · rw [if_pos hp, if_pos hp]
    exact moveOn_sent ht
  · rw [if_neg hp, if_neg hp, restartServer_sent, ht]
    rfl

theorem assignRole_sent {t : Turn} {r : Replica} (ht : t.sent = []) :
    (assignRole net t r).sent = [⟨r, firstRole t.mgr r, net 0⟩] := by
  unfold assignRole firstRole
  by_cases hp : t.mgr.primaryReplicaId = some r
  · rw [if_neg (not_not.mpr hp), if_pos hp, noted_sent, electNewPrimary_sent, ht]
    rfl
  · rw [if_pos hp, if_neg hp, noted_sent]
    simp [sendChangeStatusToServer, send, ht]

theorem passiveUp_sent {t u : Turn} {r : Replica} {b : Bool} (ht : t.sent = [])
    (hm : t.mgr.mode = .passive) (h : passiveUp net t r = .ok (u, b)) :
    u.sent = upAttempts net t.mgr r := by
  unfold upAttempts
  rw [hm]
  rcases passiveUp_cases h with ⟨hneeds, rfl, -⟩ | ⟨hneeds, p, hp, hsend⟩
  · rw [assignRole_sent ht, hneeds]
    cases t.mgr.primaryReplicaId with
    | none => rfl
    | some p => rfl
  · have hu : u = (send net (assignRole net t r) p .sendChkpt).1 := congrArg Prod.fst hsend.symm
    rw [hu, hp, hneeds]
    simp [send, assignRole_sent ht]

theorem activeUp_attempts {t : Turn} {r : Replica} (ht : t.sent = []) (hm : t.mgr.mode = .active) :
    (activeUp net t r .running).sent = upAttempts net t.mgr r := by
  unfold upAttempts
  rw [hm]
  cases hp : t.mgr.primaryReplicaId with
  | none =>
    unfold activeUp
    rw [hp]
    simp [sendChangeStatusToServer, send, ht]
    rfl
  | some p =>
    have hup : (setNodeState t.mgr r .running).roles = t.mgr.roles.up r := by
      have hpr : t.mgr.roles.primary = some p := hp
      rw [roles_setNodeState, Roles.up, if_neg (by simp [hpr])]
    have hfill : fillMessageForPrimaryElection (setNodeState t.mgr r .running) r =
        fillMessageForPrimaryElection t.mgr r := ((sameTable_refl t.mgr).setNodeState r .running).fill r
    rw [activeUp_sent ht hp, hup]
    unfold recoveryAttempts
    rw [hfill]

theorem handleReport_sent {t u : Turn} {report : Report} {b : Bool} (ht : t.sent = [])
    (hstate : (t.mgr.node report.replicaId).state ≠ .sentStartupReq)
    (h : handleReport net t report = .ok (u, b)) : u.sent = callAttempts net t.mgr report := by
  unfold handleReport at h
  unfold callAttempts
  dsimp only at h
  cases hrep : report.state with
  | running =>
    rw [hrep] at h
    dsimp only at h ⊢
    split at h
    · rename_i hfaulted
      rw [if_pos hfaulted]
      cases hm : t.mgr.mode with
      | passive =>
        rw [hm] at h
        dsimp only at h
        split at h
        · cases h
        · rename_i v hv
          cases h
          show v.sent = upAttempts net t.mgr report.replicaId
          exact passiveUp_sent ht hm hv
        · rename_i v hv
          cases h
          exact passiveUp_sent ht hm hv
      | active =>
        rw [hm] at h
        cases h
        exact activeUp_attempts ht hm
    · rename_i hup
      cases h
      rw [if_neg hup]
      exact ht
  | faulted =>
    rw [hrep] at h
    dsimp only at h ⊢
    rw [if_pos hstate] at h
    cases hm : t.mgr.mode with
    | passive =>
      rw [hm] at h
      cases h
      exact passiveDown_sent ht
    | active =>
      rw [hm] at h
      cases h
      exact activeDown_sent ht
  | sentStartupReq | other n =>
    rw [hrep] at h
    cases h
    exact ht

theorem callAttempts_entered (m : Manager) (report : Report) :
    callAttempts net (entered m report) report = callAttempts net m report := by
  have hstate : ∀ i, ((entered m report).node i).state = (m.node i).state := entered_state m report
  have hfill : ∀ i, fillMessageForPrimaryElection (entered m report) i =
      fillMessageForPrimaryElection m i := fun i => (sameTable_entered m report).fill i
  have hserver := (sameTable_entered m report).server
  unfold callAttempts upAttempts downAttempts firstRole recoveryAttempts
  simp only [hstate, hfill, hserver, entered_roles]
  rfl

/-- Every call of a manager without a replica in SENT_STARTUP_REQ makes these
attempts, in this order. -/
theorem handleState_sent {m m' : Manager} {report : Report} {ret : ℤ} {sent : List Sent}
    (hm : m.roles.Plain) (h : handleState net m report = .ok (ret, m', sent)) :
    sent = callAttempts net m report := by
  rw [handleState_entered net m report (handleState_free h)] at h
  have hentered : ((entered m report).node report.replicaId).state ≠ .sentStartupReq := by
    rw [entered_state]
    exact hm.ne_sent _
  rw [← callAttempts_entered]
  split at h
  · cases h
  · rename_i t hreport
    cases h
    exact handleReport_sent (t := { mgr := entered m report }) rfl hentered hreport
  · rename_i t hreport
    cases h
    exact handleReport_sent (t := { mgr := entered m report }) rfl hentered hreport

/-! ### Starts and reports -/

/-- What is seen of a run: the reports as they are handled, and behind each the
STARTUPs that were written. -/
inductive Mark where
  | reported (r : Replica) (state : ReplicaState)
  | started (r : Replica)
deriving Repr, DecidableEq

def startups (sent : List Sent) : List Mark :=
  (sent.filter fun s => s.ok && isStartup s.msg).map fun s => .started s.replica

def marks (m : Manager) : List ManagerEvent → List Mark
  | [] => []
  | e :: es =>
    match handleState e.net m e.report with
    | .error _ => []
    | .ok (_, m', sent) =>
      .reported e.report.replicaId e.report.state :: (startups sent ++ marks m' es)

/-- Between two STARTUPs of a replica it has been reported RUNNING. -/
def StartedOncePerFault (ms : List Mark) : Prop :=
  ∀ r, Separated (· = .started r) (· = .reported r .running) ms

def asksForStart (r : Replica) (e : ManagerEvent) : Prop :=
  e.report.replicaId = r ∧ e.report.state = .faulted ∧ e.net 0 = true

def comesUp (r : Replica) (e : ManagerEvent) : Prop :=
  e.report.replicaId = r ∧ e.report.state = .running

theorem isStartup_fill (m : Manager) (r : Replica) :
    isStartup (fillMessageForPrimaryElection m r) = false := by
  unfold fillMessageForPrimaryElection
  dsimp only
  cases m.mode with
  | passive => rfl
  | active => rfl

theorem isStartup_recovery {m : Manager} {r p : Replica} {running : List Replica} {s : Sent}
    (h : s ∈ recoveryAttempts net m r p running) : isStartup s.msg = false := by
  unfold recoveryAttempts at h
  simp only [List.mem_append, List.mem_singleton] at h
  rcases h with (((rfl | h) | rfl) | h) | rfl
  · rfl
  · obtain ⟨n, i, -, rfl⟩ := mem_attempts.mp h
    rfl
  · rfl
  · obtain ⟨n, i, -, rfl⟩ := mem_attempts.mp h
    rfl
  · exact isStartup_fill m r

theorem isStartup_upAttempts {m : Manager} {r : Replica} {s : Sent} (h : s ∈ upAttempts net m r) :
    isStartup s.msg = false := by
  have hrole : isStartup (firstRole m r) = false := by
    unfold firstRole
    split
    · exact isStartup_fill m r
    · rfl
  unfold upAttempts at h
  split at h
  · rw [List.mem_singleton.mp h]
    exact hrole
  · rcases List.mem_cons.mp h with rfl | h
    · exact hrole
    · split at h
      · rw [List.mem_singleton.mp h]
        rfl
      · cases h
  · rw [List.mem_singleton.mp h]
    exact isStartup_fill m r
  · exact isStartup_recovery h

theorem startups_eq_nil {sent : List Sent} (h : ∀ s ∈ sent, isStartup s.msg = false) :
    startups sent = [] := by
  unfold startups
  rw [List.map_eq_nil_iff, List.filter_eq_nil_iff]
  intro s hs
  simp [h s hs]

theorem startups_down (m : Manager) (r : Replica) :
    startups (downAttempts net m r) = if net 0 then [.started r] else [] := by
  have hrest : startups (if m.primaryReplicaId = some r then
      [⟨nextReplica r, fillMessageForPrimaryElection m (nextReplica r), net 1⟩] else []) = [] := by
    refine startups_eq_nil fun s hs => ?_
    split at hs
    · rw [List.mem_singleton.mp hs]
      exact isStartup_fill m _
    · cases hs
  unfold downAttempts
  unfold startups at hrest ⊢
  cases hnet : net 0 with
  | false =>
    rw [List.filter_cons_of_neg (by simp), hrest]
    rfl
  | true =>
    rw [List.filter_cons_of_pos (by simp [isStartup]), List.map_cons, hrest]
    rfl

instance (r : Replica) (e : ManagerEvent) : Decidable (asksForStart r e) :=
  inferInstanceAs (Decidable (_ ∧ _ ∧ _))

/-- Any report of FAULTED starts its replica, as far as the network lets it. -/
theorem startups_call (m : Manager) (e : ManagerEvent) :
    startups (callAttempts e.net m e.report) =
      if asksForStart e.report.replicaId e then [.started e.report.replicaId] else [] := by
  have hask : asksForStart e.report.replicaId e ↔ e.report.state = .faulted ∧ e.net 0 = true :=
    ⟨fun h => h.2, fun h => ⟨rfl, h⟩⟩
  unfold callAttempts
  simp only [hask]
  cases hs : e.report.state with
  | running =>
    rw [if_neg (show ¬(ReplicaState.running = .faulted ∧ e.net 0 = true) by simp)]
    refine startups_eq_nil fun s h => ?_
    dsimp only at h
    split at h
    · exact isStartup_upAttempts h
    · cases h
  | faulted =>
    dsimp only
    rw [startups_down]
    simp
  | sentStartupReq | other n => simp [startups]

def marksOf (es : List ManagerEvent) : List Mark :=
  es.flatMap fun e => .reported e.report.replicaId e.report.state ::
    if asksForStart e.report.replicaId e then [.started e.report.replicaId] else []

theorem marks_eq {m m' : Manager} {es : List ManagerEvent} (hm : m.roles.Plain)
    (h : run managerStep m es = some m') : marks m es = marksOf es := by
  induction es generalizing m with
  | nil => rfl
  | cons e es ih =>
    obtain ⟨u, hstep, hrun⟩ := run_cons_eq_some.mp h
    obtain ⟨ret, sent, hcall⟩ := managerStep_cases hstep
    rw [marks, hcall]
    dsimp only
    rw [ih (managerStep_plain hm hstep) hrun, handleState_sent hm hcall, startups_call]
    rfl

theorem guarded_marksOf (r : Replica) (es : List ManagerEvent) :
    Guarded (· = .started r) (· = .reported r .running) (marksOf es) ↔
      Guarded (asksForStart r) (comesUp r) es := by
  induction es with
  | nil => exact ⟨fun _ => guarded_nil, fun _ => guarded_nil⟩
  | cons e es ih =>
    have hmarks : marksOf (e :: es) = .reported e.report.replicaId e.report.state ::
        ((if asksForStart e.report.replicaId e then [.started e.report.replicaId] else []) ++
          marksOf es) := rfl
    rw [hmarks, guarded_cons, guarded_cons]
    by_cases hup : comesUp r e
    · have hno : ¬asksForStart r e := by
        rintro ⟨-, hfaulted, -⟩
        cases hfaulted.symm.trans hup.2
      simp [hup, hno, hup.1, hup.2]
    · have hother : ¬(e.report.replicaId = r ∧ e.report.state = .running) := hup
      by_cases hask : asksForStart e.report.replicaId e
      · rw [if_pos hask, List.singleton_append, guarded_cons, ih]
        by_cases hr : e.report.replicaId = r
        · subst hr
          simp [hask, hask.2.1]
        · have hno : ¬asksForStart r e := fun hyes => hr hyes.1
          simp [hr, hno, hup]
      · rw [if_neg hask, List.nil_append, ih]
        have hno : ¬asksForStart r e := by
          rintro hyes
          rw [hyes.1] at hask
          exact hask hyes
        simp [hno, hup, hother]

theorem separated_marksOf (r : Replica) (es : List ManagerEvent) :
    Separated (· = .started r) (· = .reported r .running) (marksOf es) ↔
      Separated (asksForStart r) (comesUp r) es := by
  induction es with
  | nil => exact ⟨fun _ => separated_nil, fun _ => separated_nil⟩
  | cons e es ih =>
    have hmarks : marksOf (e :: es) = .reported e.report.replicaId e.report.state ::
        ((if asksForStart e.report.replicaId e then [.started e.report.replicaId] else []) ++
          marksOf es) := rfl
    rw [hmarks, separated_cons, separated_cons, ← guarded_marksOf, ← ih]
    by_cases hask : asksForStart e.report.replicaId e
    · rw [if_pos hask, List.singleton_append, separated_cons]
      have hiff : asksForStart r e ↔ Mark.started e.report.replicaId = .started r := by
        constructor
        · intro h
          rw [h.1]
        · intro h
          cases h
          exact hask
      simp [hiff]
    · rw [if_neg hask, List.nil_append]
      have hno : ¬asksForStart r e := by
        rintro hyes
        rw [hyes.1] at hask
        exact hask hyes
      simp [hno]

/-- SENT_STARTUP_REQ never keeps a start back: a replica is started once per
fault exactly when the reports themselves are so spaced, that is, when no
replica is reported FAULTED again before it has been RUNNING, both times with
its factory in reach. -/
theorem started_once_per_fault_iff (mode : ManagerMode) (freq : ℤ) (server : Replica → ServerInfo)
    (es : List ManagerEvent) (h : (run managerStep (initManager mode freq server) es).isSome) :
    StartedOncePerFault (marks (initManager mode freq server) es) ↔
      ∀ r, Separated (asksForStart r) (comesUp r) es := by
  obtain ⟨m', hrun⟩ := Option.isSome_iff_exists.mp h
  rw [marks_eq (initManager_plain mode freq server) hrun]
  exact forall_congr' fun r => separated_marksOf r es

theorem started_once_per_fault_restart :
    (run managerStep (initManager .passive 10 plainServers)
        [downReport 0, upReport 0, downReport 0]).isSome ∧
      StartedOncePerFault (marks (initManager .passive 10 plainServers)
        [downReport 0, upReport 0, downReport 0]) := by
  have hrun : (run managerStep (initManager .passive 10 plainServers)
      [downReport 0, upReport 0, downReport 0]).isSome := by decide +kernel
  refine ⟨hrun, (started_once_per_fault_iff .passive 10 plainServers _ hrun).mpr fun r => ?_⟩
  by_cases hr : (0 : Replica) = r
  · simp [separated_cons, separated_nil, guarded_cons, guarded_nil, asksForStart, comesUp, downReport,
      upReport, hr]
  · simp [separated_cons, separated_nil, asksForStart, downReport, upReport, hr]

theorem replica_started_twice :
    ¬∀ (mode : ManagerMode) (freq : ℤ) (server : Replica → ServerInfo) (es : List ManagerEvent),
      StartedOncePerFault (marks (initManager mode freq server) es) := by
  intro h
  have hmarks : marks (initManager .passive 10 plainServers) [downReport 0, downReport 0] =
      [.reported 0 .faulted] ++ .started 0 :: ([.reported 0 .faulted] ++ .started 0 :: []) := by
    decide +kernel
  obtain ⟨z, hz, hrun⟩ := h .passive 10 plainServers [downReport 0, downReport 0] 0 _ _ _ _ _
    hmarks rfl rfl
  rw [List.mem_singleton.mp hz] at hrun
  cases hrun

end ToDoList
