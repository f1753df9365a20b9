import ToDoList.Watchdog

/-!
# What the factories have been told

Beside the manager stands an account of the orders that got through to each
factory since its replica was last FAULTED, and since it last became the
primary. A replica that the manager takes to be RUNNING should have been told
its role in that time; the manager stores RUNNING and moves the primary
whether or not the order got through.
-/

namespace ToDoList
open StepRun

variable {net : ℕ → Bool}

structure Account where
  mgr : Manager
  told : Replica → List FactoryMsg := fun _ => []

/-- The account of a replica starts over with the call in which it leaves
FAULTED or becomes the primary. -/
def startsOver (m m' : Manager) (i : Replica) : Prop :=
  (m.node i).state = .faulted ∨ (m'.primaryReplicaId = some i ∧ m.primaryReplicaId ≠ some i)

instance (m m' : Manager) (i : Replica) : Decidable (startsOver m m' i) :=
  inferInstanceAs (Decidable (_ ∨ (_ ∧ _)))

def Account.next (c : Account) (m' : Manager) (sent : List Sent) : Account :=
  ⟨m', fun i => (if startsOver c.mgr m' i then [] else c.told i) ++ delivered sent i⟩

def accountStep (c : Account) (e : ManagerEvent) : Option Account :=
  match handleState e.net c.mgr e.report with
  | .error _ => none
  | .ok (_, m', sent) => some (c.next m' sent)

/-- The role the manager has decided for a replica, as it is sent to it. -/
def decidedRole (m : Manager) (i : Replica) : List FactoryMsg :=
  if m.primaryReplicaId = some i then [fillMessageForPrimaryElection m i]
  else
    match m.mode with
    | .passive => [.changeState .passiveRep .passiveBackup none]
    | .active => [.changeState .activeRep .activeRecover none, fillMessageForPrimaryElection m i]

def ToldAt (c : Account) (i : Replica) : Prop :=
  isRunning c.mgr i → ∀ msg ∈ decidedRole c.mgr i, msg ∈ c.told i

/-- Every replica that the manager takes to be RUNNING has been told its role. -/
def RoleTold (c : Account) : Prop := ∀ i, ToldAt c i

instance decidableRoleTold : DecidablePred RoleTold :=
  fun c => inferInstanceAs (Decidable (∀ i, isRunning c.mgr i →
    ∀ msg ∈ decidedRole c.mgr i, msg ∈ c.told i))

/-- The orders that carry a role get through: the first attempt to a replica
that is up again (in active mode, where it is told ACTIVE_RECOVER first, also
the last one), unless the call gives up on the checkpoint and the replica stays
FAULTED; and the election of a RUNNING replica when the primary goes down,
which comes behind the STARTUP. -/
def RoleArrives (m : Manager) (e : ManagerEvent) : Prop :=
  m.locked = false →
    (e.report.state = .running → (m.node e.report.replicaId).state = .faulted →
      match m.mode, m.primaryReplicaId with
      | .passive, _ => e.net 0 = true ∨ Stuck e.net m e.report
      | .active, none => e.net 0 = true
      | .active, some p => (e.report.replicaId ≠ p → e.net 0 = true) ∧
          e.net (2 * (runningReplicas (m.roles.up e.report.replicaId)).length + 2) = true) ∧
    (primaryDown m e.report → isRunning m (nextReplica e.report.replicaId) → e.net 1 = true)

/-! ### The table of servers -/

theorem handleState_table {m m' : Manager} {report : Report} {ret : ℤ} {sent : List Sent}
    (h : handleState net m report = .ok (ret, m', sent)) : SameTable m m' := by
  rw [handleState_entered net m report (handleState_free h)] at h
  have hentered : FromTable m { mgr := entered m report } :=
    ⟨sameTable_entered m report, sends_nil rfl⟩
  split at h
  · cases h
  · rename_i u hu
    cases h
    exact (hentered.handleReport hu).table
  · rename_i u hu
    cases h
    have htable := (hentered.handleReport hu).table
    refine ⟨?_, ?_, fun i => ?_⟩
    · show (printCurrentStateInfo u.mgr report).roles.mode = m.mode
      rw [printCurrentStateInfo_roles]
      exact htable.mode
    · show (printCurrentStateInfo u.mgr report).checkpointFreq = m.checkpointFreq
      rw [printCurrentStateInfo_freq]
      exact htable.freq
    · show ((printCurrentStateInfo u.mgr report).node i).server = _
      rw [printCurrentStateInfo_node]
      exact htable.server i

theorem SameTable.decided {m m' : Manager} (h : SameTable m m') {i : Replica}
    (hp : m'.primaryReplicaId = some i ↔ m.primaryReplicaId = some i) :
    decidedRole m' i = decidedRole m i := by
  unfold decidedRole
  simp only [hp, h.mode, h.fill]

/-! ### One call -/

section
variable {c : Account} {m' : Manager} {sent : List Sent}

theorem ToldAt.keep {i : Replica} (h : ToldAt c i) (htable : SameTable c.mgr m')
    (hstate : m'.roles.state i = c.mgr.roles.state i)
    (hp : m'.primaryReplicaId = some i ↔ c.mgr.primaryReplicaId = some i) :
    ToldAt (c.next m' sent) i := by
  intro hrun msg hmsg
  have hbefore : (c.mgr.node i).state = .running := hstate.symm.trans hrun
  have hkeep : ¬startsOver c.mgr m' i := by
    rintro (hfaulted | ⟨hnew, hold⟩)
    · cases hfaulted.symm.trans hbefore
    · exact hold (hp.mp hnew)
  have hdecided : msg ∈ decidedRole c.mgr i := by
    rw [← htable.decided hp]
    exact hmsg
  show msg ∈ (if startsOver c.mgr m' i then [] else c.told i) ++ delivered sent i
  rw [if_neg hkeep]
  exact List.mem_append_left _ (h hbefore msg hdecided)

theorem roleTold_at {c : Account} (i : Replica) (h : ∀ j, j ≠ i → ToldAt c j) : RoleTold c ↔ ToldAt c i := by
  constructor
  · intro hall
    exact hall i
  · intro hi j
    by_cases hj : j = i
    · rw [hj]
      exact hi
    · exact h j hj

theorem toldAt_fresh {i : Replica} (hover : startsOver c.mgr m' i) :
    ToldAt (c.next m' sent) i ↔
      (isRunning m' i → ∀ msg ∈ decidedRole m' i, msg ∈ delivered sent i) := by
  unfold ToldAt Account.next
  dsimp only
  rw [if_pos hover, List.nil_append]

end

theorem mem_delivered_iff {sent : List Sent} {i : Replica} {msg : FactoryMsg} :
    msg ∈ delivered sent i ↔ ⟨i, msg, true⟩ ∈ sent := by
  constructor
  · intro h
    obtain ⟨⟨j, msg', ok⟩, hfilter, rfl⟩ := List.mem_map.mp h
    obtain ⟨hmem, hok⟩ := List.mem_filter.mp hfilter
    simp only [Bool.and_eq_true, decide_eq_true_eq] at hok
    obtain ⟨rfl, rfl⟩ := hok
    exact hmem
  · intro h
    exact mem_delivered_of h rfl

/-! ### Which attempts carry a role -/

theorem firstRole_arrives {m : Manager} {r : Replica} (hm : m.mode = .passive) :
    firstRole m r ∈ delivered (upAttempts net m r) r ↔ net 0 = true := by
  have hne : firstRole m r ≠ .sendChkpt := by
    unfold firstRole fillMessageForPrimaryElection
    rw [hm]
    split
    · simp
    · simp
  rw [mem_delivered_iff]
  unfold upAttempts
  rw [hm]
  cases m.primaryReplicaId with
  | none => simp
  | some p =>
    dsimp only
    split
    · simp [hne]
    · simp

theorem fill_active {m : Manager} (hm : m.mode = .active) (r : Replica) :
    ∃ backups, fillMessageForPrimaryElection m r =
      .changeState .activeRep .activeRunning (some backups) := by
  unfold fillMessageForPrimaryElection
  rw [hm]
  exact ⟨_, rfl⟩

theorem firstActive_arrives {m : Manager} {r : Replica} (hm : m.mode = .active)
    (hp : m.primaryReplicaId = none) :
    fillMessageForPrimaryElection m r ∈ delivered (upAttempts net m r) r ↔ net 0 = true := by
  rw [mem_delivered_iff]
  unfold upAttempts
  rw [hm, hp]
  simp

theorem recover_arrives {m : Manager} {r p : Replica} (hm : m.mode = .active)
    (hp : m.primaryReplicaId = some p) :
    .changeState .activeRep .activeRecover none ∈ delivered (upAttempts net m r) r ↔
      net 0 = true := by
  obtain ⟨backups, hfill⟩ := fill_active hm r
  rw [mem_delivered_iff]
  unfold upAttempts recoveryAttempts
  rw [hm, hp]
  simp [mem_attempts, hfill]

theorem running_arrives {m : Manager} {r p : Replica} (hm : m.mode = .active)
    (hp : m.primaryReplicaId = some p) :
    fillMessageForPrimaryElection m r ∈ delivered (upAttempts net m r) r ↔
      net (2 * (runningReplicas (m.roles.up r)).length + 2) = true := by
  obtain ⟨backups, hfill⟩ := fill_active hm r
  rw [mem_delivered_iff]
  unfold upAttempts recoveryAttempts
  rw [hm, hp]
  have hindex : ∀ n : ℕ, n + 2 + n = 2 * n + 2 := by
    intro n
    omega
  simp [mem_attempts, hfill, hindex]

theorem election_arrives {m : Manager} {r : Replica} (hp : m.primaryReplicaId = some r) :
    fillMessageForPrimaryElection m (nextReplica r) ∈
      delivered (downAttempts net m r) (nextReplica r) ↔ net 1 = true := by
  rw [mem_delivered_iff]
  unfold downAttempts
  rw [if_pos hp]
  simp [nextReplica_ne]

/-! ### What a call leaves to be told -/

theorem accountStep_cases {c c' : Account} {e : ManagerEvent} (h : accountStep c e = some c') :
    ∃ ret m' sent, handleState e.net c.mgr e.report = .ok (ret, m', sent) ∧ c' = c.next m' sent := by
  unfold accountStep at h
  split at h
  · cases h
  · rename_i ret m' sent hcall
    cases h
    exact ⟨ret, m', sent, hcall, rfl⟩

section
variable {c : Account} {e : ManagerEvent} {m' : Manager} {sent : List Sent}

theorem roleTold_idle (hc : RoleTold c) (htable : SameTable c.mgr m') (hroles : m'.roles = c.mgr.roles) :
    RoleTold (c.next m' sent) := by
  intro i
  refine (hc i).keep htable (by rw [hroles]) ?_
  have hp : m'.primaryReplicaId = c.mgr.primaryReplicaId := congrArg Roles.primary hroles
  rw [hp]

theorem up_primary_ne {v : Roles} {r i : Replica} (hi : i ≠ r) :
    (v.up r).primary = some i ↔ v.primary = some i := by
  unfold Roles.up
  dsimp only
  split
  · rename_i hfirst
    simp [hfirst.2.1, Ne.symm hi]
  · rfl

/-- A replica comes up: the orders of this call decide. -/
theorem roleTold_up {r : Replica} (hc : RoleTold c) (htable : SameTable c.mgr m')
    (hroles : m'.roles = c.mgr.roles.up r) (hfaulted : (c.mgr.node r).state = .faulted) :
    RoleTold (c.next m' sent) ↔ ∀ msg ∈ decidedRole m' r, msg ∈ delivered sent r := by
  have hrun : isRunning m' r := by
    have hstate : m'.roles.state r = .running := by
      rw [hroles]
      exact Function.update_self ..
    exact hstate
  rw [roleTold_at r, toldAt_fresh (Or.inl hfaulted)]
  · exact ⟨fun h => h hrun, fun h _ => h⟩
  · intro i hi
    refine (hc i).keep htable ?_ ?_
    · rw [hroles]
      exact Function.update_of_ne hi ..
    · have hp : m'.primaryReplicaId = (c.mgr.roles.up r).primary := congrArg Roles.primary hroles
      rw [hp]
      exact up_primary_ne hi

theorem toldAt_down {r : Replica} (hroles : m'.roles = c.mgr.roles.down r) :
    ToldAt (c.next m' sent) r := by
  intro hrun
  have hdown : m'.roles.state r = .faulted := by
    rw [hroles]
    exact Function.update_self ..
  cases hdown.symm.trans hrun

/-- A replica goes down: only the replica that follows it as the primary has
something new to be told. -/
theorem roleTold_down {r : Replica} (hc : RoleTold c) (htable : SameTable c.mgr m')
    (hroles : m'.roles = c.mgr.roles.down r) :
    RoleTold (c.next m' sent) ↔ (c.mgr.primaryReplicaId = some r → isRunning c.mgr (nextReplica r) →
      fillMessageForPrimaryElection c.mgr (nextReplica r) ∈ delivered sent (nextReplica r)) := by
  have hp : m'.primaryReplicaId = (c.mgr.roles.down r).primary := congrArg Roles.primary hroles
  have hstate : ∀ i, i ≠ r → m'.roles.state i = c.mgr.roles.state i := by
    intro i hi
    rw [hroles]
    exact Function.update_of_ne hi ..
  by_cases hprimary : c.mgr.primaryReplicaId = some r
  · have hnext : m'.primaryReplicaId = some (nextReplica r) := by
      rw [hp]
      exact if_pos hprimary
    have hover : startsOver c.mgr m' (nextReplica r) := by
      refine Or.inr ⟨hnext, ?_⟩
      rw [hprimary]
      exact fun heq => nextReplica_ne r (Option.some.inj heq).symm
    have hrun : isRunning m' (nextReplica r) ↔ isRunning c.mgr (nextReplica r) :=
      iff_of_eq (congrArg (· = ReplicaState.running) (hstate _ (nextReplica_ne r)))
    rw [roleTold_at (nextReplica r), toldAt_fresh hover, hrun]
    · simp [decidedRole, hnext, hprimary, htable.fill]
    · intro i hi
      by_cases hr : i = r
      · rw [hr]
        exact toldAt_down hroles
      · refine (hc i).keep htable (hstate i hr) ?_
        rw [hnext, hprimary]
        simp [Ne.symm hi, Ne.symm hr]
  · refine ⟨fun _ h => absurd h hprimary, fun _ i => ?_⟩
    by_cases hr : i = r
    · rw [hr]
      exact toldAt_down hroles
    · refine (hc i).keep htable (hstate i hr) ?_
      have hdown : (c.mgr.roles.down r).primary =
          if c.mgr.roles.mode = .passive ∧ c.mgr.primaryReplicaId = none then some r
          else c.mgr.primaryReplicaId := if_neg hprimary
      rw [hp, hdown]
      split
      · rename_i hfirst
        simp [hfirst.2, Ne.symm hr]
      · rfl

theorem up_running {v : Roles} {r : Replica} (h : v.state r = .running) : v.up r = v := by
  unfold Roles.up
  rw [if_neg (by simp [h]), ← h, Function.update_eq_self]

theorem decidedRole_passive {r : Replica} (hm : c.mgr.mode = .passive) (htable : SameTable c.mgr m')
    (hroles : m'.roles = c.mgr.roles.up r) : decidedRole m' r = [firstRole c.mgr r] := by
  have hp : m'.primaryReplicaId = c.mgr.primaryReplicaId := by
    have hup : m'.roles.primary = (c.mgr.roles.up r).primary := congrArg Roles.primary hroles
    have hmode : c.mgr.roles.mode = .passive := hm
    unfold Roles.up at hup
    rw [if_neg (by simp [hmode])] at hup
    exact hup
  rw [htable.decided (by rw [hp])]
  unfold decidedRole firstRole
  rw [hm]
  split
  · rfl
  · rfl

theorem decidedRole_active {r : Replica} (hm : c.mgr.mode = .active) (htable : SameTable c.mgr m')
    (hroles : m'.roles = c.mgr.roles.up r) (hfaulted : (c.mgr.node r).state = .faulted) :
    decidedRole m' r =
      match c.mgr.primaryReplicaId with
      | none => [fillMessageForPrimaryElection c.mgr r]
      | some p =>
        if r = p then [fillMessageForPrimaryElection c.mgr r]
        else [.changeState .activeRep .activeRecover none, fillMessageForPrimaryElection c.mgr r] := by
  have hup : m'.roles.primary = (c.mgr.roles.up r).primary := congrArg Roles.primary hroles
  have hmode : c.mgr.roles.mode = .active := hm
  have hstate : c.mgr.roles.state r = .faulted := hfaulted
  unfold decidedRole
  rw [htable.mode, htable.fill, hm]
  cases hp : c.mgr.primaryReplicaId with
  | none =>
    have hnone : c.mgr.roles.primary = none := hp
    have hnew : m'.primaryReplicaId = some r := by
      rw [show m'.primaryReplicaId = (c.mgr.roles.up r).primary from hup]
      exact if_pos ⟨hmode, hnone, hstate⟩
    rw [if_pos hnew]
  | some p =>
    have hsome : c.mgr.roles.primary = some p := hp
    have hold : m'.primaryReplicaId = some p := by
      rw [show m'.primaryReplicaId = (c.mgr.roles.up r).primary from hup, Roles.up]
      rw [if_neg (by simp [hsome])]
      exact hsome
    rw [hold]
    by_cases hr : r = p
    · simp [hr]
    · simp [hr, Ne.symm hr]

theorem roleTold_restarted (hc : RoleTold c) (htable : SameTable c.mgr m') (hfree : c.mgr.locked = false)
    (hrep : e.report.state = .running) (hfaulted : (c.mgr.node e.report.replicaId).state = .faulted)
    (hstuck : ¬Stuck e.net c.mgr e.report) (hroles : m'.roles = c.mgr.roles.up e.report.replicaId) :
    RoleTold (c.next m' (upAttempts e.net c.mgr e.report.replicaId)) ↔ RoleArrives c.mgr e := by
  have hnot : ¬primaryDown c.mgr e.report := fun hd => by cases hrep.symm.trans hd.1
  rw [roleTold_up hc htable hroles hfaulted]
  unfold RoleArrives
  cases hmode : c.mgr.mode with
  | passive =>
    rw [decidedRole_passive hmode htable hroles]
    simp [firstRole_arrives hmode, hfree, hrep, hfaulted, hstuck, hnot]
  | active =>
    rw [decidedRole_active hmode htable hroles hfaulted]
    cases hp : c.mgr.primaryReplicaId with
    | none => simp [firstActive_arrives hmode hp, hfree, hrep, hfaulted, hnot]
    | some p =>
      by_cases hr : e.report.replicaId = p
      · subst hr
        simp [running_arrives hmode hp, hfree, hrep, hfaulted, hnot]
      · simp [running_arrives hmode hp, recover_arrives hmode hp, hfree, hrep, hfaulted, hnot, hr]

theorem roleTold_fault (hc : RoleTold c) (htable : SameTable c.mgr m') (hfree : c.mgr.locked = false)
    (hrep : e.report.state = .faulted) (hroles : m'.roles = c.mgr.roles.down e.report.replicaId) :
    RoleTold (c.next m' (downAttempts e.net c.mgr e.report.replicaId)) ↔ RoleArrives c.mgr e := by
  rw [roleTold_down hc htable hroles]
  unfold RoleArrives primaryDown
  constructor
  · intro htold _
    refine ⟨fun hrun => (by cases hrep.symm.trans hrun), fun hd hnext => ?_⟩
    exact (election_arrives hd.2).mp (htold hd.2 hnext)
  · intro harrives hp hnext
    exact (election_arrives hp).mpr ((harrives hfree).2 ⟨hrep, hp⟩ hnext)

/-- A call leaves every RUNNING replica told exactly when its role arrives. -/
theorem roleTold_step {c' : Account} (hm : c.mgr.roles.Plain) (hc : RoleTold c)
    (h : accountStep c e = some c') : RoleTold c' ↔ RoleArrives c.mgr e := by
  obtain ⟨ret, m', sent, hcall, rfl⟩ := accountStep_cases h
  have htable := handleState_table hcall
  have hsent := handleState_sent hm hcall
  have hfree := handleState_free hcall
  have hroles := handleState_roles hm hcall
  have hidle : m'.roles = c.mgr.roles → RoleArrives c.mgr e →
      (RoleTold (c.next m' sent) ↔ RoleArrives c.mgr e) :=
    fun hsame harrives => iff_of_true (roleTold_idle hc htable hsame) harrives
  unfold callAttempts at hsent
  cases hrep : e.report.state with
  | running =>
    rw [hrep] at hsent hroles
    have hnot : ¬primaryDown c.mgr e.report := fun hd => by cases hrep.symm.trans hd.1
    by_cases hfaulted : (c.mgr.node e.report.replicaId).state = .faulted
    · rw [if_pos hfaulted] at hsent
      rcases hroles with ⟨hstuck, hroles⟩ | ⟨hstuck, hroles⟩
      · rw [hsent]
        exact roleTold_restarted hc htable hfree hrep hfaulted hstuck hroles
      · refine hidle hroles fun _ => ⟨fun _ _ => ?_, fun hd => absurd hd hnot⟩
        rw [hstuck.1]
        exact Or.inr hstuck
    · have hrunning : c.mgr.roles.state e.report.replicaId = .running := (hm _).resolve_right hfaulted
      refine hidle ?_ fun _ => ⟨fun _ hf => absurd hf hfaulted, fun hd => absurd hd hnot⟩
      rcases hroles with ⟨-, hroles⟩ | ⟨-, hroles⟩
      · exact hroles.trans (up_running hrunning)
      · exact hroles
  | faulted =>
    rw [hrep] at hsent hroles
    have hdown : m'.roles = c.mgr.roles.down e.report.replicaId := by
      rcases hroles with ⟨-, hroles⟩ | ⟨hs, -⟩
      · exact hroles
      · cases hrep.symm.trans hs.2.1
    rw [hsent]
    exact roleTold_fault hc htable hfree hrep hdown
  | sentStartupReq | other n =>
    rw [hrep] at hroles
    have hsame : m'.roles = c.mgr.roles := by
      rcases hroles with ⟨-, hroles⟩ | ⟨-, hroles⟩
      · exact hroles
      · exact hroles
    refine hidle hsame fun _ => ⟨fun hrun => (by cases hrep.symm.trans hrun), fun hd => ?_⟩
    cases hrep.symm.trans hd.1

end

theorem accountStep_plain {c c' : Account} {e : ManagerEvent} (hm : c.mgr.roles.Plain)
    (h : accountStep c e = some c') : c'.mgr.roles.Plain := by
  obtain ⟨ret, m', sent, hcall, rfl⟩ := accountStep_cases h
  rcases handleState_roles hm hcall with ⟨-, hroles⟩ | ⟨-, hroles⟩
  · show m'.roles.Plain
    rw [hroles]
    exact plain_next hm _ _
  · show m'.roles.Plain
    rw [hroles]
    exact hm

/-- A call that does not come back waits for the lock or asks a primary that is
not there. -/
theorem roleArrives_blocked {c : Account} {e : ManagerEvent} (h : accountStep c e = none) :
    RoleArrives c.mgr e := by
  intro hfree
  have hstuck : Stuck e.net c.mgr e.report := by
    by_contra hno
    obtain ⟨ret, m', sent, hcall, -⟩ := (answers_iff hfree e.report).mpr hno
    unfold accountStep at h
    rw [hcall] at h
    cases h
  refine ⟨fun _ _ => ?_, fun hd => ?_⟩
  · rw [hstuck.1]
    exact Or.inr hstuck
  · cases hstuck.2.1.symm.trans hd.1

/-- In every run, whatever the network does: each RUNNING replica has been told
its role in every state reached exactly when every order that carries a role
gets through. -/
theorem role_told_iff (mode : ManagerMode) (freq : ℤ) (server : Replica → ServerInfo)
    (es : List ManagerEvent) :
    Always accountStep RoleTold { mgr := initManager mode freq server } es ↔
      AllSteps accountStep (fun c e => RoleArrives c.mgr e) { mgr := initManager mode freq server } es := by
  refine always_iff_allSteps (I := fun c => c.mgr.roles.Plain) ?_ ?_ ?_ ?_ ?_
  · intro c e c' hm h
    exact accountStep_plain hm h
  · intro c e c' hm hc h
    exact roleTold_step hm hc h
  · intro c e _ _ h
    exact roleArrives_blocked h
  · exact initManager_plain mode freq server
  · intro i hrun
    cases hrun

/-- Replica 0 becomes the primary and is RUNNING, and no order ever got through. -/
theorem primary_never_told :
    ¬∀ (mode : ManagerMode) (freq : ℤ) (server : Replica → ServerInfo) (es : List ManagerEvent),
      Always accountStep RoleTold { mgr := initManager mode freq server } es := by
  intro h
  have hrun := h .passive 10 plainServers
    [downReport 0, ⟨⟨0, .running, .unknownState⟩, fun _ => false⟩]
  revert hrun
  decide +kernel

end ToDoList
