import ToDoList.ManagerSpec

/-!
# Primaries and the sources of checkpoints

Over any run of reports: which replica follows a primary that is reported
FAULTED, and which replica is asked for the checkpoint of one that is up again.
-/

namespace ToDoList
open StepRun

/-- Between two calls no replica is in SENT_STARTUP_REQ: the branch that sets it
ends by storing FAULTED. -/
def Roles.Plain (v : Roles) : Prop := ∀ i, v.state i = .running ∨ v.state i = .faulted

theorem plain_next {v : Roles} (h : v.Plain) (r : Replica) (state : ReplicaState) :
    (v.next r state).Plain := by
  intro i
  cases state with
  | running =>
    by_cases hi : i = r
    · subst hi
      exact Or.inl (Function.update_self ..)
    · simpa [Roles.next, Roles.up, hi] using h i
  | faulted =>
    by_cases hi : i = r
    · subst hi
      exact Or.inr (Function.update_self ..)
    · simpa [Roles.next, Roles.down, hi] using h i
  | sentStartupReq | other n => exact h i

theorem Roles.Plain.ne_sent {m : Manager} (h : m.roles.Plain) (i : Replica) :
    (m.node i).state ≠ .sentStartupReq := by
  intro hs
  rcases h i with hi | hi
  · cases hs.symm.trans hi
  · cases hs.symm.trans hi

theorem managerStep_cases {m m' : Manager} {e : ManagerEvent} (h : managerStep m e = some m') :
    ∃ ret sent, handleState e.net m e.report = .ok (ret, m', sent) := by
  unfold managerStep at h
  split at h
  · cases h
  · rename_i ret t sent hs
    cases h
    exact ⟨ret, sent, hs⟩

theorem managerStep_roles {m m' : Manager} {e : ManagerEvent} (hm : m.roles.Plain)
    (h : managerStep m e = some m') :
    m'.roles = m.roles.next e.report.replicaId e.report.state ∨ m'.roles = m.roles := by
  obtain ⟨ret, sent, hcall⟩ := managerStep_cases h
  rcases (handleState_spec hcall (hm.ne_sent _)).2 with ⟨-, hroles⟩ | ⟨-, hroles, -⟩
  · exact Or.inl hroles
  · exact Or.inr hroles

theorem managerStep_plain {m m' : Manager} {e : ManagerEvent} (hm : m.roles.Plain)
    (h : managerStep m e = some m') : m'.roles.Plain := by
  rcases managerStep_roles hm h with hroles | hroles
  · rw [hroles]
    exact plain_next hm _ _
  · rw [hroles]
    exact hm

theorem initManager_plain (mode : ManagerMode) (freq : ℤ) (server : Replica → ServerInfo) :
    (initManager mode freq server).roles.Plain := fun _ => Or.inr rfl

/-! ### The next primary -/

def isRunning (m : Manager) (i : Replica) : Prop := (m.node i).state = .running

instance decidableIsRunning (m : Manager) (i : Replica) : Decidable (isRunning m i) :=
  inferInstanceAs (Decidable ((m.node i).state = .running))

def primaryDown (m : Manager) (report : Report) : Prop :=
  report.state = .faulted ∧ m.primaryReplicaId = some report.replicaId

instance decidablePrimaryDown (m : Manager) (report : Report) : Decidable (primaryDown m report) :=
  inferInstanceAs (Decidable (report.state = .faulted ∧ m.primaryReplicaId = some report.replicaId))

/-- If such a report moves the primary while another replica is RUNNING, the
new primary is a replica that is RUNNING. -/
def PicksLive (m : Manager) (e : ManagerEvent) : Prop :=
  ∀ out ∈ (handleState e.net m e.report).toOption, primaryDown m e.report →
    out.2.1.primaryReplicaId ≠ m.primaryReplicaId →
    (∃ q, q ≠ e.report.replicaId ∧ isRunning m q) →
    ∃ p, out.2.1.primaryReplicaId = some p ∧ isRunning out.2.1 p

instance decidablePicksLive (m : Manager) (e : ManagerEvent) : Decidable (PicksLive m e) :=
  inferInstanceAs (Decidable (∀ out ∈ (handleState e.net m e.report).toOption,
    primaryDown m e.report → out.2.1.primaryReplicaId ≠ m.primaryReplicaId →
      (∃ q, q ≠ e.report.replicaId ∧ isRunning m q) →
        ∃ p, out.2.1.primaryReplicaId = some p ∧ isRunning out.2.1 p))

theorem primaryDown_handled {m m' : Manager} {e : ManagerEvent} {ret : ℤ} {sent : List Sent}
    (hm : m.roles.Plain) (hd : primaryDown m e.report)
    (h : handleState e.net m e.report = .ok (ret, m', sent)) :
    m'.primaryReplicaId = some (nextReplica e.report.replicaId) ∧
      (isRunning m' (nextReplica e.report.replicaId) ↔
        isRunning m (nextReplica e.report.replicaId)) := by
  rcases (handleState_spec h (hm.ne_sent _)).2 with ⟨-, hroles⟩ | ⟨-, -, hrun⟩
  · rw [hd.1] at hroles
    have hp : m.roles.primary = some e.report.replicaId := hd.2
    have hprimary : m'.roles.primary = some (nextReplica e.report.replicaId) := by
      rw [hroles]
      simp [Roles.next, Roles.down, hp]
    have hstate : m'.roles.state (nextReplica e.report.replicaId) =
        m.roles.state (nextReplica e.report.replicaId) := by
      rw [hroles]
      exact Function.update_of_ne (nextReplica_ne _) ..
    exact ⟨hprimary, iff_of_eq (congrArg (· = ReplicaState.running) hstate)⟩
  · rw [hd.1] at hrun
    cases hrun

theorem other_running_iff (m : Manager) (r : Replica) :
    (∃ q, q ≠ r ∧ isRunning m q) ↔
      isRunning m (nextReplica r) ∨ isRunning m (nextReplica (nextReplica r)) := by
  constructor
  · rintro ⟨q, hq, hrun⟩
    rcases replica_cases r q with rfl | rfl | rfl
    · exact absurd rfl hq
    · exact Or.inl hrun
    · exact Or.inr hrun
  · rintro (hrun | hrun)
    · exact ⟨_, nextReplica_ne r, hrun⟩
    · exact ⟨_, nextReplica_next_ne r, hrun⟩

theorem picksLive_iff {m : Manager} {e : ManagerEvent} (hm : m.roles.Plain)
    (hfree : m.locked = false) :
    PicksLive m e ↔ (primaryDown m e.report →
      isRunning m (nextReplica e.report.replicaId) ∨
        ¬isRunning m (nextReplica (nextReplica e.report.replicaId))) := by
  constructor
  · intro hpick hd
    obtain ⟨⟨ret, m', sent⟩, hcall⟩ := handleState_faulted e.net hfree hd.1
    obtain ⟨hp, hsame⟩ := primaryDown_handled hm hd hcall
    by_contra hbad
    obtain ⟨hnext, hlast⟩ := not_or.mp hbad
    have hmoved : m'.primaryReplicaId ≠ m.primaryReplicaId := by
      rw [hp, hd.2]
      exact fun heq => nextReplica_ne _ (Option.some.inj heq)
    obtain ⟨p, hpp, hrun⟩ := hpick _ (mem_toOption.mpr hcall) hd hmoved
      ((other_running_iff m _).mpr (Or.inr (not_not.mp hlast)))
    rw [hp] at hpp
    cases hpp
    exact hnext (hsame.mp hrun)
  · rintro hcond ⟨ret, m', sent⟩ hout hd - hother
    obtain ⟨hp, hsame⟩ := primaryDown_handled hm hd (mem_toOption.mp hout)
    refine ⟨_, hp, hsame.mpr ?_⟩
    rcases hcond hd with hnext | hlast
    · exact hnext
    · exact ((other_running_iff m _).mp hother).resolve_right hlast

/-- The id decides, so the choice is right exactly when the next replica is
RUNNING or the one behind it is not. -/
theorem failover_picks_live_iff (mode : ManagerMode) (freq : ℤ) (server : Replica → ServerInfo)
    (es : List ManagerEvent) :
    AllSteps managerStep
      (fun m e => m.locked = false →
        (PicksLive m e ↔ (primaryDown m e.report →
          isRunning m (nextReplica e.report.replicaId) ∨
            ¬isRunning m (nextReplica (nextReplica e.report.replicaId)))))
      (initManager mode freq server) es := by
  have hany : AllSteps managerStep (fun _ _ => True) (initManager mode freq server) es :=
    allSteps_of_forall (fun _ _ => trivial) _ _
  refine allSteps_of_invariant (I := fun m => m.roles.Plain) ?_ ?_
    (initManager_plain mode freq server) hany
  · intro m e m' hm _ h
    exact managerStep_plain hm h
  · intro m e hm _ hfree
    exact picksLive_iff hm hfree

def upReport (r : Replica) : ManagerEvent := ⟨⟨r, .running, .unknownState⟩, fun _ => true⟩
def downReport (r : Replica) : ManagerEvent := ⟨⟨r, .faulted, .unknownState⟩, fun _ => true⟩

def plainServers : Replica → ServerInfo := fun _ => ⟨[], 0⟩

theorem failover_picks_faulted_replica :
    ¬∀ (mode : ManagerMode) (freq : ℤ) (server : Replica → ServerInfo) (es : List ManagerEvent),
      AllSteps managerStep PicksLive (initManager mode freq server) es := by
  intro h
  have hrun := h .passive 10 plainServers [downReport 0, upReport 0, upReport 2, downReport 0]
  revert hrun
  decide +kernel

/-! ### The source of a checkpoint -/

/-- A checkpoint that a RUNNING report asks for comes from the primary, which is
another replica and RUNNING. -/
def ChkptFromLive (m : Manager) (e : ManagerEvent) : Prop :=
  ∀ out ∈ (handleState e.net m e.report).toOption, e.report.state = .running →
    ∀ s ∈ out.2.2, s.msg = .sendChkpt →
      m.primaryReplicaId = some s.replica ∧ s.replica ≠ e.report.replicaId ∧ isRunning m s.replica

instance decidableChkptFromLive (m : Manager) (e : ManagerEvent) : Decidable (ChkptFromLive m e) :=
  inferInstanceAs (Decidable (∀ out ∈ (handleState e.net m e.report).toOption,
    e.report.state = .running → ∀ s ∈ out.2.2, s.msg = .sendChkpt →
      m.primaryReplicaId = some s.replica ∧ s.replica ≠ e.report.replicaId ∧ isRunning m s.replica))

/-- A replica the primary role may rest on: it is up, or, in passive mode, it
has not been reported FAULTED while there was a primary. -/
def Roles.Fit (v : Roles) (p : Replica) : Prop :=
  v.state p = .running ∨ (v.mode = .passive ∧ v.needs p = false)

instance decidableFit (v : Roles) (p : Replica) : Decidable (v.Fit p) :=
  inferInstanceAs (Decidable (v.state p = .running ∨ (v.mode = .passive ∧ v.needs p = false)))

/-- The first start of the primary of passive mode: it has been chosen, has not come
up yet, and has not been reported FAULTED since there is a primary. -/
def Starting (m : Manager) : Prop :=
  m.mode = .passive ∧ ∃ p ∈ m.primaryReplicaId, ¬isRunning m p ∧ m.needsCheckpoint p = false

instance decidableStarting (m : Manager) : Decidable (Starting m) :=
  inferInstanceAs (Decidable (m.mode = .passive ∧
    ∃ p ∈ m.primaryReplicaId, ¬isRunning m p ∧ m.needsCheckpoint p = false))

/-- The primary role moves to a fit replica only, and no other replica that needs a
checkpoint is reported up during the first start of the primary. -/
def SteadyStep (m : Manager) (e : ManagerEvent) : Prop :=
  (primaryDown m e.report → m.roles.Fit (nextReplica e.report.replicaId)) ∧
    (e.report.state = .running → (m.node e.report.replicaId).state = .faulted →
      m.needsCheckpoint e.report.replicaId = true → m.primaryReplicaId ≠ some e.report.replicaId →
      ¬Starting m)

instance decidableSteadyStep (m : Manager) (e : ManagerEvent) : Decidable (SteadyStep m e) :=
  inferInstanceAs (Decidable (_ ∧ _))

structure Roles.Steady (v : Roles) : Prop where
  plain : v.Plain
  idle : v.primary = none → ∀ i, v.needs i = false
  fit : ∀ p ∈ v.primary, v.Fit p

theorem fit_up {v : Roles} {p : Replica} (h : v.Fit p) (r : Replica) : (v.up r).Fit p := by
  rcases h with hrun | hpassive
  · left
    by_cases hp : p = r
    · subst hp
      exact Function.update_self ..
    · exact (Function.update_of_ne hp ..).trans hrun
  · exact Or.inr hpassive

theorem fit_down {v : Roles} {p r : Replica} (h : v.Fit p) (hp : p ≠ r) : (v.down r).Fit p := by
  rcases h with hrun | ⟨hmode, hneeds⟩
  · exact Or.inl ((Function.update_of_ne hp ..).trans hrun)
  · refine Or.inr ⟨hmode, ?_⟩
    show (if v.mode = .passive ∧ v.primary ≠ none then Function.update v.needs r true else v.needs) p = false
    split
    · exact (Function.update_of_ne hp ..).trans hneeds
    · exact hneeds

theorem steady_up {v : Roles} (h : v.Steady) (r : Replica) : (v.up r).Steady := by
  refine ⟨plain_next h.plain r .running, ?_, ?_⟩
  · intro hnone
    apply h.idle
    unfold Roles.up at hnone
    dsimp only at hnone
    split at hnone
    · cases hnone
    · exact hnone
  · intro p hp
    have hp' : (v.up r).primary = some p := hp
    unfold Roles.up at hp'
    dsimp only at hp'
    split at hp'
    · cases hp'
      exact Or.inl (Function.update_self ..)
    · exact fit_up (h.fit p hp') r

theorem steady_down {v : Roles} (h : v.Steady) (r : Replica)
    (hmove : v.primary = some r → v.Fit (nextReplica r)) : (v.down r).Steady := by
  refine ⟨plain_next h.plain r .faulted, ?_, ?_⟩
  · intro hnone
    have hboth : v.primary = none ∧ ¬(v.mode = .passive ∧ v.primary = none) := by
      unfold Roles.down at hnone
      dsimp only at hnone
      split at hnone
      · cases hnone
      · split at hnone
        · cases hnone
        · rename_i hcase
          exact ⟨hnone, hcase⟩
    intro i
    show (if v.mode = .passive ∧ v.primary ≠ none then Function.update v.needs r true else v.needs) i = false
    rw [if_neg fun hall => hall.2 hboth.1]
    exact h.idle hboth.1 i
  · intro p hp
    have hp' : (v.down r).primary = some p := hp
    unfold Roles.down at hp'
    dsimp only at hp'
    split at hp'
    · rename_i hprimary
      cases hp'
      exact fit_down (hmove hprimary) (nextReplica_ne r)
    · rename_i hother
      split at hp'
      · rename_i hfirst
        cases hp'
        refine Or.inr ⟨hfirst.1, ?_⟩
        show (if v.mode = .passive ∧ v.primary ≠ none then Function.update v.needs r true else v.needs) r = false
        rw [if_neg fun hall => hall.2 hfirst.2]
        exact h.idle hfirst.2 r
      · refine fit_down (h.fit p hp') ?_
        rintro rfl
        exact hother hp'

theorem managerStep_steady {m m' : Manager} {e : ManagerEvent} (hm : m.roles.Steady)
    (hstep : SteadyStep m e) (h : managerStep m e = some m') : m'.roles.Steady := by
  rcases managerStep_roles hm.plain h with hroles | hroles
  · rw [hroles]
    cases hs : e.report.state with
    | running => exact steady_up hm _
    | faulted => exact steady_down hm _ fun hp => hstep.1 ⟨hs, hp⟩
    | sentStartupReq | other n => exact hm
  · rw [hroles]
    exact hm

theorem chkptFromLive_of_steady {m : Manager} {e : ManagerEvent} (hm : m.roles.Steady)
    (hstep : SteadyStep m e) : ChkptFromLive m e := by
  rintro ⟨ret, m', sent⟩ hout hrun s hs hmsg
  have hperm := (handleState_spec (mem_toOption.mp hout) (hm.plain.ne_sent _)).1 s hs
  unfold Permitted at hperm
  rw [hmsg] at hperm
  obtain ⟨-, hfaulted, hprimary, hneeds⟩ := hperm
  have hp : m.primaryReplicaId = some s.replica := hprimary
  have hfit := hm.fit s.replica hprimary
  have hne : s.replica ≠ e.report.replicaId := by
    intro heq
    rw [heq] at hfit
    rcases hfit with hup | ⟨hmode, hno⟩
    · cases hup.symm.trans hfaulted
    · cases (hneeds hmode).symm.trans hno
  refine ⟨hp, hne, ?_⟩
  rcases hfit with hup | ⟨hmode, hno⟩
  · exact hup
  · by_contra hdown
    refine hstep.2 hrun hfaulted (hneeds hmode) ?_ ⟨hmode, s.replica, hp, hdown, hno⟩
    intro heq
    exact hne (Option.some.inj (hp.symm.trans heq))

theorem initManager_steady (mode : ManagerMode) (freq : ℤ) (server : Replica → ServerInfo) :
    (initManager mode freq server).roles.Steady :=
  ⟨initManager_plain mode freq server, fun _ _ => rfl, fun p hp => by cases hp⟩

/-- In either mode and whatever the network does, a run whose steps are steady
never asks a replica that is down, or the replica that is coming up, for the
checkpoint. -/
theorem checkpoint_comes_from_live (mode : ManagerMode) (freq : ℤ) (server : Replica → ServerInfo)
    (es : List ManagerEvent) (h : AllSteps managerStep SteadyStep (initManager mode freq server) es) :
    AllSteps managerStep ChkptFromLive (initManager mode freq server) es :=
  allSteps_of_invariant (I := fun m => m.roles.Steady)
    (fun _ _ _ hm hstep hnext => managerStep_steady hm hstep hnext)
    (fun _ _ hm hstep => chkptFromLive_of_steady hm hstep)
    (initManager_steady mode freq server) h

def crashAndReturn : List ManagerEvent :=
  [downReport 0, upReport 0, downReport 1, upReport 1, downReport 0, upReport 0]

theorem checkpoint_comes_from_live_crashAndReturn :
    AllSteps managerStep SteadyStep (initManager .passive 10 plainServers) crashAndReturn ∧
      AllSteps managerStep ChkptFromLive (initManager .passive 10 plainServers) crashAndReturn := by
  have h : AllSteps managerStep SteadyStep (initManager .passive 10 plainServers) crashAndReturn := by
    decide +kernel
  exact ⟨h, checkpoint_comes_from_live .passive 10 plainServers crashAndReturn h⟩

/-- All three crash in turn; the role comes back to replica 0, which is then up
again and told to send its empty table. -/
theorem checkpoint_comes_from_recovering :
    ¬∀ (mode : ManagerMode) (freq : ℤ) (server : Replica → ServerInfo) (es : List ManagerEvent),
      AllSteps managerStep ChkptFromLive (initManager mode freq server) es := by
  intro h
  have hrun := h .passive 10 plainServers
    [downReport 0, upReport 0, downReport 0, downReport 1, downReport 2, upReport 0]
  revert hrun
  decide +kernel

end ToDoList
