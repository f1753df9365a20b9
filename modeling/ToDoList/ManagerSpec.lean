import ToDoList.Manager

/-!
# What one report changes and sends

`Roles` is what the reports decide: the primary, the states of the replicas and
which of them need a checkpoint. A call of `handle_state` moves it as
`Roles.next` says, whatever the network does, or keeps it and the lock.
-/

namespace ToDoList

structure Roles where
  mode : ManagerMode
  primary : Option Replica
  state : Replica → ReplicaState
  needs : Replica → Bool

namespace Roles

def up (v : Roles) (r : Replica) : Roles :=
  { v with
    primary :=
      if v.mode = .active ∧ v.primary = none ∧ v.state r = .faulted then some r else v.primary
    state := Function.update v.state r .running }

/-- The next primary is a matter of the id alone. -/
def down (v : Roles) (r : Replica) : Roles :=
  { v with
    primary :=
      if v.primary = some r then some (nextReplica r)
      else if v.mode = .passive ∧ v.primary = none then some r
      else v.primary
    state := Function.update v.state r .faulted
    needs :=
      if v.mode = .passive ∧ v.primary ≠ none then Function.update v.needs r true else v.needs }

def next (v : Roles) (r : Replica) : ReplicaState → Roles
  | .running => v.up r
  | .faulted => v.down r
  | _ => v

end Roles

def Manager.roles (m : Manager) : Roles :=
  ⟨m.mode, m.primaryReplicaId, fun i => (m.node i).state, m.needsCheckpoint⟩

theorem nextReplica_ne (r : Replica) : nextReplica r ≠ r := by
  revert r
  decide

theorem nextReplica_next_ne (r : Replica) : nextReplica (nextReplica r) ≠ r := by
  revert r
  decide

theorem replica_cases (r q : Replica) :
    q = r ∨ q = nextReplica r ∨ q = nextReplica (nextReplica r) := by
  revert r q
  decide

/-! ### What one message changes -/

variable {net : ℕ → Bool}

@[simp] theorem send_mgr (t : Turn) (r : Replica) (msg : FactoryMsg) :
    (send net t r msg).1.mgr = t.mgr := rfl

theorem noted_eq (p : Turn × Bool) : (noted p).mgr = p.1.mgr ∧ (noted p).sent = p.1.sent := by
  unfold noted
  split
  · exact ⟨rfl, rfl⟩
  · exact ⟨rfl, rfl⟩

@[simp] theorem noted_mgr (p : Turn × Bool) : (noted p).mgr = p.1.mgr := (noted_eq p).1

@[simp] theorem noted_sent (p : Turn × Bool) : (noted p).sent = p.1.sent := (noted_eq p).2

@[simp] theorem sendChangeStatusToServer_mgr (t : Turn) (r : Replica) (modeRep : RepMode)
    (serverState : ServerStates) :
    (sendChangeStatusToServer net t r modeRep serverState).1.mgr = t.mgr := by
  unfold sendChangeStatusToServer
  split
  · rfl
  · rfl

/-- The assignment in `elect_new_primary` repeats what every caller has set. -/
theorem electNewPrimary_mgr {t : Turn} {r : Replica} (h : t.mgr.primaryReplicaId = some r) :
    (electNewPrimary net t r).1.mgr = t.mgr := by
  unfold electNewPrimary
  dsimp only
  split
  · show { t.mgr with primaryReplicaId := some r } = t.mgr
    rw [← h]
  · rfl

theorem toRunning_mgr (msg : FactoryMsg) (t : Turn) : (toRunning net msg t).mgr = t.mgr := by
  unfold toRunning
  induction List.finRange 3 generalizing t with
  | nil => rfl
  | cons i is ih =>
    rw [List.foldl_cons, ih]
    split
    · rfl
    · rfl

/-! ### What the branches change -/

theorem roles_setNodeState (m : Manager) (r : Replica) (state : ReplicaState) :
    (setNodeState m r state).roles =
      { m.roles with state := Function.update m.roles.state r state } := by
  unfold Manager.roles setNodeState
  congr 1
  funext i
  by_cases hi : i = r
  · subst hi
    simp
  · simp [hi]

/-- SENT_STARTUP_REQ is set or not as the attempt succeeds; behind the last
assignment of the branch nothing depends on it. -/
theorem restartServer_roles (net : ℕ → Bool) (t : Turn) (r : Replica) :
    ∃ state, (restartServer net t r).mgr.roles =
      { t.mgr.roles with state := Function.update t.mgr.roles.state r state } := by
  unfold restartServer
  dsimp only
  split
  · exact ⟨.sentStartupReq, roles_setNodeState ..⟩
  · refine ⟨t.mgr.roles.state r, ?_⟩
    rw [Function.update_eq_self]
    rfl

theorem moveOn_mgr (t : Turn) (r : Replica) :
    (moveOn net t r).mgr = { t.mgr with primaryReplicaId := some (nextReplica r) } := by
  unfold moveOn
  rw [noted_mgr, electNewPrimary_mgr rfl]

theorem roles_markNeedsCheckpoint (t : Turn) (r : Replica) :
    (markNeedsCheckpoint t r).mgr.roles =
      { t.mgr.roles with needs := Function.update t.mgr.roles.needs r true } := rfl

theorem roles_moveOn (t : Turn) (r : Replica) :
    (moveOn net t r).mgr.roles = { t.mgr.roles with primary := some (nextReplica r) } := by
  rw [moveOn_mgr]
  rfl

theorem passiveDown_roles (t : Turn) (r : Replica) (hmode : t.mgr.mode = .passive) :
    (setTurnState (passiveDown net t r) r .faulted).mgr.roles = t.mgr.roles.down r := by
  obtain ⟨state, hrestart⟩ := restartServer_roles net t r
  have hm : t.mgr.roles.mode = .passive := hmode
  show (setNodeState (passiveDown net t r).mgr r .faulted).roles = _
  rw [roles_setNodeState]
  unfold passiveDown
  dsimp only
  cases hp : t.mgr.primaryReplicaId with
  | none =>
    have hpr : t.mgr.roles.primary = none := hp
    show { (restartServer net t r).mgr.roles with
      primary := some r
      state := Function.update (restartServer net t r).mgr.roles.state r .faulted } = _
    rw [hrestart]
    simp [Roles.down, hpr, hm]
  | some p =>
    have hpr : t.mgr.roles.primary = some p := hp
    dsimp only
    by_cases hr : r = p
    · subst hr
      rw [if_pos rfl, roles_markNeedsCheckpoint, roles_moveOn, hrestart]
      simp [Roles.down, hpr, hm]
    · rw [if_neg hr, roles_markNeedsCheckpoint, hrestart]
      simp [Roles.down, hpr, hm, Ne.symm hr]

theorem activeDown_roles (t : Turn) (r : Replica) (hmode : t.mgr.mode = .active) :
    (setTurnState (activeDown net t r) r .faulted).mgr.roles = t.mgr.roles.down r := by
  obtain ⟨state, hrestart⟩ := restartServer_roles net t r
  have hm : t.mgr.roles.mode = .active := hmode
  show (setNodeState (activeDown net t r).mgr r .faulted).roles = _
  rw [roles_setNodeState]
  unfold activeDown
  dsimp only
  by_cases hp : t.mgr.primaryReplicaId = some r
  · have hpr : t.mgr.roles.primary = some r := hp
    rw [if_pos hp, roles_moveOn, hrestart]
    simp [Roles.down, hpr, hm]
  · have hpr : t.mgr.roles.primary ≠ some r := hp
    rw [if_neg hp, hrestart]
    simp [Roles.down, hpr, hm]

theorem assignRole_mgr (t : Turn) (r : Replica) : (assignRole net t r).mgr = t.mgr := by
  unfold assignRole
  split
  · rw [noted_mgr, sendChangeStatusToServer_mgr]
  · rename_i hp
    rw [noted_mgr, electNewPrimary_mgr (not_not.mp hp)]

theorem passiveUp_cases {t u : Turn} {r : Replica} {b : Bool}
    (h : passiveUp net t r = .ok (u, b)) :
    (t.mgr.needsCheckpoint r = false ∧ u = assignRole net t r ∧ b = true) ∨
      (t.mgr.needsCheckpoint r = true ∧ ∃ p, t.mgr.primaryReplicaId = some p ∧
        instructPrimaryToSendChkpt net (assignRole net t r) p = (u, b)) := by
  unfold passiveUp at h
  dsimp only at h
  rw [assignRole_mgr] at h
  split at h
  · rename_i hn
    split at h
    · cases h
    · rename_i p hp
      exact Or.inr ⟨hn, p, hp, Except.ok.inj h⟩
  · rename_i hn
    cases h
    exact Or.inl ⟨by simpa using hn, rfl, rfl⟩

theorem passiveUp_mgr {t u : Turn} {r : Replica} {b : Bool}
    (h : passiveUp net t r = .ok (u, b)) : u.mgr = t.mgr := by
  rcases passiveUp_cases h with ⟨-, rfl, -⟩ | ⟨-, p, -, hsend⟩
  · exact assignRole_mgr t r
  · have hu : u = (instructPrimaryToSendChkpt net (assignRole net t r) p).1 := by rw [hsend]
    rw [hu]
    exact assignRole_mgr t r

theorem activeUp_roles (t : Turn) (r : Replica) (hmode : t.mgr.mode = .active)
    (hstate : (t.mgr.node r).state = .faulted) :
    (setTurnState (activeUp net t r .running) r .running).mgr.roles = t.mgr.roles.up r := by
  have hm : t.mgr.roles.mode = .active := hmode
  have hs : t.mgr.roles.state r = .faulted := hstate
  show (setNodeState (activeUp net t r .running).mgr r .running).roles = _
  rw [roles_setNodeState]
  unfold activeUp
  cases hp : t.mgr.primaryReplicaId with
  | none =>
    have hpr : t.mgr.roles.primary = none := hp
    dsimp only
    rw [noted_mgr, sendChangeStatusToServer_mgr]
    show { t.mgr.roles with
      primary := some r
      state := Function.update t.mgr.roles.state r .running } = _
    simp [Roles.up, hm, hpr, hs]
  | some p =>
    have hpr : t.mgr.roles.primary = some p := hp
    dsimp only
    have hmgr : (noted (sendChangeStatusToServer net (stopQuiesceAll net
        (noted (instructPrimaryToSendChkpt net (quiesceAll net (noted (sendChangeStatusToServer net
          (setTurnState t r .running) r .activeRep .activeRecover))) p))) r .activeRep
            .activeRunning)).mgr = setNodeState t.mgr r .running := by
      simp [stopQuiesceAll, quiesceAll, toRunning_mgr, instructPrimaryToSendChkpt, setTurnState]
    rw [hmgr, roles_setNodeState]
    simp [Roles.up, hpr]

/-! ### What is sent -/

def Sends (P : Sent → Prop) (t : Turn) : Prop := ∀ s ∈ t.sent, P s

section
variable {P : Sent → Prop} {t : Turn} {r : Replica}

theorem sends_nil (ht : t.sent = []) : Sends P t := by
  intro s hs
  rw [ht] at hs
  cases hs

theorem sends_send {msg : FactoryMsg} (ht : Sends P t) (hP : ∀ ok, P ⟨r, msg, ok⟩) :
    Sends P (send net t r msg).1 := by
  intro s hs
  rcases List.mem_append.mp hs with hs | hs
  · exact ht s hs
  · rw [List.mem_singleton.mp hs]
    exact hP _

theorem sends_noted {p : Turn × Bool} (h : Sends P p.1) : Sends P (noted p) := by
  unfold Sends
  rw [noted_sent]
  exact h

theorem sends_electNewPrimary (ht : Sends P t)
    (hP : ∀ ok, P ⟨r, fillMessageForPrimaryElection t.mgr r, ok⟩) :
    Sends P (electNewPrimary net t r).1 := by
  have hsend : Sends P (send net t r (fillMessageForPrimaryElection t.mgr r)).1 := sends_send ht hP
  unfold electNewPrimary
  dsimp only
  split
  · exact hsend
  · exact hsend

theorem sends_changeStatus {modeRep : RepMode} {serverState : ServerStates} (ht : Sends P t)
    (hfill : modeRep = .activeRep → ∀ ok, P ⟨r, fillMessageForPrimaryElection t.mgr r, ok⟩)
    (hP : ∀ ok, P ⟨r, .changeState modeRep serverState none, ok⟩) :
    Sends P (sendChangeStatusToServer net t r modeRep serverState).1 := by
  unfold sendChangeStatusToServer
  split
  · rename_i hmode
    exact sends_send ht (hfill hmode.1)
  · exact sends_send ht hP

theorem sends_restartServer (ht : Sends P t)
    (hP : ∀ ok, P ⟨r, .startup (t.mgr.node r).server, ok⟩) : Sends P (restartServer net t r) := by
  have hsend : Sends P (send net t r (.startup (t.mgr.node r).server)).1 := sends_send ht hP
  unfold restartServer
  dsimp only
  split
  · exact hsend
  · exact hsend

theorem sends_toRunning {msg : FactoryMsg} (ht : Sends P t) (hP : ∀ i ok, P ⟨i, msg, ok⟩) :
    Sends P (toRunning net msg t) := by
  unfold toRunning
  induction List.finRange 3 generalizing t with
  | nil => exact ht
  | cons i is ih =>
    apply ih
    dsimp only
    split
    · exact sends_send ht (hP i)
    · exact ht

end

/-- The orders of one call: a checkpoint is asked of the primary when a replica
is up again, only the primary of the new roles is made (pre)primary, and only
active replicas are quiesced. -/
def Permitted (v : Roles) (r : Replica) (state : ReplicaState) (s : Sent) : Prop :=
  match s.msg with
  | .sendChkpt => state = .running ∧ v.state r = .faulted ∧ v.primary = some s.replica ∧
      (v.mode = .passive → v.needs r = true)
  | .changeState _ .passivePrimary _ => (v.next r state).primary = some s.replica
  | .changeState _ .passivePreprimary _ => (v.next r state).primary = some s.replica
  | .quiesceBegin => v.mode = .active
  | .quiesceStop => v.mode = .active
  | _ => True

theorem permitted_election {v : Roles} {r q : Replica} {state : ReplicaState} {m : Manager}
    (h : m.mode = .passive → (v.next r state).primary = some q) (ok : Bool) :
    Permitted v r state ⟨q, fillMessageForPrimaryElection m q, ok⟩ := by
  unfold Permitted fillMessageForPrimaryElection
  dsimp only
  cases hm : m.mode with
  | passive => exact h hm
  | active => trivial

theorem sends_moveOn {t : Turn} {v : Roles} {r : Replica} (hp : v.primary = some r)
    (ht : Sends (Permitted v r .faulted) t) : Sends (Permitted v r .faulted) (moveOn net t r) := by
  unfold moveOn
  refine sends_noted (sends_electNewPrimary ht (permitted_election fun _ => ?_))
  simp [Roles.next, Roles.down, hp]

theorem sends_passiveDown (t : Turn) (r : Replica) (ht : t.sent = []) :
    Sends (Permitted t.mgr.roles r .faulted) (passiveDown net t r) := by
  have hrestart : Sends (Permitted t.mgr.roles r .faulted) (restartServer net t r) :=
    sends_restartServer (sends_nil ht) fun _ => trivial
  unfold passiveDown
  dsimp only
  cases hp : t.mgr.primaryReplicaId with
  | none => exact hrestart
  | some p =>
    dsimp only
    split
    · rename_i hr
      subst hr
      exact sends_moveOn hp hrestart
    · exact hrestart

theorem sends_activeDown (t : Turn) (r : Replica) (ht : t.sent = []) :
    Sends (Permitted t.mgr.roles r .faulted) (activeDown net t r) := by
  have hrestart : Sends (Permitted t.mgr.roles r .faulted) (restartServer net t r) :=
    sends_restartServer (sends_nil ht) fun _ => trivial
  unfold activeDown
  dsimp only
  split
  · rename_i hp
    exact sends_moveOn hp hrestart
  · exact hrestart

theorem sends_passiveUp {t u : Turn} {r : Replica} {b : Bool} (ht : t.sent = [])
    (hstate : (t.mgr.node r).state = .faulted)
    (h : passiveUp net t r = .ok (u, b)) : Sends (Permitted t.mgr.roles r .running) u := by
  have hassign : Sends (Permitted t.mgr.roles r .running) (assignRole net t r) := by
    unfold assignRole
    split
    · exact sends_noted (sends_changeStatus (sends_nil ht) (by simp) fun _ => trivial)
    · rename_i hp
      have hpr : t.mgr.roles.primary = some r := not_not.mp hp
      refine sends_noted (sends_electNewPrimary (sends_nil ht) (permitted_election fun _ => ?_))
      simp [Roles.next, Roles.up, hpr]
  rcases passiveUp_cases h with ⟨-, rfl, -⟩ | ⟨hneeds, p, hp, hsend⟩
  · exact hassign
  · have hu : u = (send net (assignRole net t r) p .sendChkpt).1 :=
      congrArg Prod.fst hsend.symm
    rw [hu]
    exact sends_send hassign fun _ => ⟨rfl, hstate, hp, fun _ => hneeds⟩

theorem sends_activeUp (t : Turn) (r : Replica) (ht : t.sent = []) (hmode : t.mgr.mode = .active)
    (hstate : (t.mgr.node r).state = .faulted) :
    Sends (Permitted t.mgr.roles r .running) (activeUp net t r .running) := by
  have hfill : ∀ m : Manager, m.mode = .active → ∀ ok,
      Permitted t.mgr.roles r .running ⟨r, fillMessageForPrimaryElection m r, ok⟩ := by
    intro m hm
    refine permitted_election fun hpassive => ?_
    rw [hm] at hpassive
    cases hpassive
  unfold activeUp
  cases hp : t.mgr.primaryReplicaId with
  | none => exact sends_noted (sends_changeStatus (sends_nil ht) (fun _ => hfill _ hmode) fun _ => trivial)
  | some p =>
    have hrecover : Sends (Permitted t.mgr.roles r .running)
        (noted (sendChangeStatusToServer net (setTurnState t r .running) r .activeRep
          .activeRecover)) :=
      sends_noted (sends_changeStatus (sends_nil ht) (fun _ => hfill _ hmode) fun _ => trivial)
    have hchkpt : ∀ ok, Permitted t.mgr.roles r .running ⟨p, .sendChkpt, ok⟩ := by
      intro ok
      refine ⟨rfl, hstate, hp, fun hpassive => ?_⟩
      rw [show t.mgr.roles.mode = .active from hmode] at hpassive
      cases hpassive
    refine sends_noted (sends_changeStatus ?_ (fun _ => hfill _ ?_) fun _ => trivial)
    · refine sends_toRunning (sends_noted (sends_send ?_ hchkpt)) fun _ _ => hmode
      exact sends_toRunning hrecover fun _ _ => hmode
    · simp [stopQuiesceAll, quiesceAll, toRunning_mgr, instructPrimaryToSendChkpt, setTurnState,
        setNodeState, hmode]

/-! ### One call -/

theorem roles_up_eq (t : Turn) (r : Replica)
    (h : ¬(t.mgr.mode = .active ∧ (t.mgr.node r).state = .faulted)) :
    (setTurnState t r .running).mgr.roles = t.mgr.roles.up r := by
  have hup : ¬(t.mgr.roles.mode = .active ∧ t.mgr.roles.primary = none ∧
      t.mgr.roles.state r = .faulted) := fun hall => h ⟨hall.1, hall.2.2⟩
  show (setNodeState t.mgr r .running).roles = _
  rw [roles_setNodeState, Roles.up, if_neg hup]

/-- The branches of `handle_state` move the roles as `Roles.next` says; the
early return leaves the manager as it was. -/
theorem handleReport_spec {t u : Turn} {report : Report} {b : Bool} (ht : t.sent = [])
    (hstate : (t.mgr.node report.replicaId).state ≠ .sentStartupReq)
    (h : handleReport net t report = .ok (u, b)) :
    Sends (Permitted t.mgr.roles report.replicaId report.state) u ∧
      ((b = true ∧ u.mgr.roles = t.mgr.roles.next report.replicaId report.state) ∨
        (b = false ∧ u.mgr = t.mgr ∧ report.state = .running)) := by
  unfold handleReport at h
  dsimp only at h
  cases hrep : report.state with
  | running =>
    rw [hrep] at h
    dsimp only at h
    split at h
    · rename_i hfaulted
      cases hm : t.mgr.mode with
      | passive =>
        rw [hm] at h
        dsimp only at h
        split at h
        · cases h
        · rename_i v hv
          cases h
          have hsent : Sends (Permitted t.mgr.roles report.replicaId .running) v :=
            sends_passiveUp ht hfaulted hv
          refine ⟨hsent, Or.inl ⟨rfl, ?_⟩⟩
          rw [roles_up_eq v _ (by rw [passiveUp_mgr hv, hm]; simp), passiveUp_mgr hv]
          rfl
        · rename_i v hv
          cases h
          exact ⟨sends_passiveUp ht hfaulted hv, Or.inr ⟨rfl, passiveUp_mgr hv, rfl⟩⟩
      | active =>
        rw [hm] at h
        cases h
        exact ⟨sends_activeUp t _ ht hm hfaulted, Or.inl ⟨rfl, activeUp_roles t _ hm hfaulted⟩⟩
    · rename_i hup
      cases h
      exact ⟨sends_nil ht, Or.inl ⟨rfl, roles_up_eq t _ fun hall => hup hall.2⟩⟩
  | faulted =>
    rw [hrep] at h
    dsimp only at h
    rw [if_pos hstate] at h
    cases hm : t.mgr.mode with
    | passive =>
      rw [hm] at h
      cases h
      exact ⟨sends_passiveDown t _ ht, Or.inl ⟨rfl, passiveDown_roles t _ hm⟩⟩
    | active =>
      rw [hm] at h
      cases h
      exact ⟨sends_activeDown t _ ht, Or.inl ⟨rfl, activeDown_roles t _ hm⟩⟩
  | sentStartupReq | other n =>
    rw [hrep] at h
    cases h
    exact ⟨sends_nil ht, Or.inl ⟨rfl, rfl⟩⟩

def entered (m : Manager) (report : Report) : Manager :=
  { m with
    locked := true
    node := Function.update m.node report.replicaId { m.node report.replicaId with
      lastHeartbeat := 1, serverState := report.serverState } }

theorem entered_node (m : Manager) (report : Report) (i : Replica) :
    ((entered m report).node i).state = (m.node i).state ∧
      ((entered m report).node i).server = (m.node i).server := by
  unfold entered
  dsimp only
  by_cases hi : i = report.replicaId
  · subst hi
    rw [Function.update_self]
    exact ⟨rfl, rfl⟩
  · rw [Function.update_of_ne hi]
    exact ⟨rfl, rfl⟩

theorem entered_state (m : Manager) (report : Report) (i : Replica) :
    ((entered m report).node i).state = (m.node i).state :=
  (entered_node m report i).1

theorem entered_roles (m : Manager) (report : Report) : (entered m report).roles = m.roles := by
  unfold Manager.roles
  congr 1
  funext i
  exact entered_state m report i

theorem printCurrentStateInfo_roles (m : Manager) (report : Report) :
    (printCurrentStateInfo m report).roles = m.roles := by
  unfold printCurrentStateInfo
  dsimp only
  split
  · rfl
  · split
    · rfl
    · rfl

theorem handleState_entered (net : ℕ → Bool) (m : Manager) (report : Report) (hfree : m.locked = false) :
    handleState net m report =
      match handleReport net { mgr := entered m report } report with
      | .error f => .error f
      | .ok (t, false) => .ok (-1, t.mgr, t.sent)
      | .ok (t, true) => .ok (t.ret, { printCurrentStateInfo t.mgr report with locked := false }, t.sent) := by
  unfold handleState
  rw [if_neg (by simp [hfree])]
  rfl

theorem handleState_free {m : Manager} {report : Report} {out : ℤ × Manager × List Sent}
    (h : handleState net m report = .ok out) : m.locked = false := by
  unfold handleState at h
  split at h
  · cases h
  · rename_i hfree
    exact Bool.not_eq_true _ ▸ hfree

theorem handleReport_faulted (net : ℕ → Bool) (t : Turn) {report : Report}
    (hstate : report.state = .faulted) : ∃ u, handleReport net t report = .ok (u, true) := by
  unfold handleReport
  dsimp only
  rw [hstate]
  dsimp only
  split
  · cases t.mgr.mode with
    | passive => exact ⟨_, rfl⟩
    | active => exact ⟨_, rfl⟩
  · exact ⟨_, rfl⟩

theorem handleState_faulted (net : ℕ → Bool) {m : Manager} {report : Report}
    (hfree : m.locked = false) (hstate : report.state = .faulted) :
    ∃ out, handleState net m report = .ok out := by
  obtain ⟨u, hu⟩ := handleReport_faulted net { mgr := entered m report } hstate
  rw [handleState_entered net m report hfree, hu]
  exact ⟨_, rfl⟩

/-- A call that returns moves the roles, whatever the network does, or it keeps
them and the lock. -/
theorem handleState_spec {m m' : Manager} {report : Report} {ret : ℤ} {sent : List Sent}
    (h : handleState net m report = .ok (ret, m', sent))
    (hstate : (m.node report.replicaId).state ≠ .sentStartupReq) :
    (∀ s ∈ sent, Permitted m.roles report.replicaId report.state s) ∧
      ((m'.locked = false ∧ m'.roles = m.roles.next report.replicaId report.state) ∨
        (m'.locked = true ∧ m'.roles = m.roles ∧ report.state = .running)) := by
  rw [handleState_entered net m report (handleState_free h)] at h
  have hentered : ((entered m report).node report.replicaId).state ≠ .sentStartupReq := by
    rw [entered_state]
    exact hstate
  split at h
  · cases h
  · rename_i t hreport
    cases h
    obtain ⟨hsent, ⟨hb, -⟩ | ⟨-, hmgr, hrun⟩⟩ := handleReport_spec rfl hentered hreport
    · cases hb
    · rw [entered_roles] at hsent
      refine ⟨hsent, Or.inr ⟨?_, ?_, hrun⟩⟩
      · rw [hmgr]
        rfl
      · rw [hmgr, entered_roles]
  · rename_i t hreport
    cases h
    obtain ⟨hsent, ⟨-, hroles⟩ | ⟨hb, -, -⟩⟩ := handleReport_spec rfl hentered hreport
    · rw [entered_roles] at hsent hroles
      refine ⟨hsent, Or.inl ⟨rfl, ?_⟩⟩
      rw [← hroles]
      exact printCurrentStateInfo_roles t.mgr report
    · cases hb

end ToDoList
