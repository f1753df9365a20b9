import ToDoList.Recovery

/-!
# Roles and assertions in passive mode

What the manager of passive mode orders, what a server makes of it, and what both
keep in every run: no assertion of state.c can fail, whatever is lost, delayed or
out of date, and exactly a PASSIVE_PRIMARY has its checkpoint thread.
-/

namespace ToDoList
open CLib StepRun

/-! ### What all parties keep -/

/-- One predicate on the manager, one on the orders it sends, one on the servers:
what each party does within them stays within them. -/
structure ClusterRule (env : Env) (M : Manager → Prop) (P : FactoryMsg → Prop) (S : Server → Prop) :
    Prop where
  report : ∀ {net : ℕ → Bool} {m m' : Manager} {r : Report} {ret : ℤ} {sent : List Sent}, M m →
    handleState net m r = .ok (ret, m', sent) → M m' ∧ ∀ s ∈ sent, P s.msg
  fresh : ∀ i : Replica, S { serverId := i.val }
  relayed : ∀ {s t : Server} {rand : ℕ} {fd : ℤ} {conn : ℕ} {msg : FactoryMsg} {effs : List Effect}, S s →
    P msg → handleConnection s rand { fd := fd, conn := conn, req := relay msg } = .ok (t, effs) → S t
  client : ∀ {s t : Server} {rand : ℕ} {ctx : ClientCtx} {effs : List Effect}, S s →
    fromClient ctx.req.msgType = true → handleConnection s rand ctx = .ok (t, effs) → S t
  worker : ∀ {s t : Server} {e : ServerEvent} {effs : List Effect}, S s → isWorker e = true →
    serverStep env s e = .ok (t, effs) → S t

structure ClusterWithin (M : Manager → Prop) (P : FactoryMsg → Prop) (S : Server → Prop) (c : Cluster) : Prop where
  mgr : M c.mgr
  orders : ∀ j, ∀ msg ∈ c.toFactory j, P msg
  requests : ∀ j, ∀ req ∈ c.toServer j, ∃ msg, P msg ∧ req = relay msg
  servers : ∀ j s, c.server j = some s → S s

section
variable {env : Env} {M : Manager → Prop} {P : FactoryMsg → Prop} {S : Server → Prop} {c c' : Cluster}

theorem ClusterWithin.crash (h : ClusterWithin M P S c) (i : Replica) : ClusterWithin M P S (crashServer c i) := by
  refine ⟨h.mgr, h.orders, ?_, ?_⟩
  · exact (Function.forall_update_iff c.toServer fun _ reqs =>
      ∀ req ∈ reqs, ∃ msg, P msg ∧ req = relay msg).mpr ⟨by simp, fun j _ => h.requests j⟩
  · exact (Function.forall_update_iff c.server fun _ o => ∀ s, o = some s → S s).mpr
      ⟨by simp, fun j _ => h.servers j⟩

theorem ClusterWithin.server (h : ClusterWithin M P S c) {i : Replica} {s : Server} (hs : S s) :
    ClusterWithin M P S { c with server := Function.update c.server i (some s) } := by
  refine ⟨h.mgr, h.orders, h.requests, ?_⟩
  exact (Function.forall_update_iff c.server fun _ o => ∀ s, o = some s → S s).mpr
    ⟨fun t ht => Option.some.inj ht ▸ hs, fun j _ => h.servers j⟩

theorem ClusterWithin.settle (h : ClusterWithin M P S c) {i : Replica} {r : Except Fault (Server × List Effect)}
    (hr : ∀ t effs, r = .ok (t, effs) → S t) (hset : settle c i r = some c') : ClusterWithin M P S c' := by
  unfold ToDoList.settle at hset
  split at hset
  · rename_i t effs
    cases hset
    exact h.server (hr t effs rfl)
  · cases hset
  · cases hset
    exact h.crash i

/-- A command is dropped, starts a server or is relayed. -/
theorem ClusterWithin.factory (h : ClusterWithin M P S c) (hfresh : ∀ i : Replica, S { serverId := i.val })
    {i : Replica} {msg : FactoryMsg} (hmsg : P msg) : ClusterWithin M P S (handleRepManCommand c i msg) := by
  unfold handleRepManCommand
  split
  · exact h.server (hfresh i)
  · exact h
  · exact h
  · refine ⟨h.mgr, h.orders, ?_, h.servers⟩
    refine (Function.forall_update_iff c.toServer fun _ reqs =>
      ∀ req ∈ reqs, ∃ msg, P msg ∧ req = relay msg).mpr ⟨fun req hreq => ?_, fun j _ => h.requests j⟩
    rcases List.mem_append.mp hreq with hold | hnew
    · exact h.requests i req hold
    · exact ⟨_, hmsg, List.mem_singleton.mp hnew⟩

theorem ClusterRule.step (hrule : ClusterRule env M P S) (h : ClusterWithin M P S c) {e : ClusterEvent}
    (hstep : clusterStep env c e = some c') : ClusterWithin M P S c' := by
  cases clusterStep_move hstep with
  | connect i hidle => exact ⟨h.mgr, h.orders, h.requests, h.servers⟩
  | heartbeat i hprobing => exact ⟨h.mgr, h.orders, h.requests, h.servers⟩
  | report hq hcall =>
    obtain ⟨hmgr, hsent⟩ := hrule.report h.mgr hcall
    refine ⟨hmgr, fun j msg hmsg => ?_, h.requests, h.servers⟩
    rcases List.mem_append.mp hmsg with hold | hnew
    · exact h.orders j msg hold
    · obtain ⟨s, hs, -, rfl⟩ := mem_delivered hnew
      exact hsent s hs
  | @factory i msg rest hq =>
    have htaken : ClusterWithin M P S { c with toFactory := Function.update c.toFactory i rest } :=
      ⟨h.mgr, fun j x hx => h.orders j x (mem_of_mem_tail hq hx), h.requests, h.servers⟩
    exact htaken.factory hrule.fresh (h.orders i msg (by rw [hq]; exact List.mem_cons_self ..))
  | @relayed i rand fd conn req rest s c' hq hs hsettle =>
    have htaken : ClusterWithin M P S { c with toServer := Function.update c.toServer i rest } :=
      ⟨h.mgr, h.orders, fun j x hx => h.requests j x (mem_of_mem_tail hq hx), h.servers⟩
    obtain ⟨msg, hmsg, rfl⟩ := h.requests i req (by rw [hq]; exact List.mem_cons_self ..)
    exact htaken.settle (fun t effs hconn => hrule.relayed (h.servers i s hs) hmsg hconn) hsettle
  | client hs htype hsettle =>
    exact h.settle (fun t effs hconn => hrule.client (h.servers _ _ hs) htype hconn) hsettle
  | worker hs hw hsettle =>
    exact h.settle (fun t effs hserver => hrule.worker (h.servers _ _ hs) hw hserver) hsettle
  | crash hs => exact h.crash _

end

/-! ### What a passive manager orders -/

section
variable {net : ℕ → Bool}

end

/-! ### A server of passive mode -/

/-- What a MSG_REP_MGR of passive mode asks for. -/
def passiveCommand (req : ClientRequest) : Prop :=
  req.msgType = .msgRepMgr → req.repMgrMsg.repMode = .passiveRep ∧
    (req.repMgrMsg.serverState = .passiveBackup ∨ req.repMgrMsg.serverState = .passivePreprimary)

/-- A server without a role, or with one of passive mode: the checkpoint thread is
that of a primary, and a command to send a checkpoint is never ignored. -/
structure InPassive (s : Server) : Prop where
  role : (s.repMode = .unknownRep ∧ s.state = .unknownState) ∨
    (s.repMode = .passiveRep ∧ stateAllowed .passiveRep s.state = true)
  thread : s.isChkptThrdRunning = decide (s.state = .passivePrimary)
  prev : s.prevState = .unknownState
  ctrl : ∀ ctx ∈ s.ctrl, passiveCommand ctx.req

theorem InPassive.same {s t : Server} (h : InPassive s) (hst : SameRole s t)
    (hthread : t.isChkptThrdRunning = s.isChkptThrdRunning) : InPassive t := by
  refine ⟨?_, ?_, hst.prev.trans h.prev, hst.ctrl ▸ h.ctrl⟩
  · rw [hst.mode, hst.state]
    exact h.role
  · rw [hthread, hst.state]
    exact h.thread

theorem InPassive.promoted {s : Server} (h : InPassive s) (hs : s.state = .passivePreprimary) :
    InPassive (promoted s) := by
  refine ⟨Or.inr ⟨?_, rfl⟩, rfl, h.prev, h.ctrl⟩
  rcases h.role with ⟨-, hnone⟩ | ⟨hmode, -⟩
  · rw [hs] at hnone
    cases hnone
  · exact hmode

/-! ### The NORMAL worker -/

/-- A role of passive mode is taken by a server without a mode, and by one of
passive mode. -/
theorem handleRepMsg_taken {s : Server} {ctx : ClientCtx}
    (hs : s.repMode = .unknownRep ∨ s.repMode = .passiveRep) (hmode : ctx.req.repMgrMsg.repMode = .passiveRep)
    (hstate : ctx.req.repMgrMsg.serverState = .passiveBackup ∨
      ctx.req.repMgrMsg.serverState = .passivePreprimary) :
    handleRepMsg s ctx = .ok { s with
      repMode := .passiveRep, state := ctx.req.repMgrMsg.serverState, isChkptThrdRunning := false,
      bckupSvr := ctx.req.repMgrMsg.bckupSvr, checkpointFreq := ctx.req.repMgrMsg.checkpointFreq } := by
  rcases hs with hs | hs
  · rcases hstate with hto | hto
    · simp [handleRepMsg, setMode, setState, stateAllowed, killChkptThrdIfRunning, hs, hmode, hto]
    · simp [handleRepMsg, setMode, setState, stateAllowed, killChkptThrdIfRunning, hs, hmode, hto]
  · rcases hstate with hto | hto
    · simp [handleRepMsg, setState, stateAllowed, killChkptThrdIfRunning, hs, hto]
    · simp [handleRepMsg, setState, stateAllowed, killChkptThrdIfRunning, hs, hto]

end ToDoList
