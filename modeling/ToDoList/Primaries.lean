import ToDoList.Cluster
import ToDoList.Elections
import ToDoList.ServerSpec

/-!
# At most one primary

A replica is a candidate while its server is PASSIVE_PREPRIMARY or
PASSIVE_PRIMARY or a command that makes it so is on its way: in the queue of
its factory, on a connection, or in the CONTROL log. Every candidate is the
primary of the manager as long as the manager takes the role away from a
replica only when that replica is no candidate any more.
-/

namespace ToDoList
open CLib StepRun

def leading (state : ServerStates) : Bool := state = .passivePreprimary || state = .passivePrimary

def elects (req : ClientRequest) : Bool :=
  req.msgType = .msgRepMgr && leading req.repMgrMsg.serverState

def electsMsg : FactoryMsg → Bool
  | .changeState _ serverState _ => leading serverState
  | _ => false

def leads (c : Cluster) (i : Replica) : Bool := (c.server i).any fun s => leading s.state

/-- A server that leads or will when its CONTROL log is executed. -/
def Server.candidate (s : Server) : Bool := leading s.state || s.ctrl.any fun ctx => elects ctx.req

def candidate (c : Cluster) (i : Replica) : Bool :=
  (c.server i).any Server.candidate || (c.toServer i).any elects || (c.toFactory i).any electsMsg

theorem candidate_of_leads {c : Cluster} {i : Replica} (h : leads c i = true) :
    candidate c i = true := by
  unfold leads at h
  cases hs : c.server i with
  | none =>
    rw [hs] at h
    cases h
  | some s =>
    rw [hs] at h
    have hl : leading s.state = true := h
    simp [candidate, Server.candidate, hs, hl]

/-! ### The steps of a server -/

/-- On its own a server only goes from PREPRIMARY to PRIMARY. -/
def Promotes (s t : Server) : Prop :=
  t.ctrl = s.ctrl ∧
    (t.state = s.state ∨ (s.state = .passivePreprimary ∧ t.state = .passivePrimary))

theorem Promotes.trans {s t u : Server} (h : Promotes s t) (h' : Promotes t u) : Promotes s u := by
  refine ⟨h'.1.trans h.1, ?_⟩
  rcases h.2 with hst | ⟨hs, ht⟩
  · rcases h'.2 with htu | ⟨ht, hu⟩
    · exact Or.inl (htu.trans hst)
    · exact Or.inr ⟨hst ▸ ht, hu⟩
  · rcases h'.2 with htu | ⟨ht', -⟩
    · exact Or.inr ⟨hs, htu.trans ht⟩
    · cases ht.symm.trans ht'

theorem Promotes.candidate {s t : Server} (h : Promotes s t) (ht : t.candidate = true) :
    s.candidate = true := by
  unfold Server.candidate at ht ⊢
  rw [h.1] at ht
  rcases h.2 with hst | ⟨hs, -⟩
  · rw [← hst]
    exact ht
  · simp [leading, hs]

theorem executeMsg_promotes {env : Env} {s t : Server} {ctx : ClientCtx} {effs : List Effect}
    (h : executeMsg env s ctx = .ok (t, effs)) : Promotes s t := by
  obtain ⟨ret, store, ctx', fail, -, rfl | ⟨-, hs, rfl⟩, -, -⟩ := executeMsg_cases h
  · exact ⟨rfl, Or.inl rfl⟩
  · exact ⟨rfl, Or.inr ⟨hs, rfl⟩⟩

theorem pruneLoop_promotes {env : Env} {log : List ClientCtx} {s t : Server} {effs : List Effect}
    (h : pruneLoop env log s = .ok (t, effs)) : Promotes s t := by
  induction log generalizing s effs with
  | nil =>
    cases h
    exact ⟨rfl, Or.inl rfl⟩
  | cons c rest ih =>
    rw [pruneLoop] at h
    split at h
    · split at h
      · cases h
      · rename_i hloop
        cases h
        have hrest := ih hloop
        exact hrest
    · split at h
      · cases h
      · rename_i u effs₁ hexec
        split at h
        · cases h
        · rename_i hloop
          cases h
          have hfirst := (executeMsg_promotes hexec).trans (ih hloop)
          exact hfirst

theorem normalTurn_promotes {env : Env} {s t : Server} {effs : List Effect}
    (h : normalTurn env s = .ok (t, effs)) : Promotes s t := by
  rcases normalTurn_cases h with ⟨-, rfl | ⟨hs, rfl⟩⟩ | ⟨c, rest, -, -, hexec⟩
  · exact ⟨rfl, Or.inl rfl⟩
  · exact ⟨rfl, Or.inr ⟨hs, rfl⟩⟩
  · have hturn := executeMsg_promotes hexec
    exact hturn

theorem runNormal_promotes {env : Env} {s t : Server} {effs : List Effect}
    (h : runNormal env s = .ok (t, effs)) : Promotes s t := by
  rcases runNormal_cases h with ⟨-, hturn⟩ | ⟨-, u, hloop, rfl | ⟨hu, rfl⟩⟩
  · exact normalTurn_promotes hturn
  · exact pruneLoop_promotes hloop
  · exact (pruneLoop_promotes hloop).trans ⟨rfl, Or.inr ⟨hu, rfl⟩⟩

/-- A MSG_REP_MGR at the head of the CONTROL log counted before it is executed. -/
theorem runControl_candidate {env : Env} {s t : Server} {effs : List Effect}
    (h : runControl env s = .ok (t, effs)) (ht : t.candidate = true) : s.candidate = true := by
  rcases runControl_cases h with ⟨-, rfl, -⟩ | ⟨ctx, rest, hlog, hexec⟩
  · exact ht
  · have hctrl : t.ctrl = rest := (executeMsgCtrl_frame hexec).2.1
    unfold Server.candidate at ht ⊢
    rw [hctrl] at ht
    rw [hlog, List.any_cons]
    obtain ⟨body, -, ⟨htype, hrep, -⟩ | ⟨-, -, hsend⟩ | ⟨rfl, -⟩⟩ := executeMsgCtrl_cases hexec
    · rw [handleRepMsg_state hrep] at ht
      have hhead : elects ctx.req = leading ctx.req.repMgrMsg.serverState := by
        simp [elects, htype]
      rw [hhead, ht]
      exact Bool.or_true _
    · obtain ⟨file, -, rfl, -⟩ := sendCheckpoint_cases hsend
      grind
    · grind

theorem enqueueClientReq_candidate {s : Server} {ctx : ClientCtx}
    (h : (enqueueClientReq s ctx).2.candidate = true) :
    s.candidate = true ∨ elects ctx.req = true := by
  unfold Server.candidate at h ⊢
  rw [(enqueueClientReq_role s ctx).2] at h
  rcases enqueueClientReq_cases s ctx with ⟨-, he⟩ | ⟨-, -, he⟩ | ⟨-, -, he⟩
  · rw [he] at h
    exact Or.inl h
  · rw [he] at h
    simp only [List.any_append, List.any_cons, List.any_nil] at h
    grind
  · rw [he] at h
    exact Or.inl h

theorem handleConnection_candidate {s t : Server} {rand : ℕ} {ctx : ClientCtx} {effs : List Effect}
    (hq : isQuiesceCommand ctx.req.msgType = false)
    (h : handleConnection s rand ctx = .ok (t, effs)) (ht : t.candidate = true) :
    s.candidate = true ∨ elects ctx.req = true := by
  obtain ⟨u, ctx', hpark⟩ : ∃ u ctx', parkPayload s rand ctx = (u, ctx') := ⟨_, _, rfl⟩
  obtain ⟨⟨name, rfl⟩, hu⟩ := parkPayload_frame hpark
  have hsame : u.candidate = s.candidate := by
    rw [hu]
    rfl
  rcases handleConnection_cases hpark h with ⟨hquiesce, -, -⟩ | ⟨-, rfl, -⟩
  · have hc : isQuiesceCommand ctx.req.msgType = true := hquiesce
    rw [hq] at hc
    cases hc
  · rcases enqueueClientReq_candidate ht with hs | he
    · rw [← hsame]
      exact Or.inl hs
    · exact Or.inr he

theorem worker_candidate {env : Env} {s t : Server} {e : ServerEvent} {effs : List Effect}
    (he : isWorker e = true) (h : serverStep env s e = .ok (t, effs)) (ht : t.candidate = true) :
    s.candidate = true := by
  cases e with
  | connection rand ctx => cases he
  | reject ctx msg => cases he
  | normal => exact (runNormal_promotes h).candidate ht
  | control => exact runControl_candidate h ht
  | chkptThread =>
    rw [serverStep] at h
    split at h
    · obtain ⟨file, -, rfl, -⟩ := sendCheckpoint_cases h
      exact ht
    · cases h
      exact ht

/-! ### Commands on their way -/

theorem candidate_iff {c : Cluster} {i : Replica} :
    candidate c i = true ↔
      (∃ s, c.server i = some s ∧ s.candidate = true) ∨ (∃ req ∈ c.toServer i, elects req = true) ∨
        (∃ msg ∈ c.toFactory i, electsMsg msg = true) := by
  simp only [candidate, Bool.or_eq_true, Option.any_eq_true, List.any_eq_true, or_assoc]

theorem elects_relay (msg : FactoryMsg) : elects (relay msg) = electsMsg msg := by
  cases msg with
  | changeState repMode serverState backups =>
    have hstate : (relay (.changeState repMode serverState backups)).repMgrMsg.serverState =
        serverState := by
      unfold relay
      dsimp only
      split
      · cases backups with
        | none => rfl
        | some b => rfl
      · rfl
    show (true && leading (relay (.changeState repMode serverState backups)).repMgrMsg.serverState) = _
    rw [hstate]
    rfl
  | startup server | sendChkpt | quiesceBegin | quiesceStop => rfl

/-- The manager is passive, knows every candidate as its primary and has
quiesced nobody. -/
structure Led (c : Cluster) : Prop where
  passive : c.mgr.mode = .passive
  plain : c.mgr.roles.Plain
  owner : ∀ j, candidate c j = true → c.mgr.primaryReplicaId = some j
  calmFactory : ∀ j, ∀ msg ∈ c.toFactory j, msg ≠ .quiesceBegin ∧ msg ≠ .quiesceStop
  calmServer : ∀ j, ∀ req ∈ c.toServer j, isQuiesceCommand req.msgType = false

theorem Led.frame {c c' : Cluster} (h : Led c) (hmgr : c'.mgr = c.mgr)
    (hserver : ∀ j s, c'.server j = some s → s.candidate = true → candidate c j = true)
    (htoServer : ∀ j, ∀ req ∈ c'.toServer j, req ∈ c.toServer j ∨
      (isQuiesceCommand req.msgType = false ∧ (elects req = true → candidate c j = true)))
    (htoFactory : ∀ j, ∀ msg ∈ c'.toFactory j, msg ∈ c.toFactory j) : Led c' := by
  refine ⟨hmgr ▸ h.passive, hmgr ▸ h.plain, ?_, ?_, ?_⟩
  · intro j hj
    rw [hmgr]
    apply h.owner
    rcases candidate_iff.mp hj with ⟨s, hs, hc⟩ | ⟨req, hreq, he⟩ | ⟨msg, hmsg, he⟩
    · exact hserver j s hs hc
    · rcases htoServer j req hreq with hold | ⟨-, hnew⟩
      · exact candidate_iff.mpr (Or.inr (Or.inl ⟨req, hold, he⟩))
      · exact hnew he
    · exact candidate_iff.mpr (Or.inr (Or.inr ⟨msg, htoFactory j msg hmsg, he⟩))
  · intro j msg hmsg
    exact h.calmFactory j msg (htoFactory j msg hmsg)
  · intro j req hreq
    rcases htoServer j req hreq with hold | ⟨hcalm, -⟩
    · exact h.calmServer j req hold
    · exact hcalm

theorem led_crash {c c' : Cluster} {i : Replica} (h : Led c) (hmgr : c'.mgr = c.mgr)
    (hserver : c'.server = c.server) (htoServer : ∀ j, ∀ req ∈ c'.toServer j, req ∈ c.toServer j)
    (htoFactory : c'.toFactory = c.toFactory) : Led (crashServer c' i) := by
  refine h.frame hmgr ?_ ?_ ?_
  · intro j s hs hc
    by_cases hj : j = i
    · subst hj
      rw [show (crashServer c' j).server j = none from Function.update_self ..] at hs
      cases hs
    · rw [show (crashServer c' i).server j = c'.server j from Function.update_of_ne hj ..,
        hserver] at hs
      exact candidate_iff.mpr (Or.inl ⟨s, hs, hc⟩)
  · intro j req hreq
    by_cases hj : j = i
    · subst hj
      rw [show (crashServer c' j).toServer j = [] from Function.update_self ..] at hreq
      cases hreq
    · rw [show (crashServer c' i).toServer j = c'.toServer j from Function.update_of_ne hj ..] at hreq
      exact Or.inl (htoServer j req hreq)
  · intro j msg hmsg
    rw [show (crashServer c' i).toFactory = c.toFactory from htoFactory] at hmsg
    exact hmsg

/-- What a thread of a server does, from a cluster that differs from a led one
at most by the command the thread has read. -/
theorem led_settle {c c₁ c' : Cluster} {i : Replica} {r : Except Fault (Server × List Effect)}
    (h : Led c) (hset : settle c₁ i r = some c') (hmgr : c₁.mgr = c.mgr)
    (hserver : c₁.server = c.server) (htoServer : ∀ j, ∀ req ∈ c₁.toServer j, req ∈ c.toServer j)
    (htoFactory : c₁.toFactory = c.toFactory)
    (hr : ∀ s effs, r = .ok (s, effs) → s.candidate = true → candidate c i = true) : Led c' := by
  unfold settle at hset
  split at hset
  · rename_i s effs
    cases hset
    refine h.frame hmgr ?_ ?_ ?_
    · intro j t ht hc
      by_cases hj : j = i
      · subst hj
        have hst : some s = some t := (Function.update_self j (some s) c₁.server).symm.trans ht
        cases hst
        exact hr s effs rfl hc
      · have hold : c.server j = some t := by
          rw [← hserver]
          exact (Function.update_of_ne hj ..).symm.trans ht
        exact candidate_iff.mpr (Or.inl ⟨t, hold, hc⟩)
    · intro j req hreq
      exact Or.inl (htoServer j req hreq)
    · intro j msg hmsg
      rw [← htoFactory]
      exact hmsg
  · cases hset
  · cases hset
    exact led_crash h hmgr hserver htoServer htoFactory

theorem mem_of_mem_tail {α : Type*} {queue : Replica → List α} {i j : Replica} {a x : α}
    {rest : List α} (hq : queue i = a :: rest) (hx : x ∈ Function.update queue i rest j) :
    x ∈ queue j := by
  by_cases hj : j = i
  · subst hj
    rw [Function.update_self] at hx
    rw [hq]
    exact List.mem_cons_of_mem _ hx
  · rwa [Function.update_of_ne hj] at hx

theorem led_relayed {c c' : Cluster} {i : Replica} {rand : ℕ} {fd : ℤ} {conn : ℕ}
    {req : ClientRequest} {rest : List ClientRequest} {s : Server} (h : Led c)
    (hq : c.toServer i = req :: rest) (hs : c.server i = some s)
    (hset : settle { c with toServer := Function.update c.toServer i rest } i
      (handleConnection s rand { fd := fd, conn := conn, req := req }) = some c') : Led c' := by
  have hmem : req ∈ c.toServer i := by
    rw [hq]
    exact List.mem_cons_self ..
  refine led_settle h hset rfl rfl (fun j x hx => mem_of_mem_tail hq hx) rfl ?_
  intro t effs hconn ht
  rcases handleConnection_candidate (h.calmServer i req hmem) hconn ht with hc | he
  · exact candidate_iff.mpr (Or.inl ⟨s, hs, hc⟩)
  · exact candidate_iff.mpr (Or.inr (Or.inl ⟨req, hmem, he⟩))

theorem led_client {c c' : Cluster} {i : Replica} {rand : ℕ} {ctx : ClientCtx} {s : Server}
    (h : Led c) (hs : c.server i = some s) (htype : fromClient ctx.req.msgType = true)
    (hset : settle c i (handleConnection s rand ctx) = some c') : Led c' := by
  obtain ⟨hrep, hcalm⟩ : ctx.req.msgType ≠ .msgRepMgr ∧ isQuiesceCommand ctx.req.msgType = false := by
    simpa [fromClient] using htype
  refine led_settle h hset rfl rfl (fun _ _ hx => hx) rfl ?_
  intro t effs hconn ht
  rcases handleConnection_candidate hcalm hconn ht with hc | he
  · exact candidate_iff.mpr (Or.inl ⟨s, hs, hc⟩)
  · simp [elects, hrep] at he

theorem led_worker {env : Env} {c c' : Cluster} {i : Replica} {e : ServerEvent} {s : Server}
    (h : Led c) (hs : c.server i = some s) (he : isWorker e = true)
    (hset : settle c i (serverStep env s e) = some c') : Led c' := by
  refine led_settle h hset rfl rfl (fun _ _ hx => hx) rfl ?_
  intro t effs hstep ht
  exact candidate_iff.mpr (Or.inl ⟨s, hs, worker_candidate he hstep ht⟩)

theorem relay_calm {msg : FactoryMsg} (h : msg ≠ .quiesceBegin ∧ msg ≠ .quiesceStop) :
    isQuiesceCommand (relay msg).msgType = false := by
  cases msg with
  | quiesceBegin => exact absurd rfl h.1
  | quiesceStop => exact absurd rfl h.2
  | startup server | changeState repMode serverState backups | sendChkpt => rfl

/-- A relayed command was counted in the queue of the factory; a server just
spawned leads nothing. -/
theorem led_factory {c : Cluster} {i : Replica} {msg : FactoryMsg} {rest : List FactoryMsg}
    (h : Led c) (hq : c.toFactory i = msg :: rest) :
    Led (handleRepManCommand { c with toFactory := Function.update c.toFactory i rest } i msg) := by
  have hmem : msg ∈ c.toFactory i := by
    rw [hq]
    exact List.mem_cons_self ..
  have htail : ∀ j, ∀ x ∈ Function.update c.toFactory i rest j, x ∈ c.toFactory j :=
    fun _ _ hx => mem_of_mem_tail hq hx
  have hup : ∀ j s, c.server j = some s → s.candidate = true → candidate c j = true :=
    fun _ s hs hc => candidate_iff.mpr (Or.inl ⟨s, hs, hc⟩)
  unfold handleRepManCommand
  split
  · refine h.frame rfl ?_ (fun _ _ hx => Or.inl hx) htail
    intro j s hs hc
    by_cases hj : j = i
    · subst hj
      have hfresh : some ({ serverId := j.val } : Server) = some s :=
        (Function.update_self j _ c.server).symm.trans hs
      cases hfresh
      cases hc
    · exact hup j s ((Function.update_of_ne hj ..).symm.trans hs) hc
  · exact h.frame rfl hup (fun _ _ hx => Or.inl hx) htail
  · exact h.frame rfl hup (fun _ _ hx => Or.inl hx) htail
  · rename_i msg _ _ _ _ _
    refine h.frame rfl hup ?_ htail
    intro j req hreq
    change req ∈ Function.update c.toServer i (c.toServer i ++ [relay msg]) j at hreq
    by_cases hj : j = i
    · subst hj
      rw [Function.update_self] at hreq
      rcases List.mem_append.mp hreq with hold | hlast
      · exact Or.inl hold
      · rw [List.mem_singleton.mp hlast]
        refine Or.inr ⟨relay_calm (h.calmFactory j msg hmem), fun he => ?_⟩
        rw [elects_relay] at he
        exact candidate_iff.mpr (Or.inr (Or.inr ⟨msg, hmem, he⟩))
    · rw [Function.update_of_ne hj] at hreq
      exact Or.inl hreq

/-! ### Reports -/

theorem next_primary_eq {v : Roles} {r p : Replica} {state : ReplicaState} (hp : v.primary = some p)
    (h : ¬(state = .faulted ∧ r = p)) : (v.next r state).primary = some p := by
  cases state with
  | running => simp [Roles.next, Roles.up, hp]
  | faulted =>
    have hr : ¬p = r := fun heq => h ⟨rfl, heq.symm⟩
    simp [Roles.next, Roles.down, hp, hr]
  | sentStartupReq | other n => exact hp

theorem next_mode (v : Roles) (r : Replica) (state : ReplicaState) : (v.next r state).mode = v.mode := by
  cases state with
  | running | faulted | sentStartupReq | other n => rfl

theorem mem_delivered {sent : List Sent} {j : Replica} {msg : FactoryMsg} (h : msg ∈ delivered sent j) :
    ∃ s ∈ sent, s.replica = j ∧ s.msg = msg := by
  obtain ⟨s, hs, rfl⟩ := List.mem_map.mp h
  obtain ⟨hmem, hok⟩ := List.mem_filter.mp hs
  have hboth : s.ok = true ∧ s.replica = j := by simpa using hok
  exact ⟨s, hmem, hboth.2, rfl⟩

theorem permitted_elects {v : Roles} {r : Replica} {state : ReplicaState} {s : Sent}
    (h : Permitted v r state s) (he : electsMsg s.msg = true) :
    (v.next r state).primary = some s.replica := by
  unfold Permitted at h
  cases hm : s.msg with
  | changeState repMode serverState backups =>
    rw [hm] at h he
    have hlead : serverState = .passivePreprimary ∨ serverState = .passivePrimary := by
      simpa [electsMsg, leading] using he
    rcases hlead with rfl | rfl
    · exact h
    · exact h
  | startup server | sendChkpt | quiesceBegin | quiesceStop =>
    rw [hm] at he
    cases he

theorem permitted_calm {v : Roles} {r : Replica} {state : ReplicaState} {s : Sent}
    (hmode : v.mode = .passive) (h : Permitted v r state s) :
    s.msg ≠ .quiesceBegin ∧ s.msg ≠ .quiesceStop := by
  unfold Permitted at h
  constructor
  · intro hm
    rw [hm] at h
    cases hmode.symm.trans h
  · intro hm
    rw [hm] at h
    cases hmode.symm.trans h

/-- Whoever is a candidate behind a report is the primary behind it: an old
candidate was the primary and, being one, was not reported FAULTED; a new one
has just been elected. -/
theorem led_report {c : Cluster} {i : Replica} {net : ℕ → Bool} {report : Report}
    {rest : List Report} {ret : ℤ} {mgr : Manager} {sent : List Sent} (h : Led c)
    (hcall : handleState net c.mgr report = .ok (ret, mgr, sent))
    (hfresh : primaryDown c.mgr report → candidate c report.replicaId = false) :
    Led { c with
      mgr := mgr
      toMgr := Function.update c.toMgr i rest
      toFactory := fun j => c.toFactory j ++ delivered sent j } := by
  obtain ⟨hsent, hroles⟩ := handleState_spec hcall (h.plain.ne_sent _)
  have hmode : c.mgr.roles.mode = .passive := h.passive
  have hprimary : mgr.roles.primary = (c.mgr.roles.next report.replicaId report.state).primary := by
    rcases hroles with ⟨-, hr⟩ | ⟨-, hr, hup⟩
    · rw [hr]
    · rw [hr, hup]
      simp [Roles.next, Roles.up, hmode]
  have hplain : mgr.roles.Plain ∧ mgr.roles.mode = .passive := by
    rcases hroles with ⟨-, hr⟩ | ⟨-, hr, -⟩
    · rw [hr]
      exact ⟨plain_next h.plain _ _, (next_mode ..).trans hmode⟩
    · rw [hr]
      exact ⟨h.plain, hmode⟩
  have hkept : ∀ j, candidate c j = true → mgr.roles.primary = some j := by
    intro j hj
    have hp : c.mgr.roles.primary = some j := h.owner j hj
    rw [hprimary]
    refine next_primary_eq hp ?_
    rintro ⟨hfaulted, rfl⟩
    rw [hfresh ⟨hfaulted, hp⟩] at hj
    cases hj
  refine ⟨hplain.2, hplain.1, ?_, ?_, h.calmServer⟩
  · intro j hj
    rcases candidate_iff.mp hj with ⟨s, hs, hc⟩ | ⟨req, hreq, he⟩ | ⟨msg, hmsg, he⟩
    · exact hkept j (candidate_iff.mpr (Or.inl ⟨s, hs, hc⟩))
    · exact hkept j (candidate_iff.mpr (Or.inr (Or.inl ⟨req, hreq, he⟩)))
    · rcases List.mem_append.mp hmsg with hold | hnew
      · exact hkept j (candidate_iff.mpr (Or.inr (Or.inr ⟨msg, hold, he⟩)))
      · obtain ⟨s, hs, rfl, rfl⟩ := mem_delivered hnew
        exact hprimary.trans (permitted_elects (hsent s hs) he)
  · intro j msg hmsg
    rcases List.mem_append.mp hmsg with hold | hnew
    · exact h.calmFactory j msg hold
    · obtain ⟨s, hs, -, rfl⟩ := mem_delivered hnew
      exact permitted_calm hmode (hsent s hs)

/-! ### Runs -/

/-- When a FAULTED report of the primary is taken, its server does not lead any
more and no command to lead is on its way to it. -/
def NoStaleFault (c : Cluster) : ClusterEvent → Prop
  | .report i _ => ∀ report ∈ (c.toMgr i).head?,
      primaryDown c.mgr report → candidate c report.replicaId = false
  | _ => True

instance decidableNoStaleFault (c : Cluster) : ∀ e, Decidable (NoStaleFault c e)
  | .report i _ => inferInstanceAs (Decidable (∀ report ∈ (c.toMgr i).head?,
      primaryDown c.mgr report → candidate c report.replicaId = false))
  | .connect _ => isTrue trivial
  | .heartbeat _ => isTrue trivial
  | .factory _ => isTrue trivial
  | .relayed .. => isTrue trivial
  | .client .. => isTrue trivial
  | .worker .. => isTrue trivial
  | .crash _ => isTrue trivial

theorem clusterStep_led {env : Env} {c c' : Cluster} {e : ClusterEvent} (h : Led c)
    (hfresh : NoStaleFault c e) (hstep : clusterStep env c e = some c') : Led c' := by
  cases clusterStep_move hstep with
  | connect i hidle => exact ⟨h.passive, h.plain, h.owner, h.calmFactory, h.calmServer⟩
  | heartbeat i hprobing => exact ⟨h.passive, h.plain, h.owner, h.calmFactory, h.calmServer⟩
  | report hq hcall =>
    refine led_report h hcall fun hd => hfresh _ ?_ hd
    rw [hq]
    rfl
  | factory hq => exact led_factory h hq
  | relayed hq hs hsettle => exact led_relayed h hq hs hsettle
  | client hs htype hsettle => exact led_client h hs htype hsettle
  | worker hs hw hsettle => exact led_worker h hs hw hsettle
  | crash hs => exact led_crash h rfl rfl (fun _ _ hx => hx) rfl

theorem initCluster_led (freq : ℤ) (server : Replica → ServerInfo) : Led (initCluster freq server) := by
  refine ⟨rfl, initManager_plain .passive freq server, ?_, ?_, ?_⟩
  · intro j hj
    cases hj
  · intro j msg hmsg
    cases hmsg
  · intro j req hreq
    cases hreq

/-- At the end of every run whose reports are not stale at most one live server
is PASSIVE_PREPRIMARY or PASSIVE_PRIMARY. -/
theorem at_most_one_primary (env : Env) (freq : ℤ) (server : Replica → ServerInfo)
    (es : List ClusterEvent) (c : Cluster)
    (hfresh : AllSteps (clusterStep env) NoStaleFault (initCluster freq server) es)
    (hrun : run (clusterStep env) (initCluster freq server) es = some c)
    (i j : Replica) (hi : leads c i = true) (hj : leads c j = true) : i = j := by
  have hled : Led c := run_invariant (fun _ _ _ h hf hs => clusterStep_led h hf hs)
    (initCluster_led freq server) hfresh hrun
  have hpi := hled.owner i (candidate_of_leads hi)
  have hpj := hled.owner j (candidate_of_leads hj)
  exact Option.some.inj (hpi.symm.trans hpj)

/-- The manager takes the oldest report and reaches every factory. -/
def handled (i : Replica) : ClusterEvent := .report i fun _ => true

/-- A command of the manager on its way through the factory into the server. -/
def commanded (i : Replica) : List ClusterEvent :=
  [.factory i, .relayed i 0 4 0, .worker i .control]

/-- Replica 0 is started, found up and elected, and replica 2 is started. The
detector of replica 1 has probed twice before its first report is taken. -/
def startUp : List ClusterEvent :=
  [.connect 0, handled 0, .factory 0, .connect 0, handled 0] ++ commanded 0 ++
    [.connect 2, handled 2, .factory 2, .connect 1, .connect 1, handled 1, .factory 1]

def failOver : List ClusterEvent :=
  startUp ++ [.crash 0, .heartbeat 0, .connect 0, handled 0, handled 0, handled 0] ++ commanded 1

def quietEnv : Env := zeroEnv fun _ => none

theorem at_most_one_primary_failOver :
    ∃ c, run (clusterStep quietEnv) (initCluster 10 plainServers) failOver = some c ∧
      leads c 1 = true ∧ ∀ j, leads c j = true → 1 = j := by
  have hend : (run (clusterStep quietEnv) (initCluster 10 plainServers) failOver).any
      (fun c => leads c 1) = true := by decide +kernel
  have hfresh : AllSteps (clusterStep quietEnv) NoStaleFault (initCluster 10 plainServers) failOver := by
    decide +kernel
  obtain ⟨c, hrun, hlead⟩ := (Option.any_eq_true _ _).mp hend
  exact ⟨c, hrun, hlead, fun j hj =>
    at_most_one_primary quietEnv 10 plainServers failOver c hfresh hrun 1 j hlead hj⟩

/-- The second report of replica 1 is older than its start; taken now, it moves
the role on while server 1 keeps it. -/
theorem two_primaries :
    ¬∀ (env : Env) (freq : ℤ) (server : Replica → ServerInfo) (es : List ClusterEvent) (c : Cluster),
      run (clusterStep env) (initCluster freq server) es = some c →
        ∀ i j, leads c i = true → leads c j = true → i = j := by
  intro h
  have hend : (run (clusterStep quietEnv) (initCluster 10 plainServers)
      (failOver ++ [handled 1, .factory 1] ++ commanded 2)).any
        (fun c => leads c 1 && leads c 2) = true := by decide +kernel
  obtain ⟨c, hrun, hboth⟩ := (Option.any_eq_true _ _).mp hend
  obtain ⟨h1, h2⟩ := (Bool.and_eq_true _ _).mp hboth
  have heq := h quietEnv 10 plainServers _ c hrun 1 2 h1 h2
  revert heq
  decide

end ToDoList
