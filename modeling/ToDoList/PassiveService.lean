import ToDoList.Session
import ToDoList.Backups

/-!
# A user at the menu, in passive mode

The client of a session against the manager and three servers of passive mode:
the primary executes and answers, the backups log. Between two requests the
primary may send its table, and any server may end and be started again; the
manager then elects, assigns the roles and orders the checkpoint.
-/

namespace ToDoList
open CLib KeyedMachine Replay

structure PassiveService where
  mgr : Manager
  server : Replica → Option Server
  round : ℕ := 0

namespace PassiveService

def put (w : PassiveService) (i : Replica) (s : Option Server) : PassiveService :=
  { w with server := Function.update w.server i s }

/-- A server that is down stays down, and a fault ends the process. -/
def serve (env : Env) (w : PassiveService) (i : Replica) (es : List ServerEvent) :
    PassiveService × List Effect :=
  match (w.server i).bind fun s => serveEvents env s es with
  | none => (w.put i none, [])
  | some (t, effs) => (w.put i (some t), effs)

def each (env : Env) (es : Replica → List ServerEvent) :
    List Replica → PassiveService → PassiveService
  | [], w => w
  | i :: is, w => each env es is (w.serve env i (es i)).1

/-- An order of the manager has reached the factory. -/
def obey (env : Env) (link : Replica → Arrival) (w : PassiveService) (s : Sent) :
    PassiveService × List Effect :=
  match w.server s.replica, s.msg with
  | none, .startup _ => (w.put s.replica (some { serverId := s.replica.val }), [])
  | none, _ => (w, [])
  | some _, .startup _ => (w, [])
  | some _, msg => w.serve env s.replica (orderEvents (link s.replica) msg)

def obeyAll (env : Env) (link : Replica → Arrival) :
    List Sent → PassiveService → PassiveService × List Effect
  | [], w => (w, [])
  | s :: sent, w =>
    let r := w.obey env link s
    let r' := obeyAll env link sent r.1
    (r'.1, r.2 ++ r'.2)

/-- A fault detector reports; all orders get through. -/
def report (env : Env) (link : Replica → Arrival) (w : PassiveService) (r : Report) :
    PassiveService × List Effect :=
  match handleState (fun _ => true) w.mgr r with
  | .error _ => (w, [])
  | .ok (_, mgr, sent) => obeyAll env link sent { w with mgr := mgr }

def deliver (env : Env) (link : Replica → Arrival) (r : PassiveService × List Effect) : PassiveService :=
  r.1.each env (fun j => (filesTo j r.2).flatMap (fileEvents (link j))) (List.finRange 3)

end PassiveService

/-- What may happen between two requests: the checkpoint thread of `i` has an
iteration, or `i` ends and is started again, its roles follow, and the NORMAL
workers have had `turns` turns before it is reported up. -/
inductive Upkeep where
  | checkpoint (i : Replica) (file : Replica → Arrival)
  | restart (i : Replica) (turns : ℕ) (order file : Replica → Arrival)

def PassiveService.upkeep (env : Env) (w : PassiveService) : Upkeep → PassiveService
  | .checkpoint i file => deliver env file (w.serve env i [.chkptThread])
  | .restart i turns order file =>
    let w := ((w.put i none).report env order ⟨i, .faulted, .unknownState⟩).1
    let w := w.each env (fun _ => List.replicate turns .normal) (List.finRange 3)
    deliver env file (w.report env order ⟨i, .running, .unknownState⟩)

/-! ### Requests -/

def serveReplica (env : Env) (k : Contact) (w : PassiveService) (i : Replica) (buf : Bytes) :
    Except Fault (PassiveService × Conn) :=
  match w.server i with
  | none => .ok (w, .refused k.clientFd)
  | some s =>
    match serveSite k ⟨env, s⟩ buf with
    | .error f => .error f
    | .ok (site, conn) => .ok (w.put i (some site.server), conn)

def serveReplicas (env : Env) (contact : ℕ → Contact) :
    List Replica → PassiveService → Bytes → Except Fault (PassiveService × List Conn)
  | [], w, _ => .ok (w, [])
  | i :: is, w, buf =>
    match serveReplica env (contact i) w i buf with
    | .error f => .error f
    | .ok (w, conn) =>
      match serveReplicas env contact is w buf with
      | .error f => .error f
      | .ok (w, conns) => .ok (w, conn :: conns)

def askPassive (env : Env) (net : ℕ → Round) (upkeep : ℕ → List Upkeep) (w : PassiveService) (buf : Bytes) :
    Except Fault (PassiveService × Exchange) :=
  match serveReplicas env (net w.round).contact (List.finRange 3)
      ((upkeep w.round).foldl (PassiveService.upkeep env) w) buf with
  | .error f => .error f
  | .ok (w', conns) => .ok ({ w' with round := w.round + 1 }, ⟨conns, (net w.round).reports⟩)

/-! ### The primary and its backups -/

section
variable (env : Env) (q : Cells) (size : ℕ)

structure Acting (p : Replica) (s : Server) : Prop where
  role : InRole .passivePrimary s
  holds : Holds env q size s
  log : s.nrl = []
  backups : BackupsOf p s.bckupSvr

/-- A backup that has logged no more than `n` requests. -/
structure Standing (n : ℕ) (s : Server) : Prop where
  role : InRole .passiveBackup s
  holds : Holds env q size s
  room : s.nrl.length ≤ n

structure Commands (p : Replica) (m : Manager) : Prop where
  mode : m.mode = .passive
  free : m.locked = false
  primary : m.primaryReplicaId = some p
  running : ∀ i, (m.node i).state = .running

/-- All servers have the list `q`, the backups as far as they have logged it. -/
structure InService (p : Replica) (n : ℕ) (w : PassiveService) : Prop where
  clean : CleanCells q
  mgr : Commands p w.mgr
  primary : ∃ s, w.server p = some s ∧ Acting env q size p s
  backups : ∀ i ≠ p, ∃ s, w.server i = some s ∧ Standing env q size n s

end

/-! ### Servers side by side -/

section
variable {env : Env} {w : PassiveService}

theorem put_self (i : Replica) (s : Option Server) : (w.put i s).server i = s := Function.update_self ..

theorem put_other {i j : Replica} (hj : j ≠ i) (s : Option Server) : (w.put i s).server j = w.server j :=
  Function.update_of_ne hj ..

theorem put_same {i : Replica} {s : Option Server} (hs : w.server i = s) : w.put i s = w := by
  unfold PassiveService.put
  rw [← hs, Function.update_eq_self]

theorem serve_some {i : Replica} {s t : Server} {es : List ServerEvent} {effs : List Effect}
    (hs : w.server i = some s) (h : serveEvents env s es = some (t, effs)) :
    w.serve env i es = (w.put i (some t), effs) := by
  unfold PassiveService.serve
  rw [hs, Option.bind_some, h]

theorem serve_mgr (i : Replica) (es : List ServerEvent) : (w.serve env i es).1.mgr = w.mgr := by
  unfold PassiveService.serve
  split
  · rfl
  · rfl

theorem serve_other {i j : Replica} (hj : j ≠ i) (es : List ServerEvent) :
    (w.serve env i es).1.server j = w.server j := by
  unfold PassiveService.serve
  split
  · exact put_other hj none
  · exact put_other hj _

theorem each_mgr (es : Replica → List ServerEvent) (is : List Replica) : (w.each env es is).mgr = w.mgr := by
  induction is generalizing w with
  | nil => rfl
  | cons i is ih => exact ih.trans (serve_mgr i (es i))

theorem each_other (es : Replica → List ServerEvent) {is : List Replica} {j : Replica} (hj : j ∉ is) :
    (w.each env es is).server j = w.server j := by
  induction is generalizing w with
  | nil => rfl
  | cons i is ih =>
    rw [List.mem_cons, not_or] at hj
    obtain ⟨hne, hrest⟩ := hj
    exact (ih hrest).trans (serve_other hne (es i))

/-- Every server has its events. -/
theorem each_server (es : Replica → List ServerEvent) {is : List Replica} (hnodup : is.Nodup) {j : Replica}
    (hj : j ∈ is) {s t : Server} {effs : List Effect} (hs : w.server j = some s)
    (h : serveEvents env s (es j) = some (t, effs)) : (w.each env es is).server j = some t := by
  induction is generalizing w with
  | nil => cases hj
  | cons i is ih =>
    obtain ⟨hni, hrest⟩ := List.nodup_cons.mp hnodup
    by_cases hij : j = i
    · subst hij
      rw [PassiveService.each, each_other es hni, serve_some hs h]
      exact put_self ..
    · refine ih hrest ((List.mem_cons.mp hj).resolve_left hij) ?_
      rw [serve_other hij]
      exact hs

theorem each_replica (es : Replica → List ServerEvent) {j : Replica} {s t : Server} {effs : List Effect}
    (hs : w.server j = some s) (h : serveEvents env s (es j) = some (t, effs)) :
    (w.each env es (List.finRange 3)).server j = some t :=
  each_server es (List.nodup_finRange 3) (List.mem_finRange j) hs h

theorem deliver_mgr (link : Replica → Arrival) (effs : List Effect) :
    (PassiveService.deliver env link (w, effs)).mgr = w.mgr := each_mgr ..

/-- Every server has what was sent to it. -/
theorem deliver_server {link : Replica → Arrival} {effs effs' : List Effect} {i : Replica} {s t : Server}
    (hs : w.server i = some s)
    (h : serveEvents env s ((filesTo i effs).flatMap (fileEvents (link i))) = some (t, effs')) :
    (PassiveService.deliver env link (w, effs)).server i = some t := each_replica _ hs h

end

/-! ### The orders of the manager -/

theorem fill_passive {m : Manager} (h : m.mode = .passive) (r : Replica) :
    ∃ backs, fillMessageForPrimaryElection m r = .changeState .passiveRep .passivePreprimary (some backs) ∧
      backs.replica1.1 = (otherReplicas r).1 ∧ backs.replica2.1 = (otherReplicas r).2 := by
  unfold fillMessageForPrimaryElection
  rw [h]
  exact ⟨_, rfl, rfl, rfl⟩

theorem passiveDown_orders {m : Manager} {p : Replica} (hmode : m.mode = .passive)
    (hp : m.primaryReplicaId = some p) (i : Replica) :
    ∃ info backs, (passiveDown (fun _ => true) { mgr := m } i).sent =
        ⟨i, .startup info, true⟩ :: (if i = p then
          [⟨nextReplica i, .changeState .passiveRep .passivePreprimary (some backs), true⟩] else []) ∧
      backs.replica1.1 = (otherReplicas (nextReplica i)).1 ∧
      backs.replica2.1 = (otherReplicas (nextReplica i)).2 := by
  obtain ⟨backs, hfill, hfirst, hsecond⟩ := @fill_passive
    { (restartServer (fun _ => true) { mgr := m } i).mgr with primaryReplicaId := some (nextReplica i) }
    hmode (nextReplica i)
  refine ⟨(m.node i).server, backs, ?_, hfirst, hsecond⟩
  unfold passiveDown
  dsimp only
  rw [hp]
  dsimp only
  by_cases hi : i = p
  · rw [if_pos hi, if_pos hi, ← hfill]
    rfl
  · rw [if_neg hi, if_neg hi]
    rfl

theorem orders_down {p : Replica} {m : Manager} (h : Commands p m) (i : Replica) :
    ∃ ret m' info backs, handleState (fun _ => true) m ⟨i, .faulted, .unknownState⟩ = .ok (ret, m',
        ⟨i, .startup info, true⟩ :: (if i = p then
          [⟨nextReplica i, .changeState .passiveRep .passivePreprimary (some backs), true⟩] else [])) ∧
      backs.replica1.1 = (otherReplicas (nextReplica i)).1 ∧
      backs.replica2.1 = (otherReplicas (nextReplica i)).2 ∧ m'.locked = false ∧ m'.roles = m.roles.down i := by
  obtain ⟨info, backs, hsent, hfirst, hsecond⟩ :=
    @passiveDown_orders (entered m ⟨i, .faulted, .unknownState⟩) p h.mode h.primary i
  have hstate : ((entered m ⟨i, .faulted, .unknownState⟩).node i).state = .running :=
    (entered_state ..).trans (h.running i)
  have hmode : (entered m ⟨i, .faulted, .unknownState⟩).mode = .passive := h.mode
  obtain ⟨t, ht⟩ : ∃ t, t = setTurnState (passiveDown (fun _ => true)
    { mgr := entered m ⟨i, .faulted, .unknownState⟩ } i) i .faulted := ⟨_, rfl⟩
  have hreport : handleReport (fun _ => true) { mgr := entered m ⟨i, .faulted, .unknownState⟩ }
      ⟨i, .faulted, .unknownState⟩ = .ok (t, true) := by
    unfold handleReport
    dsimp only
    rw [if_pos (by rw [hstate]; decide), hmode, ht]
  have hcall : handleState (fun _ => true) m ⟨i, .faulted, .unknownState⟩ = .ok (t.ret,
      { printCurrentStateInfo t.mgr ⟨i, .faulted, .unknownState⟩ with locked := false }, t.sent) := by
    rw [handleState_entered _ m _ h.free, hreport]
  have hsent' : t.sent = ⟨i, .startup info, true⟩ :: (if i = p then
      [⟨nextReplica i, .changeState .passiveRep .passivePreprimary (some backs), true⟩] else []) := by
    rw [ht]
    exact hsent
  rw [hsent'] at hcall
  refine ⟨_, _, info, backs, hcall, hfirst, hsecond, rfl, ?_⟩
  rcases (handleState_spec hcall (by rw [h.running i]; decide)).2 with ⟨-, hroles⟩ | ⟨-, -, hrun⟩
  · exact hroles
  · cases hrun

/-- `i` has been started again, and `p` is the primary. -/
structure Restarted (p i : Replica) (m : Manager) : Prop where
  mode : m.mode = .passive
  free : m.locked = false
  primary : m.primaryReplicaId = some p
  other : i ≠ p
  needs : m.needsCheckpoint i = true
  faulted : (m.node i).state = .faulted
  running : ∀ j ≠ i, (m.node j).state = .running

theorem restarted_of_down {p i : Replica} {m m' : Manager} (h : Commands p m) (hfree : m'.locked = false)
    (hroles : m'.roles = m.roles.down i) : Restarted (if i = p then nextReplica i else p) i m' := by
  have hprimary : m'.primaryReplicaId = (m.roles.down i).primary := congrArg Roles.primary hroles
  have hneeds : m'.needsCheckpoint = (m.roles.down i).needs := congrArg Roles.needs hroles
  have hstate (j : Replica) : (m'.node j).state = (m.roles.down i).state j :=
    congrFun (congrArg Roles.state hroles) j
  have hmode : m.roles.mode = .passive := h.mode
  have hold : m.roles.primary = some p := h.primary
  refine ⟨(congrArg Roles.mode hroles).trans h.mode, hfree, ?_, ?_, ?_, ?_, fun j hj => ?_⟩
  · rw [hprimary]
    simp only [Roles.down, hold, Option.some.injEq, reduceCtorEq, and_false, if_false]
    by_cases hi : i = p
    · rw [if_pos hi.symm, if_pos hi]
    · rw [if_neg (Ne.symm hi), if_neg hi]
  · by_cases hi : i = p
    · rw [if_pos hi]
      exact (nextReplica_ne i).symm
    · rw [if_neg hi]
      exact hi
  · rw [hneeds]
    simp [Roles.down, hmode, hold]
  · rw [hstate]
    exact Function.update_self ..
  · rw [hstate]
    exact (Function.update_of_ne hj ..).trans (h.running j)

theorem orders_up {p i : Replica} {m : Manager} (h : Restarted p i m) :
    ∃ ret m', handleState (fun _ => true) m ⟨i, .running, .unknownState⟩ = .ok (ret, m',
        [⟨i, .changeState .passiveRep .passiveBackup none, true⟩, ⟨p, .sendChkpt, true⟩]) ∧ Commands p m' := by
  have hstate : ((entered m ⟨i, .running, .unknownState⟩).node i).state = .faulted :=
    (entered_state ..).trans h.faulted
  have hmode : (entered m ⟨i, .running, .unknownState⟩).mode = .passive := h.mode
  have hprimary : (entered m ⟨i, .running, .unknownState⟩).primaryReplicaId = some p := h.primary
  have hneeds : (entered m ⟨i, .running, .unknownState⟩).needsCheckpoint i = true := h.needs
  have hcall : ∃ ret m', handleState (fun _ => true) m ⟨i, .running, .unknownState⟩ = .ok (ret, m',
      [⟨i, .changeState .passiveRep .passiveBackup none, true⟩, ⟨p, .sendChkpt, true⟩]) ∧ m'.locked = false := by
    rw [handleState_entered _ m _ h.free]
    unfold handleReport
    dsimp only
    rw [if_pos hstate, hmode]
    dsimp only
    unfold passiveUp
    dsimp only
    rw [assignRole_mgr, if_pos hneeds, hprimary]
    dsimp only
    unfold assignRole
    rw [hprimary, if_pos (by simpa using Ne.symm h.other)]
    exact ⟨_, _, rfl, rfl⟩
  obtain ⟨ret, m', hcall, hfree⟩ := hcall
  have hroles : m'.roles = m.roles.up i := by
    rcases (handleState_spec hcall (by rw [h.faulted]; decide)).2 with ⟨-, hroles⟩ | ⟨hlocked, -⟩
    · exact hroles
    · rw [hfree] at hlocked
      cases hlocked
  refine ⟨ret, m', hcall, (congrArg Roles.mode hroles).trans h.mode, hfree, ?_, fun j => ?_⟩
  · have hup : m'.primaryReplicaId = (m.roles.up i).primary := congrArg Roles.primary hroles
    have hmode' : m.roles.mode = .passive := h.mode
    rw [hup]
    simp only [Roles.up, hmode', reduceCtorEq, false_and, if_false]
    exact h.primary
  · have hstate' : (m'.node j).state = (m.roles.up i).state j := congrFun (congrArg Roles.state hroles) j
    rw [hstate']
    by_cases hj : j = i
    · subst hj
      exact Function.update_self ..
    · exact (Function.update_of_ne hj ..).trans (h.running j hj)

/-! ### Checkpoints -/

theorem Acting.counted {env : Env} {q : Cells} {size : ℕ} {p : Replica} {s : Server}
    (h : Acting env q size p s) (n : UInt64) : Acting env q size p { s with chkPointNum := n } :=
  ⟨⟨⟨h.role.prune, h.role.limit, h.role.ctrl, h.role.ctrlLimit, h.role.prev, h.role.table⟩, h.role.mode,
    h.role.state, h.role.thread, h.role.backlog⟩, ⟨h.holds.replays, h.holds.size⟩, h.log, h.backups⟩

section
variable {env : Env} (hz : env.ZeroHeap) {q : Cells} {size : ℕ}

theorem Acting.count {p : Replica} {s : Server} (h : Acting env q size p s) :
    entryCount s.store.htable ≤ size := (Nat.le_add_right ..).trans h.holds.size

include hz in
/-- A checkpoint of the primary has come to both others. -/
theorem files_delivered {p : Replica} {w : PassiveService} {effs : List Effect} {fl : Flight}
    (hclean : CleanCells q) (hm : Commands p w.mgr) (hp : ∃ s, w.server p = some s ∧ Acting env q size p s)
    (hback : ∀ i ≠ p, ∃ s, w.server i = some s ∧ InRole .passiveBackup s ∧ s.nrl.length < 50)
    (hfiles : ∀ i, filesTo i effs = if i = p then [] else [fl]) (hof : CheckpointOf env q size fl.file)
    (link : Replica → Arrival) : InService env q size p 0 (PassiveService.deliver env link (w, effs)) := by
  refine ⟨hclean, ?_, ?_, fun i hi => ?_⟩
  · rw [deliver_mgr]
    exact hm
  · obtain ⟨s, hs, hact⟩ := hp
    have hnone : serveEvents env s ((filesTo p effs).flatMap (fileEvents (link p))) = some (s, []) := by
      rw [hfiles p, if_pos rfl]
      rfl
    exact ⟨s, deliver_server hs hnone, hact⟩
  · obtain ⟨s, hs, hrole, hroom⟩ := hback i hi
    obtain ⟨t, effs', hserve, hrole', hholds, hnil⟩ := checkpoint_taken hz hrole hroom hof (link i)
    have hone : serveEvents env s ((filesTo i effs).flatMap (fileEvents (link i))) = some (t, effs') := by
      rw [hfiles i, if_neg hi, List.flatMap_singleton]
      exact hserve
    exact ⟨t, deliver_server hs hone, hrole', hholds, by rw [hnil]; exact le_rfl⟩

theorem nothing_delivered {p : Replica} {n : ℕ} {w : PassiveService} (h : InService env q size p n w)
    (link : Replica → Arrival) : InService env q size p n (PassiveService.deliver env link (w, [])) := by
  refine ⟨h.clean, ?_, ?_, fun i hi => ?_⟩
  · rw [deliver_mgr]
    exact h.mgr
  · obtain ⟨s, hs, hact⟩ := h.primary
    have hnone : serveEvents env s [] = some (s, []) := rfl
    exact ⟨s, deliver_server hs hnone, hact⟩
  · obtain ⟨s, hs, hstand⟩ := h.backups i hi
    have hnone : serveEvents env s [] = some (s, []) := rfl
    exact ⟨s, deliver_server hs hnone, hstand⟩

include hz in
/-- The checkpoint thread of the primary empties the logs of the backups. -/
theorem InService.checkpoint {p : Replica} {n : ℕ} {w : PassiveService} (h : InService env q size p n w)
    (hsize : size ≤ 2 ^ 20) (hn : n < 50) (file : Replica → Arrival) :
    InService env q size p 0 (w.upkeep env (.checkpoint p file)) := by
  obtain ⟨s, hs, hact⟩ := h.primary
  obtain ⟨fl, effs, hsend, hof, hfiles⟩ := checkpoint_sent env hact.role.table (hact.holds.cells hact.log)
    h.clean hact.count hsize hact.backups
  have hstep : serverStep env s .chkptThread = .ok ({ s with chkPointNum := s.chkPointNum + 1 }, effs) := by
    rw [serverStep, if_pos (by rw [hact.role.thread]; rfl), hsend]
  have hserve : w.serve env p [.chkptThread] =
      (w.put p (some { s with chkPointNum := s.chkPointNum + 1 }), effs ++ []) :=
    serve_some hs (serveEvents_cons hstep rfl)
  show InService env q size p 0 (PassiveService.deliver env file (w.serve env p [.chkptThread]))
  rw [hserve, List.append_nil]
  have hm : Commands p (w.put p (some { s with chkPointNum := s.chkPointNum + 1 })).mgr := h.mgr
  refine files_delivered hz h.clean hm ⟨_, put_self .., hact.counted _⟩ (fun i hi => ?_) hfiles hof file
  obtain ⟨t, ht, hstand⟩ := h.backups i hi
  exact ⟨t, (put_other hi _).trans ht, hstand.role, lt_of_le_of_lt hstand.room hn⟩

/-- The checkpoint thread of a backup does not run. -/
theorem InService.no_checkpoint {p i : Replica} {n : ℕ} {w : PassiveService} (h : InService env q size p n w)
    (hi : i ≠ p) (file : Replica → Arrival) :
    InService env q size p n (w.upkeep env (.checkpoint i file)) := by
  obtain ⟨s, hs, hstand⟩ := h.backups i hi
  have hstep : serverStep env s .chkptThread = .ok (s, []) := by
    rw [serverStep, if_neg (by rw [hstand.role.thread]; decide)]
  have hserve : w.serve env i [.chkptThread] = (w.put i (some s), []) :=
    serve_some hs (serveEvents_cons hstep rfl)
  show InService env q size p n (PassiveService.deliver env file (w.serve env i [.chkptThread]))
  rw [hserve, put_same hs]
  exact nothing_delivered h file

end

/-! ### A server is lost -/

section
variable {env : Env}

theorem obey_startup {w : PassiveService} {i : Replica} (hs : w.server i = none) (link : Replica → Arrival)
    (info : ServerInfo) (ok : Bool) :
    w.obey env link ⟨i, .startup info, ok⟩ = (w.put i (some { serverId := i.val }), []) := by
  unfold PassiveService.obey
  dsimp only
  rw [hs]

theorem obey_order {w : PassiveService} {i : Replica} {s : Server} (hs : w.server i = some s)
    (link : Replica → Arrival) {msg : FactoryMsg} (hmsg : isStartup msg = false) (ok : Bool) :
    w.obey env link ⟨i, msg, ok⟩ = w.serve env i (orderEvents (link i) msg) := by
  unfold PassiveService.obey
  dsimp only
  rw [hs]
  cases msg with
  | startup info => cases hmsg
  | _ => rfl

variable (q : Cells) (size : ℕ) (env) in
/-- `i` runs again and has no role yet; `p` acts for the list. -/
structure Awaiting (p : Replica) (n : ℕ) (i : Replica) (w : PassiveService) : Prop where
  clean : CleanCells q
  mgr : Restarted p i w.mgr
  fresh : w.server i = some { serverId := i.val }
  primary : ∃ s, w.server p = some s ∧ Acting env q size p s
  others : ∀ j ≠ p, j ≠ i → ∃ s, w.server j = some s ∧ Standing env q size n s

variable (hz : env.ZeroHeap) {q : Cells} {size : ℕ}

/-- The NORMAL workers have their turns: the elected server acts behind them. -/
theorem awaiting_of_turns {p i : Replica} {n turns : ℕ} {w : PassiveService} (hclean : CleanCells q)
    (hm : Restarted p i w.mgr) (hfresh : w.server i = some { serverId := i.val })
    (hp : ∃ s t effs, w.server p = some s ∧
      serveEvents env s (List.replicate turns .normal) = some (t, effs) ∧ Acting env q size p t)
    (hothers : ∀ j ≠ p, j ≠ i → ∃ s, w.server j = some s ∧ Standing env q size n s) :
    Awaiting env q size p n i (w.each env (fun _ => List.replicate turns .normal) (List.finRange 3)) := by
  refine ⟨hclean, ?_, ?_, ?_, fun j hj hji => ?_⟩
  · rw [each_mgr]
    exact hm
  · have hidle : serverStep env { serverId := (i.val : ℤ) } .normal = .ok ({ serverId := i.val }, []) :=
      worker_idles env rfl (Or.inr ⟨rfl, ServerStates.noConfusion⟩)
    exact each_replica _ hfresh (serveEvents_idle hidle turns)
  · obtain ⟨s, t, effs, hs, hserve, hact⟩ := hp
    exact ⟨t, each_replica _ hs hserve, hact⟩
  · obtain ⟨s, hs, hstand⟩ := hothers j hj hji
    have hidle := worker_idles env hstand.role.prune (Or.inl hstand.role.backup)
    exact ⟨s, each_replica _ hs (serveEvents_idle hidle turns), hstand⟩

/-- A server ends and is reported down: it is started again, and where it was the
primary its successor has the order of the election. -/
theorem reported_down {p : Replica} {w : PassiveService} (h : Commands p w.mgr) (i : Replica)
    (order : Replica → Arrival) :
    ∃ (v : PassiveService) (backs : Backups), Restarted (if i = p then nextReplica i else p) i v.mgr ∧
      v.server i = some { serverId := i.val } ∧ (∀ j ≠ i, v.server j = w.server j) ∧
      backs.replica1.1 = (otherReplicas (nextReplica i)).1 ∧
      backs.replica2.1 = (otherReplicas (nextReplica i)).2 ∧
      (w.put i none).report env order ⟨i, .faulted, .unknownState⟩ = PassiveService.obeyAll env order
        (if i = p then
          [⟨nextReplica i, .changeState .passiveRep .passivePreprimary (some backs), true⟩] else []) v := by
  obtain ⟨ret, m', info, backs, hcall, hfirst, hsecond, hfree, hroles⟩ := orders_down h i
  have hdown : ({ w.put i none with mgr := m' } : PassiveService).server i = none := by
    show (w.put i none).server i = none
    exact put_self ..
  refine ⟨({ w.put i none with mgr := m' } : PassiveService).put i (some { serverId := i.val }), backs,
    restarted_of_down h hfree hroles, put_self .., fun j hj => ?_, hfirst, hsecond, ?_⟩
  · exact (put_other hj _).trans (put_other hj none)
  · have hmgr : (w.put i none).mgr = w.mgr := rfl
    unfold PassiveService.report
    rw [hmgr, hcall]
    dsimp only
    rw [PassiveService.obeyAll, obey_startup hdown order info true]
    rfl

include hz in
/-- A server ends and is reported down. Where it was the primary, the next replica
has executed its backlog with one turn more than this is long. -/
theorem InService.down {p : Replica} {n : ℕ} {w : PassiveService} (h : InService env q size p n w)
    (i : Replica) {turns : ℕ} (hturns : i = p → n < turns) (order : Replica → Arrival) :
    Awaiting env q size (if i = p then nextReplica i else p) n i
      (((w.put i none).report env order ⟨i, .faulted, .unknownState⟩).1.each env
        (fun _ => List.replicate turns .normal) (List.finRange 3)) := by
  obtain ⟨v, backs, hm, hself, hothers, hfirst, hsecond, hreport⟩ := reported_down h.mgr i order
  by_cases hi : i = p
  · subst hi
    rw [if_pos rfl] at hreport hm ⊢
    obtain ⟨s, hs, hstand⟩ := h.backups (nextReplica i) (nextReplica_ne i)
    obtain ⟨t, effs, htaken, hrole, hlog, hstore, hsvr, -⟩ := role_taken hstand.role.toResting
      (Or.inr hstand.role.mode) hstand.role.backlog (Or.inr rfl) env (order (nextReplica i)) (some backs)
    have hvs : v.server (nextReplica i) = some s := (hothers _ (nextReplica_ne i)).trans hs
    have helect : v.obey env order
        ⟨nextReplica i, .changeState .passiveRep .passivePreprimary (some backs), true⟩ =
        (v.put (nextReplica i) (some t), effs) :=
      (obey_order hvs order rfl true).trans (serve_some hvs htaken)
    rw [hreport, PassiveService.obeyAll, helect]
    dsimp only
    rw [PassiveService.obeyAll]
    have hholds : Holds env q size t := by
      refine ⟨?_, ?_⟩
      · rw [hstore, hlog]
        exact hstand.holds.replays
      · rw [hstore, hlog]
        exact hstand.holds.size
    obtain ⟨u, effs', hserve, hact, hholds', hnil, hkept⟩ := preprimary_takes_over hz hrole hholds
      (lt_of_le_of_lt (by rw [hlog]; exact hstand.room) (hturns rfl))
    have hbackups : BackupsOf (nextReplica i) u.bckupSvr := by
      rw [hkept, hsvr]
      exact preprimary_backups hfirst hsecond
    refine awaiting_of_turns h.clean hm ((put_other (nextReplica_ne i).symm _).trans hself)
      ⟨t, u, effs', put_self .., hserve, hact, hholds', hnil, hbackups⟩ fun j hj hji => ?_
    obtain ⟨b, hb, hbs⟩ := h.backups j hji
    exact ⟨b, (put_other hj _).trans ((hothers j hji).trans hb), hbs⟩
  · rw [if_neg hi] at hreport hm ⊢
    rw [hreport, PassiveService.obeyAll]
    obtain ⟨s, hs, hact⟩ := h.primary
    have hidle := worker_idles env hact.role.prune (Or.inr ⟨hact.log, by rw [hact.role.state]; decide⟩)
    refine awaiting_of_turns h.clean hm hself
      ⟨s, s, [], (hothers p (Ne.symm hi)).trans hs, serveEvents_idle hidle turns, hact⟩ fun j hj hji => ?_
    obtain ⟨b, hb, hbs⟩ := h.backups j hj
    exact ⟨b, (hothers j hji).trans hb, hbs⟩

include hz in
/-- It is reported up: it is a backup, and has the checkpoint of the primary. -/
theorem Awaiting.up {p i : Replica} {n : ℕ} {w : PassiveService} (h : Awaiting env q size p n i w)
    (hsize : size ≤ 2 ^ 20) (hn : n < 50) (order file : Replica → Arrival) :
    InService env q size p 0
      (PassiveService.deliver env file (w.report env order ⟨i, .running, .unknownState⟩)) := by
  obtain ⟨ret, m', hcall, hm⟩ := orders_up h.mgr
  obtain ⟨t, effs, htaken, hrole, hlog, -, -, hnone⟩ := role_taken (resting_fresh i.val) (Or.inl rfl)
    (fun c hc => absurd hc List.not_mem_nil) (Or.inl rfl) env (order i) none
  obtain ⟨s, hs, hact⟩ := h.primary
  obtain ⟨fl, effs', htold, hof, hfiles⟩ := primary_told hact.role (hact.holds.cells hact.log) h.clean
    hact.count hsize hact.backups (order p)
  obtain ⟨v, hv⟩ : ∃ v : PassiveService, v = { w with mgr := m' } := ⟨_, rfl⟩
  have hvserver : v.server = w.server := by rw [hv]
  have hassign : v.obey env order ⟨i, .changeState .passiveRep .passiveBackup none, true⟩ =
      (v.put i (some t), effs) := by
    have hvi : v.server i = some { serverId := i.val } := by rw [hvserver]; exact h.fresh
    exact (obey_order hvi order rfl true).trans (serve_some hvi htaken)
  have hinstruct : (v.put i (some t)).obey env order ⟨p, .sendChkpt, true⟩ =
      ((v.put i (some t)).put p (some { s with chkPointNum := s.chkPointNum + 1 }), effs') := by
    have hvp : (v.put i (some t)).server p = some s := by
      rw [put_other h.mgr.other.symm, hvserver]
      exact hs
    exact (obey_order hvp order rfl true).trans (serve_some hvp htold)
  have hreport : w.report env order ⟨i, .running, .unknownState⟩ =
      ((v.put i (some t)).put p (some { s with chkPointNum := s.chkPointNum + 1 }), effs ++ (effs' ++ [])) := by
    unfold PassiveService.report
    rw [hcall]
    dsimp only
    rw [← hv, PassiveService.obeyAll, hassign]
    dsimp only
    rw [PassiveService.obeyAll, hinstruct]
    rfl
  rw [hreport]
  have hp : ∃ u, ((v.put i (some t)).put p (some { s with chkPointNum := s.chkPointNum + 1 })).server p = some u ∧
      Acting env q size p u := ⟨_, put_self .., hact.counted _⟩
  refine files_delivered hz h.clean ?_ hp (fun j hj => ?_) (fun j => ?_) hof file
  · rw [show ((v.put i (some t)).put p (some { s with chkPointNum := s.chkPointNum + 1 })).mgr = v.mgr from rfl, hv]
    exact hm
  · rw [put_other hj]
    by_cases hji : j = i
    · subst hji
      exact ⟨t, put_self .., hrole, by rw [hlog]; exact Nat.zero_lt_succ 49⟩
    · obtain ⟨b, hb, hstand⟩ := h.others j hj hji
      exact ⟨b, by rw [put_other hji, hvserver]; exact hb, hstand.role, lt_of_le_of_lt hstand.room hn⟩
  · rw [filesTo_append, hnone, List.nil_append, List.append_nil, hfiles]

end

/-! ### How much a backup may have logged -/

/-- Where the primary is, and a bound on the logs of the backups. -/
structure Pace where
  primary : Replica
  backlog : ℕ

/-- A full log has no room for a checkpoint either. -/
def Upkeep.pace (a : Pace) : Upkeep → Option Pace
  | .checkpoint i _ =>
    if i = a.primary then (if a.backlog < 50 then some ⟨a.primary, 0⟩ else none) else some a
  | .restart i turns _ _ =>
    if a.backlog < 50 ∧ (i = a.primary → a.backlog < turns) then
      some ⟨if i = a.primary then nextReplica i else a.primary, 0⟩
    else none

section
variable {env : Env} (hz : env.ZeroHeap) {q : Cells} {size : ℕ} (hsize : size ≤ 2 ^ 20)
include hz hsize

theorem InService.upkeep {w : PassiveService} {a b : Pace} (h : InService env q size a.primary a.backlog w)
    {u : Upkeep} (hpace : Upkeep.pace a u = some b) :
    InService env q size b.primary b.backlog (w.upkeep env u) := by
  cases u with
  | checkpoint i file =>
    rw [Upkeep.pace] at hpace
    split at hpace
    · rename_i hi
      subst hi
      split at hpace
      · rename_i hroom
        cases hpace
        exact h.checkpoint hz hsize hroom file
      · cases hpace
    · rename_i hi
      cases hpace
      exact h.no_checkpoint hi file
  | restart i turns order file =>
    rw [Upkeep.pace] at hpace
    split at hpace
    · rename_i hroom
      cases hpace
      exact (h.down hz i hroom.2 order).up hz hsize hroom.1 order file
    · cases hpace

theorem InService.upkeeps {w : PassiveService} {a b : Pace} (h : InService env q size a.primary a.backlog w)
    {us : List Upkeep} (hpace : StepRun.run Upkeep.pace a us = some b) :
    InService env q size b.primary b.backlog (us.foldl (PassiveService.upkeep env) w) := by
  induction us generalizing a w with
  | nil =>
    cases hpace
    exact h
  | cons u us ih =>
    obtain ⟨c, hstep, hrest⟩ := StepRun.run_cons_eq_some.mp hpace
    exact ih (h.upkeep hz hsize hstep) hrest

end

/-! ### A command on the three servers -/

/-- Entered at the menu, and of a text that fits the checkpoint format. -/
structure Command.Clean (cmd : Command) : Prop where
  enterable : cmd.Enterable
  len : cmd.text.length ≤ 1015

theorem Command.Clean.text {cmd : Command} (h : cmd.Clean) : CleanText cmd.text := by
  cases cmd with
  | add task date =>
    refine ⟨h.enterable.1.task.trimmed, fun b hb => ?_⟩
    have hhead := List.head?_dropWhile_not isSpace task
    rw [Command.text, trimmed, Option.mem_def] at hb
    rw [hb] at hhead
    exact hhead
  | remove key => exact ⟨by simp [Command.text], by simp [Command.text]⟩

section
variable {env : Env} {requestNo clientId : ℤ} {cmd : Command} {k : Contact} {ctx : ClientCtx}

theorem ReadAs.clean (h : ReadAs env.sha1 requestNo clientId cmd k ctx) (hcmd : cmd.Clean) :
    CleanRequest ctx.req := by
  refine ⟨h.update.1, h.update.2, fun htype => ?_, fun htype => ?_⟩
  · rw [(h.text htype).1]
    exact hcmd.len
  · rw [(h.text htype).2]
    exact hcmd.text

theorem ReadAs.applies (h : ReadAs env.sha1 requestNo clientId cmd k ctx) (q : Cells) :
    applyRequest env q ctx.req = step tableMachine q (cmd.call env.sha1) := by
  obtain ⟨c, hcall, hkey, hact⟩ := h.call env rfl
  unfold applyRequest
  rw [hcall]
  exact (machine_congr hkey hact q).1

variable (hz : env.ZeroHeap) (hno : Counted requestNo) (hid : Counted clientId) (hcmd : cmd.Clean)
  {buf : Bytes} (hbuf : cmd.request requestNo clientId = .ok buf) {q : Cells} {size : ℕ}
include hno hid hcmd hbuf

/-- A backup logs the request and leaves the client waiting. -/
theorem serveSite_logs (hin : IsCut k.toServer) {n : ℕ} (hn : n < 50) {s : Server}
    (h : Standing env q size n s) :
    ∃ t, serveSite k ⟨env, s⟩ buf = .ok (⟨env, t⟩, .connected k.clientFd none) ∧
      Standing env (step tableMachine q (cmd.call env.sha1)) (size + 1) (n + 1) t := by
  obtain ⟨buf', hbuf', ctx, rest, hloop, hread⟩ :=
    @command_read env.sha1 requestNo clientId hno hid cmd hcmd.enterable k hin
  rw [hbuf] at hbuf'
  cases hbuf'
  have hroom : s.nrl.length < s.nrlQLimit := by
    rw [h.role.limit]
    exact lt_of_le_of_lt h.room hn
  have hconn := update_received hread.update hroom (by rw [h.role.state]; decide) k.rand
  rw [h.role.backup] at hconn
  obtain ⟨t, ht⟩ : ∃ t : Server, t = { s with nrl := s.nrl ++ [{ ctx with isBacklog := true }] } := ⟨_, rfl⟩
  rw [← ht] at hconn
  have hrole : InRole .passiveBackup t := by
    rw [ht]
    refine ⟨⟨h.role.prune, h.role.limit, h.role.ctrl, h.role.ctrlLimit, h.role.prev, h.role.table⟩,
      h.role.mode, h.role.state, h.role.thread, fun c hc => ?_⟩
    rcases List.mem_append.mp hc with hold | hnew
    · exact h.role.backlog c hold
    · rw [List.mem_singleton.mp hnew]
      exact ⟨rfl, hread.clean hcmd⟩
  have hidle : runNormal env t = .ok (t, []) := worker_idles env hrole.prune (Or.inl hrole.backup)
  have hempty : (⟨[], ctx.req.payload.size⟩ : Payload) = ctx.req.payload := by rw [hread.payload]
  have hserve : serveRequest k ⟨env, s⟩ buf = .ok (t, []) := by
    unfold serveRequest
    rw [hloop]
    dsimp only
    rw [readPayload, if_neg (not_not.mpr hread.update.2)]
    dsimp only
    rw [hempty, hconn]
    dsimp only
    rw [hidle]
    rfl
  refine ⟨t, ?_, hrole, ⟨?_, ?_⟩, ?_⟩
  · unfold serveSite
    rw [hserve]
    rfl
  · rw [ht, ← hread.applies, ← h.holds.replays]
    dsimp only
    unfold exec
    rw [List.map_append, List.foldl_append]
    rfl
  · have hcount := h.holds.size
    rw [ht]
    dsimp only
    rw [List.length_append, List.length_singleton]
    omega
  · have hlen := h.room
    rw [ht]
    dsimp only
    rw [List.length_append, List.length_singleton]
    omega

include hz in
/-- The primary executes the request and answers. -/
theorem serveSite_acts (hin : IsCut k.toServer) (hout : IsCut k.toClient) (hfd : 0 ≤ k.fd) {p : Replica}
    {s : Server} (h : Acting env q size p s) :
    ∃ t reply, serveSite k ⟨env, s⟩ buf = .ok (⟨env, t⟩, .connected k.clientFd reply) ∧
      Acting env (step tableMachine q (cmd.call env.sha1)) (size + 1) p t ∧
      (Conn.connected k.clientFd reply).Gives
        (shownFor clientId requestNo (cmd.call env.sha1, answerTo q (cmd.call env.sha1))).response := by
  have hready : Ready s := by
    refine ⟨h.role.prune, h.log, by rw [h.role.limit]; decide, by simp [isPassiveBackup, h.role.state], ?_, ?_⟩
    · rw [h.role.state]
      decide
    · rw [h.role.state]
      rfl
  obtain ⟨ctx, ret, ctx', store, reply, hread, hserve, hcells, hstorage, hgives⟩ :=
    @serveSite_ready env.sha1 requestNo clientId cmd hno hid hcmd.enterable buf hbuf q k hin hout hfd
      ⟨env, s⟩ rfl hready (h.holds.cells h.log)
  obtain ⟨call, -, hcall, -⟩ :=
    @handleStorage_update env s.store store { ctx with isBacklog := false } ctx' ret hread.update.1 hstorage
  have hsane : Sane store.htable := handleStorage_stable (sane_stable hz) _ _ _ _ _ hstorage h.role.table
  have hlog : ({ s with store := store } : Server).nrl = [] := h.log
  refine ⟨{ s with store := store }, reply, hserve, ⟨⟨⟨h.role.prune, h.role.limit, h.role.ctrl, h.role.ctrlLimit,
    h.role.prev, hsane⟩, h.role.mode, h.role.state, h.role.thread, h.role.backlog⟩, ⟨?_, ?_⟩, hlog, h.backups⟩, hgives⟩
  · rw [hlog]
    exact hcells
  · have hcount := entryCount_call hcall
    have hsize := h.count
    rw [hlog, List.length_nil]
    dsimp only at hcount ⊢
    omega

omit hno hid hcmd hbuf in
/-- Every server is served, one after the other. -/
theorem replicas_served {contact : ℕ → Contact} {t : Replica → Server}
    {reply : Replica → Option (List ReadResult)} {is : List Replica} (hnodup : is.Nodup) {w : PassiveService}
    (h : ∀ i ∈ is, ∃ s, w.server i = some s ∧ serveSite (contact i) ⟨env, s⟩ buf =
      .ok (⟨env, t i⟩, .connected (contact i).clientFd (reply i))) :
    ∃ w', serveReplicas env contact is w buf =
        .ok (w', is.map fun i => .connected (contact i.val).clientFd (reply i)) ∧
      w'.mgr = w.mgr ∧ (∀ i ∈ is, w'.server i = some (t i)) ∧ ∀ i ∉ is, w'.server i = w.server i := by
  induction is generalizing w with
  | nil => exact ⟨w, rfl, rfl, fun i hi => absurd hi List.not_mem_nil, fun _ _ => rfl⟩
  | cons i is ih =>
    obtain ⟨hni, hrest⟩ := List.nodup_cons.mp hnodup
    obtain ⟨s, hs, hserve⟩ := h i (List.mem_cons_self ..)
    obtain ⟨w', hw', hmgr, hserved, hother⟩ := @ih hrest (w.put i (some (t i))) fun j hj => by
      obtain ⟨u, hu, hserve'⟩ := h j (List.mem_cons_of_mem _ hj)
      exact ⟨u, (put_other (ne_of_mem_of_not_mem hj hni) _).trans hu, hserve'⟩
    refine ⟨w', ?_, hmgr, fun j hj => ?_, fun j hj => ?_⟩
    · rw [serveReplicas, serveReplica, hs]
      dsimp only
      rw [hserve]
      dsimp only
      rw [hw']
      rfl
    · rcases List.mem_cons.mp hj with rfl | hj
      · rw [hother j hni]
        exact put_self ..
      · exact hserved j hj
    · rw [List.mem_cons, not_or] at hj
      exact (hother j hj.2).trans (put_other hj.1 _)

include hz in
/-- One request: the primary executes and answers it, the backups log it. -/
theorem InService.request {contact : ℕ → Contact}
    (hcut : ∀ i, IsCut (contact i).toServer ∧ IsCut (contact i).toClient) (hfd : ∀ i, 0 ≤ (contact i).fd)
    {p : Replica} {n : ℕ} (hn : n < 50) {w : PassiveService} (h : InService env q size p n w) :
    ∃ (w' : PassiveService) (reply : Replica → Option (List ReadResult)),
      serveReplicas env contact (List.finRange 3) w buf =
        .ok (w', (List.finRange 3).map fun i => .connected (contact i.val).clientFd (reply i)) ∧
      InService env (step tableMachine q (cmd.call env.sha1)) (size + 1) p (n + 1) w' ∧
      (∀ i ≠ p, reply i = none) ∧ (Conn.connected (contact p.val).clientFd (reply p)).Gives
        (shownFor clientId requestNo (cmd.call env.sha1, answerTo q (cmd.call env.sha1))).response := by
  have hall : ∀ i : Replica, ∃ t reply, (∃ s, w.server i = some s ∧ serveSite (contact i) ⟨env, s⟩ buf =
      .ok (⟨env, t⟩, .connected (contact i).clientFd reply)) ∧
      (i = p → Acting env (step tableMachine q (cmd.call env.sha1)) (size + 1) p t ∧
        (Conn.connected (contact i).clientFd reply).Gives
          (shownFor clientId requestNo (cmd.call env.sha1, answerTo q (cmd.call env.sha1))).response) ∧
      (i ≠ p → Standing env (step tableMachine q (cmd.call env.sha1)) (size + 1) (n + 1) t ∧ reply = none) := by
    intro i
    by_cases hi : i = p
    · obtain ⟨s, hs, hact⟩ := h.primary
      obtain ⟨t, reply, hserve, hact', hgives⟩ :=
        serveSite_acts hz hno hid hcmd hbuf (hcut i).1 (hcut i).2 (hfd i) hact
      exact ⟨t, reply, ⟨s, by rw [hi]; exact hs, hserve⟩, fun _ => ⟨hact', hgives⟩, fun hne => absurd hi hne⟩
    · obtain ⟨s, hs, hstand⟩ := h.backups i hi
      obtain ⟨t, hserve, hstand'⟩ := serveSite_logs hno hid hcmd hbuf (hcut i).1 hn hstand
      exact ⟨t, none, ⟨s, hs, hserve⟩, fun heq => absurd heq hi, fun _ => ⟨hstand', rfl⟩⟩
  choose t reply hserve hact hstand using hall
  obtain ⟨w', hw', hmgr, hserved, -⟩ := replicas_served (List.nodup_finRange 3) fun i _ => hserve i
  obtain ⟨-, -, ctx, rest, -, hread⟩ :=
    @command_read env.sha1 requestNo clientId hno hid cmd hcmd.enterable (contact 0) (hcut 0).1
  refine ⟨w', reply, hw', ⟨?_, ?_, ⟨t p, hserved p (List.mem_finRange p), (hact p rfl).1⟩, fun i hi =>
    ⟨t i, hserved i (List.mem_finRange i), (hstand i hi).1⟩⟩, fun i hi => (hstand i hi).2, (hact p rfl).2⟩
  · rw [← hread.applies]
    exact cleanCells_apply (hread.clean hcmd) h.clean
  · rw [hmgr]
    exact h.mgr

end

/-! ### The session -/

theorem shownFor_parse (clientId requestNo : ℤ) (answer : Call × ℤ) :
    0 ≤ parseResponseFromServer (shownFor clientId requestNo answer).response clientId ↔ answer.2 = 0 := by
  have hstatus : (if 0 ≤ parseResponseFromServer (shownFor clientId requestNo answer).response clientId
      then (0 : ℤ) else -1) = if answer.2 = 0 then 0 else -1 := shownFor_status clientId requestNo answer
  split at hstatus
  · rename_i hok
    split at hstatus
    · exact ⟨fun _ => ‹_›, fun _ => hok⟩
    · omega
  · rename_i hfail
    split at hstatus
    · omega
    · exact ⟨fun hok => absurd hok hfail, fun hzero => absurd hzero ‹_›⟩

/-- The client has counted every reply, and the service has the list `q`. -/
structure InPassiveSession (env : Env) (q : Cells) (size : ℕ) (a : Pace) (c : Client PassiveService) : Prop where
  responseNo : c.responseNo = c.requestNo
  clientId : Counted c.clientId
  service : InService env q size a.primary a.backlog c.world

section
variable {env : Env} (hz : env.ZeroHeap) {net : ℕ → Round} (hnet : ∀ n, (net n).Fair 3)
  {upkeep : ℕ → List Upkeep}
include hz hnet

/-- One command: a success is shown, and the session goes on; else the call waits
for the backups, which never answer. -/
theorem InPassiveSession.command {q : Cells} {size : ℕ} {a b : Pace} {c : Client PassiveService}
    (hc : InPassiveSession env q size a c) {cmd : Command} (hcmd : cmd.Clean)
    (hno : Counted (c.requestNo + 1)) (hsize : size ≤ 2 ^ 20)
    (hpace : StepRun.run Upkeep.pace a (upkeep c.world.round) = some b) (hroom : b.backlog < 50) (stdin : Bytes) :
    (answerTo q (cmd.call env.sha1) = 0 →
      ∃ c', sendRequest (askPassive env net upkeep) { c with stdin := stdin, requestNo := c.requestNo + 1 }
          (cmd.request (c.requestNo + 1) c.clientId) = .ok c' ∧
        InPassiveSession env (step tableMachine q (cmd.call env.sha1)) (size + 1)
          ⟨b.primary, b.backlog + 1⟩ c' ∧ c'.stdin = stdin ∧ c'.clientId = c.clientId ∧
        c'.requestNo = c.requestNo + 1 ∧ c'.world.round = c.world.round + 1 ∧ c'.shown = c.shown ++
          [shownFor c.clientId (c.requestNo + 1) (cmd.call env.sha1, answerTo q (cmd.call env.sha1))]) ∧
    (answerTo q (cmd.call env.sha1) ≠ 0 →
      sendRequest (askPassive env net upkeep) { c with stdin := stdin, requestNo := c.requestNo + 1 }
        (cmd.request (c.requestNo + 1) c.clientId) = .error .noReturn) := by
  have hfair := hnet c.world.round
  obtain ⟨buf, hbuf, -⟩ := @command_read env.sha1 _ _ hno hc.clientId cmd hcmd.enterable _ (hfair.cut 0).1
  obtain ⟨w', reply, hserve, hservice, hquiet, hgives⟩ := (hc.service.upkeeps hz hsize hpace).request hz hno
    hc.clientId hcmd hbuf hfair.cut hfair.accepted hroom
  obtain ⟨conns, hconns⟩ : ∃ conns : List Conn, conns =
    (List.finRange 3).map fun i => .connected ((net c.world.round).contact i.val).clientFd (reply i) := ⟨_, rfl⟩
  rw [← hconns] at hserve
  have hget (i : Replica) : conns[i.val]? =
      some (.connected ((net c.world.round).contact i.val).clientFd (reply i)) := by
    rw [hconns]
    fin_cases i <;> rfl
  have halike : ∀ d ∈ conns, d.Gives (shownFor c.clientId (c.requestNo + 1)
      (cmd.call env.sha1, answerTo q (cmd.call env.sha1))).response ∨ d.Quiet := by
    intro d hd
    rw [hconns] at hd
    obtain ⟨i, -, rfl⟩ := List.mem_map.mp hd
    by_cases hi : i = b.primary
    · subst hi
      exact Or.inl hgives
    · right
      rw [hquiet i hi]
      trivial
  have hfresh : FreshFds conns := freshFds_of_contacts hfair.fresh hfair.pos
    (by rw [hconns]; rfl) (by rw [hconns]; rfl : connectedFds conns =
      (List.range' 0 3).map fun j => ((net c.world.round).contact j).clientFd)
  have hask : askPassive env net upkeep c.world buf =
      .ok ({ w' with round := c.world.round + 1 }, ⟨conns, (net c.world.round).reports⟩) := by
    unfold askPassive
    rw [hserve]
  constructor
  · intro hanswer
    have hreport := hfair.reported b.primary.val b.primary.isLt
    obtain ⟨p, hsend, hresponse, hresponseNo⟩ := sendAndGetResponse_first hfresh halike rfl
      ((shownFor_parse ..).mpr hanswer) (hget b.primary) hgives hreport (congrArg (· + 1) hc.responseNo)
    refine ⟨{ c with
      stdin := stdin
      requestNo := c.requestNo + 1
      responseNo := p.responseNo
      world := { w' with round := c.world.round + 1 }
      shown := c.shown ++
        [shownFor c.clientId (c.requestNo + 1) (cmd.call env.sha1, answerTo q (cmd.call env.sha1))] }, ?_,
      ⟨hresponseNo, hc.clientId, ⟨hservice.clean, hservice.mgr, hservice.primary, hservice.backups⟩⟩,
      rfl, rfl, rfl, rfl, rfl⟩
    unfold sendRequest
    rw [hbuf]
    dsimp only
    rw [hask]
    dsimp only
    rw [hsend, shownFor_status]
    dsimp only
    rw [hresponse]
  · intro hanswer
    have hfail : parseResponseFromServer (shownFor c.clientId (c.requestNo + 1)
        (cmd.call env.sha1, answerTo q (cmd.call env.sha1))).response c.clientId < 0 :=
      not_le.mp fun hok => hanswer ((shownFor_parse ..).mp hok)
    have hsilent : (Conn.connected ((net c.world.round).contact (nextReplica b.primary).val).clientFd
        (reply (nextReplica b.primary))).Quiet := by
      rw [hquiet _ (nextReplica_ne b.primary)]
      trivial
    unfold sendRequest
    rw [hbuf]
    dsimp only
    rw [hask]
    dsimp only
    rw [sendAndGetResponse_waits hfresh halike rfl hfail (hget _) hsilent _ (congrArg (· + 1) hc.responseNo)]

end

end ToDoList
