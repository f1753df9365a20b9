import ToDoList.Handover

/-!
# Threads that are not interrupted

A thread that runs on its own, from the top of its loop back to it or from its
`accept` to its end, does what the server model takes for one step. So every run
of the server model is one of the runs of the threads.
-/

namespace ToDoList
open CLib StepRun

section
variable {env : Env} {s t u : Threads} {i : ℕ} {c : ClientCtx} {a b v : Server} {effs : List Effect}
  {back : Bool}

theorem reach_normal (h : normalStep env s = .ok u) (hr : Reach (threadsNext env) u t) :
    Reach (threadsNext env) s t := by
  refine hr.head (e := .normal) ?_
  simp only [threadsNext, threadsStep, h, Except.toOption]

theorem reach_control (h : controlStep env s = .ok u) (hr : Reach (threadsNext env) u t) :
    Reach (threadsNext env) s t := by
  refine hr.head (e := .control) ?_
  simp only [threadsNext, threadsStep, h, Except.toOption]

theorem reach_conn (h : connStep s i = .ok u) (hr : Reach (threadsNext env) u t) :
    Reach (threadsNext env) s t := by
  refine hr.head (e := .conn i) ?_
  simp only [threadsNext, threadsStep, h, Except.toOption]

/-! ### Executing one request -/

theorem executeMsg_parts (h : executeMsg env a c = .ok (b, effs)) : ∃ v ret store c',
    (if a.repMode = .passiveRep ∧ a.state = .passivePreprimary ∧ c.isBacklog = false then
      setState a .passivePrimary else .ok a) = .ok v ∧
    handleStorage env v.store c = .ok (ret, store, c') ∧ b = { v with store := store } ∧
    effs = .exec c :: (if ret ≠ 0 then [writeClientResponce b c' "FAIL" "Check inputs"] else []) ++
      [writeClientResponce b c' "OK" "Success"] ++ closeFd c' := by
  unfold executeMsg at h
  dsimp only at h
  split at h
  · cases h
  · rename_i v hv
    split at h
    · cases h
    · rename_i ret store c' hstore
      cases h
      exact ⟨v, ret, store, c', hv, hstore, rfl, rfl⟩

theorem closeCtx_freeCtx (s : Threads) (c : ClientCtx) :
    (s.closeCtx c.conn c.fd).freeCtx c.conn =
      { s with heap := Function.update s.heap c.conn none, out := s.out ++ closeFd c } := by
  unfold Threads.closeCtx closeFd Threads.freeCtx
  split
  · simp only [Function.update_idem]
  · simp only [List.append_nil]

theorem closeCtx_live {fd : ℤ} (s : Threads) (hheap : s.heap i = some fd) :
    ∃ fd', (s.closeCtx i fd).heap i = some fd' := by
  unfold Threads.closeCtx
  split
  · exact ⟨-1, Function.update_self ..⟩
  · exact ⟨fd, hheap⟩

theorem reach_close (hs : s.normal = .close c back) (hheap : s.heap c.conn = some c.fd) :
    Reach (threadsNext env) s
      { s with heap := Function.update s.heap c.conn none, normal := backTo back,
               out := s.out ++ closeFd c } := by
  refine reach_normal (u := { s.closeCtx c.conn c.fd with normal := .free c back }) ?_ ?_
  · simp only [normalStep, hs, Threads.touch, hheap]
  refine reach_normal (u := { (s.closeCtx c.conn c.fd).freeCtx c.conn with normal := backTo back }) ?_ ?_
  · obtain ⟨fd, hfd⟩ := closeCtx_live s hheap
    simp only [normalStep, Threads.touch, hfd]
    rfl
  rw [closeCtx_freeCtx]
  exact Reach.refl _

theorem reach_reply (hs : s.normal = .reply c back) (hheap : s.heap c.conn = some c.fd) :
    Reach (threadsNext env) s
      { s with heap := Function.update s.heap c.conn none, normal := backTo back,
               out := s.out ++ [writeClientResponce s.server c "OK" "Success"] ++ closeFd c } := by
  refine reach_normal (u := { s.emit [writeClientResponce s.server c "OK" "Success"] with
    normal := .close c back }) ?_ (reach_close rfl hheap)
  simp only [normalStep, hs, Threads.touch, hheap]

theorem reach_lock (hs : s.normal = .lock c back) (hheap : s.heap c.conn = some c.fd)
    (hv : (if s.server.repMode = .passiveRep ∧ s.server.state = .passivePreprimary ∧ c.isBacklog = false
      then setState s.server .passivePrimary else .ok s.server) = .ok v) :
    Reach (threadsNext env) s { s with server := v, normal := .store c back } := by
  refine reach_normal (u := { s with normal := .exec c back }) (by simp only [normalStep, hs]) ?_
  by_cases hp : s.server.repMode = .passiveRep ∧ s.server.state = .passivePreprimary ∧ c.isBacklog = false
  · rw [if_pos hp] at hv
    refine reach_normal (u := { s with normal := .promoteExec c back }) ?_ ?_
    · simp only [normalStep, Threads.touch, hheap, if_pos hp]
    refine reach_normal (u := { s with server := v, normal := .store c back }) ?_ (Reach.refl _)
    simp only [normalStep, hv, lift]
  · rw [if_neg hp] at hv
    cases hv
    refine reach_normal (u := { s with normal := .store c back }) ?_ (Reach.refl _)
    simp only [normalStep, Threads.touch, hheap, if_neg hp]

theorem reach_execute (hs : s.normal = .lock c back) (hheap : s.heap c.conn = some c.fd)
    (hexec : executeMsg env s.server c = .ok (b, effs)) :
    Reach (threadsNext env) s
      { s with server := b, heap := Function.update s.heap c.conn none, normal := backTo back,
               out := s.out ++ effs } := by
  obtain ⟨v, ret, store, c', hv, hstore, rfl, rfl⟩ := executeMsg_parts hexec
  obtain ⟨hfd, hconn⟩ := handleStorage_ctx hstore
  refine (reach_lock hs hheap hv).trans ?_
  refine reach_normal (u := { s.emit (.exec c :: if ret ≠ 0 then
      [writeClientResponce { v with store := store } c' "FAIL" "Check inputs"] else []) with
    server := { v with store := store }, normal := .reply c' back }) ?_ ?_
  · simp only [normalStep, Threads.touch, hheap, hstore, Threads.emit]
  have hheap' : s.heap c'.conn = some c'.fd := by
    rw [hconn, hfd]
    exact hheap
  refine Reach.trans (reach_reply rfl hheap') ?_
  simp only [Threads.emit, hconn, List.append_assoc]
  exact Reach.refl _

/-! ### One iteration of the NORMAL worker -/

def freeAll (heap : ℕ → Option ℤ) : List ClientCtx → ℕ → Option ℤ
  | [] => heap
  | c :: rest => freeAll (Function.update heap c.conn none) rest

theorem freeAll_of_not_mem {log : List ClientCtx} (heap : ℕ → Option ℤ)
    (h : i ∉ log.map ClientCtx.conn) : freeAll heap log i = heap i := by
  induction log generalizing heap with
  | nil => rfl
  | cons c rest ih =>
    simp only [List.map_cons, List.mem_cons, not_or] at h
    rw [freeAll, ih _ h.2, Function.update_of_ne h.1]

theorem fds_update {log : List ClientCtx} {heap : ℕ → Option ℤ}
    (hfds : ∀ d ∈ log, heap d.conn = some d.fd) (hnew : c.conn ∉ log.map ClientCtx.conn) :
    ∀ d ∈ log, Function.update heap c.conn none d.conn = some d.fd := by
  intro d hd
  have hne : d.conn ≠ c.conn := fun heq => hnew (List.mem_map.mpr ⟨d, hd, heq⟩)
  rw [Function.update_of_ne hne]
  exact hfds d hd

theorem reach_pruneLoop {log : List ClientCtx} (hs : s.normal = .prune) (hlog : s.server.nrl = log)
    (hfds : ∀ d ∈ log, s.heap d.conn = some d.fd) (hnodup : (log.map ClientCtx.conn).Nodup)
    (h : pruneLoop env log s.server = .ok (b, effs)) :
    Reach (threadsNext env) s
      { s with server := b, heap := freeAll s.heap log, normal := .sleepTest, out := s.out ++ effs } := by
  induction log generalizing s effs with
  | nil =>
    cases h
    refine reach_normal (u := { s with normal := .sleepTest }) ?_ ?_
    · simp only [normalStep, hs, hlog]
    · rw [List.append_nil]
      exact Reach.refl _
  | cons c rest ih =>
    simp only [List.map_cons, List.nodup_cons] at hnodup
    have hc : s.heap c.conn = some c.fd := hfds c (List.mem_cons_self ..)
    have hrest := fds_update (fun d hd => hfds d (List.mem_cons_of_mem _ hd)) hnodup.1
    refine reach_normal (u := { s with server := { s.server with nrl := rest }, normal := .pruned c }) ?_ ?_
    · simp only [normalStep, hs, hlog]
    rw [pruneLoop] at h
    split at h
    · rename_i htype
      split at h
      · cases h
      · rename_i v effs' hloop
        cases h
        refine reach_normal (u := { s with server := { s.server with nrl := rest }, normal := .close c true,
                                           out := s.out ++ [.discard c] }) ?_ ?_
        · simp only [normalStep, Threads.touch, hc, if_pos htype, Threads.emit]
        refine Reach.trans (reach_close rfl hc) ?_
        have hr := ih (s := { s with
          server := { s.server with nrl := rest }, normal := .prune,
          heap := Function.update s.heap c.conn none, out := s.out ++ [.discard c] ++ closeFd c })
          rfl rfl hrest hnodup.2 hloop
        simp only [List.append_assoc, List.cons_append, List.nil_append] at hr ⊢
        exact hr
    · rename_i htype
      split at h
      · cases h
      · rename_i v effs₁ hexec
        split at h
        · cases h
        · rename_i w effs₂ hloop
          cases h
          refine reach_normal (u := { s with server := { s.server with nrl := rest, isPrune := false },
                                             normal := .lock c true }) ?_ ?_
          · simp only [normalStep, Threads.touch, hc, if_neg htype]
          refine Reach.trans (reach_execute rfl hc hexec) ?_
          have hr := ih (s := { s with
            server := v, normal := .prune,
            heap := Function.update s.heap c.conn none, out := s.out ++ effs₁ })
            rfl (executeMsg_frame hexec).1 hrest hnodup.2 hloop
          simp only [List.append_assoc] at hr ⊢
          exact hr

theorem reach_turn (hs : s.normal = .sleepTest)
    (hfds : ∀ d ∈ s.server.nrl, s.heap d.conn = some d.fd)
    (h : normalTurn env s.server = .ok (b, effs)) :
    ∃ heap, Reach (threadsNext env) s
        { s with server := b, heap := heap, normal := .top, out := s.out ++ effs } ∧
      ((heap = s.heap ∧ b.nrl = s.server.nrl) ∨
        ∃ c rest, s.server.nrl = c :: rest ∧ heap = Function.update s.heap c.conn none ∧ b.nrl = rest) := by
  unfold normalTurn at h
  split at h
  · rename_i hsleep
    cases h
    refine ⟨s.heap, ?_, Or.inl ⟨rfl, rfl⟩⟩
    refine reach_normal (u := { s with normal := .sleepRole }) ?_ ?_
    · simp only [normalStep, hs, hsleep.1]
      rfl
    refine reach_normal (u := { s with normal := .top }) ?_ ?_
    · simp only [normalStep, hsleep.2, if_true]
    · rw [List.append_nil]
      exact Reach.refl _
  · rename_i hawake
    dsimp only at h
    have hcount : Reach (threadsNext env) s { s with normal := .count } := by
      cases hp : s.server.isPrune with
      | true =>
        refine reach_normal (u := { s with normal := .count }) ?_ (Reach.refl _)
        simp only [normalStep, hs, hp, if_true]
      | false =>
        refine reach_normal (u := { s with normal := .sleepRole }) ?_ ?_
        · simp only [normalStep, hs, hp]
          rfl
        refine reach_normal (u := { s with normal := .count }) ?_ (Reach.refl _)
        have hbackup : ¬ isPassiveBackup s.server = true := fun hb => hawake ⟨hp, hb⟩
        simp only [normalStep, if_neg hbackup]
    cases hnrl : s.server.nrl with
    | nil =>
      have htest : Reach (threadsNext env) s { s with normal := .promoteTest } := by
        refine hcount.trans (reach_normal (u := { s with normal := .promoteTest }) ?_ (Reach.refl _))
        simp only [normalStep, hnrl, if_true]
      by_cases hpre : s.server.repMode = .passiveRep ∧ s.server.state = .passivePreprimary
      · have hcond : s.server.repMode = .passiveRep ∧ s.server.state = .passivePreprimary ∧
            s.server.nrl = [] := ⟨hpre.1, hpre.2, hnrl⟩
        rw [if_pos hcond, setState_primary s.server hpre.1] at h
        have hpromoted : (promoted s.server).nrl = [] := hnrl
        simp only [hpromoted] at h
        cases h
        refine ⟨s.heap, htest.trans ?_, Or.inl ⟨rfl, hpromoted⟩⟩
        refine reach_normal (u := { s with normal := .promote }) ?_ ?_
        · simp only [normalStep, if_pos hpre]
        refine reach_normal (u := { s with server := promoted s.server, normal := .top }) ?_ ?_
        · simp only [normalStep, setState_primary s.server hpre.1, lift]
        · rw [List.append_nil]
          exact Reach.refl _
      · have hcond : ¬(s.server.repMode = .passiveRep ∧ s.server.state = .passivePreprimary ∧
            s.server.nrl = []) := fun hc => hpre ⟨hc.1, hc.2.1⟩
        rw [if_neg hcond] at h
        simp only [hnrl] at h
        cases h
        refine ⟨s.heap, htest.trans ?_, Or.inl ⟨rfl, hnrl⟩⟩
        refine reach_normal (u := { s with normal := .top }) ?_ ?_
        · simp only [normalStep, if_neg hpre]
        · rw [List.append_nil]
          exact Reach.refl _
    | cons c rest =>
      have hcond : ¬(s.server.repMode = .passiveRep ∧ s.server.state = .passivePreprimary ∧
          s.server.nrl = []) := fun hc => by
        rw [hnrl] at hc
        cases hc.2.2
      rw [if_neg hcond] at h
      simp only [hnrl] at h
      have htest : Reach (threadsNext env) s { s with normal := .quiesceTest } := by
        refine hcount.trans (reach_normal (u := { s with normal := .quiesceTest }) ?_ (Reach.refl _))
        simp [normalStep, hnrl]
      split at h
      · rename_i hquiesce
        cases h
        refine ⟨s.heap, htest.trans ?_, Or.inl ⟨rfl, hnrl⟩⟩
        refine reach_normal (u := { s with normal := .top }) ?_ ?_
        · simp only [normalStep, if_pos hquiesce]
        · rw [List.append_nil]
          exact Reach.refl _
      · rename_i hquiesce
        refine ⟨Function.update s.heap c.conn none, htest.trans ?_, Or.inr ⟨c, rest, rfl, rfl, ?_⟩⟩
        · refine reach_normal (u := { s with normal := .take }) ?_ ?_
          · simp only [normalStep, if_neg hquiesce]
          refine reach_normal (u := { s with server := { s.server with nrl := rest },
                                             normal := .lock c false }) ?_ ?_
          · simp only [normalStep, hnrl]
          have hc := hfds c (by rw [hnrl]; exact List.mem_cons_self ..)
          refine Reach.trans (reach_execute rfl hc h) ?_
          exact Reach.refl _
        · exact (executeMsg_frame h).1

/-! ### Between two threads -/

/-- Both workers are at the top of their loops, and all connection threads have
ended; what they have left is in the logs. -/
structure AtRest (s : Threads) : Prop where
  normal : s.normal = .top
  control : s.control = .top
  fds : ∀ c ∈ s.server.nrl ++ s.server.ctrl, s.heap c.conn = some c.fd
  nodup : ((s.server.nrl ++ s.server.ctrl).map ClientCtx.conn).Nodup
  known : ∀ i ∈ (s.server.nrl ++ s.server.ctrl).map ClientCtx.conn, s.conn i = .gone

/-- `t` is an idle state that the threads reach from `s`, with the server as the
model has it. -/
structure Completes (env : Env) (s t : Threads) (b : Server) (effs : List Effect) : Prop where
  reach : Reach (threadsNext env) s t
  rest : AtRest t
  server : t.server = b
  out : t.out = s.out ++ effs

theorem AtRest.part (h : AtRest s) (hpcs : t.normal = .top ∧ t.control = .top) (hconn : t.conn = s.conn)
    (hsub : (t.server.nrl ++ t.server.ctrl).Sublist (s.server.nrl ++ s.server.ctrl))
    (hheap : ∀ c ∈ t.server.nrl ++ t.server.ctrl, t.heap c.conn = s.heap c.conn) : AtRest t := by
  refine ⟨hpcs.1, hpcs.2, fun c hc => ?_, h.nodup.sublist (hsub.map _), fun i hi => ?_⟩
  · rw [hheap c hc]
    exact h.fds c (hsub.mem hc)
  · rw [hconn]
    exact h.known i ((hsub.map _).mem hi)

theorem normalTurn_ctrl (h : normalTurn env a = .ok (b, effs)) : b.ctrl = a.ctrl := by
  rcases normalTurn_cases h with ⟨-, rfl | ⟨-, rfl⟩⟩ | ⟨c, rest, -, -, hexec⟩
  · rfl
  · rfl
  · exact (executeMsg_frame hexec).2.1

theorem completes_normal (hstill : AtRest s) (h : runNormal env s.server = .ok (b, effs)) :
    ∃ t, Completes env s t b effs ∧ t.conn = s.conn := by
  unfold runNormal at h
  split at h
  · cases h
  · rename_i v effs₁ hfirst
    split at h
    · cases h
    · rename_i w effs₂ hturn
      cases h
      have hnodup := hstill.nodup
      rw [List.map_append, List.nodup_append'] at hnodup
      have hctrl := normalTurn_ctrl hturn
      cases hp : s.server.isPrune with
      | true =>
        rw [hp, if_pos rfl] at hfirst
        obtain ⟨hnil, hkeep⟩ := pruneLoop_frame hfirst rfl
        have hloop : Reach (threadsNext env) s
            { s with server := v, heap := freeAll s.heap s.server.nrl, normal := .sleepTest,
                     out := s.out ++ effs₁ } := by
          refine reach_normal (u := { s with normal := .prune }) ?_ ?_
          · simp only [normalStep, hstill.normal, hp, if_true]
          exact reach_pruneLoop rfl rfl (fun d hd => hstill.fds d (List.mem_append_left _ hd)) hnodup.1 hfirst
        obtain ⟨heap, hreach, hheap⟩ := reach_turn (s := { s with
            server := v, heap := freeAll s.heap s.server.nrl, normal := .sleepTest,
            out := s.out ++ effs₁ }) rfl
          (by rw [hnil]; exact fun d hd => absurd hd List.not_mem_nil) hturn
        rcases hheap with ⟨rfl, hnrl⟩ | ⟨c, rest, hlog, -, -⟩
        · have hempty : b.nrl = [] := hnrl.trans hnil
          refine ⟨_, ⟨hloop.trans hreach, ?_, rfl, List.append_assoc ..⟩, rfl⟩
          refine hstill.part ⟨rfl, hstill.control⟩ rfl ?_ ?_
          · dsimp only
            rw [hempty, hctrl, hkeep]
            exact List.sublist_append_right ..
          · dsimp only
            rw [hempty, hctrl, hkeep]
            intro c hc
            exact freeAll_of_not_mem _ (hnodup.2.2.symm (List.mem_map_of_mem hc))
        · dsimp only at hlog
          rw [hnil] at hlog
          cases hlog
      | false =>
        rw [hp] at hfirst
        cases hfirst
        have htop : Reach (threadsNext env) s { s with normal := .sleepTest } := by
          refine reach_normal (u := { s with normal := .sleepTest }) ?_ (Reach.refl _)
          simp only [normalStep, hstill.normal, hp]
          rfl
        obtain ⟨heap, hreach, hheap⟩ := reach_turn (s := { s with normal := .sleepTest }) rfl
          (fun d hd => hstill.fds d (List.mem_append_left _ hd)) hturn
        refine ⟨_, ⟨htop.trans hreach, ?_, rfl, rfl⟩, rfl⟩
        rcases hheap with ⟨rfl, hnrl⟩ | ⟨c, rest, hlog, rfl, hnrl⟩
        · refine hstill.part ⟨rfl, hstill.control⟩ rfl ?_ fun _ _ => rfl
          dsimp only at hnrl ⊢
          rw [hnrl, hctrl]
        · dsimp only at hlog
          have hnew : c.conn ∉ (rest ++ s.server.ctrl).map ClientCtx.conn := by
            have hall := hstill.nodup
            rw [hlog, List.cons_append, List.map_cons, List.nodup_cons] at hall
            exact hall.1
          refine hstill.part ⟨rfl, hstill.control⟩ rfl ?_ ?_
          · dsimp only
            rw [hnrl, hctrl, hlog]
            exact List.sublist_cons_self c _
          · dsimp only
            rw [hnrl, hctrl]
            intro d hd
            have hne : d.conn ≠ c.conn := fun heq => hnew (List.mem_map.mpr ⟨d, hd, heq⟩)
            exact Function.update_of_ne hne _ _

/-! ### The CONTROL worker and the checkpoint thread -/

theorem reach_ctrlReply (hs : s.control = .reply c) (hheap : s.heap c.conn = some c.fd) :
    Reach (threadsNext env) s
      { s with heap := Function.update s.heap c.conn none, control := .top,
               out := s.out ++ [writeClientResponce s.server c "OK" "Success"] ++ closeFd c } := by
  refine reach_control (u := { s.emit [writeClientResponce s.server c "OK" "Success"] with
    control := .close c }) ?_ ?_
  · simp only [controlStep, hs, Threads.touch, hheap]
  refine reach_control (u := { (s.emit [writeClientResponce s.server c "OK" "Success"]).closeCtx c.conn c.fd with
    control := .free c }) ?_ ?_
  · simp only [controlStep, Threads.touch, Threads.emit, hheap]
    unfold Threads.closeCtx
    split <;> rfl
  refine reach_control (u := { ((s.emit [writeClientResponce s.server c "OK" "Success"]).closeCtx
    c.conn c.fd).freeCtx c.conn with control := .top }) ?_ ?_
  · obtain ⟨fd, hfd⟩ := closeCtx_live (s.emit [writeClientResponce s.server c "OK" "Success"]) hheap
    simp only [controlStep, Threads.touch, hfd]
    rfl
  rw [closeCtx_freeCtx]
  exact Reach.refl _

theorem reach_ctrlBody (hs : s.control = .exec c) (hn : s.normal = .top)
    (hheap : s.heap c.conn = some c.fd) (h : executeMsgCtrl env s.server c = .ok (b, effs)) :
    ∃ body, effs = body ++ [writeClientResponce b c "OK" "Success"] ++ closeFd c ∧
      Reach (threadsNext env) s { s with server := b, control := .reply c, out := s.out ++ body } := by
  unfold executeMsgCtrl at h
  dsimp only at h
  split at h
  · cases h
  · rename_i v body hbody
    cases h
    refine ⟨body, rfl, ?_⟩
    split at hbody
    · rename_i htype
      split at hbody
      · cases hbody
      · rename_i w hrep
        cases hbody
        unfold handleRepMsg at hrep
        dsimp only at hrep
        split at hrep
        · cases hrep
        · rename_i w' hmode
          refine reach_control (u := { s with server := w', control := .role c }) ?_ ?_
          · simp only [controlStep, hs, Threads.touch, hheap, htype, hmode, lift]
          refine reach_control (u := { s with server := b, control := .reply c }) ?_ ?_
          · simp only [controlStep, Threads.touch, hheap, changeRole, hrep, lift]
          rw [List.append_nil]
          exact Reach.refl _
    · rename_i htype
      split at hbody
      · rename_i hprev
        refine reach_control (u := { s with control := .send c }) ?_ ?_
        · simp only [controlStep, hs, Threads.touch, hheap, htype, if_pos hprev]
        refine reach_control (u := { s.emit body with server := b, control := .reply c }) ?_ (Reach.refl _)
        simp only [controlStep, hn, NormalPc.locked, hbody, Threads.emit, Bool.false_eq_true, if_false]
      · rename_i hprev
        cases hbody
        refine reach_control (u := { s with control := .reply c }) ?_ ?_
        · simp only [controlStep, hs, Threads.touch, hheap, htype, if_neg hprev]
        rw [List.append_nil]
        exact Reach.refl _
    · rename_i hrep hsend
      cases hbody
      refine reach_control (u := { s with control := .reply c }) ?_ ?_
      · simp only [controlStep, hs, Threads.touch, hheap]
      rw [List.append_nil]
      exact Reach.refl _

theorem completes_control (hstill : AtRest s) (h : runControl env s.server = .ok (b, effs)) :
    ∃ t, Completes env s t b effs ∧ t.conn = s.conn := by
  rcases runControl_cases h with ⟨hnil, rfl, rfl⟩ | ⟨c, rest, hlog, hexec⟩
  · exact ⟨s, ⟨Reach.refl s, hstill, rfl, (List.append_nil _).symm⟩, rfl⟩
  · have hmem : c ∈ s.server.nrl ++ s.server.ctrl := by
      rw [hlog]
      exact List.mem_append_right _ (List.mem_cons_self ..)
    have hc := hstill.fds c hmem
    obtain ⟨body, heffs, hbody⟩ := reach_ctrlBody (s := { s with
      server := { s.server with ctrl := rest }, control := .exec c }) rfl hstill.normal hc hexec
    have hreach : Reach (threadsNext env) s { s with
        server := b, control := .reply c, out := s.out ++ body } := by
      refine reach_control (u := { s with control := .take }) ?_ ?_
      · simp [controlStep, hstill.control, hlog]
      refine reach_control (u := { s with server := { s.server with ctrl := rest },
                                          control := .exec c }) ?_ hbody
      simp only [controlStep, hlog]
    have hreply := hreach.trans (reach_ctrlReply (c := c) (s := { s with
      server := b, control := .reply c, out := s.out ++ body }) rfl hc)
    obtain ⟨hnrl, hctrl, -⟩ := executeMsgCtrl_frame hexec
    refine ⟨_, ⟨hreply, ?_, rfl, ?_⟩, rfl⟩
    · refine hstill.part ⟨hstill.normal, rfl⟩ rfl ?_ ?_
      · dsimp only
        rw [hnrl, hctrl, hlog]
        exact (List.Sublist.refl _).append (List.sublist_cons_self c _)
      · dsimp only
        rw [hnrl, hctrl]
        intro d hd
        have hnew : c.conn ∉ (s.server.nrl ++ rest).map ClientCtx.conn := by
          have hall := hstill.nodup
          rw [hlog, List.map_append, List.map_cons] at hall
          have hmiddle := (List.perm_middle.nodup_iff.mp hall)
          rw [List.nodup_cons, ← List.map_append] at hmiddle
          exact hmiddle.1
        have hne : d.conn ≠ c.conn := fun heq => hnew (List.mem_map.mpr ⟨d, hd, heq⟩)
        exact Function.update_of_ne hne _ _
    · dsimp only
      rw [heffs]
      simp only [List.append_assoc]

theorem completes_chkptThread (hstill : AtRest s) (h : serverStep env s.server .chkptThread = .ok (b, effs)) :
    ∃ t, Completes env s t b effs ∧ t.conn = s.conn := by
  rw [serverStep] at h
  split at h
  · rename_i hrunning
    obtain ⟨file, -, rfl, -⟩ := sendCheckpoint_cases h
    refine ⟨{ s.emit effs with server := { s.server with chkPointNum := s.server.chkPointNum + 1 } },
      ⟨(Reach.refl _).head (e := .chkptThread) ?_, ?_, rfl, rfl⟩, rfl⟩
    · simp only [threadsNext, threadsStep, hstill.normal, NormalPc.locked, hrunning, h]
      rfl
    · exact hstill.part ⟨hstill.normal, hstill.control⟩ rfl (List.Sublist.refl _) fun _ _ => rfl
  · cases h
    exact ⟨s, ⟨Reach.refl s, hstill, rfl, (List.append_nil _).symm⟩, rfl⟩

/-! ### Connection threads -/

theorem AtRest.grow (h : AtRest s) (new : List ClientCtx) (hfresh : s.conn i = .absent)
    (hpcs : t.normal = .top ∧ t.control = .top) (hconn : t.conn = Function.update s.conn i .gone)
    (hheap : ∀ j ≠ i, t.heap j = s.heap j)
    (hlogs : (t.server.nrl ++ t.server.ctrl).Perm (new ++ (s.server.nrl ++ s.server.ctrl)))
    (hnew : new = [] ∨ ∃ d, new = [d] ∧ d.conn = i ∧ t.heap i = some d.fd) : AtRest t := by
  have hother : ∀ j ∈ (s.server.nrl ++ s.server.ctrl).map ClientCtx.conn, j ≠ i := by
    rintro j hj rfl
    rw [h.known j hj] at hfresh
    cases hfresh
  have hnodup : ((t.server.nrl ++ t.server.ctrl).map ClientCtx.conn).Nodup := by
    rw [(hlogs.map _).nodup_iff, List.map_append]
    rcases hnew with rfl | ⟨d, rfl, hd, -⟩
    · exact h.nodup
    · refine List.nodup_cons.mpr ⟨fun hmem => hother _ hmem hd, h.nodup⟩
  refine ⟨hpcs.1, hpcs.2, fun c hc => ?_, hnodup, fun j hj => ?_⟩
  · rcases List.mem_append.mp (hlogs.mem_iff.mp hc) with hc | hc
    · rcases hnew with rfl | ⟨d, rfl, hd, hlive⟩
      · cases hc
      · rw [List.mem_singleton.mp hc, hd]
        exact hlive
    · rw [hheap _ (hother _ (List.mem_map_of_mem hc))]
      exact h.fds c hc
  · rw [hconn]
    by_cases heq : j = i
    · rw [heq]
      exact Function.update_self ..
    · rw [Function.update_of_ne heq]
      have hj' := (hlogs.map _).mem_iff.mp hj
      rw [List.map_append] at hj'
      rcases List.mem_append.mp hj' with hj' | hj'
      · rcases hnew with rfl | ⟨d, rfl, hd, -⟩
        · cases hj'
        · exact absurd ((List.mem_singleton.mp hj').trans hd) heq
      · exact h.known j hj'

theorem reach_exit {fd : ℤ} (hs : s.conn i = .exit) (hheap : s.heap i = some fd) :
    Reach (threadsNext env) s
      { s with heap := Function.update s.heap i none, conn := Function.update s.conn i .gone,
               out := s.out ++ if 0 ≤ fd then [.close fd i] else [] } := by
  refine reach_conn (i := i) (u := (s.closeCtx i fd).setConn i .free) ?_ ?_
  · simp only [connStep, hs, Threads.touch, hheap]
  refine reach_conn (i := i) (u := ((s.closeCtx i fd).freeCtx i).setConn i .gone) ?_ ?_
  · obtain ⟨fd', hfd⟩ := closeCtx_live s hheap
    simp only [connStep, Threads.setConn, Threads.touch, Function.update_self, hfd, Threads.freeCtx,
      Function.update_idem]
  have hend : ((s.closeCtx i fd).freeCtx i).setConn i .gone = { s with
      heap := Function.update s.heap i none, conn := Function.update s.conn i .gone,
      out := s.out ++ if 0 ≤ fd then [.close fd i] else [] } := by
    unfold Threads.closeCtx
    split
    · simp only [Threads.freeCtx, Threads.setConn, Function.update_idem]
    · simp only [Threads.freeCtx, Threads.setConn, List.append_nil]
  rw [hend]
  exact Reach.refl _

theorem quiesceCommand_parts {type : MsgType} {ret : ℤ} (htype : isQuiesceCommand type = true)
    (h : handleQuiesceCommand a type = .ok (ret, b)) :
    ∃ v, quiesceFirst a type = .ok v ∧ quiesceSecond v type = .ok b := by
  unfold handleQuiesceCommand at h
  unfold quiesceFirst quiesceSecond
  split at h
  · rename_i hstart
    cases hput : putInQuiesence a with
    | error f =>
      rw [hput] at h
      cases h
    | ok w =>
      rw [hput] at h
      cases h
      simp only [if_pos hstart]
      exact ⟨_, rfl, hput⟩
  · rename_i hstart
    have hstop : type = .msgQuiesceStop := by
      simpa [isQuiesceCommand, hstart] using htype
    rw [if_pos hstop] at h
    simp only [if_neg hstart]
    unfold removeFromQuiesence at h
    split at h
    · cases h
    · rename_i w hw
      cases h
      exact ⟨w, hw, rfl⟩

theorem reach_quiesce {ctx : ClientCtx} {ret : ℤ} (hs : s.conn i = .dispatch ctx)
    (hheap : s.heap i = some ctx.fd) (htype : isQuiesceCommand ctx.req.msgType = true)
    (h : handleQuiesceCommand s.server ctx.req.msgType = .ok (ret, b)) :
    Reach (threadsNext env) s { s with server := b, conn := Function.update s.conn i .exit } := by
  obtain ⟨v, hfirst, hsecond⟩ := quiesceCommand_parts htype h
  refine reach_conn (i := i) (u := s.setConn i (.quiesce ctx false)) ?_ ?_
  · simp only [connStep, hs, Threads.touch, hheap, htype, if_true]
  refine reach_conn (i := i) (u := { s with server := v }.setConn i (.quiesce ctx true)) ?_ ?_
  · simp only [connStep, Threads.setConn, Function.update_self, hfirst, lift, Function.update_idem]
  refine reach_conn (i := i) (u := { s with server := b }.setConn i .exit) ?_ (Reach.refl _)
  simp only [connStep, Threads.setConn, Function.update_self, hsecond, lift, Function.update_idem]

theorem reach_enqueue {ctx : ClientCtx} (hs : s.conn i = .dispatch ctx) (hheap : s.heap i = some ctx.fd)
    (htype : isQuiesceCommand ctx.req.msgType = false) :
    ∃ entered, Reach (threadsNext env) s
      { s with server := (enqueueClientReq s.server ctx).2, entered := entered,
               conn := Function.update s.conn i (if (enqueueClientReq s.server ctx).1 = 0
                 then .entered { ctx with isBacklog := isPassiveBackup s.server } else .exit) } := by
  refine ⟨if isControl ctx.req.msgType = false ∧ (enqueueClientReq s.server ctx).1 = 0
    then s.entered ++ [{ ctx with isBacklog := isPassiveBackup s.server }] else s.entered, ?_⟩
  refine reach_conn (i := i) (u := s.setConn i (.backlog ctx)) ?_ ?_
  · simp only [connStep, hs, Threads.touch, hheap, htype, Bool.false_eq_true, if_false]
  refine reach_conn (i := i)
    (u := s.setConn i (.prune { ctx with isBacklog := isPassiveBackup s.server })) ?_ ?_
  · simp only [connStep, Threads.setConn, Threads.touch, Function.update_self, hheap,
      Function.update_idem]
  refine reach_conn (i := i) (u := { s with server := { s.server with isPrune := s.server.isPrune ||
      (ctx.req.msgType = MsgType.msgChkPt && isPassiveBackup s.server) } }.setConn i
      (.enter { ctx with isBacklog := isPassiveBackup s.server })) ?_ ?_
  · simp only [connStep, Threads.setConn, Threads.touch, Function.update_self, hheap,
      Function.update_idem]
  refine Reach.head (e := .conn i) ?_ (Reach.refl _)
  simp only [threadsNext, threadsStep, connStep, Threads.setConn, Function.update_self,
    Function.update_idem, enqueueClientReq]
  cases isControl ctx.req.msgType with
  | true => rfl
  | false =>
    simp only [Bool.false_eq_true, if_false, true_and]
    rfl

theorem reach_entered (hs : s.conn i = .entered c) (hheap : s.heap i = some c.fd) :
    Reach (threadsNext env) s
      { s with conn := Function.update s.conn i .gone,
               out := s.out ++ if earlyClose s.server c.req.msgType then [.close c.fd i] else [] } := by
  by_cases hrole : s.server.repMode = .activeRep ∧ s.server.state = .activeRecover
  · refine reach_conn (i := i) (u := s.setConn i (.tail c)) ?_ ?_
    · simp only [connStep, hs, if_pos hrole]
    by_cases htype : c.req.msgType ≠ .msgHeartbeat ∧ c.req.msgType ≠ .msgRepMgr
    · have hearly : earlyClose s.server c.req.msgType = true := by
        simp [earlyClose, hrole.1, hrole.2, htype.1, htype.2]
      refine reach_conn (i := i) (u := (s.emit [.close c.fd i]).setConn i .gone) ?_ ?_
      · simp only [connStep, Threads.setConn, Threads.touch, Threads.emit, Function.update_self, hheap,
          if_pos htype, Function.update_idem]
      rw [if_pos hearly]
      exact Reach.refl _
    · have hearly : ¬ earlyClose s.server c.req.msgType = true := by
        simpa [earlyClose, hrole.1, hrole.2] using htype
      refine reach_conn (i := i) (u := s.setConn i .gone) ?_ ?_
      · simp only [connStep, Threads.setConn, Threads.touch, Function.update_self, hheap, if_neg htype,
          Function.update_idem]
      rw [if_neg hearly, List.append_nil]
      exact Reach.refl _
  · have hearly : ¬ earlyClose s.server c.req.msgType = true := by
      intro he
      simp only [earlyClose, Bool.and_eq_true, decide_eq_true_eq] at he
      exact hrole he.1.1
    refine reach_conn (i := i) (u := s.setConn i .gone) ?_ ?_
    · simp only [connStep, hs, if_neg hrole]
    rw [if_neg hearly, List.append_nil]
    exact Reach.refl _

theorem reach_arrive {rand : ℕ} {ctx ctx' : ClientCtx} (hfresh : s.conn ctx.conn = .absent)
    (hpark : parkPayload s.server rand ctx = (v, ctx')) :
    Reach (threadsNext env) s
      { s with server := v, heap := Function.update s.heap ctx.conn (some ctx.fd),
               conn := Function.update s.conn ctx.conn (.dispatch ctx') } := by
  refine Reach.head (e := .accept ctx.conn ctx.fd) (t := { s with
    heap := Function.update s.heap ctx.conn (some ctx.fd) }.setConn ctx.conn .reading) ?_ ?_
  · simp only [threadsNext, threadsStep, hfresh]
    rfl
  refine Reach.head (e := .request ctx.conn rand ctx) ?_ (Reach.refl _)
  simp only [threadsNext, threadsStep, Threads.setConn, Threads.touch, Function.update_self, hpark,
    Function.update_idem]
  rfl

theorem enqueueClientReq_logs (a : Server) (ctx : ClientCtx) :
    ((enqueueClientReq a ctx).1 ≠ 0 ∧ (enqueueClientReq a ctx).2.nrl = a.nrl ∧
      (enqueueClientReq a ctx).2.ctrl = a.ctrl) ∨
    ((enqueueClientReq a ctx).1 = 0 ∧
      ((enqueueClientReq a ctx).2.nrl ++ (enqueueClientReq a ctx).2.ctrl).Perm
        ([{ ctx with isBacklog := isPassiveBackup a }] ++ (a.nrl ++ a.ctrl))) := by
  rcases enqueueClientReq_cases a ctx with ⟨-, he⟩ | ⟨-, -, he⟩ | ⟨-, -, he⟩
  · rw [he]
    exact Or.inl ⟨by simp, rfl, rfl⟩
  · rw [he]
    refine Or.inr ⟨rfl, ?_⟩
    dsimp only
    rw [← List.append_assoc]
    exact List.perm_append_singleton _ _
  · rw [he]
    refine Or.inr ⟨rfl, ?_⟩
    dsimp only
    rw [List.append_assoc]
    exact List.perm_middle

theorem completes_connection {rand : ℕ} {ctx : ClientCtx} (hstill : AtRest s)
    (hfresh : s.conn ctx.conn = .absent) (h : handleConnection s.server rand ctx = .ok (b, effs)) :
    ∃ t, Completes env s t b effs ∧ t.conn = Function.update s.conn ctx.conn .gone := by
  obtain ⟨v, ctx', hpark⟩ : ∃ v ctx', parkPayload s.server rand ctx = (v, ctx') := ⟨_, _, rfl⟩
  obtain ⟨⟨name, hctx⟩, hserver⟩ := parkPayload_frame hpark
  have hconn : ctx'.conn = ctx.conn := by rw [hctx]
  have hfd : ctx'.fd = ctx.fd := by rw [hctx]
  have hlogs : v.nrl ++ v.ctrl = s.server.nrl ++ s.server.ctrl := by rw [hserver]
  have hother : ∀ x, ∀ j ≠ ctx.conn, Function.update s.heap ctx.conn x j = s.heap j :=
    fun _ j hj => Function.update_of_ne hj _ _
  have harrive : Reach (threadsNext env) s
      { s with server := v, heap := Function.update s.heap ctx.conn (some ctx'.fd),
               conn := Function.update s.conn ctx.conn (.dispatch ctx') } := by
    rw [hfd]
    exact reach_arrive hfresh hpark
  have hclose : closeFd ctx' = if 0 ≤ ctx'.fd then [.close ctx'.fd ctx.conn] else [] := by
    rw [← hconn]
    rfl
  unfold handleConnection at h
  rw [hpark] at h
  dsimp only at h
  split at h
  · rename_i htype
    split at h
    · cases h
    · rename_i ret w hquiesce
      cases h
      obtain ⟨hnrl, hctrl⟩ : b.nrl = v.nrl ∧ b.ctrl = v.ctrl := by
        obtain ⟨_, _, _, rfl⟩ := handleQuiesceCommand_cases hquiesce
        exact ⟨rfl, rfl⟩
      have hexit := (harrive.trans (reach_quiesce (Function.update_self ..) (Function.update_self ..) htype
        hquiesce)).trans (reach_exit (Function.update_self ..) (Function.update_self ..))
      simp only [Function.update_idem] at hexit
      refine ⟨_, ⟨hexit, ?_, rfl, by dsimp only; rw [hclose]⟩, rfl⟩
      refine hstill.grow [] hfresh ⟨hstill.normal, hstill.control⟩ rfl (hother _) ?_ (Or.inl rfl)
      dsimp only
      rw [hnrl, hctrl, hlogs]
      exact List.Perm.refl _
  · rename_i htype
    have htype' : isQuiesceCommand ctx'.req.msgType = false := by simpa using htype
    obtain ⟨entered, hreach⟩ := (reach_enqueue (s := { s with
      server := v, heap := Function.update s.heap ctx.conn (some ctx'.fd),
      conn := Function.update s.conn ctx.conn (.dispatch ctx') }) (Function.update_self ..)
      (Function.update_self ..) htype').imp fun _ henter => harrive.trans henter
    simp only [Function.update_idem] at hreach
    rcases enqueueClientReq_logs v ctx' with ⟨hret, hnrl, hctrl⟩ | ⟨hret, hperm⟩
    · rw [if_pos hret] at h
      cases h
      rw [if_neg hret] at hreach
      have hexit := hreach.trans (reach_exit (Function.update_self ..) (Function.update_self ..))
      simp only [Function.update_idem] at hexit
      refine ⟨_, ⟨hexit, ?_, rfl, by dsimp only; rw [hclose]⟩, rfl⟩
      refine hstill.grow [] hfresh ⟨hstill.normal, hstill.control⟩ rfl (hother _) ?_ (Or.inl rfl)
      dsimp only
      rw [hnrl, hctrl, hlogs]
      exact List.Perm.refl _
    · rw [if_neg (not_not.mpr hret)] at h
      rw [if_pos hret] at hreach
      have hgone := hreach.trans (reach_entered (Function.update_self ..) (Function.update_self ..))
      simp only [Function.update_idem] at hgone
      have hb : (enqueueClientReq v ctx').2 = b ∧
          (if earlyClose (enqueueClientReq v ctx').2 ctx'.req.msgType then
            [.close ctx'.fd ctx.conn] else []) = effs := by
        split at h
        · rename_i hearly
          cases h
          exact ⟨rfl, by rw [if_pos hearly, hconn]⟩
        · rename_i hearly
          cases h
          exact ⟨rfl, by rw [if_neg hearly]⟩
      refine ⟨_, ⟨hgone, ?_, hb.1, by dsimp only; rw [← hb.2]⟩, rfl⟩
      refine hstill.grow _ hfresh ⟨hstill.normal, hstill.control⟩ rfl (hother _) ?_
        (Or.inr ⟨{ ctx' with isBacklog := isPassiveBackup v }, rfl, hconn, Function.update_self ..⟩)
      dsimp only
      rw [← hlogs]
      exact hperm

theorem completes_reject {ctx : ClientCtx} {msg : Option String} (hstill : AtRest s)
    (hfresh : s.conn ctx.conn = .absent) :
    ∃ t, Completes env s t s.server (rejectConnection s.server ctx msg) ∧
      t.conn = Function.update s.conn ctx.conn .gone := by
  have hreply : Reach (threadsNext env) s
      { s with heap := Function.update s.heap ctx.conn (some ctx.fd),
               conn := Function.update s.conn ctx.conn .exit,
               out := s.out ++ msg.toList.map fun m => writeClientResponce s.server ctx "FAIL" m } := by
    refine Reach.head (e := .accept ctx.conn ctx.fd) (t := { s with
      heap := Function.update s.heap ctx.conn (some ctx.fd) }.setConn ctx.conn .reading) ?_ ?_
    · simp only [threadsNext, threadsStep, hfresh]
      rfl
    refine Reach.head (e := .reject ctx.conn ctx msg) ?_ (Reach.refl _)
    simp only [threadsNext, threadsStep, Threads.setConn, Threads.touch, Threads.emit,
      Function.update_self, Function.update_idem]
    rfl
  have hexit := hreply.trans (reach_exit (Function.update_self ..) (Function.update_self ..))
  simp only [Function.update_idem] at hexit
  refine ⟨_, ⟨hexit, ?_, rfl, List.append_assoc ..⟩, rfl⟩
  exact hstill.grow [] hfresh ⟨hstill.normal, hstill.control⟩ rfl
    (fun j hj => Function.update_of_ne hj _ _) (List.Perm.refl _) (Or.inl rfl)

end

/-! ### Whole runs -/

/-- The connection that an event of the server model brings. -/
def ServerEvent.conn? : ServerEvent → Option ℕ
  | .connection _ ctx => some ctx.conn
  | .reject ctx _ => some ctx.conn
  | _ => none

def servedNext (env : Env) (p : Server × List Effect) (e : ServerEvent) : Option (Server × List Effect) :=
  (serverStep env p.1 e).toOption.map fun r => (r.1, p.2 ++ r.2)

theorem completes_step {env : Env} {s : Threads} {e : ServerEvent} {b : Server} {effs : List Effect}
    (hstill : AtRest s) (hfresh : ∀ i ∈ e.conn?, s.conn i = .absent)
    (h : serverStep env s.server e = .ok (b, effs)) :
    ∃ t, Completes env s t b effs ∧ ∀ i ∉ e.conn?, t.conn i = s.conn i := by
  cases e with
  | connection rand ctx =>
    obtain ⟨t, ht, hconn⟩ := completes_connection hstill (hfresh ctx.conn rfl) h
    refine ⟨t, ht, fun i hi => ?_⟩
    have hne : i ≠ ctx.conn := fun heq => hi (by rw [heq]; rfl)
    rw [hconn, Function.update_of_ne hne]
  | reject ctx msg =>
    rw [serverStep] at h
    cases h
    obtain ⟨t, ht, hconn⟩ := completes_reject hstill (hfresh ctx.conn rfl)
    refine ⟨t, ht, fun i hi => ?_⟩
    have hne : i ≠ ctx.conn := fun heq => hi (by rw [heq]; rfl)
    rw [hconn, Function.update_of_ne hne]
  | normal =>
    obtain ⟨t, ht, hconn⟩ := completes_normal hstill h
    exact ⟨t, ht, fun i _ => by rw [hconn]⟩
  | control =>
    obtain ⟨t, ht, hconn⟩ := completes_control hstill h
    exact ⟨t, ht, fun i _ => by rw [hconn]⟩
  | chkptThread =>
    obtain ⟨t, ht, hconn⟩ := completes_chkptThread hstill h
    exact ⟨t, ht, fun i _ => by rw [hconn]⟩

/-- The run of the threads follows the one of the model event by event. -/
theorem served_run {env : Env} {s : Threads} {es : List ServerEvent} {b : Server} {effs : List Effect}
    (hstill : AtRest s) (hnodup : (es.filterMap ServerEvent.conn?).Nodup)
    (hfresh : ∀ i ∈ es.filterMap ServerEvent.conn?, s.conn i = .absent)
    (hrun : run (servedNext env) (s.server, s.out) es = some (b, effs)) :
    ∃ t, Reach (threadsNext env) s t ∧ t.server = b ∧ t.out = effs := by
  induction es generalizing s with
  | nil =>
    cases hrun
    exact ⟨s, Reach.refl s, rfl, rfl⟩
  | cons e es ih =>
    obtain ⟨p, hstep, hrest⟩ := run_cons_eq_some.mp hrun
    obtain ⟨⟨v, effs₁⟩, hserved, rfl⟩ := toOption_map_eq_some hstep
    have hsplit : (e :: es).filterMap ServerEvent.conn? =
        e.conn?.toList ++ es.filterMap ServerEvent.conn? := by
      rw [List.filterMap_cons]
      cases e.conn? <;> rfl
    rw [hsplit] at hnodup hfresh
    obtain ⟨t, ht, hconn⟩ := completes_step hstill
      (fun i hi => hfresh i (List.mem_append_left _ (Option.mem_toList.mpr hi))) hserved
    rw [List.nodup_append'] at hnodup
    have hfresh' : ∀ i ∈ es.filterMap ServerEvent.conn?, t.conn i = .absent := by
      intro i hi
      have hother : i ∉ e.conn? := fun hmem => hnodup.2.2 (Option.mem_toList.mpr hmem) hi
      rw [hconn i hother]
      exact hfresh i (List.mem_append_right _ hi)
    dsimp only at hrest
    rw [← ht.server, ← ht.out] at hrest
    obtain ⟨u, hreach, hserver, hout⟩ := ih ht.rest hnodup.2.1 hfresh' hrest
    exact ⟨u, ht.reach.trans hreach, hserver, hout⟩

theorem atRest_init (serverId : ℤ) : AtRest (initThreads serverId) :=
  ⟨rfl, rfl, fun _ hc => absurd hc List.not_mem_nil, List.nodup_nil, fun _ hi => absurd hi List.not_mem_nil⟩

/-- Every run of the server model over connections of its own is a run of the
threads, with the same server and the same effects at its end. -/
theorem server_run_is_threads_run (env : Env) (serverId : ℤ) (es : List ServerEvent) (b : Server)
    (effs : List Effect) (hnodup : (es.filterMap ServerEvent.conn?).Nodup)
    (hrun : run (servedNext env) ({ serverId := serverId }, []) es = some (b, effs)) :
    ∃ es' s, run (threadsNext env) (initThreads serverId) es' = some s ∧ s.server = b ∧ s.out = effs := by
  obtain ⟨s, ⟨es', hes'⟩, hserver, hout⟩ := served_run (s := initThreads serverId) (atRest_init serverId)
    hnodup (fun _ _ => rfl) hrun
  exact ⟨es', s, hes', hserver, hout⟩

def runningCommand : ClientRequest where
  msgType := .msgRepMgr
  repMgrMsg := { repMode := .activeRep, serverState := .activeRunning }

def roleThenAdd : List ServerEvent :=
  [.connection 0 { fd := 4, req := runningCommand }, .control,
    .connection 0 { fd := 5, conn := 1, req := addRequest (ascii "buy milk") }, .normal]

theorem server_run_is_threads_run_roleThenAdd :
    ∃ b effs es' s, run (servedNext sevenEnv) ({ serverId := 0 }, []) roleThenAdd = some (b, effs) ∧
      run (threadsNext sevenEnv) (initThreads 0) es' = some s ∧ s.server = b ∧ s.out = effs := by
  have hend : (run (servedNext sevenEnv) ({ serverId := 0 }, []) roleThenAdd).isSome = true := by
    decide +kernel
  obtain ⟨⟨b, effs⟩, hrun⟩ := Option.isSome_iff_exists.mp hend
  obtain ⟨es', s, hs⟩ := server_run_is_threads_run sevenEnv 0 roleThenAdd b effs (by decide) hrun
  exact ⟨b, effs, es', s, hrun, hs⟩

end ToDoList
