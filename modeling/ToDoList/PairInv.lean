import ToDoList.Pair

/-!
# The invariant of a checkpointing pair

`src` has executed a prefix of what it received; every message in flight
restores what `src` had executed when it was exported; the requests in the log
of `dst` are the newest it received, and once `dst` is in step, its table
followed by these requests is the result of everything received.
-/

namespace ToDoList
open CLib Replay

/-! ### Connections -/

theorem handleConnection_update {s t : Server} {rand : ℕ} {ctx : ClientCtx} {effs : List Effect}
    (hup : isUpdate ctx.req.msgType = true) (hpay : ctx.req.payload.size = 0)
    (hroom : hasRoom s ctx.req.msgType = true) (h : handleConnection s rand ctx = .ok (t, effs)) :
    t = { s with nrl := s.nrl ++ [{ ctx with isBacklog := isPassiveBackup s }] } := by
  have hpark : parkPayload s rand ctx = (s, ctx) := by rw [parkPayload, if_pos hpay]
  have htypes : isQuiesceCommand ctx.req.msgType = false ∧ isControl ctx.req.msgType = false ∧
      pruneAfter s ctx.req.msgType = s.isPrune := by
    rcases isUpdate_cases hup with hty | hty <;>
      simp [hty, isQuiesceCommand, isControl, pruneAfter]
  obtain ⟨hq, hc, hp⟩ := htypes
  rcases handleConnection_cases hpark h with ⟨hq', -, -⟩ | ⟨-, rfl, -⟩
  · rw [hq] at hq'
    cases hq'
  · rcases enqueueClientReq_cases s ctx with ⟨hr, -⟩ | ⟨-, hc', -⟩ | ⟨-, -, he⟩
    · rw [hroom] at hr
      cases hr
    · rw [hc] at hc'
      cases hc'
    · rw [he, hp]

theorem handleConnection_command {s t : Server} {rand : ℕ} {ctx : ClientCtx} {effs : List Effect}
    (hcmd : isCommand ctx.req = true) (h : handleConnection s rand ctx = .ok (t, effs)) :
    t.nrl = s.nrl ∧ t.store = s.store ∧ t.isPrune = s.isPrune := by
  have hpay : ctx.req.payload.size = 0 := by
    simp only [isCommand, Bool.and_eq_true, decide_eq_true_eq] at hcmd
    exact hcmd.2
  have hkind : isControl ctx.req.msgType = true ∨ isQuiesceCommand ctx.req.msgType = true := by
    simp only [isCommand, Bool.and_eq_true, Bool.or_eq_true] at hcmd
    exact hcmd.1
  have hpark : parkPayload s rand ctx = (s, ctx) := by rw [parkPayload, if_pos hpay]
  rcases handleConnection_cases hpark h with ⟨-, ⟨ret, hq⟩, -⟩ | ⟨hq, rfl, -⟩
  · obtain ⟨_, _, _, rfl⟩ := handleQuiesceCommand_cases hq
    exact ⟨rfl, rfl, rfl⟩
  · have hc : isControl ctx.req.msgType = true := by simpa [hq] using hkind
    have hp : pruneAfter s ctx.req.msgType = s.isPrune := by
      have hne : ctx.req.msgType ≠ .msgChkPt := by
        intro hty
        rw [hty] at hc
        cases hc
      simp [pruneAfter, hne]
    rcases enqueueClientReq_cases s ctx with ⟨-, he⟩ | ⟨-, -, he⟩ | ⟨-, hc', -⟩
    · rw [he, hp]
      exact ⟨rfl, rfl, rfl⟩
    · rw [he, hp]
      exact ⟨rfl, rfl, rfl⟩
    · rw [hc] at hc'
      cases hc'

theorem handleConnection_checkpoint {s t : Server} {rand : ℕ} {fl : Flight} {i : ℕ} {fd : ℤ}
    {effs : List Effect} (hfile : fl.file ≠ [])
    (h : handleConnection s rand (flightCtx fl i fd) = .ok (t, effs)) :
    t.store = ⟨s.store.htable, Function.update s.store.files (tmpName s rand) (some fl.file)⟩ ∧
      (t.nrl = s.nrl ∨ ∃ c, t.nrl = s.nrl ++ [c] ∧ isChkPt c = true ∧ c.conn = i ∧
        c.req.filename = tmpName s rand) := by
  have hsize : (flightCtx fl i fd).req.payload.size ≠ 0 := fun h0 =>
    hfile (List.length_eq_zero_iff.mp h0)
  obtain ⟨u, ctx', hpark⟩ : ∃ u ctx', parkPayload s rand (flightCtx fl i fd) = (u, ctx') := ⟨_, _, rfl⟩
  have hfacts : u.store = ⟨s.store.htable, Function.update s.store.files (tmpName s rand) (some fl.file)⟩ ∧
      u.nrl = s.nrl ∧ ctx'.req.msgType = .msgChkPt ∧ ctx'.conn = i ∧
      ctx'.req.filename = tmpName s rand := by
    rcases parkPayload_cases s rand (flightCtx fl i fd) with ⟨h0, -⟩ | ⟨-, hp⟩
    · exact absurd h0 hsize
    · rw [hp] at hpark
      cases hpark
      exact ⟨rfl, rfl, rfl, rfl, rfl⟩
  obtain ⟨hstore, hnrl, htype, hconn, hname⟩ := hfacts
  rcases handleConnection_cases hpark h with ⟨hq, -, -⟩ | ⟨-, rfl, -⟩
  · rw [htype] at hq
    cases hq
  · rcases enqueueClientReq_cases u ctx' with ⟨-, he⟩ | ⟨-, hc, -⟩ | ⟨-, -, he⟩
    · rw [he]
      exact ⟨hstore, Or.inl hnrl⟩
    · rw [htype] at hc
      cases hc
    · rw [he]
      refine ⟨hstore, Or.inr ⟨{ ctx' with isBacklog := isPassiveBackup u }, ?_, ?_, hconn, hname⟩⟩
      · rw [hnrl]
      · simp [isChkPt, htype]

/-! ### Exports -/

theorem exportDbInternal_ne_nil {env : Env} {t : HTable} {file : Bytes}
    (h : exportDbInternal env t = .ok file) : file ≠ [] := by
  have hne : ∀ ds f, exportEntries env ds = .ok f → f ≠ [] := by
    intro ds
    induction ds with
    | nil =>
      intro f hf
      cases hf
      decide
    | cons d ds ih =>
      intro f hf
      rw [exportEntries] at hf
      split at hf
      · cases hf
      · split at hf
        · cases hf
        · rename_i rest hrest
          cases hf
          exact List.append_ne_nil_of_right_ne_nil _ (ih rest hrest)
  exact hne _ _ h

theorem flightOf_sendCheckpoint {env : Env} {s t : Server} {effs : List Effect} {n : ℕ}
    (h : sendCheckpoint env s = .ok (t, effs)) :
    ∀ fl ∈ flightOf n effs, fl.covers = n ∧ exportDbInternal env s.store.htable = .ok fl.file := by
  obtain ⟨file, hfile, -, rfl⟩ := sendCheckpoint_cases h
  intro fl hfl
  have heq : fl = ⟨s.serverId, s.chkPointNum, file, n⟩ := by simpa [flightOf] using hfl
  rw [heq]
  exact ⟨rfl, hfile⟩

theorem flightOf_reply (n : ℕ) (body : List Effect) (s : Server) (ctx : ClientCtx)
    (status msg : String) :
    flightOf n (body ++ [writeClientResponce s ctx status msg] ++ closeFd ctx) = flightOf n body := by
  have hclose : ∀ (f : Effect → Option Flight), (∀ fd c, f (.close fd c) = none) →
      (closeFd ctx).filterMap f = [] := by
    intro f hf
    unfold closeFd
    split
    · simp [hf]
    · rfl
  unfold flightOf
  rw [List.filterMap_append, List.filterMap_append, hclose _ (fun _ _ => rfl), List.append_nil]
  simp [writeClientResponce]

theorem runControl_frame {env : Env} {s t : Server} {effs : List Effect}
    (h : runControl env s = .ok (t, effs)) :
    t.nrl = s.nrl ∧ t.store = s.store ∧ t.isPrune = s.isPrune ∧
      ∀ n, ∀ fl ∈ flightOf n effs, fl.covers = n ∧ exportDbInternal env s.store.htable = .ok fl.file := by
  rcases runControl_cases h with ⟨-, rfl, rfl⟩ | ⟨c, rest, -, hexec⟩
  · exact ⟨rfl, rfl, rfl, fun n fl hfl => by simp [flightOf] at hfl⟩
  · obtain ⟨hn, -, hp, hs⟩ := executeMsgCtrl_frame hexec
    refine ⟨hn, hs, hp, ?_⟩
    intro n fl hfl
    obtain ⟨body, rfl, hbody⟩ := executeMsgCtrl_cases hexec
    rw [flightOf_reply] at hfl
    rcases hbody with ⟨-, -, rfl⟩ | ⟨-, -, hsend⟩ | ⟨-, rfl⟩
    · simp [flightOf] at hfl
    · exact flightOf_sendCheckpoint hsend fl hfl
    · simp [flightOf] at hfl

theorem chkptThread_frame {env : Env} {s t : Server} {effs : List Effect}
    (h : serverStep env s .chkptThread = .ok (t, effs)) :
    t.nrl = s.nrl ∧ t.store = s.store ∧ t.isPrune = s.isPrune ∧
      ∀ n, ∀ fl ∈ flightOf n effs, fl.covers = n ∧ exportDbInternal env s.store.htable = .ok fl.file := by
  rw [serverStep] at h
  split at h
  · have hfl := fun n => flightOf_sendCheckpoint (n := n) h
    obtain ⟨file, -, rfl, -⟩ := sendCheckpoint_cases h
    exact ⟨rfl, rfl, rfl, hfl⟩
  · cases h
    exact ⟨rfl, rfl, rfl, fun n fl hfl => by simp [flightOf] at hfl⟩

/-! ### Logs with checkpoints -/

@[simp] theorem ordinary_append (a b : List ClientCtx) : ordinary (a ++ b) = ordinary a ++ ordinary b := by
  simp [ordinary]

theorem ordinary_cons_update {c : ClientCtx} (h : isChkPt c = false) (log : List ClientCtx) :
    ordinary (c :: log) = c.req :: ordinary log := by
  simp [ordinary, h]

theorem ordinary_cons_checkpoint {c : ClientCtx} (h : isChkPt c = true) (log : List ClientCtx) :
    ordinary (c :: log) = ordinary log := by
  simp [ordinary, h]

theorem checkpoints_append (a b : List ClientCtx) :
    checkpoints (a ++ b) = checkpoints a ++ checkpoints b := List.filter_append ..

theorem isChkPt_of_update {c : ClientCtx} (h : isUpdate c.req.msgType = true) : isChkPt c = false := by
  rcases isUpdate_cases h with hty | hty <;> simp [isChkPt, hty]

/-! ### Executing the log of the receiver -/

/-- The parked file of a log entry restores `q`, whatever table it finds. -/
def Restores (env : Env) (files : Bytes → Option Bytes) (c : ClientCtx) (q : Cells) : Prop :=
  ∃ file, files c.req.filename = some file ∧
    ∀ t₀, ∃ u, importDbInternal env t₀ (some file) = .ok u ∧ cells u = q

theorem executeMsg_checkpoint {env : Env} {s t : Server} {c : ClientCtx} {effs : List Effect}
    {q : Cells} (h : executeMsg env s c = .ok (t, effs)) (hc : isChkPt c = true)
    (hq : Restores env s.store.files c q) :
    cells t.store.htable = q ∧ t.store.files = Function.update s.store.files c.req.filename none := by
  have htype : c.req.msgType = .msgChkPt := by simpa [isChkPt] using hc
  obtain ⟨file, hfile, himp⟩ := hq
  obtain ⟨u, hu, hcells⟩ := himp s.store.htable
  obtain ⟨ret, store, ctx', fail, hh, ht, -, -⟩ := executeMsg_cases h
  have hstore : store = ⟨u, Function.update s.store.files c.req.filename none⟩ := by
    unfold handleStorage at hh
    simp only [htype, hfile, hu] at hh
    cases hh
    rfl
  rcases ht with rfl | ⟨-, -, rfl⟩
  · rw [hstore]
    exact ⟨hcells, rfl⟩
  · rw [hstore]
    exact ⟨hcells, rfl⟩

theorem executeMsg_update {env : Env} {s t : Server} {c : ClientCtx} {effs : List Effect}
    (h : executeMsg env s c = .ok (t, effs)) (hc : isUpdate c.req.msgType = true) :
    cells t.store.htable = applyRequest env (cells s.store.htable) c.req ∧
      t.store.files = s.store.files := by
  obtain ⟨ret, store, ctx', fail, hh, ht, -, -⟩ := executeMsg_cases h
  rcases ht with rfl | ⟨-, -, rfl⟩
  · exact handleStorage_cells hc hh
  · exact handleStorage_cells hc hh

/-- Entries whose files are there, each under a name of its own, stay so when
the file of another entry is removed. -/
theorem restores_update {env : Env} {files : Bytes → Option Bytes} {content : ClientCtx → Cells}
    {c : ClientCtx} {rest : List ClientCtx}
    (hnames : ((c :: rest).map fun d => d.req.filename).Nodup)
    (hfiles : ∀ d ∈ c :: rest, Restores env files d (content d)) :
    ∀ d ∈ rest, Restores env (Function.update files c.req.filename none) d (content d) := by
  intro d hd
  obtain ⟨file, hfile, himp⟩ := hfiles d (List.mem_cons_of_mem _ hd)
  refine ⟨file, ?_, himp⟩
  rw [List.map_cons, List.nodup_cons] at hnames
  have hne : d.req.filename ≠ c.req.filename := by
    intro heq
    exact hnames.1 (List.mem_map.mpr ⟨d, hd, heq⟩)
  rw [Function.update_of_ne hne, hfile]

/-- A prune pass leaves what the last checkpoint restores, or the old table. -/
theorem pruneLoop_cells {env : Env} {content : ClientCtx → Cells} {log : List ClientCtx}
    {s t : Server} {effs : List Effect} (h : pruneLoop env log s = .ok (t, effs))
    (hnames : ((checkpoints log).map fun d => d.req.filename).Nodup)
    (hfiles : ∀ d ∈ checkpoints log, Restores env s.store.files d (content d)) :
    cells t.store.htable = ((checkpoints log).getLast?.map content).getD (cells s.store.htable) := by
  induction log generalizing s effs with
  | nil =>
    cases h
    rfl
  | cons c rest ih =>
    rw [pruneLoop] at h
    by_cases hc : isChkPt c = true
    · have htype : c.req.msgType = .msgChkPt := by simpa [isChkPt] using hc
      have hcons : checkpoints (c :: rest) = c :: checkpoints rest := by simp [checkpoints, hc]
      rw [hcons] at hnames hfiles ⊢
      rw [if_neg (not_not.mpr htype)] at h
      split at h
      · cases h
      · rename_i u effs₁ hexec
        split at h
        · cases h
        · rename_i v effs₂ hloop
          cases h
          obtain ⟨hcells, hupd⟩ := executeMsg_checkpoint hexec hc (hfiles c (List.mem_cons_self ..))
          have hrest := restores_update hnames hfiles
          have hlast := ih hloop (List.nodup_cons.mp hnames).2 (by rw [hupd]; exact hrest)
          rw [hlast, hcells]
          cases hr : (checkpoints rest).getLast? with
          | none =>
            rw [List.getLast?_eq_none_iff.mp hr]
            rfl
          | some d => simp [List.getLast?_cons, hr]
    · have hskip : checkpoints (c :: rest) = checkpoints rest := by simp [checkpoints, hc]
      have htype : c.req.msgType ≠ .msgChkPt := by simpa [isChkPt] using hc
      rw [hskip] at hnames hfiles ⊢
      rw [if_pos htype] at h
      split at h
      · cases h
      · rename_i u effs₁ hloop
        cases h
        have hlast := ih hloop hnames hfiles
        exact hlast

theorem pruneLoop_executes {env : Env} {log : List ClientCtx} {s t : Server} {effs : List Effect}
    (h : pruneLoop env log s = .ok (t, effs)) : executesCheckpoint effs = log.any isChkPt := by
  rw [executesCheckpoint, pruneLoop_taken h, List.any_map]
  rfl

/-! ### The invariant -/

section Invariant
variable (env : Env) (start : Cells)

def after (hist : List ClientRequest) (n : ℕ) : Cells := exec (applyRequest env) start (hist.take n)

structure SrcInv (p : Pair) : Prop where
  prune : p.src.isPrune = false
  log : p.src.nrl.map (fun c => c.req) = (p.hist.take p.srcGot).drop p.srcDone
  done_le : p.srcDone ≤ p.srcGot
  got_le : p.srcGot ≤ p.hist.length
  state : cells p.src.store.htable = after env start p.hist p.srcDone
  good : GoodTable p.src.store.htable

structure FlightInv (hist : List ClientRequest) (fl : Flight) : Prop where
  covers_le : fl.covers ≤ hist.length
  file_ne : fl.file ≠ []
  restores : ∀ t₀, ∃ u, importDbInternal env t₀ (some fl.file) = .ok u ∧
    cells u = after env start hist fl.covers

structure DstInv (p : Pair) : Prop where
  got_le : p.dstGot ≤ p.hist.length
  suffix : ordinary p.dst.nrl <:+ p.hist.take p.dstGot
  inStep : p.restored = true → InStep (applyRequest env) start p.hist p.dstGot
    (cells p.dst.store.htable) (ordinary p.dst.nrl)
  kinds : ∀ c ∈ p.dst.nrl, isChkPt c = true ∨ isUpdate c.req.msgType = true
  files : ∀ c ∈ checkpoints p.dst.nrl, ∃ fl, p.sent[c.conn]? = some fl ∧
    p.dst.store.files c.req.filename = some fl.file
  names : ((checkpoints p.dst.nrl).map fun c => c.req.filename).Nodup

structure PairInv (p : Pair) : Prop where
  clean : ∀ r ∈ p.hist, CleanRequest r
  src : SrcInv env start p
  sent : ∀ fl ∈ p.sent, FlightInv env start p.hist fl
  dst : DstInv env start p

variable {env} {start}

theorem PairInv.restores {p : Pair} (h : PairInv env start p) :
    ∀ c ∈ checkpoints p.dst.nrl, Restores env p.dst.store.files c (after env start p.hist (covers p c)) := by
  intro c hc
  obtain ⟨fl, hfl, hfile⟩ := h.dst.files c hc
  have hcov : covers p c = fl.covers := by simp [covers, hfl]
  rw [hcov]
  exact ⟨fl.file, hfile, (h.sent fl (List.mem_of_getElem? hfl)).restores⟩

theorem after_append {hist : List ClientRequest} {n : ℕ} (h : n ≤ hist.length) (r : ClientRequest) :
    after env start (hist ++ [r]) n = after env start hist n := by
  rw [after, after, List.take_append_of_le_length h]

/-! ### Steps -/

theorem step_issue {p : Pair} {req : ClientRequest} (h : PairInv env start p) (hreq : CleanRequest req) :
    PairInv env start { p with hist := p.hist ++ [req] } where
  clean r hr := by
    rcases List.mem_append.mp hr with hr | hr
    · exact h.clean r hr
    · rw [List.mem_singleton.mp hr]
      exact hreq
  src := by
    have hlen : p.srcGot ≤ (p.hist ++ [req]).length := by
      rw [List.length_append]
      exact Nat.le_add_right_of_le h.src.got_le
    refine ⟨h.src.prune, ?_, h.src.done_le, hlen, ?_, h.src.good⟩
    · rw [List.take_append_of_le_length h.src.got_le]
      exact h.src.log
    · rw [after_append (h.src.done_le.trans h.src.got_le)]
      exact h.src.state
  sent fl hfl := by
    have hf := h.sent fl hfl
    refine ⟨?_, hf.file_ne, ?_⟩
    · rw [List.length_append]
      exact Nat.le_add_right_of_le hf.covers_le
    · rw [after_append hf.covers_le]
      exact hf.restores
  dst := by
    have hd := h.dst
    refine ⟨?_, ?_, fun hr => (hd.inStep hr).issue hd.got_le req, hd.kinds, hd.files, hd.names⟩
    · rw [List.length_append]
      exact Nat.le_add_right_of_le hd.got_le
    · rw [List.take_append_of_le_length hd.got_le]
      exact hd.suffix

theorem SrcInv.frame {p p' : Pair} (h : SrcInv env start p) (hhist : p'.hist = p.hist)
    (hgot : p'.srcGot = p.srcGot) (hdone : p'.srcDone = p.srcDone) (hnrl : p'.src.nrl = p.src.nrl)
    (hstore : p'.src.store = p.src.store) (hprune : p'.src.isPrune = p.src.isPrune) : SrcInv env start p' := by
  refine ⟨?_, ?_, ?_, ?_, ?_, ?_⟩
  · rw [hprune]
    exact h.prune
  · rw [hhist, hgot, hdone, hnrl]
    exact h.log
  · rw [hgot, hdone]
    exact h.done_le
  · rw [hgot, hhist]
    exact h.got_le
  · rw [hstore, hhist, hdone]
    exact h.state
  · rw [hstore]
    exact h.good

theorem DstInv.frame {p p' : Pair} (h : DstInv env start p) (hhist : p'.hist = p.hist)
    (hgot : p'.dstGot = p.dstGot) (hrest : p'.restored = p.restored) (hnrl : p'.dst.nrl = p.dst.nrl)
    (hstore : p'.dst.store = p.dst.store) (hsent : p.sent <+: p'.sent) : DstInv env start p' := by
  refine ⟨?_, ?_, ?_, ?_, ?_, ?_⟩
  · rw [hgot, hhist]
    exact h.got_le
  · rw [hnrl, hhist, hgot]
    exact h.suffix
  · rw [hrest, hhist, hgot, hstore, hnrl]
    exact h.inStep
  · rw [hnrl]
    exact h.kinds
  · rw [hnrl, hstore]
    intro c hc
    obtain ⟨fl, hfl, hfile⟩ := h.files c hc
    obtain ⟨more, hmore⟩ := hsent
    refine ⟨fl, ?_, hfile⟩
    rw [← hmore, List.getElem?_append_left (List.getElem?_eq_some_iff.mp hfl).1, hfl]
  · rw [hnrl]
    exact h.names

theorem step_srcRecv {p : Pair} {ctx : ClientCtx} {req : ClientRequest} {t : Server}
    {effs : List Effect} (h : PairInv env start p) (hreq : p.hist[p.srcGot]? = some req)
    (hroom : hasRoom p.src req.msgType = true)
    (hconn : handleConnection p.src 0 { ctx with req := req } = .ok (t, effs)) :
    PairInv env start { p with src := t, srcGot := p.srcGot + 1 } := by
  have hclean := h.clean req (List.mem_of_getElem? hreq)
  have ht := handleConnection_update hclean.update hclean.payload hroom hconn
  have hs := h.src
  have hlt : p.srcGot < p.hist.length := (List.getElem?_eq_some_iff.mp hreq).1
  refine ⟨h.clean, ?_, h.sent, h.dst.frame rfl rfl rfl rfl rfl (List.prefix_refl _)⟩
  subst ht
  refine ⟨hs.prune, ?_, Nat.le_succ_of_le hs.done_le, hlt, hs.state, hs.good⟩
  have hlen : p.srcDone ≤ (p.hist.take p.srcGot).length := by
    rw [List.length_take, min_eq_left hs.got_le]
    exact hs.done_le
  show (p.src.nrl ++ [_]).map (fun c : ClientCtx => c.req) = (p.hist.take (p.srcGot + 1)).drop p.srcDone
  rw [take_snoc_of_getElem? hreq, List.drop_append_of_le_length hlen, List.map_append, hs.log]
  rfl

theorem executeMsg_good {s t : Server} {c : ClientCtx} {effs : List Effect} (hz : env.ZeroHeap)
    (h : executeMsg env s c = .ok (t, effs)) (hc : CleanRequest c.req) (hs : GoodTable s.store.htable) :
    GoodTable t.store.htable := by
  obtain ⟨ret, store, ctx', fail, hh, ht, -, -⟩ := executeMsg_cases h
  obtain ⟨call, hcall, hrun, -⟩ := handleStorage_update hc.update hh
  have hgood := goodTable_request hz hc hcall hrun hs
  rcases ht with rfl | ⟨-, -, rfl⟩
  · exact hgood
  · exact hgood

theorem step_srcNormal {p : Pair} {t : Server} {effs : List Effect} (hz : env.ZeroHeap)
    (h : PairInv env start p) (hrun : runNormal env p.src = .ok (t, effs)) :
    PairInv env start { p with src := t, srcDone := p.srcDone + (taken effs).length } := by
  have hs := h.src
  refine ⟨h.clean, ?_, h.sent, h.dst.frame rfl rfl rfl rfl rfl (List.prefix_refl _)⟩
  rcases runNormal_cases hrun with ⟨-, hturn⟩ | ⟨hp, -⟩
  · rcases normalTurn_cases hturn with ⟨rfl, rfl | ⟨-, rfl⟩⟩ | ⟨c, rest, hlog, -, hexec⟩
    · exact hs.frame rfl rfl rfl rfl rfl rfl
    · exact hs.frame rfl rfl rfl rfl rfl rfl
    · have hdrop : (p.hist.take p.srcGot).drop p.srcDone = c.req :: rest.map fun c => c.req := by
        rw [← hs.log, hlog]
        rfl
      have hget : (p.hist.take p.srcGot)[p.srcDone]? = some c.req := by
        rw [← List.head?_drop, hdrop]
        rfl
      have hlt : p.srcDone < p.srcGot := by
        have hl := (List.getElem?_eq_some_iff.mp hget).1
        rw [List.length_take, min_eq_left hs.got_le] at hl
        exact hl
      have hreq : p.hist[p.srcDone]? = some c.req := by
        rw [List.getElem?_take_of_lt hlt] at hget
        exact hget
      have hclean := h.clean c.req (List.mem_of_getElem? hreq)
      obtain ⟨hnrl, -, hprune, -⟩ := executeMsg_frame hexec
      have hone : (taken effs).length = 1 := by rw [executeMsg_taken hexec]; rfl
      rw [hone]
      refine ⟨hprune.trans hs.prune, ?_, hlt, hs.got_le, ?_, executeMsg_good hz hexec hclean hs.good⟩
      · show t.nrl.map _ = (p.hist.take p.srcGot).drop (p.srcDone + 1)
        rw [hnrl, ← List.tail_drop, hdrop]
        rfl
      · show cells t.store.htable = after env start p.hist (p.srcDone + 1)
        rw [(executeMsg_update hexec hclean.update).1, after, take_snoc_of_getElem? hreq, exec,
          List.foldl_append]
        exact congrArg (fun q => applyRequest env q c.req) hs.state
  · rw [hs.prune] at hp
    cases hp

theorem step_srcSend {p : Pair} {t : Server} {effs : List Effect} (h : PairInv env start p)
    (hnrl : t.nrl = p.src.nrl) (hstore : t.store = p.src.store) (hprune : t.isPrune = p.src.isPrune)
    (hsend : ∀ fl ∈ flightOf p.srcDone effs, fl.covers = p.srcDone ∧
      exportDbInternal env p.src.store.htable = .ok fl.file) :
    PairInv env start { p with src := t, sent := p.sent ++ flightOf p.srcDone effs } := by
  have hs := h.src
  refine ⟨h.clean, hs.frame rfl rfl rfl hnrl hstore hprune, ?_,
    h.dst.frame rfl rfl rfl rfl rfl (List.prefix_append ..)⟩
  intro fl hfl
  rcases List.mem_append.mp hfl with hfl | hfl
  · exact h.sent fl hfl
  · obtain ⟨hcov, hfile⟩ := hsend fl hfl
    refine ⟨?_, exportDbInternal_ne_nil hfile, ?_⟩
    · rw [hcov]
      exact hs.done_le.trans hs.got_le
    · intro t₀
      obtain ⟨u, hu, hcells⟩ := import_restores hs.good hfile t₀
      exact ⟨u, hu, by rw [hcells, hs.state, hcov]⟩

theorem step_dstRecv {p : Pair} {ctx : ClientCtx} {req : ClientRequest} {t : Server}
    {effs : List Effect} (h : PairInv env start p) (hreq : p.hist[p.dstGot]? = some req)
    (hroom : hasRoom p.dst req.msgType = true)
    (hconn : handleConnection p.dst 0 { ctx with req := req } = .ok (t, effs)) :
    PairInv env start { p with dst := t, dstGot := p.dstGot + 1 } := by
  have hclean := h.clean req (List.mem_of_getElem? hreq)
  have ht := handleConnection_update hclean.update hclean.payload hroom hconn
  have hd := h.dst
  have hnot : isChkPt { ctx with req := req, isBacklog := isPassiveBackup p.dst } = false :=
    isChkPt_of_update hclean.update
  have hord : ordinary t.nrl = ordinary p.dst.nrl ++ [req] := by
    rw [ht]
    simp [ordinary_cons_update hnot]
    rfl
  have hchk : checkpoints t.nrl = checkpoints p.dst.nrl := by
    rw [ht, checkpoints_append]
    simp [checkpoints, hnot]
  have hstore : t.store = p.dst.store := by rw [ht]
  have hlt : p.dstGot < p.hist.length := (List.getElem?_eq_some_iff.mp hreq).1
  refine ⟨h.clean, h.src.frame rfl rfl rfl rfl rfl rfl, h.sent, hlt, ?_, ?_, ?_, ?_, ?_⟩
  · show ordinary t.nrl <:+ p.hist.take (p.dstGot + 1)
    rw [hord, take_snoc_of_getElem? hreq]
    exact suffix_snoc hd.suffix req
  · intro hr
    show InStep _ _ _ _ (cells t.store.htable) (ordinary t.nrl)
    rw [hord, hstore]
    exact (hd.inStep hr).receive hreq
  · intro c hc
    have hc' : c ∈ t.nrl := hc
    rw [ht] at hc'
    rcases List.mem_append.mp hc' with hc' | hc'
    · exact hd.kinds c hc'
    · rw [List.mem_singleton.mp hc']
      exact Or.inr hclean.update
  · show ∀ c ∈ checkpoints t.nrl, ∃ fl, p.sent[c.conn]? = some fl ∧ t.store.files c.req.filename = some fl.file
    rw [hchk, hstore]
    exact hd.files
  · show ((checkpoints t.nrl).map fun c => c.req.filename).Nodup
    rw [hchk]
    exact hd.names

theorem step_arrive {p : Pair} {i rand : ℕ} {fd : ℤ} {fl : Flight} {t : Server} {effs : List Effect}
    (h : PairInv env start p) (hfl : p.sent[i]? = some fl)
    (hname : tmpName p.dst rand ∉ (checkpoints p.dst.nrl).map fun c => c.req.filename)
    (hconn : handleConnection p.dst rand (flightCtx fl i fd) = .ok (t, effs)) :
    PairInv env start { p with dst := t, arrived := i :: p.arrived } := by
  have hd := h.dst
  have hne := (h.sent fl (List.mem_of_getElem? hfl)).file_ne
  obtain ⟨hstore, hnrl⟩ := handleConnection_checkpoint hne hconn
  have hkeep : ∀ c ∈ checkpoints p.dst.nrl, ∃ fl', p.sent[c.conn]? = some fl' ∧
      t.store.files c.req.filename = some fl'.file := by
    intro c hc
    obtain ⟨fl', hfl', hfile⟩ := hd.files c hc
    have hdiff : c.req.filename ≠ tmpName p.dst rand := by
      intro heq
      exact hname (List.mem_map.mpr ⟨c, hc, heq⟩)
    refine ⟨fl', hfl', ?_⟩
    rw [hstore]
    show Function.update p.dst.store.files (tmpName p.dst rand) (some fl.file) c.req.filename = _
    rw [Function.update_of_ne hdiff, hfile]
  have htable : cells t.store.htable = cells p.dst.store.htable := by rw [hstore]
  refine ⟨h.clean, h.src.frame rfl rfl rfl rfl rfl rfl, h.sent, ?_⟩
  rcases hnrl with hsame | ⟨c, hadd, hc, hi, hn⟩
  · refine ⟨hd.got_le, ?_, ?_, ?_, ?_, ?_⟩
    · show ordinary t.nrl <:+ _
      rw [hsame]
      exact hd.suffix
    · intro hr
      show InStep _ _ _ _ (cells t.store.htable) (ordinary t.nrl)
      rw [htable, hsame]
      exact hd.inStep hr
    · show ∀ c ∈ t.nrl, _
      rw [hsame]
      exact hd.kinds
    · show ∀ c ∈ checkpoints t.nrl, _
      rw [hsame]
      exact hkeep
    · show ((checkpoints t.nrl).map _).Nodup
      rw [hsame]
      exact hd.names
  · have hord : ordinary t.nrl = ordinary p.dst.nrl := by
      rw [hadd, ordinary_append, ordinary_cons_checkpoint hc]
      exact List.append_nil _
    have hchk : checkpoints t.nrl = checkpoints p.dst.nrl ++ [c] := by
      rw [hadd, checkpoints_append]
      simp [checkpoints, hc]
    refine ⟨hd.got_le, ?_, ?_, ?_, ?_, ?_⟩
    · show ordinary t.nrl <:+ _
      rw [hord]
      exact hd.suffix
    · intro hr
      show InStep _ _ _ _ (cells t.store.htable) (ordinary t.nrl)
      rw [htable, hord]
      exact hd.inStep hr
    · intro d hmem
      have hmem' : d ∈ t.nrl := hmem
      rw [hadd] at hmem'
      rcases List.mem_append.mp hmem' with hmem' | hmem'
      · exact hd.kinds d hmem'
      · rw [List.mem_singleton.mp hmem']
        exact Or.inl hc
    · intro d hmem
      have hmem' : d ∈ checkpoints t.nrl := hmem
      rw [hchk] at hmem'
      rcases List.mem_append.mp hmem' with hmem' | hmem'
      · exact hkeep d hmem'
      · rw [List.mem_singleton.mp hmem']
        refine ⟨fl, by rw [hi]; exact hfl, ?_⟩
        show t.store.files c.req.filename = some fl.file
        rw [hstore, hn]
        exact Function.update_self ..
    · show ((checkpoints t.nrl).map fun c => c.req.filename).Nodup
      rw [hchk, List.map_append, List.map_singleton, hn]
      exact List.nodup_append'.mpr ⟨hd.names, List.nodup_singleton _, by simpa using hname⟩

theorem executesCheckpoint_one {s t : Server} {c : ClientCtx} {effs : List Effect}
    (h : executeMsg env s c = .ok (t, effs)) : executesCheckpoint effs = isChkPt c := by
  rw [executesCheckpoint, executeMsg_taken h]
  exact Bool.or_false _

theorem dstInv_update {p : Pair} {t : Server} {c : ClientCtx} {rest : List ClientCtx}
    {effs : List Effect} (h : DstInv env start p) (hlog : p.dst.nrl = c :: rest)
    (hup : isUpdate c.req.msgType = true)
    (hexec : executeMsg env { p.dst with nrl := rest } c = .ok (t, effs)) :
    DstInv env start { p with dst := t, restored := p.restored || executesCheckpoint effs } := by
  have hnot := isChkPt_of_update hup
  have hnrl : t.nrl = rest := (executeMsg_frame hexec).1
  obtain ⟨hcells, hfiles⟩ := executeMsg_update hexec hup
  have hord : ordinary p.dst.nrl = c.req :: ordinary t.nrl := by
    rw [hlog, hnrl, ordinary_cons_update hnot]
  have hchk : checkpoints p.dst.nrl = checkpoints t.nrl := by
    rw [hlog, hnrl]
    simp [checkpoints, hnot]
  rw [executesCheckpoint_one hexec, hnot, Bool.or_false]
  refine ⟨h.got_le, ?_, ?_, ?_, ?_, ?_⟩
  · have hsuf := h.suffix
    rw [hord] at hsuf
    exact (List.suffix_cons ..).trans hsuf
  · intro hr
    have hin := h.inStep hr
    rw [hord] at hin
    show InStep _ _ _ _ (cells t.store.htable) (ordinary t.nrl)
    rw [hcells]
    exact hin.apply_next
  · intro d hd
    have hd' : d ∈ t.nrl := hd
    rw [hnrl] at hd'
    exact h.kinds d (by rw [hlog]; exact List.mem_cons_of_mem _ hd')
  · show ∀ d ∈ checkpoints t.nrl, ∃ fl, p.sent[d.conn]? = some fl ∧ t.store.files d.req.filename = some fl.file
    rw [← hchk, hfiles]
    exact h.files
  · show ((checkpoints t.nrl).map fun d => d.req.filename).Nodup
    rw [← hchk]
    exact h.names

theorem dstInv_checkpoint {p : Pair} {t : Server} {c : ClientCtx} {rest : List ClientCtx}
    {effs : List Effect} (h : PairInv env start p) (hlog : p.dst.nrl = c :: rest) (hc : isChkPt c = true)
    (halign : covers p c + (ordinary rest).length = p.dstGot)
    (hexec : executeMsg env { p.dst with nrl := rest } c = .ok (t, effs)) :
    DstInv env start { p with dst := t, restored := p.restored || executesCheckpoint effs } := by
  have hd := h.dst
  have hnrl : t.nrl = rest := (executeMsg_frame hexec).1
  have hchk : checkpoints p.dst.nrl = c :: checkpoints rest := by
    rw [hlog]
    simp [checkpoints, hc]
  have hord : ordinary p.dst.nrl = ordinary rest := by rw [hlog, ordinary_cons_checkpoint hc]
  have hmem : c ∈ checkpoints p.dst.nrl := by
    rw [hchk]
    exact List.mem_cons_self ..
  obtain ⟨hcells, hfiles⟩ := executeMsg_checkpoint hexec hc (h.restores c hmem)
  have hnames := hd.names
  rw [hchk, List.map_cons, List.nodup_cons] at hnames
  have hsuf : ordinary t.nrl <:+ p.hist.take p.dstGot := by
    rw [hnrl, ← hord]
    exact hd.suffix
  refine ⟨hd.got_le, hsuf, ?_, ?_, ?_, ?_⟩
  · intro _
    show InStep _ _ _ _ (cells t.store.htable) (ordinary t.nrl)
    rw [hcells]
    exact InStep.snapshot hsuf hd.got_le (by rw [hnrl]; exact halign)
  · intro d hmem'
    have hd' : d ∈ t.nrl := hmem'
    rw [hnrl] at hd'
    exact hd.kinds d (by rw [hlog]; exact List.mem_cons_of_mem _ hd')
  · intro d hmem'
    have hd' : d ∈ checkpoints t.nrl := hmem'
    rw [hnrl] at hd'
    obtain ⟨fl, hfl, hfile⟩ := hd.files d (by rw [hchk]; exact List.mem_cons_of_mem _ hd')
    refine ⟨fl, hfl, ?_⟩
    have hne : d.req.filename ≠ c.req.filename := by
      intro heq
      exact hnames.1 (List.mem_map.mpr ⟨d, hd', heq⟩)
    show t.store.files d.req.filename = some fl.file
    rw [hfiles, Function.update_of_ne hne]
    exact hfile
  · show ((checkpoints t.nrl).map fun d => d.req.filename).Nodup
    rw [hnrl]
    exact hnames.2

theorem dstInv_prune {p : Pair} {t : Server} {effs : List Effect} (h : PairInv env start p)
    (hprune : p.dst.isPrune = true) (halign : Aligned p)
    (hloop : pruneLoop env p.dst.nrl p.dst = .ok (t, effs)) :
    DstInv env start { p with dst := t, restored := p.restored || executesCheckpoint effs } := by
  have hd := h.dst
  have hnil : t.nrl = [] := (pruneLoop_frame hloop rfl).1
  have hcells := pruneLoop_cells hloop hd.names h.restores
  rw [Aligned, if_pos hprune] at halign
  have hin : (p.restored || executesCheckpoint effs) = true →
      InStep (applyRequest env) start p.hist p.dstGot (cells t.store.htable) [] := by
    intro hr
    cases hlast : (checkpoints p.dst.nrl).getLast? with
    | none =>
      rw [hlast] at halign hcells
      have hempty : p.dst.nrl = [] := halign
      rw [pruneLoop_executes hloop, hempty] at hr
      have hold := hd.inStep (by simpa using hr)
      rw [hempty] at hold
      rw [hcells]
      exact hold
    | some c =>
      rw [hlast] at halign hcells
      have hcov : covers p c = p.dstGot := halign
      rw [hcells]
      exact InStep.snapshot List.nil_suffix hd.got_le hcov
  refine ⟨hd.got_le, ?_, ?_, ?_, ?_, ?_⟩
  · show ordinary t.nrl <:+ _
    rw [hnil]
    exact List.nil_suffix
  · show _ → InStep _ _ _ _ _ (ordinary t.nrl)
    rw [hnil]
    exact hin
  · show ∀ d ∈ t.nrl, _
    rw [hnil]
    exact fun d hmem => absurd hmem List.not_mem_nil
  · show ∀ d ∈ checkpoints t.nrl, _
    rw [hnil]
    exact fun d hmem => absurd hmem List.not_mem_nil
  · show ((checkpoints t.nrl).map _).Nodup
    rw [hnil]
    exact List.nodup_nil

theorem step_dstNormal {p : Pair} {t : Server} {effs : List Effect} (h : PairInv env start p)
    (halign : Aligned p) (hrun : runNormal env p.dst = .ok (t, effs)) :
    PairInv env start { p with dst := t, restored := p.restored || executesCheckpoint effs } := by
  refine ⟨h.clean, h.src.frame rfl rfl rfl rfl rfl rfl, h.sent, ?_⟩
  rcases runNormal_cases hrun with ⟨hp, hturn⟩ | ⟨hp, u, hloop, ht⟩
  · rcases normalTurn_cases hturn with ⟨rfl, rfl | ⟨-, rfl⟩⟩ | ⟨c, rest, hlog, ⟨hawake, hstate⟩, hexec⟩
    · exact h.dst.frame rfl rfl (Bool.or_false _) rfl rfl (List.prefix_refl _)
    · exact h.dst.frame rfl rfl (Bool.or_false _) rfl rfl (List.prefix_refl _)
    · rcases h.dst.kinds c (by rw [hlog]; exact List.mem_cons_self ..) with hc | hup
      · refine dstInv_checkpoint h hlog hc ?_ hexec
        rw [Aligned, hp, hlog] at halign
        exact halign hc (by simpa [hp] using hawake) hstate
      · exact dstInv_update h.dst hlog hup hexec
  · have hu := dstInv_prune h hp halign hloop
    rcases ht with rfl | ⟨-, rfl⟩
    · exact hu
    · exact hu.frame rfl rfl rfl rfl rfl (List.prefix_refl _)

/-! ### Runs -/

theorem restored_step {p p' : Pair} {e : PairEvent} (h : p.restored = true)
    (hstep : pairStep env p e = some p') : p'.restored = true := by
  cases e with
  | issue req =>
    rw [pairStep] at hstep
    split at hstep
    · cases hstep
      exact h
    · cases hstep
  | dstNormal =>
    obtain ⟨r, -, rfl⟩ := StepRun.toOption_map_eq_some hstep
    show (p.restored || executesCheckpoint r.2) = true
    rw [h]
    rfl
  | srcNormal | srcControl | dstControl | srcChkptThread =>
    obtain ⟨r, -, rfl⟩ := StepRun.toOption_map_eq_some hstep
    exact h
  | srcCommand ctx | dstCommand ctx =>
    rw [pairStep] at hstep
    split at hstep
    · obtain ⟨r, -, rfl⟩ := StepRun.toOption_map_eq_some hstep
      exact h
    · cases hstep
  | srcRecv ctx | dstRecv ctx =>
    rw [pairStep] at hstep
    split at hstep
    · cases hstep
    · split at hstep
      · obtain ⟨r, -, rfl⟩ := StepRun.toOption_map_eq_some hstep
        exact h
      · cases hstep
  | arrive i rand fd =>
    rw [pairStep] at hstep
    split at hstep
    · cases hstep
    · split at hstep
      · cases hstep
      · obtain ⟨r, -, rfl⟩ := StepRun.toOption_map_eq_some hstep
        exact h

theorem pairStep_inv (hz : env.ZeroHeap) {p p' : Pair} {e : PairEvent} (h : PairInv env start p)
    (hfit : FitStep p e) (hstep : pairStep env p e = some p') : PairInv env start p' := by
  cases e with
  | issue req =>
    rw [pairStep] at hstep
    split at hstep
    · cases hstep
      exact step_issue h hfit
    · cases hstep
  | srcRecv ctx =>
    rw [pairStep] at hstep
    split at hstep
    · cases hstep
    · rename_i req hreq
      split at hstep
      · rename_i hroom
        obtain ⟨⟨t, effs⟩, hconn, rfl⟩ := StepRun.toOption_map_eq_some hstep
        exact step_srcRecv h hreq hroom hconn
      · cases hstep
  | dstRecv ctx =>
    rw [pairStep] at hstep
    split at hstep
    · cases hstep
    · rename_i req hreq
      split at hstep
      · rename_i hroom
        obtain ⟨⟨t, effs⟩, hconn, rfl⟩ := StepRun.toOption_map_eq_some hstep
        exact step_dstRecv h hreq hroom hconn
      · cases hstep
  | srcCommand ctx =>
    rw [pairStep] at hstep
    split at hstep
    · rename_i hcmd
      obtain ⟨⟨t, effs⟩, hconn, rfl⟩ := StepRun.toOption_map_eq_some hstep
      obtain ⟨hnrl, hstore, hprune⟩ := handleConnection_command hcmd hconn
      exact ⟨h.clean, h.src.frame rfl rfl rfl hnrl hstore hprune, h.sent,
        h.dst.frame rfl rfl rfl rfl rfl (List.prefix_refl _)⟩
    · cases hstep
  | dstCommand ctx =>
    rw [pairStep] at hstep
    split at hstep
    · rename_i hcmd
      obtain ⟨⟨t, effs⟩, hconn, rfl⟩ := StepRun.toOption_map_eq_some hstep
      obtain ⟨hnrl, hstore, -⟩ := handleConnection_command hcmd hconn
      exact ⟨h.clean, h.src.frame rfl rfl rfl rfl rfl rfl, h.sent,
        h.dst.frame rfl rfl rfl hnrl hstore (List.prefix_refl _)⟩
    · cases hstep
  | srcNormal =>
    obtain ⟨⟨t, effs⟩, hrun, rfl⟩ := StepRun.toOption_map_eq_some hstep
    exact step_srcNormal hz h hrun
  | dstNormal =>
    obtain ⟨⟨t, effs⟩, hrun, rfl⟩ := StepRun.toOption_map_eq_some hstep
    exact step_dstNormal h hfit hrun
  | srcControl =>
    obtain ⟨⟨t, effs⟩, hrun, rfl⟩ := StepRun.toOption_map_eq_some hstep
    obtain ⟨hnrl, hstore, hprune, hsend⟩ := runControl_frame hrun
    exact step_srcSend h hnrl hstore hprune (hsend p.srcDone)
  | dstControl =>
    obtain ⟨⟨t, effs⟩, hrun, rfl⟩ := StepRun.toOption_map_eq_some hstep
    obtain ⟨hnrl, hstore, -, -⟩ := runControl_frame hrun
    exact ⟨h.clean, h.src.frame rfl rfl rfl rfl rfl rfl, h.sent,
      h.dst.frame rfl rfl rfl hnrl hstore (List.prefix_refl _)⟩
  | srcChkptThread =>
    obtain ⟨⟨t, effs⟩, hrun, rfl⟩ := StepRun.toOption_map_eq_some hstep
    obtain ⟨hnrl, hstore, hprune, hsend⟩ := chkptThread_frame hrun
    exact step_srcSend h hnrl hstore hprune (hsend p.srcDone)
  | arrive i rand fd =>
    rw [pairStep] at hstep
    split at hstep
    · cases hstep
    · split at hstep
      · cases hstep
      · rename_i fl hfl
        obtain ⟨⟨t, effs⟩, hconn, rfl⟩ := StepRun.toOption_map_eq_some hstep
        exact step_arrive h hfl hfit.2 hconn

end Invariant

end ToDoList
