import ToDoList.CLib.Copies
import ToDoList.Chains
import ToDoList.Failover
import ToDoList.Manager

/-!
# Three replicas over any number of failovers

All replicas get one sequence of add and remove requests, each at its own pace;
any of them exports its table to the other two, under any role and at any time,
and any of them may end and be started again with nothing. Each is a copy of
the replayed sequence: the table is that of a prefix, as long as requests are
executed in turn.
-/

namespace ToDoList
open CLib Replay StepRun

/-- `got` counts the requests that were meant for the replica up to now, `done`
those its table stands for. -/
structure Member where
  server : Server
  got : ℕ := 0
  done : Option ℕ := some 0

/-- A checkpoint message to one of the backups of its sender. -/
structure Parcel where
  target : Replica
  flight : Flight
  done : Option ℕ

structure ReplicaGroup where
  member : Replica → Member
  hist : List ClientRequest := []
  parcels : List Parcel := []
  arrived : List ℕ := []

inductive GroupEvent where
  | issue (req : ClientRequest)
  | recv (r : Replica) (ctx : ClientCtx)
  | command (r : Replica) (ctx : ClientCtx)
  | normal (r : Replica)
  | control (r : Replica)
  | chkptThread (r : Replica)
  | arrive (i rand : ℕ) (fd : ℤ)
  | restart (r : Replica) (got : ℕ)

def Member.copy (m : Member) : Copy Cells ClientRequest :=
  ⟨cells m.server.store.htable, ordinary m.server.nrl, m.got, m.done⟩

def parcelDone (parcels : List Parcel) (c : ClientCtx) : Option ℕ := parcels[c.conn]?.bind Parcel.done

/-- What the table stands for behind an iteration of the NORMAL worker: the last
log entry that it has executed decides. -/
def Member.doneAfter (m : Member) (parcels : List Parcel) (effs : List Effect) : Option ℕ :=
  match ((taken effs).filter Prod.snd).getLast? with
  | none => m.done
  | some (c, _) => if isChkPt c then parcelDone parcels c else m.copy.doneNext

def Member.exports (m : Member) (r : Replica) (effs : List Effect) : List Parcel :=
  (flightOf (m.done.getD 0) effs).flatMap fun fl =>
    [⟨(otherReplicas r).1, fl, m.done⟩, ⟨(otherReplicas r).2, fl, m.done⟩]

def ReplicaGroup.set (g : ReplicaGroup) (r : Replica) (m : Member) : ReplicaGroup :=
  { g with member := Function.update g.member r m }

/-- The events of `Pair`, for any replica; behind a restart the requests up to
`got` have passed the replica. -/
def groupStep (env : Env) (g : ReplicaGroup) : GroupEvent → Option ReplicaGroup
  | .issue req =>
    if isUpdate req.msgType = true ∧ req.payload.size = 0 then some { g with hist := g.hist ++ [req] }
    else none
  | .recv r ctx =>
    let m := g.member r
    match g.hist[m.got]? with
    | none => none
    | some req =>
      if hasRoom m.server req.msgType then
        (handleConnection m.server 0 { ctx with req := req }).toOption.map fun out =>
          g.set r { m with server := out.1, got := m.got + 1 }
      else none
  | .command r ctx =>
    let m := g.member r
    if isCommand ctx.req then
      (handleConnection m.server 0 ctx).toOption.map fun out => g.set r { m with server := out.1 }
    else none
  | .normal r =>
    let m := g.member r
    (runNormal env m.server).toOption.map fun out =>
      g.set r { m with server := out.1, done := m.doneAfter g.parcels out.2 }
  | .control r =>
    let m := g.member r
    (runControl env m.server).toOption.map fun out =>
      { g.set r { m with server := out.1 } with parcels := g.parcels ++ m.exports r out.2 }
  | .chkptThread r =>
    let m := g.member r
    (serverStep env m.server .chkptThread).toOption.map fun out =>
      { g.set r { m with server := out.1 } with parcels := g.parcels ++ m.exports r out.2 }
  | .arrive i rand fd =>
    if i ∈ g.arrived then none
    else
      match g.parcels[i]? with
      | none => none
      | some parcel =>
        let m := g.member parcel.target
        (handleConnection m.server rand (flightCtx parcel.flight i fd)).toOption.map fun out =>
          { g.set parcel.target { m with server := out.1 } with arrived := i :: g.arrived }
  | .restart r got =>
    if (g.member r).got ≤ got ∧ got ≤ g.hist.length then
      some (g.set r { server := { serverId := r.val }, got := got })
    else none

def initGroup : ReplicaGroup where
  member r := { server := { serverId := r.val } }

/-- The condition on a step: texts that fit the format, files below 2^31 bytes
and under a name no waiting checkpoint uses. -/
def FitGroup (g : ReplicaGroup) : GroupEvent → Prop
  | .issue req => CleanRequest req
  | .arrive i rand _ => ∀ parcel ∈ g.parcels[i]?, parcel.flight.file.length < 2 ^ 31 ∧
      tmpName (g.member parcel.target).server rand ∉
        (checkpoints (g.member parcel.target).server.nrl).map fun c => c.req.filename
  | _ => True

instance decidableFitGroup (g : ReplicaGroup) : ∀ e, Decidable (FitGroup g e)
  | .issue req => inferInstanceAs (Decidable (CleanRequest req))
  | .arrive i rand _ => inferInstanceAs (Decidable
      (∀ parcel ∈ g.parcels[i]?, parcel.flight.file.length < 2 ^ 31 ∧
        tmpName (g.member parcel.target).server rand ∉
          (checkpoints (g.member parcel.target).server.nrl).map fun c => c.req.filename))
  | .recv .. => isTrue trivial
  | .command .. => isTrue trivial
  | .normal _ => isTrue trivial
  | .control _ => isTrue trivial
  | .chkptThread _ => isTrue trivial
  | .restart .. => isTrue trivial

/-! ### Tables of clean texts -/

def CleanCells (q : Cells) : Prop := ∀ i, ∀ e ∈ q i, e.2.toNat ≤ 1015 ∧ CleanText e.1

theorem checkpointable_of_cells {t : HTable} (h : CleanCells (cells t)) : Checkpointable t := by
  intro b d hd
  have hmem : entry d ∈ cells t (b, d.key) :=
    List.mem_map.mpr ⟨d, List.mem_filter.mpr ⟨hd, decide_eq_true rfl⟩, rfl⟩
  exact h (b, d.key) (entry d) hmem

theorem cleanCells_init : CleanCells (cells (hashTableInit 0)) := by
  intro i e he
  cases he

theorem cleanCells_apply {env : Env} {q : Cells} {req : ClientRequest} (hreq : CleanRequest req)
    (h : CleanCells q) : CleanCells (applyRequest env q req) := by
  unfold applyRequest
  cases hcall : requestCall env req with
  | none => exact h
  | some c =>
    intro i e he
    simp only [KeyedMachine.step] at he
    by_cases hi : i = tableMachine.key c
    · subst hi
      rw [Function.update_self] at he
      rcases requestCall_cases hcall with ⟨hadd, rfl⟩ | ⟨-, rfl⟩
      · simp only [tableMachine, queueAct] at he
        split at he
        · exact h _ e he
        · rcases List.mem_append.mp he with he | he
          · exact h _ e he
          · rw [List.mem_singleton.mp he]
            exact ⟨hreq.len hadd, hreq.text hadd⟩
      · have hsub : (queueAct (.delete req.hashKey) (q (tableMachine.key (.delete req.hashKey)))).1 ⊆
            q (tableMachine.key (.delete req.hashKey)) := by
          cases q (tableMachine.key (.delete req.hashKey)) with
          | nil => exact List.Subset.refl _
          | cons d rest => exact List.subset_cons_self d rest
        exact h _ e (hsub he)
    · rw [Function.update_of_ne hi] at he
      exact h i e he

theorem cleanCells_exec {env : Env} {q : Cells} {reqs : List ClientRequest}
    (hreqs : ∀ r ∈ reqs, CleanRequest r) (h : CleanCells q) :
    CleanCells (exec (applyRequest env) q reqs) := by
  induction reqs generalizing q with
  | nil => exact h
  | cons req reqs ih =>
    exact ih (fun r hr => hreqs r (List.mem_cons_of_mem _ hr))
      (cleanCells_apply (hreqs req (List.mem_cons_self ..)) h)

/-! ### What holds of every table -/

structure Sane (t : HTable) : Prop where
  inv : TableInv t
  tail : AllNodes (fun _ d => ZeroTail d) t

theorem sane_stable {env : Env} (hz : env.ZeroHeap) : Stable env Sane := fun t u hstep h =>
  ⟨tableInv_stable env t u hstep h.inv, zeroTail_stable env hz t u hstep h.tail⟩

theorem sane_init : Sane (hashTableInit 0) := ⟨(goodTable_init 0).inv, (goodTable_init 0).tail⟩

section
variable {env : Env} {P : HTable → Prop} (hP : Stable env P)

include hP

theorem executeMsg_stable {s t : Server} {c : ClientCtx} {effs : List Effect}
    (h : executeMsg env s c = .ok (t, effs)) (hs : P s.store.htable) : P t.store.htable := by
  obtain ⟨ret, store, ctx', fail, hh, ht, -, -⟩ := executeMsg_cases h
  have hstore := handleStorage_stable hP _ _ _ _ _ hh hs
  rcases ht with rfl | ⟨-, -, rfl⟩
  · exact hstore
  · exact hstore

theorem pruneLoop_stable {log : List ClientCtx} {s t : Server} {effs : List Effect}
    (h : pruneLoop env log s = .ok (t, effs)) (hs : P s.store.htable) : P t.store.htable := by
  induction log generalizing s effs with
  | nil =>
    cases h
    exact hs
  | cons c rest ih =>
    rw [pruneLoop] at h
    split at h
    · split at h
      · cases h
      · rename_i hloop
        cases h
        exact ih hloop hs
    · split at h
      · cases h
      · rename_i u effs₁ hexec
        split at h
        · cases h
        · rename_i hloop
          cases h
          exact ih hloop (executeMsg_stable hP hexec hs)

end

/-! ### Prune passes -/

theorem executeMsg_files {env : Env} {s t : Server} {c : ClientCtx} {effs : List Effect}
    (h : executeMsg env s c = .ok (t, effs)) (hc : isChkPt c = true) :
    t.store.files = Function.update s.store.files c.req.filename none := by
  have htype : c.req.msgType = .msgChkPt := by simpa [isChkPt] using hc
  obtain ⟨ret, store, ctx', fail, hh, ht, -, -⟩ := executeMsg_cases h
  have hfiles := handleStorage_files hh
  rw [if_pos htype] at hfiles
  rcases ht with rfl | ⟨-, -, rfl⟩
  · exact hfiles
  · exact hfiles

theorem pruneLoop_kept {env : Env} {log : List ClientCtx} {s t : Server} {effs : List Effect}
    (h : pruneLoop env log s = .ok (t, effs)) (hnil : checkpoints log = []) :
    cells t.store.htable = cells s.store.htable := by
  have hfiles : ∀ d ∈ checkpoints log, Restores env s.store.files d (cells s.store.htable) := by
    rw [hnil]
    exact fun d hd => absurd hd List.not_mem_nil
  have hkept := pruneLoop_cells h (by rw [hnil]; exact List.nodup_nil) hfiles
  rw [hkept, hnil]
  rfl

/-- Only the last checkpoint matters: a pass that comes through ends with what
that one restores, whatever the others were. -/
theorem pruneLoop_last {env : Env} {q : Cells} {log : List ClientCtx} {s t : Server}
    {effs : List Effect} {c : ClientCtx} (h : pruneLoop env log s = .ok (t, effs))
    (hlast : (checkpoints log).getLast? = some c)
    (hnames : ((checkpoints log).map fun d => d.req.filename).Nodup)
    (hq : Restores env s.store.files c q) : cells t.store.htable = q := by
  induction log generalizing s effs with
  | nil => cases hlast
  | cons d rest ih =>
    rw [pruneLoop] at h
    by_cases hd : isChkPt d = true
    · have hcons : checkpoints (d :: rest) = d :: checkpoints rest := by simp [checkpoints, hd]
      have htype : d.req.msgType = .msgChkPt := by simpa [isChkPt] using hd
      rw [hcons] at hlast hnames
      rw [if_neg (not_not.mpr htype)] at h
      split at h
      · cases h
      · rename_i u effs₁ hexec
        split at h
        · cases h
        · rename_i v effs₂ hloop
          cases h
          cases hrest : (checkpoints rest).getLast? with
          | none =>
            -- `d` is the last one, and the rest of the pass executes nothing
            rw [List.getLast?_cons, hrest] at hlast
            cases hlast
            rw [pruneLoop_kept hloop (List.getLast?_eq_none_iff.mp hrest)]
            exact (executeMsg_checkpoint hexec hd hq).1
          | some e =>
            rw [List.getLast?_cons, hrest, Option.getD_some] at hlast
            cases hlast
            rw [List.map_cons, List.nodup_cons] at hnames
            refine ih hloop hrest hnames.2 ?_
            obtain ⟨file, hfile, himport⟩ := hq
            refine ⟨file, ?_, himport⟩
            have hmem : c ∈ checkpoints rest := List.mem_of_getLast? hrest
            have hne : c.req.filename ≠ d.req.filename := fun heq =>
              hnames.1 (List.mem_map.mpr ⟨c, hmem, heq⟩)
            rw [executeMsg_files hexec hd, Function.update_of_ne hne]
            exact hfile
    · have hskip : checkpoints (d :: rest) = checkpoints rest := by simp [checkpoints, hd]
      have htype : d.req.msgType ≠ .msgChkPt := by simpa [isChkPt] using hd
      rw [hskip] at hlast hnames
      rw [if_pos htype] at h
      split at h
      · cases h
      · rename_i u effs₁ hloop
        cases h
        exact ih hloop hlast hnames hq

/-! ### The invariant -/

structure MemberInv (env : Env) (hist : List ClientRequest) (parcels : List Parcel) (m : Member) :
    Prop where
  sound : m.copy.Sound (applyRequest env) (cells (hashTableInit 0)) hist
  kinds : ∀ c ∈ m.server.nrl, isChkPt c = true ∨ isUpdate c.req.msgType = true
  files : ∀ c ∈ checkpoints m.server.nrl, ∃ parcel, parcels[c.conn]? = some parcel ∧
    m.server.store.files c.req.filename = some parcel.flight.file
  names : ((checkpoints m.server.nrl).map fun c => c.req.filename).Nodup
  sane : Sane m.server.store.htable

/-- A message whose table stood for `k` requests restores just these. -/
structure ParcelInv (env : Env) (hist : List ClientRequest) (parcel : Parcel) : Prop where
  file_ne : parcel.flight.file ≠ []
  restores : ∀ k ∈ parcel.done, k ≤ hist.length ∧ ∀ t₀, ∃ u,
    importDbInternal env t₀ (some parcel.flight.file) = .ok u ∧
      cells u = after env (cells (hashTableInit 0)) hist k

structure GroupInv (env : Env) (g : ReplicaGroup) : Prop where
  clean : ∀ req ∈ g.hist, CleanRequest req
  parcels : ∀ parcel ∈ g.parcels, ParcelInv env g.hist parcel
  member : ∀ r, MemberInv env g.hist g.parcels (g.member r)

section
variable {env : Env} {hist : List ClientRequest} {parcels : List Parcel} {m : Member} {t : Server}
  {effs : List Effect}

theorem MemberInv.frame {parcels' : List Parcel} (h : MemberInv env hist parcels m)
    (hnrl : t.nrl = m.server.nrl) (hstore : t.store = m.server.store) (hsent : parcels <+: parcels') :
    MemberInv env hist parcels' { m with server := t } := by
  refine ⟨?_, ?_, ?_, ?_, ?_⟩
  · unfold Member.copy
    rw [hnrl, hstore]
    exact h.sound
  · rw [hnrl]
    exact h.kinds
  · rw [hnrl, hstore]
    intro c hc
    obtain ⟨parcel, hparcel, hfile⟩ := h.files c hc
    obtain ⟨more, hmore⟩ := hsent
    refine ⟨parcel, ?_, hfile⟩
    rw [← hmore, List.getElem?_append_left (List.getElem?_eq_some_iff.mp hparcel).1, hparcel]
  · rw [hnrl]
    exact h.names
  · rw [hstore]
    exact h.sane

theorem MemberInv.issue (h : MemberInv env hist parcels m) (req : ClientRequest) :
    MemberInv env (hist ++ [req]) parcels m :=
  ⟨h.sound.issue req, h.kinds, h.files, h.names, h.sane⟩

theorem ParcelInv.issue {parcel : Parcel} (h : ParcelInv env hist parcel) (req : ClientRequest) :
    ParcelInv env (hist ++ [req]) parcel := by
  refine ⟨h.file_ne, fun k hk => ?_⟩
  obtain ⟨hle, hrestores⟩ := h.restores k hk
  rw [after_append hle, List.length_append]
  exact ⟨Nat.le_add_right_of_le hle, hrestores⟩

theorem memberInv_start (env : Env) {hist : List ClientRequest} (parcels : List Parcel) (serverId : ℤ)
    {got : ℕ} (hgot : got ≤ hist.length) :
    MemberInv env hist parcels { server := { serverId := serverId }, got := got } :=
  ⟨Copy.sound_start hgot, fun _ hc => absurd hc List.not_mem_nil,
    fun _ hc => absurd hc List.not_mem_nil, List.nodup_nil, sane_init⟩

/-! ### Requests and checkpoints that arrive -/

theorem copy_recv {ctx : ClientCtx} {req : ClientRequest} (hclean : CleanRequest req)
    (hroom : hasRoom m.server req.msgType = true)
    (hconn : handleConnection m.server 0 { ctx with req := req } = .ok (t, effs)) :
    Member.copy { m with server := t, got := m.got + 1 } = m.copy.receive req := by
  have ht := handleConnection_update hclean.update hclean.payload hroom hconn
  have hnot : isChkPt { ctx with req := req, isBacklog := isPassiveBackup m.server } = false :=
    isChkPt_of_update hclean.update
  have hord : ordinary t.nrl = ordinary m.server.nrl ++ [req] := by
    rw [ht]
    simp [ordinary_cons_update hnot]
    rfl
  have hstore : t.store = m.server.store := by rw [ht]
  simp only [Member.copy, Copy.receive, hstore, hord]

theorem memberInv_recv {ctx : ClientCtx} {req : ClientRequest} (h : MemberInv env hist parcels m)
    (hclean : CleanRequest req) (hreq : hist[m.got]? = some req)
    (hroom : hasRoom m.server req.msgType = true)
    (hconn : handleConnection m.server 0 { ctx with req := req } = .ok (t, effs)) :
    MemberInv env hist parcels { m with server := t, got := m.got + 1 } := by
  have ht := handleConnection_update hclean.update hclean.payload hroom hconn
  have hnot : isChkPt { ctx with req := req, isBacklog := isPassiveBackup m.server } = false :=
    isChkPt_of_update hclean.update
  have hchk : checkpoints t.nrl = checkpoints m.server.nrl := by
    rw [ht, checkpoints_append]
    simp [checkpoints, hnot]
  have hstore : t.store = m.server.store := by rw [ht]
  refine ⟨?_, ?_, ?_, ?_, ?_⟩
  · rw [copy_recv hclean hroom hconn]
    exact h.sound.receive hreq
  · intro c hc
    have hc' : c ∈ t.nrl := hc
    rw [ht] at hc'
    rcases List.mem_append.mp hc' with hc' | hc'
    · exact h.kinds c hc'
    · rw [List.mem_singleton.mp hc']
      exact Or.inr hclean.update
  · dsimp only
    rw [hchk, hstore]
    exact h.files
  · dsimp only
    rw [hchk]
    exact h.names
  · dsimp only
    rw [hstore]
    exact h.sane

theorem copy_arrive {parcel : Parcel} {i rand : ℕ} {fd : ℤ} (hne : parcel.flight.file ≠ [])
    (hconn : handleConnection m.server rand (flightCtx parcel.flight i fd) = .ok (t, effs)) :
    Member.copy { m with server := t } = m.copy := by
  obtain ⟨hstore, hnrl⟩ := handleConnection_checkpoint hne hconn
  have htable : t.store.htable = m.server.store.htable := by rw [hstore]
  have hord : ordinary t.nrl = ordinary m.server.nrl := by
    rcases hnrl with hsame | ⟨c, hadd, hc, -, -⟩
    · rw [hsame]
    · rw [hadd, ordinary_append, ordinary_cons_checkpoint hc]
      exact List.append_nil _
  simp only [Member.copy, htable, hord]

theorem memberInv_arrive {parcel : Parcel} {i rand : ℕ} {fd : ℤ} (h : MemberInv env hist parcels m)
    (hparcel : parcels[i]? = some parcel) (hne : parcel.flight.file ≠ [])
    (hname : tmpName m.server rand ∉ (checkpoints m.server.nrl).map fun c => c.req.filename)
    (hconn : handleConnection m.server rand (flightCtx parcel.flight i fd) = .ok (t, effs)) :
    MemberInv env hist parcels { m with server := t } := by
  obtain ⟨hstore, hnrl⟩ := handleConnection_checkpoint hne hconn
  have htable : t.store.htable = m.server.store.htable := by rw [hstore]
  have hkeep : ∀ c ∈ checkpoints m.server.nrl, ∃ parcel', parcels[c.conn]? = some parcel' ∧
      t.store.files c.req.filename = some parcel'.flight.file := by
    intro c hc
    obtain ⟨parcel', hparcel', hfile⟩ := h.files c hc
    have hdiff : c.req.filename ≠ tmpName m.server rand := by
      intro heq
      exact hname (List.mem_map.mpr ⟨c, hc, heq⟩)
    refine ⟨parcel', hparcel', ?_⟩
    rw [hstore]
    dsimp only
    rw [Function.update_of_ne hdiff, hfile]
  have hsound : (Member.copy { m with server := t }).Sound (applyRequest env)
      (cells (hashTableInit 0)) hist := by
    rw [copy_arrive hne hconn]
    exact h.sound
  rcases hnrl with hsame | ⟨c, hadd, hc, hi, hn⟩
  · refine ⟨hsound, ?_, ?_, ?_, ?_⟩
    · dsimp only
      rw [hsame]
      exact h.kinds
    · dsimp only
      rw [hsame]
      exact hkeep
    · dsimp only
      rw [hsame]
      exact h.names
    · dsimp only
      rw [htable]
      exact h.sane
  · have hchk : checkpoints t.nrl = checkpoints m.server.nrl ++ [c] := by
      rw [hadd, checkpoints_append]
      simp [checkpoints, hc]
    refine ⟨hsound, ?_, ?_, ?_, ?_⟩
    · intro d hd
      have hd' : d ∈ t.nrl := hd
      rw [hadd] at hd'
      rcases List.mem_append.mp hd' with hd' | hd'
      · exact h.kinds d hd'
      · rw [List.mem_singleton.mp hd']
        exact Or.inl hc
    · intro d hd
      have hd' : d ∈ checkpoints t.nrl := hd
      rw [hchk] at hd'
      rcases List.mem_append.mp hd' with hd' | hd'
      · exact hkeep d hd'
      · rw [List.mem_singleton.mp hd']
        refine ⟨parcel, by rw [hi]; exact hparcel, ?_⟩
        dsimp only
        rw [hstore, hn]
        exact Function.update_self ..
    · dsimp only
      rw [hchk, List.map_append, List.map_singleton, hn]
      exact List.nodup_append'.mpr ⟨h.names, List.nodup_singleton _, by simpa using hname⟩
    · dsimp only
      rw [htable]
      exact h.sane

/-! ### The NORMAL worker -/

theorem MemberInv.restores (h : MemberInv env hist parcels m)
    (hp : ∀ parcel ∈ parcels, ParcelInv env hist parcel) {c : ClientCtx}
    (hc : c ∈ checkpoints m.server.nrl) {k : ℕ} (hk : parcelDone parcels c = some k) :
    k ≤ hist.length ∧
      Restores env m.server.store.files c (after env (cells (hashTableInit 0)) hist k) := by
  obtain ⟨parcel, hparcel, hfile⟩ := h.files c hc
  rw [parcelDone, hparcel, Option.bind_some] at hk
  obtain ⟨hle, hrestores⟩ := (hp parcel (List.mem_of_getElem? hparcel)).restores k hk
  exact ⟨hle, parcel.flight.file, hfile, hrestores⟩

theorem doneAfter_execute {c : ClientCtx} {s : Server} (m : Member) (parcels : List Parcel)
    (hexec : executeMsg env s c = .ok (t, effs)) :
    m.doneAfter parcels effs = if isChkPt c then parcelDone parcels c else m.copy.doneNext := by
  unfold Member.doneAfter
  rw [executeMsg_taken hexec]
  rfl

theorem copy_checkpoint {c : ClientCtx} {rest : List ClientCtx} (hlog : m.server.nrl = c :: rest)
    (hexec : executeMsg env { m.server with nrl := rest } c = .ok (t, effs)) (hc : isChkPt c = true) :
    Member.copy { m with server := t, done := m.doneAfter parcels effs } =
      m.copy.install (cells t.store.htable) (parcelDone parcels c) := by
  have hnrl : t.nrl = rest := (executeMsg_frame hexec).1
  simp only [Member.copy, Copy.install, doneAfter_execute m parcels hexec, if_pos hc, hnrl, hlog,
    ordinary_cons_checkpoint hc]

theorem copy_update {c : ClientCtx} {rest : List ClientCtx} (hlog : m.server.nrl = c :: rest)
    (hexec : executeMsg env { m.server with nrl := rest } c = .ok (t, effs)) (hc : isChkPt c = false)
    (hup : isUpdate c.req.msgType = true) :
    Member.copy { m with server := t, done := m.doneAfter parcels effs } =
      m.copy.applyNext (applyRequest env) := by
  have hnrl : t.nrl = rest := (executeMsg_frame hexec).1
  have hpend : m.copy.pend = c.req :: ordinary rest := by
    simp only [Member.copy, hlog, ordinary_cons_update hc]
  unfold Copy.applyNext
  rw [hpend]
  simp only [Member.copy, doneAfter_execute m parcels hexec, hc, hnrl, (executeMsg_update hexec hup).1]
  rfl

theorem memberInv_execute {c : ClientCtx} {rest : List ClientCtx} (hz : env.ZeroHeap)
    (h : MemberInv env hist parcels m) (hp : ∀ parcel ∈ parcels, ParcelInv env hist parcel)
    (hlog : m.server.nrl = c :: rest)
    (hexec : executeMsg env { m.server with nrl := rest } c = .ok (t, effs)) :
    MemberInv env hist parcels { m with server := t, done := m.doneAfter parcels effs } := by
  have hnrl : t.nrl = rest := (executeMsg_frame hexec).1
  have hsane := executeMsg_stable (sane_stable hz) hexec h.sane
  have hkinds : ∀ d ∈ t.nrl, isChkPt d = true ∨ isUpdate d.req.msgType = true := by
    intro d hd
    rw [hnrl] at hd
    exact h.kinds d (by rw [hlog]; exact List.mem_cons_of_mem _ hd)
  have hnames := h.names
  rw [hlog] at hnames
  cases hc : isChkPt c with
  | true =>
    have hchk : checkpoints m.server.nrl = c :: checkpoints rest := by
      rw [hlog]
      simp [checkpoints, hc]
    have hcons : checkpoints (c :: rest) = c :: checkpoints rest := by simp [checkpoints, hc]
    rw [hcons, List.map_cons, List.nodup_cons] at hnames
    refine ⟨?_, hkinds, ?_, ?_, hsane⟩
    · rw [copy_checkpoint hlog hexec hc]
      refine h.sound.install fun k hk => ?_
      obtain ⟨hle, hrestores⟩ := h.restores hp (by rw [hchk]; exact List.mem_cons_self ..) hk
      exact ⟨hle, (executeMsg_checkpoint hexec hc hrestores).1⟩
    · intro d hd
      have hd' : d ∈ checkpoints t.nrl := hd
      rw [hnrl] at hd'
      obtain ⟨parcel, hparcel, hfile⟩ := h.files d (by rw [hchk]; exact List.mem_cons_of_mem _ hd')
      refine ⟨parcel, hparcel, ?_⟩
      have hne : d.req.filename ≠ c.req.filename := by
        intro heq
        exact hnames.1 (List.mem_map.mpr ⟨d, hd', heq⟩)
      dsimp only
      rw [executeMsg_files hexec hc, Function.update_of_ne hne]
      exact hfile
    · dsimp only
      rw [hnrl]
      exact hnames.2
  | false =>
    have hup : isUpdate c.req.msgType = true := by
      rcases h.kinds c (by rw [hlog]; exact List.mem_cons_self ..) with hchk | hup
      · rw [hc] at hchk
        cases hchk
      · exact hup
    have hfiles := (executeMsg_update hexec hup).2
    have hchk : checkpoints t.nrl = checkpoints m.server.nrl := by
      rw [hnrl, hlog]
      simp [checkpoints, hc]
    refine ⟨?_, hkinds, ?_, ?_, hsane⟩
    · rw [copy_update hlog hexec hc hup]
      exact h.sound.applyNext
    · dsimp only
      rw [hchk, hfiles]
      exact h.files
    · dsimp only
      rw [hchk]
      exact h.names

theorem getLast?_checkpoints (log : List ClientCtx) :
    (((log.map fun c => (c, decide (c.req.msgType = .msgChkPt))).filter Prod.snd).getLast?).map
      Prod.fst = (checkpoints log).getLast? := by
  rw [← List.getLast?_map, List.filter_map, List.map_map]
  exact congrArg List.getLast? (List.map_id _)

theorem copy_prune (hloop : pruneLoop env m.server.nrl m.server = .ok (t, effs)) :
    Member.copy { m with server := t, done := m.doneAfter parcels effs } =
      match (checkpoints m.server.nrl).getLast? with
      | none => m.copy.drop
      | some c => (m.copy.install (cells t.store.htable) (parcelDone parcels c)).drop := by
  have hnil : t.nrl = [] := (pruneLoop_frame hloop rfl).1
  have hlast := getLast?_checkpoints m.server.nrl
  rw [← pruneLoop_taken hloop] at hlast
  cases hc : (checkpoints m.server.nrl).getLast? with
  | none =>
    rw [hc, Option.map_eq_none_iff] at hlast
    have hkept := pruneLoop_kept hloop (List.getLast?_eq_none_iff.mp hc)
    simp only [Member.copy, Copy.drop, Member.doneAfter, hlast, hnil, hkept]
    rfl
  | some c =>
    rw [hc, Option.map_eq_some_iff] at hlast
    obtain ⟨⟨c', b⟩, hmem, rfl⟩ := hlast
    have hchk : isChkPt c' = true := (List.mem_filter.mp (List.mem_of_getLast? hc)).2
    simp only [Member.copy, Copy.drop, Copy.install, Member.doneAfter, hmem, hnil, hchk, if_true]
    rfl

theorem memberInv_prune (hz : env.ZeroHeap) (h : MemberInv env hist parcels m)
    (hp : ∀ parcel ∈ parcels, ParcelInv env hist parcel)
    (hloop : pruneLoop env m.server.nrl m.server = .ok (t, effs)) :
    MemberInv env hist parcels { m with server := t, done := m.doneAfter parcels effs } := by
  have hnil : t.nrl = [] := (pruneLoop_frame hloop rfl).1
  refine ⟨?_, ?_, ?_, ?_, pruneLoop_stable (sane_stable hz) hloop h.sane⟩
  · rw [copy_prune hloop]
    cases hc : (checkpoints m.server.nrl).getLast? with
    | none => exact h.sound.drop
    | some c =>
      refine (h.sound.install fun k hk => ?_).drop
      obtain ⟨hle, hrestores⟩ := h.restores hp (List.mem_of_getLast? hc) hk
      exact ⟨hle, pruneLoop_last hloop hc h.names hrestores⟩
  · dsimp only
    rw [hnil]
    exact fun d hd => absurd hd List.not_mem_nil
  · dsimp only
    rw [hnil]
    exact fun d hd => absurd hd List.not_mem_nil
  · dsimp only
    rw [hnil]
    exact List.nodup_nil

theorem memberInv_normal (hz : env.ZeroHeap) (h : MemberInv env hist parcels m)
    (hp : ∀ parcel ∈ parcels, ParcelInv env hist parcel)
    (hrun : runNormal env m.server = .ok (t, effs)) :
    MemberInv env hist parcels { m with server := t, done := m.doneAfter parcels effs } := by
  rcases runNormal_cases hrun with ⟨-, hturn⟩ | ⟨-, u, hloop, ht⟩
  · rcases normalTurn_cases hturn with ⟨rfl, rfl | ⟨-, rfl⟩⟩ | ⟨c, rest, hlog, -, hexec⟩
    · exact h.frame rfl rfl (List.prefix_refl _)
    · exact h.frame rfl rfl (List.prefix_refl _)
    · exact memberInv_execute hz h hp hlog hexec
  · have hu := memberInv_prune hz h hp hloop
    rcases ht with rfl | ⟨-, rfl⟩
    · exact hu
    · exact hu.frame (t := promoted u) rfl rfl (List.prefix_refl _)

/-! ### Exports -/

theorem parcelInv_export (h : MemberInv env hist parcels m) (hclean : ∀ req ∈ hist, CleanRequest req)
    (hsend : ∀ fl ∈ flightOf (m.done.getD 0) effs,
      fl.covers = m.done.getD 0 ∧ exportDbInternal env m.server.store.htable = .ok fl.file)
    (r : Replica) : ∀ parcel ∈ m.exports r effs, ParcelInv env hist parcel := by
  intro parcel hparcel
  obtain ⟨fl, hfl, hmem⟩ := List.mem_flatMap.mp hparcel
  obtain ⟨-, hfile⟩ := hsend fl hfl
  have hsame : parcel.flight = fl ∧ parcel.done = m.done := by
    simp only [List.mem_cons, List.not_mem_nil, or_false] at hmem
    rcases hmem with rfl | rfl
    · exact ⟨rfl, rfl⟩
    · exact ⟨rfl, rfl⟩
  rw [← hsame.1] at hfile
  refine ⟨exportDbInternal_ne_nil hfile, fun k hk => ?_⟩
  rw [hsame.2] at hk
  obtain ⟨hle, hstate⟩ := h.sound.done k hk
  refine ⟨hle, fun t₀ => ?_⟩
  have hcells : CleanCells (cells m.server.store.htable) := by
    have hexec : CleanCells m.copy.state := by
      rw [hstate]
      exact cleanCells_exec (fun req hreq => hclean req (List.mem_of_mem_take hreq)) cleanCells_init
    exact hexec
  have hgood : GoodTable m.server.store.htable :=
    ⟨h.sane.inv, h.sane.tail, checkpointable_of_cells hcells⟩
  obtain ⟨u, hu, hsameCells⟩ := import_restores hgood hfile t₀
  exact ⟨u, hu, hsameCells.trans hstate⟩

end

/-! ### One step, and runs -/

section
variable {env : Env} {g g' : ReplicaGroup}

theorem GroupInv.set (h : GroupInv env g) {r : Replica} {m : Member}
    (hm : MemberInv env g.hist g.parcels m) : GroupInv env (g.set r m) := by
  refine ⟨h.clean, h.parcels, fun r' => ?_⟩
  by_cases hr : r' = r
  · subst hr
    simp only [ReplicaGroup.set, Function.update_self]
    exact hm
  · simp only [ReplicaGroup.set, Function.update_of_ne hr]
    exact h.member r'

theorem GroupInv.send (h : GroupInv env g) {more : List Parcel}
    (hmore : ∀ parcel ∈ more, ParcelInv env g.hist parcel) :
    GroupInv env { g with parcels := g.parcels ++ more } := by
  refine ⟨h.clean, ?_, fun r => (h.member r).frame rfl rfl (List.prefix_append ..)⟩
  intro parcel hparcel
  rcases List.mem_append.mp hparcel with hold | hnew
  · exact h.parcels parcel hold
  · exact hmore parcel hnew

theorem GroupInv.export (h : GroupInv env g) {r : Replica} {t : Server} {effs : List Effect}
    (hnrl : t.nrl = (g.member r).server.nrl) (hstore : t.store = (g.member r).server.store)
    (hsend : ∀ n, ∀ fl ∈ flightOf n effs, fl.covers = n ∧
      exportDbInternal env (g.member r).server.store.htable = .ok fl.file) :
    GroupInv env { g.set r { g.member r with server := t } with
      parcels := g.parcels ++ (g.member r).exports r effs } :=
  (h.set ((h.member r).frame hnrl hstore (List.prefix_refl _))).send
    (parcelInv_export (h.member r) h.clean (hsend _) r)

theorem groupStep_inv (hz : env.ZeroHeap) {e : GroupEvent} (h : GroupInv env g) (hfit : FitGroup g e)
    (hstep : groupStep env g e = some g') : GroupInv env g' := by
  cases e with
  | issue req =>
    rw [groupStep] at hstep
    split at hstep
    · cases hstep
      refine ⟨?_, fun parcel hp => (h.parcels parcel hp).issue req, fun r => (h.member r).issue req⟩
      intro r hr
      rcases List.mem_append.mp hr with hr | hr
      · exact h.clean r hr
      · rw [List.mem_singleton.mp hr]
        exact hfit
    · cases hstep
  | recv r ctx =>
    simp only [groupStep] at hstep
    split at hstep
    · cases hstep
    · rename_i req hreq
      split at hstep
      · rename_i hroom
        obtain ⟨⟨t, effs⟩, hconn, rfl⟩ := StepRun.toOption_map_eq_some hstep
        exact h.set (memberInv_recv (h.member r) (h.clean req (List.mem_of_getElem? hreq)) hreq hroom
          hconn)
      · cases hstep
  | command r ctx =>
    simp only [groupStep] at hstep
    split at hstep
    · rename_i hcmd
      obtain ⟨⟨t, effs⟩, hconn, rfl⟩ := StepRun.toOption_map_eq_some hstep
      obtain ⟨hnrl, hstore, -⟩ := handleConnection_command hcmd hconn
      exact h.set ((h.member r).frame hnrl hstore (List.prefix_refl _))
    · cases hstep
  | normal r =>
    obtain ⟨⟨t, effs⟩, hrun, rfl⟩ := StepRun.toOption_map_eq_some hstep
    exact h.set (memberInv_normal hz (h.member r) h.parcels hrun)
  | control r =>
    obtain ⟨⟨t, effs⟩, hrun, rfl⟩ := StepRun.toOption_map_eq_some hstep
    obtain ⟨hnrl, hstore, -, hsend⟩ := runControl_frame hrun
    exact h.export hnrl hstore hsend
  | chkptThread r =>
    obtain ⟨⟨t, effs⟩, hrun, rfl⟩ := StepRun.toOption_map_eq_some hstep
    obtain ⟨hnrl, hstore, -, hsend⟩ := chkptThread_frame hrun
    exact h.export hnrl hstore hsend
  | arrive i rand fd =>
    rw [groupStep] at hstep
    split at hstep
    · cases hstep
    · split at hstep
      · cases hstep
      · rename_i parcel hparcel
        obtain ⟨⟨t, effs⟩, hconn, rfl⟩ := StepRun.toOption_map_eq_some hstep
        obtain ⟨-, hname⟩ := hfit parcel (Option.mem_def.mpr hparcel)
        have hne := (h.parcels parcel (List.mem_of_getElem? hparcel)).file_ne
        have hset := h.set (r := parcel.target)
          (memberInv_arrive (h.member parcel.target) hparcel hne hname hconn)
        exact ⟨hset.clean, hset.parcels, hset.member⟩
  | restart r got =>
    rw [groupStep] at hstep
    split at hstep
    · rename_i hgot
      cases hstep
      exact h.set (memberInv_start env g.parcels r.val hgot.2)
    · cases hstep

theorem groupInv_init (env : Env) : GroupInv env initGroup :=
  ⟨fun _ h => absurd h List.not_mem_nil, fun _ h => absurd h List.not_mem_nil,
    fun r => memberInv_start env [] r.val (Nat.zero_le _)⟩

theorem groupRun_inv (hz : env.ZeroHeap) {es : List GroupEvent}
    (hfit : AllSteps (groupStep env) FitGroup initGroup es)
    (hrun : run (groupStep env) initGroup es = some g) : GroupInv env g :=
  run_invariant (fun _ _ _ hI hC hstep => groupStep_inv hz hI hC hstep) (groupInv_init env) hfit hrun

/-- A replica whose table is known to stand for `k` requests holds what a fresh
server makes of them. -/
theorem GroupInv.table (h : GroupInv env g) (r : Replica) {k : ℕ}
    (hk : (g.member r).done = some k) : ∃ u, runRequests env storageInit (g.hist.take k) = .ok u ∧
      ∀ key, entriesOf (g.member r).server.store.htable key = entriesOf u.htable key := by
  obtain ⟨u, hu, hcells⟩ := runRequests_clean env storageInit _
    fun req hreq => h.clean req (List.mem_of_mem_take hreq)
  obtain ⟨-, hstate⟩ := (h.member r).sound.done k hk
  exact ⟨u, hu, entriesOf_eq (hstate.trans hcells.symm)⟩

end

/-! ### Staying in turn -/

/-- The checkpoint the next iteration of the NORMAL worker ends on is one of
everything the replica has got but the requests behind it; a prune pass without
a checkpoint has nothing to drop. -/
def Member.Aligned (m : Member) (parcels : List Parcel) : Prop :=
  if m.server.isPrune then
    match (checkpoints m.server.nrl).getLast? with
    | none => m.server.nrl = []
    | some c => parcelDone parcels c = some m.got
  else
    match m.server.nrl with
    | [] => True
    | c :: rest => isChkPt c = true → isPassiveBackup m.server = false → m.server.state ≠ .quiesce →
        (parcelDone parcels c).map (· + (ordinary rest).length) = some m.got

instance decidableMemberAligned (m : Member) (parcels : List Parcel) : Decidable (m.Aligned parcels) :=
  if h : m.server.isPrune = true then
    match hc : (checkpoints m.server.nrl).getLast? with
    | none => decidable_of_iff (m.server.nrl = []) (by simp [Member.Aligned, h, hc])
    | some c => decidable_of_iff (parcelDone parcels c = some m.got) (by simp [Member.Aligned, h, hc])
  else
    match hn : m.server.nrl with
    | [] => isTrue (by simp [Member.Aligned, h, hn])
    | c :: rest => decidable_of_iff (isChkPt c = true → isPassiveBackup m.server = false →
        m.server.state ≠ .quiesce →
          (parcelDone parcels c).map (· + (ordinary rest).length) = some m.got)
        (by simp [Member.Aligned, h, hn])

/-- What a step needs for `r` to stay in turn. -/
def KeepsTurn (r : Replica) (g : ReplicaGroup) : GroupEvent → Prop
  | .normal r' => r' = r → (g.member r).Aligned g.parcels
  | .restart r' _ => r' ≠ r
  | _ => True

instance decidableKeepsTurn (r : Replica) (g : ReplicaGroup) : ∀ e, Decidable (KeepsTurn r g e)
  | .normal r' => inferInstanceAs (Decidable (r' = r → (g.member r).Aligned g.parcels))
  | .restart r' _ => inferInstanceAs (Decidable (r' ≠ r))
  | .issue _ => isTrue trivial
  | .recv .. => isTrue trivial
  | .command .. => isTrue trivial
  | .control _ => isTrue trivial
  | .chkptThread _ => isTrue trivial
  | .arrive .. => isTrue trivial

section
variable {env : Env} {hist : List ClientRequest} {parcels : List Parcel} {m : Member} {t : Server}
  {effs : List Effect}

end

section
variable {env : Env} {g g' : ReplicaGroup} {r : Replica}

/-- `FitGroup`, and what `r` needs to stay in turn. -/
def FitTurn (r : Replica) (g : ReplicaGroup) (e : GroupEvent) : Prop := FitGroup g e ∧ KeepsTurn r g e

instance decidableFitTurn (r : Replica) (g : ReplicaGroup) (e : GroupEvent) :
    Decidable (FitTurn r g e) := inferInstanceAs (Decidable (FitGroup g e ∧ KeepsTurn r g e))

end

/-! ### Main results -/

theorem group_tables (env : Env) (hz : env.ZeroHeap) (es : List GroupEvent) (g : ReplicaGroup)
    (hrun : run (groupStep env) initGroup es = some g)
    (hfit : AllSteps (groupStep env) FitGroup initGroup es) (r : Replica) (k : ℕ)
    (hk : (g.member r).done = some k) : ∃ u, runRequests env storageInit (g.hist.take k) = .ok u ∧
      ∀ key, entriesOf (g.member r).server.store.htable key = entriesOf u.htable key :=
  (groupRun_inv hz hfit hrun).table r hk

def become (r : Replica) (state : ServerStates) : List GroupEvent :=
  [.command r { fd := 6, req := roleCommand .passiveRep state }, .control r]

def passiveStartup : List GroupEvent :=
  become 0 .passivePreprimary ++ become 1 .passiveBackup ++ become 2 .passiveBackup ++ [.normal 0]

/-- The primary executes a request and sends its table to both backups. -/
def milkEverywhere : List GroupEvent :=
  [.issue (addRequest (ascii "buy milk")), .recv 0 { fd := 4 }, .recv 1 { fd := 4 },
    .recv 2 { fd := 4 }, .normal 0, .chkptThread 0, .arrive 0 1 5, .arrive 1 1 5, .normal 1, .normal 2]

/-- The primary ends and is started again with nothing. Replica 1 takes over, and
its checkpoint brings the restarted one up to date. -/
def firstFailover : List GroupEvent :=
  [.restart 0 1] ++ become 0 .passiveBackup ++ become 1 .passivePreprimary ++
    [.normal 1, .issue (addRequest (ascii "buy tea")), .recv 0 { fd := 4 }, .recv 1 { fd := 4 },
      .normal 1, .chkptThread 1, .arrive 2 1 5, .normal 0]

def secondFailover : List GroupEvent :=
  [.restart 1 2] ++ become 0 .passivePreprimary ++
    [.normal 0, .issue (removeRequest milkKey), .recv 0 { fd := 4 }, .normal 0]

def twoFailovers : List GroupEvent :=
  passiveStartup ++ milkEverywhere ++ firstFailover ++ secondFailover

theorem group_tables_twoFailovers :
    ∃ g, run (groupStep milkEnv) initGroup twoFailovers = some g ∧
      ∃ u, runRequests milkEnv storageInit (g.hist.take 3) = .ok u ∧
        ∀ key, entriesOf (g.member 0).server.store.htable key = entriesOf u.htable key := by
  have hend : (run (groupStep milkEnv) initGroup twoFailovers).any
      (fun g => (g.member 0).done = some 3) = true := by decide +kernel
  have hfit : AllSteps (groupStep milkEnv) FitGroup initGroup twoFailovers := by decide +kernel
  obtain ⟨g, hrun, hdone⟩ := (Option.any_eq_true _ _).mp hend
  exact ⟨g, hrun, group_tables milkEnv (fun _ => rfl) twoFailovers g hrun hfit 0 3
    (of_decide_eq_true hdone)⟩

end ToDoList
