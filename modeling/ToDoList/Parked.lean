import ToDoList.Delivery
import ToDoList.Pair

/-!
# Payloads parked in temporary files

A connection thread writes the payload of its request to the file `tmp-<n>`,
with `n` the low 32 bits of `rand() * server_id`, and the worker imports and
removes that file when it gets to the request. Nothing keeps two names apart:
a server with id 0 has one name for all. As long as every payload arrives
under a name that no pending checkpoint has, each checkpoint imports its own.
-/

namespace ToDoList
open CLib

/-- Every pending checkpoint has a file of its own that holds its payload. -/
structure Parked (log : List ClientCtx) (files : Bytes → Option Bytes) : Prop where
  own : ∀ c ∈ checkpoints log, files c.req.filename = some c.req.payload.data
  distinct : ((checkpoints log).map fun c => c.req.filename).Nodup

/-- The arriving payload gets a name no pending checkpoint has, and a checkpoint
has a payload. -/
def FreshFile (s : Server) : ServerEvent → Prop
  | .connection rand ctx =>
    (ctx.req.msgType = .msgChkPt → ctx.req.payload.size ≠ 0) ∧
      (ctx.req.payload.size ≠ 0 → ∀ c ∈ checkpoints s.nrl, c.req.filename ≠ tmpName s rand)
  | _ => True

/-- Every checkpoint the iteration hands to `handle_storage` finds its payload
in its file. -/
def ImportsOwn (env : Env) (s : Server) : ServerEvent → Prop
  | .normal => ∀ p ∈ hdlNrlCalls env s, isChkPt p.2 = true →
      p.1.store.files p.2.req.filename = some p.2.req.payload.data
  | _ => True

/-! ### Taking a request from the log -/

theorem isChkPt_iff (c : ClientCtx) : isChkPt c = true ↔ c.req.msgType = .msgChkPt := by
  simp [isChkPt]

theorem checkpoints_cons (c : ClientCtx) (rest : List ClientCtx) :
    checkpoints (c :: rest) = if isChkPt c then c :: checkpoints rest else checkpoints rest := by
  simp [checkpoints, List.filter_cons]

theorem Parked.tail {c : ClientCtx} {rest : List ClientCtx} {files : Bytes → Option Bytes}
    (h : Parked (c :: rest) files) : Parked rest files := by
  obtain ⟨hown, hdistinct⟩ := h
  rw [checkpoints_cons] at hown hdistinct
  split at hown
  · rename_i hc
    rw [if_pos hc, List.map_cons, List.nodup_cons] at hdistinct
    exact ⟨fun d hd => hown d (List.mem_cons_of_mem _ hd), hdistinct.2⟩
  · rename_i hc
    rw [if_neg hc] at hdistinct
    exact ⟨hown, hdistinct⟩

theorem Parked.head {c : ClientCtx} {rest : List ClientCtx} {files : Bytes → Option Bytes}
    (h : Parked (c :: rest) files) (hc : isChkPt c = true) :
    files c.req.filename = some c.req.payload.data := by
  apply h.own
  rw [checkpoints_cons, if_pos hc]
  exact List.mem_cons_self ..

theorem Parked.remove {c : ClientCtx} {rest : List ClientCtx} {files : Bytes → Option Bytes}
    (h : Parked (c :: rest) files) (hc : isChkPt c = true) :
    Parked rest (Function.update files c.req.filename none) := by
  have hdistinct := h.distinct
  rw [checkpoints_cons, if_pos hc, List.map_cons, List.nodup_cons] at hdistinct
  refine ⟨fun d hd => ?_, hdistinct.2⟩
  have hne : d.req.filename ≠ c.req.filename := by
    intro heq
    exact hdistinct.1 (List.mem_map.mpr ⟨d, hd, heq⟩)
  rw [Function.update_of_ne hne]
  exact h.tail.own d hd

theorem executeMsg_parked {env : Env} {s t : Server} {c : ClientCtx} {rest : List ClientCtx}
    {effs : List Effect} (hexec : executeMsg env s c = .ok (t, effs))
    (h : Parked (c :: rest) s.store.files) : Parked rest t.store.files := by
  obtain ⟨ret, store, ctx', fail, hh, ht, -, -⟩ := executeMsg_cases hexec
  have hfiles := handleStorage_files hh
  have hstore : t.store.files = store.files := by
    rcases ht with rfl | ⟨-, -, rfl⟩
    · rfl
    · rfl
  rw [hstore, hfiles]
  split
  · rename_i htype
    exact h.remove ((isChkPt_iff c).mpr htype)
  · exact h.tail

theorem pruneCalls_own (env : Env) (log : List ClientCtx) (s : Server)
    (h : Parked log s.store.files) :
    ∀ p ∈ pruneCalls env log s, isChkPt p.2 = true →
      p.1.store.files p.2.req.filename = some p.2.req.payload.data := by
  refine pruneCalls_forall (I := fun log s => Parked log s.store.files) ?_ ?_ ?_ log s h
  · intro c rest s h
    exact Parked.tail h
  · intro c rest s t effs h hexec
    exact executeMsg_parked hexec h
  · intro c rest s h hchk
    exact Parked.head h hchk

theorem importsOwn_of_parked (env : Env) (s : Server) (e : ServerEvent)
    (h : Parked s.nrl s.store.files) : ImportsOwn env s e := by
  cases e with
  | normal =>
    show ∀ p ∈ hdlNrlCalls env s, _
    unfold hdlNrlCalls
    split
    · exact pruneCalls_own env s.nrl s h
    · intro p hp hchk
      rcases turnCalls_cases s with hcalls | ⟨ctx, rest, hlog, -, -, hcalls⟩
      · rw [hcalls] at hp
        exact absurd hp List.not_mem_nil
      · rw [hcalls] at hp
        obtain rfl := List.mem_singleton.mp hp
        rw [hlog] at h
        exact h.head hchk
  | connection rand ctx => trivial
  | reject ctx msg => trivial
  | control => trivial
  | chkptThread => trivial

theorem runNormal_parked {env : Env} {s t : Server} {effs : List Effect}
    (h : Parked s.nrl s.store.files) (hrun : runNormal env s = .ok (t, effs)) :
    Parked t.nrl t.store.files := by
  rcases runNormal_cases hrun with ⟨-, hturn⟩ | ⟨-, u, hloop, ht⟩
  · rcases normalTurn_cases hturn with ⟨-, rfl | ⟨-, rfl⟩⟩ | ⟨c, rest, hlog, -, hexec⟩
    · exact h
    · exact h
    · rw [hlog] at h
      rw [(executeMsg_frame hexec).1]
      exact executeMsg_parked hexec h
  · have hnil : t.nrl = [] := by
      rcases ht with rfl | ⟨-, rfl⟩
      · exact (pruneLoop_frame hloop rfl).1
      · exact (pruneLoop_frame hloop rfl).1
    rw [hnil]
    exact ⟨fun d hd => absurd hd List.not_mem_nil, List.nodup_nil⟩

/-! ### Parking a payload -/

theorem parked_update {log : List ClientCtx} {files : Bytes → Option Bytes} {name data : Bytes}
    (h : Parked log files) (hfresh : ∀ c ∈ checkpoints log, c.req.filename ≠ name) :
    Parked log (Function.update files name (some data)) := by
  refine ⟨fun c hc => ?_, h.distinct⟩
  rw [Function.update_of_ne (hfresh c hc)]
  exact h.own c hc

theorem parked_snoc {log : List ClientCtx} {files : Bytes → Option Bytes} {c : ClientCtx}
    (h : Parked log files)
    (hc : isChkPt c = true → files c.req.filename = some c.req.payload.data ∧
      ∀ d ∈ checkpoints log, d.req.filename ≠ c.req.filename) :
    Parked (log ++ [c]) files := by
  have happ : checkpoints (log ++ [c]) = checkpoints log ++ if isChkPt c then [c] else [] := by
    rw [checkpoints, List.filter_append, List.filter_singleton]
    split <;> simp_all [checkpoints]
  by_cases hchk : isChkPt c = true
  · obtain ⟨hfile, hne⟩ := hc hchk
    rw [if_pos hchk] at happ
    constructor
    · intro d hd
      rw [happ] at hd
      rcases List.mem_append.mp hd with hd | hd
      · exact h.own d hd
      · rw [List.mem_singleton.mp hd]
        exact hfile
    · rw [happ, List.map_append, List.nodup_append]
      refine ⟨h.distinct, List.nodup_singleton _, ?_⟩
      intro a ha b hb
      obtain ⟨d, hd, rfl⟩ := List.mem_map.mp ha
      rw [List.mem_singleton.mp hb]
      exact hne d hd
  · rw [if_neg hchk, List.append_nil] at happ
    exact ⟨by rw [happ]; exact h.own, by rw [happ]; exact h.distinct⟩

theorem parkPayload_parked {s u : Server} {rand : ℕ} {ctx ctx' : ClientCtx}
    (h : Parked s.nrl s.store.files) (hfresh : FreshFile s (.connection rand ctx))
    (hpark : parkPayload s rand ctx = (u, ctx')) :
    Parked u.nrl u.store.files ∧ (isChkPt ctx' = true →
      u.store.files ctx'.req.filename = some ctx'.req.payload.data ∧
        ∀ d ∈ checkpoints u.nrl, d.req.filename ≠ ctx'.req.filename) := by
  rcases parkPayload_cases s rand ctx with ⟨hsize, hp⟩ | ⟨hsize, hp⟩
  · rw [hp] at hpark
    cases hpark
    exact ⟨h, fun hc => absurd hsize (hfresh.1 ((isChkPt_iff ctx).mp hc))⟩
  · rw [hp] at hpark
    cases hpark
    refine ⟨parked_update h (hfresh.2 hsize), fun _ => ⟨?_, hfresh.2 hsize⟩⟩
    exact Function.update_self ..

theorem handleConnection_parked {s t : Server} {rand : ℕ} {ctx : ClientCtx} {effs : List Effect}
    (h : Parked s.nrl s.store.files) (hfresh : FreshFile s (.connection rand ctx))
    (hstep : handleConnection s rand ctx = .ok (t, effs)) : Parked t.nrl t.store.files := by
  obtain ⟨u, ctx', hpark⟩ : ∃ u ctx', parkPayload s rand ctx = (u, ctx') := ⟨_, _, rfl⟩
  obtain ⟨hu, hnew⟩ := parkPayload_parked h hfresh hpark
  rcases handleConnection_cases hpark hstep with ⟨-, ⟨ret, hquiesce⟩, -⟩ | ⟨-, rfl, -⟩
  · obtain ⟨_, _, _, rfl⟩ := handleQuiesceCommand_cases hquiesce
    exact hu
  · rcases enqueueClientReq_cases u ctx' with ⟨-, he⟩ | ⟨-, -, he⟩ | ⟨-, -, he⟩
    · rw [he]
      exact hu
    · rw [he]
      exact hu
    · rw [he]
      exact parked_snoc hu hnew

theorem serverNext_parked {env : Env} {s t : Server} {e : ServerEvent}
    (h : Parked s.nrl s.store.files) (hfresh : FreshFile s e) (hstep : serverNext env s e = some t) :
    Parked t.nrl t.store.files := by
  obtain ⟨effs, hs⟩ := serverNext_eq_some hstep
  cases e with
  | connection rand ctx => exact handleConnection_parked h hfresh hs
  | reject ctx msg =>
    cases hs
    exact h
  | normal => exact runNormal_parked h hs
  | control =>
    rcases runControl_cases hs with ⟨-, rfl, -⟩ | ⟨ctx, rest, -, hexec⟩
    · exact h
    · obtain ⟨hnrl, -, -, hstore⟩ := executeMsgCtrl_frame hexec
      rw [hnrl, hstore]
      exact h
  | chkptThread =>
    obtain ⟨n, rfl⟩ := chkptThread_cases hs
    exact h

/-! ### Runs -/

/-- In every run in which a payload never arrives under the name of a pending
checkpoint, the pending checkpoints have files of their own and each executed
one imports its payload. -/
theorem checkpoints_import_own_payload (env : Env) (serverId : ℤ) (es : List ServerEvent)
    (hfresh : StepRun.AllSteps (serverNext env) FreshFile (bootServer serverId) es) :
    StepRun.AllSteps (serverNext env) (fun s e => Parked s.nrl s.store.files ∧ ImportsOwn env s e)
      (bootServer serverId) es := by
  have hstart : Parked (bootServer serverId).nrl (bootServer serverId).store.files :=
    ⟨fun c hc => absurd hc List.not_mem_nil, List.nodup_nil⟩
  exact StepRun.allSteps_of_invariant (I := fun s => Parked s.nrl s.store.files)
    (fun s e t hs he hstep => serverNext_parked hs he hstep)
    (fun s e hs _ => ⟨hs, importsOwn_of_parked env s e hs⟩) hstart hfresh

/-- A checkpoint file with no entry, and one with a line that is skipped. -/
def emptyFile : Bytes := ascii "FILE_END\n"
def skippedLine : Bytes := ascii "\r\nFILE_END\n"

def twoCheckpoints : List ServerEvent :=
  [.connection 1 { fd := 4, req := checkpointRequest 0 emptyFile },
    .connection 2 { fd := 5, req := checkpointRequest 1 skippedLine }, .normal]

instance decidableFreshFile (s : Server) (e : ServerEvent) : Decidable (FreshFile s e) :=
  match e with
  | .connection rand ctx => inferInstanceAs (Decidable
      ((ctx.req.msgType = .msgChkPt → ctx.req.payload.size ≠ 0) ∧
        (ctx.req.payload.size ≠ 0 → ∀ c ∈ checkpoints s.nrl, c.req.filename ≠ tmpName s rand)))
  | .reject _ _ => isTrue trivial
  | .normal => isTrue trivial
  | .control => isTrue trivial
  | .chkptThread => isTrue trivial

instance decidableImportsOwn (env : Env) (s : Server) (e : ServerEvent) :
    Decidable (ImportsOwn env s e) :=
  match e with
  | .normal => inferInstanceAs (Decidable (∀ p ∈ hdlNrlCalls env s, isChkPt p.2 = true →
      p.1.store.files p.2.req.filename = some p.2.req.payload.data))
  | .connection _ _ => isTrue trivial
  | .reject _ _ => isTrue trivial
  | .control => isTrue trivial
  | .chkptThread => isTrue trivial

theorem checkpoints_import_own_payload_twoCheckpoints :
    StepRun.AllSteps (serverNext (zeroEnv fun _ => none))
      (fun s e => Parked s.nrl s.store.files ∧ ImportsOwn (zeroEnv fun _ => none) s e)
      (bootServer 1) twoCheckpoints :=
  checkpoints_import_own_payload _ 1 twoCheckpoints (by decide +kernel)

/-- On the server with id 0 the second of two checkpoints overwrites the file
of the first: the first imports the payload of the second and leaves it none. -/
theorem checkpoints_share_a_file :
    ∃ s t, StepRun.run (serverNext (zeroEnv fun _ => none)) (bootServer 0) (twoCheckpoints.take 2) = some s ∧
      ¬ImportsOwn (zeroEnv fun _ => none) s .normal ∧
      serverNext (zeroEnv fun _ => none) s .normal = some t ∧
      ¬ImportsOwn (zeroEnv fun _ => none) t .normal := by
  have hend : (StepRun.run (serverNext (zeroEnv fun _ => none)) (bootServer 0) (twoCheckpoints.take 2)).any
      (fun s => ¬ImportsOwn (zeroEnv fun _ => none) s .normal ∧
        (serverNext (zeroEnv fun _ => none) s .normal).any
          (fun t => ¬ImportsOwn (zeroEnv fun _ => none) t .normal) = true) = true := by decide +kernel
  obtain ⟨s, hrun, hs⟩ := (Option.any_eq_true _ _).mp hend
  obtain ⟨hfirst, hnext⟩ := of_decide_eq_true hs
  obtain ⟨t, hstep, ht⟩ := (Option.any_eq_true _ _).mp hnext
  exact ⟨s, t, hrun, hfirst, hstep, of_decide_eq_true ht⟩

end ToDoList
