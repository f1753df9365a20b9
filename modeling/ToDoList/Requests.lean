import ToDoList.RoundTrip
import ToDoList.CLib.Replay

/-!
# Add and remove requests on the queues of a table

`applyRequest` is what a `MSG_ADD` or `MSG_REMOVE` does to the per-key queues;
it does not depend on the heap. `handle_storage` refines it, and so does a
whole sequence of requests.
-/

namespace ToDoList
open CLib KeyedMachine

abbrev Cells := Fin hashTableLen × UInt64 → List Entry

/-- The key `generate_key` returns when its copy stays inside the buffer. -/
def requestKey (env : Env) (req : ClientRequest) : UInt64 :=
  (env.sha1 (req.task.toList.take (req.taskLen.toNat + 5))).getD (0 - 1)

theorem generateKey_eq_ok {env : Env} {req : ClientRequest} {client : ℤ} {k : UInt64} :
    generateKey env req.task client req.taskLen = .ok k ↔
      5 + req.taskLen.toNat ≤ taskLength ∧ requestKey env req = k := by
  unfold generateKey
  constructor
  · intro h
    split at h
    · rename_i hlen
      cases h
      exact ⟨hlen, rfl⟩
    · cases h
  · rintro ⟨hlen, rfl⟩
    rw [if_pos hlen]
    rfl

def requestCall (env : Env) (req : ClientRequest) : Option Call :=
  match req.msgType with
  | .msgAdd => some (.insert (requestKey env req) req.task.toList req.taskLen)
  | .msgRemove => some (.delete req.hashKey)
  | _ => none

theorem requestCall_cases {env : Env} {req : ClientRequest} {c : Call}
    (h : requestCall env req = some c) :
    (req.msgType = .msgAdd ∧ c = .insert (requestKey env req) req.task.toList req.taskLen) ∨
      (req.msgType = .msgRemove ∧ c = .delete req.hashKey) := by
  cases htype : req.msgType with
  | msgAdd =>
    rw [requestCall, htype] at h
    exact Or.inl ⟨rfl, (Option.some.inj h).symm⟩
  | msgRemove =>
    rw [requestCall, htype] at h
    exact Or.inr ⟨rfl, (Option.some.inj h).symm⟩
  | _ =>
    rw [requestCall, htype] at h
    cases h

def applyRequest (env : Env) (q : Cells) (req : ClientRequest) : Cells :=
  match requestCall env req with
  | none => q
  | some c => step tableMachine q c

theorem run_delete {env : Env} {t u : HTable} {key : UInt64} {ret : ℤ}
    (h : (Call.delete key).run env t = .ok (ret, u)) : u = (hashTableDelete t key).2 :=
  (congrArg Prod.snd (Except.ok.inj h)).symm

def isUpdate (type : MsgType) : Bool := type = .msgAdd || type = .msgRemove

theorem isUpdate_cases {type : MsgType} (h : isUpdate type = true) :
    type = .msgAdd ∨ type = .msgRemove := by
  simpa [isUpdate] using h

theorem handleStorage_update {env : Env} {s u : Store} {ctx ctx' : ClientCtx} {ret : ℤ}
    (htype : isUpdate ctx.req.msgType = true) (h : handleStorage env s ctx = .ok (ret, u, ctx')) :
    ∃ c, requestCall env ctx.req = some c ∧ c.run env s.htable = .ok (ret, u.htable) ∧
      u.files = s.files := by
  unfold handleStorage at h
  dsimp only at h
  rcases isUpdate_cases htype with hadd | hrem
  · simp only [hadd] at h
    unfold generateKey at h
    split at h
    · cases h
    · rename_i key hkey
      split at hkey
      · cases hkey
        split at h
        · cases h
        · rename_i ret' t hins
          cases h
          exact ⟨.insert (requestKey env ctx.req) ctx.req.task.toList ctx.req.taskLen,
            by rw [requestCall, hadd], hins, rfl⟩
      · cases hkey
  · simp only [hrem] at h
    cases h
    exact ⟨_, by rw [requestCall, hrem], rfl, rfl⟩

theorem run_call_cells {env : Env} {t u : HTable} {c : Call} {ret : ℤ}
    (h : c.run env t = .ok (ret, u)) : cells u = step tableMachine (cells t) c := by
  by_cases hb : c.InBounds
  · obtain ⟨r, v, hv, href⟩ := run_call_refines env t c hb
    rw [h] at hv
    cases hv
    exact href.cells
  · rw [run_call_fault env t c hb] at h
    cases h

theorem handleStorage_cells {env : Env} {s u : Store} {ctx ctx' : ClientCtx} {ret : ℤ}
    (htype : isUpdate ctx.req.msgType = true) (h : handleStorage env s ctx = .ok (ret, u, ctx')) :
    cells u.htable = applyRequest env (cells s.htable) ctx.req ∧ u.files = s.files := by
  obtain ⟨c, hc, hrun, hfiles⟩ := handleStorage_update htype h
  refine ⟨?_, hfiles⟩
  rw [applyRequest, hc]
  exact run_call_cells hrun

/-- The copies of an add request stay inside their buffers. -/
def Executable (req : ClientRequest) : Prop :=
  req.msgType = .msgAdd → 5 + req.taskLen.toNat ≤ taskLength

theorem executable_of_returns {env : Env} {s u : Store} {ctx ctx' : ClientCtx} {ret : ℤ}
    (h : handleStorage env s ctx = .ok (ret, u, ctx')) : Executable ctx.req := by
  intro hadd
  unfold handleStorage at h
  simp only [hadd] at h
  unfold generateKey at h
  split at h
  · cases h
  · rename_i key hkey
    split at hkey
    · assumption
    · cases hkey

theorem handleStorage_returns (env : Env) (s : Store) {ctx : ClientCtx}
    (hup : isUpdate ctx.req.msgType = true) (h : Executable ctx.req) :
    ∃ ret u ctx', handleStorage env s ctx = .ok (ret, u, ctx') := by
  rcases isUpdate_cases hup with hadd | hrem
  · have hlen := h hadd
    have hkey : generateKey env ctx.req.task ctx.clientId ctx.req.taskLen =
        .ok (requestKey env ctx.req) := generateKey_eq_ok.mpr ⟨hlen, rfl⟩
    have hb : (Call.insert (requestKey env ctx.req) ctx.req.task.toList ctx.req.taskLen).InBounds := by
      simp only [taskLength] at hlen
      refine Or.inr ⟨by simp only [maxDataLen]; omega, ?_⟩
      rw [List.Vector.toList_length]
      simp only [taskLength]
      omega
    obtain ⟨r, u, hu, -⟩ := run_call_refines env s.htable _ hb
    exact ⟨_, _, _, handleStorage_add env s ctx hadd hkey hu⟩
  · unfold handleStorage
    simp only [hrem]
    exact ⟨_, _, _, rfl⟩

/-! ### Requests a checkpoint can carry -/

/-- An update whose text fits the checkpoint format. -/
structure CleanRequest (req : ClientRequest) : Prop where
  update : isUpdate req.msgType = true
  payload : req.payload.size = 0
  len : req.msgType = .msgAdd → req.taskLen.toNat ≤ 1015
  text : req.msgType = .msgAdd → CleanText (req.task.toList.take req.taskLen.toNat)

instance (req : ClientRequest) : Decidable (CleanRequest req) :=
  decidable_of_iff (isUpdate req.msgType = true ∧ req.payload.size = 0 ∧
      (req.msgType = .msgAdd → req.taskLen.toNat ≤ 1015) ∧
      (req.msgType = .msgAdd → CleanText (req.task.toList.take req.taskLen.toNat)))
    ⟨fun h => ⟨h.1, h.2.1, h.2.2.1, h.2.2.2⟩, fun h => ⟨h.update, h.payload, h.len, h.text⟩⟩

/-- What is needed of a table to be rebuilt from its checkpoint. -/
structure GoodTable (t : HTable) : Prop where
  inv : TableInv t
  tail : AllNodes (fun _ d => ZeroTail d) t
  clean : Checkpointable t

theorem goodTable_init (allocs : ℕ) : GoodTable (hashTableInit allocs) where
  inv := ⟨fun _ _ hd => absurd hd List.not_mem_nil, fun _ _ hd => absurd hd List.not_mem_nil, rfl⟩
  tail _ _ hd := absurd hd List.not_mem_nil
  clean _ _ hd := absurd hd List.not_mem_nil

theorem tableInv_step {env : Env} {t u : HTable} (h : TableStep env t u) (ht : TableInv t) :
    TableInv u :=
  ⟨bucket_stable env t u h ht.bucket, key_ne_stable env t u h ht.key_ne, size_stable env t u h ht.size⟩

theorem goodTable_request {env : Env} (hz : env.ZeroHeap) {req : ClientRequest} {c : Call}
    (hclean : CleanRequest req) (hc : requestCall env req = some c) {t u : HTable} {ret : ℤ}
    (h : c.run env t = .ok (ret, u)) (ht : GoodTable t) : GoodTable u := by
  have hstep : TableStep env t u := by
    cases c with
    | insert key data len => exact .insert _ _ _ _ _ _ h
    | delete key =>
      rw [run_delete h]
      exact .delete _ _
  refine ⟨tableInv_step hstep ht.inv, zeroTail_stable env hz t u hstep ht.tail, ?_⟩
  rcases requestCall_cases hc with ⟨hadd, rfl⟩ | ⟨hrem, rfl⟩
  · rcases hashTableInsert_cases h with ⟨-, -, rfl⟩ | ⟨-, -, raw, hraw, rfl⟩
    · exact ht.clean
    · refine allNodes_update rfl ht.clean fun d hd => ?_
      rcases List.mem_append.mp hd with hd | hd
      · exact ht.clean _ d hd
      · rw [List.mem_singleton.mp hd]
        refine ⟨hclean.len hadd, ?_⟩
        show CleanText (raw.toList.take req.taskLen.toNat)
        rw [take_memcpy hraw]
        exact hclean.text hadd
  · rw [run_delete h]
    exact allNodes_delete ht.clean req.hashKey

theorem cells_of_view {t u : HTable} (h : ∀ b, (u.data b).map view = (t.data b).map view) :
    cells u = cells t := by
  have hview : ∀ (k : UInt64) (ds : List DataPoint), (withKey k ds).map entry =
      ((ds.map view).filter fun v => v.1 = k).map Prod.snd := by
    intro k ds
    rw [List.filter_map, List.map_map]
    rfl
  funext ⟨b, k⟩
  show (withKey k (u.data b)).map entry = (withKey k (t.data b)).map entry
  rw [hview, hview, h b]

theorem import_restores {env : Env} {t : HTable} {file : Bytes} (ht : GoodTable t)
    (h : exportDbInternal env t = .ok file) (t₀ : HTable) :
    ∃ u, importDbInternal env t₀ (some file) = .ok u ∧ cells u = cells t := by
  obtain ⟨file', u, hfile, himp, hview, -⟩ := import_export env t ht.inv ht.tail ht.clean t₀
  rw [h] at hfile
  cases hfile
  exact ⟨u, himp, cells_of_view hview⟩

/-! ### Sequences of requests -/

def runRequests (env : Env) : Store → List ClientRequest → Except Fault Store
  | s, [] => .ok s
  | s, req :: reqs =>
    match handleStorage env s { req := req } with
    | .error f => .error f
    | .ok (_, u, _) => runRequests env u reqs

theorem CleanRequest.executable {req : ClientRequest} (h : CleanRequest req) : Executable req := by
  intro hadd
  have hlen := h.len hadd
  simp only [taskLength]
  omega

theorem runRequests_clean (env : Env) (s : Store) (reqs : List ClientRequest)
    (h : ∀ r ∈ reqs, CleanRequest r) :
    ∃ u, runRequests env s reqs = .ok u ∧
      cells u.htable = Replay.exec (applyRequest env) (cells s.htable) reqs := by
  induction reqs generalizing s with
  | nil => exact ⟨s, rfl, rfl⟩
  | cons req reqs ih =>
    have hreq := h req (List.mem_cons_self ..)
    obtain ⟨ret, u, ctx', hu⟩ :=
      @handleStorage_returns env s { req := req } hreq.update hreq.executable
    obtain ⟨v, hv, hcells⟩ := ih u fun r hr => h r (List.mem_cons_of_mem _ hr)
    refine ⟨v, by simp only [runRequests, hu, hv], ?_⟩
    rw [hcells, (handleStorage_cells hreq.update hu).1]
    rfl

end ToDoList
