import ToDoList.Chains
import ToDoList.Requests

/-!
# What a key names

`handle_storage` never looks whether a key is there before it inserts: a task
added twice has two entries under one key, and removing takes one of them. As
long as SHA-1 keeps its inputs apart, the entries of one key hold one text.
-/

namespace ToDoList
open CLib StepRun

/-! ### Keys and contents of the entries -/

def keysOf (t : HTable) : List UInt64 := (allEntries t).map DataPoint.key

def contents (t : HTable) : List (UInt64 × Entry) := (allEntries t).map fun d => (d.key, entry d)

theorem keysOf_eq (t : HTable) : keysOf t = (contents t).map Prod.fst := by
  unfold keysOf contents
  rw [List.map_map]
  rfl

theorem count_keysOf (t : HTable) (k : UInt64) : (keysOf t).count k = (listOf t k).length := by
  unfold keysOf listOf withKey
  rw [List.count_eq_countP, List.countP_map, List.countP_eq_length_filter]
  refine congrArg List.length (List.filter_congr fun d _ => ?_)
  by_cases hd : d.key = k
  · simp [hd]
  · simp [hd]

theorem mem_listOf {t : HTable} {k : UInt64} {d : DataPoint} :
    d ∈ listOf t k ↔ d ∈ allEntries t ∧ d.key = k := by
  simp [listOf, withKey]

theorem mem_otherLists {t : HTable} {k : UInt64} {d : DataPoint} :
    d ∈ otherLists t k ↔ d ∈ allEntries t ∧ d.key ≠ k := by
  simp [otherLists]

theorem listOf_other {t u : HTable} {key k : UInt64} (h : otherLists u key = otherLists t key)
    (hk : k ≠ key) : listOf u k = listOf t k := by
  have hpart : ∀ v : HTable, listOf v k = withKey k (otherLists v key) := by
    intro v
    unfold listOf otherLists withKey
    rw [List.filter_filter]
    refine List.filter_congr fun d _ => ?_
    by_cases hd : d.key = k
    · simp [hd, hk]
    · simp [hd]
  rw [hpart u, hpart t, h]

theorem map_modify_status (chain : List DataPoint) (i : ℕ) (status : TStatus) :
    (chain.modify i (withStatus status)).map (fun d => (d.key, entry d)) =
      chain.map fun d => (d.key, entry d) := by
  induction chain generalizing i with
  | nil => simp
  | cons d ds ih =>
    cases i with
    | zero => simp [withStatus, entry]
    | succ i =>
      rw [List.modify_succ_cons, List.map_cons, List.map_cons, ih]

theorem contents_modify {env : Env} {t u : HTable} {key : UInt64} {status : TStatus} {ret : ℤ}
    (h : hashTableModify env t key status = .ok (ret, u)) : contents u = contents t := by
  rcases hashTableModify_cases h with rfl | ⟨i, rfl⟩
  · rfl
  · unfold contents allEntries
    rw [List.map_flatMap, List.map_flatMap]
    refine List.flatMap_congr fun b _ => ?_
    dsimp only
    by_cases hb : b = hashFunc key
    · subst hb
      rw [Function.update_self, map_modify_status]
    · rw [Function.update_of_ne hb]

/-! ### Runs of requests -/

def TaskRequest (ctx : ClientCtx) : Prop :=
  ctx.req.msgType = .msgAdd ∨ ctx.req.msgType = .msgModify ∨ ctx.req.msgType = .msgRemove

instance decidableTaskRequest : DecidablePred TaskRequest :=
  fun ctx => inferInstanceAs (Decidable (ctx.req.msgType = .msgAdd ∨ ctx.req.msgType = .msgModify ∨
    ctx.req.msgType = .msgRemove))

def requestStep (env : Env) (s : Store) (ctx : ClientCtx) : Option Store :=
  storageStep env s (.request ctx)

/-- What `generate_key` hashes. -/
def hashedInput (req : ClientRequest) : Bytes := req.task.toList.take (req.taskLen.toNat + 5)

/-- SHA-1, as the key takes it, keeps the inputs of these requests apart and
never yields 0 for them. -/
structure GoodDigests (env : Env) (es : List ClientCtx) : Prop where
  injective : ∀ ctx ∈ es, ∀ ctx' ∈ es, ctx.req.msgType = .msgAdd → ctx'.req.msgType = .msgAdd →
    requestKey env ctx.req = requestKey env ctx'.req → hashedInput ctx.req = hashedInput ctx'.req
  ne_zero : ∀ ctx ∈ es, ctx.req.msgType = .msgAdd → requestKey env ctx.req ≠ 0

def countRequest (env : Env) (k : UInt64) (n : ℕ) (ctx : ClientCtx) : ℕ :=
  match ctx.req.msgType with
  | .msgAdd => if requestKey env ctx.req = k then n + 1 else n
  | .msgRemove => if ctx.req.hashKey = k then n - 1 else n
  | _ => n

/-- The ADDs that produce the key less the REMOVEs of it that find an entry. -/
def liveCount (env : Env) (k : UInt64) (es : List ClientCtx) : ℕ := es.foldl (countRequest env k) 0

theorem requestStep_handled {env : Env} {s u : Store} {ctx : ClientCtx}
    (h : requestStep env s ctx = some u) : ∃ ret ctx', handleStorage env s ctx = .ok (ret, u, ctx') := by
  unfold requestStep storageStep at h
  dsimp only at h
  cases hcall : handleStorage env s ctx with
  | error f =>
    rw [hcall] at h
    cases h
  | ok r =>
    rw [hcall] at h
    cases h
    exact ⟨r.1, r.2.2, rfl⟩

theorem requestStep_cases {env : Env} {s u : Store} {ctx : ClientCtx} (htype : TaskRequest ctx)
    (h : requestStep env s ctx = some u) :
    (∃ c ret, requestCall env ctx.req = some c ∧ c.run env s.htable = .ok (ret, u.htable) ∧
        (ctx.req.msgType = .msgAdd → 5 + ctx.req.taskLen.toNat ≤ taskLength)) ∨
      (ctx.req.msgType = .msgModify ∧ contents u.htable = contents s.htable) := by
  obtain ⟨ret, ctx', hcall⟩ := requestStep_handled h
  by_cases hup : isUpdate ctx.req.msgType = true
  · obtain ⟨c, hc, hrun, -⟩ := handleStorage_update hup hcall
    exact Or.inl ⟨c, ret, hc, hrun, executable_of_returns hcall⟩
  · have hmod : ctx.req.msgType = .msgModify := by
      rcases htype with hadd | hmod | hrem
      · exact absurd (by simp [isUpdate, hadd]) hup
      · exact hmod
      · exact absurd (by simp [isUpdate, hrem]) hup
    refine Or.inr ⟨hmod, ?_⟩
    unfold handleStorage at hcall
    dsimp only at hcall
    rw [hmod] at hcall
    dsimp only at hcall
    split at hcall
    · cases hcall
    · rename_i ret' t htable
      cases hcall
      exact contents_modify htable

theorem insert_lists {env : Env} {t u : HTable} {key len : UInt64} {data : Bytes} {ret : ℤ}
    (ht : TableInv t) (hk : key ≠ 0) (h : hashTableInsert env t key data len = .ok (ret, u)) :
    ∃ d, d.key = key ∧ entry d = (data.take len.toNat, len) ∧ listOf u key = listOf t key ++ [d] ∧
      otherLists u key = otherLists t key := by
  have heffect := callEffect_insert env ht key data len
  unfold CallEffect at heffect
  dsimp only at heffect
  rw [if_neg hk, h] at heffect
  split at heffect
  · obtain ⟨v, d, hv, hd⟩ := heffect
    cases hv
    exact ⟨d, hd⟩
  · cases heffect

theorem delete_lists (env : Env) {t : HTable} (ht : TableInv t) (key : UInt64) :
    listOf (hashTableDelete t key).2 key = (listOf t key).tail ∧
      otherLists (hashTableDelete t key).2 key = otherLists t key := by
  have heffect := callEffect_delete env ht key
  unfold CallEffect at heffect
  dsimp only at heffect
  split at heffect
  · rename_i hnil
    rw [heffect, hnil]
    exact ⟨rfl, rfl⟩
  · rename_i d rest hcons
    obtain ⟨u, hu, hlist, hother⟩ := heffect
    rw [hu, hcons]
    exact ⟨hlist, hother⟩

theorem countRequest_add {env : Env} {ctx : ClientCtx} (hadd : ctx.req.msgType = .msgAdd)
    (k : UInt64) (n : ℕ) :
    countRequest env k n ctx = if requestKey env ctx.req = k then n + 1 else n := by
  rw [countRequest, hadd]

theorem countRequest_remove (env : Env) {ctx : ClientCtx} (hrem : ctx.req.msgType = .msgRemove)
    (k : UInt64) (n : ℕ) :
    countRequest env k n ctx = if ctx.req.hashKey = k then n - 1 else n := by
  rw [countRequest, hrem]

theorem requestStep_count {env : Env} {s u : Store} {ctx : ClientCtx} (ht : TableInv s.htable)
    (htype : TaskRequest ctx) (hne : ctx.req.msgType = .msgAdd → requestKey env ctx.req ≠ 0)
    (h : requestStep env s ctx = some u) (k : UInt64) :
    (keysOf u.htable).count k = countRequest env k ((keysOf s.htable).count k) ctx := by
  rcases requestStep_cases htype h with ⟨c, ret, hc, hrun, -⟩ | ⟨hmod, hsame⟩
  · rw [count_keysOf, count_keysOf]
    rcases requestCall_cases hc with ⟨hadd, rfl⟩ | ⟨hrem, rfl⟩
    · obtain ⟨d, hd, -, hlist, hother⟩ := insert_lists ht (hne hadd) hrun
      rw [countRequest_add hadd]
      split
      · rename_i hk
        subst hk
        rw [hlist, List.length_append]
        rfl
      · rename_i hk
        rw [listOf_other hother (Ne.symm hk)]
    · obtain ⟨hlist, hother⟩ := delete_lists env ht ctx.req.hashKey
      rw [countRequest_remove env hrem, run_delete hrun]
      split
      · rename_i hk
        subst hk
        rw [hlist, List.length_tail]
      · rename_i hk
        rw [listOf_other hother (Ne.symm hk)]
  · rw [countRequest, hmod, keysOf_eq, keysOf_eq, hsame]

theorem requestStep_inv {env : Env} {s u : Store} {ctx : ClientCtx} (ht : TableInv s.htable)
    (h : requestStep env s ctx = some u) : TableInv u.htable := by
  obtain ⟨ret, ctx', hcall⟩ := requestStep_handled h
  exact handleStorage_stable (tableInv_stable env) s _ ctx _ _ hcall ht

theorem run_count {env : Env} {s u : Store} {es : List ClientCtx} (ht : TableInv s.htable)
    (htype : ∀ ctx ∈ es, TaskRequest ctx)
    (hne : ∀ ctx ∈ es, ctx.req.msgType = .msgAdd → requestKey env ctx.req ≠ 0)
    (h : run (requestStep env) s es = some u) (k : UInt64) :
    (keysOf u.htable).count k = es.foldl (countRequest env k) ((keysOf s.htable).count k) := by
  induction es generalizing s with
  | nil =>
    cases h
    rfl
  | cons ctx es ih =>
    obtain ⟨v, hv, hrun⟩ := run_cons_eq_some.mp h
    have hstep := requestStep_count ht (htype ctx (List.mem_cons_self ..))
      (hne ctx (List.mem_cons_self ..)) hv k
    rw [List.foldl_cons, ← hstep]
    exact ih (requestStep_inv ht hv) (fun c hc => htype c (List.mem_cons_of_mem _ hc))
      (fun c hc => hne c (List.mem_cons_of_mem _ hc)) hrun

/-! ### Where an entry comes from -/

/-- The entry of an ADD of the run. -/
def AddedBy (env : Env) (es : List ClientCtx) (p : UInt64 × Entry) : Prop :=
  ∃ ctx ∈ es, ctx.req.msgType = .msgAdd ∧ 5 + ctx.req.taskLen.toNat ≤ taskLength ∧
    p = (requestKey env ctx.req, ctx.req.task.toList.take ctx.req.taskLen.toNat, ctx.req.taskLen)

def AllAdded (env : Env) (es : List ClientCtx) (t : HTable) : Prop := ∀ p ∈ contents t, AddedBy env es p

theorem mem_contents {t : HTable} {p : UInt64 × Entry} :
    p ∈ contents t ↔ ∃ d ∈ allEntries t, (d.key, entry d) = p := by
  unfold contents
  rw [List.mem_map]

theorem entries_split {t u : HTable} {key : UInt64} (hother : otherLists u key = otherLists t key)
    {d : DataPoint} (hd : d ∈ allEntries u) : d ∈ allEntries t ∨ d ∈ listOf u key := by
  by_cases hk : d.key = key
  · exact Or.inr (mem_listOf.mpr ⟨hd, hk⟩)
  · have hmem : d ∈ otherLists t key := by
      rw [← hother]
      exact mem_otherLists.mpr ⟨hd, hk⟩
    exact Or.inl (mem_otherLists.mp hmem).1

theorem requestStep_added {env : Env} {es : List ClientCtx} {s u : Store} {ctx : ClientCtx}
    (ht : TableInv s.htable) (hctx : ctx ∈ es) (htype : TaskRequest ctx)
    (hne : ctx.req.msgType = .msgAdd → requestKey env ctx.req ≠ 0)
    (hs : AllAdded env es s.htable) (h : requestStep env s ctx = some u) :
    AllAdded env es u.htable := by
  have hold : ∀ d ∈ allEntries s.htable, AddedBy env es (d.key, entry d) := fun d hd =>
    hs _ (mem_contents.mpr ⟨d, hd, rfl⟩)
  intro p hp
  rcases requestStep_cases htype h with ⟨c, ret, hc, hrun, hlen⟩ | ⟨-, hsame⟩
  · obtain ⟨d, hd, rfl⟩ := mem_contents.mp hp
    rcases requestCall_cases hc with ⟨hadd, rfl⟩ | ⟨hrem, rfl⟩
    · obtain ⟨new, hkey, hentry, hlist, hother⟩ := insert_lists ht (hne hadd) hrun
      rcases entries_split hother hd with hd | hd
      · exact hold d hd
      · rw [hlist] at hd
        rcases List.mem_append.mp hd with hd | hd
        · exact hold d (mem_listOf.mp hd).1
        · rw [List.mem_singleton.mp hd, hkey, hentry]
          exact ⟨ctx, hctx, hadd, hlen hadd, rfl⟩
    · obtain ⟨hlist, hother⟩ := delete_lists env ht ctx.req.hashKey
      rw [run_delete hrun] at hd
      rcases entries_split hother hd with hd | hd
      · exact hold d hd
      · rw [hlist] at hd
        exact hold d (mem_listOf.mp (List.mem_of_mem_tail hd)).1
  · rw [hsame] at hp
    exact hs p hp

theorem run_added {env : Env} {s u : Store} {es : List ClientCtx} (ht : TableInv s.htable)
    (htype : ∀ ctx ∈ es, TaskRequest ctx)
    (hne : ∀ ctx ∈ es, ctx.req.msgType = .msgAdd → requestKey env ctx.req ≠ 0)
    (hs : contents s.htable = []) (h : run (requestStep env) s es = some u) :
    AllAdded env es u.htable := by
  have hgoal : ∀ (part : List ClientCtx) (v : Store), (∀ ctx ∈ part, ctx ∈ es) → TableInv v.htable →
      AllAdded env es v.htable → run (requestStep env) v part = some u → AllAdded env es u.htable := by
    intro part
    induction part with
    | nil =>
      intro v _ _ hv hrun
      cases hrun
      exact hv
    | cons ctx part ih =>
      intro v hpart hv hadded hrun
      obtain ⟨w, hw, hrest⟩ := run_cons_eq_some.mp hrun
      have hctx : ctx ∈ es := hpart ctx (List.mem_cons_self ..)
      exact ih w (fun c hc => hpart c (List.mem_cons_of_mem _ hc)) (requestStep_inv hv hw)
        (requestStep_added hv hctx (htype ctx hctx) (hne ctx hctx) hadded hw) hrest
  refine hgoal es s (fun _ hc => hc) ht ?_ h
  intro p hp
  rw [hs] at hp
  cases hp

theorem entry_of_input {req req' : ClientRequest} (h : hashedInput req = hashedInput req')
    (hlen : 5 + req.taskLen.toNat ≤ taskLength) (hlen' : 5 + req'.taskLen.toNat ≤ taskLength) :
    req.taskLen = req'.taskLen ∧
      req.task.toList.take req.taskLen.toNat = req'.task.toList.take req'.taskLen.toNat := by
  have hsize : ∀ r : ClientRequest, 5 + r.taskLen.toNat ≤ taskLength →
      (hashedInput r).length = r.taskLen.toNat + 5 := by
    intro r hr
    unfold hashedInput
    rw [List.length_take, List.Vector.toList_length]
    omega
  have heq : req.taskLen.toNat = req'.taskLen.toNat := by
    have h1 := hsize req hlen
    have h2 := hsize req' hlen'
    rw [h] at h1
    omega
  have htake : ∀ r : ClientRequest, (hashedInput r).take r.taskLen.toNat =
      r.task.toList.take r.taskLen.toNat := by
    intro r
    unfold hashedInput
    rw [List.take_take, Nat.min_eq_left (Nat.le_add_right _ 5)]
  refine ⟨UInt64.toNat_inj.mp heq, ?_⟩
  rw [← htake req, ← htake req', h, heq]

theorem GoodDigests.take {env : Env} {es : List ClientCtx} (h : GoodDigests env es) (n : ℕ) :
    GoodDigests env (es.take n) :=
  ⟨fun ctx hctx ctx' hctx' => h.injective ctx (List.mem_of_mem_take hctx) ctx' (List.mem_of_mem_take hctx'),
    fun ctx hctx => h.ne_zero ctx (List.mem_of_mem_take hctx)⟩

/-- For any history of adds, modifications and removals: a key has as many live
entries as ADDs produced it less the REMOVEs that found one, and all of them hold
one text; so no key is live twice, at the end or on the way there, exactly when this
number is never 2 there. -/
theorem key_names_one_text (env : Env) (es : List ClientCtx) (s : Store)
    (htype : ∀ ctx ∈ es, TaskRequest ctx) (hsha : GoodDigests env es)
    (h : run (requestStep env) storageInit es = some s) :
    (∀ k, (keysOf s.htable).count k = liveCount env k es) ∧
      (∀ d ∈ allEntries s.htable, ∀ d' ∈ allEntries s.htable, d.key = d'.key → entry d = entry d') ∧
      ((keysOf s.htable).Nodup ↔ ∀ k, liveCount env k es ≤ 1) ∧
      (Always (requestStep env) (fun t => (keysOf t.htable).Nodup) storageInit es ↔
        ∀ n k, liveCount env k (es.take n) ≤ 1) := by
  have hcount : ∀ k, (keysOf s.htable).count k = liveCount env k es := fun k =>
    run_count (tableInv_init 0) htype hsha.ne_zero h k
  refine ⟨hcount, ?_, ?_, ?_⟩
  · intro d hd d' hd' hkey
    have hadded := run_added (tableInv_init 0) htype hsha.ne_zero rfl h
    obtain ⟨ctx, hctx, hadd, hlen, hp⟩ := hadded _ (mem_contents.mpr ⟨d, hd, rfl⟩)
    obtain ⟨ctx', hctx', hadd', hlen', hp'⟩ := hadded _ (mem_contents.mpr ⟨d', hd', rfl⟩)
    obtain ⟨hk, he⟩ := Prod.mk.inj hp
    obtain ⟨hk', he'⟩ := Prod.mk.inj hp'
    have hinput := hsha.injective ctx hctx ctx' hctx' hadd hadd' (by rw [← hk, ← hk', hkey])
    obtain ⟨hsize, htext⟩ := entry_of_input hinput hlen hlen'
    rw [he, he', htext, hsize]
  · rw [List.nodup_iff_count_le_one]
    simp only [hcount]
  · have htaken (n : ℕ) {t : Store} (ht : run (requestStep env) storageInit (es.take n) = some t) :
        (keysOf t.htable).Nodup ↔ ∀ k, liveCount env k (es.take n) ≤ 1 := by
      rw [List.nodup_iff_count_le_one]
      refine forall_congr' fun k => ?_
      rw [run_count (tableInv_init 0) (fun ctx hctx => htype ctx (List.mem_of_mem_take hctx))
        (hsha.take n).ne_zero ht k]
      rfl
    constructor
    · intro halways n
      obtain ⟨t, ht⟩ := run_take h n
      exact (htaken n ht).mp (halways n t ht)
    · intro hlive n t ht
      exact (htaken n ht).mpr (hlive n)

/-- SHA-1 by the length of its input, enough for two tasks of different lengths. -/
def lengthEnv : Env := zeroEnv fun bytes => some (UInt64.ofNat bytes.length)

def addTask (text : Bytes) : ClientCtx := { req := addRequest text }
def removeTask (key : UInt64) : ClientCtx := { req := removeRequest key }

def shopping : List ClientCtx := [addTask (ascii "milk"), addTask (ascii "bread"), removeTask 9]

theorem key_names_one_text_shopping :
    ∃ s, run (requestStep lengthEnv) storageInit shopping = some s ∧
      (∀ k, (keysOf s.htable).count k = liveCount lengthEnv k shopping) ∧
      (∀ d ∈ allEntries s.htable, ∀ d' ∈ allEntries s.htable, d.key = d'.key → entry d = entry d') ∧
      ((keysOf s.htable).Nodup ↔ ∀ k, liveCount lengthEnv k shopping ≤ 1) ∧
      (Always (requestStep lengthEnv) (fun t => (keysOf t.htable).Nodup) storageInit shopping ↔
        ∀ n k, liveCount lengthEnv k (shopping.take n) ≤ 1) := by
  have htype : ∀ ctx ∈ shopping, TaskRequest ctx := by decide +kernel
  have hsha : GoodDigests lengthEnv shopping := ⟨by decide +kernel, by decide +kernel⟩
  have hsome : (run (requestStep lengthEnv) storageInit shopping).isSome := by decide +kernel
  obtain ⟨s, hs⟩ := Option.isSome_iff_exists.mp hsome
  exact ⟨s, hs, key_names_one_text lengthEnv shopping s htype hsha hs⟩

/-- Adding the same task twice leaves two entries under its key. -/
theorem task_added_twice :
    ¬∀ (env : Env) (es : List ClientCtx) (s : Store), (∀ ctx ∈ es, TaskRequest ctx) →
      GoodDigests env es → run (requestStep env) storageInit es = some s →
        (keysOf s.htable).Nodup := by
  intro h
  have htwice : (run (requestStep lengthEnv) storageInit
      [addTask (ascii "milk"), addTask (ascii "milk")]).any
        (fun s => decide (¬(keysOf s.htable).Nodup)) = true := by decide +kernel
  obtain ⟨s, hs, hdup⟩ := (Option.any_eq_true _ _).mp htwice
  exact of_decide_eq_true hdup (h lengthEnv _ s (by decide +kernel)
    ⟨by decide +kernel, by decide +kernel⟩ hs)

end ToDoList
