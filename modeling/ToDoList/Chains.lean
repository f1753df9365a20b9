import ToDoList.TableInv
import ToDoList.Header

/-!
# The lists of the keys, and lookup

The entries of a key, over the whole table, form a list: inserting appends to
it, deleting takes its oldest entry, and nothing else moves. `search_list`
never leaves the head of a chain, so a lookup ends only when the chain is empty
or the head is what is looked for.
-/

namespace ToDoList
open CLib StepRun

/-! ### Lists -/

def listOf (t : HTable) (key : UInt64) : List DataPoint := withKey key (allEntries t)

/-- The entries of all other keys, in their order. -/
def otherLists (t : HTable) (key : UInt64) : List DataPoint :=
  (allEntries t).filter fun d => d.key ≠ key

theorem flatMap_single {α β : Type} {l : List α} {f : α → List β} {b : α} (hl : l.Nodup) (hb : b ∈ l)
    (h : ∀ a ∈ l, a ≠ b → f a = []) : l.flatMap f = f b := by
  obtain ⟨pre, post, rfl⟩ := List.append_of_mem hb
  have hnot : b ∉ pre ∧ b ∉ post := by
    have hnodup := List.nodup_middle.mp hl
    rw [List.nodup_cons, List.mem_append, not_or] at hnodup
    exact hnodup.1
  have hpre : pre.flatMap f = [] := List.flatMap_eq_nil_iff.mpr fun a ha =>
    h a (List.mem_append_left _ ha) fun heq => hnot.1 (heq ▸ ha)
  have hpost : post.flatMap f = [] := List.flatMap_eq_nil_iff.mpr fun a ha =>
    h a (List.mem_append_right _ (List.mem_cons_of_mem _ ha)) fun heq => hnot.2 (heq ▸ ha)
  rw [List.flatMap_append, List.flatMap_cons, hpre, hpost, List.nil_append, List.append_nil]

theorem listOf_eq {t : HTable} (h : AllNodes (fun b d => hashFunc d.key = b) t) (key : UInt64) :
    listOf t key = withKey key (t.data (hashFunc key)) := by
  unfold listOf allEntries withKey
  rw [List.filter_flatMap]
  refine flatMap_single (List.nodup_finRange _) (List.mem_finRange _) fun b _ hb => ?_
  refine withKey_eq_nil key _ fun d hd hkey => hb ?_
  rw [← hkey]
  exact (h b d hd).symm

theorem filter_update {t u : HTable} {b : Fin hashTableLen} {chain : List DataPoint}
    {p : DataPoint → Bool} (hdata : u.data = Function.update t.data b chain)
    (h : chain.filter p = (t.data b).filter p) :
    (allEntries u).filter p = (allEntries t).filter p := by
  unfold allEntries
  rw [List.filter_flatMap, List.filter_flatMap]
  refine List.flatMap_congr fun c _ => ?_
  rw [hdata]
  by_cases hc : c = b
  · subst hc
    rw [Function.update_self]
    exact h
  · rw [Function.update_of_ne hc]

/-! ### Calls and the reset of an import -/

inductive TableCall where
  | call (c : Call)
  | reset

def tableStep (env : Env) (t : HTable) : TableCall → Option HTable
  | .call c => (c.run env t).toOption.map Prod.snd
  | .reset => some (hashTableInit t.allocs)

/-- What a call answers and does to the lists. A copy that leaves its two
objects is a memory error. -/
def CallEffect (env : Env) (t : HTable) : TableCall → Prop
  | .call (.insert key data len) =>
    if key = 0 then hashTableInsert env t key data len = .ok (-1, t)
    else if len.toNat ≤ maxDataLen ∧ len.toNat ≤ data.length then
      ∃ u d, hashTableInsert env t key data len = .ok (0, u) ∧ d.key = key ∧
        entry d = (data.take len.toNat, len) ∧ listOf u key = listOf t key ++ [d] ∧
        otherLists u key = otherLists t key
    else hashTableInsert env t key data len = .error .outOfBounds
  | .call (.delete key) =>
    match listOf t key with
    | [] => hashTableDelete t key = (-1, t)
    | _ :: rest => ∃ u, hashTableDelete t key = (0, u) ∧ listOf u key = rest ∧
        otherLists u key = otherLists t key
  | .reset => allEntries (hashTableInit t.allocs) = []

theorem tableInv_stable (env : Env) : Stable env TableInv := by
  intro t u hstep h
  exact ⟨bucket_stable env t u hstep h.bucket, key_ne_stable env t u hstep h.key_ne,
    size_stable env t u hstep h.size⟩

theorem tableInv_init (allocs : ℕ) : TableInv (hashTableInit allocs) :=
  ⟨fun _ _ hd => absurd hd List.not_mem_nil, fun _ _ hd => absurd hd List.not_mem_nil, rfl⟩

theorem tableStep_inv {env : Env} {t u : HTable} {e : TableCall} (ht : TableInv t)
    (h : tableStep env t e = some u) : TableInv u := by
  cases e with
  | reset =>
    cases h
    exact tableInv_init t.allocs
  | call c =>
    obtain ⟨⟨ret, v⟩, hrun, rfl⟩ := toOption_map_eq_some h
    cases c with
    | insert key data len => exact tableInv_stable env t v (.insert _ _ _ _ _ _ hrun) ht
    | delete key =>
      have hv : v = (hashTableDelete t key).2 := (congrArg Prod.snd (Except.ok.inj hrun)).symm
      rw [hv]
      exact tableInv_stable env t _ (.delete t key) ht

theorem callEffect_insert (env : Env) {t : HTable} (ht : TableInv t) (key : UInt64) (data : Bytes)
    (len : UInt64) : CallEffect env t (.call (.insert key data len)) := by
  unfold CallEffect
  dsimp only
  split
  · rename_i hk
    subst hk
    exact hashTableInsert_zero env t data len
  · rename_i hk
    split
    · rename_i hb
      obtain ⟨raw, hraw, hins⟩ := hashTableInsert_ok env t key data len hk hb.1 hb.2
      have hu : TableInv _ := tableInv_stable env t _ (.insert _ _ _ _ _ _ hins) ht
      refine ⟨_, ⟨key, raw, len, (env.fresh t.allocs).taskStatus⟩, hins, rfl, ?_, ?_, ?_⟩
      · simp [entry, take_memcpy hraw]
      · rw [listOf_eq hu.bucket, listOf_eq ht.bucket]
        dsimp only
        rw [Function.update_self, withKey_append]
        simp [withKey]
      · refine filter_update rfl ?_
        rw [List.filter_append]
        simp
    · rename_i hb
      exact run_call_fault env t (.insert key data len) fun hin => hb (hin.resolve_left hk)

theorem callEffect_delete (env : Env) {t : HTable} (ht : TableInv t) (key : UInt64) :
    CallEffect env t (.call (.delete key)) := by
  unfold CallEffect
  dsimp only
  cases hu : unlink key (t.data (hashFunc key)) with
  | none =>
    rw [listOf_eq ht.bucket, unlink_eq_none key _ hu]
    simp [hashTableDelete, hu]
  | some r =>
    obtain ⟨d, rest⟩ := r
    have hdel : hashTableDelete t key = (0, { t with
        data := Function.update t.data (hashFunc key) rest, dataSize := t.dataSize - d.dataLen }) := by
      simp [hashTableDelete, hu]
    have hinv : TableInv (hashTableDelete t key).2 := tableInv_stable env t _ (.delete t key) ht
    rw [hdel] at hinv
    obtain ⟨hhead, -⟩ := withKey_unlink key _ rest d hu
    obtain ⟨pre, post, hchain, hrest, hkey, -⟩ := unlink_eq_some key _ rest d hu
    rw [listOf_eq ht.bucket, hhead]
    refine ⟨_, hdel, ?_, filter_update rfl ?_⟩
    · rw [listOf_eq hinv.bucket]
      dsimp only
      rw [Function.update_self]
    · rw [hchain, hrest, List.filter_append, List.filter_append, List.filter_cons_of_neg (by simp [hkey])]

theorem callEffect (env : Env) {t : HTable} (ht : TableInv t) (e : TableCall) : CallEffect env t e := by
  cases e with
  | reset => exact List.flatMap_eq_nil_iff.mpr fun _ _ => rfl
  | call c =>
    cases c with
    | insert key data len => exact callEffect_insert env ht key data len
    | delete key => exact callEffect_delete env ht key

/-- Over any sequence of inserts, deletes and resets: the buckets, the keys and
`data_size` are right in every table reached, and every call acts on the list of
its own key only, as a queue. -/
theorem table_keeps_lists (env : Env) (es : List TableCall) :
    Always (tableStep env) TableInv (hashTableInit 0) es ∧
      AllSteps (tableStep env) (CallEffect env) (hashTableInit 0) es := by
  have hany : AllSteps (tableStep env) (fun _ _ => True) (hashTableInit 0) es :=
    allSteps_of_forall (fun _ _ => trivial) _ _
  constructor
  · refine (always_iff_allSteps (I := fun _ => True) (C := fun _ _ => True) (fun _ _ _ _ _ => trivial)
      ?_ (fun _ _ _ _ _ => trivial) trivial (tableInv_init 0)).mpr hany
    intro t e u _ ht h
    exact ⟨fun _ => trivial, fun _ => tableStep_inv ht h⟩
  · refine allSteps_of_invariant (I := TableInv) ?_ ?_ (tableInv_init 0) hany
    · intro t e u ht _ h
      exact tableStep_inv ht h
    · intro t e ht _
      exact callEffect env ht e

/-! ### Lookup -/

/-- `hash_table_get`: the answer and, if the key is found, what `snprintf`
leaves in the buffer before the NUL. -/
def hashTableGet (env : Env) (t : HTable) (key : UInt64) : Except Fault (ℤ × Option Bytes) :=
  let hash := hashFunc key
  match searchList env.fuel (t.data hash) key with
  | .error f => .error f
  | .ok none => .ok (-1, none)
  | .ok (some i) =>
    match (t.data hash)[i]? with
    | none => .error .nullDeref
    | some task =>
      match rawString task with
      | .error f => .error f
      | .ok s => .ok (0, some ((ascii "task: " ++ s ++ ascii " status: " ++
          decimalInt task.taskStatus.toInt ++ ascii " \r\n").take (maxDataLen - 1)))

/-- The server whose loop of `search_list` is granted these steps. -/
def granted (env : Env) (fuel : ℕ) : Env := { env with fuel := fuel }

/-- The first node with the key gets the status, the others stay. -/
def markFirst (key : UInt64) (status : TStatus) : List DataPoint → List DataPoint
  | [] => []
  | d :: ds => if d.key = key then withStatus status d :: ds else d :: markFirst key status ds

def markKey (t : HTable) (key : UInt64) (status : TStatus) : HTable :=
  { t with data := Function.update t.data (hashFunc key) (markFirst key status (t.data (hashFunc key))) }

def lookupAnswer (t : HTable) (key : UInt64) : ℤ := if listOf t key = [] then -1 else 0

/-- The lookups of a key end, with enough steps, and find its first node, or
nothing exactly when no entry of the table has the key. -/
structure LookupCorrect (env : Env) (t : HTable) (key : UInt64) : Prop where
  search : ∃ steps, ∀ fuel, steps ≤ fuel → searchList fuel (t.data (hashFunc key)) key =
    .ok ((t.data (hashFunc key)).findIdx? fun d => d.key = key)
  null_iff : (t.data (hashFunc key)).findIdx? (fun d => d.key = key) = none ↔
    ∀ d ∈ allEntries t, d.key ≠ key
  get : ∃ steps, ∀ fuel, steps ≤ fuel → ∃ text,
    hashTableGet (granted env fuel) t key = .ok (lookupAnswer t key, text)
  modify : ∀ status, ∃ steps, ∀ fuel, steps ≤ fuel →
    hashTableModify (granted env fuel) t key status = .ok (lookupAnswer t key, markKey t key status)

/-- The chain of the key is empty, or its head has the key and, to be printed, a
NUL among its bytes. -/
def AtHead (t : HTable) (key : UInt64) : Prop :=
  ∀ d ∈ (t.data (hashFunc key)).head?, d.key = key ∧ (0 : UInt8) ∈ d.rawData.toList

instance decidableAtHead (t : HTable) (key : UInt64) : Decidable (AtHead t key) :=
  inferInstanceAs (Decidable (∀ d ∈ (t.data (hashFunc key)).head?,
    d.key = key ∧ (0 : UInt8) ∈ d.rawData.toList))

theorem searchList_stuck {d : DataPoint} {key : UInt64} (h : d.key ≠ key) (fuel : ℕ)
    (ds : List DataPoint) : searchList fuel (d :: ds) key = .error .noReturn := by
  induction fuel with
  | zero => rfl
  | succ fuel ih =>
    rw [searchList, if_neg (Ne.symm h)]
    exact ih

theorem lookupAnswer_eq {t : HTable} (ht : TableInv t) (key : UInt64) :
    lookupAnswer t key =
      if ∃ d ∈ t.data (hashFunc key), d.key = key then 0 else -1 := by
  have hnil : listOf t key = [] ↔ ¬∃ d ∈ t.data (hashFunc key), d.key = key := by
    rw [listOf_eq ht.bucket]
    simp [withKey, List.filter_eq_nil_iff]
  unfold lookupAnswer
  simp only [hnil, ite_not]

theorem null_iff_of_inv {t : HTable} (ht : TableInv t) (key : UInt64) :
    (t.data (hashFunc key)).findIdx? (fun d => d.key = key) = none ↔
      ∀ d ∈ allEntries t, d.key ≠ key := by
  rw [List.findIdx?_eq_none_iff]
  constructor
  · intro h d hd hkey
    obtain ⟨b, -, hb⟩ := List.mem_flatMap.mp hd
    have hbucket : b = hashFunc key := by
      rw [← hkey]
      exact (ht.bucket b d hb).symm
    rw [hbucket] at hb
    simpa [hkey] using h d hb
  · intro h d hd
    simpa using h d (mem_allEntries hd)

theorem lookup_empty (env : Env) {t : HTable} (ht : TableInv t) {key : UInt64}
    (hchain : t.data (hashFunc key) = []) : LookupCorrect env t key := by
  have hanswer : lookupAnswer t key = -1 := by
    rw [lookupAnswer_eq ht, hchain]
    simp
  have hsearch : ∀ fuel, 1 ≤ fuel → searchList fuel [] key = .ok none := by
    intro fuel hfuel
    obtain ⟨n, rfl⟩ := Nat.exists_eq_add_of_le' hfuel
    rfl
  refine ⟨⟨1, fun fuel hfuel => ?_⟩, null_iff_of_inv ht key, ⟨1, fun fuel hfuel => ⟨none, ?_⟩⟩,
    fun status => ⟨1, fun fuel hfuel => ?_⟩⟩
  · rw [hchain, hsearch fuel hfuel]
    rfl
  · unfold hashTableGet granted
    dsimp only
    rw [hchain, hsearch fuel hfuel, hanswer]
  · have hsame : markKey t key status = t := by
      unfold markKey
      rw [hchain, markFirst, ← hchain, Function.update_eq_self]
    unfold hashTableModify granted
    dsimp only
    rw [hchain, hsearch fuel hfuel, hanswer, hsame]

theorem lookup_head (env : Env) {t : HTable} (ht : TableInv t) {key : UInt64} {d : DataPoint}
    {ds : List DataPoint} (hchain : t.data (hashFunc key) = d :: ds) (hkey : d.key = key)
    (hnul : (0 : UInt8) ∈ d.rawData.toList) : LookupCorrect env t key := by
  have hanswer : lookupAnswer t key = 0 := by
    rw [lookupAnswer_eq ht, hchain]
    simp [hkey]
  have hsearch : ∀ fuel, 1 ≤ fuel → searchList fuel (d :: ds) key = .ok (some 0) := by
    intro fuel hfuel
    obtain ⟨n, rfl⟩ := Nat.exists_eq_add_of_le' hfuel
    rw [searchList, if_pos hkey.symm]
  refine ⟨⟨1, fun fuel hfuel => ?_⟩, null_iff_of_inv ht key, ⟨1, fun fuel hfuel => ?_⟩,
    fun status => ⟨1, fun fuel hfuel => ?_⟩⟩
  · rw [hchain, hsearch fuel hfuel]
    simp [List.findIdx?_cons, hkey]
  · unfold hashTableGet granted
    dsimp only
    rw [hchain, hsearch fuel hfuel, hanswer]
    simp only [List.getElem?_cons_zero, rawString, if_pos hnul]
    exact ⟨_, rfl⟩
  · unfold hashTableModify granted markKey
    dsimp only
    rw [hchain, hsearch fuel hfuel, hanswer]
    simp [markFirst, hkey]

theorem tableInv_runCalls {env : Env} {t u : HTable} {cs : List Call} {rs : List ℤ} (ht : TableInv t)
    (h : runCalls env t cs = .ok (rs, u)) : TableInv u := by
  induction cs generalizing t rs with
  | nil =>
    cases h
    exact ht
  | cons c cs ih =>
    unfold runCalls at h
    split at h
    · cases h
    · rename_i r v hcall
      have hstep : tableStep env t (.call c) = some v := by
        rw [tableStep, hcall]
        rfl
      have hv : TableInv v := tableStep_inv ht hstep
      split at h
      · cases h
      · rename_i rs' w hrest
        cases h
        exact ih hv hrest

/-- A lookup is right exactly when the key needs no step past the head. -/
theorem lookup_correct_iff (env : Env) (cs : List Call) (rs : List ℤ) (t : HTable) (key : UInt64)
    (h : runCalls env (hashTableInit 0) cs = .ok (rs, t)) : LookupCorrect env t key ↔ AtHead t key := by
  have ht : TableInv t := tableInv_runCalls (tableInv_init 0) h
  unfold AtHead
  cases hchain : t.data (hashFunc key) with
  | nil => exact ⟨fun _ d hd => (by cases hd), fun _ => lookup_empty env ht hchain⟩
  | cons d ds =>
    constructor
    · rintro ⟨⟨n, hsearch⟩, -, ⟨m, hget⟩, -⟩ c hc
      cases hc
      have hkey : d.key = key := by
        by_contra hne
        have hstuck := hsearch n le_rfl
        rw [hchain, searchList_stuck hne] at hstuck
        cases hstuck
      refine ⟨hkey, ?_⟩
      by_contra hnul
      obtain ⟨text, htext⟩ := hget (m + 1) (Nat.le_succ m)
      unfold hashTableGet granted at htext
      dsimp only at htext
      rw [hchain, searchList, if_pos hkey.symm] at htext
      simp only [List.getElem?_cons_zero, rawString, if_neg hnul] at htext
      cases htext
    · intro hhead
      obtain ⟨hkey, hnul⟩ := hhead d rfl
      exact lookup_head env ht hchain hkey hnul

def oneTask : List Call := [.insert 1 (ascii "milk") 4]

theorem lookup_correct_one : ∃ rs t,
    runCalls (zeroEnv fun _ => none) (hashTableInit 0) oneTask = .ok (rs, t) ∧
      LookupCorrect (zeroEnv fun _ => none) t 1 := by
  have hrun : (runCalls (zeroEnv fun _ => none) (hashTableInit 0) oneTask).toOption.any
      (fun r => decide (AtHead r.2 1)) = true := by decide +kernel
  obtain ⟨⟨rs, t⟩, hmem, hhead⟩ := (Option.any_eq_true _ _).mp hrun
  have hok := mem_toOption.mp hmem
  exact ⟨rs, t, hok, (lookup_correct_iff _ oneTask rs t 1 hok).mpr (of_decide_eq_true hhead)⟩

/-- Key 14 shares the bucket of key 1: the loop for it never ends. -/
theorem absent_key_spins :
    ¬∀ (env : Env) (cs : List Call) (rs : List ℤ) (t : HTable) (key : UInt64),
      runCalls env (hashTableInit 0) cs = .ok (rs, t) → LookupCorrect env t key := by
  intro h
  have hrun : (runCalls (zeroEnv fun _ => none) (hashTableInit 0) oneTask).toOption.any (fun r =>
      decide ((r.2.data (hashFunc 14)).head?.map DataPoint.key = some 1)) = true := by decide +kernel
  obtain ⟨⟨rs, t⟩, hmem, hhead⟩ := (Option.any_eq_true _ _).mp hrun
  obtain ⟨⟨n, hsearch⟩, -, -, -⟩ := h _ oneTask rs t 14 (mem_toOption.mp hmem)
  obtain ⟨d, hd, hkey⟩ := Option.map_eq_some_iff.mp (of_decide_eq_true hhead)
  obtain ⟨ds, hchain⟩ := List.head?_eq_some_iff.mp hd
  have hspin := hsearch n le_rfl
  rw [hchain, searchList_stuck (by rw [hkey]; decide)] at hspin
  cases hspin

end ToDoList
