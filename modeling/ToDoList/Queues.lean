import ToDoList.Db
import ToDoList.CLib.Keyed

/-!
# The table as per-key queues of entries

For every bucket and key the nodes with that key form a queue: inserting
appends to one queue, deleting drops the head of one queue, and no other queue
is touched. `tableMachine` is that abstract behaviour; `run_call_refines` ties
the chains to it, and with it `data_size` to the lengths of the nodes.
-/

namespace ToDoList
open CLib KeyedMachine

/-- What a node stores: the first `data_len` bytes of `raw_data`, and `data_len`. -/
abbrev Entry := Bytes × UInt64

def entry (d : DataPoint) : Entry := (d.rawData.toList.take d.dataLen.toNat, d.dataLen)

def withKey (k : UInt64) (chain : List DataPoint) : List DataPoint :=
  chain.filter fun d => d.key = k

def entriesIn (t : HTable) (b : Fin hashTableLen) (k : UInt64) : List Entry :=
  (withKey k (t.data b)).map entry

/-- The entries of a key: those of the bucket it hashes to. -/
def entriesOf (t : HTable) (k : UInt64) : List Entry := entriesIn t (hashFunc k) k

/-! ### Chains -/

theorem unlink_eq_none (key : UInt64) (chain : List DataPoint) (h : unlink key chain = none) :
    withKey key chain = [] := by
  induction chain with
  | nil => rfl
  | cons d ds ih =>
    by_cases hk : key = d.key
    · simp [unlink, hk] at h
    · have htail : unlink key ds = none := by simpa [unlink, hk] using h
      simpa [withKey, Ne.symm hk] using ih htail

theorem unlink_eq_some (key : UInt64) (chain rest : List DataPoint) (d : DataPoint)
    (h : unlink key chain = some (d, rest)) :
    ∃ pre post, chain = pre ++ d :: post ∧ rest = pre ++ post ∧ d.key = key ∧
      ∀ p ∈ pre, p.key ≠ key := by
  induction chain generalizing rest with
  | nil => cases h
  | cons c ds ih =>
    by_cases hk : key = c.key
    · have he : c = d ∧ ds = rest := by simpa [unlink, hk] using h
      obtain ⟨rfl, rfl⟩ := he
      exact ⟨[], ds, rfl, rfl, hk.symm, by simp⟩
    · cases hu : unlink key ds with
      | none => simp [unlink, hk, hu] at h
      | some r =>
        have he : r.1 = d ∧ c :: r.2 = rest := by simpa [unlink, hk, hu] using h
        obtain ⟨h1, rfl⟩ := he
        obtain ⟨pre, post, hds, hr, hkey, hpre⟩ := ih r.2 (by rw [hu, ← h1])
        refine ⟨c :: pre, post, by rw [hds]; rfl, by rw [hr]; rfl, hkey, ?_⟩
        intro p hp
        rcases List.mem_cons.mp hp with rfl | hp
        · exact Ne.symm hk
        · exact hpre p hp

theorem withKey_append (k : UInt64) (a b : List DataPoint) :
    withKey k (a ++ b) = withKey k a ++ withKey k b := List.filter_append ..

theorem withKey_eq_nil (k : UInt64) (a : List DataPoint) (h : ∀ d ∈ a, d.key ≠ k) :
    withKey k a = [] := by
  rw [withKey, List.filter_eq_nil_iff]
  intro d hd
  simpa using h d hd

theorem withKey_unlink (key : UInt64) (chain rest : List DataPoint) (d : DataPoint)
    (h : unlink key chain = some (d, rest)) :
    withKey key chain = d :: withKey key rest ∧
      ∀ k, k ≠ key → withKey k rest = withKey k chain := by
  obtain ⟨pre, post, rfl, rfl, hd, hpre⟩ := unlink_eq_some key chain rest d h
  constructor
  · have hone : withKey key (d :: post) = d :: withKey key post := by simp [withKey, hd]
    rw [withKey_append, withKey_append, withKey_eq_nil key pre hpre, hone]
    rfl
  · intro k hk
    have hne : d.key ≠ k := by
      rw [hd]
      exact Ne.symm hk
    have hone : withKey k (d :: post) = withKey k post := by simp [withKey, hne]
    rw [withKey_append, withKey_append, hone]

/-! ### The lengths of all nodes -/

def lenSum (ds : List DataPoint) : UInt64 := ds.foldr (fun d a => d.dataLen + a) 0

theorem lenSum_append (a b : List DataPoint) : lenSum (a ++ b) = lenSum a + lenSum b := by
  induction a with
  | nil => simp [lenSum]
  | cons d a ih =>
    have hd : lenSum (d :: (a ++ b)) = d.dataLen + lenSum (a ++ b) := rfl
    have ha : lenSum (d :: a) = d.dataLen + lenSum a := rfl
    rw [List.cons_append, hd, ih, ha]
    grind

theorem lenSum_perm {a b : List DataPoint} (h : a.Perm b) : lenSum a = lenSum b := by
  apply h.foldr_eq'
  intro d _ e _ z
  grind

def otherEntries (data : Fin hashTableLen → List DataPoint) (b : Fin hashTableLen) :
    List DataPoint :=
  ((List.finRange hashTableLen).erase b).flatMap data

theorem allEntries_perm (t : HTable) (b : Fin hashTableLen) :
    (allEntries t).Perm (t.data b ++ otherEntries t.data b) := by
  have hb : b ∈ List.finRange hashTableLen := List.mem_finRange b
  exact (List.perm_cons_erase hb).flatMap_right t.data

theorem otherEntries_update (data : Fin hashTableLen → List DataPoint) (b : Fin hashTableLen)
    (chain : List DataPoint) : otherEntries (Function.update data b chain) b = otherEntries data b := by
  unfold otherEntries
  rw [List.flatMap_congr]
  intro c hc
  have hne : c ≠ b := by
    rintro rfl
    exact (List.nodup_finRange _).not_mem_erase hc
  exact Function.update_of_ne hne ..

theorem lenSum_update (t u : HTable) (b : Fin hashTableLen) (chain : List DataPoint)
    (h : u.data = Function.update t.data b chain) :
    lenSum (allEntries u) + lenSum (t.data b) = lenSum (allEntries t) + lenSum chain := by
  have ht := lenSum_perm (allEntries_perm t b)
  have hu := lenSum_perm (allEntries_perm u b)
  rw [h, otherEntries_update, Function.update_self] at hu
  rw [ht, hu, lenSum_append, lenSum_append]
  grind

theorem size_update (t u : HTable) (b : Fin hashTableLen) (chain : List DataPoint)
    (h : u.data = Function.update t.data b chain)
    (hs : u.dataSize + lenSum (t.data b) = t.dataSize + lenSum chain) :
    u.dataSize + lenSum (allEntries t) = t.dataSize + lenSum (allEntries u) := by
  have hsum := lenSum_update t u b chain h
  grind

/-! ### Calls -/

inductive Call where
  | insert (key : UInt64) (data : Bytes) (len : UInt64)
  | delete (key : UInt64)

def Call.key : Call → UInt64
  | .insert key _ _ => key
  | .delete key => key

def Call.run (env : Env) (t : HTable) : Call → Except Fault (ℤ × HTable)
  | .insert key data len => hashTableInsert env t key data len
  | .delete key => .ok (hashTableDelete t key)

/-- The copy of the call stays inside its two objects. -/
def Call.InBounds : Call → Prop
  | .insert key data len => key = 0 ∨ (len.toNat ≤ maxDataLen ∧ len.toNat ≤ data.length)
  | .delete _ => True

def runCalls (env : Env) : HTable → List Call → Except Fault (List ℤ × HTable)
  | t, [] => .ok ([], t)
  | t, c :: cs =>
    match c.run env t with
    | .error f => .error f
    | .ok (r, u) =>
      match runCalls env u cs with
      | .error f => .error f
      | .ok (rs, v) => .ok (r :: rs, v)

/-- Abstract behaviour of one queue. -/
def queueAct : Call → List Entry → List Entry × ℤ
  | .insert key data len, q =>
    if key = 0 then (q, -1) else (q ++ [(data.take len.toNat, len)], 0)
  | .delete _, [] => ([], -1)
  | .delete _, _ :: q => (q, 0)

def tableMachine : Machine (Fin hashTableLen × UInt64) Call (List Entry) ℤ where
  key c := (hashFunc c.key, c.key)
  act := queueAct

def cells (t : HTable) : Fin hashTableLen × UInt64 → List Entry := fun p => entriesIn t p.1 p.2

theorem cells_update (t u : HTable) (b : Fin hashTableLen) (k : UInt64) (chain : List DataPoint)
    (h : u.data = Function.update t.data b chain)
    (hk : ∀ j, j ≠ k → withKey j chain = withKey j (t.data b)) :
    cells u = Function.update (cells t) (b, k) ((withKey k chain).map entry) := by
  funext ⟨c, j⟩
  by_cases hc : c = b
  · subst hc
    by_cases hj : j = k
    · subst hj
      simp [cells, entriesIn, h]
    · have hp : (c, j) ≠ (c, k) := by simp [hj]
      rw [Function.update_of_ne hp]
      simp [cells, entriesIn, h, hk j hj]
  · have hp : (c, j) ≠ (b, k) := by simp [hc]
    rw [Function.update_of_ne hp]
    simp [cells, entriesIn, h, Function.update_of_ne hc]

/-- What one call does to the queues and to `data_size`. -/
structure Refines (t : HTable) (c : Call) (r : ℤ) (u : HTable) : Prop where
  cells : cells u = step tableMachine (cells t) c
  result : r = (tableMachine.act c (ToDoList.cells t (tableMachine.key c))).2
  size : u.dataSize + lenSum (allEntries t) = t.dataSize + lenSum (allEntries u)

theorem hashTableInsert_zero (env : Env) (t : HTable) (data : Bytes) (len : UInt64) :
    hashTableInsert env t 0 data len = .ok (-1, t) := by
  simp [hashTableInsert]

theorem hashTableInsert_ok (env : Env) (t : HTable) (key : UInt64) (data : Bytes) (len : UInt64)
    (hk : key ≠ 0) (hl : len.toNat ≤ maxDataLen) (hd : len.toNat ≤ data.length) :
    ∃ raw, memcpy (env.fresh t.allocs).rawData data len.toNat = some raw ∧
      hashTableInsert env t key data len = .ok (0,
        { data := Function.update t.data (hashFunc key) (t.data (hashFunc key) ++
            [⟨key, raw, len, (env.fresh t.allocs).taskStatus⟩]),
          dataSize := t.dataSize + len, allocs := t.allocs + 1 }) := by
  obtain ⟨raw, hraw⟩ := memcpy_of_le (env.fresh t.allocs).rawData data len.toNat hl hd
  exact ⟨raw, hraw, by simp [hashTableInsert, hk, hraw, insertDataPoint]⟩

theorem insert_refines (env : Env) (t : HTable) (key : UInt64) (data : Bytes) (len : UInt64)
    (hk : key ≠ 0) (hl : len.toNat ≤ maxDataLen) (hd : len.toNat ≤ data.length) :
    ∃ u, hashTableInsert env t key data len = .ok (0, u) ∧
      Refines t (.insert key data len) 0 u := by
  obtain ⟨raw, hraw, hins⟩ := hashTableInsert_ok env t key data len hk hl hd
  have hentry : entry ⟨key, raw, len, (env.fresh t.allocs).taskStatus⟩ = (data.take len.toNat, len) := by
    simp [entry, take_memcpy hraw]
  refine ⟨_, hins, ?_, ?_, ?_⟩
  · rw [cells_update t _ (hashFunc key) key _ rfl]
    · simp only [step, tableMachine, Call.key, queueAct, hk, if_false, withKey_append,
        List.map_append]
      simp [cells, entriesIn, withKey, hentry]
    · intro j hj
      rw [withKey_append]
      simp [withKey, Ne.symm hj]
  · simp [tableMachine, queueAct, hk]
  · apply size_update t _ (hashFunc key) _ rfl
    have hone : lenSum [⟨key, raw, len, (env.fresh t.allocs).taskStatus⟩] = len := by
      simp [lenSum]
    rw [lenSum_append, hone]
    grind

theorem delete_refines (t : HTable) (key : UInt64) :
    Refines t (.delete key) (hashTableDelete t key).1 (hashTableDelete t key).2 := by
  cases hu : unlink key (t.data (hashFunc key)) with
  | none =>
    have hdel : hashTableDelete t key = (-1, t) := by simp [hashTableDelete, hu]
    have hq : cells t (hashFunc key, key) = [] := by
      simp [cells, entriesIn, unlink_eq_none key _ hu]
    rw [hdel]
    refine ⟨?_, ?_, rfl⟩
    · have hact : (queueAct (.delete key) (cells t (hashFunc key, key))).1 =
          cells t (hashFunc key, key) := by
        rw [hq]
        rfl
      simp [step, tableMachine, Call.key, hact]
    · simp [tableMachine, Call.key, hq, queueAct]
  | some r =>
    obtain ⟨d, rest⟩ := r
    have hdel : hashTableDelete t key = (0, { t with
        data := Function.update t.data (hashFunc key) rest, dataSize := t.dataSize - d.dataLen }) := by
      simp [hashTableDelete, hu]
    obtain ⟨hhead, hother⟩ := withKey_unlink key _ rest d hu
    have hq : cells t (hashFunc key, key) = entry d :: (withKey key rest).map entry := by
      simp [cells, entriesIn, hhead]
    rw [hdel]
    refine ⟨?_, ?_, ?_⟩
    · rw [cells_update t _ (hashFunc key) key rest rfl hother]
      simp [step, tableMachine, Call.key, hq, queueAct]
    · simp [tableMachine, Call.key, hq, queueAct]
    · apply size_update t _ (hashFunc key) rest rfl
      obtain ⟨pre, post, hchain, hrest, -, -⟩ := unlink_eq_some key _ rest d hu
      have hcons : lenSum (d :: post) = d.dataLen + lenSum post := rfl
      rw [hchain, hrest, lenSum_append, lenSum_append, hcons]
      grind

theorem run_call_refines (env : Env) (t : HTable) (c : Call) (hc : c.InBounds) :
    ∃ r u, c.run env t = .ok (r, u) ∧ Refines t c r u := by
  cases c with
  | delete key => exact ⟨_, _, rfl, delete_refines t key⟩
  | insert key data len =>
    by_cases hk : key = 0
    · subst hk
      refine ⟨-1, t, hashTableInsert_zero env t data len, ?_, ?_, rfl⟩
      · simp [step, tableMachine, Call.key, queueAct]
      · simp [tableMachine, queueAct]
    · have hb : len.toNat ≤ maxDataLen ∧ len.toNat ≤ data.length := hc.resolve_left hk
      obtain ⟨u, hu, hr⟩ := insert_refines env t key data len hk hb.1 hb.2
      exact ⟨0, u, hu, hr⟩

theorem run_call_fault (env : Env) (t : HTable) (c : Call) (hc : ¬c.InBounds) :
    c.run env t = .error .outOfBounds := by
  cases c with
  | delete key => exact absurd trivial hc
  | insert key data len =>
    have hk : key ≠ 0 := fun h => hc (Or.inl h)
    have hb : ¬(len.toNat ≤ maxDataLen ∧ len.toNat ≤ data.length) := fun h => hc (Or.inr h)
    simp [Call.run, hashTableInsert, hk, memcpy_eq_none _ _ _ hb]

end ToDoList
