import ToDoList.Storage

/-!
# Invariants of reachable tables

Every node lies in the bucket of its key, no key is 0, and `data_size` is the
sum of the lengths. On a heap that reads as zero the bytes of `raw_data` behind
`data_len` are NULs, so `raw_data` is a terminated string.
-/

namespace ToDoList
open CLib

def AllNodes (P : Fin hashTableLen → DataPoint → Prop) (t : HTable) : Prop :=
  ∀ b, ∀ d ∈ t.data b, P b d

theorem AllNodes.mem {P : DataPoint → Prop} {t : HTable} (h : AllNodes (fun _ d => P d) t) :
    ∀ d ∈ allEntries t, P d := by
  intro d hd
  obtain ⟨b, -, hb⟩ := List.mem_flatMap.mp hd
  exact h b d hb

theorem mem_allEntries {t : HTable} {b : Fin hashTableLen} {d : DataPoint} (h : d ∈ t.data b) :
    d ∈ allEntries t := List.mem_flatMap.mpr ⟨b, List.mem_finRange b, h⟩

structure TableInv (t : HTable) : Prop where
  bucket : AllNodes (fun b d => hashFunc d.key = b) t
  key_ne : AllNodes (fun _ d => d.key ≠ 0) t
  size : t.dataSize = lenSum (allEntries t)

/-- `raw_data` holds `data_len` bytes and then NULs only. -/
def ZeroTail (d : DataPoint) : Prop :=
  d.dataLen.toNat ≤ maxDataLen ∧
    d.rawData.toList.drop d.dataLen.toNat = List.replicate (maxDataLen - d.dataLen.toNat) 0

/-! ### Inversion of the table operations -/

theorem hashTableInsert_cases {env : Env} {t u : HTable} {key len : UInt64} {data : Bytes} {ret : ℤ}
    (h : hashTableInsert env t key data len = .ok (ret, u)) :
    (key = 0 ∧ ret = -1 ∧ u = t) ∨
      (key ≠ 0 ∧ ret = 0 ∧ ∃ raw, memcpy (env.fresh t.allocs).rawData data len.toNat = some raw ∧
        u = { data := Function.update t.data (hashFunc key) (t.data (hashFunc key) ++
                [⟨key, raw, len, (env.fresh t.allocs).taskStatus⟩]),
              dataSize := t.dataSize + len, allocs := t.allocs + 1 }) := by
  unfold hashTableInsert at h
  split at h
  · rename_i hk
    cases h
    exact Or.inl ⟨hk, rfl, rfl⟩
  · rename_i hk
    cases hm : memcpy (env.fresh t.allocs).rawData data len.toNat with
    | none =>
      simp only [hm] at h
      cases h
    | some raw =>
      simp only [hm] at h
      cases h
      exact Or.inr ⟨hk, rfl, raw, rfl, rfl⟩

theorem hashTableModify_cases {env : Env} {t u : HTable} {key : UInt64} {status : TStatus} {ret : ℤ}
    (h : hashTableModify env t key status = .ok (ret, u)) :
    u = t ∨ ∃ i, u = ⟨Function.update t.data (hashFunc key)
      ((t.data (hashFunc key)).modify i (withStatus status)), t.dataSize, t.allocs⟩ := by
  unfold hashTableModify at h
  dsimp only at h
  split at h
  · cases h
  · cases h
    exact Or.inl rfl
  · rename_i i _
    cases h
    exact Or.inr ⟨i, rfl⟩

theorem mem_modify_status {chain : List DataPoint} {i : ℕ} {status : TStatus} {d : DataPoint}
    (h : d ∈ chain.modify i (withStatus status)) :
    ∃ c ∈ chain, d.key = c.key ∧ d.rawData = c.rawData ∧ d.dataLen = c.dataLen := by
  rw [List.mem_iff_getElem?] at h
  obtain ⟨j, hj⟩ := h
  rw [List.getElem?_modify] at hj
  cases hc : chain[j]? with
  | none =>
    simp [hc] at hj
  | some c =>
    have hmem : c ∈ chain := List.mem_of_getElem? hc
    rw [hc] at hj
    by_cases hij : i = j
    · simp [hij] at hj
      subst hj
      exact ⟨c, hmem, rfl, rfl, rfl⟩
    · simp [hij] at hj
      subst hj
      exact ⟨c, hmem, rfl, rfl, rfl⟩

theorem lenSum_modify_status (chain : List DataPoint) (i : ℕ) (status : TStatus) :
    lenSum (chain.modify i (withStatus status)) = lenSum chain := by
  induction chain generalizing i with
  | nil => simp
  | cons d ds ih =>
    cases i with
    | zero => simp [lenSum, withStatus]
    | succ i =>
      have hi := ih i
      simp only [lenSum, List.modify_succ_cons, List.foldr_cons] at hi ⊢
      rw [hi]

/-! ### Properties of nodes -/

theorem allNodes_update {P : Fin hashTableLen → DataPoint → Prop} {t u : HTable}
    {b : Fin hashTableLen} {chain : List DataPoint} (hdata : u.data = Function.update t.data b chain)
    (ht : AllNodes P t) (hchain : ∀ d ∈ chain, P b d) : AllNodes P u := by
  intro c d hd
  rw [hdata] at hd
  by_cases hc : c = b
  · subst hc
    rw [Function.update_self] at hd
    exact hchain d hd
  · rw [Function.update_of_ne hc] at hd
    exact ht c d hd

theorem allNodes_delete {P : Fin hashTableLen → DataPoint → Prop} {t : HTable} (ht : AllNodes P t)
    (key : UInt64) : AllNodes P (hashTableDelete t key).2 := by
  unfold hashTableDelete
  cases hu : unlink key (t.data (hashFunc key)) with
  | none => exact ht
  | some r =>
    obtain ⟨c, rest⟩ := r
    obtain ⟨pre, post, hchain, hrest, -, -⟩ := unlink_eq_some key _ rest c hu
    refine allNodes_update rfl ht fun d hd => ht (hashFunc key) d ?_
    rw [hchain]
    rw [hrest] at hd
    rcases List.mem_append.mp hd with hd | hd
    · exact List.mem_append_left _ hd
    · exact List.mem_append_right _ (List.mem_cons_of_mem _ hd)

theorem allNodes_stable {env : Env} {P : Fin hashTableLen → DataPoint → Prop}
    (hins : ∀ n key data len raw, key ≠ 0 →
      memcpy (env.fresh n).rawData data (UInt64.toNat len) = some raw →
      P (hashFunc key) ⟨key, raw, len, (env.fresh n).taskStatus⟩)
    (hmod : ∀ b (c d : DataPoint), d.key = c.key → d.rawData = c.rawData → d.dataLen = c.dataLen →
      P b c → P b d) :
    Stable env (AllNodes P) := by
  intro t u hstep ht
  cases hstep with
  | init => exact fun b d hd => absurd hd List.not_mem_nil
  | insert _ key data len ret h =>
    rcases hashTableInsert_cases h with ⟨-, -, rfl⟩ | ⟨hk, -, raw, hraw, rfl⟩
    · exact ht
    · refine allNodes_update rfl ht fun d hd => ?_
      rcases List.mem_append.mp hd with hd | hd
      · exact ht _ d hd
      · rw [List.mem_singleton.mp hd]
        exact hins _ _ _ _ _ hk hraw
  | delete key => exact allNodes_delete ht key
  | modify _ key status ret h =>
    rcases hashTableModify_cases h with rfl | ⟨i, rfl⟩
    · exact ht
    · refine allNodes_update rfl ht fun d hd => ?_
      obtain ⟨c, hc, h1, h2, h3⟩ := mem_modify_status hd
      exact hmod _ c d h1 h2 h3 (ht _ c hc)

theorem key_ne_stable (env : Env) : Stable env (AllNodes fun _ d => d.key ≠ 0) := by
  apply allNodes_stable
  · intro n key data len raw hk _
    exact hk
  · intro b c d h1 _ _ hc
    rw [h1]
    exact hc

theorem bucket_stable (env : Env) : Stable env (AllNodes fun b d => hashFunc d.key = b) := by
  apply allNodes_stable
  · intro n key data len raw _ _
    rfl
  · intro b c d h1 _ _ hc
    rw [h1]
    exact hc

theorem zeroTail_stable (env : Env) (hz : env.ZeroHeap) :
    Stable env (AllNodes fun _ d => ZeroTail d) := by
  apply allNodes_stable
  · intro n key data len raw _ hraw
    obtain ⟨hl, hs, hlist⟩ := memcpy_eq_some hraw
    have htake : (data.take len.toNat).length = len.toNat := by
      rw [List.length_take]
      omega
    refine ⟨hl, ?_⟩
    rw [hlist, List.drop_left' htake, hz n, toList_zeros, List.drop_replicate]
  · intro b c d _ h2 h3 hc
    unfold ZeroTail
    rw [h2, h3]
    exact hc

/-! ### `data_size` -/

theorem size_stable (env : Env) : Stable env fun t => t.dataSize = lenSum (allEntries t) := by
  intro t u hstep ht
  -- every change moves `data_size` with the sum of the lengths
  have hmove : ∀ v : HTable, v.dataSize + lenSum (allEntries t) = t.dataSize + lenSum (allEntries v) →
      v.dataSize = lenSum (allEntries v) := by
    intro v hv
    rw [ht] at hv
    grind
  cases hstep with
  | init => rfl
  | insert _ key data len ret h =>
    rcases hashTableInsert_cases h with ⟨-, -, rfl⟩ | ⟨hk, -, raw, hraw, rfl⟩
    · exact ht
    · obtain ⟨hl, hs, -⟩ := memcpy_eq_some hraw
      obtain ⟨v, hv, href⟩ := insert_refines env t key data len hk hl hs
      rw [h] at hv
      cases hv
      exact hmove _ href.size
  | delete key => exact hmove _ (delete_refines t key).size
  | modify _ key status ret h =>
    rcases hashTableModify_cases h with rfl | ⟨i, rfl⟩
    · exact ht
    · apply hmove
      apply size_update t _ (hashFunc key) _ rfl
      rw [lenSum_modify_status]

theorem tableInv_of_reachable (env : Env) (t : HTable) (h : ReachableTable env t) : TableInv t where
  bucket := reachableTable_induction (bucket_stable env)
    (fun _ _ hd => absurd hd List.not_mem_nil) t h
  key_ne := reachableTable_induction (key_ne_stable env)
    (fun _ _ hd => absurd hd List.not_mem_nil) t h
  size := reachableTable_induction (size_stable env) rfl t h

theorem zeroTail_of_reachable (env : Env) (hz : env.ZeroHeap) (t : HTable)
    (h : ReachableTable env t) : AllNodes (fun _ d => ZeroTail d) t :=
  reachableTable_induction (zeroTail_stable env hz) (fun _ _ hd => absurd hd List.not_mem_nil) t h

theorem importField_setTable (line : Bytes) (st : ImportState) (t : HTable) :
    importField line { st with table := t } = { importField line st with table := t } := by
  unfold importField
  dsimp only
  split <;> split <;> split <;> rfl

end ToDoList
