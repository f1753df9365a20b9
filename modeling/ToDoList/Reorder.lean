import ToDoList.Queues

/-!
# Reordering calls on different keys

Two runs of `hash_table_insert` and `hash_table_delete` whose calls are the
same up to an order that respects every key: each call returns the same result
and the tables agree on every queue and on `data_size`. The chains themselves
may differ, since keys share buckets.
-/

namespace ToDoList
open CLib KeyedMachine

theorem runCalls_refines {ι : Type*} (env : Env) (t : HTable) (cs : List (ι × Call))
    (h : ∀ c ∈ cs, c.2.InBounds) :
    ∃ rs u, runCalls env t (cs.map Prod.snd) = .ok (rs, u) ∧ rs.length = cs.length ∧
      cs.zip rs = log (tag ι tableMachine) (cells t) cs ∧
      cells u = run tableMachine (cells t) (cs.map Prod.snd) ∧
      u.dataSize + lenSum (allEntries t) = t.dataSize + lenSum (allEntries u) := by
  induction cs generalizing t with
  | nil => exact ⟨[], t, rfl, rfl, rfl, rfl, rfl⟩
  | cons c cs ih =>
    obtain ⟨r, u, hr, href⟩ := run_call_refines env t c.2 (h c (List.mem_cons_self ..))
    obtain ⟨rs, v, hrs, hlen, hlog, hcells, hsize⟩ :=
      ih u fun d hd => h d (List.mem_cons_of_mem _ hd)
    have hstep := href.cells
    refine ⟨r :: rs, v, by simp [runCalls, hr, hrs], by simp [hlen], ?_, ?_, ?_⟩
    · rw [List.zip_cons_cons, hlog, href.result, hstep]
      rfl
    · rw [hcells, hstep]
      rfl
    · have hfirst := href.size
      grind

theorem runCalls_fault (env : Env) (t : HTable) (cs : List Call)
    (h : ∃ c ∈ cs, ¬c.InBounds) : runCalls env t cs = .error .outOfBounds := by
  induction cs generalizing t with
  | nil => simp at h
  | cons c cs ih =>
    by_cases hc : c.InBounds
    · obtain ⟨r, u, hr, -⟩ := run_call_refines env t c hc
      obtain ⟨d, hd, hn⟩ := h
      have htail : ∃ d ∈ cs, ¬d.InBounds := by
        rcases List.mem_cons.mp hd with rfl | hd
        · exact absurd hc hn
        · exact ⟨d, hd, hn⟩
      simp [runCalls, hr, ih u htail]
    · simp [runCalls, run_call_fault env t c hc]

theorem lenSum_of_cells_eq (t u : HTable) (h : cells t = cells u) :
    lenSum (allEntries t) = lenSum (allEntries u) := by
  have hlen : ∀ ds : List DataPoint,
      lenSum ds = (ds.map fun d => (d.key, entry d)).foldr (fun e a => e.2.2 + a) 0 := by
    intro ds
    rw [List.foldr_map]
    rfl
  have hb : ∀ b, ((t.data b).map fun d => (d.key, entry d)).Perm
      ((u.data b).map fun d => (d.key, entry d)) := by
    intro b
    apply CommutingOrder.perm_of_filter_eq Prod.fst
    intro k
    have hk : (withKey k (t.data b)).map entry = (withKey k (u.data b)).map entry :=
      congrFun h (b, k)
    have hpair : ∀ ds : List DataPoint,
        (ds.map fun d => (d.key, entry d)).filter (fun p => p.1 = k) =
          ((withKey k ds).map entry).map fun e => (k, e) := by
      intro ds
      rw [List.filter_map, List.map_map]
      apply List.map_congr_left
      intro d hd
      have hdk : d.key = k := by simpa [withKey] using (List.mem_filter.mp hd).2
      simp [hdk]
    rw [hpair, hpair, hk]
  have hall : ((allEntries t).map fun d => (d.key, entry d)).Perm
      ((allEntries u).map fun d => (d.key, entry d)) := by
    simp only [allEntries, List.map_flatMap]
    exact List.Perm.flatMap_left _ fun b _ => hb b
  rw [hlen, hlen]
  apply hall.foldr_eq'
  intro e _ f _ z
  grind

/-- The reordering `σ` keeps the relative order of calls on the same key. -/
def KeepsKeyOrder {n : ℕ} (calls : Fin n → Call) (σ : Equiv.Perm (Fin n)) : Prop :=
  ∀ i j, i < j → (calls (σ i)).key = (calls (σ j)).key → σ i < σ j

/-- Call `σ i` returned in the second run, where it is the `i`-th, what it
returned in the first; every queue and `data_size` are the same at the end. -/
structure RunsAgree {n : ℕ} (σ : Equiv.Perm (Fin n)) (rs : List ℤ) (u : HTable)
    (rs' : List ℤ) (u' : HTable) : Prop where
  length : rs.length = n
  length' : rs'.length = n
  result : ∀ i : Fin n, rs'[i]? = rs[σ i]?
  entries : ∀ b k, entriesIn u' b k = entriesIn u b k
  size : u'.dataSize = u.dataSize

/-- Calls on different keys may be reordered freely. The two runs may find
different bytes in fresh memory. A copy that leaves its objects ends both. -/
theorem reordered_calls_agree (env env' : Env) (t : HTable) {n : ℕ} (calls : Fin n → Call)
    (σ : Equiv.Perm (Fin n)) (hσ : KeepsKeyOrder calls σ) :
    (∃ i, ¬(calls i).InBounds) ∧
        runCalls env t (List.ofFn calls) = .error .outOfBounds ∧
        runCalls env' t (List.ofFn (calls ∘ σ)) = .error .outOfBounds ∨
      ∃ rs u rs' u', runCalls env t (List.ofFn calls) = .ok (rs, u) ∧
        runCalls env' t (List.ofFn (calls ∘ σ)) = .ok (rs', u') ∧ RunsAgree σ rs u rs' u' := by
  by_cases hb : ∃ i, ¬(calls i).InBounds
  · left
    obtain ⟨i, hi⟩ := hb
    have hmem : calls i ∈ List.ofFn calls := List.mem_ofFn.mpr ⟨i, rfl⟩
    have hmem' : calls i ∈ List.ofFn (calls ∘ σ) := List.mem_ofFn.mpr ⟨σ.symm i, by simp⟩
    exact ⟨⟨i, hi⟩, runCalls_fault env t _ ⟨_, hmem, hi⟩, runCalls_fault env' t _ ⟨_, hmem', hi⟩⟩
  · right
    have hin : ∀ i, (calls i).InBounds := fun i => not_not.mp fun h => hb ⟨i, h⟩
    let l : List (Fin n × Call) := List.ofFn fun i => (i, calls i)
    let l' : List (Fin n × Call) := List.ofFn fun i => (σ i, calls (σ i))
    have hl : ∀ c ∈ l, c.2.InBounds := by
      intro c hc
      obtain ⟨i, rfl⟩ := List.mem_ofFn.mp hc
      exact hin i
    have hl' : ∀ c ∈ l', c.2.InBounds := by
      intro c hc
      obtain ⟨i, rfl⟩ := List.mem_ofFn.mp hc
      exact hin (σ i)
    have hsnd : l.map Prod.snd = List.ofFn calls := by simp [l, List.map_ofFn, Function.comp_def]
    have hsnd' : l'.map Prod.snd = List.ofFn (calls ∘ σ) := by
      simp [l', List.map_ofFn, Function.comp_def]
    obtain ⟨rs, u, hr, hlen, hlog, hcells, hsize⟩ := runCalls_refines env t l hl
    obtain ⟨rs', u', hr', hlen', hlog', hcells', hsize'⟩ := runCalls_refines env' t l' hl'
    -- the same operations on every cell, so the same results and the same queues
    have hkeys : ∀ k, onKey (tag (Fin n) tableMachine) k l' = onKey (tag (Fin n) tableMachine) k l :=
      onKey_reorder tableMachine calls σ fun i j hij hk => hσ i j hij (congrArg Prod.snd hk)
    have heq : cells u' = cells u := by
      rw [hcells', hcells, ← run_tag, ← run_tag, run_congr hkeys]
    have hn : rs.length = n := by simpa [l] using hlen
    have hn' : rs'.length = n := by simpa [l'] using hlen'
    rw [hsnd] at hr
    rw [hsnd'] at hr'
    refine ⟨rs, u, rs', u', hr, hr', hn, hn', ?_, fun b k => congrFun heq (b, k), ?_⟩
    · intro i
      have hi' : i.val < rs'.length := by rw [hn']; exact i.isLt
      have hi : (σ i).val < rs.length := by rw [hn]; exact (σ i).isLt
      have hmem' : ((σ i, calls (σ i)), rs'[i.val]) ∈ l'.zip rs' := by
        rw [List.mem_iff_getElem]
        exact ⟨i.val, by simp [l', hn'], by simp [l']⟩
      rw [hlog', mem_log_congr hkeys, ← hlog] at hmem'
      obtain ⟨j, hj, hzip⟩ := List.mem_iff_getElem.mp hmem'
      have hjn : j < n := by simpa [l, hn] using hj
      rw [List.getElem_zip] at hzip
      have hpair := Prod.mk.inj hzip
      have hj1 : (⟨j, hjn⟩ : Fin n) = σ i := by
        have h1 := congrArg Prod.fst hpair.1
        simpa [l] using h1
      have hj2 : j = (σ i).val := congrArg Fin.val hj1
      subst hj2
      rw [Fin.getElem?_fin, Fin.getElem?_fin, List.getElem?_eq_getElem hi',
        List.getElem?_eq_getElem hi, hpair.2]
    · have hsum := lenSum_of_cells_eq u' u heq
      grind

def twoAdds : Fin 2 → Call
  | 0 => .insert 1 [65] 1
  | 1 => .insert 14 [66] 1

def exchange : Equiv.Perm (Fin 2) := Equiv.swap 0 1

theorem reordered_calls_agree_twoAdds :
    KeepsKeyOrder twoAdds exchange ∧
      ((∃ i, ¬(twoAdds i).InBounds) ∧
          runCalls (zeroEnv fun _ => none) (hashTableInit 0) (List.ofFn twoAdds) =
            .error .outOfBounds ∧
          runCalls (zeroEnv fun _ => none) (hashTableInit 0) (List.ofFn (twoAdds ∘ exchange)) =
            .error .outOfBounds ∨
        ∃ rs u rs' u',
          runCalls (zeroEnv fun _ => none) (hashTableInit 0) (List.ofFn twoAdds) = .ok (rs, u) ∧
          runCalls (zeroEnv fun _ => none) (hashTableInit 0) (List.ofFn (twoAdds ∘ exchange)) =
            .ok (rs', u') ∧ RunsAgree exchange rs u rs' u') := by
  have horder : KeepsKeyOrder twoAdds exchange := by
    unfold KeepsKeyOrder
    decide
  exact ⟨horder, reordered_calls_agree _ _ _ twoAdds exchange horder⟩

end ToDoList
