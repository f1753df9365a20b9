import ToDoList.Log
import Mathlib.Data.List.Chain

/-!
# The linked log as two bounded queues

`Rep` says which nodes a ring holds and what their links are. Every link is
kept but one: the `next` of the tail leads to the head only until that head is
dequeued. Nothing is ever read through it.
-/

namespace ToDoList
open Fifo StepRun

variable {α : Type}

theorem isChain_imp_dropLast {β : Type*} {R S : β → β → Prop} {l : List β} (h : l.IsChain R)
    (himp : ∀ a b, a ∈ l.dropLast → R a b → S a b) : l.IsChain S := by
  induction l with
  | nil => exact .nil
  | cons a l ih =>
    cases l with
    | nil => exact .singleton a
    | cons b l =>
      rw [List.isChain_cons_cons] at h ⊢
      rw [List.dropLast_cons_cons] at himp
      refine ⟨himp a b (List.mem_cons_self ..) h.1, ih h.2 ?_⟩
      intro c d hc
      exact himp c d (List.mem_cons_of_mem _ hc)

/-! ### Links -/

def nextAt (m : Memory α) (a : Addr) : Option (Option Addr) := (m.node a).map LogNode.next

def prevAt (m : Memory α) (a : Addr) : Option (Option Addr) := (m.node a).map LogNode.prev

/-- Only the links of `nodes` differ, and no link has been read. -/
structure Relinked (m m' : Memory α) (nodes : List Addr) : Prop where
  frame : ∀ b, b ∉ nodes → m'.node b = m.node b
  alloc : ∀ b, m'.node b = none ↔ m.node b = none
  followed : m'.followed = m.followed

theorem Relinked.trans {m m' m'' : Memory α} {as bs : List Addr} (h : Relinked m m' as)
    (h' : Relinked m' m'' bs) : Relinked m m'' (as ++ bs) where
  frame b hb := by
    rw [List.mem_append, not_or] at hb
    rw [h'.frame b hb.2, h.frame b hb.1]
  alloc b := (h'.alloc b).trans (h.alloc b)
  followed := h'.followed.trans h.followed

theorem readNext_some {m : Memory α} {a : Addr} {p : Option Addr} (h : nextAt m a = some p) :
    readNext (some a) m = .ok (p, { m with followed := a :: m.followed }) := by
  obtain ⟨n, hn, rfl⟩ := Option.map_eq_some_iff.mp h
  simp [readNext, deref, hn]

theorem setNext_some {m : Memory α} {a : Addr} (ha : m.node a ≠ none) (v : Option Addr) :
    ∃ m', setNext (some a) v m = .ok m' ∧ nextAt m' = Function.update (nextAt m) a (some v) ∧
      prevAt m' = prevAt m ∧ Relinked m m' [a] := by
  obtain ⟨n, hn⟩ := Option.ne_none_iff_exists'.mp ha
  refine ⟨{ m with node := Function.update m.node a (some { n with next := v }) },
    by simp [setNext, deref, hn], ?_, ?_, ?_, ?_, rfl⟩
  · funext b
    by_cases hb : b = a <;> simp [nextAt, hb]
  · funext b
    by_cases hb : b = a <;> simp [prevAt, hb, hn]
  · intro b hb
    rw [List.mem_singleton] at hb
    exact Function.update_of_ne hb ..
  · intro b
    by_cases hb : b = a <;> simp [hb, hn]

theorem setPrev_some {m : Memory α} {a : Addr} (ha : m.node a ≠ none) (v : Option Addr) :
    ∃ m', setPrev (some a) v m = .ok m' ∧ prevAt m' = Function.update (prevAt m) a (some v) ∧
      nextAt m' = nextAt m ∧ Relinked m m' [a] := by
  obtain ⟨n, hn⟩ := Option.ne_none_iff_exists'.mp ha
  refine ⟨{ m with node := Function.update m.node a (some { n with prev := v }) },
    by simp [setPrev, deref, hn], ?_, ?_, ?_, ?_, rfl⟩
  · funext b
    by_cases hb : b = a <;> simp [prevAt, hb]
  · funext b
    by_cases hb : b = a <;> simp [nextAt, hb, hn]
  · intro b hb
    rw [List.mem_singleton] at hb
    exact Function.update_of_ne hb ..
  · intro b
    by_cases hb : b = a <;> simp [hb, hn]

/-! ### The nodes of one ring -/

/-- `nodes` are those of the ring, the oldest first. -/
structure Rep (m : Memory α) (q : LogQueue) (nodes : List Addr) : Prop where
  head : q.head = nodes.head?
  tail : q.tail = nodes.getLast?
  count : q.count = nodes.length
  bound : nodes.length ≤ q.limit
  nodup : nodes.Nodup
  alloc : ∀ a ∈ nodes, m.node a ≠ none
  next : nodes.IsChain fun a b => nextAt m a = some (some b)
  prev : nodes.IsChain fun a b => prevAt m b = some (some a)
  headPrev : ∀ a ∈ nodes.head?, prevAt m a = some nodes.getLast?
  tailNext : ∀ a ∈ nodes.getLast?, ∃ b, nextAt m a = some (some b) ∧
    (nodes.head? = some b ∨ b ∉ nodes)

theorem rep_init (m : Memory α) (limit : ℕ) : Rep m { limit := limit } [] where
  head := rfl
  tail := rfl
  count := rfl
  bound := Nat.zero_le _
  nodup := .nil
  alloc a ha := absurd ha List.not_mem_nil
  next := .nil
  prev := .nil
  headPrev a ha := by simp at ha
  tailNext a ha := by simp at ha

/-- What happens elsewhere in the memory does not matter to a ring. -/
theorem Rep.congr {m m' : Memory α} {q : LogQueue} {nodes : List Addr} (h : Rep m q nodes)
    (hnode : ∀ a ∈ nodes, m'.node a = m.node a) : Rep m' q nodes := by
  have hnext : ∀ a ∈ nodes, nextAt m' a = nextAt m a := by
    intro a ha
    rw [nextAt, nextAt, hnode a ha]
  have hprev : ∀ a ∈ nodes, prevAt m' a = prevAt m a := by
    intro a ha
    rw [prevAt, prevAt, hnode a ha]
  refine ⟨h.head, h.tail, h.count, h.bound, h.nodup, ?_, ?_, ?_, ?_, ?_⟩
  · intro a ha
    rw [hnode a ha]
    exact h.alloc a ha
  · refine h.next.imp_of_mem_imp ?_
    intro a b ha _ hab
    rw [hnext a ha]
    exact hab
  · refine h.prev.imp_of_mem_imp ?_
    intro a b _ hb hab
    rw [hprev b hb]
    exact hab
  · intro a ha
    rw [hprev a (List.mem_of_mem_head? ha)]
    exact h.headPrev a ha
  · intro a ha
    rw [hnext a (List.mem_of_mem_getLast? ha)]
    exact h.tailNext a ha

/-! ### dequeue on one ring -/

theorem ok_bind {φ β γ : Type} (b : β) (f : β → Except φ γ) : (Except.ok b >>= f) = f b := rfl

/-- The seam of the ring is closed: the tail leads to the head. -/
def Seam (m : Memory α) (nodes : List Addr) : Prop :=
  ∀ t ∈ nodes.getLast?, nextAt m t = some nodes.head?

/-- The memory behind a call: the nodes outside `nodes` are as they were, and
links have been read of `nodes` only. -/
structure Within (m m' : Memory α) (nodes : List Addr) : Prop where
  frame : ∀ b, b ∉ nodes → m'.node b = m.node b
  followed : ∃ reads, m'.followed = reads ++ m.followed ∧ ∀ a ∈ reads, a ∈ nodes

theorem Within.refl (m : Memory α) (nodes : List Addr) : Within m m nodes :=
  ⟨fun _ _ => rfl, [], rfl, by simp⟩

theorem dequeue_pair {m : Memory α} {q : LogQueue} {a b : Addr} {rest : List Addr}
    (h : Rep m q (a :: b :: rest)) : ∃ m',
      q.dequeue m = .ok (some a, { q with head := some b, count := q.count - 1 }, m') ∧
      nextAt m' = nextAt m ∧ prevAt m' = Function.update (prevAt m) b (some q.tail) ∧
      (∀ c, c ≠ b → m'.node c = m.node c) ∧ (∀ c, m'.node c = none ↔ m.node c = none) ∧
      m'.followed = a :: a :: m.followed := by
  have hcount : q.count = rest.length + 2 := h.count
  have hlink : nextAt m a = some (some b) := (List.isChain_cons_cons.mp h.next).1
  have hread := readNext_some hlink
  obtain ⟨m', hset, hprev, hnext, hrel⟩ := setPrev_some
    (m := { m with followed := a :: m.followed }) (h.alloc b (by simp)) q.tail
  have hlink' : nextAt m' a = some (some b) := by
    rw [hnext]
    exact hlink
  have hread' := readNext_some hlink'
  refine ⟨{ m' with followed := a :: m'.followed }, ?_, hnext, hprev, ?_, hrel.alloc, ?_⟩
  · unfold LogQueue.dequeue
    have hhead : q.head = some a := h.head
    rw [if_pos (by omega), if_neg (by omega), hhead, hread, ok_bind]
    dsimp only
    rw [hset, ok_bind, hread', ok_bind]
  · intro c hc
    exact hrel.frame c (by simpa using hc)
  · show a :: m'.followed = _
    rw [hrel.followed]

/-- `dequeue` returns the oldest node and leaves the others, with the seam open. -/
theorem dequeue_rep {m : Memory α} {q : LogQueue} {nodes : List Addr} (h : Rep m q nodes) :
    ∃ q' m', q.dequeue m = .ok (nodes.head?, q', m') ∧ Rep m' q' nodes.tail ∧ q'.limit = q.limit ∧
      Within m m' nodes ∧ (nodes.tail ≠ [] → ¬Seam m' nodes.tail) := by
  match nodes, h with
  | [], h =>
    have hcount : q.count = 0 := h.count
    refine ⟨q, m, ?_, h, rfl, Within.refl m [], fun hne => absurd rfl hne⟩
    unfold LogQueue.dequeue
    rw [if_neg (by omega)]
    rfl
  | [a], h =>
    have hcount : q.count = 1 := h.count
    refine ⟨{ q with head := none, tail := none, count := q.count - 1 }, m, ?_, ?_, rfl,
      Within.refl m [a], fun hne => absurd rfl hne⟩
    · unfold LogQueue.dequeue
      rw [if_pos (by omega), if_pos hcount, h.head]
    · rw [hcount]
      exact rep_init m q.limit
  | a :: b :: rest, h =>
    obtain ⟨m', hdeq, hnext, hprev, hframe, halloc, hfollowed⟩ := dequeue_pair h
    have hcount : q.count = rest.length + 2 := h.count
    have hbound : rest.length + 2 ≤ q.limit := h.bound
    have htail : q.tail = (b :: rest).getLast? := by
      rw [h.tail, List.getLast?_cons_cons]
    obtain ⟨ha, hnodup⟩ := List.nodup_cons.mp h.nodup
    -- the tail leads to a node that is no longer there
    have hopen : ∀ t ∈ (b :: rest).getLast?, ∃ c, nextAt m' t = some (some c) ∧ c ∉ b :: rest := by
      intro t ht
      rw [hnext]
      obtain ⟨c, hc, hhead | hout⟩ := h.tailNext t (by rw [List.getLast?_cons_cons]; exact ht)
      · refine ⟨c, hc, ?_⟩
        cases hhead
        exact ha
      · exact ⟨c, hc, fun hmem => hout (List.mem_cons_of_mem _ hmem)⟩
    refine ⟨_, m', hdeq, ?_, rfl, ⟨?_, ?_⟩, ?_⟩
    · refine ⟨rfl, htail, ?_, ?_, hnodup, ?_, ?_, ?_, ?_, ?_⟩
      · show q.count - 1 = rest.length + 1
        omega
      · show rest.length + 1 ≤ q.limit
        omega
      · intro c hc hnone
        exact h.alloc c (List.mem_cons_of_mem _ hc) ((halloc c).mp hnone)
      · rw [hnext]
        exact (List.isChain_cons_cons.mp h.next).2
      · refine (List.isChain_cons_cons.mp h.prev).2.imp_of_mem_tail_imp ?_
        intro c d _ hd hcd
        rw [hprev, Function.update_of_ne]
        · exact hcd
        · rintro rfl
          exact (List.nodup_cons.mp hnodup).1 hd
      · intro c hc
        cases hc
        rw [hprev, Function.update_self, htail]
        rfl
      · intro t ht
        obtain ⟨c, hc, hout⟩ := hopen t ht
        exact ⟨c, hc, .inr hout⟩
    · intro c hc
      refine hframe c ?_
      rintro rfl
      exact hc (by simp)
    · exact ⟨[a, a], hfollowed, by simp⟩
    · intro _ hseam
      have hne : (b :: rest).getLast? ≠ none := by simp
      obtain ⟨t, ht⟩ := Option.ne_none_iff_exists'.mp hne
      obtain ⟨c, hc, hout⟩ := hopen t ht
      have hb := hseam t ht
      rw [List.tail_cons, List.head?_cons, hc] at hb
      cases hb
      exact hout (List.mem_cons_self ..)

/-! ### enqueue on one ring -/

theorem enqueue_full {m : Memory α} {q : LogQueue} {nodes : List Addr} (h : Rep m q nodes)
    (hfull : q.limit ≤ nodes.length) (node : Addr) : q.enqueue node m = .ok (-1, q, m) := by
  have hcount := h.count
  unfold LogQueue.enqueue
  rw [if_pos (by omega)]

theorem enqueue_stores {m : Memory α} {node h t : Addr} (hnode : m.node node ≠ none)
    (hh : m.node h ≠ none) (ht : m.node t ≠ none) :
    ∃ m₁ m₂ m₃ m', setNext (some node) (some h) m = .ok m₁ ∧ setPrev (some node) (some t) m₁ = .ok m₂ ∧
      setNext (some t) (some node) m₂ = .ok m₃ ∧ setPrev (some h) (some node) m₃ = .ok m' ∧
      nextAt m' = Function.update (Function.update (nextAt m) node (some (some h))) t (some (some node)) ∧
      prevAt m' = Function.update (Function.update (prevAt m) node (some (some t))) h (some (some node)) ∧
      Relinked m m' [node, node, t, h] := by
  obtain ⟨m₁, h1, hn1, hp1, r1⟩ := setNext_some hnode (some h)
  obtain ⟨m₂, h2, hp2, hn2, r2⟩ := setPrev_some (fun hx => hnode ((r1.alloc node).mp hx)) (some t)
  have r12 := r1.trans r2
  obtain ⟨m₃, h3, hn3, hp3, r3⟩ := setNext_some (fun hx => ht ((r12.alloc t).mp hx)) (some node)
  have r13 := r12.trans r3
  obtain ⟨m', h4, hp4, hn4, r4⟩ := setPrev_some (fun hx => hh ((r13.alloc h).mp hx)) (some node)
  refine ⟨m₁, m₂, m₃, m', h1, h2, h3, h4, ?_, ?_, r13.trans r4⟩
  · rw [hn4, hn3, hn2, hn1]
  · rw [hp4, hp3, hp2, hp1]

/-- The node the ring begins with once `node` is in it, and the one it ended with
before, which are `node` in an empty ring. -/
def headWith (nodes : List Addr) (node : Addr) : Addr := nodes.head?.getD node

def tailWith (nodes : List Addr) (node : Addr) : Addr := nodes.getLast?.getD node

theorem headWith_mem (nodes : List Addr) (node : Addr) : headWith nodes node ∈ nodes ++ [node] := by
  cases nodes <;> simp [headWith]

theorem tailWith_mem (nodes : List Addr) (node : Addr) : tailWith nodes node ∈ nodes ++ [node] := by
  unfold tailWith
  cases hlast : nodes.getLast? with
  | none => simp
  | some a => exact List.mem_append_left _ (List.mem_of_mem_getLast? hlast)

theorem tailWith_of_getLast? {nodes : List Addr} {t : Addr} (h : nodes.getLast? = some t) (node : Addr) :
    tailWith nodes node = t := by
  rw [tailWith, h]
  rfl

theorem headWith_of_head? {nodes : List Addr} {t : Addr} (h : nodes.head? = some t) (node : Addr) :
    headWith nodes node = t := by
  rw [headWith, h]
  rfl

theorem Rep.alloc_append {m : Memory α} {q : LogQueue} {nodes : List Addr} {node : Addr}
    (h : Rep m q nodes) (hnode : m.node node ≠ none) : ∀ a ∈ nodes ++ [node], m.node a ≠ none := by
  intro a ha
  rcases List.mem_append.mp ha with ha | ha
  · exact h.alloc a ha
  · rw [List.mem_singleton.mp ha]
    exact hnode

theorem enqueue_links {m : Memory α} {q : LogQueue} {nodes : List Addr} {node : Addr}
    (h : Rep m q nodes) (hroom : nodes.length < q.limit) (hnode : m.node node ≠ none) :
    ∃ m', q.enqueue node m =
        .ok (0, ⟨some (headWith nodes node), some node, q.count + 1, q.limit⟩, m') ∧
      nextAt m' = Function.update (Function.update (nextAt m) node (some (some (headWith nodes node))))
        (tailWith nodes node) (some (some node)) ∧
      prevAt m' = Function.update (Function.update (prevAt m) node (some (some (tailWith nodes node))))
        (headWith nodes node) (some (some node)) ∧
      Relinked m m' [node, node, tailWith nodes node, headWith nodes node] := by
  have hcount := h.count
  have halloc := h.alloc_append hnode
  obtain ⟨m₁, m₂, m₃, m', h1, h2, h3, h4, hnext, hprev, hrel⟩ := enqueue_stores hnode
    (halloc _ (headWith_mem nodes node)) (halloc _ (tailWith_mem nodes node))
  refine ⟨m', ?_, hnext, hprev, hrel⟩
  have hq : (if q.count = 0 then { q with head := some node, tail := some node } else q) =
      ⟨some (headWith nodes node), some (tailWith nodes node), q.count, q.limit⟩ := by
    cases nodes with
    | nil =>
      have hzero : q.count = 0 := hcount
      rw [if_pos hzero]
      rfl
    | cons a rest =>
      have hhead := h.head
      have htail := h.tail
      rw [List.length_cons] at hcount
      rw [if_neg (by omega)]
      rw [headWith_of_head? rfl]
      have hlast : (a :: rest).getLast? ≠ none := by simp
      obtain ⟨t, ht⟩ := Option.ne_none_iff_exists'.mp hlast
      rw [tailWith_of_getLast? ht, ← ht, ← htail, ← List.head?_cons (a := a) (l := rest), ← hhead]
  unfold LogQueue.enqueue
  rw [if_neg (by omega), hq]
  dsimp only
  rw [h1, ok_bind, h2, ok_bind, h3, ok_bind, h4, ok_bind]

theorem last_not_mem_dropLast {nodes : List Addr} (h : nodes.Nodup) {t : Addr}
    (ht : nodes.getLast? = some t) : t ∉ nodes.dropLast := by
  have hsplit := List.dropLast_append_getLast? t ht
  rw [← hsplit, List.nodup_append] at h
  intro hmem
  exact h.2.2 t hmem t (List.mem_singleton_self t) rfl

section
variable {m m' : Memory α} {q : LogQueue} {nodes : List Addr} {node : Addr} (h : Rep m q nodes)
  (hnew : node ∉ nodes)
include h hnew

theorem enqueue_next (hnext : nextAt m' = Function.update (Function.update (nextAt m) node
      (some (some (headWith nodes node)))) (tailWith nodes node) (some (some node))) :
    (nodes ++ [node]).IsChain fun a b => nextAt m' a = some (some b) := by
  refine List.IsChain.append (isChain_imp_dropLast h.next ?_) (.singleton node) ?_
  · intro a b ha hab
    have hmem : a ∈ nodes := List.mem_of_mem_dropLast ha
    have hlast : a ≠ tailWith nodes node := by
      rintro rfl
      have hne : nodes.getLast? ≠ none := by
        rw [ne_eq, List.getLast?_eq_none_iff]
        exact List.ne_nil_of_mem hmem
      obtain ⟨t, ht⟩ := Option.ne_none_iff_exists'.mp hne
      rw [tailWith_of_getLast? ht] at ha
      exact last_not_mem_dropLast h.nodup ht ha
    have hnode : a ≠ node := by
      rintro rfl
      exact hnew hmem
    rw [hnext, Function.update_of_ne hlast, Function.update_of_ne hnode]
    exact hab
  · intro t ht b hb
    cases hb
    rw [hnext, tailWith_of_getLast? ht, Function.update_self]

theorem enqueue_prev (hprev : prevAt m' = Function.update (Function.update (prevAt m) node
      (some (some (tailWith nodes node)))) (headWith nodes node) (some (some node))) :
    (nodes ++ [node]).IsChain fun a b => prevAt m' b = some (some a) := by
  refine List.IsChain.append (h.prev.imp_of_mem_tail_imp ?_) (.singleton node) ?_
  · intro a b ha hb hab
    have hne : nodes.head? ≠ none := by
      rw [ne_eq, List.head?_eq_none_iff]
      exact List.ne_nil_of_mem ha
    obtain ⟨t, ht⟩ := Option.ne_none_iff_exists'.mp hne
    have hsplit := List.cons_head?_tail ht
    have hnodup := h.nodup
    rw [← hsplit] at hnodup
    have hfirst : b ≠ headWith nodes node := by
      rw [headWith_of_head? ht]
      rintro rfl
      exact (List.nodup_cons.mp hnodup).1 hb
    have hnode : b ≠ node := by
      rintro rfl
      exact hnew (List.mem_of_mem_tail hb)
    rw [hprev, Function.update_of_ne hfirst, Function.update_of_ne hnode]
    exact hab
  · intro t ht b hb
    cases hb
    have hfirst : node ≠ headWith nodes node := by
      intro heq
      have hmem := headWith_mem nodes node
      cases hx : nodes.head? with
      | none =>
        rw [List.head?_eq_none_iff.mp hx] at ht
        cases ht
      | some a =>
        rw [headWith_of_head? hx] at heq
        subst heq
        exact hnew (List.mem_of_mem_head? hx)
    rw [hprev, Function.update_of_ne hfirst, Function.update_self, tailWith_of_getLast? ht]

end

theorem enqueue_seam {m m' : Memory α} {nodes : List Addr} {node : Addr} (hnew : node ∉ nodes)
    (hnext : nextAt m' = Function.update (Function.update (nextAt m) node
      (some (some (headWith nodes node)))) (tailWith nodes node) (some (some node))) :
    nextAt m' node = some (some (headWith nodes node)) := by
  rw [hnext]
  cases hlast : nodes.getLast? with
  | none =>
    -- the new node is head and tail
    rw [List.getLast?_eq_none_iff.mp hlast]
    simp [headWith, tailWith]
  | some t =>
    have hne : node ≠ tailWith nodes node := by
      rw [tailWith_of_getLast? hlast]
      rintro rfl
      exact hnew (List.mem_of_mem_getLast? hlast)
    rw [Function.update_of_ne hne, Function.update_self]

/-- `enqueue` below the limit appends the node and closes the seam. -/
theorem enqueue_rep {m : Memory α} {q : LogQueue} {nodes : List Addr} {node : Addr}
    (h : Rep m q nodes) (hroom : nodes.length < q.limit) (hnew : node ∉ nodes)
    (hnode : m.node node ≠ none) :
    ∃ q' m', q.enqueue node m = .ok (0, q', m') ∧ Rep m' q' (nodes ++ [node]) ∧ q'.limit = q.limit ∧
      Within m m' (nodes ++ [node]) ∧ m'.followed = m.followed ∧ Seam m' (nodes ++ [node]) := by
  obtain ⟨m', henq, hnext, hprev, hrel⟩ := enqueue_links h hroom hnode
  have hcount := h.count
  have hhead : (nodes ++ [node]).head? = some (headWith nodes node) := by
    cases nodes <;> simp [headWith]
  have hlast : (nodes ++ [node]).getLast? = some node := by simp
  have hseam := enqueue_seam hnew hnext
  refine ⟨_, m', henq, ?_, rfl, ⟨?_, [], hrel.followed, by simp⟩, hrel.followed, ?_⟩
  · refine ⟨hhead.symm, hlast.symm, ?_, ?_, ?_, ?_, enqueue_next h hnew hnext,
      enqueue_prev h hnew hprev, ?_, ?_⟩
    · simp [hcount]
    · simp only [List.length_append, List.length_singleton]
      omega
    · exact List.nodup_append.mpr ⟨h.nodup, List.nodup_singleton node, by
        intro a ha b hb
        rw [List.mem_singleton.mp hb]
        rintro rfl
        exact hnew ha⟩
    · intro a ha hnone
      exact h.alloc_append hnode a ha ((hrel.alloc a).mp hnone)
    · intro a ha
      rw [hhead] at ha
      cases ha
      rw [hprev, Function.update_self, hlast]
    · intro a ha
      rw [hlast] at ha
      cases ha
      exact ⟨_, hseam, .inl hhead⟩
  · intro b hb
    refine hrel.frame b ?_
    have ht := tailWith_mem nodes node
    have hh := headWith_mem nodes node
    intro hmem
    simp only [List.mem_cons, List.not_mem_nil, or_false] at hmem
    rcases hmem with rfl | rfl | rfl | rfl
    · exact hb (by simp)
    · exact hb (by simp)
    · exact hb ht
    · exact hb hh
  · intro t ht
    rw [hlast] at ht
    cases ht
    rw [hseam, hhead]

end ToDoList
