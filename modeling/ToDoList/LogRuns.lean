import ToDoList.LogSpec

/-!
# Runs of the linked log

Between two calls the rest of the program may allocate, free and overwrite
every node that is in no queue; `world` gives the memory outside the queues as
a call finds it. Beside the log a state has the contents that the bounded
queues of the library have after the same calls.
-/

namespace ToDoList
open Fifo StepRun

variable {α : Type}

inductive LogReply where
  | code (ret : ℤ)
  | node (ret : Option Addr)
deriving Repr, DecidableEq

def replyOf : Answer Addr → LogReply
  | .stored => .code 0
  | .full => .code (-1)
  | .item a => .node (some a)
  | .empty => .node none

/-- The queue of INVALID_LOG takes nothing. -/
def limitOf (nrlLimit ctrlLimit : ℕ) : LogMsgType → ℕ
  | .invalidLog => 0
  | .normal => nrlLimit
  | .control => ctrlLimit

def ServerLog.queue (svr : ServerLog) : LogMsgType → LogQueue
  | .invalidLog => { limit := 0 }
  | .normal => svr.nrl
  | .control => svr.ctrl

def ServerLog.setQueue (svr : ServerLog) (mType : LogMsgType) (q : LogQueue) : ServerLog :=
  match mType with
  | .invalidLog => svr
  | .normal => { svr with nrl := q }
  | .control => { svr with ctrl := q }

structure LogState (α : Type) where
  log : ServerLog
  mem : Memory α
  queues : LogMsgType → List Addr

structure LogCall (α : Type) where
  world : Addr → Option (LogNode α)
  mType : LogMsgType
  op : Op Addr

def logStart (nrlLimit ctrlLimit : ℕ) (mem : Memory α) : LogState α :=
  ⟨initLogQueue nrlLimit ctrlLimit, mem, fun _ => []⟩

def queued (s : LogState α) : List Addr := [.invalidLog, .normal, .control].flatMap s.queues

def found (s : LogState α) (e : LogCall α) : Memory α :=
  { s.mem with node := fun a => if a ∈ queued s then s.mem.node a else e.world a }

/-- The node of an `enqueue` is allocated and in no queue. -/
def CanCall (s : LogState α) (e : LogCall α) : Prop :=
  match e.op with
  | .push node => node ∉ queued s ∧ (e.world node).isSome = true
  | .pop => True

instance (s : LogState α) (e : LogCall α) : Decidable (CanCall s e) :=
  match h : e.op with
  | .push node => decidable_of_iff (node ∉ queued s ∧ (e.world node).isSome = true) (by simp [CanCall, h])
  | .pop => isTrue (by simp [CanCall, h])

def logCall (s : LogState α) (e : LogCall α) : Except Fault (LogReply × ServerLog × Memory α) :=
  match e.op with
  | .push node => do
    let (ret, log, mem) ← s.log.enqueue node e.mType (found s e)
    .ok (.code ret, log, mem)
  | .pop => do
    let (ret, log, mem) ← s.log.dequeue e.mType (found s e)
    .ok (.node ret, log, mem)

variable (limit : LogMsgType → ℕ)

def queuesAfter (s : LogState α) (e : LogCall α) : LogMsgType → List Addr :=
  KeyedMachine.step (machine limit) s.queues (e.mType, e.op)

def logNext (s : LogState α) (e : LogCall α) : Option (LogState α) :=
  if CanCall s e then
    match logCall s e with
    | .error _ => none
    | .ok (_, log, mem) => some ⟨log, mem, queuesAfter limit s e⟩
  else none

/-- What a call does when the log is two bounded queues: it answers as the queue
does, says `-1` just when the queue is full and then changes nothing, counts the
nodes, leaves the other queues alone and reads links of its own nodes only. -/
structure CallMeets (s : LogState α) (e : LogCall α) (reply : LogReply) (log : ServerLog)
    (mem : Memory α) : Prop where
  answer : reply = replyOf (act (limit e.mType) e.op (s.queues e.mType)).2
  full : ∀ node, e.op = .push node →
    (reply = .code (-1) ↔ (s.queues e.mType).length = limit e.mType)
  rejected : reply = .code (-1) → log = s.log ∧ mem = found s e
  count : ∀ t, (log.queue t).count = (queuesAfter limit s e t).length
  others : ∀ t, t ≠ e.mType → log.queue t = s.log.queue t ∧ queuesAfter limit s e t = s.queues t ∧
    ∀ a ∈ s.queues t, mem.node a = s.mem.node a
  followed : ∃ reads, mem.followed = reads ++ s.mem.followed ∧ ∀ a ∈ reads, a ∈ s.queues e.mType

structure LogInv (s : LogState α) : Prop where
  rep : ∀ t, Rep s.mem (s.log.queue t) (s.queues t)
  limit : ∀ t, (s.log.queue t).limit = limit t
  apart : ∀ t t', t ≠ t' → ∀ a ∈ s.queues t, a ∉ s.queues t'

theorem logInv_start (nrlLimit ctrlLimit : ℕ) (mem : Memory α) :
    LogInv (limitOf nrlLimit ctrlLimit) (logStart nrlLimit ctrlLimit mem) where
  rep t := by cases t <;> exact rep_init mem _
  limit t := by cases t <;> rfl
  apart t t' _ a ha := by simp [logStart] at ha

/-! ### One call on one ring -/

def LogQueue.apply (q : LogQueue) (op : Op Addr) (m : Memory α) :
    Except Fault (LogReply × LogQueue × Memory α) :=
  match op with
  | .push node => do
    let (ret, q, m) ← q.enqueue node m
    .ok (.code ret, q, m)
  | .pop => do
    let (ret, q, m) ← q.dequeue m
    .ok (.node ret, q, m)

theorem logCall_apply (s : LogState α) (e : LogCall α) :
    logCall s e = (do
      let (ret, q, m) ← (s.log.queue e.mType).apply e.op (found s e)
      .ok (ret, s.log.setQueue e.mType q, m)) := by
  obtain ⟨world, mType, op⟩ := e
  cases op with
  | push node =>
    cases mType with
    | invalidLog => rfl
    | normal =>
      simp only [logCall, ServerLog.enqueue, LogQueue.apply, bind_assoc, ok_bind]
      rfl
    | control =>
      simp only [logCall, ServerLog.enqueue, LogQueue.apply, bind_assoc, ok_bind]
      rfl
  | pop =>
    cases mType with
    | invalidLog => rfl
    | normal =>
      simp only [logCall, ServerLog.dequeue, LogQueue.apply, bind_assoc, ok_bind]
      rfl
    | control =>
      simp only [logCall, ServerLog.dequeue, LogQueue.apply, bind_assoc, ok_bind]
      rfl

def opensSeam (op : Op Addr) (nodes : List Addr) : Prop := op = .pop ∧ 2 ≤ nodes.length

instance (op : Op Addr) (nodes : List Addr) : Decidable (opensSeam op nodes) :=
  inferInstanceAs (Decidable (_ ∧ _))

def touched : Op Addr → List Addr → List Addr
  | .push node, nodes => nodes ++ [node]
  | .pop, nodes => nodes

structure Applied (q : LogQueue) (m : Memory α) (nodes : List Addr) (op : Op Addr)
    (reply : LogReply) (q' : LogQueue) (m' : Memory α) : Prop where
  answer : reply = replyOf (act q.limit op nodes).2
  rep : Rep m' q' (act q.limit op nodes).1
  limit : q'.limit = q.limit
  rejected : reply = .code (-1) → q' = q ∧ m' = m
  frame : ∀ b, b ∉ touched op nodes → m'.node b = m.node b
  followed : ∃ reads, m'.followed = reads ++ m.followed ∧ ∀ a ∈ reads, a ∈ nodes
  seam : Seam m nodes → (Seam m' (act q.limit op nodes).1 ↔ ¬opensSeam op nodes)

theorem apply_push {m : Memory α} {q : LogQueue} {nodes : List Addr} {node : Addr} (h : Rep m q nodes)
    (hnew : node ∉ nodes) (hnode : m.node node ≠ none) :
    ∃ reply q' m', q.apply (.push node) m = .ok (reply, q', m') ∧
      Applied q m nodes (.push node) reply q' m' := by
  have hclosed : ¬opensSeam (.push node) nodes := by simp [opensSeam]
  by_cases hfull : q.limit ≤ nodes.length
  · have hact : act q.limit (.push node) nodes = (nodes, .full) := by simp [act, hfull]
    refine ⟨.code (-1), q, m, ?_, ?_, ?_, rfl, fun _ => ⟨rfl, rfl⟩, fun _ _ => rfl, ⟨[], rfl, by simp⟩, ?_⟩
    · rw [LogQueue.apply, enqueue_full h hfull]
      rfl
    · rw [hact]
      rfl
    · rw [hact]
      exact h
    · intro hseam
      rw [hact]
      exact iff_of_true hseam hclosed
  · have hact : act q.limit (.push node) nodes = (nodes ++ [node], .stored) := by simp [act, hfull]
    obtain ⟨q', m', henq, hrep, hlimit, hwithin, hfollowed, hseam⟩ :=
      enqueue_rep h (Nat.lt_of_not_le hfull) hnew hnode
    refine ⟨.code 0, q', m', ?_, ?_, ?_, hlimit, ?_, hwithin.frame, ⟨[], hfollowed, by simp⟩, ?_⟩
    · rw [LogQueue.apply, henq]
      rfl
    · rw [hact]
      rfl
    · rw [hact]
      exact hrep
    · intro hcode
      cases hcode
    · intro _
      rw [hact]
      exact iff_of_true hseam hclosed

theorem apply_pop {m : Memory α} {q : LogQueue} {nodes : List Addr} (h : Rep m q nodes) :
    ∃ reply q' m', q.apply .pop m = .ok (reply, q', m') ∧ Applied q m nodes .pop reply q' m' := by
  have hact : (act q.limit .pop nodes).1 = nodes.tail ∧
      replyOf (act q.limit .pop nodes).2 = .node nodes.head? := by
    cases nodes with
    | nil => exact ⟨rfl, rfl⟩
    | cons a rest => exact ⟨rfl, rfl⟩
  obtain ⟨q', m', hdeq, hrep, hlimit, hwithin, hopen⟩ := dequeue_rep h
  refine ⟨.node nodes.head?, q', m', ?_, hact.2.symm, ?_, hlimit, ?_, hwithin.frame,
    hwithin.followed, ?_⟩
  · rw [LogQueue.apply, hdeq]
    rfl
  · rw [hact.1]
    exact hrep
  · intro hcode
    cases hcode
  · intro _
    rw [hact.1]
    have hlen : nodes.tail.length = nodes.length - 1 := List.length_tail
    by_cases hnil : nodes.tail = []
    · refine iff_of_true ?_ ?_
      · rw [hnil]
        intro t ht
        cases ht
      · rintro ⟨-, htwo⟩
        rw [hnil, List.length_nil] at hlen
        omega
    · refine iff_of_false (hopen hnil) ?_
      have hpos := List.length_pos_of_ne_nil hnil
      exact fun hno => hno ⟨rfl, by omega⟩

/-! ### One call on the log -/

theorem mem_queued {s : LogState α} {t : LogMsgType} {a : Addr} (h : a ∈ s.queues t) : a ∈ queued s := by
  refine List.mem_flatMap.mpr ⟨t, ?_, h⟩
  cases t <;> simp

theorem found_node {s : LogState α} {e : LogCall α} {t : LogMsgType} {a : Addr} (h : a ∈ s.queues t) :
    (found s e).node a = s.mem.node a := if_pos (mem_queued h)

theorem queue_setQueue_of_ne (svr : ServerLog) {mType t : LogMsgType} (ht : t ≠ mType) (q : LogQueue) :
    (svr.setQueue mType q).queue t = svr.queue t := by
  cases t <;> cases mType <;> first | rfl | exact absurd rfl ht

theorem queue_setQueue {svr : ServerLog} {mType : LogMsgType} {q : LogQueue}
    (h : mType = .invalidLog → q = { limit := 0 }) : (svr.setQueue mType q).queue mType = q := by
  cases mType with
  | invalidLog => exact (h rfl).symm
  | normal => rfl
  | control => rfl

theorem rep_zero {m : Memory α} {q : LogQueue} {nodes : List Addr} (h : Rep m q nodes)
    (hzero : q.limit = 0) : q = { limit := 0 } := by
  have hbound := h.bound
  have hnil : nodes = [] := List.length_eq_zero_iff.mp (by omega)
  subst hnil
  have hhead := h.head
  have htail := h.tail
  have hcount := h.count
  cases q
  simp only [List.head?_nil, List.getLast?_nil, List.length_nil] at *
  simp [*]

variable {limit}

theorem LogInv.found {s : LogState α} (h : LogInv limit s) (e : LogCall α) (t : LogMsgType) :
    Rep (found s e) (s.log.queue t) (s.queues t) :=
  (h.rep t).congr fun _ ha => found_node ha

theorem LogInv.apply {s : LogState α} {e : LogCall α} (h : LogInv limit s) (he : CanCall s e) :
    ∃ reply q m, (s.log.queue e.mType).apply e.op (ToDoList.found s e) = .ok (reply, q, m) ∧
      Applied (s.log.queue e.mType) (ToDoList.found s e) (s.queues e.mType) e.op reply q m := by
  have hrep := h.found e e.mType
  unfold CanCall at he
  cases hop : e.op with
  | push node =>
    rw [hop] at he
    refine apply_push hrep (fun hmem => he.1 (mem_queued hmem)) ?_
    show (if node ∈ queued s then s.mem.node node else e.world node) ≠ none
    rw [if_neg he.1]
    exact Option.isSome_iff_ne_none.mp he.2
  | pop => exact apply_pop hrep

theorem LogInv.untouched {s : LogState α} {e : LogCall α} (h : LogInv limit s) (he : CanCall s e)
    {t : LogMsgType} (ht : t ≠ e.mType) : ∀ a ∈ s.queues t, a ∉ touched e.op (s.queues e.mType) := by
  intro a ha
  have hapart := h.apart t e.mType ht a ha
  unfold CanCall at he
  unfold touched
  cases hop : e.op with
  | pop => exact hapart
  | push node =>
    rw [hop] at he
    simp only [List.mem_append, List.mem_singleton, not_or]
    refine ⟨hapart, ?_⟩
    rintro rfl
    exact he.1 (mem_queued ha)

theorem act_subset (n : ℕ) (op : Op Addr) (nodes : List Addr) :
    ∀ a ∈ (act n op nodes).1, a ∈ touched op nodes := by
  intro a ha
  cases op with
  | push node =>
    simp only [act, touched] at ha ⊢
    split at ha
    · exact List.mem_append_left _ ha
    · exact ha
  | pop =>
    cases nodes with
    | nil => exact ha
    | cons b rest => exact List.mem_cons_of_mem _ ha

theorem queuesAfter_same (s : LogState α) (e : LogCall α) :
    queuesAfter limit s e e.mType = (act (limit e.mType) e.op (s.queues e.mType)).1 :=
  KeyedMachine.step_same (machine limit) s.queues (e.mType, e.op)

theorem queuesAfter_other (s : LogState α) (e : LogCall α) {t : LogMsgType} (ht : t ≠ e.mType) :
    queuesAfter limit s e t = s.queues t :=
  KeyedMachine.step_other (machine limit) s.queues (e.mType, e.op) t ht.symm

theorem answer_full {s : LogState α} {e : LogCall α} (h : LogInv limit s) {node : Addr}
    (hop : e.op = .push node) :
    replyOf (act (limit e.mType) e.op (s.queues e.mType)).2 = .code (-1) ↔
      (s.queues e.mType).length = limit e.mType := by
  have hbound := (h.rep e.mType).bound
  rw [h.limit] at hbound
  rw [hop]
  simp only [act]
  by_cases hfull : limit e.mType ≤ (s.queues e.mType).length
  · rw [if_pos hfull]
    exact iff_of_true rfl (Nat.le_antisymm hbound hfull)
  · rw [if_neg hfull]
    refine iff_of_false (by simp [replyOf]) ?_
    omega

theorem setQueue_queue (svr : ServerLog) (mType : LogMsgType) :
    svr.setQueue mType (svr.queue mType) = svr := by
  cases mType <;> rfl

theorem LogInv.apart_after {s : LogState α} {e : LogCall α} (h : LogInv limit s) (he : CanCall s e)
    (t t' : LogMsgType) (htt : t ≠ t') :
    ∀ a ∈ queuesAfter limit s e t, a ∉ queuesAfter limit s e t' := by
  have hsame : ∀ a ∈ queuesAfter limit s e e.mType, a ∈ touched e.op (s.queues e.mType) := by
    rw [queuesAfter_same]
    exact act_subset _ _ _
  intro a hmem hmem'
  by_cases ht : t = e.mType
  · subst ht
    rw [queuesAfter_other s e htt.symm] at hmem'
    exact h.untouched he htt.symm a hmem' (hsame a hmem)
  · rw [queuesAfter_other s e ht] at hmem
    by_cases ht' : t' = e.mType
    · subst ht'
      exact h.untouched he ht a hmem (hsame a hmem')
    · rw [queuesAfter_other s e ht'] at hmem'
      exact h.apart t t' htt a hmem hmem'

theorem seam_congr {m m' : Memory α} {nodes : List Addr} (h : ∀ a ∈ nodes, m'.node a = m.node a)
    (hseam : Seam m nodes) : Seam m' nodes := by
  intro t ht
  rw [nextAt, h t (List.mem_of_mem_getLast? ht)]
  exact hseam t ht

/-- What one call does: the specification holds of it, the invariant is kept, and
of closed seams one opens just when a dequeue leaves nodes behind. -/
theorem call_step {s : LogState α} {e : LogCall α} (h : LogInv limit s) (he : CanCall s e) :
    ∃ reply log mem, logCall s e = .ok (reply, log, mem) ∧ CallMeets limit s e reply log mem ∧
      LogInv limit ⟨log, mem, queuesAfter limit s e⟩ ∧
      ((∀ t, Seam s.mem (s.queues t)) → ((∀ t, Seam mem (queuesAfter limit s e t)) ↔
        ¬opensSeam e.op (s.queues e.mType))) := by
  obtain ⟨reply, q, m, happly, ha⟩ := h.apply he
  have hrep := ha.rep
  have hanswer := ha.answer
  have hseam := ha.seam
  rw [h.limit, ← queuesAfter_same] at hrep hseam
  rw [h.limit] at hanswer
  have hset : (s.log.setQueue e.mType q).queue e.mType = q := by
    refine queue_setQueue fun hinvalid => rep_zero ha.rep ?_
    rw [ha.limit, hinvalid]
    rfl
  have hother : ∀ t, t ≠ e.mType → ∀ a ∈ s.queues t, m.node a = s.mem.node a := by
    intro t ht a hmem
    rw [ha.frame a (h.untouched he ht a hmem), found_node hmem]
  have hreps : ∀ t, Rep m ((s.log.setQueue e.mType q).queue t) (queuesAfter limit s e t) := by
    intro t
    by_cases ht : t = e.mType
    · subst ht
      rw [hset]
      exact hrep
    · rw [queue_setQueue_of_ne _ ht, queuesAfter_other s e ht]
      exact (h.rep t).congr (hother t ht)
  refine ⟨reply, s.log.setQueue e.mType q, m, ?_, ⟨hanswer, ?_, ?_, fun t => (hreps t).count, ?_,
    ha.followed⟩, ⟨hreps, ?_, ?_⟩, ?_⟩
  · rw [logCall_apply, happly]
    rfl
  · intro node hop
    rw [hanswer]
    exact answer_full h hop
  · intro hcode
    obtain ⟨rfl, rfl⟩ := ha.rejected hcode
    exact ⟨setQueue_queue .., rfl⟩
  · intro t ht
    exact ⟨queue_setQueue_of_ne _ ht q, queuesAfter_other s e ht, hother t ht⟩
  · intro t
    by_cases ht : t = e.mType
    · subst ht
      show ((s.log.setQueue e.mType q).queue e.mType).limit = _
      rw [hset, ha.limit, h.limit]
    · show ((s.log.setQueue e.mType q).queue t).limit = _
      rw [queue_setQueue_of_ne _ ht, h.limit]
  · exact h.apart_after he
  · intro hclosed
    rw [← hseam (seam_congr (fun _ ha => found_node ha) (hclosed e.mType))]
    constructor
    · intro hall
      exact hall e.mType
    · intro hone t
      by_cases ht : t = e.mType
      · subst ht
        exact hone
      · rw [queuesAfter_other s e ht]
        exact seam_congr (hother t ht) (hclosed t)

/-! ### Whole runs -/

theorem logNext_inv {s u : LogState α} {e : LogCall α} (h : LogInv limit s)
    (hnext : logNext limit s e = some u) : LogInv limit u := by
  unfold logNext at hnext
  split at hnext
  · rename_i he
    obtain ⟨reply, log, mem, hcall, -, hinv, -⟩ := call_step h he
    rw [hcall] at hnext
    cases hnext
    exact hinv
  · cases hnext

/-- Whatever the limits and the order of the calls, the linked log is two bounded
queues. -/
theorem log_is_two_queues (nrlLimit ctrlLimit : ℕ) (mem : Memory α) (es : List (LogCall α)) :
    AllSteps (logNext (limitOf nrlLimit ctrlLimit))
      (fun s e => CanCall s e → ∃ reply log mem, logCall s e = .ok (reply, log, mem) ∧
        CallMeets (limitOf nrlLimit ctrlLimit) s e reply log mem)
      (logStart nrlLimit ctrlLimit mem) es := by
  refine allSteps_of_invariant (C := fun _ _ => True) (I := LogInv (limitOf nrlLimit ctrlLimit)) ?_ ?_
    (logInv_start nrlLimit ctrlLimit mem) (allSteps_of_forall (fun _ _ => trivial) _ _)
  · intro s e u hs _ hnext
    exact logNext_inv hs hnext
  · intro s e hs _ he
    obtain ⟨reply, log, mem, hcall, hmeets, -⟩ := call_step hs he
    exact ⟨reply, log, mem, hcall, hmeets⟩

theorem logNext_queues {s u : LogState α} {e : LogCall α} (h : logNext limit s e = some u) :
    u.queues = queuesAfter limit s e := by
  unfold logNext at h
  split at h
  · split at h
    · cases h
    · cases h
      rfl
  · cases h

theorem run_queues {s u : LogState α} {es : List (LogCall α)}
    (hrun : run (logNext limit) s es = some u) :
    u.queues = KeyedMachine.run (machine limit) s.queues (es.map fun e => (e.mType, e.op)) := by
  induction es generalizing s with
  | nil =>
    cases hrun
    rfl
  | cons e es ih =>
    obtain ⟨v, hv, hr⟩ := run_cons_eq_some.mp hrun
    rw [ih hr, logNext_queues hv]
    rfl

/-- In every run a queue has given out its nodes in the order in which it took
them, and still holds the rest. -/
theorem log_order {nrlLimit ctrlLimit : ℕ} {mem : Memory α} {es : List (LogCall α)} {u : LogState α}
    (hrun : run (logNext (limitOf nrlLimit ctrlLimit)) (logStart nrlLimit ctrlLimit mem) es = some u)
    (t : LogMsgType) :
    let M := machine (limitOf nrlLimit ctrlLimit)
    let calls := KeyedMachine.onKey M t (es.map fun e => (e.mType, e.op))
    given (KeyedMachine.cellLog M [] calls) ++ u.queues t = taken (KeyedMachine.cellLog M [] calls) := by
  dsimp only
  rw [run_queues hrun, KeyedMachine.run_apply]
  exact given_append _ [] _

end ToDoList
