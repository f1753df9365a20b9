import ToDoList.CLib.Custody
import ToDoList.Prune
import ToDoList.Threads

/-!
# Client contexts, from hand to hand

A context belongs to its connection thread until `enqueue` has taken it, then to
a log, then to the worker that has taken it from there. Whatever the order of
steps, it has one holder while it is allocated, and is used by nobody else but
for the last lines of `handle_connection`.
-/

namespace ToDoList
open CLib StepRun Custody

/-! ### Who holds a context -/

def ConnPc.owns : ConnPc → Bool
  | .absent | .entered _ | .tail _ | .gone => false
  | _ => true

def ConnPc.fresh : ConnPc → Bool
  | .absent => true
  | _ => false

def ConnPc.ctx? : ConnPc → Option ClientCtx
  | .dispatch ctx | .quiesce ctx _ | .backlog ctx | .prune ctx | .enter ctx | .entered ctx | .tail ctx =>
    some ctx
  | _ => none

def NormalPc.held : NormalPc → List ℕ
  | .pruned ctx | .lock ctx _ | .exec ctx _ | .promoteExec ctx _ | .store ctx _ | .reply ctx _
  | .close ctx _ | .free ctx _ => [ctx.conn]
  | _ => []

/-- What has left the log and is neither executed nor discarded. -/
def NormalPc.pending : NormalPc → List ClientCtx
  | .pruned ctx | .lock ctx _ | .exec ctx _ | .promoteExec ctx _ | .store ctx _ => [ctx]
  | _ => []

def ControlPc.held : ControlPc → List ℕ
  | .exec ctx | .role ctx | .send ctx | .reply ctx | .close ctx | .free ctx => [ctx.conn]
  | _ => []

/-- Where the contexts are, without what the threads do with them. -/
structure Holders where
  fresh : ℕ → Bool
  live : ℕ → Bool
  own : ℕ → Bool
  hand : List ℕ
  pending : List ClientCtx
  ctrlHand : List ℕ
  nrl : List ClientCtx
  ctrl : List ClientCtx
  entered : List ClientCtx
  done : List (ClientCtx × Bool)

def Threads.holding (s : Threads) : Holders where
  fresh i := (s.conn i).fresh
  live i := (s.heap i).isSome
  own i := (s.conn i).owns
  hand := s.normal.held
  pending := s.normal.pending
  ctrlHand := s.control.held
  nrl := s.server.nrl
  ctrl := s.server.ctrl
  entered := s.entered
  done := taken s.out

namespace Holders

inductive Move (h : Holders) : Holders → Prop where
  | create (i : ℕ) (hi : h.fresh i = true) :
    Move h { h with fresh := Function.update h.fresh i false, live := Function.update h.live i true,
                    own := Function.update h.own i true }
  | discard (i : ℕ) (hi : h.own i = true) :
    Move h { h with live := Function.update h.live i false, own := Function.update h.own i false }
  | enterNormal (ctx : ClientCtx) (hi : h.own ctx.conn = true) :
    Move h { h with own := Function.update h.own ctx.conn false, nrl := h.nrl ++ [ctx],
                    entered := h.entered ++ [ctx] }
  | enterControl (ctx : ClientCtx) (hi : h.own ctx.conn = true) :
    Move h { h with own := Function.update h.own ctx.conn false, ctrl := h.ctrl ++ [ctx] }
  | takeNormal (ctx : ClientCtx) (rest : List ClientCtx) (hlog : h.nrl = ctx :: rest)
      (hhand : h.hand = []) (hpend : h.pending = []) :
    Move h { h with nrl := rest, hand := [ctx.conn], pending := [ctx] }
  | takeControl (ctx : ClientCtx) (rest : List ClientCtx) (hlog : h.ctrl = ctx :: rest)
      (hhand : h.ctrlHand = []) :
    Move h { h with ctrl := rest, ctrlHand := [ctx.conn] }
  | finish (ctx : ClientCtx) (executed : Bool) (hpend : h.pending = [ctx]) :
    Move h { h with pending := [], done := h.done ++ [(ctx, executed)] }
  | releaseNormal (i : ℕ) (hhand : h.hand = [i]) (hpend : h.pending = []) :
    Move h { h with live := Function.update h.live i false, hand := [] }
  | releaseControl (i : ℕ) (hhand : h.ctrlHand = [i]) :
    Move h { h with live := Function.update h.live i false, ctrlHand := [] }

/-- The contexts that no connection thread holds any more. -/
def shared (h : Holders) : List ℕ :=
  h.hand ++ (h.ctrlHand ++ (h.nrl.map ClientCtx.conn ++ h.ctrl.map ClientCtx.conn))

structure Inv (h : Holders) : Prop where
  fresh : ∀ i, h.fresh i = true → h.live i = false
  custody : InCustody h.live h.own h.shared
  log : h.entered = h.done.map Prod.fst ++ (h.pending ++ h.nrl)

theorem fresh_free {fresh live : ℕ → Bool} (h : ∀ i, fresh i = true → live i = false) (i : ℕ) :
    ∀ j, fresh j = true → Function.update live i false j = false := by
  intro j hj
  by_cases heq : j = i
  · subst heq
    exact Function.update_self ..
  · rw [Function.update_of_ne heq]
    exact h j hj

theorem Inv.move {h h' : Holders} (hinv : Inv h) (hmove : Move h h') : Inv h' := by
  obtain ⟨hf, hc, hlog⟩ := hinv
  cases hmove with
  | create i hi =>
    refine ⟨fun j hj => ?_, hc.create (hf i hi), hlog⟩
    by_cases heq : j = i
    · subst heq
      simp at hj
    · simp only [Function.update_of_ne heq] at hj ⊢
      exact hf j hj
  | discard i hi => exact ⟨fresh_free hf i, hc.discard hi, hlog⟩
  | enterNormal ctx hi =>
    refine ⟨hf, (hc.handOver hi).perm (List.perm_iff_count.mpr fun j => ?_), ?_⟩
    · simp only [shared, List.map_append, List.map_cons, List.map_nil, List.count_append,
        List.count_cons, List.count_nil]
      omega
    · simp only [hlog, List.append_assoc]
  | enterControl ctx hi =>
    refine ⟨hf, (hc.handOver hi).perm (List.perm_iff_count.mpr fun j => ?_), hlog⟩
    simp only [shared, List.map_append, List.map_cons, List.map_nil, List.count_append, List.count_cons,
      List.count_nil]
    omega
  | takeNormal ctx rest hnrl hhand hpend =>
    refine ⟨hf, hc.perm (List.perm_iff_count.mpr fun j => ?_), ?_⟩
    · simp only [shared, hnrl, hhand, List.map_cons, List.count_append, List.count_cons, List.count_nil]
      omega
    · simpa [hnrl, hpend] using hlog
  | takeControl ctx rest hctrl hhand =>
    refine ⟨hf, hc.perm (List.perm_iff_count.mpr fun j => ?_), hlog⟩
    simp only [shared, hctrl, hhand, List.map_cons, List.count_append, List.count_cons, List.count_nil]
    omega
  | finish ctx executed hpend =>
    refine ⟨hf, hc, ?_⟩
    simpa [hpend] using hlog
  | releaseNormal i hhand hpend =>
    refine ⟨fresh_free hf i, ?_, hlog⟩
    simp only [shared, hhand] at hc
    exact hc.release
  | releaseControl i hhand =>
    refine ⟨fresh_free hf i, ?_, hlog⟩
    simp only [shared, hhand] at hc
    exact (hc.perm List.perm_middle).release

/-- Only the NORMAL worker is done with what it has in its hands. -/
theorem Move.done_eq {h h' : Holders} (hmove : Move h h') (hpend : h'.pending = h.pending) :
    h'.done = h.done := by
  cases hmove with
  | finish ctx executed hone =>
    dsimp only at hpend
    rw [hone] at hpend
    cases hpend
  | _ => rfl

/-- Only the NORMAL worker takes from its log. -/
theorem Move.nrl_ne_nil {h h' : Holders} (hmove : Move h h') (hhand : h'.hand = h.hand)
    (hne : h.nrl ≠ []) : h'.nrl ≠ [] := by
  cases hmove with
  | takeNormal ctx rest _ hempty _ =>
    dsimp only at hhand
    rw [hempty] at hhand
    cases hhand
  | enterNormal ctx _ => exact List.append_ne_nil_of_left_ne_nil hne _
  | _ => exact hne

end Holders

/-! ### Steps seen from the contexts -/

section
variable {env : Env} {s t u : Threads} {i : ℕ}

theorem lift_eq_ok {x : Except Fault Server} {k : Server → Threads} {t : Threads}
    (h : lift x k = .ok t) : ∃ u, x = .ok u ∧ t = k u := by
  cases x with
  | error f => cases h
  | ok u =>
    cases h
    exact ⟨u, rfl, rfl⟩

theorem touch_eq_ok {k : ℤ → Except ThreadFault Threads} (h : s.touch i k = .ok t) :
    ∃ fd, s.heap i = some fd ∧ k fd = .ok t := by
  unfold Threads.touch at h
  split at h
  · cases h
  · rename_i fd hfd
    exact ⟨fd, hfd, h⟩

theorem field_update {α β : Type} (F : α → β) (f : ℕ → α) (i : ℕ) (x : α) :
    (fun j => F (Function.update f i x j)) = Function.update (fun j => F (f j)) i (F x) := by
  funext j
  by_cases hj : j = i
  · subst hj
    simp only [Function.update_self]
  · simp only [Function.update_of_ne hj]

theorem holding_setConn (s : Threads) (i : ℕ) (pc : ConnPc) : (s.setConn i pc).holding =
    { s.holding with fresh := Function.update s.holding.fresh i pc.fresh,
                     own := Function.update s.holding.own i pc.owns } := by
  simp only [Threads.holding, Threads.setConn, field_update ConnPc.fresh, field_update ConnPc.owns]

theorem holding_heap (s : Threads) (i : ℕ) (x : Option ℤ) :
    { s with heap := Function.update s.heap i x }.holding =
      { s.holding with live := Function.update s.holding.live i x.isSome } := by
  simp only [Threads.holding, field_update Option.isSome]

theorem holding_server {u : Server} (hnrl : u.nrl = s.server.nrl) (hctrl : u.ctrl = s.server.ctrl) :
    { s with server := u }.holding = s.holding := by
  simp only [Threads.holding, hnrl, hctrl]

theorem holding_emit {effs : List Effect} (s : Threads) (h : taken effs = []) :
    (s.emit effs).holding = s.holding := by
  simp only [Threads.holding, Threads.emit, taken_append, h, List.append_nil]

theorem holding_closeCtx {fd : ℤ} (h : s.heap i = some fd) : (s.closeCtx i fd).holding = s.holding := by
  unfold Threads.closeCtx
  split
  · have hlive : Function.update s.holding.live i (some (-1 : ℤ)).isSome = s.holding.live := by
      rw [Function.update_eq_self_iff]
      simp only [Threads.holding, h, Option.isSome_some]
    have hheap := holding_heap (s.emit [.close fd i]) i (some (-1))
    rw [holding_emit s rfl, hlive] at hheap
    exact hheap
  · rfl

theorem quiesceFirst_frame {a b : Server} {type : MsgType} (h : quiesceFirst a type = .ok b) :
    b.nrl = a.nrl ∧ b.ctrl = a.ctrl ∧ b.repMode = a.repMode ∧ b.isPrune = a.isPrune := by
  unfold quiesceFirst at h
  split at h
  · cases h
    exact ⟨rfl, rfl, rfl, rfl⟩
  · obtain ⟨-, running, rfl⟩ := setState_cases h
    exact ⟨rfl, rfl, rfl, rfl⟩

theorem quiesceSecond_frame {a b : Server} {type : MsgType} (h : quiesceSecond a type = .ok b) :
    b.nrl = a.nrl ∧ b.ctrl = a.ctrl ∧ b.repMode = a.repMode ∧ b.isPrune = a.isPrune := by
  unfold quiesceSecond at h
  split at h
  · obtain ⟨-, running, rfl⟩ := setState_cases h
    exact ⟨rfl, rfl, rfl, rfl⟩
  · cases h
    exact ⟨rfl, rfl, rfl, rfl⟩

/-- What a step does to the contexts. -/
def Moved (s t : Threads) : Prop := t.holding = s.holding ∨ s.holding.Move t.holding

theorem moved_setConn {pc : ConnPc} (u : Threads) (hu : u.holding = s.holding)
    (hpc : pc.fresh = (s.conn i).fresh ∧ pc.owns = (s.conn i).owns) : Moved s (u.setConn i pc) := by
  refine Or.inl ?_
  have hfresh : Function.update s.holding.fresh i pc.fresh = s.holding.fresh := by
    rw [Function.update_eq_self_iff]
    exact hpc.1
  have hown : Function.update s.holding.own i pc.owns = s.holding.own := by
    rw [Function.update_eq_self_iff]
    exact hpc.2
  rw [holding_setConn, hu, hfresh, hown]

theorem moved_enter {ctx : ClientCtx} {h : Holders} (hi : ctx.conn = i) (hpc : s.conn i = .enter ctx)
    (hu : u.holding = h)
    (hmove : s.holding.Move { h with own := Function.update s.holding.own ctx.conn false })
    (hfresh : h.fresh = s.holding.fresh) (hown : h.own = s.holding.own) :
    Moved s (u.setConn i (.entered ctx)) := by
  refine Or.inr ?_
  have hkeep : Function.update s.holding.fresh i false = s.holding.fresh := by
    rw [Function.update_eq_self_iff]
    simp only [Threads.holding, hpc]
    rfl
  rw [holding_setConn, hu, hfresh, hown]
  rw [hi] at hmove
  show s.holding.Move { h with fresh := Function.update s.holding.fresh i false,
                               own := Function.update s.holding.own i false }
  rw [hkeep, ← hfresh]
  exact hmove

/-! ### Connection threads -/

/-- All that a connection thread does to the rest of the server: it moves no
program counter but its own and keeps to its own context. -/
structure ConnMove (s t : Threads) (i : ℕ) : Prop where
  moved : Moved s t
  normal : t.normal = s.normal
  control : t.control = s.control
  conn : ∃ pc, t.conn = Function.update s.conn i pc ∧ (∀ ctx ∈ pc.ctx?, ctx.conn = i) ∧
    ∀ ctx, pc = .prune ctx → ctx.isBacklog = isPassiveBackup s.server
  mode : t.server.repMode = s.server.repMode
  flag : t.server.isPrune = true →
    s.server.isPrune = true ∨ ∃ ctx, s.conn i = .prune ctx ∧ ctx.isBacklog = true

theorem connMove_stay (hpc : (s.conn i).ctx? = none) : ConnMove s s i := by
  refine ⟨Or.inl rfl, rfl, rfl, ⟨s.conn i, (Function.update_eq_self ..).symm, ?_, ?_⟩, rfl, Or.inl⟩
  · intro ctx hctx
    rw [hpc] at hctx
    cases hctx
  · intro ctx hprune
    rw [hprune] at hpc
    cases hpc

/-- Whether the thread goes on with its context or has none any more. -/
def GoesOn (i : ℕ) (pc : ConnPc) : Prop :=
  (∀ ctx ∈ pc.ctx?, ctx.conn = i) ∧ ∀ ctx, pc ≠ .prune ctx

theorem goesOn_none {pc : ConnPc} (h : pc.ctx? = none) : GoesOn i pc := by
  refine ⟨fun ctx hctx => ?_, fun ctx hpc => ?_⟩
  · rw [h] at hctx
    cases hctx
  · rw [hpc] at h
    cases h

theorem connMove_place {pc : ConnPc} (hu : u.holding = s.holding)
    (hpcs : u.normal = s.normal ∧ u.control = s.control ∧ u.conn = s.conn)
    (hserver : u.server.repMode = s.server.repMode ∧ u.server.isPrune = s.server.isPrune)
    (hplace : pc.fresh = (s.conn i).fresh ∧ pc.owns = (s.conn i).owns) (hpc : GoesOn i pc) :
    ConnMove s (u.setConn i pc) i := by
  refine ⟨moved_setConn u hu hplace, hpcs.1, hpcs.2.1, ⟨pc, ?_, hpc.1, ?_⟩, hserver.1, fun hflag => ?_⟩
  · rw [Threads.setConn, hpcs.2.2]
  · exact fun ctx heq => absurd heq (hpc.2 ctx)
  · have hflag' : u.server.isPrune = true := hflag
    rw [hserver.2] at hflag'
    exact Or.inl hflag'

theorem closeCtx_frame (s : Threads) (i : ℕ) (fd : ℤ) : (s.closeCtx i fd).normal = s.normal ∧
    (s.closeCtx i fd).control = s.control ∧ (s.closeCtx i fd).conn = s.conn ∧
    (s.closeCtx i fd).server = s.server := by
  unfold Threads.closeCtx
  split
  · exact ⟨rfl, rfl, rfl, rfl⟩
  · exact ⟨rfl, rfl, rfl, rfl⟩

theorem connStep_move (hids : ∀ ctx ∈ (s.conn i).ctx?, ctx.conn = i) (h : connStep s i = .ok t) :
    ConnMove s t i := by
  unfold connStep at h
  cases hpc : s.conn i with
  | absent | reading | gone =>
    rw [hpc] at h
    cases h
    exact connMove_stay (by rw [hpc]; rfl)
  | dispatch ctx =>
    rw [hpc] at h hids
    obtain ⟨fd, -, h⟩ := touch_eq_ok h
    cases h
    split
    · exact connMove_place rfl ⟨rfl, rfl, rfl⟩ ⟨rfl, rfl⟩ (by rw [hpc]; exact ⟨rfl, rfl⟩)
        ⟨hids, by simp⟩
    · exact connMove_place rfl ⟨rfl, rfl, rfl⟩ ⟨rfl, rfl⟩ (by rw [hpc]; exact ⟨rfl, rfl⟩)
        ⟨hids, by simp⟩
  | quiesce ctx second =>
    rw [hpc] at h hids
    cases second with
    | false =>
      obtain ⟨v, hv, rfl⟩ := lift_eq_ok h
      obtain ⟨hnrl, hctrl, hserver⟩ := quiesceFirst_frame hv
      exact connMove_place (holding_server hnrl hctrl) ⟨rfl, rfl, rfl⟩ hserver
        (by rw [hpc]; exact ⟨rfl, rfl⟩) ⟨hids, by simp⟩
    | true =>
      obtain ⟨v, hv, rfl⟩ := lift_eq_ok h
      obtain ⟨hnrl, hctrl, hserver⟩ := quiesceSecond_frame hv
      exact connMove_place (holding_server hnrl hctrl) ⟨rfl, rfl, rfl⟩ hserver
        (by rw [hpc]; exact ⟨rfl, rfl⟩) (goesOn_none rfl)
  | backlog ctx =>
    rw [hpc] at h hids
    obtain ⟨fd, -, h⟩ := touch_eq_ok h
    cases h
    refine ⟨moved_setConn s rfl (by rw [hpc]; exact ⟨rfl, rfl⟩), rfl, rfl,
      ⟨_, rfl, fun ctx' hctx => ?_, fun ctx' hctx => ?_⟩, rfl, Or.inl⟩
    · cases hctx
      exact hids ctx rfl
    · cases hctx
      rfl
  | prune ctx =>
    rw [hpc] at h hids
    obtain ⟨fd, -, h⟩ := touch_eq_ok h
    cases h
    refine ⟨moved_setConn _ (holding_server rfl rfl) (by rw [hpc]; exact ⟨rfl, rfl⟩), rfl, rfl,
      ⟨_, rfl, hids, by simp⟩, rfl, fun hflag => ?_⟩
    simp only [Threads.setConn, Bool.or_eq_true, Bool.and_eq_true] at hflag
    rcases hflag with hflag | ⟨-, hflag⟩
    · exact Or.inl hflag
    · exact Or.inr ⟨ctx, hpc, hflag⟩
  | enter ctx =>
    have hi : ctx.conn = i := hids ctx (by rw [hpc]; rfl)
    have hown : s.holding.own ctx.conn = true := by
      simp only [Threads.holding, hi, hpc]
      rfl
    rw [hpc] at h hids
    dsimp only at h
    unfold enqueue at h
    split at h
    · split at h
      · cases h
        exact connMove_place (holding_server rfl rfl) ⟨rfl, rfl, rfl⟩ ⟨rfl, rfl⟩
          (by rw [hpc]; exact ⟨rfl, rfl⟩) (goesOn_none rfl)
      · cases h
        exact ⟨moved_enter hi hpc rfl (.enterControl ctx hown) rfl rfl, rfl, rfl,
          ⟨_, rfl, hids, by simp⟩, rfl, Or.inl⟩
    · split at h
      · cases h
        exact connMove_place (holding_server rfl rfl) ⟨rfl, rfl, rfl⟩ ⟨rfl, rfl⟩
          (by rw [hpc]; exact ⟨rfl, rfl⟩) (goesOn_none rfl)
      · cases h
        exact ⟨moved_enter hi hpc rfl (.enterNormal ctx hown) rfl rfl, rfl, rfl,
          ⟨_, rfl, hids, by simp⟩, rfl, Or.inl⟩
  | entered ctx =>
    rw [hpc] at h hids
    cases h
    split
    · exact connMove_place rfl ⟨rfl, rfl, rfl⟩ ⟨rfl, rfl⟩ (by rw [hpc]; exact ⟨rfl, rfl⟩)
        ⟨hids, by simp⟩
    · exact connMove_place rfl ⟨rfl, rfl, rfl⟩ ⟨rfl, rfl⟩ (by rw [hpc]; exact ⟨rfl, rfl⟩)
        (goesOn_none rfl)
  | tail ctx =>
    rw [hpc] at h
    obtain ⟨fd, -, h⟩ := touch_eq_ok h
    split at h
    · cases h
      exact connMove_place (holding_emit s rfl) ⟨rfl, rfl, rfl⟩ ⟨rfl, rfl⟩
        (by rw [hpc]; exact ⟨rfl, rfl⟩) (goesOn_none rfl)
    · cases h
      exact connMove_place rfl ⟨rfl, rfl, rfl⟩ ⟨rfl, rfl⟩ (by rw [hpc]; exact ⟨rfl, rfl⟩)
        (goesOn_none rfl)
  | exit =>
    rw [hpc] at h
    obtain ⟨fd, hfd, h⟩ := touch_eq_ok h
    cases h
    obtain ⟨hnormal, hcontrol, hconn, hserver⟩ := closeCtx_frame s i fd
    exact connMove_place (holding_closeCtx hfd) ⟨hnormal, hcontrol, hconn⟩ (by rw [hserver]; exact ⟨rfl, rfl⟩)
      (by rw [hpc]; exact ⟨rfl, rfl⟩) (goesOn_none rfl)
  | free =>
    have hown : s.holding.own i = true := by
      simp only [Threads.holding, hpc]
      rfl
    have hfresh : Function.update s.holding.fresh i false = s.holding.fresh := by
      rw [Function.update_eq_self_iff]
      simp only [Threads.holding, hpc]
      rfl
    rw [hpc] at h
    obtain ⟨fd, -, h⟩ := touch_eq_ok h
    cases h
    have hmoved : Moved s ((s.freeCtx i).setConn i .gone) := by
      refine Or.inr ?_
      have hmove := Holders.Move.discard i hown
      rw [← hfresh] at hmove
      rw [holding_setConn, Threads.freeCtx, holding_heap]
      exact hmove
    exact ⟨hmoved, rfl, rfl, ⟨_, rfl, (goesOn_none rfl).1, by simp⟩, rfl, Or.inl⟩

/-! ### The NORMAL worker -/

/-- The worker is in its prune loop, or is going back to it. -/
def NormalPc.pruning : NormalPc → Bool
  | .prune | .pruned _ => true
  | .lock _ back | .exec _ back | .promoteExec _ back | .store _ back | .reply _ back | .close _ back
  | .free _ back => back
  | _ => false

/-- The requests the worker is sure to deal with before it looks at the role
again. -/
def NormalPc.committed : NormalPc → ℕ
  | .take | .pruned _ | .lock .. | .exec .. | .promoteExec .. | .store .. => 1
  | _ => 0

/-- The log the worker has found to hold something. -/
def CountSeen (pc : NormalPc) (nrl : List ClientCtx) : Prop := pc = .quiesceTest ∨ pc = .take → nrl ≠ []

structure NormalMove (s t : Threads) : Prop where
  moved : Moved s t
  conn : t.conn = s.conn
  control : t.control = s.control
  mode : t.server.repMode = s.server.repMode
  counted : CountSeen s.normal s.server.nrl → CountSeen t.normal t.server.nrl
  unpruned : s.server.isPrune = false → s.normal.pruning = false →
    t.server.isPrune = false ∧ t.normal.pruning = false
  quiet : s.server.state = .quiesce → s.normal.pruning = false →
    (taken t.out).length + t.normal.committed ≤ (taken s.out).length + s.normal.committed

/-- The worker goes on with what it has in its hands. -/
structure NormalPc.Next (pc pc' : NormalPc) : Prop where
  held : pc'.held = pc.held
  pending : pc'.pending = pc.pending
  pruning : pc.pruning = false → pc'.pruning = false
  committed : pc'.committed ≤ pc.committed

theorem normalMove_place {pc : NormalPc} (hu : u.holding = s.holding)
    (hframe : u.conn = s.conn ∧ u.control = s.control ∧ u.normal = s.normal)
    (hserver : u.server.repMode = s.server.repMode ∧
      (u.server.isPrune = s.server.isPrune ∨ u.server.isPrune = false))
    (hnext : s.normal.Next pc) (hcount : CountSeen s.normal s.server.nrl → CountSeen pc s.server.nrl) :
    NormalMove s { u with normal := pc } := by
  refine ⟨Or.inl (Eq.trans ?_ hu), hframe.1, hframe.2.1, hserver.1, ?_, ?_, ?_⟩
  · simp only [Threads.holding, hnext.held, hnext.pending, hframe.2.2]
  · have hnrl : u.server.nrl = s.server.nrl := congrArg Holders.nrl hu
    dsimp only
    rw [hnrl]
    exact hcount
  · intro hflag hprune
    refine ⟨?_, hnext.pruning hprune⟩
    rcases hserver.2 with hsame | hdown
    · exact hsame.trans hflag
    · exact hdown
  · intro _ _
    have hdone : taken u.out = taken s.out := congrArg Holders.done hu
    dsimp only
    rw [hdone]
    exact Nat.add_le_add_left hnext.committed _

theorem countSeen_of_ne {pc : NormalPc} {nrl : List ClientCtx} (htest : pc ≠ .quiesceTest)
    (htake : pc ≠ .take) : CountSeen pc nrl := by
  intro h
  rcases h with h | h
  · exact absurd h htest
  · exact absurd h htake

theorem normalMove_take {ctx : ClientCtx} {rest : List ClientCtx} {pc : NormalPc}
    (hlog : s.server.nrl = ctx :: rest) (hempty : s.normal.held = [] ∧ s.normal.pending = [])
    (hpc : pc.held = [ctx.conn] ∧ pc.pending = [ctx] ∧ pc.committed = 1)
    (hprune : s.normal.pruning = false → s.normal.committed = 1 ∧ pc.pruning = false) :
    NormalMove s { s with server := { s.server with nrl := rest }, normal := pc } := by
  refine ⟨Or.inr ?_, rfl, rfl, rfl, fun _ => ?_, ?_, ?_⟩
  · have hmove := Holders.Move.takeNormal (h := s.holding) ctx rest hlog hempty.1 hempty.2
    simp only [Threads.holding, hpc] at hmove ⊢
    exact hmove
  · refine countSeen_of_ne ?_ ?_
    · rintro rfl
      cases hpc.1
    · rintro rfl
      cases hpc.1
  · exact fun hflag hp => ⟨hflag, (hprune hp).2⟩
  · intro _ hp
    dsimp only
    rw [hpc.2.2, (hprune hp).1]

theorem normalStep_move (h : normalStep env s = .ok t) : NormalMove s t := by
  unfold normalStep at h
  cases hpc : s.normal with
  | top =>
    rw [hpc] at h
    cases h
    refine ⟨Or.inl ?_, rfl, rfl, rfl, fun _ => ?_, fun hflag _ => ?_, fun _ _ => ?_⟩
    · simp only [Threads.holding, hpc]
      split <;> rfl
    · exact countSeen_of_ne (by dsimp only; split <;> simp) (by dsimp only; split <;> simp)
    · refine ⟨hflag, ?_⟩
      dsimp only
      rw [hflag]
      rfl
    · dsimp only
      split <;> exact Nat.le_add_right ..
  | sleepTest | sleepRole | promoteTest =>
    rw [hpc] at h
    cases h
    split
    · exact normalMove_place rfl ⟨rfl, rfl, rfl⟩ ⟨rfl, Or.inl rfl⟩
        (by rw [hpc]; exact ⟨rfl, rfl, fun _ => rfl, le_rfl⟩) fun _ => countSeen_of_ne (by simp) (by simp)
    · exact normalMove_place rfl ⟨rfl, rfl, rfl⟩ ⟨rfl, Or.inl rfl⟩
        (by rw [hpc]; exact ⟨rfl, rfl, fun _ => rfl, le_rfl⟩) fun _ => countSeen_of_ne (by simp) (by simp)
  | count =>
    rw [hpc] at h
    cases h
    split
    · exact normalMove_place rfl ⟨rfl, rfl, rfl⟩ ⟨rfl, Or.inl rfl⟩
        (by rw [hpc]; exact ⟨rfl, rfl, fun _ => rfl, le_rfl⟩) fun _ => countSeen_of_ne (by simp) (by simp)
    · rename_i hne
      exact normalMove_place rfl ⟨rfl, rfl, rfl⟩ ⟨rfl, Or.inl rfl⟩
        (by rw [hpc]; exact ⟨rfl, rfl, fun _ => rfl, le_rfl⟩) fun _ _ => hne
  | quiesceTest =>
    rw [hpc] at h
    cases h
    split
    · exact normalMove_place rfl ⟨rfl, rfl, rfl⟩ ⟨rfl, Or.inl rfl⟩
        (by rw [hpc]; exact ⟨rfl, rfl, fun _ => rfl, le_rfl⟩) fun _ => countSeen_of_ne (by simp) (by simp)
    · rename_i hstate
      -- the only step that commits the worker
      refine ⟨Or.inl ?_, rfl, rfl, rfl, ?_, fun hflag _ => ⟨hflag, rfl⟩, ?_⟩
      · simp only [Threads.holding, hpc]
        rfl
      · exact fun hcount _ => hcount (Or.inl hpc)
      · exact fun hquiesce => absurd hquiesce hstate
  | prune =>
    rw [hpc] at h
    dsimp only at h
    split at h
    · cases h
      exact normalMove_place rfl ⟨rfl, rfl, rfl⟩ ⟨rfl, Or.inl rfl⟩
        (by rw [hpc]; exact ⟨rfl, rfl, fun _ => rfl, le_rfl⟩) fun _ => countSeen_of_ne (by simp) (by simp)
    · rename_i hlog
      cases h
      refine normalMove_take hlog (by rw [hpc]; exact ⟨rfl, rfl⟩) ⟨rfl, rfl, rfl⟩ fun hp => ?_
      rw [hpc] at hp
      cases hp
  | take =>
    rw [hpc] at h
    dsimp only at h
    split at h
    · cases h
      exact normalMove_place rfl ⟨rfl, rfl, rfl⟩ ⟨rfl, Or.inl rfl⟩
        (by rw [hpc]; exact ⟨rfl, rfl, fun _ => rfl, Nat.zero_le _⟩)
        fun _ => countSeen_of_ne (by simp) (by simp)
    · rename_i hlog
      cases h
      exact normalMove_take hlog (by rw [hpc]; exact ⟨rfl, rfl⟩) ⟨rfl, rfl, rfl⟩
        fun _ => by rw [hpc]; exact ⟨rfl, rfl⟩
  | pruned ctx =>
    rw [hpc] at h
    obtain ⟨fd, -, h⟩ := touch_eq_ok h
    split at h
    · cases h
      refine ⟨Or.inr ?_, rfl, rfl, rfl, fun _ => countSeen_of_ne (by simp) (by simp), ?_, ?_⟩
      · have hmove := Holders.Move.finish (h := s.holding) ctx false
          (by simp only [Threads.holding, hpc]; rfl)
        simp only [Threads.holding, Threads.emit, hpc, taken_append] at hmove ⊢
        exact hmove
      · intro _ hp
        rw [hpc] at hp
        cases hp
      · intro _ hp
        rw [hpc] at hp
        cases hp
    · cases h
      refine normalMove_place (u := { s with server := { s.server with isPrune := false } })
        (holding_server rfl rfl) ⟨rfl, rfl, rfl⟩ ⟨rfl, Or.inr rfl⟩ ?_
        fun _ => countSeen_of_ne (by simp) (by simp)
      rw [hpc]
      refine ⟨rfl, rfl, fun hp => ?_, le_rfl⟩
      cases hp
  | promote =>
    rw [hpc] at h
    obtain ⟨v, hv, rfl⟩ := lift_eq_ok h
    obtain ⟨-, running, rfl⟩ := setState_cases hv
    exact normalMove_place (u := { s with server :=
        { s.server with state := .passivePrimary, isChkptThrdRunning := running } }) (holding_server rfl rfl) ⟨rfl, rfl, rfl⟩ ⟨rfl, Or.inl rfl⟩
      (by rw [hpc]; exact ⟨rfl, rfl, fun _ => rfl, le_rfl⟩) fun _ => countSeen_of_ne (by simp) (by simp)
  | lock ctx back =>
    rw [hpc] at h
    cases h
    exact normalMove_place rfl ⟨rfl, rfl, rfl⟩ ⟨rfl, Or.inl rfl⟩
      (by rw [hpc]; exact ⟨rfl, rfl, id, le_rfl⟩) fun _ => countSeen_of_ne (by simp) (by simp)
  | exec ctx back =>
    rw [hpc] at h
    obtain ⟨fd, -, h⟩ := touch_eq_ok h
    split at h
    · cases h
      exact normalMove_place rfl ⟨rfl, rfl, rfl⟩ ⟨rfl, Or.inl rfl⟩
        (by rw [hpc]; exact ⟨rfl, rfl, id, le_rfl⟩) fun _ => countSeen_of_ne (by simp) (by simp)
    · cases h
      exact normalMove_place rfl ⟨rfl, rfl, rfl⟩ ⟨rfl, Or.inl rfl⟩
        (by rw [hpc]; exact ⟨rfl, rfl, id, le_rfl⟩) fun _ => countSeen_of_ne (by simp) (by simp)
  | promoteExec ctx back =>
    rw [hpc] at h
    obtain ⟨v, hv, rfl⟩ := lift_eq_ok h
    obtain ⟨-, running, rfl⟩ := setState_cases hv
    exact normalMove_place (u := { s with server :=
        { s.server with state := .passivePrimary, isChkptThrdRunning := running } }) (holding_server rfl rfl) ⟨rfl, rfl, rfl⟩ ⟨rfl, Or.inl rfl⟩
      (by rw [hpc]; exact ⟨rfl, rfl, id, le_rfl⟩) fun _ => countSeen_of_ne (by simp) (by simp)
  | store ctx back =>
    rw [hpc] at h
    obtain ⟨fd, -, h⟩ := touch_eq_ok h
    split at h
    · cases h
    · rename_i ret store ctx' hstore
      cases h
      have hctx : ctx'.conn = ctx.conn := (handleStorage_ctx hstore).2
      have htaken : taken (.exec ctx :: if ret ≠ 0 then
          [writeClientResponce { s.server with store := store } ctx' "FAIL" "Check inputs"] else []) =
          [(ctx, true)] := by
        split <;> rfl
      refine ⟨Or.inr ?_, rfl, rfl, rfl, fun _ => countSeen_of_ne (by simp) (by simp), ?_, ?_⟩
      · have hmove := Holders.Move.finish (h := s.holding) ctx true
          (by simp only [Threads.holding, hpc]; rfl)
        simpa only [Threads.holding, Threads.emit, hpc, taken_append, htaken, NormalPc.held,
          NormalPc.pending, hctx] using hmove
      · intro hflag hp
        rw [hpc] at hp
        exact ⟨hflag, hp⟩
      · intro _ _
        simp only [Threads.emit, taken_append, htaken, hpc, NormalPc.committed, List.length_append,
          List.length_singleton]
        exact le_rfl
  | reply ctx back =>
    rw [hpc] at h
    obtain ⟨fd, -, h⟩ := touch_eq_ok h
    cases h
    exact normalMove_place (holding_emit s rfl) ⟨rfl, rfl, rfl⟩ ⟨rfl, Or.inl rfl⟩
      (by rw [hpc]; exact ⟨rfl, rfl, id, le_rfl⟩) fun _ => countSeen_of_ne (by simp) (by simp)
  | close ctx back =>
    rw [hpc] at h
    obtain ⟨fd, hfd, h⟩ := touch_eq_ok h
    cases h
    obtain ⟨hnormal, hcontrol, hconn, hserver⟩ := closeCtx_frame s ctx.conn fd
    exact normalMove_place (holding_closeCtx hfd) ⟨hconn, hcontrol, hnormal⟩
      (by rw [hserver]; exact ⟨rfl, Or.inl rfl⟩) (by rw [hpc]; exact ⟨rfl, rfl, id, le_rfl⟩)
      fun _ => countSeen_of_ne (by simp) (by simp)
  | free ctx back =>
    rw [hpc] at h
    obtain ⟨fd, -, h⟩ := touch_eq_ok h
    cases h
    have hback : (backTo back).held = [] ∧ (backTo back).pending = [] ∧
        (backTo back).pruning = back ∧ (backTo back).committed = 0 := by
      cases back
      · exact ⟨rfl, rfl, rfl, rfl⟩
      · exact ⟨rfl, rfl, rfl, rfl⟩
    refine ⟨Or.inr ?_, rfl, rfl, rfl, fun _ => ?_, ?_, ?_⟩
    · have hmove := Holders.Move.releaseNormal (h := s.holding) ctx.conn
        (by simp only [Threads.holding, hpc]; rfl) (by simp only [Threads.holding, hpc]; rfl)
      simp only [Threads.holding, Threads.freeCtx, field_update Option.isSome, hback, hpc,
        Option.isSome_none] at hmove ⊢
      exact hmove
    · exact countSeen_of_ne (by cases back <;> simp [backTo]) (by cases back <;> simp [backTo])
    · intro hflag hp
      rw [hpc] at hp
      exact ⟨hflag, hback.2.2.1.trans hp⟩
    · intro _ _
      dsimp only
      rw [hback.2.2.2]
      exact Nat.add_le_add_left (Nat.zero_le _) _

/-! ### The CONTROL worker and the checkpoint thread -/

structure ControlMove (s t : Threads) : Prop where
  moved : Moved s t
  conn : t.conn = s.conn
  normal : t.normal = s.normal
  mode : s.server.repMode ≠ .unknownRep → t.server.repMode = s.server.repMode
  flag : t.server.isPrune = s.server.isPrune

theorem controlMove_place {pc : ControlPc} (hu : u.holding = s.holding)
    (hframe : u.conn = s.conn ∧ u.normal = s.normal ∧ u.control = s.control)
    (hserver : (s.server.repMode ≠ .unknownRep → u.server.repMode = s.server.repMode) ∧
      u.server.isPrune = s.server.isPrune)
    (hheld : pc.held = s.control.held) : ControlMove s { u with control := pc } := by
  refine ⟨Or.inl (Eq.trans ?_ hu), hframe.1, hframe.2.1, hserver.1, hserver.2⟩
  simp only [Threads.holding, hheld, hframe.2.2]

theorem setMode_frame {a b : Server} {repMode : RepMode}
    (h : (if a.repMode = .unknownRep then setMode a repMode else .ok a) = .ok b) :
    ∃ m, b = { a with repMode := m } ∧ (a.repMode ≠ .unknownRep → m = a.repMode) := by
  split at h
  · rename_i hunknown
    unfold setMode at h
    split at h
    · cases h
      exact ⟨_, rfl, fun hne => absurd hunknown hne⟩
    · cases h
  · cases h
    exact ⟨_, rfl, fun _ => rfl⟩

theorem sendCheckpoint_moved {v : Server} {effs : List Effect}
    (h : sendCheckpoint env s.server = .ok (v, effs)) :
    { s.emit effs with server := v }.holding = s.holding ∧ v.repMode = s.server.repMode ∧
      v.isPrune = s.server.isPrune := by
  obtain ⟨file, -, rfl, rfl⟩ := sendCheckpoint_cases h
  exact ⟨holding_emit s rfl, rfl, rfl⟩

theorem controlStep_move (h : controlStep env s = .ok t) : ControlMove s t := by
  unfold controlStep at h
  cases hpc : s.control with
  | top =>
    rw [hpc] at h
    cases h
    split
    · exact controlMove_place rfl ⟨rfl, rfl, rfl⟩ ⟨fun _ => rfl, rfl⟩ (by rw [hpc])
    · exact controlMove_place rfl ⟨rfl, rfl, rfl⟩ ⟨fun _ => rfl, rfl⟩ (by rw [hpc]; rfl)
  | take =>
    rw [hpc] at h
    dsimp only at h
    split at h
    · cases h
      exact controlMove_place rfl ⟨rfl, rfl, rfl⟩ ⟨fun _ => rfl, rfl⟩ (by rw [hpc]; rfl)
    · rename_i ctx rest hlog
      cases h
      refine ⟨Or.inr ?_, rfl, rfl, fun _ => rfl, rfl⟩
      exact .takeControl ctx rest hlog (by simp only [Threads.holding, hpc]; rfl)
  | exec ctx =>
    rw [hpc] at h
    obtain ⟨fd, -, h⟩ := touch_eq_ok h
    split at h
    · obtain ⟨v, hv, rfl⟩ := lift_eq_ok h
      obtain ⟨m, rfl, hm⟩ := setMode_frame hv
      exact controlMove_place (u := { s with server := { s.server with repMode := m } })
        (holding_server rfl rfl) ⟨rfl, rfl, rfl⟩ ⟨hm, rfl⟩ (by rw [hpc]; rfl)
    · split at h
      · cases h
        exact controlMove_place rfl ⟨rfl, rfl, rfl⟩ ⟨fun _ => rfl, rfl⟩ (by rw [hpc]; rfl)
      · cases h
        exact controlMove_place rfl ⟨rfl, rfl, rfl⟩ ⟨fun _ => rfl, rfl⟩ (by rw [hpc]; rfl)
    · cases h
      exact controlMove_place rfl ⟨rfl, rfl, rfl⟩ ⟨fun _ => rfl, rfl⟩ (by rw [hpc]; rfl)
  | role ctx =>
    rw [hpc] at h
    obtain ⟨fd, -, h⟩ := touch_eq_ok h
    obtain ⟨v, hv, rfl⟩ := lift_eq_ok h
    unfold changeRole at hv
    obtain ⟨-, running, rfl⟩ := setState_cases hv
    refine ⟨Or.inl ?_, rfl, rfl, fun _ => rfl, rfl⟩
    simp only [Threads.holding, hpc]
    rfl
  | send ctx =>
    rw [hpc] at h
    dsimp only at h
    split at h
    · cases h
      exact ⟨Or.inl rfl, rfl, rfl, fun _ => rfl, rfl⟩
    · split at h
      · cases h
      · rename_i v effs hsend
        cases h
        obtain ⟨hholding, hmode, hflag⟩ := sendCheckpoint_moved hsend
        exact controlMove_place hholding ⟨rfl, rfl, rfl⟩ ⟨fun _ => hmode, hflag⟩ (by rw [hpc]; rfl)
  | reply ctx =>
    rw [hpc] at h
    obtain ⟨fd, -, h⟩ := touch_eq_ok h
    cases h
    exact controlMove_place (holding_emit s rfl) ⟨rfl, rfl, rfl⟩ ⟨fun _ => rfl, rfl⟩ (by rw [hpc]; rfl)
  | close ctx =>
    rw [hpc] at h
    obtain ⟨fd, hfd, h⟩ := touch_eq_ok h
    cases h
    obtain ⟨hnormal, hcontrol, hconn, hserver⟩ := closeCtx_frame s ctx.conn fd
    exact controlMove_place (holding_closeCtx hfd) ⟨hconn, hnormal, hcontrol⟩
      (by rw [hserver]; exact ⟨fun _ => rfl, rfl⟩) (by rw [hpc]; rfl)
  | free ctx =>
    rw [hpc] at h
    obtain ⟨fd, -, h⟩ := touch_eq_ok h
    cases h
    refine ⟨Or.inr ?_, rfl, rfl, fun _ => rfl, rfl⟩
    have hmove := Holders.Move.releaseControl (h := s.holding) ctx.conn
      (by simp only [Threads.holding, hpc]; rfl)
    simp only [Threads.holding, Threads.freeCtx, field_update Option.isSome, Option.isSome_none] at hmove ⊢
    exact hmove

/-! ### All steps -/

/-- A step is one of a connection thread, `main` behind its `accept` included,
or of the NORMAL worker, or of one of the other two threads. -/
theorem threadsStep_move {e : ThreadEvent} (hids : ∀ i, ∀ ctx ∈ (s.conn i).ctx?, ctx.conn = i)
    (h : threadsStep env s e = .ok t) :
    t = s ∨ (∃ i, ConnMove s t i) ∨ NormalMove s t ∨ ControlMove s t := by
  cases e with
  | accept i fd =>
    rw [threadsStep] at h
    split at h
    · rename_i hpc
      cases h
      have hmoved : Moved s ({ s with heap := Function.update s.heap i (some fd) }.setConn i .reading) := by
        refine Or.inr ?_
        rw [holding_setConn, holding_heap]
        exact .create i (by simp only [Threads.holding, hpc]; rfl)
      exact Or.inr (Or.inl ⟨i, hmoved, rfl, rfl, ⟨_, rfl, (goesOn_none rfl).1, by simp⟩, rfl, Or.inl⟩)
    · cases h
      exact Or.inl rfl
  | request i rand ctx =>
    rw [threadsStep] at h
    split at h
    · rename_i hpc
      obtain ⟨fd, -, h⟩ := touch_eq_ok h
      obtain ⟨v, ctx', hpark⟩ : ∃ v ctx',
        parkPayload s.server rand { ctx with fd := fd, conn := i } = (v, ctx') := ⟨_, _, rfl⟩
      dsimp only at h
      rw [hpark] at h
      cases h
      obtain ⟨⟨name, hctx⟩, hserver⟩ := parkPayload_frame hpark
      have hpcs : GoesOn i (.dispatch ctx') := by
        refine ⟨fun c hc => ?_, by simp⟩
        cases hc
        rw [hctx]
      exact Or.inr (Or.inl ⟨i, connMove_place (u := { s with server := v })
        (holding_server (by rw [hserver]) (by rw [hserver])) ⟨rfl, rfl, rfl⟩
        (by rw [hserver]; exact ⟨rfl, rfl⟩) (by rw [hpc]; exact ⟨rfl, rfl⟩) hpcs⟩)
    · cases h
      exact Or.inl rfl
  | reject i ctx msg =>
    rw [threadsStep] at h
    split at h
    · rename_i hpc
      obtain ⟨fd, -, h⟩ := touch_eq_ok h
      cases h
      have htaken : taken (msg.toList.map fun m =>
          writeClientResponce s.server { ctx with fd := fd, conn := i } "FAIL" m) = [] := by
        cases msg <;> rfl
      exact Or.inr (Or.inl ⟨i, connMove_place (holding_emit s htaken) ⟨rfl, rfl, rfl⟩ ⟨rfl, rfl⟩
        (by rw [hpc]; exact ⟨rfl, rfl⟩) (goesOn_none rfl)⟩)
    · cases h
      exact Or.inl rfl
  | conn i => exact Or.inr (Or.inl ⟨i, connStep_move (hids i) h⟩)
  | normal => exact Or.inr (Or.inr (Or.inl (normalStep_move h)))
  | control => exact Or.inr (Or.inr (Or.inr (controlStep_move h)))
  | chkptThread =>
    rw [threadsStep] at h
    split at h
    · cases h
      exact Or.inl rfl
    · split at h
      · cases h
      · rename_i v effs hsend
        cases h
        obtain ⟨hholding, hmode, hflag⟩ := sendCheckpoint_moved hsend
        exact Or.inr (Or.inr (Or.inr ⟨Or.inl hholding, rfl, rfl, fun _ => hmode, hflag⟩))

structure ThreadsInv (s : Threads) : Prop where
  holders : s.holding.Inv
  ids : ∀ i, ∀ ctx ∈ (s.conn i).ctx?, ctx.conn = i
  counted : CountSeen s.normal s.server.nrl

theorem Moved.inv (hmoved : Moved s t) (hinv : s.holding.Inv) : t.holding.Inv := by
  rcases hmoved with heq | hmove
  · rw [heq]
    exact hinv
  · exact hinv.move hmove

theorem Moved.counted (hmoved : Moved s t) (hn : t.normal = s.normal)
    (hcount : CountSeen s.normal s.server.nrl) : CountSeen t.normal t.server.nrl := by
  intro ht
  rw [hn] at ht
  have hne := hcount ht
  rcases hmoved with heq | hmove
  · have hnrl : t.server.nrl = s.server.nrl := congrArg Holders.nrl heq
    rw [hnrl]
    exact hne
  · have hhand : t.holding.hand = s.holding.hand := by simp only [Threads.holding, hn]
    exact hmove.nrl_ne_nil hhand hne

theorem threadsStep_inv {e : ThreadEvent} (hinv : ThreadsInv s) (h : threadsStep env s e = .ok t) :
    ThreadsInv t := by
  rcases threadsStep_move hinv.ids h with rfl | ⟨i, hm⟩ | hm | hm
  · exact hinv
  · obtain ⟨pc, hconn, hpc, -⟩ := hm.conn
    refine ⟨hm.moved.inv hinv.holders, fun j => ?_, hm.moved.counted hm.normal hinv.counted⟩
    rw [hconn]
    by_cases hj : j = i
    · subst hj
      rw [Function.update_self]
      exact hpc
    · rw [Function.update_of_ne hj]
      exact hinv.ids j
  · refine ⟨hm.moved.inv hinv.holders, ?_, hm.counted hinv.counted⟩
    rw [hm.conn]
    exact hinv.ids
  · refine ⟨hm.moved.inv hinv.holders, ?_, hm.moved.counted hm.normal hinv.counted⟩
    rw [hm.conn]
    exact hinv.ids

theorem threadsInv_init (serverId : ℤ) : ThreadsInv (initThreads serverId) := by
  refine ⟨⟨fun _ _ => rfl, inCustody_start, rfl⟩, ?_, countSeen_of_ne ?_ ?_⟩
  · intro i ctx hctx
    cases hctx
  · simp [initThreads]
  · simp [initThreads]

theorem threadsRun_inv {serverId : ℤ} {es : List ThreadEvent}
    (hrun : run (threadsNext env) (initThreads serverId) es = some s) : ThreadsInv s :=
  run_invariant (C := fun _ _ => True)
    (fun _ _ _ hinv _ hstep => threadsStep_inv hinv (mem_toOption.mp (Option.mem_def.mpr hstep)))
    (threadsInv_init serverId) (allSteps_of_forall (fun _ _ => trivial) _ es) hrun

/-! ### Accesses to freed contexts -/

theorem lift_not_stale {x : Except Fault Server} {k : Server → Threads} :
    lift x k ≠ .error (.stale i) := by
  unfold lift
  split <;> simp

theorem touch_eq_stale {j : ℕ} {k : ℤ → Except ThreadFault Threads}
    (h : s.touch i k = .error (.stale j)) :
    (s.heap i = none ∧ j = i) ∨ ∃ fd, k fd = .error (.stale j) := by
  unfold Threads.touch at h
  split at h
  · rename_i hnone
    cases h
    exact Or.inl ⟨hnone, rfl⟩
  · rename_i fd _
    exact Or.inr ⟨fd, h⟩

theorem ThreadsInv.live_of_own (hinv : ThreadsInv s) (hown : (s.conn i).owns = true) :
    s.heap i ≠ none := by
  have hlive : (s.heap i).isSome = true := hinv.holders.custody.live_of_own hown
  exact Option.isSome_iff_ne_none.mp hlive

theorem ThreadsInv.live_of_shared (hinv : ThreadsInv s) (hmem : i ∈ s.holding.shared) :
    s.heap i ≠ none := by
  have hlive : (s.heap i).isSome = true := hinv.holders.custody.live_of_shared hmem
  exact Option.isSome_iff_ne_none.mp hlive

theorem ThreadsInv.live_of_hand (hinv : ThreadsInv s) (hmem : i ∈ s.normal.held) : s.heap i ≠ none :=
  hinv.live_of_shared (List.mem_append_left _ hmem)

theorem ThreadsInv.live_of_ctrlHand (hinv : ThreadsInv s) (hmem : i ∈ s.control.held) :
    s.heap i ≠ none :=
  hinv.live_of_shared (List.mem_append_right _ (List.mem_append_left _ hmem))

theorem touch_not_stale {j : ℕ} {k : ℤ → Except ThreadFault Threads} (hlive : s.heap i ≠ none)
    (hk : ∀ fd, k fd ≠ .error (.stale j)) : s.touch i k ≠ .error (.stale j) := by
  intro h
  rcases touch_eq_stale h with ⟨hnone, -⟩ | ⟨fd, hfd⟩
  · exact hlive hnone
  · exact hk fd hfd

theorem connStep_stale {j : ℕ} (hinv : ThreadsInv s) (h : connStep s i = .error (.stale j)) :
    j = i ∧ (∃ ctx, s.conn i = .tail ctx) ∧ s.heap i = none := by
  unfold connStep at h
  cases hpc : s.conn i with
  | absent | reading | gone | entered ctx =>
    rw [hpc] at h
    cases h
  | dispatch ctx | backlog ctx | prune ctx | exit | free =>
    rw [hpc] at h
    have hlive := hinv.live_of_own (i := i) (by rw [hpc]; rfl)
    exact absurd h (touch_not_stale hlive fun fd => by simp)
  | quiesce ctx second =>
    rw [hpc] at h
    cases second with
    | false => exact absurd h lift_not_stale
    | true => exact absurd h lift_not_stale
  | enter ctx =>
    rw [hpc] at h
    dsimp only at h
    split at h <;> cases h
  | tail ctx =>
    rw [hpc] at h
    rcases touch_eq_stale h with ⟨hnone, rfl⟩ | ⟨fd, hfd⟩
    · exact ⟨rfl, ⟨ctx, rfl⟩, hnone⟩
    · split at hfd <;> cases hfd

theorem normalStep_stale {j : ℕ} (hinv : ThreadsInv s) : normalStep env s ≠ .error (.stale j) := by
  intro h
  unfold normalStep at h
  cases hpc : s.normal with
  | top | sleepTest | sleepRole | count | promoteTest | quiesceTest | lock ctx back =>
    rw [hpc] at h
    cases h
  | prune | take =>
    rw [hpc] at h
    dsimp only at h
    split at h <;> cases h
  | promote | promoteExec ctx back =>
    rw [hpc] at h
    exact lift_not_stale h
  | reply ctx back | close ctx back | free ctx back =>
    rw [hpc] at h
    have hlive := hinv.live_of_hand (i := ctx.conn) (by rw [hpc]; exact List.mem_singleton_self _)
    exact touch_not_stale hlive (fun fd => by simp) h
  | pruned ctx | exec ctx back | store ctx back =>
    rw [hpc] at h
    have hlive := hinv.live_of_hand (i := ctx.conn) (by rw [hpc]; exact List.mem_singleton_self _)
    refine touch_not_stale hlive (fun fd => ?_) h
    split <;> simp

theorem controlStep_stale {j : ℕ} (hinv : ThreadsInv s) : controlStep env s ≠ .error (.stale j) := by
  intro h
  unfold controlStep at h
  cases hpc : s.control with
  | top =>
    rw [hpc] at h
    cases h
  | take =>
    rw [hpc] at h
    dsimp only at h
    split at h <;> cases h
  | send ctx =>
    rw [hpc] at h
    dsimp only at h
    split at h
    · cases h
    · split at h <;> cases h
  | exec ctx =>
    rw [hpc] at h
    have hlive := hinv.live_of_ctrlHand (i := ctx.conn) (by rw [hpc]; exact List.mem_singleton_self _)
    refine touch_not_stale hlive (fun fd => ?_) h
    split
    · exact lift_not_stale
    · split <;> simp
    · simp
  | role ctx =>
    rw [hpc] at h
    have hlive := hinv.live_of_ctrlHand (i := ctx.conn) (by rw [hpc]; exact List.mem_singleton_self _)
    exact touch_not_stale hlive (fun fd => lift_not_stale) h
  | reply ctx | close ctx | free ctx =>
    rw [hpc] at h
    have hlive := hinv.live_of_ctrlHand (i := ctx.conn) (by rw [hpc]; exact List.mem_singleton_self _)
    exact touch_not_stale hlive (fun fd => by simp) h

theorem threadsStep_stale {e : ThreadEvent} {j : ℕ} (hinv : ThreadsInv s) :
    threadsStep env s e = .error (.stale j) ↔
      e = .conn j ∧ (∃ ctx, s.conn j = .tail ctx) ∧ s.heap j = none := by
  constructor
  · intro h
    cases e with
    | accept i fd =>
      rw [threadsStep] at h
      split at h <;> cases h
    | request i rand ctx =>
      rw [threadsStep] at h
      split at h
      · rename_i hpc
        have hlive := hinv.live_of_own (i := i) (by rw [hpc]; rfl)
        exact absurd h (touch_not_stale hlive fun fd => by simp)
      · cases h
    | reject i ctx msg =>
      rw [threadsStep] at h
      split at h
      · rename_i hpc
        have hlive := hinv.live_of_own (i := i) (by rw [hpc]; rfl)
        exact absurd h (touch_not_stale hlive fun fd => by simp)
      · cases h
    | conn i =>
      obtain ⟨rfl, htail, hnone⟩ := connStep_stale hinv h
      exact ⟨rfl, htail, hnone⟩
    | normal => exact absurd h (normalStep_stale hinv)
    | control => exact absurd h (controlStep_stale hinv)
    | chkptThread =>
      rw [threadsStep] at h
      split at h
      · cases h
      · split at h <;> cases h
  · rintro ⟨rfl, ⟨ctx, hpc⟩, hnone⟩
    simp only [threadsStep, connStep, hpc, Threads.touch, hnone]

end

/-! ### Main results -/

/-- Whatever the order of steps, a context is allocated as long as it has a
holder, and has no more than one; the only step that can find it freed is the
last one of `handle_connection`. -/
theorem contexts_held_once (env : Env) (serverId : ℤ) (es : List ThreadEvent) (s : Threads)
    (hrun : run (threadsNext env) (initThreads serverId) es = some s) :
    (∀ i, (s.conn i).owns.toNat + s.holding.shared.count i = (s.heap i).isSome.toNat) ∧
      ∀ e i, threadsStep env s e = .error (.stale i) ↔
        e = .conn i ∧ (∃ ctx, s.conn i = .tail ctx) ∧ s.heap i = none :=
  have hinv := threadsRun_inv hrun
  ⟨hinv.holders.custody, fun _ _ => threadsStep_stale hinv⟩

def sevenEnv : Env := zeroEnv fun _ => some 7

def deliver (i : ℕ) (fd : ℤ) (req : ClientRequest) : List ThreadEvent :=
  [.accept i fd, .request i 0 { fd := fd, req := req }] ++ List.replicate 5 (.conn i)

/-- A recovering server executes a request before its connection thread is back
from `enqueue`. -/
def lateTail : List ThreadEvent :=
  deliver 0 4 { msgType := .msgRepMgr,
                repMgrMsg := { repMode := .activeRep, serverState := .activeRecover } } ++
    List.replicate 7 .control ++ deliver 1 5 (addRequest (ascii "buy milk")) ++
    List.replicate 12 .normal

theorem contexts_held_once_lateTail :
    ∃ s, run (threadsNext sevenEnv) (initThreads 0) lateTail = some s ∧
      threadsStep sevenEnv s (.conn 1) = .error (.stale 1) := by
  have hend : (run (threadsNext sevenEnv) (initThreads 0) lateTail).any (fun s => s.heap 1 = none &&
      (match s.conn 1 with | .tail _ => true | _ => false)) = true := by decide +kernel
  obtain ⟨s, hrun, hs⟩ := (Option.any_eq_true _ _).mp hend
  rw [Bool.and_eq_true, decide_eq_true_eq] at hs
  have htail : ∃ ctx, s.conn 1 = .tail ctx := by
    cases hpc : s.conn 1 with
    | tail ctx => exact ⟨ctx, rfl⟩
    | _ =>
      rw [hpc] at hs
      cases hs.2
  exact ⟨s, hrun, ((contexts_held_once sevenEnv 0 lateTail s hrun).2 (.conn 1) 1).mpr ⟨rfl, htail, hs.1⟩⟩

/-- What the NORMAL log has taken in leaves it in order and once, and the worker
that has counted its entries finds one. -/
theorem normal_log_in_order (env : Env) (serverId : ℤ) (es : List ThreadEvent) (s : Threads)
    (hrun : run (threadsNext env) (initThreads serverId) es = some s) :
    s.entered = (taken s.out).map Prod.fst ++ (s.normal.pending ++ s.server.nrl) ∧
      (s.normal = .take → s.server.nrl ≠ []) :=
  have hinv := threadsRun_inv hrun
  ⟨hinv.holders.log, fun htake => hinv.counted (Or.inr htake)⟩

theorem normal_log_in_order_lateTail :
    ∃ s, run (threadsNext sevenEnv) (initThreads 0) lateTail = some s ∧
      s.entered = (taken s.out).map Prod.fst ++ (s.normal.pending ++ s.server.nrl) := by
  have hend : (run (threadsNext sevenEnv) (initThreads 0) lateTail).isSome = true := by decide +kernel
  obtain ⟨s, hrun⟩ := Option.isSome_iff_exists.mp hend
  exact ⟨s, hrun, (normal_log_in_order sevenEnv 0 lateTail s hrun).1⟩

end ToDoList
