import ToDoList.Delivery

/-!
# Quiesce commands of overlapping recoveries

`put_in_quiesence` saves the role in `prev_state` and `remove_from_quiesence`
restores it from there. A second start before the first stop saves QUIESCE
itself, and from then on no number of stops brings the role back: the commands
restore the role exactly when no two starts are open at once.
-/

namespace ToDoList
open CLib StepRun

def isDelivery (type : MsgType) : ServerEvent → Bool
  | .connection _ ctx => ctx.req.msgType = type
  | _ => false

def starts (es : List ServerEvent) : ℕ := es.countP (isDelivery .msgQuiesceStart)
def stops (es : List ServerEvent) : ℕ := es.countP (isDelivery .msgQuiesceStop)

/-- As many stops as starts, and never more stops than starts on the way. -/
structure Balanced (es : List ServerEvent) : Prop where
  covered : ∀ pre, pre <+: es → stops pre ≤ starts pre
  closed : starts es = stops es

/-- At most one start is open at any point. -/
def OneOpen (es : List ServerEvent) : Prop := ∀ pre, pre <+: es → starts pre ≤ stops pre + 1

/-- An active server with no role command to execute. -/
structure ActiveIdle (s : Server) : Prop where
  mode : s.repMode = .activeRep
  state : stateAllowed .activeRep s.state = true
  ctrl : ∀ c ∈ s.ctrl, c.req.msgType ≠ .msgRepMgr

theorem ActiveIdle.not_preprimary {s : Server} (h : ActiveIdle s) : s.state ≠ .passivePreprimary := by
  intro hs
  have hallow := h.state
  rw [hs] at hallow
  cases hallow

/-! ### One delivery -/

def roleBehind (s : Server) (type : MsgType) : ServerStates × ServerStates :=
  if type = .msgQuiesceStart then (.quiesce, s.state) else (s.prevState, s.prevState)

theorem handleQuiesceCommand_active {s t : Server} {type : MsgType} {ret : ℤ}
    (hmode : s.repMode = .activeRep) (htype : isQuiesceCommand type = true)
    (hok : handleQuiesceCommand s type = .ok (ret, t)) :
    stateAllowed .activeRep t.state = true ∧ ∃ running, t = { s with
      state := (roleBehind s type).1, prevState := (roleBehind s type).2,
      isChkptThrdRunning := running } := by
  unfold handleQuiesceCommand at hok
  by_cases hstart : type = .msgQuiesceStart
  · rw [if_pos hstart, putInQuiesence] at hok
    cases hs : setState { s with prevState := s.state } .quiesce with
    | error f =>
      rw [hs] at hok
      cases hok
    | ok u =>
      rw [hs] at hok
      cases hok
      obtain ⟨-, running, rfl⟩ := setState_cases hs
      rw [roleBehind, if_pos hstart]
      exact ⟨rfl, running, rfl⟩
  · have hstop : type = .msgQuiesceStop := by simpa [isQuiesceCommand, hstart] using htype
    rw [if_neg hstart, if_pos hstop, removeFromQuiesence] at hok
    cases hs : setState s s.prevState with
    | error f =>
      rw [hs] at hok
      cases hok
    | ok u =>
      rw [hs] at hok
      cases hok
      obtain ⟨hallow, running, rfl⟩ := setState_cases hs
      rw [hmode] at hallow
      rw [roleBehind, if_neg hstart]
      exact ⟨hallow, running, rfl⟩

/-- The role after an event that is not the arrival of a role command. -/
def roleAfter (s : Server) (e : ServerEvent) : ServerStates × ServerStates :=
  if isDelivery .msgQuiesceStart e then (.quiesce, s.state)
  else if isDelivery .msgQuiesceStop e then (s.prevState, s.prevState)
  else (s.state, s.prevState)

theorem handleConnection_active {s t : Server} {rand : ℕ} {ctx : ClientCtx} {effs : List Effect}
    (h : ActiveIdle s) (hrole : ctx.req.msgType ≠ .msgRepMgr)
    (hstep : handleConnection s rand ctx = .ok (t, effs)) :
    ActiveIdle t ∧ (t.state, t.prevState) = roleAfter s (.connection rand ctx) := by
  obtain ⟨u, ctx', hpark⟩ : ∃ u ctx', parkPayload s rand ctx = (u, ctx') := ⟨_, _, rfl⟩
  obtain ⟨⟨name, rfl⟩, hu⟩ := parkPayload_frame hpark
  have hinv : ActiveIdle u := by
    rw [hu]
    exact ⟨h.mode, h.state, h.ctrl⟩
  have hstate : u.state = s.state := by rw [hu]
  have hprev : u.prevState = s.prevState := by rw [hu]
  unfold roleAfter isDelivery
  rw [← hstate, ← hprev]
  rcases handleConnection_cases hpark hstep with ⟨hq, ⟨ret, hquiesce⟩, -⟩ | ⟨hq, rfl, -⟩
  · obtain ⟨hallow, running, rfl⟩ := handleQuiesceCommand_active hinv.mode hq hquiesce
    refine ⟨⟨hinv.mode, hallow, hinv.ctrl⟩, ?_⟩
    by_cases hstart : ctx.req.msgType = .msgQuiesceStart
    · simp [roleBehind, hstart]
    · have hstop : ctx.req.msgType = .msgQuiesceStop := by
        simpa [isQuiesceCommand, hstart] using hq
      simp [roleBehind, hstop]
  · have hno : ctx.req.msgType ≠ .msgQuiesceStop ∧ ctx.req.msgType ≠ .msgQuiesceStart := by
      simpa [isQuiesceCommand] using hq
    simp only [hno.1, hno.2, decide_false, Bool.false_eq_true, if_false]
    rcases enqueueClientReq_cases u { ctx with req := { ctx.req with filename := name } } with
      ⟨-, he⟩ | ⟨-, -, he⟩ | ⟨-, -, he⟩
    · rw [he]
      exact ⟨⟨hinv.mode, hinv.state, hinv.ctrl⟩, rfl⟩
    · rw [he]
      refine ⟨⟨hinv.mode, hinv.state, ?_⟩, rfl⟩
      intro c hc
      rcases List.mem_append.mp hc with hc | hc
      · exact hinv.ctrl c hc
      · rw [List.mem_singleton.mp hc]
        exact hrole
    · rw [he]
      exact ⟨⟨hinv.mode, hinv.state, hinv.ctrl⟩, rfl⟩

theorem serverNext_active {env : Env} {s t : Server} {e : ServerEvent} (h : ActiveIdle s)
    (hrole : isDelivery .msgRepMgr e = false) (hstep : serverNext env s e = some t) :
    ActiveIdle t ∧ (t.state, t.prevState) = roleAfter s e := by
  obtain ⟨effs, hs⟩ := serverNext_eq_some hstep
  cases e with
  | connection rand ctx => exact handleConnection_active h (by simpa [isDelivery] using hrole) hs
  | reject ctx msg =>
    cases hs
    exact ⟨h, rfl⟩
  | normal =>
    have hsame := runNormal_sameRole hs h.not_preprimary
    refine ⟨⟨hsame.mode.trans h.mode, by rw [hsame.state]; exact h.state, ?_⟩, ?_⟩
    · rw [hsame.ctrl]
      exact h.ctrl
    · rw [hsame.state, hsame.prev]
      rfl
  | control =>
    rcases runControl_cases hs with ⟨-, rfl, -⟩ | ⟨ctx, rest, hlog, hexec⟩
    · exact ⟨h, rfl⟩
    · have hrest : ∀ c ∈ rest, c.req.msgType ≠ .msgRepMgr := fun c hc =>
        h.ctrl c (by rw [hlog]; exact List.mem_cons_of_mem _ hc)
      obtain ⟨body, -, ⟨htype, -, -⟩ | ⟨-, -, hsend⟩ | ⟨rfl, -⟩⟩ := executeMsgCtrl_cases hexec
      · exact absurd htype (h.ctrl ctx (by rw [hlog]; exact List.mem_cons_self ..))
      · obtain ⟨file, -, rfl, -⟩ := sendCheckpoint_cases hsend
        exact ⟨⟨h.mode, h.state, hrest⟩, rfl⟩
      · exact ⟨⟨h.mode, h.state, hrest⟩, rfl⟩
  | chkptThread =>
    obtain ⟨n, rfl⟩ := chkptThread_cases hs
    exact ⟨⟨h.mode, h.state, h.ctrl⟩, rfl⟩

/-! ### Deliveries never trip the assertion here -/

theorem handleConnection_active_ok {s : Server} (rand : ℕ) {ctx : ClientCtx}
    (hactive : s.repMode = .activeRep)
    (hprev : ctx.req.msgType = .msgQuiesceStop → stateAllowed .activeRep s.prevState = true) :
    ∃ r, handleConnection s rand ctx = .ok r := by
  obtain ⟨u, ctx', hpark⟩ : ∃ u ctx', parkPayload s rand ctx = (u, ctx') := ⟨_, _, rfl⟩
  obtain ⟨⟨name, rfl⟩, hu⟩ := parkPayload_frame hpark
  have hmode : u.repMode = .activeRep := by
    rw [hu]
    exact hactive
  have hprevU : u.prevState = s.prevState := by rw [hu]
  simp only [handleConnection, hpark]
  by_cases hstart : ctx.req.msgType = .msgQuiesceStart
  · simp [isQuiesceCommand, hstart, handleQuiesceCommand, putInQuiesence, setState, hmode,
      stateAllowed, Except.map]
  · by_cases hstop : ctx.req.msgType = .msgQuiesceStop
    · have hallow := hprev hstop
      simp [isQuiesceCommand, hstop, handleQuiesceCommand, removeFromQuiesence, setState, hmode,
        hprevU, hallow, Except.map]
    · rw [if_neg (by simp [isQuiesceCommand, hstart, hstop])]
      split
      · exact ⟨_, rfl⟩
      · split <;> exact ⟨_, rfl⟩

/-! ### Sequences of deliveries -/

def isConnection : ServerEvent → Bool
  | .connection _ _ => true
  | _ => false

/-- Iterations of the workers and of the checkpoint thread come back. -/
def WorkersReturn (env : Env) (s : Server) (es : List ServerEvent) : Prop :=
  AllSteps (serverNext env)
    (fun s e => isConnection e = false → (serverNext env s e).isSome = true) s es

instance (env : Env) (s : Server) (es : List ServerEvent) : Decidable (WorkersReturn env s es) :=
  inferInstanceAs (Decidable (AllSteps _ _ s es))

theorem starts_snoc (es : List ServerEvent) (e : ServerEvent) :
    starts (es ++ [e]) = starts es + if isDelivery .msgQuiesceStart e then 1 else 0 := by
  rw [starts, List.countP_append, List.countP_singleton]
  rfl

theorem stops_snoc (es : List ServerEvent) (e : ServerEvent) :
    stops (es ++ [e]) = stops es + if isDelivery .msgQuiesceStop e then 1 else 0 := by
  rw [stops, List.countP_append, List.countP_singleton]
  rfl

theorem oneOpen_snoc {es : List ServerEvent} {e : ServerEvent} :
    OneOpen (es ++ [e]) ↔ OneOpen es ∧ starts (es ++ [e]) ≤ stops (es ++ [e]) + 1 := by
  constructor
  · intro h
    exact ⟨fun pre hpre => h pre (hpre.trans (List.prefix_append ..)), h _ List.prefix_rfl⟩
  · rintro ⟨hes, hall⟩ pre hpre
    rcases List.prefix_concat_iff.mp hpre with rfl | hpre
    · exact hall
    · exact hes pre hpre

/-- Where the role is kept after the deliveries `es`: nowhere once two starts
have been open. -/
structure Kept (role : ServerStates) (es : List ServerEvent) (v : Server) : Prop where
  idle : ActiveIdle v
  closed : OneOpen es → starts es = stops es → v.state = role
  opened : OneOpen es → starts es ≠ stops es → v.state = .quiesce ∧ v.prevState = role
  lost : ¬OneOpen es → v.state = .quiesce ∧ v.prevState = .quiesce

theorem Kept.prev_allowed {role : ServerStates} {es : List ServerEvent} {v : Server}
    (h : Kept role es v) (hrole : stateAllowed .activeRep role = true)
    (hopen : starts es ≠ stops es) : stateAllowed .activeRep v.prevState = true := by
  by_cases hone : OneOpen es
  · rw [(h.opened hone hopen).2]
    exact hrole
  · rw [(h.lost hone).2]
    rfl

theorem Kept.step {env : Env} {role : ServerStates} {es : List ServerEvent} {e : ServerEvent}
    {v w : Server} (h : Kept role es v) (hcov : stops (es ++ [e]) ≤ starts (es ++ [e]))
    (hle : stops es ≤ starts es) (hrole : isDelivery .msgRepMgr e = false)
    (hstep : serverNext env v e = some w) : Kept role (es ++ [e]) w := by
  obtain ⟨hidle, hafter⟩ := serverNext_active h.idle hrole hstep
  have hstarts := starts_snoc es e
  have hstops := stops_snoc es e
  unfold roleAfter at hafter
  by_cases hstart : isDelivery .msgQuiesceStart e = true
  · have hno : isDelivery .msgQuiesceStop e = false := by
      cases e with
      | connection rand ctx =>
        have htype : ctx.req.msgType = .msgQuiesceStart := by simpa [isDelivery] using hstart
        simp [isDelivery, htype]
      | reject ctx msg => rfl
      | normal => rfl
      | control => rfl
      | chkptThread => rfl
    rw [if_pos hstart] at hafter hstarts
    rw [hno, if_neg Bool.false_ne_true] at hstops
    obtain ⟨hstate, hprev⟩ := Prod.mk.inj hafter
    refine ⟨hidle, fun _ _ => by omega, fun hone _ => ⟨hstate, ?_⟩, fun hone => ⟨hstate, ?_⟩⟩
    · obtain ⟨hone, hbound⟩ := oneOpen_snoc.mp hone
      rw [hprev]
      exact h.closed hone (by omega)
    · rw [hprev]
      by_cases hes : OneOpen es
      · have hbound : ¬starts (es ++ [e]) ≤ stops (es ++ [e]) + 1 := fun hb =>
          hone (oneOpen_snoc.mpr ⟨hes, hb⟩)
        exact (h.opened hes (by omega)).1
      · exact (h.lost hes).1
  · rw [if_neg hstart] at hafter hstarts
    by_cases hstop : isDelivery .msgQuiesceStop e = true
    · rw [if_pos hstop] at hafter hstops
      obtain ⟨hstate, hprev⟩ := Prod.mk.inj hafter
      refine ⟨hidle, fun hone _ => ?_, fun hone hne => ?_, fun hone => ?_⟩
      · rw [hstate]
        exact (h.opened (oneOpen_snoc.mp hone).1 (by omega)).2
      · have hbound := (oneOpen_snoc.mp hone).1 es List.prefix_rfl
        omega
      · have hes : ¬OneOpen es := fun hes =>
          hone (oneOpen_snoc.mpr ⟨hes, by have := hes es List.prefix_rfl; omega⟩)
        rw [hstate, hprev]
        exact ⟨(h.lost hes).2, (h.lost hes).2⟩
    · rw [if_neg hstop] at hafter hstops
      obtain ⟨hstate, hprev⟩ := Prod.mk.inj hafter
      refine ⟨hidle, fun hone heq => ?_, fun hone hne => ?_, fun hone => ?_⟩
      · rw [hstate]
        exact h.closed (oneOpen_snoc.mp hone).1 (by omega)
      · rw [hstate, hprev]
        exact h.opened (oneOpen_snoc.mp hone).1 (by omega)
      · have hes : ¬OneOpen es := fun hes =>
          hone (oneOpen_snoc.mpr ⟨hes, by have := hes es List.prefix_rfl; omega⟩)
        rw [hstate, hprev]
        exact h.lost hes

/-- Every such sequence is delivered to the end. -/
theorem run_kept {env : Env} {s : Server} {es : List ServerEvent} (hs : ActiveIdle s)
    (hcov : ∀ pre, pre <+: es → stops pre ≤ starts pre)
    (hrole : ∀ e ∈ es, isDelivery .msgRepMgr e = false) (hwork : WorkersReturn env s es) :
    ∃ v, run (serverNext env) s es = some v ∧ Kept s.state es v := by
  -- from the right: the counts of `es` are those of the state the last event meets
  induction es using List.reverseRecOn with
  | nil =>
    refine ⟨s, rfl, hs, fun _ _ => rfl, fun _ hne => absurd rfl hne, fun hone => absurd ?_ hone⟩
    intro pre hpre
    rw [List.prefix_nil.mp hpre]
    exact Nat.zero_le _
  | append_singleton es e ih =>
    obtain ⟨hworkEs, hworkE⟩ := allSteps_snoc hwork
    have hpre : ∀ pre, pre <+: es → stops pre ≤ starts pre := fun pre hp =>
      hcov pre (hp.trans (List.prefix_append ..))
    have hlast := hcov (es ++ [e]) List.prefix_rfl
    have hroleE := hrole e (List.mem_append_right _ (List.mem_singleton_self e))
    obtain ⟨v, hv, hkept⟩ := ih hpre (fun d hd => hrole d (List.mem_append_left _ hd)) hworkEs
    obtain ⟨w, hw⟩ : ∃ w, serverNext env v e = some w := by
      cases e with
      | connection rand ctx =>
        have hok : ∃ r, handleConnection v rand ctx = .ok r := by
          refine handleConnection_active_ok rand hkept.idle.mode ?_
          intro htype
          refine hkept.prev_allowed hs.state ?_
          rw [starts_snoc, stops_snoc] at hlast
          simp only [isDelivery, htype, decide_true, if_true] at hlast
          simp at hlast
          omega
        obtain ⟨r, hr⟩ := hok
        exact ⟨r.1, by simp only [serverNext, serverStep, hr]⟩
      | reject ctx msg => exact Option.isSome_iff_exists.mp (hworkE v hv rfl)
      | normal => exact Option.isSome_iff_exists.mp (hworkE v hv rfl)
      | control => exact Option.isSome_iff_exists.mp (hworkE v hv rfl)
      | chkptThread => exact Option.isSome_iff_exists.mp (hworkE v hv rfl)
    exact ⟨w, run_snoc_eq_some.mpr ⟨v, hv, hw⟩,
      hkept.step hlast (hpre es List.prefix_rfl) hroleE hw⟩

/-- QUIESCE while a start is open, and the role again after the last stop. -/
def RestoresRole (env : Env) (s : Server) (es : List ServerEvent) : Prop :=
  ∃ u, run (serverNext env) s es = some u ∧ u.state = s.state ∧
    ∀ pre, pre <+: es → stops pre < starts pre →
      ∃ v, run (serverNext env) s pre = some v ∧ v.state = .quiesce

/-- The commands restore the role exactly when no start is delivered while an
earlier one is open. -/
theorem quiesce_restores_role_iff (env : Env) (s : Server) (es : List ServerEvent)
    (hmode : s.repMode = .activeRep) (hstate : s.state = .activeRunning ∨ s.state = .activeRecover)
    (hctrl : ∀ c ∈ s.ctrl, c.req.msgType ≠ .msgRepMgr)
    (hrole : ∀ e ∈ es, isDelivery .msgRepMgr e = false) (hbal : Balanced es)
    (hwork : WorkersReturn env s es) : RestoresRole env s es ↔ OneOpen es := by
  have hidle : ActiveIdle s := by
    refine ⟨hmode, ?_, hctrl⟩
    rcases hstate with h | h <;> rw [h] <;> rfl
  obtain ⟨u, hu, hkept⟩ := run_kept hidle hbal.covered hrole hwork
  constructor
  · rintro ⟨u', hu', hback, -⟩
    by_contra hone
    rw [hu] at hu'
    cases hu'
    rw [(hkept.lost hone).1] at hback
    rcases hstate with h | h <;> rw [h] at hback <;> cases hback
  · intro hone
    refine ⟨u, hu, hkept.closed hone hbal.closed, ?_⟩
    rintro pre ⟨rest, rfl⟩ hopen
    obtain ⟨v, hv, hpre⟩ := run_kept hidle
      (fun p hp => hbal.covered p (hp.trans (List.prefix_append ..)))
      (fun e he => hrole e (List.mem_append_left _ he)) (allSteps_of_append hwork)
    have honePre : OneOpen pre := fun p hp => hone p (hp.trans (List.prefix_append ..))
    exact ⟨v, hv, (hpre.opened honePre (by omega)).1⟩

instance (es : List ServerEvent) : Decidable (Balanced es) :=
  decidable_of_iff ((∀ pre ∈ es.inits, stops pre ≤ starts pre) ∧ starts es = stops es)
    ⟨fun h => ⟨fun pre hpre => h.1 pre ((List.mem_inits pre es).mpr hpre), h.2⟩,
      fun h => ⟨fun pre hpre => h.covered pre ((List.mem_inits pre es).mp hpre), h.closed⟩⟩

instance (es : List ServerEvent) : Decidable (OneOpen es) :=
  decidable_of_iff (∀ pre ∈ es.inits, starts pre ≤ stops pre + 1)
    ⟨fun h pre hpre => h pre ((List.mem_inits pre es).mpr hpre),
      fun h pre hpre => h pre ((List.mem_inits pre es).mp hpre)⟩

def runningServer : Server := { bootServer 1 with repMode := .activeRep, state := .activeRunning }

def quiesceMsg (type : MsgType) : ServerEvent := .connection 0 { fd := 4, req := { msgType := type } }

def recoveriesInTurn : List ServerEvent :=
  [quiesceMsg .msgQuiesceStart, .control, quiesceMsg .msgQuiesceStop, .normal,
    quiesceMsg .msgQuiesceStart, .normal, quiesceMsg .msgQuiesceStop]

theorem quiesce_restores_role_iff_recoveriesInTurn :
    Balanced recoveriesInTurn ∧ RestoresRole (zeroEnv fun _ => none) runningServer recoveriesInTurn :=
  ⟨by decide +kernel,
    (quiesce_restores_role_iff _ runningServer recoveriesInTurn rfl (.inl rfl) (by decide) (by decide)
      (by decide +kernel) (by decide +kernel)).mpr (by decide +kernel)⟩

def overlappingRecoveries : List ServerEvent :=
  [quiesceMsg .msgQuiesceStart, quiesceMsg .msgQuiesceStart, quiesceMsg .msgQuiesceStop,
    quiesceMsg .msgQuiesceStop]

theorem quiesce_loses_role :
    Balanced overlappingRecoveries ∧
      WorkersReturn (zeroEnv fun _ => none) runningServer overlappingRecoveries ∧
      ¬RestoresRole (zeroEnv fun _ => none) runningServer overlappingRecoveries := by
  refine ⟨by decide +kernel, by decide +kernel, ?_⟩
  have hend : (run (serverNext (zeroEnv fun _ => none)) runningServer overlappingRecoveries).any
      (fun u => u.state = .quiesce) = true := by decide +kernel
  obtain ⟨u, hu, hstate⟩ := (Option.any_eq_true _ _).mp hend
  rintro ⟨u', hu', hback, -⟩
  rw [hu] at hu'
  cases hu'
  rw [of_decide_eq_true hstate] at hback
  cases hback

end ToDoList
