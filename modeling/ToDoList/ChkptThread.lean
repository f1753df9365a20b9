import ToDoList.Backlog

/-!
# The two flags of the checkpoint thread (chkpt.c)

`signal_exit_checkpt_thread` asks the thread to leave and
`is_chkpt_thrd_running` says whether there is one. The thread answers with two
stores, and whoever stops it waits for the first of them only. Handlers run one
at a time; their reads and writes and those of the threads interleave freely.
-/

namespace ToDoList
open CLib StepRun

/-- Where a thread in `send_checkpoint` stands. The rest of the loop body does
not look at the flags. -/
inductive ChkptPc where
  | wait (sleepCount : ℤ) -- while (sleep_count < checkpoint_freq_g)
  | test (sleepCount : ℤ) -- if (signal_exit_checkpt_thread == 1)
  | send
  | ack -- signal_exit_checkpt_thread = 0
  | clear -- is_chkpt_thrd_running = 0
deriving Repr, DecidableEq

/-- Where a handler stands in `handle_rep_msg` or `set_state`. A call of
`kill_chkpt_thrd_if_running` carries what comes behind it. -/
inductive HandlerPc where
  | idle
  | killTest (next : HandlerPc)
  | signal (next : HandlerPc)
  | spin (next : HandlerPc) -- while (signal_exit_checkpt_thread == 1)
  | configure (freq : ℤ) (state : ServerStates) -- set_checkpoint_freq
  | startTest
  | create
  | setRunning
  | store (state : ServerStates)
deriving Repr, DecidableEq

structure Handshake where
  signalExit : Bool := false
  isRunning : Bool := false
  freq : ℤ := 10
  state : ServerStates := .unknownState
  threads : List ChkptPc := []
  handler : HandlerPc := .idle

inductive HandshakeEvent where
  | command (freq : ℤ) (state : ServerStates)
  | promote
  | handler
  | thread (i : ℕ)
deriving Repr, DecidableEq

/-- `set_state` in passive mode. -/
def enterState (state : ServerStates) : HandlerPc :=
  if state = .passivePrimary then .startTest
  else if state = .passiveBackup then .killTest (.store state)
  else .store state

def handlerStep (h : Handshake) : Option Handshake :=
  match h.handler with
  | .idle => none
  | .killTest next => some { h with handler := if h.isRunning then .signal next else next }
  | .signal next => some { h with signalExit := true, handler := .spin next }
  | .spin next => some { h with handler := if h.signalExit then .spin next else next }
  | .configure freq state => some { h with freq := freq, handler := enterState state }
  | .startTest => some { h with handler := if h.isRunning then .store .passivePrimary else .create }
  | .create => some { h with threads := h.threads ++ [.wait 0], handler := .setRunning }
  | .setRunning => some { h with isRunning := true, handler := .store .passivePrimary }
  | .store state => some { h with state := state, handler := .idle }

def threadStep (h : Handshake) (i : ℕ) : Option Handshake :=
  match h.threads[i]? with
  | none => none
  | some (.wait n) => some { h with threads := h.threads.set i (if n < h.freq then .test n else .send) }
  | some (.test n) => some { h with threads := h.threads.set i (if h.signalExit then .ack else .wait (n + 1)) }
  | some .send => some { h with threads := h.threads.set i (.wait 0) }
  | some .ack => some { h with signalExit := false, threads := h.threads.set i .clear }
  | some .clear => some { h with isRunning := false, threads := h.threads.eraseIdx i }

/-- A role command is taken by `handle_rep_msg`; the NORMAL worker promotes a
PASSIVE_PREPRIMARY. Both wait for the handler in progress. -/
def handshakeStep (h : Handshake) : HandshakeEvent → Option Handshake
  | .command freq state =>
    if h.handler = .idle ∧ stateAllowed .passiveRep state = true then
      some { h with handler := .killTest (.configure freq state) }
    else none
  | .promote =>
    if h.handler = .idle ∧ h.state = .passivePreprimary then some { h with handler := .startTest }
    else none
  | .handler => handlerStep h
  | .thread i => threadStep h i

def inLoop : ChkptPc → Bool
  | .wait _ | .test _ | .send => true
  | .ack | .clear => false

def liveThreads (h : Handshake) : ℕ := h.threads.countP inLoop

/-! ### Phases of the handshake -/

structure Live (h : Handshake) : Prop where
  signal : h.signalExit = false
  running : h.isRunning = true
  thread : ∃ pc, h.threads = [pc] ∧ inLoop pc = true

/-- Created, but not yet noted. -/
structure Created (h : Handshake) : Prop where
  signal : h.signalExit = false
  running : h.isRunning = false
  thread : ∃ pc, h.threads = [pc] ∧ inLoop pc = true

structure Signalled (h : Handshake) : Prop where
  signal : h.signalExit = true
  running : h.isRunning = true
  thread : ∃ pc, h.threads = [pc] ∧ (inLoop pc = true ∨ pc = .ack)

structure Absent (h : Handshake) : Prop where
  signal : h.signalExit = false
  running : h.isRunning = false
  thread : h.threads = []

structure Clearing (h : Handshake) : Prop where
  signal : h.signalExit = false
  running : h.isRunning = true
  thread : h.threads = [.clear]

def Gone (h : Handshake) : Prop := Absent h ∨ Clearing h

theorem live_liveThreads {h : Handshake} (hl : Live h) : liveThreads h = 1 := by
  obtain ⟨pc, hpc, hin⟩ := hl.thread
  simp [liveThreads, hpc, hin]

theorem gone_liveThreads {h : Handshake} (hg : Gone h) : liveThreads h = 0 := by
  rcases hg with hg | hg
  · simp [liveThreads, hg.thread]
  · simp [liveThreads, hg.thread, inLoop]

/-- What a kill leaves behind: no thread to start or a role without one. -/
def afterKill : HandlerPc → Prop
  | .configure _ state => stateAllowed .passiveRep state = true
  | .store state => state ≠ .passivePrimary
  | _ => False

/-- The phase in which a handler may stand where it stands. -/
def PhaseOf (h : Handshake) : HandlerPc → Prop
  | .idle => (h.state = .passivePrimary → Live h) ∧ (h.state ≠ .passivePrimary → Gone h)
  | .killTest next => (Live h ∨ Gone h) ∧ afterKill next
  | .signal next => Live h ∧ afterKill next
  | .spin next => (Signalled h ∨ Gone h) ∧ afterKill next
  | .configure _ state => Gone h ∧ stateAllowed .passiveRep state = true
  | .startTest => Gone h
  | .create => Absent h
  | .setRunning => Created h
  | .store state => (state = .passivePrimary → Live h) ∧ (state ≠ .passivePrimary → Gone h)

theorem phaseOf_afterKill {h : Handshake} {next : HandlerPc} (hg : Gone h) (hnext : afterKill next) :
    PhaseOf h next := by
  cases next with
  | configure freq state => exact ⟨hg, hnext⟩
  | store state => exact ⟨fun hp => absurd hp hnext, fun _ => hg⟩
  | idle | killTest next | signal next | spin next | startTest | create | setRunning => cases hnext

theorem phaseOf_enterState {h : Handshake} {state : ServerStates} (hg : Gone h) :
    PhaseOf h (enterState state) := by
  unfold enterState
  split
  · exact hg
  · rename_i hp
    split
    · exact ⟨.inr hg, hp⟩
    · exact ⟨fun hs => absurd hs hp, fun _ => hg⟩

/-! ### Steps -/

theorem live_frame {h h' : Handshake} (hl : Live h) (hsig : h'.signalExit = h.signalExit)
    (hrun : h'.isRunning = h.isRunning) (hthr : h'.threads = h.threads) : Live h' :=
  ⟨hsig.trans hl.signal, hrun.trans hl.running, hthr ▸ hl.thread⟩

theorem gone_frame {h h' : Handshake} (hg : Gone h) (hsig : h'.signalExit = h.signalExit)
    (hrun : h'.isRunning = h.isRunning) (hthr : h'.threads = h.threads) : Gone h' := by
  rcases hg with hg | hg
  · exact .inl ⟨hsig.trans hg.signal, hrun.trans hg.running, hthr.trans hg.thread⟩
  · exact .inr ⟨hsig.trans hg.signal, hrun.trans hg.running, hthr.trans hg.thread⟩

def isTest : HandlerPc → Bool
  | .killTest _ | .startTest => true
  | _ => false

/-- No handler reads `is_chkpt_thrd_running` while a thread is between its two
answering stores. -/
def TestsClear (h : Handshake) : HandshakeEvent → Prop
  | .handler => isTest h.handler = true → ChkptPc.clear ∉ h.threads
  | _ => True

theorem absent_of_clear {h : Handshake} (hg : Gone h) (hclear : ChkptPc.clear ∉ h.threads) : Absent h := by
  rcases hg with hg | hg
  · exact hg
  · rw [hg.thread] at hclear
    exact absurd (List.mem_singleton_self _) hclear

theorem handlerStep_phase {h h' : Handshake} (hph : PhaseOf h h.handler)
    (hclear : TestsClear h .handler) (hstep : handlerStep h = some h') : PhaseOf h' h'.handler := by
  unfold handlerStep at hstep
  unfold TestsClear at hclear
  cases hpc : h.handler with
  | idle =>
    rw [hpc] at hstep
    cases hstep
  | killTest next =>
    rw [hpc] at hstep hph hclear
    dsimp only at hstep
    obtain ⟨hlive | hgone, hnext⟩ := hph
    · rw [if_pos hlive.running] at hstep
      cases hstep
      exact ⟨live_frame hlive rfl rfl rfl, hnext⟩
    · have habsent := absent_of_clear hgone (hclear rfl)
      rw [if_neg (by simp [habsent.running])] at hstep
      cases hstep
      exact phaseOf_afterKill (gone_frame hgone rfl rfl rfl) hnext
  | signal next =>
    rw [hpc] at hstep hph
    cases hstep
    obtain ⟨hlive, hnext⟩ := hph
    obtain ⟨pc, hthr, hin⟩ := hlive.thread
    exact ⟨.inl ⟨rfl, hlive.running, pc, hthr, .inl hin⟩, hnext⟩
  | spin next =>
    rw [hpc] at hstep hph
    dsimp only at hstep
    obtain ⟨hsig | hgone, hnext⟩ := hph
    · rw [if_pos hsig.signal] at hstep
      cases hstep
      exact ⟨.inl ⟨hsig.signal, hsig.running, hsig.thread⟩, hnext⟩
    · have hdown : h.signalExit = false := by
        rcases hgone with hg | hg <;> exact hg.signal
      rw [if_neg (by simp [hdown])] at hstep
      cases hstep
      exact phaseOf_afterKill (gone_frame hgone rfl rfl rfl) hnext
  | configure freq state =>
    rw [hpc] at hstep hph
    cases hstep
    exact phaseOf_enterState (gone_frame hph.1 rfl rfl rfl)
  | startTest =>
    rw [hpc] at hstep hph hclear
    have habsent := absent_of_clear hph (hclear rfl)
    dsimp only at hstep
    rw [if_neg (by simp [habsent.running])] at hstep
    cases hstep
    exact ⟨habsent.signal, habsent.running, habsent.thread⟩
  | create =>
    rw [hpc] at hstep hph
    cases hstep
    have habsent : Absent h := hph
    refine ⟨habsent.signal, habsent.running, .wait 0, ?_, rfl⟩
    rw [habsent.thread]
    rfl
  | setRunning =>
    rw [hpc] at hstep hph
    cases hstep
    have hcreated : Created h := hph
    exact ⟨fun _ => ⟨hcreated.signal, rfl, hcreated.thread⟩, fun hne => absurd rfl hne⟩
  | store state =>
    rw [hpc] at hstep hph
    cases hstep
    exact ⟨fun hp => live_frame (hph.1 hp) rfl rfl rfl, fun hp => gone_frame (hph.2 hp) rfl rfl rfl⟩

def soleStep (h : Handshake) : ChkptPc → Handshake
  | .wait n => { h with threads := [if n < h.freq then .test n else .send] }
  | .test n => { h with threads := [if h.signalExit then .ack else .wait (n + 1)] }
  | .send => { h with threads := [.wait 0] }
  | .ack => { h with signalExit := false, threads := [.clear] }
  | .clear => { h with isRunning := false, threads := [] }

theorem threadStep_single {h h' : Handshake} {pc : ChkptPc} {i : ℕ} (hthr : h.threads = [pc])
    (hstep : threadStep h i = some h') : h' = soleStep h pc := by
  unfold threadStep at hstep
  rw [hthr] at hstep
  cases i with
  | zero =>
    cases pc with
    | wait n | test n | send | ack | clear =>
      cases hstep
      rfl
  | succ i => cases hstep

/-- A thread that is not asked to leave stays in its loop. -/
theorem threadStep_stays {h h' : Handshake} {pc : ChkptPc} {i : ℕ} (hsig : h.signalExit = false)
    (hthr : h.threads = [pc]) (hin : inLoop pc = true) (hstep : threadStep h i = some h') :
    ∃ pc', h' = { h with threads := [pc'] } ∧ inLoop pc' = true := by
  obtain rfl := threadStep_single hthr hstep
  cases pc with
  | wait n =>
    refine ⟨_, rfl, ?_⟩
    split <;> rfl
  | test n =>
    refine ⟨_, rfl, ?_⟩
    simp [hsig, inLoop]
  | send => exact ⟨_, rfl, rfl⟩
  | ack => cases hin
  | clear => cases hin

theorem threadStep_live {h h' : Handshake} {i : ℕ} (hl : Live h) (hstep : threadStep h i = some h') :
    Live h' := by
  obtain ⟨pc, hthr, hin⟩ := hl.thread
  obtain ⟨pc', rfl, hin'⟩ := threadStep_stays hl.signal hthr hin hstep
  exact ⟨hl.signal, hl.running, pc', rfl, hin'⟩

theorem threadStep_gone {h h' : Handshake} {i : ℕ} (hg : Gone h) (hstep : threadStep h i = some h') :
    Gone h' := by
  rcases hg with hg | hg
  · unfold threadStep at hstep
    rw [hg.thread] at hstep
    cases hstep
  · obtain rfl := threadStep_single hg.thread hstep
    exact .inl ⟨hg.signal, rfl, rfl⟩

theorem threadStep_signalled {h h' : Handshake} {i : ℕ} (hs : Signalled h)
    (hstep : threadStep h i = some h') : Signalled h' ∨ Gone h' := by
  obtain ⟨pc, hthr, hpc⟩ := hs.thread
  obtain rfl := threadStep_single hthr hstep
  cases pc with
  | wait n =>
    refine .inl ⟨hs.signal, hs.running, _, rfl, .inl ?_⟩
    split <;> rfl
  | test n => exact .inl ⟨hs.signal, hs.running, _, rfl, .inr (by simp [hs.signal])⟩
  | send => exact .inl ⟨hs.signal, hs.running, _, rfl, .inl rfl⟩
  | ack => exact .inr (.inr ⟨rfl, hs.running, rfl⟩)
  | clear => simp [inLoop] at hpc

theorem threadStep_handler {h h' : Handshake} {i : ℕ} (hstep : threadStep h i = some h') :
    h'.handler = h.handler ∧ h'.state = h.state := by
  unfold threadStep at hstep
  split at hstep
  · cases hstep
  all_goals
    cases hstep
    exact ⟨rfl, rfl⟩

theorem threadStep_phase {h h' : Handshake} {i : ℕ} (hph : PhaseOf h h.handler)
    (hstep : threadStep h i = some h') : PhaseOf h' h'.handler := by
  obtain ⟨hhandler, hstate⟩ := threadStep_handler hstep
  rw [hhandler]
  cases hpc : h.handler with
  | idle =>
    rw [hpc] at hph
    rw [PhaseOf, hstate]
    exact ⟨fun hp => threadStep_live (hph.1 hp) hstep, fun hp => threadStep_gone (hph.2 hp) hstep⟩
  | killTest next =>
    rw [hpc] at hph
    obtain ⟨hlive | hgone, hnext⟩ := hph
    · exact ⟨.inl (threadStep_live hlive hstep), hnext⟩
    · exact ⟨.inr (threadStep_gone hgone hstep), hnext⟩
  | signal next =>
    rw [hpc] at hph
    exact ⟨threadStep_live hph.1 hstep, hph.2⟩
  | spin next =>
    rw [hpc] at hph
    obtain ⟨hsig | hgone, hnext⟩ := hph
    · exact ⟨threadStep_signalled hsig hstep, hnext⟩
    · exact ⟨.inr (threadStep_gone hgone hstep), hnext⟩
  | configure freq state =>
    rw [hpc] at hph
    exact ⟨threadStep_gone hph.1 hstep, hph.2⟩
  | startTest =>
    rw [hpc] at hph
    exact threadStep_gone hph hstep
  | create =>
    rw [hpc] at hph
    have habsent : Absent h := hph
    unfold threadStep at hstep
    rw [habsent.thread] at hstep
    cases hstep
  | setRunning =>
    rw [hpc] at hph
    have hcreated : Created h := hph
    obtain ⟨pc, hthr, hin⟩ := hcreated.thread
    obtain ⟨pc', rfl, hin'⟩ := threadStep_stays hcreated.signal hthr hin hstep
    exact ⟨hcreated.signal, hcreated.running, pc', rfl, hin'⟩
  | store state =>
    rw [hpc] at hph
    exact ⟨fun hp => threadStep_live (hph.1 hp) hstep, fun hp => threadStep_gone (hph.2 hp) hstep⟩

theorem handshakeStep_phase {h h' : Handshake} {e : HandshakeEvent} (hph : PhaseOf h h.handler)
    (hclear : TestsClear h e) (hstep : handshakeStep h e = some h') : PhaseOf h' h'.handler := by
  cases e with
  | command freq state =>
    rw [handshakeStep] at hstep
    split at hstep
    · rename_i hidle
      cases hstep
      rw [hidle.1] at hph
      refine ⟨?_, hidle.2⟩
      by_cases hp : h.state = .passivePrimary
      · exact .inl (live_frame (hph.1 hp) rfl rfl rfl)
      · exact .inr (gone_frame (hph.2 hp) rfl rfl rfl)
    · cases hstep
  | promote =>
    rw [handshakeStep] at hstep
    split at hstep
    · rename_i hidle
      cases hstep
      rw [hidle.1] at hph
      exact gone_frame (hph.2 (by simp [hidle.2])) rfl rfl rfl
    · cases hstep
  | handler => exact handlerStep_phase hph hclear hstep
  | thread i => exact threadStep_phase hph hstep

/-! ### Runs -/

theorem run_phase {es : List HandshakeEvent} {h : Handshake}
    (hclear : AllSteps handshakeStep TestsClear {} es) (hrun : run handshakeStep {} es = some h) :
    PhaseOf h h.handler := by
  have hstart : PhaseOf {} ({} : Handshake).handler := by
    refine ⟨fun hp => ?_, fun _ => .inl ⟨rfl, rfl, rfl⟩⟩
    cases hp
  exact run_invariant (I := fun h => PhaseOf h h.handler)
    (fun _ _ _ hp hc hs => handshakeStep_phase hp hc hs) hstart hclear hrun

/-- One thread in its loop while primary and none otherwise, whenever no
handler is in progress, in a run in which no handler looks at the flag between
the two stores of a leaving thread. -/
theorem one_checkpoint_thread (es : List HandshakeEvent) (h : Handshake)
    (hclear : AllSteps handshakeStep TestsClear {} es) (hrun : run handshakeStep {} es = some h)
    (hidle : h.handler = .idle) :
    (h.state = .passivePrimary → liveThreads h = 1) ∧
      (h.state = .passiveBackup ∨ h.state = .passivePreprimary → liveThreads h = 0) := by
  have hph := run_phase hclear hrun
  rw [hidle] at hph
  refine ⟨fun hp => live_liveThreads (hph.1 hp), fun hs => gone_liveThreads (hph.2 ?_)⟩
  rcases hs with hs | hs <;> rw [hs] <;> simp

instance decidableTestsClear (h : Handshake) : ∀ e, Decidable (TestsClear h e)
  | .handler => inferInstanceAs (Decidable (isTest h.handler = true → ChkptPc.clear ∉ h.threads))
  | .command .. => isTrue trivial
  | .promote => isTrue trivial
  | .thread _ => isTrue trivial

def madePrimary : List HandshakeEvent :=
  [.command 2 .passivePreprimary, .handler, .handler, .handler, .promote, .handler, .handler, .handler,
    .handler, .thread 0]

def toldAgain : List HandshakeEvent :=
  madePrimary ++ [.command 2 .passivePreprimary, .handler, .handler, .thread 0, .thread 0]

theorem one_checkpoint_thread_toldAgain :
    ∃ h, run handshakeStep {} (toldAgain ++ [.thread 0, .handler, .handler, .handler, .promote, .handler,
        .handler, .handler, .handler]) = some h ∧ h.state = .passivePrimary ∧ liveThreads h = 1 := by
  have hend : (run handshakeStep {} (toldAgain ++ ([.thread 0, .handler, .handler, .handler, .promote,
      .handler, .handler, .handler, .handler] : List HandshakeEvent))).any
        (fun h => h.handler = .idle ∧ h.state = .passivePrimary) = true := by decide +kernel
  obtain ⟨h, hrun, hh⟩ := (Option.any_eq_true _ _).mp hend
  obtain ⟨hidle, hstate⟩ := of_decide_eq_true hh
  exact ⟨h, hrun, hstate, (one_checkpoint_thread _ h (by decide +kernel) hrun hidle).1 hstate⟩

/-- The promotion finds `is_chkpt_thrd_running` still set by a thread that has
left its loop. -/
theorem primary_without_thread :
    ∃ h, run handshakeStep {} (toldAgain ++ [.handler, .handler, .handler, .promote, .handler, .handler,
        .thread 0]) = some h ∧ h.handler = .idle ∧ h.state = .passivePrimary ∧ liveThreads h = 0 := by
  have hend : (run handshakeStep {} (toldAgain ++ ([.handler, .handler, .handler, .promote, .handler,
      .handler, .thread 0] : List HandshakeEvent))).any
        (fun h => h.handler = .idle ∧ h.state = .passivePrimary ∧ liveThreads h = 0) = true := by
    decide +kernel
  obtain ⟨h, hrun, hh⟩ := (Option.any_eq_true _ _).mp hend
  exact ⟨h, hrun, of_decide_eq_true hh⟩

/-! ### The handlers as one step -/

/-- The role a handler in progress ends in. -/
def goal (state : ServerStates) : HandlerPc → ServerStates
  | .idle => state
  | .killTest next | .signal next | .spin next => goal state next
  | .configure _ state' => state'
  | .startTest | .create | .setRunning => .passivePrimary
  | .store state' => state'

def roleMessage (freq : ℤ) (state : ServerStates) : ClientCtx :=
  { req := { msgType := .msgRepMgr, repMgrMsg :=
      { repMode := .passiveRep, serverState := state, checkpointFreq := freq } } }

/-- The server of Server.lean takes a whole handler when it begins. -/
def atomicStep (s : Server) : HandshakeEvent → Option Server
  | .command freq state => (handleRepMsg s (roleMessage freq state)).toOption
  | .promote => (setState s .passivePrimary).toOption
  | .handler | .thread _ => some s

def pairedStep (p : Handshake × Server) (e : HandshakeEvent) : Option (Handshake × Server) :=
  (handshakeStep p.1 e).bind fun h => (atomicStep p.2 e).map fun s => (h, s)

theorem pairedStep_eq_some {p q : Handshake × Server} {e : HandshakeEvent}
    (hstep : pairedStep p e = some q) : handshakeStep p.1 e = some q.1 ∧ atomicStep p.2 e = some q.2 := by
  obtain ⟨h, hh, hrest⟩ := Option.bind_eq_some_iff.mp hstep
  obtain ⟨s, hs, rfl⟩ := Option.map_eq_some_iff.mp hrest
  exact ⟨hh, hs⟩

structure Coarse (h : Handshake) (s : Server) : Prop where
  mode : (s.repMode = .unknownRep ∧ s.state = .unknownState) ∨ s.repMode = .passiveRep
  state : s.state = goal h.state h.handler
  thread : s.isChkptThrdRunning = decide (s.state = .passivePrimary)

theorem setState_thread {s t : Server} {state : ServerStates} (hmode : s.repMode = .passiveRep)
    (hrun : s.isChkptThrdRunning = false) (hok : setState s state = .ok t) :
    t.repMode = .passiveRep ∧ t.state = state ∧
      t.isChkptThrdRunning = decide (state = .passivePrimary) := by
  by_cases hallow : stateAllowed s.repMode state = true
  · rw [setState, if_pos hallow] at hok
    dsimp only at hok
    rw [if_pos hmode] at hok
    cases hok
    by_cases hp : state = .passivePrimary
    · rw [if_pos hp]
      exact ⟨hmode, rfl, by simp [hp, startCkhptThread]⟩
    · rw [if_neg hp]
      by_cases hb : state = .passiveBackup
      · rw [if_pos hb]
        exact ⟨hmode, rfl, by simp [hp, killChkptThrdIfRunning]⟩
      · rw [if_neg hb]
        exact ⟨hmode, rfl, by simp [hp, hrun]⟩
  · rw [setState, if_neg hallow] at hok
    cases hok

theorem handleRepMsg_role {s t : Server} {freq : ℤ} {state : ServerStates}
    (hmode : s.repMode = .unknownRep ∨ s.repMode = .passiveRep)
    (hok : handleRepMsg s (roleMessage freq state) = .ok t) :
    t.repMode = .passiveRep ∧ t.state = state ∧
      t.isChkptThrdRunning = decide (state = .passivePrimary) := by
  unfold handleRepMsg at hok
  dsimp only at hok
  rcases hmode with hm | hm
  · have hset : setMode s (roleMessage freq state).req.repMgrMsg.repMode =
        .ok { s with repMode := .passiveRep } := by simp [setMode, hm, roleMessage]
    rw [if_pos hm, hset] at hok
    refine setState_thread ?_ ?_ hok <;> rfl
  · rw [if_neg (by simp [hm])] at hok
    refine setState_thread ?_ ?_ hok
    · exact hm
    · rfl

theorem goal_enterState (state state' : ServerStates) : goal state (enterState state') = state' := by
  unfold enterState
  split
  · rename_i hp
    rw [hp]
    rfl
  · split <;> rfl

theorem handlerStep_goal {h h' : Handshake} (hstep : handlerStep h = some h') :
    goal h'.state h'.handler = goal h.state h.handler := by
  unfold handlerStep at hstep
  cases hpc : h.handler with
  | idle =>
    rw [hpc] at hstep
    cases hstep
  | killTest next | spin next | startTest =>
    rw [hpc] at hstep
    cases hstep
    dsimp only
    split <;> rfl
  | configure freq state =>
    rw [hpc] at hstep
    cases hstep
    exact goal_enterState h.state state
  | signal next | create | setRunning | store state =>
    rw [hpc] at hstep
    cases hstep
    rfl

theorem coarse_step {h h' : Handshake} {s s' : Server} {e : HandshakeEvent} (hc : Coarse h s)
    (hh : handshakeStep h e = some h') (hs : atomicStep s e = some s') : Coarse h' s' := by
  cases e with
  | command freq state =>
    rw [handshakeStep] at hh
    split at hh
    · cases hh
      obtain ⟨hmode, hstate, hrun⟩ := handleRepMsg_role (hc.mode.imp_left And.left) (mem_toOption.mp hs)
      exact ⟨.inr hmode, hstate, by rw [hrun, hstate]⟩
    · cases hh
  | promote =>
    rw [handshakeStep] at hh
    split at hh
    · rename_i hidle
      cases hh
      have hpre : s.state = .passivePreprimary := by
        rw [hc.state, hidle.1]
        exact hidle.2
      have hmode : s.repMode = .passiveRep := by
        refine hc.mode.resolve_left fun hu => ?_
        rw [hpre] at hu
        cases hu.2
      rw [atomicStep, setState_primary _ hmode] at hs
      cases hs
      exact ⟨.inr hmode, rfl, rfl⟩
    · cases hh
  | handler =>
    cases hs
    exact ⟨hc.mode, hc.state.trans (handlerStep_goal hh).symm, hc.thread⟩
  | thread i =>
    cases hs
    obtain ⟨hhandler, hstate⟩ := threadStep_handler hh
    exact ⟨hc.mode, by rw [hhandler, hstate]; exact hc.state, hc.thread⟩

/-- Taking the handlers as one step, as the model of the server does, loses
nothing under the same condition. -/
theorem handshake_refines_server {serverId : ℤ} {es : List HandshakeEvent} {h : Handshake} {s : Server}
    (hclear : AllSteps pairedStep (fun p e => TestsClear p.1 e) ({}, bootServer serverId) es)
    (hrun : run pairedStep ({}, bootServer serverId) es = some (h, s)) (hidle : h.handler = .idle) :
    s.state = h.state ∧ liveThreads h = if s.isChkptThrdRunning then 1 else 0 := by
  have hstart : PhaseOf {} ({} : Handshake).handler ∧ Coarse {} (bootServer serverId) := by
    refine ⟨⟨fun hp => ?_, fun _ => .inl ⟨rfl, rfl, rfl⟩⟩, .inl ⟨rfl, rfl⟩, rfl, rfl⟩
    cases hp
  obtain ⟨hph, hcoarse⟩ := run_invariant (I := fun p => PhaseOf p.1 p.1.handler ∧ Coarse p.1 p.2)
    (fun p e q hp hc hs => ⟨handshakeStep_phase hp.1 hc (pairedStep_eq_some hs).1,
      coarse_step hp.2 (pairedStep_eq_some hs).1 (pairedStep_eq_some hs).2⟩) hstart hclear hrun
  have hstate : s.state = h.state := by
    rw [hcoarse.state, hidle]
    rfl
  refine ⟨hstate, ?_⟩
  rw [hcoarse.thread, hstate]
  rw [hidle] at hph
  by_cases hp : h.state = .passivePrimary
  · simp [hp, live_liveThreads (hph.1 hp)]
  · simp [hp, gone_liveThreads (hph.2 hp)]

end ToDoList
