import ToDoList.ChkptThread

/-!
# Stopping the checkpoint thread (chkpt.c)

`stop_chk_pt_thread` raises the signal and waits until the thread takes it
back. The thread looks at the signal in the rounds of its inner loop only, and
with a frequency that is not positive that loop has no rounds.
-/

namespace ToDoList
open StepRun

/-- A handler waits in `stop_chk_pt_thread` for the one thread there is, which
may stand anywhere. -/
structure Stopping (h : Handshake) : Prop where
  signalled : Signalled h
  waits : ∃ next, h.handler = .spin next

/-- However the turns of the handler fall between them, the signal is taken back
within some number of steps of the thread. -/
def WaitEnds (h : Handshake) : Prop :=
  ∃ n, ∀ es u, run handshakeStep h es = some u → n ≤ es.count (.thread 0) →
    ¬Always handshakeStep (fun t => t.signalExit = true) h es

/-- The thread comes to its end by steps of its own. -/
def ThreadReturns (h : Handshake) : Prop :=
  ∃ n u, run handshakeStep h (List.replicate n (.thread 0)) = some u ∧ u.threads = []

/-! ### One step -/

/-- The steps of a thread up to the one that takes the signal back. -/
def pcLeft (freq : ℤ) : ChkptPc → ℕ
  | .wait n => if n < freq then 3 else 5
  | .test _ => 2
  | .send => 4
  | .ack => 1
  | .clear => 0

def stepsLeft (h : Handshake) : ℕ := (h.threads.map (pcLeft h.freq)).sum

theorem Stopping.spins {h t : Handshake} (hs : Stopping h) (hstep : handlerStep h = some t) : t = h := by
  obtain ⟨next, hnext⟩ := hs.waits
  rw [handlerStep, hnext] at hstep
  dsimp only at hstep
  rw [if_pos hs.signalled.signal] at hstep
  cases hstep
  cases h
  cases hnext
  rfl

/-- While a handler waits nothing happens but steps of the thread. -/
theorem stopping_cases {h t : Handshake} {e : HandshakeEvent} (hs : Stopping h)
    (hstep : handshakeStep h e = some t) :
    (e = .handler ∧ t = h) ∨ (e = .thread 0 ∧ threadStep h 0 = some t) := by
  obtain ⟨next, hnext⟩ := hs.waits
  obtain ⟨pc, hpc, -⟩ := hs.signalled.thread
  cases e with
  | command freq state => simp [handshakeStep, hnext] at hstep
  | promote => simp [handshakeStep, hnext] at hstep
  | handler => exact .inl ⟨rfl, hs.spins hstep⟩
  | thread i =>
    cases i with
    | zero => exact .inr ⟨rfl, hstep⟩
    | succ i => simp [handshakeStep, threadStep, hpc] at hstep

/-- A step of the thread takes the signal back or brings it nearer to that. -/
theorem thread_step_nearer {h t : Handshake} (hs : Stopping h) (hfreq : 0 < h.freq)
    (hstep : threadStep h 0 = some t) :
    (h.threads = [.ack] ∧ t.signalExit = false) ∨
      (Stopping t ∧ t.freq = h.freq ∧ stepsLeft t < stepsLeft h) := by
  obtain ⟨⟨hsig, hrun, pc, hpc, hin⟩, hwaits⟩ := hs
  unfold threadStep at hstep
  unfold stepsLeft
  rw [hpc] at hstep ⊢
  cases pc with
  | wait n =>
    cases hstep
    refine .inr ⟨⟨⟨hsig, hrun, _, rfl, ?_⟩, hwaits⟩, rfl, ?_⟩
    · by_cases hn : n < h.freq <;> simp [hn, inLoop]
    · by_cases hn : n < h.freq <;> simp [hn, pcLeft]
  | test n =>
    dsimp only [List.getElem?_cons_zero] at hstep
    rw [if_pos hsig] at hstep
    cases hstep
    refine .inr ⟨⟨⟨hsig, hrun, _, rfl, .inr rfl⟩, hwaits⟩, rfl, ?_⟩
    simp [pcLeft]
  | send =>
    cases hstep
    refine .inr ⟨⟨⟨hsig, hrun, _, rfl, .inl rfl⟩, hwaits⟩, rfl, ?_⟩
    simp [pcLeft, hfreq]
  | ack =>
    cases hstep
    exact .inl ⟨rfl, rfl⟩
  | clear => simp [inLoop] at hin

/-- With a frequency that is not positive a thread that waits or sends never
reaches the test. -/
theorem thread_step_never {h t : Handshake} (hfreq : h.freq ≤ 0) (hsig : h.signalExit = true)
    (hpc : h.threads = [.wait 0] ∨ h.threads = [.send]) (hstep : threadStep h 0 = some t) :
    t.freq = h.freq ∧ t.signalExit = true ∧ (t.threads = [.wait 0] ∨ t.threads = [.send]) := by
  unfold threadStep at hstep
  rcases hpc with hpc | hpc
  · rw [hpc] at hstep
    cases hstep
    refine ⟨rfl, hsig, .inr ?_⟩
    rw [if_neg (not_lt.mpr hfreq)]
    rfl
  · rw [hpc] at hstep
    cases hstep
    exact ⟨rfl, hsig, .inl rfl⟩

/-! ### Whole runs -/

theorem stopping_runs_out {h u : Handshake} {es : List HandshakeEvent} (hs : Stopping h)
    (hfreq : 0 < h.freq) (hrun : run handshakeStep h es = some u)
    (hup : Always handshakeStep (fun t => t.signalExit = true) h es) :
    es.count (.thread 0) < stepsLeft h + 1 := by
  induction es generalizing h with
  | nil => simp
  | cons e es ih =>
    obtain ⟨t, hstep, hrest⟩ := run_cons_eq_some.mp hrun
    obtain ⟨-, hupRest⟩ := always_cons.mp hup
    have hupt := hupRest t hstep
    rcases stopping_cases hs hstep with ⟨rfl, rfl⟩ | ⟨rfl, hthread⟩
    · rw [List.count_cons_of_ne (by simp)]
      exact ih hs hfreq hrest hupt
    · rw [List.count_cons_self]
      rcases thread_step_nearer hs hfreq hthread with ⟨-, hdown⟩ | ⟨hst, hft, hlt⟩
      · have hsig : t.signalExit = true := hupt 0 t rfl
        rw [hdown] at hsig
        cases hsig
      · have hcount := ih hst (hft ▸ hfreq) hrest hupt
        omega

theorem waitEnds_of_pos {h : Handshake} (hs : Stopping h) (hfreq : 0 < h.freq) : WaitEnds h := by
  refine ⟨stepsLeft h + 1, fun es u hrun hcount hup => ?_⟩
  have hfew := stopping_runs_out hs hfreq hrun hup
  omega

theorem ThreadReturns.of_step {h t : Handshake} (hstep : threadStep h 0 = some t) (ht : ThreadReturns t) :
    ThreadReturns h := by
  obtain ⟨n, u, hrun, hgone⟩ := ht
  exact ⟨n + 1, u, run_cons_eq_some.mpr ⟨t, hstep, hrun⟩, hgone⟩

theorem threadStep_isSome {h : Handshake} {pc : ChkptPc} (hpc : h.threads = [pc]) :
    ∃ t, threadStep h 0 = some t := by
  unfold threadStep
  rw [hpc]
  cases pc <;> exact ⟨_, rfl⟩

theorem returns_of_ack {h : Handshake} (hpc : h.threads = [.ack]) : ThreadReturns h := by
  refine ⟨2, { h with signalExit := false, isRunning := false, threads := [] }, ?_, rfl⟩
  simp [List.replicate, run, handshakeStep, threadStep, hpc]

theorem returns_of_pos {h : Handshake} (hs : Stopping h) (hfreq : 0 < h.freq) : ThreadReturns h := by
  obtain ⟨pc, hpc, -⟩ := hs.signalled.thread
  obtain ⟨t, ht⟩ := threadStep_isSome hpc
  rcases thread_step_nearer hs hfreq ht with ⟨hack, -⟩ | ⟨hst, hft, hlt⟩
  · exact returns_of_ack hack
  · exact (returns_of_pos hst (hft ▸ hfreq)).of_step ht
termination_by stepsLeft h

theorem never_back {h : Handshake} (hfreq : h.freq ≤ 0) (hsig : h.signalExit = true)
    (hpc : h.threads = [.wait 0] ∨ h.threads = [.send]) (n : ℕ) :
    ∃ u, run handshakeStep h (List.replicate n (.thread 0)) = some u ∧ u.threads ≠ [] ∧
      Always handshakeStep (fun t => t.signalExit = true) h (List.replicate n (.thread 0)) := by
  induction n generalizing h with
  | zero =>
    refine ⟨h, rfl, ?_, always_nil.mpr hsig⟩
    rcases hpc with hpc | hpc <;> simp [hpc]
  | succ n ih =>
    obtain ⟨t, ht⟩ : ∃ t, threadStep h 0 = some t := by
      rcases hpc with hpc | hpc
      · exact threadStep_isSome hpc
      · exact threadStep_isSome hpc
    obtain ⟨hft, hst, hpt⟩ := thread_step_never hfreq hsig hpc ht
    obtain ⟨u, hrun, hne, hup⟩ := ih (hft ▸ hfreq) hst hpt
    refine ⟨u, run_cons_eq_some.mpr ⟨t, ht, hrun⟩, hne, always_cons.mpr ⟨hsig, ?_⟩⟩
    intro v hv
    cases ht.symm.trans hv
    exact hup

theorem never_stops {h : Handshake} (hfreq : h.freq ≤ 0) (hsig : h.signalExit = true)
    (hpc : h.threads = [.wait 0] ∨ h.threads = [.send]) : ¬WaitEnds h ∧ ¬ThreadReturns h := by
  constructor
  · rintro ⟨n, hall⟩
    obtain ⟨u, hrun, -, hup⟩ := never_back hfreq hsig hpc n
    exact hall _ u hrun (by rw [List.count_replicate_self]) hup
  · rintro ⟨n, u, hrun, hgone⟩
    obtain ⟨v, hrun', hne, -⟩ := never_back hfreq hsig hpc n
    rw [hrun] at hrun'
    cases hrun'
    exact hne hgone

/-- A thread that is about to look at the frequency, and a handler that waits for it. -/
def waitingStop (freq : ℤ) : Handshake :=
  { signalExit := true, isRunning := true, freq := freq, threads := [.wait 0],
    handler := .spin (.store .passiveBackup) }

theorem stopping_waitingStop (freq : ℤ) : Stopping (waitingStop freq) :=
  ⟨⟨rfl, rfl, .wait 0, rfl, .inl rfl⟩, _, rfl⟩

/-- A thread can be stopped wherever it stands just when the frequency is
positive. -/
theorem stoppable_iff_positive (freq : ℤ) :
    (∀ h, Stopping h → h.freq = freq → ThreadReturns h ∧ WaitEnds h) ↔ 0 < freq := by
  constructor
  · intro hall
    by_contra hfreq
    obtain ⟨-, hends⟩ := hall (waitingStop freq) (stopping_waitingStop freq) rfl
    exact (never_stops (not_lt.mp hfreq) rfl (.inl rfl)).1 hends
  · rintro hfreq h hs rfl
    exact ⟨returns_of_pos hs hfreq, waitEnds_of_pos hs hfreq⟩

/-- A role command with frequency 0 starts the thread; the next command, which
would stop it, waits for ever. -/
def zeroFreqRun : List HandshakeEvent :=
  [.command 0 .passivePrimary, .handler, .handler, .handler, .handler, .handler, .handler,
    .command 10 .passiveBackup, .handler, .handler]

theorem zero_freq_never_stops :
    ∃ h, run handshakeStep {} zeroFreqRun = some h ∧ Stopping h ∧ h.freq = 0 ∧
      ¬WaitEnds h ∧ ¬ThreadReturns h := by
  refine ⟨⟨true, true, 0, .passivePrimary, [.wait 0], .spin (.configure 10 .passiveBackup)⟩, rfl, ?_, rfl, ?_⟩
  · exact ⟨⟨rfl, rfl, .wait 0, rfl, .inl rfl⟩, _, rfl⟩
  · exact never_stops le_rfl rfl (.inl rfl)

end ToDoList
