import TokenizerHost.Proofs.Run.Frames

set_option autoImplicit false

namespace TokenizerHost

open Host

variable {σ : Type}

namespace Scheduler

theorem takeReport_nil {s : Scheduler} (h : s.reports = []) : s.takeReport = (none, s) := by
  simp only [takeReport, h]

theorem takeReport_cons {s : Scheduler} {id : Int32} {rest : List Int32}
    (h : s.reports = id :: rest) : s.takeReport = (some id, { s with reports := rest }) := by
  simp only [takeReport, h]

theorem checkStartable_of_notStarted {s : Scheduler} (h : s.state = .notStarted) :
    s.checkStartable = .ok () := by
  rw [checkStartable, h]

end Scheduler

theorem exitCode?_of_notStarted {w : World σ} (h : w.state = .notStarted) : w.exitCode? = none :=
  congrArg GuestState.exitCode? h

inductive HostCall where
  | start
  | fireTimer (id : Int32)
  | serviceTimers
  | nextTimer (horizon : Nat)
  | callGlobal (name : String) (args : List Value)
  | invoke (f this : Value) (args : List Value)
  | runToEnd (horizon rounds : Nat)
  | advance (millis : Nat)
  | edit (f : HeapM Unit)

def HostCall.perform (p : Program σ) : HostCall → Host σ Unit
  | .start => p.start
  | .fireTimer id => discard (p.fireTimer id)
  | .serviceTimers => discard p.serviceTimers
  | .nextTimer horizon => discard (p.nextTimer horizon)
  | .callGlobal name args => discard (p.callGlobal name args)
  | .invoke f this args => discard (p.invoke f this args)
  | .runToEnd horizon rounds => discard (p.runToEnd horizon rounds)
  | .advance millis => Host.advance millis
  | .edit f => onHeap f

namespace Program

def session (p : Program σ) : List HostCall → World σ → World σ
  | [], w => w
  | c :: calls, w => p.session calls (after (c.perform p w))

variable (p : Program σ) {w : World σ}

def argued (w : World σ) (m : Memory) : World σ := { w with memory := m }.record .wrote

theorem start_cases (w : World σ) :
    (∃ e, w.scheduler.checkStartable = .error e ∧ p.start w = .error e w) ∨
    (w.state = .notStarted ∧ ∃ e m, Memory.writeArguments w.argv w.env w.memory = .error e m ∧
      p.start w = .error e (argued w m)) ∨
    (w.state = .notStarted ∧ ∃ a m, Memory.writeArguments w.argv w.env w.memory = .ok a m ∧
      p.start w = frame p.calls .run (p.run a) (argued w m)) := by
  rw [start, get_bind]
  cases hcheck : w.scheduler.checkStartable with
  | error e => exact .inl ⟨e, rfl, rfl⟩
  | ok startable =>
    have hstate : w.state = .notStarted := by
      unfold Scheduler.checkStartable at hcheck
      split at hcheck
      next h => exact h
      next => cases hcheck
      next => cases hcheck
      next => cases hcheck
    have hrun := exitCode?_of_notStarted hstate
    rw [bind_ok (show Host.ofExcept (.ok startable) w = .ok startable w from rfl)]
    cases hm : Memory.writeArguments w.argv w.env w.memory with
    | error e m => exact .inr (.inl ⟨hstate, e, m, rfl, bind_error (onMemory_error hrun hm)⟩)
    | ok a m => exact .inr (.inr ⟨hstate, a, m, rfl, bind_ok (onMemory_ok hrun hm)⟩)

/-! ## Firing -/

section Firing

variable {id : Int32} {left attempts : Nat}

theorem isPending_bind {α : Type} (f : Bool → Host σ α) (w : World σ) :
    (Host.isPending id >>= f) w = f (w.scheduler.isPending id) w := rfl

theorem refire_idle (h : w.scheduler.isPending id = false) (left attempts : Nat) :
    p.refire id left attempts w = .ok (.fired id attempts) w := by
  cases left with
  | zero =>
    rw [refire, isPending_bind, h]
    rfl
  | succ left =>
    rw [refire, isPending_bind, h]
    rfl

theorem refire_exhausted (h : w.scheduler.isPending id = true) :
    p.refire id 0 attempts w =
      .ok (.exhausted id attempts) ((w.notify (.droppedTimer id attempts)).clearTimer id) := by
  rw [refire, isPending_bind, h]
  rfl

theorem refire_again (h : w.scheduler.isPending id = true) :
    p.refire id (left + 1) attempts w =
      (p.resumeGuest id >>= fun _ => p.refire id left (attempts + 1))
        (w.notify (.missedTimer id (attempts + 1))) := by
  rw [refire, isPending_bind, h]
  rfl

theorem fireTimer_idle (hrun : w.exitCode? = none) (h : w.scheduler.isPending id = false) :
    p.fireTimer id w = .ok (.canceled id) w := by
  rw [fireTimer, bind_ok (ensureNotExited_running hrun), isPending_bind, h]
  rfl

theorem fireTimer_armed (hrun : w.exitCode? = none) (h : w.scheduler.isPending id = true) :
    p.fireTimer id w =
      (p.resumeGuest id >>= fun _ => get >>= fun u => p.refire id u.scheduler.maxRefires 0) w := by
  rw [fireTimer, bind_ok (ensureNotExited_running hrun), isPending_bind, h]
  rfl

end Firing

/-! ## Reports -/

def taken (w : World σ) (rest : List Int32) : World σ :=
  { w with scheduler := { w.scheduler with reports := rest } }

theorem fireReports_exited {code : Int32} (h : w.exitCode? = some code) (count : Nat) :
    p.fireReports (count + 1) w = .ok [] w := by
  rw [fireReports, get_bind, h]
  rfl

theorem fireReports_nil (hrun : w.exitCode? = none) (h : w.scheduler.reports = []) (count : Nat) :
    p.fireReports (count + 1) w = .ok [] w := by
  have htake : Host.takeReport w = .ok none w := by
    simp only [Host.takeReport, Scheduler.takeReport_nil h]
  rw [fireReports, get_bind, hrun]
  exact bind_ok htake

theorem fireReports_cons {id : Int32} {rest : List Int32} (hrun : w.exitCode? = none)
    (h : w.scheduler.reports = id :: rest) (count : Nat) :
    p.fireReports (count + 1) w =
      (do return (← p.fireTimer id) :: (← p.fireReports count)) (taken w rest) := by
  have htake : Host.takeReport w = .ok (some id) (taken w rest) := by
    simp only [Host.takeReport, Scheduler.takeReport_cons h]
    rfl
  rw [fireReports, get_bind, hrun]
  exact bind_ok htake

/-- How long a wait takes makes no difference to what is done after it. -/
theorem nextTimer_cases (hrun : w.exitCode? = none) (horizon : Nat) :
    ∃ wait s, w.scheduler.awaitReport horizon = (wait, s) ∧
      p.nextTimer horizon w =
        (match wait with
          | .report id => (do return .served (← p.fireTimer id))
          | .idle => pure .idle
          | .expired => pure .expired : Host σ TimerWait) { w with scheduler := s } := by
  refine ⟨_, _, rfl, ?_⟩
  rw [nextTimer, bind_ok (ensureNotExited_running hrun), get_bind]
  cases (w.scheduler.awaitReport horizon).1 with
  | report id => rfl
  | idle => rfl
  | expired => rfl

theorem nextTimer_cons {id : Int32} {rest : List Int32} (hrun : w.exitCode? = none)
    (h : w.scheduler.reports = id :: rest) (horizon : Nat) :
    p.nextTimer horizon w = (do return TimerWait.served (← p.fireTimer id)) (taken w rest) := by
  obtain ⟨wait, s, hwait, heq⟩ := p.nextTimer_cases hrun horizon
  rw [Scheduler.awaitReport, Scheduler.takeReport_cons h] at hwait
  cases hwait
  exact heq

end Program

end TokenizerHost
