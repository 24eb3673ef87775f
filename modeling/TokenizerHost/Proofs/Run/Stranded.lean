import TokenizerHost.Proofs.Run.Timers

set_option autoImplicit false

/-!
# Timers that nobody will report

When a report has been taken, its timer is fired until the guest has cleared it or it is dropped,
and so it is settled one way or the other. A frame that faults puts an end to this: the timer stays
armed, and its report is gone (`stranded_by_fault`). There is no other way to strand a timer
(`stranded_only_by_fault`).
-/

namespace TokenizerHost

open Host

variable {σ α β : Type}

def Milestone.fired? : Milestone → Option Int32
  | .entered (.timer id) => some id
  | _ => none

namespace World

def fired (w : World σ) : List Int32 := w.timeline.filterMap Milestone.fired?

def lastFired (w u : World σ) : List Int32 :=
  if w.fired.length < u.fired.length then u.fired.take 1 else []

/-- No timer is stranded but for those excused, and none has been fired since. -/
def Timed (excused fired : List Int32) (_ : List Cause) (w : World σ) : Prop :=
  w.scheduler.Sound excused ∧ w.fired = fired

theorem fired_entering (w : World σ) (id : Int32) :
    (w.entering (.timer id)).fired = id :: w.fired := rfl

theorem fired_entering_inner (w : World σ) {cause : Cause} (h : cause.IsInner) :
    (w.entering cause).fired = w.fired := by
  cases cause with
  | callback id => rfl
  | embedded => rfl
  | run => cases h
  | timer id => cases h

theorem fired_of_timeline {w u : World σ} (h : u.timeline = w.timeline) : u.fired = w.fired :=
  congrArg (List.filterMap Milestone.fired?) h

theorem lastFired_of_cons {w u : World σ} {id : Int32} {before : List Int32}
    (h : u.fired = id :: before) (hsuffix : w.fired <:+ before) : w.lastFired u = [id] := by
  have hlength := hsuffix.length_le
  have hlater : w.fired.length < u.fired.length := by
    rw [h, List.length_cons]
    omega
  rw [lastFired, if_pos hlater, h]
  rfl

theorem lastFired_subset {w u x : World σ} (h : w.fired <:+ u.fired) :
    u.lastFired x ⊆ w.lastFired x := by
  have hlength := h.length_le
  rw [lastFired, lastFired]
  split
  next hlater =>
    rw [if_pos (by omega)]
    exact List.Subset.refl _
  next => exact List.nil_subset _

end World

theorem Scheduler.exitCode?_of_leave {s : Scheduler} (h : s.leave.exitCode? ≠ none) :
    s.exitCode? ≠ none := by
  rwa [Scheduler.exitCode?_leave] at h

instance (excused fired : List Int32) : FrameInvariant (World.Timed (σ := σ) excused fired) where
  aside h hw := by
    rw [World.Timed, World.fired_of_timeline h.timeline, h.scheduler]
    exact hw
  schedule hrun delay hw := ⟨hw.1.schedule hrun delay, hw.2⟩
  disarm h hw := ⟨hw.1.disarm h, hw.2⟩
  exit _ code hw := ⟨.exit _ code _, hw.2⟩
  inner {_ w _} hcause _ hw :=
    ⟨hw.1.reframe rfl rfl rfl rfl fun h => absurd rfl h, (w.fired_entering_inner hcause).trans hw.2⟩
  leave hw := ⟨hw.1.reframe rfl rfl rfl rfl Scheduler.exitCode?_of_leave, hw.2⟩

/-- After a step no timer is stranded but for those excused and, if the step faulted, the timer that
it fired last. -/
def Settles (excused : List Int32) (w : World σ) (r : EStateM.Result Fault (World σ) α) : Prop :=
  w.fired <:+ (after r).fired ∧
    match r with
    | .ok _ u => u.scheduler.Sound excused
    | .error _ u => u.scheduler.Sound (w.lastFired u ++ excused)

namespace Settles

variable {excused : List Int32} {w u : World σ}

theorem of_sound {r : EStateM.Result Fault (World σ) α} (hfired : (after r).fired = w.fired)
    (h : (after r).scheduler.Sound excused) : Settles excused w r := by
  refine ⟨hfired ▸ List.suffix_refl _, ?_⟩
  cases r with
  | ok a u => exact h
  | error e u => exact h.mono (List.subset_append_right _ _)

theorem of_timed {step : Host σ α} (hstep : Keeps (Survives (World.Timed excused w.fired)) step)
    (h : w.scheduler.Sound excused) : Settles excused w (step w) := by
  obtain ⟨hsound, hfired⟩ := hstep w [] ⟨h, rfl⟩
  exact of_sound hfired hsound

theorem trans {r : EStateM.Result Fault (World σ) α} (hbefore : w.fired <:+ u.fired)
    (h : Settles excused u r) : Settles excused w r := by
  obtain ⟨hsuffix, hsound⟩ := h
  refine ⟨hbefore.trans hsuffix, ?_⟩
  cases r with
  | ok a x => exact hsound
  | error e x =>
    refine hsound.mono fun id hid => ?_
    rcases List.mem_append.1 hid with hlast | hin
    · exact List.mem_append_left _ (World.lastFired_subset hbefore hlast)
    · exact List.mem_append_right _ hin

theorem bind {step : Host σ α} {f : α → Host σ β} (h : Settles excused w (step w))
    (hf : ∀ a u, u.scheduler.Sound excused → Settles excused u (f a u)) :
    Settles excused w ((step >>= f) w) := by
  cases hw : step w with
  | ok a u =>
    rw [hw] at h
    rw [bind_ok hw]
    exact trans h.1 (hf a u h.2)
  | error e u =>
    rw [hw] at h
    rw [bind_error hw]
    exact h

theorem pure (a : α) (h : w.scheduler.Sound excused) :
    Settles excused w ((Pure.pure a : Host σ α) w) := of_sound rfl h

theorem discard {step : Host σ α} (h : Settles excused w (step w)) :
    Settles excused w ((Functor.discard step : Host σ Unit) w) := by
  cases hw : step w with
  | ok a u =>
    rw [hw] at h
    rw [discard_ok hw]
    exact h
  | error e u =>
    rw [hw] at h
    rw [discard_error hw]
    exact h

end Settles

namespace Program

variable (p : Program σ) {excused : List Int32} {w : World σ} {id : Int32}

/-- A timer that is fired is excused until the frame has come back, and is to blame if it does not
come back well. -/
theorem settles_resume_bind {f : Unit → Host σ α} (hpending : w.scheduler.isPending id = true)
    (h : w.scheduler.Sound (id :: excused))
    (hf : ∀ u, u.scheduler.Sound (id :: excused) → Settles excused u (f () u)) :
    Settles excused w ((p.resumeGuest id >>= f) w) := by
  have hcode : Keeps (Survives (World.Timed (id :: excused) (id :: w.fired)))
      (execute p.calls p.resume) := keeps_execute p.keeping_calls _
  have hentering : World.Timed (id :: excused) (id :: w.fired) [.timer id]
      (w.entering (.timer id)) :=
    ⟨h.reframe rfl rfl rfl rfl fun hexit => absurd rfl hexit, w.fired_entering id⟩
  have hresumed : World.Timed (id :: excused) (id :: w.fired) [] (after (p.resumeGuest id w)) :=
    holds_after_frame hcode (h.running hpending) hentering
  have hsuffix : w.fired <:+ id :: w.fired := List.suffix_cons _ _
  cases hw : p.resumeGuest id w with
  | ok a u =>
    rw [hw] at hresumed
    rw [bind_ok hw]
    exact .trans (hresumed.2 ▸ hsuffix) (hf u hresumed.1)
  | error e u =>
    rw [hw] at hresumed
    rw [bind_error hw]
    have hlast : w.lastFired u = [id] :=
      World.lastFired_of_cons hresumed.2 (List.suffix_refl _)
    refine ⟨hresumed.2 ▸ hsuffix, ?_⟩
    change u.scheduler.Sound (w.lastFired u ++ excused)
    rw [hlast]
    exact hresumed.1

theorem settles_refire (left attempts : Nat) (h : w.scheduler.Sound (id :: excused)) :
    Settles excused w (p.refire id left attempts w) := by
  -- the timer stays excused from one frame to the next, and the loop ends only when it is disarmed
  induction left generalizing w attempts with
  | zero =>
    cases hpending : w.scheduler.isPending id with
    | false =>
      rw [refire_idle p hpending]
      exact .of_sound rfl (h.unexcuse hpending)
    | true =>
      obtain ⟨serial, hserial⟩ := Scheduler.isPending_iff.1 hpending
      rw [refire_exhausted p hpending,
        World.clearTimer_armed (w := w.notify (.droppedTimer id attempts)) hserial]
      have hidle : (w.scheduler.disarm id serial).isPending id = false := by
        rw [Scheduler.isPending_eq_false_iff, Scheduler.find?_disarm, if_pos rfl]
      exact .of_sound rfl ((h.disarm hserial).unexcuse hidle)
  | succ left ih =>
    cases hpending : w.scheduler.isPending id with
    | false =>
      rw [refire_idle p hpending]
      exact .of_sound rfl (h.unexcuse hpending)
    | true =>
      rw [refire_again p hpending]
      exact p.settles_resume_bind (w := w.notify (.missedTimer id (attempts + 1))) hpending h
        fun u hu => ih (attempts + 1) hu

/-- Firing a timer settles it, whether its report has been taken or not. -/
theorem settles_fireTimer (hrun : w.exitCode? = none) (h : w.scheduler.Sound (id :: excused)) :
    Settles excused w (p.fireTimer id w) := by
  cases hpending : w.scheduler.isPending id with
  | false =>
    rw [fireTimer_idle p hrun hpending]
    exact .of_sound rfl (h.unexcuse hpending)
  | true =>
    rw [fireTimer_armed p hrun hpending]
    exact p.settles_resume_bind hpending h fun u hu => p.settles_refire _ 0 hu

theorem settles_fireReports (count : Nat) (h : w.scheduler.Sound excused) :
    Settles excused w (p.fireReports count w) := by
  induction count generalizing w with
  | zero => exact .pure _ h
  | succ count ih =>
    cases hrun : w.exitCode? with
    | some code =>
      rw [fireReports_exited p hrun]
      exact .of_sound rfl h
    | none =>
      cases hreports : w.scheduler.reports with
      | nil =>
        rw [fireReports_nil p hrun hreports]
        exact .of_sound rfl h
      | cons id rest =>
        rw [fireReports_cons p hrun hreports]
        have hfire : Settles excused (taken w rest) (p.fireTimer id (taken w rest)) :=
          p.settles_fireTimer hrun (h.take hreports)
        exact hfire.bind fun outcome u hu => (ih hu).bind fun outcomes x hx => .pure _ hx

theorem settles_serviceTimers (h : w.scheduler.Sound excused) :
    Settles excused w (p.serviceTimers w) :=
  (Settles.of_timed keeps_ensureNotExited h).bind fun _ _ hu => p.settles_fireReports _ hu

theorem settles_nextTimer (horizon : Nat) (h : w.scheduler.Sound excused) :
    Settles excused w (p.nextTimer horizon w) := by
  cases hrun : w.exitCode? with
  | some code =>
    rw [nextTimer, bind_error (ensureNotExited_exited hrun)]
    exact .of_sound rfl h
  | none =>
    obtain ⟨wait, s, hwait, heq⟩ := p.nextTimer_cases hrun horizon
    have hserve : ∀ (id : Int32) (s : Scheduler), s.exitCode? = none → s.Sound (id :: excused) →
        Settles excused w ((do return TimerWait.served (← p.fireTimer id) : Host σ TimerWait)
          { w with scheduler := s }) := by
      intro id s hs hsound
      have hfire : Settles excused { w with scheduler := s }
          (p.fireTimer id { w with scheduler := s }) := p.settles_fireTimer hs hsound
      exact Settles.trans (List.suffix_refl _) (hfire.bind fun outcome u hu => .pure _ hu)
    rw [heq]
    rcases w.scheduler.awaitReport_cases horizon with
      ⟨id, rest, hreports, hcase⟩ | ⟨-, -, hcase⟩ | ⟨millis, id, rest, -, hreports, hcase⟩ |
        ⟨millis, -, hcase⟩ | ⟨-, -, -, hcase⟩
    · cases hwait.symm.trans hcase
      exact hserve id _ hrun (h.take hreports)
    · cases hwait.symm.trans hcase
      exact .of_sound rfl h
    · cases hwait.symm.trans hcase
      exact hserve id _ hrun ((h.advance millis).take hreports)
    · cases hwait.symm.trans hcase
      exact .of_sound rfl (h.advance millis)
    · cases hwait.symm.trans hcase
      exact .of_sound rfl (h.elapse horizon)

theorem settles_drive (deadline rounds : Nat) (h : w.scheduler.Sound excused) :
    Settles excused w (p.drive deadline rounds w) := by
  induction rounds generalizing w with
  | zero => exact .pure _ h
  | succ rounds ih =>
    rw [drive, get_bind]
    split
    · exact .pure _ h
    · refine (p.settles_nextTimer _ h).bind fun wait u hu => ?_
      cases wait with
      | served o => exact ih hu
      | idle => exact .pure _ hu
      | expired => exact .pure _ hu

theorem settles_start (h : w.scheduler.Sound excused) : Settles excused w (p.start w) := by
  rcases p.start_cases w with ⟨e, -, hstart⟩ | ⟨-, e, m, -, hstart⟩ | ⟨hstate, a, m, -, hstart⟩
  · rw [hstart]
    exact .of_sound rfl h
  · rw [hstart]
    exact .of_sound rfl h
  -- the frame of the entry point fires no timer, so it is left as sound as it was entered
  · have hrun : (argued w m).exitCode? = none := exitCode?_of_notStarted hstate
    have hcode : Keeps (Survives (World.Timed excused w.fired)) (execute p.calls (p.run a)) :=
      keeps_execute p.keeping_calls _
    have hentering : World.Timed excused w.fired [.run] ((argued w m).entering .run) :=
      ⟨h.reframe rfl rfl rfl rfl fun hexit => absurd rfl hexit, rfl⟩
    have hleft := holds_after_frame hcode hrun hentering
    rw [hstart]
    exact .of_sound hleft.2 hleft.1

theorem settles_runToEnd (horizon rounds : Nat) (h : w.scheduler.Sound excused) :
    Settles excused w (p.runToEnd horizon rounds w) := by
  rw [runToEnd, get_bind, get_bind]
  split
  · refine (p.settles_start h).bind fun _ u hu => (p.settles_drive _ rounds hu).bind fun _ x hx => ?_
    rw [get_bind]
    cases x.exitCode? with
    | some code => exact .pure _ hx
    | none => exact .of_sound rfl (hx.elapse _)
  · refine (p.settles_drive _ rounds h).bind fun _ x hx => ?_
    rw [get_bind]
    cases x.exitCode? with
    | some code => exact .pure _ hx
    | none => exact .of_sound rfl (hx.elapse _)

theorem settles_call (f this : Value) (args : List Value) (h : w.scheduler.Sound excused) :
    Settles excused w (p.calls.call f this args w) :=
  .of_timed (Calls.Keeping.call p.keeping_calls f this args) h

theorem settles_callGlobal (name : String) (args : List Value) (h : w.scheduler.Sound excused) :
    Settles excused w (p.callGlobal name args w) := by
  refine (Settles.of_timed keeps_ensureNotExited h).bind fun _ u hu => ?_
  rw [get_bind, fromHeap_bind]
  split
  · exact p.settles_call _ u.global args hu
  · exact .of_sound rfl hu

theorem settles_invoke (f this : Value) (args : List Value) (h : w.scheduler.Sound excused) :
    Settles excused w (p.invoke f this args w) :=
  (Settles.of_timed keeps_ensureNotExited h).bind fun _ _ hu => p.settles_call f this args hu

end Program

section Sessions

variable {p : Program σ} {excused : List Int32} {w : World σ}

theorem HostCall.settles (c : HostCall) (h : w.scheduler.Sound excused) :
    Settles excused w (c.perform p w) := by
  cases c with
  | start => exact p.settles_start h
  | fireTimer id =>
    cases hrun : w.exitCode? with
    | some code =>
      have hrefused : p.fireTimer id w = .error (.alreadyExited code) w :=
        bind_error (ensureNotExited_exited hrun)
      exact Settles.discard (hrefused ▸ .of_sound rfl h)
    | none => exact (p.settles_fireTimer hrun (h.mono (List.subset_cons_self _ _))).discard
  | serviceTimers => exact (p.settles_serviceTimers h).discard
  | nextTimer horizon => exact (p.settles_nextTimer horizon h).discard
  | callGlobal name args => exact (p.settles_callGlobal name args h).discard
  | invoke f this args => exact (p.settles_invoke f this args h).discard
  | runToEnd horizon rounds => exact (p.settles_runToEnd horizon rounds h).discard
  | advance millis => exact .of_sound rfl (h.advance millis)
  | edit f => exact .of_timed (keeps_onHeap f) h

def HostCall.faulted (p : Program σ) (c : HostCall) (w : World σ) : List Int32 :=
  match c.perform p w with
  | .ok _ _ => []
  | .error _ u => w.lastFired u

def Program.faulted (p : Program σ) : List HostCall → World σ → List Int32
  | [], _ => []
  | c :: calls, w => p.faulted calls (after (c.perform p w)) ++ c.faulted p w

theorem HostCall.sound (c : HostCall) (h : w.scheduler.Sound excused) :
    (after (c.perform p w)).scheduler.Sound (c.faulted p w ++ excused) := by
  have hsettles := (c.settles (p := p) h).2
  rw [HostCall.faulted]
  cases hc : c.perform p w with
  | ok a u =>
    rw [hc] at hsettles
    exact hsettles
  | error e u =>
    rw [hc] at hsettles
    exact hsettles

theorem Program.sound_session (calls : List HostCall) (h : w.scheduler.Sound excused) :
    (p.session calls w).scheduler.Sound (p.faulted calls w ++ excused) := by
  induction calls generalizing w excused with
  | nil => exact h
  | cons c calls ih =>
    rw [Program.faulted, List.append_assoc]
    exact ih (c.sound h)

/-- A wait for the next timer is in vain only if some timer sleeps beyond the time given. -/
theorem Program.exists_sleeping_of_expired {horizon : Nat} {u : World σ}
    (hstranded : ∀ id, ¬ w.scheduler.Stranded id) (h : p.nextTimer horizon w = .ok .expired u) :
    ∃ t ∈ w.scheduler.sleeping, w.scheduler.now + horizon ≤ t.deadline := by
  have hserved : ∀ (id : Int32) (x : World σ),
      (do return TimerWait.served (← p.fireTimer id) : Host σ TimerWait) x ≠ .ok .expired u := by
    intro id x heq
    cases hfire : p.fireTimer id x with
    | ok o y =>
      rw [bind_ok hfire] at heq
      cases heq
    | error e y =>
      rw [bind_error hfire] at heq
      cases heq
  cases hrun : w.exitCode? with
  | some code =>
    rw [nextTimer, bind_error (ensureNotExited_exited hrun)] at h
    cases h
  | none =>
    obtain ⟨wait, s, hwait, heq⟩ := p.nextTimer_cases hrun horizon
    rw [heq] at h
    rcases w.scheduler.awaitReport_cases horizon with
      ⟨id, rest, -, hcase⟩ | ⟨-, -, hcase⟩ | ⟨millis, id, rest, -, -, hcase⟩ |
        ⟨millis, -, hcase⟩ | ⟨hreports, hpending, hfirst, -⟩
    · cases hwait.symm.trans hcase
      exact absurd h (hserved id _)
    · cases hwait.symm.trans hcase
      cases h
    · cases hwait.symm.trans hcase
      exact absurd h (hserved id _)
    · cases hwait.symm.trans hcase
      cases h
    · have hsleeping := Scheduler.exists_sleeping hstranded hpending hreports
      obtain ⟨first, rest, hcons⟩ := List.exists_cons_of_ne_nil hsleeping
      refine ⟨first, ?_, hfirst first ?_⟩
      · rw [hcons]
        exact List.mem_cons_self
      · rw [hcons]
        rfl

/-- Where only stranded timers are left, every wait takes all the time it is given. -/
theorem Program.nextTimer_of_stranded (hrun : w.exitCode? = none)
    (hpending : w.scheduler.pendingTimers ≠ 0) (hreports : w.scheduler.reports = [])
    (hsleeping : w.scheduler.sleeping = []) (horizon : Nat) :
    p.nextTimer horizon w =
      .ok .expired { w with scheduler := w.scheduler.elapse horizon } := by
  have hexpired : w.scheduler.awaitReport horizon = (.expired, w.scheduler.elapse horizon) := by
    simp only [Scheduler.awaitReport, Scheduler.takeReport_nil hreports, if_neg hpending,
      hsleeping, List.head?_nil]
  obtain ⟨wait, s, hwait, heq⟩ := p.nextTimer_cases hrun horizon
  cases hwait.symm.trans hexpired
  exact heq

end Sessions

/-- After any session a timer is stranded only if a call that fired it last has faulted; so none is
if no call has. And where none is, a wait for the next timer comes to nothing only if some timer
sleeps for longer than that. -/
theorem stranded_only_by_fault (p : Program σ) (o : HostOptions) (memory : Memory)
    (around : Surroundings) (own : σ) (calls : List HostCall) {w : World σ}
    (hw : w = p.session calls (.fresh o memory around own)) :
    (∀ id, w.scheduler.Stranded id → id ∈ p.faulted calls (.fresh o memory around own)) ∧
    ((∀ id, ¬ w.scheduler.Stranded id) → ∀ horizon u, p.nextTimer horizon w = .ok .expired u →
      ∃ t ∈ w.scheduler.sleeping, w.scheduler.now + horizon ≤ t.deadline) := by
  have hfresh : (World.fresh o memory around own).scheduler.Sound [] := by
    rw [scheduler_fresh]
    exact .new o.maxTimerRefires
  have hsound := p.sound_session calls hfresh
  rw [← hw, List.append_nil] at hsound
  refine ⟨fun id hstranded => ?_, fun hnone horizon u h => ?_⟩
  · exact Classical.byContradiction fun hout => hsound.not_stranded hout hstranded
  · exact p.exists_sleeping_of_expired hnone h

def faulting : Program Bool where
  stackPointer _ := 0
  run _ := .done ()
  resume := .observe fun w =>
    if w.own then .fault .stackExhausted
    else .own true w.memory (.request .scheduleTimeoutEvent 0 fun _ => .done ())
  functions _ _ _ := .done (.returned .undefined)

def armedOnce : List HostCall :=
  [.edit (discard (Heap.newCallback 1)), .invoke narrowCallback .undefined []]

def servedOnce : List HostCall := armedOnce ++ [.advance 0, .serviceTimers]

def afterArming : World Bool := faulting.session armedOnce narrow

def afterFault : World Bool := faulting.session servedOnce narrow

theorem idle_afterFault : afterFault.scheduler.isPending 1 = true ∧
    afterFault.scheduler.reports = [] ∧ afterFault.scheduler.sleeping = [] := by
  decide +kernel

theorem stranded_only_by_fault_served : 1 ∈ faulting.faulted servedOnce narrow ∧
    ∃ t ∈ afterArming.scheduler.sleeping, afterArming.scheduler.now + 0 ≤ t.deadline := by
  obtain ⟨hpending, hreports, hsleeping⟩ := idle_afterFault
  have hstranded : afterFault.scheduler.Stranded 1 :=
    Scheduler.stranded_of_idle hpending hreports hsleeping
  have hserved :=
    stranded_only_by_fault faulting .standard (.zeros 32) ⟨0, 0⟩ false servedOnce (w := afterFault) rfl
  have harmed :=
    stranded_only_by_fault faulting .standard (.zeros 32) ⟨0, 0⟩ false armedOnce (w := afterArming) rfl
  have hnone : faulting.faulted armedOnce narrow = [] := by
    decide +kernel
  have hsettled : ∀ id, ¬ afterArming.scheduler.Stranded id := by
    intro id hid
    have hfaulted : id ∈ faulting.faulted armedOnce narrow := harmed.1 id hid
    rw [hnone] at hfaulted
    cases hfaulted
  have hexpired : (match faulting.nextTimer 0 afterArming with
      | .ok .expired _ => true
      | _ => false) = true := by
    decide +kernel
  refine ⟨hserved.1 1 hstranded, ?_⟩
  cases hwait : faulting.nextTimer 0 afterArming with
  | error e u =>
    rw [hwait] at hexpired
    cases hexpired
  | ok wait u =>
    rw [hwait] at hexpired
    cases wait with
    | served o => cases hexpired
    | idle => cases hexpired
    | expired => exact harmed.2 hsettled 0 u hwait

/-- A frame that faults strands its timer, and then every wait for the next one is in vain. -/
theorem stranded_by_fault : afterFault.scheduler.Stranded 1 ∧
    ∀ horizon, ∃ u, faulting.nextTimer horizon afterFault = .ok .expired u := by
  have hrun : afterFault.exitCode? = none := by
    decide +kernel
  have hcount : afterFault.scheduler.pendingTimers ≠ 0 := by
    decide +kernel
  obtain ⟨hpending, hreports, hsleeping⟩ := idle_afterFault
  refine ⟨Scheduler.stranded_of_idle hpending hreports hsleeping, fun horizon => ?_⟩
  exact ⟨_, Program.nextTimer_of_stranded hrun hcount hreports hsleeping horizon⟩

end TokenizerHost
