import TokenizerHost.Proofs.Memory.Bytes
import TokenizerHost.Proofs.Run.Stranded

set_option autoImplicit false

namespace TokenizerHost

open Host

variable {σ : Type}

/-! ## What a frame leaves alone -/

/-- The limit is fixed, only the embedding program fires timers, and only it takes reports; but an
exit leaves neither timers nor reports. -/
structure World.Standing (limit : Nat) (fired queue : List Int32) (_ : List Cause) (w : World σ) :
    Prop where
  limit : w.scheduler.maxRefires = limit
  fired : w.fired = fired
  queue : w.exitCode? = none → w.scheduler.reports = queue
  ended : w.exitCode? ≠ none → w.scheduler.armed = .empty ∧ w.scheduler.reports = []

section Standing

variable {limit : Nat} {fired queue : List Int32} {frames frames' : List Cause} {w u : World σ}
  {id : Int32}

theorem World.Standing.congr (h : w.Standing limit fired queue frames)
    (hscheduler : u.scheduler = w.scheduler) (htimeline : u.timeline = w.timeline) :
    u.Standing limit fired queue frames' := by
  have hexit : u.exitCode? = w.exitCode? := congrArg Scheduler.exitCode? hscheduler
  refine ⟨?_, (World.fired_of_timeline htimeline).trans h.fired, ?_, ?_⟩
  · rw [hscheduler]
    exact h.limit
  · rw [hexit, hscheduler]
    exact h.queue
  · rw [hexit, hscheduler]
    exact h.ended

instance (limit : Nat) (fired queue : List Int32) :
    FrameInvariant (World.Standing (σ := σ) limit fired queue) where
  aside h hw := hw.congr h.scheduler h.timeline
  schedule hrun _ hw := ⟨hw.limit, hw.fired, hw.queue, fun hexit => absurd hrun hexit⟩
  disarm h hw := by
    refine ⟨hw.limit, hw.fired, hw.queue, fun hexit => ?_⟩
    rw [(hw.ended hexit).1] at h
    cases h
  exit _ _ hw := ⟨hw.limit, hw.fired, nofun, fun _ => ⟨rfl, rfl⟩⟩
  inner {_ w _} hcause hrun hw := ⟨hw.limit, (w.fired_entering_inner hcause).trans hw.fired,
    fun _ => hw.queue hrun, fun hexit => absurd rfl hexit⟩
  leave {_ _ w} hw := by
    refine ⟨hw.limit, hw.fired, fun hrun => hw.queue ?_, fun hexit => hw.ended ?_⟩
    · rwa [w.exitCode?_leaving] at hrun
    · rwa [w.exitCode?_leaving] at hexit

theorem World.standing (hrun : w.exitCode? = none) :
    w.Standing w.scheduler.maxRefires w.fired w.scheduler.reports [] :=
  ⟨rfl, rfl, fun _ => rfl, fun hexit => absurd hrun hexit⟩

theorem World.Standing.isPending_of_exited (h : w.Standing limit fired queue frames)
    (hexit : w.exitCode? ≠ none) (id : Int32) : w.scheduler.isPending id = false := by
  rw [Scheduler.isPending_eq_false_iff, (h.ended hexit).1]
  rfl

theorem World.Standing.running (h : w.Standing limit fired queue frames)
    (hpending : w.scheduler.isPending id = true) : w.exitCode? = none := by
  cases hexit : w.exitCode? with
  | none => rfl
  | some code =>
    have hidle := h.isPending_of_exited (hexit ▸ Option.some_ne_none code) id
    cases hidle.symm.trans hpending

theorem World.isPending_clearTimer (w : World σ) (id : Int32) :
    (w.clearTimer id).scheduler.isPending id = false := by
  cases hfind : w.scheduler.armed.find? id with
  | none =>
    rw [World.clearTimer_idle hfind]
    exact Scheduler.isPending_eq_false_iff.2 hfind
  | some serial =>
    rw [World.clearTimer_armed hfind, Scheduler.isPending_eq_false_iff]
    exact (Scheduler.find?_disarm _ _ _ _).trans (if_pos rfl)

theorem World.fired_clearTimer (w : World σ) (id : Int32) : (w.clearTimer id).fired = w.fired := by
  cases hfind : w.scheduler.armed.find? id with
  | none => rw [World.clearTimer_idle hfind]
  | some serial =>
    rw [World.clearTimer_armed hfind]
    rfl

namespace Program

variable (p : Program σ)

theorem standing_resumeGuest (id : Int32) (h : w.Standing limit fired queue [])
    (hrun : w.exitCode? = none) :
    (after (p.resumeGuest id w)).Standing limit (id :: fired) queue [] := by
  have hcode : Keeps (Survives (World.Standing limit (id :: fired) queue))
      (execute p.calls p.resume) := keeps_execute p.keeping_calls _
  have hentering : (w.entering (.timer id)).Standing limit (id :: fired) queue [.timer id] :=
    ⟨h.limit, congrArg (id :: ·) h.fired, fun _ => h.queue hrun, fun hexit => absurd rfl hexit⟩
  exact holds_after_frame hcode hrun hentering

theorem standing_refire (left attempts : Nat) (h : w.Standing limit fired queue []) :
    ∃ more ≤ left, (after (p.refire id left attempts w)).Standing limit
      (List.replicate more id ++ fired) queue [] := by
  induction left generalizing w fired attempts with
  | zero =>
    refine ⟨0, Nat.le_refl 0, ?_⟩
    cases hpending : w.scheduler.isPending id with
    | false =>
      rw [refire_idle p hpending]
      exact h
    | true =>
      rw [refire_exhausted p hpending]
      exact FrameInvariant.clear id (w := w.notify _) (h.congr rfl rfl)
  | succ left ih =>
    cases hpending : w.scheduler.isPending id with
    | false =>
      rw [refire_idle p hpending]
      exact ⟨0, Nat.zero_le _, h⟩
    | true =>
      have hresumed := p.standing_resumeGuest id
        (w := w.notify (.missedTimer id (attempts + 1))) (h.congr rfl rfl) (h.running hpending)
      rw [refire_again p hpending]
      cases hresume : p.resumeGuest id (w.notify (.missedTimer id (attempts + 1))) with
      | ok a u =>
        rw [hresume] at hresumed
        rw [bind_ok hresume]
        obtain ⟨more, hmore, hagain⟩ := ih (attempts + 1) hresumed
        refine ⟨more + 1, by omega, ?_⟩
        rwa [List.replicate_succ', List.append_assoc]
      | error e u =>
        rw [hresume] at hresumed
        rw [bind_error hresume]
        exact ⟨1, by omega, hresumed⟩

theorem standing_fireTimer (id : Int32) (h : w.Standing limit fired queue [])
    (hrun : w.exitCode? = none) :
    ∃ more ≤ limit + 1, (after (p.fireTimer id w)).Standing limit
      (List.replicate more id ++ fired) queue [] := by
  cases hpending : w.scheduler.isPending id with
  | false =>
    rw [fireTimer_idle p hrun hpending]
    exact ⟨0, Nat.zero_le _, h⟩
  | true =>
    have hresumed := p.standing_resumeGuest id h hrun
    rw [fireTimer_armed p hrun hpending]
    cases hresume : p.resumeGuest id w with
    | ok a u =>
      rw [hresume] at hresumed
      rw [bind_ok hresume, get_bind]
      obtain ⟨more, hmore, hagain⟩ := p.standing_refire u.scheduler.maxRefires 0 hresumed
      have hlimit : u.scheduler.maxRefires = limit := hresumed.limit
      refine ⟨more + 1, by omega, ?_⟩
      rwa [List.replicate_succ', List.append_assoc]
    | error e u =>
      rw [hresume] at hresumed
      rw [bind_error hresume]
      exact ⟨1, by omega, hresumed⟩

end Program

end Standing

/-! ## Resuming over and over -/

namespace Program

/-- Resumes the guest for a timer and then so many times again, whether the timer is armed or not,
giving notice before each time but the first. -/
def resumeTimes (p : Program σ) (id : Int32) : (again : Nat) → Host σ Unit
  | 0 => p.resumeGuest id
  | again + 1 => do
    p.resumeTimes id again
    Host.notify (.missedTimer id (again + 1))
    p.resumeGuest id

def ArmedThrough (p : Program σ) (id : Int32) (w : World σ) (resumes : Nat) : Prop :=
  w.scheduler.isPending id = true ∧
    ∀ again < resumes, ∀ u, p.resumeTimes id again w = .ok () u → u.scheduler.isPending id = true

/-- When the guest has been resumed so many times again, the timer is no longer armed, and that is
the least number of times. -/
structure DisarmedAt (p : Program σ) (id : Int32) (w : World σ) (again : Nat) (u : World σ) :
    Prop where
  armed : p.ArmedThrough id w again
  resumed : p.resumeTimes id again w = .ok () u
  disarmed : u.scheduler.isPending id = false

section Firing

variable (p : Program σ) {id : Int32} {w u x : World σ} {again resumes : Nat} {e : Fault}

theorem resumeTimes_succ (h : p.resumeTimes id again w = .ok () u) :
    p.resumeTimes id (again + 1) w = p.resumeGuest id (u.notify (.missedTimer id (again + 1))) := by
  rw [resumeTimes, bind_ok h]
  rfl

theorem standing_resumeTimes (hrun : w.exitCode? = none) (h : p.resumeTimes id again w = .ok () u) :
    u.Standing w.scheduler.maxRefires (List.replicate (again + 1) id ++ w.fired)
      w.scheduler.reports [] := by
  induction again generalizing u with
  | zero =>
    have hresumed := p.standing_resumeGuest id (World.standing hrun) hrun
    rwa [show p.resumeGuest id w = .ok () u from h] at hresumed
  | succ again ih =>
    obtain ⟨_, x, hx, -⟩ := exists_of_bind_ok (show _ = EStateM.Result.ok () u from h)
    have hstanding := ih hx
    rw [p.resumeTimes_succ hx] at h
    -- a guest that has exited cannot be resumed, so it has not
    have hxrun : x.exitCode? = none := by
      cases hexit : x.exitCode? with
      | none => rfl
      | some code => cases (frame_exited (w := x.notify _) hexit).symm.trans h
    have hresumed := p.standing_resumeGuest id
      (w := x.notify (.missedTimer id (again + 1))) (hstanding.congr rfl rfl) hxrun
    rw [h] at hresumed
    exact hresumed

theorem ArmedThrough.mono {p : Program σ} {fewer : Nat} (h : p.ArmedThrough id w resumes)
    (hle : fewer ≤ resumes) : p.ArmedThrough id w fewer :=
  ⟨h.1, fun again hagain => h.2 again (Nat.lt_of_lt_of_le hagain hle)⟩

/-- As long as the timer is armed, firing it is resuming over and over. -/
theorem fireTimer_of_armedThrough (hrun : w.exitCode? = none) (harmed : p.ArmedThrough id w again)
    (h : p.resumeTimes id again w = .ok () u) (hlimit : again ≤ w.scheduler.maxRefires) :
    p.fireTimer id w = p.refire id (w.scheduler.maxRefires - again) again u := by
  induction again generalizing u with
  | zero =>
    have hsame : u.scheduler.maxRefires = w.scheduler.maxRefires :=
      (p.standing_resumeTimes hrun h).limit
    rw [fireTimer_armed p hrun harmed.1, bind_ok (show p.resumeGuest id w = .ok () u from h),
      get_bind, hsame, Nat.sub_zero]
  | succ again ih =>
    obtain ⟨_, x, hx, -⟩ := exists_of_bind_ok (show _ = EStateM.Result.ok () u from h)
    have hpending : x.scheduler.isPending id = true := harmed.2 again (Nat.lt_succ_self _) x hx
    have hleft : w.scheduler.maxRefires - again = w.scheduler.maxRefires - (again + 1) + 1 := by
      omega
    rw [p.resumeTimes_succ hx] at h
    rw [ih (harmed.mono (Nat.le_succ _)) hx (Nat.le_of_succ_le hlimit), hleft,
      refire_again p hpending, bind_ok h]

/-- A frame that faults ends firing with its fault. -/
theorem fireTimer_of_fault (hrun : w.exitCode? = none) (harmed : p.ArmedThrough id w again)
    (h : p.resumeTimes id again w = .error e u) (hlimit : again ≤ w.scheduler.maxRefires) :
    p.fireTimer id w = .error e u := by
  induction again generalizing u with
  | zero =>
    rw [fireTimer_armed p hrun harmed.1]
    exact bind_error h
  | succ again ih =>
    cases hx : p.resumeTimes id again w with
    | error e' x =>
      rw [resumeTimes, bind_error hx] at h
      cases h
      exact ih (harmed.mono (Nat.le_succ _)) hx (Nat.le_of_succ_le hlimit)
    | ok a x =>
      have hpending : x.scheduler.isPending id = true := harmed.2 again (Nat.lt_succ_self _) x hx
      have hleft : w.scheduler.maxRefires - again = w.scheduler.maxRefires - (again + 1) + 1 := by
        omega
      rw [p.resumeTimes_succ hx] at h
      rw [p.fireTimer_of_armedThrough hrun (harmed.mono (Nat.le_succ _)) hx
        (Nat.le_of_succ_le hlimit), hleft, refire_again p hpending]
      exact bind_error h

theorem fireTimer_of_disarmedAt (hrun : w.exitCode? = none) (h : p.DisarmedAt id w again u)
    (hlimit : again ≤ w.scheduler.maxRefires) : p.fireTimer id w = .ok (.fired id again) u := by
  rw [p.fireTimer_of_armedThrough hrun h.armed h.resumed hlimit, refire_idle p h.disarmed]

theorem fireTimer_exhausted (hrun : w.exitCode? = none)
    (harmed : p.ArmedThrough id w (w.scheduler.maxRefires + 1))
    (h : p.resumeTimes id w.scheduler.maxRefires w = .ok () u) :
    p.fireTimer id w = .ok (.exhausted id w.scheduler.maxRefires)
      ((u.notify (.droppedTimer id w.scheduler.maxRefires)).clearTimer id) := by
  have hpending : u.scheduler.isPending id = true := harmed.2 _ (Nat.lt_succ_self _) u h
  rw [p.fireTimer_of_armedThrough hrun (harmed.mono (Nat.le_succ _)) h (Nat.le_refl _),
    Nat.sub_self, refire_exhausted p hpending]

/-- Up to any number of resumes the timer is disarmed, or a frame faults, or the timer is armed all
along. -/
theorem resumes_cases (id : Int32) (h : w.scheduler.isPending id = true) (resumes : Nat) :
    (∃ again u, again < resumes ∧ p.DisarmedAt id w again u) ∨
    (∃ again e u, again < resumes ∧ p.ArmedThrough id w again ∧
      p.resumeTimes id again w = .error e u) ∨
    (p.ArmedThrough id w resumes ∧
      ∀ again < resumes, ∃ u, p.resumeTimes id again w = .ok () u) := by
  induction resumes with
  | zero => exact .inr (.inr ⟨⟨h, nofun⟩, nofun⟩)
  | succ resumes ih =>
    rcases ih with ⟨again, u, hlt, hsettled⟩ | ⟨again, e, u, hlt, hfault⟩ | ⟨harmed, hresumed⟩
    · exact .inl ⟨again, u, Nat.lt_succ_of_lt hlt, hsettled⟩
    · exact .inr (.inl ⟨again, e, u, Nat.lt_succ_of_lt hlt, hfault⟩)
    · cases hu : p.resumeTimes id resumes w with
      | error e u => exact .inr (.inl ⟨resumes, e, u, Nat.lt_succ_self _, harmed, hu⟩)
      | ok a u =>
        cases hpending : u.scheduler.isPending id with
        | false => exact .inl ⟨resumes, u, Nat.lt_succ_self _, harmed, hu, hpending⟩
        | true =>
          refine .inr (.inr ⟨⟨h, fun again hlt x hx => ?_⟩, fun again hlt => ?_⟩)
          · rcases Nat.lt_succ_iff_lt_or_eq.1 hlt with hlt | rfl
            · exact harmed.2 again hlt x hx
            · cases hx.symm.trans hu
              exact hpending
          · rcases Nat.lt_succ_iff_lt_or_eq.1 hlt with hlt | rfl
            · exact hresumed again hlt
            · exact ⟨u, hu⟩

/-- An armed timer is disarmed by one of the resumes that the limit allows, or it is armed after all
of them, or a frame faults first. -/
theorem firing_cases (h : w.scheduler.isPending id = true) :
    (∃ again u, again ≤ w.scheduler.maxRefires ∧ p.DisarmedAt id w again u) ∨
    (∃ u, p.ArmedThrough id w (w.scheduler.maxRefires + 1) ∧
      p.resumeTimes id w.scheduler.maxRefires w = .ok () u) ∨
    ∃ again e u, again ≤ w.scheduler.maxRefires ∧ p.ArmedThrough id w again ∧
      p.resumeTimes id again w = .error e u := by
  rcases p.resumes_cases id h (w.scheduler.maxRefires + 1) with
    ⟨again, u, hlt, hsettled⟩ | ⟨again, e, u, hlt, hfault⟩ | ⟨harmed, hresumed⟩
  · exact .inl ⟨again, u, Nat.le_of_lt_succ hlt, hsettled⟩
  · exact .inr (.inr ⟨again, e, u, Nat.le_of_lt_succ hlt, hfault⟩)
  · obtain ⟨u, hu⟩ := hresumed w.scheduler.maxRefires (Nat.lt_succ_self _)
    exact .inr (.inl ⟨u, harmed, hu⟩)

/-- What becomes of firing a timer. With `again` the number of times that the guest is resumed after
the first time, it is the least one after which the timer is disarmed, or the limit. -/
structure FiresExactly (p : Program σ) (id : Int32) (w : World σ) : Prop where
  /-- A timer that is not armed is not fired, and nothing happens. -/
  canceled : w.scheduler.isPending id = false → p.fireTimer id w = .ok (.canceled id) w
  /-- An armed timer is disarmed by one of the resumes, or armed after all of them, unless a frame
  faults first. -/
  covered : w.scheduler.isPending id = true →
    (∃ again u, again ≤ w.scheduler.maxRefires ∧ p.DisarmedAt id w again u) ∨
    (∃ u, p.ArmedThrough id w (w.scheduler.maxRefires + 1) ∧
      p.resumeTimes id w.scheduler.maxRefires w = .ok () u) ∨
    ∃ again e u, again ≤ w.scheduler.maxRefires ∧ p.ArmedThrough id w again ∧
      p.resumeTimes id again w = .error e u
  fired : ∀ again u, again ≤ w.scheduler.maxRefires → p.DisarmedAt id w again u →
    p.fireTimer id w = .ok (.fired id again) u ∧
      u.fired = List.replicate (again + 1) id ++ w.fired
  exhausted : ∀ u, p.ArmedThrough id w (w.scheduler.maxRefires + 1) →
    p.resumeTimes id w.scheduler.maxRefires w = .ok () u →
    let dropped := (u.notify (.droppedTimer id w.scheduler.maxRefires)).clearTimer id
    p.fireTimer id w = .ok (.exhausted id w.scheduler.maxRefires) dropped ∧
      dropped.fired = List.replicate (w.scheduler.maxRefires + 1) id ++ w.fired
  faulted : ∀ again e u, again ≤ w.scheduler.maxRefires → p.ArmedThrough id w again →
    p.resumeTimes id again w = .error e u → p.fireTimer id w = .error e u
  /-- A guest that exits is not resumed again. -/
  exited : ∀ again u, again ≤ w.scheduler.maxRefires → p.ArmedThrough id w again →
    p.resumeTimes id again w = .ok () u → u.exitCode? ≠ none →
    p.fireTimer id w = .ok (.fired id again) u
  disarmed : ∀ o u, p.fireTimer id w = .ok o u → u.scheduler.isPending id = false

end Firing

end Program

/-- Timers are fired exactly as long as they are armed: whatever the guest does when it is resumed,
and whichever timer is fired while it has not exited. -/
theorem timers_are_fired_exactly (p : Program σ) (id : Int32) {w : World σ}
    (hrun : w.exitCode? = none) : p.FiresExactly id w := by
  have hcanceled : w.scheduler.isPending id = false → p.fireTimer id w = .ok (.canceled id) w :=
    p.fireTimer_idle hrun
  have hcovered := fun hpending : w.scheduler.isPending id = true => p.firing_cases hpending
  refine ⟨hcanceled, hcovered, fun again u hlimit h => ?_, fun u harmed h => ?_,
    fun again e u hlimit harmed h => p.fireTimer_of_fault hrun harmed h hlimit,
    fun again u hlimit harmed h hexit => ?_, fun o u h => ?_⟩
  · exact ⟨p.fireTimer_of_disarmedAt hrun h hlimit, (p.standing_resumeTimes hrun h.resumed).fired⟩
  · have hfired := World.fired_clearTimer (u.notify (.droppedTimer id w.scheduler.maxRefires)) id
    exact ⟨p.fireTimer_exhausted hrun harmed h, hfired.trans (p.standing_resumeTimes hrun h).fired⟩
  · have hdisarmed := (p.standing_resumeTimes hrun h).isPending_of_exited hexit id
    exact p.fireTimer_of_disarmedAt hrun ⟨harmed, h, hdisarmed⟩ hlimit
  · cases hpending : w.scheduler.isPending id with
    | false =>
      cases (hcanceled hpending).symm.trans h
      exact hpending
    | true =>
      rcases hcovered hpending with ⟨again, x, hlimit, hx⟩ | ⟨x, harmed, hx⟩ |
        ⟨again, e, x, hlimit, harmed, hx⟩
      · cases (p.fireTimer_of_disarmedAt hrun hx hlimit).symm.trans h
        exact hx.disarmed
      · cases (p.fireTimer_exhausted hrun harmed hx).symm.trans h
        exact World.isPending_clearTimer _ id
      · cases (p.fireTimer_of_fault hrun harmed hx hlimit).symm.trans h

def lingering : Program Nat where
  stackPointer _ := 0
  run _ := .done ()
  resume := .observe fun w =>
    .own (w.own + 1) w.memory <|
      if w.own = 0 then .request .scheduleTimeoutEvent 0 fun _ => .done ()
      else if w.own = 3 then .request .clearTimeoutEvent 8 fun _ => .done ()
      else .done ()
  functions _ _ _ := .done (.returned .undefined)

def afterLingering : World Nat :=
  lingering.session [.edit (discard (Heap.newCallback 1)), .invoke narrowCallback .undefined []]
    (.fresh .standard (.zeros 32) ⟨0, 0⟩ 0)

theorem timers_are_fired_exactly_lingering : afterLingering.exitCode? = none ∧
    ∃ u, lingering.DisarmedAt 1 afterLingering 2 u ∧
      lingering.fireTimer 1 afterLingering = .ok (.fired 1 2) u ∧ u.fired = [1, 1, 1] := by
  have hrun : afterLingering.exitCode? = none := by
    decide +kernel
  have hpending : afterLingering.scheduler.isPending 1 = true := by
    decide +kernel
  have hlimit : 2 ≤ afterLingering.scheduler.maxRefires := by
    decide +kernel
  have hfirst : endsIn (fun u => u.scheduler.isPending 1)
      (lingering.resumeTimes 1 0 afterLingering) = true := by
    decide +kernel
  have hsecond : endsIn (fun u => u.scheduler.isPending 1)
      (lingering.resumeTimes 1 1 afterLingering) = true := by
    decide +kernel
  have hthird : endsIn (fun u => !u.scheduler.isPending 1)
      (lingering.resumeTimes 1 2 afterLingering) = true := by
    decide +kernel
  have hnone : afterLingering.fired = [] := by
    decide +kernel
  obtain ⟨⟨⟩, u, hu, hidle⟩ := exists_of_endsIn hthird
  have hsettled : lingering.DisarmedAt 1 afterLingering 2 u := by
    refine ⟨⟨hpending, fun again hagain x hx => ?_⟩, hu, Bool.not_inj hidle⟩
    rcases Nat.le_one_iff_eq_zero_or_eq_one.1 (Nat.le_of_lt_succ hagain) with rfl | rfl
    · rw [hx] at hfirst
      exact hfirst
    · rw [hx] at hsecond
      exact hsecond
  have hfires := timers_are_fired_exactly lingering 1 hrun
  obtain ⟨hfire, hfired⟩ := hfires.fired 2 u hlimit hsettled
  rw [hnone] at hfired
  exact ⟨hrun, u, hsettled, hfire, hfired⟩

end TokenizerHost
