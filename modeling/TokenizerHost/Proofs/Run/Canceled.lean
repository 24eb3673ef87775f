import TokenizerHost.Proofs.Run.Timers

set_option autoImplicit false

namespace TokenizerHost

open Host

variable {σ : Type}

def StaysCanceled (timeline : List Milestone) : Prop :=
  ∀ later id earlier, timeline = later ++ .disarmed id :: earlier → .entered (.timer id) ∉ later

theorem StaysCanceled.cons {timeline : List Milestone} (h : StaysCanceled timeline) {m : Milestone}
    (hm : ∀ id, m = .entered (.timer id) → .disarmed id ∉ timeline) :
    StaysCanceled (m :: timeline) := by
  intro later id earlier hsplit hmem
  cases later with
  | nil => cases hmem
  | cons first later =>
    obtain ⟨rfl, htail⟩ := List.cons.inj hsplit
    rcases List.mem_cons.1 hmem with hfirst | hlater
    · refine hm id hfirst.symm ?_
      rw [htail]
      exact List.mem_append_right _ List.mem_cons_self
    · exact h later id earlier htail hlater

namespace World

structure Numbered (w : World σ) : Prop where
  next : w.scheduler.nextId = Scheduler.idOf w.scheduler.nextSerial
  armed : ∀ id serial, w.scheduler.armed.find? id = some serial →
    serial < w.scheduler.nextSerial ∧ id = Scheduler.idOf serial
  disarmed : ∀ id, .disarmed id ∈ w.timeline → w.scheduler.armed.find? id = none ∧
    ∃ serial, serial < w.scheduler.nextSerial ∧ id = Scheduler.idOf serial
  canceled : StaysCanceled w.timeline

namespace Numbered

variable {w u : World σ}

theorem congr (h : w.Numbered) (hid : u.scheduler.nextId = w.scheduler.nextId)
    (hserial : u.scheduler.nextSerial = w.scheduler.nextSerial)
    (harmed : u.scheduler.armed = w.scheduler.armed) (htimeline : u.timeline = w.timeline) :
    u.Numbered := by
  refine ⟨?_, ?_, ?_, ?_⟩
  · rw [hid, hserial]
    exact h.next
  · rw [harmed, hserial]
    exact h.armed
  · rw [harmed, hserial, htimeline]
    exact h.disarmed
  · rw [htimeline]
    exact h.canceled

theorem schedule (h : w.Numbered) (delay : Int)
    (hfew : w.scheduler.nextSerial + 1 < UInt32.size) :
    { w with scheduler := (w.scheduler.schedule delay).2 }.Numbered := by
  refine ⟨?_, fun id serial hid => ?_, fun id hid => ?_, h.canceled⟩
  · change w.scheduler.nextId + 1 = Scheduler.idOf (w.scheduler.nextSerial + 1)
    rw [Scheduler.idOf_succ, h.next]
  · change serial < w.scheduler.nextSerial + 1 ∧ _
    rcases Scheduler.armed_schedule hid with ⟨hnew, rfl⟩ | ⟨-, hold⟩
    · exact ⟨Nat.lt_succ_self _, hnew.trans h.next⟩
    · obtain ⟨hlt, heq⟩ := h.armed id serial hold
      exact ⟨Nat.lt_succ_of_lt hlt, heq⟩
  · obtain ⟨hnone, serial, hlt, heq⟩ := h.disarmed id hid
    -- the next id is that of a serial not used yet, and below 2³² ids do not repeat
    have hold : id ≠ w.scheduler.nextId := by
      intro hnew
      have hsame : Scheduler.idOf serial = Scheduler.idOf w.scheduler.nextSerial := by
        rw [← heq, hnew, h.next]
      have := Scheduler.idOf_inj (by omega) (by omega) hsame
      omega
    refine ⟨?_, serial, Nat.lt_succ_of_lt hlt, heq⟩
    rw [Scheduler.find?_schedule, if_neg hold]
    exact hnone

theorem disarm (h : w.Numbered) {id : Int32} {serial : Nat}
    (hserial : w.scheduler.armed.find? id = some serial) : (w.disarming id serial).Numbered := by
  refine ⟨h.next, fun other n hother => ?_, fun other hother => ?_, ?_⟩
  · exact h.armed other n (Scheduler.armed_disarm hother).2
  · change (w.scheduler.disarm id serial).armed.find? other = none ∧ _
    rw [Scheduler.find?_disarm]
    rcases List.mem_cons.1 hother with hnow | hbefore
    · cases hnow
      exact ⟨if_pos rfl, serial, h.armed id serial hserial⟩
    · obtain ⟨hnone, hold⟩ := h.disarmed other hbefore
      rw [hnone]
      exact ⟨ite_self none, hold⟩
  · exact h.canceled.cons fun _ hm => nomatch hm

theorem exit (h : w.Numbered) (code : Int32) : (w.exit code).Numbered where
  next := h.next
  armed _ _ hid := nomatch hid
  disarmed id hid := ⟨rfl, (h.disarmed id hid).2⟩
  canceled := h.canceled

theorem enter (h : w.Numbered) {cause : Cause}
    (hcause : ∀ id, cause = .timer id → w.scheduler.isPending id = true) :
    (w.entering cause).Numbered where
  next := h.next
  armed := h.armed
  disarmed id hid := by
    rcases List.mem_cons.1 hid with hnow | hbefore
    · cases hnow
    · exact h.disarmed id hbefore
  canceled := by
    -- a timer that has been disarmed is not armed now, and only armed timers are fired
    refine h.canceled.cons fun id hm hdisarmed => ?_
    have hpending := hcause id (Milestone.entered.inj hm)
    rw [Scheduler.isPending_eq_false_iff.2 (h.disarmed id hdisarmed).1] at hpending
    cases hpending

end Numbered

def NumberedIfFew (_ : List Cause) (w : World σ) : Prop :=
  w.scheduler.nextSerial < UInt32.size → w.Numbered

end World

instance : RunInvariant (World.NumberedIfFew (σ := σ)) where
  aside h hw hfew := by
    rw [h.scheduler] at hfew
    have hs := h.scheduler
    exact (hw hfew).congr (by rw [hs]) (by rw [hs]) (by rw [hs]) h.timeline
  schedule _ delay hw hfew := (hw (Nat.lt_of_succ_lt hfew)).schedule delay hfew
  disarm hserial hw hfew := (hw hfew).disarm hserial
  exit _ code hw hfew := (hw hfew).exit code
  inner hcause _ hw hfew := (hw hfew).enter fun id h => absurd h (hcause.ne_timer id)
  leave hw hfew := (hw hfew).congr rfl rfl rfl rfl
  waits h hw hfew := by
    cases h with
    | advances millis => exact (hw hfew).congr rfl rfl rfl rfl
    | elapses millis => exact (hw hfew).congr rfl rfl rfl rfl
    | takes h => exact (hw hfew).congr rfl rfl rfl rfl
  run _ hw hfew := (hw hfew).enter fun _ h => nomatch h
  fire _ hpending hw hfew := (hw hfew).enter fun _ h => Cause.timer.inj h ▸ hpending

theorem numbered_fresh (o : HostOptions) (memory : Memory) (around : Surroundings) (own : σ) :
    (World.fresh o memory around own).Numbered := by
  have hscheduler := scheduler_fresh o memory around own
  have htimeline := timeline_fresh o memory around own
  refine ⟨?_, fun id serial hid => ?_, fun id hid => ?_, fun later id earlier hsplit => ?_⟩
  · rw [hscheduler]
    rfl
  · rw [hscheduler] at hid
    cases hid
  · rw [htimeline] at hid
    cases hid
  · rw [htimeline] at hsplit
    exact absurd hsplit.symm (List.append_ne_nil_of_right_ne_nil _ (List.cons_ne_nil _ _))

/-- The import that clears a timer has cleared it when it comes back without a fault. -/
theorem dispatch_clearTimeoutEvent {c : Calls σ} {sp : Nat} {w u : World σ}
    (h : Import.dispatch c .clearTimeoutEvent sp w = .ok () u) :
    ∃ id, w.memory.getI32 (sp + 8) = .ok id ∧ u = w.clearTimer id := by
  rcases Import.dispatch_cases c .clearTimeoutEvent sp w with
    ⟨hi, -⟩ | ⟨e, herror, -⟩ | ⟨operands, r, hview, hdecode, hperform⟩
  · cases hi
  · cases herror.symm.trans h
  · have hmemory : operands.memory = w.memory := by
      unfold Import.view at hview
      split at hview
      next => cases hview; rfl
      next => cases hview
    cases hid : w.memory.getI32 (sp + 8) with
    | error e =>
      simp only [Request.decode, hmemory, hid] at hdecode
      cases hdecode
    | ok id =>
      simp only [Request.decode, hmemory, hid] at hdecode
      cases hdecode
      rw [hperform] at h
      cases h
      exact ⟨id, rfl, rfl⟩

theorem disarmed_mem_clearTimer {w : World σ} {id : Int32} (h : w.scheduler.isPending id = true) :
    .disarmed id ∈ (w.clearTimer id).timeline := by
  obtain ⟨serial, hserial⟩ := Scheduler.isPending_iff.1 h
  rw [World.clearTimer_armed hserial]
  exact List.mem_cons_self

/-- Nothing is done for a timer: its report is answered without the guest being resumed, and it is
not fired again. -/
structure Program.Ignores (p : Program σ) (w : World σ) (id : Int32) : Prop where
  fire : w.exitCode? = none → p.fireTimer id w = .ok (.canceled id) w
  refire : ∀ left attempts, p.refire id left attempts w = .ok (.fired id attempts) w
  service : w.exitCode? = none → ∀ rest count, w.scheduler.reports = id :: rest →
    p.fireReports (count + 1) w =
      (do return TimerOutcome.canceled id :: (← p.fireReports count)) (Program.taken w rest)
  wait : w.exitCode? = none → ∀ rest horizon, w.scheduler.reports = id :: rest →
    p.nextTimer horizon w = .ok (.served (.canceled id)) (Program.taken w rest)

theorem Program.ignores_of_idle (p : Program σ) {w : World σ} {id : Int32}
    (h : w.scheduler.isPending id = false) : p.Ignores w id := by
  have hfire : ∀ rest, w.exitCode? = none →
      p.fireTimer id (taken w rest) = .ok (.canceled id) (taken w rest) :=
    fun rest hrun => p.fireTimer_idle (w := taken w rest) hrun h
  refine ⟨fun hrun => p.fireTimer_idle hrun h, p.refire_idle h, ?_, ?_⟩
  · intro hrun rest count hreports
    rw [p.fireReports_cons hrun hreports]
    exact bind_ok (hfire rest hrun)
  · intro hrun rest horizon hreports
    rw [p.nextTimer_cons hrun hreports]
    exact bind_ok (hfire rest hrun)

/-- In every situation of a session that has armed fewer than 2³² timers, no timer that has been
disarmed was fired since, and nothing is done for it when its report is served, when it is waited
for, when it is fired, or when it is just being fired again. An armed timer is disarmed by being
cleared, as the guest does by an import. -/
theorem canceled_never_fired (p : Program σ) (o : HostOptions) (memory : Memory)
    (around : Surroundings) (own : σ) {frames : List Cause} {control : Control σ} {w : World σ}
    (h : Situation p (.fresh o memory around own) frames control w)
    (hfew : w.scheduler.nextSerial < UInt32.size) :
    StaysCanceled w.timeline ∧
    (∀ id, .disarmed id ∈ w.timeline → w.scheduler.isPending id = false ∧ p.Ignores w id) ∧
    (∀ id, w.scheduler.isPending id = true → .disarmed id ∈ (w.clearTimer id).timeline) ∧
    ∀ c sp u, Import.dispatch c .clearTimeoutEvent sp w = .ok () u →
      ∃ id, w.memory.getI32 (sp + 8) = .ok id ∧ u = w.clearTimer id := by
  have hnumbered : w.Numbered :=
    h.holds (P := World.NumberedIfFew) (fun _ => numbered_fresh o memory around own) hfew
  refine ⟨hnumbered.canceled, fun id hid => ?_, fun id => disarmed_mem_clearTimer, fun c sp u => ?_⟩
  · have hidle : w.scheduler.isPending id = false :=
      Scheduler.isPending_eq_false_iff.2 (hnumbered.disarmed id hid).1
    exact ⟨hidle, p.ignores_of_idle hidle⟩
  · exact dispatch_clearTimeoutEvent

def clearing : Program Bool where
  stackPointer _ := 0
  run _ := .done ()
  resume := .observe fun w =>
    if w.own then .request .clearTimeoutEvent 8 fun _ => .done ()
    else .own true w.memory (.request .scheduleTimeoutEvent 0 fun _ => .done ())
  functions _ _ _ := .done (.returned .undefined)

def clearedInQueue : List HostCall :=
  [.edit (discard (Heap.newCallback 1)), .invoke narrowCallback .undefined [], .advance 0,
    .invoke narrowCallback .undefined []]

def afterClear : World Bool := clearing.session clearedInQueue narrow

theorem canceled_never_fired_queued :
    .disarmed 1 ∈ afterClear.timeline ∧ StaysCanceled afterClear.timeline ∧
      clearing.nextTimer 1 afterClear =
        .ok (.served (.canceled 1)) (Program.taken afterClear []) := by
  have hsituation : Situation clearing narrow [] .host afterClear :=
    Situation.session clearing narrow clearedInQueue
  have hfew : afterClear.scheduler.nextSerial < UInt32.size := by
    decide +kernel
  have hrun : afterClear.exitCode? = none := by
    decide +kernel
  have hdisarmed : .disarmed 1 ∈ afterClear.timeline := by
    decide +kernel
  have hreports : afterClear.scheduler.reports = [1] := by
    decide +kernel
  obtain ⟨hstays, hignores, -⟩ :=
    canceled_never_fired clearing .standard (.zeros 32) ⟨0, 0⟩ false hsituation hfew
  exact ⟨hdisarmed, hstays, (hignores 1 hdisarmed).2.wait hrun [] 1 hreports⟩

end TokenizerHost
