import TokenizerHost.Proofs.Memory.Bytes
import TokenizerHost.Proofs.Run.Canceled

set_option autoImplicit false

namespace TokenizerHost

open Host

variable {σ : Type}

namespace Assoc

variable {κ υ : Type} [DecidableEq κ]

theorem length_others {entries : List (κ × υ)} (hnodup : (entries.map (·.1)).Nodup) (k : κ) :
    (others entries k).length + (if (entries.lookup k).isSome then 1 else 0) = entries.length := by
  induction entries with
  | nil => rfl
  | cons e rest ih =>
    obtain ⟨j, v⟩ := e
    obtain ⟨hfresh, hrest⟩ := List.nodup_cons.1 hnodup
    by_cases hj : j = k
    · subst hj
      have hothers : others rest j = rest := by
        refine List.filter_eq_self.2 fun other hother => bne_iff_ne.2 fun heq => hfresh ?_
        exact List.mem_map.2 ⟨other, hother, heq⟩
      have hskip : others ((j, v) :: rest) j = others rest j :=
        List.filter_cons_of_neg (by rw [bne_self_eq_false]; exact Bool.false_ne_true)
      rw [hskip, hothers, List.lookup_cons_self]
      rfl
    · have hkeep : others ((j, v) :: rest) k = (j, v) :: others rest k :=
        List.filter_cons_of_pos (bne_iff_ne.2 hj)
      have hlookup : ((j, v) :: rest).lookup k = rest.lookup k := by
        rw [List.lookup_cons, beq_eq_false_iff_ne.2 (Ne.symm hj)]
      rw [hkeep, hlookup, List.length_cons, List.length_cons, Nat.add_right_comm, ih hrest]

theorem size_insert (m : Assoc κ υ) (k : κ) (v : υ) :
    (m.insert k v).size = if m.contains k then m.size else m.size + 1 := by
  have hlength := length_others m.nodup k
  change (others m.entries k).length + 1 = if (m.entries.lookup k).isSome then m.entries.length else _
  split at hlength
  next hsome =>
    rw [if_pos hsome]
    exact hlength
  next hnone =>
    rw [if_neg hnone]
    exact congrArg (· + 1) hlength

end Assoc

namespace Scheduler

structure IdsExact (s : Scheduler) : Prop where
  given : ∀ delay, (s.schedule delay).1 = idOf s.nextSerial ∧
    (s.schedule delay).2.armed.find? (idOf s.nextSerial) = some s.nextSerial
  /-- The next id is that of an armed timer exactly if the one armed 2³² armings ago is. -/
  pending : ∀ delay, s.isPending (s.schedule delay).1 = true ↔
    ∃ serial, serial + UInt32.size = s.nextSerial ∧ s.armed.find? (idOf serial) = some serial
  counted : ∀ delay, (s.schedule delay).2.pendingTimers =
    if s.isPending (s.schedule delay).1 then s.pendingTimers else s.pendingTimers + 1
  /-- The timer that an id stands for is the one that it was given for, or it has been given again
  since, 2³² armings later. -/
  concerned : ∀ given < s.nextSerial, ∀ serial, s.armed.find? (idOf given) = some serial →
    serial = given ∨ given + UInt32.size ≤ serial
  /-- What is cleared is the timer that the id stands for, and no other. -/
  cleared : ∀ id serial, s.armed.find? id = some serial →
    id = idOf serial ∧ s.clear id = (true, s.disarm id serial)
  asleep : ∀ t ∈ s.sleeping, t.id = idOf t.serial ∧ t.serial < s.nextSerial
  reported : ∀ id ∈ s.reports, ∃ serial < s.nextSerial, id = idOf serial

structure IdsUnique (s : Scheduler) : Prop where
  fresh : ∀ delay, s.isPending (s.schedule delay).1 = false
  counted : ∀ delay, (s.schedule delay).2.pendingTimers = s.pendingTimers + 1
  concerned : ∀ given < s.nextSerial, ∀ serial, s.armed.find? (idOf given) = some serial →
    serial = given
  reported : ∀ id ∈ s.reports, ∃! serial, serial < s.nextSerial ∧ id = idOf serial

section Exact

variable {s : Scheduler}

theorem pendingTimers_schedule (s : Scheduler) (delay : Int) :
    (s.schedule delay).2.pendingTimers =
      if s.isPending (s.schedule delay).1 then s.pendingTimers else s.pendingTimers + 1 :=
  Assoc.size_insert s.armed s.nextId s.nextSerial

theorem IdsIssued.exact (h : s.IdsIssued) : s.IdsExact where
  given delay := by
    refine ⟨h.next, ?_⟩
    rw [find?_schedule, if_pos h.next.symm]
  pending delay := by
    refine isPending_iff.trans ⟨fun ⟨serial, hfind⟩ => ?_, fun ⟨serial, hround, hfind⟩ => ?_⟩
    · exact ⟨serial, h.serial_of_next hfind, (h.armed _ serial hfind).1 ▸ hfind⟩
    · have hnext : s.nextId = idOf serial := by
        rw [h.next, ← hround]
        exact idOf_eq_iff.2 (Nat.add_mod_right _ _)
      exact ⟨serial, (congrArg s.armed.find? hnext).trans hfind⟩
  counted := s.pendingTimers_schedule
  concerned given hgiven serial hfind := by
    obtain ⟨hid, hlt, hle⟩ := h.armed _ serial hfind
    have hmod := idOf_eq_iff.1 hid
    rw [show UInt32.size = 4294967296 from rfl] at *
    omega
  cleared id serial hfind := ⟨(h.armed id serial hfind).1, clear_armed hfind⟩
  asleep := h.asleep
  reported := h.reported

/-- Before ids come round again, they identify timers. -/
theorem IdsIssued.unique (h : s.IdsIssued) (hfew : s.nextSerial < UInt32.size) : s.IdsUnique := by
  have hfresh : ∀ delay, s.isPending (s.schedule delay).1 = false := by
    intro delay
    refine Bool.eq_false_iff.2 fun hpending => ?_
    obtain ⟨serial, hround, -⟩ := (h.exact.pending delay).1 hpending
    omega
  have hinj : ∀ m < s.nextSerial, ∀ n < s.nextSerial, idOf m = idOf n → m = n := fun m hm n hn =>
    idOf_inj (Nat.lt_trans hm hfew) (Nat.lt_trans hn hfew)
  refine ⟨hfresh, fun delay => ?_, fun given hgiven serial hfind => ?_, fun id hid => ?_⟩
  · rw [pendingTimers_schedule, hfresh, if_neg Bool.false_ne_true]
  · obtain ⟨hid, hlt, -⟩ := h.armed _ serial hfind
    exact hinj serial hlt given hgiven hid.symm
  · obtain ⟨serial, hlt, heq⟩ := h.reported id hid
    refine ⟨serial, ⟨hlt, heq⟩, fun other hother => ?_⟩
    exact hinj other hother.1 serial hlt (hother.2.symm.trans heq)

end Exact

end Scheduler

def World.IdsIssued (_ : List Cause) (w : World σ) : Prop := w.scheduler.IdsIssued

instance : RunInvariant (World.IdsIssued (σ := σ)) where
  aside h hw := by
    rw [World.IdsIssued, h.scheduler]
    exact hw
  schedule _ delay hw := Scheduler.IdsIssued.schedule hw delay
  disarm _ hw := Scheduler.IdsIssued.disarm hw _ _
  exit _ code hw := Scheduler.IdsIssued.exit hw code
  inner _ _ hw := ⟨hw.next, hw.armed, hw.asleep, hw.reported⟩
  leave hw := ⟨hw.next, hw.armed, hw.asleep, hw.reported⟩
  waits h hw := Scheduler.IdsIssued.ages hw h.ages
  run _ hw := ⟨hw.next, hw.armed, hw.asleep, hw.reported⟩
  fire _ _ hw := ⟨hw.next, hw.armed, hw.asleep, hw.reported⟩

/-! ## Telling the guest an id -/

theorem Memory.setI32_cases (address : Nat) (n : Int32) (m : Memory) :
    (address + 4 ≤ m.size ∧ ∃ m', setI32 address n m = .ok () m') ∨
      (m.size < address + 4 ∧ ∃ e, setI32 address n m = .error e m) := by
  have hsize := size_word 4 n.toUInt32.toNat
  by_cases hin : address + 4 ≤ m.size
  · exact .inl ⟨hin, _, if_pos ((inBounds_eq ..).trans (decide_eq_true (hsize.symm ▸ hin)))⟩
  · refine .inr ⟨Nat.lt_of_not_le hin, _, if_neg fun hbounds => hin ?_⟩
    have hfits := of_decide_eq_true ((inBounds_eq ..).symm.trans hbounds)
    rwa [hsize] at hfits

/-- The import that arms a timer does so whatever comes of it. It tells the guest the id, or it faults
because the cell for the id is not in memory. -/
theorem dispatch_scheduleTimeoutEvent {c : Calls σ} {sp : Nat} {w : World σ}
    {operands : Request.View} {delay : Int} (hview : Import.view w = .ok operands w)
    (hdecode : Request.decode .scheduleTimeoutEvent operands sp = .ok (.schedule delay)) :
    (∃ u, Import.dispatch c .scheduleTimeoutEvent sp w = .ok () u ∧ sp + 20 ≤ w.memory.size ∧
      u.scheduler = (w.scheduler.schedule delay).2 ∧
      u.memory.getI32 (sp + 16) = .ok (w.scheduler.schedule delay).1) ∨
    (∃ e u, Import.dispatch c .scheduleTimeoutEvent sp w = .error e u ∧ w.memory.size < sp + 20 ∧
      u.scheduler = (w.scheduler.schedule delay).2 ∧ u.memory = w.memory) := by
  have hrun : w.exitCode? = none := (Import.view_ok hview).2.1
  have hdispatch : Import.dispatch c .scheduleTimeoutEvent sp w =
      onMemory (Memory.setI32 (sp + 16) (w.scheduler.schedule delay).1)
        { w with scheduler := (w.scheduler.schedule delay).2 } := by
    change (Import.view >>= fun operands =>
      Host.ofExcept (Request.decode .scheduleTimeoutEvent operands sp) >>= Import.perform c sp) w = _
    rw [bind_ok hview, hdecode]
    rfl
  rw [hdispatch]
  rcases Memory.setI32_cases (sp + 16) (w.scheduler.schedule delay).1 w.memory with
    ⟨hin, m, hset⟩ | ⟨hout, e, hset⟩
  · exact .inl ⟨_, onMemory_ok hrun hset, hin, rfl, Memory.getI32_setI32 hset⟩
  · exact .inr ⟨e, _, onMemory_error hrun hset, hout, rfl, rfl⟩

/-- In every situation of a session ids are exact, and they identify timers as long as fewer than 2³²
timers have been armed. A guest that asks for a timer is told its id unless the import faults, and
the timer is armed in both cases. -/
theorem ids_identify_timers (p : Program σ) (o : HostOptions) (memory : Memory)
    (around : Surroundings) (own : σ) {frames : List Cause} {control : Control σ} {w : World σ}
    (h : Situation p (.fresh o memory around own) frames control w) :
    w.scheduler.IdsExact ∧
    (w.scheduler.nextSerial < UInt32.size → w.scheduler.IdsUnique) ∧
    ∀ c sp operands delay, Import.view w = .ok operands w →
      Request.decode .scheduleTimeoutEvent operands sp = .ok (.schedule delay) →
      (∃ u, Import.dispatch c .scheduleTimeoutEvent sp w = .ok () u ∧ sp + 20 ≤ w.memory.size ∧
        u.scheduler = (w.scheduler.schedule delay).2 ∧
        u.memory.getI32 (sp + 16) = .ok (w.scheduler.schedule delay).1) ∨
      (∃ e u, Import.dispatch c .scheduleTimeoutEvent sp w = .error e u ∧
        w.memory.size < sp + 20 ∧ u.scheduler = (w.scheduler.schedule delay).2 ∧
        u.memory = w.memory) := by
  have hfresh : World.IdsIssued [] (.fresh o memory around own) := by
    rw [World.IdsIssued, scheduler_fresh]
    exact .new o.maxTimerRefires
  have hissued : w.scheduler.IdsIssued := h.holds (P := World.IdsIssued) hfresh
  exact ⟨hissued.exact, hissued.unique, fun c sp operands delay => dispatch_scheduleTimeoutEvent⟩

theorem ids_identify_timers_queued :
    (afterClear.scheduler.schedule 0).1 = 2 ∧ afterClear.scheduler.IdsUnique ∧
      afterClear.scheduler.isPending 2 = false := by
  have hid : (afterClear.scheduler.schedule 0).1 = 2 := by
    decide +kernel
  have hfew : afterClear.scheduler.nextSerial < UInt32.size := by
    decide +kernel
  have hsituation : Situation clearing narrow [] .host afterClear :=
    Situation.session clearing narrow clearedInQueue
  obtain ⟨-, hunique, -⟩ :=
    ids_identify_timers clearing .standard (.zeros 32) ⟨0, 0⟩ false hsituation
  have hfresh := (hunique hfew).fresh 0
  rw [hid] at hfresh
  exact ⟨hid, hunique hfew, hfresh⟩

namespace Scheduler

def scheduleTimes (s : Scheduler) : Nat → Scheduler
  | 0 => s
  | count + 1 => ((s.scheduleTimes count).schedule 0).2

theorem nextSerial_scheduleTimes (s : Scheduler) (count : Nat) :
    (s.scheduleTimes count).nextSerial = s.nextSerial + count := by
  induction count with
  | zero => rfl
  | succ count ih => exact congrArg (· + 1) ih

theorem IdsIssued.scheduleTimes {s : Scheduler} (h : s.IdsIssued) (count : Nat) :
    (s.scheduleTimes count).IdsIssued := by
  induction count with
  | zero => exact h
  | succ count ih => exact ih.schedule 0

/-- The first timers stay armed until ids come round again. -/
theorem find?_scheduleTimes {count serial : Nat} (hcount : count ≤ UInt32.size)
    (hserial : serial < count) :
    ((new 16).scheduleTimes count).armed.find? (idOf serial) = some serial := by
  induction count with
  | zero => cases hserial
  | succ count ih =>
    have hnext : ((new 16).scheduleTimes count).nextSerial = count :=
      (nextSerial_scheduleTimes _ _).trans (Nat.zero_add count)
    have hissued := (IdsIssued.new 16).scheduleTimes count
    rw [Scheduler.scheduleTimes, find?_schedule, hissued.next, hnext]
    rcases Nat.lt_succ_iff_lt_or_eq.1 hserial with hold | rfl
    · have hother : idOf serial ≠ idOf count := fun hsame =>
        Nat.ne_of_lt hold (idOf_inj (Nat.lt_trans hold hcount) hcount hsame)
      rw [if_neg hother]
      exact ih (Nat.le_of_lt hcount) hold
    · rw [if_pos rfl]

theorem pending_comes_round {count : Nat} (hcount : count = UInt32.size) :
    let s := (new 16).scheduleTimes count
    s.isPending (s.schedule 0).1 = true ∧ (s.schedule 0).2.pendingTimers = s.pendingTimers := by
  intro s
  have hissued : s.IdsIssued := (IdsIssued.new 16).scheduleTimes count
  have hnext : s.nextSerial = count := (nextSerial_scheduleTimes _ _).trans (Nat.zero_add count)
  have hfirst : s.armed.find? (idOf 0) = some 0 :=
    find?_scheduleTimes (Nat.le_of_eq hcount) (by rw [hcount]; decide)
  have hpending : s.isPending (s.schedule 0).1 = true :=
    (hissued.exact.pending 0).2 ⟨0, by rw [hnext, hcount]; rfl, hfirst⟩
  refine ⟨hpending, ?_⟩
  rw [pendingTimers_schedule, if_pos hpending]

end Scheduler

/-- After 2³² timers that stay armed the next one is given the id of an armed timer, and takes its
place. And a timer is armed though the guest cannot be told its id, where the cell for it is not in
memory. -/
theorem ids_come_round :
    (∃ s : Scheduler, s = (Scheduler.new 16).scheduleTimes UInt32.size ∧
      s.isPending (s.schedule 0).1 = true ∧
      (s.schedule 0).2.pendingTimers = s.pendingTimers) ∧
    ∃ e u, Import.dispatch clearing.calls .scheduleTimeoutEvent 16 narrow = .error e u ∧
      narrow.scheduler.isPending 1 = false ∧ u.scheduler.isPending 1 = true ∧
      u.memory.bytes = narrow.memory.bytes := by
  have hfaults : faultsIn
      (fun u => u.scheduler.isPending 1 && decide (u.memory.bytes = narrow.memory.bytes))
      (Import.dispatch clearing.calls .scheduleTimeoutEvent 16 narrow) = true := by
    decide +kernel
  have hidle : narrow.scheduler.isPending 1 = false := by
    decide +kernel
  obtain ⟨e, u, hdispatch, hkept⟩ := exists_of_faultsIn hfaults
  obtain ⟨hpending, hmemory⟩ := Bool.and_eq_true_iff.1 hkept
  exact ⟨⟨_, rfl, Scheduler.pending_comes_round rfl⟩, e, u, hdispatch, hidle, hpending,
    of_decide_eq_true hmemory⟩

end TokenizerHost
