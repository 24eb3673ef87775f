import TokenizerHost.Proofs.Run.Canceled

set_option autoImplicit false

/-!
# Reports are exact

What is done with a scheduler leaves a history, and a history says of each arming whether the timer is
still armed and whether it has reported (`ledger`): it reports when its deadline is over and it is
still armed, and not otherwise. The scheduler agrees with its history at every moment
(`Scheduler.Keeps`), so its queue holds the reports in the order of deadlines, and of arming where
deadlines are equal, less those that are gone.
-/

namespace TokenizerHost

inductive TimerEvent where
  | armed (id : Int32) (deadline : Nat)
  | cleared (id : Int32)
  | over (moment : Nat)
  | handed (id : Int32)
  | exited (dropped : List Int32)
  deriving DecidableEq, Repr

structure TimerRecord where
  timer : SleepingTimer
  armed : Bool
  reported : Bool
  deriving DecidableEq, Repr

namespace TimerRecord

def waiting (r : TimerRecord) : Bool := r.armed && !r.reported

/-- A timer that is still armed when its deadline is over reports. -/
def after (r : TimerRecord) : TimerEvent → TimerRecord
  | .over moment => { r with reported := r.reported || (r.armed && r.timer.deadline < moment) }
  | .cleared id => { r with armed := r.armed && r.timer.id != id }
  | .exited _ => { r with armed := false }
  | .armed .. => r
  | .handed _ => r

theorem timer_after (r : TimerRecord) (e : TimerEvent) : (r.after e).timer = r.timer := by
  cases e <;> rfl

end TimerRecord

namespace TimerEvent

def arms (serial : Nat) : TimerEvent → List TimerRecord
  | .armed id deadline => [⟨⟨id, deadline, serial⟩, true, false⟩]
  | _ => []

def record (records : List TimerRecord) (e : TimerEvent) : List TimerRecord :=
  records.map (·.after e) ++ e.arms records.length

def takes : TimerEvent → List Int32
  | .handed id => [id]
  | .exited dropped => dropped
  | _ => []

def ledger (history : List TimerEvent) : List TimerRecord := history.foldl record []

def timersOf (p : TimerRecord → Bool) (records : List TimerRecord) : List SleepingTimer :=
  (records.filter p).map (·.timer)

def armings (history : List TimerEvent) : List SleepingTimer := (ledger history).map (·.timer)

def pending (history : List TimerEvent) : List SleepingTimer := timersOf (·.armed) (ledger history)

def waiting (history : List TimerEvent) : List SleepingTimer := timersOf (·.waiting) (ledger history)

def reported (history : List TimerEvent) : List SleepingTimer :=
  timersOf (·.reported) (ledger history)

/-- The reports that have been handed out or dropped, in that order. -/
def gone (history : List TimerEvent) : List Int32 := history.flatMap takes

variable {p q : TimerRecord → Bool} {records : List TimerRecord} {history : List TimerEvent}

theorem mem_timersOf {t : SleepingTimer} :
    t ∈ timersOf p records ↔ ∃ r ∈ records, p r = true ∧ r.timer = t := by
  simp only [timersOf, List.mem_map, List.mem_filter, and_assoc]

theorem timersOf_append (p : TimerRecord → Bool) (first second : List TimerRecord) :
    timersOf p (first ++ second) = timersOf p first ++ timersOf p second := by
  simp only [timersOf, List.filter_append, List.map_append]

theorem timersOf_map_after (p : TimerRecord → Bool) (records : List TimerRecord) (e : TimerEvent) :
    timersOf p (records.map (·.after e)) = timersOf (fun r => p (r.after e)) records := by
  simp only [timersOf, List.filter_map, List.map_map]
  exact List.map_congr_left fun r _ => r.timer_after e

theorem timersOf_and (p : TimerRecord → Bool) (q : SleepingTimer → Bool)
    (records : List TimerRecord) :
    timersOf (fun r => p r && q r.timer) records = (timersOf p records).filter q := by
  rw [timersOf, timersOf, List.filter_map, List.filter_filter]
  simp only [Function.comp_apply, Bool.and_comm]

theorem timersOf_or (hdisjoint : ∀ r, p r = true → q r = false) (records : List TimerRecord) :
    (timersOf (fun r => p r || q r) records).Perm (timersOf p records ++ timersOf q records) := by
  induction records with
  | nil => exact .nil
  | cons r rest ih =>
    cases hp : p r with
    | true =>
      have hq := hdisjoint r hp
      simpa only [timersOf, List.filter_cons, hp, hq, Bool.true_or, if_true, Bool.false_eq_true,
        if_false, List.map_cons, List.cons_append] using ih.cons r.timer
    | false =>
      cases hq : q r with
      | true =>
        simp only [timersOf, List.filter_cons, hp, hq, Bool.or_true, if_true, Bool.false_eq_true,
          if_false, List.map_cons]
        exact (ih.cons r.timer).trans List.perm_middle.symm
      | false => simpa only [timersOf, List.filter_cons, hp, hq, Bool.or_self, Bool.false_eq_true,
          if_false] using ih

theorem ledger_append (history : List TimerEvent) (e : TimerEvent) :
    ledger (history ++ [e]) = (ledger history).map (·.after e) ++ e.arms (ledger history).length :=
  List.foldl_append

theorem gone_append (history : List TimerEvent) (e : TimerEvent) :
    gone (history ++ [e]) = gone history ++ e.takes := by
  simp only [gone, List.flatMap_append, List.flatMap_singleton]

theorem armings_append (history : List TimerEvent) (e : TimerEvent) :
    armings (history ++ [e]) = armings history ++ (e.arms (ledger history).length).map (·.timer) := by
  rw [armings, ledger_append, List.map_append, List.map_map]
  exact congrArg (· ++ _) (List.map_congr_left fun r _ => r.timer_after e)

theorem mem_armings_of_mem_timersOf {t : SleepingTimer} (h : t ∈ timersOf p (ledger history)) :
    t ∈ armings history := by
  obtain ⟨r, hr, -, rfl⟩ := mem_timersOf.1 h
  exact List.mem_map_of_mem hr

theorem timersOf_ledger_append (p : TimerRecord → Bool) (history : List TimerEvent)
    (e : TimerEvent) :
    timersOf p (ledger (history ++ [e])) = timersOf (fun r => p (r.after e)) (ledger history) ++
      timersOf p (e.arms (ledger history).length) := by
  rw [ledger_append, timersOf_append, timersOf_map_after]

/-! ### What an event changes -/

variable (history)

theorem armed_timers (id : Int32) (deadline : Nat) :
    let timer : SleepingTimer := ⟨id, deadline, (ledger history).length⟩
    pending (history ++ [.armed id deadline]) = pending history ++ [timer] ∧
      waiting (history ++ [.armed id deadline]) = waiting history ++ [timer] ∧
      reported (history ++ [.armed id deadline]) = reported history := by
  simp only [pending, waiting, reported, timersOf_ledger_append]
  exact ⟨rfl, rfl, List.append_nil _⟩

theorem cleared_timers (id : Int32) :
    pending (history ++ [.cleared id]) = (pending history).filter (·.id != id) ∧
      waiting (history ++ [.cleared id]) = (waiting history).filter (·.id != id) ∧
      reported (history ++ [.cleared id]) = reported history := by
  have hwaiting : (fun r : TimerRecord => (r.after (.cleared id)).waiting) =
      fun r => r.waiting && r.timer.id != id := by
    funext r
    simp only [TimerRecord.waiting, TimerRecord.after, Bool.and_right_comm]
  simp only [pending, waiting, reported, timersOf_ledger_append, hwaiting, ← timersOf_and]
  exact ⟨List.append_nil _, List.append_nil _, List.append_nil _⟩

theorem exited_timers (dropped : List Int32) :
    pending (history ++ [.exited dropped]) = [] ∧ waiting (history ++ [.exited dropped]) = [] ∧
      reported (history ++ [.exited dropped]) = reported history := by
  have hnone : timersOf (fun _ => false) (ledger history) = [] :=
    List.map_eq_nil_iff.2 (List.filter_eq_nil_iff.2 fun _ _ => Bool.false_ne_true)
  simp only [pending, waiting, reported, timersOf_ledger_append, TimerRecord.waiting,
    TimerRecord.after, Bool.false_and, hnone]
  exact ⟨rfl, rfl, List.append_nil _⟩

theorem handed_timers (id : Int32) :
    pending (history ++ [.handed id]) = pending history ∧
      waiting (history ++ [.handed id]) = waiting history ∧
      reported (history ++ [.handed id]) = reported history := by
  simp only [pending, waiting, reported, timersOf_ledger_append]
  exact ⟨List.append_nil _, List.append_nil _, List.append_nil _⟩

theorem over_timers (moment : Nat) :
    pending (history ++ [.over moment]) = pending history ∧
      waiting (history ++ [.over moment]) =
        ((waiting history).filter fun t => !decide (t.deadline < moment)) ∧
      (reported (history ++ [.over moment])).Perm
        (reported history ++ (waiting history).filter fun t => t.deadline < moment) := by
  have hwaiting : (fun r : TimerRecord => (r.after (.over moment)).waiting) =
      fun r => r.waiting && !decide (r.timer.deadline < moment) := by
    funext r
    rcases r with ⟨timer, _ | _, _ | _⟩
    all_goals simp only [TimerRecord.waiting, TimerRecord.after, Bool.false_and, Bool.true_and,
      Bool.false_or, Bool.true_or, Bool.not_true, Bool.not_false, Bool.and_false]
  have hreported : (fun r : TimerRecord => (r.after (.over moment)).reported) =
      fun r => r.reported || (r.waiting && decide (r.timer.deadline < moment)) := by
    funext r
    rcases r with ⟨timer, _ | _, _ | _⟩
    all_goals simp only [TimerRecord.waiting, TimerRecord.after, Bool.false_and, Bool.true_and,
      Bool.false_or, Bool.true_or, Bool.not_true, Bool.not_false]
  have hdisjoint : ∀ r : TimerRecord, r.reported = true →
      (r.waiting && decide (r.timer.deadline < moment)) = false := by
    intro r hr
    simp only [TimerRecord.waiting, hr, Bool.not_true, Bool.and_false, Bool.false_and]
  simp only [pending, waiting, reported, timersOf_ledger_append, hwaiting, hreported, ← timersOf_and]
  refine ⟨List.append_nil _, List.append_nil _, ?_⟩
  exact (List.append_nil _) ▸ timersOf_or hdisjoint _

end TimerEvent

def SleepingTimer.Before (t u : SleepingTimer) : Prop :=
  t.deadline < u.deadline ∨ t.deadline = u.deadline ∧ t.serial < u.serial

namespace Scheduler

open TimerEvent

variable {s : Scheduler} {sleeping : List SleepingTimer} {history : List TimerEvent}

/-! ## Sleeping timers in order -/

theorem perm_insertSleeping (t : SleepingTimer) (sleeping : List SleepingTimer) :
    (insertSleeping t sleeping).Perm (t :: sleeping) := by
  induction sleeping with
  | nil => exact .refl _
  | cons u rest ih =>
    rw [insertSleeping]
    split
    · exact (ih.cons u).trans (.swap t u rest)
    · exact .refl _

theorem pairwise_insertSleeping {t : SleepingTimer}
    (hsorted : sleeping.Pairwise SleepingTimer.Before) (hlast : ∀ u ∈ sleeping, u.serial < t.serial) :
    (insertSleeping t sleeping).Pairwise SleepingTimer.Before := by
  induction sleeping with
  | nil => exact List.pairwise_singleton _ _
  | cons u rest ih =>
    obtain ⟨hfirst, hrest⟩ := List.pairwise_cons.1 hsorted
    obtain ⟨hu, hlater⟩ := List.forall_mem_cons.1 hlast
    rw [insertSleeping]
    split
    next hle =>
      refine List.pairwise_cons.2 ⟨fun v hv => ?_, ih hrest hlater⟩
      rcases mem_insertSleeping.1 hv with rfl | hv
      · rcases Nat.lt_or_eq_of_le hle with hlt | heq
        · exact .inl hlt
        · exact .inr ⟨heq, hu⟩
      · exact hfirst v hv
    next hgt =>
      refine List.pairwise_cons.2 ⟨fun v hv => .inl ?_, hsorted⟩
      rcases List.mem_cons.1 hv with rfl | hv
      · exact Nat.lt_of_not_le hgt
      · rcases hfirst v hv with hlt | ⟨heq, -⟩
        · omega
        · omega

/-- The timers whose deadline is over come first. -/
theorem split_sleeping (hsorted : sleeping.Pairwise SleepingTimer.Before) (moment : Nat) :
    (sleeping.takeWhile fun t => t.deadline < moment) =
        (sleeping.filter fun t => t.deadline < moment) ∧
      (sleeping.dropWhile fun t => t.deadline < moment) =
        sleeping.filter fun t => !decide (t.deadline < moment) := by
  induction sleeping with
  | nil => exact ⟨rfl, rfl⟩
  | cons t rest ih =>
    obtain ⟨hfirst, hrest⟩ := List.pairwise_cons.1 hsorted
    by_cases ht : t.deadline < moment
    · obtain ⟨htake, hdrop⟩ := ih hrest
      simp only [List.takeWhile_cons, List.dropWhile_cons, List.filter_cons, decide_eq_true ht,
        if_true, Bool.not_true, Bool.false_eq_true, if_false, htake, hdrop, and_self]
    · have hlate : ∀ u ∈ rest, ¬ u.deadline < moment := by
        intro u hu
        rcases hfirst u hu with hlt | ⟨heq, -⟩
        · omega
        · omega
      have hnone : (rest.filter fun u => u.deadline < moment) = [] :=
        List.filter_eq_nil_iff.2 fun u hu => by simpa using hlate u hu
      have hall : (rest.filter fun u => !decide (u.deadline < moment)) = rest :=
        List.filter_eq_self.2 fun u hu => by simpa using hlate u hu
      simp only [List.takeWhile_cons, List.dropWhile_cons, List.filter_cons, decide_eq_false ht,
        Bool.false_eq_true, if_false, Bool.not_false, if_true, hnone, hall, and_self]

/-- The clock goes to a time, and the timers report whose deadline lies before a moment. -/
def wake (s : Scheduler) (now moment : Nat) : Scheduler :=
  { s with
    now
    sleeping := s.sleeping.filter fun t => !decide (t.deadline < moment)
    reports := s.reports ++ (s.sleeping.filter fun t => t.deadline < moment).map (·.id) }

theorem elapse_eq (hsorted : s.sleeping.Pairwise SleepingTimer.Before) (millis : Nat) :
    s.elapse millis = s.wake (s.now + millis) (s.now + millis) := by
  obtain ⟨htake, hdrop⟩ := split_sleeping hsorted (s.now + millis)
  rw [elapse, wake, htake, hdrop]

theorem advance_eq (hsorted : s.sleeping.Pairwise SleepingTimer.Before) (millis : Nat) :
    s.advance millis = s.wake (s.now + millis) (s.now + millis + 1) := by
  obtain ⟨htake, hdrop⟩ := split_sleeping hsorted (s.now + millis + 1)
  have hdue : (fun t : SleepingTimer => decide (t.deadline ≤ s.now + millis)) =
      fun t => decide (t.deadline < s.now + millis + 1) :=
    funext fun t => decide_eq_decide.2 Nat.lt_succ_iff.symm
  rw [advance, wake, hdue, htake, hdrop]

/-! ## Agreement with the history -/

structure Numbers (s : Scheduler) (history : List TimerEvent) : Prop where
  next : s.nextId = idOf s.nextSerial
  serials : (armings history).map (·.serial) = List.range s.nextSerial
  ids : ∀ t ∈ armings history, t.id = idOf t.serial

/-- What has reported has entered the queue in order, and before everything that is still to come. -/
def Queues (s : Scheduler) (history : List TimerEvent) : Prop :=
  ∃ entered : List SleepingTimer, entered.Perm (reported history) ∧
    entered.Pairwise SleepingTimer.Before ∧ entered.map (·.id) = gone history ++ s.reports ∧
    ∀ t ∈ entered, t.deadline ≤ s.now ∧ ∀ u ∈ s.sleeping, t.Before u

/-- Timers are armed, asleep and reported as the history has it, and reports come in their order. -/
structure Keeps (s : Scheduler) (history : List TimerEvent) : Prop extends s.Numbers history where
  armed : ∀ id serial, s.armed.find? id = some serial ↔
    ∃ t ∈ pending history, t.id = id ∧ t.serial = serial
  asleep : s.sleeping.Perm (waiting history)
  sorted : s.sleeping.Pairwise SleepingTimer.Before
  ahead : ∀ t ∈ s.sleeping, s.now ≤ t.deadline
  queue : s.Queues history
  handed : ∀ earlier id later, history = earlier ++ .handed id :: later →
    ∃ t ∈ reported earlier, t.id = id

namespace Numbers

variable {s' : Scheduler} {t u : SleepingTimer}

theorem length_ledger (h : s.Numbers history) : (ledger history).length = s.nextSerial := by
  have hlength := congrArg List.length h.serials
  rwa [List.length_map, List.length_range, armings, List.length_map] at hlength

theorem serial_lt (h : s.Numbers history) (ht : t ∈ armings history) : t.serial < s.nextSerial := by
  have hmem : t.serial ∈ (armings history).map (·.serial) := List.mem_map_of_mem ht
  rwa [h.serials, List.mem_range] at hmem

theorem id_eq_iff (h : s.Numbers history) (hfew : s.nextSerial < UInt32.size)
    (ht : t ∈ armings history) (hu : u ∈ armings history) : t.id = u.id ↔ t.serial = u.serial := by
  have htlt := h.serial_lt ht
  have hult := h.serial_lt hu
  rw [h.ids t ht, h.ids u hu]
  exact ⟨idOf_inj (by omega) (by omega), congrArg idOf⟩

theorem nodup_ids (h : s.Numbers history) (hfew : s.nextSerial < UInt32.size) :
    ((armings history).map (·.id)).Nodup := by
  have hserials : ((armings history).map (·.serial)).Nodup := h.serials ▸ List.nodup_range
  refine List.pairwise_map.2 ((List.pairwise_map.1 hserials).imp_of_mem fun ht hu hne hid => ?_)
  exact hne ((h.id_eq_iff hfew ht hu).1 hid)

theorem aside (h : s.Numbers history) {e : TimerEvent} (he : ∀ serial, e.arms serial = [])
    (hid : s'.nextId = s.nextId) (hserial : s'.nextSerial = s.nextSerial) :
    s'.Numbers (history ++ [e]) := by
  have harmings : armings (history ++ [e]) = armings history := by
    rw [armings_append, he, List.map_nil, List.append_nil]
  refine ⟨?_, ?_, ?_⟩
  · rw [hid, hserial]
    exact h.next
  · rw [harmings, hserial]
    exact h.serials
  · rw [harmings]
    exact h.ids

theorem schedule (h : s.Numbers history) (delay : Int) (deadline : Nat) :
    (s.schedule delay).2.Numbers (history ++ [.armed s.nextId deadline]) := by
  have harmings := armings_append history (.armed s.nextId deadline)
  refine ⟨?_, ?_, ?_⟩
  · change s.nextId + 1 = idOf (s.nextSerial + 1)
    rw [idOf_succ, h.next]
  · change _ = List.range (s.nextSerial + 1)
    rw [harmings, List.map_append, h.serials, List.range_succ, h.length_ledger]
    rfl
  · intro t ht
    rw [harmings, h.length_ledger] at ht
    rcases List.mem_append.1 ht with hold | hnew
    · exact h.ids t hold
    · rw [List.mem_singleton.1 hnew]
      exact h.next

end Numbers

/-- As long as nothing reports, reports only leave the queue, and timers go to sleep behind the rest. -/
theorem Queues.aside (h : s.Queues history) {s' : Scheduler} {history' : List TimerEvent}
    (hreported : reported history' = reported history)
    (hgone : gone history' ++ s'.reports = gone history ++ s.reports) (hnow : s'.now = s.now)
    (hsleeping : ∀ u ∈ s'.sleeping, u ∈ s.sleeping ∨
      s.now ≤ u.deadline ∧ ∀ t ∈ armings history, t.serial < u.serial) : s'.Queues history' := by
  obtain ⟨entered, hperm, hsorted, hids, hbefore⟩ := h
  refine ⟨entered, hperm.trans (.of_eq hreported.symm), hsorted, hids.trans hgone.symm,
    fun t ht => ?_⟩
  obtain ⟨hdeadline, hahead⟩ := hbefore t ht
  refine ⟨by omega, fun u hu => ?_⟩
  rcases hsleeping u hu with hold | ⟨hlate, hlast⟩
  · exact hahead u hold
  · have hlt := hlast t (mem_armings_of_mem_timersOf (hperm.mem_iff.1 ht))
    simp only [SleepingTimer.Before]
    omega

theorem keeps_new (maxRefires : Nat) : (Scheduler.new maxRefires).Keeps [] where
  next := rfl
  serials := rfl
  ids := nofun
  armed _ _ := ⟨nofun, fun ⟨_, ht, _⟩ => nomatch ht⟩
  asleep := .nil
  sorted := .nil
  ahead := nofun
  queue := ⟨[], .nil, .nil, rfl, nofun⟩
  handed earlier _ _ h := by cases earlier <;> cases h

namespace Keeps

/-- What has been handed out stays as it was, and an event adds at most one report to it. -/
theorem handed_append (h : s.Keeps history) {e : TimerEvent}
    (he : ∀ id, e = .handed id → ∃ t ∈ reported history, t.id = id) :
    ∀ earlier id later, history ++ [e] = earlier ++ .handed id :: later →
      ∃ t ∈ reported earlier, t.id = id := by
  intro earlier id later hsplit
  rcases List.eq_nil_or_concat later with rfl | ⟨later, last, rfl⟩
  · obtain ⟨rfl, hlast⟩ := List.append_inj' hsplit rfl
    exact he id (List.cons.inj hlast).1
  · rw [List.concat_eq_append, ← List.cons_append, ← List.append_assoc] at hsplit
    exact h.handed earlier id later (List.append_inj_left' hsplit rfl)

theorem schedule (h : s.Keeps history) (delay : Int) (hfew : s.nextSerial + 1 < UInt32.size) :
    (s.schedule delay).2.Keeps
      (history ++ [.armed (s.schedule delay).1 (s.now + (max delay 0).toNat)]) := by
  have hdelay : (max delay 0).toNat = delay.toNat := by omega
  obtain ⟨hpending, hwaiting, hreported⟩ :=
    armed_timers history s.nextId (s.now + (max delay 0).toNat)
  rw [h.length_ledger, hdelay] at hpending hwaiting
  rw [hdelay] at hreported ⊢
  change (s.schedule delay).2.Keeps (history ++ [.armed s.nextId (s.now + delay.toNat)])
  have hasleep : ∀ t ∈ s.sleeping, t ∈ armings history := fun t ht =>
    mem_armings_of_mem_timersOf (h.asleep.mem_iff.1 ht)
  refine ⟨h.toNumbers.schedule delay _, fun id serial => ?_, ?_, ?_, fun t ht => ?_, ?_,
    h.handed_append nofun⟩
  · rw [find?_schedule, hpending]
    split
    next hid =>
      constructor
      · intro heq
        cases heq
        exact ⟨_, List.mem_append_right _ List.mem_cons_self, hid.symm, rfl⟩
      · rintro ⟨t, ht, htid, hserial⟩
        rcases List.mem_append.1 ht with hold | hnew
        -- no earlier arming has this id
        · have hmem : t ∈ armings history := mem_armings_of_mem_timersOf hold
          have hlt := h.serial_lt hmem
          have hsame : idOf t.serial = idOf s.nextSerial := by rw [← h.ids t hmem, htid, hid, h.next]
          have := idOf_inj (by omega) (by omega) hsame
          omega
        · rw [← hserial, List.mem_singleton.1 hnew]
    next hid =>
      rw [h.armed]
      refine exists_congr fun t => and_congr_left fun hfound => ?_
      rw [List.mem_append, List.mem_singleton]
      refine ⟨.inl, fun hmem => hmem.resolve_right fun hnew => hid ?_⟩
      rw [← hfound.1, hnew]
  · refine (perm_insertSleeping _ s.sleeping).trans ((h.asleep.cons _).trans ?_)
    exact (List.perm_append_singleton _ _).symm.trans (.of_eq hwaiting.symm)
  · exact pairwise_insertSleeping h.sorted fun t ht => h.serial_lt (hasleep t ht)
  · rcases mem_insertSleeping.1 ht with rfl | hold
    · exact Nat.le_add_right _ _
    · exact h.ahead t hold
  · refine h.queue.aside hreported ?_ rfl fun u hu => ?_
    · exact congrArg (· ++ s.reports) ((gone_append _ _).trans (List.append_nil _))
    · rcases mem_insertSleeping.1 hu with rfl | hold
      · exact .inr ⟨Nat.le_add_right _ _, fun t => h.serial_lt⟩
      · exact .inl hold

/-- A timer that sleeps is armed. -/
theorem mem_pending (h : s.Keeps history) {t : SleepingTimer} (ht : t ∈ s.sleeping) :
    t ∈ pending history := by
  obtain ⟨r, hr, hwaiting, rfl⟩ := mem_timersOf.1 (h.asleep.mem_iff.1 ht)
  rw [TimerRecord.waiting, Bool.and_eq_true] at hwaiting
  exact mem_timersOf.2 ⟨r, hr, hwaiting.1, rfl⟩

/-- Clearing takes every arming of the id back, wherever its timer is. -/
theorem clear_eq (h : s.Keeps history) (id : Int32) (hfew : s.nextSerial < UInt32.size) :
    ∃ armed : Assoc Int32 Nat, (s.clear id).2 = { s with
        armed
        sleeping := s.sleeping.filter fun t => t.id != id } ∧
      ∀ other, armed.find? other = if other = id then none else s.armed.find? other := by
  cases hfind : s.armed.find? id with
  | none =>
    have hkeep : (s.sleeping.filter fun t => t.id != id) = s.sleeping := by
      refine List.filter_eq_self.2 fun t ht => bne_iff_ne.2 fun htid => ?_
      rw [(h.armed id t.serial).2 ⟨t, h.mem_pending ht, htid, rfl⟩] at hfind
      cases hfind
    refine ⟨s.armed, ?_, fun other => ?_⟩
    · rw [hkeep]
      simp only [Scheduler.clear, hfind]
    · split
      next heq => rw [heq, hfind]
      next => rfl
  | some serial =>
    obtain ⟨t, ht, rfl, rfl⟩ := (h.armed id serial).1 hfind
    have hsame : (s.sleeping.filter fun u => u.serial != t.serial) =
        s.sleeping.filter fun u => u.id != t.id := by
      refine List.filter_congr fun u hu => ?_
      have hiff := h.id_eq_iff hfew (mem_armings_of_mem_timersOf (h.mem_pending hu))
        (mem_armings_of_mem_timersOf ht)
      rw [Bool.eq_iff_iff, bne_iff_ne, bne_iff_ne, ne_eq, ne_eq, hiff]
    refine ⟨s.armed.erase t.id, ?_, fun other => Assoc.find?_erase _ _ _⟩
    simp only [Scheduler.clear, hfind, hsame]

theorem clear (h : s.Keeps history) (id : Int32) (hfew : s.nextSerial < UInt32.size) :
    (s.clear id).2.Keeps (history ++ [.cleared id]) := by
  obtain ⟨hpending, hwaiting, hreported⟩ := cleared_timers history id
  obtain ⟨armed, heq, harmed⟩ := h.clear_eq id hfew
  rw [heq]
  refine ⟨h.toNumbers.aside (fun _ => rfl) rfl rfl, fun other serial => ?_, ?_, h.sorted.filter _,
    fun t ht => h.ahead t (List.mem_filter.1 ht).1, ?_, h.handed_append nofun⟩
  · rw [harmed, hpending]
    simp only [List.mem_filter, bne_iff_ne]
    split
    next hother =>
      constructor
      · intro heq
        cases heq
      · rintro ⟨t, ht, htid, -⟩
        exact absurd (htid.trans hother) ht.2
    next hother =>
      rw [h.armed]
      refine exists_congr fun t => and_congr_left fun hfound => ?_
      exact ⟨fun ht => ⟨ht, hfound.1 ▸ hother⟩, And.left⟩
  · rw [hwaiting]
    exact h.asleep.filter _
  · refine h.queue.aside hreported ?_ rfl fun u hu => .inl (List.mem_filter.1 hu).1
    exact congrArg (· ++ s.reports) ((gone_append _ _).trans (List.append_nil _))

theorem wake (h : s.Keeps history) {now moment : Nat} (hnow : s.now ≤ now)
    (hmoment : moment = now ∨ moment = now + 1) :
    (s.wake now moment).Keeps (history ++ [.over moment]) := by
  obtain ⟨hpending, hwaiting, hreported⟩ := over_timers history moment
  obtain ⟨entered, hperm, hsorted, hids, hbefore⟩ := h.queue
  refine ⟨h.toNumbers.aside (fun _ => rfl) rfl rfl, ?_, ?_, h.sorted.filter _, fun t ht => ?_, ?_,
    h.handed_append nofun⟩
  · rw [hpending]
    exact h.armed
  · rw [hwaiting]
    exact h.asleep.filter _
  · have hlate : ¬ t.deadline < moment := by simpa using (List.mem_filter.1 ht).2
    change now ≤ t.deadline
    omega
  · let due := s.sleeping.filter fun t => t.deadline < moment
    refine ⟨entered ++ due, ?_, ?_, ?_, fun t ht => ?_⟩
    · exact (hperm.append (h.asleep.filter _)).trans hreported.symm
    · refine List.pairwise_append.2 ⟨hsorted, h.sorted.filter _, fun t ht u hu => ?_⟩
      exact (hbefore t ht).2 u (List.mem_filter.1 hu).1
    · rw [List.map_append, hids, gone_append, takes, List.append_nil, List.append_assoc]
      · rfl
      all_goals nofun
    · change t.deadline ≤ now ∧ ∀ u ∈ s.sleeping.filter _, t.Before u
      rcases List.mem_append.1 ht with hold | hdue
      · obtain ⟨hdeadline, hahead⟩ := hbefore t hold
        exact ⟨by omega, fun u hu => hahead u (List.mem_filter.1 hu).1⟩
      · have hlt : t.deadline < moment := by simpa using (List.mem_filter.1 hdue).2
        refine ⟨by omega, fun u hu => .inl ?_⟩
        have hlate : ¬ u.deadline < moment := by simpa using (List.mem_filter.1 hu).2
        omega

theorem take (h : s.Keeps history) {id : Int32} {rest : List Int32}
    (hreports : s.reports = id :: rest) :
    Keeps { s with reports := rest } (history ++ [.handed id]) := by
  obtain ⟨hpending, hwaiting, hreported⟩ := handed_timers history id
  refine ⟨h.toNumbers.aside (fun _ => rfl) rfl rfl, ?_, ?_, h.sorted, h.ahead, ?_,
    h.handed_append fun other hother => ?_⟩
  · rw [hpending]
    exact h.armed
  · rw [hwaiting]
    exact h.asleep
  · refine h.queue.aside hreported ?_ rfl fun _ => .inl
    rw [hreports, gone_append, takes, List.append_assoc, List.singleton_append]
  · cases hother
    -- what is handed out was in the queue, so it has entered it
    obtain ⟨entered, hperm, -, hids, -⟩ := h.queue
    have hmem : id ∈ entered.map (·.id) := by
      rw [hids, hreports]
      exact List.mem_append_right _ List.mem_cons_self
    obtain ⟨t, ht, htid⟩ := List.mem_map.1 hmem
    exact ⟨t, hperm.mem_iff.1 ht, htid⟩

theorem exit (h : s.Keeps history) (code : Int32) :
    (s.exit code).Keeps (history ++ [.exited s.reports]) := by
  obtain ⟨hpending, hwaiting, hreported⟩ := exited_timers history s.reports
  have hnobody : (s.exit code).sleeping = [] := by
    refine List.eq_nil_iff_forall_not_mem.2 fun t ht => ?_
    obtain ⟨hold, hunarmed⟩ := mem_exit.1 ht
    exact hunarmed ((h.armed t.id t.serial).2 ⟨t, h.mem_pending hold, rfl, rfl⟩)
  refine ⟨h.toNumbers.aside (fun _ => rfl) rfl rfl, fun id serial => ?_, ?_, ?_, ?_, ?_,
    h.handed_append nofun⟩
  · rw [hpending]
    exact ⟨nofun, fun ⟨_, ht, _⟩ => nomatch ht⟩
  · rw [hwaiting, hnobody]
  · rw [hnobody]
    exact .nil
  · rw [hnobody]
    exact nofun
  · refine h.queue.aside hreported ?_ rfl fun u hu => ?_
    · rw [gone_append]
      exact List.append_nil _
    · rw [hnobody] at hu
      cases hu

theorem pending_eq_nil (h : s.Keeps history) (hnone : s.pendingTimers = 0) : pending history = [] := by
  refine List.eq_nil_iff_forall_not_mem.2 fun t ht => ?_
  have hfind := (h.armed t.id t.serial).2 ⟨t, ht, rfl, rfl⟩
  rw [Assoc.find?, List.length_eq_zero_iff.1 hnone] at hfind
  cases hfind

/-- Who waits is given the next report; otherwise none is to come, or none before the horizon. -/
theorem awaitReport_cases (h : s.Keeps history) (horizon : Nat) :
    (∃ id rest, s.reports = id :: rest ∧
      s.awaitReport horizon = (.report id, { s with reports := rest })) ∨
    (∃ moment id rest, s.reports = [] ∧ s.now ≤ moment ∧
      (s.wake moment (moment + 1)).reports = id :: rest ∧
      s.awaitReport horizon = (.report id, { s.wake moment (moment + 1) with reports := rest })) ∨
    (s.reports = [] ∧ pending history = [] ∧ s.awaitReport horizon = (.idle, s)) ∨
    (s.reports = [] ∧ (∀ t ∈ s.sleeping, s.now + horizon ≤ t.deadline) ∧
      s.awaitReport horizon = (.expired, s.wake (s.now + horizon) (s.now + horizon))) := by
  cases hreports : s.reports with
  | cons id rest =>
    refine .inl ⟨id, rest, rfl, ?_⟩
    rw [awaitReport, takeReport_cons hreports]
  | nil =>
    refine .inr ?_
    rw [awaitReport, takeReport_nil hreports]
    dsimp only
    by_cases hnone : s.pendingTimers = 0
    · exact .inr (.inl ⟨rfl, h.pending_eq_nil hnone, if_pos hnone⟩)
    · rw [if_neg hnone]
      cases hsleeping : s.sleeping with
      | nil =>
        refine .inr (.inr ⟨rfl, fun t ht => ?_, by rw [elapse_eq h.sorted, List.head?_nil]⟩)
        cases ht
      | cons first rest =>
        have hahead : s.now ≤ first.deadline := h.ahead first (hsleeping ▸ List.mem_cons_self)
        rw [List.head?_cons]
        dsimp only
        by_cases hdue : first.deadline < s.now + horizon
        · have hnow : s.now + (first.deadline - s.now) = first.deadline := by omega
          have hwoken : (s.wake first.deadline (first.deadline + 1)).reports = first.id ::
              (rest.filter fun t => t.deadline < first.deadline + 1).map (·.id) := by
            simp only [Scheduler.wake, hreports, hsleeping, List.nil_append, List.filter_cons,
              decide_eq_true (Nat.lt_succ_self _), if_true, List.map_cons]
          refine .inl ⟨first.deadline, first.id, _, rfl, hahead, hwoken, ?_⟩
          rw [if_pos hdue, advance_eq h.sorted, hnow, takeReport_cons hwoken]
        · refine .inr (.inr ⟨rfl, fun t ht => ?_, by rw [if_neg hdue, elapse_eq h.sorted]⟩)
          have hsorted := h.sorted
          rw [hsleeping, List.pairwise_cons] at hsorted
          rcases List.mem_cons.1 ht with rfl | hlater
          · omega
          · rcases hsorted.1 t hlater with hlt | ⟨heq, -⟩
            · omega
            · omega

end Keeps

/-- What a history says about a scheduler. Each arming has an id of its own. The reports that have
entered the queue are those of the timers that were still armed when their deadline was over, each
once, ordered by deadline and then by arming, and they leave the queue in that order. What has been
handed out had reported by then. Whoever asks is given the next report if there is one; a wait ends
without one only when nothing is armed or nothing is due before its horizon. An exit leaves nothing. -/
structure Exact (s : Scheduler) (history : List TimerEvent) : Prop where
  distinct : ((armings history).map (·.id)).Nodup
  reports : ∃ entered : List SleepingTimer, entered.Perm (reported history) ∧
    entered.Pairwise SleepingTimer.Before ∧ entered.map (·.id) = gone history ++ s.reports
  handed : ∀ earlier id later, history = earlier ++ .handed id :: later →
    ∃ t ∈ reported earlier, t.id = id
  next : ∀ id rest, s.reports = id :: rest → s.takeReport.1 = some id ∧
    ∀ horizon, (s.awaitReport horizon).1 = .report id
  idle : ∀ horizon, (s.awaitReport horizon).1 = .idle → s.reports = [] ∧ pending history = []
  expired : ∀ horizon, (s.awaitReport horizon).1 = .expired →
    s.reports = [] ∧ ∀ t ∈ waiting history, s.now + horizon ≤ t.deadline
  pending : ∀ id, s.isPending id = true ↔ ∃ t ∈ pending history, t.id = id
  exit : ∀ code, (s.exit code).reports = [] ∧ (s.exit code).pendingTimers = 0

theorem Keeps.exact (h : s.Keeps history) (hfew : s.nextSerial < UInt32.size) : s.Exact history where
  distinct := h.nodup_ids hfew
  reports := by
    obtain ⟨entered, hperm, hsorted, hids, -⟩ := h.queue
    exact ⟨entered, hperm, hsorted, hids⟩
  handed := h.handed
  next id rest hreports := by
    refine ⟨by rw [takeReport_cons hreports], fun horizon => ?_⟩
    rw [awaitReport, takeReport_cons hreports]
  idle horizon hidle := by
    rcases h.awaitReport_cases horizon with ⟨_, _, -, heq⟩ | ⟨_, _, _, -, -, -, heq⟩ |
      ⟨hreports, hpending, -⟩ | ⟨-, -, heq⟩
    · rw [heq] at hidle
      cases hidle
    · rw [heq] at hidle
      cases hidle
    · exact ⟨hreports, hpending⟩
    · rw [heq] at hidle
      cases hidle
  expired horizon hexpired := by
    rcases h.awaitReport_cases horizon with ⟨_, _, -, heq⟩ | ⟨_, _, _, -, -, -, heq⟩ |
      ⟨-, -, heq⟩ | ⟨hreports, hlater, -⟩
    · rw [heq] at hexpired
      cases hexpired
    · rw [heq] at hexpired
      cases hexpired
    · rw [heq] at hexpired
      cases hexpired
    · exact ⟨hreports, fun t ht => hlater t (h.asleep.mem_iff.2 ht)⟩
  pending id := by
    rw [isPending_iff]
    constructor
    · rintro ⟨serial, hserial⟩
      obtain ⟨t, ht, htid, -⟩ := (h.armed id serial).1 hserial
      exact ⟨t, ht, htid⟩
    · rintro ⟨t, ht, htid⟩
      exact ⟨t.serial, (h.armed id t.serial).2 ⟨t, ht, htid, rfl⟩⟩
  exit _ := ⟨rfl, rfl⟩

end Scheduler

inductive TimerStep where
  | schedule (delay : Int)
  | clear (id : Int32)
  | advance (millis : Nat)
  | tryNext
  | next (horizon : Nat)
  | exit (code : Int32)
  deriving DecidableEq, Repr

namespace TimerStep

def arms : TimerStep → Bool
  | .schedule _ => true
  | _ => false

def perform (s : Scheduler) : TimerStep → List TimerEvent × Scheduler
  | .schedule delay =>
    ([.armed (s.schedule delay).1 (s.now + (max delay 0).toNat)], (s.schedule delay).2)
  | .clear id => ([.cleared id], (s.clear id).2)
  | .advance millis => ([.over (s.now + millis + 1)], s.advance millis)
  | .tryNext =>
    match s.takeReport with
    | (some id, s') => ([.handed id], s')
    | (none, s') => ([], s')
  | .next horizon =>
    match s.awaitReport horizon with
    | (.report id, s') => (if s.reports = [] then [.over (s'.now + 1), .handed id] else [.handed id], s')
    | (.idle, s') => ([], s')
    | (.expired, s') => ([.over s'.now], s')
  | .exit code => ([.exited s.reports], s.exit code)

def performAll : List TimerStep → List TimerEvent → Scheduler → List TimerEvent × Scheduler
  | [], history, s => (history, s)
  | step :: rest, history, s =>
    performAll rest (history ++ (step.perform s).1) (step.perform s).2

variable {s : Scheduler} {history : List TimerEvent}

theorem keeps_perform (h : s.Keeps history) (step : TimerStep)
    (hfew : s.nextSerial + [step].countP arms < UInt32.size) :
    (step.perform s).2.Keeps (history ++ (step.perform s).1) ∧
      (step.perform s).2.nextSerial = s.nextSerial + [step].countP arms := by
  cases step with
  | schedule delay => exact ⟨h.schedule delay hfew, rfl⟩
  | clear id =>
    refine ⟨h.clear id hfew, ?_⟩
    obtain ⟨_, heq, -⟩ := h.clear_eq id hfew
    simp only [perform, heq]
    rfl
  | advance millis =>
    refine ⟨?_, rfl⟩
    rw [perform, Scheduler.advance_eq h.sorted]
    exact h.wake (Nat.le_add_right _ _) (.inr rfl)
  | tryNext =>
    cases hreports : s.reports with
    | nil =>
      rw [perform, Scheduler.takeReport_nil hreports, List.append_nil]
      exact ⟨h, rfl⟩
    | cons id rest =>
      rw [perform, Scheduler.takeReport_cons hreports]
      exact ⟨h.take hreports, rfl⟩
  | next horizon =>
    rcases h.awaitReport_cases horizon with ⟨id, rest, hreports, heq⟩ |
      ⟨moment, id, rest, hreports, hmoment, hwoken, heq⟩ | ⟨-, -, heq⟩ | ⟨-, -, heq⟩
    · simp only [perform, heq, hreports, List.cons_ne_nil, if_false]
      exact ⟨h.take hreports, rfl⟩
    · simp only [perform, heq, hreports, if_true]
      have hwake := (h.wake hmoment (.inr rfl)).take hwoken
      rw [List.append_assoc] at hwake
      exact ⟨hwake, rfl⟩
    · rw [perform, heq, List.append_nil]
      exact ⟨h, rfl⟩
    · rw [perform, heq]
      exact ⟨h.wake (Nat.le_add_right _ _) (.inl rfl), rfl⟩
  | exit code => exact ⟨h.exit code, rfl⟩

theorem exact_performAll (steps : List TimerStep) (h : s.Keeps history)
    (hfew : s.nextSerial + steps.countP arms < UInt32.size) :
    (performAll steps history s).2.Exact (performAll steps history s).1 := by
  induction steps generalizing history s with
  | nil => exact h.exact hfew
  | cons step rest ih =>
    rw [← List.singleton_append, List.countP_append] at hfew
    obtain ⟨hkeeps, hserial⟩ := keeps_perform h step (by omega)
    exact ih hkeeps (by omega)

/-- Timer reports are exact: whatever is done with a new scheduler that arms fewer than 2³² timers, it
is as its history says. -/
theorem reports_are_exact (maxRefires : Nat) (steps : List TimerStep)
    (hfew : steps.countP arms < UInt32.size) :
    (performAll steps [] (.new maxRefires)).2.Exact (performAll steps [] (.new maxRefires)).1 := by
  refine exact_performAll steps (Scheduler.keeps_new maxRefires) ?_
  rw [show (Scheduler.new maxRefires).nextSerial = 0 from rfl, Nat.zero_add]
  exact hfew

/-- One timer is due at once, one is cleared in time, and one is left when the guest exits. -/
def mixed : List TimerStep :=
  [.schedule 20, .schedule (-5), .schedule 20, .schedule 30, .advance 5, .clear 3, .tryNext,
    .next 100, .advance 50, .exit 0]

theorem reports_are_exact_mixed :
    mixed.countP arms < UInt32.size ∧
    let run := performAll mixed [] (.new 16)
    run.1 = [.armed 1 20, .armed 2 0, .armed 3 20, .armed 4 30, .over 6, .cleared 3, .handed 2,
      .over 21, .handed 1, .over 71, .exited [4]] ∧
    (TimerEvent.reported run.1).map (·.id) = [1, 2, 4] ∧ run.2.reports = [] ∧ run.2.Exact run.1 :=
  ⟨by decide, by decide +kernel, by decide +kernel, by decide +kernel,
    reports_are_exact 16 mixed (by decide)⟩

end TimerStep

end TokenizerHost
