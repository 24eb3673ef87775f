import TokenizerHost.Scheduler

set_option autoImplicit false

/-!
# Timers and their ids

The id of an arming is one more than its serial, as a number of 32 bits (`Scheduler.idOf`), so ids
come round again after 2³² armings, also while an older timer with the same id is armed: the new
timer then takes its place. `Scheduler.IdsIssued` says how ids, armings and reports belong together.

A timer that sleeps is armed unless its id has been given again since, and an exit clears the armed
timers. So whatever sleeps or reports after an exit is a timer whose id has been given again
(`Scheduler.Tended`, `Scheduler.Spent`).
-/

namespace TokenizerHost

namespace Scheduler

variable {s s' : Scheduler} {id : Int32} {serial : Nat}

/-! ## What is armed -/

def disarm (s : Scheduler) (id : Int32) (serial : Nat) : Scheduler :=
  { s with
    armed := s.armed.erase id
    sleeping := s.sleeping.filter fun t => t.serial != serial }

theorem clear_armed (h : s.armed.find? id = some serial) :
    s.clear id = (true, s.disarm id serial) := by
  simp only [clear, h, Scheduler.disarm]

theorem clear_idle (h : s.armed.find? id = none) : s.clear id = (false, s) := by
  simp only [clear, h]

theorem isPending_iff : s.isPending id = true ↔ ∃ serial, s.armed.find? id = some serial :=
  Option.isSome_iff_exists

theorem isPending_eq_false_iff : s.isPending id = false ↔ s.armed.find? id = none :=
  Option.isSome_eq_false_iff.trans Option.isNone_iff_eq_none

theorem find?_disarm (s : Scheduler) (id : Int32) (serial : Nat) (other : Int32) :
    (s.disarm id serial).armed.find? other =
      if other = id then none else s.armed.find? other := Assoc.find?_erase _ _ _

theorem find?_schedule (s : Scheduler) (delay : Int) (id : Int32) :
    (s.schedule delay).2.armed.find? id =
      if id = s.nextId then some s.nextSerial else s.armed.find? id := Assoc.find?_insert _ _ _ _

theorem armed_schedule {delay : Int} (h : (s.schedule delay).2.armed.find? id = some serial) :
    (id = s.nextId ∧ serial = s.nextSerial) ∨
      (id ≠ s.nextId ∧ s.armed.find? id = some serial) := by
  rw [find?_schedule] at h
  split at h
  next hnew =>
    cases h
    exact .inl ⟨hnew, rfl⟩
  next hold => exact .inr ⟨hold, h⟩

theorem armed_disarm {other : Int32} {n : Nat}
    (h : (s.disarm id serial).armed.find? other = some n) :
    other ≠ id ∧ s.armed.find? other = some n := by
  rw [find?_disarm] at h
  split at h
  next => cases h
  next hne => exact ⟨hne, h⟩

theorem mem_insertSleeping {t u : SleepingTimer} {sleeping : List SleepingTimer} :
    u ∈ insertSleeping t sleeping ↔ u = t ∨ u ∈ sleeping := by
  induction sleeping with
  | nil => simp [insertSleeping]
  | cons first rest ih =>
    rw [insertSleeping]
    split
    · rw [List.mem_cons, ih, List.mem_cons]
      exact or_left_comm
    · exact List.mem_cons

theorem mem_exit {t : SleepingTimer} {code : Int32} :
    t ∈ (s.exit code).sleeping ↔ t ∈ s.sleeping ∧ s.armed.find? t.id ≠ some t.serial := by
  rw [exit, List.mem_filter, bne_iff_ne]

/-! ## Ids -/

def idOf (serial : Nat) : Int32 := Int32.ofNat (serial + 1)

theorem idOf_succ (serial : Nat) : idOf (serial + 1) = idOf serial + 1 :=
  Int32.ofNat_add (serial + 1) 1

theorem idOf_eq_iff {m n : Nat} : idOf m = idOf n ↔ m % UInt32.size = n % UInt32.size := by
  rw [show UInt32.size = 4294967296 from rfl]
  constructor
  · intro h
    have hmod := congrArg (fun id : Int32 => id.toBitVec.toNat) h
    change (BitVec.ofNat 32 (m + 1)).toNat = (BitVec.ofNat 32 (n + 1)).toNat at hmod
    rw [BitVec.toNat_ofNat, BitVec.toNat_ofNat] at hmod
    omega
  · intro h
    have hbits : BitVec.ofNat 32 (m + 1) = BitVec.ofNat 32 (n + 1) := by
      refine BitVec.eq_of_toNat_eq ?_
      rw [BitVec.toNat_ofNat, BitVec.toNat_ofNat]
      omega
    exact congrArg Int32.ofBitVec hbits

theorem idOf_inj {m n : Nat} (hm : m < UInt32.size) (hn : n < UInt32.size)
    (h : idOf m = idOf n) : m = n := by
  have hmod := idOf_eq_iff.1 h
  rwa [Nat.mod_eq_of_lt hm, Nat.mod_eq_of_lt hn] at hmod

/-! ## As time passes -/

structure Ages (s s' : Scheduler) : Prop where
  state : s'.state = s.state
  announced : s'.announced = s.announced
  nextId : s'.nextId = s.nextId
  nextSerial : s'.nextSerial = s.nextSerial
  armed : s'.armed = s.armed
  sleeping : s'.sleeping ⊆ s.sleeping
  reports : ∀ id ∈ s'.reports, id ∈ s.reports ∨ ∃ t ∈ s.sleeping, t.id = id

theorem reports_woken {p : SleepingTimer → Bool} {reports : List Int32}
    {sleeping : List SleepingTimer} :
    ∀ id ∈ reports ++ (sleeping.takeWhile p).map (·.id),
      id ∈ reports ∨ ∃ t ∈ sleeping, t.id = id := by
  intro id hmem
  rcases List.mem_append.1 hmem with hold | hdue
  · exact .inl hold
  · obtain ⟨t, ht, rfl⟩ := List.mem_map.1 hdue
    exact .inr ⟨t, (List.takeWhile_sublist p).subset ht, rfl⟩

theorem ages_advance (s : Scheduler) (millis : Nat) : s.Ages (s.advance millis) :=
  ⟨rfl, rfl, rfl, rfl, rfl, (List.dropWhile_sublist _).subset, reports_woken⟩

theorem ages_elapse (s : Scheduler) (millis : Nat) : s.Ages (s.elapse millis) :=
  ⟨rfl, rfl, rfl, rfl, rfl, (List.dropWhile_sublist _).subset, reports_woken⟩

theorem ages_take {rest : List Int32} (h : s.reports = id :: rest) :
    s.Ages { s with reports := rest } :=
  ⟨rfl, rfl, rfl, rfl, rfl, List.Subset.refl _,
    fun _ hmem => .inl (h ▸ List.mem_cons_of_mem _ hmem)⟩

/-- Ids belong to armings, and an armed timer to one of the latest 2³². -/
structure IdsIssued (s : Scheduler) : Prop where
  next : s.nextId = idOf s.nextSerial
  armed : ∀ id serial, s.armed.find? id = some serial →
    id = idOf serial ∧ serial < s.nextSerial ∧ s.nextSerial ≤ serial + UInt32.size
  asleep : ∀ t ∈ s.sleeping, t.id = idOf t.serial ∧ t.serial < s.nextSerial
  reported : ∀ id ∈ s.reports, ∃ serial < s.nextSerial, id = idOf serial

namespace IdsIssued

theorem new (maxRefires : Nat) : (Scheduler.new maxRefires).IdsIssued where
  next := rfl
  armed _ _ h := nomatch h
  asleep _ h := nomatch h
  reported _ h := nomatch h

theorem ages (h : s.IdsIssued) (hages : s.Ages s') : s'.IdsIssued := by
  refine ⟨?_, ?_, fun t ht => ?_, fun id hmem => ?_⟩
  · rw [hages.nextId, hages.nextSerial]
    exact h.next
  · rw [hages.armed, hages.nextSerial]
    exact h.armed
  · rw [hages.nextSerial]
    exact h.asleep t (hages.sleeping ht)
  · rw [hages.nextSerial]
    rcases hages.reports id hmem with hold | ⟨t, ht, rfl⟩
    · exact h.reported id hold
    · exact ⟨t.serial, (h.asleep t ht).2, (h.asleep t ht).1⟩

/-- An armed timer with the next id is the one armed 2³² armings ago. -/
theorem serial_of_next (h : s.IdsIssued) (hfind : s.armed.find? s.nextId = some serial) :
    serial + UInt32.size = s.nextSerial := by
  obtain ⟨hid, hlt, hle⟩ := h.armed _ serial hfind
  have hmod := idOf_eq_iff.1 (h.next.symm.trans hid)
  rw [show UInt32.size = 4294967296 from rfl] at *
  omega

theorem schedule (h : s.IdsIssued) (delay : Int) : (s.schedule delay).2.IdsIssued := by
  refine ⟨?_, fun id serial hfind => ?_, fun t ht => ?_, fun id hmem => ?_⟩
  · change s.nextId + 1 = idOf (s.nextSerial + 1)
    rw [idOf_succ, h.next]
  · change id = idOf serial ∧ serial < s.nextSerial + 1 ∧ s.nextSerial + 1 ≤ serial + UInt32.size
    rcases armed_schedule hfind with ⟨hnew, rfl⟩ | ⟨hne, hold⟩
    · have hsize : 0 < UInt32.size := by decide
      exact ⟨hnew.trans h.next, Nat.lt_succ_self _, by omega⟩
    -- the timer armed 2³² armings ago has the next id, and is overwritten
    · obtain ⟨hid, hlt, hle⟩ := h.armed id serial hold
      have hother : s.nextSerial ≠ serial + UInt32.size := by
        intro hround
        refine hne (hid.trans (h.next.symm ▸ idOf_eq_iff.2 ?_))
        rw [hround, Nat.add_mod_right]
      exact ⟨hid, by omega, by omega⟩
  · change t.id = idOf t.serial ∧ t.serial < s.nextSerial + 1
    rcases mem_insertSleeping.1 ht with rfl | hold
    · exact ⟨h.next, Nat.lt_succ_self _⟩
    · exact ⟨(h.asleep t hold).1, Nat.lt_succ_of_lt (h.asleep t hold).2⟩
  · obtain ⟨serial, hlt, hid⟩ := h.reported id hmem
    exact ⟨serial, Nat.lt_succ_of_lt hlt, hid⟩

theorem disarm (h : s.IdsIssued) (id : Int32) (serial : Nat) : (s.disarm id serial).IdsIssued where
  next := h.next
  armed _ _ hfind := h.armed _ _ (armed_disarm hfind).2
  asleep t ht := h.asleep t (List.mem_filter.1 ht).1
  reported := h.reported

theorem exit (h : s.IdsIssued) (code : Int32) : (s.exit code).IdsIssued where
  next := h.next
  armed _ _ hfind := nomatch hfind
  asleep t ht := h.asleep t (mem_exit.1 ht).1
  reported _ hmem := nomatch hmem

end IdsIssued

/-! ## What an exit leaves -/

/-- The id of an arming has been given again since. -/
def Reissued (s : Scheduler) (serial : Nat) : Prop := serial + UInt32.size < s.nextSerial

/-- No timer is armed, and none sleeps or has reported but for those whose ids have been given
again. -/
structure Spent (s : Scheduler) : Prop where
  armed : s.armed = .empty
  asleep : ∀ t ∈ s.sleeping, s.Reissued t.serial
  reported : ∀ id ∈ s.reports, ∃ serial, id = idOf serial ∧ s.Reissued serial

theorem Spent.nothing (h : s.Spent) (hfew : s.nextSerial ≤ UInt32.size) :
    s.sleeping = [] ∧ s.reports = [] := by
  have hnever : ∀ serial, ¬ s.Reissued serial := fun serial hreissued => by
    rw [Reissued] at hreissued
    omega
  refine ⟨List.eq_nil_iff_forall_not_mem.2 fun t ht => hnever _ (h.asleep t ht),
    List.eq_nil_iff_forall_not_mem.2 fun id hid => ?_⟩
  obtain ⟨serial, -, hreissued⟩ := h.reported id hid
  exact hnever serial hreissued

/-- A sleeping timer is armed or its id has been given again, and an exited guest has left no
other. -/
structure Tended (s : Scheduler) : Prop where
  issued : s.IdsIssued
  asleep : ∀ t ∈ s.sleeping, s.armed.find? t.id = some t.serial ∨ s.Reissued t.serial
  spent : s.exitCode? ≠ none → s.Spent

namespace Tended

theorem new (maxRefires : Nat) : (Scheduler.new maxRefires).Tended where
  issued := .new maxRefires
  asleep _ h := nomatch h
  spent h := absurd rfl h

theorem ages (h : s.Tended) (hages : s.Ages s') : s'.Tended := by
  refine ⟨h.issued.ages hages, fun t ht => ?_, fun hexit => ?_⟩
  · rw [hages.armed, Reissued, hages.nextSerial]
    exact h.asleep t (hages.sleeping ht)
  · have hspent : s.Spent := h.spent (by rwa [exitCode?, hages.state] at hexit)
    refine ⟨hages.armed.trans hspent.armed, fun t ht => ?_, fun id hid => ?_⟩
    · rw [Reissued, hages.nextSerial]
      exact hspent.asleep t (hages.sleeping ht)
    · simp only [Reissued, hages.nextSerial]
      rcases hages.reports id hid with hold | ⟨t, ht, rfl⟩
      · exact hspent.reported id hold
      · exact ⟨t.serial, (h.issued.asleep t ht).1, hspent.asleep t ht⟩

theorem schedule (h : s.Tended) (hrun : s.exitCode? = none) (delay : Int) :
    (s.schedule delay).2.Tended := by
  refine ⟨h.issued.schedule delay, fun t ht => ?_, fun hexit => absurd hrun hexit⟩
  change (s.schedule delay).2.armed.find? t.id = some t.serial ∨
    t.serial + UInt32.size < s.nextSerial + 1
  rw [find?_schedule]
  rcases mem_insertSleeping.1 ht with rfl | hold
  · exact .inl (if_pos rfl)
  · rcases h.asleep t hold with harmed | hreissued
    -- the timer is overwritten if it has the next id, and its own arming is then 2³² armings ago
    · by_cases hnext : t.id = s.nextId
      · have hround := h.issued.serial_of_next (hnext ▸ harmed)
        exact .inr (by omega)
      · exact .inl (by rwa [if_neg hnext])
    · exact .inr (Nat.lt_succ_of_lt hreissued)

theorem clear (h : s.Tended) (id : Int32) : (s.clear id).2.Tended := by
  cases hfind : s.armed.find? id with
  | none =>
    rw [clear_idle hfind]
    exact h
  | some serial =>
    rw [clear_armed hfind]
    refine ⟨h.issued.disarm id serial, fun t ht => ?_, fun hexit => ?_⟩
    · obtain ⟨hold, hother⟩ := List.mem_filter.1 ht
      refine (h.asleep t hold).imp_left fun harmed => ?_
      have hne : t.id ≠ id := fun hid => by
        rw [hid, hfind] at harmed
        exact bne_iff_ne.1 hother (Option.some.inj harmed).symm
      rw [find?_disarm, if_neg hne]
      exact harmed
    · rw [(h.spent hexit).armed, Assoc.find?_empty] at hfind
      cases hfind

theorem reframe (h : s.Tended) {depth : Nat} {state : GuestState}
    (hstate : state.exitCode? ≠ none → s.exitCode? ≠ none) : { s with depth, state }.Tended where
  issued := ⟨h.issued.next, h.issued.armed, h.issued.asleep, h.issued.reported⟩
  asleep := h.asleep
  spent hexit :=
    let hspent := h.spent (hstate hexit)
    ⟨hspent.armed, hspent.asleep, hspent.reported⟩

/-- A timer outlasts the exit exactly if its id has been given again. -/
theorem mem_exit_iff (h : s.Tended) (code : Int32) {t : SleepingTimer} :
    t ∈ (s.exit code).sleeping ↔ t ∈ s.sleeping ∧ s.Reissued t.serial := by
  refine mem_exit.trans (and_congr_right fun ht => ⟨(h.asleep t ht).resolve_left, ?_⟩)
  intro hreissued harmed
  obtain ⟨-, -, hlatest⟩ := h.issued.armed _ _ harmed
  rw [Reissued] at hreissued
  omega

theorem exit (h : s.Tended) (code : Int32) : (s.exit code).Tended := by
  have hleft : ∀ t ∈ (s.exit code).sleeping, s.Reissued t.serial := fun t ht =>
    ((h.mem_exit_iff code).1 ht).2
  exact ⟨h.issued.exit code, fun t ht => .inr (hleft t ht), fun _ => ⟨rfl, hleft, nofun⟩⟩

end Tended

end Scheduler

end TokenizerHost
